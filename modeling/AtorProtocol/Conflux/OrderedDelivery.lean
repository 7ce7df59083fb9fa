import AtorProtocol.Conflux.Ends
import AtorProtocol.Lib.Run

/-!
# Ordered delivery

A sender, a receiver and the FIFO legs between them; no leg closes for a reason of its own.

* `Net.step` — a cell is sent, or the oldest cell on a leg is received.
* `orderedDelivery_of_reaches` — the cells delivered are the first of the cells sent, and in the
  end all of them.
* `not_orderedDelivery` — the numbers of the legs wrap.
-/

namespace Ator.Conflux

open List Function

variable {ι α : Type*} [DecidableEq ι]

/-- The two ends and what is in flight.  `closed` has the circuits that the receiver has marked
for close.  `sent` and `delivered` keep the multiplexed cells for the reader, `sent` with the
circuit each went out on; no function reads them. -/
structure Net (ι α : Type*) where
  sender : Cfx ι α
  flight : ι → List (WireCell α)
  receiver : Cfx ι α
  closed : ι → Bool
  sent : List (ι × α)
  delivered : List α

/-- What can happen next: `send` with the circuit that the command is for and the outcome of the
scheduling, `receive` of the oldest cell on a leg. -/
inductive Event (ι α : Type*) where
  | send (origCirc : ι) (relayCommand : RelayCommand) (cell : α) (sched : Schedule ι)
  | receive (circ : ι)

/-- Decide, put the cell on the circuit, note it.  Where no circuit is ready nothing is sent. -/
def Net.send (net : Net ι α) (origCirc : ι) (relayCommand : RelayCommand) (cell : α)
    (sched : Schedule ι) : Option (Net ι α) :=
  match confluxDecideCircForSend net.sender origCirc relayCommand sched with
  | .error _ => none
  | .ok decision =>
    match decision.circ with
    | none => some { net with sender := decision.cfx }
    | some circ =>
      some
        { net with
          sender := confluxNoteCellSent decision.cfx circ relayCommand
          flight := update net.flight circ
            (net.flight circ ++ ((decision.switch.map WireCell.switch).toList
              ++ [.relay relayCommand cell]))
          sent := if confluxShouldMultiplex relayCommand then net.sent ++ [(circ, cell)]
            else net.sent }

/-- Mark a circuit for close. -/
def Net.close (net : Net ι α) (circ : ι) : Net ι α :=
  { net with closed := update net.closed circ true }

/-- The receiver takes a cell off a leg.  It does not look at the cells of a circuit that it has
marked for close. -/
def Net.process (net : Net ι α) (circ : ι) (wire : WireCell α) : Net ι α :=
  if net.closed circ then net else
    match wire with
    | .switch relativeSeq =>
      match confluxProcessSwitchCommand net.receiver circ true true relativeSeq with
      | none => net.close circ
      | some cfx => { net with receiver := cfx }
    | .relay relayCommand cell =>
      if confluxShouldMultiplex relayCommand then
        let delivery := connectionEdgeProcessRelayCell net.receiver circ true cell
        let net := { net with
          receiver := delivery.cfx, delivered := net.delivered ++ delivery.cells }
        if delivery.close then net.close circ else net
      else net

def Net.receive (net : Net ι α) (circ : ι) : Option (Net ι α) :=
  match net.flight circ with
  | [] => none
  | wire :: flight => some (Net.process { net with
      flight := update net.flight circ flight } circ wire)

def Net.step (net : Net ι α) : Event ι α → Option (Net ι α)
  | .send origCirc relayCommand cell sched => net.send origCirc relayCommand cell sched
  | .receive circ => net.receive circ

/-- A set that has just been linked over some circuits. -/
def Cfx.linked (circs : List ι) (h : circs.Nodup) : Cfx ι α where
  legs := ⟨circs.map fun c => (c, ⟨0, 0⟩), by simpa [comp_def] using h⟩
  oooQ := PQueue.empty _
  lastSeqDelivered := 0
  currLeg := none
  prevLeg := none
  inFullTeardown := false

def Net.linked (circs : List ι) (h : circs.Nodup) : Net ι α where
  sender := Cfx.linked circs h
  flight := fun _ => []
  receiver := Cfx.linked circs h
  closed := fun _ => false
  sent := []
  delivered := []

/-- **Ordered delivery**: the cells delivered are the first of the cells sent, the receiver has
closed no circuit, and when nothing is in flight all cells have been delivered. -/
def OrderedDelivery (net : Net ι α) : Prop :=
  net.delivered <+: net.sent.map Prod.snd ∧ (∀ circ, net.closed circ = false)
    ∧ ((∀ circ, net.flight circ = []) → net.delivered = net.sent.map Prod.snd)

/-! ## Runs -/

section Invariant

variable {net net' : Net ι α} {sent : List (ι × α)} {circ : ι} {cell : α}
  {relayCommand : RelayCommand}

/-- A leg and what is in flight on it, from the two ends' numbers; a circuit that is no leg has
cells of its own alone. -/
def LegCarries (sent : List (ι × α)) (circ : ι) (flight : List (WireCell α)) :
    Option ℕ → Option ℕ → Prop
  | some n, some r => Carries sent circ r flight n
  | none, none => ∀ wire ∈ flight, ∃ relayCommand cell, wire = .relay relayCommand cell
      ∧ confluxShouldMultiplex relayCommand = false
  | _, _ => False

/-- The two ends and the legs, in every state of a run. -/
structure NetInv (net : Net ι α) : Prop where
  sending : Sending net.sender net.sent
  receiving : Receiving net.receiver net.sent net.delivered
  legs : ∀ circ, LegCarries net.sent circ (net.flight circ) (lastSent net.sender circ)
    (lastRecv net.receiver circ)
  closed : ∀ circ, net.closed circ = false

lemma NetInv.lastRecv_eq_some (h : NetInv net) {n : ℕ} (hn : lastSent net.sender circ = some n) :
    ∃ r, lastRecv net.receiver circ = some r ∧ Carries net.sent circ r (net.flight circ) n := by
  have hleg := h.legs circ
  rw [hn] at hleg
  rcases hr : lastRecv net.receiver circ with _ | r
  · rw [hr] at hleg
    exact hleg.elim
  · rw [hr] at hleg
    exact ⟨r, rfl, hleg⟩

lemma NetInv.orderedDelivery (h : NetInv net) : OrderedDelivery net := by
  refine ⟨h.receiving.delivered ▸ List.take_prefix _ _, h.closed, fun hflight => ?_⟩
  have hend : net.receiver.lastSeqDelivered = net.sent.length := by
    refine Nat.le_antisymm h.receiving.bound (not_lt.mp fun hlt => h.receiving.waiting ?_)
    have hown : Owns net.sent (net.sent[net.receiver.lastSeqDelivered]).1
        net.receiver.lastSeqDelivered := ⟨_, getElem?_eq_getElem hlt⟩
    obtain ⟨n, hn, hlt⟩ := h.sending.owned _ _ hown
    obtain ⟨r, hr, hcarries⟩ := h.lastRecv_eq_some hn
    rw [hflight] at hcarries
    exact ⟨_, r, hown, hr, hlt.trans_eq hcarries.symm⟩
  rw [h.receiving.delivered, hend, ← length_map (f := Prod.snd), take_length]

omit [DecidableEq ι] in
lemma LegCarries.extend {flight : List (WireCell α)} {s r : Option ℕ} {more : List (ι × α)}
    (h : LegCarries sent circ flight s r) (hs : ∀ n, s = some n → n ≤ sent.length) :
    LegCarries (sent ++ more) circ flight s r := by
  rcases s with _ | n <;> rcases r with _ | r
  · exact h
  · exact h
  · exact h
  · exact Carries.extend h (hs n rfl)

lemma NetInv.sendOther (h : NetInv net) (hmux : confluxShouldMultiplex relayCommand = false) :
    NetInv
      { net with
        flight := update net.flight circ
          (net.flight circ ++ [.relay relayCommand cell]) } := by
  refine ⟨h.sending, h.receiving, fun c => ?_, h.closed⟩
  by_cases hc : c = circ
  · subst hc
    have hleg := h.legs c
    simp only [update_self]
    rcases hn : lastSent net.sender c with _ | n <;>
      rcases hr : lastRecv net.receiver c with _ | r <;> rw [hn, hr] at hleg
    · intro wire hwire
      rcases mem_append.mp hwire with hold | hlast
      · exact hleg wire hold
      · exact ⟨relayCommand, cell, mem_singleton.mp hlast, hmux⟩
    · exact hleg
    · exact hleg
    · refine Carries.append hleg ?_
      rw [Carries, hmux]
      rfl
  · simp only [update_of_ne hc]
    exact h.legs c

lemma NetInv.sendCell (h : NetInv net) {decision : Decision ι α}
    (hmux : confluxShouldMultiplex relayCommand = true) (hlen : net.sent.length + 1 < 2 ^ 64)
    (hdecided : Decided net.sender net.sent decision) (hcirc : decision.circ = some circ) :
    NetInv
      { net with
        sender := confluxNoteCellSent decision.cfx circ relayCommand
        flight := update net.flight circ
          (net.flight circ ++ ((decision.switch.map WireCell.switch).toList
            ++ [.relay relayCommand cell]))
        sent := net.sent ++ [(circ, cell)] } := by
  obtain ⟨hcurr, n, hn, hswitch⟩ := hdecided.chosen circ hcirc
  obtain ⟨hsending, hlast⟩ := hdecided.sending.noteCellSent hcurr cell hlen hmux
  obtain ⟨r, hr, hflight⟩ := h.lastRecv_eq_some hn
  have hn' := h.sending.bound circ n hn
  refine ⟨hsending, ?_, fun c => ?_, h.closed⟩
  · refine h.receiving.congr rfl rfl (prefix_append _ _) fun k => ?_
    constructor
    · rintro ⟨c, m, hown, hm, hk⟩
      rcases owns_concat_iff.mp hown with hown | ⟨rfl, rfl⟩
      · exact ⟨c, m, hown, hm, hk⟩
      · rw [hr] at hm
        cases hm
        exact absurd (hflight.le.trans hn') (not_le.mpr hk)
    · rintro ⟨c, m, hown, hm, hk⟩
      exact ⟨c, m, owns_concat_iff.mpr (Or.inl hown), hm, hk⟩
  · by_cases hc : c = circ
    · subst hc
      simp only [update_self]
      rw [hlast, hr]
      rw [← append_assoc]
      refine ((hflight.append hswitch).extend le_rfl).append ?_
      rw [Carries, if_pos hmux]
      exact ⟨by simp, rfl⟩
    · simp only [update_of_ne hc]
      rw [lastSent_noteCellSent hmux, if_neg hc, hdecided.others c fun heq =>
        hc (Option.some.inj (heq.symm.trans hcirc))]
      exact (h.legs c).extend (h.sending.bound c)

lemma NetInv.send (h : NetInv net) {origCirc : ι} {sched : Schedule ι}
    (hsend : net.send origCirc relayCommand cell sched = some net')
    (hlen : net'.sent.length < 2 ^ 64) : NetInv net' := by
  rw [Net.send] at hsend
  split at hsend
  · cases hsend
  · next decision hdecide =>
      by_cases hmux : confluxShouldMultiplex relayCommand = true
      · split at hsend
        · next hcirc =>
            cases hsend
            have hdecided := h.sending.decide hlen hmux hdecide
            refine ⟨hdecided.sending, h.receiving, fun c => ?_, h.closed⟩
            simp only [hdecided.others c (by simp [hcirc])]
            exact h.legs c
        · next circ hcirc =>
            cases hsend
            simp only [if_pos hmux, length_append, length_singleton] at hlen ⊢
            exact h.sendCell hmux hlen (h.sending.decide (by omega) hmux hdecide) hcirc
      · rw [confluxDecideCircForSend, if_neg hmux] at hdecide
        cases hdecide
        cases hsend
        simp only [confluxNoteCellSent, if_neg hmux]
        exact h.sendOther (Bool.not_eq_true _ ▸ hmux)

lemma NetInv.received (h : NetInv net) {cfx : Cfx ι α} (cells : List α)
    {flight : List (WireCell α)} {n r : ℕ} (hsent : lastSent net.sender circ = some n)
    (hreceiving : Receiving cfx net.sent (net.delivered ++ cells))
    (hcarries : Carries net.sent circ r flight n)
    (hrecv : ∀ c, lastRecv cfx c = if c = circ then some r else lastRecv net.receiver c) :
    NetInv
      { net with
        flight := update net.flight circ flight
        receiver := cfx
        delivered := net.delivered ++ cells } := by
  refine ⟨h.sending, hreceiving, fun c => ?_, h.closed⟩
  by_cases hc : c = circ
  · subst hc
    simp only [update_self, hrecv, if_true, hsent]
    exact hcarries
  · simp only [update_of_ne hc, hrecv, if_neg hc]
    exact h.legs c

lemma NetInv.receive (h : NetInv net) (hlen : net.sent.length < 2 ^ 64)
    (hreceive : net.receive circ = some net') : NetInv net' := by
  rw [Net.receive] at hreceive
  split at hreceive
  · cases hreceive
  · next wire flight hflight =>
      cases hreceive
      have hleg := h.legs circ
      have hopen : ¬ net.closed circ = true := by simp [h.closed]
      rw [hflight] at hleg
      rcases hn : lastSent net.sender circ with _ | n <;>
        rcases hr : lastRecv net.receiver circ with _ | r <;> rw [hn, hr] at hleg
      · obtain ⟨relayCommand, cell, rfl, hmux⟩ := hleg wire mem_cons_self
        rw [Net.process, if_neg hopen]
        simp only [hmux, Bool.false_eq_true, if_false]
        refine ⟨h.sending, h.receiving, fun c => ?_, h.closed⟩
        by_cases hc : c = circ
        · subst hc
          simp only [update_self, hn, hr]
          exact fun w hw => hleg w (mem_cons_of_mem _ hw)
        · simp only [update_of_ne hc]
          exact h.legs c
      · exact hleg.elim
      · exact hleg.elim
      · have hnN := h.sending.bound circ n hn
        cases wire with
        | switch relativeSeq =>
          rw [Net.process, if_neg hopen]
          obtain ⟨hgap, hcarries⟩ : _ ∧ _ := hleg
          have hle := hcarries.le
          obtain ⟨cfx, hprocess, hreceiving, hrecv⟩ := h.receiving.processSwitch hr (by omega) hgap
          simp only [hprocess]
          have := h.received [] hn (by rwa [append_nil]) hcarries hrecv
          rwa [append_nil] at this
        | relay relayCommand cell =>
          rw [Net.process, if_neg hopen]
          rw [LegCarries, Carries] at hleg
          split at hleg
          · next hmux =>
              obtain ⟨hcell, hcarries⟩ := hleg
              obtain ⟨cfx, cells, hprocess, hreceiving, hrecv⟩ :=
                h.receiving.processRelayCell hlen hr hcell
              simp only [if_pos hmux, hprocess, Bool.false_eq_true, if_false]
              exact h.received _ hn hreceiving hcarries hrecv
          · next hmux =>
              simp only [if_neg hmux]
              refine ⟨h.sending, h.receiving, fun c => ?_, h.closed⟩
              by_cases hc : c = circ
              · subst hc
                simp only [update_self, hn, hr]
                exact hleg
              · simp only [update_of_ne hc]
                exact h.legs c

lemma sent_prefix_of_step {e : Event ι α} (h : net.step e = some net') : net.sent <+: net'.sent := by
  cases e with
  | send origCirc relayCommand cell sched =>
    rw [Net.step, Net.send] at h
    split at h
    · cases h
    · split at h <;> cases h
      · exact prefix_refl _
      · simp only
        split
        · exact prefix_append _ _
        · exact prefix_refl _
  | receive circ =>
    rw [Net.step, Net.receive] at h
    split at h
    · cases h
    · next wire flight _ =>
        cases h
        cases wire with
        | switch relativeSeq =>
          rw [Net.process]
          split
          · exact prefix_refl _
          · simp only
            split <;> exact prefix_refl _
        | relay relayCommand cell =>
          rw [Net.process]
          simp only
          split_ifs <;> exact prefix_refl _

lemma NetInv.step (h : NetInv net) {e : Event ι α} (hstep : net.step e = some net')
    (hlen : net'.sent.length < 2 ^ 64) : NetInv net' := by
  cases e with
  | send origCirc relayCommand cell sched => exact h.send hstep hlen
  | receive circ =>
    exact h.receive ((sent_prefix_of_step hstep).length_le.trans_lt hlen) hstep

lemma netInv_linked (circs : List ι) (hcircs : circs.Nodup) :
    NetInv (Net.linked circs hcircs : Net ι α) := by
  have hlegs : ∀ circ leg, confluxGetLeg (Cfx.linked circs hcircs : Cfx ι α) circ = some leg →
      leg = ⟨0, 0⟩ := by
    intro circ leg hleg
    obtain ⟨c, -, hc⟩ := List.mem_map.mp (AssocMap.get_eq_some.mp hleg)
    exact (Prod.mk.inj hc).2.symm
  have hrecv : ∀ k, ¬ Received (Cfx.linked circs hcircs : Cfx ι α) [] k := by
    rintro k ⟨circ, n, hown, -⟩
    exact absurd hown.lt (Nat.not_lt_zero k)
  refine ⟨⟨fun circ n hn => ?_, fun circ k hown => absurd hown.lt (Nat.not_lt_zero k),
    by simp [Net.linked, Cfx.linked], fun _ => rfl⟩,
    ⟨⟨le_rfl, rfl, fun k hk => absurd hk (Nat.not_lt_zero k), nodup_nil, fun k => ?_,
      fun oooCell hmem => absurd hmem not_mem_nil⟩, hrecv 0⟩,
    fun circ => ?_, fun _ => rfl⟩
  · obtain ⟨leg, hleg, rfl⟩ := Option.map_eq_some_iff.mp hn
    rw [hlegs circ leg hleg]
    exact le_rfl
  · exact ⟨fun h => absurd h not_mem_nil, fun h => absurd h.2 (hrecv k)⟩
  · rcases hleg : confluxGetLeg (Cfx.linked circs hcircs : Cfx ι α) circ with _ | leg
    · simp only [Net.linked, lastSent, lastRecv, hleg]
      exact fun w hw => absurd hw not_mem_nil
    · simp only [Net.linked, lastSent, lastRecv, hleg, hlegs circ leg hleg]
      rfl

/-- **Ordered delivery over any number of legs**, for any scheduling and any interleaving of the
legs, as long as fewer than `2 ^ 64` multiplexed cells have been sent. -/
theorem orderedDelivery_of_reaches (circs : List ι) (hcircs : circs.Nodup)
    (run : List (Event ι α)) (net : Net ι α)
    (hrun : Reaches Net.step (Net.linked circs hcircs) run net)
    (hlen : net.sent.length < 2 ^ 64) : OrderedDelivery net := by
  have hinv : net.sent.length < 2 ^ 64 → NetInv net :=
    invariant_of_reaches (I := fun net => net.sent.length < 2 ^ 64 → NetInv net)
      (fun _ _ _ hinv hstep hlen =>
        (hinv ((sent_prefix_of_step hstep).length_le.trans_lt hlen)).step hstep hlen)
      (fun _ => netInv_linked circs hcircs) hrun
  exact (hinv hlen).orderedDelivery

end Invariant

/-! ## Where the numbers wrap -/

section Wrap

/-- The end of a set of two legs, one of them the current leg. -/
def pairCfx (curr : Bool) (a b : ConfluxLeg) (lastSeqDelivered : ℕ) (currLeg prevLeg : Option Bool) :
    Cfx Bool Unit where
  legs := ⟨[(false, if curr then b else a), (true, if curr then a else b)], by simp⟩
  oooQ := PQueue.empty _
  lastSeqDelivered := lastSeqDelivered
  currLeg := currLeg
  prevLeg := prevLeg
  inFullTeardown := false

/-- Two legs that have taken turns, with nothing in flight: the current leg is at `m + 1` and the
other at `m`. -/
def restNet (prev : Option Bool) (curr : Bool) (m : ℕ) (sent : List (Bool × Unit)) :
    Net Bool Unit where
  sender := pairCfx curr ⟨0, m + 1⟩ ⟨0, m⟩ 0 (some curr) prev
  flight := fun _ => []
  receiver := pairCfx curr ⟨m + 1, 0⟩ ⟨m, 0⟩ (m + 1) none none
  closed := fun _ => false
  sent := sent
  delivered := sent.map Prod.snd

/-- The other leg has taken its turn, and what it sent is in flight. -/
def turnNet (curr : Bool) (m : ℕ) (sent : List (Bool × Unit)) : Net Bool Unit where
  sender := pairCfx curr ⟨0, m + 1⟩ ⟨0, m + 2⟩ 0 (some !curr) (some curr)
  flight := update (fun _ => []) (!curr) [.switch 1, .relay .data ()]
  receiver := pairCfx curr ⟨m + 1, 0⟩ ⟨m, 0⟩ (m + 1) none none
  closed := fun _ => false
  sent := sent ++ [(!curr, ())]
  delivered := sent.map Prod.snd

lemma dequeueCells_empty {cfx : Cfx Bool Unit} (h : cfx.oooQ = PQueue.empty _) :
    dequeueCells cfx = ([], cfx) := by
  have hnone : confluxDequeueCell cfx = none := by
    rw [confluxDequeueCell, h]
    rfl
  rw [dequeueCells]
  split
  · rfl
  · next hsome => rw [hnone] at hsome; cases hsome

variable {prev : Option Bool} {curr : Bool} {m : ℕ} {sent : List (Bool × Unit)}

lemma reaches_restNet_zero :
    Reaches Net.step (Net.linked [false, true] (by decide))
      [.send true .data () ⟨some true, some true⟩, .receive true]
      (restNet none true 0 [(true, ())]) := by
  have hfirst : addU64 0 1 = 1 := rfl
  simp [Reaches, Net.step, Net.send, Net.receive, Net.process, connectionEdgeProcessRelayCell,
    confluxProcessCell, Net.linked, Cfx.linked, restNet, pairCfx, confluxShouldMultiplex,
    confluxGetLeg, AssocMap.get, Cfx.modifyLeg, AssocMap.modify, dequeueCells_empty,
    confluxDecideCircForSend, confluxDecideNextCirc, confluxPickFirstLeg, legOf,
    Option.filter_some, confluxNoteCellSent, hfirst]

/-- Two cells on two legs: the second comes first, behind its SWITCH, and waits for the other. -/
def overtaking : List (Event Bool ℕ) :=
  [.send true .data 10 ⟨some true, some true⟩, .send true .data 20 ⟨none, some false⟩,
    .receive false, .receive false, .receive true]

/-- They are delivered in the order in which they were sent. -/
theorem orderedDelivery_of_reaches_overtaking :
    ∃ net, Reaches Net.step (Net.linked [false, true] (by decide)) overtaking net
      ∧ net.delivered = [10, 20] ∧ OrderedDelivery net := by
  have hrun : (overtaking.foldlM Net.step (Net.linked [false, true] (by decide))).map
      (fun net => (net.sent, net.delivered)) = some ([(true, 10), (false, 20)], [10, 20]) := by
    decide +kernel
  obtain ⟨net, hreaches, hnet⟩ := Option.map_eq_some_iff.mp hrun
  obtain ⟨hsent, hdelivered⟩ := Prod.mk.inj hnet
  refine ⟨net, hreaches, hdelivered,
    orderedDelivery_of_reaches [false, true] (by decide) overtaking net hreaches ?_⟩
  rw [hsent]
  decide

variable (prev) in
lemma step_restNet (h : m + 2 < 2 ^ 64) :
    Net.step (restNet prev curr m sent) (.send curr .data () ⟨none, some !curr⟩)
      = some (turnNet curr m sent) := by
  have hrelative : subU64 (m + 1) m = 1 := by rw [subU64_of_le (by omega) (by omega)]; omega
  have hlast : addU64 (m + 1) 1 = m + 2 := addU64_of_lt (by omega)
  have hge : ¬ m + 1 < m := by omega
  cases curr <;>
    simp [Net.step, Net.send, restNet, turnNet, pairCfx, confluxDecideCircForSend,
      confluxShouldMultiplex, confluxDecideNextCirc, legOf, Option.filter_some, confluxGetLeg,
      AssocMap.get, confluxSwitchLeg, uint32Max, Cfx.modifyLeg, AssocMap.modify,
      confluxNoteCellSent, hrelative, hlast, hge]

lemma reaches_turnNet (h : m + 2 < 2 ^ 64) :
    Reaches Net.step (turnNet curr m sent) [.receive (!curr), .receive (!curr)]
      (restNet (some curr) (!curr) (m + 1) (sent ++ [(!curr, ())])) := by
  have hswitch : addU64 m 1 = m + 1 := addU64_of_lt (by omega)
  have hcell : addU64 (m + 1) 1 = m + 2 := addU64_of_lt (by omega)
  cases curr <;>
    simp [Reaches, Net.step, Net.receive, Net.process, confluxProcessSwitchCommand,
      connectionEdgeProcessRelayCell, confluxProcessCell, restNet, turnNet, pairCfx,
      confluxShouldMultiplex, confluxGetLeg, AssocMap.get, Cfx.modifyLeg, AssocMap.modify,
      dequeueCells_empty, hswitch, hcell]

lemma exists_reaches_restNet (n : ℕ) (h : n + 1 < 2 ^ 64) :
    ∃ run prev curr sent, Reaches Net.step (Net.linked [false, true] (by decide)) run
      (restNet prev curr n sent) := by
  induction n with
  | zero => exact ⟨_, _, _, _, reaches_restNet_zero⟩
  | succ n ih =>
    obtain ⟨run, prev, curr, sent, hrun⟩ := ih (by omega)
    refine ⟨run ++ (.send curr .data () ⟨none, some !curr⟩
        :: [.receive (!curr), .receive (!curr)]), some curr, !curr, sent ++ [(!curr, ())], ?_⟩
    exact reaches_append.mpr ⟨_, hrun, reaches_cons.mpr ⟨_, step_restNet _ h, reaches_turnNet h⟩⟩

variable (curr sent) in
/-- The cell with number `2 ^ 64` is numbered zero: it is dropped when the receiver still waits
for the one before it. -/
lemma reaches_turnNet_wrap (h : m + 3 = 2 ^ 64) :
    ∃ net, Reaches Net.step (turnNet curr m sent)
        [.send curr .data () ⟨none, some curr⟩, .receive curr, .receive curr, .receive (!curr),
          .receive (!curr)] net
      ∧ (∀ circ, net.flight circ = []) ∧ net.delivered.length < net.sent.length := by
  have hrelative : subU64 (m + 2) (m + 1) = 1 := by
    rw [subU64_of_le (by omega) (by omega)]
    omega
  have hother : addU64 m 1 = m + 1 := addU64_of_lt (by omega)
  have hlast : addU64 (m + 1) 1 = m + 2 := addU64_of_lt (by omega)
  have hwrap : addU64 (m + 2) 1 = 0 := by rw [addU64, Nat.add_assoc, h, Nat.mod_self]
  have hge : ¬ m + 2 < m + 1 := by omega
  cases curr <;>
    simp [Reaches, Net.step, Net.send, Net.receive, Net.process, Net.close,
      confluxProcessSwitchCommand, connectionEdgeProcessRelayCell, confluxProcessCell, turnNet,
      pairCfx, confluxShouldMultiplex, confluxGetLeg, AssocMap.get, Cfx.modifyLeg,
      AssocMap.modify, dequeueCells_empty, confluxDecideCircForSend, confluxDecideNextCirc, legOf,
      Option.filter_some, confluxSwitchLeg, uint32Max, confluxNoteCellSent, hrelative, hother,
      hlast, hwrap, hge]

/-- With `2 ^ 64` cells sent, one of them can be lost. -/
theorem not_orderedDelivery :
    ¬ ∀ (run : List (Event Bool Unit)) (net : Net Bool Unit),
      Reaches Net.step (Net.linked [false, true] (by decide)) run net → OrderedDelivery net := by
  intro hall
  have hlen : 2 ^ 64 - 3 + 2 < 2 ^ 64 := by omega
  obtain ⟨run, prev, curr, sent, hrun⟩ := exists_reaches_restNet (2 ^ 64 - 3) (by omega)
  obtain ⟨net, hwrap, hflight, hlost⟩ := reaches_turnNet_wrap curr sent (m := 2 ^ 64 - 3) (by omega)
  have hreach := reaches_append.mpr
    ⟨_, hrun, reaches_cons.mpr ⟨_, step_restNet prev hlen, hwrap⟩⟩
  have heq := (hall _ net hreach).2.2 hflight
  rw [heq, length_map] at hlost
  exact lt_irrefl _ hlost

end Wrap

end Ator.Conflux
