import AtorProtocol.Conflux.Multiplex

/-!
# The two ends of a conflux set

What the sender, the receiver and a leg between them have to do with the cells sent so far.

* `Carries` — what is in flight on a leg takes the receiver's number of the leg to the sender's.
* `Sending.decide`, `Sending.noteCellSent` — the sender's numbers are those of the cells sent.
-/

namespace Ator.Conflux

open List Option

variable {ι α : Type*}

/-- A cell on a leg. -/
inductive WireCell (α : Type*) where
  | switch (relativeSeq : ℕ)
  | relay (relayCommand : RelayCommand) (cell : α)

variable [DecidableEq ι]

/-! ## The cells in flight on a leg -/

section Carries

omit [DecidableEq ι]

variable {sent more : List (ι × α)} {circ : ι} {r s t k : ℕ} {flight flight' : List (WireCell α)}

/-- The cell with number `k + 1` went out on `circ`. -/
def Owns (sent : List (ι × α)) (circ : ι) (k : ℕ) : Prop := ∃ cell, sent[k]? = some (circ, cell)

/-- Whoever has counted to `r` on the leg has counted to `s` after the cells in flight, and has
found the cells of the leg at their numbers. -/
def Carries (sent : List (ι × α)) (circ : ι) : ℕ → List (WireCell α) → ℕ → Prop
  | r, [], s => r = s
  | r, .switch d :: flight, s =>
    (∀ k, r ≤ k → k < r + d → ¬ Owns sent circ k) ∧ Carries sent circ (r + d) flight s
  | r, .relay relayCommand cell :: flight, s =>
    if confluxShouldMultiplex relayCommand then
      sent[r]? = some (circ, cell) ∧ Carries sent circ (r + 1) flight s
    else Carries sent circ r flight s

lemma Owns.lt (h : Owns sent circ k) : k < sent.length := by
  obtain ⟨cell, hcell⟩ := h
  exact (List.getElem?_eq_some_iff.mp hcell).1

lemma owns_append_iff (h : k < sent.length) : Owns (sent ++ more) circ k ↔ Owns sent circ k := by
  rw [Owns, Owns, getElem?_append_left h]

lemma owns_concat_iff {circ' : ι} {cell : α} :
    Owns (sent ++ [(circ', cell)]) circ k ↔ Owns sent circ k ∨ circ' = circ ∧ k = sent.length := by
  rcases Nat.lt_trichotomy k sent.length with h | rfl | h
  · simp [owns_append_iff h, h.ne]
  · simp [Owns]
  · have hk : ¬ k < sent.length := by omega
    have hk' : ¬ k < (sent ++ [(circ', cell)]).length := by simp; omega
    simp only [mt Owns.lt hk, mt Owns.lt hk', h.ne', and_false, or_false]

lemma Carries.le (h : Carries sent circ r flight s) : r ≤ s := by
  induction flight generalizing r with
  | nil => exact Nat.le_of_eq h
  | cons wire flight ih =>
    cases wire with
    | switch d => exact (Nat.le_add_right r d).trans (ih h.2)
    | relay relayCommand cell =>
      rw [Carries] at h
      split at h
      · exact (Nat.le_succ r).trans (ih h.2)
      · exact ih h

lemma Carries.append (h : Carries sent circ r flight s) (h' : Carries sent circ s flight' t) :
    Carries sent circ r (flight ++ flight') t := by
  induction flight generalizing r with
  | nil =>
    obtain rfl : r = s := h
    exact h'
  | cons wire flight ih =>
    cases wire with
    | switch d => exact ⟨h.1, ih h.2⟩
    | relay relayCommand cell =>
      rw [cons_append, Carries]
      rw [Carries] at h
      split at h
      · next hmux => rw [if_pos hmux]; exact ⟨h.1, ih h.2⟩
      · next hmux => rw [if_neg hmux]; exact ih h

lemma Carries.extend (h : Carries sent circ r flight s) (hs : s ≤ sent.length) :
    Carries (sent ++ more) circ r flight s := by
  induction flight generalizing r with
  | nil => exact h
  | cons wire flight ih =>
    cases wire with
    | switch d =>
      refine ⟨fun k hk hkd => ?_, ih h.2⟩
      rw [owns_append_iff (hkd.trans_le (h.2.le.trans hs))]
      exact h.1 k hk hkd
    | relay relayCommand cell =>
      rw [Carries] at h ⊢
      split at h
      · next hmux =>
          rw [if_pos hmux, getElem?_append_left (h.2.le.trans hs)]
          exact ⟨h.1, ih h.2⟩
      · next hmux => rw [if_neg hmux]; exact ih h

end Carries

/-! ## The sender -/

section Sending

variable {cfx : Cfx ι α} {sent : List (ι × α)} {circ circ' : ι} {n : ℕ}

/-- `last_seq_sent` of a leg. -/
def lastSent (cfx : Cfx ι α) (circ : ι) : Option ℕ :=
  (confluxGetLeg cfx circ).map ConfluxLeg.lastSeqSent

/-- `last_seq_recv` of a leg. -/
def lastRecv (cfx : Cfx ι α) (circ : ι) : Option ℕ :=
  (confluxGetLeg cfx circ).map ConfluxLeg.lastSeqRecv

/-- A sender that has sent some cells: no leg is ahead of them nor behind its own, and the
current leg is level with them. -/
structure Sending (cfx : Cfx ι α) (sent : List (ι × α)) : Prop where
  bound : ∀ circ n, lastSent cfx circ = some n → n ≤ sent.length
  owned : ∀ circ k, Owns sent circ k → ∃ n, lastSent cfx circ = some n ∧ k < n
  current : ∀ circ, cfx.currLeg = some circ → lastSent cfx circ = some sent.length
  idle : cfx.currLeg = none → sent = []

lemma isSome_of_legOf {c : Option ι} (h : legOf cfx c = some circ) :
    (confluxGetLeg cfx circ).isSome := by
  rw [legOf, filter_eq_some_iff] at h
  exact h.2

lemma isSome_of_pickFirstLeg {c : Option ι} (h : confluxPickFirstLeg cfx c = some circ) :
    ∃ leg, confluxGetLeg cfx circ = some leg := by
  rw [confluxPickFirstLeg] at h
  rcases hleg : legOf cfx c with _ | c'
  · rw [hleg] at h
    obtain ⟨⟨c', leg⟩, hp, rfl⟩ := map_eq_some_iff.mp h
    exact ⟨leg, AssocMap.get_eq_some.mpr (mem_of_head? hp)⟩
  · rw [hleg] at h
    obtain rfl : c' = circ := some.inj h
    exact isSome_iff_exists.mp (isSome_of_legOf hleg)

variable (cfx) in
lemma confluxGetLeg_decideNextCirc (sched : Schedule ι) :
    confluxGetLeg (confluxDecideNextCirc cfx sched).1 = confluxGetLeg cfx := by
  rw [confluxDecideNextCirc]
  split_ifs
  · rfl
  · split
    · rfl
    · split <;> rfl

lemma Sending.decideNextCirc (h : Sending cfx sent) (sched : Schedule ι) :
    Sending (confluxDecideNextCirc cfx sched).1 sent := by
  rw [confluxDecideNextCirc]
  split_ifs
  · exact h
  · split
    · exact h
    · next hcurr =>
        split
        · exact h
        · next leg hpick =>
            refine ⟨h.bound, h.owned, ?_, fun hnone => by cases hnone⟩
            rintro circ ⟨⟩
            obtain ⟨first, hfirst⟩ := isSome_of_pickFirstLeg hpick
            have hlast : lastSent cfx leg = some first.lastSeqSent := by rw [lastSent, hfirst]; rfl
            have hle := h.bound leg _ hlast
            rw [h.idle hcurr] at hle ⊢
            exact hlast.trans (congrArg some (Nat.le_zero.mp hle))

/-- The decision made for a cell of the set: it is on a current leg that is level with the cells
sent, and the SWITCH takes that leg there. -/
structure Decided (cfx : Cfx ι α) (sent : List (ι × α)) (decision : Decision ι α) : Prop where
  sending : Sending decision.cfx sent
  lastRecv : Conflux.lastRecv decision.cfx = Conflux.lastRecv cfx
  others : ∀ circ, decision.circ ≠ some circ → lastSent decision.cfx circ = lastSent cfx circ
  chosen : ∀ circ, decision.circ = some circ → decision.cfx.currLeg = some circ
    ∧ ∃ n, lastSent cfx circ = some n
      ∧ Carries sent circ n (decision.switch.map WireCell.switch).toList sent.length

lemma Sending.switchLeg (h : Sending cfx sent) (hcurr : cfx.currLeg = some circ)
    (hlen : sent.length < 2 ^ 64) {decision : Decision ι α}
    (hswitch : confluxSwitchLeg cfx circ circ' = .ok decision) : Decided cfx sent decision := by
  rw [confluxSwitchLeg] at hswitch
  split at hswitch
  · cases hswitch
  · cases hswitch
  · next prevLeg currLeg hprev hnew =>
      have hprevSent : prevLeg.lastSeqSent = sent.length := by
        have := h.current circ hcurr
        rw [lastSent, hprev] at this
        exact some.inj this
      have hnewSent : lastSent cfx circ' = some currLeg.lastSeqSent := by rw [lastSent, hnew]; rfl
      have hle := h.bound circ' _ hnewSent
      simp only at hswitch
      split_ifs at hswitch
      cases hswitch
      have hlast : ∀ c, lastSent (cfx.modifyLeg circ' fun leg =>
          { leg with lastSeqSent := prevLeg.lastSeqSent }) c
            = if c = circ' then some sent.length else lastSent cfx c := by
        intro c
        rw [lastSent, confluxGetLeg_modifyLeg]
        split
        · next hc => rw [hc, hnew, ← hprevSent]; rfl
        · rfl
      refine ⟨⟨?_, ?_, ?_, by simp⟩, ?_, ?_, ?_⟩
      · intro c n hn
        change lastSent (cfx.modifyLeg _ _) c = _ at hn
        rw [hlast] at hn
        split at hn
        · exact (some.inj hn).ge
        · exact h.bound c n hn
      · intro c k hk
        change ∃ n, lastSent (cfx.modifyLeg _ _) c = _ ∧ _
        rw [hlast]
        split
        · exact ⟨_, rfl, hk.lt⟩
        · exact h.owned c k hk
      · rintro c ⟨⟩
        change lastSent (cfx.modifyLeg _ _) circ' = _
        rw [hlast, if_pos rfl]
      · funext c
        change (confluxGetLeg (cfx.modifyLeg _ _) c).map _ = _
        rw [confluxGetLeg_modifyLeg, lastRecv]
        split
        · next hc => rw [hc, Option.map_map]; rfl
        · rfl
      · intro c hc
        change lastSent (cfx.modifyLeg _ _) c = _
        rw [hlast, if_neg fun heq => hc (congrArg some heq.symm)]
      · rintro c ⟨⟩
        refine ⟨rfl, _, hnewSent, fun k hk _ hown => ?_, ?_⟩
        · obtain ⟨n, hn, hkn⟩ := h.owned circ' k hown
          rw [hnewSent] at hn
          cases hn
          omega
        · change currLeg.lastSeqSent + _ = sent.length
          rw [hprevSent, subU64_of_le hle hlen, Nat.add_sub_cancel' hle]

variable {relayCommand : RelayCommand}

/-- **What the sender decides**, as long as the numbers have not wrapped. -/
lemma Sending.decide (h : Sending cfx sent) (hlen : sent.length < 2 ^ 64) {origCirc : ι}
 {sched : Schedule ι} {decision : Decision ι α}
    (hmux : confluxShouldMultiplex relayCommand = true)
    (hdecide : confluxDecideCircForSend cfx origCirc relayCommand sched = .ok decision) :
    Decided cfx sent decision := by
  have hnext := h.decideNextCirc sched
  have hlegs := confluxGetLeg_decideNextCirc cfx sched
  have hsent : lastSent (confluxDecideNextCirc cfx sched).1 = lastSent cfx := by
    funext c
    rw [lastSent, hlegs, lastSent]
  have hrecv : lastRecv (confluxDecideNextCirc cfx sched).1 = lastRecv cfx := by
    funext c
    rw [lastRecv, hlegs, lastRecv]
  have hstay : ∀ c, (confluxDecideNextCirc cfx sched).1.currLeg = some c →
      ∃ n, lastSent cfx c = some n ∧ Carries sent c n [] sent.length := fun c hc =>
    ⟨_, hsent ▸ hnext.current c hc, rfl⟩
  rw [confluxDecideCircForSend, if_pos hmux] at hdecide
  generalize confluxDecideNextCirc cfx sched = next at hdecide hnext hsent hrecv hstay
  obtain ⟨cfx', newCirc⟩ := next
  cases newCirc with
  | none =>
    cases hdecide
    refine ⟨hnext, hrecv, fun c _ => congrFun hsent c, fun c hc => ?_⟩
    split_ifs at hc
    exact ⟨hc, hstay c hc⟩
  | some newCirc =>
    simp only at hdecide
    split at hdecide
    · cases hdecide
    · next currCirc hcurr =>
        split_ifs at hdecide with heq
        · cases hdecide
          refine ⟨hnext, hrecv, fun c _ => congrFun hsent c, ?_⟩
          rintro c ⟨⟩
          exact ⟨heq ▸ hcurr, hstay _ (heq ▸ hcurr)⟩
        · have hdecided := hnext.switchLeg hcurr hlen hdecide
          refine ⟨hdecided.sending, hdecided.lastRecv.trans hrecv, fun c hc => ?_, fun c hc => ?_⟩
          · rw [hdecided.others c hc, hsent]
          · rw [← hsent]
            exact hdecided.chosen c hc

lemma lastSent_noteCellSent
    (hmux : confluxShouldMultiplex relayCommand = true) :
    lastSent (confluxNoteCellSent cfx circ relayCommand) circ'
      = if circ' = circ then (lastSent cfx circ).map fun n => addU64 n 1
        else lastSent cfx circ' := by
  rw [confluxNoteCellSent, if_pos hmux, lastSent, confluxGetLeg_modifyLeg]
  split
  · next hc => rw [hc, lastSent, Option.map_map, Option.map_map]; rfl
  · rfl

lemma Sending.noteCellSent (h : Sending cfx sent) (hcurr : cfx.currLeg = some circ) (cell : α)
    (hlen : sent.length + 1 < 2 ^ 64)
    (hmux : confluxShouldMultiplex relayCommand = true) :
    Sending (confluxNoteCellSent cfx circ relayCommand) (sent ++ [(circ, cell)])
      ∧ lastSent (confluxNoteCellSent cfx circ relayCommand) circ = some (sent.length + 1) := by
  have hlast : ∀ c, lastSent (confluxNoteCellSent cfx circ relayCommand) c
      = if c = circ then some (sent.length + 1) else lastSent cfx c := by
    intro c
    rw [lastSent_noteCellSent hmux, h.current circ hcurr, map_some, addU64_of_lt hlen]
  have hcurr' : (confluxNoteCellSent cfx circ relayCommand).currLeg = some circ := by
    rw [confluxNoteCellSent, if_pos hmux]
    exact hcurr
  refine ⟨⟨fun c n hn => ?_, fun c k hk => ?_, fun c hc => ?_, fun hnone => ?_⟩, ?_⟩
  · rw [hlast] at hn
    rw [length_append, length_singleton]
    split at hn
    · exact (some.inj hn).ge
    · exact (h.bound c n hn).trans (Nat.le_succ _)
  · rw [hlast]
    rcases owns_concat_iff.mp hk with hold | ⟨rfl, rfl⟩
    · split
      · exact ⟨_, rfl, Nat.lt_succ_of_lt hold.lt⟩
      · exact h.owned c k hold
    · rw [if_pos rfl]
      exact ⟨_, rfl, Nat.lt_succ_self _⟩
  · rw [hcurr'] at hc
    cases hc
    rw [hlast, if_pos rfl, length_append, length_singleton]
  · rw [hcurr'] at hnone
    cases hnone
  · rw [hlast, if_pos rfl]

end Sending

/-! ## The receiver -/

section Receiving

variable {cfx cfx' : Cfx ι α} {sent sent' : List (ι × α)} {delivered : List α} {circ : ι}
  {cell : α} {k r : ℕ}

/-- The cell with number `k + 1` has arrived. -/
def Received (cfx : Cfx ι α) (sent : List (ι × α)) (k : ℕ) : Prop :=
  ∃ circ n, Owns sent circ k ∧ lastRecv cfx circ = some n ∧ k < n

/-- A receiver whose queue has the cells that have arrived and were not delivered. -/
structure Buffering (cfx : Cfx ι α) (sent : List (ι × α)) (delivered : List α) : Prop where
  bound : cfx.lastSeqDelivered ≤ sent.length
  delivered : delivered = (sent.map Prod.snd).take cfx.lastSeqDelivered
  received : ∀ k < cfx.lastSeqDelivered, Received cfx sent k
  nodup : (cfx.oooQ.items.map ConfluxCell.seq).Nodup
  queued : ∀ k, k + 1 ∈ cfx.oooQ.items.map ConfluxCell.seq
    ↔ cfx.lastSeqDelivered ≤ k ∧ Received cfx sent k
  cells : ∀ x ∈ cfx.oooQ.items, ∃ k, x.seq = k + 1 ∧ (sent.map Prod.snd)[k]? = some x.cell

/-- A receiver that has delivered the cells before the first that has not arrived. -/
structure Receiving (cfx : Cfx ι α) (sent : List (ι × α)) (delivered : List α) : Prop
    extends Buffering cfx sent delivered where
  waiting : ¬ Received cfx sent cfx.lastSeqDelivered

lemma Received.lt (h : Received cfx sent k) : k < sent.length := by
  obtain ⟨circ, n, hown, -⟩ := h
  exact hown.lt

lemma Receiving.congr (h : Receiving cfx sent delivered) (hqueue : cfx'.oooQ = cfx.oooQ)
    (hseq : cfx'.lastSeqDelivered = cfx.lastSeqDelivered) (hsent : sent <+: sent')
    (hreceived : ∀ k, Received cfx' sent' k ↔ Received cfx sent k) :
    Receiving cfx' sent' delivered := by
  obtain ⟨more, rfl⟩ := hsent
  have hmap : (sent ++ more).map Prod.snd = sent.map Prod.snd ++ more.map Prod.snd := map_append
  refine ⟨⟨?_, ?_, ?_, ?_, ?_, ?_⟩, ?_⟩
  · rw [hseq, length_append]
    exact h.bound.trans (Nat.le_add_right _ _)
  · rw [hseq, hmap, take_append_of_le_length (by rw [length_map]; exact h.bound)]
    exact h.delivered
  · intro k hk
    rw [hreceived]
    exact h.received k (hseq ▸ hk)
  · rw [hqueue]
    exact h.nodup
  · intro k
    rw [hqueue, hseq, hreceived]
    exact h.queued k
  · intro x hx
    obtain ⟨k, hk, hcell⟩ := h.cells x (hqueue ▸ hx)
    refine ⟨k, hk, ?_⟩
    rw [hmap, getElem?_append_left (List.getElem?_eq_some_iff.mp hcell).1]
    exact hcell
  · rw [hseq, hreceived]
    exact h.waiting

lemma Buffering.seq_of_mem (h : Buffering cfx sent delivered) {x : ConfluxCell α}
    (hx : x ∈ cfx.oooQ.items) : ∃ k, x.seq = k + 1 ∧ cfx.lastSeqDelivered ≤ k
      ∧ Received cfx sent k ∧ (sent.map Prod.snd)[k]? = some x.cell := by
  obtain ⟨k, hk, hcell⟩ := h.cells x hx
  have hmem : k + 1 ∈ cfx.oooQ.items.map ConfluxCell.seq := mem_map.mpr ⟨x, hx, hk⟩
  obtain ⟨hle, hrec⟩ := (h.queued k).mp hmem
  exact ⟨k, hk, hle, hrec, hcell⟩

lemma Buffering.dequeueCell (h : Buffering cfx sent delivered) (hlen : sent.length < 2 ^ 64)
    (hdequeue : confluxDequeueCell cfx = some (cell, cfx')) :
    Buffering cfx' sent (delivered ++ [cell]) := by
  obtain ⟨top, oooQ, hpop, rfl, hseq, rfl⟩ := confluxDequeueCell_eq_some hdequeue
  obtain ⟨hperm, -⟩ := PQueue.pop?_eq_some hpop
  have htop : top ∈ cfx.oooQ.items := hperm.mem_iff.mpr mem_cons_self
  obtain ⟨k, hk, hle, hrec, hcell⟩ := h.seq_of_mem htop
  have hkN := hrec.lt
  rw [addU64_of_lt (by omega)] at hseq ⊢
  obtain rfl : k = cfx.lastSeqDelivered := by omega
  have hseqs : (cfx.oooQ.items.map ConfluxCell.seq).Perm
      (top.seq :: oooQ.items.map ConfluxCell.seq) := hperm.map _
  obtain ⟨hnotin, hnodup⟩ := nodup_cons.mp (hseqs.nodup_iff.mp h.nodup)
  refine ⟨hkN, ?_, fun k hk => ?_, hnodup, fun k => ?_, fun x hx => ?_⟩
  · rw [take_add_one, hcell, ← h.delivered]
    rfl
  · rcases Nat.lt_succ_iff_lt_or_eq.mp hk with hlt | rfl
    · exact h.received k hlt
    · exact hrec
  · change _ ↔ _ ∧ Received cfx sent k
    have hqueued := h.queued k
    rw [hseqs.mem_iff, mem_cons, hseq] at hqueued
    constructor
    · intro hmem
      obtain ⟨hge, hk⟩ := hqueued.mp (.inr hmem)
      refine ⟨Nat.lt_of_le_of_ne hge fun heq => hnotin ?_, hk⟩
      rw [hseq, heq]
      exact hmem
    · rintro ⟨hge, hk⟩
      refine (hqueued.mpr ⟨(Nat.le_succ _).trans hge, hk⟩).resolve_left fun heq => ?_
      simp only at hge
      omega
  · exact h.cells x (hperm.mem_iff.mpr (mem_cons_of_mem _ hx))

lemma Buffering.dequeueCell_none (h : Buffering cfx sent delivered) (hlen : sent.length < 2 ^ 64)
    (hdequeue : confluxDequeueCell cfx = none) : Receiving cfx sent delivered := by
  refine ⟨h, fun hrec => ?_⟩
  have hD := hrec.lt
  have hmem := (h.queued cfx.lastSeqDelivered).mpr ⟨le_rfl, hrec⟩
  obtain ⟨x, hx, hxseq⟩ := mem_map.mp hmem
  rw [confluxDequeueCell] at hdequeue
  split at hdequeue
  · next hpop => simp [PQueue.pop?_eq_none.mp hpop] at hx
  · next top oooQ hpop =>
      obtain ⟨hperm, hmin⟩ := PQueue.pop?_eq_some hpop
      obtain ⟨k, hk, hle, -⟩ := h.seq_of_mem (hperm.mem_iff.mpr mem_cons_self)
      have hfirst := hmin x hx
      rw [addU64_of_lt (by omega), if_pos (by omega)] at hdequeue
      cases hdequeue

/-- **The loop over the queue** delivers all that can be delivered. -/
lemma Buffering.dequeueCells (h : Buffering cfx sent delivered) (hlen : sent.length < 2 ^ 64) :
    Receiving (dequeueCells cfx).2 sent (delivered ++ (dequeueCells cfx).1) := by
  induction cfx using Conflux.dequeueCells.induct generalizing delivered with
  | case1 cfx hnone =>
    rw [Conflux.dequeueCells]
    split
    · simpa using h.dequeueCell_none hlen hnone
    · next hsome => rw [hnone] at hsome; cases hsome
  | case2 cfx cell cfx' hsome _ _ _ ih =>
    have hrec := ih (h.dequeueCell hlen hsome)
    rw [Conflux.dequeueCells]
    split
    · next hnone => rw [hsome] at hnone; cases hnone
    · next cell' cfx'' hsome' =>
        rw [hsome] at hsome'
        cases hsome'
        rw [append_assoc] at hrec
        exact hrec

variable {n : ℕ}

omit [DecidableEq ι] in
lemma owns_unique {circ' : ι} (h : Owns sent circ k) (h' : Owns sent circ' k) : circ = circ' := by
  obtain ⟨cell, hcell⟩ := h
  obtain ⟨cell', hcell'⟩ := h'
  rw [hcell] at hcell'
  exact congrArg Prod.fst (some.inj hcell')

lemma received_of_lastRecv (hold : lastRecv cfx circ = some r) (hle : r ≤ n)
    (hnew : ∀ c, lastRecv cfx' c = if c = circ then some n else lastRecv cfx c) (k : ℕ) :
    Received cfx' sent k ↔ Received cfx sent k ∨ Owns sent circ k ∧ r ≤ k ∧ k < n := by
  constructor
  · rintro ⟨c, m, hown, hm, hk⟩
    rw [hnew] at hm
    split at hm
    · next hc =>
        cases hm
        subst hc
        rcases Nat.lt_or_ge k r with hlt | hge
        · exact .inl ⟨c, r, hown, hold, hlt⟩
        · exact .inr ⟨hown, hge, hk⟩
    · exact .inl ⟨c, m, hown, hm, hk⟩
  · rintro (⟨c, m, hown, hm, hk⟩ | ⟨hown, -, hk⟩)
    · by_cases hc : c = circ
      · subst hc
        rw [hold] at hm
        cases hm
        exact ⟨c, n, hown, by rw [hnew, if_pos rfl], hk.trans_le hle⟩
      · exact ⟨c, m, hown, by rw [hnew, if_neg hc]; exact hm, hk⟩
    · exact ⟨circ, n, hown, by rw [hnew, if_pos rfl], hk⟩

lemma lastRecv_modifyLeg (hold : lastRecv cfx circ = some r) (f : ConfluxLeg → ConfluxLeg)
    (hf : ∀ leg, leg.lastSeqRecv = r → (f leg).lastSeqRecv = n) (c : ι) :
    lastRecv (cfx.modifyLeg circ f) c = if c = circ then some n else lastRecv cfx c := by
  rw [lastRecv, confluxGetLeg_modifyLeg]
  split
  · next hc =>
      obtain ⟨leg, hleg, hr⟩ := map_eq_some_iff.mp hold
      rw [hc, hleg]
      exact congrArg some (hf leg hr)
  · rfl

/-- **A SWITCH** is taken, and brings no cell. -/
lemma Receiving.processSwitch (h : Receiving cfx sent delivered)
    (hold : lastRecv cfx circ = some r) {relativeSeq : ℕ} (hlen : r + relativeSeq < 2 ^ 64)
    (hgap : ∀ k, r ≤ k → k < r + relativeSeq → ¬ Owns sent circ k) :
    ∃ cfx', confluxProcessSwitchCommand cfx circ true true relativeSeq = some cfx'
      ∧ Receiving cfx' sent delivered
      ∧ ∀ c, lastRecv cfx' c = if c = circ then some (r + relativeSeq) else lastRecv cfx c := by
  obtain ⟨leg, hleg, -⟩ := map_eq_some_iff.mp hold
  have hnew := lastRecv_modifyLeg hold
    (fun leg => { leg with lastSeqRecv := addU64 leg.lastSeqRecv relativeSeq })
    (n := r + relativeSeq) (fun leg hr => by rw [← hr] at hlen ⊢; exact addU64_of_lt hlen)
  refine ⟨cfx.modifyLeg circ fun leg =>
      { leg with lastSeqRecv := addU64 leg.lastSeqRecv relativeSeq },
    by rw [confluxProcessSwitchCommand]; simp [hleg],
    h.congr rfl rfl (prefix_refl _) fun k => ?_, hnew⟩
  rw [received_of_lastRecv hold (Nat.le_add_right _ _) hnew]
  refine or_iff_left ?_
  rintro ⟨hown, hge, hlt⟩
  exact hgap k hge hlt hown

lemma not_received (hold : lastRecv cfx circ = some r) (hown : Owns sent circ r) :
    ¬ Received cfx sent r := by
  rintro ⟨c, n, hown', hn, hlt⟩
  rw [owns_unique hown' hown, hold] at hn
  cases hn
  exact lt_irrefl _ hlt

/-- **A multiplexed cell** goes to the streams in its turn. -/
lemma Receiving.processRelayCell (h : Receiving cfx sent delivered) (hlen : sent.length < 2 ^ 64)
    (hold : lastRecv cfx circ = some r) (hcell : sent[r]? = some (circ, cell)) :
    ∃ cfx' cells, connectionEdgeProcessRelayCell cfx circ true cell = ⟨cfx', cells, false⟩
      ∧ Receiving cfx' sent (delivered ++ cells)
      ∧ ∀ c, lastRecv cfx' c = if c = circ then some (r + 1) else lastRecv cfx c := by
  obtain ⟨leg, hleg, hr⟩ := map_eq_some_iff.mp hold
  have hown : Owns sent circ r := ⟨cell, hcell⟩
  have hrN := hown.lt
  have hseq : addU64 leg.lastSeqRecv 1 = r + 1 := by
    rw [hr, addU64_of_lt (by omega)]
  have hnew := lastRecv_modifyLeg hold (fun leg => { leg with lastSeqRecv := r + 1 })
    (fun leg _ => rfl)
  have hreceived : ∀ k, Received (cfx.modifyLeg circ fun leg => { leg with lastSeqRecv := r + 1 })
      sent k ↔ Received cfx sent k ∨ k = r := by
    intro k
    rw [received_of_lastRecv hold (Nat.le_succ r) hnew]
    refine or_congr_right ⟨fun hk => by omega, ?_⟩
    rintro rfl
    exact ⟨hown, le_rfl, Nat.lt_succ_self _⟩
  have hfresh : ¬ Received cfx sent r := not_received hold hown
  have hD : cfx.lastSeqDelivered ≤ r := not_lt.mp fun hlt => hfresh (h.received r hlt)
  have hmap : (sent.map Prod.snd)[r]? = some cell := by
    rw [getElem?_map, hcell]
    rfl
  have hprocess : confluxProcessCell cfx circ true cell = if r = cfx.lastSeqDelivered then
          ⟨{ cfx.modifyLeg circ fun leg => { leg with lastSeqRecv := r + 1 } with
              lastSeqDelivered := r + 1 }, true, false⟩
        else
          ⟨{ cfx.modifyLeg circ fun leg => { leg with lastSeqRecv := r + 1 } with
              oooQ := cfx.oooQ.add ⟨r + 1, cell⟩ }, false, false⟩ := by
    rw [confluxProcessCell, hleg]
    simp only [not_true, if_false, Cfx.modifyLeg, hseq,
      addU64_of_lt (show cfx.lastSeqDelivered + 1 < 2 ^ 64 by omega)]
    by_cases heq : r = cfx.lastSeqDelivered
    · rw [if_pos (by omega), if_pos heq, heq]
    · rw [if_neg (by omega), if_neg (by omega), if_neg heq]
  rw [connectionEdgeProcessRelayCell, hprocess]
  by_cases heq : r = cfx.lastSeqDelivered
  · rw [if_pos heq]
    have hbuf : Buffering { cfx.modifyLeg circ fun leg => { leg with lastSeqRecv := r + 1 } with
        lastSeqDelivered := r + 1 } sent (delivered ++ [cell]) := by
      refine ⟨hrN, ?_, fun k hk => ?_, h.nodup, fun k => ?_, h.cells⟩
      · rw [take_add_one, hmap, h.delivered, heq]
        rfl
      · refine (hreceived k).mpr ?_
        rcases Nat.lt_succ_iff_lt_or_eq.mp hk with hlt | rfl
        · exact .inl (h.received k (heq ▸ hlt))
        · exact .inr rfl
      · change _ ↔ _ ∧ Received (cfx.modifyLeg circ _) sent k
        rw [hreceived]
        refine (h.queued k).trans ⟨?_, ?_⟩
        · rintro ⟨hge, hk⟩
          exact ⟨Nat.lt_of_le_of_ne (heq ▸ hge) fun hrk => hfresh (hrk ▸ hk), .inl hk⟩
        · rintro ⟨hge, hk⟩
          simp only at hge
          exact ⟨by omega, hk.resolve_right (by omega)⟩
    refine ⟨_, _, rfl, by simpa using hbuf.dequeueCells hlen, fun c => ?_⟩
    obtain ⟨oooQ, lastSeqDelivered, hlegs⟩ := dequeueCells_eq
      { cfx.modifyLeg circ fun leg => { leg with lastSeqRecv := r + 1 } with
        lastSeqDelivered := r + 1 }
    rw [← hnew]
    simp only [hlegs]
    rfl
  · rw [if_neg heq]
    have hperm := @PQueue.items_add_perm _ _ _ _ cfx.oooQ ⟨r + 1, cell⟩
    have hseqs := hperm.map ConfluxCell.seq
    refine ⟨_, _, rfl, ⟨⟨h.bound, ?_, fun k hk => ?_, ?_, fun k => ?_, fun x hx => ?_⟩, ?_⟩, hnew⟩
    · rw [append_nil]
      exact h.delivered
    · exact (hreceived k).mpr (.inl (h.received k hk))
    · rw [hseqs.nodup_iff, map_cons, nodup_cons]
      exact ⟨fun hmem => hfresh ((h.queued r).mp hmem).2, h.nodup⟩
    · change _ ↔ _ ∧ Received (cfx.modifyLeg circ _) sent k
      rw [hseqs.mem_iff, map_cons, mem_cons, h.queued, hreceived]
      constructor
      · rintro (hk | ⟨hge, hk⟩)
        · obtain rfl : k = r := Nat.succ.inj hk
          exact ⟨hD, .inr rfl⟩
        · exact ⟨hge, .inl hk⟩
      · rintro ⟨hge, hk | rfl⟩
        · exact .inr ⟨hge, hk⟩
        · exact .inl rfl
    · rcases mem_cons.mp (hperm.mem_iff.mp hx) with rfl | hx
      · exact ⟨r, rfl, hmap⟩
      · exact h.cells x hx
    · change ¬ Received (cfx.modifyLeg circ _) sent cfx.lastSeqDelivered
      rw [hreceived, not_or]
      exact ⟨h.waiting, Ne.symm heq⟩

end Receiving

end Ator.Conflux
