import AtorProtocol.Conflux.Ends
import AtorProtocol.Conflux.Link
import AtorProtocol.Lib.Run

/-!
# The assertions of the sender

An exit and the set of one nonce: a client links legs with the sequence numbers that it likes, and
the exit sends.

* `Exit.step` — what the exit does; an `error` is a failed assertion.
* `History` — where each leg stands, from the LINK cells and the number of cells sent.
* `neverAsserts_iff` — the runs in which no assertion fails.
-/

namespace Ator.Conflux

open Option

variable {ι α ν : Type*} [DecidableEq ι] [DecidableEq ν]

/-- Where the legs stand: a leg that the exit is not on, at `mark`, and the one it is on at
`start + count`.  A linked leg stands at the `last_seqno_recv` of its LINK cell; `count` is the
number of multiplexed cells sent since the exit picked its first leg. -/
structure History (ι : Type*) where
  start : ℕ
  count : ℕ
  mark : ι → ℕ

/-- The exit's end of the set, and its history, which no function reads. -/
structure Exit (ι α : Type*) where
  cfx : Cfx ι α
  history : History ι

/-- What can happen to the set.  `inflight` is what `cfx_del_leg` finds if the circuit closes. -/
inductive ExitEvent (ι α ν : Type*) where
  | link (circ : ι) (link : LinkCell ν) (inflight : Bool)
  | receive (circ : ι) (wire : WireCell α) (inflight : Bool)
  | close (circ : ι) (inflight : Bool)
  | send (origCirc : ι) (relayCommand : RelayCommand) (sched : Schedule ι)

namespace History

variable (history : History ι)

def here : ℕ := history.start + history.count

def link (circ : ι) (lastSeqnoRecv : ℕ) : History ι :=
  { history with mark := Function.update history.mark circ lastSeqnoRecv }

/-- The exit picks its first leg. -/
def pick (before after : Option ι) : History ι :=
  match before, after with
  | none, some leg => { history with start := history.mark leg, count := 0 }
  | _, _ => history

/-- The exit leaves a leg for another. -/
def leave (move : Option (ι × ι)) : History ι :=
  match move with
  | some (leg, _) => { history with mark := Function.update history.mark leg history.here }
  | none => history

def sent (circ : Option ι) : History ι :=
  if circ.isSome then { history with count := history.count + 1 } else history

end History

namespace Exit

variable (exit : Exit ι α)

/-- No leg is linked. -/
def init : Exit ι α := ⟨Cfx.new, ⟨0, 0, fun _ => 0⟩⟩

/-- `conflux_process_link`, for the nonce of the set: a LINK on a leg closes it, and without legs
there is no set yet. -/
def link (maxLegsSet : ℕ) (circ : ι) (link : LinkCell ν) (inflight : Bool) : Exit ι α :=
  if (confluxGetLeg exit.cfx circ).isSome then
    { exit with cfx := linkedCircuitClosed exit.cfx circ inflight }
  else
    let cfx := if exit.cfx.numLegs = 0 then Cfx.new else exit.cfx
    match tryFinalizeSet maxLegsSet cfx [⟨circ, link, true⟩] with
    | .linked cfx => ⟨cfx, exit.history.link circ link.lastSeqnoRecv.toNat⟩
    | .invalidLegs => { exit with cfx := confluxMarkAllForClose exit.cfx }
    | _ => exit

/-- A cell of the client's arrives. -/
def receive (circ : ι) (wire : WireCell α) (inflight : Bool) : Exit ι α :=
  match wire with
  | .switch relativeSeq =>
    match confluxProcessSwitchCommand exit.cfx circ true true relativeSeq with
    | none => { exit with cfx := linkedCircuitClosed exit.cfx circ inflight }
    | some cfx => { exit with cfx := cfx }
  | .relay relayCommand cell =>
    if confluxShouldMultiplex relayCommand then
      let delivery := connectionEdgeProcessRelayCell exit.cfx circ true cell
      { exit with
        cfx := if delivery.close then linkedCircuitClosed delivery.cfx circ inflight
          else delivery.cfx }
    else exit

/-- The legs that the scheduling makes the exit move between, if any. -/
def moves (relayCommand : RelayCommand) (sched : Schedule ι) : Option (ι × ι) :=
  if confluxShouldMultiplex relayCommand then
    match (confluxDecideNextCirc exit.cfx sched).2 with
    | none => none
    | some newCirc =>
      match (confluxDecideNextCirc exit.cfx sched).1.currLeg with
      | none => none
      | some currCirc => if newCirc = currCirc then none else some (currCirc, newCirc)
  else none

/-- The history when the scheduling has come to a circuit. -/
def picked (sched : Schedule ι) : History ι :=
  exit.history.pick exit.cfx.currLeg (confluxDecideNextCirc exit.cfx sched).1.currLeg

/-- Decide, put the cell on the circuit, note it. -/
def send (origCirc : ι) (relayCommand : RelayCommand) (sched : Schedule ι) :
    Except FailedAssert (Exit ι α) :=
  match confluxDecideCircForSend exit.cfx origCirc relayCommand sched with
  | .error failed => .error failed
  | .ok decision =>
    .ok
      { cfx := match decision.circ with
          | none => decision.cfx
          | some circ => confluxNoteCellSent decision.cfx circ relayCommand
        history := if confluxShouldMultiplex relayCommand then
            ((exit.picked sched).leave (exit.moves relayCommand sched)).sent decision.circ
          else exit.history }

def step (maxLegsSet : ℕ) : ExitEvent ι α ν → Except FailedAssert (Exit ι α)
  | .link circ link inflight => .ok (exit.link maxLegsSet circ link inflight)
  | .receive circ wire inflight => .ok (exit.receive circ wire inflight)
  | .close circ inflight => .ok { exit with cfx := linkedCircuitClosed exit.cfx circ inflight }
  | .send origCirc relayCommand sched => exit.send origCirc relayCommand sched

/-- The steps of a run: a failed assertion ends it. -/
def next (maxLegsSet : ℕ) (exit : Exit ι α) (e : ExitEvent ι α ν) : Option (Exit ι α) :=
  (exit.step maxLegsSet e).toOption

/-- No assertion fails. -/
def Holds (maxLegsSet : ℕ) (exit : Exit ι α) (e : ExitEvent ι α ν) : Prop :=
  ∀ failed, exit.step maxLegsSet e ≠ .error failed

/-- The leg that the exit moves to is not ahead of the cells sent, and less than `UINT32_MAX`
behind them, counted in 64 bits. -/
def InReach (exit : Exit ι α) : ExitEvent ι α ν → Prop
  | .send _ relayCommand sched => ∀ leg newLeg, exit.moves relayCommand sched = some (leg, newLeg) →
      exit.history.mark newLeg % 2 ^ 64 ≤ (exit.picked sched).here % 2 ^ 64
        ∧ (exit.picked sched).here % 2 ^ 64 - exit.history.mark newLeg % 2 ^ 64 < uint32Max
  | _ => True

/-- The counters of the legs are what the history says. -/
structure Counted (exit : Exit ι α) : Prop where
  current : ∀ circ, exit.cfx.currLeg = some circ →
    lastSent exit.cfx circ = some (exit.history.here % 2 ^ 64)
  others : ∀ circ n, exit.cfx.currLeg ≠ some circ → lastSent exit.cfx circ = some n →
    n = exit.history.mark circ % 2 ^ 64

end Exit

/-! ## What leaves the counters alone -/

section Frame

variable {cfx cfx' : Cfx ι α} {circ : ι} {exit : Exit ι α} {history : History ι} {cell : α}

/-- The sender's part of the set is the same. -/
def SameSender (cfx cfx' : Cfx ι α) : Prop :=
  lastSent cfx' = lastSent cfx ∧ cfx'.currLeg = cfx.currLeg

variable (cfx circ) in
lemma sameSender_modifyLeg (f : ConfluxLeg → ConfluxLeg)
    (hf : ∀ leg, (f leg).lastSeqSent = leg.lastSeqSent) : SameSender cfx (cfx.modifyLeg circ f) := by
  refine ⟨funext fun c => ?_, rfl⟩
  rw [lastSent, confluxGetLeg_modifyLeg]
  split
  · next hc =>
      rw [hc, Option.map_map, lastSent]
      exact congrArg (Option.map · _) (funext hf)
  · rfl

variable (cfx circ cell) in
lemma sameSender_processCell (sourceHop : Bool) :
    SameSender cfx (confluxProcessCell cfx circ sourceHop cell).cfx := by
  rw [confluxProcessCell]
  split
  · exact ⟨rfl, rfl⟩
  · simp only
    have hsame (seq : ℕ) := sameSender_modifyLeg cfx circ
      (fun leg => { leg with lastSeqRecv := seq }) (fun _ => rfl)
    split_ifs
    · exact hsame _
    · exact hsame _
    · exact hsame _
    · exact ⟨rfl, rfl⟩

variable (cfx circ cell) in
lemma sameSender_processRelayCell (sourceHop : Bool) :
    SameSender cfx (connectionEdgeProcessRelayCell cfx circ sourceHop cell).cfx := by
  have hcell := sameSender_processCell cfx circ cell sourceHop
  rw [connectionEdgeProcessRelayCell]
  split
  · obtain ⟨oooQ, lastSeqDelivered, heq⟩ :=
      dequeueCells_eq (confluxProcessCell cfx circ sourceHop cell).cfx
    simp only [heq]
    exact hcell
  · exact hcell

lemma Exit.Counted.sameSender (h : exit.Counted) (hsame : SameSender exit.cfx cfx) :
    Exit.Counted { exit with cfx := cfx } := by
  refine ⟨fun c hc => ?_, fun c n hc hn => ?_⟩
  · rw [hsame.2] at hc
    rw [hsame.1]
    exact h.current c hc
  · rw [hsame.2] at hc
    rw [hsame.1] at hn
    exact h.others c n hc hn

lemma counted_of_no_leg (hleg : ∀ c, confluxGetLeg cfx c = none) (hcurr : cfx.currLeg = none) :
    Exit.Counted ⟨cfx, history⟩ := by
  refine ⟨fun c hc => ?_, fun c n _ hn => ?_⟩
  · rw [hcurr] at hc
    cases hc
  · rw [lastSent, hleg] at hn
    cases hn

lemma counted_markAllForClose (hcurr : cfx.numLegs = 0 → cfx.currLeg = none) :
    Exit.Counted ⟨confluxMarkAllForClose cfx, history⟩ := by
  rw [confluxMarkAllForClose]
  split
  · next h => exact counted_of_no_leg (AssocMap.size_eq_zero_iff.mp h) (hcurr h)
  · exact counted_of_no_leg (fun _ => rfl) rfl

lemma Exit.Counted.currLeg_of_numLegs (h : exit.Counted) (hlegs : exit.cfx.numLegs = 0) :
    exit.cfx.currLeg = none := by
  rcases hcurr : exit.cfx.currLeg with _ | leg
  · rfl
  · have hlast := h.current leg hcurr
    rw [lastSent, confluxGetLeg, AssocMap.size_eq_zero_iff.mp hlegs] at hlast
    cases hlast

lemma Exit.Counted.linkedCircuitClosed (h : exit.Counted) (circ : ι) (inflight : Bool) :
    Exit.Counted { exit with cfx := Conflux.linkedCircuitClosed exit.cfx circ inflight } := by
  rw [Conflux.linkedCircuitClosed, cfxDelLeg]
  split
  · exact h
  · simp only
    by_cases hcurr : exit.cfx.currLeg = some circ
    · rw [if_pos (by simp [hcurr])]
      exact counted_markAllForClose fun _ => if_pos hcurr
    · rw [if_neg hcurr]
      split
      · refine counted_markAllForClose fun hlegs => ?_
        rcases hc : exit.cfx.currLeg with _ | leg
        · rfl
        · have hne : leg ≠ circ := fun heq => hcurr (heq ▸ hc)
          have hlast := h.current leg hc
          rw [lastSent, confluxGetLeg, ← AssocMap.get_erase_of_ne hne,
            AssocMap.size_eq_zero_iff.mp hlegs] at hlast
          cases hlast
      · refine ⟨fun c hc => ?_, fun c n hc hn => ?_⟩
        · have hne : c ≠ circ := fun heq => hcurr (heq ▸ hc)
          rw [lastSent, confluxGetLeg, AssocMap.get_erase_of_ne hne]
          exact h.current c hc
        · by_cases hcc : c = circ
          · rw [hcc, lastSent, confluxGetLeg, AssocMap.get_erase_self] at hn
            cases hn
          · rw [lastSent, confluxGetLeg, AssocMap.get_erase_of_ne hcc] at hn
            exact h.others c n hc hn

end Frame

/-! ## Linking -/

section Linking

variable {cfx cfx' : Cfx ι α} {circ : ι} {exit : Exit ι α} {history : History ι} {maxLegsSet : ℕ}

lemma cfxAddLeg_of_tryFinalizeSet {leg : Leg ι ν}
    (h : tryFinalizeSet maxLegsSet cfx [leg] = .linked cfx') : cfx' = cfxAddLeg cfx leg := by
  rw [tryFinalizeSet] at h
  split at h
  · cases h
  · split at h
    · cases h
    · split at h
      · cases h
      · split at h <;> cases h
        rfl

omit [DecidableEq ν] in
lemma Exit.Counted.addLeg (h : Exit.Counted ⟨cfx, history⟩) (hnew : confluxGetLeg cfx circ = none)
    (link : LinkCell ν) (linked : Bool) :
    Exit.Counted ⟨cfxAddLeg cfx ⟨circ, link, linked⟩,
      history.link circ link.lastSeqnoRecv.toNat⟩ := by
  have hlast : ∀ c, lastSent (cfxAddLeg cfx ⟨circ, link, linked⟩) c
      = if c = circ then some link.lastSeqnoRecv.toNat else lastSent cfx c := by
    intro c
    rw [lastSent, confluxGetLeg, cfxAddLeg]
    split
    · next hc => rw [hc, AssocMap.get_set_self]; rfl
    · next hc => rw [AssocMap.get_set_of_ne hc]; rfl
  refine ⟨fun c hc => ?_, fun c n hc hn => ?_⟩
  · have hcurr := h.current c hc
    have hne : c ≠ circ := by
      rintro rfl
      rw [lastSent, hnew] at hcurr
      cases hcurr
    rw [hlast, if_neg hne]
    exact hcurr
  · change lastSent (cfxAddLeg _ _) c = _ at hn
    rw [hlast] at hn
    change n = Function.update history.mark circ _ c % 2 ^ 64
    split at hn
    · next hcc =>
        cases hn
        rw [hcc, Function.update_self]
        exact (Nat.mod_eq_of_lt (UInt64.toNat_lt _)).symm
    · next hcc =>
        rw [Function.update_of_ne hcc]
        exact h.others c n hc hn

lemma Exit.Counted.link (h : exit.Counted) (link : LinkCell ν) (inflight : Bool) :
    (exit.link maxLegsSet circ link inflight).Counted := by
  rw [Exit.link]
  split
  · exact h.linkedCircuitClosed circ inflight
  · next hnew =>
      rw [not_isSome_iff_eq_none] at hnew
      simp only
      split
      · next cfx' hfinal =>
          rw [cfxAddLeg_of_tryFinalizeSet hfinal]
          split
          · exact (counted_of_no_leg (fun _ => rfl) rfl).addLeg rfl link true
          · exact h.addLeg hnew link true
      · exact counted_markAllForClose h.currLeg_of_numLegs
      · exact h

lemma Exit.Counted.receive (h : exit.Counted) (wire : WireCell α) (inflight : Bool) :
    (exit.receive circ wire inflight).Counted := by
  cases wire with
  | switch relativeSeq =>
    rw [Exit.receive, confluxProcessSwitchCommand]
    split
    · exact h.linkedCircuitClosed circ inflight
    · next cfx hcfx =>
        split at hcfx
        · cases hcfx
        · split at hcfx
          · cases hcfx
          · cases hcfx
            exact h.sameSender (sameSender_modifyLeg _ _ _ fun _ => rfl)
  | relay relayCommand cell =>
    rw [Exit.receive]
    split
    · have hsame := h.sameSender (sameSender_processRelayCell _ circ cell true)
      simp only
      split
      · exact hsame.linkedCircuitClosed circ inflight
      · exact hsame
    · exact h

end Linking

/-! ## Sending -/

section Sending

variable {cfx : Cfx ι α} {circ newCirc : ι} {exit exit' : Exit ι α} {history : History ι}
  {origCirc : ι} {relayCommand : RelayCommand} {sched : Schedule ι} {decision : Decision ι α}

lemma Exit.Counted.decideNextCirc (h : exit.Counted) (sched : Schedule ι) :
    Exit.Counted ⟨(confluxDecideNextCirc exit.cfx sched).1, exit.picked sched⟩ := by
  rw [Exit.picked, confluxDecideNextCirc]
  split_ifs
  · rcases hcurr : exit.cfx.currLeg with _ | leg <;> exact h
  · split
    · next leg hcurr =>
        rw [hcurr]
        exact h
    · next hcurr =>
        split
        · rw [hcurr]
          exact h
        · next leg hpick =>
            obtain ⟨first, hfirst⟩ := isSome_of_pickFirstLeg hpick
            have hlast : lastSent exit.cfx leg = some first.lastSeqSent := by
              rw [lastSent, hfirst]
              rfl
            refine ⟨?_, fun c n _ hn => ?_⟩
            · rintro c ⟨⟩
              change lastSent exit.cfx leg = _
              rw [hlast, h.others leg _ (by simp [hcurr]) hlast, hcurr]
              rfl
            · rw [hcurr]
              exact h.others c n (by simp [hcurr]) hn

lemma confluxDecideNextCirc_eq_some (h : (confluxDecideNextCirc cfx sched).2 = some newCirc) :
    (∃ currCirc, (confluxDecideNextCirc cfx sched).1.currLeg = some currCirc)
      ∧ ∃ leg, confluxGetLeg (confluxDecideNextCirc cfx sched).1 newCirc = some leg := by
  rw [confluxDecideNextCirc] at h ⊢
  split_ifs at h ⊢
  split at h
  · next leg hcurr => exact ⟨⟨leg, hcurr⟩, isSome_iff_exists.mp (isSome_of_legOf h)⟩
  · split at h
    · cases h
    · next leg _ => exact ⟨⟨leg, rfl⟩, isSome_iff_exists.mp (isSome_of_legOf h)⟩

/-- **The assertions**, in terms of where the two legs stand. -/
lemma Exit.Counted.switchLeg (h : Exit.Counted ⟨cfx, history⟩) (hcurr : cfx.currLeg = some circ)
    (hne : newCirc ≠ circ) (hleg : ∃ leg, confluxGetLeg cfx newCirc = some leg) :
    ((∀ failed, confluxSwitchLeg cfx circ newCirc ≠ .error failed)
        ↔ history.mark newCirc % 2 ^ 64 ≤ history.here % 2 ^ 64
          ∧ history.here % 2 ^ 64 - history.mark newCirc % 2 ^ 64 < uint32Max)
      ∧ ∀ decision, confluxSwitchLeg cfx circ newCirc = .ok decision →
        Exit.Counted ⟨decision.cfx, history.leave (some (circ, newCirc))⟩
          ∧ decision.circ = some newCirc ∧ decision.cfx.currLeg = some newCirc := by
  obtain ⟨leg, hleg⟩ := hleg
  obtain ⟨prevLeg, hprev, hprevSent⟩ := map_eq_some_iff.mp (h.current circ hcurr)
  have hnew : lastSent cfx newCirc = some leg.lastSeqSent := by rw [lastSent, hleg]; rfl
  have hnewSent := h.others newCirc _ (by rw [hcurr]; exact fun heq => hne (some.inj heq).symm)
    hnew
  have hwrap : prevLeg.lastSeqSent < 2 ^ 64 := hprevSent ▸ Nat.mod_lt _ (by omega)
  have hswitch : confluxSwitchLeg cfx circ newCirc
      = if prevLeg.lastSeqSent < leg.lastSeqSent then .error .lastSeqSent
        else if ¬ prevLeg.lastSeqSent - leg.lastSeqSent < uint32Max then .error .relativeSeq
        else .ok
          { cfx := { cfx.modifyLeg newCirc fun leg =>
              { leg with lastSeqSent := prevLeg.lastSeqSent } with
                currLeg := some newCirc, prevLeg := some circ }
            circ := some newCirc
            switch := some (prevLeg.lastSeqSent - leg.lastSeqSent) } := by
    rw [confluxSwitchLeg, hprev, hleg]
    simp only
    by_cases hlt : prevLeg.lastSeqSent < leg.lastSeqSent
    · rw [if_pos hlt, if_pos hlt]
    · rw [if_neg hlt, if_neg hlt, subU64_of_le (not_lt.mp hlt) hwrap]
  rw [hswitch, ← hprevSent, ← hnewSent]
  by_cases hlt : prevLeg.lastSeqSent < leg.lastSeqSent
  · rw [if_pos hlt]
    exact ⟨⟨fun hall => absurd rfl (hall _), fun hreach => absurd hlt (not_lt.mpr hreach.1)⟩, by simp⟩
  · rw [if_neg hlt]
    by_cases hrel : prevLeg.lastSeqSent - leg.lastSeqSent < uint32Max
    · rw [if_neg (not_not.mpr hrel)]
      refine ⟨⟨fun _ => ⟨not_lt.mp hlt, hrel⟩, fun _ => by simp⟩, ?_⟩
      rintro decision ⟨⟩
      have hlast : ∀ c, lastSent (cfx.modifyLeg newCirc fun leg =>
          { leg with lastSeqSent := prevLeg.lastSeqSent }) c
            = if c = newCirc then some (history.here % 2 ^ 64) else lastSent cfx c := by
        intro c
        rw [lastSent, confluxGetLeg_modifyLeg]
        split
        · next hc => rw [hc, hleg, ← hprevSent]; rfl
        · rfl
      refine ⟨⟨?_, fun c n hc hn => ?_⟩, rfl, rfl⟩
      · rintro c ⟨⟩
        change lastSent (cfx.modifyLeg _ _) newCirc = _
        rw [hlast, if_pos rfl]
        rfl
      · change lastSent (cfx.modifyLeg _ _) c = _ at hn
        have hcn : c ≠ newCirc := fun heq => hc (congrArg some heq.symm)
        rw [hlast, if_neg hcn] at hn
        change n = Function.update history.mark circ history.here c % 2 ^ 64
        by_cases hcc : c = circ
        · rw [hcc, h.current circ hcurr] at hn
          rw [hcc, Function.update_self]
          exact (some.inj hn).symm
        · rw [Function.update_of_ne hcc]
          exact h.others c n (by rw [hcurr]; exact fun heq => hcc (some.inj heq).symm) hn
    · rw [if_pos hrel]
      exact ⟨⟨fun hall => absurd rfl (hall _), fun hreach => absurd hreach.2 hrel⟩, by simp⟩

lemma Exit.Counted.noteCellSent (h : Exit.Counted ⟨cfx, history⟩) (hcurr : cfx.currLeg = some circ)
    (hmux : confluxShouldMultiplex relayCommand = true) :
    Exit.Counted ⟨confluxNoteCellSent cfx circ relayCommand, history.sent (some circ)⟩ := by
  have hcurr' : (confluxNoteCellSent cfx circ relayCommand).currLeg = some circ := by
    rw [confluxNoteCellSent, if_pos hmux]
    exact hcurr
  refine ⟨fun c hc => ?_, fun c n hc hn => ?_⟩
  · rw [hcurr'] at hc
    cases hc
    rw [lastSent_noteCellSent hmux, if_pos rfl, h.current circ hcurr, map_some, addU64,
      Nat.mod_add_mod]
    rfl
  · rw [hcurr'] at hc
    have hne : c ≠ circ := fun heq => hc (congrArg some heq.symm)
    rw [lastSent_noteCellSent hmux, if_neg hne] at hn
    exact h.others c n (hcurr ▸ hc) hn

omit [DecidableEq ι] in
lemma History.mark_pick (before after : Option ι) :
    (history.pick before after).mark = history.mark := by
  rcases before with _ | _ <;> rcases after with _ | _ <;> rfl

omit [DecidableEq ν] in
variable (ν origCirc sched) in
/-- **The decision**: no assertion fails exactly when the leg moved to is in reach. -/
lemma Exit.Counted.decide (h : exit.Counted) (hmux : confluxShouldMultiplex relayCommand = true) :
    ((∀ failed, confluxDecideCircForSend exit.cfx origCirc relayCommand sched ≠ .error failed)
        ↔ exit.InReach (ν := ν) (.send origCirc relayCommand sched))
      ∧ ∀ decision, confluxDecideCircForSend exit.cfx origCirc relayCommand sched = .ok decision →
        Exit.Counted ⟨decision.cfx, (exit.picked sched).leave (exit.moves relayCommand sched)⟩
          ∧ ∀ c, decision.circ = some c → decision.cfx.currLeg = some c := by
  have hnext := h.decideNextCirc sched
  have hsome (c : ι) (hc : (confluxDecideNextCirc exit.cfx sched).2 = some c) :=
    confluxDecideNextCirc_eq_some hc
  have hmark : (exit.picked sched).mark = exit.history.mark := History.mark_pick _ _
  rw [confluxDecideCircForSend, if_pos hmux, Exit.InReach, Exit.moves, if_pos hmux, ← hmark]
  generalize confluxDecideNextCirc exit.cfx sched = next at hnext hsome ⊢
  obtain ⟨cfx, _ | newCirc⟩ := next
  · simp only at hnext ⊢
    refine ⟨⟨fun _ _ _ => by simp, fun _ _ => by simp⟩, ?_⟩
    rintro decision ⟨⟩
    refine ⟨hnext, fun c hc => ?_⟩
    split_ifs at hc
    exact hc
  · obtain ⟨⟨currCirc, hcurr⟩, hleg⟩ := hsome newCirc rfl
    simp only at hnext hcurr hleg ⊢
    simp only [hcurr]
    by_cases heq : newCirc = currCirc
    · simp only [if_pos heq]
      refine ⟨⟨fun _ _ _ => by simp, fun _ _ => by simp⟩, ?_⟩
      rintro decision ⟨⟩
      refine ⟨hnext, ?_⟩
      rintro c ⟨⟩
      exact heq ▸ hcurr
    · simp only [if_neg heq]
      obtain ⟨hasserts, hok⟩ := hnext.switchLeg hcurr heq hleg
      refine ⟨?_, fun decision hdecision => ?_⟩
      · rw [hasserts]
        refine ⟨?_, fun hreach => hreach _ _ rfl⟩
        rintro hreach leg newLeg ⟨⟩
        exact hreach
      · obtain ⟨hcounted, hcirc, hcurr'⟩ := hok decision hdecision
        exact ⟨hcounted, fun c hc => hcurr'.trans (hcirc.symm.trans hc)⟩

omit [DecidableEq ν] in
/-- **A cell is sent**: no assertion fails exactly when the leg moved to is in reach, and then the
counters are again what the history says. -/
lemma Exit.Counted.send (h : exit.Counted) :
    ((∀ failed, exit.send origCirc relayCommand sched ≠ .error failed)
        ↔ exit.InReach (ν := ν) (.send origCirc relayCommand sched))
      ∧ ∀ exit', exit.send origCirc relayCommand sched = .ok exit' → exit'.Counted := by
  by_cases hmux : confluxShouldMultiplex relayCommand = true
  · obtain ⟨hasserts, hok⟩ := h.decide ν origCirc sched hmux
    rw [← hasserts, Exit.send]
    rcases hdecide : confluxDecideCircForSend exit.cfx origCirc relayCommand sched with
      failed | decision
    · exact ⟨⟨fun hall => absurd rfl (hall failed), fun hall => absurd rfl (hall failed)⟩, by simp⟩
    · obtain ⟨hcounted, hcurr⟩ := hok decision hdecide
      refine ⟨⟨fun _ _ => by simp, fun _ _ => by simp⟩, ?_⟩
      rintro exit' ⟨⟩
      simp only [if_pos hmux]
      rcases hcirc : decision.circ with _ | circ
      · exact hcounted
      · exact hcounted.noteCellSent (hcurr circ hcirc) hmux
  · have hmoves : exit.moves relayCommand sched = none := by rw [Exit.moves, if_neg hmux]
    rw [Exit.send, confluxDecideCircForSend, if_neg hmux, Exit.InReach, hmoves]
    refine ⟨⟨fun _ _ _ => by simp, fun _ _ => by simp⟩, ?_⟩
    rintro exit' ⟨⟩
    simp only [confluxNoteCellSent, if_neg hmux]
    exact h

end Sending

/-! ## Runs -/

section Runs

variable {exit exit' : Exit ι α} {maxLegsSet : ℕ} {e : ExitEvent ι α ν}

lemma Exit.Counted.holds_iff (h : exit.Counted) : exit.Holds maxLegsSet e ↔ exit.InReach e := by
  cases e with
  | send origCirc relayCommand sched => exact h.send.1
  | link circ link inflight | receive circ wire inflight =>
    exact iff_of_true (fun _ h => by cases h) trivial
  | close circ inflight => exact iff_of_true (fun _ h => by cases h) trivial

lemma Exit.Counted.next (h : exit.Counted) (hnext : exit.next maxLegsSet e = some exit') :
    exit'.Counted := by
  have hstep : exit.step maxLegsSet e = .ok exit' := by
    rw [Exit.next] at hnext
    rcases hs : exit.step maxLegsSet e with failed | t
    · rw [hs] at hnext; cases hnext
    · rw [hs] at hnext; cases hnext; rfl
  cases e with
  | send origCirc relayCommand sched => exact (h.send (ν := ν)).2 exit' hstep
  | link circ link inflight => cases hstep; exact h.link link inflight
  | receive circ wire inflight => cases hstep; exact h.receive wire inflight
  | close circ inflight => cases hstep; exact h.linkedCircuitClosed circ inflight

/-- **When no assertion fails**: for any LINK cells, cells, closes and choices of leg, exactly when
the exit only ever moves to legs in reach. -/
theorem neverAsserts_iff (maxLegsSet : ℕ) (run : List (ExitEvent ι α ν)) :
    Meets (Exit.next maxLegsSet) (Exit.Holds maxLegsSet) Exit.init run
      ↔ Meets (Exit.next maxLegsSet) Exit.InReach Exit.init run := by
  have hcounted : ∀ (pre : List (ExitEvent ι α ν)) exit,
      Reaches (Exit.next maxLegsSet) Exit.init pre exit → exit.Counted := fun pre exit hpre =>
    invariant_of_reaches (fun _ _ _ hI hstep => hI.next hstep)
      (counted_of_no_leg (fun _ => rfl) rfl) hpre
  constructor
  · intro hmeets pre e post heq exit hpre
    exact (hcounted pre exit hpre).holds_iff.mp (hmeets pre e post heq exit hpre)
  · intro hmeets pre e post heq exit hpre
    exact (hcounted pre exit hpre).holds_iff.mpr (hmeets pre e post heq exit hpre)

/-- Two LINK cells with other `last_seqno_recv`s: the exit starts on the first leg, which stands at
0, and moves to the second, which stands at 5. -/
theorem not_neverAsserts :
    ¬ ∀ run : List (ExitEvent Bool Unit Unit),
      Meets (Exit.next 8) (Exit.Holds 8) Exit.init run := by
  intro hall
  have hfails := hall
    [.link false ⟨1, (), 0, 0⟩ false, .link true ⟨1, (), 0, 5⟩ false,
      .send false .data ⟨some false, some true⟩]
    [.link false ⟨1, (), 0, 0⟩ false, .link true ⟨1, (), 0, 5⟩ false]
    (.send false .data ⟨some false, some true⟩) [] rfl _ rfl
  exact hfails .lastSeqSent rfl

end Runs

end Ator.Conflux
