import AtorProtocol.Conflux.Scheduling
import AtorProtocol.Lib.Run

/-!
# Legs that come and go

`cfx_add_leg` and `cfx_del_leg` in `src/core/or/conflux_pool.c`, among the other functions that
write a set: what a removal gives up when the set survives, and the pointers to the legs.

* `cfxDelLegOf` — the removal, with the congestion control of the circuit.
* `Survives` — what holds when it lets the set survive.
* `legs_survive` — so it is at every removal of a run, and the pointers never dangle.
-/

namespace Ator.Conflux

open Option
open Except (ok.inj)

variable {ι α ν : Type*} [DecidableEq ι]

/-- `tor_assert(cc->sendme_inc)` -/
inductive RemovalAssert where
  | sendmeInc
deriving DecidableEq

/-- `cfx_del_leg`, and whether the whole set has to go, with the congestion control of the
circuit. -/
def cfxDelLegOf (cfx : Cfx ι α) (circ : ι) (cc : LegCircuit) :
    Except RemovalAssert (Cfx ι α × Bool) :=
  if (confluxGetLeg cfx circ).isNone then .ok (cfx, false)
  else if cc.sendmeInc = 0 then .error .sendmeInc
  else .ok (cfxDelLeg cfx circ (cc.inflight ≥ cc.sendmeInc.toUInt64))

/-- What writes a set.  A circuit is linked once. -/
inductive SetEvent (ι α ν : Type*) where
  | addLeg (leg : Leg ι ν)
  | delLeg (circ : ι) (cc : LegCircuit)
  | decide (origCirc : ι) (relayCommand : RelayCommand) (sched : Schedule ι)
  | noteCellSent (circ : ι) (relayCommand : RelayCommand)
  | processSwitch (inCirc : ι) (enabled sourceHop : Bool) (relativeSeq : ℕ)
  | processCell (inCirc : ι) (sourceHop : Bool) (cell : α)
  | dequeueCell
  | markAllForClose

/-- The set after an event, unless an assertion fails. -/
def SetEvent.step (cfx : Cfx ι α) : SetEvent ι α ν → Option (Cfx ι α)
  | .addLeg leg => some (if (confluxGetLeg cfx leg.circ).isSome then cfx else cfxAddLeg cfx leg)
  | .delLeg circ cc => (cfxDelLegOf cfx circ cc).toOption.map Prod.fst
  | .decide origCirc relayCommand sched =>
    (confluxDecideCircForSend cfx origCirc relayCommand sched).toOption.map Decision.cfx
  | .noteCellSent circ relayCommand => some (confluxNoteCellSent cfx circ relayCommand)
  | .processSwitch inCirc enabled sourceHop relativeSeq =>
    some ((confluxProcessSwitchCommand cfx inCirc enabled sourceHop relativeSeq).getD cfx)
  | .processCell inCirc sourceHop cell => some (confluxProcessCell cfx inCirc sourceHop cell).cfx
  | .dequeueCell => some ((confluxDequeueCell cfx).elim cfx Prod.snd)
  | .markAllForClose => some { cfx with inFullTeardown := true }

variable {cfx cfx' : Cfx ι α} {circ c : ι} {cc : LegCircuit} {leg : ConfluxLeg} {n : ℕ}
  {e : SetEvent ι α ν} {es : List (SetEvent ι α ν)}

/-! ## The highest sequence numbers -/

lemma foldl_max_le_iff {l : List ℕ} {m : ℕ} : l.foldl max m ≤ n ↔ m ≤ n ∧ ∀ x ∈ l, x ≤ n := by
  induction l generalizing m with
  | nil => simp
  | cons x l ih => rw [List.foldl_cons, ih, max_le_iff, List.forall_mem_cons, and_assoc]

lemma forall_legs_iff {P : ConfluxLeg → Prop} :
    (∀ leg ∈ cfx.legs.values, P leg) ↔ ∀ c leg, confluxGetLeg cfx c = some leg → P leg := by
  constructor
  · intro h c leg hleg
    exact h leg (List.mem_map.mpr ⟨(c, leg), AssocMap.get_eq_some.mp hleg, rfl⟩)
  · intro h leg hleg
    obtain ⟨⟨c, leg'⟩, hmem, rfl⟩ := List.mem_map.mp hleg
    exact h c leg' (AssocMap.get_eq_some.mpr hmem)

lemma maxSeq_le_iff (f : ConfluxLeg → ℕ) : (cfx.legs.values.map f).foldl max 0 ≤ n
    ↔ ∀ c leg, confluxGetLeg cfx c = some leg → f leg ≤ n := by
  rw [foldl_max_le_iff, ← forall_legs_iff]
  simp

/-! ## A removal -/

/-- **What a removal gives up** when it lets the set survive: the numbers of the legs that are left
go as far as before, and less than a SENDME increment of cells was in flight. -/
structure Survives (cfx cfx' : Cfx ι α) (cc : LegCircuit) : Prop where
  seqSent : cfx'.numLegs > 0 → confluxGetMaxSeqSent cfx' = confluxGetMaxSeqSent cfx
  seqRecv : cfx'.numLegs > 0 → confluxGetMaxSeqRecv cfx' = confluxGetMaxSeqRecv cfx
  inflight : cc.inflight < cc.sendmeInc.toUInt64

/-- A leg of the set is removed, and the set survives. -/
def RemovalSurvives (cfx : Cfx ι α) : SetEvent ι α ν → Prop
  | .delLeg circ cc => ∀ cfx', (confluxGetLeg cfx circ).isSome = true →
      cfxDelLegOf cfx circ cc = .ok (cfx', false) → Survives cfx cfx' cc
  | _ => True

lemma confluxGetLeg_erase {cfx₁ : Cfx ι α} (hlegs : cfx₁.legs = cfx.legs.erase circ) :
    confluxGetLeg cfx₁ c = some leg ↔ c ≠ circ ∧ confluxGetLeg cfx c = some leg := by
  rw [confluxGetLeg, hlegs]
  exact AssocMap.get_erase_eq_some

lemma maxSeq_erase (f : ConfluxLeg → ℕ) {cfx₁ : Cfx ι α} (hlegs : cfx₁.legs = cfx.legs.erase circ)
    (hleg : confluxGetLeg cfx circ = some leg)
    (hle : f leg ≤ (cfx₁.legs.values.map f).foldl max 0) :
    (cfx₁.legs.values.map f).foldl max 0 = (cfx.legs.values.map f).foldl max 0 := by
  refine le_antisymm ((maxSeq_le_iff f).mpr fun c leg' hleg' => ?_)
    ((maxSeq_le_iff f).mpr fun c leg' hleg' => ?_)
  · exact (maxSeq_le_iff f).mp le_rfl c leg' ((confluxGetLeg_erase hlegs).mp hleg').2
  · by_cases hc : c = circ
    · rw [hc, hleg] at hleg'
      rwa [← some.inj hleg']
    · exact (maxSeq_le_iff f).mp le_rfl c leg' ((confluxGetLeg_erase hlegs).mpr ⟨hc, hleg'⟩)

/-- **When the set survives.** -/
lemma cfxDelLeg_survives {inflight : Bool} (hleg : confluxGetLeg cfx circ = some leg)
    (h : cfxDelLeg cfx circ inflight = (cfx', false)) :
    inflight = false ∧ cfx.currLeg ≠ some circ ∧ cfx'.legs = cfx.legs.erase circ
      ∧ (cfx'.numLegs > 0 → leg.lastSeqSent ≤ confluxGetMaxSeqSent cfx'
        ∧ leg.lastSeqRecv ≤ confluxGetMaxSeqRecv cfx') := by
  rw [cfxDelLeg, hleg] at h
  obtain ⟨rfl, hfull⟩ := Prod.mk.inj h
  simp only [Bool.or_eq_false_iff, decide_eq_false_iff_not] at hfull
  obtain ⟨⟨hinflight, hhighest⟩, hcurr⟩ := hfull
  refine ⟨hinflight, hcurr, rfl, fun hpos => ?_⟩
  have hno := fun hless => hhighest ⟨hpos, hless⟩
  exact ⟨Nat.not_lt.mp fun hlt => hno (Or.inl hlt), Nat.not_lt.mp fun hlt => hno (Or.inr hlt)⟩

lemma removalSurvives (cfx : Cfx ι α) (e : SetEvent ι α ν) : RemovalSurvives cfx e := by
  cases e with
  | delLeg circ cc =>
    intro cfx' hsome h
    obtain ⟨leg, hleg⟩ := Option.isSome_iff_exists.mp hsome
    rw [cfxDelLegOf, if_neg (by simp [hleg])] at h
    split at h
    · cases h
    · obtain ⟨hinflight, -, hlegs, hmax⟩ := cfxDelLeg_survives hleg (ok.inj h)
      refine ⟨fun hpos => ?_, fun hpos => ?_, ?_⟩
      · exact maxSeq_erase ConfluxLeg.lastSeqSent hlegs hleg (hmax hpos).1
      · exact maxSeq_erase ConfluxLeg.lastSeqRecv hlegs hleg (hmax hpos).2
      · exact UInt64.not_le.mp (of_decide_eq_false hinflight)
  | _ => trivial

/-! ## The pointers to the legs -/

omit [DecidableEq ι] in
lemma LegPointers.of_legs (h : LegPointers cfx) (hlegs : cfx'.legCircs = cfx.legCircs)
    (hcurr : cfx'.currLeg = cfx.currLeg) (hprev : cfx'.prevLeg = cfx.prevLeg) :
    LegPointers cfx' := by
  refine ⟨fun c hc => ?_, fun c hc => ?_⟩
  · rw [hlegs]
    exact h.curr c (hcurr ▸ hc)
  · rw [hlegs]
    exact h.prev c (hprev ▸ hc)

lemma legCircs_modifyLeg (cfx : Cfx ι α) (circ : ι) (f : ConfluxLeg → ConfluxLeg) :
    (cfx.modifyLeg circ f).legCircs = cfx.legCircs :=
  AssocMap.map_fst_update _ circ f

lemma LegPointers.addLeg (h : LegPointers cfx) (leg : Leg ι ν) : LegPointers (cfxAddLeg cfx leg) := by
  have hmem : ∀ c ∈ cfx.legCircs, c ∈ (cfxAddLeg cfx leg).legCircs := by
    intro c hc
    rw [mem_legCircs] at hc ⊢
    rw [confluxGetLeg, cfxAddLeg, AssocMap.get_set]
    split
    · rfl
    · exact hc
  exact ⟨fun c hc => hmem c (h.curr c hc), fun c hc => hmem c (h.prev c hc)⟩

lemma LegPointers.delLeg (h : LegPointers cfx) (circ : ι) (inflight : Bool) :
    LegPointers (cfxDelLeg cfx circ inflight).1 := by
  rw [cfxDelLeg]
  split
  · exact h
  · have hmem : ∀ {p : Option ι} {c : ι}, (∀ c, p = some c → c ∈ cfx.legCircs) →
        (if p = some circ then none else p) = some c →
          c ∈ ({ cfx with legs := cfx.legs.erase circ } : Cfx ι α).legCircs := by
      intro p c hp hc
      split at hc
      · cases hc
      · next hne =>
          have hcc : c ≠ circ := by
            rintro rfl
            exact hne hc
          have hleg := hp c hc
          rw [mem_legCircs] at hleg ⊢
          rw [confluxGetLeg, AssocMap.get_erase_of_ne hcc]
          exact hleg
    exact ⟨fun c hc => hmem h.curr hc, fun c hc => hmem h.prev hc⟩

lemma mem_of_confluxPickFirstLeg {minLeg : Option ι} (h : confluxPickFirstLeg cfx minLeg = some c) :
    c ∈ cfx.legCircs := by
  rw [confluxPickFirstLeg] at h
  cases hleg : legOf cfx minLeg with
  | some c' =>
    rw [hleg] at h
    obtain rfl := some.inj h
    rw [legOf, Option.filter_eq_some_iff] at hleg
    exact mem_legCircs.mpr hleg.2
  | none =>
    rw [hleg] at h
    obtain ⟨entry, hentry, rfl⟩ := Option.map_eq_some_iff.mp h
    exact List.mem_map_of_mem (List.mem_of_mem_head? hentry)

lemma LegPointers.decideNextCirc (h : LegPointers cfx) (sched : Schedule ι) :
    LegPointers (confluxDecideNextCirc cfx sched).1 := by
  rw [confluxDecideNextCirc]
  split
  · exact h
  · split
    · exact h
    · split
      · exact h
      · next leg hleg =>
          refine ⟨fun c hc => ?_, h.prev⟩
          obtain rfl := some.inj hc
          exact mem_of_confluxPickFirstLeg hleg

lemma LegPointers.switchLeg {currCirc newCirc : ι} {decision : Decision ι α}
    (h : confluxSwitchLeg cfx currCirc newCirc = .ok decision) : LegPointers decision.cfx := by
  rw [confluxSwitchLeg] at h
  split at h
  · cases h
  · cases h
  · next prevLeg currLeg hprev hcurr =>
      split at h
      · cases h
      · simp only at h
        split at h
        · cases h
        · obtain rfl := ok.inj h
          have hlegs := fun f => legCircs_modifyLeg cfx newCirc f
          refine ⟨fun c hc => ?_, fun c hc => ?_⟩
          · obtain rfl := some.inj hc
            refine (hlegs _).symm ▸ mem_legCircs.mpr ?_
            rw [hcurr]
            rfl
          · obtain rfl := some.inj hc
            refine (hlegs _).symm ▸ mem_legCircs.mpr ?_
            rw [hprev]
            rfl

lemma LegPointers.decide {origCirc : ι} {relayCommand : RelayCommand} {sched : Schedule ι}
    {decision : Decision ι α} (h : LegPointers cfx)
    (hdecide : confluxDecideCircForSend cfx origCirc relayCommand sched = .ok decision) :
    LegPointers decision.cfx := by
  have hnext := h.decideNextCirc sched
  rw [confluxDecideCircForSend] at hdecide
  split at hdecide
  · split at hdecide
    · next cfx₁ heq =>
        obtain rfl := ok.inj hdecide
        rw [heq] at hnext
        exact hnext
    · next cfx₁ newCirc heq =>
        rw [heq] at hnext
        split at hdecide
        · cases hdecide
        · split at hdecide
          · obtain rfl := ok.inj hdecide
            exact hnext
          · exact LegPointers.switchLeg hdecide
  · obtain rfl := ok.inj hdecide
    exact h

/-- **A step** leaves the pointers with legs of the set. -/
lemma LegPointers.of_step (cfx : Cfx ι α) (e : SetEvent ι α ν) (cfx' : Cfx ι α)
    (h : LegPointers cfx) (hstep : SetEvent.step cfx e = some cfx') : LegPointers cfx' := by
  cases e with
  | addLeg leg =>
    obtain rfl := some.inj hstep
    split
    · exact h
    · exact h.addLeg leg
  | delLeg circ cc =>
    rw [SetEvent.step, cfxDelLegOf] at hstep
    split_ifs at hstep
    · obtain rfl := some.inj hstep
      exact h
    · cases hstep
    · obtain rfl := some.inj hstep
      exact h.delLeg circ _
  | decide origCirc relayCommand sched =>
    rw [SetEvent.step] at hstep
    cases hdecide : confluxDecideCircForSend cfx origCirc relayCommand sched with
    | error a =>
      rw [hdecide] at hstep
      cases hstep
    | ok decision =>
      rw [hdecide] at hstep
      obtain rfl := some.inj hstep
      exact h.decide hdecide
  | noteCellSent circ relayCommand =>
    obtain rfl := some.inj hstep
    rw [confluxNoteCellSent]
    split
    · exact h.of_legs (legCircs_modifyLeg cfx circ _) rfl rfl
    · exact h
  | processSwitch inCirc enabled sourceHop relativeSeq =>
    obtain rfl := some.inj hstep
    cases hswitch : confluxProcessSwitchCommand cfx inCirc enabled sourceHop relativeSeq with
    | none => exact h
    | some cfx' =>
      obtain ⟨f, rfl⟩ := confluxProcessSwitchCommand_eq_some hswitch
      exact h.of_legs (legCircs_modifyLeg cfx inCirc f) rfl rfl
  | processCell inCirc sourceHop cell =>
    obtain rfl := some.inj hstep
    rcases cfx_confluxProcessCell cfx inCirc sourceHop cell with heq | ⟨f, _, _, heq⟩
    · rw [heq]
      exact h
    · rw [heq]
      exact h.of_legs (legCircs_modifyLeg cfx inCirc f) rfl rfl
  | dequeueCell =>
    obtain rfl := some.inj hstep
    cases hcell : confluxDequeueCell cfx with
    | none => exact h
    | some r =>
      obtain ⟨cell, cfx'⟩ := r
      obtain ⟨top, oooQ, -, -, -, hcfx⟩ := confluxDequeueCell_eq_some hcell
      show LegPointers cfx'
      rw [hcfx]
      exact h.of_legs rfl rfl rfl
  | markAllForClose =>
    obtain rfl := some.inj hstep
    exact h.of_legs rfl rfl rfl

/-- **Legs that come and go**: whatever happens to a set, a removal that lets it survive gives up
less than a SENDME increment of cells, and none whose number the legs that are left have not
reached; and the pointers to legs never dangle. -/
theorem legs_survive (cfx : Cfx ι α) (es : List (SetEvent ι α ν)) :
    Meets SetEvent.step RemovalSurvives cfx es
      ∧ (LegPointers cfx → ∀ pre, pre <+: es → ∀ cfx', Reaches SetEvent.step cfx pre cfx' →
          LegPointers cfx') := by
  refine ⟨fun pre e post _ cfx' _ => removalSurvives cfx' e, fun hpointers pre _ cfx' h => ?_⟩
  exact invariant_of_reaches LegPointers.of_step hpointers h

/-- A circuit with 30 cells in flight, and a SENDME due after 31. -/
def fewInFlight : LegCircuit := { twoLegStates.circ 0 with inflight := 30 }

theorem legs_survive_twoLegs : Meets SetEvent.step RemovalSurvives (twoLegs .minrtt).cfx
      [(.delLeg 0 fewInFlight : SetEvent ℕ Unit Unit)]
    ∧ ∀ pre, pre <+: [(.delLeg 0 fewInFlight : SetEvent ℕ Unit Unit)] →
      ∀ cfx', Reaches SetEvent.step (twoLegs .minrtt).cfx pre cfx' → LegPointers cfx' :=
  ⟨(legs_survive _ _).1, (legs_survive _ _).2 (legPointers_twoLegs .minrtt)⟩

/-- A set of one leg, which is not the current one. -/
def oneLeg : Cfx ℕ Unit := { Cfx.new with legs := (∅ : AssocMap ℕ ConfluxLeg).set 0 ⟨0, 5⟩ }

/-- The set survives its last leg, and with it the highest number goes; and a set survives a leg
that still has cells in flight. -/
theorem delLeg_gives_up :
    (∃ cfx', cfxDelLegOf oneLeg 0 (twoLegStates.circ 1) = .ok (cfx', false)
        ∧ confluxGetMaxSeqSent oneLeg = 5 ∧ confluxGetMaxSeqSent cfx' = 0)
      ∧ 0 < fewInFlight.inflight
      ∧ ∃ cfx', cfxDelLegOf (twoLegs .minrtt).cfx 0 fewInFlight = .ok (cfx', false) := by
  refine ⟨⟨_, rfl, by decide, by decide⟩, by decide, ⟨_, rfl⟩⟩

end Ator.Conflux
