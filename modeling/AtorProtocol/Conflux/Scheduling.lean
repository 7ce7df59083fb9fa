import AtorProtocol.Conflux.Link
import Mathlib.Data.List.MinMax

/-!
# Choosing the leg to send on

The scheduling of `src/core/or/conflux.c`, with the round trip times of the legs and the congestion
control of their circuits.

* `lowestRtt` — the loop that the algorithms share; `lowestRtt_eq_argmin`.
* `decideNextCirc` — `conflux_decide_next_circ`; `decideNextCirc_schedule`: it is
  `confluxDecideNextCirc`, where the choices are an argument, with those of the algorithms.
* `decideNextCirc_decided` — what is chosen, for the algorithms that go by the RTT alone.
-/

namespace Ator.Conflux

open List Option

inductive ConfluxAlg where
  | minrtt
  | lowrtt
  | cwndrtt
deriving DecidableEq

/-- The circuit of a leg: its congestion control, and the channels that block it. -/
structure LegCircuit where
  isOrigin : Bool
  circuitBlockedOnNChan : Bool
  circuitBlockedOnPChan : Bool
  cwnd : UInt64
  inflight : UInt64
  sendmeInc : UInt8
  inSlowStart : Bool
deriving DecidableEq

/-- What the scheduling reads of the legs, by their circuits, and the parameter `cfx_drain_pct`. -/
structure LegStates (ι : Type*) where
  circRttsUsec : ι → UInt64
  circ : ι → LegCircuit
  drainPct : UInt8

/-- `conflux_t` with its scheduling algorithm and `cells_until_switch`. -/
structure SchedSet (ι α : Type*) where
  cfx : Cfx ι α
  alg : ConfluxAlg
  cellsUntilSwitch : UInt64

def uint64Max : UInt64 := UInt64.ofNat (2 ^ 64 - 1)

variable {ι α : Type*}

/-- The circuits of the legs, in the order of the list. -/
def Cfx.legCircs (cfx : Cfx ι α) : List ι := cfx.legs.entries.map Prod.fst

def circuitReadyToSend (circ : LegCircuit) : Bool :=
  let ccSendable := !decide (circ.inflight ≥ circ.cwnd)
  if circ.isOrigin then ccSendable && !circ.circuitBlockedOnNChan
  else ccSendable && !circ.circuitBlockedOnPChan

/-! ## The algorithms -/

/-- What stops the scheduling: an assertion on the number of legs. -/
inductive SchedulingAssert where
  | numLegs
deriving DecidableEq

section Algorithms

variable (st : LegStates ι)

def LegStates.ready (leg : ι) : Bool := circuitReadyToSend (st.circ leg)

/-- The loop over the legs that keeps the lowest RTT, without the legs that are skipped and those
with no RTT measurement. -/
def lowestRtt (skipped : ι → Bool) (legs : List ι) : UInt64 × Option ι :=
  legs.foldl (fun low leg =>
    if skipped leg then low
    else if st.circRttsUsec leg ≠ 0 ∧ st.circRttsUsec leg < low.1 then
      (st.circRttsUsec leg, some leg)
    else low) (uint64Max, none)

def confluxDecideCircMinrtt (legs : List ι) : Except SchedulingAssert (Option ι) :=
  if legs.length = 0 then .error .numLegs else
  match (lowestRtt st (fun _ => false) legs).2 with
  | none => .ok none
  | some circ => .ok (if st.ready circ then some circ else none)

def confluxDecideCircLowrtt (legs : List ι) : Except SchedulingAssert (Option ι) :=
  if legs.length = 0 then .error .numLegs else
  .ok (lowestRtt st (fun leg => !st.ready leg) legs).2

def cwndAvailable (onCirc : LegCircuit) : UInt64 :=
  if onCirc.cwnd < onCirc.inflight then 0 else onCirc.cwnd - onCirc.inflight

def cwndSendable (onCirc : LegCircuit) (inUsec ourUsec : UInt64) : UInt64 :=
  let cwndAdjusted := cwndAvailable onCirc
  if ourUsec = 0 ∨ inUsec = 0 then cwndAdjusted
  else if onCirc.inSlowStart then cwndAdjusted
  else min onCirc.cwnd (cwndAdjusted * inUsec / ourUsec)

/-- `conflux_decide_circ_cwndrtt`.  Its assertion is the other way round than those of its
siblings, and its second loop keeps the last leg that passes. -/
def confluxDecideCircCwndrtt (legs : List ι) : Except SchedulingAssert (Option ι) :=
  if ¬ legs.length = 0 then .error .numLegs else
  let (minRtt, leg) := lowestRtt st (fun _ => false) legs
  match leg.filter st.ready with
  | some leg => .ok (some leg)
  | none =>
    let leg := legs.foldl (fun leg l =>
      if ¬ st.ready l then leg
      else if st.circRttsUsec l ≠ 0 ∧ cwndSendable (st.circ l) minRtt (st.circRttsUsec l) > 0 then
        some l
      else leg) none
    .ok (leg.filter st.ready)

/-- The loop of `conflux_pick_first_leg`. -/
def pickLeg (legs : List ι) : Option ι :=
  legs.foldl (fun minLeg leg =>
    if st.circRttsUsec leg > 0 then
      match minLeg with
      | none => some leg
      | some m => if st.circRttsUsec leg < st.circRttsUsec m then some leg else some m
    else minLeg) none

/-- `conflux_pick_first_leg`; without an RTT, the 0th leg, and `none` without legs. -/
def pickFirstLeg (set : SchedSet ι α) : Option (SchedSet ι α) :=
  match (pickLeg st set.cfx.legCircs).or set.cfx.legCircs.head? with
  | none => none
  | some minLeg => some { set with
      cfx := { set.cfx with currLeg := some minLeg }, cellsUntilSwitch := 0 }

def confluxCanSwitch (set : SchedSet ι α) : Bool :=
  if set.cellsUntilSwitch > 0 then
    match set.cfx.prevLeg with
    | none => false
    | some prevLeg =>
      let ccontrol := st.circ prevLeg
      ccontrol.inflight < ccontrol.sendmeInc.toUInt64
        || 100 * ccontrol.inflight ≤ st.drainPct.toUInt64 * ccontrol.cwnd
  else true

/-- The set with a current leg, if it has legs. -/
def withCurrLeg (set : SchedSet ι α) : Option (SchedSet ι α) :=
  match set.cfx.currLeg with
  | some _ => some set
  | none => pickFirstLeg st set

/-- The end of `conflux_decide_next_circ`, for a set with a current leg. -/
def decideFrom (set : SchedSet ι α) (currCirc : ι) : Except SchedulingAssert (Option ι) :=
  if ¬ confluxCanSwitch st set then .ok (if st.ready currCirc then some currCirc else none)
  else
    match set.alg with
    | .minrtt => confluxDecideCircMinrtt st set.cfx.legCircs
    | .lowrtt => confluxDecideCircLowrtt st set.cfx.legCircs
    | .cwndrtt => confluxDecideCircCwndrtt st set.cfx.legCircs

/-- `conflux_decide_next_circ`, but for the warnings of `conflux_validate_legs`. -/
def decideNextCirc (set : SchedSet ι α) : Except SchedulingAssert (SchedSet ι α × Option ι) :=
  if set.cfx.inFullTeardown then .ok (set, none) else
  match withCurrLeg st set with
  | none => .ok (set, none)
  | some set' =>
    match set'.cfx.currLeg with
    | none => .ok (set', none)
    | some currCirc => (decideFrom st set' currCirc).map fun next => (set', next)

end Algorithms

variable {st : LegStates ι} {set set' : SchedSet ι α} {legs : List ι} {c d : ι}
  {skipped : ι → Bool}

/-! ## The lowest RTT -/

/-- A leg with an RTT that the loops look at. -/
def LegStates.measured (st : LegStates ι) (leg : ι) : Bool :=
  decide (st.circRttsUsec leg ≠ 0 ∧ st.circRttsUsec leg < uint64Max)

/-- The RTT as a number. -/
def LegStates.rtt (st : LegStates ι) (leg : ι) : ℕ := (st.circRttsUsec leg).toNat

lemma lowestRtt_foldl (legs : List ι) (acc : Option ι) (hacc : ∀ m ∈ acc, st.measured m = true) :
    (legs.foldl (fun low leg =>
      if skipped leg then low
      else if st.circRttsUsec leg ≠ 0 ∧ st.circRttsUsec leg < low.1 then
        (st.circRttsUsec leg, some leg)
      else low) (acc.elim uint64Max st.circRttsUsec, acc)).2
      = (legs.filter fun leg => !skipped leg && st.measured leg).foldl
        (List.argAux fun b c => st.rtt b < st.rtt c) acc := by
  induction legs generalizing acc with
  | nil => rfl
  | cons leg legs ih =>
    rw [foldl_cons]
    by_cases hskipped : skipped leg = true
    · rw [if_pos hskipped, filter_cons_of_neg (by simp [hskipped])]
      exact ih acc hacc
    · rw [if_neg hskipped]
      by_cases hlower : st.circRttsUsec leg ≠ 0
          ∧ st.circRttsUsec leg < acc.elim uint64Max st.circRttsUsec
      · have hmeasured : st.measured leg = true := by
          rw [LegStates.measured, decide_eq_true_eq]
          refine ⟨hlower.1, ?_⟩
          cases acc with
          | none => exact hlower.2
          | some m =>
            have hm := hacc m rfl
            rw [LegStates.measured, decide_eq_true_eq] at hm
            exact UInt64.lt_trans hlower.2 hm.2
        rw [if_pos hlower, filter_cons_of_pos (by simp [hskipped, hmeasured]), foldl_cons]
        have hnext : argAux (fun b c => st.rtt b < st.rtt c) acc leg = some leg := by
          cases acc with
          | none => rfl
          | some m => exact if_pos (UInt64.lt_iff_toNat_lt.mp hlower.2)
        rw [hnext]
        exact ih (some leg) fun m hm => by rw [← some.inj hm, hmeasured]
      · rw [if_neg hlower, ih acc hacc]
        by_cases hmeasured : st.measured leg = true
        · rw [filter_cons_of_pos (by simp [hskipped, hmeasured]), foldl_cons]
          rw [LegStates.measured, decide_eq_true_eq] at hmeasured
          congr 1
          cases acc with
          | none => exact absurd hmeasured hlower
          | some m =>
            refine (if_neg fun hlt => hlower ⟨hmeasured.1, ?_⟩).symm
            exact UInt64.lt_iff_toNat_lt.mpr hlt
        · rw [filter_cons_of_neg (by simp [hmeasured])]

/-- **The loop finds the first leg with the lowest RTT**, of those that are not skipped and have
one. -/
lemma lowestRtt_eq_argmin (skipped : ι → Bool) (legs : List ι) :
    (lowestRtt st skipped legs).2
      = (legs.filter fun leg => !skipped leg && st.measured leg).argmin st.rtt :=
  lowestRtt_foldl legs none (by simp)

lemma lowestRtt_eq_some (h : (lowestRtt st skipped legs).2 = some c) :
    c ∈ legs ∧ skipped c = false ∧ st.measured c = true
      ∧ ∀ d ∈ legs, skipped d = false → st.measured d = true → st.rtt c ≤ st.rtt d := by
  rw [lowestRtt_eq_argmin] at h
  obtain ⟨hmem, helig⟩ := mem_filter.mp (argmin_mem h)
  rw [Bool.and_eq_true, Bool.not_eq_true'] at helig
  refine ⟨hmem, helig.1, helig.2, fun d hd hskipped hmeasured => ?_⟩
  exact le_of_mem_argmin (mem_filter.mpr ⟨hd, by simp [hskipped, hmeasured]⟩) h

lemma lowestRtt_eq_none (h : (lowestRtt st skipped legs).2 = none) :
    ∀ d ∈ legs, skipped d = false → st.measured d = false := by
  rw [lowestRtt_eq_argmin, argmin_eq_none] at h
  intro d hd hskipped
  have hnot := filter_eq_nil_iff.mp h d hd
  simpa [hskipped] using hnot

/-! ## The current leg -/

/-- The current and the previous leg are legs of the set. -/
structure LegPointers (cfx : Cfx ι α) : Prop where
  curr : ∀ c, cfx.currLeg = some c → c ∈ cfx.legCircs
  prev : ∀ c, cfx.prevLeg = some c → c ∈ cfx.legCircs

lemma mem_of_pickLeg (h : pickLeg st legs = some c) : c ∈ legs := by
  have hfold : ∀ (legs : List ι) (acc : Option ι), legs.foldl (fun minLeg leg =>
      if st.circRttsUsec leg > 0 then
        match minLeg with
        | none => some leg
        | some m => if st.circRttsUsec leg < st.circRttsUsec m then some leg else some m
      else minLeg) acc = some c → acc = some c ∨ c ∈ legs := by
    intro legs
    induction legs with
    | nil => exact fun acc hacc => .inl hacc
    | cons leg legs ih =>
      intro acc hacc
      rw [foldl_cons] at hacc
      rcases ih _ hacc with hnext | hmem
      · split_ifs at hnext
        · cases acc with
          | none => exact .inr (some.inj hnext ▸ mem_cons_self)
          | some m =>
            dsimp only at hnext
            split_ifs at hnext
            · exact .inr (some.inj hnext ▸ mem_cons_self)
            · exact .inl hnext
        · exact .inl hnext
      · exact .inr (mem_cons_of_mem leg hmem)
  exact (hfold legs none h).resolve_left (by simp)

lemma pickFirstLeg_eq_some (h : pickFirstLeg st set = some set') :
    ∃ c ∈ set.cfx.legCircs, set' = { set with
      cfx := { set.cfx with currLeg := some c }, cellsUntilSwitch := 0 } := by
  rw [pickFirstLeg] at h
  split at h
  · cases h
  · next minLeg hmin =>
      refine ⟨minLeg, ?_, (some.inj h).symm⟩
      rcases or_eq_some_iff.mp hmin with hpick | ⟨-, hhead⟩
      · exact mem_of_pickLeg hpick
      · exact mem_of_mem_head? hhead

lemma pickFirstLeg_isSome (h : set.cfx.legCircs ≠ []) : (pickFirstLeg st set).isSome := by
  obtain ⟨c, legs, hlegs⟩ := exists_cons_of_ne_nil h
  rw [pickFirstLeg, hlegs]
  cases pickLeg st (c :: legs) <;> rfl

lemma withCurrLeg_eq_some (hpointers : LegPointers set.cfx) (h : withCurrLeg st set = some set') :
    set'.alg = set.alg ∧ set'.cfx.legs = set.cfx.legs
      ∧ set'.cfx = { set.cfx with currLeg := set'.cfx.currLeg }
      ∧ ∃ c ∈ set.cfx.legCircs, set'.cfx.currLeg = some c := by
  rw [withCurrLeg] at h
  split at h
  · next c hcurr =>
      obtain rfl := some.inj h
      exact ⟨rfl, rfl, rfl, c, hpointers.curr c hcurr, hcurr⟩
  · obtain ⟨c, hc, rfl⟩ := pickFirstLeg_eq_some h
    exact ⟨rfl, rfl, rfl, c, hc, rfl⟩

lemma withCurrLeg_isSome (h : set.cfx.legCircs ≠ []) : (withCurrLeg st set).isSome := by
  rw [withCurrLeg]
  split
  · rfl
  · exact pickFirstLeg_isSome h

/-! ## What is chosen -/

/-- The legs that the algorithm chooses between. -/
def Eligible (st : LegStates ι) (alg : ConfluxAlg) (leg : ι) : Prop :=
  st.measured leg = true ∧ (alg = .minrtt ∨ st.ready leg = true)

/-- A leg that the algorithm may choose with the smallest RTT of those. -/
def Smallest (st : LegStates ι) (set : SchedSet ι α) (c : ι) : Prop :=
  c ∈ set.cfx.legCircs ∧ Eligible st set.alg c
    ∧ ∀ d ∈ set.cfx.legCircs, Eligible st set.alg d → st.rtt c ≤ st.rtt d

/-- What `conflux_decide_next_circ` answers for a set that it has given a current leg. -/
structure Scheduled (st : LegStates ι) (set : SchedSet ι α) (next : Option ι) : Prop where
  ready : ∀ c, next = some c → c ∈ set.cfx.legCircs ∧ st.ready c = true
  stays : confluxCanSwitch st set = false → ∀ c, next = some c → set.cfx.currLeg = some c
  smallest : confluxCanSwitch st set = true → ∀ c, next = some c → Smallest st set c
  -- no leg may be sent on: the current one is not ready and cannot be left, or there is none
  -- to choose, or the one with the smallest RTT is not ready
  null : next = none → (confluxCanSwitch st set = false
      ∧ ∃ c, set.cfx.currLeg = some c ∧ st.ready c = false)
    ∨ (confluxCanSwitch st set = true ∧ ((∀ d ∈ set.cfx.legCircs, ¬ Eligible st set.alg d)
      ∨ ∃ c, Smallest st set c ∧ st.ready c = false))

lemma decideFrom_stay (h : confluxCanSwitch st set = false) (hc : c ∈ set.cfx.legCircs)
    (hcurr : set.cfx.currLeg = some c) :
    ∃ next, decideFrom st set c = .ok next ∧ Scheduled st set next := by
  rw [decideFrom, if_pos (by simp [h])]
  cases hready : st.ready c with
  | true =>
    refine ⟨some c, by simp, ⟨?_, ?_, ?_, by simp⟩⟩
    · rintro d hd
      obtain rfl := some.inj hd
      exact ⟨hc, hready⟩
    · rintro - d hd
      obtain rfl := some.inj hd
      exact hcurr
    · intro hswitch
      rw [h] at hswitch
      cases hswitch
  | false =>
    exact ⟨none, by simp, ⟨by simp, by simp, by simp, fun _ => .inl ⟨h, c, hcurr, hready⟩⟩⟩

lemma Scheduled.lowestRtt (skipped : ι → Bool) (h : confluxCanSwitch st set = true)
    (hskipped : ∀ d, skipped d = false ↔ set.alg = .minrtt ∨ st.ready d = true) :
    Scheduled st set ((lowestRtt st skipped set.cfx.legCircs).2.filter st.ready) := by
  cases hlow : (Conflux.lowestRtt st skipped set.cfx.legCircs).2 with
  | none =>
    refine ⟨by simp, by simp, by simp, fun _ => .inr ⟨h, .inl fun d hd helig => ?_⟩⟩
    have hnot := lowestRtt_eq_none hlow d hd ((hskipped d).mpr helig.2)
    rw [helig.1] at hnot
    cases hnot
  | some c =>
    obtain ⟨hmem, hc, hmeasured, hle⟩ := lowestRtt_eq_some hlow
    have hsmallest : Smallest st set c := ⟨hmem, ⟨hmeasured, (hskipped c).mp hc⟩,
      fun d hd helig => hle d hd ((hskipped d).mpr helig.2) helig.1⟩
    cases hready : st.ready c with
    | true =>
      rw [filter_some, if_pos hready]
      refine ⟨?_, by simp [h], ?_, by simp⟩
      · rintro d hd
        obtain rfl := some.inj hd
        exact ⟨hmem, hready⟩
      · rintro - d hd
        obtain rfl := some.inj hd
        exact hsmallest
    | false =>
      exact ⟨by simp [hready], by simp [hready], by simp [hready],
        fun _ => .inr ⟨h, .inr ⟨c, hsmallest, hready⟩⟩⟩

lemma decideFrom_switch (h : confluxCanSwitch st set = true) (halg : set.alg ≠ .cwndrtt)
    (hlegs : set.cfx.legCircs ≠ []) :
    ∃ next, decideFrom st set c = .ok next ∧ Scheduled st set next := by
  have hlength : ¬ set.cfx.legCircs.length = 0 := by simpa using hlegs
  rw [decideFrom, if_neg (by simp [h])]
  cases hcase : set.alg with
  | minrtt =>
    refine ⟨_, ?_, Scheduled.lowestRtt _ h fun d => ⟨fun _ => .inl hcase, fun _ => rfl⟩⟩
    rw [confluxDecideCircMinrtt, if_neg hlength]
    cases (lowestRtt st (fun _ => false) set.cfx.legCircs).2 <;> rfl
  | lowrtt =>
    refine ⟨_, ?_, Scheduled.lowestRtt (fun leg => !st.ready leg) h fun d => by simp [hcase]⟩
    rw [confluxDecideCircLowrtt, if_neg hlength]
    cases hlow : (lowestRtt st (fun leg => !st.ready leg) set.cfx.legCircs).2 with
    | none => rfl
    | some c =>
      have hready : st.ready c = true := by simpa using (lowestRtt_eq_some hlow).2.1
      rw [filter_some, if_pos hready]
  | cwndrtt => exact absurd hcase halg

/-- **What is chosen**, for a set with legs that is not torn down, unless the answer is left to
`conflux_decide_circ_cwndrtt`. -/
theorem decideNextCirc_decided (st : LegStates ι) (set : SchedSet ι α)
    (hlegs : set.cfx.legCircs ≠ []) (hpointers : LegPointers set.cfx)
    (halg : ∀ set', withCurrLeg st set = some set' → confluxCanSwitch st set' = true →
      set.alg ≠ .cwndrtt) :
    if set.cfx.inFullTeardown then decideNextCirc st set = .ok (set, none)
    else ∃ set' next, withCurrLeg st set = some set' ∧ decideNextCirc st set = .ok (set', next)
      ∧ Scheduled st set' next := by
  split_ifs with hfull
  · rw [decideNextCirc, if_pos hfull]
  · have hsome : (withCurrLeg st set).isSome := withCurrLeg_isSome hlegs
    obtain ⟨set', hset'⟩ := isSome_iff_exists.mp hsome
    obtain ⟨halg', hlegs', -, c, hc, hcurr⟩ := withCurrLeg_eq_some hpointers hset'
    have hcircs : set'.cfx.legCircs = set.cfx.legCircs := by rw [Cfx.legCircs, hlegs']; rfl
    rw [← hcircs] at hc hlegs
    have hdecide : ∃ next, decideFrom st set' c = .ok next ∧ Scheduled st set' next := by
      cases hswitch : confluxCanSwitch st set' with
      | false => exact decideFrom_stay hswitch hc hcurr
      | true => exact decideFrom_switch hswitch (halg' ▸ halg set' hset' hswitch) hlegs
    obtain ⟨next, hnext, hdecided⟩ := hdecide
    refine ⟨set', next, hset', ?_, hdecided⟩
    rw [decideNextCirc, if_neg hfull, hset']
    simp only [hcurr, hnext]
    rfl

/-! ## As a choice -/

lemma map_eq_ok {e : Except SchedulingAssert (Option ι)} {next : Option ι}
    (h : (e.map fun next => (set, next)) = .ok (set', next)) : e = .ok next ∧ set' = set := by
  cases e with
  | error a => cases h
  | ok next' =>
    obtain ⟨rfl, rfl⟩ := Prod.mk.inj (Except.ok.inj h)
    exact ⟨rfl, rfl⟩

lemma Scheduled.of_decideFrom {next : Option ι} (hc : c ∈ set.cfx.legCircs)
    (hcurr : set.cfx.currLeg = some c) (h : decideFrom st set c = .ok next) :
    Scheduled st set next := by
  have hlegs : set.cfx.legCircs ≠ [] := ne_nil_of_mem hc
  obtain ⟨next', hdecide, hscheduled⟩ : ∃ next', decideFrom st set c = .ok next'
      ∧ Scheduled st set next' := by
    cases hswitch : confluxCanSwitch st set with
    | false => exact decideFrom_stay hswitch hc hcurr
    | true =>
      refine decideFrom_switch hswitch (fun halg => ?_) hlegs
      rw [decideFrom, if_neg (by simp [hswitch]), halg] at h
      simp [confluxDecideCircCwndrtt, hlegs] at h
  rw [hdecide] at h
  exact Except.ok.inj h ▸ hscheduled

section Schedule

variable [DecidableEq ι]

lemma mem_legCircs {cfx : Cfx ι α} : c ∈ cfx.legCircs ↔ (confluxGetLeg cfx c).isSome = true := by
  rw [confluxGetLeg, Cfx.legCircs, ← not_iff_not, ← AssocMap.get_eq_none, not_isSome_iff_eq_none]

lemma legOf_of_mem {cfx : Cfx ι α} (h : c ∈ cfx.legCircs) : legOf cfx (some c) = some c := by
  rw [legOf, filter_some, if_pos (mem_legCircs.mp h)]

lemma confluxPickFirstLeg_pickLeg (st : LegStates ι) (cfx : Cfx ι α) :
    confluxPickFirstLeg cfx (pickLeg st cfx.legCircs)
      = (pickLeg st cfx.legCircs).or cfx.legCircs.head? := by
  have hhead : cfx.legCircs.head? = cfx.legs.entries.head?.map Prod.fst := head?_map
  rw [confluxPickFirstLeg, hhead]
  cases hpick : pickLeg st cfx.legCircs with
  | none => rfl
  | some c => rw [legOf_of_mem (mem_of_pickLeg hpick)]; rfl

/-- The choices of the algorithms, as those of `confluxDecideNextCirc`. -/
def LegStates.schedule (st : LegStates ι) (set : SchedSet ι α) : Schedule ι where
  minLeg := pickLeg st set.cfx.legCircs
  nextCirc := (withCurrLeg st set).bind fun set' =>
    set'.cfx.currLeg.bind fun currCirc => (decideFrom st set' currCirc).toOption.join

lemma confluxDecideNextCirc_eq (hfull : ¬ set.cfx.inFullTeardown = true) :
    confluxDecideNextCirc set.cfx (st.schedule set)
      = (withCurrLeg st set).elim (set.cfx, none)
        fun set' => (set'.cfx, legOf set.cfx (st.schedule set).nextCirc) := by
  rw [confluxDecideNextCirc, if_neg hfull, withCurrLeg]
  cases hcurr : set.cfx.currLeg with
  | some c => rfl
  | none =>
    simp only [pickFirstLeg, LegStates.schedule, confluxPickFirstLeg_pickLeg]
    cases (pickLeg st set.cfx.legCircs).or set.cfx.legCircs.head? with
    | none => rfl
    | some minLeg => rfl

/-- **The decision is that of `confluxDecideNextCirc`** for the choices of the algorithms: a leg of the
set that is ready, and pointers to legs again. -/
theorem decideNextCirc_schedule {next : Option ι} (hpointers : LegPointers set.cfx)
    (h : decideNextCirc st set = .ok (set', next)) :
    (∀ c, next = some c → c ∈ set.cfx.legCircs ∧ st.ready c = true) ∧ LegPointers set'.cfx
      ∧ confluxDecideNextCirc set.cfx (st.schedule set) = (set'.cfx, next) := by
  rw [decideNextCirc] at h
  by_cases hfull : set.cfx.inFullTeardown = true
  · rw [if_pos hfull] at h
    obtain ⟨rfl, rfl⟩ := Prod.mk.inj (Except.ok.inj h)
    exact ⟨nofun, hpointers, if_pos hfull⟩
  rw [if_neg hfull] at h
  rw [confluxDecideNextCirc_eq hfull]
  cases hwith : withCurrLeg st set with
  | none =>
    rw [hwith] at h
    obtain ⟨rfl, rfl⟩ := Prod.mk.inj (Except.ok.inj h)
    exact ⟨nofun, hpointers, rfl⟩
  | some set₁ =>
    obtain ⟨-, hlegs, hcfx, c, hc, hcurr⟩ := withCurrLeg_eq_some hpointers hwith
    rw [hwith] at h
    simp only [hcurr] at h
    obtain ⟨hdecide, rfl⟩ := map_eq_ok h
    have hcircs : set'.cfx.legCircs = set.cfx.legCircs := congrArg (·.entries.map Prod.fst) hlegs
    have hready := (Scheduled.of_decideFrom (hcircs ▸ hc) hcurr hdecide).ready
    rw [hcircs] at hready
    have hsched : (st.schedule set).nextCirc = next := by
      simp [LegStates.schedule, hwith, hcurr, hdecide, Except.toOption]
    have hlegOf : legOf set.cfx next = next := by
      cases next with
      | none => rfl
      | some d => exact legOf_of_mem (hready d rfl).1
    refine ⟨hready, ⟨?_, ?_⟩, ?_⟩
    · intro d hd
      rw [hcurr] at hd
      rwa [hcircs, ← some.inj hd]
    · intro d hd
      rw [hcfx] at hd
      rw [hcircs]
      exact hpointers.prev d hd
    · rw [hsched, hlegOf]
      rfl

end Schedule

/-- Two legs: the one with the lower RTT has a full window. -/
def twoLegs (alg : ConfluxAlg) : SchedSet ℕ Unit where
  cfx := { Cfx.new with legs := ((∅ : AssocMap ℕ ConfluxLeg).set 0 ⟨0, 0⟩).set 1 ⟨0, 0⟩ }
  alg := alg
  cellsUntilSwitch := 0

def twoLegStates : LegStates ℕ where
  circRttsUsec leg := if leg = 0 then 1000 else 2000
  circ leg :=
    { isOrigin := true
      circuitBlockedOnNChan := false
      circuitBlockedOnPChan := false
      cwnd := 124
      inflight := if leg = 0 then 124 else 0
      sendmeInc := 31
      inSlowStart := false }
  drainPct := 0

lemma legPointers_twoLegs (alg : ConfluxAlg) : LegPointers (twoLegs alg).cfx where
  curr _ hc := by cases hc
  prev _ hc := by cases hc

theorem decideNextCirc_schedule_lowrtt :
    twoLegStates.ready 1 = true
      ∧ confluxDecideNextCirc (twoLegs .lowrtt).cfx (twoLegStates.schedule (twoLegs .lowrtt))
        = ({ (twoLegs .lowrtt).cfx with currLeg := some 0 }, some 1) := by
  have hdecides : decideNextCirc twoLegStates (twoLegs .lowrtt) = .ok ({ twoLegs .lowrtt with
        cfx := { (twoLegs .lowrtt).cfx with currLeg := some 0 } }, some 1) := rfl
  obtain ⟨hready, -, hsched⟩ := decideNextCirc_schedule (legPointers_twoLegs .lowrtt) hdecides
  exact ⟨(hready 1 rfl).2, hsched⟩

theorem decideNextCirc_decided_lowrtt :
    ∃ set' next, withCurrLeg twoLegStates (twoLegs .lowrtt) = some set'
      ∧ decideNextCirc twoLegStates (twoLegs .lowrtt) = .ok (set', next)
      ∧ Scheduled twoLegStates set' next :=
  decideNextCirc_decided twoLegStates (twoLegs .lowrtt) (by decide)
    (legPointers_twoLegs .lowrtt) fun _ _ _ => by decide

/-- A leg is ready, and nothing is sent: the leg with the lowest RTT is not. -/
theorem decideNextCirc_waits :
    twoLegStates.ready 1 = true
      ∧ ∃ set', decideNextCirc twoLegStates (twoLegs .minrtt) = .ok (set', none) := by
  refine ⟨by decide, ?_⟩
  exact ⟨_, rfl⟩

end Ator.Conflux
