import AtorProtocol.Entrynodes.Guards

/-!
# Circuits that wait for a better guard

`entry_guards_upgrade_waiting_circuits` of `src/feature/client/entrynodes.c`.  Circuits lie at
addresses; `Blocks` is the quoted specification.

* `higherPriority_iff` — the priority of circuits is that of their guards.
* `bestWaitingCircuit_eq_some` — the scan finds the first waiting circuit of the highest priority.
* `upgradesRightly_iff` — when no upgraded circuit is blocked.
-/

namespace Ator.Entrynodes

open List
open Option (some.inj)

/-- `GUARD_CIRC_STATE_*` -/
inductive CircState
  | usableOnCompletion | usableIfNoBetterGuard | waitingForBetterGuard | complete | dead
deriving DecidableEq

structure CircuitGuardState where
  guard : ℕ
  stateSetAt : ℤ
  state : CircState
  restrictions : Option Restriction
deriving DecidableEq

structure OriginCircuit where
  guardState : Option CircuitGuardState
  markedForClose : Bool
deriving DecidableEq

/-- The circuits at their addresses. -/
abbrev Circuits := ℕ → OriginCircuit

variable (env : Env) (m : Memory) (circs : Circuits)

/-- `circ_state_has_higher_priority`; both circuits have a state. -/
def circStateHasHigherPriority (a : ℕ) (rst : Option Restriction) (b : ℕ) : Bool :=
  match (circs a).guardState, (circs b).guardState with
  | some stateA, some stateB =>
    match m.guard stateA.guard, m.guard stateB.guard with
    | none, _ => false
    | some _, none => true
    | some guardA, some guardB =>
      if ¬ entryGuardObeysRestriction env guardA rst then false
      else entryGuardHasHigherPriority stateA.guard guardA stateB.guard guardB
  | _, _ => false

/-- The circuits that are ours, and that can be reasoned about. -/
def isOurs (circ : ℕ) : Bool :=
  match (circs circ).guardState with
  | none => false
  | some state =>
    match m.guard state.guard with
    | none => false
    | some guard => guard.inSelection = m.gs.addr && ! (circs circ).markedForClose

/-- `state->state == s` -/
def stateIs (circ : ℕ) (s : CircState) : Bool := (circs circ).guardState.any (·.state = s)

/-- The loop body that looks for the best waiting circuit. -/
def betterWaiting (best : Option ℕ) (circ : ℕ) : Option ℕ :=
  if stateIs circs circ .waitingForBetterGuard then
    match best with
    | none => some circ
    | some b => if circStateHasHigherPriority env m circs circ none b then some circ else best
  else best

def bestWaitingCircuit (allCircuits : List ℕ) : Option ℕ :=
  allCircuits.foldl (betterWaiting env m circs) none

def nCompleteBlocking (allCircuits : List ℕ) (rst : Option Restriction) (best : ℕ) : ℕ :=
  allCircuits.countP fun circ =>
    stateIs circs circ .complete && circStateHasHigherPriority env m circs circ rst best

def nBlockersFound (allCircuits : List ℕ) (rst : Option Restriction) (best : ℕ) : ℕ :=
  let stateSetAtCutoff := env.approxTime - env.nonprimaryGuardConnectTimeout
  allCircuits.countP fun circ =>
    stateIs circs circ .usableIfNoBetterGuard
      && ! (circs circ).guardState.any (·.stateSetAt ≤ stateSetAtCutoff)
      && circStateHasHigherPriority env m circs circ rst best

/-- `state->state = GUARD_CIRC_STATE_COMPLETE; state->state_set_at = approx_time();` -/
def completed (circ : OriginCircuit) : OriginCircuit :=
  { circ with guardState := circ.guardState.map fun state =>
      { state with state := .complete, stateSetAt := env.approxTime } }

/-- The loop body that upgrades circuits. -/
def upgradeOne (rst : Option Restriction) (best : ℕ) (r : Circuits × List ℕ) (circ : ℕ) :
    Circuits × List ℕ :=
  if circ ≠ best ∧ rst.isSome then r
  else if ¬ stateIs r.1 circ .waitingForBetterGuard then r
  else if circStateHasHigherPriority env m r.1 best none circ then r
  else (Function.update r.1 circ (completed env (r.1 circ)), r.2 ++ [circ])

/-- What `entry_guards_upgrade_waiting_circuits` leaves behind. -/
structure Upgrade where
  memory : Memory
  circs : Circuits
  newlyCompleteOut : List ℕ
  upgraded : Bool

def entryGuardsUpgradeWaitingCircuits (allCircuitsIn : List ℕ) : Upgrade :=
  let (m, down) := entryGuardsAllPrimaryGuardsAreDown env m
  let noChange : Upgrade := ⟨m, circs, [], false⟩
  if ! down then noChange else
  let allCircuits := allCircuitsIn.filter (isOurs m circs)
  match bestWaitingCircuit env m circs allCircuits with
  | none => noChange
  | some best =>
    let rst := (circs best).guardState.bind CircuitGuardState.restrictions
    if nCompleteBlocking env m circs allCircuits rst best ≠ 0 then noChange
    else if nBlockersFound env m circs allCircuits rst best ≠ 0 then noChange
    else
      let (circs, newly) := allCircuits.foldl (upgradeOne env m rst best) (circs, [])
      ⟨m, circs, newly, true⟩

/-! ## The specification -/

/-- `c2` has a higher priority than `c1` and obeys its restrictions, and its state is as `p` says. -/
def BlocksWhen (p : CircuitGuardState → Prop) (c2 c1 : ℕ) : Prop :=
  ∃ s1 s2 guard1 guard2, (circs c1).guardState = some s1 ∧ (circs c2).guardState = some s2
    ∧ m.guard s1.guard = some guard1 ∧ m.guard s2.guard = some guard2
    ∧ entryGuardObeysRestriction env guard2 s1.restrictions
    ∧ entryGuardHasHigherPriority s2.guard guard2 s1.guard guard1 ∧ p s2

/-- For how long a circuit has had its state. -/
def age (s : CircuitGuardState) : ℤ := env.approxTime - s.stateSetAt

/-- "C2 "blocks" C1 if C2 obeys all the restrictions that C1 had to obey, AND C2 has higher priority
than C1, AND either C2 is complete, or C2 is waiting_for_better_guard, or C2 has been
usable_if_no_better_guard for no more than NONPRIMARY_GUARD_CONNECT_TIMEOUT seconds." -/
def Blocks (c2 c1 : ℕ) : Prop :=
  BlocksWhen env m circs (fun s => s.state = .complete ∨ s.state = .waitingForBetterGuard
    ∨ s.state = .usableIfNoBetterGuard ∧ age env s ≤ env.nonprimaryGuardConnectTimeout) c2 c1

/-- `c2` blocks `c1`, and not only because it started exactly as long ago as the timeout is. -/
def BlocksEarly (c2 c1 : ℕ) : Prop :=
  BlocksWhen env m circs (fun s => s.state = .complete ∨ s.state = .waitingForBetterGuard
    ∨ s.state = .usableIfNoBetterGuard ∧ age env s < env.nonprimaryGuardConnectTimeout) c2 c1

/-- `c2` blocks `c1`, and it started exactly as long ago as the timeout is. -/
def BlocksAtTimeout (c2 c1 : ℕ) : Prop :=
  BlocksWhen env m circs (fun s => s.state = .usableIfNoBetterGuard
    ∧ age env s = env.nonprimaryGuardConnectTimeout) c2 c1

/-- `c` is the first waiting circuit of the highest priority among the waiting ones. -/
def IsBestWaiting (allCircuits : List ℕ) (c : ℕ) : Prop :=
  ∃ pre post, allCircuits = pre ++ c :: post ∧ stateIs circs c .waitingForBetterGuard
    ∧ (∀ c' ∈ pre, stateIs circs c' .waitingForBetterGuard →
        circStateHasHigherPriority env m circs c none c')
    ∧ ∀ c' ∈ post, stateIs circs c' .waitingForBetterGuard →
        ¬ circStateHasHigherPriority env m circs c' none c

/-! ## Priorities of circuits -/

/-- The guard of a circuit. -/
def guardOf (circ : ℕ) : Option EntryGuard := (circs circ).guardState.bind fun s => m.guard s.guard

def restrictionsOf (circ : ℕ) : Option Restriction :=
  (circs circ).guardState.bind CircuitGuardState.restrictions

def circKey (circ : ℕ) : ℕ ×ₗ ℤ := ((guardOf m circs circ).map priorityKey).getD (toLex (3, 0))

def circObeys (circ : ℕ) (rst : Option Restriction) : Bool :=
  (guardOf m circs circ).any fun guard => entryGuardObeysRestriction env guard rst

variable {env m circs} {a b c c1 c2 best circ : ℕ} {rst : Option Restriction}
  {cs pre post : List ℕ} {p : CircuitGuardState → Prop} {s : CircState}

lemma exists_of_isOurs (h : isOurs m circs c) : ∃ state guard,
    (circs c).guardState = some state ∧ m.guard state.guard = some guard := by
  rw [isOurs] at h
  split at h
  · cases h
  · rename_i state hstate
    split at h
    · cases h
    · rename_i guard hguard
      exact ⟨state, guard, hstate, hguard⟩

lemma higherPriority_iff (ha : isOurs m circs a) (hb : isOurs m circs b) :
    circStateHasHigherPriority env m circs a rst b
      ↔ circObeys env m circs a rst ∧ circKey m circs a < circKey m circs b := by
  obtain ⟨stateA, guardA, hstateA, hguardA⟩ := exists_of_isOurs ha
  obtain ⟨stateB, guardB, hstateB, hguardB⟩ := exists_of_isOurs hb
  have hsame : stateA.guard = stateB.guard → guardA = guardB := by
    intro heq
    rw [heq, hguardB] at hguardA
    exact (some.inj hguardA).symm
  simp only [circStateHasHigherPriority, circObeys, circKey, guardOf, hstateA, hstateB, hguardA,
    hguardB, Option.bind_some, Option.map_some, Option.getD_some, Option.any_some,
    ← entryGuardHasHigherPriority_iff hsame]
  cases entryGuardObeysRestriction env guardA rst <;> simp

lemma higherPriority_none_iff (ha : isOurs m circs a) (hb : isOurs m circs b) :
    circStateHasHigherPriority env m circs a none b ↔ circKey m circs a < circKey m circs b := by
  rw [higherPriority_iff ha hb, and_iff_right]
  obtain ⟨state, guard, hstate, hguard⟩ := exists_of_isOurs ha
  simp [circObeys, guardOf, hstate, hguard, entryGuardObeysRestriction]

lemma blocksWhen_iff (h1 : isOurs m circs c1) (h2 : isOurs m circs c2) :
    BlocksWhen env m circs p c2 c1 ↔ (∃ s ∈ (circs c2).guardState, p s)
      ∧ circStateHasHigherPriority env m circs c2 (restrictionsOf circs c1) c1 := by
  obtain ⟨s1, guard1, hs1, hguard1⟩ := exists_of_isOurs h1
  obtain ⟨s2, guard2, hs2, hguard2⟩ := exists_of_isOurs h2
  simp only [BlocksWhen, circStateHasHigherPriority, restrictionsOf, hs1, hs2, hguard1, hguard2,
    Option.bind_some]
  constructor
  · rintro ⟨_, _, _, _, heq1, heq2, hg1, hg2, hobeys, hhigher, hp⟩
    obtain rfl := some.inj heq1
    obtain rfl := some.inj heq2
    obtain rfl := some.inj (hg1.symm.trans hguard1)
    obtain rfl := some.inj (hg2.symm.trans hguard2)
    exact ⟨⟨_, rfl, hp⟩, by simp [hobeys, hhigher]⟩
  · rintro ⟨⟨s, hs, hp⟩, hhigher⟩
    obtain rfl := some.inj hs
    split_ifs at hhigher with hobeys
    · exact ⟨_, _, _, _, rfl, rfl, hguard1, hguard2, by simpa using hobeys, hhigher, hp⟩

lemma blocksWhen_or {q : CircuitGuardState → Prop} :
    BlocksWhen env m circs (fun s => p s ∨ q s) c2 c1
      ↔ BlocksWhen env m circs p c2 c1 ∨ BlocksWhen env m circs q c2 c1 := by
  simp only [BlocksWhen, and_or_left, exists_or]

lemma blocks_iff : Blocks env m circs c2 c1
    ↔ BlocksEarly env m circs c2 c1 ∨ BlocksAtTimeout env m circs c2 c1 := by
  rw [Blocks, BlocksEarly, BlocksAtTimeout, ← blocksWhen_or]
  simp only [or_assoc, ← and_or_left, le_iff_lt_or_eq]

/-! ## The best waiting circuit -/

lemma foldl_betterWaiting (hours : ∀ c ∈ cs, isOurs m circs c) :
    match cs.foldl (betterWaiting env m circs) none with
    | none => ∀ c ∈ cs, ¬ stateIs circs c .waitingForBetterGuard
    | some best => IsBestWaiting env m circs cs best := by
  induction cs using reverseRecOn with
  | nil => simp
  | append_singleton cs c ih =>
    have ih := ih fun c hc => hours c (mem_append_left _ hc)
    have hc := hours c (by simp)
    rw [foldl_append, foldl_cons, foldl_nil]
    generalize cs.foldl (betterWaiting env m circs) none = best at ih ⊢
    simp only [betterWaiting]
    split_ifs with hwaiting
    · cases best with
      | none =>
        refine ⟨cs, [], rfl, hwaiting, fun c' hc' hw => absurd hw (ih c' hc'), ?_⟩
        exact fun c' hc' => absurd hc' not_mem_nil
      | some b =>
        obtain ⟨pre, post, rfl, hb, hpre, hpost⟩ := ih
        have hbours := hours b (by simp)
        simp only
        split_ifs with hhigher
        · refine ⟨pre ++ b :: post, [], rfl, hwaiting, fun c' hc' hw => ?_, ?_⟩
          · have hours' := hours c' (mem_append_left _ hc')
            rw [higherPriority_none_iff hc hbours] at hhigher
            rw [higherPriority_none_iff hc hours']
            rcases mem_append.mp hc' with hmem | hmem
            · have hlt := hpre c' hmem hw
              rw [higherPriority_none_iff hbours hours'] at hlt
              exact hhigher.trans hlt
            · rcases mem_cons.mp hmem with rfl | hmem
              · exact hhigher
              · have hle := hpost c' hmem hw
                rw [higherPriority_none_iff hours' hbours, not_lt] at hle
                exact lt_of_lt_of_le hhigher hle
          · exact fun c' hc' => absurd hc' not_mem_nil
        · refine ⟨pre, post ++ [c], by simp, hb, hpre, fun c' hc' hw => ?_⟩
          rcases mem_append.mp hc' with hmem | hmem
          · exact hpost c' hmem hw
          · rwa [mem_singleton.mp hmem]
    · cases best with
      | none =>
        intro c' hc'
        rcases mem_append.mp hc' with hmem | hmem
        · exact ih c' hmem
        · rwa [mem_singleton.mp hmem]
      | some b =>
        obtain ⟨pre, post, rfl, hb, hpre, hpost⟩ := ih
        refine ⟨pre, post ++ [c], by simp, hb, hpre, fun c' hc' hw => ?_⟩
        rcases mem_append.mp hc' with hmem | hmem
        · exact hpost c' hmem hw
        · rw [mem_singleton.mp hmem] at hw
          exact absurd hw hwaiting

lemma IsBestWaiting.mem (h : IsBestWaiting env m circs cs c) : c ∈ cs := by
  obtain ⟨pre, post, rfl, -⟩ := h
  simp

lemma IsBestWaiting.waiting (h : IsBestWaiting env m circs cs c) :
    stateIs circs c .waitingForBetterGuard := by
  obtain ⟨-, -, -, hwaiting, -⟩ := h
  exact hwaiting

lemma IsBestWaiting.le (h : IsBestWaiting env m circs cs best) (hours : ∀ c ∈ cs, isOurs m circs c)
    (hc : c ∈ cs) (hwaiting : stateIs circs c .waitingForBetterGuard) :
    circKey m circs best ≤ circKey m circs c := by
  have hbest := hours best h.mem
  obtain ⟨pre, post, rfl, -, hpre, hpost⟩ := h
  have hcours := hours c hc
  rcases mem_append.mp hc with hmem | hmem
  · have hlt := hpre c hmem hwaiting
    rw [higherPriority_none_iff hbest hcours] at hlt
    exact hlt.le
  · rcases mem_cons.mp hmem with rfl | hmem
    · exact le_rfl
    · have hle := hpost c hmem hwaiting
      rwa [higherPriority_none_iff hcours hbest, not_lt] at hle

lemma IsBestWaiting.unique (h : IsBestWaiting env m circs cs a) (h' : IsBestWaiting env m circs cs b)
    (hours : ∀ c ∈ cs, isOurs m circs c) : a = b := by
  have hkey : circKey m circs a = circKey m circs b :=
    le_antisymm (h.le hours h'.mem h'.waiting) (h'.le hours h.mem h.waiting)
  have ha := hours a h.mem
  have hb := hours b h'.mem
  obtain ⟨pre, post, hcs, hwa, hpre, -⟩ := h
  obtain ⟨pre', post', hcs', hwb, hpre', -⟩ := h'
  have hnot : b ∉ pre := by
    intro hmem
    have hlt := hpre b hmem hwb
    rw [higherPriority_none_iff ha hb, hkey] at hlt
    exact lt_irrefl _ hlt
  have hnot' : a ∉ pre' := by
    intro hmem
    have hlt := hpre' a hmem hwa
    rw [higherPriority_none_iff hb ha, hkey] at hlt
    exact lt_irrefl _ hlt
  rw [hcs] at hcs'
  rcases append_eq_append_iff.mp hcs' with ⟨as, hpre_eq, htail⟩ | ⟨bs, hpre_eq, htail⟩
  · cases as with
    | nil => exact (cons.inj htail).1
    | cons x as =>
      obtain ⟨rfl, -⟩ := cons.inj htail
      exact absurd (by rw [hpre_eq]; simp) hnot'
  · cases bs with
    | nil => exact (cons.inj htail).1.symm
    | cons x bs =>
      obtain ⟨rfl, -⟩ := cons.inj htail
      exact absurd (by rw [hpre_eq]; simp) hnot

/-- The best waiting circuit is the one that the scan finds. -/
theorem bestWaitingCircuit_eq_some (hours : ∀ c ∈ cs, isOurs m circs c) :
    bestWaitingCircuit env m circs cs = some c ↔ IsBestWaiting env m circs cs c := by
  have hscan := @foldl_betterWaiting env _ _ _ hours
  rw [bestWaitingCircuit]
  constructor
  · intro h
    rwa [h] at hscan
  · intro h
    cases hbest : cs.foldl (betterWaiting env m circs) none with
    | none =>
      rw [hbest] at hscan
      exact absurd h.waiting (hscan c h.mem)
    | some b =>
      rw [hbest] at hscan
      rw [h.unique hscan hours]

/-! ## The upgrade -/

/-- The loop that upgrades circuits takes this one. -/
def Upgradable (env : Env) (m : Memory) (rst : Option Restriction) (best : ℕ) (circs : Circuits)
    (c : ℕ) : Prop :=
  (c = best ∨ rst = none) ∧ stateIs circs c .waitingForBetterGuard
    ∧ ¬ circStateHasHigherPriority env m circs best none c

instance : Decidable (Upgradable env m rst best circs c) :=
  inferInstanceAs (Decidable ((_ ∨ _) ∧ _ ∧ _))

lemma higherPriority_congr {circs' : Circuits}
    (h : ∀ c, (circs' c).guardState.map CircuitGuardState.guard
      = (circs c).guardState.map CircuitGuardState.guard) (a b : ℕ) (rst : Option Restriction) :
    circStateHasHigherPriority env m circs' a rst b = circStateHasHigherPriority env m circs a rst b := by
  have ha := h a
  have hb := h b
  rw [circStateHasHigherPriority, circStateHasHigherPriority]
  cases hsa : (circs a).guardState <;> cases hsa' : (circs' a).guardState <;>
    cases hsb : (circs b).guardState <;> cases hsb' : (circs' b).guardState <;>
    simp_all

lemma guard_completed (circ : OriginCircuit) :
    (completed env circ).guardState.map CircuitGuardState.guard
      = circ.guardState.map CircuitGuardState.guard := by
  cases h : circ.guardState <;> simp [completed, h]

lemma upgradable_update {x : ℕ} : Upgradable env m rst best (Function.update circs x
    (completed env (circs x))) c ↔ c ≠ x ∧ Upgradable env m rst best circs c := by
  have hguard : ∀ c, ((Function.update circs x (completed env (circs x))) c).guardState.map
      CircuitGuardState.guard = (circs c).guardState.map CircuitGuardState.guard := by
    intro c
    by_cases hc : c = x
    · rw [hc, Function.update_self, guard_completed]
    · rw [Function.update_of_ne hc]
  have hstate : stateIs (Function.update circs x (completed env (circs x))) c
      .waitingForBetterGuard ↔ c ≠ x ∧ stateIs circs c .waitingForBetterGuard := by
    by_cases hc : c = x
    · subst hc
      cases h : (circs c).guardState <;> simp [stateIs, completed, h]
    · simp [stateIs, hc]
  rw [Upgradable, Upgradable, higherPriority_congr hguard, hstate]
  tauto

lemma upgradeOne_eq (r : Circuits × List ℕ) (c : ℕ) : upgradeOne env m rst best r c
    = if Upgradable env m rst best r.1 c then
        (Function.update r.1 c (completed env (r.1 c)), r.2 ++ [c])
      else r := by
  simp only [upgradeOne, Upgradable]
  cases rst with
  | none | some restriction => split_ifs <;> simp_all

lemma foldl_upgradeOne (out : List ℕ) :
    (∀ x, x ∈ (cs.foldl (upgradeOne env m rst best) (circs, out)).2
        ↔ x ∈ out ∨ x ∈ cs ∧ Upgradable env m rst best circs x)
      ∧ ∀ x, (cs.foldl (upgradeOne env m rst best) (circs, out)).1 x
        = if x ∈ cs ∧ Upgradable env m rst best circs x then completed env (circs x)
          else circs x := by
  induction cs generalizing circs out with
  | nil => simp
  | cons c cs ih =>
    rw [foldl_cons, upgradeOne_eq]
    split_ifs with hup
    · replace hup : Upgradable env m rst best circs c := hup
      obtain ⟨hmem, hcircs⟩ := @ih (Function.update circs c (completed env (circs c)))
        (out ++ [c])
      refine ⟨fun x => ?_, fun x => ?_⟩
      · rw [hmem, upgradable_update, mem_append, mem_singleton, mem_cons]
        by_cases hx : x = c
        · simp [hx, hup]
        · simp [hx]
      · rw [hcircs]
        simp only [upgradable_update]
        by_cases hx : x = c
        · subst hx
          simp [hup]
        · simp [hx]
    · obtain ⟨hmem, hcircs⟩ := @ih circs out
      refine ⟨fun x => ?_, fun x => ?_⟩
      · rw [hmem, mem_cons]
        by_cases hx : x = c
        · simp [hx, hup]
        · simp [hx]
      · rw [hcircs]
        by_cases hx : x = c
        · simp [hx, hup]
        · simp [hx]

/-! ## When the rule is kept -/

/-- The circuits that the guards and the circuits allow to look at. -/
def ours (env : Env) (m : Memory) (circs : Circuits) (allCircuitsIn : List ℕ) : List ℕ :=
  allCircuitsIn.filter (isOurs (entryGuardsAllPrimaryGuardsAreDown env m).1 circs)

/-- No circuit keeps the best one from being upgraded. -/
def Unblocked (env : Env) (m : Memory) (circs : Circuits) (cs : List ℕ) (best : ℕ) : Prop :=
  ∀ c ∈ cs, ¬ BlocksEarly env m circs c best

lemma age_lt_iff (state : CircuitGuardState) : age env state < env.nonprimaryGuardConnectTimeout
    ↔ ¬ state.stateSetAt ≤ env.approxTime - env.nonprimaryGuardConnectTimeout := by
  rw [age]
  omega

lemma unblocked_iff (hours : ∀ c ∈ cs, isOurs m circs c) (hbest : IsBestWaiting env m circs cs best) :
    Unblocked env m circs cs best
      ↔ nCompleteBlocking env m circs cs (restrictionsOf circs best) best = 0
        ∧ nBlockersFound env m circs cs (restrictionsOf circs best) best = 0 := by
  have hbours := hours best hbest.mem
  have hwaiting : ∀ c ∈ cs, stateIs circs c .waitingForBetterGuard →
      ¬ circStateHasHigherPriority env m circs c (restrictionsOf circs best) best := by
    intro c hc hw hhigher
    rw [higherPriority_iff (hours c hc) hbours] at hhigher
    exact absurd hhigher.2 (not_lt.mpr (hbest.le hours hc hw))
  rw [nCompleteBlocking, nBlockersFound, countP_eq_zero, countP_eq_zero, ← forall₂_and, Unblocked]
  refine forall₂_congr fun c hc => ?_
  have hcwaiting := hwaiting c hc
  obtain ⟨state, guard, hstate, -⟩ := exists_of_isOurs (hours c hc)
  rw [BlocksEarly, blocksWhen_iff hbours (hours c hc)]
  simp only [stateIs, hstate, Option.any_some, decide_eq_true_eq, Option.mem_def, Option.some.injEq,
    exists_eq_left', age_lt_iff, Bool.and_eq_true, Bool.not_eq_true', decide_eq_false_iff_not]
    at hcwaiting ⊢
  tauto

variable {allCircuitsIn : List ℕ}

lemma isOurs_of_mem (h : c ∈ ours env m circs allCircuitsIn) :
    isOurs (entryGuardsAllPrimaryGuardsAreDown env m).1 circs c :=
  (mem_filter.mp h).2

lemma IsBestWaiting.upgradable (h : IsBestWaiting env m circs cs best)
    (hours : ∀ c ∈ cs, isOurs m circs c) : Upgradable env m rst best circs best := by
  refine ⟨.inl rfl, h.waiting, ?_⟩
  rw [higherPriority_none_iff (hours best h.mem) (hours best h.mem)]
  exact lt_irrefl _

/-- The guards as the check of the primary guards leaves them. -/
def checked (env : Env) (m : Memory) : Memory := (entryGuardsAllPrimaryGuardsAreDown env m).1

/-- The upgrade is done for the best waiting circuit if nothing blocks it, and otherwise nothing is
changed. -/
lemma upgrade_cases (env : Env) (m : Memory) (circs : Circuits) (allCircuitsIn : List ℕ) :
    (¬ (PrimaryGuardsDown (checked env m) ∧ ∃ best,
          IsBestWaiting env (checked env m) circs (ours env m circs allCircuitsIn) best
          ∧ Unblocked env (checked env m) circs (ours env m circs allCircuitsIn) best)
        ∧ entryGuardsUpgradeWaitingCircuits env m circs allCircuitsIn
          = ⟨checked env m, circs, [], false⟩)
      ∨ PrimaryGuardsDown (checked env m) ∧ ∃ best,
          IsBestWaiting env (checked env m) circs (ours env m circs allCircuitsIn) best
          ∧ Unblocked env (checked env m) circs (ours env m circs allCircuitsIn) best
          ∧ entryGuardsUpgradeWaitingCircuits env m circs allCircuitsIn = ⟨checked env m,
                ((ours env m circs allCircuitsIn).foldl (upgradeOne env (checked env m)
                  (restrictionsOf circs best) best) (circs, [])).1,
                ((ours env m circs allCircuitsIn).foldl (upgradeOne env (checked env m)
                  (restrictionsOf circs best) best) (circs, [])).2, true⟩ := by
  have hours : ∀ c ∈ ours env m circs allCircuitsIn, isOurs (checked env m) circs c :=
    fun c hc => isOurs_of_mem hc
  have hscan := fun c => @bestWaitingCircuit_eq_some env _ _ c _ hours
  have hunblocked := fun best => @unblocked_iff env _ _ best _ hours
  have hdown : (entryGuardsAllPrimaryGuardsAreDown env m).2 = true
      ↔ PrimaryGuardsDown (checked env m) := allPrimaryGuardsAreDown_iff m
  by_cases hd : (entryGuardsAllPrimaryGuardsAreDown env m).2 = true
  · cases hb : bestWaitingCircuit env (checked env m) circs (ours env m circs allCircuitsIn) with
    | none =>
      refine .inl ⟨?_, ?_⟩
      · rintro ⟨-, best, hbest, -⟩
        rw [(hscan best).mpr hbest] at hb
        cases hb
      · rw [checked, ours] at hb
        simp only [entryGuardsUpgradeWaitingCircuits, hd, hb, checked]
        rfl
    | some best =>
      have hbest := (hscan best).mp hb
      by_cases hun : Unblocked env (checked env m) circs (ours env m circs allCircuitsIn) best
      · refine .inr ⟨hdown.mp hd, best, hbest, hun, ?_⟩
        obtain ⟨hcomplete, hblockers⟩ := (hunblocked best hbest).mp hun
        rw [checked, ours] at hb hcomplete hblockers
        rw [restrictionsOf] at hcomplete hblockers
        simp only [entryGuardsUpgradeWaitingCircuits, hd, hb, hcomplete, hblockers]
        rfl
      · refine .inl ⟨?_, ?_⟩
        · rintro ⟨-, best', hbest', hun'⟩
          rw [hbest.unique hbest' hours] at hun
          exact hun hun'
        · rw [hunblocked best hbest, not_and_or] at hun
          rw [checked, ours] at hb hun
          rw [restrictionsOf] at hun
          simp only [entryGuardsUpgradeWaitingCircuits, hd, hb, checked]
          rcases hun with hne | hne
          · simp [hne]
          · simp [hne]
  · refine .inl ⟨fun h => hd (hdown.mpr h.1), ?_⟩
    simp [entryGuardsUpgradeWaitingCircuits, hd, checked]

/-- **When the upgrade rule is kept**, for the circuits of the selection. -/
structure UpgradesRightly (env : Env) (m : Memory) (circs : Circuits) (allCircuitsIn : List ℕ) :
    Prop where
  /-- Only waiting circuits are upgraded. -/
  waiting : ∀ c ∈ (entryGuardsUpgradeWaitingCircuits env m circs allCircuitsIn).newlyCompleteOut,
    c ∈ ours env m circs allCircuitsIn ∧ stateIs circs c .waitingForBetterGuard
  /-- The primary guards are down. -/
  down : (entryGuardsUpgradeWaitingCircuits env m circs allCircuitsIn).newlyCompleteOut ≠ [] →
    PrimaryGuardsDown (checked env m)
  /-- Nothing blocks what is upgraded. -/
  unblocked : ∀ c1 ∈ (entryGuardsUpgradeWaitingCircuits env m circs allCircuitsIn).newlyCompleteOut,
    ∀ c2 ∈ ours env m circs allCircuitsIn, ¬ Blocks env (checked env m) circs c2 c1
  /-- Something is upgraded if nothing blocks the best waiting circuit. -/
  progress : PrimaryGuardsDown (checked env m) → ∀ best,
    IsBestWaiting env (checked env m) circs (ours env m circs allCircuitsIn) best →
    (∀ c2 ∈ ours env m circs allCircuitsIn, ¬ Blocks env (checked env m) circs c2 best) →
    (entryGuardsUpgradeWaitingCircuits env m circs allCircuitsIn).newlyCompleteOut ≠ []
  /-- An upgraded circuit is complete from now on; no other circuit is changed. -/
  circs : ∀ c, (entryGuardsUpgradeWaitingCircuits env m circs allCircuitsIn).circs c
    = if c ∈ (entryGuardsUpgradeWaitingCircuits env m circs allCircuitsIn).newlyCompleteOut then
        completed env (circs c)
      else circs c
  priority : IsStrictWeakOrder _ (HigherPriority (checked env m))

/-- The best waiting circuit is upgraded although a circuit blocks it that started exactly as long
ago as the timeout is. -/
def SkipsBlocker (env : Env) (m : Memory) (circs : Circuits) (cs : List ℕ) : Prop :=
  PrimaryGuardsDown m ∧ ∃ best, IsBestWaiting env m circs cs best ∧ Unblocked env m circs cs best
    ∧ ∃ c ∈ cs, BlocksAtTimeout env m circs c best

/-- A circuit that blocks one of the priority of the best one blocks the best one, if that has no
restriction. -/
lemma blocksWhen_best (hours : ∀ c ∈ cs, isOurs m circs c) (hbest : IsBestWaiting env m circs cs best)
    (hc1 : c1 ∈ cs) (hc2 : c2 ∈ cs)
    (hup : Upgradable env m (restrictionsOf circs best) best circs c1)
    (h : BlocksWhen env m circs p c2 c1) : BlocksWhen env m circs p c2 best := by
  have hb := hours best hbest.mem
  have h1 := hours c1 hc1
  have h2 := hours c2 hc2
  obtain ⟨rfl | hrst, hwaiting, hnot⟩ := hup
  · exact h
  · rw [higherPriority_none_iff hb h1, not_lt] at hnot
    rw [blocksWhen_iff h1 h2, higherPriority_iff h2 h1] at h
    rw [blocksWhen_iff hb h2, hrst, higherPriority_none_iff h2 hb]
    exact ⟨h.1, lt_of_lt_of_le h.2.2 hnot⟩

/-- **The upgrade rule is kept unless a circuit that started exactly as long ago as the timeout is
is the only one that blocks the best waiting circuit.** -/
theorem upgradesRightly_iff (env : Env) (m : Memory) (circs : Circuits) (allCircuitsIn : List ℕ) :
    UpgradesRightly env m circs allCircuitsIn
      ↔ ¬ SkipsBlocker env (checked env m) circs (ours env m circs allCircuitsIn) := by
  have hours : ∀ c ∈ ours env m circs allCircuitsIn, isOurs (checked env m) circs c :=
    fun c hc => isOurs_of_mem hc
  have horder := isStrictWeakOrder_higherPriority (checked env m)
  rcases upgrade_cases env m circs allCircuitsIn with ⟨hno, heq⟩ | ⟨hdown, best, hbest, hun, heq⟩
  · have hkept : ¬ SkipsBlocker env (checked env m) circs (ours env m circs allCircuitsIn) := by
      rintro ⟨hdown, best, hbest, hun, -⟩
      exact hno ⟨hdown, best, hbest, hun⟩
    refine iff_of_true ⟨?_, ?_, ?_, ?_, ?_, horder⟩ hkept
    · simp [heq]
    · simp [heq]
    · simp [heq]
    · intro hdown best hbest hun
      refine absurd ⟨hdown, best, hbest, fun c hc hearly => ?_⟩ hno
      exact hun c hc (blocks_iff.mpr (.inl hearly))
    · simp [heq]
  · obtain ⟨hmem, hcircs⟩ := @foldl_upgradeOne env (checked env m) circs best
      (restrictionsOf circs best) (ours env m circs allCircuitsIn) []
    have hnewly : ∀ c, c ∈ (entryGuardsUpgradeWaitingCircuits env m circs
        allCircuitsIn).newlyCompleteOut ↔ c ∈ ours env m circs allCircuitsIn
          ∧ Upgradable env (checked env m) (restrictionsOf circs best) best circs c := by
      intro c
      rw [heq, hmem]
      simp
    have hself : best ∈ (entryGuardsUpgradeWaitingCircuits env m circs
        allCircuitsIn).newlyCompleteOut :=
      (hnewly best).mpr ⟨hbest.mem, hbest.upgradable hours⟩
    constructor
    · rintro hright ⟨-, best', hbest', -, c, hc, hblocks⟩
      rw [hbest'.unique hbest hours] at hblocks
      exact hright.unblocked best hself c hc (blocks_iff.mpr (.inr hblocks))
    · intro hkept
      refine ⟨fun c hc => ?_, fun _ => hdown, fun c1 hc1 c2 hc2 hblocks => ?_, fun _ _ _ _ => ?_,
        fun c => ?_, horder⟩
      · obtain ⟨hours', -, hwaiting, -⟩ := (hnewly c).mp hc
        exact ⟨hours', hwaiting⟩
      · obtain ⟨hours1, hup⟩ := (hnewly c1).mp hc1
        rcases blocks_iff.mp hblocks with hearly | hlate
        · exact hun c2 hc2 (blocksWhen_best hours hbest hours1 hc2 hup hearly)
        · exact hkept ⟨hdown, best, hbest, hun, c2, hc2,
            blocksWhen_best hours hbest hours1 hc2 hup hlate⟩
      · exact ne_nil_of_mem hself
      · rw [if_congr (hnewly c) rfl rfl, heq]
        exact hcircs c

/-! ## A circuit that started exactly as long ago as the timeout is -/

def exampleEnv : Env where
  approxTime := 1000
  nonprimaryGuardConnectTimeout := 15
  nPrimaryGuards := 1
  minFilteredSampleSize := 1
  guardHasDescriptor _ := true
  inFamilyOf _ _ := false
  isOutdatedDirserver _ := false
  expandSample m := m

/-- A primary guard that is down, a confirmed guard, and another one. -/
def exampleMemory : Memory where
  guard
    | 1 => some ⟨[1], 0, 0, 0, false, true, true, false, .no, 990, 900, false⟩
    | 2 => some ⟨[2], 0, 1, 1, true, false, true, true, .maybe, 985, 0, false⟩
    | 3 => some ⟨[3], 0, -1, 2, true, false, true, true, .maybe, 990, 0, false⟩
    | _ => none
  gs := ⟨0, true, [1], [1, 2], [1, 2, 3]⟩

/-- The first circuit waits for the second one, which is 15 seconds old. -/
def exampleCircuits : Circuits
  | 1 => ⟨some ⟨3, 995, .waitingForBetterGuard, none⟩, false⟩
  | 2 => ⟨some ⟨2, 985, .usableIfNoBetterGuard, none⟩, false⟩
  | _ => ⟨none, false⟩

theorem not_upgradesRightly_at_timeout :
    ¬ UpgradesRightly exampleEnv exampleMemory exampleCircuits [1, 2] := by
  intro h
  refine h.unblocked 1 (by decide) 2 (by decide) ⟨_, _, _, _, rfl, rfl, rfl, rfl, rfl, rfl, ?_⟩
  exact .inr (.inr ⟨rfl, by decide⟩)

end Ator.Entrynodes
