import AtorProtocol.Encoding.Binascii
import Mathlib.Data.List.Sort
import Mathlib.Data.Prod.Lex

/-!
# Entry guards

The guards of `src/feature/client/entrynodes.c`: when they are retried, which of them are primary,
which of two has the higher priority, and the restrictions of a circuit on its guard.  Guards lie at
addresses; a handle is the address of a guard that may be gone.

* `entryGuardHasHigherPriority_iff` — the priority is a lexicographic order on `priorityKey`.
* `isStrictWeakOrder_higherPriority` — so it is a strict weak order.
* `allPrimaryGuardsAreDown_iff` — what the check of the primary guards finds.
-/

namespace Ator.Entrynodes

/-- The values of `is_reachable`. -/
inductive Reachable
  | no | yes | maybe
deriving DecidableEq

structure EntryGuard where
  identity : Bytes
  /-- The address of the selection. -/
  inSelection : ℕ
  confirmedIdx : ℤ
  sampledIdx : ℤ
  isPending : Bool
  isPrimary : Bool
  isFilteredGuard : Bool
  isUsableFilteredGuard : Bool
  isReachable : Reachable
  lastTriedToConnect : ℤ
  failingSince : ℤ
  /-- `bridge_addr` is not `NULL`. -/
  hasBridgeAddr : Bool
deriving DecidableEq

structure GuardSelection where
  addr : ℕ
  primaryGuardsUpToDate : Bool
  primaryEntryGuards : List ℕ
  confirmedEntryGuards : List ℕ
  sampledEntryGuards : List ℕ
deriving DecidableEq

/-- The guards at their addresses, and the selection in question. -/
structure Memory where
  guard : ℕ → Option EntryGuard
  gs : GuardSelection

def Memory.modify (m : Memory) (g : ℕ) (f : EntryGuard → EntryGuard) : Memory :=
  { m with guard := Function.update m.guard g ((m.guard g).map f) }

@[simp] lemma Memory.modify_guard_self (m : Memory) (g : ℕ) (f : EntryGuard → EntryGuard) :
    (m.modify g f).guard g = (m.guard g).map f :=
  Function.update_self g _ _

lemma Memory.modify_guard_of_ne {g g' : ℕ} (h : g ≠ g') (m : Memory) (f : EntryGuard → EntryGuard) :
    (m.modify g' f).guard g = m.guard g :=
  Function.update_of_ne h _ _

/-- `entry_guard_restriction_t` -/
inductive Restriction
  | exitNode (excludeId : Bytes)
  | outdatedMdDirserver
  | exclList (excluded : List Bytes)
deriving DecidableEq

/-- What the rest of the program answers. -/
structure Env where
  approxTime : ℤ
  nonprimaryGuardConnectTimeout : ℤ
  nPrimaryGuards : ℕ
  minFilteredSampleSize : ℕ
  guardHasDescriptor : EntryGuard → Bool
  /-- There is a node with the identity, and the guard is in its family. -/
  inFamilyOf : EntryGuard → Bytes → Bool
  isOutdatedDirserver : Bytes → Bool
  /-- `entry_guards_expand_sample` picks guards at random from the consensus. -/
  expandSample : Memory → Memory

variable (env : Env)

/-! ## Retries -/

def getRetrySchedule (failingSince now : ℤ) (isPrimary : Bool) : ℤ :=
  let tdiff := if now > failingSince then now - failingSince else 0
  if tdiff ≤ 6 * 3600 then if isPrimary then 10 * 60 else 1 * 60 * 60
  else if tdiff ≤ 4 * 86400 then if isPrimary then 90 * 60 else 4 * 60 * 60
  else if tdiff ≤ 7 * 86400 then if isPrimary then 4 * 60 * 60 else 18 * 60 * 60
  else if isPrimary then 9 * 60 * 60 else 36 * 60 * 60

/-- `entry_guard_consider_retry`, on the guard itself. -/
def retried (guard : EntryGuard) : EntryGuard :=
  if guard.isReachable ≠ .no then guard else
  let now := env.approxTime
  let delay := getRetrySchedule guard.failingSince now guard.isPrimary
  let lastAttempt := guard.lastTriedToConnect
  if guard.hasBridgeAddr ∧ ¬ env.guardHasDescriptor guard then guard
  else if lastAttempt = 0 ∨ now ≥ lastAttempt + delay then
    { guard with
      isReachable := .maybe
      isUsableFilteredGuard := guard.isFilteredGuard || guard.isUsableFilteredGuard }
  else guard

def entryGuardConsiderRetry (m : Memory) (g : ℕ) : Memory := m.modify g (retried env)

/-! ## Primary guards -/

/-- `num_reachable_filtered_guards` without a restriction. -/
def numReachableFilteredGuards (m : Memory) : Memory × ℕ :=
  m.gs.sampledEntryGuards.foldl (fun (m, n) g =>
    let m := entryGuardConsiderRetry env m g
    if (m.guard g).any (·.isUsableFilteredGuard) then (m, n + 1) else (m, n)) (m, 0)

/-- `first_reachable_filtered_entry_guard`, without a restriction and with the flags
`SAMPLE_EXCLUDE_CONFIRMED|SAMPLE_EXCLUDE_PRIMARY|SAMPLE_NO_UPDATE_PRIMARY`. -/
def firstReachableFilteredEntryGuard (m : Memory) : Memory × Option ℕ :=
  let m := m.gs.sampledEntryGuards.foldl (entryGuardConsiderRetry env) m
  let (m, nReachableFiltered) := numReachableFilteredGuards env m
  let m := if nReachableFiltered < env.minFilteredSampleSize then env.expandSample m else m
  let (m, reachableFilteredSample) := m.gs.sampledEntryGuards.foldl (fun (m, sample) g =>
    let m := entryGuardConsiderRetry env m g
    if (m.guard g).any fun guard =>
        guard.isUsableFilteredGuard && guard.confirmedIdx < 0 && ! guard.isPrimary
    then (m, sample ++ [g]) else (m, sample)) (m, [])
  (m, reachableFilteredSample.head?)

/-- `guard->is_primary = 1; smartlist_add(new_primary_guards, guard);` -/
def addPrimary (g : ℕ) (r : Memory × List ℕ) : Memory × List ℕ :=
  (r.1.modify g fun guard => { guard with isPrimary := true }, r.2 ++ [g])

/-- The loop that fills the list with sampled guards, at most `n` times. -/
def fillFromSample : ℕ → Memory × List ℕ → Memory × List ℕ
  | 0, r => r
  | n + 1, (m, newPrimaryGuards) =>
    match firstReachableFilteredEntryGuard env m with
    | (m, none) => (m, newPrimaryGuards)
    | (m, some g) => fillFromSample n (addPrimary g (m, newPrimaryGuards))

/-- `compare_guards_by_sampled_idx(a, b) <= 0` -/
def sampledNotAfter (m : Memory) (a b : ℕ) : Bool :=
  ((m.guard a).map EntryGuard.sampledIdx).getD 0 ≤ ((m.guard b).map EntryGuard.sampledIdx).getD 0

def entryGuardsUpdatePrimary (m : Memory) : Memory :=
  let oldPrimaryGuards := m.gs.primaryEntryGuards
  let m := { m with gs := { m.gs with primaryGuardsUpToDate := true } }
  let isFiltered := fun (m : Memory) g => (m.guard g).any EntryGuard.isFilteredGuard
  let r := m.gs.confirmedEntryGuards.foldl (fun (r : Memory × List ℕ) g =>
    if r.2.length < env.nPrimaryGuards ∧ isFiltered r.1 g then addPrimary g r else r) (m, [])
  let r := oldPrimaryGuards.foldl (fun (r : Memory × List ℕ) g =>
    if g ∈ r.2 then r
    else if r.2.length < env.nPrimaryGuards ∧ isFiltered r.1 g then addPrimary g r
    else (r.1.modify g fun guard => { guard with isPrimary := false }, r.2)) r
  let (m, newPrimaryGuards) := fillFromSample env (env.nPrimaryGuards - r.2.length) r
  let sorted :=
    if m.gs.primaryEntryGuards ≠ newPrimaryGuards then
      newPrimaryGuards.insertionSort fun a b => sampledNotAfter m a b = true
    else newPrimaryGuards
  { m with gs := { m.gs with primaryEntryGuards := sorted, primaryGuardsUpToDate := true } }

/-- The loop of `entry_guards_all_primary_guards_are_down`. -/
def primaryGuardsDownLoop (m : Memory) : List ℕ → Memory × Bool
  | [] => (m, true)
  | g :: rest =>
    let m := entryGuardConsiderRetry env m g
    if (m.guard g).any (·.isReachable ≠ .no) then (m, false) else primaryGuardsDownLoop m rest

def entryGuardsAllPrimaryGuardsAreDown (m : Memory) : Memory × Bool :=
  let m := if m.gs.primaryGuardsUpToDate then m else entryGuardsUpdatePrimary env m
  primaryGuardsDownLoop env m m.gs.primaryEntryGuards

/-! ## Restrictions and priorities -/

def entryGuardObeysRestriction (guard : EntryGuard) (rst : Option Restriction) : Bool :=
  match rst with
  | none => true
  | some (.exitNode excludeId) =>
    if env.inFamilyOf guard excludeId then false else guard.identity ≠ excludeId
  | some .outdatedMdDirserver => ! env.isOutdatedDirserver guard.identity
  | some (.exclList excluded) => guard.identity ∉ excluded

/-- `entry_guard_has_higher_priority`, of the guards at two addresses. -/
def entryGuardHasHigherPriority (addrA : ℕ) (a : EntryGuard) (addrB : ℕ) (b : EntryGuard) : Bool :=
  if addrA = addrB then false
  else if a.confirmedIdx < 0 ∧ b.confirmedIdx ≥ 0 then false
  else if ¬ a.confirmedIdx < 0 then
    if b.confirmedIdx < 0 then true else a.confirmedIdx < b.confirmedIdx
  else if a.isPending then
    if ! b.isPending then true else a.lastTriedToConnect < b.lastTriedToConnect
  else false

/-- Confirmed guards come first, then pending guards, then all others. -/
def priorityKey (a : EntryGuard) : ℕ ×ₗ ℤ :=
  if 0 ≤ a.confirmedIdx then toLex (0, a.confirmedIdx)
  else if a.isPending then toLex (1, a.lastTriedToConnect)
  else toLex (2, 0)

variable {env : Env} {m : Memory} {a b : EntryGuard} {addrA addrB g : ℕ}

theorem entryGuardHasHigherPriority_iff (h : addrA = addrB → a = b) :
    entryGuardHasHigherPriority addrA a addrB b ↔ priorityKey a < priorityKey b := by
  by_cases haddr : addrA = addrB
  · rw [h haddr]
    simp [entryGuardHasHigherPriority, haddr]
  · rw [entryGuardHasHigherPriority, if_neg haddr, priorityKey, priorityKey]
    split_ifs <;> simp_all [Prod.Lex.toLex_lt_toLex] <;> omega

/-- `a` has a higher priority than `b`, for guards in memory. -/
def HigherPriority (m : Memory) (a b : { g // (m.guard g).isSome }) : Prop :=
  entryGuardHasHigherPriority a.val ((m.guard a.val).get a.property) b.val
    ((m.guard b.val).get b.property)

/-- **The priority is a strict weak order on guards.** -/
theorem isStrictWeakOrder_higherPriority (m : Memory) : IsStrictWeakOrder _ (HigherPriority m) := by
  have hkey : ∀ a b, HigherPriority m a b ↔ priorityKey ((m.guard a.val).get a.property)
      < priorityKey ((m.guard b.val).get b.property) := by
    intro a b
    refine entryGuardHasHigherPriority_iff fun haddr => ?_
    obtain rfl := Subtype.ext haddr
    rfl
  exact
    { irrefl := fun a => by rw [hkey]; exact lt_irrefl _
      trans := fun a b c => by rw [hkey, hkey, hkey]; exact lt_trans
      incomp_trans := fun a b c => by
        rw [hkey, hkey, hkey, hkey, hkey, hkey]
        simp only [not_lt]
        exact fun hab hbc => ⟨hbc.1.trans hab.1, hab.2.trans hbc.2⟩ }

/-! ## The check of the primary guards -/

/-- No primary guard is believed to be reachable. -/
def PrimaryGuardsDown (m : Memory) : Prop :=
  ∀ g ∈ m.gs.primaryEntryGuards, ∀ guard ∈ m.guard g, guard.isReachable = .no

lemma retried_of_no (h : (retried env a).isReachable = .no) : retried env a = a := by
  by_contra hne
  have hmaybe : (retried env a).isReachable = .maybe := by
    simp only [retried] at hne ⊢
    split_ifs at hne ⊢ with hreach hbridge hlate
    · exact absurd rfl hne
    · exact absurd rfl hne
    · rfl
    · exact absurd rfl hne
  rw [hmaybe] at h
  cases h

lemma primaryGuardsDownLoop_guard (l : List ℕ) (h : ∀ guard ∈ m.guard g, retried env guard = guard) :
    (primaryGuardsDownLoop env m l).1.guard g = m.guard g := by
  induction l generalizing m with
  | nil => rfl
  | cons g' rest ih =>
    have hkept : (entryGuardConsiderRetry env m g').guard g = m.guard g := by
      rw [entryGuardConsiderRetry]
      by_cases hg : g = g'
      · subst hg
        rw [Memory.modify_guard_self]
        cases hguard : m.guard g with
        | none => rfl
        | some guard => rw [Option.map_some, h guard hguard]
      · exact Memory.modify_guard_of_ne hg m _
    rw [primaryGuardsDownLoop]
    split_ifs
    · exact hkept
    · rw [ih (by rwa [hkept]), hkept]

lemma primaryGuardsDownLoop_gs (m : Memory) (l : List ℕ) :
    (primaryGuardsDownLoop env m l).1.gs = m.gs := by
  induction l generalizing m with
  | nil => rfl
  | cons g rest ih =>
    rw [primaryGuardsDownLoop]
    split_ifs
    · rfl
    · rw [ih]
      rfl

lemma primaryGuardsDownLoop_iff (m : Memory) (l : List ℕ) : (primaryGuardsDownLoop env m l).2 = true
    ↔ ∀ g ∈ l, ∀ guard ∈ (primaryGuardsDownLoop env m l).1.guard g, guard.isReachable = .no := by
  induction l generalizing m with
  | nil => simp [primaryGuardsDownLoop]
  | cons g rest ih =>
    rw [primaryGuardsDownLoop]
    split_ifs with hup
    · refine iff_of_false (by simp) fun h => ?_
      cases hguard : (entryGuardConsiderRetry env m g).guard g with
      | none => simp [hguard] at hup
      | some guard =>
        have hno := h g List.mem_cons_self guard hguard
        simp [hguard, hno] at hup
    · have hdown : ∀ guard ∈ (entryGuardConsiderRetry env m g).guard g,
          guard.isReachable = .no := by
        intro guard hguard
        rw [Option.mem_def] at hguard
        simpa [hguard] using hup
      have hstable : ∀ guard ∈ (entryGuardConsiderRetry env m g).guard g,
          retried env guard = guard := by
        intro guard hguard
        have hno := hdown guard hguard
        rw [entryGuardConsiderRetry, Memory.modify_guard_self] at hguard
        obtain ⟨old, -, rfl⟩ := Option.map_eq_some_iff.mp hguard
        rw [retried_of_no hno]
        exact retried_of_no hno
      rw [ih, List.forall_mem_cons, primaryGuardsDownLoop_guard rest hstable]
      exact (and_iff_right hdown).symm

/-- What the check finds, in the guards as it leaves them. -/
theorem allPrimaryGuardsAreDown_iff (m : Memory) : (entryGuardsAllPrimaryGuardsAreDown env m).2 = true
    ↔ PrimaryGuardsDown (entryGuardsAllPrimaryGuardsAreDown env m).1 := by
  rw [PrimaryGuardsDown, entryGuardsAllPrimaryGuardsAreDown]
  simp only [primaryGuardsDownLoop_gs]
  exact primaryGuardsDownLoop_iff _ _

end Ator.Entrynodes
