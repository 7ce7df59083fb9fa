import AtorProtocol.HiddenService.PowVerify
import AtorProtocol.Lib.Run

/-!
# The replay cache of the proof of work

`src/feature/hs/hs_service.c` and `hs_pow.c`.  All services of a process share one cache, whose
entries have a nonce and the first four bytes of a seed.

* `PowProcess.step` — a request is verified; a service gets its seeds, rotates them, or is freed.
* `powReplay_iff` — no service accepts a pair of seed and nonce again, and no entry outlives the
  seeds with its head, exactly when each step drops only what no seed in use needs.
* `powReplay_fails` — a service that draws two seeds with one head.
-/

namespace Ator.HiddenService

open List Option Function

variable {σ : Type*} [DecidableEq σ]

/-- The services, with their seeds, and the cache.  `accepted` keeps what each service has accepted
for the reader; no function reads it. -/
structure PowProcess (σ : Type*) where
  services : σ → Option HsPowServiceState
  nonceCacheTable : List NonceCacheEntry
  accepted : List (σ × Seed × Nonce)

/-- What can happen.  `draws` is what `crypto_rand` gives, one seed after the other; `free` is a
service that goes away, or that a reload of the configuration puts another in the place of. -/
inductive PowEvent (σ : Type*) where
  | verify (service : σ) (serviceBlindedId : Bytes 32) (powSolution : HsPowSolution) (ctx : Bool)
  | rotatePowSeeds (service : σ) (draws : List Seed)
  | initializePowDefenses (service : σ) (seedCurrent seedPrevious : Seed)
  | free (service : σ)

/-- The loop of `rotate_pow_seeds`: draw until the head differs from that of the previous seed. -/
def drawSeed (seedPrevious : Seed) (draws : List Seed) : Option Seed :=
  draws.find? fun seed => seed.head ≠ seedPrevious.head

namespace PowProcess

/-- When the program starts. -/
def init : PowProcess σ := ⟨fun _ => none, [], []⟩

/-- `handle_introduce2_encrypted_cell_pow_extension` -/
def verify (prim : Primitives) (s : PowProcess σ) (service : σ) (serviceBlindedId : Bytes 32)
    (powSolution : HsPowSolution) (ctx : Bool) : PowProcess σ :=
  match s.services service with
  | none => s
  | some powState =>
    match hsPowVerify prim s.nonceCacheTable serviceBlindedId powState powSolution ctx with
    | none => s
    | some (seed, nonceCacheTable) =>
      { s with nonceCacheTable, accepted := (service, seed, powSolution.nonce) :: s.accepted }

/-- `pow_state->seed_current = …` and `pow_state->seed_previous = …` -/
def setSeeds (s : PowProcess σ) (service : σ) (seedCurrent seedPrevious : Seed) : PowProcess σ :=
  { s with services := update s.services service (some ⟨seedCurrent, seedPrevious⟩) }

/-- `rotate_pow_seeds`, once the loop has drawn the new seed. -/
def rotate (s : PowProcess σ) (service : σ) (powState : HsPowServiceState) (newSeed : Seed) :
    PowProcess σ :=
  { s.setSeeds service newSeed powState.seedCurrent with
    nonceCacheTable :=
      hsPowRemoveSeedFromCache s.nonceCacheTable (some powState.seedPrevious.head) }

/-- One step; `pow_housekeeping` initializes a service without seeds, and rotates one with.  `none`
where the draws end before the loop does. -/
def step (prim : Primitives) (s : PowProcess σ) : PowEvent σ → Option (PowProcess σ)
  | .verify service serviceBlindedId powSolution ctx =>
    some (s.verify prim service serviceBlindedId powSolution ctx)
  | .rotatePowSeeds service draws =>
    (s.services service).bind fun powState =>
      (drawSeed powState.seedCurrent draws).map fun newSeed => s.rotate service powState newSeed
  | .initializePowDefenses service seedCurrent seedPrevious =>
    match s.services service with
    | some _ => none
    | none => some (s.setSeeds service seedCurrent seedPrevious)
  | .free service => some { s with services := update s.services service none }

/-! ## What the cache is for -/

/-- The service takes a solution that names the seed by its head for that seed. -/
def Uses (s : PowProcess σ) (service : σ) (seed : Seed) : Prop :=
  ∃ powState, s.services service = some powState ∧ powState.selectSeed seed.head = some seed

/-- A seed of the service has the head. -/
def Accepts (s : PowProcess σ) (service : σ) (seedHead : SeedHead) : Prop :=
  ∃ powState, s.services service = some powState
    ∧ (powState.seedCurrent.head = seedHead ∨ powState.seedPrevious.head = seedHead)

/-- Whatever request comes, no service accepts a pair that it has accepted before. -/
def NoReplay (prim : Primitives) (s : PowProcess σ) : Prop :=
  ∀ service powState serviceBlindedId powSolution ctx seed nonceCacheTable,
    s.services service = some powState →
    hsPowVerify prim s.nonceCacheTable serviceBlindedId powState powSolution ctx
      = some (seed, nonceCacheTable) →
    (service, seed, powSolution.nonce) ∉ s.accepted

/-- The head of every entry is that of a seed some service has. -/
def CacheAccepted (s : PowProcess σ) : Prop :=
  ∀ ent ∈ s.nonceCacheTable, ∃ service, s.Accepts service ent.seedHead

/-- A rotation with the head of the seed it drops.  Nothing has been accepted under another seed
in use with that head, and nothing under the new seed that the cache does not keep. -/
structure RotationSpares (s : PowProcess σ) (service : σ) (powState : HsPowServiceState)
    (newSeed : Seed) : Prop where
  current : ∀ nonce, (service, powState.seedCurrent, nonce) ∈ s.accepted →
    powState.seedCurrent.head ≠ powState.seedPrevious.head
  others : ∀ other seed nonce, other ≠ service → s.Uses other seed →
    (other, seed, nonce) ∈ s.accepted → seed.head ≠ powState.seedPrevious.head
  newSeed : ∀ nonce, (service, newSeed, nonce) ∈ s.accepted →
    newSeed.head ≠ powState.seedPrevious.head ∧ ⟨nonce, newSeed.head⟩ ∈ s.nonceCacheTable

/-- **The condition.**  A rotation drops only the entries of the seed it drops; a seed that is
drawn is new to the service; a service that is freed leaves no entry that is its alone. -/
def Spares (s : PowProcess σ) : PowEvent σ → Prop
  | .verify .. => True
  | .rotatePowSeeds service draws => ∀ powState newSeed, s.services service = some powState →
      drawSeed powState.seedCurrent draws = some newSeed →
      s.RotationSpares service powState newSeed
  | .initializePowDefenses service seedCurrent seedPrevious => s.services service = none →
      ∀ seed nonce, (service, seed, nonce) ∈ s.accepted →
        (HsPowServiceState.mk seedCurrent seedPrevious).selectSeed seed.head = some seed →
        ⟨nonce, seed.head⟩ ∈ s.nonceCacheTable
  | .free service => ∀ ent ∈ s.nonceCacheTable, ∃ other ≠ service, s.Accepts other ent.seedHead

/-! ## The invariant -/

/-- What was accepted solves. -/
def Solved (prim : Primitives) (s : PowProcess σ) : Prop :=
  ∀ service seed nonce, (service, seed, nonce) ∈ s.accepted →
    ∃ blindedId powSolution, powSolution.nonce = nonce ∧ powSolution.seedHead = seed.head
      ∧ Solves prim blindedId seed powSolution

/-- What was accepted is in the cache while its seed is in use. -/
def Kept (s : PowProcess σ) : Prop :=
  ∀ service seed nonce, (service, seed, nonce) ∈ s.accepted → s.Uses service seed →
    ⟨nonce, seed.head⟩ ∈ s.nonceCacheTable

structure Inv (prim : Primitives) (s : PowProcess σ) : Prop where
  solved : s.Solved prim
  kept : s.Kept
  cacheAccepted : s.CacheAccepted

variable {prim : Primitives} {s t : PowProcess σ} {service : σ} {powState : HsPowServiceState}
  {newSeed seedCurrent seedPrevious : Seed}

omit [DecidableEq σ] in
lemma Solved.noReplay_iff (h : s.Solved prim) : s.NoReplay prim ↔ s.Kept := by
  constructor
  · intro hno service seed nonce hmem huses
    obtain ⟨powState, hservice, hselect⟩ := huses
    obtain ⟨blindedId, powSolution, rfl, hhead, hsolves⟩ := h service seed nonce hmem
    by_contra hfresh
    refine hno service powState blindedId powSolution true seed
      (⟨powSolution.nonce, powSolution.seedHead⟩ :: s.nonceCacheTable) hservice ?_ hmem
    refine hsPowVerify_eq_some.mpr ⟨?_, ?_, rfl, hsolves, rfl⟩
    · rw [hhead]
      exact hselect
    · rw [hhead]
      exact hfresh
  · intro hkept service powState blindedId powSolution ctx seed table hservice hverify hmem
    obtain ⟨hselect, hfresh, -, -, -⟩ := hsPowVerify_eq_some.mp hverify
    have hhead := head_of_selectSeed hselect
    refine hfresh ?_
    rw [← hhead]
    exact hkept service seed _ hmem ⟨powState, hservice, hhead ▸ hselect⟩

omit [DecidableEq σ] in
lemma inv_init : (init : PowProcess σ).Inv prim := by
  refine ⟨?_, ?_, ?_⟩
  · intro service seed nonce hmem
    cases hmem
  · intro service seed nonce hmem
    cases hmem
  · intro ent hmem
    cases hmem

omit [DecidableEq σ] in
lemma Inv.verify (h : s.Inv prim) (blindedId : Bytes 32) (powSolution : HsPowSolution)
    (ctx : Bool) : (s.verify prim service blindedId powSolution ctx).Inv prim := by
  rw [PowProcess.verify]
  split
  · exact h
  · next powState hservice =>
      split
      · exact h
      · next seed table hverify =>
          obtain ⟨hselect, -, -, hsolves, rfl⟩ := hsPowVerify_eq_some.mp hverify
          have hhead := head_of_selectSeed hselect
          refine ⟨?_, ?_, ?_⟩
          · intro service' seed' nonce hmem
            rcases mem_cons.mp hmem with heq | hmem
            · cases heq
              exact ⟨blindedId, powSolution, rfl, hhead.symm, hsolves⟩
            · exact h.solved service' seed' nonce hmem
          · intro service' seed' nonce hmem huses
            rcases mem_cons.mp hmem with heq | hmem
            · cases heq
              rw [hhead]
              exact mem_cons_self
            · exact mem_cons_of_mem _ (h.kept service' seed' nonce hmem huses)
          · intro ent hmem
            rcases mem_cons.mp hmem with rfl | hmem
            · refine ⟨service, powState, hservice, ?_⟩
              rw [HsPowServiceState.selectSeed] at hselect
              split at hselect
              · next hcurrent => exact .inl hcurrent
              · split at hselect
                · next hprevious => exact .inr hprevious
                · cases hselect
            · exact h.cacheAccepted ent hmem

lemma uses_setSeeds {other : σ} {seed : Seed} :
    (s.setSeeds service seedCurrent seedPrevious).Uses other seed ↔ if other = service then
          (HsPowServiceState.mk seedCurrent seedPrevious).selectSeed seed.head = some seed
        else s.Uses other seed := by
  rw [Uses, setSeeds]
  split
  · next heq =>
      subst heq
      simp
  · next hne =>
      simp only [update_of_ne hne]
      rfl

lemma accepts_setSeeds {other : σ} {seedHead : SeedHead} :
    (s.setSeeds service seedCurrent seedPrevious).Accepts other seedHead
      ↔ if other = service then seedCurrent.head = seedHead ∨ seedPrevious.head = seedHead
        else s.Accepts other seedHead := by
  rw [Accepts, setSeeds]
  split
  · next heq =>
      subst heq
      simp
  · next hne =>
      simp only [update_of_ne hne]
      rfl

lemma Inv.setSeeds_iff (h : s.Inv prim) (hnone : s.services service = none) :
    (s.setSeeds service seedCurrent seedPrevious).Inv prim
      ↔ ∀ seed nonce, (service, seed, nonce) ∈ s.accepted →
        (HsPowServiceState.mk seedCurrent seedPrevious).selectSeed seed.head = some seed →
        ⟨nonce, seed.head⟩ ∈ s.nonceCacheTable := by
  constructor
  · intro hinv seed nonce hmem hselect
    exact hinv.kept service seed nonce hmem (uses_setSeeds.mpr (by rwa [if_pos rfl]))
  · intro hspares
    refine ⟨h.solved, ?_, ?_⟩
    · intro other seed nonce hmem huses
      rw [uses_setSeeds] at huses
      split at huses
      · next heq => exact hspares seed nonce (heq ▸ hmem) huses
      · exact h.kept other seed nonce hmem huses
    · intro ent hmem
      obtain ⟨other, haccepts⟩ := h.cacheAccepted ent hmem
      refine ⟨other, accepts_setSeeds.mpr ?_⟩
      rw [if_neg]
      · exact haccepts
      · rintro rfl
        obtain ⟨powState, hsome, -⟩ := haccepts
        rw [hnone] at hsome
        cases hsome

lemma Inv.rotate_iff (h : s.Inv prim) (hservice : s.services service = some powState)
    (hnew : newSeed.head ≠ powState.seedCurrent.head) :
    (s.rotate service powState newSeed).Inv prim ↔ s.RotationSpares service powState newSeed := by
  have hselect {seed : Seed} : (HsPowServiceState.mk newSeed powState.seedCurrent).selectSeed
      seed.head = some seed ↔ seed = newSeed ∨ seed = powState.seedCurrent :=
    selectSeed_head_iff hnew
  have huses {other : σ} {seed : Seed} : (s.rotate service powState newSeed).Uses other seed
      ↔ if other = service then seed = newSeed ∨ seed = powState.seedCurrent
        else s.Uses other seed := by
    rw [← hselect]
    exact uses_setSeeds
  constructor
  · intro hinv
    refine ⟨?_, ?_, ?_⟩
    · intro nonce hmem
      have hkept := hinv.kept service powState.seedCurrent nonce hmem
        (huses.mpr (by rw [if_pos rfl]; exact .inr rfl))
      exact (mem_hsPowRemoveSeedFromCache.mp hkept).2
    · intro other seed nonce hne hother hmem
      have hkept := hinv.kept other seed nonce hmem (huses.mpr (by rwa [if_neg hne]))
      exact (mem_hsPowRemoveSeedFromCache.mp hkept).2
    · intro nonce hmem
      have hkept := hinv.kept service newSeed nonce hmem
        (huses.mpr (by rw [if_pos rfl]; exact .inl rfl))
      exact (mem_hsPowRemoveSeedFromCache.mp hkept).symm
  · intro hspares
    refine ⟨h.solved, ?_, ?_⟩
    · intro other seed nonce hmem hinUse
      rw [huses] at hinUse
      refine mem_hsPowRemoveSeedFromCache.mpr ?_
      split at hinUse
      · next heq =>
          subst heq
          rcases hinUse with rfl | rfl
          · exact (hspares.newSeed nonce hmem).symm
          · refine ⟨h.kept _ _ nonce hmem ⟨powState, hservice, selectSeed_current⟩, ?_⟩
            exact hspares.current nonce hmem
      · next hne =>
          exact ⟨h.kept other seed nonce hmem hinUse, hspares.others other seed nonce hne hinUse hmem⟩
    · intro ent hmem
      obtain ⟨hmem, hhead⟩ := mem_hsPowRemoveSeedFromCache.mp hmem
      obtain ⟨other, haccepts⟩ := h.cacheAccepted ent hmem
      refine ⟨other, accepts_setSeeds.mpr ?_⟩
      split
      · next heq =>
          subst heq
          obtain ⟨powState', hsome, hseed⟩ := haccepts
          rw [hservice] at hsome
          obtain rfl := some.inj hsome
          exact .inr (hseed.resolve_right hhead.symm)
      · exact haccepts

lemma Inv.free_iff (h : s.Inv prim) :
    PowProcess.Inv prim { s with services := update s.services service none }
      ↔ ∀ ent ∈ s.nonceCacheTable, ∃ other ≠ service, s.Accepts other ent.seedHead := by
  constructor
  · intro hinv ent hmem
    obtain ⟨other, powState, hsome, hseed⟩ := hinv.cacheAccepted ent hmem
    have hne : other ≠ service := by
      rintro rfl
      simp only [update_self] at hsome
      cases hsome
    simp only [update_of_ne hne] at hsome
    exact ⟨other, hne, powState, hsome, hseed⟩
  · intro hspares
    refine ⟨h.solved, ?_, ?_⟩
    · rintro other seed nonce hmem ⟨powState, hsome, hselect⟩
      have hne : other ≠ service := by
        rintro rfl
        simp only [update_self] at hsome
        cases hsome
      simp only [update_of_ne hne] at hsome
      exact h.kept other seed nonce hmem ⟨powState, hsome, hselect⟩
    · intro ent hmem
      obtain ⟨other, hne, powState, hsome, hseed⟩ := hspares ent hmem
      exact ⟨other, powState, by simpa only [update_of_ne hne], hseed⟩

lemma Inv.step_iff (e : PowEvent σ) (h : s.Inv prim) :
    (∀ t, step prim s e = some t → t.Inv prim) ↔ s.Spares e := by
  cases e with
  | verify service blindedId powSolution ctx =>
    refine iff_of_true (fun t ht => ?_) trivial
    obtain rfl := some.inj ht
    exact h.verify blindedId powSolution ctx
  | rotatePowSeeds service draws =>
    constructor
    · intro hinv powState newSeed hservice hdraw
      have hne : newSeed.head ≠ powState.seedCurrent.head := by
        simpa using find?_some hdraw
      refine (h.rotate_iff hservice hne).mp (hinv _ ?_)
      simp only [step, hservice, bind_some, hdraw, map_some]
    · intro hspares t ht
      simp only [step, bind_eq_some_iff, map_eq_some_iff] at ht
      obtain ⟨powState, hservice, newSeed, hdraw, rfl⟩ := ht
      have hne : newSeed.head ≠ powState.seedCurrent.head := by
        simpa using find?_some hdraw
      exact (h.rotate_iff hservice hne).mpr (hspares powState newSeed hservice hdraw)
  | initializePowDefenses service seedCurrent seedPrevious =>
    constructor
    · intro hinv hnone
      refine (h.setSeeds_iff hnone).mp (hinv _ ?_)
      simp only [step, hnone]
    · intro hspares t ht
      simp only [step] at ht
      split at ht
      · cases ht
      · next hnone =>
          obtain rfl := some.inj ht
          exact (h.setSeeds_iff hnone).mpr (hspares hnone)
  | free service =>
    constructor
    · intro hinv
      exact h.free_iff.mp (hinv _ rfl)
    · intro hspares t ht
      obtain rfl := some.inj ht
      exact h.free_iff.mpr hspares

lemma Inv.solved_step {e : PowEvent σ} (h : s.Inv prim) (ht : step prim s e = some t) :
    t.Solved prim := by
  cases e with
  | verify service blindedId powSolution ctx =>
    obtain rfl := some.inj ht
    exact (h.verify blindedId powSolution ctx).solved
  | rotatePowSeeds service draws =>
    simp only [step, bind_eq_some_iff, map_eq_some_iff] at ht
    obtain ⟨powState, -, newSeed, -, rfl⟩ := ht
    exact h.solved
  | initializePowDefenses service seedCurrent seedPrevious =>
    simp only [step] at ht
    split at ht
    · cases ht
    · obtain rfl := some.inj ht
      exact h.solved
  | free service =>
    obtain rfl := some.inj ht
    exact h.solved

/-- **The replay cache**: no service accepts a pair of seed and nonce twice, and the cache has only
the heads of seeds in use, all along a run exactly when every step meets the condition. -/
theorem powReplay_iff (prim : Primitives) (es : List (PowEvent σ)) :
    (∀ pre, pre <+: es → ∀ s : PowProcess σ, Reaches (step prim) init pre s →
        s.NoReplay prim ∧ s.CacheAccepted)
      ↔ Meets (step prim) Spares (init : PowProcess σ) es := by
  refine forall_reached_iff_meets (I := Inv prim) ?_ ?_ ?_ inv_init
  · intro s h
    exact ⟨h.solved.noReplay_iff.mpr h.kept, h.cacheAccepted⟩
  · intro s e h
    rw [← h.step_iff e]
    refine forall_congr' fun t => imp_congr_right fun ht => ?_
    have hsolved := h.solved_step ht
    rw [hsolved.noReplay_iff]
    exact ⟨fun hP => ⟨hsolved, hP.1, hP.2⟩, fun hinv => ⟨hinv.kept, hinv.cacheAccepted⟩⟩
  · intro s e t h hspares ht
    exact (h.step_iff e).mpr hspares t ht

/-- A challenge that one solution solves. -/
def oneSolution : Primitives where
  blake2b := fun _ => List.Vector.replicate 4 0
  equixVerify := fun _ indices => indices = [1, 2, 3, 4, 5, 6, 7, 8]

/-- The seed with the head 0 that ends in a byte. -/
def seedWithZeroHead (last : UInt8) : Seed := ⟨List.replicate 31 0 ++ [last], rfl⟩

/-- A solution for a seed with the head 0. -/
def zeroHeadSolution : HsPowSolution where
  nonce := List.Vector.replicate 16 9
  effort := 1
  seedHead := List.Vector.replicate 4 0
  equixSolution := ⟨[1, 0, 2, 0, 3, 0, 4, 0, 5, 0, 6, 0, 7, 0, 8, 0], rfl⟩

/-- Both seeds that a service draws first have one head.  The rotation that drops the previous seed
scrubs what was accepted under the current one, and the same solution is accepted again. -/
theorem powReplay_fails : ∃ s : PowProcess ℕ, Reaches (step oneSolution) init
        [.initializePowDefenses 0 (seedWithZeroHead 1) (seedWithZeroHead 2),
          .verify 0 (List.Vector.replicate 32 5) zeroHeadSolution true,
          .rotatePowSeeds 0 [List.Vector.replicate 32 3]] s
      ∧ s.accepted = [(0, seedWithZeroHead 1, zeroHeadSolution.nonce)]
      ∧ (s.verify oneSolution 0 (List.Vector.replicate 32 5) zeroHeadSolution true).accepted
        = [(0, seedWithZeroHead 1, zeroHeadSolution.nonce),
          (0, seedWithZeroHead 1, zeroHeadSolution.nonce)] := by
  refine ⟨_, rfl, ?_, ?_⟩
  · decide
  · decide

end PowProcess

end Ator.HiddenService
