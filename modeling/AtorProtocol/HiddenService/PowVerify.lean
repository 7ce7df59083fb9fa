import Mathlib.Algebra.Ring.Nat
import Mathlib.Data.Vector.Defs

/-!
# Verifying a proof of work

`src/feature/hs/hs_pow.c`: what an onion service does with the solution that comes with a request.

* `hsPowVerify` — the seed whose head the solution names, the replay cache, the EquiX challenge.
* `hsPowVerify_eq_some` — what a solution that is accepted has.

BLAKE2b and EquiX are parameters.
-/

namespace Ator.HiddenService

open Option

/-- A buffer of `n` bytes. -/
abbrev Bytes (n : ℕ) := List.Vector UInt8 n

abbrev Seed := Bytes 32
abbrev SeedHead := Bytes 4
abbrev Nonce := Bytes 16

/-- The first `HS_POW_SEED_HEAD_LEN` bytes. -/
def Seed.head (seed : Seed) : SeedHead := seed.take 4

/-- The hash to four bytes, and the check of a solution's eight indices for a challenge. -/
structure Primitives where
  blake2b : List UInt8 → Bytes 4
  equixVerify : List UInt8 → List UInt16 → Bool

structure HsPowSolution where
  nonce : Nonce
  effort : UInt32
  seedHead : SeedHead
  equixSolution : Bytes 16

/-- What `hs_pow_service_state_t` has for the verification. -/
structure HsPowServiceState where
  seedCurrent : Seed
  seedPrevious : Seed

structure NonceCacheEntry where
  nonce : Nonce
  seedHead : SeedHead
deriving DecidableEq

/-- `tor_htonl` of a number, as bytes. -/
def bigEndian (n : UInt32) : List UInt8 :=
  [(n >>> 24).toUInt8, (n >>> 16).toUInt8, (n >>> 8).toUInt8, n.toUInt8]

/-- `tor_htonl` of four bytes. -/
def readBigEndian (bytes : List UInt8) : ℕ := bytes.foldl (fun n byte => 256 * n + byte.toNat) 0

/-- `HS_POW_PSTRING`: "Tor hs intro v1" and a zero. -/
def hsPowPstring : List UInt8 :=
  [0x54, 0x6f, 0x72, 0x20, 0x68, 0x73, 0x20, 0x69, 0x6e, 0x74, 0x72, 0x6f, 0x20, 0x76, 0x31, 0x00]

def buildEquixChallenge (blindedId : Bytes 32) (seed : Seed) (nonce : Nonce) (effort : UInt32) :
    List UInt8 :=
  hsPowPstring ++ blindedId.toList ++ seed.toList ++ nonce.toList ++ bigEndian effort

def validateEquixChallenge (prim : Primitives) (challenge : List UInt8) (solutionBytes : Bytes 16)
    (effort : UInt32) : Bool :=
  let hashResult := prim.blake2b (challenge ++ solutionBytes.toList)
  readBigEndian hashResult.toList * effort.toNat ≤ 2 ^ 32 - 1

def unpackEquixSolution : List UInt8 → List UInt16
  | low :: high :: bytes => (low.toUInt16 ||| high.toUInt16 <<< 8) :: unpackEquixSolution bytes
  | _ => []

/-- The seed of the service that starts with a seed head. -/
def HsPowServiceState.selectSeed (powState : HsPowServiceState) (seedHead : SeedHead) :
    Option Seed :=
  if powState.seedCurrent.head = seedHead then some powState.seedCurrent
  else if powState.seedPrevious.head = seedHead then some powState.seedPrevious
  else none

/-- `hs_pow_verify`: the seed and the replay cache with the new entry, or `none` where it returns
-1.  `ctx` tells whether `equix_alloc` gives a context. -/
def hsPowVerify (prim : Primitives) (nonceCacheTable : List NonceCacheEntry)
    (serviceBlindedId : Bytes 32) (powState : HsPowServiceState) (powSolution : HsPowSolution)
    (ctx : Bool) : Option (Seed × List NonceCacheEntry) :=
  match powState.selectSeed powSolution.seedHead with
  | none => none
  | some seed =>
    let entry : NonceCacheEntry := ⟨powSolution.nonce, powSolution.seedHead⟩
    if entry ∈ nonceCacheTable then none
    else
      let challenge :=
        buildEquixChallenge serviceBlindedId seed powSolution.nonce powSolution.effort
      if ¬ validateEquixChallenge prim challenge powSolution.equixSolution powSolution.effort then
        none
      else if ¬ ctx then none
      else if ¬ prim.equixVerify challenge (unpackEquixSolution powSolution.equixSolution.toList)
        then none
      else some (seed, entry :: nonceCacheTable)

/-- `hs_pow_remove_seed_from_cache`, with `nonce_cache_entry_match_seed_and_free` on each entry:
without a seed head, all of them. -/
def hsPowRemoveSeedFromCache (nonceCacheTable : List NonceCacheEntry)
    (seedHead : Option SeedHead) : List NonceCacheEntry :=
  match seedHead with
  | none => []
  | some seedHead => nonceCacheTable.filter fun ent => ent.seedHead ≠ seedHead

/-! ## What is accepted -/

variable {prim : Primitives} {nonceCacheTable : List NonceCacheEntry} {serviceBlindedId : Bytes 32}
  {powState : HsPowServiceState} {powSolution : HsPowSolution} {ctx : Bool} {seed : Seed}

/-- The solution solves the service's challenge for the seed. -/
def Solves (prim : Primitives) (serviceBlindedId : Bytes 32) (seed : Seed)
    (powSolution : HsPowSolution) : Prop :=
  let challenge := buildEquixChallenge serviceBlindedId seed powSolution.nonce powSolution.effort
  validateEquixChallenge prim challenge powSolution.equixSolution powSolution.effort
    ∧ prim.equixVerify challenge (unpackEquixSolution powSolution.equixSolution.toList)

lemma head_of_selectSeed {seedHead : SeedHead} (h : powState.selectSeed seedHead = some seed) :
    seed.head = seedHead := by
  rw [HsPowServiceState.selectSeed] at h
  split at h
  · next hcurrent => exact some.inj h ▸ hcurrent
  · split at h
    · next hprevious => exact some.inj h ▸ hprevious
    · cases h

lemma hsPowVerify_eq_some {table' : List NonceCacheEntry} :
    hsPowVerify prim nonceCacheTable serviceBlindedId powState powSolution ctx = some (seed, table')
      ↔ powState.selectSeed powSolution.seedHead = some seed
        ∧ ⟨powSolution.nonce, powSolution.seedHead⟩ ∉ nonceCacheTable
        ∧ ctx = true ∧ Solves prim serviceBlindedId seed powSolution
        ∧ table' = ⟨powSolution.nonce, powSolution.seedHead⟩ :: nonceCacheTable := by
  rw [hsPowVerify]
  split
  · next hnone => simp [hnone]
  · next seed' hsome =>
      rw [hsome, some.injEq]
      constructor
      · intro h
        dsimp only at h
        split at h
        · cases h
        · next hfresh =>
            split at h
            · cases h
            · next hvalid =>
                split at h
                · cases h
                · next hctx =>
                    split at h
                    · cases h
                    · next hequix =>
                        obtain ⟨rfl, rfl⟩ := Prod.mk.inj (some.inj h)
                        exact ⟨rfl, hfresh, not_not.mp hctx,
                          ⟨not_not.mp hvalid, not_not.mp hequix⟩, rfl⟩
      · rintro ⟨rfl, hfresh, hctx, ⟨hvalid, hequix⟩, rfl⟩
        rw [if_neg hfresh, if_neg (not_not.mpr hvalid), if_neg (not_not.mpr hctx),
          if_neg (not_not.mpr hequix)]

lemma mem_hsPowRemoveSeedFromCache {seedHead : SeedHead} {ent : NonceCacheEntry} :
    ent ∈ hsPowRemoveSeedFromCache nonceCacheTable (some seedHead)
      ↔ ent ∈ nonceCacheTable ∧ ent.seedHead ≠ seedHead := by
  simp [hsPowRemoveSeedFromCache]

lemma selectSeed_head_iff (h : powState.seedCurrent.head ≠ powState.seedPrevious.head) :
    powState.selectSeed seed.head = some seed
      ↔ seed = powState.seedCurrent ∨ seed = powState.seedPrevious := by
  constructor
  · intro hselect
    rw [HsPowServiceState.selectSeed] at hselect
    split at hselect
    · exact Or.inl (some.inj hselect).symm
    · split at hselect
      · exact Or.inr (some.inj hselect).symm
      · cases hselect
  · rintro (rfl | rfl)
    · rw [HsPowServiceState.selectSeed, if_pos rfl]
    · rw [HsPowServiceState.selectSeed, if_neg h, if_pos rfl]

lemma selectSeed_current : powState.selectSeed powState.seedCurrent.head
    = some powState.seedCurrent := by
  rw [HsPowServiceState.selectSeed, if_pos rfl]

end Ator.HiddenService
