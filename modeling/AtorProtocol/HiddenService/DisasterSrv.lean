import AtorProtocol.HiddenService.TimePeriod
import AtorProtocol.Lib.Run

/-!
# The disaster shared random value

`compute_disaster_srv` of `src/feature/hs/hs_common.c`, and `get_disaster_srv` with its cache of
two values.  `sha3` stands for SHA3-256, whose code is vendored.

* `getDisasterSrv` — a query, which may change the cache.
* `CacheRun` — the cache over time, with the period length that each slot was filled under.
* `answersCurrent_iff` — when all queries of a run answer what would be computed.
-/

namespace Ator.HiddenService

open Function

/-- The bytes of an `uint64_t` in network order. -/
def htonll (n : UInt64) : Ator.Bytes :=
  ([56, 48, 40, 32, 24, 16, 8, 0] : List UInt64).map fun shift => (n >>> shift).toUInt8

def hsSrvDisasterPrefix : Ator.Bytes := "shared-random-disaster".toList.map fun c => c.toUInt8

/-- The value for a period number under a period length. -/
def disasterSrvUnder (sha3 : Ator.Bytes → Ator.Bytes) (timePeriodLength : ℕ)
    (timePeriodNum : UInt64) : Ator.Bytes :=
  sha3 (hsSrvDisasterPrefix ++ htonll (UInt64.ofNat timePeriodLength) ++ htonll timePeriodNum)

def computeDisasterSrv (sha3 : Ator.Bytes → Ator.Bytes) (net : Network)
    (timePeriodNum : UInt64) : Ator.Bytes :=
  disasterSrvUnder sha3 (getTimePeriodLength net) timePeriodNum

/-! ## The cache -/

/-- An index of the two arrays. -/
inductive Slot where
  | first
  | second
deriving DecidableEq

/-- `cached_time_period_nums` and `cached_disaster_srv` -/
structure SrvCache where
  num : Slot → UInt64
  srv : Slot → Ator.Bytes

/-- `DIGEST256_LEN` zeros -/
def zeroSrv : Ator.Bytes := List.replicate 32 0

/-- The static arrays of a new process. -/
def SrvCache.new : SrvCache := ⟨fun _ => 0, fun _ => zeroSrv⟩

/-- The slot that has the number. -/
def SrvCache.find (cache : SrvCache) (timePeriodNum : UInt64) : Option Slot :=
  if timePeriodNum = cache.num .first then some .first
  else if timePeriodNum = cache.num .second then some .second
  else none

/-- `replace_idx`: the lower period number is replaced. -/
def SrvCache.replaceIdx (cache : SrvCache) : Slot :=
  if cache.num .first ≤ cache.num .second then .first else .second

def getDisasterSrv (sha3 : Ator.Bytes → Ator.Bytes) (net : Network) (cache : SrvCache)
    (timePeriodNum : UInt64) : SrvCache × Ator.Bytes :=
  match cache.find timePeriodNum with
  | some slot => (cache, cache.srv slot)
  | none =>
    let replaceIdx := cache.replaceIdx
    let cache : SrvCache :=
      { num := update cache.num replaceIdx timePeriodNum
        srv := update cache.srv replaceIdx (computeDisasterSrv sha3 net timePeriodNum) }
    (cache, cache.srv replaceIdx)

/-! ## Runs -/

/-- The cache and the consensus over time, with the period length that each slot was filled
under: none for a slot of a new process. -/
structure CacheRun where
  net : Network
  cache : SrvCache
  filledUnder : Slot → Option ℕ

def CacheRun.start (net : Network) : CacheRun := ⟨net, SrvCache.new, fun _ => none⟩

/-- A query, or a change of what the period length comes from. -/
inductive SrvEvent where
  | query (timePeriodNum : UInt64)
  | network (net : Network)

def cacheStep (sha3 : Ator.Bytes → Ator.Bytes) (r : CacheRun) : SrvEvent → Option CacheRun
  | .query timePeriodNum =>
    some { r with
      cache := (getDisasterSrv sha3 r.net r.cache timePeriodNum).1
      filledUnder :=
        match r.cache.find timePeriodNum with
        | some _ => r.filledUnder
        | none =>
          update r.filledUnder r.cache.replaceIdx (some (getTimePeriodLength r.net)) }
  | .network net => some { r with net }

/-- The query answers what would be computed. -/
def AnswersCurrent (sha3 : Ator.Bytes → Ator.Bytes) (r : CacheRun) : SrvEvent → Prop
  | .query timePeriodNum =>
    (getDisasterSrv sha3 r.net r.cache timePeriodNum).2
      = computeDisasterSrv sha3 r.net timePeriodNum
  | .network _ => True

/-- What is in a slot that was filled under a period length, or never. -/
def srvOf (sha3 : Ator.Bytes → Ator.Bytes) (timePeriodNum : UInt64) : Option ℕ → Ator.Bytes
  | some timePeriodLength => disasterSrvUnder sha3 timePeriodLength timePeriodNum
  | none => zeroSrv

/-- A slot with the number was filled, under the period length of now. -/
def FilledNow (r : CacheRun) : SrvEvent → Prop
  | .query timePeriodNum =>
    ∀ slot, r.cache.find timePeriodNum = some slot →
      r.filledUnder slot = some (getTimePeriodLength r.net)
  | .network _ => True

/-- The hash keeps the period lengths of one number apart, and gives zeros for none. -/
structure NoCollision (sha3 : Ator.Bytes → Ator.Bytes) : Prop where
  length_eq {m n : ℕ} {num : UInt64} (hm : m < 2 ^ 32) (hn : n < 2 ^ 32)
    (h : disasterSrvUnder sha3 m num = disasterSrvUnder sha3 n num) : m = n
  ne_zero (n : ℕ) (num : UInt64) : disasterSrvUnder sha3 n num ≠ zeroSrv

/-- Each slot has what was computed when it was filled, under a length that there is. -/
def CacheRun.Filled (sha3 : Ator.Bytes → Ator.Bytes) (r : CacheRun) : Prop :=
  ∀ slot, r.cache.srv slot = srvOf sha3 (r.cache.num slot) (r.filledUnder slot)
    ∧ ∀ length ∈ r.filledUnder slot, length < 2 ^ 32

variable {sha3 : Ator.Bytes → Ator.Bytes} {r r' : CacheRun} {cache : SrvCache}
  {timePeriodNum : UInt64}
  {slot : Slot} {e : SrvEvent}

lemma num_of_find (h : cache.find timePeriodNum = some slot) : cache.num slot = timePeriodNum := by
  rw [SrvCache.find] at h
  split_ifs at h with hfirst hsecond
  · cases h
    exact hfirst.symm
  · cases h
    exact hsecond.symm

lemma getDisasterSrv_of_find (net : Network) (h : cache.find timePeriodNum = some slot) :
    getDisasterSrv sha3 net cache timePeriodNum = (cache, cache.srv slot) := by
  rw [getDisasterSrv, h]

lemma getDisasterSrv_of_find_none (net : Network) (h : cache.find timePeriodNum = none) :
    (getDisasterSrv sha3 net cache timePeriodNum).2 = computeDisasterSrv sha3 net timePeriodNum := by
  rw [getDisasterSrv, h]
  exact update_self _ _ _

/-- **Step**: slots keep what was computed when they were filled. -/
lemma CacheRun.Filled.step (h : r.Filled sha3) (hstep : cacheStep sha3 r e = some r') :
    r'.Filled sha3 := by
  cases e with
  | network net =>
    cases hstep
    exact h
  | query timePeriodNum =>
    obtain rfl := Option.some.inj hstep
    intro slot
    cases hfind : r.cache.find timePeriodNum with
    | some found =>
      simp only [getDisasterSrv_of_find r.net hfind]
      exact h slot
    | none =>
      simp only [getDisasterSrv, hfind]
      by_cases hslot : slot = r.cache.replaceIdx
      · rw [hslot, update_self, update_self, update_self]
        refine ⟨rfl, fun length hlength => ?_⟩
        cases hlength
        exact getTimePeriodLength_lt r.net
      · rw [update_of_ne hslot, update_of_ne hslot, update_of_ne hslot]
        exact h slot

lemma FilledNow.answersCurrent (h : r.Filled sha3) (hnow : FilledNow r e) :
    AnswersCurrent sha3 r e := by
  cases e with
  | network net => trivial
  | query timePeriodNum =>
    rw [AnswersCurrent]
    cases hfind : r.cache.find timePeriodNum with
    | none => exact getDisasterSrv_of_find_none r.net hfind
    | some slot =>
      rw [getDisasterSrv_of_find r.net hfind, (h slot).1, num_of_find hfind, hnow slot hfind]
      rfl

lemma AnswersCurrent.filledNow (hsha3 : NoCollision sha3) (h : r.Filled sha3)
    (hanswers : AnswersCurrent sha3 r e) : FilledNow r e := by
  cases e with
  | network net => trivial
  | query timePeriodNum =>
    intro slot hfind
    rw [AnswersCurrent, getDisasterSrv_of_find r.net hfind, (h slot).1, num_of_find hfind]
      at hanswers
    cases hfilled : r.filledUnder slot with
    | none =>
      rw [hfilled] at hanswers
      exact absurd hanswers.symm (hsha3.ne_zero _ _)
    | some length =>
      rw [hfilled] at hanswers
      rw [hsha3.length_eq ((h slot).2 length hfilled) (getTimePeriodLength_lt r.net) hanswers]

lemma filled_start (sha3 : Ator.Bytes → Ator.Bytes) (net : Network) :
    (CacheRun.start net).Filled sha3 :=
  fun _ => ⟨rfl, fun _ h => nomatch h⟩

/-- **All queries of a run answer what would be computed** if each one that finds its number in the
cache finds it filled under the period length of that moment, and only then where values do not
collide. -/
theorem answersCurrent_iff (sha3 : Ator.Bytes → Ator.Bytes) (net : Network) (es : List SrvEvent) :
    (Meets (cacheStep sha3) FilledNow (CacheRun.start net) es →
        Meets (cacheStep sha3) (AnswersCurrent sha3) (CacheRun.start net) es)
      ∧ (NoCollision sha3 → Meets (cacheStep sha3) (AnswersCurrent sha3) (CacheRun.start net) es →
        Meets (cacheStep sha3) FilledNow (CacheRun.start net) es) :=
  ⟨Meets.imp (fun _ _ _ h hstep => CacheRun.Filled.step h hstep) (filled_start sha3 net)
      fun _ _ h => FilledNow.answersCurrent h,
    fun hsha3 => Meets.imp (fun _ _ _ h hstep => CacheRun.Filled.step h hstep)
      (filled_start sha3 net) fun _ _ h => AnswersCurrent.filledNow hsha3 h⟩

/-- A network with a period length of half a day. -/
def halfDays : Network :=
  { votingEvery 3600 (by decide) (by decide) with params := fun _ => some 720 }

/-- The first query of a process is answered with zeros if it is for period 0, and a query after a
change of the period length with the value of the old periods. -/
theorem not_answersCurrent_stale :
    ¬ Meets (cacheStep (List.take 32)) (AnswersCurrent (List.take 32))
        (CacheRun.start halfDays) [.query 0]
      ∧ ¬ Meets (cacheStep (List.take 32)) (AnswersCurrent (List.take 32))
        (CacheRun.start (votingEvery 3600 (by decide) (by decide)))
        [.query 5, .network halfDays, .query 5] := by
  constructor
  · intro h
    exact absurd (meets_cons.mp h).1 (show ¬ (_ = _) by decide)
  · intro h
    have hlast := (meets_cons.mp ((meets_cons.mp ((meets_cons.mp h).2 _ rfl)).2 _ rfl)).1
    exact absurd hlast (show ¬ (_ = _) by decide)

/-! ## A run that meets the condition -/

lemma htonll_injective : Function.Injective htonll := by
  intro a b h
  simp only [htonll, List.map_cons, List.map_nil, List.cons.injEq, and_true, ← UInt8.toNat_inj,
    UInt64.toNat_toUInt8, UInt64.toNat_shiftRight, Nat.shiftRight_eq_div_pow, UInt64.reduceToNat,
    Nat.reduceMod, Nat.reducePow, Nat.div_one] at h
  rw [← UInt64.toNat_inj]
  have := a.toNat_lt
  have := b.toNat_lt
  omega

lemma disasterSrvUnder_take (n : ℕ) (num : UInt64) :
    disasterSrvUnder (List.take 32) n num
      = hsSrvDisasterPrefix ++ (htonll (UInt64.ofNat n) ++ (htonll num).take 2) := by
  rw [disasterSrvUnder, List.append_assoc]
  rfl

lemma noCollision_take : NoCollision (List.take 32) where
  length_eq {m n num} hm hn h := by
    rw [disasterSrvUnder_take, disasterSrvUnder_take, List.append_cancel_left_eq,
      List.append_left_inj] at h
    have heq := congrArg UInt64.toNat (htonll_injective h)
    rwa [UInt64.toNat_ofNat', UInt64.toNat_ofNat', Nat.mod_eq_of_lt (by omega),
      Nat.mod_eq_of_lt (by omega)] at heq
  ne_zero n num h := by
    rw [disasterSrvUnder_take] at h
    exact absurd (List.cons.inj h).1 (by decide)

instance (r : CacheRun) : (e : SrvEvent) → Decidable (FilledNow r e)
  | .query timePeriodNum => inferInstanceAs (Decidable
      (∀ slot ∈ r.cache.find timePeriodNum, r.filledUnder slot = some (getTimePeriodLength r.net)))
  | .network _ => instDecidableTrue

/-- A number asked for twice, and after a change of the period length. -/
theorem answersCurrent_iff_halfDays :
    Meets (cacheStep (List.take 32)) (AnswersCurrent (List.take 32))
        (CacheRun.start (votingEvery 3600 (by decide) (by decide)))
        [.query 5, .query 6, .query 5, .network halfDays, .query 7, .query 7]
      ∧ ¬ Meets (cacheStep (List.take 32)) (AnswersCurrent (List.take 32))
        (CacheRun.start (votingEvery 3600 (by decide) (by decide)))
        [.query 5, .query 6, .network halfDays, .query 6] :=
  ⟨(answersCurrent_iff _ _ _).1 (by decide),
    fun h => absurd ((answersCurrent_iff _ _ _).2 noCollision_take h) (by decide)⟩

end Ator.HiddenService
