import AtorProtocol.Lib.Binary64
import AtorProtocol.Lib.Run
import AtorProtocol.Lib.Sort
import Mathlib.NumberTheory.Divisors

/-!
# The bandwidth totals of a consensus

`networkstatus_compute_consensus` adds the bandwidth of every router it lists to the totals of
the guards (`G`), middles (`M`), exits (`E`) and guard exits (`D`), and to their sum (`T`).  A guard
with a guardfraction counts as a guard with a part of its bandwidth, and without the flag with the
rest.

* `updateTotal_eq` — what one router adds.
* `SharesBy236` — what proposal 236 adds for it.
* `totals_iff` — when the sum and the classes come out right.
* `exists_reaches_computeConsensus` — the totals are what most of the votes say.
* `totals_lt` — no total overflows.
-/

namespace Ator.Dirauth

open List

/-! ## One router -/

/-- The fields of `routerstatus_t` that are read. -/
structure Routerstatus where
  hasBandwidth : Bool
  bandwidthKb : UInt32
  hasGuardfraction : Bool
  guardfractionPercentage : UInt32
deriving DecidableEq

/-- The totals over the routers so far. -/
structure Totals where
  G : ℤ
  M : ℤ
  E : ℤ
  D : ℤ
  T : ℤ
deriving DecidableEq

/-- The totals that `networkstatus_compute_consensus` starts with. -/
def Totals.start : Totals := ⟨1, 1, 1, 1, 4⟩

structure GuardfractionBandwidth where
  guardBw : ℤ
  nonGuardBw : ℤ
deriving DecidableEq

/-- The conversion of a `uint32_t` to `int`. -/
def intOfUint32 (x : UInt32) : ℤ := if x.toNat < 2 ^ 31 then x.toNat else x.toNat - 2 ^ 32

/-- `tor_lround(guardfraction_fraction * orig_bandwidth)` -/
def guardBw (origBandwidth : ℤ) (guardfractionPercentage : UInt32) : ℤ :=
  lround (toDouble (toDouble (guardfractionPercentage.toNat / 100) * origBandwidth))

/-- `guard_get_guardfraction_bandwidth`; `none` where one of its assertions fails. -/
def guardGetGuardfractionBandwidth (origBandwidth : ℤ) (guardfractionPercentage : UInt32) :
    Option GuardfractionBandwidth :=
  if ¬ guardfractionPercentage.toNat ≤ 100 then none
  else if ¬ guardBw origBandwidth guardfractionPercentage ≤ 2 ^ 31 - 1 then none
  else
    some
      { guardBw := guardBw origBandwidth guardfractionPercentage
        nonGuardBw := origBandwidth - guardBw origBandwidth guardfractionPercentage }

/-- `update_total_bandwidth_weights`; `none` where an assertion fails. -/
def updateTotalBandwidthWeights (rs : Routerstatus) (isExit isGuard : Bool) (t : Totals) :
    Option Totals :=
  let defaultBandwidth := intOfUint32 rs.bandwidthKb
  if ¬ rs.hasBandwidth then some t
  else do
    let bw ←
      if rs.hasGuardfraction then
        if ¬ isGuard then none
        else
          guardGetGuardfractionBandwidth (intOfUint32 rs.bandwidthKb) rs.guardfractionPercentage
      else some ⟨defaultBandwidth, 0⟩
    let t := { t with T := t.T + bw.guardBw }
    if isExit ∧ isGuard then
      let t := { t with D := t.D + bw.guardBw }
      some (if rs.hasGuardfraction then { t with E := t.E + bw.nonGuardBw } else t)
    else if isExit then some { t with E := t.E + bw.guardBw }
    else if isGuard then
      let t := { t with G := t.G + bw.guardBw }
      some (if rs.hasGuardfraction then { t with M := t.M + bw.nonGuardBw } else t)
    else some { t with M := t.M + bw.guardBw }

/-! ## The routers of a consensus -/

/-- A router as it is listed: only a guard has a guardfraction, and that is a percentage. -/
structure ConsensusEntry where
  rs : Routerstatus
  isExit : Bool
  isGuard : Bool
  guardfraction : rs.hasGuardfraction = true →
    isGuard = true ∧ rs.guardfractionPercentage.toNat ≤ 100

/-- What the votes say about a router: the flags most of them give it, and its bandwidths. -/
structure RouterVotes where
  isRunning : Bool
  isValid : Bool
  isExit : Bool
  isGuard : Bool
  isBadExit : Bool
  isMiddleOnly : Bool
  measuredGuardfraction : List UInt32
  measuredBwsKb : List UInt32
  bandwidthsKb : List UInt32

def medianUint32 (l : List UInt32) : UInt32 := (l.mergeSort (· ≤ ·)).getD ((l.length - 1) / 2) 0

/-- The status that `networkstatus_compute_consensus` writes for a router it lists. -/
def routerstatusOut (nAuthoritiesMeasuringBandwidth : ℕ) (maxUnmeasuredBwKb : UInt32)
    (v : RouterVotes) : Routerstatus where
  hasGuardfraction := v.isGuard && !v.isMiddleOnly && decide (2 < v.measuredGuardfraction.length)
  guardfractionPercentage :=
    if (v.isGuard && !v.isMiddleOnly) ∧ 2 < v.measuredGuardfraction.length then
      medianUint32 v.measuredGuardfraction
    else 0
  hasBandwidth := decide (2 < v.measuredBwsKb.length ∨ 0 < v.bandwidthsKb.length)
  bandwidthKb :=
    if 2 < v.measuredBwsKb.length then medianUint32 v.measuredBwsKb
    else if 0 < v.bandwidthsKb.length then
      if 2 < nAuthoritiesMeasuringBandwidth then
        min (medianUint32 v.bandwidthsKb) maxUnmeasuredBwKb
      else medianUint32 v.bandwidthsKb
    else 0

/-- The router as `networkstatus_compute_consensus` counts it; `none` where it asserts that the
guardfraction is a percentage. -/
def consensusEntry (nAuthoritiesMeasuringBandwidth : ℕ) (maxUnmeasuredBwKb : UInt32)
    (v : RouterVotes) : Option ConsensusEntry :=
  let rs := routerstatusOut nAuthoritiesMeasuringBandwidth maxUnmeasuredBwKb v
  if h : rs.hasGuardfraction = true → rs.guardfractionPercentage.toNat ≤ 100 then
    some
      { rs := rs
        isExit := v.isExit && !v.isMiddleOnly && !v.isBadExit
        isGuard := v.isGuard && !v.isMiddleOnly
        guardfraction := fun hfraction => by
          refine ⟨?_, h hfraction⟩
          simp only [rs, routerstatusOut, Bool.and_eq_true] at hfraction ⊢
          exact hfraction.1 }
  else none

/-- The totals move by one router of the consensus. -/
def updateTotal (t : Totals) (e : ConsensusEntry) : Option Totals :=
  updateTotalBandwidthWeights e.rs e.isExit e.isGuard t

/-- `networkstatus_compute_consensus` on one router: those not running or not valid are not
listed. -/
def computeConsensus (nAuthoritiesMeasuringBandwidth : ℕ) (maxUnmeasuredBwKb : UInt32)
    (t : Totals) (v : RouterVotes) : Option Totals :=
  if ¬ v.isRunning then some t
  else if ¬ v.isValid then some t
  else do
    let e ← consensusEntry nAuthoritiesMeasuringBandwidth maxUnmeasuredBwKb v
    updateTotal t e

/-! ## Proposal 236 -/

/-- What a router adds to each class. -/
structure Shares where
  G : ℤ
  M : ℤ
  E : ℤ
  D : ℤ
deriving DecidableEq

/-- A part `fB` of the bandwidth has the guard flag, and the rest of it has not. -/
def Shares.of (isExit : Bool) (fB rest : ℤ) : Shares :=
  if isExit then ⟨0, 0, rest, fB⟩ else ⟨fB, rest, 0, 0⟩

/-- The percentage of a router that has the guard flag. -/
def ConsensusEntry.percentage (e : ConsensusEntry) : ℕ :=
  if e.rs.hasGuardfraction then e.rs.guardfractionPercentage.toNat
  else if e.isGuard then 100 else 0

/-- `s` is what proposal 236 adds for the router: `F*B`, to the nearest integer, to the class with
the guard flag, and what is left of `B` to the class without. -/
def SharesBy236 (e : ConsensusEntry) (s : Shares) : Prop :=
  if e.rs.hasBandwidth then
    ∃ fB : ℤ, |100 * fB - e.percentage * e.rs.bandwidthKb.toNat| ≤ 50
      ∧ s = Shares.of e.isExit fB (e.rs.bandwidthKb.toNat - fB)
  else s = ⟨0, 0, 0, 0⟩

/-- The totals are 1 and what proposal 236 adds for each router. -/
def TotalsBy236 (entries : List ConsensusEntry) (t : Totals) : Prop :=
  ∃ shares, List.Forall₂ SharesBy236 entries shares
    ∧ t.G = 1 + (shares.map Shares.G).sum ∧ t.M = 1 + (shares.map Shares.M).sum
    ∧ t.E = 1 + (shares.map Shares.E).sum ∧ t.D = 1 + (shares.map Shares.D).sum

/-! ## What one router adds -/

variable {b : ℤ} {p : UInt32} {rs : Routerstatus} {e : ConsensusEntry} {entries : List ConsensusEntry}
  {t t' : Totals}

lemma abs_guardBw_sub_le (hp : p.toNat ≤ 100) (hb : |b| ≤ 2 ^ 32) :
    |100 * guardBw b p - p.toNat * b| ≤ 50 := by
  have hround := abs_lround_sub_le (toDouble (toDouble (p.toNat / 100) * b))
  have hdouble : |toDouble (toDouble (p.toNat / 100) * b) - p.toNat / 100 * b| ≤ 1 / 2 ^ 19 := by
    have hfraction : |(p.toNat : ℚ) / 100| ≤ 1 := by
      rw [abs_of_nonneg (by positivity), div_le_one (by norm_num)]
      exact_mod_cast hp
    have hb' : |(b : ℚ)| ≤ 2 ^ 32 := by exact_mod_cast hb
    refine (abs_toDouble_mul_sub_le hfraction).trans ?_
    linarith
  have hlt : |((100 * guardBw b p - p.toNat * b : ℤ) : ℚ)| < 51 := by
    rw [guardBw]
    push_cast
    rw [abs_le] at hround hdouble
    rw [abs_lt]
    constructor <;> linarith
  have hint : |100 * guardBw b p - p.toNat * b| < 51 := by exact_mod_cast hlt
  omega

lemma guardBw_tie (hp : p.toNat ≤ 100) (hb : 0 ≤ b) (htie : (100 - p.toNat) * b = 50) :
    guardBw b p = b := by
  obtain ⟨n, rfl⟩ := Int.eq_ofNat_of_zero_le hb
  have hn : (100 - p.toNat) * n = 50 := by zify [hp]; exact htie
  have hdvd : 100 - p.toNat ∈ Nat.divisors 50 := Nat.mem_divisors.mpr ⟨Dvd.intro _ hn, by norm_num⟩
  rw [show Nat.divisors 50 = {1, 2, 5, 10, 25, 50} by decide +kernel] at hdvd
  simp only [Finset.mem_insert, Finset.mem_singleton] at hdvd
  have hcases (q : UInt32) (m : ℕ) (hq : p.toNat = q.toNat) (hm : n = m)
      (heq : guardBw m q = m) : guardBw (n : ℤ) p = n := by
    rw [UInt32.toNat_inj.mp hq, hm, heq]
  rcases hdvd with h | h | h | h | h | h <;> rw [h] at hn
  · exact hcases 99 50 (by simp; omega) (by omega) (by decide +kernel)
  · exact hcases 98 25 (by simp; omega) (by omega) (by decide +kernel)
  · exact hcases 95 10 (by simp; omega) (by omega) (by decide +kernel)
  · exact hcases 90 5 (by simp; omega) (by omega) (by decide +kernel)
  · exact hcases 75 2 (by simp; omega) (by omega) (by decide +kernel)
  · exact hcases 50 1 (by simp; omega) (by omega) (by decide +kernel)

/-- The guard's part is no more than the bandwidth, and all of it when what is left does not
round up. -/
lemma guardBw_le (hp : p.toNat ≤ 100) (hb : 0 ≤ b) (hlt : b < 2 ^ 31) : guardBw b p ≤ b := by
  have h := abs_le.mp (abs_guardBw_sub_le hp (by rw [abs_of_nonneg hb]; omega))
  have hmul : p.toNat * b ≤ 100 * b := mul_le_mul_of_nonneg_right (by exact_mod_cast hp) hb
  omega

lemma guardBw_eq_iff (hp : p.toNat ≤ 100) (hb : 0 ≤ b) (hlt : b < 2 ^ 31) :
    guardBw b p = b ↔ (100 - p.toNat) * b ≤ 50 := by
  have h := abs_le.mp (abs_guardBw_sub_le hp (by rw [abs_of_nonneg hb]; omega))
  have hle := guardBw_le hp hb hlt
  rw [sub_mul]
  constructor
  · intro heq
    rw [heq] at h
    linarith
  · intro hrest
    rcases hrest.lt_or_eq with hrest | hrest
    · linarith
    · exact guardBw_tie hp hb (by rw [sub_mul, hrest])

namespace ConsensusEntry

variable (e)

/-- The bandwidth as the code reads it. -/
def bandwidth : ℤ := intOfUint32 e.rs.bandwidthKb

/-- The part of it that counts as a guard's. -/
def withFlag : ℤ :=
  if e.rs.hasGuardfraction then guardBw e.bandwidth e.rs.guardfractionPercentage
  else if e.isGuard then e.bandwidth else 0

/-- What the code adds to each class. -/
def shares : Shares :=
  if e.rs.hasBandwidth then Shares.of e.isExit e.withFlag (e.bandwidth - e.withFlag)
  else ⟨0, 0, 0, 0⟩

/-- What the code adds to the sum. -/
def counted : ℤ :=
  if e.rs.hasBandwidth then
    if e.rs.hasGuardfraction then guardBw e.bandwidth e.rs.guardfractionPercentage else e.bandwidth
  else 0

/-- What the code adds to a class and not to the sum. -/
def uncounted : ℤ :=
  if e.rs.hasBandwidth ∧ e.rs.hasGuardfraction then
    e.bandwidth - guardBw e.bandwidth e.rs.guardfractionPercentage
  else 0

/-- The whole bandwidth, where there is one. -/
def whole : ℤ := if e.rs.hasBandwidth then e.rs.bandwidthKb.toNat else 0

end ConsensusEntry

lemma intOfUint32_lt (x : UInt32) : intOfUint32 x < 2 ^ 31 := by
  have hx := x.toNat_lt
  rw [intOfUint32]
  split <;> omega

lemma abs_intOfUint32_le (x : UInt32) : |intOfUint32 x| ≤ 2 ^ 31 := by
  have hx := x.toNat_lt
  rw [intOfUint32, abs_le]
  split <;> omega

lemma guardGetGuardfractionBandwidth_eq (hp : p.toNat ≤ 100) (x : UInt32) :
    guardGetGuardfractionBandwidth (intOfUint32 x) p
      = some ⟨guardBw (intOfUint32 x) p, intOfUint32 x - guardBw (intOfUint32 x) p⟩ := by
  have hb := abs_intOfUint32_le x
  have h := abs_le.mp (abs_guardBw_sub_le hp (hb.trans (by norm_num)))
  have hlt := intOfUint32_lt x
  have hmul : p.toNat * intOfUint32 x ≤ 100 * (2 ^ 31 - 1) := by
    by_cases hpos : 0 ≤ intOfUint32 x
    · exact mul_le_mul (by exact_mod_cast hp) (by omega) hpos (by norm_num)
    · have hneg : p.toNat * intOfUint32 x ≤ 0 := by
        rw [mul_comm]
        exact mul_nonpos_of_nonpos_of_nonneg (by omega) (by omega)
      omega
  rw [guardGetGuardfractionBandwidth, if_neg (not_not.mpr hp), if_neg (by omega)]

/-- **One router** adds its shares to the classes. -/
theorem updateTotal_eq (t : Totals) (e : ConsensusEntry) :
    updateTotal t e = some
      { G := t.G + e.shares.G
        M := t.M + e.shares.M
        E := t.E + e.shares.E
        D := t.D + e.shares.D
        T := t.T + e.counted } := by
  obtain ⟨⟨hasBandwidth, bandwidthKb, hasGuardfraction, percentage⟩, isExit, isGuard, hfraction⟩ := e
  rw [updateTotal, updateTotalBandwidthWeights, ConsensusEntry.shares, ConsensusEntry.counted,
    ConsensusEntry.withFlag, ConsensusEntry.bandwidth]
  cases hasBandwidth with
  | false => simp
  | true =>
    cases hasGuardfraction with
    | true =>
      obtain ⟨rfl, hp⟩ := hfraction rfl
      simp only [not_true_eq_false, if_false, if_true,
        guardGetGuardfractionBandwidth_eq hp, Shares.of, and_true]
      cases isExit <;> simp
    | false => cases isExit <;> cases isGuard <;> simp [Shares.of]

/-- **A consensus** is added up, and no assertion fails. -/
theorem exists_reaches_updateTotal (entries : List ConsensusEntry) (t : Totals) :
    ∃ t', Reaches updateTotal t entries t' ∧ t'.G = t.G + (entries.map fun e => e.shares.G).sum
      ∧ t'.M = t.M + (entries.map fun e => e.shares.M).sum
      ∧ t'.E = t.E + (entries.map fun e => e.shares.E).sum
      ∧ t'.D = t.D + (entries.map fun e => e.shares.D).sum
      ∧ t'.T = t.T + (entries.map ConsensusEntry.counted).sum := by
  induction entries generalizing t with
  | nil => exact ⟨t, reaches_nil.mpr rfl, by simp⟩
  | cons e entries ih =>
    obtain ⟨t', hreaches, hG, hM, hE, hD, hT⟩ := ih ⟨t.G + e.shares.G, t.M + e.shares.M,
      t.E + e.shares.E, t.D + e.shares.D, t.T + e.counted⟩
    refine ⟨t', reaches_cons.mpr ⟨_, updateTotal_eq t e, hreaches⟩, ?_⟩
    simp only [map_cons, sum_cons]
    refine ⟨?_, ?_, ?_, ?_, ?_⟩ <;> linarith

/-! ## When the totals come out right -/

/-- The code counts a router as proposal 236 does: its bandwidth is an `int`, and what its
guardfraction leaves of it rounds to nothing. -/
def ConsensusEntry.Counted (e : ConsensusEntry) : Prop :=
  e.rs.hasBandwidth = true → e.rs.bandwidthKb.toNat < 2 ^ 31 ∧ (e.rs.hasGuardfraction = true →
      (100 - e.rs.guardfractionPercentage.toNat) * e.rs.bandwidthKb.toNat ≤ 50)

lemma Shares.total_of (isExit : Bool) (fB rest : ℤ) :
    (Shares.of isExit fB rest).G + (Shares.of isExit fB rest).M + (Shares.of isExit fB rest).E
      + (Shares.of isExit fB rest).D = fB + rest := by
  cases isExit <;> simp [Shares.of, add_comm]

lemma total_shares (e : ConsensusEntry) :
    e.shares.G + e.shares.M + e.shares.E + e.shares.D = e.counted + e.uncounted := by
  rw [ConsensusEntry.shares, ConsensusEntry.counted, ConsensusEntry.uncounted]
  cases hbw : e.rs.hasBandwidth with
  | false => simp
  | true =>
    cases hfraction : e.rs.hasGuardfraction <;> simp [Shares.total_of]

lemma SharesBy236.total {s : Shares} (h : SharesBy236 e s) : s.G + s.M + s.E + s.D = e.whole := by
  rw [SharesBy236] at h
  rw [ConsensusEntry.whole]
  split at h
  · next hbw =>
      obtain ⟨fB, -, rfl⟩ := h
      rw [if_pos hbw, Shares.total_of, add_sub_cancel]
  · next hbw =>
      rw [h, if_neg hbw]
      rfl

lemma sum_by236 {shares : List Shares} (h : List.Forall₂ SharesBy236 entries shares) :
    (shares.map Shares.G).sum + (shares.map Shares.M).sum + (shares.map Shares.E).sum
      + (shares.map Shares.D).sum = (entries.map ConsensusEntry.whole).sum := by
  induction h with
  | nil => rfl
  | cons hs _ ih =>
    have htotal := hs.total
    simp only [map_cons, sum_cons]
    linarith

lemma sum_shares (entries : List ConsensusEntry) :
    (entries.map fun e => e.shares.G).sum + (entries.map fun e => e.shares.M).sum
        + (entries.map fun e => e.shares.E).sum + (entries.map fun e => e.shares.D).sum
      = (entries.map ConsensusEntry.counted).sum + (entries.map ConsensusEntry.uncounted).sum := by
  induction entries with
  | nil => rfl
  | cons e entries ih =>
    have htotal := total_shares e
    simp only [map_cons, sum_cons]
    linarith

lemma bandwidth_eq (hlt : e.rs.bandwidthKb.toNat < 2 ^ 31) :
    e.bandwidth = e.rs.bandwidthKb.toNat := if_pos hlt

lemma bandwidth_lt (hge : ¬ e.rs.bandwidthKb.toNat < 2 ^ 31) :
    e.bandwidth < e.rs.bandwidthKb.toNat := by
  rw [ConsensusEntry.bandwidth, intOfUint32, if_neg hge]
  omega

/-- With every bandwidth an `int`, what the sum lacks is never negative, and it is nothing only
where a guardfraction leaves nothing. -/
lemma uncounted_spec (hlt : e.rs.hasBandwidth = true → e.rs.bandwidthKb.toNat < 2 ^ 31) :
    0 ≤ e.uncounted ∧ (e.uncounted = 0 ↔ e.Counted) := by
  rw [ConsensusEntry.uncounted, ConsensusEntry.Counted]
  split
  · next hboth =>
      obtain ⟨hbw, hfraction⟩ := hboth
      have hp := (e.guardfraction hfraction).2
      have hb := bandwidth_eq (hlt hbw)
      have hnonneg : 0 ≤ e.bandwidth := by omega
      have hlt' : e.bandwidth < 2 ^ 31 := intOfUint32_lt _
      have hle := guardBw_le hp hnonneg hlt'
      refine ⟨by omega, ?_⟩
      have hiff := guardBw_eq_iff hp hnonneg hlt'
      rw [sub_eq_zero, eq_comm, hiff, hb]
      constructor
      · intro hrest
        refine fun _ => ⟨hlt hbw, fun _ => ?_⟩
        zify [hp]
        exact hrest
      · intro hcounted
        have hrest := (hcounted hbw).2 hfraction
        zify [hp] at hrest
        exact hrest
  · next hnot =>
      refine ⟨le_rfl, fun _ hbw => ⟨hlt hbw, fun hfraction => absurd ⟨hbw, hfraction⟩ hnot⟩,
        fun _ => rfl⟩

lemma sharesBy236_shares (hlt : e.rs.hasBandwidth = true → e.rs.bandwidthKb.toNat < 2 ^ 31) :
    SharesBy236 e e.shares := by
  rw [SharesBy236, ConsensusEntry.shares]
  split
  · next hbw =>
      have hb := bandwidth_eq (hlt hbw)
      refine ⟨e.withFlag, ?_, by rw [hb]⟩
      rw [ConsensusEntry.withFlag, ConsensusEntry.percentage]
      split
      · next hfraction =>
          rw [← hb]
          refine abs_guardBw_sub_le (e.guardfraction hfraction).2 ?_
          exact (abs_intOfUint32_le _).trans (by norm_num)
      · split <;> simp [hb]
  · rfl

lemma totalsBy236_of_shares
    (hlt : ∀ e ∈ entries, e.rs.hasBandwidth = true → e.rs.bandwidthKb.toNat < 2 ^ 31) :
    List.Forall₂ SharesBy236 entries (entries.map ConsensusEntry.shares) := by
  induction entries with
  | nil => exact .nil
  | cons e entries ih =>
    exact .cons (sharesBy236_shares (hlt e mem_cons_self))
      (ih fun e he => hlt e (mem_cons_of_mem _ he))

/-- What is added of a bandwidth, to the sum or not, is no more than the whole of it, and less if
it is no `int`. -/
lemma counted_add_uncounted (e : ConsensusEntry) :
    e.counted + e.uncounted ≤ e.whole ∧ (e.counted + e.uncounted = e.whole →
        e.rs.hasBandwidth = true → e.rs.bandwidthKb.toNat < 2 ^ 31) := by
  have hsum : e.counted + e.uncounted = if e.rs.hasBandwidth then e.bandwidth else 0 := by
    rw [ConsensusEntry.counted, ConsensusEntry.uncounted]
    cases e.rs.hasBandwidth <;> cases e.rs.hasGuardfraction <;> simp
  rw [hsum, ConsensusEntry.whole]
  split
  · by_cases hlt : e.rs.bandwidthKb.toNat < 2 ^ 31
    · exact ⟨(bandwidth_eq hlt).le, fun _ _ => hlt⟩
    · have h := bandwidth_lt hlt
      exact ⟨h.le, fun heq => absurd heq h.ne⟩
  · next hbw => exact ⟨le_rfl, fun _ htrue => absurd htrue hbw⟩

lemma lt_of_sum_eq (hsum : (entries.map ConsensusEntry.counted).sum
      + (entries.map ConsensusEntry.uncounted).sum = (entries.map ConsensusEntry.whole).sum) :
    ∀ e ∈ entries, e.rs.hasBandwidth = true → e.rs.bandwidthKb.toNat < 2 ^ 31 := by
  have hle : ∀ entries : List ConsensusEntry, (entries.map ConsensusEntry.counted).sum
      + (entries.map ConsensusEntry.uncounted).sum ≤ (entries.map ConsensusEntry.whole).sum := by
    intro entries
    rw [← sum_map_add]
    exact sum_le_sum fun e _ => (counted_add_uncounted e).1
  induction entries with
  | nil => exact fun e he => absurd he not_mem_nil
  | cons e entries ih =>
    have hhead := counted_add_uncounted e
    have htail := hle entries
    simp only [map_cons, sum_cons] at hsum
    intro d hd
    rcases mem_cons.mp hd with rfl | hd
    · exact hhead.2 (by linarith)
    · exact ih (by linarith) d hd

/-- **The totals come out right**, their sum and the shares of proposal 236 in every class, exactly
when the code counts every router as the proposal does. -/
theorem totals_iff (entries : List ConsensusEntry) :
    (∃ t, Reaches updateTotal Totals.start entries t ∧ t.T = t.G + t.M + t.E + t.D
        ∧ TotalsBy236 entries t)
      ↔ ∀ e ∈ entries, e.Counted := by
  obtain ⟨t, hreaches, hG, hM, hE, hD, hT⟩ := exists_reaches_updateTotal entries Totals.start
  have hshares := sum_shares entries
  simp only [Totals.start] at hG hM hE hD hT
  constructor
  · rintro ⟨t', hreaches', hsum, shares, hby, hG', hM', hE', hD'⟩
    obtain rfl := hreaches.unique hreaches'
    have hwhole : (entries.map ConsensusEntry.counted).sum
        + (entries.map ConsensusEntry.uncounted).sum = (entries.map ConsensusEntry.whole).sum := by
      rw [← sum_by236 hby]
      linarith
    have hlt := lt_of_sum_eq hwhole
    have hzero : (entries.map ConsensusEntry.uncounted).sum = 0 := by linarith
    intro e he
    refine (uncounted_spec (hlt e he)).2.mp ?_
    refine all_zero_of_le_zero_le_of_sum_eq_zero (fun x hx => ?_) hzero
      (List.mem_map_of_mem he)
    obtain ⟨e, he, rfl⟩ := List.mem_map.mp hx
    exact (uncounted_spec (hlt e he)).1
  · intro hcounted
    have hlt : ∀ e ∈ entries, e.rs.hasBandwidth = true → e.rs.bandwidthKb.toNat < 2 ^ 31 :=
      fun e he hbw => (hcounted e he hbw).1
    have hzero : (entries.map ConsensusEntry.uncounted).sum = 0 := by
      refine sum_eq_zero fun x hx => ?_
      obtain ⟨e, he, rfl⟩ := List.mem_map.mp hx
      exact (uncounted_spec (hlt e he)).2.mpr (hcounted e he)
    refine ⟨t, hreaches, by linarith, entries.map ConsensusEntry.shares,
      totalsBy236_of_shares hlt, ?_⟩
    simp only [List.map_map]
    exact ⟨hG, hM, hE, hD⟩

/-- A guard of 1000 kB/s with the guardfraction 50. -/
def halfGuard : ConsensusEntry := ⟨⟨true, 1000, true, 50⟩, false, true, fun _ => ⟨rfl, by decide⟩⟩

/-- **Half of a guard** is missing from the sum. -/
theorem totals_fail : ¬ ∀ entries : List ConsensusEntry,
    ∃ t, Reaches updateTotal Totals.start entries t ∧ t.T = t.G + t.M + t.E + t.D
      ∧ TotalsBy236 entries t := by
  intro hall
  obtain ⟨t, hreaches, hsum, -⟩ := hall [halfGuard]
  have ht : Reaches updateTotal Totals.start [halfGuard] ⟨501, 501, 1, 1, 504⟩ := by
    rw [Reaches]
    decide +kernel
  obtain rfl := ht.unique hreaches
  exact absurd hsum (by decide)

/-! ## What the votes make of the totals -/

/-- The consensus lists the router. -/
def RouterVotes.isListed (v : RouterVotes) : Bool := v.isRunning && v.isValid

/-- It is listed as an exit that is not to be avoided. -/
def RouterVotes.countsAsExit (v : RouterVotes) : Bool := v.isExit && !v.isMiddleOnly && !v.isBadExit

/-- Most of those who measured the router say from `lo` to `hi`; if fewer than three did, it has no
more than the cap. -/
def RouterVotes.BandwidthIn (max : UInt32) (lo hi : ℕ) (v : RouterVotes) : Prop :=
  hi < 2 ^ 31 ∧ if 2 < v.measuredBwsKb.length then
      v.measuredBwsKb.length < 2 * v.measuredBwsKb.countP fun bw => lo ≤ bw.toNat ∧ bw.toNat ≤ hi
    else lo = 0 ∧ hi = max.toNat

lemma medianUint32_mem_Icc {l : List UInt32} {lo hi : ℕ}
    (h : l.length < 2 * l.countP fun x => lo ≤ x.toNat ∧ x.toNat ≤ hi) :
    lo ≤ (medianUint32 l).toNat ∧ (medianUint32 l).toNat ≤ hi := by
  have hperm := mergeSort_perm l (· ≤ ·)
  have hsorted : (l.mergeSort (· ≤ ·)).Pairwise fun x y => x.toNat ≤ y.toNat :=
    (pairwise_mergeSort (by simp [UInt32.le_iff_toNat_le]; omega)
      (by simp [UInt32.le_iff_toNat_le]; omega) l).imp
      fun hle => UInt32.le_iff_toNat_le.mp (of_decide_eq_true hle)
  rw [← hperm.countP_eq, ← hperm.length_eq] at h
  rw [medianUint32, ← hperm.length_eq]
  exact lowMedian_mem_Icc hsorted h 0

variable {n lo hi : ℕ} {max : UInt32} {v : RouterVotes}

lemma bandwidthKb_routerstatusOut (hn : 2 < n) (h : v.BandwidthIn max lo hi) :
    if (routerstatusOut n max v).hasBandwidth then
      lo ≤ (routerstatusOut n max v).bandwidthKb.toNat
        ∧ (routerstatusOut n max v).bandwidthKb.toNat ≤ hi
    else lo = 0 := by
  obtain ⟨-, h⟩ := h
  by_cases hmeasured : 2 < v.measuredBwsKb.length
  · rw [if_pos hmeasured] at h
    simpa [routerstatusOut, hmeasured] using medianUint32_mem_Icc h
  · rw [if_neg hmeasured] at h
    obtain ⟨rfl, rfl⟩ := h
    by_cases hvotes : 0 < v.bandwidthsKb.length
    · have hcap : (min (medianUint32 v.bandwidthsKb) max).toNat ≤ max.toNat := by
        change (if medianUint32 v.bandwidthsKb ≤ max then _ else _ : UInt32).toNat ≤ _
        split
        · next hle => exact UInt32.le_iff_toNat_le.mp hle
        · exact le_rfl
      simpa [routerstatusOut, hmeasured, hvotes, hn] using hcap
    · simp [routerstatusOut, hmeasured, hvotes]

lemma shares_of_exit {e : ConsensusEntry}
    (hlt : e.rs.hasBandwidth = true → e.rs.bandwidthKb.toNat < 2 ^ 31) :
    e.shares.E + e.shares.D = (if e.isExit then e.whole else 0)
      ∧ e.shares.G + e.shares.M = if e.isExit then 0 else e.whole := by
  rw [ConsensusEntry.shares, ConsensusEntry.whole]
  by_cases hbw : e.rs.hasBandwidth = true
  · rw [if_pos hbw, if_pos hbw, ← bandwidth_eq (hlt hbw)]
    cases e.isExit <;> simp [Shares.of]
  · simp [hbw]

lemma exists_consensusEntry (n : ℕ) (max : UInt32)
    (hpercent : ∀ p ∈ v.measuredGuardfraction, p.toNat ≤ 100) :
    ∃ e, consensusEntry n max v = some e ∧ e.rs = routerstatusOut n max v
      ∧ e.isExit = v.countsAsExit := by
  have hpercentage : (routerstatusOut n max v).hasGuardfraction = true →
      (routerstatusOut n max v).guardfractionPercentage.toNat ≤ 100 := by
    intro hfraction
    simp only [routerstatusOut, Bool.and_eq_true, decide_eq_true_eq] at hfraction ⊢
    rw [if_pos ⟨by simp [hfraction.1], hfraction.2⟩]
    refine (@medianUint32_mem_Icc _ 0 _ ?_).2
    rw [countP_eq_length.mpr fun p hp => by simpa using hpercent p hp]
    omega
  exact ⟨_, dif_pos hpercentage, rfl, rfl⟩

/-- **One router**: it is counted, with a bandwidth that its votes allow. -/
lemma computeConsensus_spec (hn : 2 < n) (h : v.BandwidthIn max lo hi)
    (hpercent : ∀ p ∈ v.measuredGuardfraction, p.toNat ≤ 100) (t : Totals) :
    ∃ t' bw, computeConsensus n max t v = some t' ∧ (v.isListed = true → lo ≤ bw ∧ bw ≤ hi)
      ∧ t'.E + t'.D = t.E + t.D + (if v.isListed && v.countsAsExit then bw else 0 : ℕ)
      ∧ t'.G + t'.M = t.G + t.M + (if v.isListed && !v.countsAsExit then bw else 0 : ℕ) := by
  by_cases hlisted : v.isListed = true
  · obtain ⟨hrunning, hvalid⟩ := Bool.and_eq_true_iff.mp hlisted
    obtain ⟨e, hentry, hrs, hexit⟩ := exists_consensusEntry n max hpercent
    have hbw := bandwidthKb_routerstatusOut hn h
    rw [← hrs] at hbw
    have hshares := shares_of_exit (e := e) fun hhas => by
      rw [if_pos hhas] at hbw
      exact hbw.2.trans_lt h.1
    have hstep : computeConsensus n max t v = updateTotal t e := by
      rw [computeConsensus, if_neg (not_not.mpr hrunning), if_neg (not_not.mpr hvalid), hentry]
      rfl
    refine ⟨_, if e.rs.hasBandwidth then e.rs.bandwidthKb.toNat else 0,
      hstep.trans (updateTotal_eq t e), fun _ => ?_, ?_⟩
    · split_ifs at hbw ⊢ <;> omega
    · rw [hlisted, ← hexit]
      rw [ConsensusEntry.whole] at hshares
      cases hisExit : e.isExit <;> cases hhas : e.rs.hasBandwidth <;>
        simp [hisExit, hhas] at hshares ⊢ <;> omega
  · refine ⟨t, 0, ?_, fun h => absurd h hlisted, ?_⟩
    · rw [computeConsensus]
      by_cases hrunning : v.isRunning = true
      · rw [if_neg (not_not.mpr hrunning),
          if_pos fun hvalid => hlisted (by simp [RouterVotes.isListed, *])]
      · rw [if_pos hrunning]
    · simp [hlisted]

/-- The sum over the routers of one kind that are listed. -/
def sumListed (kind : RouterVotes → Bool) (f : RouterVotes → ℕ) (votes : List RouterVotes) : ℕ :=
  ((votes.filter fun v => v.isListed && kind v).map f).sum

lemma sumListed_cons (kind : RouterVotes → Bool) (f : RouterVotes → ℕ) (votes : List RouterVotes) :
    sumListed kind f (v :: votes)
      = (if v.isListed && kind v then f v else 0) + sumListed kind f votes := by
  rw [sumListed, filter_cons]
  split
  · rfl
  · exact (Nat.zero_add _).symm

/-- **The totals are what the votes say**: if three authorities measure, the bandwidth of the exits,
and that of the other routers that are listed, is within what most of those who measured each router
say, and within the cap for the rest. -/
theorem exists_reaches_computeConsensus (hn : 2 < n) (votes : List RouterVotes)
    (lo hi : RouterVotes → ℕ)
    (hvotes : ∀ v ∈ votes, v.BandwidthIn max (lo v) (hi v)
      ∧ ∀ p ∈ v.measuredGuardfraction, p.toNat ≤ 100) (t : Totals) :
    ∃ t', Reaches (computeConsensus n max) t votes t'
      ∧ t.E + t.D + sumListed RouterVotes.countsAsExit lo votes ≤ t'.E + t'.D
      ∧ t'.E + t'.D ≤ t.E + t.D + sumListed RouterVotes.countsAsExit hi votes
      ∧ t.G + t.M + sumListed (!·.countsAsExit) lo votes ≤ t'.G + t'.M
      ∧ t'.G + t'.M ≤ t.G + t.M + sumListed (!·.countsAsExit) hi votes := by
  induction votes generalizing t with
  | nil => exact ⟨t, reaches_nil.mpr rfl, by simp [sumListed]⟩
  | cons v votes ih =>
    obtain ⟨⟨hin, hpercent⟩, hvotes⟩ := forall_mem_cons.mp hvotes
    obtain ⟨u, bw, hstep, hbw, hexits, hothers⟩ := computeConsensus_spec hn hin hpercent t
    obtain ⟨t', hreaches, hrest⟩ := ih hvotes u
    refine ⟨t', reaches_cons.mpr ⟨u, hstep, hreaches⟩, ?_⟩
    simp only [sumListed_cons]
    cases hlisted : v.isListed <;> cases hexit : v.countsAsExit <;>
      simp [hlisted, hexit] at hbw hexits hothers ⊢ <;> omega

/-- An exit that three authorities measured, and a guard that none did. -/
def measuredExit : RouterVotes :=
  ⟨true, true, true, false, false, false, [], [100, 900, 200], [700]⟩
def unmeasuredGuard : RouterVotes :=
  ⟨true, true, false, true, false, false, [40, 90, 50], [], [5000, 6000, 7000]⟩

/-- One authority measured nine times too much, and the guard is capped. -/
theorem exists_reaches_computeConsensus_capped :
    ∃ t, Reaches (computeConsensus 3 20) Totals.start [measuredExit, unmeasuredGuard] t
      ∧ 102 ≤ t.E + t.D ∧ t.E + t.D ≤ 202 ∧ 2 ≤ t.G + t.M ∧ t.G + t.M ≤ 22 :=
  exists_reaches_computeConsensus (by decide) [measuredExit, unmeasuredGuard]
    (fun v => if v.isExit then 100 else 0) (fun v => if v.isExit then 200 else 20)
    (by simp [RouterVotes.BandwidthIn, measuredExit, unmeasuredGuard]) Totals.start

/-! ## Overflow -/

lemma abs_sum_map_le (f : ConsensusEntry → ℤ) (hf : ∀ e, |f e| ≤ 2 ^ 31)
    (entries : List ConsensusEntry) : |(entries.map f).sum| ≤ entries.length * 2 ^ 31 := by
  induction entries with
  | nil => simp
  | cons e entries ih =>
    rw [map_cons, sum_cons, length_cons]
    have hadd := abs_add_le (f e) (entries.map f).sum
    have he := hf e
    push_cast
    linarith

lemma abs_guardBw_le (hp : p.toNat ≤ 100) (hb : |b| ≤ 2 ^ 31) :
    |guardBw b p| ≤ 2 ^ 31 ∧ |b - guardBw b p| ≤ 2 ^ 31 := by
  have hnear := abs_le.mp (abs_guardBw_sub_le hp (hb.trans (by norm_num)))
  have hp' : (p.toNat : ℤ) ≤ 100 := by exact_mod_cast hp
  have hp₀ : (0 : ℤ) ≤ p.toNat := by positivity
  have hmul : |(p.toNat : ℤ) * b| ≤ 100 * 2 ^ 31 := by
    rw [abs_mul, abs_of_nonneg hp₀]
    exact mul_le_mul hp' hb (abs_nonneg b) (by norm_num)
  have hrest : |(100 - (p.toNat : ℤ)) * b| ≤ 100 * 2 ^ 31 := by
    rw [abs_mul, abs_of_nonneg (by omega)]
    exact mul_le_mul (by omega) hb (abs_nonneg b) (by norm_num)
  rw [abs_le] at hmul hrest
  rw [sub_mul] at hrest
  constructor <;> rw [abs_le] <;> constructor <;> omega

lemma abs_bandwidth_le (e : ConsensusEntry) : |e.bandwidth| ≤ 2 ^ 31 := abs_intOfUint32_le _

lemma abs_counted_le (e : ConsensusEntry) : |e.counted| ≤ 2 ^ 31 := by
  have hb := abs_bandwidth_le e
  rw [ConsensusEntry.counted]
  split
  · split
    · next hfraction => exact (abs_guardBw_le (e.guardfraction hfraction).2 hb).1
    · exact hb
  · norm_num

lemma abs_shares_le (e : ConsensusEntry) :
    |e.shares.G| ≤ 2 ^ 31 ∧ |e.shares.M| ≤ 2 ^ 31 ∧ |e.shares.E| ≤ 2 ^ 31
      ∧ |e.shares.D| ≤ 2 ^ 31 := by
  have hb := abs_bandwidth_le e
  have hparts : |e.withFlag| ≤ 2 ^ 31 ∧ |e.bandwidth - e.withFlag| ≤ 2 ^ 31 := by
    rw [ConsensusEntry.withFlag]
    split
    · next hfraction => exact abs_guardBw_le (e.guardfraction hfraction).2 hb
    · split <;> simpa using hb
  rw [ConsensusEntry.shares, Shares.of]
  split
  · split
    · simpa [and_comm] using hparts
    · simpa using hparts
  · simp

/-- The totals over as many routers as a `smartlist_t` holds fit in an `int64_t`. -/
theorem totals_lt (hlen : entries.length < 2 ^ 31) (h : Reaches updateTotal Totals.start entries t) :
    |t.G| < 2 ^ 63 ∧ |t.M| < 2 ^ 63 ∧ |t.E| < 2 ^ 63 ∧ |t.D| < 2 ^ 63 ∧ |t.T| < 2 ^ 63 := by
  obtain ⟨t', hreaches, hG, hM, hE, hD, hT⟩ := exists_reaches_updateTotal entries Totals.start
  obtain rfl := h.unique hreaches
  have hbound (f : ConsensusEntry → ℤ) (hf : ∀ e, |f e| ≤ 2 ^ 31) {x c : ℤ} (hc : 0 ≤ c ∧ c ≤ 4)
      (hx : x = c + (entries.map f).sum) : |x| < 2 ^ 63 := by
    have hsum := abs_le.mp (abs_sum_map_le f hf entries)
    rw [hx, abs_lt]
    constructor <;> nlinarith
  refine ⟨hbound _ (fun e => (abs_shares_le e).1) (by decide) hG,
    hbound _ (fun e => (abs_shares_le e).2.1) (by decide) hM,
    hbound _ (fun e => (abs_shares_le e).2.2.1) (by decide) hE,
    hbound _ (fun e => (abs_shares_le e).2.2.2) (by decide) hD,
    hbound _ abs_counted_le (by decide) hT⟩

theorem totals_lt_halfGuard :
    ∃ t, Reaches updateTotal Totals.start [halfGuard] t ∧ |t.T| < 2 ^ 63 := by
  have hreaches : Reaches updateTotal Totals.start [halfGuard] ⟨501, 501, 1, 1, 504⟩ := by
    rw [Reaches]
    decide +kernel
  exact ⟨_, hreaches, (totals_lt (by decide) hreaches).2.2.2.2⟩

end Ator.Dirauth
