import Mathlib.Tactic.Ring

/-!
# Expected bandwidth and wake-up time

At the start of an accounting interval the bandwidth of the last one is taken as what to expect,
in bytes per minute, and a time to wake up is chosen so that the quota lasts until the end of the
interval.

* `rightEstimate_iff` — the estimate is the rate that was measured exactly where the soft limit was
  not what ended the measurement, up to extreme amounts.
-/

namespace Ator.Hibernate

inductive AccountingRule where
  | sum
  | max
  | in
  | out
deriving DecidableEq

/-- The options that accounting reads. -/
structure Options where
  accountingMax : UInt64
  accountingRule : AccountingRule
  relayBandwidthRate : UInt64
  bandwidthRate : UInt64

/-- The static variables of the accounting, for an interval that lasts from its start to its end and
in which no more seconds were active than there were. -/
structure Accounting where
  bytesReadInInterval : UInt64
  bytesWrittenInInterval : UInt64
  secondsActiveInInterval : UInt32
  secondsToHitSoftLimit : ℕ
  softLimitHitAt : ℤ
  bytesAtSoftLimit : UInt64
  intervalStartTime : ℤ
  intervalEndTime : ℤ
  intervalWakeupTime : ℤ
  expectedBandwidthUsage : UInt64
  start_lt_end : intervalStartTime < intervalEndTime
  length_lt : intervalEndTime - intervalStartTime < 2 ^ 31
  active_le : intervalStartTime < softLimitHitAt →
    secondsToHitSoftLimit ≤ softLimitHitAt - intervalStartTime

def getAccountingBytes (options : Options) (acct : Accounting) : UInt64 :=
  match options.accountingRule with
  | .sum => acct.bytesReadInInterval + acct.bytesWrittenInInterval
  | .in => acct.bytesReadInInterval
  | .out => acct.bytesWrittenInInterval
  | .max => max acct.bytesReadInInterval acct.bytesWrittenInInterval

def minTimeForMeasurement : ℕ := 1800

/-- `max_configured`, in bytes per minute -/
def maxConfigured (options : Options) : UInt64 :=
  let maxConfigured := (if options.relayBandwidthRate > 0 then options.relayBandwidthRate
    else options.bandwidthRate) * 60
  if options.accountingRule = .sum then maxConfigured * 2 else maxConfigured

/-- The soft limit ended the measurement of the last interval. -/
def SoftLimitMeasured (acct : Accounting) : Prop :=
  acct.softLimitHitAt > acct.intervalStartTime ∧ acct.bytesAtSoftLimit ≠ 0
    ∧ acct.softLimitHitAt - acct.intervalStartTime > minTimeForMeasurement

instance (acct : Accounting) : Decidable (SoftLimitMeasured acct) :=
  inferInstanceAs (Decidable (_ ∧ _ ∧ _))

def updateExpectedBandwidth (options : Options) (acct : Accounting) : Accounting :=
  let expected : ℕ :=
    if SoftLimitMeasured acct then
      acct.bytesAtSoftLimit.toNat / (acct.softLimitHitAt - acct.intervalStartTime).toNat / 60
    else if acct.secondsActiveInInterval.toNat ≥ minTimeForMeasurement then
      (getAccountingBytes options acct).toNat / (acct.secondsActiveInInterval.toNat / 60)
    else 0
  let expected := if expected > (maxConfigured options).toNat then (maxConfigured options).toNat
    else expected
  { acct with expectedBandwidthUsage := .ofNat expected }

def accountingGetIntervalLength (acct : Accounting) : ℤ :=
  acct.intervalEndTime - acct.intervalStartTime

/-- `accounting_set_wakeup_time`, with the first 32 bits of the digest of the interval's start and
the identity key -/
def accountingSetWakeupTime (options : Options) (digest : UInt32) (acct : Accounting) :
    Accounting :=
  if acct.expectedBandwidthUsage = 0 then
    { acct with intervalWakeupTime := acct.intervalStartTime }
  else
    let timeToExhaustBw := options.accountingMax / acct.expectedBandwidthUsage * 60
    let timeToConsider : ℤ :=
      if timeToExhaustBw.toNat > 2 ^ 31 - 1 then 0
      else accountingGetIntervalLength acct - timeToExhaustBw.toNat
    if timeToConsider ≤ 0 then { acct with intervalWakeupTime := acct.intervalStartTime }
    else { acct with
      intervalWakeupTime := acct.intervalStartTime + digest.toNat % timeToConsider }

/-! ## The estimate -/

/-- So many bytes a minute are the rate of these bytes over these seconds, in whole minutes rounded
up or down. -/
def PerMinute (bytes seconds rate : ℕ) : Prop :=
  rate * (seconds / 60) ≤ bytes ∧ bytes < (rate + 1) * (seconds / 60 + 1)

/-- The estimate is the rate, or what is configured if that is less. -/
def EstimatesRate (options : Options) (acct : Accounting) (bytes seconds : ℕ) : Prop :=
  ∃ rate, PerMinute bytes seconds rate
    ∧ (updateExpectedBandwidth options acct).expectedBandwidthUsage.toNat
      = min rate (maxConfigured options).toNat

/-- Whichever measurement there is, the estimate is its bytes per minute. -/
structure RightEstimate (options : Options) (acct : Accounting) : Prop where
  soft_limit : SoftLimitMeasured acct →
    EstimatesRate options acct acct.bytesAtSoftLimit.toNat acct.secondsToHitSoftLimit
  whole : ¬ SoftLimitMeasured acct → minTimeForMeasurement ≤ acct.secondsActiveInInterval.toNat →
      EstimatesRate options acct (getAccountingBytes options acct).toNat
        acct.secondsActiveInInterval.toNat

/-- If the soft limit ended the measurement, fewer bytes than minutes were used, or at least 3600
times what is configured. -/
def SoftLimitExtreme (options : Options) (acct : Accounting) : Prop :=
  SoftLimitMeasured acct → acct.bytesAtSoftLimit.toNat ≤ acct.secondsToHitSoftLimit / 60
      ∨ (maxConfigured options).toNat * (60 * (acct.softLimitHitAt - acct.intervalStartTime).toNat)
        ≤ acct.bytesAtSoftLimit.toNat

variable {options : Options} {acct : Accounting} {digest : UInt32} {bytes seconds rate : ℕ}

lemma toNat_expected (options : Options) (acct : Accounting) :
    (updateExpectedBandwidth options acct).expectedBandwidthUsage.toNat = min
        (if SoftLimitMeasured acct then
          acct.bytesAtSoftLimit.toNat / (acct.softLimitHitAt - acct.intervalStartTime).toNat / 60
        else if acct.secondsActiveInInterval.toNat ≥ minTimeForMeasurement then
          (getAccountingBytes options acct).toNat / (acct.secondsActiveInInterval.toNat / 60)
        else 0)
        (maxConfigured options).toNat := by
  have hlt := (maxConfigured options).toNat_lt
  simp only [updateExpectedBandwidth, UInt64.toNat_ofNat']
  generalize (if SoftLimitMeasured acct then _ else _) = expected
  split_ifs with habove
  · rw [Nat.mod_eq_of_lt hlt, Nat.min_eq_right habove.le]
  · rw [Nat.mod_eq_of_lt (by omega), Nat.min_eq_left (by omega)]

/-- The measurement of a whole interval is right. -/
lemma estimatesRate_whole (hnot : ¬ SoftLimitMeasured acct)
    (hmeasured : minTimeForMeasurement ≤ acct.secondsActiveInInterval.toNat) :
    EstimatesRate options acct (getAccountingBytes options acct).toNat
      acct.secondsActiveInInterval.toNat := by
  refine ⟨(getAccountingBytes options acct).toNat / (acct.secondsActiveInInterval.toNat / 60),
    ⟨Nat.div_mul_le_self _ _, ?_⟩, ?_⟩
  · have hminutes : 0 < acct.secondsActiveInInterval.toNat / 60 := by
      rw [minTimeForMeasurement] at hmeasured
      omega
    refine (Nat.lt_div_mul_add hminutes).trans_le ?_
    rw [← Nat.succ_mul]
    exact Nat.mul_le_mul_left _ (Nat.le_succ _)
  · rw [toNat_expected, if_neg hnot, if_pos hmeasured]

/-- The measurement up to the soft limit is divided by 60 where it should be multiplied. -/
lemma estimatesRate_softLimit (hmeasured : SoftLimitMeasured acct) :
    EstimatesRate options acct acct.bytesAtSoftLimit.toNat acct.secondsToHitSoftLimit
      ↔ acct.bytesAtSoftLimit.toNat ≤ acct.secondsToHitSoftLimit / 60
        ∨ (maxConfigured options).toNat
            * (60 * (acct.softLimitHitAt - acct.intervalStartTime).toNat)
          ≤ acct.bytesAtSoftLimit.toNat := by
  have hactive := acct.active_le hmeasured.1
  have helapsed := hmeasured.2.2
  simp only [EstimatesRate, PerMinute]
  rw [toNat_expected, if_pos hmeasured, Nat.div_div_eq_div_mul]
  generalize hn : acct.bytesAtSoftLimit.toNat = n
  generalize hw : (acct.softLimitHitAt - acct.intervalStartTime).toNat = w
  generalize hM : (maxConfigured options).toNat = M
  generalize hs : acct.secondsToHitSoftLimit / 60 = a
  have hle : a + 1 ≤ 30 * w := by
    rw [minTimeForMeasurement] at helapsed
    omega
  have hwpos : 0 < w * 60 := by omega
  constructor
  · rintro ⟨rate, ⟨-, hhigh⟩, heq⟩
    by_contra hnot
    obtain ⟨hmore, hless⟩ := not_or.mp hnot
    have hlt : n / (w * 60) < M := by
      rw [Nat.div_lt_iff_lt_mul hwpos, Nat.mul_comm w]
      exact Nat.lt_of_not_le hless
    have hrate : rate = n / (w * 60) := by omega
    have hpos : 0 < rate := by
      by_contra hzero
      obtain rfl : rate = 0 := by omega
      omega
    -- more than half of what the minutes would make of the same rate
    have hbytes : rate * (w * 60) ≤ n := hrate ▸ Nat.div_mul_le_self _ _
    have hdouble : (rate + 1) * (a + 1) ≤ rate * 2 * (30 * w) := Nat.mul_le_mul (by omega) hle
    have hsame : rate * 2 * (30 * w) = rate * (w * 60) := by ring
    omega
  · rintro (hfew | hmany)
    · refine ⟨0, ⟨by omega, by omega⟩, ?_⟩
      rw [Nat.div_eq_of_lt (by omega)]
    · have hcap : M ≤ n / (w * 60) := by
        rw [Nat.le_div_iff_mul_le hwpos, Nat.mul_comm w]
        exact hmany
      have hrate : M ≤ n / (a + 1) := hcap.trans (Nat.div_le_div_left (by omega) a.succ_pos)
      refine ⟨n / (a + 1), ⟨?_, ?_⟩, by omega⟩
      · exact (Nat.mul_le_mul_left _ a.le_succ).trans (Nat.div_mul_le_self _ _)
      · rw [Nat.add_mul, Nat.one_mul]
        exact Nat.lt_div_mul_add a.succ_pos

/-- **The estimate is right** exactly where the soft limit did not end the measurement, or the
amounts are extreme. -/
lemma rightEstimate_iff : RightEstimate options acct ↔ SoftLimitExtreme options acct := by
  constructor
  · intro hright hmeasured
    exact (estimatesRate_softLimit hmeasured).mp (hright.soft_limit hmeasured)
  · intro hextreme
    exact ⟨fun hmeasured => (estimatesRate_softLimit hmeasured).mpr (hextreme hmeasured),
      estimatesRate_whole⟩

/-! ## The wake-up time -/

/-- The wake-up time is in the interval, and the quota lasts no longer than the interval from it on,
in whole minutes; where it lasts longer, the wake-up time is the start. -/
structure RightWakeup (options : Options) (acct : Accounting) (digest : UInt32) : Prop where
  start_le : acct.intervalStartTime ≤ (accountingSetWakeupTime options digest acct).intervalWakeupTime
  lt_end : (accountingSetWakeupTime options digest acct).intervalWakeupTime < acct.intervalEndTime
  fits : (accountingSetWakeupTime options digest acct).intervalWakeupTime = acct.intervalStartTime
    ∨ (accountingSetWakeupTime options digest acct).intervalWakeupTime
        + 60 * (options.accountingMax.toNat / acct.expectedBandwidthUsage.toNat)
      ≤ acct.intervalEndTime

/-- The seconds for which the quota lasts, and what is left of them in 64 bits. -/
def secondsToExhaust (options : Options) (acct : Accounting) : ℕ :=
  60 * (options.accountingMax.toNat / acct.expectedBandwidthUsage.toNat)

/-- The seconds for which the quota lasts do not wrap around, or not to less than the interval, or
the digest happens to choose the start. -/
def NoWrap (options : Options) (acct : Accounting) (digest : UInt32) : Prop :=
  acct.expectedBandwidthUsage ≠ 0 → secondsToExhaust options acct < 2 ^ 64
      ∨ accountingGetIntervalLength acct ≤ (secondsToExhaust options acct % 2 ^ 64 : ℕ)
      ∨ digest.toNat % (accountingGetIntervalLength acct
          - (secondsToExhaust options acct % 2 ^ 64 : ℕ)) = 0

lemma rightWakeup_of_start
    (h : (accountingSetWakeupTime options digest acct).intervalWakeupTime
      = acct.intervalStartTime) : RightWakeup options acct digest := by
  refine ⟨h.ge, ?_, .inl h⟩
  rw [h]
  exact acct.start_lt_end

/-- **The wake-up time is right** exactly where the seconds do not wrap around. -/
lemma rightWakeup_iff : RightWakeup options acct digest ↔ NoWrap options acct digest := by
  by_cases hzero : acct.expectedBandwidthUsage = 0
  · refine iff_of_true (rightWakeup_of_start ?_) fun hne => absurd hzero hne
    rw [accountingSetWakeupTime, if_pos hzero]
  have hexhaust : (options.accountingMax / acct.expectedBandwidthUsage * 60).toNat
      = secondsToExhaust options acct % 2 ^ 64 := by
    rw [UInt64.toNat_mul, UInt64.toNat_div, secondsToExhaust, Nat.mul_comm]
    rfl
  have hlength : accountingGetIntervalLength acct < 2 ^ 31 := acct.length_lt
  rcases lt_or_ge ((secondsToExhaust options acct % 2 ^ 64 : ℕ) : ℤ)
    (accountingGetIntervalLength acct) with hshort | hlong
  · have hwakeup : (accountingSetWakeupTime options digest acct).intervalWakeupTime
        = acct.intervalStartTime + digest.toNat % (accountingGetIntervalLength acct
          - (secondsToExhaust options acct % 2 ^ 64 : ℕ)) := by
      simp only [accountingSetWakeupTime, if_neg hzero, hexhaust]
      rw [if_neg (by omega), if_neg (by omega)]
    have hnonneg := Int.emod_nonneg digest.toNat (show accountingGetIntervalLength acct
      - (secondsToExhaust options acct % 2 ^ 64 : ℕ) ≠ 0 by omega)
    have hlt := Int.emod_lt_of_pos digest.toNat (show 0 < accountingGetIntervalLength acct
      - (secondsToExhaust options acct % 2 ^ 64 : ℕ) by omega)
    have hend : acct.intervalEndTime
        = acct.intervalStartTime + accountingGetIntervalLength acct := by
      rw [accountingGetIntervalLength]
      omega
    constructor
    · rintro ⟨-, -, hfits⟩ -
      rw [hwakeup] at hfits
      rcases hfits with hstart | hfits
      · exact .inr (.inr (by omega))
      · refine .inl ?_
        rw [secondsToExhaust]
        omega
    · intro hno
      refine ⟨by omega, by omega, ?_⟩
      rw [hwakeup]
      rcases hno hzero with hsmall | hlarge | hstart
      · rw [Nat.mod_eq_of_lt hsmall] at hlt ⊢
        refine .inr ?_
        rw [secondsToExhaust] at hlt ⊢
        omega
      · omega
      · exact .inl (by omega)
  · refine iff_of_true (rightWakeup_of_start ?_) fun _ => .inr (.inl hlong)
    simp only [accountingSetWakeupTime, if_neg hzero, hexhaust]
    split_ifs <;> first | rfl | omega

/-- **Accounting is right**, in the estimate from the interval that ended and in the wake-up time of
the next one, exactly where neither a soft limit nor a wrap-around spoils it. -/
theorem accountingRight_iff (options : Options) (acct next : Accounting) (digest : UInt32) :
    RightEstimate options acct ∧ RightWakeup options next digest
      ↔ SoftLimitExtreme options acct ∧ NoWrap options next digest :=
  and_congr rightEstimate_iff rightWakeup_iff

/-- A relay of one megabyte per second with a quota. -/
def megabyte (accountingMax : UInt64) : Options where
  accountingMax
  accountingRule := .max
  relayBandwidthRate := 0
  bandwidthRate := 1000000

/-- A day in which a megabyte per second was used for an hour, up to the soft limit. -/
def fullHour (expectedBandwidthUsage : UInt64) : Accounting where
  bytesReadInInterval := 3600000000
  bytesWrittenInInterval := 3600000000
  secondsActiveInInterval := 3600
  secondsToHitSoftLimit := 3600
  softLimitHitAt := 3600
  bytesAtSoftLimit := 3600000000
  intervalStartTime := 0
  intervalEndTime := 86400
  intervalWakeupTime := 0
  expectedBandwidthUsage
  start_lt_end := by decide
  length_lt := by decide
  active_le := by decide

/-- An hour of 60 megabytes per minute is taken for 16666 bytes per minute; and with an estimate of
one byte per minute, a quota that lasts for ages is taken for one of 44 seconds. -/
theorem not_accountingRight_softLimit :
    ¬ RightEstimate (megabyte 3700000000) (fullHour 0)
      ∧ ¬ RightWakeup (megabyte 307445734561825861) (fullHour 1) 1 := by
  constructor
  · intro h
    obtain ⟨rate, ⟨-, hhigh⟩, heq⟩ := h.soft_limit (by decide)
    have hexpected : (updateExpectedBandwidth (megabyte 3700000000)
        (fullHour 0)).expectedBandwidthUsage.toNat = 16666 := by decide
    have hconfigured : (maxConfigured (megabyte 3700000000)).toNat = 60000000 := by decide
    rw [hexpected, hconfigured] at heq
    obtain rfl : rate = 16666 := by omega
    exact absurd hhigh (by decide)
  · intro h
    rcases h.fits with hstart | hfits
    · exact absurd hstart (by decide)
    · exact absurd hfits (by decide)

end Ator.Hibernate
