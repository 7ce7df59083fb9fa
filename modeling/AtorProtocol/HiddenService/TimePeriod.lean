import AtorProtocol.FlowControl.Congestion
import AtorProtocol.SharedRandom.State

/-!
# Time periods of onion services

`src/feature/hs/hs_common.c`, with the durations of the shared-random protocol that come from the
voting interval.

* `hsGetTimePeriodNum` — the number of the period of a time, in minutes.
* `hsGetStartTimeOfNextTimePeriod` — where the next period starts, in seconds.
* `startsNextPeriod_iff` — when the two describe the same periods.
-/

namespace Ator.HiddenService

open Congestion SharedRandom Option

/-- What the time periods depend on.  `validAfter` is that of a reasonably live consensus. -/
structure Network where
  votingInterval : ℕ
  votingInterval_pos : 0 < votingInterval
  votingInterval_lt : votingInterval < 2 ^ 31
  testingTorNetwork : Bool
  params : Congestion.Consensus
  validAfter : Option ℤ
  approxTime : ℤ

/-- `sr_state_get_phase_duration`, an `unsigned int` -/
def srStateGetPhaseDuration (net : Network) : ℕ := sharedRandomNRounds * net.votingInterval % 2 ^ 32

def srStateGetProtocolRunDuration (net : Network) : ℕ :=
  sharedRandomNRounds * sharedRandomNPhases * net.votingInterval % 2 ^ 32

/-- `get_time_period_length`, in minutes -/
def getTimePeriodLength (net : Network) : ℕ :=
  if net.testingTorNetwork then srStateGetProtocolRunDuration net / 60
  else (networkstatusGetParam net.params "hsdir_interval" 1440 30 (60 * 24 * 10)).toNat

/-- The offset of the periods, in whole minutes. -/
def rotationOffset (net : Network) : ℕ := srStateGetPhaseDuration net / 60

/-- `hs_get_time_period_num`; `none` is a failed assertion, or a division by zero. -/
def hsGetTimePeriodNum (net : Network) (now : ℤ) : Option ℕ :=
  let currentTime := if now ≠ 0 then now else net.validAfter.getD net.approxTime
  let minutesSinceEpoch := (currentTime.tdiv 60 % 2 ^ 64).toNat
  if minutesSinceEpoch > rotationOffset net then
    if getTimePeriodLength net = 0 then none
    else some ((minutesSinceEpoch - rotationOffset net) / getTimePeriodLength net)
  else none

def hsGetNextTimePeriodNum (net : Network) (now : ℤ) : Option ℕ :=
  (hsGetTimePeriodNum net now).map fun num => (num + 1) % 2 ^ 64

def hsGetStartTimeOfNextTimePeriod (net : Network) (now : ℤ) : Option ℤ :=
  (hsGetNextTimePeriodNum net now).map fun nextTimePeriodNum =>
    let startOfNextTpInMins := nextTimePeriodNum * getTimePeriodLength net % 2 ^ 64
    Int.bmod ((startOfNextTpInMins * 60 + srStateGetPhaseDuration net : ℕ)) (2 ^ 64)

/-! ## Periods as parts of time -/

/-- The greatest `time_t`. -/
def timeMax : ℕ := 2 ^ 63 - 1

/-- A `time_t` that is set. -/
def IsTime (t : ℤ) : Prop := -2 ^ 63 ≤ t ∧ t ≤ timeMax ∧ t ≠ 0

/-- The start of the next period is the first time that has the next number. -/
def StartsNextPeriod (net : Network) (t : ℤ) : Prop :=
  ∃ num start, hsGetTimePeriodNum net t = some num
    ∧ hsGetStartTimeOfNextTimePeriod net t = some start
    ∧ IsLeast {t' | IsTime t' ∧ hsGetTimePeriodNum net t' = some (num + 1)} start

/-- The phase is a whole number of minutes, periods are not empty, and the time is neither in the
minute of the first rotation nor in the last period of `time_t`. -/
structure PeriodsMeet (net : Network) (t : ℤ) : Prop where
  wholeMinutes : 60 ∣ srStateGetPhaseDuration net
  length_pos : 0 < getTimePeriodLength net
  after_first : rotationOffset net < t.toNat / 60
  not_last : (t.toNat / 60 - rotationOffset net) / getTimePeriodLength net
    < (timeMax / 60 - rotationOffset net) / getTimePeriodLength net

variable {net : Network} {t : ℤ} {num : ℕ}

lemma srStateGetPhaseDuration_lt (net : Network) : srStateGetPhaseDuration net < 2 ^ 32 :=
  Nat.mod_lt _ (by omega)

lemma getTimePeriodLength_lt (net : Network) : getTimePeriodLength net < 2 ^ 32 := by
  rw [getTimePeriodLength]
  split_ifs
  · exact (Nat.div_le_self _ 60).trans_lt (Nat.mod_lt _ (by omega))
  · rw [networkstatusGetParam]
    split_ifs <;> omega

lemma hsGetTimePeriodNum_pos (hpos : 0 < t) (hmax : t ≤ timeMax) :
    hsGetTimePeriodNum net t = some num
      ↔ rotationOffset net < t.toNat / 60 ∧ 0 < getTimePeriodLength net
        ∧ (t.toNat / 60 - rotationOffset net) / getTimePeriodLength net = num := by
  have hminutes : (t.tdiv 60 % 2 ^ 64).toNat = t.toNat / 60 := by
    rw [timeMax] at hmax
    rw [Int.tdiv_eq_ediv_of_nonneg hpos.le]
    omega
  rw [hsGetTimePeriodNum]
  simp only [if_pos hpos.ne', hminutes]
  split_ifs with hafter hzero
  · simp [hzero]
  · have := Nat.pos_of_ne_zero hzero
    rw [Option.some_inj]
    tauto
  · simp only [false_iff]
    tauto

lemma hsGetTimePeriodNum_neg (hneg : t < 0) (hmin : -2 ^ 63 ≤ t)
    (hnum : (num - 1) * getTimePeriodLength net ≤ timeMax / 60) :
    hsGetTimePeriodNum net t ≠ some num := by
  intro h
  have hlength := getTimePeriodLength_lt net
  have hphase := srStateGetPhaseDuration_lt net
  have hoffset : rotationOffset net = srStateGetPhaseDuration net / 60 := rfl
  rw [hsGetTimePeriodNum] at h
  simp only [if_pos hneg.ne] at h
  split_ifs at h with hafter hzero
  have hquot := some.inj h
  have hdiv : t.tdiv 60 = -((-t) / 60) := by
    rw [← Int.tdiv_eq_ediv_of_nonneg (by omega), Int.neg_tdiv, neg_neg]
  rw [hdiv] at hafter hquot
  have hmul := Nat.lt_mul_div_succ (((-((-t) / 60)) % 2 ^ 64).toNat - rotationOffset net)
    (Nat.pos_of_ne_zero hzero)
  rw [hquot, Nat.mul_comm] at hmul
  have hle : (num + 1) * getTimePeriodLength net
      ≤ (num - 1) * getTimePeriodLength net + 2 * getTimePeriodLength net := by
    rw [← Nat.add_mul]
    exact Nat.mul_le_mul_right _ (by omega)
  rw [timeMax] at hnum
  omega

lemma pos_of_hsGetTimePeriodNum (htime : IsTime t)
    (hnum : (num - 1) * getTimePeriodLength net ≤ timeMax / 60)
    (h : hsGetTimePeriodNum net t = some num) : 0 < t := by
  rcases lt_trichotomy t 0 with hneg | hzero | hpos
  · exact absurd h (hsGetTimePeriodNum_neg hneg htime.1 hnum)
  · exact absurd hzero htime.2.2
  · exact hpos

lemma hsGetStartTimeOfNextTimePeriod_eq (h : hsGetTimePeriodNum net t = some num)
    (hnum : num * getTimePeriodLength net ≤ timeMax / 60) :
    hsGetStartTimeOfNextTimePeriod net t
      = some (Int.bmod ((num + 1) * getTimePeriodLength net * 60 + srStateGetPhaseDuration net : ℕ)
          (2 ^ 64)) := by
  have hlength := getTimePeriodLength_lt net
  have hpos : 0 < getTimePeriodLength net := by
    refine Nat.pos_of_ne_zero fun hzero => ?_
    rw [hsGetTimePeriodNum] at h
    split_ifs at h
  have hle : num ≤ num * getTimePeriodLength net := Nat.le_mul_of_pos_right _ hpos
  have hmul : (num + 1) * getTimePeriodLength net
      = num * getTimePeriodLength net + getTimePeriodLength net := Nat.succ_mul _ _
  rw [timeMax] at hnum
  rw [hsGetStartTimeOfNextTimePeriod, hsGetNextTimePeriodNum, h, Option.map_some, Option.map_some,
    Nat.mod_eq_of_lt (by omega : num + 1 < 2 ^ 64),
    Nat.mod_eq_of_lt (by omega : (num + 1) * getTimePeriodLength net < 2 ^ 64)]

lemma bmod_of_le {n : ℕ} (h : n ≤ timeMax) : Int.bmod (n : ℤ) (2 ^ 64) = n := by
  rw [timeMax] at h
  rw [Int.bmod_def]
  split_ifs <;> omega

lemma eq_of_bmod_pos {n : ℕ} (hn : n < 2 ^ 64) (h : 0 < Int.bmod (n : ℤ) (2 ^ 64)) :
    Int.bmod (n : ℤ) (2 ^ 64) = n := by
  rw [Int.bmod_def] at h ⊢
  split_ifs at h ⊢ <;> omega

lemma toNat_div_sub {minutes offset rest : ℕ} (hrest : rest < 60) :
    ((minutes * 60 + offset * 60 + rest : ℕ) : ℤ).toNat / 60 - offset = minutes := by
  omega

section AfterRotation

variable (hafter : (srStateGetPhaseDuration net : ℤ) < t) (hmax : t ≤ timeMax)
include hafter hmax

lemma periodsMeet_of_startsNextPeriod (h : StartsNextPeriod net t) : PeriodsMeet net t := by
  have hpos : 0 < t := by omega
  have hlength := getTimePeriodLength_lt net
  have hphase := srStateGetPhaseDuration_lt net
  have hoffset : srStateGetPhaseDuration net
      = rotationOffset net * 60 + srStateGetPhaseDuration net % 60 := (Nat.div_add_mod' _ 60).symm
  obtain ⟨num, start, hnum, hstart, ⟨htime, hnext⟩, hleast⟩ := h
  obtain ⟨hfirst, hlen, hdiv⟩ := (hsGetTimePeriodNum_pos hpos hmax).mp hnum
  have hle : num * getTimePeriodLength net ≤ t.toNat / 60 - rotationOffset net := by
    rw [← hdiv]
    exact Nat.div_mul_le_self _ _
  have hbound : num * getTimePeriodLength net ≤ timeMax / 60 := by omega
  have hstartpos := pos_of_hsGetTimePeriodNum htime (by simpa using hbound) hnext
  have hroom : start ≤ timeMax := htime.2.1
  obtain ⟨-, -, hdiv'⟩ := (hsGetTimePeriodNum_pos hstartpos htime.2.1).mp hnext
  have hmul : (num + 1) * getTimePeriodLength net
      = num * getTimePeriodLength net + getTimePeriodLength net := Nat.succ_mul _ _
  rw [hsGetStartTimeOfNextTimePeriod_eq hnum hbound] at hstart
  generalize hminutes : (num + 1) * getTimePeriodLength net = minutes at hstart hmul
  have hstart' : start = (minutes * 60 + srStateGetPhaseDuration net : ℕ) := by
    rw [← some.inj hstart] at hstartpos ⊢
    refine eq_of_bmod_pos ?_ hstartpos
    rw [timeMax] at hbound
    omega
  have hearlier : hsGetTimePeriodNum net (minutes * 60 + rotationOffset net * 60 + 0 : ℕ)
      = some (num + 1) := by
    refine (hsGetTimePeriodNum_pos (by omega) (by omega)).mpr ⟨by omega, hlen, ?_⟩
    rw [toNat_div_sub (by omega), ← hminutes, Nat.mul_div_cancel _ hlen]
  have hmin := hleast ⟨⟨by omega, by omega, by omega⟩, hearlier⟩
  refine ⟨Nat.dvd_of_mod_eq_zero (by omega), hlen, hfirst, ?_⟩
  rw [hdiv, Nat.lt_iff_add_one_le, ← hdiv']
  refine Nat.div_le_div_right ?_
  omega

lemma startsNextPeriod_of_periodsMeet (h : PeriodsMeet net t) : StartsNextPeriod net t := by
  have hpos : 0 < t := by omega
  obtain ⟨hwhole, hlen, hfirst, hlast⟩ := h
  have hoffset : srStateGetPhaseDuration net = rotationOffset net * 60 :=
    (Nat.div_mul_cancel hwhole).symm
  generalize hdiv : (t.toNat / 60 - rotationOffset net) / getTimePeriodLength net = num at hlast
  have hle : num * getTimePeriodLength net ≤ t.toNat / 60 - rotationOffset net := by
    rw [← hdiv]
    exact Nat.div_mul_le_self _ _
  have hnum := (hsGetTimePeriodNum_pos hpos hmax).mpr ⟨hfirst, hlen, hdiv⟩
  have hbound : num * getTimePeriodLength net ≤ timeMax / 60 := by omega
  rw [Nat.lt_iff_add_one_le, Nat.le_div_iff_mul_le hlen] at hlast
  have hstart := hsGetStartTimeOfNextTimePeriod_eq hnum hbound
  generalize hminutes : (num + 1) * getTimePeriodLength net = minutes at hlast hstart
  have hminpos : 0 < minutes := hminutes ▸ Nat.mul_pos num.succ_pos hlen
  have hroom : minutes * 60 + srStateGetPhaseDuration net ≤ timeMax := by
    omega
  rw [bmod_of_le hroom] at hstart
  refine ⟨num, _, hnum, hstart, ⟨⟨by omega, by omega, by omega⟩, ?_⟩, ?_⟩
  · refine (hsGetTimePeriodNum_pos (by omega) (by omega)).mpr ⟨by omega, hlen, ?_⟩
    rw [hoffset, ← Nat.add_zero (minutes * 60 + rotationOffset net * 60),
      toNat_div_sub (by omega), ← hminutes, Nat.mul_div_cancel _ hlen]
  · rintro t' ⟨htime, hnext⟩
    have hpos' := pos_of_hsGetTimePeriodNum htime (by simpa using hbound) hnext
    obtain ⟨hfirst', -, hdiv'⟩ := (hsGetTimePeriodNum_pos hpos' htime.2.1).mp hnext
    have hge : (num + 1) * getTimePeriodLength net ≤ t'.toNat / 60 - rotationOffset net := by
      rw [← hdiv']
      exact Nat.div_mul_le_self _ _
    omega

end AfterRotation

/-- **Numbers and start times describe the same periods** exactly where the phase is a whole
number of minutes, up to the ends of time. -/
theorem startsNextPeriod_iff (hafter : (srStateGetPhaseDuration net : ℤ) < t) (hmax : t ≤ timeMax) :
    StartsNextPeriod net t ↔ PeriodsMeet net t :=
  ⟨periodsMeet_of_startsNextPeriod hafter hmax, startsNextPeriod_of_periodsMeet hafter hmax⟩

/-- A network without consensus parameters that votes this often. -/
def votingEvery (seconds : ℕ) (hpos : 0 < seconds) (hlt : seconds < 2 ^ 31) : Network where
  votingInterval := seconds
  votingInterval_pos := hpos
  votingInterval_lt := hlt
  testingTorNetwork := false
  params := fun _ => none
  validAfter := none
  approxTime := 0

theorem startsNextPeriod_hourly :
    StartsNextPeriod (votingEvery 3600 (by decide) (by decide)) 1700000000 :=
  (startsNextPeriod_iff (by decide) (by decide)).mpr
    ⟨by decide, by decide, by decide, by decide⟩

/-- With a vote every 432 seconds the next period starts 24 seconds before the start that is
computed. -/
theorem not_startsNextPeriod_432 :
    ¬ StartsNextPeriod (votingEvery 432 (by decide) (by decide)) 1700000000 := by
  rintro ⟨num, start, hnum, hstart, -, hleast⟩
  obtain rfl : 19675 = num := some.inj hnum
  rw [hsGetStartTimeOfNextTimePeriod_eq hnum (by decide), bmod_of_le (by decide)] at hstart
  obtain rfl : 1700011584 = start := some.inj hstart
  have hearlier : (1700011584 : ℤ) ≤ 1700011560 :=
    hleast ⟨⟨by decide, by decide, by decide⟩, show _ = _ by decide⟩
  exact absurd hearlier (by decide)

end Ator.HiddenService
