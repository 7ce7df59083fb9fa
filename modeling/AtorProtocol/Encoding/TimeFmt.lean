import AtorProtocol.Lib.Calendar
import Mathlib.Tactic.IntervalCases
import Mathlib.Tactic.Ring

/-!
# Broken-down times

`tor_timegm_impl` of `src/lib/encoding/time_fmt.c`.  The fields of a `struct tm` and the 64-bit
numbers are integers; division and remainder are those of C, which round towards 0.

* `torTimegmImpl` — the seconds since the epoch, or nothing where the source returns -1.
* `Meets` — it is right about a time: the times it accepts are the dates of the calendar.
* `LeapDayMisjudged` — 29 February of a year whose leap rule the offset from 1900 gets wrong.
* `torTimegmImpl_meets_iff` — it is right about all other times, and orders them.
-/

namespace Ator.TimeFmt

open Calendar List

/-- `struct tm`: the year counts from 1900, the month from 0. -/
structure Tm where
  tmYear : ℤ
  tmMon : ℤ
  tmMday : ℤ
  tmHour : ℤ
  tmMin : ℤ
  tmSec : ℤ
deriving DecidableEq

inductive SizeofTimeT where
  | four
  | eight
deriving DecidableEq

def timeMax : SizeofTimeT → ℤ
  | .four => 2 ^ 31 - 1
  | .eight => 2 ^ 63 - 1

def int32Max : ℤ := 2 ^ 31 - 1

def isLeapyear (y : ℤ) : Bool := y.tmod 4 = 0 ∧ (y.tmod 100 ≠ 0 ∨ y.tmod 400 = 0)

def nLeapdays (year1 year2 : ℤ) : ℤ :=
  let year1 := year1 - 1
  let year2 := year2 - 1
  (year2.tdiv 4 - year1.tdiv 4) - (year2.tdiv 100 - year1.tdiv 100)
    + (year2.tdiv 400 - year1.tdiv 400)

def daysPerMonth (mon : ℕ) : ℤ := [31, 28, 31, 30, 31, 30, 31, 31, 30, 31, 30, 31].getD mon 0

/-- The full year, clamped. -/
def fullYear (tm : Tm) : ℤ := if tm.tmYear < int32Max - 1900 then tm.tmYear + 1900 else int32Max

def invalidYear (tm : Tm) : Bool := fullYear tm < 1970 ∨ tm.tmYear ≥ int32Max - 1900

/-- `dpm`: the days of the month, in which the leap rule is asked about `tm_year` itself. -/
def monthLimit (tm : Tm) : ℤ :=
  if 0 ≤ tm.tmMon ∧ tm.tmMon ≤ 11 then
    if tm.tmMon = 1 ∧ ¬ invalidYear tm ∧ isLeapyear tm.tmYear then 29
    else daysPerMonth tm.tmMon.toNat
  else 0

/-- "Out-of-range argument to tor_timegm" -/
def OutOfRange (tm : Tm) : Prop :=
  invalidYear tm ∨ tm.tmMon < 0 ∨ tm.tmMon > 11 ∨ tm.tmMday < 1 ∨ tm.tmMday > monthLimit tm ∨
    tm.tmHour < 0 ∨ tm.tmHour > 23 ∨
    tm.tmMin < 0 ∨ tm.tmMin > 59 ∨
    tm.tmSec < 0 ∨ tm.tmSec > 60

instance : DecidablePred OutOfRange := fun tm => by
  unfold OutOfRange
  infer_instance

/-- `days` and what is made of it. -/
def secondsOf (tm : Tm) : ℤ :=
  let year := fullYear tm
  let days := 365 * (year - 1970) + nLeapdays 1970 year
  let days := days + ((List.range tm.tmMon.toNat).map daysPerMonth).sum
  let days := if tm.tmMon > 1 ∧ isLeapyear year then days + 1 else days
  let days := days + (tm.tmMday - 1)
  let hours := days * 24 + tm.tmHour
  let minutes := hours * 60 + tm.tmMin
  minutes * 60 + tm.tmSec

/-- `tor_timegm_impl`; `none` for -1. -/
def torTimegmImpl (size : SizeofTimeT) (tm : Tm) : Option ℤ :=
  if OutOfRange tm then none
  -- the check for TIME_MIN and TIME_MAX is compiled for a short time_t only
  else if size = .four ∧ (secondsOf tm < -2 ^ 31 ∨ secondsOf tm > timeMax .four) then none
  else some (secondsOf tm)

/-! ## The calendar's view -/

/-- The broken-down time of a year, a month and so on. -/
def Tm.of (year month day hour minute second : ℕ) : Tm :=
  ⟨year - 1900, month, day, hour, minute, second⟩

section

variable (year month day hour minute second : ℕ)

@[simp] lemma Tm.of_tmYear : (Tm.of year month day hour minute second).tmYear = year - 1900 := rfl

@[simp] lemma Tm.of_tmMon : (Tm.of year month day hour minute second).tmMon = month := rfl

@[simp] lemma Tm.of_tmMday : (Tm.of year month day hour minute second).tmMday = day := rfl

@[simp] lemma Tm.of_tmHour : (Tm.of year month day hour minute second).tmHour = hour := rfl

@[simp] lemma Tm.of_tmMin : (Tm.of year month day hour minute second).tmMin = minute := rfl

@[simp] lemma Tm.of_tmSec : (Tm.of year month day hour minute second).tmSec = second := rfl

end

/-- The broken-down time that denotes a date. -/
def Tm.ofDate (d : DateTime) : Tm := .of d.year d.month d.day d.hour d.minute d.second

/-- The years from 1970 on that the source takes. -/
def YearFits (year : ℕ) : Prop := 1970 ≤ year ∧ (year : ℤ) < int32Max

instance : DecidablePred YearFits := fun year =>
  inferInstanceAs (Decidable (1970 ≤ year ∧ (year : ℤ) < int32Max))

/-- The times that are accepted are the dates from 1970 on whose number fits, and the number of
each is its distance from the epoch. -/
def Meets (size : SizeofTimeT) (tm : Tm) : Prop :=
  ∀ t : ℤ, torTimegmImpl size tm = some t ↔
    ∃ d : DateTime, tm = .ofDate d ∧ YearFits d.year ∧ t = d.unixTime ∧ t ≤ timeMax size

def Tm.fields (tm : Tm) : List ℤ := [tm.tmYear, tm.tmMon, tm.tmMday, tm.tmHour, tm.tmMin, tm.tmSec]

/-- On times with seconds below 60, the number grows with the time. -/
def Increases (size : SizeofTimeT) (tm tm' : Tm) : Prop :=
  ∀ t t' : ℤ, torTimegmImpl size tm = some t → torTimegmImpl size tm' = some t' →
    tm.tmSec < 60 → tm'.tmSec < 60 → tm.fields < tm'.fields → t < t'

/-- 29 February of a year that is a multiple of 400, or 300 more than one, where nothing else is
wrong with the time. -/
def LeapDayMisjudged (size : SizeofTimeT) (tm : Tm) : Prop :=
  ∃ year hour minute second : ℕ, tm = .of year 1 29 hour minute second ∧
    (year % 400 = 0 ∨ year % 400 = 300) ∧ YearFits year ∧ hour < 24 ∧ minute < 60 ∧ second ≤ 60 ∧
    unixTime year 1 29 hour minute second ≤ timeMax size

/-! ## The number of a date -/

variable {tm tm' : Tm} {size : SizeofTimeT} {year month day hour minute second : ℕ}

lemma isLeapyear_iff (year : ℕ) : isLeapyear year = true ↔ IsLeap year := by
  simp only [isLeapyear, decide_eq_true_eq, IsLeap, Int.tmod_eq_emod_of_nonneg (Int.natCast_nonneg _)]
  omega

lemma nLeapdays_eq (h : 1970 ≤ year) :
    nLeapdays 1970 year = leapYearsBelow year - leapYearsBelow 1970 := by
  have hnonneg : (0 : ℤ) ≤ (year : ℤ) - 1 := by omega
  simp only [nLeapdays, leapYearsBelow, Int.tdiv_eq_ediv_of_nonneg hnonneg]
  rw [show ((1970 : ℤ) - 1).tdiv 4 = 492 by rfl, show ((1970 : ℤ) - 1).tdiv 100 = 19 by rfl,
    show ((1970 : ℤ) - 1).tdiv 400 = 4 by rfl]
  omega

lemma daysInMonth_eq (year : ℕ) (hmonth : month < 12) :
    (daysInMonth year month : ℤ)
      = daysPerMonth month + if month = 1 ∧ IsLeap year then 1 else 0 := by
  by_cases hleap : IsLeap year <;> interval_cases month <;> simp [daysInMonth, daysPerMonth, hleap]

lemma monthLoop_eq (hmonth : month ≤ 12) (year : ℕ) :
    (∑ m ∈ Finset.range month, daysInMonth year m : ℕ)
      = ((List.range month).map daysPerMonth).sum + if 1 < month ∧ IsLeap year then 1 else 0 := by
  induction month with
  | zero => rfl
  | succ month ih =>
    rw [Finset.sum_range_succ, range_succ, map_append, sum_append]
    rw [Nat.cast_add, daysInMonth_eq year (by omega)]
    have ih := ih (by omega)
    rw [ih, map_singleton, sum_singleton]
    by_cases hleap : IsLeap year
    · rcases Nat.lt_trichotomy month 1 with h | rfl | h
      · simp [hleap, show month = 0 by omega]
      · simp [hleap]
        ring
      · simp [hleap, h, show month ≠ 1 by omega, show 0 < month by omega]
        ring
    · simp [hleap]

lemma days_eq (hyear : 1970 ≤ year) (hmonth : month < 12) (hday : 1 ≤ day) :
    (if (month : ℤ) > 1 ∧ isLeapyear year then
        365 * ((year : ℤ) - 1970) + nLeapdays 1970 year + ((List.range month).map daysPerMonth).sum + 1
      else 365 * ((year : ℤ) - 1970) + nLeapdays 1970 year
        + ((List.range month).map daysPerMonth).sum) + ((day : ℤ) - 1)
      = epochDay year month day := by
  have hyears := sum_daysInYear hyear
  have hmonths := monthLoop_eq hmonth.le year
  have hlater : ((month : ℤ) > 1 ∧ isLeapyear year = true) ↔ 1 < month ∧ IsLeap year := by
    rw [isLeapyear_iff, gt_iff_lt, Nat.one_lt_cast]
  simp only [epochDay, nLeapdays_eq hyear, hlater]
  rw [Nat.cast_add, Nat.cast_add, hmonths, Nat.cast_sub hday]
  split_ifs <;> omega

/-- The last day of a month that the source takes. -/
def dayLimit (year month : ℕ) : ℕ :=
  if month = 1 then if year % 4 = 0 ∧ (year % 100 ≠ 0 ∨ year % 400 = 300) then 29 else 28
  else daysInMonth year month

lemma fullYear_of (hyear : YearFits year) :
    fullYear (.of year month day hour minute second) = year := by
  have hlt : (year : ℤ) - 1900 < int32Max - 1900 := by
    have := hyear.2
    omega
  rw [fullYear, Tm.of_tmYear, if_pos hlt]
  ring

lemma invalidYear_of : invalidYear (.of year month day hour minute second) = true
    ↔ ¬ YearFits year := by
  rw [invalidYear, decide_eq_true_eq, fullYear, Tm.of_tmYear, YearFits]
  split_ifs <;> omega

lemma monthLimit_of (hyear : YearFits year) (hmonth : month < 12) :
    monthLimit (.of year month day hour minute second) = dayLimit year month := by
  have hleap : isLeapyear ((year : ℤ) - 1900) = true
      ↔ year % 4 = 0 ∧ (year % 100 ≠ 0 ∨ year % 400 = 300) := by
    have hnonneg : 0 ≤ (year : ℤ) - 1900 := by
      have := hyear.1
      omega
    simp only [isLeapyear, decide_eq_true_eq, Int.tmod_eq_emod_of_nonneg hnonneg]
    omega
  simp only [monthLimit, Tm.of_tmMon, Tm.of_tmYear, invalidYear_of, hyear, hleap, dayLimit]
  rw [if_pos (by omega)]
  by_cases hfeb : month = 1
  · subst hfeb
    simp [daysPerMonth]
  · rw [if_neg (by omega), if_neg hfeb, Int.toNat_natCast, daysInMonth_eq year hmonth]
    simp [hfeb]

/-- All fields are in range, the day up to a limit, and the number fits. -/
def InRange (size : SizeofTimeT) (limit year month day hour minute second : ℕ) : Prop :=
  YearFits year ∧ month < 12 ∧ 1 ≤ day ∧ day ≤ limit ∧ hour < 24 ∧ minute < 60 ∧ second ≤ 60 ∧
    unixTime year month day hour minute second ≤ timeMax size

lemma leapYearsBelow_le (year : ℕ) : leapYearsBelow year ≤ year := by
  rw [leapYearsBelow]
  omega

lemma unixTime_le_timeMax (hyear : YearFits year) (hmonth : month < 12) (hday : day ≤ 31)
    (hhour : hour < 24) (hminute : minute < 60) (hsecond : second ≤ 60) :
    (unixTime year month day hour minute second : ℤ) ≤ timeMax .eight := by
  obtain ⟨h1970, hmax⟩ := hyear
  have hyears := sum_daysInYear h1970
  have hmonths := sum_daysInMonth_le year hmonth.le
  have hleap := leapYearsBelow_le year
  have hlength : daysInYear year ≤ 366 := by
    rw [daysInYear]
    split_ifs <;> omega
  rw [int32Max] at hmax
  rw [timeMax, unixTime, epochDay]
  omega

lemma dayLimit_le (year month : ℕ) : dayLimit year month ≤ 31 := by
  have := daysInMonth_le year month
  rw [dayLimit]
  split_ifs <;> omega

lemma outOfRange_of : OutOfRange (.of year month day hour minute second)
    ↔ ¬ (YearFits year ∧ month < 12 ∧ 1 ≤ day ∧ day ≤ dayLimit year month ∧ hour < 24 ∧
      minute < 60 ∧ second ≤ 60) := by
  simp only [OutOfRange, invalidYear_of, Tm.of_tmMon, Tm.of_tmMday, Tm.of_tmHour, Tm.of_tmMin,
    Tm.of_tmSec]
  by_cases hyear : YearFits year
  · by_cases hmonth : month < 12
    · simp only [monthLimit_of hyear hmonth, hyear, hmonth, true_and, not_true_eq_false, false_or]
      omega
    · simp only [hmonth, false_and, and_false, not_false_eq_true, iff_true]
      exact .inr (.inr (.inl (by omega)))
  · simp [hyear]

lemma secondsOf_of (hyear : YearFits year) (hmonth : month < 12) (hday : 1 ≤ day) :
    secondsOf (.of year month day hour minute second)
      = unixTime year month day hour minute second := by
  simp only [secondsOf, fullYear_of hyear, Tm.of_tmMon, Tm.of_tmMday, Tm.of_tmHour, Tm.of_tmMin,
    Tm.of_tmSec, Int.toNat_natCast]
  rw [days_eq hyear.1 hmonth hday, unixTime]
  rfl

/-- **What the source computes.** -/
lemma torTimegmImpl_of (t : ℤ) : torTimegmImpl size (.of year month day hour minute second) = some t
    ↔ InRange size (dayLimit year month) year month day hour minute second
      ∧ t = unixTime year month day hour minute second := by
  rw [torTimegmImpl, InRange]
  by_cases hin : YearFits year ∧ month < 12 ∧ 1 ≤ day ∧ day ≤ dayLimit year month ∧ hour < 24 ∧
      minute < 60 ∧ second ≤ 60
  · rw [if_neg (by rwa [outOfRange_of, not_not])]
    obtain ⟨hyear, hmonth, hpos, hlimit, hhour, hminute, hsecond⟩ := hin
    have hlong := unixTime_le_timeMax hyear hmonth (hlimit.trans (dayLimit_le year month)) hhour
      hminute hsecond
    simp only [secondsOf_of hyear hmonth hpos, hyear, hmonth, hpos, hlimit, hhour, hminute, hsecond,
      true_and]
    generalize unixTime year month day hour minute second = u at hlong
    cases size with
    | four =>
      simp only [true_and]
      by_cases hbad : (u : ℤ) < -2 ^ 31 ∨ (u : ℤ) > timeMax .four
      · rw [if_pos hbad]
        simp only [reduceCtorEq, false_iff]
        omega
      · rw [if_neg hbad, Option.some.injEq]
        omega
    | eight =>
      rw [if_neg (by simp), Option.some.injEq]
      exact ⟨fun h => ⟨hlong, h.symm⟩, fun h => h.2.symm⟩
  · rw [if_pos (outOfRange_of.mpr hin)]
    simp only [reduceCtorEq, false_iff, not_and]
    rintro ⟨hyear, hmonth, hpos, hlimit, hhour, hminute, hsecond, -⟩
    exact absurd ⟨hyear, hmonth, hpos, hlimit, hhour, hminute, hsecond⟩ hin

/-! ## When the source is right -/

lemma exists_of_torTimegmImpl {t : ℤ} (h : torTimegmImpl size tm = some t) :
    ∃ year month day hour minute second : ℕ, tm = .of year month day hour minute second := by
  rw [torTimegmImpl] at h
  split at h
  · cases h
  next hin =>
    rw [OutOfRange, not_or] at hin
    obtain ⟨hvalid, hin⟩ := hin
    have hyear : 0 ≤ tm.tmYear + 1900 := by
      rw [invalidYear, decide_eq_true_eq, fullYear] at hvalid
      split_ifs at hvalid <;> omega
    refine ⟨(tm.tmYear + 1900).toNat, tm.tmMon.toNat, tm.tmMday.toNat, tm.tmHour.toNat,
      tm.tmMin.toNat, tm.tmSec.toNat, ?_⟩
    obtain ⟨y, mon, mday, hour, min, sec⟩ := tm
    dsimp only at hin hyear ⊢
    simp only [Tm.of, Tm.mk.injEq]
    omega

lemma daysInMonth_february (year : ℕ) : daysInMonth year 1 = if IsLeap year then 29 else 28 := rfl

/-- The two limits differ on one day. -/
lemma dayLimit_iff (year month day : ℕ) : (day ≤ dayLimit year month ↔ day ≤ daysInMonth year month)
    ↔ ¬ (month = 1 ∧ day = 29 ∧ (year % 400 = 0 ∨ year % 400 = 300)) := by
  rw [dayLimit]
  by_cases hfeb : month = 1
  · subst hfeb
    rw [if_pos rfl, daysInMonth_february]
    by_cases hleap : IsLeap year
    · rw [if_pos hleap]
      rw [IsLeap] at hleap
      split_ifs <;> omega
    · rw [if_neg hleap]
      rw [IsLeap] at hleap
      split_ifs <;> omega
  · simp [hfeb]

lemma exists_date_iff (t : ℤ) :
    (∃ d : DateTime, Tm.of year month day hour minute second = .ofDate d ∧ YearFits d.year ∧
      t = d.unixTime ∧ t ≤ timeMax size)
      ↔ InRange size (daysInMonth year month) year month day hour minute second
        ∧ t = unixTime year month day hour minute second := by
  constructor
  · rintro ⟨d, htm, hyear, rfl, hfits⟩
    simp only [Tm.ofDate, Tm.of, Tm.mk.injEq] at htm
    obtain ⟨h1, h2, h3, h4, h5, h6⟩ := htm
    obtain rfl : year = d.year := by omega
    obtain rfl : month = d.month := by omega
    obtain rfl : day = d.day := by omega
    obtain rfl : hour = d.hour := by omega
    obtain rfl : minute = d.minute := by omega
    obtain rfl : second = d.second := by omega
    exact ⟨⟨hyear, d.month_lt, d.day_pos, d.day_le, d.hour_lt, d.minute_lt, d.second_le, hfits⟩, rfl⟩
  · rintro ⟨⟨hyear, hmonth, hpos, hday, hhour, hminute, hsecond, hfits⟩, rfl⟩
    exact ⟨⟨year, month, day, hour, minute, second, hmonth, hpos, hday, hhour, hminute, hsecond⟩,
      rfl, hyear, rfl, hfits⟩

lemma leapDayMisjudged_of : LeapDayMisjudged size (.of year month day hour minute second)
    ↔ (month = 1 ∧ day = 29 ∧ (year % 400 = 0 ∨ year % 400 = 300)) ∧ YearFits year ∧ hour < 24 ∧
      minute < 60 ∧ second ≤ 60 ∧ unixTime year month day hour minute second ≤ timeMax size := by
  constructor
  · rintro ⟨y, h, mi, s, htm, hcentury, hin⟩
    simp only [Tm.of, Tm.mk.injEq] at htm
    obtain ⟨h1, h2, h3, h4, h5, h6⟩ := htm
    obtain rfl : year = y := by omega
    obtain rfl : month = 1 := by omega
    obtain rfl : day = 29 := by omega
    obtain rfl : hour = h := by omega
    obtain rfl : minute = mi := by omega
    obtain rfl : second = s := by omega
    exact ⟨⟨rfl, rfl, hcentury⟩, hin⟩
  · rintro ⟨⟨rfl, rfl, hcentury⟩, hin⟩
    exact ⟨year, hour, minute, second, rfl, hcentury, hin⟩

/-- **The source is right except about the leap days that it asks the wrong year about.** -/
lemma meets_iff : Meets size tm ↔ ¬ LeapDayMisjudged size tm := by
  by_cases hof : ∃ year month day hour minute second : ℕ, tm = .of year month day hour minute second
  · obtain ⟨year, month, day, hour, minute, second, rfl⟩ := hof
    have hlimit := dayLimit_iff year month day
    simp only [Meets, torTimegmImpl_of, exists_date_iff, leapDayMisjudged_of]
    constructor
    · rintro hmeets ⟨hday, hyear, hrest⟩
      refine hlimit.mp ?_ hday
      have hin := hmeets (unixTime year month day hour minute second)
      obtain ⟨rfl, rfl, -⟩ := hday
      simpa [InRange, hyear, hrest] using hin
    · intro hright t
      simp only [InRange]
      by_cases hday : month = 1 ∧ day = 29 ∧ (year % 400 = 0 ∨ year % 400 = 300)
      · have hout : ¬ (YearFits year ∧ hour < 24 ∧ minute < 60 ∧ second ≤ 60 ∧
            unixTime year month day hour minute second ≤ timeMax size) := fun h => hright ⟨hday, h⟩
        -- the rest is out of range, whatever the month is taken to be
        refine iff_of_false ?_ ?_
        · rintro ⟨⟨hyear, -, -, -, hrest⟩, -⟩
          exact hout ⟨hyear, hrest⟩
        · rintro ⟨⟨hyear, -, -, -, hrest⟩, -⟩
          exact hout ⟨hyear, hrest⟩
      · rw [hlimit.mpr hday]
  · constructor
    · rintro - ⟨year, hour, minute, second, htm, -⟩
      exact hof ⟨year, 1, 29, hour, minute, second, htm⟩
    · rintro - t
      constructor
      · intro h
        exact absurd (exists_of_torTimegmImpl h) hof
      · rintro ⟨d, htm, -⟩
        exact absurd ⟨_, _, _, _, _, _, htm⟩ hof

lemma increases_of_meets (h : Meets size tm) (h' : Meets size tm') : Increases size tm tm' := by
  intro t t' ht ht' hsec hsec' hlt
  obtain ⟨d, rfl, ⟨hyear, -⟩, rfl, -⟩ := (h t).mp ht
  obtain ⟨e, rfl, -, rfl, -⟩ := (h' t').mp ht'
  have hsecond : d.second < 60 := by
    simp only [Tm.ofDate, Tm.of_tmSec] at hsec
    omega
  have hbefore : d.Before e := by
    simp only [Tm.fields, Tm.ofDate, Tm.of_tmYear, Tm.of_tmMon, Tm.of_tmMday, Tm.of_tmHour,
      Tm.of_tmMin, Tm.of_tmSec, cons_lt_cons_iff, not_lt_nil, and_false, or_false] at hlt
    simp only [DateTime.Before, DateTime.fields, cons_lt_cons_iff, not_lt_nil, and_false, or_false]
    omega
  exact_mod_cast DateTime.unixTime_lt hyear hsecond hbefore

/-- **Calendar conversion.**  Two times are converted as the calendar has it, and in its order, if
and only if neither is a leap day that is misjudged. -/
theorem torTimegmImpl_meets_iff (size : SizeofTimeT) (tm tm' : Tm) :
    (Meets size tm ∧ Meets size tm' ∧ Increases size tm tm')
      ↔ ¬ LeapDayMisjudged size tm ∧ ¬ LeapDayMisjudged size tm' := by
  rw [← meets_iff, ← meets_iff]
  exact ⟨fun h => ⟨h.1, h.2.1⟩, fun h => ⟨h.1, h.2, increases_of_meets h.1 h.2⟩⟩

/-- 29 February 2000 is refused, and 29 February 2300 is taken for a date and not before
1 March. -/
theorem torTimegmImpl_fails :
    ¬ (∀ size tm tm', Meets size tm ∧ Meets size tm' ∧ Increases size tm tm') := by
  intro h
  have hmeets := (h .eight (.of 2000 1 29 0 0 0) (.of 2000 1 29 0 0 0)).1
  refine meets_iff.mp hmeets ⟨2000, 0, 0, 0, rfl, .inl rfl, by decide, by decide, by decide,
    by decide, ?_⟩
  exact unixTime_le_timeMax (by decide) (by decide) (by decide) (by decide) (by decide) (by decide)

end Ator.TimeFmt
