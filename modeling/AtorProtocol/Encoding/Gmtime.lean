import AtorProtocol.Encoding.TimeFmt

/-!
# Dates of times

`gmtime_r`, which `src/lib/wallclock/time_to_tm.c` takes from the system.

* `gmtime` — the date of a time.
* `exists_gmtime` — it is the date of the calendar.
* `torTimegmImpl_gmtime` — when `tor_timegm_impl` gets the time back.
-/

namespace Ator.TimeFmt

open Calendar

/-! ## From times to dates -/

lemma daysInYear_pos (year : ℕ) : 0 < daysInYear year := by
  rw [daysInYear]
  split_ifs <;> omega

/-- The year of a day, counted from the start of `year`, and the day in it. -/
def yearOf (year days : ℕ) : ℕ × ℕ :=
  if days < daysInYear year then (year, days) else yearOf (year + 1) (days - daysInYear year)
termination_by days
decreasing_by
  have := daysInYear_pos year
  omega

/-- The month of a day of a year, counted from the start of `month`, and the day in it. -/
def monthOf (year month days : ℕ) : ℕ × ℕ :=
  if days < daysInMonth year month ∨ 11 ≤ month then (month, days)
  else monthOf year (month + 1) (days - daysInMonth year month)
termination_by 12 - month

/-- The days of 400 years. -/
def daysIn400Years : ℕ := 146097

/-- `gmtime_r`; times before 1970 are moved by whole cycles of the calendar. -/
def gmtime (t : ℤ) : Tm :=
  let days := t / 86400
  let cycles := if days < 0 then days.natAbs / daysIn400Years + 1 else 0
  let (year, dayOfYear) := yearOf 1970 (days + cycles * daysIn400Years).toNat
  let (month, day) := monthOf year 0 dayOfYear
  let second := (t % 86400).toNat
  { Tm.of year month (day + 1) (second / 3600) (second / 60 % 60) (second % 60) with
    tmYear := year - 400 * cycles - 1900 }

/-! ## The date of a time -/

variable {t : ℤ}

lemma yearOf_spec (year days : ℕ) :
    year ≤ (yearOf year days).1 ∧ (yearOf year days).2 < daysInYear (yearOf year days).1
      ∧ ∑ y ∈ Finset.Ico year (yearOf year days).1, daysInYear y + (yearOf year days).2 = days := by
  fun_induction yearOf year days with
  | case1 year days hlt => simpa using hlt
  | case2 year days hge ih =>
    obtain ⟨hle, hlt, hsum⟩ := ih
    refine ⟨by omega, hlt, ?_⟩
    rw [Finset.sum_eq_sum_Ico_succ_bot (by omega)]
    omega

lemma monthOf_spec {year month days : ℕ} (hmonth : month ≤ 11)
    (hdays : days < ∑ m ∈ Finset.Ico month 12, daysInMonth year m) :
    month ≤ (monthOf year month days).1 ∧ (monthOf year month days).1 < 12
      ∧ (monthOf year month days).2 < daysInMonth year (monthOf year month days).1
      ∧ ∑ m ∈ Finset.Ico month (monthOf year month days).1, daysInMonth year m
        + (monthOf year month days).2 = days := by
  fun_induction monthOf year month days with
  | case1 month days hstop =>
    refine ⟨le_rfl, by omega, ?_, by simp⟩
    rcases hstop with hlt | hlast
    · exact hlt
    · obtain rfl : month = 11 := by omega
      simpa using hdays
  | case2 month days hgo ih =>
    rw [not_or] at hgo
    rw [Finset.sum_eq_sum_Ico_succ_bot (by omega)] at hdays
    obtain ⟨hle, hlt, hday, hsum⟩ := ih (by omega) (by omega)
    refine ⟨by omega, hlt, hday, ?_⟩
    rw [Finset.sum_eq_sum_Ico_succ_bot (by omega)]
    omega

/-- **From 1970 on, `gmtime` gives the date of a time.** -/
theorem exists_gmtime (h : 0 ≤ t) :
    ∃ d : DateTime, gmtime t = .ofDate d ∧ t = d.unixTime ∧ 1970 ≤ d.year ∧ d.second < 60 := by
  obtain ⟨n, rfl⟩ := Int.eq_ofNat_of_zero_le h
  have hdays : ¬ ((n : ℤ) / 86400 < 0) := by omega
  have hnat : ((n : ℤ) / 86400 + ((0 : ℕ) : ℤ) * (daysIn400Years : ℤ)).toNat = n / 86400 := by omega
  have hsecond : ((n : ℤ) % 86400).toNat = n % 86400 := by omega
  obtain ⟨hyear, hdayOfYear, hyears⟩ := yearOf_spec 1970 (n / 86400)
  rcases hyearOf : yearOf 1970 (n / 86400) with ⟨year, dayOfYear⟩
  rw [hyearOf] at hyear hdayOfYear hyears
  have hyearDays : dayOfYear < ∑ m ∈ Finset.Ico 0 12, daysInMonth year m := by
    rwa [← Finset.range_eq_Ico, sum_daysInMonth]
  obtain ⟨-, hmonth, hday, hmonths⟩ := monthOf_spec (Nat.zero_le 11) hyearDays
  rcases hmonthOf : monthOf year 0 dayOfYear with ⟨month, day⟩
  rw [hmonthOf] at hmonth hday hmonths
  rw [← Finset.range_eq_Ico] at hmonths
  have hgmtime : gmtime n = .of year month (day + 1) (n % 86400 / 3600) (n % 86400 / 60 % 60)
      (n % 86400 % 60) := by
    simp only [gmtime, if_neg hdays, hnat, hyearOf, hmonthOf, hsecond]
    simp [Tm.of]
  refine ⟨⟨year, month, day + 1, n % 86400 / 3600, n % 86400 / 60 % 60, n % 86400 % 60, hmonth,
    by omega, hday, by omega, by omega, by omega⟩, hgmtime, ?_, hyear, Nat.mod_lt _ (by omega)⟩
  rw [DateTime.unixTime, Calendar.unixTime, epochDay]
  simp only at hyears hmonths ⊢
  omega

/-- **`tor_timegm_impl` undoes `gmtime_r`** for the times and years that fit, but for 29 February of
every 400th year. -/
theorem torTimegmImpl_gmtime (size : SizeofTimeT) (h : 0 ≤ t) :
    torTimegmImpl size (gmtime t) = some t ↔ t ≤ timeMax size ∧
      (gmtime t).tmYear < int32Max - 1900 ∧
      ¬ ((gmtime t).tmMon = 1 ∧ (gmtime t).tmMday = 29 ∧ (gmtime t).tmYear % 400 = 100) := by
  obtain ⟨d, hgmtime, ht, hyear, -⟩ := exists_gmtime h
  have hlimit := dayLimit_iff d.year d.month d.day
  have hday := d.day_le
  have hleap : d.month = 1 → d.day = 29 → d.year % 400 ≠ 300 := by
    intro hmonth h29
    rw [hmonth, daysInMonth_february] at hday
    split_ifs at hday with hleap
    · rw [IsLeap] at hleap
      omega
    · omega
  rw [hgmtime, Tm.ofDate, torTimegmImpl_of, InRange, YearFits, DateTime.unixTime] at *
  simp only [Tm.of_tmYear, Tm.of_tmMon, Tm.of_tmMday, ht, d.month_lt, d.day_pos, d.hour_lt,
    d.minute_lt, d.second_le, true_and, and_true]
  omega

/-- 29 February 2024, 12:34:56. -/
theorem torTimegmImpl_gmtime_leapDay :
    torTimegmImpl .four (gmtime 1709210096) = some 1709210096 := by
  have hdate : gmtime 1709210096 = .of 2024 1 29 12 34 56 := by decide +kernel
  refine (torTimegmImpl_gmtime .four (by decide)).mpr ?_
  rw [hdate]
  decide

end Ator.TimeFmt
