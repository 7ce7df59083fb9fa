import Mathlib.Algebra.BigOperators.Intervals
import Mathlib.Algebra.Order.BigOperators.Group.Finset

/-!
# The Gregorian calendar

Months are counted from 0, days of a month from 1.

* `DateTime` — a date and a time of day; the second may be 60.
* `unixTime` — the seconds since the start of 1970, as a sum over years and months.
* **`DateTime.unixTime_lt`** — the later of two dates has the larger number.
* `sum_daysInYear` — the years counted at once.
-/

namespace Ator.Calendar

def IsLeap (year : ℕ) : Prop := year % 4 = 0 ∧ (year % 100 ≠ 0 ∨ year % 400 = 0)

instance : DecidablePred IsLeap := fun year =>
  inferInstanceAs (Decidable (year % 4 = 0 ∧ (year % 100 ≠ 0 ∨ year % 400 = 0)))

def daysInMonth (year : ℕ) : ℕ → ℕ
  | 1 => if IsLeap year then 29 else 28
  | 3 | 5 | 8 | 10 => 30
  | _ => 31

def daysInYear (year : ℕ) : ℕ := if IsLeap year then 366 else 365

/-- The days from the start of 1970 to a date. -/
def epochDay (year month day : ℕ) : ℕ :=
  ∑ y ∈ Finset.Ico 1970 year, daysInYear y + ∑ m ∈ Finset.range month, daysInMonth year m + (day - 1)

/-- The seconds from the start of 1970 to a date and a time of day. -/
def unixTime (year month day hour minute second : ℕ) : ℕ :=
  ((epochDay year month day * 24 + hour) * 60 + minute) * 60 + second

/-- A date and a time of day, in UTC. -/
structure DateTime where
  year : ℕ
  month : ℕ
  day : ℕ
  hour : ℕ
  minute : ℕ
  second : ℕ
  month_lt : month < 12
  day_pos : 1 ≤ day
  day_le : day ≤ daysInMonth year month
  hour_lt : hour < 24
  minute_lt : minute < 60
  second_le : second ≤ 60

namespace DateTime

def unixTime (d : DateTime) : ℕ := Calendar.unixTime d.year d.month d.day d.hour d.minute d.second

/-- The fields, the largest unit first. -/
def fields (d : DateTime) : List ℕ := [d.year, d.month, d.day, d.hour, d.minute, d.second]

/-- The date comes before the other. -/
def Before (d e : DateTime) : Prop := d.fields < e.fields

end DateTime

/-! ## Years and months -/

variable {year month : ℕ}

lemma daysInMonth_le (year month : ℕ) : daysInMonth year month ≤ 31 := by
  unfold daysInMonth
  split <;> (try split_ifs) <;> omega

/-- The days of the months make up the year. -/
lemma sum_daysInMonth (year : ℕ) :
    ∑ m ∈ Finset.range 12, daysInMonth year m = daysInYear year := by
  simp only [Finset.sum_range_succ, Finset.sum_range_zero, daysInMonth, daysInYear]
  split_ifs <;> rfl

lemma sum_daysInMonth_le (year : ℕ) (hmonth : month ≤ 12) :
    ∑ m ∈ Finset.range month, daysInMonth year m ≤ daysInYear year := by
  rw [← sum_daysInMonth]
  exact Finset.sum_le_sum_of_subset (Finset.range_subset_range.mpr hmonth)

/-- A month starts after all of an earlier one. -/
lemma sum_daysInMonth_lt (year : ℕ) {later : ℕ} (h : month < later) :
    ∑ m ∈ Finset.range month, daysInMonth year m + daysInMonth year month
      ≤ ∑ m ∈ Finset.range later, daysInMonth year m := by
  rw [← Finset.sum_range_succ]
  exact Finset.sum_le_sum_of_subset (Finset.range_subset_range.mpr h)

/-- A year starts after all of an earlier one. -/
lemma sum_daysInYear_lt {later : ℕ} (h : 1970 ≤ year) (hlt : year < later) :
    ∑ y ∈ Finset.Ico 1970 year, daysInYear y + daysInYear year
      ≤ ∑ y ∈ Finset.Ico 1970 later, daysInYear y := by
  rw [← Finset.sum_Ico_succ_top h]
  exact Finset.sum_le_sum_of_subset (Finset.Ico_subset_Ico_right hlt)

/-- The leap years below a year. -/
def leapYearsBelow (year : ℕ) : ℕ := (year - 1) / 4 - (year - 1) / 100 + (year - 1) / 400

lemma leapYearsBelow_succ (year : ℕ) (h : 1 ≤ year) :
    leapYearsBelow (year + 1) = leapYearsBelow year + if IsLeap year then 1 else 0 := by
  obtain ⟨y, rfl⟩ := Nat.exists_eq_add_of_le' h
  -- one more multiple of 4, of 100, of 400
  have h4 := Nat.succ_div (a := y) (b := 4)
  have h100 := Nat.succ_div (a := y) (b := 100)
  have h400 := Nat.succ_div (a := y) (b := 400)
  simp only [Nat.dvd_iff_mod_eq_zero] at h4 h100 h400
  have hsub : (y + 1) % 400 = 0 → (y + 1) % 100 = 0 := by omega
  have hsub' : (y + 1) % 100 = 0 → (y + 1) % 4 = 0 := by omega
  simp only [leapYearsBelow, IsLeap, Nat.add_sub_cancel, h4, h100, h400]
  by_cases h0 : (y + 1) % 4 = 0
  · by_cases h1 : (y + 1) % 100 = 0
    · by_cases h2 : (y + 1) % 400 = 0
      · simp only [h0, h1, h2, if_true, ne_eq, not_true, false_or, and_self]
        omega
      · simp only [h0, h1, h2, if_true, if_false, ne_eq, not_true, false_or, and_false]
        omega
    · have h2 : ¬ (y + 1) % 400 = 0 := fun h2 => h1 (hsub h2)
      simp only [h0, h1, h2, if_true, if_false, ne_eq, not_false_eq_true, true_or, and_self]
      omega
  · have h1 : ¬ (y + 1) % 100 = 0 := fun h1 => h0 (hsub' h1)
    have h2 : ¬ (y + 1) % 400 = 0 := fun h2 => h1 (hsub h2)
    simp only [h0, h1, h2, if_false, false_and]
    omega

/-- **The days of the years since 1970**, counted at once. -/
theorem sum_daysInYear (h : 1970 ≤ year) :
    ∑ y ∈ Finset.Ico 1970 year, daysInYear y + leapYearsBelow 1970
      = 365 * (year - 1970) + leapYearsBelow year := by
  induction year, h using Nat.le_induction with
  | base => simp
  | succ year h ih =>
    rw [Finset.sum_Ico_succ_top h, leapYearsBelow_succ year (by omega), daysInYear]
    split_ifs <;> omega

/-! ## The order of dates -/

namespace DateTime

variable {d e : DateTime}

lemma epochDay_lt_of_year (h : 1970 ≤ d.year) (hlt : d.year < e.year) :
    epochDay d.year d.month d.day < epochDay e.year e.month e.day := by
  have hyear := sum_daysInYear_lt h hlt
  have hmonths := sum_daysInMonth_lt d.year d.month_lt
  rw [sum_daysInMonth] at hmonths
  have := d.day_le
  have := d.day_pos
  simp only [epochDay]
  omega

lemma epochDay_lt_of_month (hyear : d.year = e.year) (hlt : d.month < e.month) :
    epochDay d.year d.month d.day < epochDay e.year e.month e.day := by
  have hmonths := sum_daysInMonth_lt d.year hlt
  have := d.day_le
  have := d.day_pos
  simp only [epochDay, ← hyear]
  omega

/-- **The later of two dates has the larger number**, up to leap seconds. -/
theorem unixTime_lt (h : 1970 ≤ d.year) (hsecond : d.second < 60) (hlt : d.Before e) :
    d.unixTime < e.unixTime := by
  have hhour := d.hour_lt
  have hminute := d.minute_lt
  simp only [Before, fields, List.cons_lt_cons_iff, List.not_lt_nil, and_false, or_false] at hlt
  simp only [unixTime, Calendar.unixTime]
  have hday : epochDay d.year d.month d.day < epochDay e.year e.month e.day →
      ((epochDay d.year d.month d.day * 24 + d.hour) * 60 + d.minute) * 60 + d.second
        < ((epochDay e.year e.month e.day * 24 + e.hour) * 60 + e.minute) * 60 + e.second := by
    omega
  rcases hlt with hyear | ⟨hyear, hmonth | ⟨hmonth, hlt | ⟨heq, hlt⟩⟩⟩
  · exact hday (epochDay_lt_of_year h hyear)
  · exact hday (epochDay_lt_of_month hyear hmonth)
  · refine hday ?_
    have := d.day_pos
    rw [epochDay, epochDay, hyear, hmonth]
    omega
  · rw [hyear, hmonth, heq]
    omega

end DateTime

end Ator.Calendar
