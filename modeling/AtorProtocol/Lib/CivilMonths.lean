import AtorProtocol.Lib.Calendar
import Mathlib

/-!
# Months without an end

The Gregorian calendar over all integers: month `12 * year + month`, for any year, and the days
from the start of 1970 to its first day.

* `monthStart_succ` — each month lasts as long as the calendar says.
* `strictMono_monthStart` — the months tile the days.
* `monthStart_of_date` — from 1970 on, these are the days of `Calendar.epochDay`.
* `monthStart_add_cycles` — 400 years last 146097 days.

A strictly increasing sequence of edges tiles the integers: `eq_of_mem_tile`, `not_between_edges`.
-/

namespace Ator

/-! ## Tiles -/

section

variable {edge : ℤ → ℤ} {i j t : ℤ}

/-- No integer is in two tiles. -/
lemma eq_of_mem_tile (hedge : StrictMono edge) (hi : edge i ≤ t) (hi' : t < edge (i + 1))
    (hj : edge j ≤ t) (hj' : t < edge (j + 1)) : i = j := by
  have hij : i < j + 1 := hedge.lt_iff_lt.mp (hi.trans_lt hj')
  have hji : j < i + 1 := hedge.lt_iff_lt.mp (hj.trans_lt hi')
  omega

/-- No edge is inside a tile. -/
lemma not_between_edges (hedge : StrictMono edge) : edge j ≤ edge i ∨ edge (i + 1) ≤ edge j := by
  rcases Int.lt_or_le i j with hlt | hle
  · exact .inr (hedge.monotone hlt)
  · exact .inl (hedge.monotone hle)

end

namespace Calendar

/-- The days from the start of 1970 to the start of a year. -/
def yearStart (year : ℤ) : ℤ :=
  365 * (year - 1970) + ((year - 1) / 4 - (year - 1) / 100 + (year - 1) / 400) - 477

/-- The years of a cycle of 400, which have the same months. -/
def cycleYear (year : ℤ) : ℕ := (year % 400).toNat

/-- The days from the start of 1970 to the first day of a month. -/
def monthStart (month : ℤ) : ℤ :=
  yearStart (month / 12)
    + (∑ m ∈ Finset.range (month % 12).toNat, daysInMonth (cycleYear (month / 12)) m : ℕ)

/-- The days of a month. -/
def monthLength (month : ℤ) : ℕ := daysInMonth (cycleYear (month / 12)) (month % 12).toNat

lemma isLeap_cycleYear (year : ℤ) :
    IsLeap (cycleYear year) ↔ year % 4 = 0 ∧ (year % 100 ≠ 0 ∨ year % 400 = 0) := by
  unfold IsLeap cycleYear
  omega

lemma yearStart_succ (year : ℤ) :
    yearStart (year + 1) = yearStart year + daysInYear (cycleYear year) := by
  have hleap := isLeap_cycleYear year
  rw [daysInYear]
  split_ifs with h
  · rw [hleap] at h
    simp only [yearStart]
    omega
  · rw [hleap] at h
    simp only [yearStart]
    omega

/-- **A month ends where the next one starts.** -/
lemma monthStart_succ (month : ℤ) :
    monthStart (month + 1) = monthStart month + monthLength month := by
  rcases Int.lt_or_le (month % 12) 11 with hlt | hlast
  · have hyear : (month + 1) / 12 = month / 12 := by omega
    have hmonth : ((month + 1) % 12).toNat = (month % 12).toNat + 1 := by omega
    rw [monthStart, monthStart, monthLength, hyear, hmonth, Finset.sum_range_succ]
    push_cast
    ring
  · have hyear : (month + 1) / 12 = month / 12 + 1 := by omega
    have hfirst : ((month + 1) % 12).toNat = 0 := by omega
    have hlast : (month % 12).toNat = 11 := by omega
    have hsum := sum_daysInMonth (cycleYear (month / 12))
    rw [Finset.sum_range_succ] at hsum
    rw [monthStart, monthStart, monthLength, hyear, hfirst, hlast, yearStart_succ, ← hsum,
      Finset.sum_range_zero]
    push_cast
    ring

lemma le_daysInMonth (year month : ℕ) : 28 ≤ daysInMonth year month := by
  unfold daysInMonth
  split <;> (try split_ifs) <;> omega

lemma le_monthLength (month : ℤ) : 28 ≤ monthLength month := le_daysInMonth _ _

lemma strictMono_monthStart : StrictMono monthStart := by
  refine strictMono_int_of_lt_succ fun month => ?_
  have hlength := le_monthLength month
  rw [monthStart_succ]
  omega

/-- 400 years on, months start 146097 days later. -/
lemma monthStart_add_cycle (month : ℤ) : monthStart (month + 4800) = monthStart month + 146097 := by
  have hyear : (month + 4800) / 12 = month / 12 + 400 := by omega
  have hmonth : (month + 4800) % 12 = month % 12 := by omega
  have hcycle : cycleYear (month / 12 + 400) = cycleYear (month / 12) := by
    rw [cycleYear, cycleYear]
    omega
  have hstart : yearStart (month / 12 + 400) = yearStart (month / 12) + 146097 := by
    rw [yearStart, yearStart]
    omega
  rw [monthStart, monthStart, hyear, hmonth, hcycle, hstart]
  ring

lemma monthStart_add_cycles (month : ℤ) (cycles : ℕ) :
    monthStart (month + 4800 * cycles) = monthStart month + 146097 * cycles := by
  induction cycles with
  | zero => simp
  | succ cycles ih =>
    rw [show month + 4800 * ((cycles + 1 : ℕ) : ℤ) = month + 4800 * cycles + 4800 by
      push_cast
      ring, monthStart_add_cycle, ih]
    push_cast
    ring

lemma monthLength_add_cycles (month : ℤ) (cycles : ℕ) :
    monthLength (month + 4800 * cycles) = monthLength month := by
  have hyear : (month + 4800 * cycles) / 12 = month / 12 + 400 * cycles := by omega
  have hmonth : (month + 4800 * cycles) % 12 = month % 12 := by omega
  have hcycle : cycleYear (month / 12 + 400 * cycles) = cycleYear (month / 12) := by
    rw [cycleYear, cycleYear]
    omega
  rw [monthLength, monthLength, hyear, hmonth, hcycle]

lemma daysInMonth_cycleYear (year month : ℕ) :
    daysInMonth (cycleYear year) month = daysInMonth year month := by
  have hleap : IsLeap (cycleYear year) ↔ IsLeap year := by
    rw [isLeap_cycleYear]
    unfold IsLeap
    omega
  unfold daysInMonth
  simp only [hleap]

lemma yearStart_of_year {year : ℕ} (h : 1970 ≤ year) :
    yearStart year = (∑ y ∈ Finset.Ico 1970 year, daysInYear y : ℕ) := by
  have hsum := sum_daysInYear h
  have h1970 : leapYearsBelow 1970 = 477 := by decide
  rw [h1970, leapYearsBelow] at hsum
  rw [yearStart]
  omega

/-- **From 1970 on**, the months are those of the dates. -/
lemma monthStart_of_date {year month day : ℕ} (h : 1970 ≤ year) (hmonth : month < 12)
    (hday : 1 ≤ day) :
    (epochDay year month day : ℤ) = monthStart (12 * year + month) + day - 1 := by
  have hyear : (12 * (year : ℤ) + month) / 12 = year := by omega
  have hmod : ((12 * (year : ℤ) + month) % 12).toNat = month := by omega
  have hmonths : ∑ m ∈ Finset.range month, daysInMonth (cycleYear year) m
      = ∑ m ∈ Finset.range month, daysInMonth year m :=
    Finset.sum_congr rfl fun m _ => daysInMonth_cycleYear year m
  rw [monthStart, hyear, hmod, hmonths, yearStart_of_year h, epochDay]
  omega

end Calendar

end Ator
