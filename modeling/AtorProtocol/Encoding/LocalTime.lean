import AtorProtocol.Encoding.Gmtime
import AtorProtocol.Lib.CivilMonths

/-!
# Local times

`tor_localtime_r` of `src/lib/wallclock/time_to_tm.c` and `mktime`, where local time is UTC.

* `mktime` — the time of a broken-down time, whose fields may be out of range.
* `isDate_gmtime` — `gmtime` gives the one date of a time, before 1970 too.
* `torLocaltimeR_of_year` — `tor_localtime_r` gives it in the years 1 to 9999.
-/

namespace Ator.TimeFmt

open Calendar

/-- `struct tm` with `tm_wday`, in which Sunday is 0. -/
structure LocalTm extends Tm where
  tmWday : ℤ
deriving DecidableEq

/-- `tm_wday` of a time: 1 January 1970 was a Thursday. -/
def weekday (t : ℤ) : ℤ := (t / 86400 + 4) % 7

/-- `localtime_r` -/
def localtime (t : ℤ) : LocalTm := { gmtime t with tmWday := weekday t }

/-- `correct_tm`, where `localtime_r` or `gmtime_r` did not fail. -/
def correctTm (r : LocalTm) : LocalTm :=
  if r.tmYear > 8099 then ⟨⟨8099, 11, 31, 23, 59, 59⟩, 6⟩
  else if r.tmYear < 1 - 1900 then ⟨⟨1 - 1900, 0, 1, 0, 0, 0⟩, 0⟩
  else r

def torLocaltimeR (t : ℤ) : LocalTm := correctTm (localtime t)

def torGmtimeR (t : ℤ) : LocalTm := correctTm { gmtime t with tmWday := weekday t }

/-- The month of a broken-down time, over all years. -/
def Tm.month (tm : Tm) : ℤ := 12 * (tm.tmYear + 1900) + tm.tmMon

def mktime (tm : Tm) : ℤ :=
  (((monthStart tm.month + (tm.tmMday - 1)) * 24 + tm.tmHour) * 60 + tm.tmMin) * 60 + tm.tmSec

/-- The start of year 1. -/
def firstTime : ℤ := -62135596800

/-- The last second of year 9999. -/
def lastTime : ℤ := 253402300799

/-! ## Dates -/

/-- The broken-down time of a time: all its fields are in range. -/
structure IsDate (t : ℤ) (tm : Tm) : Prop where
  mon_nonneg : 0 ≤ tm.tmMon
  mon_lt : tm.tmMon < 12
  mday_pos : 1 ≤ tm.tmMday
  mday_le : tm.tmMday ≤ monthLength tm.month
  hour_nonneg : 0 ≤ tm.tmHour
  hour_lt : tm.tmHour < 24
  min_nonneg : 0 ≤ tm.tmMin
  min_lt : tm.tmMin < 60
  sec_nonneg : 0 ≤ tm.tmSec
  sec_lt : tm.tmSec < 60
  mktime_eq : mktime tm = t

namespace IsDate

variable {t : ℤ} {tm : Tm}

lemma day_eq (h : IsDate t tm) : t / 86400 = monthStart tm.month + (tm.tmMday - 1) := by
  obtain ⟨-, -, -, -, hhour, hhour', hmin, hmin', hsec, hsec', rfl⟩ := h
  rw [mktime]
  omega

lemma secondOfDay_eq (h : IsDate t tm) :
    t % 86400 = (tm.tmHour * 60 + tm.tmMin) * 60 + tm.tmSec := by
  obtain ⟨-, -, -, -, hhour, hhour', hmin, hmin', hsec, hsec', rfl⟩ := h
  rw [mktime]
  omega

lemma monthStart_le (h : IsDate t tm) : monthStart tm.month ≤ t / 86400 := by
  have hmday := h.mday_pos
  rw [h.day_eq]
  omega

lemma lt_monthStart (h : IsDate t tm) : t / 86400 < monthStart (tm.month + 1) := by
  have hmday := h.mday_le
  rw [h.day_eq, monthStart_succ]
  omega

lemma le_month_iff (h : IsDate t tm) (month : ℤ) :
    month ≤ tm.month ↔ monthStart month ≤ t / 86400 := by
  constructor
  · intro hle
    exact (strictMono_monthStart.monotone hle).trans h.monthStart_le
  · intro hle
    have hlt := strictMono_monthStart.lt_iff_lt.mp (hle.trans_lt h.lt_monthStart)
    omega

lemma year_le_iff (h : IsDate t tm) : tm.tmYear ≤ 8099 ↔ t ≤ lastTime := by
  have hmonth := h.le_month_iff 120000
  have hstart : monthStart 120000 = 2932897 := by decide
  have hmon := h.mon_nonneg
  have hmon' := h.mon_lt
  rw [hstart, Tm.month] at hmonth
  rw [lastTime]
  omega

lemma le_year_iff (h : IsDate t tm) : 1 - 1900 ≤ tm.tmYear ↔ firstTime ≤ t := by
  have hmonth := h.le_month_iff 12
  have hstart : monthStart 12 = -719162 := by decide
  have hmon := h.mon_nonneg
  have hmon' := h.mon_lt
  rw [hstart, Tm.month] at hmonth
  rw [firstTime]
  omega

end IsDate

/-! ## `gmtime` -/

lemma month_ofDate (d : DateTime) : (Tm.ofDate d).month = 12 * (d.year : ℤ) + d.month := by
  rw [Tm.month, Tm.ofDate, Tm.of]
  ring

lemma isDate_gmtime_of_nonneg {t : ℤ} (h : 0 ≤ t) : IsDate t (gmtime t) := by
  obtain ⟨d, hgmtime, htime, hyear, hsecond⟩ := exists_gmtime h
  have hmonth := month_ofDate d
  have hstart := monthStart_of_date hyear d.month_lt d.day_pos
  have hlength : (d.day : ℤ) ≤ monthLength (12 * (d.year : ℤ) + d.month) := by
    have hdiv : (12 * (d.year : ℤ) + d.month) / 12 = d.year := by
      have := d.month_lt
      omega
    have hmod : ((12 * (d.year : ℤ) + d.month) % 12).toNat = d.month := by
      omega
    rw [monthLength, hdiv, hmod, daysInMonth_cycleYear]
    exact_mod_cast d.day_le
  rw [hgmtime]
  refine ⟨by simp [Tm.ofDate], ?_, ?_, ?_, by simp [Tm.ofDate], ?_, by simp [Tm.ofDate], ?_,
    by simp [Tm.ofDate], ?_, ?_⟩
  · simpa [Tm.ofDate] using d.month_lt
  · simpa [Tm.ofDate] using d.day_pos
  · rw [hmonth]
    simpa [Tm.ofDate] using hlength
  · simpa [Tm.ofDate] using d.hour_lt
  · simpa [Tm.ofDate] using d.minute_lt
  · simpa [Tm.ofDate] using hsecond
  · rw [mktime, hmonth, htime, DateTime.unixTime, Calendar.unixTime]
    simp only [Tm.ofDate, Tm.of_tmMday, Tm.of_tmHour, Tm.of_tmMin, Tm.of_tmSec]
    push_cast
    rw [hstart]
    ring

/-- The whole cycles by which a time before 1970 is moved. -/
def cyclesBefore (t : ℤ) : ℕ := if t / 86400 < 0 then (t / 86400).natAbs / daysIn400Years + 1 else 0

lemma nonneg_add_cycles (t : ℤ) : 0 ≤ t + 86400 * (146097 * cyclesBefore t) := by
  rw [cyclesBefore, daysIn400Years]
  split_ifs <;> omega

lemma gmtime_eq (t : ℤ) :
    gmtime t = { gmtime (t + 86400 * (146097 * cyclesBefore t)) with
      tmYear := (gmtime (t + 86400 * (146097 * cyclesBefore t))).tmYear - 400 * cyclesBefore t } := by
  have hpos := nonneg_add_cycles t
  have hnot : ¬ ((t + 86400 * (146097 * cyclesBefore t)) / 86400 < 0) := by omega
  have hdays : (t / 86400 + cyclesBefore t * daysIn400Years).toNat
      = ((t + 86400 * (146097 * cyclesBefore t)) / 86400 + ((0 : ℕ) : ℤ) * daysIn400Years).toNat := by
    rw [daysIn400Years]
    omega
  have hsecond : t % 86400 = (t + 86400 * (146097 * cyclesBefore t)) % 86400 := by omega
  have hcycles : (if t / 86400 < 0 then (t / 86400).natAbs / daysIn400Years + 1 else 0)
      = cyclesBefore t := rfl
  rw [gmtime, gmtime]
  simp only [hcycles, hdays, hsecond, if_neg hnot]
  ring_nf

lemma IsDate.sub_cycles {t : ℤ} {tm : Tm} {cycles : ℕ}
    (h : IsDate (t + 86400 * (146097 * cycles)) tm) :
    IsDate t { tm with tmYear := tm.tmYear - 400 * cycles } := by
  obtain ⟨hmon, hmon', hmday, hmday', hhour, hhour', hmin, hmin', hsec, hsec', htime⟩ := h
  have hmonth : tm.month
      = ({ tm with tmYear := tm.tmYear - 400 * cycles } : Tm).month + 4800 * cycles := by
    rw [Tm.month, Tm.month]
    ring
  have hlength : monthLength ({ tm with tmYear := tm.tmYear - 400 * cycles } : Tm).month
      = monthLength tm.month := by
    rw [hmonth, monthLength_add_cycles]
  refine ⟨hmon, hmon', hmday, ?_, hhour, hhour', hmin, hmin', hsec, hsec', ?_⟩
  · rw [hlength]
    exact hmday'
  · rw [mktime, hmonth, monthStart_add_cycles] at htime
    rw [mktime]
    show (((_ + (tm.tmMday - 1)) * 24 + tm.tmHour) * 60 + tm.tmMin) * 60 + tm.tmSec = t
    omega

/-- **`gmtime` gives the date of a time.** -/
theorem isDate_gmtime (t : ℤ) : IsDate t (gmtime t) := by
  rw [gmtime_eq]
  exact (isDate_gmtime_of_nonneg (nonneg_add_cycles t)).sub_cycles

lemma isDate_localtime (t : ℤ) : IsDate t (localtime t).toTm := isDate_gmtime t

/-! ## The years that `tor_localtime_r` takes -/

variable {t : ℤ}

lemma torGmtimeR_eq (t : ℤ) : torGmtimeR t = torLocaltimeR t := rfl

/-- **In the years 1 to 9999 nothing is corrected.** -/
theorem torLocaltimeR_of_year (hfirst : firstTime ≤ t) (hlast : t ≤ lastTime) :
    torLocaltimeR t = localtime t := by
  have hle := (isDate_gmtime t).year_le_iff.mpr hlast
  have hge := (isDate_gmtime t).le_year_iff.mpr hfirst
  rw [torLocaltimeR, correctTm]
  exact (if_neg (not_lt.mpr hle)).trans (if_neg (not_lt.mpr hge))

lemma torLocaltimeR_of_late (h : lastTime < t) :
    torLocaltimeR t = ⟨⟨8099, 11, 31, 23, 59, 59⟩, 6⟩ := by
  have hyear : ¬ (gmtime t).tmYear ≤ 8099 := fun hle =>
    absurd ((isDate_gmtime t).year_le_iff.mp hle) (not_le.mpr h)
  rw [torLocaltimeR, correctTm]
  exact if_pos (not_le.mp hyear)

end Ator.TimeFmt
