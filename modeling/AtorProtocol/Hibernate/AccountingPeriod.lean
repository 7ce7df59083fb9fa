import AtorProtocol.Encoding.LocalTime
import AtorProtocol.Encoding.Split

/-!
# Accounting periods

`accounting_parse_options`, `edge_of_accounting_period_containing` and
`start_of_accounting_period_after` of `src/feature/hibernate/hibernate.c`, where local time is UTC.

* `accountingParseOptions` — the periods that `AccountingStart` asks for.
* `Tiles` — the period of a time contains it, and is between two neighbouring changeovers.
* `accountingPeriods_tile` — so it is in the years 1 to 9999, and the end of a period starts the
  next one.
* `not_tiles_after_9999` — later times are taken for the last second of the year 9999.
-/

namespace Ator.Hibernate

open TimeFmt Calendar Text Option

inductive TimeUnit where
  | month
  | week
  | day
deriving DecidableEq

/-- `cfg_unit`, `cfg_start_day`, `cfg_start_hour` and `cfg_start_min` -/
structure PeriodConfig where
  unit : TimeUnit
  startDay : ℤ
  startHour : ℤ
  startMin : ℤ
deriving DecidableEq

/-! ## The options -/

/-- `tor_parse_long(s, 10, min, max, &ok, &next)` -/
def torParseLongNext (s : List Char) (min max : ℤ) : Option (ℤ × List Char) :=
  match strtol s with
  | some (r, next) => if r < min ∨ max < r then none else some (r, next)
  | none => none

/-- `!strcasecmp(s1, s2)` -/
def equalCase (s1 s2 : List Char) : Bool := s1.map Char.toLower = s2.map Char.toLower

/-- The unit that the first item names. -/
def TimeUnit.ofItem (s : List Char) : Option TimeUnit :=
  if equalCase s "month".toList then some .month
  else if equalCase s "week".toList then some .week
  else if equalCase s "day".toList then some .day
  else none

/-- `d`, read from the second item. -/
def parseStartDay (unit : TimeUnit) (s : List Char) : Option ℤ :=
  match unit with
  | .week => torParseLong s 1 7
  | .month => torParseLong s 1 28
  | .day => some 0

/-- `idx`, the item with the time of day. -/
def TimeUnit.idx (unit : TimeUnit) : ℕ := if unit = .day then 1 else 2

/-- `h` and `m`, read from `HH:MM`. -/
def parseStartTime (s : List Char) : Option (ℤ × ℤ) :=
  match torParseLongNext s 0 23 with
  | some (h, ':' :: cp) =>
    match torParseLongNext cp 0 59 with
    | some (m, []) => some (h, m)
    | _ => none
  | _ => none

/-- `accounting_parse_options` of `AccountingStart`; `none` for -1. -/
def accountingParseOptions : Option (List Char) → Option PeriodConfig
  | none => some ⟨.month, 1, 0, 0⟩
  | some v =>
    match splitHorizontal v with
    | s :: second :: rest => do
        let unit ← TimeUnit.ofItem s
        let d ← parseStartDay unit second
        if (s :: second :: rest).length ≠ unit.idx + 1 then none
        else do
          let (h, m) ← parseStartTime ((s :: second :: rest).getD unit.idx [])
          some ⟨unit, d, h, m⟩
    | _ => none

/-- The settings that can be in effect. -/
structure PeriodConfig.Accepted (cfg : PeriodConfig) : Prop where
  day_month : cfg.unit = .month → 1 ≤ cfg.startDay ∧ cfg.startDay ≤ 28
  day_week : cfg.unit = .week → 1 ≤ cfg.startDay ∧ cfg.startDay ≤ 7
  hour_nonneg : 0 ≤ cfg.startHour
  hour_lt : cfg.startHour < 24
  min_nonneg : 0 ≤ cfg.startMin
  min_lt : cfg.startMin < 60

/-- The current time is before the changeover time for today. -/
def before (cfg : PeriodConfig) (tm : Tm) : Bool :=
  tm.tmHour < cfg.startHour ∨ (tm.tmHour = cfg.startHour ∧ tm.tmMin < cfg.startMin)

/-- The day of the edge, as the switch over the unit leaves it in `tm`. -/
def edgeDay (cfg : PeriodConfig) (tm : LocalTm) (getEnd : Bool) : Tm :=
  match cfg.unit with
  | .month =>
    let tmMon :=
      if tm.tmMday < cfg.startDay ∨ (tm.tmMday = cfg.startDay ∧ before cfg tm.toTm) then tm.tmMon - 1
      else tm.tmMon
    { tm.toTm with tmMday := cfg.startDay, tmMon := if getEnd then tmMon + 1 else tmMon }
  | .week =>
    let wday := cfg.startDay.tmod 7
    let delta := (7 + tm.tmWday - wday).tmod 7
    let delta := if delta = 0 ∧ before cfg tm.toTm then 7 else delta
    let tmMday := tm.tmMday - delta
    { tm.toTm with tmMday := if getEnd then tmMday + 7 else tmMday }
  | .day =>
    let tmMday := if before cfg tm.toTm then tm.tmMday - 1 else tm.tmMday
    { tm.toTm with tmMday := if getEnd then tmMday + 1 else tmMday }

def edgeOfAccountingPeriodContaining (cfg : PeriodConfig) (now : ℤ) (getEnd : Bool) : ℤ :=
  let tm := torLocaltimeR now
  mktime { edgeDay cfg tm getEnd with
    tmHour := cfg.startHour, tmMin := cfg.startMin, tmSec := 0 }

def startOfAccountingPeriodContaining (cfg : PeriodConfig) (now : ℤ) : ℤ :=
  edgeOfAccountingPeriodContaining cfg now false

def startOfAccountingPeriodAfter (cfg : PeriodConfig) (now : ℤ) : ℤ :=
  edgeOfAccountingPeriodContaining cfg now true

/-! ## Periods -/

/-- A changeover: the configured day and time of day. -/
def IsChangeover (cfg : PeriodConfig) (t : ℤ) : Prop :=
  (localtime t).tmHour = cfg.startHour ∧ (localtime t).tmMin = cfg.startMin
    ∧ (localtime t).tmSec = 0
    ∧ match cfg.unit with
      | .month => (localtime t).tmMday = cfg.startDay
      | .week => (localtime t).tmWday = cfg.startDay % 7
      | .day => True

/-- The period of a time contains it, and starts and ends with changeovers that follow each other. -/
structure Tiles (cfg : PeriodConfig) (t : ℤ) : Prop where
  start_le : startOfAccountingPeriodContaining cfg t ≤ t
  lt_after : t < startOfAccountingPeriodAfter cfg t
  changeover_start : IsChangeover cfg (startOfAccountingPeriodContaining cfg t)
  changeover_after : IsChangeover cfg (startOfAccountingPeriodAfter cfg t)
  none_between : ∀ edge, IsChangeover cfg edge →
    ¬ (startOfAccountingPeriodContaining cfg t < edge ∧ edge < startOfAccountingPeriodAfter cfg t)

/-- The second of the day at which periods change over. -/
def PeriodConfig.secondOfDay (cfg : PeriodConfig) : ℤ := (cfg.startHour * 60 + cfg.startMin) * 60

/-- The day of the changeover in a month, a week or a day, all of them numbered. -/
def PeriodConfig.changeoverDay (cfg : PeriodConfig) (i : ℤ) : ℤ :=
  match cfg.unit with
  | .month => monthStart i + (cfg.startDay - 1)
  | .week => 7 * i + cfg.startDay % 7 - 4
  | .day => i

/-- The changeovers, numbered. -/
def PeriodConfig.changeover (cfg : PeriodConfig) (i : ℤ) : ℤ :=
  cfg.changeoverDay i * 86400 + cfg.secondOfDay

variable {v : Option (List Char)} {s rest : List Char} {cfg : PeriodConfig} {t : ℤ}

/-! ## What is accepted -/

lemma torParseLong_bounds {min max n : ℤ} (h : torParseLong s min max = some n) :
    min ≤ n ∧ n ≤ max := by
  rw [torParseLong] at h
  split at h
  · split_ifs at h with hout
    · rw [some.injEq] at h
      omega
  · cases h

lemma torParseLongNext_bounds {min max n : ℤ} (h : torParseLongNext s min max = some (n, rest)) :
    min ≤ n ∧ n ≤ max := by
  rw [torParseLongNext] at h
  split at h
  · split_ifs at h with hout
    · rw [some.injEq, Prod.mk.injEq] at h
      omega
  · cases h

lemma parseStartTime_bounds {h m : ℤ} (heq : parseStartTime s = some (h, m)) :
    (0 ≤ h ∧ h ≤ 23) ∧ 0 ≤ m ∧ m ≤ 59 := by
  rw [parseStartTime] at heq
  split at heq
  · rename_i hour cp hhour
    split at heq
    · rename_i minute hminute
      obtain ⟨rfl, rfl⟩ := heq
      exact ⟨torParseLongNext_bounds hhour, torParseLongNext_bounds hminute⟩
    · cases heq
  · cases heq

/-- **The settings that are accepted are in range.** -/
lemma accountingParseOptions_accepted (h : accountingParseOptions v = some cfg) : cfg.Accepted := by
  cases v with
  | none =>
    rw [accountingParseOptions, some.injEq] at h
    subst h
    constructor <;> simp
  | some v =>
    rw [accountingParseOptions] at h
    split at h
    · simp only [Option.bind_eq_bind, Option.bind_eq_some_iff] at h
      obtain ⟨unit, -, d, hday, h⟩ := h
      split_ifs at h
      simp only [Option.bind_eq_some_iff, some.injEq] at h
      obtain ⟨⟨hour, minute⟩, htime, rfl⟩ := h
      obtain ⟨⟨hhour, hhour'⟩, hmin, hmin'⟩ := parseStartTime_bounds htime
      refine ⟨?_, ?_, hhour, by show hour < 24; omega, hmin, by show minute < 60; omega⟩
      · intro hmonth
        obtain rfl : unit = .month := hmonth
        exact torParseLong_bounds hday
      · intro hweek
        obtain rfl : unit = .week := hweek
        exact torParseLong_bounds hday
    · cases h

lemma strictMono_changeover (cfg : PeriodConfig) : StrictMono cfg.changeover := by
  have hday : StrictMono cfg.changeoverDay := by
    intro i j hij
    rw [PeriodConfig.changeoverDay, PeriodConfig.changeoverDay]
    cases cfg.unit with
    | month => exact Int.add_lt_add_right (strictMono_monthStart hij) _
    | week => show 7 * i + _ - 4 < 7 * j + _ - 4; omega
    | day => exact hij
  intro i j hij
  have hlt := hday hij
  rw [PeriodConfig.changeover, PeriodConfig.changeover]
  omega

/-- The days from the start of 1970 to the day of a broken-down time. -/
def dayNumber (tm : Tm) : ℤ := monthStart tm.month + (tm.tmMday - 1)

/-- The last day whose changeover is not after the time. -/
def lastDay (cfg : PeriodConfig) (t : ℤ) : ℤ := (t - cfg.secondOfDay) / 86400

/-- The period of a time is that from changeover `i`. -/
structure InPeriod (cfg : PeriodConfig) (t i : ℤ) : Prop where
  edge_day : ∀ getEnd, dayNumber (edgeDay cfg (localtime t) getEnd)
    = cfg.changeoverDay (if getEnd then i + 1 else i)
  le_lastDay : cfg.changeoverDay i ≤ lastDay cfg t
  lastDay_lt : lastDay cfg t < cfg.changeoverDay (i + 1)

lemma edge_eq (cfg : PeriodConfig) (getEnd : Bool) (hfirst : firstTime ≤ t) (hlast : t ≤ lastTime) :
    edgeOfAccountingPeriodContaining cfg t getEnd
      = dayNumber (edgeDay cfg (localtime t) getEnd) * 86400 + cfg.secondOfDay := by
  rw [edgeOfAccountingPeriodContaining, torLocaltimeR_of_year hfirst hlast, mktime, dayNumber,
    PeriodConfig.secondOfDay]
  show (((monthStart (edgeDay cfg (localtime t) getEnd).month + _) * 24 + _) * 60 + _) * 60 + 0 = _
  ring

namespace PeriodConfig.Accepted

variable (hcfg : cfg.Accepted)

include hcfg

lemma secondOfDay_nonneg : 0 ≤ cfg.secondOfDay := by
  have hhour := hcfg.hour_nonneg
  have hmin := hcfg.min_nonneg
  rw [PeriodConfig.secondOfDay]
  omega

lemma secondOfDay_lt : cfg.secondOfDay < 86400 := by
  have hhour := hcfg.hour_lt
  have hmin := hcfg.min_lt
  rw [PeriodConfig.secondOfDay]
  omega

lemma before_iff {tm : Tm} (h : IsDate t tm) : before cfg tm ↔ t % 86400 < cfg.secondOfDay := by
  have hmin := hcfg.min_nonneg
  have hmin' := hcfg.min_lt
  have hdate := h.min_nonneg
  have hdate' := h.min_lt
  have hsec := h.sec_nonneg
  have hsec' := h.sec_lt
  rw [h.secondOfDay_eq, PeriodConfig.secondOfDay, before, decide_eq_true_iff]
  omega

lemma isChangeover_iff :
    IsChangeover cfg t ↔ t % 86400 = cfg.secondOfDay ∧ ∃ i, t / 86400 = cfg.changeoverDay i := by
  have hdate := isDate_gmtime t
  have htime : ((gmtime t).tmHour = cfg.startHour ∧ (gmtime t).tmMin = cfg.startMin
      ∧ (gmtime t).tmSec = 0) ↔ t % 86400 = cfg.secondOfDay := by
    have hmin := hcfg.min_nonneg
    have hmin' := hcfg.min_lt
    have hdmin := hdate.min_nonneg
    have hdmin' := hdate.min_lt
    have hdsec := hdate.sec_nonneg
    have hdsec' := hdate.sec_lt
    rw [hdate.secondOfDay_eq, PeriodConfig.secondOfDay]
    omega
  rw [← htime, and_assoc, and_assoc]
  refine and_congr_right' (and_congr_right' (and_congr_right' ?_))
  have hday := hdate.day_eq
  cases hunit : cfg.unit with
  | month =>
    simp only [PeriodConfig.changeoverDay, hunit]
    obtain ⟨hfirst, hlast⟩ := hcfg.day_month hunit
    constructor
    · intro hmday
      have hmday : (gmtime t).tmMday = cfg.startDay := hmday
      exact ⟨(gmtime t).month, by rw [hday, hmday]⟩
    · rintro ⟨i, hi⟩
      have hlength := le_monthLength i
      have hmonth : (gmtime t).month = i :=
        eq_of_mem_tile strictMono_monthStart hdate.monthStart_le hdate.lt_monthStart
          (by omega) (by rw [monthStart_succ]; omega)
      show (gmtime t).tmMday = cfg.startDay
      rw [hmonth] at hday
      omega
  | week =>
    simp only [PeriodConfig.changeoverDay, hunit]
    show (t / 86400 + 4) % 7 = cfg.startDay % 7 ↔ _
    constructor
    · intro hwday
      exact ⟨(t / 86400 + 4) / 7, by omega⟩
    · rintro ⟨i, hi⟩
      omega
  | day =>
    simp only [PeriodConfig.changeoverDay, hunit, exists_eq']

/-- **The changeovers are those of the sequence.** -/
lemma isChangeover_iff_exists : IsChangeover cfg t ↔ ∃ i, t = cfg.changeover i := by
  have hnonneg := hcfg.secondOfDay_nonneg
  have hlt := hcfg.secondOfDay_lt
  rw [hcfg.isChangeover_iff]
  constructor
  · rintro ⟨hsecond, i, hi⟩
    exact ⟨i, by rw [PeriodConfig.changeover]; omega⟩
  · rintro ⟨i, rfl⟩
    rw [PeriodConfig.changeover]
    exact ⟨by omega, i, by omega⟩

/-! ## The edges of a period -/

lemma lastDay_eq (t : ℤ) :
    lastDay cfg t = if before cfg (localtime t).toTm then t / 86400 - 1 else t / 86400 := by
  have hnonneg := hcfg.secondOfDay_nonneg
  have hlt := hcfg.secondOfDay_lt
  have hbefore := hcfg.before_iff (isDate_localtime t)
  rw [lastDay]
  split_ifs with h
  · rw [hbefore] at h
    omega
  · rw [hbefore] at h
    omega

lemma inPeriod_month (hunit : cfg.unit = .month) (t : ℤ) : ∃ i, InPeriod cfg t i := by
  have hdate := isDate_localtime t
  have hday := hdate.day_eq
  have hmday := hdate.mday_pos
  have hmday' := hdate.mday_le
  have hlast := hcfg.lastDay_eq t
  have hnext := monthStart_succ (localtime t).month
  obtain ⟨hfirst, hfits⟩ := hcfg.day_month hunit
  by_cases hearly : (localtime t).tmMday < cfg.startDay
      ∨ ((localtime t).tmMday = cfg.startDay ∧ before cfg (localtime t).toTm)
  · have hprevious := monthStart_succ ((localtime t).month - 1)
    have hlength := le_monthLength ((localtime t).month - 1)
    rw [sub_add_cancel] at hprevious
    refine ⟨(localtime t).month - 1, fun getEnd => ?_, ?_, ?_⟩
    · simp only [edgeDay, hunit, dayNumber, Tm.month, PeriodConfig.changeoverDay, if_pos hearly]
      cases getEnd with
      | false => simp only [Bool.false_eq_true, if_false, add_sub_assoc]
      | true => simp only [if_true, sub_add_cancel]
    · simp only [PeriodConfig.changeoverDay, hunit]
      split_ifs at hlast <;> omega
    · simp only [PeriodConfig.changeoverDay, hunit, sub_add_cancel]
      rcases hearly with hlt | ⟨heq, hbefore⟩
      · split_ifs at hlast <;> omega
      · rw [if_pos hbefore] at hlast
        omega
  · refine ⟨(localtime t).month, fun getEnd => ?_, ?_, ?_⟩
    · simp only [edgeDay, hunit, dayNumber, Tm.month, PeriodConfig.changeoverDay, if_neg hearly]
      cases getEnd with
      | false => simp only [Bool.false_eq_true, if_false]
      | true => simp only [if_true, add_assoc]
    · simp only [PeriodConfig.changeoverDay, hunit]
      rw [not_or, not_and] at hearly
      split_ifs at hlast with hbefore
      · have hne : (localtime t).tmMday ≠ cfg.startDay := fun heq => hearly.2 heq hbefore
        omega
      · omega
    · simp only [PeriodConfig.changeoverDay, hunit]
      split_ifs at hlast <;> omega

lemma inPeriod_week (hunit : cfg.unit = .week) (t : ℤ) : ∃ i, InPeriod cfg t i := by
  have hday := (isDate_localtime t).day_eq
  have hlast := hcfg.lastDay_eq t
  obtain ⟨hfirst, hfits⟩ := hcfg.day_week hunit
  have hdelta : (7 + (localtime t).tmWday - cfg.startDay.tmod 7).tmod 7
      = (t / 86400 + 4 - cfg.startDay) % 7 := by
    show (7 + (t / 86400 + 4) % 7 - _).tmod 7 = _
    have hwday : cfg.startDay.tmod 7 = cfg.startDay % 7 := Int.tmod_eq_emod_of_nonneg (by omega)
    rw [hwday, Int.tmod_eq_emod_of_nonneg (by omega)]
    omega
  rw [Tm.month] at hday
  refine ⟨(lastDay cfg t + 4 - cfg.startDay % 7) / 7, fun getEnd => ?_, ?_, ?_⟩
  · simp only [edgeDay, hunit, dayNumber, Tm.month, PeriodConfig.changeoverDay, hdelta, hlast]
    by_cases hbefore : before cfg (localtime t).toTm
    · simp only [hbefore, and_true, if_true]
      split_ifs <;> omega
    · simp only [hbefore, Bool.false_eq_true, and_false, if_false]
      split_ifs <;> omega
  · simp only [PeriodConfig.changeoverDay, hunit]
    omega
  · simp only [PeriodConfig.changeoverDay, hunit]
    omega

lemma inPeriod_day (hunit : cfg.unit = .day) (t : ℤ) : ∃ i, InPeriod cfg t i := by
  have hday := (isDate_localtime t).day_eq
  have hlast := hcfg.lastDay_eq t
  rw [Tm.month] at hday
  refine ⟨lastDay cfg t, fun getEnd => ?_, ?_, ?_⟩
  · simp only [edgeDay, hunit, dayNumber, Tm.month, PeriodConfig.changeoverDay]
    by_cases hbefore : before cfg (localtime t).toTm
    · simp only [hbefore, if_true] at hlast ⊢
      split_ifs <;> omega
    · simp only [hbefore, Bool.false_eq_true, if_false] at hlast ⊢
      split_ifs <;> omega
  · simp only [PeriodConfig.changeoverDay, hunit, le_refl]
  · simp only [PeriodConfig.changeoverDay, hunit]
    omega

lemma exists_inPeriod (t : ℤ) : ∃ i, InPeriod cfg t i := by
  cases hunit : cfg.unit with
  | month => exact hcfg.inPeriod_month hunit t
  | week => exact hcfg.inPeriod_week hunit t
  | day => exact hcfg.inPeriod_day hunit t

/-- **The edges of a period are two neighbouring changeovers around the time.** -/
lemma exists_edges (hfirst : firstTime ≤ t) (hlast : t ≤ lastTime) :
    ∃ i, startOfAccountingPeriodContaining cfg t = cfg.changeover i
      ∧ startOfAccountingPeriodAfter cfg t = cfg.changeover (i + 1)
      ∧ cfg.changeover i ≤ t ∧ t < cfg.changeover (i + 1) := by
  obtain ⟨i, hedge, hle, hlt⟩ := hcfg.exists_inPeriod t
  refine ⟨i, ?_, ?_, ?_, ?_⟩
  · rw [startOfAccountingPeriodContaining, edge_eq cfg false hfirst hlast, hedge,
      PeriodConfig.changeover]
    rfl
  · rw [startOfAccountingPeriodAfter, edge_eq cfg true hfirst hlast, hedge, PeriodConfig.changeover]
    rfl
  · rw [lastDay] at hle
    rw [PeriodConfig.changeover]
    omega
  · rw [lastDay] at hlt
    rw [PeriodConfig.changeover]
    omega

end PeriodConfig.Accepted

lemma accountingParseOptions_month :
    accountingParseOptions (some "Month 15 12:30".toList) = some ⟨.month, 15, 12, 30⟩ := by
  have hspace : ["Month".toList, "15".toList, "12:30".toList].all
      (fun s => s ≠ [] ∧ s.all (¬ isCSpace ·)) := rfl
  have hpieces : ∀ s ∈ ["Month".toList, "15".toList, "12:30".toList], IsPiece isHorizontal s := by
    intro s hs
    have hs := List.all_eq_true.mp hspace s hs
    simp only [ne_eq, List.all_eq_true, decide_eq_true_eq, Bool.not_eq_true] at hs
    exact isPiece_of_notSpace hs.1 hs.2 fun c => isHorizontal_space
  have hsplit : splitHorizontal "Month 15 12:30".toList
      = ["Month".toList, "15".toList, "12:30".toList] :=
    splitHorizontal_join hpieces
  rw [accountingParseOptions, hsplit]
  decide

/-! ## The main results -/

/-- **Accounting periods tile the years 1 to 9999**, and the end of a period is the start of the
next. -/
theorem accountingPeriods_tile (hcfg : accountingParseOptions v = some cfg)
    (hfirst : firstTime ≤ t) (hlast : t ≤ lastTime) :
    Tiles cfg t ∧ (startOfAccountingPeriodAfter cfg t ≤ lastTime →
        startOfAccountingPeriodContaining cfg (startOfAccountingPeriodAfter cfg t)
          = startOfAccountingPeriodAfter cfg t) := by
  have hmono := strictMono_changeover cfg
  have haccepted := accountingParseOptions_accepted hcfg
  obtain ⟨i, hstart, hafter, hle, hlt⟩ := haccepted.exists_edges hfirst hlast
  constructor
  · refine ⟨hstart ▸ hle, hafter ▸ hlt, ?_, ?_, ?_⟩
    · rw [hstart]
      exact haccepted.isChangeover_iff_exists.mpr ⟨i, rfl⟩
    · rw [hafter]
      exact haccepted.isChangeover_iff_exists.mpr ⟨i + 1, rfl⟩
    · intro edge hedge
      obtain ⟨j, rfl⟩ := haccepted.isChangeover_iff_exists.mp hedge
      rw [hstart, hafter]
      rintro ⟨hlow, hhigh⟩
      rcases not_between_edges hmono (i := i) (j := j) with hout | hout
      · exact absurd hlow (not_lt.mpr hout)
      · exact absurd hhigh (not_lt.mpr hout)
  · intro hend
    rw [hafter] at hend ⊢
    obtain ⟨j, hnext, -, hle', hlt'⟩ := haccepted.exists_edges (hfirst.trans hlt.le) hend
    have hij : j = i + 1 := eq_of_mem_tile hmono hle' hlt' le_rfl (hmono (by omega))
    rw [hnext, hij]

/-- Periods from the 15th of a month at 12:30; this one has a leap day. -/
theorem accountingPeriods_tile_leapYear :
    Tiles ⟨.month, 15, 12, 30⟩ 1709210096
      ∧ (startOfAccountingPeriodAfter ⟨.month, 15, 12, 30⟩ 1709210096 ≤ lastTime →
        startOfAccountingPeriodContaining ⟨.month, 15, 12, 30⟩
            (startOfAccountingPeriodAfter ⟨.month, 15, 12, 30⟩ 1709210096)
          = startOfAccountingPeriodAfter ⟨.month, 15, 12, 30⟩ 1709210096) :=
  accountingPeriods_tile accountingParseOptions_month (by decide) (by decide)

/-- On the first day of the year 10000 the period is over before the time it is asked about. -/
theorem not_tiles_after_9999 :
    accountingParseOptions none = some ⟨.month, 1, 0, 0⟩
      ∧ ¬ 253402300800 < startOfAccountingPeriodAfter ⟨.month, 1, 0, 0⟩ 253402300800 := by
  refine ⟨rfl, ?_⟩
  rw [startOfAccountingPeriodAfter, edgeOfAccountingPeriodContaining,
    torLocaltimeR_of_late (by decide)]
  decide

end Ator.Hibernate
