import AtorProtocol.Encoding.LocalTime

/-!
# The voting schedule

`voting_sched_get_start_of_interval_after` of `src/feature/nodelist/networkstatus.c`, and
`src/feature/dirauth/voting_schedule.c`.

* `IsStart` — where an interval starts, by the comment of the first.
* `votingSchedule_spec` — the next start is found unless a merge is undone.
-/

namespace Ator.VotingSched

open TimeFmt

/-- `tor_timegm`, with the `timegm` of the system: -1 is an error. -/
def torTimegm (tm : Tm) : ℤ := if mktime tm = -1 then 0 else mktime tm

/-- `voting_sched_get_start_of_interval_after` -/
def startOfIntervalAfter (now interval offset : ℤ) : ℤ :=
  let tm := (torGmtimeR now).toTm
  let midnightToday := torTimegm { tm with tmHour := 0, tmMin := 0, tmSec := 0 }
  let midnightTomorrow := midnightToday + 24 * 60 * 60
  let next := midnightToday + ((now - midnightToday).tdiv interval + 1) * interval
  let next := if next > midnightTomorrow then midnightTomorrow else next
  let next := if next + interval.tdiv 2 > midnightTomorrow then midnightTomorrow else next
  let next := next + offset
  if next - interval > now then next - interval else next

/-- The fields of `networkstatus_t` that are read. -/
structure Networkstatus where
  validAfter : ℤ
  freshUntil : ℤ
  voteSeconds : ℤ
  distSeconds : ℤ

/-- The fields of `or_options_t` that are read. -/
structure OrOptions where
  testingV3AuthInitialVotingInterval : ℤ
  testingV3AuthInitialVoteDelay : ℤ
  testingV3AuthInitialDistDelay : ℤ
  testingV3AuthVotingStartOffset : ℤ

/-- `voting_schedule_t`, without `created_on_demand` and the flags of what has been done. -/
structure VotingSchedule where
  intervalStarts : ℤ
  fetchMissingSignatures : ℤ
  votingEnds : ℤ
  fetchMissingVotes : ℤ
  votingStarts : ℤ
  interval : ℤ
  liveConsensusValidAfter : ℤ

/-- The interval, the delays of the votes and of the signatures, and where they are from. -/
def timing (options : OrOptions) : Option Networkstatus → ℤ × ℤ × ℤ × ℤ
  | some ns => (ns.freshUntil - ns.validAfter, ns.voteSeconds, ns.distSeconds, ns.validAfter)
  | none => (options.testingV3AuthInitialVotingInterval, options.testingV3AuthInitialVoteDelay,
      options.testingV3AuthInitialDistDelay, 0)

/-- The delays, where they leave room for each other. -/
def delays (interval voteDelay distDelay : ℤ) : ℤ × ℤ :=
  if voteDelay + distDelay > interval.tdiv 2 then (interval.tdiv 4, interval.tdiv 4)
  else (voteDelay, distDelay)

/-- `create_voting_schedule`, with the live consensus; `none` where an assertion fails. -/
def createVotingSchedule (options : OrOptions) (consensus : Option Networkstatus) (now : ℤ) :
    Option VotingSchedule :=
  match timing options consensus with
  | (interval, voteDelay, distDelay, validAfter) =>
    if ¬ interval > 0 then none else
    let (voteDelay, distDelay) := delays interval voteDelay distDelay
    let start := startOfIntervalAfter now interval options.testingV3AuthVotingStartOffset
    if ¬ startOfIntervalAfter (start + 1) interval options.testingV3AuthVotingStartOffset > start
    then none
    else some
      { intervalStarts := start
        fetchMissingSignatures := start - distDelay.tdiv 2
        votingEnds := start - distDelay
        fetchMissingVotes := start - distDelay - voteDelay.tdiv 2
        votingStarts := start - distDelay - voteDelay
        interval := interval
        liveConsensusValidAfter := validAfter }

/-- `dirauth_get_voting_schedule`, where `sched` is none as long as it is all zero. -/
def dirauthGetVotingSchedule (options : OrOptions) (ns : Option Networkstatus) (now : ℤ)
    (sched : Option VotingSchedule) : Option VotingSchedule :=
  match sched with
  | none => createVotingSchedule options ns now
  | some s =>
    if ns.any (·.validAfter ≠ s.liveConsensusValidAfter) then createVotingSchedule options ns now
    else some s

def dirauthSchedGetCurValidAfterTime (options : OrOptions) (ns : Option Networkstatus) (now : ℤ)
    (sched : Option VotingSchedule) : Option ℤ :=
  (dirauthGetVotingSchedule options ns now sched).map fun s =>
    startOfIntervalAfter (s.intervalStarts - s.interval - 1) s.interval
      options.testingV3AuthVotingStartOffset

/-! ## The starts of the intervals -/

/-- Intervals start at the multiples from midnight on, but for one that would last less than half
as long. -/
def IsStart (interval t : ℤ) : Prop :=
  interval ∣ t % 86400 ∧ (t % 86400 = 0 ∨ interval ≤ 2 * (86400 - t % 86400))

/-- A time of an interval that the last one of the day is merged with. -/
def InMerged (interval now : ℤ) : Prop :=
  0 < 86400 % interval ∧ 2 * (86400 % interval) < interval
    ∧ 86400 - 86400 % interval - interval ≤ now % 86400

/-- The merge is undone: the next start is more than an interval away. -/
def MergeUndone (interval now : ℤ) : Prop := InMerged interval now ∧ now % 86400 < 86400 - interval

variable {now interval t : ℤ}

lemma next_multiple (hpos : 0 < interval) (x : ℤ) : x < (x / interval + 1) * interval
    ∧ (x / interval + 1) * interval ≤ x + interval
    ∧ ∀ y, interval ∣ y → x < y → (x / interval + 1) * interval ≤ y := by
  have hmod := Int.emod_nonneg x hpos.ne'
  have hlt := Int.emod_lt_of_pos x hpos
  have hdiv := Int.mul_ediv_add_emod x interval
  rw [add_mul, one_mul, mul_comm]
  refine ⟨by omega, by omega, ?_⟩
  rintro _ ⟨j, rfl⟩ hj
  have hle : interval * (x / interval + 1) ≤ interval * j :=
    mul_le_mul_of_nonneg_left (Int.ediv_lt_of_lt_mul hpos (by rwa [mul_comm])) hpos.le
  rwa [mul_add, mul_one] at hle

lemma startOfIntervalAfter_of_year (hfirst : firstTime ≤ now) (hlast : now ≤ lastTime)
    (hpos : 0 < interval) : ∃ m, m = (now % 86400 / interval + 1) * interval
      ∧ startOfIntervalAfter now interval 0 = 86400 * (now / 86400)
        + if m > 86400 ∨ m + interval / 2 > 86400 then
            if 86400 - interval > now % 86400 then 86400 - interval else 86400
          else m := by
  refine ⟨_, rfl, ?_⟩
  obtain ⟨-, hle, -⟩ := next_multiple hpos (now % 86400)
  have hmidnight : mktime { (localtime now).toTm with tmHour := 0, tmMin := 0, tmSec := 0 }
      = 86400 * (now / 86400) := by
    rw [mktime, (isDate_localtime now).day_eq]
    simp only [Tm.month]
    ring
  have hne : ¬ 86400 * (now / 86400) = -1 := by omega
  have hsecond : now - 86400 * (now / 86400) = now % 86400 := by omega
  simp only [startOfIntervalAfter, torGmtimeR_eq, torLocaltimeR_of_year hfirst hlast, torTimegm,
    hmidnight, if_neg hne, hsecond]
  rw [Int.tdiv_eq_ediv_of_nonneg (by omega), Int.tdiv_eq_ediv_of_nonneg hpos.le]
  split_ifs <;> omega

lemma day_emod {m : ℤ} (hdvd : interval ∣ m) (hm : m ≤ 86400) (hlt : 86400 < m + interval) :
    86400 % interval = 86400 - m := by
  obtain ⟨k, rfl⟩ := hdvd
  rw [show (86400 : ℤ) = 86400 - interval * k + interval * k by ring, Int.add_mul_emod_self_left,
    Int.emod_eq_of_lt (by omega) (by omega)]
  ring

lemma isStart_of_midnight (h : t % 86400 = 0) : IsStart interval t := ⟨h ▸ dvd_zero _, .inl h⟩

/-- The test of the source takes half of the interval without the remainder, which makes no
difference. -/
lemma le_of_half (hpos : 0 < interval) (hday : interval ≤ 86400) {m : ℤ} (hdvd : interval ∣ m)
    (hm : m < 86400) (hhalf : m + interval / 2 ≤ 86400) : interval ≤ 2 * (86400 - m) := by
  by_contra hlt
  obtain ⟨k, rfl⟩ := hdvd
  have hprime : Nat.Prime 172801 := by norm_num
  have hdvd : interval ∣ 172801 := ⟨2 * k + 1, by rw [mul_add, mul_one, mul_left_comm]; omega⟩
  lift interval to ℕ using hpos.le
  have hcases := (Nat.dvd_prime hprime).mp (by exact_mod_cast hdvd)
  omega

/-- **The next start is found**, unless a merge is undone. -/
lemma isLeast_startOfIntervalAfter (hpos : 0 < interval) (hday : interval ≤ 86400)
    (hfirst : firstTime ≤ now) (hlast : now ≤ lastTime) (h : ¬ MergeUndone interval now) :
    IsLeast {t | IsStart interval t ∧ now < t} (startOfIntervalAfter now interval 0) := by
  obtain ⟨m, hm, heq⟩ := startOfIntervalAfter_of_year hfirst hlast hpos
  obtain ⟨hlt, hle, hleast⟩ := next_multiple hpos (now % 86400)
  have hdvd : interval ∣ m := hm ▸ dvd_mul_left _ _
  rw [← hm] at hlt hle hleast
  have hafter : ∀ t, IsStart interval t → now < t →
      86400 * (now / 86400) + 86400 ≤ t ∨ t = 86400 * (now / 86400) + t % 86400 ∧ m ≤ t % 86400 := by
    intro t ht hnow
    by_cases hd : t / 86400 = now / 86400
    · exact .inr ⟨by omega, hleast _ ht.1 (by omega)⟩
    · exact .inl (by omega)
  rw [heq]
  split_ifs with hcross hundo
  · have hrest := day_emod hdvd (by omega) (by omega)
    refine absurd ⟨⟨?_, ?_, ?_⟩, hundo⟩ h <;> omega
  · refine ⟨⟨isStart_of_midnight (by omega), by omega⟩, ?_⟩
    · rintro t ⟨ht, hnow⟩
      have hlate := ht.2
      rcases hafter t ht hnow with h | ⟨-, hmt⟩ <;> omega
  · refine ⟨⟨?_, by omega⟩, ?_⟩
    · by_cases hend : m = 86400
      · exact isStart_of_midnight (by omega)
      · rw [IsStart, show (86400 * (now / 86400) + m) % 86400 = m by omega]
        exact ⟨hdvd, .inr (le_of_half hpos hday hdvd (by omega) (by omega))⟩
    · rintro t ⟨ht, hnow⟩
      rcases hafter t ht hnow with h | ⟨ht', hmt⟩ <;> omega

/-- **The start of an interval is the next one after the time that is just more than an interval
before the next start.** -/
lemma isGreatest_startOfIntervalAfter (hpos : 0 < interval) (hday : interval ≤ 86400) {next : ℤ}
    (hnext : IsLeast {t | IsStart interval t ∧ now < t} next) (h : ¬ InMerged interval now)
    (hfirst : firstTime ≤ next - interval - 1) (hlast : now ≤ lastTime) :
    IsGreatest {t | IsStart interval t ∧ t ≤ now}
      (startOfIntervalAfter (next - interval - 1) interval 0) := by
  obtain ⟨⟨⟨hdvd, -⟩, hnow⟩, hlower⟩ := hnext
  have hmidnight : now - now % 86400 + 86400 ≥ next :=
    hlower ⟨isStart_of_midnight (by omega), by omega⟩
  obtain ⟨c, hc, hcnow, hclose⟩ : ∃ c, IsStart interval c ∧ c ≤ now ∧ next ≤ c + interval := by
    have hmod := Int.emod_nonneg (now % 86400) hpos.ne'
    have hmodlt := Int.emod_lt_of_pos (now % 86400) hpos
    obtain ⟨m, hm⟩ : ∃ m, m = now % 86400 - now % 86400 % interval := ⟨_, rfl⟩
    have hmdvd : interval ∣ m := hm ▸ Int.dvd_self_sub_emod
    have hm₀ : ¬ m < 0 := fun hneg => by
      have hge := Int.le_of_dvd (by omega) (dvd_neg.mpr hmdvd)
      omega
    have hmerged : ∀ x, interval ∣ x → x < 86400 → m ≤ x → x ≤ m + interval →
        interval ≤ 2 * (86400 - x) := by
      intro x hx hxday hmx hxm
      by_contra hlt
      have hrest := day_emod hx (by omega) (by omega)
      exact h ⟨by omega, by omega, by omega⟩
    have hcmod : (now - now % 86400 + m) % 86400 = m := by omega
    refine ⟨now - now % 86400 + m, ⟨hcmod.symm ▸ hmdvd, .inr ?_⟩, by omega, ?_⟩
    · rw [hcmod]
      exact hmerged m hmdvd (by omega) le_rfl (by omega)
    · by_contra hlt
      have hmod' : (now - now % 86400 + m + interval) % 86400 = m + interval := by omega
      have hdvd' : interval ∣ m + interval := dvd_add hmdvd dvd_rfl
      refine hlt (hlower ⟨⟨hmod'.symm ▸ hdvd', .inr ?_⟩, by omega⟩)
      rw [hmod']
      exact hmerged _ hdvd' (by omega) (by omega) le_rfl
  have hundone : ¬ MergeUndone interval (next - interval - 1) := by
    rintro ⟨⟨hrest, hshort, hlate⟩, hearly⟩
    have hlastdvd : interval ∣ 86400 - 86400 % interval := Int.dvd_self_sub_emod
    by_cases hx : next % 86400 = 0
    · refine h ⟨hrest, hshort, ?_⟩
      by_contra hbefore
      omega
    · have hge := Int.le_of_dvd (by omega) hdvd
      by_cases hone : next % 86400 = interval
      · omega
      · have hfar := Int.le_of_dvd (by omega) (dvd_sub hdvd hlastdvd)
        omega
  obtain ⟨⟨ha, hafter⟩, hleast⟩ := isLeast_startOfIntervalAfter hpos hday hfirst (by omega) hundone
  generalize startOfIntervalAfter (next - interval - 1) interval 0 = a at ha hafter hleast ⊢
  have hac : a ≤ c := hleast ⟨hc, by omega⟩
  refine ⟨⟨ha, by omega⟩, ?_⟩
  rintro t ⟨ht, htnow⟩
  by_contra hlt
  by_cases hsame : a / 86400 = t / 86400
  · have hge := Int.le_of_dvd (by omega) (dvd_sub ht.1 ha.1)
    omega
  · by_cases hsame' : next / 86400 = t / 86400
    · have hge := Int.le_of_dvd (by omega) hdvd
      omega
    · omega

/-! ## The schedule -/

/-- The times of a schedule are strictly ordered. -/
def VotingSchedule.Ordered (s : VotingSchedule) : Prop :=
  s.votingStarts < s.fetchMissingVotes ∧ s.fetchMissingVotes < s.votingEnds
    ∧ s.votingEnds < s.fetchMissingSignatures ∧ s.fetchMissingSignatures < s.intervalStarts

lemma lt_startOfIntervalAfter (now : ℤ) (hpos : 0 < interval) (hfirst : firstTime ≤ now)
    (hlast : now ≤ lastTime) : now < startOfIntervalAfter now interval 0
      ∧ startOfIntervalAfter now interval 0 ≤ now + 86400 := by
  obtain ⟨m, hm, heq⟩ := startOfIntervalAfter_of_year hfirst hlast hpos
  obtain ⟨hlt, -⟩ := next_multiple hpos (now % 86400)
  rw [heq]
  split_ifs <;> omega

/-- **The next start is found**, all times of an interval agree on it, a schedule is ordered, and the
start of the interval is found when the schedule names the next one. -/
theorem votingSchedule_spec (hpos : 0 < interval) (hday : interval ≤ 86400) :
    (∀ now, firstTime ≤ now → now ≤ lastTime → ¬ MergeUndone interval now →
        IsLeast {t | IsStart interval t ∧ now < t} (startOfIntervalAfter now interval 0))
      ∧ (∀ now now', firstTime ≤ now → now ≤ now' → now' ≤ lastTime →
        ¬ MergeUndone interval now → ¬ MergeUndone interval now' →
        (∀ t, IsStart interval t → now < t → now' < t) →
        startOfIntervalAfter now interval 0 = startOfIntervalAfter now' interval 0)
      ∧ (∀ options ns now voteDelay distDelay validAfter,
        options.testingV3AuthVotingStartOffset = 0 →
        timing options ns = (interval, voteDelay, distDelay, validAfter) →
        2 ≤ (delays interval voteDelay distDelay).1 → 2 ≤ (delays interval voteDelay distDelay).2 →
        firstTime ≤ now → now + 86400 < lastTime → ∃ s, createVotingSchedule options ns now = some s
          ∧ s.interval = interval ∧ s.intervalStarts = startOfIntervalAfter now interval 0
          ∧ s.Ordered)
      ∧ ∀ options ns now sched s, options.testingV3AuthVotingStartOffset = 0 →
        dirauthGetVotingSchedule options ns now sched = some s → s.interval = interval →
        IsLeast {t | IsStart interval t ∧ now < t} s.intervalStarts → ¬ InMerged interval now →
        firstTime + 86400 ≤ now → now ≤ lastTime →
        ∃ t, dirauthSchedGetCurValidAfterTime options ns now sched = some t
          ∧ IsGreatest {t | IsStart interval t ∧ t ≤ now} t := by
  refine ⟨fun now hfirst hlast h => isLeast_startOfIntervalAfter hpos hday hfirst hlast h,
    fun now now' hfirst hle hlast h h' hsame => ?_,
    fun options ns now voteDelay distDelay validAfter hoffset htiming hvote hdist hfirst hlast => ?_,
    fun options ns now sched s hoffset hsched hinterval hnext h hfirst hlast => ?_⟩
  · have hnext := isLeast_startOfIntervalAfter hpos hday hfirst (hle.trans hlast) h
    have hnext' := isLeast_startOfIntervalAfter hpos hday (hfirst.trans hle) hlast h'
    have hset : {t | IsStart interval t ∧ now < t} = {t | IsStart interval t ∧ now' < t} := by
      ext t
      exact ⟨fun ht => ⟨ht.1, hsame t ht.1 ht.2⟩, fun ht => ⟨ht.1, hle.trans_lt ht.2⟩⟩
    exact hnext.unique (hset ▸ hnext')
  · have hhalf : ∀ delay : ℤ, 2 ≤ delay → 0 < delay.tdiv 2 ∧ delay.tdiv 2 < delay := by
      intro delay hdelay
      rw [Int.tdiv_eq_ediv_of_nonneg (by omega)]
      omega
    obtain ⟨hlt, hle⟩ := lt_startOfIntervalAfter now hpos hfirst (by omega)
    have hend := lt_startOfIntervalAfter (startOfIntervalAfter now interval 0 + 1) hpos (by omega)
      (by omega)
    have hhalfVote := hhalf _ hvote
    have hhalfDist := hhalf _ hdist
    simp only [createVotingSchedule, htiming, hoffset]
    rw [if_neg (not_not.mpr hpos), if_neg (by omega)]
    refine ⟨_, rfl, rfl, rfl, ?_⟩
    simp only [VotingSchedule.Ordered]
    omega
  · subst hinterval
    have hlt := hnext.1.2
    refine ⟨_, ?_, isGreatest_startOfIntervalAfter hpos hday hnext h (by omega) hlast⟩
    rw [dirauthSchedGetCurValidAfterTime, hsched, hoffset, Option.map_some]

theorem votingSchedule_spec_hour :
    IsLeast {t | IsStart 3600 t ∧ 1525734005 < t} (startOfIntervalAfter 1525734005 3600 0) :=
  (votingSchedule_spec (by decide) (by decide)).1 1525734005 (by decide) (by decide) fun h =>
    absurd h.1.1 (by decide)

/-- In the year 10000 the next start is not after the time. -/
theorem not_start_after_9999 : ¬ ∀ interval now : ℤ, 0 < interval → interval ≤ 86400 →
    now < startOfIntervalAfter now interval 0 := by
  intro hall
  have hlate : startOfIntervalAfter 253402300800 3600 0 = 253402300800 := by decide +kernel
  have hlt := hall 3600 253402300800 (by decide) (by decide)
  rw [hlate] at hlt
  exact lt_irrefl _ hlt

end Ator.VotingSched
