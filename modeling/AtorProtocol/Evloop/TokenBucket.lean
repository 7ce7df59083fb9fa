import AtorProtocol.Lib.Run
import Mathlib.Tactic.Linarith

/-!
# Token buckets

`src/lib/evloop/token_bucket.c`, with the machine integers of the source; `size_t` and `ssize_t`
have 64 bits.

* `tokenBucketRawRefillSteps`, `tokenBucketRawDec` — a level, refilled and decremented.
* `tokenBucketRawRefillSteps_spec` — a refill is the minimum of the integers.
* `TokenBucketCtr` — a counter with a timestamp in seconds.
* `TokenBucketRw`, `step` — two buckets with a timestamp in ticks, and their runs.
* `Limits` — what a bucket promises: the burst, and the amount withdrawn over any period.
* `limits_of_meets` — it keeps this in every run without an underflow.
-/

namespace Ator.TokenBucket

open Option (some.inj)

structure TokenBucketCfg where
  rate : UInt32
  burst : Int32
deriving DecidableEq

def tokenBucketMaxBurst : UInt32 := Int32.maxValue.toUInt32

/-- `token_bucket_cfg_init`; its assertions are nonfatal. -/
def tokenBucketCfgInit (rate burst : UInt32) : TokenBucketCfg where
  rate := rate
  burst := (if burst > tokenBucketMaxBurst then tokenBucketMaxBurst else burst).toInt32

/-- `token_bucket_raw_t` is its level. -/
abbrev TokenBucketRaw := Int32

def tokenBucketRawReset (cfg : TokenBucketCfg) : TokenBucketRaw := cfg.burst

def tokenBucketRawAdjust (bucket : TokenBucketRaw) (cfg : TokenBucketCfg) : TokenBucketRaw :=
  if bucket < cfg.burst then bucket else cfg.burst

/-- `token_bucket_raw_refill_steps`: the level, and whether the bucket was empty and is not any
more.  A division by zero has no result. -/
def tokenBucketRawRefillSteps (bucket : TokenBucketRaw) (cfg : TokenBucketCfg) (elapsed : UInt32) :
    Option (TokenBucketRaw × Bool) :=
  let wasEmpty : Bool := bucket ≤ 0
  let gap : UInt64 := cfg.burst.toInt64.toUInt64 - bucket.toInt64.toUInt64
  if cfg.rate = 0 then none
  else
    let bucket :=
      if elapsed.toUInt64 > gap / cfg.rate.toUInt64 then cfg.burst
      else (bucket.toUInt32 + cfg.rate * elapsed).toInt32
    some (bucket, wasEmpty && bucket > 0)

/-- `token_bucket_raw_dec`: the level, and whether the bucket becomes empty.  The difference is cut
to the 32 bits of a level. -/
def tokenBucketRawDec (bucket : TokenBucketRaw) (n : Int64) : TokenBucketRaw × Bool :=
  if n < 0 then (bucket, false)
  else (.ofInt (bucket.toInt - n.toInt), bucket > 0 && n ≥ bucket.toInt64)

/-! ## Machine integers -/

lemma toNat_toUInt64 (a : Int64) : (a.toUInt64.toNat : ℤ) = a.toInt % 2 ^ 64 := by
  change (a.toBitVec.toNat : ℤ) = a.toBitVec.toInt % 2 ^ 64
  rw [BitVec.toInt_eq_toNat_cond]
  split_ifs <;> omega

lemma toNat_toUInt32 (a : Int32) : (a.toUInt32.toNat : ℤ) = a.toInt % 2 ^ 32 := by
  change (a.toBitVec.toNat : ℤ) = a.toBitVec.toInt % 2 ^ 32
  rw [BitVec.toInt_eq_toNat_cond]
  split_ifs <;> omega

lemma toInt_toInt32 (a : UInt32) : a.toInt32.toInt = Int.bmod a.toNat (2 ^ 32) := by
  change a.toBitVec.toInt = _
  rw [BitVec.toInt_eq_toNat_bmod]
  rfl

lemma bmod_eq {a b : ℤ} (h : a % 2 ^ 32 = b % 2 ^ 32) (hlow : -2 ^ 31 ≤ b) (hhigh : b < 2 ^ 31) :
    Int.bmod a (2 ^ 32) = b := by
  rw [Int.bmod_def]
  norm_num
  omega

lemma tokenBucketCfgInit_burst (rate burst : UInt32) :
    0 ≤ (tokenBucketCfgInit rate burst).burst.toInt := by
  rw [tokenBucketCfgInit]
  dsimp only
  have hmax : tokenBucketMaxBurst.toNat = 2 ^ 31 - 1 := by decide
  split_ifs with h
  · decide
  · rw [toInt_toInt32]
    rw [gt_iff_lt, UInt32.lt_iff_toNat_lt, hmax] at h
    rw [bmod_eq rfl (by omega) (by omega)]
    omega

variable {bucket : TokenBucketRaw} {cfg : TokenBucketCfg} {elapsed : UInt32}

/-- **A refill sets the level to `min(burst, level + rate * elapsed)`**, over the integers, however
far below zero the level is. -/
theorem tokenBucketRawRefillSteps_spec (hrate : cfg.rate ≠ 0) (hlevel : bucket ≤ cfg.burst)
    (elapsed : UInt32) :
    ∃ bucket' becomesNonempty,
      tokenBucketRawRefillSteps bucket cfg elapsed = some (bucket', becomesNonempty)
      ∧ bucket'.toInt = min cfg.burst.toInt (bucket.toInt + cfg.rate.toNat * elapsed.toNat) := by
  have hrate' : 0 < cfg.rate.toNat := by
    rw [Nat.pos_iff_ne_zero]
    exact fun h => hrate (UInt32.toNat_inj.mp h)
  rw [Int32.le_iff_toInt_le] at hlevel
  have hb := bucket.le_toInt
  have hB := cfg.burst.toInt_lt
  -- the gap is right although it is computed modulo 2^64
  have hgap : ((cfg.burst.toInt64.toUInt64 - bucket.toInt64.toUInt64).toNat : ℤ)
      = cfg.burst.toInt - bucket.toInt := by
    have hburst := toNat_toUInt64 cfg.burst.toInt64
    have hbucket := toNat_toUInt64 bucket.toInt64
    rw [Int32.toInt_toInt64] at hburst hbucket
    rw [UInt64.toNat_sub]
    omega
  rw [tokenBucketRawRefillSteps]
  simp only [hrate, if_false]
  refine ⟨_, _, rfl, ?_⟩
  generalize cfg.burst.toInt64.toUInt64 - bucket.toInt64.toUInt64 = gap at hgap
  have hsteps : elapsed.toUInt64 > gap / cfg.rate.toUInt64
      ↔ gap.toNat < cfg.rate.toNat * elapsed.toNat := by
    rw [gt_iff_lt, UInt64.lt_iff_toNat_lt, UInt64.toNat_div, UInt32.toNat_toUInt64,
      UInt32.toNat_toUInt64, Nat.div_lt_iff_lt_mul hrate', mul_comm]
  split_ifs with h
  · rw [hsteps] at h
    rw [min_eq_left]
    omega
  · rw [hsteps, not_lt] at h
    rw [min_eq_right (by omega), toInt_toInt32]
    refine bmod_eq ?_ (by omega) (by omega)
    have hbucket := toNat_toUInt32 bucket
    rw [UInt32.toNat_add, UInt32.toNat_mul]
    omega

/-! ## Decrements -/

lemma tokenBucketRawDec_of_neg {n : Int64} (h : n < 0) :
    tokenBucketRawDec bucket n = (bucket, false) := if_pos h

lemma tokenBucketRawDec_toInt {n : Int64} (hn : 0 ≤ n.toInt) (h : -2 ^ 31 ≤ bucket.toInt - n.toInt) :
    (tokenBucketRawDec bucket n).1.toInt = bucket.toInt - n.toInt := by
  have hneg : ¬ n < 0 := by
    rw [Int64.lt_iff_toInt_lt]
    exact not_lt.mpr hn
  have hb := bucket.toInt_lt
  rw [tokenBucketRawDec, if_neg hneg, Int32.toInt_ofInt]
  exact bmod_eq rfl h (by omega)

/-! ## A counter -/

structure TokenBucketCtr where
  cfg : TokenBucketCfg
  counter : TokenBucketRaw
  lastRefilledAtTimestamp : UInt32
deriving DecidableEq

def tokenBucketCtrAdjust (bucket : TokenBucketCtr) (rate burst : UInt32) : TokenBucketCtr :=
  let cfg := tokenBucketCfgInit rate burst
  { bucket with cfg, counter := tokenBucketRawAdjust bucket.counter cfg }

def tokenBucketCtrReset (bucket : TokenBucketCtr) (nowTsSec : UInt32) : TokenBucketCtr :=
  { bucket with
    counter := tokenBucketRawReset bucket.cfg
    lastRefilledAtTimestamp := nowTsSec }

def tokenBucketCtrInit (rate burst nowTsSec : UInt32) : TokenBucketCtr :=
  tokenBucketCtrReset (tokenBucketCtrAdjust ⟨⟨0, 0⟩, 0, 0⟩ rate burst) nowTsSec

/-- `UINT32_MAX / 4` -/
def largestJump : UInt32 := (UInt32.ofNat (2 ^ 32 - 1)) / 4

def tokenBucketCtrRefill (bucket : TokenBucketCtr) (nowTsSec : UInt32) : Option TokenBucketCtr :=
  let elapsedSec := nowTsSec - bucket.lastRefilledAtTimestamp
  if elapsedSec ≤ largestJump then
    (tokenBucketRawRefillSteps bucket.counter bucket.cfg elapsedSec).map fun refilled =>
      { bucket with counter := refilled.1, lastRefilledAtTimestamp := nowTsSec }
  else some { bucket with lastRefilledAtTimestamp := nowTsSec }

def tokenBucketCtrDec (bucket : TokenBucketCtr) (n : Int64) : TokenBucketCtr × Bool :=
  let dec := tokenBucketRawDec bucket.counter n
  ({ bucket with counter := dec.1 }, dec.2)

def tokenBucketCtrGet (bucket : TokenBucketCtr) : ℕ := bucket.counter.toInt.toNat

lemma tokenBucketCtrRefill_eq {ctr : TokenBucketCtr} (hrate : ctr.cfg.rate ≠ 0) (now : UInt32) :
    ∃ ctr', tokenBucketCtrRefill ctr now = some ctr' ∧ ctr'.cfg = ctr.cfg := by
  rw [tokenBucketCtrRefill]
  split_ifs
  · rw [tokenBucketRawRefillSteps]
    simp only [hrate, if_false]
    exact ⟨_, rfl, rfl⟩
  · exact ⟨_, rfl, rfl⟩

lemma tokenBucketCtrInit_rate {rate : UInt32} (hrate : rate ≠ 0) (burst now : UInt32) :
    (tokenBucketCtrInit rate burst now).cfg.rate ≠ 0 := by
  exact hrate

/-! ## Two buckets and a timestamp -/

structure TokenBucketRw where
  cfg : TokenBucketCfg
  readBucket : TokenBucketRaw
  writeBucket : TokenBucketRaw
  lastRefilledAtTimestamp : UInt32
deriving DecidableEq

/-- `TB_READ`, `TB_WRITE` -/
inductive Dir where
  | read
  | write
deriving DecidableEq

def ticksPerStep : UInt32 := 16

/-- The buckets that change, as a list for a bitmask. -/
def flagsOf (read write : Bool) : List Dir :=
  (if read then [.read] else []) ++ if write then [.write] else []

/-- A bucket with `cfg`, full as of `now`: `token_bucket_rw_reset`. -/
def tokenBucketRwReset (cfg : TokenBucketCfg) (nowTsStamp : UInt32) : TokenBucketRw where
  cfg := cfg
  readBucket := tokenBucketRawReset cfg
  writeBucket := tokenBucketRawReset cfg
  lastRefilledAtTimestamp := nowTsStamp

def tokenBucketRwRefill (bucket : TokenBucketRw) (nowTsStamp : UInt32) :
    Option (TokenBucketRw × List Dir) :=
  let elapsedTicks := nowTsStamp - bucket.lastRefilledAtTimestamp
  if elapsedTicks ≤ largestJump then
    let elapsedSteps := elapsedTicks / ticksPerStep
    -- less than a step: the time is kept for the next refill
    if elapsedSteps = 0 then some (bucket, [])
    else
      match tokenBucketRawRefillSteps bucket.readBucket bucket.cfg elapsedSteps,
        tokenBucketRawRefillSteps bucket.writeBucket bucket.cfg elapsedSteps with
      | some (readBucket, read), some (writeBucket, write) =>
        some (⟨bucket.cfg, readBucket, writeBucket, nowTsStamp⟩, flagsOf read write)
      | _, _ => none
  else some ({ bucket with lastRefilledAtTimestamp := nowTsStamp }, [])

def tokenBucketRwDecRead (bucket : TokenBucketRw) (n : Int64) : TokenBucketRw × Bool :=
  let dec := tokenBucketRawDec bucket.readBucket n
  ({ bucket with readBucket := dec.1 }, dec.2)

def tokenBucketRwDecWrite (bucket : TokenBucketRw) (n : Int64) : TokenBucketRw × Bool :=
  let dec := tokenBucketRawDec bucket.writeBucket n
  ({ bucket with writeBucket := dec.1 }, dec.2)

def tokenBucketRwDec (bucket : TokenBucketRw) (nRead nWritten : Int64) :
    TokenBucketRw × List Dir :=
  let read := tokenBucketRwDecRead bucket nRead
  let write := tokenBucketRwDecWrite read.1 nWritten
  (write.1, flagsOf read.2 write.2)

/-! ## Runs -/

inductive Event where
  | refill (nowTsStamp : UInt32)
  | decRead (n : Int64)
  | decWrite (n : Int64)
  | dec (nRead nWritten : Int64)
deriving DecidableEq

/-- One event; `none` where a number is divided by zero. -/
def step (s : TokenBucketRw) : Event → Option TokenBucketRw
  | .refill nowTsStamp => (tokenBucketRwRefill s nowTsStamp).map Prod.fst
  | .decRead n => some (tokenBucketRwDecRead s n).1
  | .decWrite n => some (tokenBucketRwDecWrite s n).1
  | .dec nRead nWritten => some (tokenBucketRwDec s nRead nWritten).1

def TokenBucketRw.level (s : TokenBucketRw) : Dir → TokenBucketRaw
  | .read => s.readBucket
  | .write => s.writeBucket

/-- What an event is to take out of a bucket. -/
def Event.amount (dir : Dir) : Event → Option Int64
  | .refill _ => none
  | .decRead n => if dir = .read then some n else none
  | .decWrite n => if dir = .write then some n else none
  | .dec nRead nWritten => some (if dir = .read then nRead else nWritten)

/-- No bucket is taken below `INT32_MIN`. -/
def NoUnderflow (s : TokenBucketRw) (e : Event) : Prop :=
  ∀ dir, ∀ n ∈ e.amount dir, 0 ≤ n.toInt → -2 ^ 31 ≤ (s.level dir).toInt - n.toInt

/-- `NoUnderflow` of one bucket, as it is tested. -/
def Event.fits (e : Event) (dir : Dir) (level : TokenBucketRaw) : Bool :=
  (e.amount dir).all fun n => 0 ≤ n.toInt → -2 ^ 31 ≤ level.toInt - n.toInt

instance (s : TokenBucketRw) (e : Event) : Decidable (NoUnderflow s e) :=
  decidable_of_iff (e.fits .read (s.level .read) ∧ e.fits .write (s.level .write)) (by
    have hfits : ∀ dir, e.fits dir (s.level dir) = true ↔ ∀ n ∈ e.amount dir,
        0 ≤ n.toInt → -2 ^ 31 ≤ (s.level dir).toInt - n.toInt := by
      intro dir
      rw [Event.fits]
      cases e.amount dir with
      | none => simp
      | some n =>
        simp only [Option.all_some, decide_eq_true_eq, Option.mem_def, Option.some.injEq,
          forall_eq']
    rw [hfits, hfits]
    exact ⟨fun h dir => by cases dir; exacts [h.1, h.2], fun h => ⟨h .read, h .write⟩⟩)

/-- What is counted over a period: the amount taken out of a bucket that is not empty, and the last
of it; the ticks between the timestamps of the refills, from the last refill before the period. -/
structure Meter where
  withdrawn : ℕ
  lastWithdrawal : ℕ
  elapsedTicks : ℕ
  timestamp : UInt32

def Meter.start (s : TokenBucketRw) : Meter := ⟨0, 0, 0, s.lastRefilledAtTimestamp⟩

/-- A withdrawal, if the bucket is not empty. -/
def Meter.withdraw (level : TokenBucketRaw) (m : Meter) : Option Int64 → Meter
  | some n =>
    if 0 < level ∧ 0 ≤ n then
      { m with withdrawn := m.withdrawn + n.toInt.toNat, lastWithdrawal := n.toInt.toNat }
    else m
  | none => m

def Meter.note (dir : Dir) (s : TokenBucketRw) (e : Event) (m : Meter) : Meter :=
  match e with
  | .refill nowTsStamp =>
    { m with
      elapsedTicks := m.elapsedTicks + (nowTsStamp - m.timestamp).toNat
      timestamp := nowTsStamp }
  | e => m.withdraw (s.level dir) (e.amount dir)

/-- A step that is counted. -/
def meteredStep (dir : Dir) (sm : TokenBucketRw × Meter) (e : Event) : Option (TokenBucketRw × Meter) :=
  (step sm.1 e).map fun t => (t, sm.2.note dir sm.1 e)

/-- What a bucket promises all along a run. -/
structure Limits (init : TokenBucketRw) (es : List Event) : Prop where
  level_le : ∀ pre u dir, pre <+: es → Reaches step init pre u → u.level dir ≤ u.cfg.burst
  refill_eq : ∀ pre u dir elapsed, pre <+: es → Reaches step init pre u →
    ∃ bucket f, tokenBucketRawRefillSteps (u.level dir) u.cfg elapsed = some (bucket, f)
      ∧ bucket.toInt
        = min u.cfg.burst.toInt ((u.level dir).toInt + u.cfg.rate.toNat * elapsed.toNat)
  withdrawn_le : ∀ dir pre period u v m, pre ++ period <+: es → Reaches step init pre u →
    Reaches (meteredStep dir) (u, .start u) period (v, m) → (m.withdrawn : ℤ) ≤ u.cfg.burst.toInt
        + u.cfg.rate.toNat * (m.elapsedTicks / ticksPerStep.toNat : ℕ) + m.lastWithdrawal

/-! ## What a step does -/

variable {s t : TokenBucketRw} {e : Event} {m : Meter} {now : UInt32}

/-- A bucket that can be refilled, and is not overfull. -/
structure Inv (s : TokenBucketRw) : Prop where
  rate : s.cfg.rate ≠ 0
  level_le : ∀ dir, s.level dir ≤ s.cfg.burst

lemma refill_spec (h : Inv s) (now : UInt32) : ∃ t, step s (.refill now) = some t ∧ t.cfg = s.cfg ∧
    ∃ steps : ℕ, 16 * steps + (now - t.lastRefilledAtTimestamp).toNat
        ≤ (now - s.lastRefilledAtTimestamp).toNat
      ∧ ∀ dir, t.level dir ≤ s.cfg.burst
        ∧ (t.level dir).toInt ≤ (s.level dir).toInt + s.cfg.rate.toNat * steps := by
  rw [step, tokenBucketRwRefill]
  dsimp only
  split_ifs with hjump hsteps
  · refine ⟨s, rfl, rfl, 0, by omega, fun dir => ⟨h.level_le dir, ?_⟩⟩
    omega
  · obtain ⟨r, fr, hr, hrmin⟩ := tokenBucketRawRefillSteps_spec
      h.rate (h.level_le .read) ((now - s.lastRefilledAtTimestamp) / ticksPerStep)
    obtain ⟨w, fw, hw, hwmin⟩ := tokenBucketRawRefillSteps_spec
      h.rate (h.level_le .write) ((now - s.lastRefilledAtTimestamp) / ticksPerStep)
    simp only [TokenBucketRw.level] at hr hw
    rw [hr, hw]
    refine ⟨_, rfl, rfl, ((now - s.lastRefilledAtTimestamp) / ticksPerStep).toNat, ?_, ?_⟩
    · rw [UInt32.toNat_div, ticksPerStep, UInt32.sub_self]
      exact Nat.mul_div_le _ 16
    · intro dir
      cases dir with
      | read =>
        refine ⟨Int32.le_iff_toInt_le.mpr ?_, ?_⟩
        · exact hrmin ▸ min_le_left _ _
        · exact hrmin ▸ min_le_right _ _
      | write =>
        refine ⟨Int32.le_iff_toInt_le.mpr ?_, ?_⟩
        · exact hwmin ▸ min_le_left _ _
        · exact hwmin ▸ min_le_right _ _
  · refine ⟨_, rfl, rfl, 0, ?_, fun dir => ⟨?_, ?_⟩⟩
    · simp
    · cases dir
      · exact h.level_le .read
      · exact h.level_le .write
    · cases dir <;> simp [TokenBucketRw.level]

lemma dec_spec (he : ∀ now, e ≠ .refill now) : ∃ t, step s e = some t ∧ t.cfg = s.cfg ∧
    t.lastRefilledAtTimestamp = s.lastRefilledAtTimestamp ∧
    ∀ dir, t.level dir = match e.amount dir with
      | some n => (tokenBucketRawDec (s.level dir) n).1
      | none => s.level dir := by
  cases e with
  | refill now => exact absurd rfl (he now)
  | decRead n | decWrite n | dec nRead nWritten =>
    exact ⟨_, rfl, rfl, rfl, fun dir => by cases dir <;> rfl⟩

lemma level_dec (he : ∀ now, e ≠ .refill now) (hno : NoUnderflow s e) (hstep : step s e = some t)
    (dir : Dir) : (t.level dir).toInt
      = (s.level dir).toInt - ((e.amount dir).elim 0 fun n => max 0 n.toInt) := by
  obtain ⟨t', ht', -, -, hlevel⟩ := dec_spec (s := s) he
  obtain rfl := some.inj (hstep.symm.trans ht')
  rw [hlevel dir]
  cases hn : e.amount dir with
  | none => simp
  | some n =>
    simp only [Option.elim_some]
    by_cases hneg : n < 0
    · rw [tokenBucketRawDec_of_neg hneg]
      rw [Int64.lt_iff_toInt_lt] at hneg
      rw [max_eq_left (by exact hneg.le), sub_zero]
    · have hpos : 0 ≤ n.toInt := by
        rw [Int64.lt_iff_toInt_lt, not_lt] at hneg
        exact hneg
      rw [tokenBucketRawDec_toInt hpos (hno dir n hn hpos), max_eq_right hpos]

/-- **A step leaves a bucket that can be refilled and is not overfull.** -/
lemma Inv.step (h : Inv s) (hno : NoUnderflow s e) :
    ∃ t, TokenBucket.step s e = some t ∧ Inv t ∧ t.cfg = s.cfg := by
  by_cases he : ∀ now, e ≠ .refill now
  · obtain ⟨t, ht, hcfg, -, -⟩ := dec_spec (s := s) he
    refine ⟨t, ht, ⟨hcfg ▸ h.rate, fun dir => ?_⟩, hcfg⟩
    have hle := Int32.le_iff_toInt_le.mp (h.level_le dir)
    rw [hcfg, Int32.le_iff_toInt_le, level_dec he hno ht dir]
    cases e.amount dir with
    | none => simpa using hle
    | some n =>
      simp only [Option.elim_some]
      omega
  · push Not at he
    obtain ⟨now, rfl⟩ := he
    obtain ⟨t, ht, hcfg, _, -, hlevel⟩ := refill_spec h now
    exact ⟨t, ht, ⟨hcfg ▸ h.rate, fun dir => hcfg ▸ (hlevel dir).1⟩, hcfg⟩

/-! ## What is withdrawn -/

/-- What an observer knows of a bucket: there were `steps` steps' worth of refills. -/
structure Metered (cfg : TokenBucketCfg) (dir : Dir) (s : TokenBucketRw) (m : Meter) : Prop
    extends Inv s where
  cfg_eq : s.cfg = cfg
  steps : ∃ steps : ℕ, 16 * steps + (m.timestamp - s.lastRefilledAtTimestamp).toNat ≤ m.elapsedTicks
    ∧ m.withdrawn + (s.level dir).toInt ≤ cfg.burst.toInt + cfg.rate.toNat * steps
    ∧ (m.withdrawn : ℤ) ≤ cfg.burst.toInt + cfg.rate.toNat * steps + m.lastWithdrawal

lemma toNat_sub_le (a b c : UInt32) : (a - c).toNat ≤ (a - b).toNat + (b - c).toNat := by
  rw [UInt32.toNat_sub, UInt32.toNat_sub, UInt32.toNat_sub]
  have := b.toNat_lt
  omega

variable {dir : Dir} {cfg : TokenBucketCfg}

lemma Metered.refill (h : Metered cfg dir s m)
    (hstep : TokenBucket.step s (.refill now) = some t) (hInv : Inv t) :
    Metered cfg dir t (m.note dir s (.refill now)) := by
  obtain ⟨t', ht', hcfg, steps', hticks', hlevel⟩ := refill_spec h.toInv now
  obtain rfl := some.inj (hstep.symm.trans ht')
  obtain ⟨steps, hticks, hroom, hbound⟩ := h.steps
  refine ⟨hInv, hcfg.trans h.cfg_eq, steps + steps', ?_, ?_, ?_⟩
  · have := toNat_sub_le now m.timestamp s.lastRefilledAtTimestamp
    simp only [Meter.note]
    omega
  · have hle := (hlevel dir).2
    rw [h.cfg_eq] at hle
    simp only [Meter.note]
    push_cast
    linarith
  · simp only [Meter.note]
    push_cast
    have : (0 : ℤ) ≤ cfg.rate.toNat * steps' := by positivity
    linarith

lemma Metered.dec (h : Metered cfg dir s m)
    (he : ∀ now, e ≠ .refill now) (hno : NoUnderflow s e) (hstep : TokenBucket.step s e = some t)
    (hInv : Inv t) : Metered cfg dir t (m.note dir s e) := by
  obtain ⟨t', ht', hcfg, hlast, -⟩ := dec_spec (s := s) he
  obtain rfl := some.inj (hstep.symm.trans ht')
  have hlevel := level_dec he hno hstep dir
  obtain ⟨steps, hticks, hroom, hbound⟩ := h.steps
  have hnote : m.note dir s e = m.withdraw (s.level dir) (e.amount dir) := by
    cases e with
    | refill now => exact absurd rfl (he now)
    | decRead n | decWrite n | dec n n' => rfl
  rw [hnote]
  cases hn : e.amount dir with
  | none =>
    rw [hn, Option.elim_none, sub_zero] at hlevel
    exact ⟨hInv, hcfg.trans h.cfg_eq, steps, hlast ▸ hticks, hlevel ▸ hroom, hbound⟩
  | some n =>
    rw [hn, Option.elim_some] at hlevel
    rw [Meter.withdraw]
    split_ifs with hwithdraws
    · obtain ⟨hpos, hn0⟩ := hwithdraws
      have hpos : 0 < (s.level dir).toInt := Int32.lt_iff_toInt_lt.mp hpos
      have hn0 : 0 ≤ n.toInt := Int64.le_iff_toInt_le.mp hn0
      rw [max_eq_right hn0] at hlevel
      refine ⟨hInv, hcfg.trans h.cfg_eq, steps, hlast ▸ hticks, ?_, ?_⟩
      · push_cast [Int.toNat_of_nonneg hn0]
        linarith
      · push_cast [Int.toNat_of_nonneg hn0]
        linarith
    · refine ⟨hInv, hcfg.trans h.cfg_eq, steps, hlast ▸ hticks, ?_, hbound⟩
      have := le_max_left 0 n.toInt
      linarith

lemma Metered.step {sm tm : TokenBucketRw × Meter}
    (h : Metered cfg dir sm.1 sm.2) (hno : NoUnderflow sm.1 e)
    (hstep : meteredStep dir sm e = some tm) : Metered cfg dir tm.1 tm.2 := by
  obtain ⟨t, ht, rfl⟩ := Option.map_eq_some_iff.mp hstep
  obtain ⟨t', ht', hInv, -⟩ := h.toInv.step hno
  obtain rfl := some.inj (ht.symm.trans ht')
  by_cases he : ∀ now, e ≠ .refill now
  · exact h.dec he hno ht hInv
  · push Not at he
    obtain ⟨now, rfl⟩ := he
    exact h.refill ht hInv

lemma Inv.metered (h : Inv s) (hburst : 0 ≤ s.cfg.burst.toInt) (dir : Dir) :
    Metered s.cfg dir s (.start s) := by
  have hle := Int32.le_iff_toInt_le.mp (h.level_le dir)
  refine ⟨h, rfl, 0, ?_, ?_, ?_⟩
  · simp [Meter.start]
  · simpa [Meter.start] using hle
  · simpa [Meter.start] using hburst

lemma reaches_fst {sm tm : TokenBucketRw × Meter} {es : List Event}
    (h : Reaches (meteredStep dir) sm es tm) : Reaches step sm.1 es tm.1 := by
  induction es generalizing sm with
  | nil => exact reaches_nil.mpr (congrArg Prod.fst (reaches_nil.mp h))
  | cons e es ih =>
    obtain ⟨um, hu, htail⟩ := reaches_cons.mp h
    obtain ⟨u, hu', rfl⟩ := Option.map_eq_some_iff.mp hu
    exact reaches_cons.mpr ⟨u, hu', ih htail⟩

lemma meets_metered {es : List Event} (h : Meets step NoUnderflow s es) :
    Meets (meteredStep dir) (fun sm e => NoUnderflow sm.1 e) (s, m) es :=
  fun pre e post hes tm htm => h pre e post hes tm.1 (reaches_fst htm)

/-- **Token buckets.**  From a full bucket of any configuration with a positive rate, a run without
an underflow never stops, and the bucket keeps its promises all along it. -/
theorem limits_of_meets (rate burst now : UInt32) (es : List Event) (hrate : rate ≠ 0)
    (h : Meets step NoUnderflow (tokenBucketRwReset (tokenBucketCfgInit rate burst) now) es) :
    (∃ s, Reaches step (tokenBucketRwReset (tokenBucketCfgInit rate burst) now) es s) ∧
      Limits (tokenBucketRwReset (tokenBucketCfgInit rate burst) now) es := by
  set init := tokenBucketRwReset (tokenBucketCfgInit rate burst) now with hinit
  have hburst : 0 ≤ init.cfg.burst.toInt := tokenBucketCfgInit_burst rate burst
  have hInv : Inv init := ⟨hrate, fun dir => by cases dir <;> exact Int32.le_refl _⟩
  let I : TokenBucketRw → Prop := fun s => Inv s ∧ s.cfg = init.cfg
  have hstep : ∀ s e, I s → NoUnderflow s e → ∃ t, step s e = some t ∧ I t := by
    rintro s e ⟨hs, hcfg⟩ hno
    obtain ⟨t, ht, hInv, hcfg'⟩ := hs.step hno
    exact ⟨t, ht, hInv, hcfg'.trans hcfg⟩
  have hreached : ∀ pre u, pre <+: es → Reaches step init pre u → I u := by
    rintro pre u ⟨post, rfl⟩ hu
    refine invariant_of_meets ?_ ⟨hInv, rfl⟩ (meets_append.mp h).1 hu
    rintro s e t hs hno ht
    obtain ⟨t', ht', hI⟩ := hstep s e hs hno
    exact some.inj (ht.symm.trans ht') ▸ hI
  refine ⟨?_, fun pre u dir hpre hu => (hreached pre u hpre hu).1.level_le dir, ?_, ?_⟩
  · obtain ⟨s, hs, -⟩ := exists_reaches_of_meets hstep ⟨hInv, rfl⟩ h
    exact ⟨s, hs⟩
  · intro pre u dir elapsed hpre hu
    have hI := (hreached pre u hpre hu).1
    exact tokenBucketRawRefillSteps_spec hI.rate (hI.level_le dir) elapsed
  · rintro dir pre period u v m ⟨post, rfl⟩ hu hv
    have hu' := hreached pre u ((List.prefix_append pre period).trans (List.prefix_append _ post)) hu
    have hperiod := (meets_append.mp (meets_append.mp h).1).2 u hu
    have hmetered : Metered u.cfg dir v m :=
      invariant_of_meets (I := fun sm => Metered u.cfg dir sm.1 sm.2)
        (fun sm e tm hsm hno ht => hsm.step hno ht) (hu'.1.metered (hu'.2 ▸ hburst) dir)
        (meets_metered hperiod) hv
    obtain ⟨steps, hticks, -, hbound⟩ := hmetered.steps
    have hsteps : steps ≤ m.elapsedTicks / ticksPerStep.toNat := by
      rw [show ticksPerStep.toNat = 16 from rfl]
      omega
    have : (u.cfg.rate.toNat * steps : ℤ)
        ≤ u.cfg.rate.toNat * (m.elapsedTicks / ticksPerStep.toNat : ℕ) := by
      exact_mod_cast Nat.mul_le_mul_left _ hsteps
    linarith

/-- A run with a refill across a wrap-around of the timestamp. -/
theorem limits_wrapAround :
    Limits (tokenBucketRwReset (tokenBucketCfgInit 5 100) 4294967280)
      [.dec 70 250, .refill 16, .decRead 20] :=
  (limits_of_meets 5 100 4294967280 [.dec 70 250, .refill 16, .decRead 20] (by decide)
    (by decide +kernel)).2

/-- Two reads of at most `INT_MAX` bytes leave the level above the burst. -/
theorem limits_fails : ¬ (∀ (rate burst now : UInt32) (es : List Event), rate ≠ 0 →
    (∃ s, Reaches step (tokenBucketRwReset (tokenBucketCfgInit rate burst) now) es s) ∧
      Limits (tokenBucketRwReset (tokenBucketCfgInit rate burst) now) es) := by
  intro h
  have hlevel := (h 1 10 0 [.decRead 2147483647, .decRead 100] (by decide)).2.level_le _
    ⟨⟨1, 10⟩, 2147483559, 10, 0⟩ .read (List.prefix_refl _) (by unfold Reaches; decide +kernel)
  revert hlevel
  decide

end Ator.TokenBucket
