import AtorProtocol.FlowControl.PendingSendmes

/-!
# The bounds of the congestion window

A conversion to an unsigned type is exact on the values of that type.  An update in which every
conversion is exact has one outcome, whatever the others give.

* `KeepsBounds` — a SENDME leaves the window between `cwnd_min` and `cwnd_max`, without wrapping.
* `Sized.inBounds_map` — when a branch of the update does so.
* `InRange.step` — what holds of an object at any time.
-/

namespace Ator.Congestion

open Option (some.inj)

variable {conv : ℕ → ℤ → ℤ} {p : CachedParams} {cc cc' : CongestionControl} {ctx : SendmeContext}

/-- A conversion that gives back the values of the type. -/
def Exact (conv : ℕ → ℤ → ℤ) : Prop := ∀ w x, 0 ≤ x → x < 2 ^ w → conv w x = x

lemma exact_wrap : Exact wrap := fun _ _ h h' => wrap_of_mem h h'

/-- No conversion: the update in the integers. -/
def noConv : ℕ → ℤ → ℤ := fun _ x => x

lemma exact_noConv : Exact noConv := fun _ _ _ _ => rfl

/-- An update has one outcome, whatever a conversion that is not exact gives, and leaves the window
in the bounds. -/
def InBounds (p : CachedParams) (f : (ℕ → ℤ → ℤ) → Option CongestionControl) : Prop :=
  ∃ cc', cc'.cwndMin ≤ cc'.cwnd ∧ cc'.cwnd ≤ p.cwndMax ∧ ∀ conv, Exact conv → f conv = some cc'

/-- No conversion of the SENDME wraps, and the window ends up in the bounds. -/
def KeepsBounds (p : CachedParams) (cc : CongestionControl) (ctx : SendmeContext) : Prop :=
  InBounds p fun conv => vegasProcessSendme conv p cc ctx

/-! ## What the update finds -/

/-- The congestion signal of slow start. -/
def Signal (cc : CongestionControl) : Prop := ¬ (queueUse noConv cc < cc.gamma ∧ ¬ cc.blockedChan)

instance (cc : CongestionControl) : Decidable (Signal cc) := inferInstanceAs (Decidable (¬ _))

/-- The growth of slow start ends it: the window reaches its cap, or grows less than it would in
steady state. -/
def GrowthExits (cc : CongestionControl) : Prop :=
  cc.ssCwndMax ≤ cc.cwnd + rfc3742SsInc noConv cc ∨ rfc3742SsInc noConv cc
        * sendmePerCwnd noConv { cc with cwnd := cc.cwnd + rfc3742SsInc noConv cc }
      ≤ cc.cwndInc * cc.cwndIncRate

instance (cc : CongestionControl) : Decidable (GrowthExits cc) :=
  inferInstanceAs (Decidable (_ ∨ _))

/-- A round trip has been measured. -/
def RttKnown (cc : CongestionControl) : Prop := max cc.minRttUsec cc.ewmaRttUsec ≠ 0

instance (cc : CongestionControl) : Decidable (RttKnown cc) := inferInstanceAs (Decidable (_ ≠ _))

/-- A window is in the bounds, and a counter that starts again can hold what it counts. -/
structure Fits (p : CachedParams) (cc : CongestionControl) (inSlowStart : Bool) (cwnd : ℤ) :
    Prop where
  min : cc.cwndMin ≤ cwnd
  max : cwnd ≤ p.cwndMax
  cwndEvent : cc.nextCwndEvent = 0 → sendmePerCwnd noConv { cc with cwnd } < 2 ^ 16
  ccEvent : cc.nextCcEvent = 0 → cwndUpdateRate noConv { cc with cwnd, inSlowStart } < 2 ^ 16

/-! ## Conversions that are exact -/

/-- The sizes of the window and of what is in flight, which keep the 64-bit conversions exact. -/
structure Sized (cc : CongestionControl) : Prop where
  admitted : cc.Admitted
  sendmeInc : 1 ≤ cc.sendmeInc ∧ cc.sendmeInc ≤ 255
  cwnd : 0 ≤ cc.cwnd ∧ cc.cwnd ≤ 2 ^ 32
  inflight : cc.sendmeInc ≤ cc.inflight ∧ cc.inflight ≤ int32Max

variable {cwnd : ℤ}

lemma Sized.setWindow (h : Sized cc) (hcwnd : 0 ≤ cwnd ∧ cwnd ≤ 2 ^ 32)
    (inSlowStart : Bool) : Sized { cc with cwnd, inSlowStart } :=
  ⟨{ h.admitted with }, h.sendmeInc, hcwnd, h.inflight⟩

lemma mul_mem {a b A B : ℤ} (ha : 0 ≤ a ∧ a ≤ A) (hb : 0 ≤ b ∧ b ≤ B) :
    0 ≤ a * b ∧ a * b ≤ A * B :=
  ⟨mul_nonneg ha.1 hb.1, mul_le_mul ha.2 hb.2 hb.1 (ha.1.trans ha.2)⟩

lemma Exact.conv64 (he : Exact conv) {x : ℤ} (h : 0 ≤ x) (h' : x ≤ 2 ^ 62) : conv 64 x = x :=
  he 64 x h (by norm_num at h' ⊢; omega)

lemma Exact.sendmePerCwnd (he : Exact conv) (h : Sized cc) :
    sendmePerCwnd conv cc = sendmePerCwnd noConv cc := by
  obtain ⟨-, hinc, hcwnd, -⟩ := h
  rw [Congestion.sendmePerCwnd, he.conv64 (by omega) (by norm_num; omega)]
  rfl

lemma Sized.sendmePerCwnd_mem (h : Sized cc) :
    0 ≤ sendmePerCwnd noConv cc ∧ sendmePerCwnd noConv cc ≤ 2 ^ 33 := by
  obtain ⟨-, hinc, hcwnd, -⟩ := h
  have hsum : 0 ≤ cc.cwnd + cc.sendmeInc / 2 := by omega
  refine ⟨Int.ediv_nonneg hsum (by omega), (Int.ediv_le_self _ hsum).trans ?_⟩
  norm_num
  omega

lemma Exact.cwndUpdateRate (he : Exact conv) (h : Sized cc) :
    cwndUpdateRate conv cc = cwndUpdateRate noConv cc := by
  obtain ⟨ha, hinc, hcwnd, -⟩ := h
  have hrate := ha.cwndIncRate
  have hmul := mul_mem (a := cc.cwndIncRate) (b := cc.sendmeInc) (A := 250) (B := 255)
    (by omega) (by omega)
  rw [Congestion.cwndUpdateRate, he.conv64 (by omega) (by norm_num; omega)]
  rfl

lemma Sized.cwndUpdateRate_nonneg (h : Sized cc) : 0 ≤ cwndUpdateRate noConv cc := by
  obtain ⟨ha, hinc, hcwnd, -⟩ := h
  have hrate := ha.cwndIncRate
  have hmul := mul_mem (a := cc.cwndIncRate) (b := cc.sendmeInc) (A := 250) (B := 255)
    (by omega) (by omega)
  rw [cwndUpdateRate]
  split
  · decide
  · exact Int.ediv_nonneg (show 0 ≤ cc.cwnd + cc.cwndIncRate * cc.sendmeInc / 2 by omega) hmul.1

lemma Exact.rfc3742SsInc (he : Exact conv) (h : Sized cc) :
    rfc3742SsInc conv cc = rfc3742SsInc noConv cc := by
  obtain ⟨ha, hinc, hcwnd, -⟩ := h
  have hpct := ha.cwndIncPctSs
  have hcap := ha.ssCwndCap
  rw [int32Max] at hcap
  have hmul := mul_mem (a := cc.cwndIncPctSs) (b := cc.sendmeInc) (A := 500) (B := 255)
    (by omega) (by omega)
  have hmul' := mul_mem (a := cc.sendmeInc) (b := cc.ssCwndCap) (A := 255) (B := 2 ^ 31)
    (by omega) (by omega)
  rw [Congestion.rfc3742SsInc, he.conv64 hmul.1 (by norm_num; omega),
    he.conv64 (by omega) (by norm_num; omega), he.conv64 hmul'.1 (by norm_num; omega),
    he.conv64 (by omega) (by norm_num; omega), he.conv64 (by omega) (by norm_num; omega)]
  rfl

lemma Sized.rfc3742SsInc_mem (h : Sized cc) :
    0 ≤ rfc3742SsInc noConv cc ∧ rfc3742SsInc noConv cc ≤ 2000 := by
  obtain ⟨ha, hinc, hcwnd, -⟩ := h
  have hpct := ha.cwndIncPctSs
  have hcap := ha.ssCwndCap
  have hmul := mul_mem (a := cc.cwndIncPctSs) (b := cc.sendmeInc) (A := 500) (B := 255)
    (by omega) (by omega)
  rw [rfc3742SsInc]
  split
  · simp only [noConv]
    omega
  · next hcwnd' =>
      simp only [noConv]
      refine ⟨le_max_of_le_right (by decide), max_le ?_ (by decide)⟩
      refine Int.ediv_le_of_le_mul (by omega) ?_
      have hle : cc.sendmeInc * cc.ssCwndCap ≤ 255 * cc.cwnd :=
        mul_le_mul hinc.2 (by omega) (by omega) (by decide)
      omega

/-! ## The update without conversions -/

/-- What the update starts from. -/
structure Estimated (cc : CongestionControl) : Prop where
  sized : Sized cc
  cwnd_le : cc.cwnd ≤ int32Max
  bdp : 0 ≤ cc.bdp
  slowStart : cc.inSlowStart → cc.bdp ≤ int32Max

lemma Exact.queueUse (he : Exact conv) (h : Estimated cc) :
    queueUse conv cc = queueUse noConv cc := by
  have hcwnd := h.cwnd_le
  have hbdp := h.bdp
  rw [int32Max] at hcwnd
  rw [Congestion.queueUse, Congestion.queueUse]
  split
  · rfl
  · rw [he.conv64 (by omega) (by norm_num; omega)]
    rfl

lemma Exact.updateCwndFull (he : Exact conv) (hp : p.Admitted) (h : Estimated cc) :
    updateCwndFull conv p cc = updateCwndFull noConv p cc := by
  obtain ⟨-, hinc, hcwnd, hinflight⟩ := h.sized
  have hgap := hp.cwndFullGap
  have hpct := hp.cwndFullMinpct
  have hmul := mul_mem (b := cc.sendmeInc) (B := 255) hgap (by omega)
  have hmul' := mul_mem (b := cc.cwnd) (B := 2 ^ 32) hpct hcwnd
  rw [int16Max] at hmul
  rw [int32Max] at hinflight
  have hfull : cwndBecameFull conv p cc = cwndBecameFull noConv p cc := by
    rw [cwndBecameFull, he.conv64 (by omega) (by norm_num; omega)]
    rfl
  have hnonfull : cwndBecameNonfull conv p cc = cwndBecameNonfull noConv p cc := by
    rw [cwndBecameNonfull, he.conv64 (by omega) (by norm_num; omega),
      he.conv64 hmul'.1 (by norm_num; omega)]
    rfl
  rw [Congestion.updateCwndFull, hfull, hnonfull]
  rfl

variable (cc) in
lemma vegasLog_set (cwnd : ℤ) (inSlowStart : Bool) :
    vegasLog { cc with cwnd, inSlowStart }
      = if RttKnown cc then some { cc with cwnd, inSlowStart } else none := by
  by_cases h : RttKnown cc
  · rw [if_pos h]
    exact if_neg h
  · rw [if_neg h]
    exact if_pos (not_not.mp h)

variable (cc) in
lemma slowStartCap_set (cwnd : ℤ) (inSlowStart : Bool) :
    slowStartCap { cc with cwnd, inSlowStart } = if cc.ssCwndMax ≤ cwnd → RttKnown cc then
          some { cc with
            cwnd := min cwnd cc.ssCwndMax
            inSlowStart := inSlowStart && decide (cwnd < cc.ssCwndMax) }
        else none := by
  by_cases hcap : cc.ssCwndMax ≤ cwnd
  · have hlog := vegasLog_set cc cc.ssCwndMax false
    rw [min_eq_right hcap, decide_eq_false hcap.not_gt, Bool.and_false]
    simp only [hcap, forall_const]
    exact (if_pos hcap).trans hlog
  · have hlt : cwnd < cc.ssCwndMax := not_le.mp hcap
    rw [min_eq_left hlt.le, decide_eq_true hlt, Bool.and_true]
    simp only [hcap, IsEmpty.forall_iff, if_true]
    exact if_neg hcap

lemma slowStart_signal (he : Exact conv) (h : Estimated cc) (hss : cc.inSlowStart)
    (hsignal : Signal cc) :
    slowStart conv cc = if RttKnown cc then
          some { cc with cwnd := min (cc.bdp + cc.gamma) cc.ssCwndMax, inSlowStart := false }
        else none := by
  have hbdp := h.bdp
  have hbdp' := h.slowStart hss
  have hgamma := h.sized.admitted.gamma
  have hlog := vegasLog_set cc (cc.bdp + cc.gamma) false
  have hcap := slowStartCap_set cc (cc.bdp + cc.gamma) false
  rw [int32Max] at hbdp'
  rw [slowStart, he.queueUse h, if_neg hsignal, he.conv64 (by omega) (by norm_num; omega)]
  refine (congrArg (Option.bind · slowStartCap) hlog).trans ?_
  by_cases hrtt : RttKnown cc
  · rw [if_pos (fun _ => hrtt), Bool.false_and] at hcap
    rw [if_pos hrtt, if_pos hrtt]
    exact hcap
  · rw [if_neg hrtt, if_neg hrtt]
    rfl

lemma slowStart_notFull (he : Exact conv) (h : Estimated cc) (hss : cc.inSlowStart)
    (hsignal : ¬ Signal cc) (hfull : ¬ cc.cwndFull) :
    slowStart conv cc = if cc.ssCwndMax ≤ cc.cwnd → RttKnown cc then
          some { cc with
            cwnd := min cc.cwnd cc.ssCwndMax
            inSlowStart := decide (cc.cwnd < cc.ssCwndMax) }
        else none := by
  rw [slowStart, he.queueUse h, if_pos (not_not.mp hsignal), slowStartGrow, if_neg hfull,
    Option.bind_some]
  refine (slowStartCap_set cc cc.cwnd cc.inSlowStart).trans ?_
  rw [hss, Bool.true_and]

lemma slowStartGrow_full (he : Exact conv) (h : Sized cc) (hcwnd : cc.cwnd ≤ int32Max)
    (hfull : cc.cwndFull) :
    slowStartGrow conv cc = if rfc3742SsInc noConv cc
            * sendmePerCwnd noConv { cc with cwnd := cc.cwnd + rfc3742SsInc noConv cc }
          ≤ cc.cwndInc * cc.cwndIncRate then
          vegasExitSlowStart { cc with cwnd := cc.cwnd + rfc3742SsInc noConv cc }
        else some { cc with cwnd := cc.cwnd + rfc3742SsInc noConv cc } := by
  have hinc := h.rfc3742SsInc_mem
  have h0 := h.cwnd.1
  rw [int32Max] at hcwnd
  have hgrown : Sized { cc with cwnd := cc.cwnd + rfc3742SsInc noConv cc } :=
    h.setWindow ⟨by omega, by norm_num; omega⟩ cc.inSlowStart
  have hmul := mul_mem hinc hgrown.sendmePerCwnd_mem
  refine (if_pos hfull).trans ?_
  simp only [he.rfc3742SsInc h]
  rw [he.conv64 (x := cc.cwnd + _) (by omega) (by norm_num; omega), he.sendmePerCwnd hgrown,
    he.conv64 hmul.1 (by norm_num; omega)]

lemma slowStart_full (he : Exact conv) (h : Estimated cc) (hss : cc.inSlowStart)
    (hsignal : ¬ Signal cc) (hfull : cc.cwndFull) :
    slowStart conv cc = if GrowthExits cc → RttKnown cc then
          some { cc with
            cwnd := min (cc.cwnd + rfc3742SsInc noConv cc) cc.ssCwndMax
            inSlowStart := decide (¬ GrowthExits cc) }
        else none := by
  have hlog := vegasLog_set cc (cc.cwnd + rfc3742SsInc noConv cc) false
  have hcap := slowStartCap_set cc (cc.cwnd + rfc3742SsInc noConv cc)
  rw [slowStart, he.queueUse h, if_pos (not_not.mp hsignal),
    slowStartGrow_full he h.sized h.cwnd_le hfull]
  split
  · next hslow =>
      have hexits : GrowthExits cc := .inr hslow
      refine (congrArg (Option.bind · slowStartCap) hlog).trans ?_
      simp only [hexits, forall_const, not_true, decide_false]
      by_cases hrtt : RttKnown cc
      · have hcap' := hcap false
        rw [if_pos (fun _ => hrtt), Bool.false_and] at hcap'
        rw [if_pos hrtt, if_pos hrtt]
        exact hcap'
      · rw [if_neg hrtt, if_neg hrtt]
        rfl
  · next hslow =>
      have hexits : GrowthExits cc ↔ cc.ssCwndMax ≤ cc.cwnd + rfc3742SsInc noConv cc :=
        or_iff_left hslow
      rw [Option.bind_some]
      refine (hcap cc.inSlowStart).trans ?_
      rw [hss, Bool.true_and]
      simp only [hexits, not_le]

lemma steadyState_event (hss : cc.inSlowStart = false) (hevent : cc.nextCcEvent = 0)
    (hcwnd : steadyCwnd conv cc = cwnd) :
    steadyState conv cc = if RttKnown cc then
          some { cc with cwnd := max cwnd cc.cwndMin, inSlowStart := false }
        else none := by
  have hlog := vegasLog_set cc (max cwnd cc.cwndMin) cc.inSlowStart
  rw [hss] at hlog
  rw [steadyState, if_pos hevent, hcwnd]
  refine Eq.trans ?_ hlog
  rw [← hss]

/-! ## The counters -/

lemma Sized.resetCounters_exact (h : Sized cc) (he : Exact conv)
    (hcwndEvent : cc.nextCwndEvent = 0 → sendmePerCwnd noConv cc < 2 ^ 16)
    (hccEvent : cc.nextCcEvent = 0 → cwndUpdateRate noConv cc < 2 ^ 16) :
    resetCounters conv p cc = resetCounters noConv p cc := by
  have hcwnd : (if cc.nextCwndEvent = 0 then conv 16 (sendmePerCwnd conv cc) else cc.nextCwndEvent)
      = if cc.nextCwndEvent = 0 then sendmePerCwnd noConv cc else cc.nextCwndEvent := by
    rw [he.sendmePerCwnd h]
    split
    · next h0 => exact he 16 _ h.sendmePerCwnd_mem.1 (hcwndEvent h0)
    · rfl
  have hcc : (if cc.nextCcEvent = 0 then conv 16 (cwndUpdateRate conv cc) else cc.nextCcEvent)
      = if cc.nextCcEvent = 0 then cwndUpdateRate noConv cc else cc.nextCcEvent := by
    rw [he.cwndUpdateRate h]
    split
    · next h0 => exact he 16 _ h.cwndUpdateRate_nonneg (hccEvent h0)
    · rfl
  have hinflight : conv 64 (cc.inflight - cc.sendmeInc) = cc.inflight - cc.sendmeInc := by
    obtain ⟨-, hinc, -, hinflight⟩ := h
    rw [int32Max] at hinflight
    exact he.conv64 (by omega) (by norm_num; omega)
  have hfull : ∀ a b, cwndFullReset conv p { cc with nextCwndEvent := a, nextCcEvent := b }
      = cwndFullReset noConv p { cc with nextCwndEvent := a, nextCcEvent := b } := by
    intro a b
    have hsized : Sized { cc with nextCwndEvent := a, nextCcEvent := b } :=
      ⟨{ h.admitted with }, h.sendmeInc, h.cwnd, h.inflight⟩
    rw [cwndFullReset, he.sendmePerCwnd hsized, he.cwndUpdateRate hsized]
    rfl
  rw [resetCounters, resetCounters, hcwnd, hcc]
  simp only [hfull, hinflight]
  rfl

/-- Conversely, where the counters are the same without conversions they can hold what they
count. -/
lemma counters_of_resetCounters_eq (heq : resetCounters noConv p cc = resetCounters wrap p cc) :
    (cc.nextCwndEvent = 0 → sendmePerCwnd noConv cc < 2 ^ 16) ∧
      (cc.nextCcEvent = 0 → cwndUpdateRate noConv cc < 2 ^ 16) := by
  have hcwnd := congrArg CongestionControl.nextCwndEvent heq
  have hcc := congrArg CongestionControl.nextCcEvent heq
  simp only [resetCounters] at hcwnd hcc
  constructor
  · intro h0
    rw [if_pos h0, if_pos h0] at hcwnd
    exact lt_of_eq_of_lt hcwnd (wrap_lt 16 _)
  · intro h0
    rw [if_pos h0, if_pos h0] at hcc
    exact lt_of_eq_of_lt hcc (wrap_lt 16 _)

/-! ## The branches -/

section

variable {f g : (ℕ → ℤ → ℤ) → Option CongestionControl}

lemma inBounds_congr (h : ∀ conv, Exact conv → f conv = g conv) : InBounds p f ↔ InBounds p g := by
  refine exists_congr fun cc' => and_congr_right fun _ => and_congr_right fun _ => ?_
  exact forall_congr' fun conv => forall_congr' fun he => by rw [h conv he]

lemma inBounds_ite {c : Prop} [Decidable c] :
    InBounds p (fun conv => if c then f conv else none) ↔ c ∧ InBounds p f := by
  by_cases hc : c
  · rw [and_iff_right hc]
    exact inBounds_congr fun _ _ => if_pos hc
  · refine iff_of_false ?_ fun h => hc h.1
    rintro ⟨cc', -, -, hall⟩
    have hnone : none = some cc' := (if_neg hc).symm.trans (hall wrap exact_wrap)
    cases hnone

end

lemma Sized.inBounds_iff (h : Sized cc) (hcwnd : 0 ≤ cwnd ∧ cwnd ≤ 2 ^ 32)
    (inSlowStart : Bool) :
    InBounds p (fun conv => some (resetCounters conv p { cc with cwnd, inSlowStart }))
      ↔ Fits p cc inSlowStart cwnd := by
  constructor
  · rintro ⟨cc', hmin, hmax, hall⟩
    have hno := some.inj (hall noConv exact_noConv)
    have hwrap := some.inj (hall wrap exact_wrap)
    obtain ⟨hcwndEvent, hccEvent⟩ := counters_of_resetCounters_eq (hno.trans hwrap.symm)
    rw [← hno] at hmin hmax
    exact ⟨hmin, hmax, hcwndEvent, hccEvent⟩
  · intro hfits
    refine ⟨resetCounters noConv p { cc with cwnd, inSlowStart }, hfits.min, hfits.max,
      fun conv he => congrArg some ?_⟩
    exact (h.setWindow hcwnd inSlowStart).resetCounters_exact he hfits.cwndEvent hfits.ccEvent

lemma Sized.inBounds_sub_iff (h : Sized cc) {x : ℤ} (hx : x ≤ 2 ^ 32) :
    InBounds p (fun conv => some (resetCounters conv p
        { cc with cwnd := max (conv 64 x) cc.cwndMin, inSlowStart := false }))
      ↔ 0 ≤ x ∧ Fits p cc false (max x cc.cwndMin) := by
  have hmin := h.admitted.cwndMin
  have hpos : 0 ≤ cc.cwndMin := le_trans (by decide) hmin.1
  have hle : max x cc.cwndMin ≤ 2 ^ 32 := max_le (by norm_num; omega) (by norm_num; omega)
  by_cases h0 : 0 ≤ x
  · rw [← h.inBounds_iff ⟨le_max_of_le_right hpos, hle⟩, and_iff_right h0]
    refine inBounds_congr fun conv he => ?_
    rw [he.conv64 h0 (by norm_num; omega)]
  · simp only [h0, false_and, iff_false]
    rintro ⟨cc', -, -, hall⟩
    have hno := congrArg CongestionControl.cwnd (some.inj (hall noConv exact_noConv))
    have hlarge : Exact fun w y => if 0 ≤ y ∧ y < 2 ^ w then y else 2000 :=
      fun w y hy hy' => if_pos ⟨hy, hy'⟩
    have hyes := congrArg CongestionControl.cwnd (some.inj (hall _ hlarge))
    simp only [resetCounters, noConv, h0, false_and, if_false] at hno hyes
    omega

section

variable {b : (ℕ → ℤ → ℤ) → Option CongestionControl} {c : Prop} [Decidable c]

lemma Sized.inBounds_map (h : Sized cc) (hcwnd : 0 ≤ cwnd ∧ cwnd ≤ 2 ^ 32)
    {inSlowStart : Bool}
    (hb : ∀ conv, Exact conv → b conv = if c then some { cc with cwnd, inSlowStart } else none) :
    InBounds p (fun conv => (b conv).map (resetCounters conv p))
      ↔ c ∧ Fits p cc inSlowStart cwnd := by
  rw [← h.inBounds_iff hcwnd, ← inBounds_ite]
  refine inBounds_congr fun conv he => ?_
  rw [hb conv he]
  split <;> rfl

lemma Sized.inBounds_map_sub (h : Sized cc) {x : ℤ} (hx : x ≤ 2 ^ 32)
    (hb : ∀ conv, Exact conv → b conv
      = if c then some { cc with cwnd := max (conv 64 x) cc.cwndMin, inSlowStart := false }
        else none) :
    InBounds p (fun conv => (b conv).map (resetCounters conv p))
      ↔ c ∧ 0 ≤ x ∧ Fits p cc false (max x cc.cwndMin) := by
  rw [← h.inBounds_sub_iff hx, ← inBounds_ite]
  refine inBounds_congr fun conv he => ?_
  rw [hb conv he]
  split <;> rfl

end

/-! ## The estimates -/

/-- What holds of an object at any time. -/
structure InRange (cc : CongestionControl) : Prop where
  admitted : cc.Admitted
  sendmeInc : 1 ≤ cc.sendmeInc ∧ cc.sendmeInc ≤ 255
  cwnd : 0 ≤ cc.cwnd ∧ cc.cwnd ≤ int32Max
  inflight_le : cc.inflight ≤ int32Max
  flight : cc.sendmeInc * cc.sendmePendingTimestamps.length ≤ cc.inflight
  rtt : 0 ≤ cc.minRttUsec ∧ 0 ≤ cc.ewmaRttUsec
  slowStart : cc.inSlowStart → cc.minRttUsec ≤ cc.ewmaRttUsec

lemma nCountEwma_nonneg {curr n : ℤ} (prev : ℤ) (hcurr : 0 ≤ curr) (hn : 0 ≤ n) :
    0 ≤ nCountEwma curr prev n := by
  rw [nCountEwma]
  split
  · exact hcurr
  · exact Int.ediv_nonneg (wrap_nonneg 64 _) (by omega)

lemma newMinRttUsec_nonneg (hmin : 0 ≤ cc.minRttUsec) (hewma : 0 ≤ cc.ewmaRttUsec) :
    0 ≤ newMinRttUsec p cc := by
  rw [newMinRttUsec]
  split
  · exact hewma
  · split
    · rw [percentMaxMix]
      split
      · exact le_max_of_le_left hewma
      · exact wrap_nonneg 64 _
    · split
      · exact hewma
      · exact hmin

lemma newMinRttUsec_le (hss : cc.inSlowStart) : newMinRttUsec p cc ≤ cc.ewmaRttUsec := by
  rw [newMinRttUsec]
  split
  · exact le_refl _
  · rw [if_neg fun h => h.2 hss]
    split
    · exact le_refl _
    · next hlt => exact not_lt.mp hlt

lemma InRange.updateCircuitRtt {rtt : ℤ} (h : InRange cc)
    (hrtt : updateCircuitRtt p cc ctx = some (rtt, cc')) :
    InRange cc' ∧ cc'.sendmeInc * (cc'.sendmePendingTimestamps.length + 1 : ℕ) ≤ cc'.inflight := by
  rw [Congestion.updateCircuitRtt] at hrtt
  split at hrtt
  · cases hrtt
  · next sentAt timestamps hqueue =>
      have hflight := h.flight
      rw [hqueue, List.length_cons] at hflight
      have hinc := h.sendmeInc.1
      have hfewer : cc.sendmeInc * timestamps.length ≤ cc.inflight := by
        push_cast at hflight
        linarith
      dsimp only at hrtt
      split at hrtt
      · obtain ⟨-, rfl⟩ := Prod.mk.inj (some.inj hrtt)
        exact ⟨⟨{ h.admitted with }, h.sendmeInc, h.cwnd, h.inflight_le, hfewer, h.rtt, h.slowStart⟩,
          hflight⟩
      · obtain ⟨-, rfl⟩ := Prod.mk.inj (some.inj hrtt)
        have hn : 0 ≤ nEwmaCount p { cc with sendmePendingTimestamps := timestamps } :=
          le_max_of_le_right (by decide)
        have hewma := nCountEwma_nonneg cc.ewmaRttUsec
          (wrap_nonneg 64 (ctx.nowUsec - sentAt)) hn
        refine ⟨⟨{ h.admitted with }, h.sendmeInc, h.cwnd, h.inflight_le, hfewer,
          ⟨newMinRttUsec_nonneg h.rtt.1 hewma, hewma⟩, fun hss => newMinRttUsec_le hss⟩, hflight⟩

variable (ctx) in
lemma InRange.bdp_mem (h : InRange cc) (rtt : ℤ) :
    0 ≤ (updateCircuitBdp cc ctx rtt).2.bdp ∧
      (cc.inSlowStart → (updateCircuitBdp cc ctx rtt).2.bdp ≤ int32Max) := by
  have hcwnd := h.cwnd
  have hmin := h.admitted.cwndMin
  rw [updateCircuitBdp]
  split
  · simp only [int32Max, sendmeIncDflt, tlsRecordMaxCells] at hcwnd hmin ⊢
    split_ifs <;> omega
  · next hewma =>
      have hpos : 0 < cc.ewmaRttUsec := lt_of_le_of_ne h.rtt.2 (Ne.symm hewma)
      refine ⟨Int.ediv_nonneg (wrap_nonneg 64 _) hpos.le, fun hss => ?_⟩
      refine (Int.ediv_le_of_le_mul hpos ?_).trans hcwnd.2
      calc wrap 64 (cc.cwnd * cc.minRttUsec)
          ≤ cc.cwnd * cc.minRttUsec := wrap_le (mul_nonneg hcwnd.1 h.rtt.1)
        _ ≤ cc.cwnd * cc.ewmaRttUsec := mul_le_mul_of_nonneg_left (h.slowStart hss) hcwnd.1

/-- **The estimates** of a SENDME are what the update starts from. -/
lemma InRange.estimated {updated : Bool} (h : InRange cc)
    (hupd : updateCircuitEstimates p cc ctx = some (updated, cc')) :
    InRange cc' ∧ Estimated cc'
      ∧ cc'.sendmeInc * (cc'.sendmePendingTimestamps.length + 1 : ℕ) ≤ cc'.inflight := by
  obtain ⟨⟨rtt, cc₁⟩, hrtt, hbdp⟩ := Option.map_eq_some_iff.mp hupd
  obtain ⟨hrange, hflight⟩ := h.updateCircuitRtt hrtt
  have hmem := hrange.bdp_mem ctx rtt
  obtain ⟨bdp, next, blocked, heq⟩ := updateCircuitBdp_eq cc₁ ctx rtt
  obtain rfl : cc' = _ := (congrArg Prod.snd hbdp).symm.trans heq
  rw [heq] at hmem
  have hinc := hrange.sendmeInc.1
  have hle : cc₁.sendmeInc ≤ cc₁.inflight := by
    refine le_trans ?_ hflight
    push_cast
    nlinarith
  refine ⟨⟨{ hrange.admitted with }, hrange.sendmeInc, hrange.cwnd, hrange.inflight_le, hrange.flight,
    hrange.rtt, hrange.slowStart⟩, ⟨⟨{ hrange.admitted with }, hrange.sendmeInc,
      ⟨hrange.cwnd.1, hrange.cwnd.2.trans (by decide)⟩, hle, hrange.inflight_le⟩, hrange.cwnd.2,
      hmem.1, hmem.2⟩, hflight⟩

lemma InRange.countEvents (h : InRange cc) : InRange (countEvents cc) :=
  ⟨{ h.admitted with }, h.sendmeInc, h.cwnd, h.inflight_le, h.flight, h.rtt, h.slowStart⟩

lemma Estimated.updateCwndFull (h : Estimated cc) (conv : ℕ → ℤ → ℤ) (p : CachedParams) :
    Estimated (updateCwndFull conv p cc) := by
  obtain ⟨full, heq⟩ := updateCwndFull_eq conv p cc
  rw [heq]
  exact ⟨⟨{ h.sized.admitted with }, h.sized.sendmeInc, h.sized.cwnd, h.sized.inflight⟩, h.cwnd_le,
    h.bdp, h.slowStart⟩

lemma Estimated.inBounds_hold (h : Estimated cc) :
    InBounds p (fun conv => some { cc with inflight := conv 64 (cc.inflight - cc.sendmeInc) })
      ↔ cc.cwndMin ≤ cc.cwnd ∧ cc.cwnd ≤ p.cwndMax := by
  constructor
  · rintro ⟨cc', hmin, hmax, hall⟩
    rw [← some.inj (hall wrap exact_wrap)] at hmin hmax
    exact ⟨hmin, hmax⟩
  · rintro ⟨hmin, hmax⟩
    obtain ⟨-, hinc, -, hinflight⟩ := h.sized
    rw [int32Max] at hinflight
    refine ⟨{ cc with inflight := cc.inflight - cc.sendmeInc }, hmin, hmax, fun conv he => ?_⟩
    simp only [he.conv64 (x := cc.inflight - cc.sendmeInc) (by omega) (by norm_num; omega)]

/-! ## Runs -/

/-- What happens to an object: a DATA cell is sent, or a SENDME passes the check of its digest. -/
inductive CcEvent where
  | cellSent (nowUsec : ℤ)
  | sendme (ctx : SendmeContext)

/-- One event.  There is a timestamp for each SENDME that passes the check. -/
def CongestionControl.step (p : CachedParams) (cc : CongestionControl) :
    CcEvent → Option CongestionControl
  | .cellSent nowUsec =>
    if congestionControlGetPackageWindow cc ≤ 0 then none
    else some (congestionControlNoteCellSent cc nowUsec)
  | .sendme ctx =>
    if cc.sendmePendingTimestamps = [] then none else congestionControlDispatchCcAlg p cc ctx

lemma InRange.new (ns : Consensus) (path : CcPath) {sendmeInc : ℤ}
    (h : 1 ≤ sendmeInc ∧ sendmeInc ≤ 255) : InRange (congestionControlNew ns path sendmeInc) where
  admitted := admitted_new ns path sendmeInc
  sendmeInc := h
  cwnd := ⟨le_trans (by decide) (cwnd_new ns path sendmeInc).1,
    (cwnd_new ns path sendmeInc).2.trans (by decide)⟩
  inflight_le := show (0 : ℤ) ≤ int32Max by decide
  flight := by
    change sendmeInc * 0 ≤ 0
    simp
  rtt := ⟨le_refl 0, le_refl 0⟩
  slowStart _ := le_refl 0

lemma InRange.cellSent (h : InRange cc) (nowUsec : ℤ)
    (hwindow : ¬ congestionControlGetPackageWindow cc ≤ 0) :
    InRange (congestionControlNoteCellSent cc nowUsec) := by
  have hroom := lt_cwnd_of_packageWindow_pos hwindow
  have hcwnd := h.cwnd.2
  have hflight := h.flight
  have hinc := h.sendmeInc.1
  have h0 : 0 ≤ cc.inflight := le_trans (mul_nonneg (by omega) (by omega)) hflight
  have hle : cc.inflight + 1 ≤ int32Max := by omega
  rw [congestionControlNoteCellSent, wrap_of_mem (by omega) (hle.trans_lt (by decide))]
  split
  · next hsent =>
      have hmore : cc.sendmeInc * (cc.sendmePendingTimestamps ++ [nowUsec]).length
          ≤ cc.inflight + 1 := by
        obtain ⟨k, hk⟩ : cc.sendmeInc ∣ cc.inflight + 1 := by
          rw [circuitSentCellForSendme, wrap_of_mem (by omega) (hle.trans_lt (by decide))] at hsent
          split_ifs at hsent with hzero hmod
          exact Int.dvd_of_emod_eq_zero (not_not.mp hmod)
        have hlt : (cc.sendmePendingTimestamps.length : ℤ) < k :=
          lt_of_mul_lt_mul_left (by omega) (show 0 ≤ cc.sendmeInc by omega)
        rw [List.length_append, List.length_singleton, hk]
        exact mul_le_mul_of_nonneg_left (by push_cast; omega) (by omega)
      exact ⟨{ h.admitted with }, h.sendmeInc, h.cwnd, hle, hmore, h.rtt, h.slowStart⟩
  · exact ⟨{ h.admitted with }, h.sendmeInc, h.cwnd, hle, hflight.trans (by simp), h.rtt,
      h.slowStart⟩

lemma Estimated.branch_next (h : Estimated cc)
    (hb : (if cc.inSlowStart then Congestion.slowStart wrap cc else Congestion.steadyState wrap cc)
      = some cc') :
    ∃ cwnd, ∃ inSlowStart : Bool, 0 ≤ cwnd ∧ (inSlowStart → cc.inSlowStart) ∧
      cc' = { cc with cwnd, inSlowStart } := by
  have hcwnd := h.sized.cwnd.1
  have hcap := h.sized.admitted.ssCwndMax
  have hmin := h.sized.admitted.cwndMin
  split at hb
  · next hss =>
      have hinc := h.sized.rfc3742SsInc_mem
      have hgamma := h.sized.admitted.gamma
      have hbdp := h.bdp
      by_cases hsignal : Signal cc
      · rw [slowStart_signal exact_wrap h hss hsignal] at hb
        obtain ⟨-, hcc'⟩ := Option.ite_none_right_eq_some.mp hb
        exact ⟨_, _, by omega, fun _ => hss, (some.inj hcc').symm⟩
      · by_cases hfull : cc.cwndFull
        · rw [slowStart_full exact_wrap h hss hsignal hfull] at hb
          obtain ⟨-, hcc'⟩ := Option.ite_none_right_eq_some.mp hb
          exact ⟨_, _, by omega, fun _ => hss, (some.inj hcc').symm⟩
        · rw [slowStart_notFull exact_wrap h hss hsignal hfull] at hb
          obtain ⟨-, hcc'⟩ := Option.ite_none_right_eq_some.mp hb
          exact ⟨_, _, by omega, fun _ => hss, (some.inj hcc').symm⟩
  · rw [Congestion.steadyState] at hb
    split at hb
    · obtain rfl := vegasLog_eq hb
      exact ⟨_, cc.inSlowStart, le_max_of_le_right (le_trans (by decide) hmin.1), id, rfl⟩
    · obtain rfl := some.inj hb
      exact ⟨cc.cwnd, cc.inSlowStart, hcwnd, id, rfl⟩

lemma InRange.ack (h : InRange cc)
    (hflight : cc.sendmeInc * (cc.sendmePendingTimestamps.length + 1 : ℕ) ≤ cc.inflight)
 (hcwnd : 0 ≤ cwnd ∧ cwnd ≤ int32Max) {inSlowStart : Bool}
    (hss : inSlowStart → cc.inSlowStart) (nextCwndEvent nextCcEvent : ℤ) (cwndFull : Bool) :
    InRange { cc with
      cwnd, inSlowStart, nextCwndEvent, nextCcEvent, cwndFull
      inflight := wrap 64 (cc.inflight - cc.sendmeInc) } := by
  have hinc := h.sendmeInc.1
  have hle := h.inflight_le
  push_cast at hflight
  have hacked : cc.sendmeInc * cc.sendmePendingTimestamps.length ≤ cc.inflight - cc.sendmeInc := by
    linarith
  have h0 : 0 ≤ cc.inflight - cc.sendmeInc := le_trans (mul_nonneg (by omega) (by omega)) hacked
  have hle' : cc.inflight - cc.sendmeInc ≤ int32Max := by omega
  rw [wrap_of_mem h0 (hle'.trans_lt (by decide))]
  exact ⟨{ h.admitted with }, h.sendmeInc, hcwnd, hle', hacked, h.rtt, fun hs => h.slowStart (hss hs)⟩

lemma InRange.process (h : InRange cc) (hcc : vegasProcessSendme wrap p cc ctx = some cc') :
    0 ≤ cc'.cwnd ∧ ∀ cwnd, 0 ≤ cwnd → cwnd ≤ int32Max → InRange { cc' with cwnd } := by
  rw [vegasProcessSendme] at hcc
  split at hcc
  · cases hcc
  · next _ cc₁ hupd =>
      obtain ⟨hrange, -, hflight⟩ := h.countEvents.estimated hupd
      obtain rfl := some.inj hcc
      exact ⟨hrange.cwnd.1, fun cwnd h0 hle => hrange.ack hflight ⟨h0, hle⟩ id _ _ _⟩
  · next _ cc₁ hupd =>
      obtain ⟨hrange, hest, hflight⟩ := h.countEvents.estimated hupd
      have hfull := hest.updateCwndFull wrap p
      obtain ⟨full, heq⟩ := updateCwndFull_eq wrap p cc₁
      obtain ⟨cc₂, hbranch, rfl⟩ := Option.map_eq_some_iff.mp hcc
      obtain ⟨w, inSlowStart, h0, hss, rfl⟩ := hfull.branch_next hbranch
      refine ⟨h0, fun cwnd h0 hle => ?_⟩
      rw [heq] at hss ⊢
      exact hrange.ack hflight ⟨h0, hle⟩ hss _ _ _

lemma InRange.dispatch (h : InRange cc) (hp : p.Admitted)
    (hcc : congestionControlDispatchCcAlg p cc ctx = some cc') : InRange cc' := by
  obtain ⟨cc₁, hvegas, rfl⟩ := Option.map_eq_some_iff.mp hcc
  obtain ⟨h0, hall⟩ := h.process hvegas
  have hmax := hp.cwndMax
  split
  · exact hall _ (by omega) hmax.2
  · exact hall cc₁.cwnd h0 (by omega)

/-- **An event keeps the range.** -/
lemma InRange.step {e : CcEvent} (h : InRange cc) (hp : p.Admitted) (hstep : cc.step p e = some cc') :
    InRange cc' := by
  cases e with
  | cellSent nowUsec =>
    rw [CongestionControl.step] at hstep
    split at hstep
    · cases hstep
    · next hwindow => exact some.inj hstep ▸ h.cellSent nowUsec hwindow
  | sendme ctx =>
    rw [CongestionControl.step] at hstep
    split at hstep
    · cases hstep
    · exact h.dispatch hp hstep

end Ator.Congestion
