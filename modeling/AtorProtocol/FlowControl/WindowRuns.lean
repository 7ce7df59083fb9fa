import AtorProtocol.FlowControl.QueueUse

/-!
# The bounds of the window, over a run

What a SENDME must find for the window to stay in its bounds, of the parameters, of the state
before it, and of the clock.

* `SendmeFits` — the condition.
* `windowBounds_iff` — the SENDMEs of a run that keep the bounds are those that meet it.
-/

namespace Ator.Congestion

open Option (some.inj)

/-! ## The condition

On a SENDME for a cell that was sent at `sentAt`. -/

/-- The clock has neither stalled nor jumped, so that the round trip counts. -/
def Measures (cc : CongestionControl) (ctx : SendmeContext) (sentAt : ℤ) : Prop :=
  ¬ timeDeltaStalledOrJumped cc ctx.isMonotimeClockBroken cc.ewmaRttUsec
    (wrap 64 (ctx.nowUsec - sentAt))

instance (cc : CongestionControl) (ctx : SendmeContext) (sentAt : ℤ) :
    Decidable (Measures cc ctx sentAt) :=
  inferInstanceAs (Decidable (¬ _))

/-- The average of the round trips up to this one. -/
def ewmaWith (p : CachedParams) (cc : CongestionControl) (ctx : SendmeContext) (sentAt : ℤ) : ℤ :=
  if Measures cc ctx sentAt then averagedRtt p cc (wrap 64 (ctx.nowUsec - sentAt))
  else cc.ewmaRttUsec

/-- Their minimum, which is raised where the window is at its minimum. -/
def minWith (p : CachedParams) (cc : CongestionControl) (ctx : SendmeContext) (sentAt : ℤ) : ℤ :=
  if ¬ Measures cc ctx sentAt then cc.minRttUsec
  else if cc.minRttUsec = 0 then ewmaWith p cc ctx sentAt
  else if cc.cwnd = cc.cwndMin ∧ ¬ cc.inSlowStart then
    percentMaxMix (ewmaWith p cc ctx sentAt) cc.minRttUsec p.rttResetPct
  else min (ewmaWith p cc ctx sentAt) cc.minRttUsec

/-- The part of the window that is not queued: by the round trips, or, without an average, by what
is on a blocked channel. -/
def bdpWith (p : CachedParams) (cc : CongestionControl) (ctx : SendmeContext) (sentAt : ℤ) : ℤ :=
  if ewmaWith p cc ctx sentAt = 0 then
    if ctx.blockedOnChan then max (cc.cwnd - ctx.chanQ) cc.cwndMin else cc.cwnd
  else wrap 64 (cc.cwnd * minWith p cc ctx sentAt) / ewmaWith p cc ctx sentAt

/-- The window counts as full. -/
def IsFull (p : CachedParams) (cc : CongestionControl) : Prop :=
  cwndBecameFull noConv p cc ∨ ¬ cwndBecameNonfull noConv p cc ∧ cc.cwndFull

instance (p : CachedParams) (cc : CongestionControl) : Decidable (IsFull p cc) :=
  inferInstanceAs (Decidable (_ ∨ _))

/-- A congestion event is due, or comes of a channel that blocks or is free again. -/
def AtEvent (cc : CongestionControl) (ctx : SendmeContext) (ewmaRttUsec : ℤ) : Prop :=
  cc.nextCcEvent = 0 ∨ cc.nextCcEvent = 1 ∨ ewmaRttUsec ≠ 0 ∧ cc.blockedChan ≠ ctx.blockedOnChan

instance (cc : CongestionControl) (ctx : SendmeContext) (ewmaRttUsec : ℤ) :
    Decidable (AtEvent cc ctx ewmaRttUsec) :=
  inferInstanceAs (Decidable (_ ∨ _))

/-- Only the first window is ever outside of the bounds. -/
def FirstFits (p : CachedParams) (cwndInit : ℤ) (cc : CongestionControl) : Prop :=
  cc.cwnd = cwndInit → cc.cwndMin ≤ cwndInit ∧ cwndInit ≤ p.cwndMax

/-- Slow start has no bounds but its own cap: not below, and not above where the cap is. -/
def CapFits (p : CachedParams) (cc : CongestionControl) (cwnd : ℤ) : Prop :=
  cc.cwndMin ≤ cwnd ∧ cc.cwndMin ≤ cc.ssCwndMax ∧ (cwnd ≤ p.cwndMax ∨ cc.ssCwndMax ≤ p.cwndMax)

/-- A counter of 16 bits that starts again can hold the SENDMEs of a window, or of the rounds up to
the next event. -/
def CountersFit (cc : CongestionControl) (atEvent : Prop) (cwnd : ℤ) : Prop :=
  (cc.nextCwndEvent = 0 ∨ cc.nextCwndEvent = 1 → cwnd + cc.sendmeInc / 2 < 2 ^ 16 * cc.sendmeInc) ∧
    (atEvent → cwnd + cc.cwndIncRate * cc.sendmeInc / 2 < 2 ^ 16 * (cc.cwndIncRate * cc.sendmeInc))

/-- What a SENDME must find.  In steady state the bounds fail by a decrease that is larger than what
it is taken from, or by growth alone. -/
def SendmeFits (p : CachedParams) (cwndInit : ℤ) (cc : CongestionControl) (ctx : SendmeContext)
    (sentAt : ℤ) : Prop :=
  let ewma := ewmaWith p cc ctx sentAt
  let bdp := bdpWith p cc ctx sentAt
  let queued := max (cc.cwnd - bdp) 0
  let inc := rfc3742SsInc noConv cc
  if ¬ (ctx.blockedOnChan ∨ ewma ≠ 0 ∧ Measures cc ctx sentAt) then FirstFits p cwndInit cc
  else if cc.inSlowStart then
    if ctx.blockedOnChan ∨ cc.gamma ≤ queued then
      ewma ≠ 0 ∧ CapFits p cc (bdp + cc.gamma) ∧
        CountersFit cc (AtEvent cc ctx ewma) (min (bdp + cc.gamma) cc.ssCwndMax)
    else if IsFull p cc then
      CapFits p cc (cc.cwnd + inc) ∧
        CountersFit cc (AtEvent cc ctx ewma ∧ GrowthExits cc) (min (cc.cwnd + inc) cc.ssCwndMax)
    else if cc.ssCwndMax ≤ cc.cwnd then
      CapFits p cc cc.cwnd ∧ CountersFit cc (AtEvent cc ctx ewma) cc.ssCwndMax
    else FirstFits p cwndInit cc ∧ CountersFit cc False cc.cwnd
  else if AtEvent cc ctx ewma then
    max (minWith p cc ctx sentAt) ewma ≠ 0 ∧ if cc.delta < queued then
        cc.cwndInc ≤ bdp + cc.delta ∧ CountersFit cc True (bdp + cc.delta - cc.cwndInc)
      else if ctx.blockedOnChan ∨ cc.beta < queued then
        cc.cwndInc ≤ cc.cwnd ∧ CountersFit cc True (cc.cwnd - cc.cwndInc)
      else if IsFull p cc ∧ queued < cc.alpha then
        cc.cwnd + cc.cwndInc ≤ p.cwndMax ∧ CountersFit cc True (cc.cwnd + cc.cwndInc)
      else CountersFit cc True cc.cwnd
  else CountersFit cc False cc.cwnd

/-- What the update finds after these estimates. -/
def estimatedWith (p : CachedParams) (cc : CongestionControl) (ctx : SendmeContext) (sentAt : ℤ) :
    CongestionControl :=
  { countEvents cc with
    sendmePendingTimestamps := cc.sendmePendingTimestamps.tail
    ewmaRttUsec := ewmaWith p cc ctx sentAt
    maxRttUsec :=
      if Measures cc ctx sentAt then max cc.maxRttUsec (wrap 64 (ctx.nowUsec - sentAt))
      else cc.maxRttUsec
    minRttUsec := minWith p cc ctx sentAt
    bdp := bdpWith p cc ctx sentAt
    nextCcEvent :=
      if ewmaWith p cc ctx sentAt ≠ 0 ∧ cc.blockedChan ≠ ctx.blockedOnChan then 0
      else (countEvents cc).nextCcEvent
    blockedChan := ctx.blockedOnChan
    cwndFull := IsFull p cc }

variable {p : CachedParams} {cc cc' : CongestionControl} {ctx : SendmeContext} {sentAt cwndInit : ℤ}

/-! ## The estimates -/

lemma updateCircuitRtt_with (p : CachedParams) (ctx : SendmeContext)
    (hsent : sentAt ∈ cc.sendmePendingTimestamps.head?) :
    updateCircuitRtt p (countEvents cc) ctx
      = some (if Measures cc ctx sentAt then wrap 64 (ctx.nowUsec - sentAt) else 0,
        { countEvents cc with
          sendmePendingTimestamps := (estimatedWith p cc ctx sentAt).sendmePendingTimestamps
          ewmaRttUsec := ewmaWith p cc ctx sentAt
          maxRttUsec := (estimatedWith p cc ctx sentAt).maxRttUsec
          minRttUsec := minWith p cc ctx sentAt }) := by
  have hqueue : (countEvents cc).sendmePendingTimestamps
      = sentAt :: cc.sendmePendingTimestamps.tail := List.eq_cons_of_mem_head? hsent
  rw [updateCircuitRtt, hqueue, estimatedWith]
  by_cases hmeasures : Measures cc ctx sentAt
  · have hmin : newMinRttUsec p { countEvents cc with
        sendmePendingTimestamps := cc.sendmePendingTimestamps.tail
        ewmaRttUsec := ewmaWith p cc ctx sentAt } = minWith p cc ctx sentAt := by
      rw [minWith, if_neg (not_not.mpr hmeasures), newMinRttUsec]
      refine ite_congr rfl (fun _ => rfl) fun _ => ite_congr rfl (fun _ => rfl) fun _ => ?_
      exact (min_def_lt _ _).symm
    have hewma : ewmaWith p cc ctx sentAt = averagedRtt p cc (wrap 64 (ctx.nowUsec - sentAt)) :=
      if_pos hmeasures
    rw [if_pos hmeasures, if_pos hmeasures, ← hmin, hewma]
    exact if_neg hmeasures
  · rw [if_neg hmeasures, if_neg hmeasures, ewmaWith, if_neg hmeasures, minWith, if_pos hmeasures]
    exact if_pos (not_not.mp hmeasures)

lemma updateCircuitEstimates_with (p : CachedParams) (ctx : SendmeContext) (hmin : 0 ≤ cc.cwndMin)
    (hsent : sentAt ∈ cc.sendmePendingTimestamps.head?) :
    updateCircuitEstimates p (countEvents cc) ctx
      = some (decide (ctx.blockedOnChan ∨ ewmaWith p cc ctx sentAt ≠ 0 ∧ Measures cc ctx sentAt),
        { estimatedWith p cc ctx sentAt with cwndFull := cc.cwndFull }) := by
  rw [updateCircuitEstimates, updateCircuitRtt_with p ctx hsent, Option.map_some]
  have hmeasured : (if Measures cc ctx sentAt then wrap 64 (ctx.nowUsec - sentAt) else 0) ≠ 0
      ↔ Measures cc ctx sentAt := by
    rw [ite_ne_right_iff, and_iff_left_iff_imp]
    exact fun hmeasures hzero => hmeasures (if_pos hzero)
  by_cases hewma : ewmaWith p cc ctx sentAt = 0
  · have hbdp : (if ctx.chanQ ≥ cc.cwnd then cc.cwndMin else max (cc.cwnd - ctx.chanQ) cc.cwndMin)
        = max (cc.cwnd - ctx.chanQ) cc.cwndMin := by
      split_ifs <;> omega
    rw [estimatedWith, bdpWith, if_pos hewma, ← hbdp]
    simp only [ne_eq, hewma, not_true, false_and, or_false, if_false, Bool.decide_eq_true]
    exact congrArg some (if_pos rfl)
  · rw [estimatedWith, bdpWith, if_neg hewma]
    simp only [ne_eq, hewma, not_false_eq_true, true_and, ite_not]
    refine congrArg some ((if_neg hewma).trans (Prod.ext ?_ rfl))
    rw [Bool.or_eq_decide, decide_eq_decide, decide_eq_true_iff]
    exact or_congr_right hmeasured

lemma updateCwndFull_isFull (p : CachedParams) (cc : CongestionControl) :
    updateCwndFull noConv p cc = { cc with cwndFull := IsFull p cc } := by
  have hfull : decide (IsFull p cc) = if cwndBecameFull noConv p cc then true
      else if cwndBecameNonfull noConv p cc then false else cc.cwndFull := by
    simp only [IsFull]
    split_ifs with hbecame hnonfull <;> simp [*]
  rw [hfull, updateCwndFull]
  split_ifs <;> rfl

lemma updateCwndFull_with :
    updateCwndFull noConv p { estimatedWith p cc ctx sentAt with cwndFull := cc.cwndFull }
      = estimatedWith p cc ctx sentAt :=
  updateCwndFull_isFull p _

lemma fits_iff (hinc : 1 ≤ cc.sendmeInc) (hrate : 1 ≤ cc.cwndIncRate) (inSlowStart : Bool) (cwnd : ℤ) :
    Fits p cc inSlowStart cwnd ↔ (cc.cwndMin ≤ cwnd ∧ cwnd ≤ p.cwndMax) ∧
        (cc.nextCwndEvent = 0 → cwnd + cc.sendmeInc / 2 < 2 ^ 16 * cc.sendmeInc) ∧
        (cc.nextCcEvent = 0 ∧ ¬ inSlowStart →
          cwnd + cc.cwndIncRate * cc.sendmeInc / 2 < 2 ^ 16 * (cc.cwndIncRate * cc.sendmeInc)) := by
  have hpos : 0 < cc.sendmeInc := by omega
  have hround : 0 < cc.cwndIncRate * cc.sendmeInc := mul_pos (by omega) hpos
  have hcwnd : sendmePerCwnd noConv { cc with cwnd } < 2 ^ 16
      ↔ cwnd + cc.sendmeInc / 2 < 2 ^ 16 * cc.sendmeInc := Int.ediv_lt_iff_lt_mul hpos
  have hcc : cwndUpdateRate noConv { cc with cwnd, inSlowStart } < 2 ^ 16 ↔ (¬ inSlowStart →
        cwnd + cc.cwndIncRate * cc.sendmeInc / 2 < 2 ^ 16 * (cc.cwndIncRate * cc.sendmeInc)) := by
    cases inSlowStart with
    | true => exact iff_of_true (show (1 : ℤ) < 2 ^ 16 by decide) fun h => absurd rfl h
    | false =>
      simp only [Bool.false_eq_true, not_false_eq_true, forall_const]
      exact Int.ediv_lt_iff_lt_mul hround
  rw [and_imp]
  constructor
  · intro hfits
    exact ⟨⟨hfits.min, hfits.max⟩, fun h => hcwnd.mp (hfits.cwndEvent h),
      fun h => hcc.mp (hfits.ccEvent h)⟩
  · rintro ⟨⟨hmin, hmax⟩, hcwndEvent, hccEvent⟩
    exact ⟨hmin, hmax, fun h => hcwnd.mpr (hcwndEvent h), fun h => hcc.mpr (hccEvent h)⟩

lemma InRange.countersFit_max (h : InRange cc) (atEvent : Prop) (cwnd : ℤ) :
    CountersFit cc atEvent (max cwnd cc.cwndMin) ↔ CountersFit cc atEvent cwnd := by
  have hinc := h.sendmeInc
  have hmin := h.admitted.cwndMin.2
  have hround : 0 < cc.cwndIncRate * cc.sendmeInc :=
    mul_pos (by linarith [h.admitted.cwndIncRate.1]) (by omega)
  refine and_congr (imp_congr_right fun _ => ?_) (imp_congr_right fun _ => ?_) <;> omega

/-! ## One SENDME -/

/-- The window is in its bounds, but for the first one. -/
def Bounded (p : CachedParams) (cwndInit : ℤ) (cc : CongestionControl) : Prop :=
  cc.inSlowStart ∧ cc.cwnd = cwndInit ∨ cc.cwndMin ≤ cc.cwnd ∧ cc.cwnd ≤ p.cwndMax

lemma Bounded.within_iff (h : Bounded p cwndInit cc) :
    cc.cwndMin ≤ cc.cwnd ∧ cc.cwnd ≤ p.cwndMax ↔ FirstFits p cwndInit cc := by
  rw [FirstFits]
  constructor
  · rintro hwithin rfl
    exact hwithin
  · intro hfirst
    rcases h with ⟨-, hcwnd⟩ | hwithin
    · rw [hcwnd]
      exact hfirst hcwnd
    · exact hwithin

lemma within_min_iff (cwnd : ℤ) :
    cc.cwndMin ≤ min cwnd cc.ssCwndMax ∧ min cwnd cc.ssCwndMax ≤ p.cwndMax ↔ CapFits p cc cwnd := by
  rw [le_min_iff, min_le_iff, and_assoc]
  rfl

lemma nextCcEvent_with :
    (estimatedWith p cc ctx sentAt).nextCcEvent = 0 ↔ AtEvent cc ctx (ewmaWith p cc ctx sentAt) := by
  simp only [estimatedWith, countEvents, AtEvent]
  split_ifs with hblocks <;> grind

lemma InRange.fits_with (h : InRange cc) (inSlowStart : Bool) (cwnd : ℤ) :
    Fits p (estimatedWith p cc ctx sentAt) inSlowStart cwnd
      ↔ (cc.cwndMin ≤ cwnd ∧ cwnd ≤ p.cwndMax) ∧
        CountersFit cc (AtEvent cc ctx (ewmaWith p cc ctx sentAt) ∧ ¬ inSlowStart) cwnd := by
  have hcwndEvent : (estimatedWith p cc ctx sentAt).nextCwndEvent = 0
      ↔ cc.nextCwndEvent = 0 ∨ cc.nextCwndEvent = 1 := by
    simp only [estimatedWith, Congestion.countEvents]
    split_ifs <;> omega
  refine (fits_iff (show 1 ≤ (estimatedWith p cc ctx sentAt).sendmeInc from h.sendmeInc.1)
    h.admitted.cwndIncRate.1 inSlowStart cwnd).trans ?_
  rw [hcwndEvent, nextCcEvent_with]
  exact Iff.rfl

lemma queueUse_with :
    queueUse noConv (estimatedWith p cc ctx sentAt) = max (cc.cwnd - bdpWith p cc ctx sentAt) 0 := by
  have hqueue : queueUse noConv (estimatedWith p cc ctx sentAt)
      = if bdpWith p cc ctx sentAt > cc.cwnd then 0 else cc.cwnd - bdpWith p cc ctx sentAt := rfl
  rw [hqueue]
  split_ifs <;> omega

/-- **Slow start** keeps the bounds exactly when the SENDME meets the condition. -/
lemma InRange.inBounds_slowStart (h : InRange cc) (hbounded : Bounded p cwndInit cc)
    (hest : Estimated (estimatedWith p cc ctx sentAt)) (hss : cc.inSlowStart)
    (hle : minWith p cc ctx sentAt ≤ ewmaWith p cc ctx sentAt)
    (hupdated : ctx.blockedOnChan ∨ ewmaWith p cc ctx sentAt ≠ 0 ∧ Measures cc ctx sentAt) :
    InBounds p
        (fun conv => (Congestion.slowStart conv (estimatedWith p cc ctx sentAt)).map
          (resetCounters conv p))
      ↔ SendmeFits p cwndInit cc ctx sentAt := by
  have hrtt : RttKnown (estimatedWith p cc ctx sentAt) ↔ ewmaWith p cc ctx sentAt ≠ 0 := by
    rw [← max_eq_right hle]
    exact Iff.rfl
  have hsignal : Signal (estimatedWith p cc ctx sentAt)
      ↔ ctx.blockedOnChan ∨ cc.gamma ≤ max (cc.cwnd - bdpWith p cc ctx sentAt) 0 := by
    rw [Signal, queueUse_with, not_and_or, not_not, or_comm, not_lt]
    exact Iff.rfl
  have hcwnd := h.cwnd
  have hcap := h.admitted.ssCwndMax
  have hgamma := h.admitted.gamma
  have hbdp : 0 ≤ bdpWith p cc ctx sentAt := hest.bdp
  have hinc : 0 ≤ rfc3742SsInc noConv cc := hest.sized.rfc3742SsInc_mem.1
  rw [int32Max] at hcap
  have hmem (x : ℤ) (hx : 0 ≤ x) : 0 ≤ min x cc.ssCwndMax ∧ min x cc.ssCwndMax ≤ 2 ^ 32 := by
    norm_num
    omega
  simp only [SendmeFits]
  rw [if_neg (not_not.mpr hupdated), if_pos hss]
  by_cases hcongested : ctx.blockedOnChan ∨ cc.gamma ≤ max (cc.cwnd - bdpWith p cc ctx sentAt) 0
  · rw [if_pos hcongested]
    have hexit := hmem (bdpWith p cc ctx sentAt + cc.gamma) (by omega)
    refine (hest.sized.inBounds_map hexit fun conv he =>
      slowStart_signal he hest hss (hsignal.mpr hcongested)).trans (and_congr hrtt ?_)
    refine (h.fits_with false _).trans ?_
    rw [within_min_iff]
    simp only [Bool.false_eq_true, not_false_eq_true, and_true]
  · have hne : ewmaWith p cc ctx sentAt ≠ 0 := fun hzero =>
      hcongested (hupdated.imp_right fun h => absurd hzero h.1)
    rw [if_neg hcongested]
    by_cases hfull : IsFull p cc
    · rw [if_pos hfull]
      have hgrown := hmem (cc.cwnd + rfc3742SsInc noConv cc) (by omega)
      refine (hest.sized.inBounds_map hgrown fun conv he => slowStart_full he hest hss
        (mt hsignal.mp hcongested) (decide_eq_true hfull)).trans ?_
      rw [and_iff_right fun _ => hrtt.mpr hne]
      refine (h.fits_with (¬ GrowthExits cc) (min (cc.cwnd + rfc3742SsInc noConv cc) _)).trans ?_
      rw [within_min_iff]
      simp only [decide_eq_true_iff, not_not]
    · rw [if_neg hfull]
      refine (hest.sized.inBounds_map (hmem _ hcwnd.1) fun conv he => slowStart_notFull he hest hss
        (mt hsignal.mp hcongested) (by simpa [estimatedWith] using hfull)).trans ?_
      rw [and_iff_right fun _ => hrtt.mpr hne]
      refine (h.fits_with (cc.cwnd < cc.ssCwndMax) (min cc.cwnd cc.ssCwndMax)).trans ?_
      by_cases hcapped : cc.ssCwndMax ≤ cc.cwnd
      · rw [if_pos hcapped, within_min_iff, min_eq_right hcapped]
        simp only [decide_eq_true_iff, not_lt.mpr hcapped, not_false_eq_true, and_true]
      · rw [if_neg hcapped, min_eq_left (not_le.mp hcapped).le, hbounded.within_iff]
        simp only [decide_eq_true_iff, not_le.mp hcapped, not_true, and_false]

/-- What a congestion event of steady state makes of the window. -/
lemma Exact.steadyCwnd_with (he : Exact conv) (h : Estimated (estimatedWith p cc ctx sentAt)) :
    steadyCwnd conv (estimatedWith p cc ctx sentAt)
      = conv 64 (if cc.delta < max (cc.cwnd - bdpWith p cc ctx sentAt) 0 then
          bdpWith p cc ctx sentAt + cc.delta - cc.cwndInc
        else if ctx.blockedOnChan ∨ cc.beta < max (cc.cwnd - bdpWith p cc ctx sentAt) 0 then
          cc.cwnd - cc.cwndInc
        else if IsFull p cc ∧ max (cc.cwnd - bdpWith p cc ctx sentAt) 0 < cc.alpha then
          cc.cwnd + cc.cwndInc
        else cc.cwnd) := by
  have hbdp : 0 ≤ bdpWith p cc ctx sentAt := h.bdp
  have hdelta : 0 ≤ cc.delta ∧ _ := h.sized.admitted.delta
  have hcwnd : 0 ≤ cc.cwnd ∧ cc.cwnd ≤ 2 ^ 32 := h.sized.cwnd
  rw [steadyCwnd, he.queueUse h, queueUse_with, apply_ite (conv 64), apply_ite (conv 64),
    apply_ite (conv 64), he.conv64 hcwnd.1 (hcwnd.2.trans (by decide))]
  refine ite_congr rfl (fun habove => congrArg (fun x => conv 64 (x - cc.cwndInc)) ?_) fun _ =>
    ite_congr (propext or_comm) (fun _ => rfl) fun _ =>
      ite_congr (propext (and_congr_left' decide_eq_true_iff)) (fun _ => rfl) fun _ => rfl
  exact he.conv64 (show 0 ≤ bdpWith p cc ctx sentAt + cc.delta by omega)
    (show bdpWith p cc ctx sentAt + cc.delta ≤ 2 ^ 62 by omega)

/-- **Steady state** keeps the bounds exactly when the SENDME meets the condition. -/
lemma InRange.inBounds_steadyState (h : InRange cc) (hbounded : Bounded p cwndInit cc)
    (hest : Estimated (estimatedWith p cc ctx sentAt)) (hss : ¬ cc.inSlowStart)
    (hupdated : ctx.blockedOnChan ∨ ewmaWith p cc ctx sentAt ≠ 0 ∧ Measures cc ctx sentAt) :
    InBounds p
        (fun conv => (steadyState conv (estimatedWith p cc ctx sentAt)).map (resetCounters conv p))
      ↔ SendmeFits p cwndInit cc ctx sentAt := by
  have hwithin : cc.cwndMin ≤ cc.cwnd ∧ cc.cwnd ≤ p.cwndMax :=
    hbounded.resolve_left fun hfirst => hss hfirst.1
  have hoff : (estimatedWith p cc ctx sentAt).inSlowStart = false := Bool.not_eq_true _ ▸ hss
  have hcwnd := h.cwnd
  have hdelta := h.admitted.delta
  have hinc := h.admitted.cwndInc
  rw [int32Max] at hcwnd
  simp only [SendmeFits]
  rw [if_neg (not_not.mpr hupdated), if_neg hss]
  by_cases hevent : AtEvent cc ctx (ewmaWith p cc ctx sentAt)
  · have hfits (x : ℤ) : Fits p (estimatedWith p cc ctx sentAt) false (max x cc.cwndMin)
        ↔ x ≤ p.cwndMax ∧ CountersFit cc True x := by
      rw [h.fits_with, h.countersFit_max, max_le_iff]
      simp only [hevent, Bool.false_eq_true, not_false_eq_true, and_true]
      exact and_congr_left fun _ => ⟨fun hx => hx.2.1, fun hx =>
        ⟨le_max_right _ _, hx, hwithin.1.trans hwithin.2⟩⟩
    rw [if_pos hevent]
    refine (hest.sized.inBounds_map_sub ?_ fun conv he => steadyState_event hoff
      (nextCcEvent_with.mpr hevent) (he.steadyCwnd_with hest)).trans
        (and_congr_right' ((and_congr_right' (hfits _)).trans ?_))
    · norm_num
      split_ifs <;> omega
    · split_ifs
      · exact ⟨fun h => ⟨by omega, h.2.2⟩, fun h => ⟨by omega, by omega, h.2⟩⟩
      · exact ⟨fun h => ⟨by omega, h.2.2⟩, fun h => ⟨by omega, by omega, h.2⟩⟩
      · exact and_iff_right (by omega)
      · exact (and_iff_right hcwnd.1).trans (and_iff_right hwithin.2)
  · have hset (conv : ℕ → ℤ → ℤ) : steadyState conv (estimatedWith p cc ctx sentAt)
        = if True then some { estimatedWith p cc ctx sentAt with cwnd := cc.cwnd, inSlowStart := false }
          else none := by
      rw [steadyState, if_neg (mt nextCcEvent_with.mp hevent), if_pos trivial, ← hoff]
      rfl
    rw [if_neg hevent, hest.sized.inBounds_map hest.sized.cwnd fun conv _ => hset conv, true_and,
      h.fits_with]
    refine (and_iff_right hwithin).trans ?_
    simp only [hevent, false_and]
    exact Iff.rfl

/-- **A SENDME keeps the bounds exactly when it meets the condition.** -/
lemma InRange.keepsBounds_iff (h : InRange cc) (hp : p.Admitted) (hbounded : Bounded p cwndInit cc)
    (hsent : sentAt ∈ cc.sendmePendingTimestamps.head?) :
    KeepsBounds p cc ctx ↔ SendmeFits p cwndInit cc ctx sentAt := by
  have hupd := updateCircuitEstimates_with p ctx (le_trans (by decide) h.admitted.cwndMin.1) hsent
  obtain ⟨hrange, hest, -⟩ := h.countEvents.estimated hupd
  simp only [KeepsBounds, vegasProcessSendme, hupd]
  by_cases hupdated : ctx.blockedOnChan ∨ ewmaWith p cc ctx sentAt ≠ 0 ∧ Measures cc ctx sentAt
  · simp only [hupdated, decide_true]
    have hfull := hest.updateCwndFull noConv p
    rw [updateCwndFull_with] at hfull
    by_cases hss : (estimatedWith p cc ctx sentAt).inSlowStart
    · rw [← h.inBounds_slowStart hbounded hfull hss (hrange.slowStart hss) hupdated]
      refine inBounds_congr fun conv he => ?_
      rw [updateWindow, he.updateCwndFull hp hest, updateCwndFull_with, if_pos hss]
    · rw [← h.inBounds_steadyState hbounded hfull hss hupdated]
      refine inBounds_congr fun conv he => ?_
      rw [updateWindow, he.updateCwndFull hp hest, updateCwndFull_with, if_neg hss]
  · simp only [hupdated, decide_false, SendmeFits, not_false_eq_true, if_true]
    exact hest.inBounds_hold.trans hbounded.within_iff

/-! ## Runs -/

/-- A SENDME of a run keeps the bounds. -/
def SendmeKeepsBounds (p : CachedParams) (cc : CongestionControl) (e : CcEvent) : Prop :=
  ∀ ctx, e = .sendme ctx → cc.sendmePendingTimestamps ≠ [] → KeepsBounds p cc ctx

/-- A SENDME of a run meets the condition. -/
def SendmeMeetsFit (p : CachedParams) (cwndInit : ℤ) (cc : CongestionControl) : CcEvent → Prop
  | .cellSent _ => True
  | .sendme ctx =>
    ∀ sentAt ∈ cc.sendmePendingTimestamps.head?, SendmeFits p cwndInit cc ctx sentAt

lemma InRange.sendmeKeepsBounds_iff (h : InRange cc) (hp : p.Admitted)
    (hbounded : Bounded p cwndInit cc) (e : CcEvent) :
    SendmeKeepsBounds p cc e ↔ SendmeMeetsFit p cwndInit cc e := by
  cases e with
  | cellSent nowUsec => exact iff_of_true (fun _ h => nomatch h) trivial
  | sendme ctx =>
    simp only [SendmeKeepsBounds, SendmeMeetsFit, CcEvent.sendme.injEq, forall_eq']
    cases hqueue : cc.sendmePendingTimestamps with
    | nil => simp
    | cons sentAt timestamps =>
      have hsent : sentAt ∈ cc.sendmePendingTimestamps.head? := by rw [hqueue]; rfl
      simp only [List.head?_cons, Option.mem_some_iff, forall_eq', ne_eq, reduceCtorEq,
        not_false_eq_true, forall_const]
      exact h.keepsBounds_iff hp hbounded hsent

/-- **An event keeps the window in its bounds**, but for the first window. -/
lemma Bounded.step {e : CcEvent} (hbounded : Bounded p cwndInit cc)
    (hkeeps : SendmeKeepsBounds p cc e) (hstep : cc.step p e = some cc') : Bounded p cwndInit cc' := by
  cases e with
  | cellSent nowUsec =>
    obtain ⟨-, hsent⟩ := Option.ite_none_left_eq_some.mp hstep
    obtain rfl := some.inj hsent
    rw [congestionControlNoteCellSent]
    split <;> exact hbounded
  | sendme ctx =>
    obtain ⟨hqueue, hdispatch⟩ := Option.ite_none_left_eq_some.mp hstep
    obtain ⟨cc₁, hmin, hmax, hall⟩ := hkeeps ctx rfl hqueue
    have hvegas : vegasProcessSendme wrap p cc ctx = some cc₁ := hall wrap exact_wrap
    rw [congestionControlDispatchCcAlg, hvegas, Option.map_some, if_neg hmax.not_gt] at hdispatch
    obtain rfl := some.inj hdispatch
    exact .inr ⟨hmin, hmax⟩

instance (p : CachedParams) (cwndInit : ℤ) (cc : CongestionControl) :
    Decidable (FirstFits p cwndInit cc) :=
  inferInstanceAs (Decidable (_ → _))

instance (p : CachedParams) (cc : CongestionControl) (cwnd : ℤ) : Decidable (CapFits p cc cwnd) :=
  inferInstanceAs (Decidable (_ ∧ _))

instance (cc : CongestionControl) (atEvent : Prop) [Decidable atEvent] (cwnd : ℤ) :
    Decidable (CountersFit cc atEvent cwnd) :=
  inferInstanceAs (Decidable (_ ∧ _))

instance (p : CachedParams) (cwndInit : ℤ) (cc : CongestionControl) (ctx : SendmeContext)
    (sentAt : ℤ) : Decidable (SendmeFits p cwndInit cc ctx sentAt) :=
  inferInstanceAs (Decidable (ite _ _ _))

instance (p : CachedParams) (cwndInit : ℤ) (cc : CongestionControl) :
    ∀ e, Decidable (SendmeMeetsFit p cwndInit cc e)
  | .cellSent _ => isTrue trivial
  | .sendme _ => inferInstanceAs (Decidable (∀ _ ∈ cc.sendmePendingTimestamps.head?, _))

/-- A window that is decreased by 1000 cells at a time. -/
def steepConsensus : Consensus := fun paramName =>
  if paramName = "cc_cwnd_inc" then some 1000
  else if paramName = "cc_cwnd_inc_rate" then some 250
  else none

end Ator.Congestion
