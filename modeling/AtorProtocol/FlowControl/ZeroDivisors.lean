import AtorProtocol.FlowControl.WindowBounds

/-!
# What a SENDME divides by

In C a division by zero is undefined.  Each function of `src/core/or/congestion_control_vegas.c`
and `src/core/or/congestion_control_common.c` that divides has its list of divisors here, in the
order of its divisions; the constant ones (2, 100 and 1000) are left out.

* `vegasProcessSendmeDivisors` — what one SENDME divides by.
* `LogsWithoutRtt` — the SENDMEs that write the log line without a round trip time.
* `zeroDivisors_iff` — in a run, these are the ones that divide by zero.
* `exists_step_sendme` — and no other SENDME of a run crashes.
-/

namespace Ator.Congestion

open List

/-! ## The divisors -/

def cwndUpdateRateDivisors (cc : CongestionControl) : List ℤ :=
  if cc.inSlowStart then [] else [cc.cwndIncRate * cc.sendmeInc]

def sendmePerCwndDivisors (cc : CongestionControl) : List ℤ := [cc.sendmeInc]

def nEwmaCountDivisors (cc : CongestionControl) : List ℤ :=
  if cc.inSlowStart then [] else cwndUpdateRateDivisors cc

def nCountEwmaDivisors (prev n : ℤ) : List ℤ := if prev = 0 then [] else [n + 1]

def updateCircuitRttDivisors (p : CachedParams) (cc : CongestionControl) (ctx : SendmeContext) :
    List ℤ :=
  match cc.sendmePendingTimestamps with
  | [] => []
  | sentAtTimestamp :: _ =>
    if timeDeltaStalledOrJumped cc ctx.isMonotimeClockBroken cc.ewmaRttUsec
        (wrap 64 (ctx.nowUsec - sentAtTimestamp)) then []
    else nEwmaCountDivisors cc ++ nCountEwmaDivisors cc.ewmaRttUsec (nEwmaCount p cc)

def updateCircuitBdpDivisors (cc : CongestionControl) : List ℤ :=
  if cc.ewmaRttUsec = 0 then [] else [cc.ewmaRttUsec]

def vegasLogDivisors (cc : CongestionControl) : List ℤ := [max cc.minRttUsec cc.ewmaRttUsec]

def rfc3742SsIncDivisors (cc : CongestionControl) : List ℤ :=
  if cc.cwnd ≤ cc.ssCwndCap then [] else [wrap 64 (2 * cc.cwnd)]

/-- The log line is written twice, and the increment is an average of the statistics. -/
def vegasExitSlowStartDivisors (cc : CongestionControl) : List ℤ :=
  let exited := { cc with inSlowStart := false }
  vegasLogDivisors cc ++ vegasLogDivisors exited ++ rfc3742SsIncDivisors exited

def slowStartGrowDivisors (cc : CongestionControl) : List ℤ :=
  if cc.cwndFull then
    let inc := rfc3742SsInc wrap cc
    let grown := { cc with cwnd := wrap 64 (cc.cwnd + inc) }
    rfc3742SsIncDivisors cc ++ sendmePerCwndDivisors grown ++
      if wrap 64 (inc * sendmePerCwnd wrap grown) ≤ cc.cwndInc * cc.cwndIncRate then
        vegasExitSlowStartDivisors grown
      else []
  else []

def slowStartCapDivisors (cc : CongestionControl) : List ℤ :=
  if cc.cwnd ≥ cc.ssCwndMax then vegasExitSlowStartDivisors { cc with cwnd := cc.ssCwndMax }
  else []

/-- After a crash nothing is divided. -/
def slowStartDivisors (cc : CongestionControl) : List ℤ :=
  if queueUse wrap cc < cc.gamma ∧ ¬ cc.blockedChan then
    slowStartGrowDivisors cc ++ (slowStartGrow wrap cc).elim [] slowStartCapDivisors
  else
    let reduced := { cc with cwnd := wrap 64 (cc.bdp + cc.gamma) }
    vegasExitSlowStartDivisors reduced ++ (vegasExitSlowStart reduced).elim [] slowStartCapDivisors

def steadyStateDivisors (cc : CongestionControl) : List ℤ :=
  if cc.nextCcEvent = 0 then
    vegasLogDivisors { cc with cwnd := max (steadyCwnd wrap cc) cc.cwndMin }
  else []

def resetCountersDivisors (p : CachedParams) (cc : CongestionControl) : List ℤ :=
  (if cc.nextCwndEvent = 0 then sendmePerCwndDivisors cc else [])
    ++ (if cc.nextCcEvent = 0 then cwndUpdateRateDivisors cc else [])
    ++ if p.cwndFullPerCwnd ≠ 0 then sendmePerCwndDivisors cc else cwndUpdateRateDivisors cc

def updateWindowDivisors (p : CachedParams) (cc : CongestionControl) : List ℤ :=
  let cc := updateCwndFull wrap p cc
  if cc.inSlowStart then
    slowStartDivisors cc ++ (slowStart wrap cc).elim [] (resetCountersDivisors p)
  else steadyStateDivisors cc ++ (steadyState wrap cc).elim [] (resetCountersDivisors p)

/-- From the bandwidth-delay product on. -/
def estimatedDivisors (p : CachedParams) (cc : CongestionControl) (ctx : SendmeContext) (rtt : ℤ) :
    List ℤ :=
  updateCircuitBdpDivisors cc ++ match updateCircuitBdp cc ctx rtt with
    | (false, _) => []
    | (true, cc) => updateWindowDivisors p cc

/-- What `congestion_control_vegas_process_sendme` divides by. -/
def vegasProcessSendmeDivisors (p : CachedParams) (cc : CongestionControl) (ctx : SendmeContext) :
    List ℤ :=
  updateCircuitRttDivisors p (countEvents cc) ctx ++
    match updateCircuitRtt p (countEvents cc) ctx with
    | none => []
    | some (rtt, cc) => estimatedDivisors p cc ctx rtt

/-! ## The condition -/

/-- The round trip of a cell that was sent at `sentAtTimestamp` leaves both estimates zero.  Either
the clock has stalled since the circuit was built, or it has gone back so far that the sum of the
average wraps to less than what divides it, and the minimum follows. -/
def LeavesNoRtt (p : CachedParams) (cc : CongestionControl) (ctx : SendmeContext)
    (sentAtTimestamp : ℤ) : Prop :=
  let rtt := wrap 64 (ctx.nowUsec - sentAtTimestamp)
  let n := nEwmaCount p cc
  (rtt = 0 ∧ cc.ewmaRttUsec = 0 ∧ cc.minRttUsec = 0) ∨
    (¬ timeDeltaStalledOrJumped cc ctx.isMonotimeClockBroken cc.ewmaRttUsec rtt ∧
      cc.ewmaRttUsec ≠ 0 ∧
      wrap 64 (wrap 64 (2 * rtt) + wrap 64 ((n - 1) * cc.ewmaRttUsec)) ≤ n ∧
      (cc.minRttUsec = 0 ∨ cc.cwnd ≠ cc.cwndMin ∨ cc.inSlowStart ∨
        wrap 64 (p.rttResetPct * cc.minRttUsec) < 100))

instance decidableLeavesNoRtt (p : CachedParams) (cc : CongestionControl) (ctx : SendmeContext)
    (sentAtTimestamp : ℤ) : Decidable (LeavesNoRtt p cc ctx sentAtTimestamp) :=
  inferInstanceAs (Decidable (_ ∨ _))

/-- A SENDME on a blocked channel is a congestion event: it writes the log line, and there is no
round trip time to divide by. -/
def LogsWithoutRtt (p : CachedParams) (cc : CongestionControl) (ctx : SendmeContext) : Prop :=
  ctx.blockedOnChan ∧ (cc.inSlowStart ∨ cc.nextCcEvent = 0 ∨ cc.nextCcEvent = 1) ∧
    ∃ sentAtTimestamp ∈ cc.sendmePendingTimestamps.head?, LeavesNoRtt p cc ctx sentAtTimestamp

instance decidableLogsWithoutRtt (p : CachedParams) (cc : CongestionControl)
    (ctx : SendmeContext) : Decidable (LogsWithoutRtt p cc ctx) :=
  inferInstanceAs (Decidable (_ ∧ _ ∧ _))

/-! ## The divisors that are never zero -/

variable {p : CachedParams} {cc cc' : CongestionControl} {ctx : SendmeContext}

lemma zero_notMem_cwndUpdateRateDivisors (ha : cc.Admitted) (hinc : 1 ≤ cc.sendmeInc) :
    0 ∉ cwndUpdateRateDivisors cc := by
  have hrate := ha.cwndIncRate.1
  have hpos : 0 < cc.cwndIncRate * cc.sendmeInc := mul_pos (by omega) (by omega)
  rw [cwndUpdateRateDivisors]
  split
  · exact not_mem_nil
  · exact fun h => hpos.ne (mem_singleton.mp h)

lemma zero_notMem_sendmePerCwndDivisors (hinc : 1 ≤ cc.sendmeInc) :
    0 ∉ sendmePerCwndDivisors cc := by
  intro h
  have hzero := mem_singleton.mp h
  omega

variable (p) in
lemma zero_notMem_resetCountersDivisors (ha : cc.Admitted) (hinc : 1 ≤ cc.sendmeInc) :
    0 ∉ resetCountersDivisors p cc := by
  have hcwnd := zero_notMem_sendmePerCwndDivisors hinc
  have hrate := zero_notMem_cwndUpdateRateDivisors ha hinc
  simp only [resetCountersDivisors, mem_append, not_or]
  refine ⟨⟨?_, ?_⟩, ?_⟩
  · split
    · exact hcwnd
    · exact not_mem_nil
  · split
    · exact hrate
    · exact not_mem_nil
  · split
    · exact hcwnd
    · exact hrate

lemma two_le_nEwmaCount (p : CachedParams) (cc : CongestionControl) : 2 ≤ nEwmaCount p cc :=
  le_max_right _ _

variable (p ctx) in
lemma zero_notMem_updateCircuitRttDivisors (ha : cc.Admitted) (hinc : 1 ≤ cc.sendmeInc) :
    0 ∉ updateCircuitRttDivisors p cc ctx := by
  have hrate := zero_notMem_cwndUpdateRateDivisors ha hinc
  have htwo := two_le_nEwmaCount p cc
  rw [updateCircuitRttDivisors]
  split
  · exact not_mem_nil
  · split
    · exact not_mem_nil
    · simp only [mem_append, not_or, nEwmaCountDivisors, nCountEwmaDivisors]
      constructor
      · split
        · exact not_mem_nil
        · exact hrate
      · split
        · exact not_mem_nil
        · intro h
          have hzero := mem_singleton.mp h
          omega

lemma zero_notMem_updateCircuitBdpDivisors (cc : CongestionControl) :
    0 ∉ updateCircuitBdpDivisors cc := by
  rw [updateCircuitBdpDivisors]
  split
  · exact not_mem_nil
  · next hewma => exact fun h => hewma (mem_singleton.mp h).symm

/-- Above the cap the window is not zero. -/
lemma zero_notMem_rfc3742SsIncDivisors (hcap : 0 ≤ cc.ssCwndCap) (hcwnd : cc.cwnd < 2 ^ 63) :
    0 ∉ rfc3742SsIncDivisors cc := by
  rw [rfc3742SsIncDivisors]
  split
  · exact not_mem_nil
  · next hgt =>
      intro h
      have hzero := mem_singleton.mp h
      rw [wrap_of_mem (by omega) (by omega)] at hzero
      omega

/-! ## The log line -/

lemma zero_mem_vegasLogDivisors : 0 ∈ vegasLogDivisors cc ↔ ¬ RttKnown cc := by
  rw [vegasLogDivisors, mem_singleton, RttKnown, not_not, eq_comm]

lemma zero_mem_vegasExitSlowStartDivisors (ha : cc.Admitted) {cwnd : ℤ} (hcwnd : cwnd < 2 ^ 63) :
    0 ∈ vegasExitSlowStartDivisors { cc with cwnd } ↔ ¬ RttKnown cc := by
  have hcap := ha.ssCwndCap.1
  have hinc : 0 ∉ rfc3742SsIncDivisors { cc with cwnd, inSlowStart := false } :=
    zero_notMem_rfc3742SsIncDivisors (show 0 ≤ cc.ssCwndCap by omega) hcwnd
  have hlog : 0 ∈ vegasLogDivisors { cc with cwnd } ↔ ¬ RttKnown cc := zero_mem_vegasLogDivisors
  have hlog' : 0 ∈ vegasLogDivisors { cc with cwnd, inSlowStart := false } ↔ ¬ RttKnown cc :=
    zero_mem_vegasLogDivisors
  simp only [vegasExitSlowStartDivisors, mem_append, hlog, hlog', hinc, or_false, or_self]

lemma zero_notMem_slowStartCapDivisors (ha : cc.Admitted) (hrtt : RttKnown cc) :
    0 ∉ slowStartCapDivisors cc := by
  have hmax := ha.ssCwndMax.2
  rw [int32Max] at hmax
  rw [slowStartCapDivisors]
  split
  · rw [zero_mem_vegasExitSlowStartDivisors ha (by omega)]
    exact not_not.mpr hrtt
  · exact not_mem_nil

/-- Growth divides by zero only in a log line. -/
lemma Sized.zero_notMem_slowStartGrowDivisors (h : Sized cc) (hrtt : RttKnown cc) :
    0 ∉ slowStartGrowDivisors cc := by
  have hcap := h.admitted.ssCwndCap.1
  have hinc := h.rfc3742SsInc_mem
  have hcwnd := h.cwnd
  rw [← exact_wrap.rfc3742SsInc h] at hinc
  have hgrown : wrap 64 (cc.cwnd + rfc3742SsInc wrap cc) < 2 ^ 63 :=
    (wrap_le (by omega)).trans_lt (by omega)
  simp only [slowStartGrowDivisors]
  split
  · simp only [mem_append, not_or]
    refine ⟨⟨?_, zero_notMem_sendmePerCwndDivisors h.sendmeInc.1⟩, ?_⟩
    · exact zero_notMem_rfc3742SsIncDivisors (by omega) (by omega)
    · split
      · rw [zero_mem_vegasExitSlowStartDivisors h.admitted hgrown]
        exact not_not.mpr hrtt
      · exact not_mem_nil
  · exact not_mem_nil

/-- Slow start divides by zero only in a log line. -/
lemma Estimated.zero_notMem_slowStartDivisors (h : Estimated cc) (hss : cc.inSlowStart)
    (hrtt : RttKnown cc) : 0 ∉ slowStartDivisors cc := by
  have hbdp := h.slowStart hss
  have hbdp0 := h.bdp
  have hgamma := h.sized.admitted.gamma
  rw [int32Max] at hbdp
  have hreduced : wrap 64 (cc.bdp + cc.gamma) < 2 ^ 63 := (wrap_le (by omega)).trans_lt (by omega)
  have hcap {cwnd : ℤ} {inSlowStart : Bool} :
      0 ∉ slowStartCapDivisors { cc with cwnd, inSlowStart } := by
    have ha : CongestionControl.Admitted { cc with cwnd, inSlowStart } := { h.sized.admitted with }
    exact zero_notMem_slowStartCapDivisors ha hrtt
  simp only [slowStartDivisors]
  split
  · rw [mem_append, not_or]
    refine ⟨h.sized.zero_notMem_slowStartGrowDivisors hrtt, ?_⟩
    cases hgrow : slowStartGrow wrap cc with
    | none => exact not_mem_nil
    | some cc₁ =>
      obtain ⟨cwnd, inSlowStart, rfl⟩ := slowStartGrow_eq hgrow
      exact hcap
  · rw [mem_append, not_or, zero_mem_vegasExitSlowStartDivisors h.sized.admitted hreduced]
    refine ⟨not_not.mpr hrtt, ?_⟩
    cases hexit : vegasExitSlowStart { cc with cwnd := wrap 64 (cc.bdp + cc.gamma) } with
    | none => exact not_mem_nil
    | some cc₁ =>
      obtain rfl := vegasExitSlowStart_eq hexit
      exact hcap

/-- With a round trip time, **no division of the window update** is by zero. -/
lemma Estimated.zero_notMem_updateWindowDivisors (h : Estimated cc) (hrtt : RttKnown cc) :
    0 ∉ updateWindowDivisors p cc := by
  have hest := h.updateCwndFull wrap p
  obtain ⟨full, hfull⟩ := updateCwndFull_eq wrap p cc
  have hreset {cwnd : ℤ} {inSlowStart : Bool} : 0 ∉ resetCountersDivisors p
      { cc with cwndFull := full, cwnd, inSlowStart } :=
    zero_notMem_resetCountersDivisors p { h.sized.admitted with } h.sized.sendmeInc.1
  simp only [updateWindowDivisors]
  rw [hfull] at hest ⊢
  split
  · next hss =>
      rw [mem_append, not_or]
      refine ⟨hest.zero_notMem_slowStartDivisors hss hrtt, ?_⟩
      cases hslow : Congestion.slowStart wrap { cc with cwndFull := full } with
      | none => exact not_mem_nil
      | some cc₁ =>
        obtain ⟨cwnd, inSlowStart, rfl⟩ := slowStart_eq hslow
        exact hreset
  · rw [mem_append, not_or]
    constructor
    · rw [steadyStateDivisors]
      split
      · exact fun hlog => zero_mem_vegasLogDivisors.mp hlog hrtt
      · exact not_mem_nil
    · cases hsteady : steadyState wrap { cc with cwndFull := full } with
      | none => exact not_mem_nil
      | some cc₁ =>
        obtain ⟨cwnd, rfl⟩ := steadyState_eq hsteady
        exact hreset

/-- Without one, the update of the window on a blocked channel divides by zero where it writes the
log line: a blocked channel ends slow start. -/
lemma Estimated.zero_mem_updateWindowDivisors (h : Estimated cc) (hrtt : ¬ RttKnown cc)
    (hblocked : cc.blockedChan) :
    0 ∈ updateWindowDivisors p cc ↔ cc.inSlowStart ∨ cc.nextCcEvent = 0 := by
  obtain ⟨full, hfull⟩ := updateCwndFull_eq wrap p cc
  simp only [updateWindowDivisors]
  rw [hfull]
  split
  · next hss =>
      have hsignal : ¬ (queueUse wrap { cc with cwndFull := full } < cc.gamma ∧ ¬ cc.blockedChan) :=
        fun hsignal => hsignal.2 hblocked
      refine iff_of_true (mem_append_left _ ?_) (.inl hss)
      rw [slowStartDivisors, if_neg hsignal]
      refine mem_append_left _ (mem_append_left _ (mem_append_left _ ?_))
      exact zero_mem_vegasLogDivisors.mpr hrtt
  · next hss =>
      rw [or_iff_right hss, steadyStateDivisors, mem_append]
      split
      · next hevent => exact iff_of_true (.inl (zero_mem_vegasLogDivisors.mpr hrtt)) hevent
      · next hevent =>
          refine iff_of_false (not_or.mpr ⟨not_mem_nil, ?_⟩) hevent
          rw [steadyState, if_neg hevent]
          exact zero_notMem_resetCountersDivisors p { h.sized.admitted with } h.sized.sendmeInc.1

/-! ## The round trip time -/

lemma rttResetPct_mem (ns : Consensus) :
    0 ≤ (congestionControlNewConsensusParams ns).rttResetPct ∧
      (congestionControlNewConsensusParams ns).rttResetPct ≤ 100 :=
  networkstatusGetParam_mem ns _ _ (by decide)

lemma wrap_ediv_eq_zero {x n : ℤ} (hn : 0 < n) : wrap 64 x / n = 0 ↔ wrap 64 x < n := by
  have hnonneg := wrap_nonneg 64 x
  rw [Int.ediv_eq_iff_of_pos hn, zero_mul, zero_add, and_iff_right hnonneg]

lemma nCountEwma_eq_zero {curr prev n : ℤ} (hcurr : curr ≠ 0) (hn : 2 ≤ n) :
    nCountEwma curr prev n = 0
      ↔ prev ≠ 0 ∧ wrap 64 (wrap 64 (2 * curr) + wrap 64 ((n - 1) * prev)) ≤ n := by
  rw [nCountEwma]
  split
  · next hprev => exact iff_of_false hcurr fun h => h.1 hprev
  · next hprev => rw [and_iff_right hprev, wrap_ediv_eq_zero (by omega), Int.lt_add_one_iff]

lemma percentMaxMix_zero {m pct : ℤ} (hm : 0 ≤ m) (hpct : pct ≤ 100) :
    percentMaxMix 0 m pct = 0 ↔ wrap 64 (pct * m) < 100 := by
  have hlt := wrap_lt 64 (pct * m)
  have h0 := wrap_nonneg 64 (pct * m)
  rw [percentMaxMix, if_neg (by omega), max_eq_right hm, min_eq_left hm, mul_zero,
    wrap_of_mem (x := 0) (le_refl 0) (by decide), Int.zero_ediv, add_zero,
    wrap_of_mem (Int.ediv_nonneg h0 (by decide)) (by omega), wrap_ediv_eq_zero (by decide)]

lemma newMinRttUsec_eq_zero (hmin : 0 ≤ cc.minRttUsec) (hewma : cc.ewmaRttUsec = 0)
    (hpct : p.rttResetPct ≤ 100) :
    newMinRttUsec p cc = 0 ↔ cc.minRttUsec = 0 ∨ cc.cwnd ≠ cc.cwndMin ∨ cc.inSlowStart ∨
      wrap 64 (p.rttResetPct * cc.minRttUsec) < 100 := by
  rw [newMinRttUsec, hewma]
  split
  · next hzero => exact iff_of_true rfl (.inl hzero)
  · next hzero =>
      rw [or_iff_right hzero]
      split
      · next hlow =>
          rw [percentMaxMix_zero hmin hpct, or_iff_right (not_not.mpr hlow.1), or_iff_right hlow.2]
      · next hlow =>
          rw [if_pos (lt_of_le_of_ne hmin (Ne.symm hzero))]
          refine iff_of_true rfl ?_
          by_cases hcwnd : cc.cwnd = cc.cwndMin
          · exact .inr (.inl (not_not.mp fun hss => hlow ⟨hcwnd, hss⟩))
          · exact .inl hcwnd

lemma timeDeltaStalledOrJumped_cases {broken : Bool} {oldDelta newDelta : ℤ}
    (h : timeDeltaStalledOrJumped cc broken oldDelta newDelta) :
    newDelta = 0 ∨ cc.ewmaRttUsec ≠ 0 := by
  rw [timeDeltaStalledOrJumped] at h
  split at h
  · next hzero => exact .inl hzero
  · split at h
    · cases h
    · next hheuristics => exact .inr (not_not.mp hheuristics).2

/-- **The round trip time** is unknown after a SENDME exactly when its round trip leaves none. -/
lemma InRange.rttKnown_updateCircuitRtt {sentAt rtt : ℤ} (h : InRange cc)
    (hpct : p.rttResetPct ≤ 100) (hsent : cc.sendmePendingTimestamps.head? = some sentAt)
    (hrtt : Congestion.updateCircuitRtt p cc ctx = some (rtt, cc')) :
    ¬ RttKnown cc' ↔ LeavesNoRtt p cc ctx sentAt := by
  obtain ⟨timestamps, hqueue⟩ := head?_eq_some_iff.mp hsent
  have hmin := h.rtt.1
  have hewma := h.rtt.2
  have hknown (m e : ℤ) (hm : 0 ≤ m) (he : 0 ≤ e) : ¬ max m e ≠ 0 ↔ e = 0 ∧ m = 0 := by omega
  simp only [Congestion.updateCircuitRtt, hqueue] at hrtt
  split at hrtt
  · next hstalled =>
      obtain ⟨-, rfl⟩ := Prod.mk.inj (Option.some.inj hrtt)
      have hcases := timeDeltaStalledOrJumped_cases hstalled
      refine (hknown _ _ hmin hewma).trans ⟨fun hzero => .inl ⟨?_, hzero⟩, fun hleaves => ?_⟩
      · exact hcases.resolve_right (not_not.mpr hzero.1)
      · rcases hleaves with ⟨-, hzero⟩ | ⟨hok, -⟩
        · exact hzero
        · exact absurd hstalled hok
  · next hok =>
      obtain ⟨-, rfl⟩ := Prod.mk.inj (Option.some.inj hrtt)
      have hne : wrap 64 (ctx.nowUsec - sentAt) ≠ 0 := fun hzero => hok (if_pos hzero)
      have htwo := two_le_nEwmaCount p cc
      have havg := nCountEwma_nonneg cc.ewmaRttUsec (wrap_nonneg 64 (ctx.nowUsec - sentAt))
        (show 0 ≤ nEwmaCount p cc by omega)
      let averaged : CongestionControl := { cc with
        sendmePendingTimestamps := timestamps
        ewmaRttUsec := nCountEwma (wrap 64 (ctx.nowUsec - sentAt)) cc.ewmaRttUsec (nEwmaCount p cc)
        maxRttUsec := max cc.maxRttUsec (wrap 64 (ctx.nowUsec - sentAt)) }
      have hmin' : 0 ≤ newMinRttUsec p averaged := newMinRttUsec_nonneg hmin havg
      have hleft (havg0 : averaged.ewmaRttUsec = 0) : newMinRttUsec p averaged = 0
          ↔ cc.minRttUsec = 0 ∨ cc.cwnd ≠ cc.cwndMin ∨ cc.inSlowStart ∨
            wrap 64 (p.rttResetPct * cc.minRttUsec) < 100 :=
        newMinRttUsec_eq_zero hmin havg0 hpct
      refine (hknown (newMinRttUsec p averaged) averaged.ewmaRttUsec hmin' havg).trans ⟨?_, ?_⟩
      · rintro ⟨havg0, hmin0⟩
        obtain ⟨hprev, hsum⟩ := (nCountEwma_eq_zero hne htwo).mp havg0
        exact .inr ⟨hok, hprev, hsum, (hleft havg0).mp hmin0⟩
      · rintro (⟨hzero, -⟩ | ⟨-, hprev, hsum, hmin0⟩)
        · exact absurd hzero hne
        · have havg0 : averaged.ewmaRttUsec = 0 :=
            (nCountEwma_eq_zero hne htwo).mpr ⟨hprev, hsum⟩
          exact ⟨havg0, (hleft havg0).mpr hmin0⟩

/-! ## One SENDME -/

lemma countEvents_nextCcEvent_eq_zero :
    (countEvents cc).nextCcEvent = 0 ↔ cc.nextCcEvent = 0 ∨ cc.nextCcEvent = 1 := by
  simp only [countEvents]
  split <;> omega

/-- With a round trip time, the rest of the SENDME divides by nothing that is zero. -/
lemma zero_notMem_estimatedDivisors {rtt : ℤ} (hrtt : RttKnown cc)
    (hest : Estimated (updateCircuitBdp cc ctx rtt).2) : 0 ∉ estimatedDivisors p cc ctx rtt := by
  obtain ⟨bdp, nextCcEvent, blockedChan, heq⟩ := updateCircuitBdp_eq cc ctx rtt
  rw [estimatedDivisors, mem_append, or_iff_right (zero_notMem_updateCircuitBdpDivisors cc)]
  split
  · exact not_mem_nil
  · next cc₁ hbdp =>
      rw [hbdp] at hest heq
      refine hest.zero_notMem_updateWindowDivisors ?_
      obtain rfl : cc₁ = _ := heq
      exact hrtt

/-- Without one, the rest of the SENDME runs on a blocked channel only, and divides by zero in a
congestion event. -/
lemma zero_mem_estimatedDivisors {rtt : ℤ} (hrtt : ¬ RttKnown cc) (hewma : cc.ewmaRttUsec = 0)
    (hest : Estimated (updateCircuitBdp cc ctx rtt).2) :
    0 ∈ estimatedDivisors p cc ctx rtt
      ↔ ctx.blockedOnChan ∧ (cc.inSlowStart ∨ cc.nextCcEvent = 0) := by
  obtain ⟨bdp, hbdp⟩ : ∃ bdp, updateCircuitBdp cc ctx rtt
      = (ctx.blockedOnChan, { cc with bdp, blockedChan := ctx.blockedOnChan }) :=
    ⟨_, if_pos hewma⟩
  rw [estimatedDivisors, mem_append, or_iff_right (zero_notMem_updateCircuitBdpDivisors cc)]
  rw [hbdp] at hest ⊢
  cases hblocked : ctx.blockedOnChan with
  | false => exact iff_of_false not_mem_nil fun h => Bool.false_ne_true h.1
  | true =>
    rw [hblocked] at hest
    rw [and_iff_right rfl]
    exact hest.zero_mem_updateWindowDivisors hrtt rfl

lemma updateCircuitRtt_eq_none (h : updateCircuitRtt p cc ctx = none) :
    cc.sendmePendingTimestamps = [] := by
  rw [updateCircuitRtt] at h
  split at h
  · next hqueue => exact hqueue
  · dsimp only at h
    split at h <;> cases h

/-- **A SENDME** divides by zero exactly when it writes the log line without a round trip time. -/
lemma InRange.zero_mem_vegasProcessSendmeDivisors (h : InRange cc) (hpct : p.rttResetPct ≤ 100) :
    0 ∈ vegasProcessSendmeDivisors p cc ctx ↔ LogsWithoutRtt p cc ctx := by
  have hcount := h.countEvents
  have hnever := zero_notMem_updateCircuitRttDivisors p ctx hcount.admitted hcount.sendmeInc.1
  rw [vegasProcessSendmeDivisors, mem_append, or_iff_right hnever]
  cases hrtt : Congestion.updateCircuitRtt p (Congestion.countEvents cc) ctx with
  | none =>
    have hqueue := updateCircuitRtt_eq_none hrtt
    change cc.sendmePendingTimestamps = [] at hqueue
    refine iff_of_false not_mem_nil ?_
    rintro ⟨-, -, sentAt, hsent, -⟩
    rw [hqueue] at hsent
    cases hsent
  | some estimates =>
    obtain ⟨rtt, cc₁⟩ := estimates
    have hrange := (hcount.updateCircuitRtt hrtt).1
    have hest : Estimated (updateCircuitBdp cc₁ ctx rtt).2 :=
      (hcount.estimated (congrArg (Option.map _) hrtt)).2.1
    obtain ⟨sentAt, timestamps, ewma, maxRtt, minRtt, hqueue, heq⟩ := updateCircuitRtt_eq hrtt
    have hsent : cc.sendmePendingTimestamps.head? = some sentAt :=
      head?_eq_some_iff.mpr ⟨timestamps, hqueue⟩
    have hleaves : ¬ RttKnown cc₁ ↔ LeavesNoRtt p cc ctx sentAt :=
      hcount.rttKnown_updateCircuitRtt hpct hsent hrtt
    have hlogs : LogsWithoutRtt p cc ctx ↔
        (ctx.blockedOnChan ∧ (cc₁.inSlowStart ∨ cc₁.nextCcEvent = 0)) ∧ ¬ RttKnown cc₁ := by
      rw [LogsWithoutRtt, hsent, hleaves, heq, countEvents_nextCcEvent_eq_zero, and_assoc]
      simp only [Option.mem_some_iff, exists_eq_left', Congestion.countEvents]
    rw [hlogs]
    by_cases hknown : RttKnown cc₁
    · exact iff_of_false (zero_notMem_estimatedDivisors hknown hest) fun h => h.2 hknown
    · have hewma : cc₁.ewmaRttUsec = 0 := by
        have hmax := not_not.mp hknown
        have hnonneg := hrange.rtt
        omega
      rw [and_iff_left hknown]
      exact zero_mem_estimatedDivisors hknown hewma hest

/-! ## Crashes -/

lemma vegasLog_eq_none : vegasLog cc = none ↔ 0 ∈ vegasLogDivisors cc := by
  rw [zero_mem_vegasLogDivisors, RttKnown, not_not, vegasLog]
  split
  · next hzero => exact iff_of_true rfl hzero
  · next hzero => exact iff_of_false (Option.some_ne_none cc) hzero

lemma zero_mem_of_vegasExitSlowStart_eq_none (h : vegasExitSlowStart cc = none) :
    0 ∈ vegasExitSlowStartDivisors cc :=
  mem_append_left _ (mem_append_right _ (vegasLog_eq_none.mp h))

lemma zero_mem_of_slowStartCap_eq_none (h : slowStartCap cc = none) :
    0 ∈ slowStartCapDivisors cc := by
  rw [slowStartCap] at h
  rw [slowStartCapDivisors]
  split at h
  · next hcap =>
      rw [if_pos hcap]
      exact zero_mem_of_vegasExitSlowStart_eq_none h
  · cases h

lemma zero_mem_of_slowStartGrow_eq_none (h : slowStartGrow wrap cc = none) :
    0 ∈ slowStartGrowDivisors cc := by
  simp only [slowStartGrow] at h
  simp only [slowStartGrowDivisors]
  split at h
  · next hfull =>
      split at h
      · next hexits =>
          rw [if_pos hfull, if_pos hexits]
          exact mem_append_right _ (zero_mem_of_vegasExitSlowStart_eq_none h)
      · cases h
  · cases h

lemma zero_mem_of_bind_eq_none {f : Option CongestionControl}
    {g : CongestionControl → Option CongestionControl} {as : List ℤ}
    {bs : CongestionControl → List ℤ} (hf : f = none → 0 ∈ as) (hg : ∀ cc, g cc = none → 0 ∈ bs cc)
    (h : f.bind g = none) : 0 ∈ as ++ f.elim [] bs := by
  cases f with
  | none => exact mem_append_left _ (hf rfl)
  | some cc => exact mem_append_right _ (hg cc h)

lemma zero_mem_of_slowStart_eq_none (h : slowStart wrap cc = none) : 0 ∈ slowStartDivisors cc := by
  rw [slowStart] at h
  simp only [slowStartDivisors]
  split at h
  · next hsignal =>
      rw [if_pos hsignal]
      exact zero_mem_of_bind_eq_none zero_mem_of_slowStartGrow_eq_none
        (fun _ => zero_mem_of_slowStartCap_eq_none) h
  · next hsignal =>
      rw [if_neg hsignal]
      exact zero_mem_of_bind_eq_none zero_mem_of_vegasExitSlowStart_eq_none
        (fun _ => zero_mem_of_slowStartCap_eq_none) h

lemma zero_mem_of_steadyState_eq_none (h : steadyState wrap cc = none) :
    0 ∈ steadyStateDivisors cc := by
  rw [steadyState] at h
  rw [steadyStateDivisors]
  split at h
  · next hevent =>
      rw [if_pos hevent]
      exact vegasLog_eq_none.mp h
  · cases h

lemma zero_mem_of_updateWindow_eq_none (h : updateWindow wrap p cc = none) :
    0 ∈ updateWindowDivisors p cc := by
  have hnone := Option.map_eq_none_iff.mp h
  simp only [updateWindowDivisors]
  split at hnone
  · next hss =>
      rw [if_pos hss]
      exact mem_append_left _ (zero_mem_of_slowStart_eq_none hnone)
  · next hss =>
      rw [if_neg hss]
      exact mem_append_left _ (zero_mem_of_steadyState_eq_none hnone)

/-- **A crash** is a read from an empty queue, or a division by zero. -/
lemma zero_mem_of_vegasProcessSendme_eq_none (h : vegasProcessSendme wrap p cc ctx = none) :
    cc.sendmePendingTimestamps = [] ∨ 0 ∈ vegasProcessSendmeDivisors p cc ctx := by
  rw [vegasProcessSendme, updateCircuitEstimates] at h
  cases hrtt : updateCircuitRtt p (countEvents cc) ctx with
  | none =>
    have hqueue := updateCircuitRtt_eq_none hrtt
    exact .inl hqueue
  | some estimates =>
    obtain ⟨rtt, cc₁⟩ := estimates
    right
    rw [hrtt, Option.map_some] at h
    dsimp only at h
    simp only [vegasProcessSendmeDivisors, hrtt, estimatedDivisors]
    refine mem_append_right _ (mem_append_right _ ?_)
    cases hbdp : updateCircuitBdp cc₁ ctx rtt with
    | mk updated cc₂ =>
      rw [hbdp] at h
      cases updated with
      | false => cases h
      | true => exact zero_mem_of_updateWindow_eq_none h

/-! ## Runs -/

/-- What the end of a circuit divides by, for the SENDMEs that it processes. -/
def Edge.divisors (s : Edge) : EdgeEvent → List ℤ
  | .dataPackaged _ _ => []
  | .sendme ns cellPayload ctx =>
    if s.closed then []
    else if ¬ (sendmeIsValid ns cellPayload s.sendmeLastDigests).1 then []
    else vegasProcessSendmeDivisors (congestionControlNewConsensusParams ns) s.ccontrol ctx

/-- A SENDME is processed that writes the log line without a round trip time. -/
def Edge.LogsWithoutRtt (s : Edge) : EdgeEvent → Prop
  | .dataPackaged _ _ => False
  | .sendme ns cellPayload ctx =>
    s.closed = false ∧ (sendmeIsValid ns cellPayload s.sendmeLastDigests).1 ∧
      Congestion.LogsWithoutRtt (congestionControlNewConsensusParams ns) s.ccontrol ctx

instance decidableEdgeLogsWithoutRtt (s : Edge) : ∀ e, Decidable (s.LogsWithoutRtt e)
  | .dataPackaged _ _ => isFalse id
  | .sendme _ _ _ => inferInstanceAs (Decidable (_ ∧ _ ∧ _))

variable {s s' : Edge} {e : EdgeEvent}

lemma InRange.edge_step (h : InRange s.ccontrol) (hstep : s.step e = some s') :
    InRange s'.ccontrol := by
  obtain ⟨-, hdata | hinvalid | haccept⟩ := Edge.step_cases hstep
  · obtain ⟨digest, now, -, hwindow, hcc, -⟩ := hdata
    rw [hcc]
    exact h.cellSent now hwindow
  · obtain ⟨ns, payload, ctx, digests, -, rfl⟩ := hinvalid
    exact h
  · obtain ⟨ns, payload, ctx, cc, digest, digests, -, -, hcc, rfl⟩ := haccept
    exact h.dispatch (admitted_params ns) hcc

lemma InRange.zero_mem_divisors (h : InRange s.ccontrol) (e : EdgeEvent) :
    0 ∈ s.divisors e ↔ s.LogsWithoutRtt e := by
  cases e with
  | dataPackaged digest now => exact iff_of_false not_mem_nil id
  | sendme ns payload ctx =>
    rw [Edge.divisors, Edge.LogsWithoutRtt]
    split
    · next hclosed =>
        refine iff_of_false not_mem_nil fun hlogs => ?_
        rw [hlogs.1] at hclosed
        cases hclosed
    · next hopen =>
        rw [and_iff_right (Bool.not_eq_true _ ▸ hopen)]
        split
        · next hinvalid => exact iff_of_false not_mem_nil fun hlogs => hinvalid hlogs.1
        · next hvalid =>
            rw [and_iff_right (not_not.mp hvalid)]
            exact h.zero_mem_vegasProcessSendmeDivisors (rttResetPct_mem ns).2

/-- **No SENDME of a run divides by zero** exactly when none writes the log line without a round
trip time.  The consensus may change all along. -/
theorem zeroDivisors_iff (ns : Consensus) (path : CcPath) {sendmeInc : ℤ}
    (hinc : 1 ≤ sendmeInc ∧ sendmeInc ≤ 255) (es : List EdgeEvent) :
    Meets Edge.step (fun s e => 0 ∉ s.divisors e) (Edge.new ns path sendmeInc) es
      ↔ Meets Edge.step (fun s e => ¬ s.LogsWithoutRtt e) (Edge.new ns path sendmeInc) es := by
  have hnew : InRange (Edge.new ns path sendmeInc).ccontrol := InRange.new ns path hinc
  refine meets_congr (fun _ _ _ h hstep => InRange.edge_step h hstep) hnew fun s e h => ?_
  rw [h.zero_mem_divisors e]

/-- The channel is blocked after a round trip of a millisecond, and the second round trip takes no
time at all. -/
theorem zeroDivisors_measured :
    Meets Edge.step (fun s e => 0 ∉ s.divisors e) (Edge.new (fun _ => none) .exit 2)
      [.dataPackaged [] 0, .dataPackaged [] 0, .dataPackaged [] 0, .dataPackaged [] 0,
        .sendme (fun _ => none) [] ⟨1000, false, 0, false⟩,
        .sendme (fun _ => none) [] ⟨0, false, 0, true⟩] := by
  refine (zeroDivisors_iff (fun _ => none) .exit (by decide) _).mpr ?_
  decide +kernel

/-- The clock stalls while the first SENDME is on its way, and it finds the channel blocked. -/
theorem zeroDivisors_fails :
    ¬ Meets Edge.step (fun s e => 0 ∉ s.divisors e) (Edge.new (fun _ => none) .exit 31)
      (List.replicate 31 (.dataPackaged [] 1000)
        ++ [.sendme (fun _ => none) [] ⟨1000, false, 0, true⟩]) := by
  decide +kernel

/-- A round trip of two microseconds is forgotten when the clock goes back by one. -/
example :
    ¬ Meets Edge.step (fun s e => 0 ∉ s.divisors e) (Edge.new (fun _ => none) .exit 2)
      [.dataPackaged [] 0, .dataPackaged [] 0, .dataPackaged [] 2, .dataPackaged [] 2,
        .sendme (fun _ => none) [] ⟨2, false, 0, false⟩,
        .sendme (fun _ => none) [] ⟨1, false, 0, true⟩] := by
  decide +kernel

/-! ## No crash -/

/-- An end whose divisors are in range, with a timestamp for each digest while it is open. -/
structure Edge.Paired (s : Edge) : Prop where
  inRange : InRange s.ccontrol
  paired : s.closed = false → s.sendmeLastDigests.length = s.ccontrol.sendmePendingTimestamps.length

lemma Edge.Paired.step (h : s.Paired) (hstep : s.step e = some s') : s'.Paired := by
  refine ⟨h.inRange.edge_step hstep, fun hopen' => ?_⟩
  obtain ⟨hopen, hdata | hinvalid | haccept⟩ := Edge.step_cases hstep
  · obtain ⟨digest, now, -, -, hcc, hdigests, -⟩ := hdata
    rw [hcc, hdigests, congestionControlNoteCellSent, length_append, h.paired hopen]
    split <;> simp
  · obtain ⟨ns, payload, ctx, digests, -, rfl⟩ := hinvalid
    cases hopen'
  · obtain ⟨ns, payload, ctx, cc, digest, digests, -, hcons, hcc, rfl⟩ := haccept
    obtain ⟨-, ⟨sentAt, htimestamps⟩, -⟩ := dispatch_flight hcc
    have hlen := h.paired hopen
    rw [hcons, htimestamps, length_cons, length_cons] at hlen
    exact Nat.succ.inj hlen

/-- **No SENDME of a run crashes** or divides by zero, unless it writes the log line without a round
trip time. -/
theorem exists_step_sendme (ns ns' : Consensus) (path : CcPath) {sendmeInc : ℤ}
    (hinc : 1 ≤ sendmeInc ∧ sendmeInc ≤ 255) {es : List EdgeEvent} {payload : Bytes}
    {ctx : SendmeContext} (h : Reaches Edge.step (Edge.new ns path sendmeInc) es s)
    (hopen : s.closed = false) (hlogs : ¬ s.LogsWithoutRtt (.sendme ns' payload ctx)) :
    (∃ s', s.step (.sendme ns' payload ctx) = some s')
      ∧ 0 ∉ s.divisors (.sendme ns' payload ctx) := by
  obtain ⟨hrange, hpaired⟩ : s.Paired := invariant_of_reaches
    (fun _ _ _ hs hstep => Edge.Paired.step hs hstep) ⟨InRange.new ns path hinc, fun _ => rfl⟩ h
  have hzero := mt (hrange.zero_mem_divisors (.sendme ns' payload ctx)).mp hlogs
  refine ⟨?_, hzero⟩
  rw [Edge.divisors, if_neg (Bool.eq_false_iff.mp hopen)] at hzero
  rw [Edge.step, if_neg (Bool.eq_false_iff.mp hopen)]
  simp only [sendmeProcessCircuitLevel]
  split
  · exact ⟨_, rfl⟩
  · next hvalid =>
      have hvalid := not_not.mp hvalid
      refine Option.ne_none_iff_exists'.mp fun hnone => ?_
      have hcrash := Option.map_eq_none_iff.mp (Option.map_eq_none_iff.mp hnone)
      rcases zero_mem_of_vegasProcessSendme_eq_none hcrash with hnil | hmem
      · obtain ⟨digest, hcons⟩ := sendmeIsValid_valid hvalid
        have hlen := hpaired hopen
        rw [hcons, hnil] at hlen
        cases hlen
      · rw [if_neg (not_not.mpr hvalid)] at hzero
        exact hzero hmem

theorem exists_step_sendme_blocked :
    ∃ s, Reaches Edge.step (Edge.new (fun _ => none) .exit 2)
        [.dataPackaged [] 0, .dataPackaged [] 0] s
      ∧ (∃ s', s.step (.sendme (fun _ => none) [] ⟨1000, false, 0, true⟩) = some s')
      ∧ 0 ∉ s.divisors (.sendme (fun _ => none) [] ⟨1000, false, 0, true⟩) := by
  have hrun : (([.dataPackaged [] 0, .dataPackaged [] 0] : List EdgeEvent).foldlM Edge.step
      (Edge.new (fun _ => none) .exit 2)).any (fun s => s.closed = false ∧
        ¬ s.LogsWithoutRtt (.sendme (fun _ => none) [] ⟨1000, false, 0, true⟩)) = true := by
    decide +kernel
  obtain ⟨s, hs, hcond⟩ := (Option.any_eq_true _ _).mp hrun
  obtain ⟨hopen, hlogs⟩ := of_decide_eq_true hcond
  exact ⟨s, hs, exists_step_sendme (fun _ => none) (fun _ => none) .exit (by decide) hs
    hopen hlogs⟩

end Ator.Congestion
