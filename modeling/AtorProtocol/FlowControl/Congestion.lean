import AtorProtocol.Encoding.Binascii

/-!
# Congestion control

`congestion_control_t`, with the consensus parameters that its fields come from, and the round
trip and bandwidth-delay estimates of `src/core/or/congestion_control_common.c`.  Every number is
an integer; what C stores in an unsigned type of `w` bits goes through a conversion.

* `updateCircuitEstimates` — the estimates of a SENDME.
-/

namespace Ator.Congestion

/-- What a conversion to an unsigned type of `w` bits does. -/
def wrap (w : ℕ) (x : ℤ) : ℤ := x % 2 ^ w

/-! ## Parameters -/

/-- The parameters of a consensus, by name. -/
abbrev Consensus := String → Option ℤ

def networkstatusGetParam (ns : Consensus) (paramName : String) (defaultVal minVal maxVal : ℤ) :
    ℤ :=
  let res := (ns paramName).getD defaultVal
  if res < minVal then minVal else if res > maxVal then maxVal else res

def int16Max : ℤ := 2 ^ 15 - 1

def int32Max : ℤ := 2 ^ 31 - 1

def tlsRecordMaxCells : ℤ := 16 * 1024 / 514

def sendmeIncDflt : ℤ := tlsRecordMaxCells

def circwindowInit : ℤ := 4 * sendmeIncDflt

def outbufCells : ℤ := 2 * tlsRecordMaxCells

/-- What is cached of the consensus: `cwnd_max`, the averaging counts, `rtt_reset_pct`, and when a
window counts as full. -/
structure CachedParams where
  cwndMax : ℤ
  nEwmaCwndPct : ℤ
  nEwmaMax : ℤ
  nEwmaSs : ℤ
  rttResetPct : ℤ
  cwndFullMinpct : ℤ
  cwndFullGap : ℤ
  cwndFullPerCwnd : ℤ

/-- `congestion_control_new_consensus_params`, and the cached ones of
`congestion_control_vegas_set_params`. -/
def congestionControlNewConsensusParams (ns : Consensus) : CachedParams where
  cwndMax := networkstatusGetParam ns "cc_cwnd_max" int32Max 500 int32Max
  nEwmaCwndPct := networkstatusGetParam ns "cc_ewma_cwnd_pct" 50 1 255
  nEwmaMax := wrap 8 (networkstatusGetParam ns "cc_ewma_max" 10 2 int32Max)
  nEwmaSs := wrap 8 (networkstatusGetParam ns "cc_ewma_ss" 2 2 int32Max)
  rttResetPct := networkstatusGetParam ns "cc_rtt_reset_pct" 100 0 100
  cwndFullMinpct := networkstatusGetParam ns "cc_cwnd_full_minpct" 25 0 100
  cwndFullGap := networkstatusGetParam ns "cc_cwnd_full_gap" 4 0 int16Max
  cwndFullPerCwnd := networkstatusGetParam ns "cc_cwnd_full_per_cwnd" 1 0 1

inductive CcPath where
  | exit
  | onion
  | onionSos
  | onionVg
  | sbws
deriving DecidableEq

/-- `congestion_control_t`, without the congestion control and estimation algorithms, of which
there is one each. -/
structure CongestionControl where
  sendmePendingTimestamps : List ℤ
  ewmaRttUsec : ℤ
  minRttUsec : ℤ
  maxRttUsec : ℤ
  bdp : ℤ
  cwnd : ℤ
  inflight : ℤ
  nextCcEvent : ℤ
  nextCwndEvent : ℤ
  inSlowStart : Bool
  cwndFull : Bool
  blockedChan : Bool
  cwndIncPctSs : ℤ
  cwndInc : ℤ
  cwndMin : ℤ
  cwndIncRate : ℤ
  sendmeInc : ℤ
  ssCwndCap : ℤ
  ssCwndMax : ℤ
  gamma : ℤ
  alpha : ℤ
  beta : ℤ
  delta : ℤ

/-- The names of the Vegas parameters of a path, with their defaults: alpha, beta, gamma, delta and
the slow start cap. -/
def vegasParams : CcPath → (String × ℤ) × (String × ℤ) × (String × ℤ) × (String × ℤ) × (String × ℤ)
  | .sbws =>
    (("cc_vegas_alpha_sbws", 2 * outbufCells - tlsRecordMaxCells),
      ("cc_vegas_beta_sbws", 2 * outbufCells + tlsRecordMaxCells),
      ("cc_vegas_gamma_sbws", 2 * outbufCells), ("cc_vegas_delta_sbws", 4 * outbufCells),
      ("cc_sscap_sbws", 400))
  | .exit | .onionSos =>
    (("cc_vegas_alpha_exit", 3 * outbufCells), ("cc_vegas_beta_exit", 4 * outbufCells),
      ("cc_vegas_gamma_exit", 3 * outbufCells), ("cc_vegas_delta_exit", 5 * outbufCells),
      ("cc_sscap_exit", 600))
  | .onion | .onionVg =>
    (("cc_vegas_alpha_onion", 3 * outbufCells), ("cc_vegas_beta_onion", 6 * outbufCells),
      ("cc_vegas_gamma_onion", 4 * outbufCells), ("cc_vegas_delta_onion", 7 * outbufCells),
      ("cc_sscap_onion", 475))

/-- `congestion_control_init_params` and `congestion_control_vegas_set_params` on a new object.
The SENDME increment was negotiated. -/
def congestionControlInitParams (ns : Consensus) (path : CcPath) (sendmeInc : ℤ) :
    CongestionControl :=
  let (alpha, beta, gamma, delta, sscap) := vegasParams path
  { sendmePendingTimestamps := []
    ewmaRttUsec := 0
    minRttUsec := 0
    maxRttUsec := 0
    bdp := 0
    cwnd := networkstatusGetParam ns "cc_cwnd_init" circwindowInit sendmeIncDflt 10000
    inflight := 0
    nextCcEvent := 0
    nextCwndEvent := 0
    inSlowStart := true
    cwndFull := false
    blockedChan := false
    cwndIncPctSs := networkstatusGetParam ns "cc_cwnd_inc_pct_ss" 100 1 500
    cwndInc := networkstatusGetParam ns "cc_cwnd_inc" 1 1 1000
    cwndMin := networkstatusGetParam ns "cc_cwnd_min" circwindowInit sendmeIncDflt 1000
    cwndIncRate := networkstatusGetParam ns "cc_cwnd_inc_rate" sendmeIncDflt 1 250
    sendmeInc := sendmeInc
    ssCwndCap := networkstatusGetParam ns sscap.1 sscap.2 100 int32Max
    ssCwndMax := networkstatusGetParam ns "cc_ss_max" 5000 500 int32Max
    gamma := networkstatusGetParam ns gamma.1 gamma.2 0 1000
    alpha := networkstatusGetParam ns alpha.1 alpha.2 0 1000
    beta := networkstatusGetParam ns beta.1 beta.2 0 1000
    delta := wrap 16 (networkstatusGetParam ns delta.1 delta.2 0 int32Max) }

variable (conv : ℕ → ℤ → ℤ)

def cwndUpdateRate (cc : CongestionControl) : ℤ :=
  if cc.inSlowStart then 1
  else conv 64 (cc.cwnd + cc.cwndIncRate * cc.sendmeInc / 2) / (cc.cwndIncRate * cc.sendmeInc)

def sendmePerCwnd (cc : CongestionControl) : ℤ :=
  conv 64 (cc.cwnd + cc.sendmeInc / 2) / cc.sendmeInc

def congestionControlNew (ns : Consensus) (path : CcPath) (sendmeInc : ℤ) : CongestionControl :=
  let cc := congestionControlInitParams ns path sendmeInc
  { cc with nextCcEvent := wrap 16 (cwndUpdateRate wrap cc) }

/-! ## What the getters admit -/

lemma networkstatusGetParam_mem (ns : Consensus) (paramName : String) (defaultVal : ℤ)
    {minVal maxVal : ℤ} (h : minVal ≤ maxVal) :
    minVal ≤ networkstatusGetParam ns paramName defaultVal minVal maxVal ∧
      networkstatusGetParam ns paramName defaultVal minVal maxVal ≤ maxVal := by
  simp only [networkstatusGetParam]
  split
  · exact ⟨le_refl _, h⟩
  · split
    · exact ⟨h, le_refl _⟩
    · omega

lemma wrap_nonneg (w : ℕ) (x : ℤ) : 0 ≤ wrap w x := Int.emod_nonneg x (by positivity)

lemma wrap_lt (w : ℕ) (x : ℤ) : wrap w x < 2 ^ w := Int.emod_lt_of_pos x (by positivity)

lemma wrap_of_mem {w : ℕ} {x : ℤ} (h : 0 ≤ x) (h' : x < 2 ^ w) : wrap w x = x :=
  Int.emod_eq_of_lt h h'

lemma wrap_le {w : ℕ} {x : ℤ} (h : 0 ≤ x) : wrap w x ≤ x := by
  rcases lt_or_ge x (2 ^ w) with hlt | hge
  · exact (wrap_of_mem h hlt).le
  · exact (wrap_lt w x).le.trans hge

/-- The parameters of an object are in the ranges of their getters. -/
structure CongestionControl.Admitted (cc : CongestionControl) : Prop where
  cwndIncPctSs : 1 ≤ cc.cwndIncPctSs ∧ cc.cwndIncPctSs ≤ 500
  cwndInc : 1 ≤ cc.cwndInc ∧ cc.cwndInc ≤ 1000
  cwndMin : sendmeIncDflt ≤ cc.cwndMin ∧ cc.cwndMin ≤ 1000
  cwndIncRate : 1 ≤ cc.cwndIncRate ∧ cc.cwndIncRate ≤ 250
  ssCwndCap : 100 ≤ cc.ssCwndCap ∧ cc.ssCwndCap ≤ int32Max
  ssCwndMax : 500 ≤ cc.ssCwndMax ∧ cc.ssCwndMax ≤ int32Max
  gamma : 0 ≤ cc.gamma ∧ cc.gamma ≤ 1000
  alpha : 0 ≤ cc.alpha ∧ cc.alpha ≤ 1000
  beta : 0 ≤ cc.beta ∧ cc.beta ≤ 1000
  delta : 0 ≤ cc.delta ∧ cc.delta < 2 ^ 16

/-- **A new object** has the parameters that the getters admit. -/
lemma admitted_new (ns : Consensus) (path : CcPath) (sendmeInc : ℤ) :
    (congestionControlNew ns path sendmeInc).Admitted where
  cwndIncPctSs := networkstatusGetParam_mem ns _ _ (by decide)
  cwndInc := networkstatusGetParam_mem ns _ _ (by decide)
  cwndMin := networkstatusGetParam_mem ns _ _ (by decide)
  cwndIncRate := networkstatusGetParam_mem ns _ _ (by decide)
  ssCwndCap := networkstatusGetParam_mem ns _ _ (by decide)
  ssCwndMax := networkstatusGetParam_mem ns _ _ (by decide)
  gamma := networkstatusGetParam_mem ns _ _ (by decide)
  alpha := networkstatusGetParam_mem ns _ _ (by decide)
  beta := networkstatusGetParam_mem ns _ _ (by decide)
  delta := ⟨wrap_nonneg 16 _, wrap_lt 16 _⟩

lemma cwnd_new (ns : Consensus) (path : CcPath) (sendmeInc : ℤ) :
    sendmeIncDflt ≤ (congestionControlNew ns path sendmeInc).cwnd ∧
      (congestionControlNew ns path sendmeInc).cwnd ≤ 10000 :=
  networkstatusGetParam_mem ns _ _ (by decide)

/-- The cached parameters that the window depends on are in the ranges of their getters. -/
structure CachedParams.Admitted (p : CachedParams) : Prop where
  cwndMax : 500 ≤ p.cwndMax ∧ p.cwndMax ≤ int32Max
  cwndFullMinpct : 0 ≤ p.cwndFullMinpct ∧ p.cwndFullMinpct ≤ 100
  cwndFullGap : 0 ≤ p.cwndFullGap ∧ p.cwndFullGap ≤ int16Max

lemma admitted_params (ns : Consensus) : (congestionControlNewConsensusParams ns).Admitted where
  cwndMax := networkstatusGetParam_mem ns _ _ (by decide)
  cwndFullMinpct := networkstatusGetParam_mem ns _ _ (by decide)
  cwndFullGap := networkstatusGetParam_mem ns _ _ (by decide)

/-! ## Estimates -/

def nEwmaCount (p : CachedParams) (cc : CongestionControl) : ℤ :=
  let ewmaCnt :=
    if cc.inSlowStart then p.nEwmaSs
    else min (wrap 64 (cwndUpdateRate wrap cc * p.nEwmaCwndPct) / 100) p.nEwmaMax
  max ewmaCnt 2

def nCountEwma (curr prev n : ℤ) : ℤ :=
  if prev = 0 then curr
  else wrap 64 (wrap 64 (2 * curr) + wrap 64 ((n - 1) * prev)) / (n + 1)

def percentMaxMix (a b pctMax : ℤ) : ℤ :=
  if pctMax > 100 then max a b
  else wrap 64 (wrap 64 (pctMax * max a b) / 100 + wrap 64 ((100 - pctMax) * min a b) / 100)

/-- `time_delta_stalled_or_jumped`; `is_monotime_clock_broken` is shared by all circuits. -/
def timeDeltaStalledOrJumped (cc : CongestionControl) (isMonotimeClockBroken : Bool)
    (oldDelta newDelta : ℤ) : Bool :=
  if newDelta = 0 then true
  else if ¬ (¬ cc.inSlowStart ∧ cc.ewmaRttUsec ≠ 0) then false
  else if oldDelta > wrap 64 (newDelta * 5000) then isMonotimeClockBroken
  else if newDelta > wrap 64 (oldDelta * 5000) then true
  else false

/-- What is outside the object when a SENDME arrives: the time, whether the clock stalled before,
and the cells on the channel and whether it is blocked. -/
structure SendmeContext where
  nowUsec : ℤ
  isMonotimeClockBroken : Bool
  chanQ : ℕ
  blockedOnChan : Bool

/-- The minimum round trip time after a new average: it is raised where the window is at its
minimum. -/
def newMinRttUsec (p : CachedParams) (cc : CongestionControl) : ℤ :=
  if cc.minRttUsec = 0 then cc.ewmaRttUsec
  else if cc.cwnd = cc.cwndMin ∧ ¬ cc.inSlowStart then
    percentMaxMix cc.ewmaRttUsec cc.minRttUsec p.rttResetPct
  else if cc.ewmaRttUsec < cc.minRttUsec then cc.ewmaRttUsec
  else cc.minRttUsec

/-- `congestion_control_update_circuit_rtt` with `dequeue_timestamp`; `none` is a read from an
empty queue. -/
def updateCircuitRtt (p : CachedParams) (cc : CongestionControl) (ctx : SendmeContext) :
    Option (ℤ × CongestionControl) :=
  match cc.sendmePendingTimestamps with
  | [] => none
  | sentAtTimestamp :: timestamps =>
    let cc := { cc with sendmePendingTimestamps := timestamps }
    let rtt := wrap 64 (ctx.nowUsec - sentAtTimestamp)
    if timeDeltaStalledOrJumped cc ctx.isMonotimeClockBroken cc.ewmaRttUsec rtt then some (0, cc)
    else
      let cc := { cc with
        ewmaRttUsec := nCountEwma rtt cc.ewmaRttUsec (nEwmaCount p cc)
        maxRttUsec := max cc.maxRttUsec rtt }
      some (rtt, { cc with minRttUsec := newMinRttUsec p cc })

/-- `congestion_control_update_circuit_bdp`: whether the estimate was updated. -/
def updateCircuitBdp (cc : CongestionControl) (ctx : SendmeContext) (currRttUsec : ℤ) :
    Bool × CongestionControl :=
  if cc.ewmaRttUsec = 0 then
    let bdp :=
      if ctx.blockedOnChan then
        if ctx.chanQ ≥ cc.cwnd then cc.cwndMin else max (cc.cwnd - ctx.chanQ) cc.cwndMin
      else cc.cwnd
    (ctx.blockedOnChan, { cc with bdp, blockedChan := ctx.blockedOnChan })
  else
    let cc := { cc with
      bdp := wrap 64 (cc.cwnd * cc.minRttUsec) / cc.ewmaRttUsec
      nextCcEvent := if cc.blockedChan = ctx.blockedOnChan then cc.nextCcEvent else 0
      blockedChan := ctx.blockedOnChan }
    (ctx.blockedOnChan || currRttUsec ≠ 0, cc)

/-- `congestion_control_update_circuit_estimates` -/
def updateCircuitEstimates (p : CachedParams) (cc : CongestionControl) (ctx : SendmeContext) :
    Option (Bool × CongestionControl) :=
  (updateCircuitRtt p cc ctx).map fun (rtt, cc) => updateCircuitBdp cc ctx rtt

end Ator.Congestion
