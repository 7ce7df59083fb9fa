import AtorProtocol.FlowControl.Congestion
import AtorProtocol.Lib.Run

/-!
# The Vegas congestion window

`src/core/or/congestion_control_vegas.c`: what a SENDME does with the congestion window, and what
`src/core/or/congestion_control_common.c` does around it.  `none` is a crash: a division by zero
in the log line, or a read from an empty queue.

* `vegasProcessSendme` — one SENDME.
* `congestionControlNoteCellSent`, `congestionControlDispatchCcAlg` — the two ways in.
-/

namespace Ator.Congestion

open Option

variable (conv : ℕ → ℤ → ℤ)

/-! ## The window -/

/-- `congestion_control_vegas_log`, which divides by the larger of the two round trip times. -/
def vegasLog (cc : CongestionControl) : Option CongestionControl :=
  if max cc.minRttUsec cc.ewmaRttUsec = 0 then none else some cc

def rfc3742SsInc (cc : CongestionControl) : ℤ :=
  if cc.cwnd ≤ cc.ssCwndCap then
    conv 64 (conv 64 (cc.cwndIncPctSs * cc.sendmeInc) + 50) / 100
  else
    max (conv 64 (conv 64 (cc.sendmeInc * cc.ssCwndCap) + cc.cwnd) / conv 64 (2 * cc.cwnd)) 1

/-- `congestion_control_vegas_exit_slow_start` -/
def vegasExitSlowStart (cc : CongestionControl) : Option CongestionControl :=
  vegasLog { cc with inSlowStart := false }

def cwndBecameFull (p : CachedParams) (cc : CongestionControl) : Bool :=
  conv 64 (cc.inflight + p.cwndFullGap * cc.sendmeInc) ≥ cc.cwnd

def cwndBecameNonfull (p : CachedParams) (cc : CongestionControl) : Bool :=
  conv 64 (100 * cc.inflight) < conv 64 (p.cwndFullMinpct * cc.cwnd)

def cwndFullReset (p : CachedParams) (cc : CongestionControl) : Bool :=
  if p.cwndFullPerCwnd ≠ 0 then cc.nextCwndEvent = sendmePerCwnd conv cc
  else cc.nextCcEvent = cwndUpdateRate conv cc

/-- By how much the window is above the estimate. -/
def queueUse (cc : CongestionControl) : ℤ :=
  if cc.bdp > cc.cwnd then 0 else conv 64 (cc.cwnd - cc.bdp)

/-- The update of `cwnd_full` -/
def updateCwndFull (p : CachedParams) (cc : CongestionControl) : CongestionControl :=
  if cwndBecameFull conv p cc then { cc with cwndFull := true }
  else if cwndBecameNonfull conv p cc then { cc with cwndFull := false }
  else cc

/-- In slow start, without a congestion signal. -/
def slowStartGrow (cc : CongestionControl) : Option CongestionControl :=
  if cc.cwndFull then
    let inc := rfc3742SsInc conv cc
    let cc := { cc with cwnd := conv 64 (cc.cwnd + inc) }
    if conv 64 (inc * sendmePerCwnd conv cc) ≤ cc.cwndInc * cc.cwndIncRate then
      vegasExitSlowStart cc
    else some cc
  else some cc

/-- The cap at the end of the slow start branch. -/
def slowStartCap (cc : CongestionControl) : Option CongestionControl :=
  if cc.cwnd ≥ cc.ssCwndMax then vegasExitSlowStart { cc with cwnd := cc.ssCwndMax } else some cc

/-- The slow start branch. -/
def slowStart (cc : CongestionControl) : Option CongestionControl :=
  if queueUse conv cc < cc.gamma ∧ ¬ cc.blockedChan then
    (slowStartGrow conv cc).bind slowStartCap
  else
    (vegasExitSlowStart { cc with cwnd := conv 64 (cc.bdp + cc.gamma) }).bind slowStartCap

/-- What a congestion event makes of the window in steady state. -/
def steadyCwnd (cc : CongestionControl) : ℤ :=
  if queueUse conv cc > cc.delta then conv 64 (conv 64 (cc.bdp + cc.delta) - cc.cwndInc)
  else if queueUse conv cc > cc.beta ∨ cc.blockedChan then conv 64 (cc.cwnd - cc.cwndInc)
  else if cc.cwndFull ∧ queueUse conv cc < cc.alpha then conv 64 (cc.cwnd + cc.cwndInc)
  else cc.cwnd

/-- The steady state branch. -/
def steadyState (cc : CongestionControl) : Option CongestionControl :=
  if cc.nextCcEvent = 0 then vegasLog { cc with cwnd := max (steadyCwnd conv cc) cc.cwndMin }
  else some cc

/-- The end of `congestion_control_vegas_process_sendme`: the counters start again, and the cells
are no longer in flight. -/
def resetCounters (p : CachedParams) (cc : CongestionControl) : CongestionControl :=
  let cc := { cc with
    nextCwndEvent :=
      if cc.nextCwndEvent = 0 then conv 16 (sendmePerCwnd conv cc) else cc.nextCwndEvent
    nextCcEvent := if cc.nextCcEvent = 0 then conv 16 (cwndUpdateRate conv cc) else cc.nextCcEvent }
  { cc with
    cwndFull := if cwndFullReset conv p cc then false else cc.cwndFull
    inflight := conv 64 (cc.inflight - cc.sendmeInc) }

/-- The start: the counters go down. -/
def countEvents (cc : CongestionControl) : CongestionControl :=
  { cc with
    nextCcEvent := if cc.nextCcEvent ≠ 0 then cc.nextCcEvent - 1 else cc.nextCcEvent
    nextCwndEvent := if cc.nextCwndEvent ≠ 0 then cc.nextCwndEvent - 1 else cc.nextCwndEvent }

/-- The update of the window, once the estimates are. -/
def updateWindow (p : CachedParams) (cc : CongestionControl) : Option CongestionControl :=
  let cc := updateCwndFull conv p cc
  ((if cc.inSlowStart then slowStart conv cc else steadyState conv cc)).map (resetCounters conv p)

/-- `congestion_control_vegas_process_sendme` -/
def vegasProcessSendme (p : CachedParams) (cc : CongestionControl) (ctx : SendmeContext) :
    Option CongestionControl :=
  match updateCircuitEstimates p (countEvents cc) ctx with
  | none => none
  | some (false, cc) => some { cc with inflight := conv 64 (cc.inflight - cc.sendmeInc) }
  | some (true, cc) => updateWindow conv p cc

def circuitSentCellForSendme (cc : CongestionControl) : Bool :=
  if cc.inflight = 0 then false
  else if wrap 64 (cc.inflight + 1) % cc.sendmeInc ≠ 0 then false
  else true

/-- `congestion_control_note_cell_sent`, at the time `nowUsec`. -/
def congestionControlNoteCellSent (cc : CongestionControl) (nowUsec : ℤ) : CongestionControl :=
  if circuitSentCellForSendme cc then
    { cc with
      inflight := wrap 64 (cc.inflight + 1)
      sendmePendingTimestamps := cc.sendmePendingTimestamps ++ [nowUsec] }
  else { cc with inflight := wrap 64 (cc.inflight + 1) }

def congestionControlGetPackageWindow (cc : CongestionControl) : ℤ :=
  if cc.inflight > cc.cwnd then 0
  else if cc.cwnd - cc.inflight > int32Max then int32Max
  else cc.cwnd - cc.inflight

/-- `congestion_control_dispatch_cc_alg`: a window above `cwnd_max` is clamped. -/
def congestionControlDispatchCcAlg (p : CachedParams) (cc : CongestionControl)
    (ctx : SendmeContext) : Option CongestionControl :=
  (vegasProcessSendme wrap p cc ctx).map fun cc =>
    if cc.cwnd > p.cwndMax then { cc with cwnd := p.cwndMax } else cc

/-! ## What each function changes -/

variable {conv : ℕ → ℤ → ℤ} {p : CachedParams} {cc cc' : CongestionControl} {ctx : SendmeContext}

lemma vegasLog_eq (h : vegasLog cc = some cc') : cc' = cc := by
  rw [vegasLog] at h
  split at h
  · cases h
  · exact (some.inj h).symm

lemma vegasExitSlowStart_eq (h : vegasExitSlowStart cc = some cc') :
    cc' = { cc with inSlowStart := false } := vegasLog_eq h

lemma slowStartCap_eq (h : slowStartCap cc = some cc') :
    ∃ cwnd inSlowStart, cc' = { cc with cwnd, inSlowStart } := by
  rw [slowStartCap] at h
  split at h
  · obtain rfl := vegasExitSlowStart_eq h
    exact ⟨_, _, rfl⟩
  · exact ⟨_, _, (some.inj h).symm⟩

lemma slowStartGrow_eq (h : slowStartGrow conv cc = some cc') :
    ∃ cwnd inSlowStart, cc' = { cc with cwnd, inSlowStart } := by
  simp only [slowStartGrow] at h
  split at h
  · split at h
    · obtain rfl := vegasExitSlowStart_eq h
      exact ⟨_, _, rfl⟩
    · exact ⟨_, _, (some.inj h).symm⟩
  · exact ⟨_, _, (some.inj h).symm⟩

lemma slowStart_eq (h : slowStart conv cc = some cc') :
    ∃ cwnd inSlowStart, cc' = { cc with cwnd, inSlowStart } := by
  rw [slowStart] at h
  split at h
  · obtain ⟨cc₁, hgrow, hcap⟩ := bind_eq_some_iff.mp h
    obtain ⟨_, _, rfl⟩ := slowStartGrow_eq hgrow
    obtain ⟨_, _, rfl⟩ := slowStartCap_eq hcap
    exact ⟨_, _, rfl⟩
  · obtain ⟨cc₁, hexit, hcap⟩ := bind_eq_some_iff.mp h
    obtain rfl := vegasExitSlowStart_eq hexit
    obtain ⟨_, _, rfl⟩ := slowStartCap_eq hcap
    exact ⟨_, _, rfl⟩

lemma steadyState_eq (h : steadyState conv cc = some cc') : ∃ cwnd, cc' = { cc with cwnd } := by
  rw [steadyState] at h
  split at h
  · obtain rfl := vegasLog_eq h
    exact ⟨_, rfl⟩
  · exact ⟨_, (some.inj h).symm⟩

lemma updateCwndFull_eq (conv : ℕ → ℤ → ℤ) (p : CachedParams) (cc : CongestionControl) :
    ∃ cwndFull, updateCwndFull conv p cc = { cc with cwndFull } := by
  rw [updateCwndFull]
  split
  · exact ⟨_, rfl⟩
  · split <;> exact ⟨_, rfl⟩

lemma updateCircuitRtt_eq {rtt : ℤ} (h : updateCircuitRtt p cc ctx = some (rtt, cc')) :
    ∃ sentAt sendmePendingTimestamps ewmaRttUsec maxRttUsec minRttUsec,
      cc.sendmePendingTimestamps = sentAt :: sendmePendingTimestamps ∧
      cc' = { cc with sendmePendingTimestamps, ewmaRttUsec, maxRttUsec, minRttUsec } := by
  rw [updateCircuitRtt] at h
  split at h
  · cases h
  · next sentAt timestamps hqueue =>
      dsimp only at h
      split at h
      · obtain ⟨-, rfl⟩ := Prod.mk.inj (some.inj h)
        exact ⟨sentAt, timestamps, _, _, _, hqueue, rfl⟩
      · obtain ⟨-, rfl⟩ := Prod.mk.inj (some.inj h)
        exact ⟨sentAt, timestamps, _, _, _, hqueue, rfl⟩

lemma updateCircuitBdp_eq (cc : CongestionControl) (ctx : SendmeContext) (rtt : ℤ) :
    ∃ bdp nextCcEvent blockedChan,
      (updateCircuitBdp cc ctx rtt).2 = { cc with bdp, nextCcEvent, blockedChan } := by
  rw [updateCircuitBdp]
  split <;> exact ⟨_, _, _, rfl⟩

lemma updateWindow_eq (h : updateWindow conv p cc = some cc') :
    ∃ cwnd inSlowStart nextCwndEvent nextCcEvent cwndFull, cc' = { cc with
      cwnd, inSlowStart, nextCwndEvent, nextCcEvent, cwndFull
      inflight := conv 64 (cc.inflight - cc.sendmeInc) } := by
  rw [updateWindow] at h
  obtain ⟨full, hfull⟩ := updateCwndFull_eq conv p cc
  rw [hfull] at h
  obtain ⟨cc₁, hcc₁, rfl⟩ := map_eq_some_iff.mp h
  split at hcc₁
  · obtain ⟨_, _, rfl⟩ := slowStart_eq hcc₁
    exact ⟨_, _, _, _, _, rfl⟩
  · obtain ⟨_, rfl⟩ := steadyState_eq hcc₁
    exact ⟨_, _, _, _, _, rfl⟩

lemma updateCircuitEstimates_eq {updated : Bool}
    (h : updateCircuitEstimates p cc ctx = some (updated, cc')) :
    ∃ sentAt sendmePendingTimestamps ewmaRttUsec maxRttUsec minRttUsec bdp nextCcEvent blockedChan,
      cc.sendmePendingTimestamps = sentAt :: sendmePendingTimestamps ∧
      cc' = { cc with
        sendmePendingTimestamps, ewmaRttUsec, maxRttUsec, minRttUsec, bdp, nextCcEvent
        blockedChan } := by
  obtain ⟨⟨rtt, cc₁⟩, hrtt, hbdp⟩ := map_eq_some_iff.mp h
  obtain ⟨sentAt, _, _, _, _, hqueue, rfl⟩ := updateCircuitRtt_eq hrtt
  obtain ⟨_, _, _, heq⟩ := updateCircuitBdp_eq _ ctx rtt
  have hcc' : cc' = _ := (congrArg Prod.snd hbdp).symm.trans heq
  exact ⟨sentAt, _, _, _, _, _, _, _, hqueue, hcc'⟩

/-- **A SENDME** takes a timestamp, and its cells out of flight. -/
lemma vegasProcessSendme_flight (h : vegasProcessSendme conv p cc ctx = some cc') :
    (∃ sentAt, cc.sendmePendingTimestamps = sentAt :: cc'.sendmePendingTimestamps) ∧
      cc'.inflight = conv 64 (cc.inflight - cc.sendmeInc) ∧ cc'.sendmeInc = cc.sendmeInc := by
  rw [vegasProcessSendme] at h
  split at h
  · cases h
  · next _ cc₁ hestimates =>
      obtain ⟨sentAt, _, _, _, _, _, _, _, hqueue, rfl⟩ := updateCircuitEstimates_eq hestimates
      obtain rfl := some.inj h
      exact ⟨⟨sentAt, hqueue⟩, rfl, rfl⟩
  · next _ cc₁ hestimates =>
      obtain ⟨sentAt, _, _, _, _, _, _, _, hqueue, rfl⟩ := updateCircuitEstimates_eq hestimates
      obtain ⟨_, _, _, _, _, rfl⟩ := updateWindow_eq h
      exact ⟨⟨sentAt, hqueue⟩, rfl, rfl⟩

end Ator.Congestion
