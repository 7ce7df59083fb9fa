import AtorProtocol.FlowControl.ZeroDivisors

/-!
# The estimate and the window

Vegas takes for the use of the queue what the window is above the bandwidth-delay product; that the
product is above the window "should not happen anymore".

* `EstimateFits` — the product is within the window, and the minimum round trip time within the
  average.
* `KeepsMinimum` — the condition, on the state before the SENDME.
* `estimateFits_iff` — in a run, these are the SENDMEs whose estimates fit.
-/

namespace Ator.Congestion

/-! ## The condition -/

/-- What Vegas computes the queue use from. -/
def EstimateFits (cc : CongestionControl) : Prop :=
  cc.bdp ≤ cc.cwnd ∧ cc.minRttUsec ≤ cc.ewmaRttUsec

/-- The queue use of a SENDME, if it is computed, is computed from estimates that fit. -/
def SendmeEstimateFits (p : CachedParams) (cc : CongestionControl) (ctx : SendmeContext) : Prop :=
  ∀ cc', updateCircuitEstimates p (countEvents cc) ctx = some (true, cc') → EstimateFits cc'

/-- The average that a round trip gives. -/
def averagedRtt (p : CachedParams) (cc : CongestionControl) (rtt : ℤ) : ℤ :=
  nCountEwma rtt cc.ewmaRttUsec (nEwmaCount p cc)

/-- On a blocked channel, a product without an average is not raised above the window. -/
def KeepsWindow (cc : CongestionControl) (ctx : SendmeContext) (ewmaRttUsec : ℤ) : Prop :=
  ctx.blockedOnChan → ewmaRttUsec = 0 → cc.cwndMin ≤ cc.cwnd

/-- The reset of the minimum leaves it within the average: the share that is taken of the minimum
is no more than what is left of the average beside its own. -/
def ResetKeepsMinimum (p : CachedParams) (cc : CongestionControl) (ewmaRttUsec : ℤ) : Prop :=
  wrap 64 (p.rttResetPct * cc.minRttUsec) / 100
    + wrap 64 ((100 - p.rttResetPct) * ewmaRttUsec) / 100 ≤ ewmaRttUsec

/-- The estimates of the round trip of a cell that was sent at `sentAtTimestamp` fit.  If the clock
is not trusted, the minimum was within the average before, where it matters; otherwise it is a
reset at the smallest window that can leave it above. -/
def KeepsMinimum (p : CachedParams) (cc : CongestionControl) (ctx : SendmeContext)
    (sentAtTimestamp : ℤ) : Prop :=
  let rtt := wrap 64 (ctx.nowUsec - sentAtTimestamp)
  if timeDeltaStalledOrJumped cc ctx.isMonotimeClockBroken cc.ewmaRttUsec rtt then
    KeepsWindow cc ctx cc.ewmaRttUsec ∧ (ctx.blockedOnChan → cc.minRttUsec ≤ cc.ewmaRttUsec)
  else
    KeepsWindow cc ctx (averagedRtt p cc rtt) ∧
      (cc.minRttUsec ≠ 0 → cc.cwnd = cc.cwndMin → ¬ cc.inSlowStart →
        (averagedRtt p cc rtt ≠ 0 ∨ ctx.blockedOnChan) →
        ResetKeepsMinimum p cc (averagedRtt p cc rtt))

/-- The SENDME's round trip, if a cell waits for it, keeps the minimum within the average. -/
def SendmeKeepsMinimum (p : CachedParams) (cc : CongestionControl) (ctx : SendmeContext) : Prop :=
  ∀ sentAtTimestamp ∈ cc.sendmePendingTimestamps.head?, KeepsMinimum p cc ctx sentAtTimestamp

instance decidableKeepsWindow (cc : CongestionControl) (ctx : SendmeContext) (ewmaRttUsec : ℤ) :
    Decidable (KeepsWindow cc ctx ewmaRttUsec) :=
  inferInstanceAs (Decidable (_ → _ → _))

instance decidableResetKeepsMinimum (p : CachedParams) (cc : CongestionControl) (ewmaRttUsec : ℤ) :
    Decidable (ResetKeepsMinimum p cc ewmaRttUsec) :=
  inferInstanceAs (Decidable (_ ≤ _))

instance decidableKeepsMinimum (p : CachedParams) (cc : CongestionControl) (ctx : SendmeContext)
    (sentAtTimestamp : ℤ) : Decidable (KeepsMinimum p cc ctx sentAtTimestamp) :=
  inferInstanceAs (Decidable (ite _ _ _))

instance decidableSendmeKeepsMinimum (p : CachedParams) (cc : CongestionControl)
    (ctx : SendmeContext) : Decidable (SendmeKeepsMinimum p cc ctx) :=
  inferInstanceAs (Decidable (∀ _ ∈ cc.sendmePendingTimestamps.head?, _))

instance decidableEstimateFits (cc : CongestionControl) : Decidable (EstimateFits cc) :=
  inferInstanceAs (Decidable (_ ∧ _))

instance decidableSendmeEstimateFits (p : CachedParams) (cc : CongestionControl)
    (ctx : SendmeContext) : Decidable (SendmeEstimateFits p cc ctx) :=
  match h : updateCircuitEstimates p (countEvents cc) ctx with
  | none => isTrue (by simp [SendmeEstimateFits, h])
  | some (false, _) => isTrue (by simp [SendmeEstimateFits, h])
  | some (true, cc') => decidable_of_iff (EstimateFits cc') (by simp [SendmeEstimateFits, h])

/-! ## The minimum -/

variable {p : CachedParams} {cc cc' : CongestionControl} {ctx : SendmeContext} {rtt : ℤ}

lemma percentMaxMix_le_left {a b pct : ℤ} (hb : 0 ≤ b) (hba : b ≤ a)
    (hpct : 0 ≤ pct ∧ pct ≤ 100) :
    wrap 64 (pct * a) / 100 + wrap 64 ((100 - pct) * b) / 100 ≤ a := by
  have ha : 0 ≤ a := hb.trans hba
  have hshare : wrap 64 (pct * a) ≤ pct * a := wrap_le (mul_nonneg hpct.1 ha)
  have hrest : wrap 64 ((100 - pct) * b) ≤ (100 - pct) * b := wrap_le (mul_nonneg (by omega) hb)
  have hless : (100 - pct) * b ≤ (100 - pct) * a := mul_le_mul_of_nonneg_left hba (by omega)
  have hsum : pct * a + (100 - pct) * a = 100 * a := by ring
  omega

/-- **The reset minimum** is within the average exactly when the condition says so. -/
lemma percentMaxMix_le_iff {m pct : ℤ} (ewma : ℤ) (hm : 0 ≤ m) (hpct : 0 ≤ pct ∧ pct ≤ 100) :
    percentMaxMix ewma m pct ≤ ewma
      ↔ wrap 64 (pct * m) / 100 + wrap 64 ((100 - pct) * ewma) / 100 ≤ ewma := by
  have hbound (x : ℤ) : 0 ≤ wrap 64 x / 100 ∧ wrap 64 x / 100 < 2 ^ 60 := by
    have h0 := wrap_nonneg 64 x
    have hlt := wrap_lt 64 x
    omega
  have hmix (x y : ℤ) : wrap 64 (wrap 64 x / 100 + wrap 64 y / 100)
      = wrap 64 x / 100 + wrap 64 y / 100 := by
    have hx := hbound x
    have hy := hbound y
    exact wrap_of_mem (by omega) (by omega)
  rw [percentMaxMix, if_neg (by omega), hmix]
  rcases le_total m ewma with hle | hle
  · rw [max_eq_left hle, min_eq_right hle]
    refine iff_of_true (percentMaxMix_le_left hm hle hpct) ?_
    have hswap : wrap 64 ((100 - pct) * ewma) / 100 + wrap 64 ((100 - (100 - pct)) * m) / 100 ≤ ewma :=
      percentMaxMix_le_left hm hle (by omega)
    rwa [sub_sub_cancel, add_comm] at hswap
  · rw [max_eq_right hle, min_eq_left hle]

variable (cc) in
lemma newMinRttUsec_le_iff (hmin : 0 ≤ cc.minRttUsec) (hpct : 0 ≤ p.rttResetPct ∧ p.rttResetPct ≤ 100) :
    newMinRttUsec p cc ≤ cc.ewmaRttUsec
      ↔ (cc.minRttUsec ≠ 0 → cc.cwnd = cc.cwndMin → ¬ cc.inSlowStart →
          ResetKeepsMinimum p cc cc.ewmaRttUsec) := by
  rw [newMinRttUsec]
  split
  · next hzero => exact iff_of_true (le_refl _) fun hne => absurd hzero hne
  · next hne =>
      split
      · next hlow =>
          rw [percentMaxMix_le_iff cc.ewmaRttUsec hmin hpct]
          exact ⟨fun h _ _ _ => h, fun h => h hne hlow.1 hlow.2⟩
      · next hhigh =>
          refine iff_of_true ?_ fun _ hcwnd hss => absurd ⟨hcwnd, hss⟩ hhigh
          split <;> omega

/-! ## The product -/

lemma bdp_le_cwnd {cwnd m ewma : ℤ} (hcwnd : 0 ≤ cwnd) (hm : 0 ≤ m) (hewma : ewma ≠ 0)
    (hle : m ≤ ewma) : wrap 64 (cwnd * m) / ewma ≤ cwnd := by
  have hpos : 0 < ewma := by omega
  calc wrap 64 (cwnd * m) / ewma ≤ cwnd * m / ewma :=
        Int.ediv_le_ediv hpos (wrap_le (mul_nonneg hcwnd hm))
    _ ≤ cwnd * ewma / ewma := Int.ediv_le_ediv hpos (mul_le_mul_of_nonneg_left hle hcwnd)
    _ = cwnd := Int.mul_ediv_cancel cwnd hewma

variable (cc ctx) in
/-- **After the round trip time**, the estimates fit exactly when its minimum is within the average
and a product without an average is not raised above the window. -/
lemma estimateFits_updateCircuitBdp (hcwnd : 0 ≤ cc.cwnd) (hmin : 0 ≤ cc.minRttUsec) (rtt : ℤ) :
    ((updateCircuitBdp cc ctx rtt).1 = true → EstimateFits (updateCircuitBdp cc ctx rtt).2)
      ↔ KeepsWindow cc ctx cc.ewmaRttUsec ∧
        ((cc.ewmaRttUsec ≠ 0 ∧ rtt ≠ 0 ∨ ctx.blockedOnChan) → cc.minRttUsec ≤ cc.ewmaRttUsec) := by
  rw [updateCircuitBdp]
  split
  · next hzero =>
      have hbdp : (if ctx.chanQ ≥ cc.cwnd then cc.cwndMin else max (cc.cwnd - ctx.chanQ) cc.cwndMin)
          ≤ cc.cwnd ↔ cc.cwndMin ≤ cc.cwnd := by
        split <;> omega
      cases hblocked : ctx.blockedOnChan with
      | false => simp [KeepsWindow, hblocked, hzero]
      | true =>
        simp only [EstimateFits, KeepsWindow, hblocked, hzero, forall_const, if_true, or_true]
        rw [hbdp]
  · next hne =>
      have hwindow : KeepsWindow cc ctx cc.ewmaRttUsec := fun _ hzero => absurd hzero hne
      rw [and_iff_right hwindow, or_comm]
      simp only [Bool.or_eq_true, decide_eq_true_eq, EstimateFits, ne_eq, hne, not_false_eq_true,
        true_and]
      refine forall_congr' fun _ => and_iff_right_of_imp fun hle => ?_
      exact bdp_le_cwnd hcwnd hmin hne hle

/-! ## One SENDME -/

lemma updateCircuitEstimates_fit {cc₁ : CongestionControl}
    (hrtt : updateCircuitRtt p cc ctx = some (rtt, cc₁)) :
    (∀ cc', updateCircuitEstimates p cc ctx = some (true, cc') → EstimateFits cc')
      ↔ ((updateCircuitBdp cc₁ ctx rtt).1 = true → EstimateFits (updateCircuitBdp cc₁ ctx rtt).2) := by
  simp only [updateCircuitEstimates, hrtt, Option.map_some, Option.some.injEq]
  exact ⟨fun h htrue => h _ (Prod.ext htrue rfl), fun h cc' heq => by
    rw [heq] at h
    exact h rfl⟩

lemma InRange.updateCircuitEstimates_fit_iff {sentAt : ℤ} {timestamps : List ℤ} (h : InRange cc)
    (hpct : 0 ≤ p.rttResetPct ∧ p.rttResetPct ≤ 100)
    (hqueue : cc.sendmePendingTimestamps = sentAt :: timestamps) :
    (∀ cc', updateCircuitEstimates p cc ctx = some (true, cc') → EstimateFits cc')
      ↔ KeepsMinimum p cc ctx sentAt := by
  simp only [KeepsMinimum]
  split
  · next hstalled =>
      let waiting : CongestionControl := { cc with sendmePendingTimestamps := timestamps }
      have hrtt : Congestion.updateCircuitRtt p cc ctx = some (0, waiting) := by
        rw [Congestion.updateCircuitRtt, hqueue]
        exact if_pos hstalled
      rw [updateCircuitEstimates_fit hrtt,
        estimateFits_updateCircuitBdp waiting ctx h.cwnd.1 h.rtt.1 0]
      have hblocked : (waiting.ewmaRttUsec ≠ 0 ∧ (0 : ℤ) ≠ 0 ∨ ctx.blockedOnChan = true)
          ↔ ctx.blockedOnChan = true := or_iff_right fun hzero => hzero.2 rfl
      rw [hblocked]
      exact Iff.rfl
  · next hok =>
      have hne : wrap 64 (ctx.nowUsec - sentAt) ≠ 0 := fun hzero => hok (if_pos hzero)
      let averaged : CongestionControl := { cc with
        sendmePendingTimestamps := timestamps
        ewmaRttUsec := averagedRtt p cc (wrap 64 (ctx.nowUsec - sentAt))
        maxRttUsec := max cc.maxRttUsec (wrap 64 (ctx.nowUsec - sentAt)) }
      let estimated : CongestionControl := { averaged with minRttUsec := newMinRttUsec p averaged }
      have hrtt : Congestion.updateCircuitRtt p cc ctx
          = some (wrap 64 (ctx.nowUsec - sentAt), estimated) := by
        rw [Congestion.updateCircuitRtt, hqueue]
        exact if_neg hok
      have havg : 0 ≤ averaged.ewmaRttUsec := by
        have htwo := two_le_nEwmaCount p cc
        exact nCountEwma_nonneg cc.ewmaRttUsec (wrap_nonneg 64 _) (by omega)
      have hmin' : 0 ≤ newMinRttUsec p averaged := newMinRttUsec_nonneg h.rtt.1 havg
      rw [updateCircuitEstimates_fit hrtt,
        estimateFits_updateCircuitBdp estimated ctx h.cwnd.1 hmin' _]
      refine and_congr_right fun _ => ?_
      have hmeasured : (estimated.ewmaRttUsec ≠ 0 ∧ wrap 64 (ctx.nowUsec - sentAt) ≠ 0
          ∨ ctx.blockedOnChan = true)
          ↔ (averaged.ewmaRttUsec ≠ 0 ∨ ctx.blockedOnChan = true) :=
        or_congr_left (and_iff_left hne)
      rw [hmeasured]
      have hleast := newMinRttUsec_le_iff averaged h.rtt.1 hpct
      exact ⟨fun hfits hmin hcwnd hss hupd => hleast.mp (hfits hupd) hmin hcwnd hss,
        fun hkeeps hupd => hleast.mpr fun hmin hcwnd hss => hkeeps hmin hcwnd hss hupd⟩

/-- **The estimates of a SENDME** fit exactly when its round trip keeps the minimum within the
average. -/
lemma InRange.sendmeEstimateFits_iff (h : InRange cc)
    (hpct : 0 ≤ p.rttResetPct ∧ p.rttResetPct ≤ 100) :
    SendmeEstimateFits p cc ctx ↔ SendmeKeepsMinimum p cc ctx := by
  rw [SendmeEstimateFits, SendmeKeepsMinimum]
  cases hqueue : cc.sendmePendingTimestamps with
  | nil =>
    have hnone : updateCircuitEstimates p (Congestion.countEvents cc) ctx = none := by
      have hqueue' : (Congestion.countEvents cc).sendmePendingTimestamps = [] := hqueue
      rw [updateCircuitEstimates, Congestion.updateCircuitRtt, hqueue', Option.map_none]
    rw [hnone]
    simp
  | cons sentAt timestamps =>
    rw [h.countEvents.updateCircuitEstimates_fit_iff hpct hqueue]
    simp only [List.head?_cons, Option.mem_some_iff, forall_eq']
    exact Iff.rfl

/-! ## Runs -/

/-- Where the end of a circuit computes the queue use, the estimates fit. -/
def Edge.EstimateFits (s : Edge) : EdgeEvent → Prop
  | .dataPackaged _ _ => True
  | .sendme ns cellPayload ctx =>
    s.closed = false → (sendmeIsValid ns cellPayload s.sendmeLastDigests).1 →
      SendmeEstimateFits (congestionControlNewConsensusParams ns) s.ccontrol ctx

/-- A SENDME that is processed keeps the minimum within the average. -/
def Edge.KeepsMinimum (s : Edge) : EdgeEvent → Prop
  | .dataPackaged _ _ => True
  | .sendme ns cellPayload ctx =>
    s.closed = false → (sendmeIsValid ns cellPayload s.sendmeLastDigests).1 →
      SendmeKeepsMinimum (congestionControlNewConsensusParams ns) s.ccontrol ctx

instance decidableEdgeEstimateFits (s : Edge) : ∀ e, Decidable (s.EstimateFits e)
  | .dataPackaged _ _ => isTrue trivial
  | .sendme _ _ _ => inferInstanceAs (Decidable (_ → _ → _))

instance decidableEdgeKeepsMinimum (s : Edge) : ∀ e, Decidable (s.KeepsMinimum e)
  | .dataPackaged _ _ => isTrue trivial
  | .sendme _ _ _ => inferInstanceAs (Decidable (_ → _ → _))

variable {s : Edge}

lemma InRange.edge_estimateFits_iff (h : InRange s.ccontrol) (e : EdgeEvent) :
    s.EstimateFits e ↔ s.KeepsMinimum e := by
  cases e with
  | dataPackaged digest now => exact Iff.rfl
  | sendme ns payload ctx =>
    exact forall_congr' fun _ => forall_congr' fun _ => h.sendmeEstimateFits_iff (rttResetPct_mem ns)

/-- **The queue use is computed from estimates that fit**, all along a run, exactly when every
SENDME keeps the minimum within the average.  The consensus may change all along. -/
theorem estimateFits_iff (ns : Consensus) (path : CcPath) {sendmeInc : ℤ}
    (hinc : 1 ≤ sendmeInc ∧ sendmeInc ≤ 255) (es : List EdgeEvent) :
    Meets Edge.step Edge.EstimateFits (Edge.new ns path sendmeInc) es
      ↔ Meets Edge.step Edge.KeepsMinimum (Edge.new ns path sendmeInc) es := by
  have hnew : InRange (Edge.new ns path sendmeInc).ccontrol := InRange.new ns path hinc
  exact meets_congr (fun _ _ _ h hstep => InRange.edge_step h hstep) hnew
    fun _ e h => h.edge_estimateFits_iff e

/-- The first round trip is the minimum and the average, and the second one is longer. -/
theorem estimateFits_longer :
    Meets Edge.step Edge.EstimateFits (Edge.new (fun _ => none) .exit 2)
      [.dataPackaged [] 0, .dataPackaged [] 0, .sendme (fun _ => none) [] ⟨1000, false, 0, false⟩,
        .dataPackaged [] 1500, .dataPackaged [] 1500,
        .sendme (fun _ => none) [] ⟨4500, false, 0, false⟩] := by
  refine (estimateFits_iff (fun _ => none) .exit (by decide) _).mpr ?_
  decide +kernel

/-- Slow start ends without any cells in the queue. -/
def noGamma : Consensus := fun paramName =>
  if paramName = "cc_vegas_gamma_exit" then some 0 else none

/-- A blocked channel ends slow start at the smallest window, and there a shorter round trip brings
the average below the minimum, which is reset to the larger of the two. -/
theorem estimateFits_fails :
    ¬ Meets Edge.step Edge.EstimateFits (Edge.new noGamma .exit 2)
      [.dataPackaged [] 0, .dataPackaged [] 0, .sendme noGamma [] ⟨1000, false, 0, true⟩,
        .dataPackaged [] 1500, .dataPackaged [] 1500,
        .sendme noGamma [] ⟨1600, false, 0, true⟩] := by
  decide +kernel

end Ator.Congestion
