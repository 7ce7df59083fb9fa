import AtorProtocol.FlowControl.Vegas

/-!
# The SENDMEs that the peer owes

One end of a circuit with congestion control, and a peer that sends any SENDME at any time:
`sendme_is_valid` and `sendme_process_circuit_level` of `src/core/or/sendme.c`.

* `Edge.step` — a DATA cell is packaged, or a SENDME arrives.
* `OwesSendmes` — the digests and the timestamps are those of the SENDMEs that the peer owes.
* `owesSendmes_iff` — the runs in which this holds throughout.
-/

namespace Ator.Congestion

open List

/-! ## The cell -/

/-- `sendme_cell_t`, with the digest of a version 1 cell. -/
structure SendmeCell where
  version : UInt8
  dataV1Digest : Bytes

def trunnelSendmeV1DigestLen : ℕ := 20

/-- The union of a `sendme_cell_t`. -/
def sendmeCellParseData (version : UInt8) (dataLen : ℕ) (rest : Bytes) : Option SendmeCell :=
  if rest.length < dataLen then none
  else if version = 0 then some ⟨version, List.replicate trunnelSendmeV1DigestLen 0⟩
  else if dataLen ≠ trunnelSendmeV1DigestLen then none
  else some ⟨version, rest.take trunnelSendmeV1DigestLen⟩

def sendmeCellParse : Bytes → Option SendmeCell
  | version :: hi :: lo :: rest =>
    if ¬ (version = 0 ∨ version = 1) then none
    else sendmeCellParseData version (hi.toNat * 256 + lo.toNat) rest
  | _ => none

def sendmeMaxSupportedVersion : ℤ := 1

def getAcceptMinVersion (ns : Consensus) : ℤ :=
  networkstatusGetParam ns "sendme_accept_min_version" 0 0 255

def cellVersionCanBeHandled (ns : Consensus) (cellVersion : UInt8) : Bool :=
  if getAcceptMinVersion ns > sendmeMaxSupportedVersion then false
  else if cellVersion.toNat < getAcceptMinVersion ns then false
  else if cellVersion.toNat > sendmeMaxSupportedVersion then false
  else true

/-- What `sendme_is_valid` does once the version is known: the first digest is popped, whatever
the version. -/
def popAndCompare (ns : Consensus) (cell : SendmeCell) (sendmeLastDigests : List Bytes) :
    Bool × List Bytes :=
  if ¬ cellVersionCanBeHandled ns cell.version then (false, sendmeLastDigests)
  else match sendmeLastDigests with
  | [] => (false, [])
  | circDigest :: rest =>
    if cell.version = 1 ∧ circDigest ≠ cell.dataV1Digest then (false, rest) else (true, rest)

/-- `sendme_is_valid`, with the digests that it leaves.  An empty payload is version 0. -/
def sendmeIsValid (ns : Consensus) (cellPayload : Bytes) (sendmeLastDigests : List Bytes) :
    Bool × List Bytes :=
  if cellPayload = [] then popAndCompare ns ⟨0, []⟩ sendmeLastDigests
  else match sendmeCellParse cellPayload with
  | none => (false, sendmeLastDigests)
  | some cell => popAndCompare ns cell sendmeLastDigests

/-! ## The edge -/

/-- An end of the circuit.  The last two fields keep count for the reader; no function reads
them. -/
structure Edge where
  ccontrol : CongestionControl
  sendmeLastDigests : List Bytes
  closed : Bool
  dataSent : ℕ
  sendmesAccepted : ℕ

/-- A new end. -/
def Edge.new (ns : Consensus) (path : CcPath) (sendmeInc : ℤ) : Edge where
  ccontrol := congestionControlNew ns path sendmeInc
  sendmeLastDigests := []
  closed := false
  dataSent := 0
  sendmesAccepted := 0

def sendmeRecordCellDigestOnCirc (s : Edge) (sendmeDigest : Bytes) : Edge :=
  if circuitSentCellForSendme s.ccontrol then
    { s with sendmeLastDigests := s.sendmeLastDigests ++ [sendmeDigest] }
  else s

/-- `sendme_note_circuit_data_packaged`; the caller closes the circuit when there is less than no
room. -/
def sendmeNoteCircuitDataPackaged (s : Edge) (nowUsec : ℤ) : Edge :=
  let cc := congestionControlNoteCellSent s.ccontrol nowUsec
  { s with
    ccontrol := cc
    closed := congestionControlGetPackageWindow cc < 0
    dataSent := s.dataSent + 1 }

/-- `sendme_process_circuit_level`; the caller closes the circuit when the SENDME is not valid.
`none` is a crash. -/
def sendmeProcessCircuitLevel (ns : Consensus) (s : Edge) (cellPayload : Bytes)
    (ctx : SendmeContext) : Option Edge :=
  let (valid, digests) := sendmeIsValid ns cellPayload s.sendmeLastDigests
  if ¬ valid then some { s with sendmeLastDigests := digests, closed := true }
  else
    (congestionControlDispatchCcAlg (congestionControlNewConsensusParams ns) s.ccontrol ctx).map
      fun cc => { s with
        ccontrol := cc, sendmeLastDigests := digests, sendmesAccepted := s.sendmesAccepted + 1 }

/-- What happens at the end of the circuit.  The consensus may change at any time. -/
inductive EdgeEvent where
  | dataPackaged (sendmeDigest : Bytes) (nowUsec : ℤ)
  | sendme (ns : Consensus) (cellPayload : Bytes) (ctx : SendmeContext)

/-- One event.  DATA is packaged while there is room; a closed circuit has no events. -/
def Edge.step (s : Edge) (event : EdgeEvent) : Option Edge :=
  if s.closed then none else
  match event with
  | .dataPackaged sendmeDigest nowUsec =>
    if congestionControlGetPackageWindow s.ccontrol ≤ 0 then none
    else some (sendmeNoteCircuitDataPackaged (sendmeRecordCellDigestOnCirc s sendmeDigest) nowUsec)
  | .sendme ns cellPayload ctx => sendmeProcessCircuitLevel ns s cellPayload ctx

/-- How many SENDMEs the peer owes. -/
def Edge.owed (s : Edge) : ℤ := s.dataSent / s.ccontrol.sendmeInc - s.sendmesAccepted

/-- The cells in flight are those that no accepted SENDME covers; and while the circuit is open,
there are a digest and a timestamp for each SENDME that the peer owes, and a SENDME that passes
the check finds all that it takes. -/
structure OwesSendmes (s : Edge) : Prop where
  inflight : s.ccontrol.inflight = s.dataSent - s.ccontrol.sendmeInc * s.sendmesAccepted
  digests : s.closed = false → s.sendmeLastDigests.length = s.owed
  timestamps : s.closed = false → s.ccontrol.sendmePendingTimestamps.length = s.owed
  dequeue : ∀ ns cellPayload, s.closed = false →
    (sendmeIsValid ns cellPayload s.sendmeLastDigests).1 = true →
    s.sendmeLastDigests ≠ [] ∧ s.ccontrol.sendmePendingTimestamps ≠ []
      ∧ s.ccontrol.sendmeInc ≤ s.ccontrol.inflight

/-! ## An accepted SENDME -/

variable {s s' : Edge} {ns : Consensus} {payload : Bytes} {ctx : SendmeContext}

lemma popAndCompare_valid {cell : SendmeCell} {digests : List Bytes}
    (h : (popAndCompare ns cell digests).1 = true) :
    ∃ d, digests = d :: (popAndCompare ns cell digests).2 := by
  unfold popAndCompare at h ⊢
  split at h
  · cases h
  · next hversion =>
      rw [if_neg hversion]
      cases digests with
      | nil => cases h
      | cons d rest =>
        refine ⟨d, ?_⟩
        simp only
        split <;> rfl

lemma sendmeIsValid_valid {digests : List Bytes}
    (h : (sendmeIsValid ns payload digests).1 = true) :
    ∃ d, digests = d :: (sendmeIsValid ns payload digests).2 := by
  unfold sendmeIsValid at h ⊢
  split at h
  · next hempty =>
      rw [if_pos hempty]
      exact popAndCompare_valid h
  · next hempty =>
      rw [if_neg hempty]
      cases hparse : sendmeCellParse payload with
      | none =>
        rw [hparse] at h
        cases h
      | some cell =>
        rw [hparse] at h
        exact popAndCompare_valid h

lemma congestionControlGetPackageWindow_nonneg (cc : CongestionControl) :
    0 ≤ congestionControlGetPackageWindow cc := by
  rw [congestionControlGetPackageWindow]
  split
  · exact le_refl 0
  · split
    · decide
    · omega

lemma lt_cwnd_of_packageWindow_pos {cc : CongestionControl}
    (h : ¬ congestionControlGetPackageWindow cc ≤ 0) : cc.inflight < cc.cwnd := by
  rw [congestionControlGetPackageWindow] at h
  split at h
  · exact absurd (le_refl 0) h
  · split at h
    · next hmax =>
        omega
    · omega

/-- What an event does to an end: it notes a cell, it closes the circuit, or it takes a digest
and dispatches. -/
lemma Edge.step_cases {e : EdgeEvent} (h : s.step e = some s') :
    s.closed = false ∧
    ((∃ digest now, e = .dataPackaged digest now
        ∧ ¬ congestionControlGetPackageWindow s.ccontrol ≤ 0
        ∧ s'.ccontrol = congestionControlNoteCellSent s.ccontrol now
        ∧ s'.sendmeLastDigests = s.sendmeLastDigests
            ++ (if circuitSentCellForSendme s.ccontrol then [digest] else [])
        ∧ s'.closed = false ∧ s'.dataSent = s.dataSent + 1
        ∧ s'.sendmesAccepted = s.sendmesAccepted) ∨
      (∃ ns payload ctx digests, e = .sendme ns payload ctx
        ∧ s' = { s with sendmeLastDigests := digests, closed := true }) ∨
      ∃ ns payload ctx cc digest digests, e = .sendme ns payload ctx
        ∧ s.sendmeLastDigests = digest :: digests
        ∧ congestionControlDispatchCcAlg (congestionControlNewConsensusParams ns) s.ccontrol ctx
            = some cc
        ∧ s' = { s with
            ccontrol := cc, sendmeLastDigests := digests
            sendmesAccepted := s.sendmesAccepted + 1 }) := by
  unfold Edge.step at h
  split at h
  · cases h
  · next hopen =>
      refine ⟨Bool.not_eq_true _ ▸ hopen, ?_⟩
      cases e with
      | dataPackaged digest now =>
        simp only at h
        split at h
        · cases h
        · next hwindow =>
            obtain rfl := Option.some.inj h
            have hrecord : sendmeRecordCellDigestOnCirc s digest = { s with
                sendmeLastDigests := s.sendmeLastDigests
                  ++ (if circuitSentCellForSendme s.ccontrol then [digest] else []) } := by
              rw [sendmeRecordCellDigestOnCirc]
              split <;> simp
            refine .inl ⟨digest, now, rfl, hwindow, ?_⟩
            rw [hrecord]
            exact ⟨rfl, rfl, decide_eq_false
              (congestionControlGetPackageWindow_nonneg _).not_gt, rfl, rfl⟩
      | sendme ns payload ctx =>
        simp only [sendmeProcessCircuitLevel] at h
        split at h
        · exact .inr (.inl ⟨ns, payload, ctx, _, rfl, (Option.some.inj h).symm⟩)
        · next hvalid =>
            obtain ⟨cc, hcc, hs'⟩ := Option.map_eq_some_iff.mp h
            obtain ⟨digest, hdigest⟩ := sendmeIsValid_valid (not_not.mp hvalid)
            exact .inr (.inr ⟨ns, payload, ctx, cc, digest, _, rfl, hdigest, hcc, hs'.symm⟩)

/-! ## The invariant -/

lemma owesSendmes_of_counts (hinc : 0 < s.ccontrol.sendmeInc)
    (hinflight : s.ccontrol.inflight = s.dataSent - s.ccontrol.sendmeInc * s.sendmesAccepted)
    (hdigests : s.closed = false → s.sendmeLastDigests.length = s.owed)
    (htimestamps : s.closed = false → s.ccontrol.sendmePendingTimestamps.length = s.owed) :
    OwesSendmes s := by
  refine ⟨hinflight, hdigests, htimestamps, fun ns payload hopen hvalid => ?_⟩
  obtain ⟨digest, hcons⟩ := sendmeIsValid_valid hvalid
  have howed : 1 ≤ s.owed := by
    rw [← hdigests hopen, hcons, length_cons]
    omega
  refine ⟨fun hnil => ?_, fun hnil => ?_, ?_⟩
  · rw [hnil] at hcons
    cases hcons
  · have hlen := htimestamps hopen
    rw [hnil, length_nil] at hlen
    omega
  · have hdiv : s.sendmesAccepted + 1 ≤ (s.dataSent : ℤ) / s.ccontrol.sendmeInc := by
      rw [Edge.owed] at howed
      omega
    have hmul := Int.mul_le_of_le_ediv hinc hdiv
    rw [hinflight]
    linarith

/-- What holds in every run with an increment of at least two. -/
structure Edge.Invariant (s : Edge) : Prop where
  owes : OwesSendmes s
  two_le_inc : 2 ≤ s.ccontrol.sendmeInc
  inflight_le : s.ccontrol.inflight ≤ int32Max
  cwnd_le : s.ccontrol.cwnd ≤ int32Max

lemma Edge.Invariant.inflight_nonneg (h : s.Invariant) (hopen : s.closed = false) :
    0 ≤ s.ccontrol.inflight := by
  have hdiv : (s.sendmesAccepted : ℤ) ≤ s.dataSent / s.ccontrol.sendmeInc := by
    have howed := h.owes.digests hopen
    rw [Edge.owed] at howed
    omega
  have hmul := Int.mul_le_of_le_ediv (by linarith [h.two_le_inc]) hdiv
  rw [h.owes.inflight]
  linarith

lemma Edge.Invariant.sentCellForSendme (h : s.Invariant) (hopen : s.closed = false) :
    circuitSentCellForSendme s.ccontrol
      = decide (s.ccontrol.sendmeInc ∣ ((s.dataSent + 1 : ℕ) : ℤ)) := by
  have h0 := h.inflight_nonneg hopen
  have hmax := h.inflight_le
  have h2 := h.two_le_inc
  rw [int32Max] at hmax
  have hdvd : s.ccontrol.sendmeInc ∣ ((s.dataSent + 1 : ℕ) : ℤ)
      ↔ (s.ccontrol.inflight + 1) % s.ccontrol.sendmeInc = 0 := by
    rw [Int.dvd_iff_emod_eq_zero, h.owes.inflight, sub_add_eq_add_sub, Int.sub_mul_emod_self_left]
    norm_cast
  rw [circuitSentCellForSendme, wrap_of_mem (by omega) (by norm_num; omega),
    decide_eq_decide.mpr hdvd]
  by_cases hzero : s.ccontrol.inflight = 0
  · have hfirst : (s.ccontrol.inflight + 1) % s.ccontrol.sendmeInc ≠ 0 := by
      rw [hzero, Int.emod_eq_of_lt (by omega) (by omega)]
      decide
    rw [if_pos hzero, decide_eq_false hfirst]
  · rw [if_neg hzero]
    by_cases hdue : (s.ccontrol.inflight + 1) % s.ccontrol.sendmeInc = 0
    · rw [if_neg (not_not.mpr hdue), decide_eq_true hdue]
    · rw [if_pos hdue, decide_eq_false hdue]

lemma ediv_add_one (d : ℕ) {n : ℤ} (hn : 0 < n) :
    ((d + 1 : ℕ) : ℤ) / n = d / n + if n ∣ ((d + 1 : ℕ) : ℤ) then 1 else 0 := by
  lift n to ℕ using hn.le
  have hdiv := Nat.succ_div (a := d) (b := n)
  simp only [Int.natCast_dvd_natCast]
  rw [← Int.natCast_ediv, hdiv]
  push_cast
  rfl

lemma Edge.Invariant.new (ns : Consensus) (path : CcPath) {sendmeInc : ℤ} (h : 2 ≤ sendmeInc) :
    (Edge.new ns path sendmeInc).Invariant where
  owes := by
    refine owesSendmes_of_counts (show 0 < sendmeInc by omega) ?_ (fun _ => ?_) (fun _ => ?_)
    · change (0 : ℤ) = 0 - sendmeInc * 0
      ring
    · change (0 : ℤ) = 0 / sendmeInc - 0
      simp
    · change (0 : ℤ) = 0 / sendmeInc - 0
      simp
  two_le_inc := h
  inflight_le := by
    change (0 : ℤ) ≤ int32Max
    decide
  cwnd_le := (cwnd_new ns path sendmeInc).2.trans (by decide)

lemma dispatch_flight {cc cc' : CongestionControl}
    (h : congestionControlDispatchCcAlg (congestionControlNewConsensusParams ns) cc ctx
      = some cc') :
    cc'.cwnd ≤ int32Max
      ∧ (∃ sentAt, cc.sendmePendingTimestamps = sentAt :: cc'.sendmePendingTimestamps)
      ∧ cc'.inflight = wrap 64 (cc.inflight - cc.sendmeInc) ∧ cc'.sendmeInc = cc.sendmeInc := by
  obtain ⟨cc₁, hvegas, rfl⟩ := Option.map_eq_some_iff.mp h
  have hflight := vegasProcessSendme_flight hvegas
  have hmax := (admitted_params ns).cwndMax.2
  split
  · exact ⟨hmax, hflight⟩
  · exact ⟨by omega, hflight⟩

/-- **A step keeps the invariant.** -/
lemma Edge.Invariant.step {e : EdgeEvent} (h : s.Invariant) (hstep : s.step e = some s') :
    s'.Invariant := by
  have hpos : 0 < s.ccontrol.sendmeInc := by linarith [h.two_le_inc]
  obtain ⟨hopen, hdata | hinvalid | haccept⟩ := Edge.step_cases hstep
  · obtain ⟨digest, now, -, hwindow, hcc, hdigests, -, hsent, haccepted⟩ := hdata
    have hroom := lt_cwnd_of_packageWindow_pos hwindow
    have h0 := h.inflight_nonneg hopen
    have hmax := h.inflight_le
    have hcwnd := h.cwnd_le
    rw [int32Max] at hmax hcwnd
    obtain ⟨hinflight', hinc', hcwnd', htimestamps'⟩ :
        s'.ccontrol.inflight = s.ccontrol.inflight + 1
          ∧ s'.ccontrol.sendmeInc = s.ccontrol.sendmeInc ∧ s'.ccontrol.cwnd = s.ccontrol.cwnd
          ∧ s'.ccontrol.sendmePendingTimestamps = s.ccontrol.sendmePendingTimestamps
            ++ (if circuitSentCellForSendme s.ccontrol then [now] else []) := by
      rw [hcc, congestionControlNoteCellSent, wrap_of_mem (by omega) (by norm_num; omega)]
      split <;> simp
    have howed : s'.owed
        = s.owed + if s.ccontrol.sendmeInc ∣ ((s.dataSent + 1 : ℕ) : ℤ) then 1 else 0 := by
      rw [Edge.owed, Edge.owed, hinc', hsent, haccepted, ediv_add_one s.dataSent hpos]
      ring
    have hnew := h.sentCellForSendme hopen
    refine ⟨owesSendmes_of_counts (hinc' ▸ hpos) ?_ (fun _ => ?_) (fun _ => ?_), ?_, ?_, ?_⟩
    · rw [hinflight', hinc', hsent, haccepted, h.owes.inflight]
      push_cast
      ring
    · rw [howed, hdigests, hnew, length_append, Nat.cast_add, h.owes.digests hopen]
      split <;> simp_all
    · rw [howed, htimestamps', hnew, length_append, Nat.cast_add, h.owes.timestamps hopen]
      split <;> simp_all
    · rw [hinc']
      exact h.two_le_inc
    · rw [hinflight', int32Max]
      omega
    · rw [hcwnd']
      exact h.cwnd_le
  · obtain ⟨ns, payload, ctx, digests, -, rfl⟩ := hinvalid
    exact ⟨owesSendmes_of_counts hpos h.owes.inflight nofun nofun, h.two_le_inc, h.inflight_le,
      h.cwnd_le⟩
  · obtain ⟨ns, payload, ctx, cc, digest, digests, -, hcons, hcc, rfl⟩ := haccept
    obtain ⟨hmax, ⟨sentAt, htimestamps'⟩, hinflight', hinc'⟩ := dispatch_flight hcc
    have hdigests := h.owes.digests hopen
    have htimestamps := h.owes.timestamps hopen
    rw [hcons, length_cons] at hdigests
    rw [htimestamps', length_cons] at htimestamps
    have hdiv : s.sendmesAccepted + 1 ≤ (s.dataSent : ℤ) / s.ccontrol.sendmeInc := by
      rw [Edge.owed] at hdigests
      omega
    have hmul := Int.mul_le_of_le_ediv hpos hdiv
    have hle := h.inflight_le
    have hexact : cc.inflight = s.ccontrol.inflight - s.ccontrol.sendmeInc := by
      rw [hinflight', wrap_of_mem]
      · rw [h.owes.inflight]
        linarith
      · rw [int32Max] at hle
        norm_num
        omega
    have howed : ({ s with
        ccontrol := cc, sendmeLastDigests := digests
        sendmesAccepted := s.sendmesAccepted + 1 } : Edge).owed = s.owed - 1 := by
      simp only [Edge.owed, hinc']
      push_cast
      ring
    refine ⟨owesSendmes_of_counts (hinc' ▸ hpos) ?_ (fun _ => ?_) (fun _ => ?_), ?_, ?_, hmax⟩
    · simp only [hexact, hinc', h.owes.inflight]
      push_cast
      ring
    · rw [howed, ← hdigests]
      push_cast
      ring
    · rw [howed, ← htimestamps]
      push_cast
      ring
    · exact hinc' ▸ h.two_le_inc
    · rw [hexact]
      omega

/-! ## Runs -/

variable {es : List EdgeEvent} {t : Edge}

/-- An end that has packaged no cell: a SENDME can only close the circuit. -/
structure Edge.Idle (s : Edge) : Prop where
  inc : 0 < s.ccontrol.sendmeInc
  inflight : s.ccontrol.inflight = 0
  sent : s.dataSent = 0
  accepted : s.sendmesAccepted = 0
  digests : s.closed = false → s.sendmeLastDigests = []
  timestamps : s.ccontrol.sendmePendingTimestamps = []

lemma Edge.Idle.new (ns : Consensus) (path : CcPath) {sendmeInc : ℤ} (h : 0 < sendmeInc) :
    (Edge.new ns path sendmeInc).Idle :=
  ⟨h, rfl, rfl, rfl, fun _ => rfl, rfl⟩

lemma Edge.Idle.owesSendmes (h : s.Idle) : OwesSendmes s := by
  have howed : s.owed = 0 := by
    rw [Edge.owed, h.sent, h.accepted]
    simp
  refine owesSendmes_of_counts h.inc ?_ (fun hopen => ?_) (fun _ => ?_)
  · rw [h.inflight, h.sent, h.accepted]
    simp
  · rw [howed, h.digests hopen]
    rfl
  · rw [howed, h.timestamps]
    rfl

lemma Edge.Idle.step_sendme (h : s.Idle) (hstep : s.step (.sendme ns payload ctx) = some s') :
    s'.Idle ∧ s'.closed = true := by
  obtain ⟨hopen, ⟨_, _, heq, -⟩ | ⟨_, _, _, digests, -, rfl⟩ | ⟨_, _, _, _, _, _, -, hcons, -⟩⟩ :=
    Edge.step_cases hstep
  · cases heq
  · exact ⟨⟨h.inc, h.inflight, h.sent, h.accepted, nofun, h.timestamps⟩, rfl⟩
  · rw [h.digests hopen] at hcons
    cases hcons

lemma Edge.Idle.not_owesSendmes_data {digest : Bytes} {now : ℤ} (h : s.Idle)
    (hone : s.ccontrol.sendmeInc = 1) (hstep : s.step (.dataPackaged digest now) = some s') :
    ¬ OwesSendmes s' := by
  intro howes
  obtain ⟨hopen, hdata | ⟨_, _, _, _, heq, -⟩ | ⟨_, _, _, _, _, _, heq, -⟩⟩ := Edge.step_cases hstep
  · obtain ⟨_, _, -, -, hcc, hdigests, hopen', hsent, haccepted⟩ := hdata
    have hnone : circuitSentCellForSendme s.ccontrol = false := by
      rw [circuitSentCellForSendme, if_pos h.inflight]
    have hinc : s'.ccontrol.sendmeInc = 1 := by
      rw [hcc, congestionControlNoteCellSent, hnone]
      exact hone
    have hlen := howes.digests hopen'
    rw [hdigests, hnone, h.digests hopen, Edge.owed, hinc, hsent, haccepted, h.sent,
      h.accepted] at hlen
    simp at hlen
  · cases heq
  · cases heq

/-- A run from an idle end, with an increment of one, in which the peer owes what is recorded,
packages no cell. -/
lemma Edge.Idle.no_data (h : s.Idle) (hone : s.ccontrol.sendmeInc = 1)
    (hrun : Reaches Edge.step s es t)
    (howes : ∀ pre, pre <+: es → ∀ u, Reaches Edge.step s pre u → OwesSendmes u) :
    ∀ digest now, EdgeEvent.dataPackaged digest now ∉ es := by
  intro digest now hmem
  cases es with
  | nil => cases hmem
  | cons e es =>
    obtain ⟨u, hu, hrest⟩ := reaches_cons.mp hrun
    cases e with
    | dataPackaged digest' now' =>
      refine h.not_owesSendmes_data hone hu (howes [.dataPackaged digest' now'] ?_ u ?_)
      · exact ⟨es, rfl⟩
      · exact reaches_cons.mpr ⟨u, hu, reaches_nil.mpr rfl⟩
    | sendme ns payload ctx =>
      have hclosed := (h.step_sendme hu).2
      cases es with
      | nil => simp at hmem
      | cons e' es =>
        obtain ⟨v, hv, -⟩ := reaches_cons.mp hrest
        have hopen := (Edge.step_cases hv).1
        rw [hclosed] at hopen
        cases hopen

/-- **What the peer owes** is what is recorded, all along a run, exactly when the increment is not
one or no cell is packaged. -/
theorem owesSendmes_iff (ns : Consensus) (path : CcPath) {sendmeInc : ℤ} (hinc : 1 ≤ sendmeInc)
    (h : Reaches Edge.step (Edge.new ns path sendmeInc) es t) :
    (∀ pre, pre <+: es → ∀ u, Reaches Edge.step (Edge.new ns path sendmeInc) pre u → OwesSendmes u)
      ↔ sendmeInc ≠ 1 ∨ ∀ digest now, EdgeEvent.dataPackaged digest now ∉ es := by
  constructor
  · intro howes
    by_cases hone : sendmeInc = 1
    · exact .inr ((Edge.Idle.new ns path hinc).no_data hone h howes)
    · exact .inl hone
  · intro hcond pre hpre u hu
    rcases hcond with htwo | hidle
    · have h2 : 2 ≤ sendmeInc := by omega
      exact (invariant_of_reaches (fun _ _ _ hs hstep => Edge.Invariant.step hs hstep)
        (Edge.Invariant.new ns path h2) hu).owes
    · have hmeets : Meets Edge.step (fun _ e => ∃ ns payload ctx, e = .sendme ns payload ctx)
          (Edge.new ns path sendmeInc) pre := by
        intro before e after hsplit v hv
        cases e with
        | dataPackaged digest now =>
          refine absurd (hpre.subset ?_) (hidle digest now)
          rw [hsplit]
          simp
        | sendme ns payload ctx => exact ⟨ns, payload, ctx, rfl⟩
      refine (invariant_of_meets (I := Edge.Idle) ?_ (Edge.Idle.new ns path hinc) hmeets
        hu).owesSendmes
      rintro s e s' hs ⟨ns, payload, ctx, rfl⟩ hstep
      exact (hs.step_sendme hstep).1

/-- An increment of two, a cell in flight and one that is recorded. -/
theorem owesSendmes_two :
    ∃ t, Reaches Edge.step (Edge.new (fun _ => none) .exit 2)
        [.dataPackaged [1] 0, .dataPackaged [2] 7] t
      ∧ OwesSendmes t ∧ t.owed = 1 := by
  have hrun : (([.dataPackaged [1] 0, .dataPackaged [2] 7] : List EdgeEvent).foldlM Edge.step
      (Edge.new (fun _ => none) .exit 2)).map Edge.owed = some 1 := by
    decide +kernel
  obtain ⟨t, ht, howed⟩ := Option.map_eq_some_iff.mp hrun
  have hall := (owesSendmes_iff (fun _ => none) .exit (by decide) ht).mpr (.inl (by decide))
  exact ⟨t, ht, hall _ (prefix_refl _) t ht, howed⟩

/-- With an increment of one the first cell is in flight, and nothing is recorded. -/
theorem owesSendmes_fails :
    ∃ t, Reaches Edge.step (Edge.new (fun _ => none) .exit 1) [.dataPackaged [1] 0] t
      ∧ t.closed = false ∧ ¬ OwesSendmes t := by
  have hrun : (([.dataPackaged [1] 0] : List EdgeEvent).foldlM Edge.step
      (Edge.new (fun _ => none) .exit 1)).map
        (fun t => (t.closed, t.sendmeLastDigests, t.owed)) = some (false, [], 1) := by
    decide +kernel
  obtain ⟨t, ht, hobs⟩ := Option.map_eq_some_iff.mp hrun
  obtain ⟨hopen, hdigests⟩ := Prod.mk.inj hobs
  obtain ⟨hnil, howed⟩ := Prod.mk.inj hdigests
  refine ⟨t, ht, hopen, fun h => ?_⟩
  have hlen := h.digests hopen
  rw [hnil, howed] at hlen
  cases hlen

end Ator.Congestion
