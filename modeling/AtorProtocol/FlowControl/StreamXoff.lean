import AtorProtocol.FlowControl.Congestion
import AtorProtocol.Lib.Run
import AtorProtocol.Onion.CreateCell

/-!
# The check of received XOFFs

`src/core/or/congestion_control_flow.c`: a client counts the bytes that it has sent on a stream, and
the XOFFs and XONs that it has received; the counts are halved together when one of them gets large.
The other end of the stream sends an XOFF only after it received more than its limit of bytes since
the one before.

* `circuitProcessStreamXoff`, `circuitProcessStreamXon`, `flowControlNoteSentData` — what is counted
  and checked.
* `StreamNet` — the stream with its other end, and what is on the way between them.
* `CoversOwed` — a halving leaves enough for the XOFFs that are still to come from what was sent.
* `xoffsAccepted_of_meets` — then no XOFF is judged to be one too many.
-/

namespace Ator.StreamFlow

open Option (some.inj)

open Congestion (Consensus networkstatusGetParam)
open Onion (relayPayloadSize)

def xonCountScaleAt : ℕ := 200
def xoffCountScaleAt : ℕ := 200
def totalXmitScaleAt : ℕ := 10 * 2 ^ 20

/-- The cached parameters, in bytes. -/
structure FlowParams where
  xoffClient : ℕ
  xoffExit : ℕ
  xonRateBytes : ℕ

/-- `flow_control_new_consensus_params`, but for what XONs are sent by. -/
def flowControlNewConsensusParams (ns : Consensus) : FlowParams where
  xoffClient := (networkstatusGetParam ns "cc_xoff_client" 500 1 10000).toNat * relayPayloadSize
  xoffExit := (networkstatusGetParam ns "cc_xoff_exit" 500 1 10000).toNat * relayPayloadSize
  xonRateBytes := (networkstatusGetParam ns "cc_xon_rate" 500 1 5000).toNat * relayPayloadSize

/-- `edge_connection_t`, with whether it is a client's, and whether it is of an onion service; `rate`
is that of its bucket. -/
structure EdgeConnection where
  isAp : Bool
  hasHsIdent : Bool
  totalBytesXmit : ℕ
  numXoffRecv : ℕ
  numXonRecv : ℕ
  xoffReceived : Bool
  rate : ℕ

/-- What `circuit_process_stream_xoff` and `circuit_process_stream_xon` say of a cell.  One too many
is processed all the same. -/
inductive Verdict where
  | valid
  | wrongHop
  | noFlowControl
  | multipleXoff
  | malformedXon
  | extra
deriving DecidableEq

namespace EdgeConnection

/-- "Scale everything down." -/
def scaleDown (conn : EdgeConnection) : EdgeConnection :=
  { conn with
    totalBytesXmit := conn.totalBytesXmit / 2
    numXoffRecv := conn.numXoffRecv / 2
    numXonRecv := conn.numXonRecv / 2 }

/-- The ends of a stream that check what they receive. -/
def Checks (conn : EdgeConnection) : Prop := conn.isAp ∨ conn.hasHsIdent

instance (conn : EdgeConnection) : Decidable conn.Checks := inferInstanceAs (Decidable (_ ∨ _))

def xoffLimit (p : FlowParams) (conn : EdgeConnection) : ℕ :=
  if conn.hasHsIdent then p.xoffClient else p.xoffExit

def xonLimit (p : FlowParams) (conn : EdgeConnection) : ℕ :=
  if conn.hasHsIdent then min p.xoffClient p.xonRateBytes else min p.xoffExit p.xonRateBytes

/-- The limit of the other end: that of an exit, or of a client or a service. -/
def peerLimit (p : FlowParams) (conn : EdgeConnection) : ℕ :=
  if conn.isAp ∧ ¬ conn.hasHsIdent then p.xoffExit else p.xoffClient

end EdgeConnection

/-- The count of an XOFF. -/
def countXoff (conn : EdgeConnection) : EdgeConnection :=
  let conn := if conn.numXoffRecv = xoffCountScaleAt then conn.scaleDown else conn
  { conn with numXoffRecv := (conn.numXoffRecv + 1) % 2 ^ 8 }

/-- `circuit_process_stream_xoff`; whether the cell came from the right hop, and whether the stream
uses flow control, is known elsewhere. -/
def circuitProcessStreamXoff (p : FlowParams) (conn : EdgeConnection)
    (usesCpath usesFlowControl : Bool) : Verdict × EdgeConnection :=
  if ¬ usesCpath then (.wrongHop, conn)
  else if ¬ usesFlowControl then (.noFlowControl, conn)
  else if conn.xoffReceived then (.multipleXoff, conn)
  else
    let conn := countXoff conn
    let verdict : Verdict :=
      if conn.Checks ∧ conn.totalBytesXmit < conn.xoffLimit p * conn.numXoffRecv % 2 ^ 32 then .extra
      else .valid
    (verdict, { conn with xoffReceived := true })

/-- The count of an XON. -/
def countXon (conn : EdgeConnection) : EdgeConnection :=
  let conn := if conn.numXonRecv = xonCountScaleAt then conn.scaleDown else conn
  { conn with numXonRecv := (conn.numXonRecv + 1) % 2 ^ 8 }

/-- `circuit_process_stream_xon`, with the rate that was parsed. -/
def circuitProcessStreamXon (p : FlowParams) (conn : EdgeConnection)
    (usesCpath usesFlowControl : Bool) (xon : Option UInt32) : Verdict × EdgeConnection :=
  if ¬ usesCpath then (.wrongHop, conn)
  else if ¬ usesFlowControl then (.noFlowControl, conn)
  else
    match xon with
    | none => (.malformedXon, conn)
    | some kbpsEwma =>
      let conn := countXon conn
      let verdict : Verdict :=
        if conn.Checks ∧ conn.totalBytesXmit < conn.xonLimit p * conn.numXonRecv % 2 ^ 32 then
          .extra
        else .valid
      let rate := kbpsEwma.toNat * 1000
      let rate := if rate = 0 ∨ 2 ^ 31 - 1 < rate then 2 ^ 31 - 1 else rate
      (verdict, { conn with rate, xoffReceived := false })

/-- `flow_control_note_sent_data`; the difference is one of 64 bits. -/
def flowControlNoteSentData (conn : EdgeConnection) (len : ℕ) : EdgeConnection :=
  let conn :=
    if conn.totalBytesXmit ≥ (totalXmitScaleAt + 2 ^ 64 - len) % 2 ^ 64 then conn.scaleDown else conn
  { conn with totalBytesXmit := (conn.totalBytesXmit + len) % 2 ^ 32 }

/-! ## The stream and its other end -/

/-- What the other end sends back. -/
inductive Command where
  | xoff
  | xon (kbpsEwma : UInt32)
deriving DecidableEq

/-- One end of a stream, with the bytes on the way to the other end, those that it received since its
previous XOFF, and the commands on the way back. -/
structure StreamNet where
  conn : EdgeConnection
  inFlight : ℕ
  received : ℕ
  commands : List Command

inductive Event where
  | dataSent (len : ℕ)
  | dataReceived (len : ℕ)
  | xoffSent
  | xonSent (kbpsEwma : UInt32)
  | commandReceived

/-- A new stream. -/
def StreamNet.new (isAp hasHsIdent : Bool) : StreamNet where
  conn :=
    { isAp, hasHsIdent, totalBytesXmit := 0, numXoffRecv := 0, numXonRecv := 0
      xoffReceived := false, rate := 0 }
  inFlight := 0
  received := 0
  commands := []

/-- One event, of a peer that is honest.  Data is sent by the cell. -/
def StreamNet.step (p : FlowParams) (s : StreamNet) : Event → Option StreamNet
  | .dataSent len =>
    if len ≤ relayPayloadSize then
      some { s with conn := flowControlNoteSentData s.conn len, inFlight := s.inFlight + len }
    else none
  | .dataReceived len =>
    if len ≤ s.inFlight then
      some { s with inFlight := s.inFlight - len, received := s.received + len }
    else none
  | .xoffSent =>
    if s.conn.peerLimit p < s.received then
      some { s with received := 0, commands := s.commands ++ [.xoff] }
    else none
  | .xonSent kbpsEwma => some { s with commands := s.commands ++ [.xon kbpsEwma] }
  | .commandReceived =>
    match s.commands with
    | [] => none
    | .xoff :: commands =>
      some { s with conn := (circuitProcessStreamXoff p s.conn true true).2, commands }
    | .xon kbpsEwma :: commands =>
      some { s with conn := (circuitProcessStreamXon p s.conn true true kbpsEwma).2, commands }

/-! ## The condition -/

/-- The bytes that the XOFFs account for that a peer may still send for `bytes` bytes: each takes one
more than its limit. -/
def owed (limit bytes : ℕ) : ℕ := bytes * limit / (limit + 1)

/-- The bytes sent are enough for the XOFFs counted, those on the way, and those still to come. -/
def Covered (limit numXoffRecv coming bytes totalBytesXmit : ℕ) : Prop :=
  limit * (numXoffRecv + coming) + owed limit bytes ≤ totalBytesXmit

/-- A command scales the counts down before it is counted. -/
def EdgeConnection.ScalesDownFor (conn : EdgeConnection) : Command → Prop
  | .xoff => conn.xoffReceived = false ∧ conn.numXoffRecv = xoffCountScaleAt
  | .xon _ => conn.numXonRecv = xonCountScaleAt

/-- An XOFF is not judged to be one too many, and the product of limit and count fits 32 bits. -/
def EdgeConnection.Accepts (p : FlowParams) (conn : EdgeConnection) : Command → Prop
  | .xoff => (circuitProcessStreamXoff p conn true true).1 ≠ .extra
      ∧ conn.xoffLimit p * (countXoff conn).numXoffRecv < 2 ^ 32
  | .xon _ => conn.xonLimit p * (countXon conn).numXonRecv < 2 ^ 32

instance decidableScalesDownFor (conn : EdgeConnection) : ∀ c, Decidable (conn.ScalesDownFor c)
  | .xoff => inferInstanceAs (Decidable (_ ∧ _))
  | .xon _ => inferInstanceAs (Decidable (_ = _))

instance decidableAccepts (p : FlowParams) (conn : EdgeConnection) :
    ∀ c, Decidable (conn.Accepts p c)
  | .xoff => inferInstanceAs (Decidable (_ ∧ _))
  | .xon _ => inferInstanceAs (Decidable (_ < _))

namespace StreamNet

/-- The bytes that are counted are enough.  Of those that the other end received no more count than
one XOFF takes. -/
def IsCovered (p : FlowParams) (s : StreamNet) : Prop :=
  Covered (s.conn.xoffLimit p) s.conn.numXoffRecv (s.commands.count .xoff)
    (min s.received (s.conn.xoffLimit p + 1) + s.inFlight) s.conn.totalBytesXmit

instance (p : FlowParams) (s : StreamNet) : Decidable (s.IsCovered p) :=
  inferInstanceAs (Decidable (_ ≤ _))

/-- The event scales the counts down before anything else. -/
def ScalesDown (s : StreamNet) : Event → Prop
  | .dataSent len => s.conn.totalBytesXmit ≥ (totalXmitScaleAt + 2 ^ 64 - len) % 2 ^ 64
  | .dataReceived _ | .xoffSent | .xonSent _ => False
  | .commandReceived => ∃ c ∈ s.commands.head?, s.conn.ScalesDownFor c

/-- **The condition**: where the counts are scaled down, what is left of the bytes is enough for the
XOFFs that are left, those on the way, and those still to come from what was sent before. -/
def CoversOwed (p : FlowParams) (s : StreamNet) (e : Event) : Prop :=
  s.conn.Checks → s.ScalesDown e → { s with conn := s.conn.scaleDown }.IsCovered p

/-- The command that is received is accepted. -/
def AcceptsXoff (p : FlowParams) (s : StreamNet) : Event → Prop
  | .dataSent _ | .dataReceived _ | .xoffSent | .xonSent _ => True
  | .commandReceived => ∀ c ∈ s.commands.head?, s.conn.Accepts p c

instance decidableScalesDown (s : StreamNet) : ∀ e, Decidable (s.ScalesDown e)
  | .dataSent _ => inferInstanceAs (Decidable (_ ≥ _))
  | .dataReceived _ | .xoffSent | .xonSent _ => inferInstanceAs (Decidable False)
  | .commandReceived => inferInstanceAs (Decidable (∃ _ ∈ s.commands.head?, _))

instance decidableCoversOwed (p : FlowParams) (s : StreamNet) (e : Event) :
    Decidable (s.CoversOwed p e) :=
  inferInstanceAs (Decidable (_ → _ → _))

instance decidableAcceptsXoff (p : FlowParams) (s : StreamNet) : ∀ e, Decidable (s.AcceptsXoff p e)
  | .dataSent _ | .dataReceived _ | .xoffSent | .xonSent _ => inferInstanceAs (Decidable True)
  | .commandReceived => inferInstanceAs (Decidable (∀ _ ∈ s.commands.head?, _))

end StreamNet

/-! ## The account -/

variable {limit n coming bytes total len : ℕ}

lemma owed_add_le (limit bytes len : ℕ) : owed limit (bytes + len) ≤ owed limit bytes + len := by
  rw [owed, owed, ← Nat.add_mul_div_right _ _ (Nat.succ_pos limit)]
  refine Nat.div_le_div_right ?_
  rw [Nat.add_mul]
  exact Nat.add_le_add_left (Nat.mul_le_mul_left len (Nat.le_succ limit)) _

lemma owed_mono {bytes' : ℕ} (h : bytes ≤ bytes') : owed limit bytes ≤ owed limit bytes' :=
  Nat.div_le_div_right (Nat.mul_le_mul_right limit h)

lemma owed_add (limit bytes : ℕ) : owed limit (limit + 1 + bytes) = owed limit bytes + limit := by
  rw [owed, owed, Nat.add_mul, Nat.mul_add_div (Nat.succ_pos limit), Nat.add_comm]

lemma Covered.dataSent (h : Covered limit n coming bytes total) (len : ℕ) :
    Covered limit n coming (bytes + len) (total + len) := by
  have hle := owed_add_le limit bytes len
  rw [Covered] at h ⊢
  omega

lemma Covered.mono {bytes' : ℕ} (h : Covered limit n coming bytes' total) (hle : bytes ≤ bytes') :
    Covered limit n coming bytes total :=
  (Nat.add_le_add_left (owed_mono hle) _).trans h

lemma Covered.xoffSent (h : Covered limit n coming (limit + 1 + bytes) total) :
    Covered limit n (coming + 1) bytes total := by
  rw [Covered, owed_add] at h
  rw [Covered, ← Nat.add_assoc, Nat.mul_succ]
  omega

lemma Covered.xoffReceived (h : Covered limit n (coming + 1) bytes total) :
    Covered limit (n + 1) coming bytes total := by
  rw [Covered] at h ⊢
  rwa [Nat.add_right_comm, Nat.add_assoc]

lemma Covered.xoffRefused (h : Covered limit n (coming + 1) bytes total) :
    Covered limit n coming bytes total := by
  rw [Covered] at h ⊢
  rw [← Nat.add_assoc, Nat.mul_succ] at h
  omega

lemma Covered.limit_mul_le (h : Covered limit n coming bytes total) : limit * n ≤ total := by
  rw [Covered, Nat.mul_add] at h
  omega

/-! ## The counters -/

/-- The parameters are in the ranges of their getters. -/
structure FlowParams.Admitted (p : FlowParams) : Prop where
  xoffClient : p.xoffClient ≤ 10000 * relayPayloadSize
  xoffExit : p.xoffExit ≤ 10000 * relayPayloadSize

lemma admitted_params (ns : Consensus) : (flowControlNewConsensusParams ns).Admitted := by
  have hmax (paramName : String) : (networkstatusGetParam ns paramName 500 1 10000).toNat ≤ 10000 :=
    Int.toNat_le.mpr (Congestion.networkstatusGetParam_mem ns paramName 500 (by decide)).2
  exact ⟨Nat.mul_le_mul_right _ (hmax _), Nat.mul_le_mul_right _ (hmax _)⟩

variable {p : FlowParams} {conn : EdgeConnection}

lemma FlowParams.Admitted.xoffLimit_le (hp : p.Admitted) (conn : EdgeConnection) :
    conn.xoffLimit p ≤ 10000 * relayPayloadSize := by
  rw [EdgeConnection.xoffLimit]
  split
  · exact hp.xoffClient
  · exact hp.xoffExit

lemma FlowParams.Admitted.xonLimit_le (hp : p.Admitted) (conn : EdgeConnection) :
    conn.xonLimit p ≤ 10000 * relayPayloadSize := by
  rw [EdgeConnection.xonLimit]
  split
  · exact (min_le_left _ _).trans hp.xoffClient
  · exact (min_le_left _ _).trans hp.xoffExit

lemma limit_mul_lt {m : ℕ} (hlimit : limit ≤ 10000 * relayPayloadSize) (hm : m ≤ 200) :
    limit * m < 2 ^ 32 :=
  (Nat.mul_le_mul hlimit hm).trans_lt (by decide)

lemma EdgeConnection.Checks.peerLimit_eq (h : conn.Checks) : conn.peerLimit p = conn.xoffLimit p := by
  rw [EdgeConnection.Checks] at h
  rw [EdgeConnection.peerLimit, EdgeConnection.xoffLimit]
  cases hident : conn.hasHsIdent with
  | true => simp
  | false =>
    rw [hident] at h
    simp [h.resolve_right Bool.false_ne_true]

lemma countXoff_eq (h : conn.numXoffRecv ≤ 200) : ∃ conn₀ : EdgeConnection,
    (conn₀ = conn ∨ conn.numXoffRecv = xoffCountScaleAt ∧ conn₀ = conn.scaleDown)
      ∧ conn₀.numXoffRecv < 200
      ∧ countXoff conn = { conn₀ with numXoffRecv := conn₀.numXoffRecv + 1 } := by
  rw [countXoff]
  by_cases hscale : conn.numXoffRecv = xoffCountScaleAt
  · refine ⟨conn.scaleDown, .inr ⟨hscale, rfl⟩, ?_, ?_⟩
    · simp [EdgeConnection.scaleDown, hscale, xoffCountScaleAt]
    · simp [EdgeConnection.scaleDown, hscale, xoffCountScaleAt]
  · have hlt : conn.numXoffRecv < 200 := lt_of_le_of_ne h hscale
    refine ⟨conn, .inl rfl, hlt, ?_⟩
    simp only [if_neg hscale]
    rw [Nat.mod_eq_of_lt (by omega)]

lemma countXon_eq (h : conn.numXonRecv ≤ 200) : ∃ conn₀ : EdgeConnection,
    (conn₀ = conn ∨ conn.numXonRecv = xonCountScaleAt ∧ conn₀ = conn.scaleDown)
      ∧ conn₀.numXonRecv < 200
      ∧ countXon conn = { conn₀ with numXonRecv := conn₀.numXonRecv + 1 } := by
  rw [countXon]
  by_cases hscale : conn.numXonRecv = xonCountScaleAt
  · refine ⟨conn.scaleDown, .inr ⟨hscale, rfl⟩, ?_, ?_⟩
    · simp [EdgeConnection.scaleDown, hscale, xonCountScaleAt]
    · simp [EdgeConnection.scaleDown, hscale, xonCountScaleAt]
  · have hlt : conn.numXonRecv < 200 := lt_of_le_of_ne h hscale
    refine ⟨conn, .inl rfl, hlt, ?_⟩
    simp only [if_neg hscale]
    rw [Nat.mod_eq_of_lt (by omega)]

/-! ## One event -/

/-- What holds of a stream: the counts are small, and the bytes are enough. -/
structure StreamNet.Inv (p : FlowParams) (s : StreamNet) : Prop where
  xoffs : s.conn.numXoffRecv ≤ 200
  xons : s.conn.numXonRecv ≤ 200
  total : s.conn.totalBytesXmit ≤ totalXmitScaleAt
  covered : s.conn.Checks → s.IsCovered p

namespace StreamNet.Inv

variable {s s' : StreamNet}

lemma scaleDown (h : s.Inv p)
    (hcovered : s.conn.Checks → { s with conn := s.conn.scaleDown }.IsCovered p) :
    StreamNet.Inv p { s with conn := s.conn.scaleDown } where
  xoffs := (Nat.div_le_self _ 2).trans h.xoffs
  xons := (Nat.div_le_self _ 2).trans h.xons
  total := (Nat.div_le_self _ 2).trans h.total
  covered := hcovered

lemma dataSent (h : s.Inv p) (hlen : len ≤ relayPayloadSize) (howed : s.CoversOwed p (.dataSent len)) :
    StreamNet.Inv p { s with
      conn := flowControlNoteSentData s.conn len, inFlight := s.inFlight + len } := by
  have hscale : (totalXmitScaleAt + 2 ^ 64 - len) % 2 ^ 64 = totalXmitScaleAt - len := by
    rw [relayPayloadSize] at hlen
    rw [totalXmitScaleAt]
    omega
  have hnote {conn₀ : EdgeConnection} (h₀ : StreamNet.Inv p { s with conn := conn₀ })
      (htotal : conn₀.totalBytesXmit + len ≤ totalXmitScaleAt) :
      StreamNet.Inv p { s with
        conn := { conn₀ with totalBytesXmit := (conn₀.totalBytesXmit + len) % 2 ^ 32 }
        inFlight := s.inFlight + len } := by
    have hmod : (conn₀.totalBytesXmit + len) % 2 ^ 32 = conn₀.totalBytesXmit + len :=
      Nat.mod_eq_of_lt (htotal.trans_lt (by decide))
    rw [hmod]
    refine ⟨h₀.xoffs, h₀.xons, htotal, fun hchecks => ?_⟩
    have hsent := Covered.dataSent (h₀.covered hchecks) len
    rw [Nat.add_assoc] at hsent
    exact hsent
  rw [flowControlNoteSentData, hscale]
  split
  · next hge =>
      have hscales : s.ScalesDown (.dataSent len) := by
        rw [ScalesDown, hscale]
        exact hge
      refine hnote (h.scaleDown fun hchecks => howed hchecks hscales) ?_
      have htotal := h.total
      rw [relayPayloadSize] at hlen
      simp only [EdgeConnection.scaleDown, totalXmitScaleAt] at htotal ⊢
      omega
  · next hlt => exact hnote h (by omega)

lemma dataReceived (h : s.Inv p) (hlen : len ≤ s.inFlight) : StreamNet.Inv p { s with
    inFlight := s.inFlight - len, received := s.received + len } := by
  refine ⟨h.xoffs, h.xons, h.total, fun hchecks => ?_⟩
  have hfewer : min (s.received + len) (s.conn.xoffLimit p + 1) + (s.inFlight - len)
      ≤ min s.received (s.conn.xoffLimit p + 1) + s.inFlight := by
    omega
  exact Covered.mono (h.covered hchecks) hfewer

lemma xoffSent (h : s.Inv p) (hlt : s.conn.peerLimit p < s.received) :
    StreamNet.Inv p { s with received := 0, commands := s.commands ++ [.xoff] } := by
  refine ⟨h.xoffs, h.xons, h.total, fun hchecks => ?_⟩
  have hlt' : s.conn.xoffLimit p < s.received := hchecks.peerLimit_eq ▸ hlt
  have hcovered := h.covered hchecks
  rw [IsCovered, min_eq_right hlt'] at hcovered
  have hcount : (s.commands ++ [Command.xoff]).count .xoff = s.commands.count .xoff + 1 := by simp
  rw [IsCovered, hcount, Nat.zero_min, Nat.zero_add]
  exact hcovered.xoffSent

lemma xonSent (h : s.Inv p) (kbpsEwma : UInt32) :
    StreamNet.Inv p { s with commands := s.commands ++ [.xon kbpsEwma] } := by
  refine ⟨h.xoffs, h.xons, h.total, fun hchecks => ?_⟩
  have hcovered := h.covered hchecks
  rw [IsCovered] at hcovered ⊢
  rwa [List.count_append, List.count_singleton, if_neg (by simp), Nat.add_zero]

lemma xoffReceived {commands : List Command} (h : s.Inv p) (hp : p.Admitted)
    (hcommands : s.commands = .xoff :: commands) (howed : s.CoversOwed p .commandReceived) :
    s.conn.Accepts p .xoff ∧ StreamNet.Inv p { s with
      conn := (circuitProcessStreamXoff p s.conn true true).2, commands } := by
  obtain ⟨conn₀, hconn₀, hlt, hcount⟩ := countXoff_eq h.xoffs
  have hproduct : s.conn.xoffLimit p * (countXoff s.conn).numXoffRecv < 2 ^ 32 := by
    rw [hcount]
    exact limit_mul_lt (hp.xoffLimit_le s.conn) hlt
  have hcoming : s.commands.count .xoff = commands.count .xoff + 1 := by
    rw [hcommands, List.count_cons_self]
  rw [EdgeConnection.Accepts, and_iff_left hproduct]
  by_cases hreceived : s.conn.xoffReceived = true
  · have hprocess : circuitProcessStreamXoff p s.conn true true = (.multipleXoff, s.conn) := by
      simp [circuitProcessStreamXoff, hreceived]
    rw [hprocess]
    refine ⟨by simp, h.xoffs, h.xons, h.total, fun hchecks => ?_⟩
    have hcovered := h.covered hchecks
    rw [IsCovered, hcoming] at hcovered
    exact hcovered.xoffRefused
  · have h₀ : StreamNet.Inv p { s with conn := conn₀ } := by
      rcases hconn₀ with rfl | ⟨hscale, rfl⟩
      · exact h
      · refine h.scaleDown fun hchecks => howed hchecks ⟨.xoff, ?_, ?_⟩
        · rw [hcommands]
          rfl
        · exact ⟨Bool.eq_false_iff.mpr hreceived, hscale⟩
    have hcovered : conn₀.Checks → Covered (conn₀.xoffLimit p) (conn₀.numXoffRecv + 1)
        (commands.count .xoff) (min s.received (conn₀.xoffLimit p + 1) + s.inFlight)
        conn₀.totalBytesXmit := by
      intro hchecks
      have hcovered := h₀.covered hchecks
      rw [IsCovered, hcoming] at hcovered
      exact hcovered.xoffReceived
    have hverdict : ¬ (conn₀.Checks ∧ conn₀.totalBytesXmit
        < conn₀.xoffLimit p * (conn₀.numXoffRecv + 1) % 2 ^ 32) := by
      rintro ⟨hchecks, hextra⟩
      have hle := (hcovered hchecks).limit_mul_le
      omega
    have hprocess : circuitProcessStreamXoff p s.conn true true
        = (.valid, { conn₀ with numXoffRecv := conn₀.numXoffRecv + 1, xoffReceived := true }) := by
      rw [circuitProcessStreamXoff, if_neg (by simp), if_neg (by simp), if_neg hreceived]
      simp only [hcount]
      exact Prod.ext (if_neg hverdict) rfl
    rw [hprocess]
    exact ⟨by simp, hlt, h₀.xons, h₀.total, hcovered⟩

lemma xonReceived {commands : List Command} {kbpsEwma : UInt32} (h : s.Inv p) (hp : p.Admitted)
    (hcommands : s.commands = .xon kbpsEwma :: commands)
    (howed : s.CoversOwed p .commandReceived) :
    s.conn.Accepts p (.xon kbpsEwma) ∧ StreamNet.Inv p { s with
      conn := (circuitProcessStreamXon p s.conn true true kbpsEwma).2, commands } := by
  obtain ⟨conn₀, hconn₀, hlt, hcount⟩ := countXon_eq h.xons
  have hproduct : s.conn.xonLimit p * (countXon s.conn).numXonRecv < 2 ^ 32 := by
    rw [hcount]
    exact limit_mul_lt (hp.xonLimit_le s.conn) hlt
  have hcoming : s.commands.count .xoff = commands.count .xoff := by
    rw [hcommands, List.count_cons_of_ne (by simp)]
  have h₀ : StreamNet.Inv p { s with conn := conn₀ } := by
    rcases hconn₀ with rfl | ⟨hscale, rfl⟩
    · exact h
    · refine h.scaleDown fun hchecks => howed hchecks ⟨.xon kbpsEwma, ?_, hscale⟩
      rw [hcommands]
      rfl
  obtain ⟨rate, hprocess⟩ : ∃ rate, (circuitProcessStreamXon p s.conn true true kbpsEwma).2
      = { conn₀ with numXonRecv := conn₀.numXonRecv + 1, rate, xoffReceived := false } := by
    simp only [circuitProcessStreamXon, hcount]
    exact ⟨_, rfl⟩
  rw [hprocess]
  refine ⟨hproduct, h₀.xoffs, hlt, h₀.total, fun hchecks => ?_⟩
  have hcovered := h₀.covered hchecks
  rw [IsCovered, hcoming] at hcovered
  exact hcovered

end StreamNet.Inv

/-! ## Runs -/

lemma StreamNet.Inv.new (p : FlowParams) (isAp hasHsIdent : Bool) :
    (StreamNet.new isAp hasHsIdent).Inv p where
  xoffs := Nat.zero_le _
  xons := Nat.zero_le _
  total := Nat.zero_le _
  covered _ := by simp [StreamNet.IsCovered, StreamNet.new, Covered, owed]

/-- **One event**, if it covers what is owed, is accepted and keeps the bytes enough. -/
lemma StreamNet.Inv.step {s : StreamNet} {e : Event} (h : s.Inv p) (hp : p.Admitted)
    (howed : s.CoversOwed p e) :
    s.AcceptsXoff p e ∧ ∀ s', s.step p e = some s' → s'.Inv p := by
  cases e with
  | dataSent len =>
    refine ⟨trivial, fun s' hstep => ?_⟩
    rw [StreamNet.step] at hstep
    split at hstep
    · next hlen => exact some.inj hstep ▸ h.dataSent hlen howed
    · cases hstep
  | dataReceived len =>
    refine ⟨trivial, fun s' hstep => ?_⟩
    rw [StreamNet.step] at hstep
    split at hstep
    · next hlen => exact some.inj hstep ▸ h.dataReceived hlen
    · cases hstep
  | xoffSent =>
    refine ⟨trivial, fun s' hstep => ?_⟩
    rw [StreamNet.step] at hstep
    split at hstep
    · next hlt => exact some.inj hstep ▸ h.xoffSent hlt
    · cases hstep
  | xonSent kbpsEwma =>
    exact ⟨trivial, fun s' hstep => some.inj hstep ▸ h.xonSent kbpsEwma⟩
  | commandReceived =>
    rw [StreamNet.AcceptsXoff]
    simp only [StreamNet.step]
    cases hcommands : s.commands with
    | nil => exact ⟨fun c hc => absurd hc (by simp), fun s' hstep => absurd hstep (by simp)⟩
    | cons c commands =>
      cases c with
      | xoff =>
        obtain ⟨haccepts, hinv⟩ := h.xoffReceived hp hcommands howed
        refine ⟨fun c hc => ?_, fun s' hstep => some.inj hstep ▸ hinv⟩
        obtain rfl := some.inj hc
        exact haccepts
      | xon kbpsEwma =>
        obtain ⟨haccepts, hinv⟩ := h.xonReceived hp hcommands howed
        refine ⟨fun c hc => ?_, fun s' hstep => some.inj hstep ▸ hinv⟩
        obtain rfl := some.inj hc
        exact haccepts

/-- **No XOFF is judged to be one too many**, and no product of a limit and a count overflows, all
along a run in which what is left after every scaling covers what is owed. -/
theorem xoffsAccepted_of_meets (ns : Consensus) (isAp hasHsIdent : Bool) (es : List Event)
    (h : Meets (StreamNet.step (flowControlNewConsensusParams ns))
      (StreamNet.CoversOwed (flowControlNewConsensusParams ns)) (.new isAp hasHsIdent) es) :
    Meets (StreamNet.step (flowControlNewConsensusParams ns))
      (StreamNet.AcceptsXoff (flowControlNewConsensusParams ns)) (.new isAp hasHsIdent) es := by
  have hp := admitted_params ns
  intro pre e post hes s hs
  have hpre : Meets (StreamNet.step (flowControlNewConsensusParams ns))
      (StreamNet.CoversOwed (flowControlNewConsensusParams ns)) (.new isAp hasHsIdent) pre := by
    rw [hes, meets_append] at h
    exact h.1
  have hinv : s.Inv (flowControlNewConsensusParams ns) :=
    invariant_of_meets (fun _ _ _ hI hC hstep => (StreamNet.Inv.step hI hp hC).2 _ hstep)
      (StreamNet.Inv.new _ isAp hasHsIdent) hpre hs
  exact (hinv.step hp (h pre e post hes s hs)).1

/-- The smallest limit. -/
def smallestLimit : Consensus := fun paramName =>
  if paramName = "cc_xoff_exit" then some 1 else none

/-- Data that makes a peer with that limit send an XOFF, and then an XON. -/
def xoffRound (lens : List ℕ) : List Event :=
  lens.map .dataSent ++ [.dataReceived lens.sum, .xoffSent, .commandReceived, .xonSent 0,
    .commandReceived]

/-- Two cells and a part of a third in each round; the 201st halves the bytes and both counts. -/
theorem xoffsAccepted_rounds :
    Meets (StreamNet.step (flowControlNewConsensusParams smallestLimit))
      (StreamNet.AcceptsXoff (flowControlNewConsensusParams smallestLimit)) (.new true false)
      (List.replicate 202 (xoffRound [498, 498, 4])).flatten := by
  refine xoffsAccepted_of_meets smallestLimit true false _ ?_
  decide +kernel

/-- The 201st round halves 100299 bytes to 50149, and 200 XOFFs to 100; but 101 XOFFs take 50298
bytes. -/
theorem xoffsAccepted_fails :
    ¬ Meets (StreamNet.step (flowControlNewConsensusParams smallestLimit))
      (StreamNet.AcceptsXoff (flowControlNewConsensusParams smallestLimit)) (.new true false)
      (List.replicate 201 (xoffRound [498, 1])).flatten := by
  decide +kernel

end Ator.StreamFlow
