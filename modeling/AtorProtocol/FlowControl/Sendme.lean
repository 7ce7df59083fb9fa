import AtorProtocol.Encoding.Binascii
import AtorProtocol.Lib.Run

/-!
# Authenticated SENDMEs

One end of a circuit: `src/core/or/sendme.c`, and what it calls in
`src/core/or/congestion_control_common.c`.  The sender of DATA cells notes the digests of the
cells that it expects a SENDME for; the receiver puts the digest of the last cell in its SENDME.

* `circuitSentCellForSendme`, `circuitSendmeCellIsNext` — the two predictions.
* `sendDataCell`, `receiveCell` — what an end does with a cell.
* `Link.step` — two ends, and a FIFO link in each direction.
-/

namespace Ator.FlowControl

def circwindowStart : ℤ := 1000

def circwindowStartMin : ℤ := 100

def circwindowStartMax : ℤ := 1000

def circwindowIncrement : ℕ := 100

def cwndInitMin : ℕ := 31

def cwndInitMax : ℕ := 10000

/-- The largest value of `cwnd_max`: `INT32_MAX`. -/
def cwndMaxMax : ℕ := 2 ^ 31 - 1

/-- A relay cell between the ends.  A circuit-level SENDME of version 1 carries a digest. -/
inductive Cell where
  | data (payload : Bytes)
  | sendme (digest : Bytes)
  | other (payload : Bytes)
deriving DecidableEq

/-- `congestion_control_t`.  An increment of zero is refused when it is negotiated. -/
structure CongestionControl where
  inflight : ℕ
  cwnd : ℕ
  sendmeInc : ℕ
  sendmeInc_pos : 0 < sendmeInc

/-- An end of the circuit: the windows of `circuit_t` or of the client's last hop, the digest that
`relay_crypto_t` has room for, and what the two running digests have taken.  The last four fields
keep count for the reader, each digest with the number of its DATA cell; no function reads them. -/
structure Endpoint where
  packageWindow : ℤ
  deliverWindow : ℤ
  ccontrol : Option CongestionControl
  sendmeDigest : Bytes
  sendmeLastDigests : List Bytes
  sendDigest : List Cell
  recvDigest : List Cell
  dataSent : ℕ
  dataReceived : ℕ
  recorded : List (Bytes × ℕ)
  emitted : List (Bytes × ℕ)

/-! ## The predictions -/

def sendmeGetIncCount (e : Endpoint) : ℕ :=
  match e.ccontrol with
  | some cc => cc.sendmeInc
  | none => circwindowIncrement

lemma sendmeGetIncCount_pos (e : Endpoint) : 0 < sendmeGetIncCount e := by
  rw [sendmeGetIncCount]
  split
  · next cc _ => exact cc.sendmeInc_pos
  · decide

/-- `circuit_sent_cell_for_sendme`: the cell that is sent next leads to a SENDME. -/
def circuitSentCellForSendme (e : Endpoint) : Bool :=
  match e.ccontrol with
  | some cc =>
    if cc.inflight = 0 then false
    else if (cc.inflight + 1) % 2 ^ 64 % cc.sendmeInc ≠ 0 then false
    else true
  | none =>
    if e.packageWindow = circwindowStart then false
    else if (e.packageWindow - 1) % circwindowIncrement ≠ 0 then false
    else true

def circuitSendmeCellIsNext (deliverWindow : ℤ) (sendmeInc : ℕ) : Bool :=
  if (circwindowStart - (deliverWindow - 1)) % sendmeInc ≠ 0 then false else true

def congestionControlGetPackageWindow (e : Endpoint) : ℤ :=
  match e.ccontrol with
  | none => e.packageWindow
  | some cc =>
    if cc.inflight > cc.cwnd then 0
    else if cc.cwnd - cc.inflight > 2 ^ 31 - 1 then 2 ^ 31 - 1
    else cc.cwnd - cc.inflight

/-! ## Sending -/

variable (hash : List Cell → Bytes)

/-- `circuit_package_relay_cell`, as far as digests go: the running digest takes the cell, and
`sendme_record_sending_cell_digest` keeps it when a SENDME is due. -/
def circuitPackageRelayCell (e : Endpoint) (cell : Cell) : Endpoint :=
  let e := { e with sendDigest := e.sendDigest ++ [cell] }
  if circuitSentCellForSendme e then { e with sendmeDigest := hash e.sendDigest } else e

/-- `sendme_record_cell_digest_on_circ`, for the DATA cell that has just been packaged. -/
def sendmeRecordCellDigestOnCirc (e : Endpoint) : Endpoint :=
  if circuitSentCellForSendme e then
    { e with sendmeLastDigests := e.sendmeLastDigests ++ [e.sendmeDigest]
             recorded := e.recorded ++ [(e.sendmeDigest, e.dataSent + 1)] }
  else e

/-- `sendme_note_circuit_data_packaged` with `congestion_control_note_cell_sent`, which only adds
a timestamp otherwise. -/
def sendmeNoteCircuitDataPackaged (e : Endpoint) : Endpoint :=
  let e := { e with dataSent := e.dataSent + 1 }
  match e.ccontrol with
  | some cc => { e with ccontrol := some { cc with inflight := (cc.inflight + 1) % 2 ^ 64 } }
  | none => { e with packageWindow := e.packageWindow - 1 }

/-- `relay_send_command_from_edge_` of a DATA cell; `none` when the circuit is closed. -/
def sendDataCell (e : Endpoint) (payload : Bytes) : Option Endpoint :=
  let e := circuitPackageRelayCell hash e (.data payload)
  let e := sendmeNoteCircuitDataPackaged (sendmeRecordCellDigestOnCirc e)
  if congestionControlGetPackageWindow e < 0 then none else some e

/-! ## Receiving -/

/-- The loop of `sendme_circuit_consider_sending`, with the SENDMEs that are sent. -/
def considerSendingLoop (sendmeInc : ℕ) (hinc : 0 < sendmeInc) (e : Endpoint) :
    Endpoint × List Cell :=
  if _h : e.deliverWindow ≤ circwindowStart - sendmeInc then
    let sendme : Cell := .sendme e.sendmeDigest
    let sent := circuitPackageRelayCell hash
      { e with deliverWindow := e.deliverWindow + sendmeInc
               emitted := e.emitted ++ [(e.sendmeDigest, e.dataReceived)] } sendme
    let rest := considerSendingLoop sendmeInc hinc sent
    (rest.1, sendme :: rest.2)
  else (e, [])
termination_by (circwindowStart - e.deliverWindow).toNat
decreasing_by
  simp only [circuitPackageRelayCell]
  split <;> simp only <;> omega

def sendmeCircuitConsiderSending (e : Endpoint) : Endpoint × List Cell :=
  considerSendingLoop hash (sendmeGetIncCount e) (sendmeGetIncCount_pos e) e

/-- `sendme_is_valid` of a SENDME of version 1: the first digest is popped, and compared. -/
def sendmeIsValid (e : Endpoint) (digest : Bytes) : Option Endpoint :=
  match e.sendmeLastDigests with
  | [] => none
  | circDigest :: rest =>
    if circDigest ≠ digest then none else some { e with sendmeLastDigests := rest }

/-- `sendme_process_circuit_level`; `none` when the circuit is closed.  The congestion control
algorithm also picks a new `cwnd`, which `cwnd_max` caps. -/
def sendmeProcessCircuitLevel (e : Endpoint) (digest : Bytes) (cwnd : ℕ) : Option Endpoint :=
  match sendmeIsValid e digest with
  | none => none
  | some e =>
    match e.ccontrol with
    | none =>
      if e.packageWindow + circwindowIncrement > circwindowStartMax then none
      else some { e with packageWindow := e.packageWindow + circwindowIncrement }
    | some cc =>
      some { e with ccontrol := some { cc with
        cwnd := min cwnd cwndMaxMax
        inflight := (cc.inflight + 2 ^ 64 - cc.sendmeInc) % 2 ^ 64 } }

/-- `circuit_receive_relay_cell` of a cell that is recognized: the running digest has taken it, and
`sendme_record_received_cell_digest` keeps it when a SENDME is due. -/
def recognizeCell (e : Endpoint) (cell : Cell) : Endpoint :=
  let e := { e with recvDigest := e.recvDigest ++ [cell] }
  if circuitSendmeCellIsNext e.deliverWindow (sendmeGetIncCount e) then
    { e with sendmeDigest := hash e.recvDigest }
  else e

/-- `connection_edge_process_relay_cell`, with the SENDMEs that are sent back; `none` when the
circuit is closed. -/
def receiveCell (e : Endpoint) (cell : Cell) (cwnd : ℕ) : Option (Endpoint × List Cell) :=
  let e := recognizeCell hash e cell
  match cell with
  | .data _ =>
    let e := { e with deliverWindow := e.deliverWindow - 1, dataReceived := e.dataReceived + 1 }
    if e.deliverWindow < 0 then none else some (sendmeCircuitConsiderSending hash e)
  | .sendme digest => (sendmeProcessCircuitLevel e digest cwnd).map fun e => (e, [])
  | .other _ => some (e, [])

/-! ## Two ends -/

/-- Which end. -/
inductive Side where
  | client
  | exit
deriving DecidableEq

def Side.other : Side → Side
  | .client => .exit
  | .exit => .client

/-- What the ends agreed on: fixed windows, which start with the value of `circwindow` in each
end's consensus, or congestion control with an increment of one byte, which starts with the value
of `cc_cwnd_init`. -/
inductive FlowControlMode where
  | fixed (window : Side → ℤ)
      (h : ∀ x, circwindowStartMin ≤ window x ∧ window x ≤ circwindowStartMax)
  | congestionControl (sendmeInc : ℕ) (h : 0 < sendmeInc ∧ sendmeInc ≤ 255) (cwnd : Side → ℕ)
      (hcwnd : ∀ x, cwndInitMin ≤ cwnd x ∧ cwnd x ≤ cwndInitMax)

/-- A new end. -/
def Endpoint.init (mode : FlowControlMode) (x : Side) : Endpoint where
  packageWindow := match mode with
    | .fixed window _ => window x
    | .congestionControl .. => circwindowStart
  deliverWindow := circwindowStart
  ccontrol := match mode with
    | .fixed .. => none
    | .congestionControl sendmeInc h cwnd _ => some ⟨0, cwnd x, sendmeInc, h.1⟩
  sendmeDigest := List.replicate 20 0
  sendmeLastDigests := []
  sendDigest := []
  recvDigest := []
  dataSent := 0
  dataReceived := 0
  recorded := []
  emitted := []

/-- The two ends, and the cells that each has sent and the other has yet to receive. -/
structure Link where
  endpoint : Side → Endpoint
  cells : Side → List Cell
  closed : Bool

def Link.init (mode : FlowControlMode) : Link where
  endpoint := Endpoint.init mode
  cells _ := []
  closed := false

/-- Who acts next. -/
inductive Event where
  | sendData (x : Side) (payload : Bytes)
  | sendOther (x : Side) (payload : Bytes)
  /-- The end receives a cell; if it is a SENDME, the algorithm picks `cwnd`. -/
  | receive (x : Side) (cwnd : ℕ)

/-- One event.  DATA is sent while there is room in the package window; a closed circuit has no
events. -/
def Link.step (s : Link) (event : Event) : Option Link :=
  if s.closed then none else
  match event with
  | .sendData x payload =>
    if congestionControlGetPackageWindow (s.endpoint x) ≤ 0 then none else
    match sendDataCell hash (s.endpoint x) payload with
    | none => some { s with closed := true }
    | some e => some { s with
        endpoint := Function.update s.endpoint x e
        cells := Function.update s.cells x (s.cells x ++ [.data payload]) }
  | .sendOther x payload => some { s with
      endpoint := Function.update s.endpoint x
        (circuitPackageRelayCell hash (s.endpoint x) (.other payload))
      cells := Function.update s.cells x (s.cells x ++ [.other payload]) }
  | .receive x cwnd =>
    match s.cells x.other with
    | [] => none
    | cell :: rest =>
      match receiveCell hash (s.endpoint x) cell cwnd with
      | none => some { s with closed := true }
      | some (e, sent) => some { s with
          endpoint := Function.update s.endpoint x e
          cells := Function.update (Function.update s.cells x.other rest) x
            (s.cells x ++ sent) }

end Ator.FlowControl
