import AtorProtocol.FlowControl.Sendme
import AtorProtocol.Lib.EveryNth

/-!
# When the two ends count alike

* `Sender`, `Receiver` — what an end has done with the DATA cells it has sent, and received: the
  digests of every n-th of them.
* `Flow` — one direction: the SENDMEs on the link are those for the first digests that the sender
  still waits for.
* `sendme_inSync_iff` — the modes in which every run stays in step.
-/

namespace Ator.FlowControl

open List Function

variable {hash : List Cell → Bytes} {n k : ℕ} {e f : Endpoint} {there back : List Cell}

/-! ## Cells and digests -/

/-- The running digest after each DATA cell, when it has taken `history` before. -/
def dataDigests (hash : List Cell → Bytes) : List Cell → List Cell → List Bytes
  | _, [] => []
  | history, .data payload :: cells =>
    hash (history ++ [.data payload])
      :: dataDigests hash (history ++ [.data payload]) cells
  | history, cell :: cells => dataDigests hash (history ++ [cell]) cells

lemma dataDigests_append : ∀ (history cells cells' : List Cell),
    dataDigests hash history (cells ++ cells')
      = dataDigests hash history cells ++ dataDigests hash (history ++ cells) cells'
  | history, [], cells' => by simp [dataDigests]
  | history, .data payload :: cells, cells' => by
      simp [dataDigests, dataDigests_append (history ++ [.data payload]) cells]
  | history, .sendme digest :: cells, cells' => by
      simp [dataDigests, dataDigests_append (history ++ [.sendme digest]) cells]
  | history, .other payload :: cells, cells' => by
      simp [dataDigests, dataDigests_append (history ++ [.other payload]) cells]

variable (hash) in
lemma dataDigests_concat_data (cells : List Cell) (payload : Bytes) :
    dataDigests hash [] (cells ++ [.data payload])
      = dataDigests hash [] cells ++ [hash (cells ++ [.data payload])] := by
  rw [dataDigests_append]
  rfl

/-- The digests in the SENDMEs among some cells. -/
def sendmesIn (cells : List Cell) : List Bytes :=
  cells.filterMap fun cell => match cell with
    | .sendme digest => some digest
    | _ => none

lemma sendmesIn_append (cells cells' : List Cell) :
    sendmesIn (cells ++ cells') = sendmesIn cells ++ sendmesIn cells' :=
  filterMap_append

/-! ## The ends -/

/-- What `circuit_sent_cell_for_sendme` reads after `k` SENDMEs: the window, or the cells in
flight, which the window bounds. -/
def Room (n : ℕ) (e : Endpoint) (k : ℕ) : Prop :=
  match e.ccontrol with
  | none => n = circwindowIncrement ∧ ∃ start : ℤ, (n : ℤ) ∣ start ∧ start ≤ circwindowStartMax
      ∧ e.packageWindow = start - e.dataSent + n * k
  | some cc => n = cc.sendmeInc ∧ 2 ≤ n ∧ n ≤ 255 ∧ cc.inflight + n * k = e.dataSent
      ∧ cc.inflight ≤ cwndMaxMax ∧ cc.cwnd ≤ cwndMaxMax

/-- An end that has sent some DATA cells, and has had `k` SENDMEs. -/
structure Sender (hash : List Cell → Bytes) (n : ℕ) (e : Endpoint) (k : ℕ) : Prop where
  sent : e.dataSent = (dataDigests hash [] e.sendDigest).length
  recorded : e.recorded = everyNth n (dataDigests hash [] e.sendDigest)
  waiting : e.sendmeLastDigests = (e.recorded.map Prod.fst).drop k
  acked : k ≤ e.recorded.length
  room : Room n e k

/-- An end that has received some DATA cells. -/
structure Receiver (hash : List Cell → Bytes) (n : ℕ) (e : Endpoint) : Prop where
  received : e.dataReceived = (dataDigests hash [] e.recvDigest).length
  emitted : e.emitted = everyNth n (dataDigests hash [] e.recvDigest)
  deliver : e.deliverWindow = circwindowStart - (e.dataReceived % n : ℕ)
  inc : sendmeGetIncCount e = n

lemma Sender.length_recorded (h : Sender hash n e k) : e.recorded.length = e.dataSent / n := by
  rw [h.recorded, length_everyNth, h.sent]

lemma Room.pos (h : Room n e k) : 0 < n := by
  rw [Room] at h
  split at h
  · rw [h.1]
    decide
  · omega

/-- **The prediction of the sender**: the next cell is an n-th one. -/
lemma Room.circuitSentCellForSendme (h : Room n e k) :
    circuitSentCellForSendme e = decide ((e.dataSent + 1) % n = 0) := by
  rw [Room] at h
  rw [FlowControl.circuitSentCellForSendme]
  split at h
  · next hcc =>
      obtain ⟨hn, start, hdvd, -, hwindow⟩ := h
      have hnext : (e.packageWindow - 1) % circwindowIncrement = 0 ↔ (e.dataSent + 1) % n = 0 := by
        simp only [hn, circwindowIncrement] at hdvd hwindow ⊢
        omega
      have hfirst : (e.dataSent + 1) % n = 0 → e.packageWindow ≠ circwindowStart := by
        simp only [hn, circwindowIncrement, circwindowStart] at hdvd hwindow ⊢
        omega
      rw [hcc]
      by_cases hdue : (e.dataSent + 1) % n = 0
      · rw [decide_eq_true hdue]
        rw [if_neg (hfirst hdue), if_neg (not_not.mpr (hnext.mpr hdue))]
      · rw [decide_eq_false hdue]
        rw [if_pos (mt hnext.mp hdue), ite_self]
  · next cc hcc =>
      obtain ⟨hn, h2, -, hinflight, hmax, -⟩ := h
      rw [hcc]
      simp only [← hn]
      have hwrap : (cc.inflight + 1) % 2 ^ 64 = cc.inflight + 1 := by
        rw [cwndMaxMax] at hmax
        omega
      have hmod : (e.dataSent + 1) % n = (cc.inflight + 1) % n := by
        rw [← hinflight, Nat.add_right_comm, Nat.add_mul_mod_self_left]
      rw [hwrap, hmod]
      by_cases hzero : cc.inflight = 0
      · rw [if_pos hzero, hzero, Nat.zero_add, Nat.mod_eq_of_lt (by omega)]
        rfl
      · rw [if_neg hzero]
        by_cases hnext : (cc.inflight + 1) % n = 0
        · rw [if_neg (not_not.mpr hnext), decide_eq_true hnext]
        · rw [if_pos hnext, decide_eq_false hnext]

/-- **The prediction of the receiver** is the same one. -/
lemma Receiver.circuitSendmeCellIsNext (h : Receiver hash n e) :
    circuitSendmeCellIsNext e.deliverWindow (sendmeGetIncCount e)
      = decide ((e.dataReceived + 1) % n = 0) := by
  have hmod : (circwindowStart - (e.deliverWindow - 1)) % (sendmeGetIncCount e)
      = ((e.dataReceived + 1) % n : ℕ) := by
    rw [h.deliver, h.inc, show circwindowStart - (circwindowStart - ((e.dataReceived % n : ℕ) : ℤ)
      - 1) = ((e.dataReceived % n + 1 : ℕ) : ℤ) by push_cast; ring, ← Int.natCast_mod,
      Nat.mod_add_mod]
  rw [FlowControl.circuitSendmeCellIsNext, hmod]
  by_cases hnext : (e.dataReceived + 1) % n = 0
  · rw [hnext]
    rfl
  · rw [if_pos (by exact_mod_cast hnext), decide_eq_false hnext]

/-! ## What an end does with a cell -/

/-- Nothing has happened to what an end receives. -/
structure SameReceiving (e e' : Endpoint) : Prop where
  recvDigest : e'.recvDigest = e.recvDigest
  dataReceived : e'.dataReceived = e.dataReceived
  emitted : e'.emitted = e.emitted
  deliverWindow : e'.deliverWindow = e.deliverWindow
  inc : sendmeGetIncCount e' = sendmeGetIncCount e

variable {e' : Endpoint}

lemma Receiver.of_same (h : Receiver hash n e) (hsame : SameReceiving e e') :
    Receiver hash n e' where
  received := by rw [hsame.dataReceived, hsame.recvDigest, h.received]
  emitted := by rw [hsame.emitted, hsame.recvDigest, h.emitted]
  deliver := by rw [hsame.deliverWindow, hsame.dataReceived, h.deliver]
  inc := by rw [hsame.inc, h.inc]

/-- An end has sent some cells that are no DATA cells, and nothing else has happened to what it
sends. -/
structure SameSending (e e' : Endpoint) (sent : List Cell) : Prop where
  sendDigest : e'.sendDigest = e.sendDigest ++ sent
  noData : ∀ cell ∈ sent, ∀ payload, cell ≠ .data payload
  dataSent : e'.dataSent = e.dataSent
  recorded : e'.recorded = e.recorded
  sendmeLastDigests : e'.sendmeLastDigests = e.sendmeLastDigests
  packageWindow : e'.packageWindow = e.packageWindow
  ccontrol : e'.ccontrol = e.ccontrol

lemma dataDigests_noData : ∀ (cells history : List Cell),
    (∀ cell ∈ cells, ∀ payload, cell ≠ .data payload) → dataDigests hash history cells = []
  | [], _, _ => rfl
  | .data payload :: _, _, h => absurd rfl (h _ mem_cons_self payload)
  | .sendme _ :: cells, _, h | .other _ :: cells, _, h =>
    dataDigests_noData cells _ fun c hc => h c (mem_cons_of_mem _ hc)

lemma Sender.of_same {sent : List Cell} (h : Sender hash n e k)
    (hsame : SameSending e e' sent) : Sender hash n e' k := by
  have hdigests : dataDigests hash [] e'.sendDigest = dataDigests hash [] e.sendDigest := by
    rw [hsame.sendDigest, dataDigests_append, dataDigests_noData _ _ hsame.noData, append_nil]
  refine ⟨?_, ?_, ?_, ?_, ?_⟩
  · rw [hsame.dataSent, hdigests, h.sent]
  · rw [hsame.recorded, hdigests, h.recorded]
  · rw [hsame.sendmeLastDigests, hsame.recorded, h.waiting]
  · rw [hsame.recorded]
    exact h.acked
  · have hroom := h.room
    rw [Room] at hroom ⊢
    rwa [hsame.ccontrol, hsame.packageWindow, hsame.dataSent]

lemma circuitPackageRelayCell_eq (e : Endpoint) (cell : Cell) :
    circuitPackageRelayCell hash e cell = { e with
      sendDigest := e.sendDigest ++ [cell]
      sendmeDigest := if circuitSentCellForSendme e then hash (e.sendDigest ++ [cell])
        else e.sendmeDigest } := by
  by_cases h : circuitSentCellForSendme e = true
  · rw [if_pos h]
    exact if_pos h
  · rw [if_neg h]
    exact if_neg h

lemma sameSending_package (e : Endpoint) {cell : Cell} (h : ∀ payload, cell ≠ .data payload) :
    SameSending e (circuitPackageRelayCell hash e cell) [cell] := by
  rw [circuitPackageRelayCell_eq]
  exact ⟨rfl, by simpa using h, rfl, rfl, rfl, rfl, rfl⟩

lemma sameReceiving_package (e : Endpoint) (cell : Cell) :
    SameReceiving e (circuitPackageRelayCell hash e cell) := by
  rw [circuitPackageRelayCell_eq]
  exact ⟨rfl, rfl, rfl, rfl, rfl⟩

lemma sendmeRecordCellDigestOnCirc_package (e : Endpoint) (cell : Cell) :
    sendmeRecordCellDigestOnCirc (circuitPackageRelayCell hash e cell)
      = if circuitSentCellForSendme e then { e with
          sendDigest := e.sendDigest ++ [cell]
          sendmeDigest := hash (e.sendDigest ++ [cell])
          sendmeLastDigests := e.sendmeLastDigests ++ [hash (e.sendDigest ++ [cell])]
          recorded := e.recorded ++ [(hash (e.sendDigest ++ [cell]), e.dataSent + 1)] }
        else { e with sendDigest := e.sendDigest ++ [cell] } := by
  rw [circuitPackageRelayCell_eq, sendmeRecordCellDigestOnCirc]
  by_cases h : circuitSentCellForSendme e = true
  · rw [if_pos h, if_pos h]
    exact if_pos h
  · rw [if_neg h, if_neg h]
    exact if_neg h

lemma sameReceiving_noteCircuitDataPackaged (e : Endpoint) :
    SameReceiving e (sendmeNoteCircuitDataPackaged e) := by
  simp only [sendmeNoteCircuitDataPackaged]
  split
  · next cc hcc => exact ⟨rfl, rfl, rfl, rfl, by simp [sendmeGetIncCount, hcc]⟩
  · next hcc => exact ⟨rfl, rfl, rfl, rfl, by simp [sendmeGetIncCount, hcc]⟩

lemma Room.noteCircuitDataPackaged (h : Room n e k)
    (hwindow : 0 < congestionControlGetPackageWindow e) :
    Room n (sendmeNoteCircuitDataPackaged e) k
      ∧ 0 ≤ congestionControlGetPackageWindow (sendmeNoteCircuitDataPackaged e) := by
  rw [Room] at h
  rw [congestionControlGetPackageWindow] at hwindow
  split at h
  · next hcc =>
      obtain ⟨hn, start, hdvd, hmax, hpw⟩ := h
      simp only [hcc] at hwindow
      simp only [sendmeNoteCircuitDataPackaged, Room, congestionControlGetPackageWindow, hcc]
      refine ⟨⟨hn, start, hdvd, hmax, ?_⟩, by omega⟩
      rw [hpw]
      push_cast
      ring
  · next cc hcc =>
      obtain ⟨hn, h2, h255, hinflight, hmax, hcwnd⟩ := h
      simp only [hcc] at hwindow
      have hwrap : (cc.inflight + 1) % 2 ^ 64 = cc.inflight + 1 := by
        rw [cwndMaxMax] at hmax
        omega
      simp only [sendmeNoteCircuitDataPackaged, Room, congestionControlGetPackageWindow, hcc, hwrap]
      refine ⟨⟨hn, h2, h255, by omega, by omega, hcwnd⟩, ?_⟩
      split_ifs <;> omega

lemma Sender.recordCellDigest (h : Sender hash n e k) (payload : Bytes) :
    ∃ e', sendmeRecordCellDigestOnCirc (circuitPackageRelayCell hash e (.data payload)) = e'
      ∧ e'.sendDigest = e.sendDigest ++ [.data payload] ∧ e'.dataSent = e.dataSent
      ∧ e'.recorded = everyNth n (dataDigests hash [] e'.sendDigest)
      ∧ e'.sendmeLastDigests = (e'.recorded.map Prod.fst).drop k ∧ k ≤ e'.recorded.length
      ∧ e'.ccontrol = e.ccontrol ∧ e'.packageWindow = e.packageWindow ∧ SameReceiving e e' := by
  have hsent := h.room.circuitSentCellForSendme
  have hdigests := dataDigests_concat_data hash e.sendDigest payload
  rw [sendmeRecordCellDigestOnCirc_package, hsent]
  by_cases hdue : (e.dataSent + 1) % n = 0
  · refine ⟨_, if_pos (decide_eq_true hdue), rfl, rfl, ?_, ?_, ?_, rfl, rfl,
      ⟨rfl, rfl, rfl, rfl, rfl⟩⟩
    · simp only
      rw [hdigests, everyNth_concat, ← h.sent, if_pos hdue, h.recorded]
    · simp only
      rw [map_append, drop_append_of_le_length (by
        rw [length_map]
        exact h.acked), h.waiting]
      rfl
    · simp only [length_append]
      have := h.acked
      omega
  · refine ⟨_, if_neg (by simpa using hdue), rfl, rfl, ?_, h.waiting, h.acked, rfl, rfl,
      ⟨rfl, rfl, rfl, rfl, rfl⟩⟩
    rw [hdigests, everyNth_concat, ← h.sent, if_neg hdue, append_nil, h.recorded]

lemma noteCircuitDataPackaged_sending (e : Endpoint) :
    (sendmeNoteCircuitDataPackaged e).sendDigest = e.sendDigest
      ∧ (sendmeNoteCircuitDataPackaged e).dataSent = e.dataSent + 1
      ∧ (sendmeNoteCircuitDataPackaged e).recorded = e.recorded
      ∧ (sendmeNoteCircuitDataPackaged e).sendmeLastDigests = e.sendmeLastDigests := by
  simp only [sendmeNoteCircuitDataPackaged]
  split <;> exact ⟨rfl, rfl, rfl, rfl⟩

/-- **A DATA cell is sent.** -/
lemma Sender.sendDataCell (h : Sender hash n e k)
    (hwindow : 0 < congestionControlGetPackageWindow e) (payload : Bytes) :
    ∃ e', sendDataCell hash e payload = some e' ∧ Sender hash n e' k ∧ SameReceiving e e'
      ∧ e'.sendDigest = e.sendDigest ++ [.data payload] := by
  obtain ⟨e₁, he₁, hdig, hdata, hrec, hlast, hk, hcc, hpw, hsame⟩ := h.recordCellDigest payload
  have hroom : Room n e₁ k := by
    have hroom := h.room
    rw [Room] at hroom ⊢
    rwa [hcc, hpw, hdata]
  have hwin : congestionControlGetPackageWindow e₁ = congestionControlGetPackageWindow e := by
    rw [congestionControlGetPackageWindow, congestionControlGetPackageWindow, hcc, hpw]
  obtain ⟨hroom', hwin'⟩ := hroom.noteCircuitDataPackaged (hwin ▸ hwindow)
  obtain ⟨hdig', hdata', hrec', hlast'⟩ := noteCircuitDataPackaged_sending e₁
  have hsame' := sameReceiving_noteCircuitDataPackaged e₁
  refine ⟨sendmeNoteCircuitDataPackaged e₁, ?_, ⟨?_, ?_, ?_, ?_, hroom'⟩, ⟨?_, ?_, ?_, ?_, ?_⟩, ?_⟩
  · rw [FlowControl.sendDataCell]
    simp only [he₁]
    rw [if_neg (by omega)]
  · rw [hdata', hdata, hdig', hdig, dataDigests_concat_data, length_append, h.sent]
    rfl
  · rw [hrec', hdig', hrec]
  · rw [hlast', hrec', hlast]
  · rw [hrec']
    exact hk
  · rw [hsame'.recvDigest, hsame.recvDigest]
  · rw [hsame'.dataReceived, hsame.dataReceived]
  · rw [hsame'.emitted, hsame.emitted]
  · rw [hsame'.deliverWindow, hsame.deliverWindow]
  · rw [hsame'.inc, hsame.inc]
  · rw [hdig', hdig]

lemma recognizeCell_eq (e : Endpoint) (cell : Cell) :
    recognizeCell hash e cell = { e with
      recvDigest := e.recvDigest ++ [cell]
      sendmeDigest := if circuitSendmeCellIsNext e.deliverWindow (sendmeGetIncCount e) then
        hash (e.recvDigest ++ [cell]) else e.sendmeDigest } := by
  rw [recognizeCell]
  by_cases h : circuitSendmeCellIsNext e.deliverWindow (sendmeGetIncCount e) = true
  · rw [if_pos h]
    exact if_pos h
  · rw [if_neg h]
    exact if_neg h

lemma considerSendingLoop_stop {hn : 0 < n} (h : circwindowStart - n < e.deliverWindow) :
    considerSendingLoop hash n hn e = (e, []) := by
  rw [considerSendingLoop, dif_neg (by omega)]

lemma considerSendingLoop_once {hn : 0 < n} (h : e.deliverWindow = circwindowStart - n) :
    considerSendingLoop hash n hn e = (circuitPackageRelayCell hash
          { e with deliverWindow := circwindowStart
                   emitted := e.emitted ++ [(e.sendmeDigest, e.dataReceived)] }
          (.sendme e.sendmeDigest), [.sendme e.sendmeDigest]) := by
  rw [considerSendingLoop, dif_pos (by omega)]
  simp only
  rw [h, Int.sub_add_cancel, considerSendingLoop_stop]
  rw [circuitPackageRelayCell_eq]
  simp only
  omega

lemma sendmeCircuitConsiderSending_eq (hn : 0 < n) (h : sendmeGetIncCount e = n) :
    sendmeCircuitConsiderSending hash e = considerSendingLoop hash n hn e := by
  subst h
  rfl

/-- **A DATA cell is received.**  If it is an n-th one, a SENDME goes back with its digest. -/
lemma Receiver.receiveData (h : Receiver hash n e) (hn : 0 < n ∧ n ≤ 255) (payload : Bytes)
    (cwnd : ℕ) :
    ∃ e' sent, receiveCell hash e (.data payload) cwnd = some (e', sent) ∧ Receiver hash n e'
      ∧ SameSending e e' sent ∧ e'.recvDigest = e.recvDigest ++ [.data payload]
      ∧ e'.emitted.map Prod.fst = e.emitted.map Prod.fst ++ sendmesIn sent := by
  have hdigests := dataDigests_concat_data hash e.recvDigest payload
  have hlt := Nat.mod_lt e.dataReceived hn.1
  have hreceived : e.dataReceived + 1
      = (dataDigests hash [] (e.recvDigest ++ [.data payload])).length := by
    rw [hdigests, length_append, h.received]
    rfl
  rw [receiveCell, recognizeCell_eq, h.circuitSendmeCellIsNext]
  simp only
  rw [h.deliver, if_neg (by rw [circwindowStart]; omega), sendmeCircuitConsiderSending_eq hn.1]
  swap
  · exact h.inc
  by_cases hdue : (e.dataReceived + 1) % n = 0
  · have hmod : e.dataReceived % n + 1 = n := by
      rcases Nat.lt_or_ge (e.dataReceived % n + 1) n with hlt' | hge
      · rw [← Nat.mod_add_mod, Nat.mod_eq_of_lt hlt'] at hdue
        omega
      · omega
    rw [considerSendingLoop_once (by simp only; omega), circuitPackageRelayCell_eq]
    refine ⟨_, _, rfl, ⟨hreceived, ?_, ?_, h.inc⟩, ⟨rfl, ?_, rfl, rfl, rfl, rfl, rfl⟩, rfl, ?_⟩
    · simp only [hdue, decide_true, if_true]
      rw [hdigests, everyNth_concat, ← h.received, if_pos hdue, h.emitted]
    · simp only [hdue]
      omega
    · simp
    · rw [map_append]
      rfl
  · have hmod : (e.dataReceived + 1) % n = e.dataReceived % n + 1 := by
      rcases Nat.lt_or_ge (e.dataReceived % n + 1) n with hlt' | hge
      · rw [← Nat.mod_add_mod, Nat.mod_eq_of_lt hlt']
      · have heq : e.dataReceived % n + 1 = n := by omega
        rw [← Nat.mod_add_mod, heq, Nat.mod_self] at hdue
        exact absurd rfl hdue
    have hlt' := Nat.mod_lt (e.dataReceived + 1) hn.1
    rw [considerSendingLoop_stop (by simp only; omega)]
    refine ⟨_, _, rfl, ⟨hreceived, ?_, ?_, h.inc⟩, ⟨(append_nil _).symm, ?_, rfl, rfl, rfl, rfl,
      rfl⟩, rfl, (append_nil _).symm⟩
    · simp only
      rw [hdigests, everyNth_concat, ← h.received, if_neg hdue, append_nil, h.emitted]
    · simp only [hmod]
      push_cast
      ring
    · simp

/-- **A SENDME is received** for the first digest that the end waits for. -/
lemma Sender.receiveSendme (h : Sender hash n e k) {digest : Bytes} {rest : List Bytes}
    (hhead : e.sendmeLastDigests = digest :: rest) (cwnd : ℕ) :
    ∃ e', receiveCell hash e (.sendme digest) cwnd = some (e', []) ∧ Sender hash n e' (k + 1)
      ∧ e'.sendDigest = e.sendDigest ∧ e'.recvDigest = e.recvDigest ++ [.sendme digest]
      ∧ e'.dataReceived = e.dataReceived ∧ e'.emitted = e.emitted
      ∧ e'.deliverWindow = e.deliverWindow ∧ sendmeGetIncCount e' = sendmeGetIncCount e := by
  have hwaiting := h.waiting
  have hacked : n * (k + 1) ≤ e.dataSent := by
    have hlen := congrArg List.length hwaiting
    rw [hhead, length_drop, length_map, length_cons, h.length_recorded] at hlen
    exact (Nat.mul_le_mul_left n (by omega)).trans (Nat.mul_div_le e.dataSent n)
  have hdrop : rest = (e.recorded.map Prod.fst).drop (k + 1) := by
    rw [← tail_drop, ← hwaiting, hhead, tail_cons]
  have hk : k + 1 ≤ e.recorded.length := by
    rw [h.length_recorded]
    exact (Nat.le_div_iff_mul_le h.room.pos).mpr (by rw [Nat.mul_comm]; exact hacked)
  have hroom := h.room
  rw [Room] at hroom
  rw [receiveCell, recognizeCell_eq]
  simp only [sendmeProcessCircuitLevel, sendmeIsValid, hhead]
  rw [if_neg (not_not.mpr rfl)]
  split at hroom
  · next hcc =>
      obtain ⟨hn, start, hdvd, hmax, hpw⟩ := hroom
      have hpw' : e.packageWindow + circwindowIncrement = start - e.dataSent + n * (k + 1 : ℕ) := by
        rw [hpw, ← hn]
        push_cast
        ring
      simp only [hcc]
      rw [if_neg (by omega)]
      refine ⟨_, rfl, ⟨h.sent, h.recorded, hdrop, hk, ?_⟩, rfl, rfl, rfl, rfl, rfl, ?_⟩
      · exact ⟨hn, start, hdvd, hmax, hpw'⟩
      · simp [sendmeGetIncCount, hcc]
  · next cc hcc =>
      obtain ⟨hn, h2, h255, hinflight, hmax, hcwnd⟩ := hroom
      rw [Nat.mul_add, Nat.mul_one] at hacked
      have hwrap : (cc.inflight + 2 ^ 64 - cc.sendmeInc) % 2 ^ 64 = cc.inflight - n := by
        rw [cwndMaxMax] at hmax
        omega
      simp only [hcc, hwrap]
      refine ⟨_, rfl, ⟨h.sent, h.recorded, hdrop, hk, ?_⟩, rfl, rfl, rfl, rfl, rfl, ?_⟩
      · refine ⟨hn, h2, h255, ?_, ?_, min_le_right _ _⟩
        · simp only [Nat.mul_add, Nat.mul_one]
          omega
        · simp only
          omega
      · simp [sendmeGetIncCount, hcc]

variable (hash) in
lemma receiveCell_other (e : Endpoint) (payload : Bytes) (cwnd : ℕ) :
    ∃ e', receiveCell hash e (.other payload) cwnd = some (e', []) ∧ SameSending e e' []
      ∧ e'.recvDigest = e.recvDigest ++ [.other payload] ∧ e'.dataReceived = e.dataReceived
      ∧ e'.emitted = e.emitted ∧ e'.deliverWindow = e.deliverWindow
      ∧ sendmeGetIncCount e' = sendmeGetIncCount e := by
  rw [receiveCell, recognizeCell_eq]
  exact ⟨_, rfl, ⟨(append_nil _).symm, by simp, rfl, rfl, rfl, rfl, rfl⟩, rfl, rfl, rfl, rfl, rfl⟩

/-! ## One direction -/

/-- DATA cells from `e` to `f`, with `there` on the link, and SENDMEs for them in `back`. -/
structure Flow (hash : List Cell → Bytes) (n : ℕ) (e f : Endpoint) (there back : List Cell)
    (k : ℕ) : Prop where
  sender : Sender hash n e k
  receiver : Receiver hash n f
  fifo : e.sendDigest = f.recvDigest ++ there
  due : sendmesIn back = (f.emitted.map Prod.fst).drop k
  acked : k ≤ f.emitted.length

lemma Flow.emitted_prefix (h : Flow hash n e f there back k) : f.emitted <+: e.recorded := by
  rw [h.receiver.emitted, h.sender.recorded, h.fifo, dataDigests_append]
  exact everyNth_prefix _ _

lemma Flow.agree (h : Flow hash n e f there back k) :
    f.emitted = e.recorded.filter (·.2 ≤ f.dataReceived) := by
  rw [h.receiver.received, h.receiver.emitted, h.sender.recorded, h.fifo, dataDigests_append]
  exact (filter_everyNth _ _).symm

lemma Flow.heads (h : Flow hash n e f there back k) :
    sendmesIn back <+: e.sendmeLastDigests := by
  rw [h.due, h.sender.waiting]
  exact (h.emitted_prefix.map Prod.fst).drop k

variable {e' f' : Endpoint} {back' sent : List Cell} {payload : Bytes}

lemma Flow.sendData (h : Flow hash n e f there back k) (hsender : Sender hash n e' k)
    (hdigest : e'.sendDigest = e.sendDigest ++ [.data payload]) :
    Flow hash n e' f (there ++ [.data payload]) back k :=
  ⟨hsender, h.receiver, by rw [hdigest, h.fifo, append_assoc], h.due, h.acked⟩

lemma Flow.sendOther (h : Flow hash n e f there back k) (hsame : SameSending e e' sent)
    (hback : sendmesIn back' = sendmesIn back) : Flow hash n e' f (there ++ sent) back' k :=
  ⟨h.sender.of_same hsame, h.receiver, by rw [hsame.sendDigest, h.fifo, append_assoc],
    by rw [hback, h.due], h.acked⟩

lemma Flow.receiveSendme {digest : Bytes}
    (h : Flow hash n e f there (.sendme digest :: back) k) (hsender : Sender hash n e' (k + 1))
    (hdigest : e'.sendDigest = e.sendDigest) : Flow hash n e' f there back (k + 1) := by
  have hdue : digest :: sendmesIn back = (f.emitted.map Prod.fst).drop k := h.due
  refine ⟨hsender, h.receiver, by rw [hdigest, h.fifo], ?_, ?_⟩
  · rw [← tail_drop, ← hdue, tail_cons]
  · have hlen := congrArg List.length hdue
    rw [length_drop, length_map, length_cons] at hlen
    omega

lemma Flow.same (h : Flow hash n e f there back k) (hsame : SameReceiving f f')
    (hback : sendmesIn back' = sendmesIn back) : Flow hash n e f' there back' k :=
  ⟨h.sender, h.receiver.of_same hsame, by rw [hsame.recvDigest, h.fifo],
    by rw [hback, hsame.emitted, h.due], by rw [hsame.emitted]; exact h.acked⟩

lemma Flow.receiveData (h : Flow hash n e f (.data payload :: there) back k)
    (hreceiver : Receiver hash n f') (hdigest : f'.recvDigest = f.recvDigest ++ [.data payload])
    (hemitted : f'.emitted.map Prod.fst = f.emitted.map Prod.fst ++ sendmesIn sent) :
    Flow hash n e f' there (back ++ sent) k := by
  have hlen := congrArg List.length hemitted
  rw [length_append, length_map, length_map] at hlen
  have hacked := h.acked
  refine ⟨h.sender, hreceiver, ?_, ?_, by omega⟩
  · rw [h.fifo, hdigest, append_assoc, singleton_append]
  · rw [sendmesIn_append, h.due, hemitted, drop_append_of_le_length (by
      rw [length_map]
      exact hacked)]

lemma Flow.receiveOther {cell : Cell} (h : Flow hash n e f (cell :: there) back k)
    (hcell : ∀ payload, cell ≠ .data payload) (hdigest : f'.recvDigest = f.recvDigest ++ [cell])
    (hreceived : f'.dataReceived = f.dataReceived) (hemitted : f'.emitted = f.emitted)
    (hdeliver : f'.deliverWindow = f.deliverWindow)
    (hinc : sendmeGetIncCount f' = sendmeGetIncCount f) :
    Flow hash n e f' there back k := by
  have hdigests : dataDigests hash [] f'.recvDigest = dataDigests hash [] f.recvDigest := by
    rw [hdigest, dataDigests_append, dataDigests_noData [cell] _ (by simpa using hcell), append_nil]
  refine ⟨h.sender, ⟨?_, ?_, ?_, ?_⟩, ?_, ?_, ?_⟩
  · rw [hreceived, hdigests, h.receiver.received]
  · rw [hemitted, hdigests, h.receiver.emitted]
  · rw [hdeliver, hreceived, h.receiver.deliver]
  · rw [hinc, h.receiver.inc]
  · rw [h.fifo, hdigest, append_assoc, singleton_append]
  · rw [hemitted, h.due]
  · rw [hemitted]
    exact h.acked

/-! ## Both directions -/

@[simp] lemma Side.other_other (x : Side) : x.other.other = x := by
  cases x <;> rfl

lemma Side.other_ne (x : Side) : x.other ≠ x := by
  cases x <;> simp [Side.other]

lemma Side.eq_or_eq_other (x y : Side) : y = x ∨ y = x.other := by
  cases x <;> cases y <;> simp [Side.other]

/-- **The invariant**, with the number of SENDMEs that each end has had. -/
structure Synced (hash : List Cell → Bytes) (n : ℕ) (k : Side → ℕ) (s : Link) : Prop where
  opened : s.closed = false
  flow : ∀ x, Flow hash n (s.endpoint x) (s.endpoint x.other) (s.cells x) (s.cells x.other) (k x)

/-- What two honest ends may rely on. -/
structure InSync (s : Link) : Prop where
  /-- No SENDME was rejected. -/
  opened : s.closed = false
  /-- An end has sent SENDMEs for exactly those of the recorded cells that have reached it, with
  the digests that were recorded. -/
  agree : ∀ x, (s.endpoint x.other).emitted
    = (s.endpoint x).recorded.filter (·.2 ≤ (s.endpoint x.other).dataReceived)
  /-- The SENDMEs on their way to an end carry the first of the digests it waits for. -/
  heads : ∀ x, sendmesIn (s.cells x.other) <+: (s.endpoint x).sendmeLastDigests

lemma Synced.inSync {k : Side → ℕ} {s : Link} (h : Synced hash n k s) : InSync s :=
  ⟨h.opened, fun x => (h.flow x).agree, fun x => (h.flow x).heads⟩

lemma synced_of_event {k' : Side → ℕ} {s t : Link} {x : Side}
    (hendpoint : t.endpoint = update s.endpoint x e') (hclosed : t.closed = false)
    (hout : Flow hash n e' (s.endpoint x.other) (t.cells x) (t.cells x.other) (k' x))
    (hin : Flow hash n (s.endpoint x.other) e' (t.cells x.other) (t.cells x) (k' x.other)) :
    Synced hash n k' t := by
  refine ⟨hclosed, fun y => ?_⟩
  rcases x.eq_or_eq_other y with rfl | rfl
  · rw [hendpoint, update_self, update_of_ne y.other_ne]
    exact hout
  · rw [hendpoint, x.other_other, update_self, update_of_ne x.other_ne]
    exact hin

lemma Flow.inc_bounds (h : Flow hash n e f there back k) : 0 < n ∧ n ≤ 255 := by
  have hroom := h.sender.room
  refine ⟨hroom.pos, ?_⟩
  rw [Room] at hroom
  split at hroom
  · rw [hroom.1, circwindowIncrement]
    omega
  · omega

/-- **Every event keeps the invariant.** -/
theorem Synced.step {k : Side → ℕ} {s t : Link} (h : Synced hash n k s) {event : Event}
    (hstep : Link.step hash s event = some t) : ∃ k', Synced hash n k' t := by
  cases event with
  | sendData x payload =>
    simp only [Link.step, h.opened, Bool.false_eq_true, if_false] at hstep
    split_ifs at hstep with hwindow
    obtain ⟨e', he', hsender, hsame, hdigest⟩ :=
      (h.flow x).sender.sendDataCell (not_le.mp hwindow) payload
    rw [he'] at hstep
    obtain rfl := Option.some.inj hstep
    refine ⟨k, synced_of_event rfl rfl ?_ ?_⟩
    · simp only [update_self, update_of_ne x.other_ne]
      exact (h.flow x).sendData hsender hdigest
    · simp only [update_self, update_of_ne x.other_ne]
      have hflow := h.flow x.other
      rw [x.other_other] at hflow
      exact hflow.same hsame (by rw [sendmesIn_append]; exact append_nil _)
  | sendOther x payload =>
    simp only [Link.step, h.opened, Bool.false_eq_true, if_false] at hstep
    obtain rfl := Option.some.inj hstep
    refine ⟨k, synced_of_event rfl rfl ?_ ?_⟩
    · simp only [update_self, update_of_ne x.other_ne]
      exact (h.flow x).sendOther (sameSending_package _ (by simp)) rfl
    · simp only [update_self, update_of_ne x.other_ne]
      have hflow := h.flow x.other
      rw [x.other_other] at hflow
      exact hflow.same (sameReceiving_package _ _)
        (by rw [sendmesIn_append]; exact append_nil _)
  | receive x cwnd =>
    simp only [Link.step, h.opened, Bool.false_eq_true, if_false] at hstep
    have hout := h.flow x
    have hin := h.flow x.other
    rw [x.other_other] at hin
    split at hstep
    · cases hstep
    · next cell rest hcells =>
        rw [hcells] at hout hin
        have hcell : ∀ e' sent, receiveCell hash (s.endpoint x) cell cwnd = some (e', sent) →
            t = { endpoint := update s.endpoint x e'
                  cells := update (update s.cells x.other rest) x
                    (s.cells x ++ sent)
                  closed := false } := by
          intro e' sent hreceive
          rw [hreceive] at hstep
          exact (Option.some.inj hstep).symm
        cases cell with
        | data payload =>
          obtain ⟨e', sent, hreceive, hreceiver, hsame, hdigest, hemitted⟩ :=
            hin.receiver.receiveData hin.inc_bounds payload cwnd
          obtain rfl := hcell e' sent hreceive
          refine ⟨k, synced_of_event rfl rfl ?_ ?_⟩
          · simp only [update_self, update_of_ne x.other_ne]
            exact hout.sendOther hsame rfl
          · simp only [update_self, update_of_ne x.other_ne]
            exact hin.receiveData hreceiver hdigest hemitted
        | sendme digest =>
          obtain ⟨tail, htail⟩ := hout.heads
          obtain ⟨e', hreceive, hsender, hsend, hdigest, hreceived, hemitted, hdeliver, hinc⟩ :=
            hout.sender.receiveSendme htail.symm cwnd
          obtain rfl := hcell e' [] hreceive
          refine ⟨update k x (k x + 1), synced_of_event rfl rfl ?_ ?_⟩
          · simp only [update_self, update_of_ne x.other_ne, append_nil]
            exact hout.receiveSendme hsender hsend
          · simp only [update_self, update_of_ne x.other_ne, append_nil]
            exact hin.receiveOther (by simp) hdigest hreceived hemitted hdeliver hinc
        | other payload =>
          obtain ⟨e', hreceive, hsame, hdigest, hreceived, hemitted, hdeliver, hinc⟩ :=
            receiveCell_other hash (s.endpoint x) payload cwnd
          obtain rfl := hcell e' [] hreceive
          refine ⟨k, synced_of_event rfl rfl ?_ ?_⟩
          · simp only [update_self, update_of_ne x.other_ne]
            exact hout.sendOther hsame rfl
          · simp only [update_self, update_of_ne x.other_ne, append_nil]
            exact hin.receiveOther (by simp) hdigest hreceived hemitted hdeliver hinc

/-- The modes in which the two predictions count from the same cell. -/
def FlowControlMode.Aligned : FlowControlMode → Prop
  | .fixed window _ => ∀ x, (circwindowIncrement : ℤ) ∣ window x
  | .congestionControl sendmeInc .. => sendmeInc ≠ 1

/-- The increment of a mode. -/
def FlowControlMode.inc : FlowControlMode → ℕ
  | .fixed .. => circwindowIncrement
  | .congestionControl sendmeInc .. => sendmeInc

lemma Receiver.init (hash : List Cell → Bytes) (mode : FlowControlMode) (x : Side) :
    Receiver hash mode.inc (Endpoint.init mode x) := by
  refine ⟨rfl, rfl, ?_, ?_⟩
  · simp [Endpoint.init]
  · cases mode <;> rfl

lemma Synced.init {mode : FlowControlMode} (h : mode.Aligned) :
    Synced hash mode.inc (fun _ => 0) (Link.init mode) := by
  refine ⟨rfl, fun x => ⟨⟨rfl, rfl, rfl, le_rfl, ?_⟩, Receiver.init hash mode _, rfl, rfl, le_rfl⟩⟩
  cases mode with
  | fixed window hwindow =>
    refine ⟨rfl, window x, h x, (hwindow x).2, ?_⟩
    simp [Link.init, Endpoint.init]
  | congestionControl sendmeInc hinc cwnd hcwnd =>
    have hne : sendmeInc ≠ 1 := h
    refine ⟨rfl, ?_, hinc.2, rfl, Nat.zero_le _, (hcwnd x).2.trans (by decide)⟩
    simp only [FlowControlMode.inc]
    omega

/-! ## Runs that go wrong -/

variable {s : Link} {x : Side}

variable (hash) in
lemma step_receiveData {rest : List Cell} (hclosed : s.closed = false) (hn : 0 < n ∧ n ≤ 255)
    (hcells : s.cells x = .data payload :: rest)
    (hreceiver : Receiver hash n (s.endpoint x.other)) :
    ∃ t, Link.step hash s (.receive x.other 0) = some t ∧ t.closed = false
      ∧ t.endpoint x = s.endpoint x ∧ t.cells x = rest
      ∧ Receiver hash n (t.endpoint x.other)
      ∧ (t.endpoint x.other).dataReceived = (s.endpoint x.other).dataReceived + 1 := by
  obtain ⟨e', sent, hreceive, hreceiver', -, hdigest, -⟩ := hreceiver.receiveData hn payload 0
  refine ⟨{ endpoint := update s.endpoint x.other e'
            cells := update (update s.cells x rest) x.other
              (s.cells x.other ++ sent)
            closed := false }, ?_, rfl, ?_, ?_, ?_, ?_⟩
  · simp only [Link.step, hclosed, Bool.false_eq_true, if_false, x.other_other, hcells, hreceive]
  · exact update_of_ne x.other_ne.symm _ _
  · simp only
    rw [update_of_ne x.other_ne.symm, update_self]
  · simp only [update_self]
    exact hreceiver'
  · simp only [update_self]
    rw [hreceiver'.received, hdigest, dataDigests_concat_data, length_append, hreceiver.received]
    rfl

lemma step_sendData (hclosed : s.closed = false)
    (hwindow : 0 < congestionControlGetPackageWindow (s.endpoint x))
    (hsend : sendDataCell hash (s.endpoint x) payload = some e') :
    ∃ t, Link.step hash s (.sendData x payload) = some t ∧ t.closed = false ∧ t.endpoint x = e'
      ∧ t.endpoint x.other = s.endpoint x.other
      ∧ t.cells x = s.cells x ++ [.data payload] := by
  refine ⟨{ endpoint := update s.endpoint x e'
            cells := update s.cells x (s.cells x ++ [.data payload])
            closed := false }, ?_, rfl, update_self .., update_of_ne x.other_ne ..,
            update_self ..⟩
  simp only [Link.step, hclosed, Bool.false_eq_true, if_false, if_neg (not_le.mpr hwindow), hsend]

lemma run_receiveData (hn : 0 < n ∧ n ≤ 255) : ∀ (m : ℕ) {s : Link}, s.closed = false →
    s.cells x = List.replicate m (.data []) → Receiver hash n (s.endpoint x.other) →
    ∃ t, Reaches (Link.step hash) s (List.replicate m (.receive x.other 0)) t
      ∧ t.endpoint x = s.endpoint x ∧ Receiver hash n (t.endpoint x.other)
      ∧ (t.endpoint x.other).dataReceived = (s.endpoint x.other).dataReceived + m
  | 0, s, _, _, hreceiver => ⟨s, reaches_nil.mpr rfl, rfl, hreceiver, rfl⟩
  | m + 1, s, hclosed, hcells, hreceiver => by
      obtain ⟨u, hu, hclosed', hend, hcells', hreceiver', hreceived⟩ :=
        step_receiveData hash hclosed hn hcells hreceiver
      obtain ⟨t, ht, hend', hreceiver'', hreceived'⟩ :=
        run_receiveData hn m hclosed' hcells' hreceiver'
      refine ⟨t, reaches_cons.mpr ⟨u, hu, ht⟩, hend'.trans hend, hreceiver'', ?_⟩
      omega

variable (hash) in
lemma sendDataCell_fixed (hcc : e.ccontrol = none) (hwindow : 0 < e.packageWindow)
    (payload : Bytes) :
    ∃ e', sendDataCell hash e payload = some e' ∧ e'.ccontrol = none
      ∧ e'.packageWindow = e.packageWindow - 1 ∧ e'.dataSent = e.dataSent + 1
      ∧ (circuitSentCellForSendme e = true → ∃ digest, (digest, e.dataSent + 1) ∈ e'.recorded) := by
  rw [sendDataCell]
  simp only [sendmeRecordCellDigestOnCirc_package, sendmeNoteCircuitDataPackaged]
  by_cases hsent : circuitSentCellForSendme e = true
  · simp only [hsent, if_true, hcc]
    refine ⟨_, if_neg ?_, rfl, rfl, rfl, fun _ => ⟨_, mem_append_right _
      (mem_singleton.mpr rfl)⟩⟩
    simp only [congestionControlGetPackageWindow]
    omega
  · simp only [hsent, Bool.false_eq_true, if_false, hcc]
    refine ⟨_, if_neg ?_, rfl, rfl, rfl, fun h => absurd h (by simp)⟩
    simp only [congestionControlGetPackageWindow]
    omega

variable (hash) in
/-- An end with a fixed window sends a number of DATA cells.  It records the last one when the
window is then a multiple of the increment. -/
lemma run_sendData (window : Side → ℤ)
    (h : ∀ x, circwindowStartMin ≤ window x ∧ window x ≤ circwindowStartMax) (x : Side) :
    ∀ m : ℕ, m ≤ window x →
      ∃ t, Reaches (Link.step hash) (Link.init (.fixed window h)) (List.replicate m (.sendData x [])) t
        ∧ t.closed = false ∧ t.cells x = List.replicate m (.data [])
        ∧ t.endpoint x.other = Endpoint.init (.fixed window h) x.other
        ∧ (t.endpoint x).ccontrol = none ∧ (t.endpoint x).packageWindow = window x - m
        ∧ (t.endpoint x).dataSent = m
        ∧ (0 < m → (window x - m) % circwindowIncrement = 0 →
          ∃ digest, (digest, m) ∈ (t.endpoint x).recorded)
  | 0, _ => ⟨_, reaches_nil.mpr rfl, rfl, rfl, rfl, rfl, (sub_zero _).symm, rfl, by simp⟩
  | m + 1, hm => by
      obtain ⟨s, hs, hclosed, hcells, hother, hcc, hwindow, hdata, -⟩ :=
        run_sendData window h x m (by push_cast at hm; omega)
      have hpos : 0 < (s.endpoint x).packageWindow := by
        rw [hwindow]
        omega
      obtain ⟨e', hsend, hcc', hwindow', hdata', hrec⟩ := sendDataCell_fixed hash hcc hpos []
      obtain ⟨t, ht, hclosed', hend, hother', hcells'⟩ := step_sendData hclosed
        (by rw [congestionControlGetPackageWindow, hcc]; exact hpos) hsend
      refine ⟨t, ?_, hclosed', ?_, hother'.trans hother, ?_, ?_, ?_, ?_⟩
      · rw [replicate_succ', reaches_snoc]
        exact ⟨s, hs, ht⟩
      · rw [hcells', hcells, ← replicate_succ']
      · rw [hend, hcc']
      · rw [hend, hwindow', hwindow]
        push_cast
        ring
      · rw [hend, hdata', hdata]
      · intro _ hmod
        rw [hend, ← hdata]
        refine hrec ?_
        have hmax := (h x).2
        simp only [circwindowIncrement, circwindowStartMax] at hmod hmax
        have hne : (s.endpoint x).packageWindow ≠ circwindowStart := by
          rw [hwindow, circwindowStart]
          omega
        have hmod' : ((s.endpoint x).packageWindow - 1) % circwindowIncrement = 0 := by
          rw [hwindow, circwindowIncrement]
          omega
        rw [circuitSentCellForSendme, hcc]
        rw [if_neg hne, if_neg (not_not.mpr hmod')]

/-- A fixed window that is no multiple of the increment: the sender records the first cell after
which it is one, and the receiver answers none of the first 99. -/
lemma not_inSync_fixed (window : Side → ℤ)
    (h : ∀ x, circwindowStartMin ≤ window x ∧ window x ≤ circwindowStartMax) (x : Side)
    (hx : ¬ (circwindowIncrement : ℤ) ∣ window x) :
    ∃ es t, Reaches (Link.step hash) (Link.init (.fixed window h)) es t ∧ ¬ InSync t := by
  have hmod : 0 < window x % 100 := by
    rw [circwindowIncrement] at hx
    omega
  have hmin := (h x).1
  rw [circwindowStartMin] at hmin
  obtain ⟨m, hm⟩ := Int.eq_ofNat_of_zero_le hmod.le
  obtain ⟨s, hs, hclosed, hcells, hother, -, -, -, hrec⟩ :=
    run_sendData hash window h x m (by omega)
  have hreceiver : Receiver hash circwindowIncrement (s.endpoint x.other) := by
    rw [hother]
    exact Receiver.init hash (.fixed window h) x.other
  obtain ⟨t, ht, hend, hreceiver', hreceived⟩ := run_receiveData (by decide) m hclosed hcells
    hreceiver
  refine ⟨_, t, reaches_append.mpr ⟨s, hs, ht⟩, fun hsync => ?_⟩
  obtain ⟨digest, hmem⟩ := hrec (by omega) (by rw [circwindowIncrement]; omega)
  have hzero : (s.endpoint x.other).dataReceived = 0 := by
    rw [hother]
    rfl
  have hempty : (t.endpoint x.other).emitted = [] := by
    refine eq_nil_of_length_eq_zero ?_
    rw [hreceiver'.emitted, length_everyNth, ← hreceiver'.received, hreceived, hzero,
      circwindowIncrement]
    omega
  have hagree := hsync.agree x
  rw [hempty, hend] at hagree
  have hnone := filter_eq_nil_iff.mp hagree.symm (digest, m) hmem
  rw [hreceived, hzero] at hnone
  simp at hnone

/-- An increment of one cell: the sender records no cell that it sends with nothing in flight, and
the receiver answers each. -/
lemma not_inSync_one {hinc : 0 < 1 ∧ 1 ≤ 255} (cwnd : Side → ℕ)
    (hcwnd : ∀ x, cwndInitMin ≤ cwnd x ∧ cwnd x ≤ cwndInitMax) :
    ∃ es t, Reaches (Link.step hash) (Link.init (.congestionControl 1 hinc cwnd hcwnd)) es t
      ∧ ¬ InSync t := by
  have hmin := (hcwnd .client).1
  rw [cwndInitMin] at hmin
  have hwindow : 0 < congestionControlGetPackageWindow
      (Endpoint.init (.congestionControl 1 hinc cwnd hcwnd) .client) := by
    simp only [congestionControlGetPackageWindow, Endpoint.init]
    split_ifs <;> omega
  obtain ⟨e', hsend, hrecorded⟩ : ∃ e', sendDataCell hash
      (Endpoint.init (.congestionControl 1 hinc cwnd hcwnd) .client) [] = some e'
      ∧ e'.recorded = [] := by
    rw [sendDataCell]
    simp only [sendmeRecordCellDigestOnCirc_package, sendmeNoteCircuitDataPackaged]
    refine ⟨_, if_neg ?_, rfl⟩
    simp only [congestionControlGetPackageWindow, Endpoint.init, circuitSentCellForSendme,
      if_true, Bool.false_eq_true, if_false]
    split_ifs <;> omega
  obtain ⟨s, hs, hclosed, hend, hother, hcells⟩ := step_sendData
    (s := Link.init (.congestionControl 1 hinc cwnd hcwnd)) (x := .client) rfl hwindow hsend
  obtain ⟨t, ht, -, hend', -, hreceiver, hreceived⟩ := step_receiveData hash (n := 1)
    hclosed hinc hcells
    (by rw [hother]; exact Receiver.init hash (.congestionControl 1 hinc cwnd hcwnd) _)
  refine ⟨[.sendData .client [], .receive .exit 0], t,
    reaches_cons.mpr ⟨s, hs, reaches_cons.mpr ⟨t, ht, reaches_nil.mpr rfl⟩⟩, fun hsync => ?_⟩
  have hagree := congrArg List.length (hsync.agree .client)
  rw [hend', hend, hrecorded, hreceiver.emitted, length_everyNth, ← hreceiver.received, hreceived,
    hother] at hagree
  simp [Link.init, Endpoint.init] at hagree

/-- **The two ends stay in step in every run exactly when the mode is aligned.** -/
theorem sendme_inSync_iff (hash : List Cell → Bytes) (mode : FlowControlMode) :
    (∀ es t, Reaches (Link.step hash) (Link.init mode) es t → InSync t) ↔ mode.Aligned := by
  constructor
  · intro hall
    by_contra hno
    obtain ⟨es, t, ht, hsync⟩ : ∃ es t, Reaches (Link.step hash) (Link.init mode) es t
        ∧ ¬ InSync t := by
      cases mode with
      | fixed window h =>
        obtain ⟨x, hx⟩ := not_forall.mp hno
        exact not_inSync_fixed window h x hx
      | congestionControl sendmeInc h cwnd hcwnd =>
        obtain rfl : sendmeInc = 1 := not_not.mp hno
        exact not_inSync_one cwnd hcwnd
    exact hsync (hall es t ht)
  · intro h es t ht
    have hkeep : ∃ k, Synced hash mode.inc k t :=
      invariant_of_reaches (I := fun s => ∃ k, Synced hash mode.inc k s)
        (fun _ _ _ ⟨_, hs⟩ hstep => hs.step hstep) ⟨_, Synced.init h⟩ ht
    obtain ⟨k, hk⟩ := hkeep
    exact hk.inSync

/-- Congestion control with an increment of one cell. -/
def oneCellMode : FlowControlMode :=
  .congestionControl 1 (by decide) (fun _ => 31) fun _ => by decide

/-- The SENDME for the first DATA cell finds no digest, and the circuit is closed. -/
theorem sendme_one_rejected :
    ∃ t, Reaches (Link.step fun cells => [UInt8.ofNat cells.length]) (Link.init oneCellMode)
        [.sendData .client [], .receive .exit 0, .receive .client 31] t
      ∧ t.closed = true ∧ ¬ InSync t := by
  have hrun : (([.sendData .client [], .receive .exit 0, .receive .client 31] :
      List Event).foldlM (Link.step fun cells => [UInt8.ofNat cells.length])
      (Link.init oneCellMode)).map Link.closed = some true := by
    decide +kernel
  obtain ⟨t, ht, hclosed⟩ := Option.map_eq_some_iff.mp hrun
  exact ⟨t, ht, hclosed, fun h => by rw [h.opened] at hclosed; cases hclosed⟩

end Ator.FlowControl
