import AtorProtocol.Socks.Message
import AtorProtocol.Lib.Run

/-!
# The handshake of a SOCKS connection

`src/core/proto/proto_socks.c` and `src/lib/buf/buffers.c`.  What has arrived lies in the chunks of a
buffer, and a message is parsed in the first of them.

* `bufPullup`, `bufDrain`, `bufAppend` — the buffer.
* `fetchFromBufSocks` — the messages that have arrived.
* `SocksConn.step` — bytes arrive, and the reply is flushed.
* `SocksConn.observed` — what the client and the rest of the program see of it.
-/

namespace Ator.Socks

open List

/-! ## Buffers -/

/-- The data of each chunk of a `buf_t`. -/
abbrev Buf := List (List UInt8)

/-- The loop of `buf_pullup`: fill `dest` up to `bytes` from the chunks after it. -/
def pullInto (bytes : ℕ) (dest : List UInt8) : Buf → Buf
  | [] => [dest]
  | src :: rest =>
    if bytes ≤ dest.length then dest :: src :: rest
    else if src.length ≤ bytes - dest.length then pullInto bytes (dest ++ src) rest
    else (dest ++ src.take (bytes - dest.length)) :: src.drop (bytes - dest.length) :: rest

def bufPullup (bytes : ℕ) : Buf → Buf
  | [] => []
  | head :: rest => pullInto (min bytes (head :: rest).flatten.length) head rest

def bufDrain : Buf → ℕ → Buf
  | [], _ => []
  | head :: rest, n =>
    if n = 0 then head :: rest
    else if n < head.length then head.drop n :: rest
    else bufDrain rest (n - head.length)

/-- Bytes that arrive: some go to the chunk at the end, the others to new chunks. -/
structure Arrival where
  toTail : List UInt8
  chunks : Buf

def Arrival.bytes (arrival : Arrival) : List UInt8 := arrival.toTail ++ arrival.chunks.flatten

/-- The buffer when they have arrived. -/
def bufAppend (arrival : Arrival) : Buf → Buf
  | [] => arrival.toTail :: arrival.chunks
  | [tail] => (tail ++ arrival.toTail) :: arrival.chunks
  | head :: next :: rest => head :: bufAppend arrival (next :: rest)

/-! ## Fetching -/

/-- What `fetch_from_buf_socks` returns: 0, 1 or -1. -/
inductive Status where
  | waiting
  | accepted
  | rejected
  deriving DecidableEq

/-- What a call leaves: the value returned, the request, the bytes of `req->reply`, and the buffer. -/
structure Fetched where
  status : Status
  req : SocksRequest
  reply : List UInt8
  buf : Buf
  deriving DecidableEq

/-- The bytes of `req->reply` after a message that may have written some. -/
def replyAfter (reply : List UInt8) (handled : Handled) : List UInt8 :=
  if handled.reply = [] then reply else handled.reply

/-- The chunk in which the next message is parsed, when it is pulled up. -/
def pulled (buf : Buf) : Buf := bufPullup (min maxSocksMessageLen buf.flatten.length) buf

/-- The loop of `fetch_from_buf_socks`; `none` where it takes more than `fuel` rounds. -/
def fetchLoop (env : SocksEnv) : ℕ → Buf → SocksRequest → List UInt8 → Option Fetched
  | 0, _, _, _ => none
  | fuel + 1, buf, req, reply =>
    let nPullup := min maxSocksMessageLen buf.flatten.length
    let buf := pulled buf
    let data := buf.headD []
    let handled := parseSocks env req data
    let reply := replyAfter reply handled
    match handled.res with
    | .invalid => some ⟨.rejected, handled.req, reply, []⟩
    | .done => some ⟨.accepted, handled.req, reply, bufDrain buf handled.drainOut⟩
    | .truncated =>
      if data.length = nPullup then some ⟨.waiting, handled.req, reply, buf⟩
      else if 2 ≤ buf.flatten.length then fetchLoop env fuel buf handled.req reply
      else some ⟨.waiting, handled.req, reply, buf⟩
    | .moreExpected =>
      let buf := bufDrain buf handled.drainOut
      if 2 ≤ buf.flatten.length then fetchLoop env fuel buf handled.req reply
      else some ⟨.waiting, handled.req, reply, buf⟩

def fetchFromBufSocks (env : SocksEnv) (buf : Buf) (req : SocksRequest) : Option Fetched :=
  if buf.flatten.length < 2 then some ⟨.waiting, req, [], buf⟩
  else fetchLoop env (buf.flatten.length + 1) buf req []

/-! ## Connections -/

/-- A connection in its handshake or after it, with the replies flushed.  All that has arrived is kept
for the reader; no function reads it. -/
structure SocksConn where
  status : Status
  req : SocksRequest
  inbuf : Buf
  sent : List UInt8
  arrived : List UInt8
  deriving DecidableEq

namespace SocksConn

/-- A new connection. -/
def init (socksPreferNoAuth : Bool) : SocksConn := ⟨.waiting, .new socksPreferNoAuth, [], [], []⟩

/-- Bytes arrive, and while the handshake waits for them `connection_ap_handshake_process_socks`
fetches what there is and flushes the reply.  A connection that is rejected is closed. -/
def step (env : SocksEnv) (conn : SocksConn) (arrival : Arrival) : Option SocksConn :=
  let arrived := conn.arrived ++ arrival.bytes
  match conn.status with
  | .waiting =>
    (fetchFromBufSocks env (bufAppend arrival conn.inbuf) conn.req).map fun fetched =>
      { status := fetched.status
        req := fetched.req
        inbuf := fetched.buf
        sent := conn.sent ++ fetched.reply
        arrived := arrived }
  | .accepted =>
    some { conn with inbuf := bufAppend arrival conn.inbuf, arrived := arrived }
  | .rejected => some { conn with arrived := arrived }

/-- The outcome, the request of a handshake that is accepted, the bytes not consumed, and the
replies. -/
def observed (conn : SocksConn) : Status × Option SocksRequest × List UInt8 × List UInt8 :=
  (conn.status, if conn.status = .accepted then some conn.req else none, conn.inbuf.flatten,
    conn.sent)

/-- Each byte arrives alone, in one chunk. -/
def oneByOne (bytes : List UInt8) : List Arrival := bytes.map fun byte => ⟨[byte], []⟩

end SocksConn

/-! ## The condition -/

/-- The request of a SOCKS4 message. -/
def socks4Request (req : SocksRequest) (msg : Socks4ClientRequest) : SocksRequest :=
  let req := { req with socksVersion := 4, command := msg.command, port := msg.port }
  let req := if msg.username = [] then req
    else { req with gotAuth := true, username := some msg.username }
  if msg.addr >>> 8 = 0 then
    let address := match msg.hostname with
      | some hostname => .hostname (hostname.take (maxSocksAddrLen - 1))
      | none => req.address
    { req with address := address }
  else { req with address := .ipv4 msg.addr }

/-- A SOCKS4 message passes all checks but that of the length of its host name. -/
def acceptsSocks4 (env : SocksEnv) (req : SocksRequest) (msg : Socks4ClientRequest) : Prop :=
  ¬ ((msg.port = 0 ∧ msg.command ≠ commandResolve) ∨ msg.addr = 0)
    ∧ msg.username.length ≤ maxSocksMessageLen
    ∧ processSocks4Request env (socks4Request req msg) (decide (msg.addr >>> 8 = 0)) = .done

/-- The host name of a SOCKS4a message fits, if it reaches up to `len`. -/
def hostnameFits (msg : Socks4ClientRequest) (len : ℕ) : Prop :=
  msg.addr >>> 8 = 0 → len - (socks4NetworkLen + msg.username.length + 1) ≤ maxSocksAddrLen

/-- The chunk holds what decides about the message: a SOCKS4 message that passes the other checks has
a host name that fits up to the end of the chunk exactly if it fits and the message is not too long,
and a user name and password that have arrived are in the chunk. -/
structure CleanMessage (env : SocksEnv) (req : SocksRequest) (arrived chunk : List UInt8) : Prop where
  socks4 : ∀ msg rest, socks4ClientRequestParse chunk = .done msg rest → acceptsSocks4 env req msg →
    (hostnameFits msg chunk.length ↔ hostnameFits msg (chunk.length - rest.length)
      ∧ chunk.length - rest.length ≤ maxSocksMessageLen)
  userpass : req.gotAuth = false → ∀ msg rest, socks5ClientUserpassAuthParse arrived = .done msg rest →
    arrived.length - rest.length ≤ chunk.length

/-- Each message of a call is clean, and no reply is written while another is not yet flushed. -/
def CleanLoop (env : SocksEnv) : ℕ → Buf → SocksRequest → List UInt8 → Prop
  | 0, _, _, _ => True
  | fuel + 1, buf, req, reply =>
    let buf := pulled buf
    let handled := parseSocks env req (buf.headD [])
    let rest := bufDrain buf handled.drainOut
    CleanMessage env req buf.flatten (buf.headD []) ∧ (reply = [] ∨ handled.reply = [])
      ∧ (handled.res = .moreExpected → 2 ≤ rest.flatten.length →
        CleanLoop env fuel rest handled.req (replyAfter reply handled))

/-- What arrives while the handshake waits is clean. -/
def SocksConn.Clean (env : SocksEnv) (conn : SocksConn) (arrival : Arrival) : Prop :=
  let buf := bufAppend arrival conn.inbuf
  conn.status = .waiting → 2 ≤ buf.flatten.length →
    CleanLoop env (buf.flatten.length + 1) buf conn.req []

/-! ## What the buffer keeps -/

lemma flatten_pullInto (bytes : ℕ) (dest : List UInt8) (rest : Buf) :
    (pullInto bytes dest rest).flatten = dest ++ rest.flatten := by
  fun_induction pullInto bytes dest rest with
  | case1 dest => rfl
  | case2 dest src rest h => simp
  | case3 dest src rest h h' ih => rw [ih, flatten_cons, append_assoc]
  | case4 dest src rest h h' =>
    rw [flatten_cons, flatten_cons, flatten_cons, append_assoc,
      ← append_assoc (src.take _), take_append_drop]

lemma flatten_bufPullup (bytes : ℕ) (buf : Buf) : (bufPullup bytes buf).flatten = buf.flatten := by
  cases buf with
  | nil => rfl
  | cons head rest => exact flatten_pullInto _ head rest

@[simp] lemma flatten_pulled (buf : Buf) : (pulled buf).flatten = buf.flatten :=
  flatten_bufPullup _ buf

lemma le_length_head_pullInto (bytes : ℕ) (dest : List UInt8) (rest : Buf)
    (h : bytes ≤ (dest ++ rest.flatten).length) :
    bytes ≤ ((pullInto bytes dest rest).headD []).length := by
  fun_induction pullInto bytes dest rest with
  | case1 dest => simpa using h
  | case2 dest src rest hle => simpa using hle
  | case3 dest src rest h' hle ih =>
    refine ih ?_
    rwa [append_assoc, ← flatten_cons]
  | case4 dest src rest h' hle =>
    simp only [headD_cons, length_append, List.length_take]
    omega

lemma exists_head_pulled (buf : Buf) : ∃ d, (pulled buf).headD [] = buf.flatten.take d
    ∧ min maxSocksMessageLen buf.flatten.length ≤ d ∧ d ≤ buf.flatten.length := by
  have hprefix : ∀ buf : Buf, buf.headD [] = buf.flatten.take (buf.headD []).length := by
    intro buf
    cases buf with
    | nil => rfl
    | cons head rest => simp
  have hhead := hprefix (pulled buf)
  rw [flatten_pulled] at hhead
  refine ⟨_, hhead, ?_, ?_⟩
  · cases buf with
    | nil => exact Nat.min_le_right _ _
    | cons head rest =>
      have hle := le_length_head_pullInto
        (min (min maxSocksMessageLen (head :: rest).flatten.length) (head :: rest).flatten.length)
        head rest (by rw [← flatten_cons]; omega)
      rw [pulled, bufPullup]
      omega
  · have hlen := congrArg List.length hhead
    rw [List.length_take] at hlen
    omega

lemma flatten_bufDrain (buf : Buf) (n : ℕ) : (bufDrain buf n).flatten = buf.flatten.drop n := by
  fun_induction bufDrain buf n with
  | case1 n => simp
  | case2 head rest => simp
  | case3 head rest n h hlt =>
    rw [flatten_cons, flatten_cons, drop_append_of_le_length (Nat.le_of_lt hlt)]
  | case4 head rest n h hlt ih =>
    rw [ih, flatten_cons, drop_append, drop_eq_nil_of_le (Nat.le_of_not_lt hlt), nil_append]

lemma length_pullInto_le (bytes : ℕ) (dest : List UInt8) (rest : Buf) :
    (pullInto bytes dest rest).length ≤ rest.length + 1 := by
  fun_induction pullInto bytes dest rest with
  | case1 dest => simp
  | case2 dest src rest h => simp
  | case3 dest src rest h h' ih =>
    rw [length_cons]
    omega
  | case4 dest src rest h h' => simp

lemma length_pulled_le (buf : Buf) : (pulled buf).length ≤ buf.length := by
  cases buf with
  | nil => exact Nat.le_refl _
  | cons head rest => exact length_pullInto_le _ head rest

lemma length_bufDrain_le (buf : Buf) (n : ℕ) : (bufDrain buf n).length ≤ buf.length := by
  fun_induction bufDrain buf n with
  | case1 n => simp
  | case2 head rest => simp
  | case3 head rest n h hlt => simp
  | case4 head rest n h hlt ih =>
    rw [length_cons]
    omega

lemma length_fetchLoop_le {env : SocksEnv} {fuel : ℕ} {buf : Buf} {req : SocksRequest}
    {reply : List UInt8} {f : Fetched} (h : fetchLoop env fuel buf req reply = some f) :
    f.buf.length ≤ buf.length := by
  induction fuel generalizing buf req reply with
  | zero => cases h
  | succ fuel ih =>
    have hpulled := length_pulled_le buf
    have hdrain := length_bufDrain_le (pulled buf)
      (parseSocks env req ((pulled buf).headD [])).drainOut
    rw [fetchLoop] at h
    dsimp only at h
    split at h
    · cases h
      exact Nat.zero_le _
    · cases h
      exact Nat.le_trans hdrain hpulled
    · split at h
      · cases h
        exact hpulled
      split at h
      · exact Nat.le_trans (ih h) hpulled
      · cases h
        exact hpulled
    · split at h
      · exact Nat.le_trans (ih h) (Nat.le_trans hdrain hpulled)
      · cases h
        exact Nat.le_trans hdrain hpulled

lemma flatten_bufAppend (arrival : Arrival) (buf : Buf) :
    (bufAppend arrival buf).flatten = buf.flatten ++ arrival.bytes := by
  fun_induction bufAppend arrival buf with
  | case1 | case2 tail => simp [Arrival.bytes]
  | case3 head next rest ih =>
    rw [flatten_cons, ih, ← append_assoc, ← flatten_cons]

lemma length_bufAppend_singleton {buf : Buf} (byte : UInt8) (h : buf.length ≤ 1) :
    (bufAppend ⟨[byte], []⟩ buf).length ≤ 1 := by
  rcases buf with _ | ⟨tail, _ | ⟨next, rest⟩⟩
  · exact Nat.le_refl _
  · exact Nat.le_refl _
  · simp at h

lemma headD_of_length_le_one {buf : Buf} (h : buf.length ≤ 1) : buf.headD [] = buf.flatten := by
  rcases buf with _ | ⟨head, _ | ⟨next, rest⟩⟩
  · rfl
  · simp
  · simp at h

end Ator.Socks
