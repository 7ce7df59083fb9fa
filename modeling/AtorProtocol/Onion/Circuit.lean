import AtorProtocol.Lib.Run
import AtorProtocol.Onion.RelayCrypto

/-!
# A circuit

The client, the relays of its circuit and the links between them, with the ways a relay cell goes
through `circuit_package_relay_cell` and `circuit_receive_relay_cell` of `src/core/or/relay.c`.
Links are FIFO; an event is the choice of who acts next.

* `Circuit.step` — the machine.  A circuit that is closed stops.
* `Post.step` — what the onion layers are for: cells in envelopes with the number of a hop on them.
* `NoAccident` — the assumption on the hash: no cell is taken for one's own by accident.
-/

namespace Ator.Onion

/-- A payload that was packed for a hop, or by it. -/
structure Packed where
  hop : ℕ
  cell : FreshPayload

/-- A cell on a link.  No hop reads `packed`; it says where the payload comes from. -/
structure InFlight where
  payload : Payload
  packed : Packed

/-- A cell that was recognized, and what its reader sees. -/
inductive Delivery where
  | atRelay (hop : ℕ) (payload : Payload)
  | atClient (layerHint : ℕ) (payload : Payload)

/-- Hop `i` reads `outQueue i`, and writes `inQueue i`. -/
structure Circuit where
  cpath : Cpath
  relay : ℕ → RelayCrypto
  outQueue : ℕ → List InFlight
  inQueue : ℕ → List InFlight
  delivered : List Delivery

/-- Who acts next. -/
inductive Event where
  /-- The client packs a cell for a hop. -/
  | packageOut (layerHint : ℕ) (cell : FreshPayload)
  /-- A relay packs a cell for the client. -/
  | packageIn (hop : ℕ) (cell : FreshPayload)
  /-- A relay receives a cell from the client's side. -/
  | receiveOut (hop : ℕ)
  /-- A relay receives a cell from the next relay. -/
  | receiveIn (hop : ℕ)
  | receiveAtClient

/-- Append to one of the queues. -/
def push {α : Type*} (queue : ℕ → List α) (i : ℕ) (c : α) : ℕ → List α :=
  Function.update queue i (queue i ++ [c])

/-! ## The machine -/

/-- Both ends of each hop have the same key material. -/
def Circuit.init (keys : ℕ → KeyMaterial) : Circuit where
  cpath i := relayCryptoInit (keys i)
  relay i := relayCryptoInit (keys i)
  outQueue _ := []
  inQueue _ := []
  delivered := []

/-- One event on a circuit of `hops` hops. -/
def Circuit.step (prim : Primitives) (hops : ℕ) (s : Circuit) : Event → Option Circuit
  | .packageOut layerHint cell =>
    if layerHint < hops then
      let sent := relayEncryptCellOutbound prim s.cpath layerHint cell.payload
      some { s with cpath := sent.1
                    outQueue := push s.outQueue 0 ⟨sent.2, layerHint, cell⟩ }
    else none
  | .packageIn hop cell =>
    if hop < hops then
      let sent := relayEncryptCellInbound prim (s.relay hop) cell.payload
      some { s with relay := Function.update s.relay hop sent.1
                    inQueue := push s.inQueue hop ⟨sent.2, hop, cell⟩ }
    else none
  | .receiveOut hop =>
    match s.outQueue hop with
    | [] => none
    | c :: queue =>
      let received := relayDecryptCellOut prim (s.relay hop) c.payload
      let s := { s with relay := Function.update s.relay hop received.2.1
                        outQueue := Function.update s.outQueue hop queue }
      if received.1 then
        some { s with delivered := s.delivered ++ [.atRelay hop received.2.2] }
      else if hop + 1 < hops then
        some { s with outQueue := push s.outQueue (hop + 1) { c with payload := received.2.2 } }
      -- "Didn't recognize a cell, but circ stops here! Closing circuit."
      else none
  | .receiveIn hop =>
    match s.inQueue (hop + 1) with
    | [] => none
    | c :: queue =>
      let received := relayDecryptCellMiddle prim (s.relay hop) c.payload
      some { s with
        relay := Function.update s.relay hop received.1
        inQueue := push (Function.update s.inQueue (hop + 1) queue) hop
          { c with payload := received.2 } }
  | .receiveAtClient =>
    match s.inQueue 0 with
    | [] => none
    | c :: queue =>
      match relayDecryptCellIn prim hops s.cpath c.payload with
      -- "Incoming cell at client not recognized. Closing."
      | none => none
      | some (layerHint, cpath, payload) =>
        some { s with cpath := cpath
                      inQueue := Function.update s.inQueue 0 queue
                      delivered := s.delivered ++ [.atClient layerHint payload] }

/-- No hop but the one that a cell was packed for, or by, takes it for its own. -/
def NoAccident (prim : Primitives) (s : Circuit) : Event → Prop
  | .receiveOut hop => ∀ c queue, s.outQueue hop = c :: queue → c.packed.hop ≠ hop →
      ¬ Matches prim (s.relay hop).fDigest ((s.relay hop).fCrypto.crypt prim c.payload)
  | .receiveAtClient => ∀ c queue, s.inQueue 0 = c :: queue → ∀ i < c.packed.hop,
      ¬ Matches prim (s.cpath i).bDigest
        (removeLayers prim (fun i => (s.cpath i).bCrypto) (i + 1) c.payload)
  | _ => True

/-! ## Addressed mail -/

/-- The queues of a circuit whose cells carry the number of their hop. -/
structure Post where
  outQueue : ℕ → List Packed
  inQueue : ℕ → List Packed
  delivered : List Delivery

def Post.init : Post := { outQueue := fun _ => [], inQueue := fun _ => [], delivered := [] }

/-- A hop delivers what is for it, and forwards everything else; the client delivers everything,
each cell with the hop it is from. -/
def Post.step (hops : ℕ) (s : Post) : Event → Option Post
  | .packageOut layerHint cell =>
    if layerHint < hops then some { s with outQueue := push s.outQueue 0 ⟨layerHint, cell⟩ }
    else none
  | .packageIn hop cell =>
    if hop < hops then some { s with inQueue := push s.inQueue hop ⟨hop, cell⟩ } else none
  | .receiveOut hop =>
    match s.outQueue hop with
    | [] => none
    | c :: queue =>
      let s := { s with outQueue := Function.update s.outQueue hop queue }
      if c.hop = hop then
        some { s with delivered := s.delivered ++ [.atRelay hop c.cell.payload] }
      else some { s with outQueue := push s.outQueue (hop + 1) c }
  | .receiveIn hop =>
    match s.inQueue (hop + 1) with
    | [] => none
    | c :: queue =>
      some { s with inQueue := push (Function.update s.inQueue (hop + 1) queue) hop c }
  | .receiveAtClient =>
    match s.inQueue 0 with
    | [] => none
    | c :: queue =>
      some { s with inQueue := Function.update s.inQueue 0 queue
                    delivered := s.delivered ++ [.atClient c.hop c.cell.payload] }

/-- A circuit without its ciphers. -/
def Circuit.post (s : Circuit) : Post where
  outQueue i := (s.outQueue i).map InFlight.packed
  inQueue i := (s.inQueue i).map InFlight.packed
  delivered := s.delivered

/-- The cells that hop `i` has yet to receive, the next one first. -/
def Post.toRelay (s : Post) : ℕ → List Packed
  | 0 => s.outQueue 0
  | i + 1 => s.outQueue (i + 1) ++ (s.toRelay i).filter (i < ·.hop)

/-- The cells that the client has yet to receive and that hop `i` has put a layer on, the next one
first. -/
def Post.toClient (s : Post) : ℕ → List Packed
  | 0 => s.inQueue 0
  | i + 1 => (s.toClient i).filter (i < ·.hop) ++ s.inQueue (i + 1)

/-- A cipher that has worked on `n` more payloads. -/
def CryptoCipher.advanceBy (cipher : CryptoCipher) (n : ℕ) : CryptoCipher :=
  { cipher with pos := cipher.pos + 509 * n }

/-- A digest that has taken more payloads. -/
def CryptoDigest.addAll (digest : CryptoDigest) (cells : List Packed) : CryptoDigest :=
  cells.foldl (fun digest c => digest.add c.cell.payload) digest

/-- The ciphers and digests of the client and of the relays differ by what is on the links. -/
structure Circuit.InStep (s : Circuit) : Prop where
  fCrypto : ∀ i, (s.cpath i).fCrypto = (s.relay i).fCrypto.advanceBy (s.post.toRelay i).length
  fDigest : ∀ i, (s.cpath i).fDigest
    = (s.relay i).fDigest.addAll ((s.post.toRelay i).filter (·.hop = i))
  bCrypto : ∀ i, (s.relay i).bCrypto = (s.cpath i).bCrypto.advanceBy (s.post.toClient i).length
  bDigest : ∀ i, (s.relay i).bDigest
    = (s.cpath i).bDigest.addAll ((s.post.toClient i).filter (·.hop = i))

end Ator.Onion
