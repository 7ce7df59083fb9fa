import AtorProtocol.Lib.CachedTable

/-!
# The map from channels and circuit IDs to circuits

`chan_circid_map` of `src/core/or/circuitlist.c`, its one-entry cache, the sides of the circuits and
the counters of the channels.  An operation that reads freed memory, or takes an origin circuit for
another, has no result.

* `circuitSetCircidChanHelper` — a side of a circuit goes from one channel and ID to another.
* `channelNoteDestroyPending`, `channelNoteDestroyNotPending` — IDs that are kept back.
* `circuitUnlinkAllFromChannel` — the end of a channel.
* `Op`, `step` — what can happen to the map.
-/

namespace Ator.Circuitlist

/-- The channels and the circuits, by their addresses. -/
abbrev ChanPtr := ℕ
abbrev CircPtr := ℕ

abbrev Circid := UInt32

/-- `cell_direction_t`: towards the origin of a circuit, and away from it. -/
inductive CellDirection where
  | inward
  | outward
deriving DecidableEq

/-- One side of a circuit: `n_chan`, `n_circ_id` and `n_delete_pending`, or those of `p`. -/
structure Side where
  chan : Option ChanPtr
  circId : Circid
  deletePending : Bool
deriving DecidableEq

def Side.zero : Side := ⟨none, 0, false⟩

/-- `circuit_t`, with what `or_circuit_t` adds to it. -/
structure Circuit where
  n : Side
  p : Option Side
  markedForClose : Bool
deriving DecidableEq

namespace Circuit

/-- `TO_OR_CIRCUIT` of an origin circuit fails. -/
def side (circ : Circuit) : CellDirection → Option Side
  | .outward => some circ.n
  | .inward => circ.p

def setSide (circ : Circuit) (side : Side) : CellDirection → Circuit
  | .outward => { circ with n := side }
  | .inward => { circ with p := some side }

end Circuit

/-- `chan_circid_circuit_map_t`, less its key. -/
structure Entry where
  circuit : Option CircPtr
  madePlaceholderAt : ℕ
deriving DecidableEq

/-- The circuit counts of `channel_t` -/
structure Channel where
  numNCircuits : UInt32
  numPCircuits : UInt32
deriving DecidableEq

namespace Channel

def num (chan : Channel) : CellDirection → UInt32
  | .outward => chan.numNCircuits
  | .inward => chan.numPCircuits

def adjust (chan : Channel) (f : UInt32 → UInt32) : CellDirection → Channel
  | .outward => { chan with numNCircuits := f chan.numNCircuits }
  | .inward => { chan with numPCircuits := f chan.numPCircuits }

end Channel

/-- What an entry is found by. -/
abbrev Key := ChanPtr × Circid

structure State where
  circuits : AssocMap CircPtr Circuit
  channels : ChanPtr → Channel
  chanCircidMap : CachedTable Key Entry

/-- Nothing yet. -/
def State.init : State := ⟨∅, fun _ => ⟨0, 0⟩, ∅⟩

variable (alloc : Allocator (Key × Entry)) (s : State)

def State.setCircuit (c : CircPtr) (circ : Circuit) : State :=
  { s with circuits := s.circuits.set c circ }

def State.adjust (chan : ChanPtr) (direction : CellDirection) (f : UInt32 → UInt32) : State :=
  { s with channels := fun x => if x = chan then (s.channels x).adjust f direction
      else s.channels x }

/-! ## Lookups -/

/-- `circuit_get_by_circid_channel_impl`, with `*found_entry_out`. -/
def circuitGetByCircidChannelImpl (circId : Circid) (chan : ChanPtr) :
    Option (State × Option CircPtr × Bool) := do
  let (map, found) ← s.chanCircidMap.lookup (chan, circId)
  let s := { s with chanCircidMap := map }
  match found with
  | none => return (s, none, false)
  | some p => (map.heap.get p).map fun e => (s, e.2.circuit, true)

def circuitGetByCircidChannel (circId : Circid) (chan : ChanPtr) :
    Option (State × Option CircPtr) := do
  let (s, circ, _) ← circuitGetByCircidChannelImpl s circId chan
  match circ with
  | none => return (s, none)
  | some c => (s.circuits.get c).map fun circ => (s, if circ.markedForClose then none else some c)

def circuitGetByCircidChannelEvenIfMarked (circId : Circid) (chan : ChanPtr) :
    Option (State × Option CircPtr) :=
  (circuitGetByCircidChannelImpl s circId chan).map fun r => (r.1, r.2.1)

/-- `circuit_id_in_use_on_channel`: 1 of a circuit, 2 of a placeholder. -/
def circuitIdInUseOnChannel (circId : Circid) (chan : ChanPtr) : Option (State × ℕ) :=
  (circuitGetByCircidChannelImpl s circId chan).map fun r =>
    (r.1, if r.2.1.isSome then 1 else if r.2.2 then 2 else 0)

/-! ## Placeholders -/

/-- The time of a placeholder is that of its first use. -/
def Entry.stamp (now : ℕ) (ent : Entry) : Entry :=
  if ent.madePlaceholderAt = 0 then { ent with madePlaceholderAt := now } else ent

def channelMarkCircidUnusable (chan : ChanPtr) (id : Circid) (now : ℕ) : Option State :=
  match s.chanCircidMap.index.get (chan, id) with
  | none => some { s with chanCircidMap := s.chanCircidMap.insert (chan, id) alloc ⟨none, now⟩ }
  | some p => (s.chanCircidMap.heap.get p).map fun e =>
    if e.2.circuit.isSome then s
    else { s with chanCircidMap := s.chanCircidMap.update p (Entry.stamp now) }

/-- `channel_mark_circid_usable`.  The entry of a circuit leaves the table, but is not freed. -/
def channelMarkCircidUsable (chan : ChanPtr) (id : Circid) : Option State :=
  let map := s.chanCircidMap
  match map.index.get (chan, id) with
  | none => some s
  | some p => (map.heap.get p).map fun e =>
    if e.2.circuit.isSome then
      { s with chanCircidMap := { map with index := map.index.erase (chan, id) } }
    else
      let map := if map.last = some p then { map with last := none } else map
      { s with chanCircidMap := map.remove (chan, id) }

/-- What `channel_note_destroy_pending` and its opposite do to the circuit they find. -/
def setDeletePending (circ : Circuit) (chan : ChanPtr) (id : Circid) (pending : Bool) :
    Option Circuit :=
  if circ.n.chan = some chan ∧ circ.n.circId = id then
    some { circ with n := { circ.n with deletePending := pending } }
  else circ.p.map fun p =>
    if p.chan = some chan ∧ p.circId = id then
      { circ with p := some { p with deletePending := pending } }
    else circ

def channelNoteDestroyPending (chan : ChanPtr) (id : Circid) (now : ℕ) : Option State := do
  let (s, found) ← circuitGetByCircidChannelEvenIfMarked s id chan
  match found with
  | some c =>
    let circ ← setDeletePending (← s.circuits.get c) chan id true
    return s.setCircuit c circ
  | none => channelMarkCircidUnusable alloc s chan id now

def channelNoteDestroyNotPending (chan : ChanPtr) (id : Circid) : Option State := do
  let (s, found) ← circuitGetByCircidChannelEvenIfMarked s id chan
  match found with
  | some c =>
    let circ ← setDeletePending (← s.circuits.get c) chan id false
    return s.setCircuit c circ
  | none => channelMarkCircidUsable s chan id

/-! ## Circuits and their channels -/

/-- `search` of a channel that may be missing. -/
def keyOf (chan : Option ChanPtr) (id : Circid) : Option Key := chan.map fun chan => (chan, id)

/-- The entry of the old channel and ID is removed, if there is one, and counted off. -/
def removeOldEntry (direction : CellDirection) (old : Side) : State :=
  match old.chan with
  | none => s
  | some oldChan =>
    match s.chanCircidMap.index.get (oldChan, old.circId) with
    | none => s
    | some _ =>
      State.adjust { s with chanCircidMap := s.chanCircidMap.remove (oldChan, old.circId) }
        oldChan direction (· - 1)

/-- The circuit is entered under its new channel and ID, and counted. -/
def addNewEntry (direction : CellDirection) (c : CircPtr) (chan : ChanPtr) (id : Circid) : State :=
  let map := match s.chanCircidMap.index.get (chan, id) with
    | some found => s.chanCircidMap.update found fun _ => ⟨some c, 0⟩
    | none => s.chanCircidMap.insert (chan, id) alloc ⟨some c, 0⟩
  State.adjust { s with chanCircidMap := map } chan direction (· + 1)

def circuitSetCircidChanHelper (c : CircPtr) (direction : CellDirection) (id : Circid)
    (chan : Option ChanPtr) : Option State := do
  let circ ← s.circuits.get c
  let old ← circ.side direction
  if id = old.circId ∧ chan = old.chan then return s
  let map ← s.chanCircidMap.forget
    ((keyOf old.chan old.circId).toList ++ (keyOf chan id).toList)
  let s := removeOldEntry { s with chanCircidMap := map } direction old
  let s := s.setCircuit c (circ.setSide { old with chan := chan, circId := id } direction)
  match chan with
  | none => return s
  | some chan => return addNewEntry alloc s direction c chan id

/-- `circuit_set_p_circid_chan` and `circuit_set_n_circid_chan` -/
def circuitSetCircidChan (direction : CellDirection) (c : CircPtr) (id : Circid)
    (chan : Option ChanPtr) (now : ℕ) : Option State := do
  let circ ← s.circuits.get c
  let old ← circ.side direction
  let s ← circuitSetCircidChanHelper alloc s c direction id chan
  let circ ← s.circuits.get c
  let side ← circ.side direction
  match old.chan with
  | none => return s
  | some oldChan =>
    if side.deletePending then
      let s ← channelMarkCircidUnusable alloc s oldChan old.circId now
      return s.setCircuit c (circ.setSide { side with deletePending := false } direction)
    else return s

def circuitSetPCircidChan : CircPtr → Circid → Option ChanPtr → ℕ → Option State :=
  circuitSetCircidChan alloc s .inward

def circuitSetNCircidChan : CircPtr → Circid → Option ChanPtr → ℕ → Option State :=
  circuitSetCircidChan alloc s .outward

/-- `circuit_mark_for_close`, as far as the map knows of it. -/
def circuitMarkForClose (c : CircPtr) : Option State :=
  (s.circuits.get c).map fun circ => s.setCircuit c { circ with markedForClose := true }

/-- The circuits that `circuitmux_detach_all_circuits` collects: those that are found under the IDs
that the multiplexer of the channel has. -/
def detachAllCircuits (chan : ChanPtr) :
    State → List (Circid × CellDirection) → Option (State × List CircPtr)
  | s, [] => some (s, [])
  | s, (id, direction) :: attached => do
      let (s, found) ← circuitGetByCircidChannelEvenIfMarked s id chan
      let (t, detached) ← detachAllCircuits chan s attached
      match found with
      | none => return (t, detached)
      | some c =>
        let circ ← s.circuits.get c
        return (t, if direction = .outward ∨ circ.p.isSome then c :: detached else detached)

def channelUnlinkAllCircuits (chan : ChanPtr) (attached : List (Circid × CellDirection)) :
    Option (State × List CircPtr) := do
  let (s, detached) ← detachAllCircuits chan s attached
  return ({ s with channels := fun x => if x = chan then ⟨0, 0⟩ else s.channels x }, detached)

/-- One side of a detached circuit. -/
def unlinkSide (chan : ChanPtr) (now : ℕ) (direction : CellDirection) (c : CircPtr) :
    Option (State × Bool) := do
  let circ ← s.circuits.get c
  match circ.side direction with
  | none => return (s, false)
  | some side =>
    if side.chan = some chan then
      (circuitSetCircidChan alloc s direction c 0 none now).map (·, true)
    else return (s, false)

/-- One turn of the loop over the detached circuits. -/
def unlinkCircuit (chan : ChanPtr) (now : ℕ) (c : CircPtr) : Option State := do
  let (s, markN) ← unlinkSide alloc s chan now .outward c
  let (s, markP) ← unlinkSide alloc s chan now .inward c
  if markN || markP then circuitMarkForClose s c else return s

def circuitUnlinkAllFromChannel (chan : ChanPtr) (attached : List (Circid × CellDirection))
    (now : ℕ) : Option State := do
  let (s, detached) ← channelUnlinkAllCircuits s chan attached
  detached.foldlM (fun s c => unlinkCircuit alloc s chan now c) s

/-- The end of `circuit_free_`. -/
def circuitFree (c : CircPtr) (now : ℕ) : Option State := do
  let circ ← s.circuits.get c
  let s ← if circ.p.isSome then circuitSetPCircidChan alloc s c 0 none now else some s
  let s ← circuitSetNCircidChan alloc s c 0 none now
  return { s with circuits := s.circuits.erase c }

/-! ## Operations -/

/-- What can happen to the map. -/
inductive Op where
  | newCircuit (c : CircPtr) (isOr : Bool)
  | freeCircuit (c : CircPtr) (now : ℕ)
  | assignNChan (c : CircPtr) (chan : ChanPtr)
  | setCircidChan (direction : CellDirection) (c : CircPtr) (id : Circid) (chan : Option ChanPtr)
      (now : ℕ)
  | markForClose (c : CircPtr)
  | noteDestroyPending (chan : ChanPtr) (id : Circid) (now : ℕ)
  | noteDestroyNotPending (chan : ChanPtr) (id : Circid)
  | unlinkAllFromChannel (chan : ChanPtr) (attached : List (Circid × CellDirection)) (now : ℕ)
  | lookup (id : Circid) (chan : ChanPtr)

/-- The state after an operation. -/
def step : Op → Option State
  | .newCircuit c isOr => some (s.setCircuit c ⟨.zero, if isOr then some .zero else none, false⟩)
  | .freeCircuit c now => circuitFree alloc s c now
  | .assignNChan c chan => (s.circuits.get c).map fun circ =>
    s.setCircuit c { circ with n := { circ.n with chan := some chan } }
  | .setCircidChan direction c id chan now =>
    match direction with
    | .inward => circuitSetPCircidChan alloc s c id chan now
    | .outward => circuitSetNCircidChan alloc s c id chan now
  | .markForClose c => circuitMarkForClose s c
  | .noteDestroyPending chan id now => channelNoteDestroyPending alloc s chan id now
  | .noteDestroyNotPending chan id => channelNoteDestroyNotPending s chan id
  | .unlinkAllFromChannel chan attached now =>
    circuitUnlinkAllFromChannel alloc s chan attached now
  | .lookup id chan => (circuitGetByCircidChannel s id chan).map Prod.fst

/-- The state with the IDs whose DESTROY has been noted as pending, and not since as sent. -/
structure Noted where
  state : State
  queued : Set Key

/-- The IDs that are waiting after an operation. -/
def Op.queue (queued : Set Key) : Op → Set Key
  | .noteDestroyPending chan id _ => insert (chan, id) queued
  | .noteDestroyNotPending chan id => queued \ {(chan, id)}
  | _ => queued

def notedStep (w : Noted) (op : Op) : Option Noted :=
  (step alloc w.state op).map fun t => ⟨t, op.queue w.queued⟩

end Ator.Circuitlist
