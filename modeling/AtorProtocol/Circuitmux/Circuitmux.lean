import AtorProtocol.Circuitmux.Ewma
import AtorProtocol.Lib.HashTable
import AtorProtocol.Lib.Run
import Mathlib.Algebra.Ring.Nat

/-!
# The circuitmux

`src/core/or/circuitmux.c`, with no policy or the EWMA policy: the circuits that share a channel,
how many cells each has to send, and whose turn it is.  `none` is a failed assertion, or a null
pointer that is followed.

* `Circuitmux` — a mux.
* `circuitmuxAttachCircuit`, …, `circuitmuxGetFirstActiveCircuit` — its operations.
* `Circuitmux.step` — one of them.
-/

namespace Ator.Circuitmux

/-! ## Unsigned counters -/

/-- `x + y` in an `unsigned int`. -/
def addUnsigned (x y : ℕ) : ℕ := (x + y) % 2 ^ 32

/-- `x - y` in an `unsigned int`. -/
def subUnsigned (x y : ℕ) : ℕ := (x + 2 ^ 32 - y % 2 ^ 32) % 2 ^ 32

/-! ## Circuits -/

inductive CellDirection where
  | inward
  | outward
deriving DecidableEq

def CellDirection.other : CellDirection → CellDirection
  | .inward => .outward
  | .outward => .inward

/-- What `or_circuit_t` adds. -/
structure OrCircuit where
  pChan : Option ℕ
  pCircId : UInt32
  pChanCellsN : ℕ

/-- A circuit, with the global identifiers of its channels; `orCircuit` is there when its magic is
`OR_CIRCUIT_MAGIC`. -/
structure Circuit where
  nChan : Option ℕ
  nCircId : UInt32
  nChanCellsN : ℕ
  orCircuit : Option OrCircuit

/-- The channel and circuit ID of a circuit in a direction. -/
def Circuit.leg (circ : Circuit) : CellDirection → Option (ℕ × UInt32)
  | .outward => circ.nChan.map fun chan => (chan, circ.nCircId)
  | .inward => circ.orCircuit.bind fun o => o.pChan.map fun chan => (chan, o.pCircId)

/-- What is around a mux when a function is called: the circuits, the channels, the map from
circuit ID and channel to circuit, and the tick of the EWMA and the fraction of it. -/
structure Env (F : Type) where
  circuit : ℕ → Circuit
  channelFindByGlobalId : ℕ → Bool
  circuitGetByCircidChannel : UInt32 → ℕ → Option ℕ
  tick : ℕ
  fractionalTick : F

/-! ## The mux -/

/-- `circuit_muxinfo_t` -/
structure MuxInfo where
  cellCount : ℕ
  direction : CellDirection
  policyData : Option ℕ
deriving DecidableEq

/-- `chanid_circid_muxinfo_t` -/
structure Entry where
  chanId : ℕ
  circId : UInt32
  muxinfo : MuxInfo
deriving DecidableEq

def Entry.key (e : Entry) : ℕ × UInt32 := (e.chanId, e.circId)

/-- `circuitmux_t`, with the memory that the policy data of its circuits is in. -/
structure Circuitmux (F : Type) where
  chanidCircidMap : List Entry
  nCircuits : ℕ
  nActiveCircuits : ℕ
  nCells : ℕ
  policy : Option EwmaPolicyData
  circData : Memory F
  nextCircData : ℕ
  destroyCellQueueN : ℕ
  lastCellWasDestroy : Bool

variable {F : Type} (fl : EwmaArith F)

def circuitmuxAlloc : Circuitmux F where
  chanidCircidMap := []
  nCircuits := 0
  nActiveCircuits := 0
  nCells := 0
  policy := none
  circData _ := ⟨0, 0, fl.zero, -1, false⟩
  nextCircData := 0
  destroyCellQueueN := 0
  lastCellWasDestroy := false

/-- Write the information of the entry with a key. -/
def setMuxinfo (map : List Entry) (key : ℕ × UInt32) (f : MuxInfo → MuxInfo) : List Entry :=
  map.map fun e => if e.key = key then { e with muxinfo := f e.muxinfo } else e

/-- `circuitmux_find_map_entry`: the outer `none` is an assertion. -/
def circuitmuxFindMapEntry (cmux : Circuitmux F) (circ : Circuit) : Option (Option Entry) :=
  match (circ.leg .outward).bind (htFind Entry.key cmux.chanidCircidMap) with
  | some e => if e.muxinfo.direction = .outward then some (some e) else none
  | none =>
    match (circ.leg .inward).bind (htFind Entry.key cmux.chanidCircidMap) with
    | some e => if e.muxinfo.direction = .inward then some (some e) else none
    | none => some none

def circuitmuxNumCellsForCircuit (cmux : Circuitmux F) (circ : Circuit) : Option ℕ :=
  (circuitmuxFindMapEntry cmux circ).map fun
    | some e => e.muxinfo.cellCount
    | none => 0

/-- `circuitmux_make_circuit_active`, which notifies the policy. -/
def circuitmuxMakeCircuitActive (cmux : Circuitmux F) (circ : Circuit) : Option (Circuitmux F) := do
  let pol ← cmux.policy
  let found ← circuitmuxFindMapEntry cmux circ
  let hashent ← found
  let p ← hashent.muxinfo.policyData
  let (pol, mem) ← addCellEwma fl pol cmux.circData p
  some { cmux with policy := some pol, circData := mem }

/-- `circuitmux_make_circuit_inactive`, which notifies the policy. -/
def circuitmuxMakeCircuitInactive (cmux : Circuitmux F) (circ : Circuit) :
    Option (Circuitmux F) := do
  let pol ← cmux.policy
  let found ← circuitmuxFindMapEntry cmux circ
  let hashent ← found
  let p ← hashent.muxinfo.policyData
  let (pol, mem) ← removeCellEwma fl pol cmux.circData p
  some { cmux with policy := some pol, circData := mem }

/-- The policy data of a new circuit, and its address. -/
def allocCircData (cmux : Circuitmux F) (env : Env F) (circ : ℕ) (direction : CellDirection) :
    ℕ × Circuitmux F :=
  (cmux.nextCircData, { cmux with
    circData := Function.update cmux.circData cmux.nextCircData
      (ewmaAllocCircData fl circ env.tick (direction = .inward))
    nextCircData := cmux.nextCircData + 1 })

/-- What `circuitmux_attach_circuit` reads of the circuit: its cells, channel and circuit ID. -/
def attachFields (circ : Circuit) : CellDirection → Option (ℕ × Option ℕ × UInt32)
  | .outward => some (circ.nChanCellsN, circ.nChan, circ.nCircId)
  | .inward => circ.orCircuit.map fun o => (o.pChanCellsN, o.pChan, o.pCircId)

/-- The branch of `circuitmux_attach_circuit` for a circuit that is attached already. -/
def reattachCircuit (cmux : Circuitmux F) (circ : Circuit) (hashent : Entry) (cellCount : ℕ) :
    Option (Circuitmux F) := do
  let cmux ← (
    if hashent.muxinfo.cellCount > 0 ∧ cellCount = 0 then
      circuitmuxMakeCircuitInactive fl
        { cmux with nActiveCircuits := subUnsigned cmux.nActiveCircuits 1 } circ
    else if hashent.muxinfo.cellCount = 0 ∧ cellCount > 0 then
      circuitmuxMakeCircuitActive fl
        { cmux with nActiveCircuits := addUnsigned cmux.nActiveCircuits 1 } circ
    else some cmux)
  some { cmux with
    nCells := addUnsigned (subUnsigned cmux.nCells hashent.muxinfo.cellCount) cellCount
    chanidCircidMap := setMuxinfo cmux.chanidCircidMap hashent.key fun i => { i with cellCount } }

/-- The other branch, for a new one. -/
def attachNewCircuit (cmux : Circuitmux F) (env : Env F) (circ : ℕ) (direction : CellDirection)
    (key : ℕ × UInt32) (cellCount : ℕ) : Option (Circuitmux F) := do
  let _ ← cmux.policy
  let (p, cmux) := allocCircData fl cmux env circ direction
  let cmux := { cmux with
    chanidCircidMap := htInsert cmux.chanidCircidMap ⟨key.1, key.2, ⟨cellCount, direction, some p⟩⟩
    nCircuits := addUnsigned cmux.nCircuits 1 }
  let cmux ← (
    if cellCount > 0 then
      circuitmuxMakeCircuitActive fl
        { cmux with nActiveCircuits := addUnsigned cmux.nActiveCircuits 1 } (env.circuit circ)
    else some cmux)
  some { cmux with nCells := addUnsigned cmux.nCells cellCount }

def circuitmuxAttachCircuit (cmux : Circuitmux F) (env : Env F) (circ : ℕ)
    (direction : CellDirection) : Option (Circuitmux F) := do
  let (cellCount, chan, circId) ← attachFields (env.circuit circ) direction
  let chan ← chan
  if circId = 0 then none
  else match htFind Entry.key cmux.chanidCircidMap (chan, circId) with
  | some hashent =>
    if hashent.muxinfo.direction ≠ direction then none
    else reattachCircuit fl cmux (env.circuit circ) hashent cellCount
  | none => attachNewCircuit fl cmux env circ direction (chan, circId) cellCount

/-- Where `circuitmux_detach_circuit` finds the circuit, and the direction searched last. -/
def detachSearch (cmux : Circuitmux F) (circ : Circuit) :
    Option Entry × Option CellDirection :=
  let found := (circ.leg .outward).bind (htFind Entry.key cmux.chanidCircidMap)
  let lastSearched := (circ.leg .outward).map fun _ => .outward
  if found.isSome then (found, lastSearched)
  else match circ.leg .inward with
  | some key => (htFind Entry.key cmux.chanidCircidMap key, some .inward)
  | none => (none, lastSearched)

def circuitmuxDetachCircuit (cmux : Circuitmux F) (env : Env F) (circ : ℕ) :
    Option (Circuitmux F) :=
  match detachSearch cmux (env.circuit circ) with
  | (_, none) => none
  | (none, some _) => some cmux
  | (some hashent, some lastSearched) => do
      let cmux := { cmux with nCircuits := subUnsigned cmux.nCircuits 1 }
      let cmux ← (
        if hashent.muxinfo.cellCount > 0 then
          circuitmuxMakeCircuitInactive fl
            { cmux with nActiveCircuits := subUnsigned cmux.nActiveCircuits 1 } (env.circuit circ)
        else some cmux)
      let cmux := { cmux with nCells := subUnsigned cmux.nCells hashent.muxinfo.cellCount }
      if hashent.muxinfo.policyData.isSome ∧ cmux.policy.isNone then none
      else if lastSearched ≠ hashent.muxinfo.direction then none
      else some { cmux with
        chanidCircidMap := htRemove Entry.key cmux.chanidCircidMap hashent.key }

/-- One turn of the loop of `circuitmux_detach_all_circuits`, for the first entry of the map. -/
def detachFirst (cmux : Circuitmux F) (env : Env F) (toRemove : Entry) : Option (Circuitmux F) := do
  let circ := if env.channelFindByGlobalId toRemove.chanId then
    env.circuitGetByCircidChannel toRemove.circId toRemove.chanId else none
  match circ with
  | none => if toRemove.muxinfo.policyData.isSome then none else some cmux
  | some circ =>
    let cmux ← (
      if (toRemove.muxinfo.direction = .outward ∨ (env.circuit circ).orCircuit.isSome) ∧
          toRemove.muxinfo.cellCount > 0 then
        circuitmuxMakeCircuitInactive fl cmux (env.circuit circ)
      else some cmux)
    if toRemove.muxinfo.policyData.isSome ∧ cmux.policy.isNone then none else some cmux

/-- The loop of `circuitmux_detach_all_circuits`. -/
def detachLoop (env : Env F) : List Entry → Circuitmux F → Option (Circuitmux F)
  | [], cmux => some cmux
  | toRemove :: rest, cmux => do
      let cmux ← detachFirst fl cmux env toRemove
      detachLoop env rest { cmux with chanidCircidMap := rest }

def circuitmuxDetachAllCircuits (cmux : Circuitmux F) (env : Env F) : Option (Circuitmux F) :=
  (detachLoop fl env cmux.chanidCircidMap cmux).map fun cmux =>
    { cmux with nCircuits := 0, nActiveCircuits := 0, nCells := 0 }

/-- The circuit of an entry, which `circuitmux_set_policy` asserts to be there. -/
def entryCircuit (env : Env F) (e : Entry) : Option ℕ :=
  if env.channelFindByGlobalId e.chanId then env.circuitGetByCircidChannel e.circId e.chanId
  else none

/-- The loop of `circuitmux_set_policy` when there was no policy: each circuit is attached to the
new one. -/
def installLoop (env : Env F) : List Entry → Circuitmux F → Option (List Entry × Circuitmux F)
  | [], cmux => some ([], cmux)
  | e :: es, cmux => do
      let circ ← entryCircuit env e
      if e.muxinfo.policyData.isSome then none
      else
        let (p, cmux) := allocCircData fl cmux env circ e.muxinfo.direction
        let cmux ← (
          if e.muxinfo.cellCount > 0 then do
            let pol ← cmux.policy
            let (pol, mem) ← addCellEwma fl pol cmux.circData p
            some { cmux with policy := some pol, circData := mem }
          else some cmux)
        let (es, cmux) ← installLoop env es cmux
        some ({ e with muxinfo := { e.muxinfo with policyData := some p } } :: es, cmux)

/-- The loop of `circuitmux_set_policy` when there is no new policy: each circuit is detached from
the old one. -/
def clearLoop (env : Env F) :
    List Entry → EwmaPolicyData → Memory F → Option (List Entry × Memory F)
  | [], _, mem => some ([], mem)
  | e :: es, oldPol, mem => do
      let _ ← entryCircuit env e
      let (oldPol, mem) ← (
        if e.muxinfo.cellCount > 0 then do
          let p ← e.muxinfo.policyData
          removeCellEwma fl oldPol mem p
        else some (oldPol, mem))
      let (es, mem) ← clearLoop env es oldPol mem
      some ({ e with muxinfo := { e.muxinfo with policyData := none } } :: es, mem)

/-- `circuitmux_set_policy` to `ewma_policy`, or to none. -/
def circuitmuxSetPolicy (cmux : Circuitmux F) (env : Env F) (ewma : Bool) :
    Option (Circuitmux F) :=
  match cmux.policy, ewma with
  | some _, true => some cmux
  | none, false => some cmux
  | none, true =>
    (installLoop fl env cmux.chanidCircidMap
      { cmux with policy := some (ewmaAllocCmuxData env.tick) }).map
      fun (map, cmux) => { cmux with chanidCircidMap := map }
  | some oldPol, false =>
    (clearLoop fl env cmux.chanidCircidMap oldPol cmux.circData).map
      fun (map, mem) => { cmux with policy := none, chanidCircidMap := map, circData := mem }

def circuitmuxClearPolicy (cmux : Circuitmux F) (env : Env F) : Option (Circuitmux F) :=
  circuitmuxSetPolicy fl cmux env false

def circuitmuxSetNumCells (cmux : Circuitmux F) (env : Env F) (circ nCells : ℕ) :
    Option (Circuitmux F) := do
  let found ← circuitmuxFindMapEntry cmux (env.circuit circ)
  let hashent ← found
  let _ ← cmux.policy
  let cmux := { cmux with
    nCells := addUnsigned (subUnsigned cmux.nCells hashent.muxinfo.cellCount) nCells
    chanidCircidMap := setMuxinfo cmux.chanidCircidMap hashent.key fun i =>
      { i with cellCount := nCells } }
  if hashent.muxinfo.cellCount > 0 ∧ nCells = 0 then
    circuitmuxMakeCircuitInactive fl
      { cmux with nActiveCircuits := subUnsigned cmux.nActiveCircuits 1 } (env.circuit circ)
  else if hashent.muxinfo.cellCount = 0 ∧ nCells > 0 then
    circuitmuxMakeCircuitActive fl
      { cmux with nActiveCircuits := addUnsigned cmux.nActiveCircuits 1 } (env.circuit circ)
  else some cmux

def circuitmuxNotifyXmitCells (cmux : Circuitmux F) (env : Env F) (circ nCells : ℕ) :
    Option (Circuitmux F) :=
  if nCells = 0 then some cmux
  else do
    let found ← circuitmuxFindMapEntry cmux (env.circuit circ)
    let hashent ← found
    if ¬ nCells ≤ hashent.muxinfo.cellCount then none
    else
      let pol ← cmux.policy
      let p ← hashent.muxinfo.policyData
      let (pol, mem) ← ewmaNotifyXmitCells fl pol cmux.circData p nCells env.tick
        env.fractionalTick
      let cmux := { cmux with
        chanidCircidMap := setMuxinfo cmux.chanidCircidMap hashent.key fun i =>
          { i with cellCount := i.cellCount - nCells }
        nCells := subUnsigned cmux.nCells nCells
        policy := some pol
        circData := mem }
      if hashent.muxinfo.cellCount - nCells = 0 then
        circuitmuxMakeCircuitInactive fl
          { cmux with nActiveCircuits := subUnsigned cmux.nActiveCircuits 1 } (env.circuit circ)
      else some cmux

/-- `circuitmux_get_first_active_circuit`: the circuit picked, and whether the destroy queue is
handed out. -/
def circuitmuxGetFirstActiveCircuit (cmux : Circuitmux F) :
    Option (Option ℕ × Bool × Circuitmux F) := do
  let pol ← cmux.policy
  if cmux.destroyCellQueueN ≠ 0 ∧ (¬ cmux.lastCellWasDestroy ∨ cmux.nActiveCircuits = 0) then
    some (none, true, { cmux with lastCellWasDestroy := true })
  else if cmux.nActiveCircuits > 0 then
    if ¬ cmux.nCells > 0 then none
    else some (ewmaPickActiveCircuit pol cmux.circData, false,
      { cmux with lastCellWasDestroy := false })
  else if ¬ cmux.nCells = 0 then none
  else if ¬ cmux.destroyCellQueueN = 0 then none
  else some (none, false, cmux)

/-! ## Calls -/

/-- A call. -/
inductive Call where
  | attachCircuit (circ : ℕ) (direction : CellDirection)
  | detachCircuit (circ : ℕ)
  | detachAllCircuits
  | setNumCells (circ nCells : ℕ)
  | notifyXmitCells (circ nCells : ℕ)
  | setPolicy (ewma : Bool)
  | clearPolicy
  | getFirstActiveCircuit
  | appendDestroyCell
  | popDestroyCell

/-- One call, with what is around the mux then. -/
def Circuitmux.step (cmux : Circuitmux F) : Env F × Call → Option (Circuitmux F)
  | (env, .attachCircuit circ direction) => circuitmuxAttachCircuit fl cmux env circ direction
  | (env, .detachCircuit circ) => circuitmuxDetachCircuit fl cmux env circ
  | (env, .detachAllCircuits) => circuitmuxDetachAllCircuits fl cmux env
  | (env, .setNumCells circ nCells) => circuitmuxSetNumCells fl cmux env circ nCells
  | (env, .notifyXmitCells circ nCells) => circuitmuxNotifyXmitCells fl cmux env circ nCells
  | (env, .setPolicy ewma) => circuitmuxSetPolicy fl cmux env ewma
  | (env, .clearPolicy) => circuitmuxClearPolicy fl cmux env
  | (_, .getFirstActiveCircuit) => (circuitmuxGetFirstActiveCircuit cmux).map fun out => out.2.2
  | (_, .appendDestroyCell) => some { cmux with destroyCellQueueN := cmux.destroyCellQueueN + 1 }
  | (_, .popDestroyCell) => some { cmux with destroyCellQueueN := cmux.destroyCellQueueN - 1 }

end Ator.Circuitmux
