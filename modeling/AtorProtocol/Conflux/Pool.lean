import AtorProtocol.Conflux.Link
import AtorProtocol.Lib.Run

/-!
# The pools of conflux sets

`src/core/or/conflux_pool.c`: the sets whose circuits are still being linked, the sets that are
linked, and the circuits of both.  The client sets and the relay's have maps, objects and circuits
of their own; a `Pool` is those of one side.  Objects are reached through their address, and what
is freed is `none` there.

A function that closes circuits calls itself through `circuit_mark_for_close`: the calls that are
still to be made are a stack.

* `Pool` — one side.
* `Pool.confluxLaunchLeg`, `confluxProcessLink`, `confluxProcessLinked`, `circuitMarkForClose`,
  `confluxCircuitAboutToFree` — what happens to it.
* `Pool.exec` — one event, or one call of the stack.
-/

namespace Ator.Conflux

/-- A nonce, of `DIGEST256_LEN` bytes. -/
abbrev Nonce := Vector UInt8 32

/-- `tor_memneq(a, b, len)` -/
def torMemneq (a b : Nonce) (len : ℕ) : Bool := a.toList.take len ≠ b.toList.take len

variable {α : Type}

/-- `conflux_t`: the fields that `Cfx` has not are the nonce and the number of launches. -/
structure ConfluxSet (α : Type) where
  nonce : Nonce
  cfx : Cfx ℕ α
  numLegLaunch : ℕ

/-- `leg_t`, whose circuit may be `NULL`. -/
structure PendingLeg where
  circ : Option ℕ
  link : LinkCell Nonce
  linked : Bool

structure UnlinkedCircuits where
  isForLinkedSet : Bool
  cfx : ℕ
  legs : List PendingLeg

/-- What conflux keeps in a circuit, and of it.  `linkedPurpose` says that the purpose is
`CIRCUIT_PURPOSE_CONFLUX_LINKED`, of a circuit that has a conflux purpose; `inflight` that at least
a SENDME's worth of data is in flight. -/
structure PoolCircuit where
  confluxPendingNonce : Option Nonce
  conflux : Option ℕ
  markedForClose : Bool
  linkedPurpose : Bool
  inflight : Bool

/-- A circuit of the relay, before any LINK. -/
def PoolCircuit.new : PoolCircuit := ⟨none, none, false, false, false⟩

/-- A call that is to be made: `circuit_mark_for_close`, the second half of
`conflux_mark_all_for_close`, `conflux_launch_leg`, and what is left of the loop of
`launch_new_set`. -/
inductive Call where
  | markForClose (circ : ℕ)
  | closeLinked (nonce : Nonce)
  | launchLeg (nonce : Nonce)
  | launchMore (nonce : Nonce) (numLegs : ℕ)
deriving DecidableEq

/-- One side: its conflux objects and circuits by address, the two maps, and the calls to be made.
`maxLegsSet`, `numLegsSet` and `maxUnlinkedLegRetry` are the parameters of that name. -/
structure Pool (α : Type) where
  isClient : Bool
  cfx : ℕ → Option (ConfluxSet α)
  nextCfx : ℕ
  circ : ℕ → Option PoolCircuit
  nextCirc : ℕ
  unlinkedPool : Nonce → Option UnlinkedCircuits
  linkedPool : Nonce → Option ℕ
  calls : List Call
  shuttingDown : Bool
  maxLegsSet : ℕ
  numLegsSet : ℕ
  maxUnlinkedLegRetry : ℕ

/-- What stops the program: the assertion of `cfx_add_leg` on the nonce, that of
`linked_circuit_free` on the unlinked set, another one, and an object that is not there. -/
inductive Fault where
  | wrongSet
  | notForLinkedSet
  | otherAssert
  | badPointer
deriving DecidableEq

/-- Follow a pointer. -/
def deref {β : Type} : Option β → Except Fault β
  | some b => .ok b
  | none => .error .badPointer

/-- `conflux_new` -/
def ConfluxSet.new (nonce : Nonce) : ConfluxSet α := ⟨nonce, Cfx.new, 0⟩

namespace Pool

/-! ## Writing -/

def setCfx (s : Pool α) (p : ℕ) (set : Option (ConfluxSet α)) : Pool α :=
  { s with cfx := Function.update s.cfx p set }

def setCirc (s : Pool α) (c : ℕ) (circ : Option PoolCircuit) : Pool α :=
  { s with circ := Function.update s.circ c circ }

def setUnlinked (s : Pool α) (nonce : Nonce) (unlinked : Option UnlinkedCircuits) : Pool α :=
  { s with unlinkedPool := Function.update s.unlinkedPool nonce unlinked }

def setLinked (s : Pool α) (nonce : Nonce) (p : Option ℕ) : Pool α :=
  { s with linkedPool := Function.update s.linkedPool nonce p }

/-- Calls to be made now. -/
def call (s : Pool α) (calls : List Call) : Pool α := { s with calls := calls ++ s.calls }

/-- A call to be made when the ones there are have returned. -/
def callLater (s : Pool α) (c : Call) : Pool α := { s with calls := s.calls ++ [c] }

/-! ## Unlinked sets -/

/-- `unlinked_get_or_create`; the object that `unlinked_new` makes is freed at once when the set is
for a linked one. -/
def unlinkedGetOrCreate (s : Pool α) (nonce : Nonce) : UnlinkedCircuits × Pool α :=
  match s.unlinkedPool nonce with
  | some unlinked => (unlinked, s)
  | none =>
    match s.linkedPool nonce with
    | some cfx =>
      let unlinked := ⟨true, cfx, []⟩
      (unlinked, { s.setUnlinked nonce (some unlinked) with nextCfx := s.nextCfx + 1 })
    | none =>
      let unlinked := ⟨false, s.nextCfx, []⟩
      (unlinked, { (s.setCfx s.nextCfx (some (ConfluxSet.new nonce))).setUnlinked nonce
        (some unlinked) with nextCfx := s.nextCfx + 1 })

def unlinkedPoolDelAndFree (s : Pool α) (unlinked : UnlinkedCircuits) : Except Fault (Pool α) := do
  let set ← deref (s.cfx unlinked.cfx)
  let s := s.setUnlinked set.nonce none
  return if unlinked.isForLinkedSet then s else s.setCfx unlinked.cfx none

def legFind (unlinked : UnlinkedCircuits) (c : ℕ) : Option PendingLeg :=
  unlinked.legs.find? fun leg => leg.circ = some c

/-- `conflux_mark_all_for_close`; its second half is a call of its own. -/
def confluxMarkAllForClose (s : Pool α) (nonce : Nonce) : Except Fault (Pool α) :=
  match s.unlinkedPool nonce with
  | none => .ok (s.call [.closeLinked nonce])
  | some unlinked =>
    if unlinked.legs = [] then
      (unlinkedPoolDelAndFree s unlinked).map fun s => s.call [.closeLinked nonce]
    else do
      let circs ← unlinked.legs.mapM fun leg => deref leg.circ
      return s.call (circs.map .markForClose ++ [.closeLinked nonce])

/-- The second half of `conflux_mark_all_for_close`. -/
def closeLinked (s : Pool α) (nonce : Nonce) : Except Fault (Pool α) :=
  match s.linkedPool nonce with
  | none => .ok s
  | some p => do
      let set ← deref (s.cfx p)
      if set.cfx.inFullTeardown then return s
      else
        let s := s.setCfx p (some { set with cfx := { set.cfx with inFullTeardown := true } })
        return s.call ((set.cfx.legs.entries.map Prod.fst).map .markForClose)

/-! ## Linking -/

/-- `link_circ_err_t` -/
inductive LinkErr where
  | ok
  | invalidLeg
  | missingSet
  | missingLeg
deriving DecidableEq

/-- Write the leg of a circuit. -/
def modifyLeg (c : ℕ) (f : PendingLeg → PendingLeg) : List PendingLeg → List PendingLeg
  | [] => []
  | leg :: legs => if leg.circ = some c then f leg :: legs else leg :: modifyLeg c f legs

/-- What `cfx_add_leg`, `try_finalize_set` and `leg_free` write in the circuit of a leg. -/
def linkLeg (s : Pool α) (p c : ℕ) : Except Fault (Pool α) := do
  let circ ← deref (s.circ c)
  return s.setCirc c (some { circ with
    conflux := some p, confluxPendingNonce := none, linkedPurpose := s.isClient })

def tryFinalizeSet (s : Pool α) (unlinked : UnlinkedCircuits) :
    Except Fault (LinkErr × Pool α) := do
  let set ← deref (s.cfx unlinked.cfx)
  let legs ← unlinked.legs.mapM fun leg =>
    (deref leg.circ).map fun c => (⟨c, leg.link, leg.linked⟩ : Leg ℕ Nonce)
  match Ator.Conflux.tryFinalizeSet s.maxLegsSet set.cfx legs with
  | .missingLeg => return (.missingLeg, s)
  | .tooManyLegs => return (.invalidLeg, s)
  | .invalidLegs => (s.confluxMarkAllForClose set.nonce).map fun s => (.invalidLeg, s)
  | .waiting => return (.ok, s)
  | .linked cfx =>
    if legs.any fun leg => set.nonce ≠ leg.link.nonce then .error .wrongSet
    else
      let s := s.setCfx unlinked.cfx (some { set with cfx, numLegLaunch := 0 })
      let s ← (legs.map Leg.circ).foldlM (fun s c => linkLeg s unlinked.cfx c) s
      return (.ok, (s.setLinked set.nonce (some unlinked.cfx)).setUnlinked set.nonce none)

def linkCircuit (s : Pool α) (c : ℕ) : Except Fault (LinkErr × Pool α) := do
  let circ ← deref (s.circ c)
  match circ.confluxPendingNonce with
  | none => .error .otherAssert
  | some nonce =>
    match s.unlinkedPool nonce with
    | none => return (.missingSet, s)
    | some unlinked =>
      if (legFind unlinked c).isNone then return (.missingLeg, s)
      else
        let unlinked := { unlinked with
          legs := modifyLeg c (fun leg => { leg with linked := true }) unlinked.legs }
        tryFinalizeSet (s.setUnlinked nonce (some unlinked)) unlinked

/-! ## Launching -/

/-- `get_exit_for_nonce`, for what it asserts of the first leg. -/
def getExitForNonce (s : Pool α) (nonce : Nonce) : Except Fault Unit :=
  match s.linkedPool nonce, s.unlinkedPool nonce with
  | some p, _ => do
      let set ← deref (s.cfx p)
      let leg ← deref set.cfx.legs.entries.head?
      (deref (s.circ leg.1)).map fun _ => ()
  | none, some unlinked =>
    match unlinked.legs with
    | [] => .ok ()
    | leg :: _ => do
        let c ← deref leg.circ
        (deref (s.circ c)).map fun _ => ()
  | none, none => .ok ()

/-- `conflux_launch_leg`, and whether a leg was launched; `established` says whether
`circuit_establish_circuit_conflux` gives a circuit, or marks the one that it made for close. -/
def confluxLaunchLeg (s : Pool α) (nonce : Nonce) (established : Bool) :
    Except Fault (Bool × Pool α) := do
  let (unlinked, s) := s.unlinkedGetOrCreate nonce
  let set ← deref (s.cfx unlinked.cfx)
  if set.numLegLaunch ≥ s.numLegsSet + s.maxUnlinkedLegRetry then return (false, s)
  else
    s.getExitForNonce nonce
    let s := s.setCfx unlinked.cfx (some { set with numLegLaunch := set.numLegLaunch + 1 })
    let c := s.nextCirc
    let s := { s.setCirc c (some { PoolCircuit.new with confluxPendingNonce := some nonce }) with
      nextCirc := c + 1 }
    if established then
      let link : LinkCell Nonce :=
        { version := 1
          nonce := nonce
          lastSeqnoSent := UInt64.ofNat (confluxGetMaxSeqSent set.cfx)
          lastSeqnoRecv := UInt64.ofNat set.cfx.lastSeqDelivered }
      return (true, s.setUnlinked nonce (some { unlinked with
        legs := unlinked.legs ++ [⟨some c, link, false⟩] }))
    else return (false, s.call [.markForClose c])

/-- The loop of `launch_new_set`. -/
def launchMore (s : Pool α) (nonce : Nonce) (established : Bool) :
    ℕ → Except Fault (Pool α)
  | 0 => .ok s
  | numLegs + 1 => do
      let (launched, s) ← s.confluxLaunchLeg nonce established
      return if launched then s.call [.launchMore nonce numLegs] else s

/-! ## Cells -/

/-- `conflux_process_link`, of the cell as it is parsed; `enabled` and `validHop` are
`conflux_is_enabled` and `conflux_validate_source_hop`, and the circuit is closed when the LINKED
cannot be `sent`. -/
def confluxProcessLink (s : Pool α) (c : ℕ) (cell : Option (LinkCell Nonce))
    (enabled validHop sent : Bool) : Except Fault (Pool α) := do
  let circ ← deref (s.circ c)
  if ¬ enabled ∨ s.isClient ∨ ¬ validHop ∨ circ.confluxPendingNonce.isSome ∨ circ.conflux.isSome
  then return s.callLater (.markForClose c)
  else match cell with
  | none => return s.callLater (.markForClose c)
  | some link =>
    let (unlinked, s) := s.unlinkedGetOrCreate link.nonce
    let s := s.setUnlinked link.nonce (some { unlinked with
      legs := unlinked.legs ++ [⟨some c, link, false⟩] })
    let s := s.setCirc c (some { circ with confluxPendingNonce := some link.nonce })
    let _ ← deref (s.cfx unlinked.cfx)
    let (err, s) ← s.linkCircuit c
    return if err ≠ .ok ∨ ¬ sent then s.callLater (.markForClose c) else s

/-- `sizeof(*link->nonce)` -/
def sizeofNonceElement : ℕ := 1

/-- `conflux_process_linked`; `rttOk` is `record_rtt`, and the circuit is closed when the
LINKED_ACK cannot be `sent`. -/
def confluxProcessLinked (s : Pool α) (c : ℕ) (cell : Option (LinkCell Nonce))
    (enabled validHop rttOk sent : Bool) : Except Fault (Pool α) := do
  let circ ← deref (s.circ c)
  match circ.confluxPendingNonce, cell with
  | some nonce, some link =>
    if ¬ enabled ∨ ¬ s.isClient ∨ circ.conflux.isSome ∨ ¬ validHop
        ∨ torMemneq link.nonce nonce sizeofNonceElement
    then return s.callLater (.markForClose c)
    else match s.unlinkedPool nonce with
    | none => return s.callLater (.markForClose c)
    | some unlinked =>
      if (legFind unlinked c).isNone then return s.callLater (.markForClose c)
      else
        let s := s.setUnlinked nonce (some { unlinked with
          legs := modifyLeg c (fun leg => { leg with link }) unlinked.legs })
        if ¬ rttOk then return s.callLater (.markForClose c)
        else
          let (err, s) ← s.linkCircuit c
          return if err = .missingLeg ∨ ¬ sent then s.callLater (.markForClose c) else s
  | _, _ => return s.callLater (.markForClose c)

/-- `unlinked_circuit_closed`, on the circuit `circ` at `c` -/
def unlinkedCircuitClosed (s : Pool α) (c : ℕ) (circ : PoolCircuit) (nonce : Nonce) :
    Except Fault (Pool α) :=
  match s.unlinkedPool nonce with
  | none => .ok s
  | some unlinked =>
    let s := if (legFind unlinked c).isSome then
      s.setCirc c (some { circ with confluxPendingNonce := none }) else s
    let legs := unlinked.legs.eraseP fun leg => leg.circ = some c
    if legs = [] then s.unlinkedPoolDelAndFree unlinked
    else
      let s := s.setUnlinked nonce (some { unlinked with legs })
      .ok (if ¬ s.shuttingDown ∧ s.isClient then s.call [.launchLeg nonce] else s)

/-- `linked_circuit_closed`, on the circuit `circ` at `c` -/
def linkedCircuitClosed (s : Pool α) (c : ℕ) (circ : PoolCircuit) (p : ℕ) :
    Except Fault (Pool α) := do
  let set ← deref (s.cfx p)
  let (cfx, fullTeardown) := cfxDelLeg set.cfx c circ.inflight
  let s := s.setCfx p (some { set with cfx })
  let s := if cfx.numLegs = 0 then s.setLinked set.nonce none
    else s.setCirc c (some { circ with conflux := none })
  if fullTeardown then s.confluxMarkAllForClose set.nonce else return s

/-- `circuit_mark_for_close`, with `conflux_circuit_has_closed` -/
def circuitMarkForClose (s : Pool α) (c : ℕ) : Except Fault (Pool α) := do
  let circ ← deref (s.circ c)
  if circ.markedForClose then return s
  else
    let circ := { circ with markedForClose := true }
    let s := s.setCirc c (some circ)
    match circ.confluxPendingNonce, circ.conflux with
    | some nonce, _ => s.unlinkedCircuitClosed c circ nonce
    | none, some p => s.linkedCircuitClosed c circ p
    | none, none => return s

/-! ## Freeing -/

/-- `linked_circuit_free`, of the circuit `circ` at `c` -/
def linkedCircuitFree (s : Pool α) (c : ℕ) (circ : PoolCircuit) (p : ℕ) :
    Except Fault (Pool α) := do
  let set ← deref (s.cfx p)
  if s.isClient ∧ ¬ circ.linkedPurpose then .error .otherAssert
  else
    let (cfx, fullTeardown) := cfxDelLeg set.cfx c circ.inflight
    let cfx := if fullTeardown then { cfx with inFullTeardown := true } else cfx
    let s := s.setCfx p (some { set with cfx })
    if cfx.numLegs > 0 then return s
    else
      let s := s.setLinked set.nonce none
      match s.unlinkedPool set.nonce with
      | some unlinked =>
        if ¬ unlinked.isForLinkedSet then .error .notForLinkedSet
        else return s.setUnlinked set.nonce (some { unlinked with isForLinkedSet := false })
      | none => return s.setCfx p none

/-- `unlinked_circuit_free`, of the circuit `circ` at `c` -/
def unlinkedCircuitFree (s : Pool α) (c : ℕ) (circ : PoolCircuit) (nonce : Nonce) :
    Except Fault (Pool α) :=
  if s.isClient ∧ circ.linkedPurpose then .error .otherAssert
  else match s.unlinkedPool nonce with
  | none => .ok s
  | some unlinked => .ok (s.setUnlinked nonce (some { unlinked with
      legs := modifyLeg c (fun leg => { leg with circ := none }) unlinked.legs }))

/-- `conflux_circuit_about_to_free`, and the free. -/
def confluxCircuitAboutToFree (s : Pool α) (c : ℕ) : Except Fault (Pool α) := do
  let circ ← deref (s.circ c)
  let s ← match circ.conflux, circ.confluxPendingNonce with
    | some p, _ => s.linkedCircuitFree c circ p
    | none, some nonce => s.unlinkedCircuitFree c circ nonce
    | none, none => pure s
  return s.setCirc c none

end Pool

/-! ## Events -/

/-- What happens to a side.  `traffic` is what cells do to a linked set, and `runCall` makes the
next of the calls. -/
inductive PoolEvent (α : Type) where
  | createCircuit
  | launchNewSet (nonce : Nonce)
  | link (circ : ℕ) (cell : Option (LinkCell Nonce)) (enabled validHop sent : Bool)
  | linked (circ : ℕ) (cell : Option (LinkCell Nonce)) (enabled validHop rttOk sent : Bool)
  | close (circ : ℕ)
  | free (circ : ℕ)
  | traffic (p : ℕ) (cfx : Cfx ℕ α)
  | inflight (circ : ℕ) (inflight : Bool)
  | newParams (maxLegsSet numLegsSet maxUnlinkedLegRetry : ℕ)
  | notifyShutdown
  | runCall (established : Bool)

namespace Pool

/-- The pools when the process has started. -/
def init (isClient : Bool) (maxLegsSet numLegsSet maxUnlinkedLegRetry : ℕ) : Pool α where
  isClient := isClient
  cfx _ := none
  nextCfx := 0
  circ _ := none
  nextCirc := 0
  unlinkedPool _ := none
  linkedPool _ := none
  calls := []
  shuttingDown := false
  maxLegsSet := maxLegsSet
  numLegsSet := numLegsSet
  maxUnlinkedLegRetry := maxUnlinkedLegRetry

/-- A conflux object has this nonce. -/
def nonceUsed (s : Pool α) (nonce : Nonce) : Bool :=
  (List.range s.nextCfx).any fun p => (s.cfx p).any fun set => set.nonce = nonce

/-- A circuit that cells can arrive on, or that can be closed. -/
def isOpen (s : Pool α) (c : ℕ) : Bool := (s.circ c).any fun circ => ¬ circ.markedForClose

/-- An event in the main loop; one that cannot happen changes nothing.  When the process is
shutting down, circuits are freed and nothing else happens; before, a circuit is freed after it was
marked.  `launch_new_set` draws a brand new nonce. -/
def event (s : Pool α) : PoolEvent α → Except Fault (Pool α)
  | .createCircuit =>
    .ok (if s.isClient ∨ s.shuttingDown then s else
      { s.setCirc s.nextCirc (some PoolCircuit.new) with nextCirc := s.nextCirc + 1 })
  | .launchNewSet nonce =>
    .ok (if ¬ s.isClient ∨ s.shuttingDown ∨ s.nonceUsed nonce then s
      else s.call [.launchMore nonce s.numLegsSet])
  | .link c cell enabled validHop sent =>
    if s.shuttingDown ∨ ¬ s.isOpen c then .ok s
    else s.confluxProcessLink c cell enabled validHop sent
  | .linked c cell enabled validHop rttOk sent =>
    if s.shuttingDown ∨ ¬ s.isOpen c then .ok s
    else s.confluxProcessLinked c cell enabled validHop rttOk sent
  | .close c =>
    .ok (if s.shuttingDown ∨ ¬ s.isOpen c then s else s.call [.markForClose c])
  | .free c =>
    if (s.circ c).any fun circ => s.shuttingDown ∨ circ.markedForClose then
      s.confluxCircuitAboutToFree c
    else .ok s
  | .traffic p cfx =>
    .ok (match s.cfx p with
      | some set =>
        if cfx.legs.entries.map Prod.fst = set.cfx.legs.entries.map Prod.fst
            ∧ cfx.inFullTeardown = set.cfx.inFullTeardown
        then s.setCfx p (some { set with cfx }) else s
      | none => s)
  | .inflight c inflight =>
    .ok (match s.circ c with
      | some circ => s.setCirc c (some { circ with inflight })
      | none => s)
  | .newParams maxLegsSet numLegsSet maxUnlinkedLegRetry =>
    .ok { s with maxLegsSet, numLegsSet, maxUnlinkedLegRetry }
  | .notifyShutdown => .ok { s with shuttingDown := true }
  | .runCall _ => .ok s

/-- Make a call. -/
def runCall (s : Pool α) (established : Bool) : Call → Except Fault (Pool α)
  | .markForClose c => s.circuitMarkForClose c
  | .closeLinked nonce => s.closeLinked nonce
  | .launchLeg nonce => (s.confluxLaunchLeg nonce established).map Prod.snd
  | .launchMore nonce numLegs => s.launchMore nonce established numLegs

/-- One event of the main loop, when no call is to be made any more, or the next call. -/
def exec (s : Pool α) (e : PoolEvent α) : Except Fault (Pool α) :=
  match s.calls, e with
  | [], e => s.event e
  | c :: calls, .runCall established => { s with calls }.runCall established c
  | _ :: _, _ => .ok s

/-- The state after an event, unless the program stops. -/
def step (s : Pool α) (e : PoolEvent α) : Option (Pool α) := (s.exec e).toOption

end Pool

end Ator.Conflux
