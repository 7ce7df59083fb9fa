import AtorProtocol.Conflux.Multiplex

/-!
# Linking and closing legs

What `src/core/or/conflux_pool.c` does to one set: the legs that a LINK or LINKED cell adds, with
the sequence numbers that the other end put in it, and the legs that close.

* `tryFinalizeSet` — the checks before legs are added, and `cfxAddLeg`.
* `cfxDelLeg`, `linkedCircuitClosed` — a leg closes, and perhaps the whole set with it.
-/

namespace Ator.Conflux

variable {ι α ν : Type*} [DecidableEq ι] [DecidableEq ν]

/-- `conflux_cell_link_t`.  The desired UX has one use, to choose the scheduling. -/
structure LinkCell (ν : Type*) where
  version : ℕ
  nonce : ν
  lastSeqnoSent : UInt64
  lastSeqnoRecv : UInt64
deriving DecidableEq

/-- `leg_t`: a circuit that waits to be linked. -/
structure Leg (ι ν : Type*) where
  circ : ι
  link : LinkCell ν
  linked : Bool
deriving DecidableEq

/-- `conflux_new` -/
def Cfx.new : Cfx ι α where
  legs := ∅
  oooQ := PQueue.empty _
  lastSeqDelivered := 0
  currLeg := none
  prevLeg := none
  inFullTeardown := false

/-- `CONFLUX_NUM_LEGS` -/
def Cfx.numLegs (cfx : Cfx ι α) : ℕ := cfx.legs.size

/-! ## Linking -/

/-- `validate_unlinked_legs`: all legs agree with the first, and the other end has not sent what
did not arrive. -/
def validateUnlinkedLegs (cfx : Cfx ι α) (legs : List (Leg ι ν)) : Bool :=
  legs.all fun leg =>
    (legs.head?.all fun first =>
      leg.link.version = first.link.version ∧ leg.link.nonce = first.link.nonce)
    ∧ leg.link.lastSeqnoSent.toNat ≤ cfx.lastSeqDelivered

/-- `cfx_add_leg`: the numbers are those of the cell. -/
def cfxAddLeg (cfx : Cfx ι α) (leg : Leg ι ν) : Cfx ι α :=
  { cfx with
    legs := cfx.legs.set leg.circ
      { lastSeqRecv := leg.link.lastSeqnoSent.toNat
        lastSeqSent := leg.link.lastSeqnoRecv.toNat } }

/-- What `try_finalize_set` comes to. -/
inductive Finalized (ι α : Type*) where
  | missingLeg
  | tooManyLegs
  | invalidLegs
  | waiting
  | linked (cfx : Cfx ι α)

/-- `try_finalize_set`, over `conflux_params_get_max_legs_set`. -/
def tryFinalizeSet (maxLegsSet : ℕ) (cfx : Cfx ι α) (legs : List (Leg ι ν)) : Finalized ι α :=
  if legs.length = 0 then .missingLeg
  else if legs.length + cfx.numLegs > maxLegsSet then .tooManyLegs
  else if ¬ validateUnlinkedLegs cfx legs then .invalidLegs
  else if ¬ legs.all Leg.linked then .waiting
  else .linked (legs.foldl cfxAddLeg cfx)

/-! ## Closing -/

def confluxGetMaxSeqSent (cfx : Cfx ι α) : ℕ :=
  (cfx.legs.values.map ConfluxLeg.lastSeqSent).foldl max 0

def confluxGetMaxSeqRecv (cfx : Cfx ι α) : ℕ :=
  (cfx.legs.values.map ConfluxLeg.lastSeqRecv).foldl max 0

/-- `cfx_del_leg`, and whether the whole set has to go.  `inflight` says that the circuit has at
least a SENDME's worth of data in flight. -/
def cfxDelLeg (cfx : Cfx ι α) (circ : ι) (inflight : Bool) : Cfx ι α × Bool :=
  match confluxGetLeg cfx circ with
  | none => (cfx, false)
  | some leg =>
    let cfx' := { cfx with legs := cfx.legs.erase circ }
    let highest := cfx'.numLegs > 0 ∧ (confluxGetMaxSeqSent cfx' < leg.lastSeqSent
      ∨ confluxGetMaxSeqRecv cfx' < leg.lastSeqRecv)
    ({ cfx' with
        currLeg := if cfx.currLeg = some circ then none else cfx.currLeg
        prevLeg := if cfx.prevLeg = some circ then none else cfx.prevLeg },
      inflight || highest || cfx.currLeg = some circ)

/-- `conflux_mark_all_for_close` on a set of the linked pool: all its legs close. -/
def confluxMarkAllForClose (cfx : Cfx ι α) : Cfx ι α :=
  if cfx.numLegs = 0 then cfx
  else { cfx with legs := ∅, currLeg := none, prevLeg := none, inFullTeardown := true }

/-- `linked_circuit_closed`.  A set whose last leg has closed is out of the pool. -/
def linkedCircuitClosed (cfx : Cfx ι α) (circ : ι) (inflight : Bool) : Cfx ι α :=
  if (cfxDelLeg cfx circ inflight).2 then confluxMarkAllForClose (cfxDelLeg cfx circ inflight).1
  else (cfxDelLeg cfx circ inflight).1

end Ator.Conflux
