import AtorProtocol.Lib.AssocMap
import AtorProtocol.Lib.Heap

/-!
# Multiplexing over the legs of a conflux set

`src/core/or/conflux.c`.  The sender numbers the cells it multiplexes, and tells the receiver
with a SWITCH how far the numbers have moved on when it comes to another leg.  The receiver
delivers the cells in the order of their numbers.

* `confluxDecideCircForSend`, `confluxNoteCellSent` — the sender.
* `confluxProcessSwitchCommand`, `confluxProcessCell`, `confluxDequeueCell` — the receiver.

The RTTs of the legs and the state of their circuits have one use, to choose between legs: here
the choice is an argument.
-/

namespace Ator.Conflux

/-- The relay commands that `conflux_should_multiplex` knows. -/
inductive RelayCommand where
  | begin | data | «end» | connected
  | sendme | extend | extended | truncate | truncated | drop
  | resolve | resolved
  | beginDir | extend2 | extended2 | establishIntro | establishRendezvous | introduce1 | introduce2
  | rendezvous1 | rendezvous2 | introEstablished | rendezvousEstablished | introduceAck
  | paddingNegotiate | paddingNegotiated
  | xoff | xon
  | confluxSwitch | confluxLink | confluxLinked | confluxLinkedAck
  | unknown (command : ℕ)
deriving DecidableEq

def confluxShouldMultiplex : RelayCommand → Bool
  | .begin | .data | .end | .connected => true
  | .resolve | .resolved => true
  | .xoff | .xon => true
  | _ => false

def uint32Max : ℕ := 2 ^ 32 - 1

/-- Addition in `uint64_t`. -/
def addU64 (a b : ℕ) : ℕ := (a + b) % 2 ^ 64

lemma addU64_of_lt {a b : ℕ} (h : a + b < 2 ^ 64) : addU64 a b = a + b := Nat.mod_eq_of_lt h

/-- Subtraction in `uint64_t`. -/
def subU64 (a b : ℕ) : ℕ := (a + 2 ^ 64 - b) % 2 ^ 64

lemma subU64_of_le {a b : ℕ} (h : b ≤ a) (ha : a < 2 ^ 64) : subU64 a b = a - b := by
  rw [subU64]
  omega

/-- `conflux_leg_t`: the highest sequence numbers received and sent on a leg. -/
structure ConfluxLeg where
  lastSeqRecv : ℕ
  lastSeqSent : ℕ
deriving DecidableEq

/-- `conflux_cell_t`: a cell that waits for the ones before it. -/
structure ConfluxCell (α : Type*) where
  seq : ℕ
  cell : α

/-- `conflux_t`, over circuits `ι` and cells `α`.  The legs are kept by their circuits, and
`curr_leg` and `prev_leg` are the circuits of those legs. -/
structure Cfx (ι α : Type*) where
  legs : AssocMap ι ConfluxLeg
  oooQ : PQueue (ConfluxCell.seq (α := α))
  lastSeqDelivered : ℕ
  currLeg : Option ι
  prevLeg : Option ι
  inFullTeardown : Bool

/-- A leg's circuit as the scheduling picks it: the leg with the lowest RTT, and the circuit that
the algorithm returns, if one is ready. -/
structure Schedule (ι : Type*) where
  minLeg : Option ι
  nextCirc : Option ι

variable {ι α : Type*} [DecidableEq ι]

def confluxGetLeg (cfx : Cfx ι α) (circ : ι) : Option ConfluxLeg := cfx.legs.get circ

/-- `leg->field = …` -/
def Cfx.modifyLeg (cfx : Cfx ι α) (circ : ι) (f : ConfluxLeg → ConfluxLeg) : Cfx ι α :=
  { cfx with legs := cfx.legs.modify circ f }

lemma confluxGetLeg_modifyLeg (cfx : Cfx ι α) (circ circ' : ι) (f : ConfluxLeg → ConfluxLeg) :
    confluxGetLeg (cfx.modifyLeg circ f) circ'
      = if circ' = circ then (confluxGetLeg cfx circ').map f else confluxGetLeg cfx circ' := by
  split
  · next h => rw [h]; exact AssocMap.get_modify_self f
  · next h => exact AssocMap.get_modify_of_ne f h

/-! ## The sender -/

/-- The assertions of `conflux_decide_circ_for_send`. -/
inductive FailedAssert where
  | currLeg
  | prevLeg
  | lastSeqSent
  | relativeSeq
deriving DecidableEq

/-- The scheduling picks among the legs. -/
def legOf (cfx : Cfx ι α) (circ : Option ι) : Option ι :=
  circ.filter fun c => (confluxGetLeg cfx c).isSome

/-- `conflux_pick_first_leg`: without an RTT, the 0th leg. -/
def confluxPickFirstLeg (cfx : Cfx ι α) (minLeg : Option ι) : Option ι :=
  (legOf cfx minLeg).orElse fun _ => cfx.legs.entries.head?.map Prod.fst

def confluxDecideNextCirc (cfx : Cfx ι α) (sched : Schedule ι) : Cfx ι α × Option ι :=
  if cfx.inFullTeardown then (cfx, none) else
    match cfx.currLeg with
    | some _ => (cfx, legOf cfx sched.nextCirc)
    | none =>
      match confluxPickFirstLeg cfx sched.minLeg with
      | none => (cfx, none)
      | some leg => ({ cfx with currLeg := some leg }, legOf cfx sched.nextCirc)

/-- The circuit to send on, and the SWITCH that went out on it before. -/
structure Decision (ι α : Type*) where
  cfx : Cfx ι α
  circ : Option ι
  switch : Option ℕ

/-- Make `newCirc` the current leg, in place of `currCirc`. -/
def confluxSwitchLeg (cfx : Cfx ι α) (currCirc newCirc : ι) : Except FailedAssert (Decision ι α) :=
  match confluxGetLeg cfx currCirc, confluxGetLeg cfx newCirc with
  | none, _ => .error .prevLeg
  | _, none => .error .currLeg
  | some prevLeg, some currLeg =>
    let relativeSeq := subU64 prevLeg.lastSeqSent currLeg.lastSeqSent
    if prevLeg.lastSeqSent < currLeg.lastSeqSent then .error .lastSeqSent
    else if ¬ relativeSeq < uint32Max then .error .relativeSeq
    else
      .ok
        { cfx := { cfx.modifyLeg newCirc fun leg =>
            { leg with lastSeqSent := prevLeg.lastSeqSent } with
              currLeg := some newCirc, prevLeg := some currCirc }
          circ := some newCirc
          switch := some relativeSeq }

def confluxDecideCircForSend (cfx : Cfx ι α) (origCirc : ι) (relayCommand : RelayCommand)
    (sched : Schedule ι) : Except FailedAssert (Decision ι α) :=
  if confluxShouldMultiplex relayCommand then
    match confluxDecideNextCirc cfx sched with
    | (cfx, none) =>
      -- only DATA is bound by the congestion window: the others stay on the current leg
      .ok ⟨cfx, if relayCommand = .data then none else cfx.currLeg, none⟩
    | (cfx, some newCirc) =>
      match cfx.currLeg with
      | none => .error .currLeg
      | some currCirc =>
        if newCirc = currCirc then .ok ⟨cfx, some newCirc, none⟩
        else confluxSwitchLeg cfx currCirc newCirc
  else .ok ⟨cfx, some origCirc, none⟩

def confluxNoteCellSent (cfx : Cfx ι α) (circ : ι) (relayCommand : RelayCommand) : Cfx ι α :=
  if confluxShouldMultiplex relayCommand then
    cfx.modifyLeg circ fun leg => { leg with lastSeqSent := addU64 leg.lastSeqSent 1 }
  else cfx

/-! ## The receiver -/

/-- `conflux_process_switch_command`; `none` where it closes the circuit.  `enabled` and
`sourceHop` are the answers of `conflux_is_enabled` and `conflux_validate_source_hop`. -/
def confluxProcessSwitchCommand (cfx : Cfx ι α) (inCirc : ι) (enabled sourceHop : Bool)
    (relativeSeq : ℕ) : Option (Cfx ι α) :=
  if ¬ enabled then none
  else
    match confluxGetLeg cfx inCirc with
    | none => none
    | some _ =>
      if ¬ sourceHop then none
      else
        some (cfx.modifyLeg inCirc fun leg =>
          { leg with lastSeqRecv := addU64 leg.lastSeqRecv relativeSeq })

/-- What `conflux_process_cell` returns, and whether it closes the circuit. -/
structure Processed (ι α : Type*) where
  cfx : Cfx ι α
  inOrder : Bool
  close : Bool

def confluxProcessCell (cfx : Cfx ι α) (inCirc : ι) (sourceHop : Bool) (cell : α) :
    Processed ι α :=
  match confluxGetLeg cfx inCirc with
  | none => ⟨cfx, false, true⟩
  | some leg =>
    if ¬ sourceHop then ⟨cfx, false, true⟩
    else
      let seq := addU64 leg.lastSeqRecv 1
      let cfx := cfx.modifyLeg inCirc fun leg => { leg with lastSeqRecv := seq }
      if seq = addU64 cfx.lastSeqDelivered 1 then
        ⟨{ cfx with lastSeqDelivered := addU64 cfx.lastSeqDelivered 1 }, true, false⟩
      else if seq ≤ cfx.lastSeqDelivered then ⟨cfx, false, true⟩
      else ⟨{ cfx with oooQ := cfx.oooQ.add ⟨seq, cell⟩ }, false, false⟩

lemma cfx_confluxProcessCell (cfx : Cfx ι α) (inCirc : ι) (sourceHop : Bool) (cell : α) :
    (confluxProcessCell cfx inCirc sourceHop cell).cfx = cfx
      ∨ ∃ f oooQ lastSeqDelivered, (confluxProcessCell cfx inCirc sourceHop cell).cfx
        = { cfx.modifyLeg inCirc f with oooQ := oooQ, lastSeqDelivered := lastSeqDelivered } := by
  rw [confluxProcessCell]
  split
  · exact Or.inl rfl
  next leg _ =>
  split
  · exact Or.inl rfl
  right
  refine ⟨fun leg' => { leg' with lastSeqRecv := addU64 leg.lastSeqRecv 1 }, ?_⟩
  simp only
  split
  · exact ⟨_, _, rfl⟩
  · split
    · exact ⟨cfx.oooQ, cfx.lastSeqDelivered, rfl⟩
    · exact ⟨_, _, rfl⟩

variable {cfx cfx' : Cfx ι α}

lemma confluxProcessSwitchCommand_eq_some {inCirc : ι}
    {enabled sourceHop : Bool} {relativeSeq : ℕ}
    (h : confluxProcessSwitchCommand cfx inCirc enabled sourceHop relativeSeq = some cfx') :
    ∃ f, cfx' = cfx.modifyLeg inCirc f := by
  rw [confluxProcessSwitchCommand] at h
  split at h
  · cases h
  · split at h
    · cases h
    · split at h
      · cases h
      · exact ⟨_, (Option.some.inj h).symm⟩

def confluxDequeueCell (cfx : Cfx ι α) : Option (α × Cfx ι α) :=
  match cfx.oooQ.pop? with
  | none => none
  | some (top, oooQ) =>
    if top.seq = addU64 cfx.lastSeqDelivered 1 then
      some (top.cell, { cfx with oooQ := oooQ, lastSeqDelivered := addU64 cfx.lastSeqDelivered 1 })
    else none

omit [DecidableEq ι] in
lemma confluxDequeueCell_eq_some {cell : α}
    (h : confluxDequeueCell cfx = some (cell, cfx')) :
    ∃ top oooQ, cfx.oooQ.pop? = some (top, oooQ) ∧ top.cell = cell
      ∧ top.seq = addU64 cfx.lastSeqDelivered 1
      ∧ cfx' = { cfx with oooQ := oooQ, lastSeqDelivered := addU64 cfx.lastSeqDelivered 1 } := by
  rw [confluxDequeueCell] at h
  split at h
  · cases h
  · next top oooQ hpop =>
      split at h
      · next hseq =>
          obtain ⟨rfl, rfl⟩ := Prod.mk.inj (Option.some.inj h)
          exact ⟨top, oooQ, hpop, rfl, hseq, rfl⟩
      · cases h

omit [DecidableEq ι] in
lemma length_oooQ_confluxDequeueCell {cell : α}
    (h : confluxDequeueCell cfx = some (cell, cfx')) :
    cfx'.oooQ.items.length < cfx.oooQ.items.length := by
  obtain ⟨top, oooQ, hpop, -, -, rfl⟩ := confluxDequeueCell_eq_some h
  rw [(PQueue.pop?_eq_some hpop).1.length_eq, List.length_cons]
  exact Nat.lt_succ_self _

/-- The loop of `connection_edge_process_relay_cell`: the cells it takes off the queue. -/
def dequeueCells (cfx : Cfx ι α) : List α × Cfx ι α :=
  match _h : confluxDequeueCell cfx with
  | none => ([], cfx)
  | some (cell, cfx') =>
    let (cells, cfx') := dequeueCells cfx'
    (cell :: cells, cfx')
termination_by cfx.oooQ.items.length
decreasing_by exact length_oooQ_confluxDequeueCell _h

omit [DecidableEq ι] in
lemma dequeueCells_eq (cfx : Cfx ι α) : ∃ oooQ lastSeqDelivered, (dequeueCells cfx).2
    = { cfx with oooQ := oooQ, lastSeqDelivered := lastSeqDelivered } := by
  induction cfx using dequeueCells.induct with
  | case1 cfx hnone =>
    rw [dequeueCells]
    split
    · exact ⟨_, _, rfl⟩
    · next hsome => rw [hnone] at hsome; cases hsome
  | case2 cfx cell cfx' hsome _ _ _ ih =>
    rw [dequeueCells]
    split
    · next hnone => rw [hsome] at hnone; cases hnone
    · next cell' cfx'' hsome' =>
        rw [hsome] at hsome'
        cases hsome'
        obtain ⟨oooQ, lastSeqDelivered, htail⟩ := ih
        obtain ⟨-, oooQ', -, -, -, rfl⟩ := confluxDequeueCell_eq_some hsome
        exact ⟨oooQ, lastSeqDelivered, htail⟩

/-- What `connection_edge_process_relay_cell` does with a cell of a linked circuit: the set, the
cells it processes, in their order, and whether it closes the circuit. -/
structure Delivery (ι α : Type*) where
  cfx : Cfx ι α
  cells : List α
  close : Bool

/-- `connection_edge_process_relay_cell`, for a command that is multiplexed. -/
def connectionEdgeProcessRelayCell (cfx : Cfx ι α) (inCirc : ι) (sourceHop : Bool) (cell : α) :
    Delivery ι α :=
  let processed := confluxProcessCell cfx inCirc sourceHop cell
  if processed.inOrder then
    let (cells, cfx) := dequeueCells processed.cfx
    ⟨cfx, cell :: cells, processed.close⟩
  else ⟨processed.cfx, [], processed.close⟩

end Ator.Conflux
