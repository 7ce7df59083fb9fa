import AtorProtocol.Circpad.RelayMachines
import AtorProtocol.Circpad.Slot

/-!
# A client and a relay that negotiate padding

`src/core/or/circuitpadding.c` at both ends of a circuit whose cells arrive in the order they were
sent.  A side delivers the events of a cell before it packages it, so that what these events send
goes out first.

* `Net.step` — the client starts and stops machines, a machine of either side ends, the relay pads,
  and cells are packaged and arrive.
* `Net.slot` — what the two ends and the cells between them say of one slot.
* `Net.Agrees`, `Net.Accepted` — what the negotiation is for.
* `Net.Careful` — no side starts or stops a machine while the cells of another are due.
-/

namespace Ator.Circpad

/-- The machines of `origin_padding_machines` and of `relay_padding_machines`, which both ends
register alike. -/
structure PaddingMachines where
  origin : List MachineSpec
  relay : List MachineSpec
  targetHopnum : Fin 8
  originSide : ∀ m ∈ origin, m.isOriginSide = true
  relaySide : ∀ m ∈ relay, m.isOriginSide = false
  hop : ∀ m ∈ origin, m.targetHopnum = targetHopnum
  index : ∀ m ∈ origin, ∀ r ∈ relay, r.machineNum = m.machineNum → r.machineIndex = m.machineIndex
  known : ∀ m ∈ origin, ∃ r ∈ relay, r.machineNum = m.machineNum

/-- What a relay sends to the client: an answer, or padding. -/
inductive RelayCell where
  | negotiated (cell : Negotiated)
  | padding
  deriving DecidableEq

/-- A cell on its way.  The slot and the machine that it is about are for the reader; no function
reads them. -/
structure Flight (α : Type) where
  cell : α
  slot : Fin 2
  tag : Tag

/-- The two ends, with the cells that each has begun to send, the last first, and those on their way,
the first first.  The tags, and the number of machines started, are for the reader. -/
structure Net where
  client : Circuit
  relay : Circuit
  clientSending : List (Flight Negotiate)
  toRelay : List (Flight Negotiate)
  relaySending : List (Flight RelayCell)
  toClient : List (Flight RelayCell)
  clientTag : Fin 2 → Tag
  relayTag : Fin 2 → Tag
  started : ℕ

/-- What can happen. -/
inductive NetEvent where
  | addMatchingMachine (machine : MachineSpec)
  | shutdownOldMachine (i : Fin 2)
  | clientMachineEnds (i : Fin 2)
  | clientPackages
  | relayReceives
  | relayMachineEnds (i : Fin 2)
  | relayPads (i : Fin 2)
  | relayPackages
  | clientReceives

namespace Net

variable (machines : PaddingMachines) (net : Net)

/-- Before any machine is started. -/
def init : Net := ⟨.new true, .new false, [], [], [], [], fun _ => ⟨0, 0, 0⟩, fun _ => ⟨0, 0, 0⟩, 0⟩

/-! ## The client -/

/-- The client sends the START of a machine. -/
def clientStarts (machine : MachineSpec) : Circuit × Option Negotiate → Net
  | (client, none) => { net with client := client }
  | (client, some cell) =>
    let tag : Tag := ⟨cell.machineType, cell.machineCtr, net.started + 1⟩
    { net with
      client := client
      clientSending := ⟨cell, machine.machineIndex, tag⟩ :: net.clientSending
      clientTag := Function.update net.clientTag machine.machineIndex tag
      started := net.started + 1 }

/-- The client sends the STOP of the machine in slot `i`. -/
def clientStops (i : Fin 2) : Circuit × Option Negotiate → Net
  | (client, none) => { net with client := client }
  | (client, some cell) =>
    { net with
      client := client
      clientSending := ⟨cell, i, net.clientTag i⟩ :: net.clientSending }

/-- The cell of a client machine at its end. -/
def clientEnds (i : Fin 2) : Circuit × Option Negotiate :=
  match net.client.circpadMachineSpecTransitionedToEnd i with
  | (client, some (.negotiate cell)) => (client, some cell)
  | (client, _) => (client, none)

/-- The client takes what it is sent; padding changes none of its slots. -/
def clientTakes (cell : RelayCell) : Circuit :=
  match cell with
  | .negotiated negotiated =>
    (net.client.circpadHandlePaddingNegotiated negotiated machines.targetHopnum).1
  | .padding => net.client

/-! ## The relay -/

/-- The relay handles a cell, and begins to send its answer. -/
def relayHandles (x : Flight Negotiate) : Net :=
  let handled := net.relay.circpadHandlePaddingNegotiate machines.relay
    (circpadNegotiateEncode x.cell)
  { net with
    relay := handled.circ
    relaySending := (handled.answer.toList.map fun answer => ⟨.negotiated answer, x.slot, x.tag⟩)
      ++ net.relaySending
    relayTag := if handled.setup = some .installed then Function.update net.relayTag x.slot x.tag
      else net.relayTag }

/-- The relay sends that the machine in slot `i` is at its end. -/
def relayEnds (i : Fin 2) : Circuit × Option Sent → Net
  | (relay, some (.negotiated cell)) =>
    { net with
      relay := relay
      relaySending := ⟨.negotiated cell, i, net.relayTag i⟩ :: net.relaySending }
  | (relay, _) => { net with relay := relay }

/-! ## Steps -/

/-- One step; `none` where there is no such machine or cell, or where a side that still sends a cell
would receive one. -/
def step (net : Net) : NetEvent → Option Net
  | .addMatchingMachine machine =>
    if machine ∈ machines.origin then
      some (net.clientStarts machine (net.client.circpadAddMatchingMachine machine))
    else none
  | .shutdownOldMachine i => some (net.clientStops i (net.client.circpadShutdownOldMachine i))
  | .clientMachineEnds i => some (net.clientStops i (net.clientEnds i))
  | .clientPackages =>
    match net.clientSending with
    | [] => none
    | x :: clientSending =>
      some { net with clientSending := clientSending, toRelay := net.toRelay ++ [x] }
  | .relayReceives =>
    match net.relaySending, net.toRelay with
    | [], x :: toRelay => some { net.relayHandles machines x with toRelay := toRelay }
    | _, _ => none
  | .relayMachineEnds i =>
    some (net.relayEnds i (net.relay.circpadMachineSpecTransitionedToEnd i))
  | .relayPads i =>
    if net.relay.paddingInfo i ≠ none then
      some { net with toClient := net.toClient ++ [⟨.padding, i, net.relayTag i⟩] }
    else none
  | .relayPackages =>
    match net.relaySending with
    | [] => none
    | x :: relaySending =>
      some { net with relaySending := relaySending, toClient := net.toClient ++ [x] }
  | .clientReceives =>
    match net.clientSending, net.toClient with
    | [], x :: toClient =>
      some { net with client := net.clientTakes machines x.cell, toClient := toClient }
    | _, _ => none

/-! ## Slots -/

/-- What a cell says of the machine that it is about. -/
def answer : RelayCell → Answer
  | .padding => .padding
  | .negotiated negotiated =>
    match negotiated.command with
    | .start => .started
    | .stop => .stopped

/-- The commands about slot `i`. -/
def upOf (cells : List (Flight Negotiate)) (i : Fin 2) : List (Command × Tag) :=
  (cells.filter fun x => x.slot = i).map fun x => (x.cell.command, x.tag)

/-- The answers and the padding about slot `i`. -/
def downOf (cells : List (Flight RelayCell)) (i : Fin 2) : List (Answer × Tag) :=
  (cells.filter fun x => x.slot = i).map fun x => (answer x.cell, x.tag)

/-- Slot `i`, seen from both ends. -/
def slot (i : Fin 2) : Slot where
  client := (net.client.paddingMachine i).map fun _ =>
    (net.clientTag i, (net.client.paddingInfo i).isSome)
  relay := (net.relay.paddingMachine i).map fun _ => net.relayTag i
  up := upOf (net.toRelay ++ net.clientSending) i
  down := downOf (net.toClient ++ net.relaySending) i

/-! ## The claim and its condition -/

/-- Once all cells are delivered, a machine that is active on the relay runs at the client, with the
same counter. -/
def Agrees : Prop :=
  net.clientSending = [] → net.toRelay = [] → net.relaySending = [] → net.toClient = [] →
    ∀ i m ctr, net.relay.paddingMachine i = some m → net.relay.paddingInfo i = some ctr →
      net.client.paddingInfo i = some ctr
        ∧ ∃ m' ∈ net.client.paddingMachine i, m'.machineNum = m.machineNum

/-- The client takes what it is sent as from an expected hop, and a STOP frees on either side only
the machine that it was sent for. -/
def Accepted (net : Net) : NetEvent → Prop
  | .clientReceives =>
    ∀ x ∈ net.toClient.head?, net.client.circpadPaddingIsFromExpectedHop machines.targetHopnum = true
      ∧ ∀ negotiated, x.cell = .negotiated negotiated → negotiated.command = .stop →
        ∀ i, net.client.frees negotiated.machineType negotiated.machineCtr i = true →
          (net.clientTag i).inst = x.tag.inst
  | .relayReceives =>
    ∀ x ∈ net.toRelay.head?, x.cell.command = .stop →
      ∀ i, net.relay.frees x.cell.machineType x.cell.machineCtr i = true →
        (net.relayTag i).inst = x.tag.inst
  | _ => True

/-- The client has heard that every earlier machine with the number of the one in slot `i` is
stopped. -/
def Settled (i : Fin 2) : Prop :=
  ∀ x ∈ (net.slot i).track, x.1 = true → x.2.num = (net.clientTag i).num →
    x.2.inst = (net.clientTag i).inst

instance (i : Fin 2) : Decidable (net.Settled i) := List.decidableBAll _ _

/-- The client stops the machine in slot `i` only where no cell about the slot is being sent and the
earlier machines are settled. -/
def CarefulStop (i : Fin 2) : Option Negotiate → Prop
  | none => True
  | some _ => (∀ x ∈ net.clientSending, x.slot ≠ i) ∧ net.Settled i

instance (i : Fin 2) (cell : Option Negotiate) : Decidable (net.CarefulStop i cell) :=
  match cell with
  | none => instDecidableTrue
  | some _ => instDecidableAnd

/-- The client sends the START of a machine only where no other START and no cell about the slot is
being sent, and the counter is not that of a machine it has yet to hear of. -/
def CarefulStart (i : Fin 2) : Option Negotiate → Prop
  | none => True
  | some cell => (∀ x ∈ net.clientSending, x.cell.command ≠ .start ∧ x.slot ≠ i)
      ∧ ∀ x ∈ (net.slot i).track, x.1 = true → x.2.num = cell.machineType →
        x.2.ctr ≠ cell.machineCtr

instance (i : Fin 2) (cell : Option Negotiate) : Decidable (net.CarefulStart i cell) :=
  match cell with
  | none => instDecidableTrue
  | some _ => instDecidableAnd

/-- No machine of the relay ends while the answer to its START is being sent. -/
def CarefulEnd (i : Fin 2) : Option Sent → Prop
  | none => True
  | some _ => ∀ x ∈ net.relaySending, x.slot ≠ i

instance (i : Fin 2) (cell : Option Sent) : Decidable (net.CarefulEnd i cell) :=
  match cell with
  | none => instDecidableTrue
  | some _ => List.decidableBAll _ _

/-- What a side starts, stops or ends, it does with care. -/
def Careful (net : Net) : NetEvent → Prop
  | .addMatchingMachine machine =>
    net.CarefulStart machine.machineIndex (net.client.circpadAddMatchingMachine machine).2
  | .shutdownOldMachine i => net.CarefulStop i (net.client.circpadShutdownOldMachine i).2
  | .clientMachineEnds i => net.CarefulStop i (net.clientEnds i).2
  | .relayMachineEnds i => net.CarefulEnd i (net.relay.circpadMachineSpecTransitionedToEnd i).2
  | .clientPackages | .relayReceives | .relayPads _ | .relayPackages | .clientReceives => True

instance (net : Net) (e : NetEvent) : Decidable (net.Careful e) :=
  match e with
  | .addMatchingMachine _ => inferInstanceAs (Decidable (net.CarefulStart _ _))
  | .shutdownOldMachine _ | .clientMachineEnds _ =>
    inferInstanceAs (Decidable (net.CarefulStop _ _))
  | .relayMachineEnds _ => inferInstanceAs (Decidable (net.CarefulEnd _ _))
  | .clientPackages | .relayReceives | .relayPads _ | .relayPackages | .clientReceives =>
    instDecidableTrue

end Net

end Ator.Circpad
