import Mathlib.Algebra.Ring.Nat
import Mathlib.Logic.Function.Basic

/-!
# Negotiation of padding machines

`src/core/or/circuitpadding.c` and the cells of `src/trunnel/circpad_negotiation.c`.  Both ends of a
circuit have two slots for machines; the client asks the relay to start or to stop one.

* `Circuit` — the slots of one end, and the counter of its machines.
* `circpadSetupMachineOnCirc`, `freeCircMachineinfosWithMachineNum` — what both ends do.
* `circpadHandlePaddingNegotiate` — the relay.
* `circpadHandlePaddingNegotiated` — the client.
* `circpadMachineSpecTransitionedToEnd` — a machine at its end.
-/

namespace Ator.Circpad

/-! ## Cells -/

/-- `CIRCPAD_COMMAND_STOP`, `CIRCPAD_COMMAND_START` -/
inductive Command where
  | stop
  | start
  deriving DecidableEq

/-- `CIRCPAD_RESPONSE_OK`, `CIRCPAD_RESPONSE_ERR` -/
inductive Response where
  | ok
  | err
  deriving DecidableEq

/-- `circpad_negotiate_t`, without the version and the echo request that no function reads. -/
structure Negotiate where
  command : Command
  machineType : UInt8
  machineCtr : UInt32
  deriving DecidableEq

structure Negotiated where
  command : Command
  response : Response
  machineType : UInt8
  machineCtr : UInt32
  deriving DecidableEq

/-- The cells that the two ends send. -/
inductive Sent where
  | negotiate (cell : Negotiate)
  | negotiated (cell : Negotiated)
  deriving DecidableEq

/-- The byte of a command. -/
def Command.toByte : Command → UInt8
  | stop => 1
  | start => 2

/-- The command of a byte. -/
def Command.ofByte (byte : UInt8) : Option Command :=
  if byte = 1 then some stop else if byte = 2 then some start else none

@[simp] lemma Command.ofByte_toByte (command : Command) :
    Command.ofByte command.toByte = some command := by
  cases command with
  | stop => rfl
  | start => rfl

/-- `trunnel_ntohl(trunnel_get_uint32(ptr))` -/
def getUint32 (a b c d : UInt8) : UInt32 :=
  UInt32.ofNat (((a.toNat * 256 + b.toNat) * 256 + c.toNat) * 256 + d.toNat)

/-- `trunnel_set_uint32(ptr, trunnel_htonl(n))` -/
def setUint32 (n : UInt32) : List UInt8 :=
  [UInt8.ofNat (n.toNat / 16777216), UInt8.ofNat (n.toNat / 65536), UInt8.ofNat (n.toNat / 256),
    UInt8.ofNat n.toNat]

def circpadNegotiateEncode (negotiate : Negotiate) : List UInt8 :=
  [0, negotiate.command.toByte, negotiate.machineType, 0] ++ setUint32 negotiate.machineCtr

def circpadNegotiateParse : List UInt8 → Option Negotiate
  | version :: command :: machineType :: echoRequest :: a :: b :: c :: d :: _ =>
    if version = 0 then
      (Command.ofByte command).bind fun command =>
        if echoRequest = 0 ∨ echoRequest = 1 then
          some ⟨command, machineType, getUint32 a b c d⟩
        else none
    else none
  | _ => none

/-- What is sent is what arrives; the rest of the payload is not read. -/
@[simp] theorem circpadNegotiateParse_encode (negotiate : Negotiate) (rest : List UInt8) :
    circpadNegotiateParse (circpadNegotiateEncode negotiate ++ rest) = some negotiate := by
  have hctr : getUint32 (UInt8.ofNat (negotiate.machineCtr.toNat / 16777216))
      (UInt8.ofNat (negotiate.machineCtr.toNat / 65536))
      (UInt8.ofNat (negotiate.machineCtr.toNat / 256))
      (UInt8.ofNat negotiate.machineCtr.toNat) = negotiate.machineCtr := by
    have hlt := negotiate.machineCtr.toNat_lt
    rw [getUint32, ← UInt32.toNat_inj, UInt32.toNat_ofNat']
    simp only [UInt8.toNat_ofNat']
    omega
  simp only [circpadNegotiateEncode, setUint32, List.cons_append, List.nil_append,
    circpadNegotiateParse, Command.ofByte_toByte, Option.bind_some, hctr, if_true, true_or]

/-! ## The slots of a circuit -/

/-- There are `CIRCPAD_MAX_MACHINES` slots. -/
scoped instance maxMachines_neZero : NeZero 2 := ⟨by decide⟩

scoped instance hopnum_neZero : NeZero 8 := ⟨by decide⟩

/-- `circpad_machine_spec_t`, as far as negotiation reads it.  `machine_index` has one bit, for
`CIRCPAD_MAX_MACHINES` slots, and `target_hopnum` three. -/
structure MachineSpec where
  machineNum : UInt8
  machineIndex : Fin 2
  shouldNegotiateEnd : Bool
  isOriginSide : Bool
  targetHopnum : Fin 8
  deriving DecidableEq

/-- The padding fields of `circuit_t` and `origin_circuit_t`.  Of the runtime information of a
machine only its counter is kept. -/
structure Circuit where
  isOrigin : Bool
  paddingMachine : Fin 2 → Option MachineSpec
  paddingInfo : Fin 2 → Option UInt32
  paddingMachineCtr : UInt32
  paddingNegotiationFailed : Bool

/-- What `circpad_setup_machine_on_circ` comes to: the machine is set up, or one of its checks for a
bug fires. -/
inductive SetupOutcome where
  | installed
  | bugNonOriginMachine
  | bugOriginMachine
  | bugPaddingMachine
  | bugPaddingInfo
  deriving DecidableEq

namespace Circuit

variable (circ : Circuit)

/-- A circuit without machines. -/
def new (isOrigin : Bool) : Circuit := ⟨isOrigin, fun _ => none, fun _ => none, 0, false⟩

def circpadCircuitMachineinfoFreeIdx (i : Fin 2) : Circuit :=
  { circ with paddingInfo := Function.update circ.paddingInfo i none }

/-- `circ->padding_machine[i] = NULL` -/
def clearPaddingMachine (i : Fin 2) : Circuit :=
  { circ with paddingMachine := Function.update circ.paddingMachine i none }

/-- The counter of the next machine: 0 is special, the counter wraps to 1. -/
def nextMachineCtr : UInt32 :=
  if circ.paddingMachineCtr + 1 = 0 then 1 else circ.paddingMachineCtr + 1

/-- The machine takes its slot, with the next counter. -/
def install (machine : MachineSpec) : Circuit :=
  { circ with
    paddingMachineCtr := circ.nextMachineCtr
    paddingInfo := Function.update circ.paddingInfo machine.machineIndex (some circ.nextMachineCtr)
    paddingMachine := Function.update circ.paddingMachine machine.machineIndex (some machine) }

def circpadSetupMachineOnCirc (machine : MachineSpec) : Circuit × SetupOutcome :=
  if circ.isOrigin ∧ ¬ machine.isOriginSide then (circ, .bugNonOriginMachine)
  else if ¬ circ.isOrigin ∧ machine.isOriginSide then (circ, .bugOriginMachine)
  else if circ.paddingMachine machine.machineIndex ≠ none then (circ, .bugPaddingMachine)
  else if circ.paddingInfo machine.machineIndex ≠ none then (circ, .bugPaddingInfo)
  else (circ.install machine, .installed)

/-- `free_circ_machineinfos_with_machine_num` frees slot `i`: its machine has the number, and the
counter is 0 or that of the runtime information, if there is any. -/
def frees (machineNum : UInt8) (machineCtr : UInt32) (i : Fin 2) : Bool :=
  match circ.paddingMachine i with
  | none => false
  | some machine =>
    machine.machineNum = machineNum
      && (machineCtr = 0 || match circ.paddingInfo i with
        | none => true
        | some ctr => ctr = machineCtr)

def freeCircMachineinfosWithMachineNum (machineNum : UInt8) (machineCtr : UInt32) :
    Circuit × Bool :=
  ({ circ with
      paddingInfo := fun i => if circ.frees machineNum machineCtr i then none else circ.paddingInfo i
      paddingMachine := fun i =>
        if circ.frees machineNum machineCtr i then none else circ.paddingMachine i },
    decide (∃ i, circ.frees machineNum machineCtr i))

/-! ## The relay -/

/-- What the relay does with a cell: the circuit after it, the value returned, the answer, and what
the setup of a machine came to. -/
structure Handled where
  circ : Circuit
  retval : ℤ
  answer : Option Negotiated
  setup : Option SetupOutcome

/-- The answer to `negotiate`, for the value returned. -/
def Handled.answering (negotiate : Negotiate) (circ : Circuit) (retval : ℤ)
    (setup : Option SetupOutcome) : Handled where
  circ := circ
  retval := retval
  answer := some ⟨negotiate.command, if retval = 0 then .ok else .err, negotiate.machineType,
    negotiate.machineCtr⟩
  setup := setup

/-- `circpad_handle_padding_negotiate`, once the cell is parsed.  The cell event of a START that
finds its machine is a step of its own. -/
def handleNegotiate (relayPaddingMachines : List MachineSpec) (negotiate : Negotiate) : Handled :=
  match negotiate.command with
  | .stop =>
    match circ.freeCircMachineinfosWithMachineNum negotiate.machineType negotiate.machineCtr with
    | (freed, true) => .answering negotiate freed 0 none
    | (kept, false) =>
      ⟨kept, if negotiate.machineCtr ≤ circ.paddingMachineCtr then 0 else -1, none, none⟩
  | .start =>
    match relayPaddingMachines.find? fun m => m.machineNum = negotiate.machineType with
    | some m =>
      let setup := circ.circpadSetupMachineOnCirc m
      .answering negotiate setup.1 0 (some setup.2)
    | none => .answering negotiate circ (-1) none

def circpadHandlePaddingNegotiate (relayPaddingMachines : List MachineSpec)
    (payload : List UInt8) : Handled :=
  if circ.isOrigin then ⟨circ, -1, none, none⟩
  else match circpadNegotiateParse payload with
    | none => ⟨circ, -1, none, none⟩
    | some negotiate => circ.handleNegotiate relayPaddingMachines negotiate

/-! ## The client -/

/-- `circpad_add_matching_machines`, for a machine whose conditions match, with the START to send. -/
def circpadAddMatchingMachine (machine : MachineSpec) : Circuit × Option Negotiate :=
  if circ.paddingNegotiationFailed then (circ, none)
  else if circ.paddingInfo machine.machineIndex ≠ none then (circ, none)
  else if (circ.paddingMachine machine.machineIndex).any
      fun old => old.targetHopnum ≠ machine.targetHopnum then (circ, none)
  else
    let setup := ((circ.clearPaddingMachine machine.machineIndex).circpadSetupMachineOnCirc machine).1
    (setup, some ⟨.start, machine.machineNum, setup.paddingMachineCtr⟩)

/-- `circpad_shutdown_old_machines`, for a machine whose conditions no longer match, with the STOP to
send.  The machine stays in slot `i` as a placeholder. -/
def circpadShutdownOldMachine (i : Fin 2) : Circuit × Option Negotiate :=
  match circ.paddingInfo i, circ.paddingMachine i with
  | some machineCtr, some machine =>
    (circ.circpadCircuitMachineinfoFreeIdx i, some ⟨.stop, machine.machineNum, machineCtr⟩)
  | _, _ => (circ, none)

/-- `circpad_padding_is_from_expected_hop`, for the hop with the number `fromHop` of the path. -/
def circpadPaddingIsFromExpectedHop (fromHop : ℕ) : Bool :=
  circ.isOrigin && decide (∃ i, (circ.paddingMachine i).any fun m => m.targetHopnum.val = fromHop)

/-- `circpad_handle_padding_negotiated`, and the value returned. -/
def circpadHandlePaddingNegotiated (negotiated : Negotiated) (fromHop : ℕ) : Circuit × ℤ :=
  if ¬ circ.circpadPaddingIsFromExpectedHop fromHop then (circ, -1)
  else
    let freed := circ.freeCircMachineinfosWithMachineNum negotiated.machineType
      negotiated.machineCtr
    match negotiated.command, negotiated.response with
    | .stop, _ => (freed.1, 0)
    | .start, .ok => (circ, 0)
    | .start, .err =>
      (if freed.2 then { freed.1 with paddingNegotiationFailed := true } else freed.1, 0)

/-! ## Machines at their end -/

/-- `circpad_machine_spec_transitioned_to_end` of the machine in slot `i`, and what it sends. -/
def circpadMachineSpecTransitionedToEnd (i : Fin 2) : Circuit × Option Sent :=
  match circ.paddingInfo i, circ.paddingMachine i with
  | some machineCtr, some machine =>
    if machine.shouldNegotiateEnd then
      let freed := circ.circpadCircuitMachineinfoFreeIdx machine.machineIndex
      if machine.isOriginSide then
        (freed, some (.negotiate ⟨.stop, machine.machineNum, machineCtr⟩))
      else
        (freed.clearPaddingMachine machine.machineIndex,
          some (.negotiated ⟨.stop, .ok, machine.machineNum, machineCtr⟩))
    else (circ, none)
  | _, _ => (circ, none)

/-! ## What the changes leave -/

/-- Slot `i` without a machine. -/
def clearSlot (i : Fin 2) : Circuit :=
  (circ.circpadCircuitMachineinfoFreeIdx i).clearPaddingMachine i

variable {circ} {machine : MachineSpec} {i j : Fin 2}

@[simp] lemma install_paddingMachine : (circ.install machine).paddingMachine j
    = if j = machine.machineIndex then some machine else circ.paddingMachine j :=
  Function.update_apply _ _ _ _

@[simp] lemma install_paddingInfo : (circ.install machine).paddingInfo j
    = if j = machine.machineIndex then some circ.nextMachineCtr else circ.paddingInfo j :=
  Function.update_apply _ _ _ _

@[simp] lemma install_paddingMachineCtr :
    (circ.install machine).paddingMachineCtr = circ.nextMachineCtr := rfl

@[simp] lemma freeIdx_paddingMachine :
    (circ.circpadCircuitMachineinfoFreeIdx i).paddingMachine = circ.paddingMachine := rfl

@[simp] lemma freeIdx_paddingInfo : (circ.circpadCircuitMachineinfoFreeIdx i).paddingInfo j
    = if j = i then none else circ.paddingInfo j :=
  Function.update_apply _ _ _ _

@[simp] lemma freeIdx_paddingMachineCtr :
    (circ.circpadCircuitMachineinfoFreeIdx i).paddingMachineCtr = circ.paddingMachineCtr := rfl

@[simp] lemma clearSlot_paddingMachine :
    (circ.clearSlot i).paddingMachine j = if j = i then none else circ.paddingMachine j :=
  Function.update_apply _ _ _ _

@[simp] lemma clearSlot_paddingInfo :
    (circ.clearSlot i).paddingInfo j = if j = i then none else circ.paddingInfo j :=
  freeIdx_paddingInfo

@[simp] lemma clearSlot_paddingMachineCtr :
    (circ.clearSlot i).paddingMachineCtr = circ.paddingMachineCtr := rfl

end Circuit

end Ator.Circpad
