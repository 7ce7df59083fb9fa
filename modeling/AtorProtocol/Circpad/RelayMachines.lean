import AtorProtocol.Circpad.Negotiate
import AtorProtocol.Lib.Run

/-!
# The padding machines of a relay

`src/core/or/circuitpadding.c`, for a relay whose client sends any cells.

* `relayStep` — a cell arrives, or a cell event takes a machine to its end.
* `relayMachines_iff` — no check for a bug fires and an answer tells what was done exactly when no
  START names a machine whose slot is taken.
* `relayMachines_fails` — two machines that share a slot.
-/

namespace Ator.Circpad

open Option

/-- `relay_padding_machines`: `circpad_machines_init` registers no machine of the other side. -/
structure RelayPaddingMachines where
  machines : List MachineSpec
  relaySide : ∀ m ∈ machines, m.isOriginSide = false

/-- What a relay sees of a circuit.  A padding or nonpadding cell event matters where it takes a
machine to its end. -/
inductive RelayEvent where
  | paddingNegotiate (payload : List UInt8)
  | transitionedToEnd (i : Fin 2)
  deriving DecidableEq

/-- One step of a relay. -/
def relayStep (relay : RelayPaddingMachines) (circ : Circuit) : RelayEvent → Option Circuit
  | .paddingNegotiate payload =>
    some (circ.circpadHandlePaddingNegotiate relay.machines payload).circ
  | .transitionedToEnd i => some (circ.circpadMachineSpecTransitionedToEnd i).1

namespace Circuit

/-- At most one machine occupies each slot: the one with that index, which has runtime information
as long as it is there. -/
structure OneMachine (circ : Circuit) : Prop where
  relay : circ.isOrigin = false
  info : ∀ i, circ.paddingInfo i = none ↔ circ.paddingMachine i = none
  index : ∀ i m, circ.paddingMachine i = some m → m.machineIndex = i ∧ m.isOriginSide = false

/-- The machine took its slot, which was empty. -/
def Installs (before after : Circuit) (m : MachineSpec) : Prop :=
  before.paddingMachine m.machineIndex = none ∧ after.paddingMachine m.machineIndex = some m

/-- No check for a bug fires, and the answer to a START is OK exactly when it installed the machine
that it names. -/
def Truthful (relay : RelayPaddingMachines) (circ : Circuit) : RelayEvent → Prop
  | .paddingNegotiate payload =>
    let handled := circ.circpadHandlePaddingNegotiate relay.machines payload
    (∀ setup ∈ handled.setup, setup = .installed)
      ∧ ∀ negotiate ∈ circpadNegotiateParse payload, negotiate.command = .start →
        (handled.answer = some ⟨.start, .ok, negotiate.machineType, negotiate.machineCtr⟩
          ↔ ∃ m ∈ relay.machines, m.machineNum = negotiate.machineType
            ∧ circ.Installs handled.circ m)
  | .transitionedToEnd _ => True

/-- A START names no machine whose slot is taken. -/
def Vacant (relay : RelayPaddingMachines) (circ : Circuit) : RelayEvent → Prop
  | .paddingNegotiate payload =>
    ∀ negotiate ∈ circpadNegotiateParse payload, negotiate.command = .start →
      ∀ m ∈ relay.machines.find? fun m => m.machineNum = negotiate.machineType,
        circ.paddingMachine m.machineIndex = none
  | .transitionedToEnd _ => True

variable {relay : RelayPaddingMachines} {machines : List MachineSpec} {circ : Circuit}
  {m : MachineSpec} {i : Fin 2} {negotiate : Negotiate}

/-! ## Slots -/

lemma oneMachine_new : (new false).OneMachine := by
  refine ⟨rfl, fun i => ⟨fun _ => rfl, fun _ => rfl⟩, fun i m h => ?_⟩
  cases h

lemma OneMachine.install (h : circ.OneMachine) (hside : m.isOriginSide = false) :
    (circ.install m).OneMachine := by
  refine ⟨h.relay, fun i => ?_, fun i m' hm' => ?_⟩
  · by_cases hi : i = m.machineIndex
    · simp [hi]
    · simpa [hi] using h.info i
  · by_cases hi : i = m.machineIndex
    · simp only [install_paddingMachine, hi, if_true, some.injEq] at hm'
      exact hm' ▸ ⟨hi.symm, hside⟩
    · simp only [install_paddingMachine, hi, if_false] at hm'
      exact h.index i m' hm'

lemma OneMachine.clearSlot (h : circ.OneMachine) (i : Fin 2) : (circ.clearSlot i).OneMachine := by
  refine ⟨h.relay, fun j => ?_, fun j m hm => ?_⟩
  · by_cases hj : j = i
    · simp [hj]
    · simpa [hj] using h.info j
  · by_cases hj : j = i
    · simp [hj] at hm
    · simp only [clearSlot_paddingMachine, hj, if_false] at hm
      exact h.index j m hm

lemma OneMachine.freeCircMachineinfosWithMachineNum (h : circ.OneMachine) (machineNum : UInt8)
    (machineCtr : UInt32) :
    (circ.freeCircMachineinfosWithMachineNum machineNum machineCtr).1.OneMachine := by
  refine ⟨h.relay, fun i => ?_, fun i m hm => ?_⟩
  · simp only [Circuit.freeCircMachineinfosWithMachineNum]
    split
    · exact ⟨fun _ => rfl, fun _ => rfl⟩
    · exact h.info i
  · simp only [Circuit.freeCircMachineinfosWithMachineNum] at hm
    split at hm
    · cases hm
    · exact h.index i m hm

lemma OneMachine.transitionedToEnd (h : circ.OneMachine) (i : Fin 2) :
    (circ.circpadMachineSpecTransitionedToEnd i).1.OneMachine := by
  rw [circpadMachineSpecTransitionedToEnd]
  split
  next machineCtr machine _ hmachine =>
    obtain ⟨rfl, hside⟩ := h.index i machine hmachine
    split
    · simp only [hside, Bool.false_eq_true, if_false]
      exact h.clearSlot machine.machineIndex
    · exact h
  next => exact h

lemma OneMachine.setup_eq (h : circ.OneMachine) (hside : m.isOriginSide = false) :
    circ.circpadSetupMachineOnCirc m = if circ.paddingMachine m.machineIndex = none
      then (circ.install m, .installed) else (circ, .bugPaddingMachine) := by
  rw [circpadSetupMachineOnCirc]
  by_cases hnone : circ.paddingMachine m.machineIndex = none
  · have hinfo := (h.info m.machineIndex).mpr hnone
    simp [h.relay, hside, hnone, hinfo]
  · simp [h.relay, hside, hnone]

lemma handlePaddingNegotiate_of_parse {payload : List UInt8} (h : circ.OneMachine)
    (hparse : circpadNegotiateParse payload = some negotiate) :
    circ.circpadHandlePaddingNegotiate machines payload
      = circ.handleNegotiate machines negotiate := by
  simp [circpadHandlePaddingNegotiate, h.relay, hparse]

lemma handlePaddingNegotiate_of_malformed {payload : List UInt8} (h : circ.OneMachine)
    (hparse : circpadNegotiateParse payload = none) :
    circ.circpadHandlePaddingNegotiate machines payload = ⟨circ, -1, none, none⟩ := by
  simp [circpadHandlePaddingNegotiate, h.relay, hparse]

lemma handleNegotiate_stop (hstop : negotiate.command = .stop) :
    (circ.handleNegotiate machines negotiate).circ
        = (circ.freeCircMachineinfosWithMachineNum negotiate.machineType negotiate.machineCtr).1
      ∧ (circ.handleNegotiate machines negotiate).setup = none := by
  rw [handleNegotiate, hstop]
  dsimp only
  split
  next freed hfreed => exact ⟨by rw [hfreed]; rfl, rfl⟩
  next kept hkept => exact ⟨by rw [hkept], rfl⟩

lemma handleNegotiate_start (hstart : negotiate.command = .start)
    (hfind : machines.find? (fun m => m.machineNum = negotiate.machineType) = some m) :
    circ.handleNegotiate machines negotiate
      = .answering negotiate (circ.circpadSetupMachineOnCirc m).1 0
          (some (circ.circpadSetupMachineOnCirc m).2) := by
  simp [handleNegotiate, hstart, hfind]

lemma handleNegotiate_unknown (hstart : negotiate.command = .start)
    (hfind : machines.find? (fun m => m.machineNum = negotiate.machineType) = none) :
    circ.handleNegotiate machines negotiate = .answering negotiate circ (-1) none := by
  simp [handleNegotiate, hstart, hfind]

/-! ## Steps -/

lemma OneMachine.handleNegotiate (h : circ.OneMachine) :
    (circ.handleNegotiate relay.machines negotiate).circ.OneMachine := by
  rcases hcommand : negotiate.command with _ | _
  · rw [(handleNegotiate_stop hcommand).1]
    exact h.freeCircMachineinfosWithMachineNum _ _
  · rcases hfind : relay.machines.find? (fun m => m.machineNum = negotiate.machineType) with _ | m
    · rw [handleNegotiate_unknown hcommand hfind]
      exact h
    · have hside := relay.relaySide m (List.mem_of_find?_eq_some hfind)
      rw [handleNegotiate_start hcommand hfind, h.setup_eq hside]
      split
      · exact h.install hside
      · exact h

lemma OneMachine.step {e : RelayEvent} {circ' : Circuit} (h : circ.OneMachine)
    (hstep : relayStep relay circ e = some circ') : circ'.OneMachine := by
  cases e with
  | transitionedToEnd i =>
    obtain rfl := some.inj hstep
    exact h.transitionedToEnd i
  | paddingNegotiate payload =>
    obtain rfl := some.inj hstep
    rcases hparse : circpadNegotiateParse payload with _ | negotiate
    · rw [handlePaddingNegotiate_of_malformed h hparse]
      exact h
    · rw [handlePaddingNegotiate_of_parse h hparse]
      exact h.handleNegotiate

lemma OneMachine.truthful_iff (h : circ.OneMachine) (e : RelayEvent) :
    Truthful relay circ e ↔ Vacant relay circ e := by
  cases e with
  | transitionedToEnd i => exact Iff.rfl
  | paddingNegotiate payload =>
    rcases hparse : circpadNegotiateParse payload with _ | negotiate
    · simp [Truthful, Vacant, handlePaddingNegotiate_of_malformed h hparse, hparse]
    simp only [Truthful, Vacant, handlePaddingNegotiate_of_parse h hparse, hparse,
      Option.mem_def, some.injEq, forall_eq']
    rcases hcommand : negotiate.command with _ | _
    · simp [(handleNegotiate_stop hcommand).2]
    rcases hfind : relay.machines.find? (fun m => m.machineNum = negotiate.machineType) with _ | m
    · rw [handleNegotiate_unknown hcommand hfind]
      refine iff_of_true ⟨?_, fun _ => iff_of_false ?_ ?_⟩ ?_
      · simp [Handled.answering]
      · simp [Handled.answering]
      · rintro ⟨m, hm, hnum, -⟩
        exact absurd hnum (by simpa using List.find?_eq_none.mp hfind m hm)
      · intro _ m hm
        rw [hfind] at hm
        cases hm
    · have hmem := List.mem_of_find?_eq_some hfind
      have hnum : m.machineNum = negotiate.machineType := by
        simpa using List.find?_some hfind
      rw [handleNegotiate_start hcommand hfind, h.setup_eq (relay.relaySide m hmem)]
      by_cases hvacant : circ.paddingMachine m.machineIndex = none
      · rw [if_pos hvacant]
        refine iff_of_true ⟨?_, fun _ => iff_of_true ?_ ?_⟩ ?_
        · simp [Handled.answering]
        · simp [Handled.answering, hcommand]
        · refine ⟨m, hmem, hnum, hvacant, ?_⟩
          simp [Handled.answering]
        · intro _ m' hm'
          rw [hfind] at hm'
          cases hm'
          exact hvacant
      · rw [if_neg hvacant]
        refine iff_of_false ?_ ?_
        · rintro ⟨hbug, -⟩
          cases hbug _ rfl
        · intro hall
          exact hvacant (hall rfl m hfind)

end Circuit

/-- **The machines of a relay**: all along a run the slots hold at most one machine each, no check
for a bug fires, and a START is answered with OK exactly when it installed its machine, if and only
if no START names a machine whose slot is taken. -/
theorem relayMachines_iff (relay : RelayPaddingMachines) (es : List RelayEvent) :
    ((∀ pre, pre <+: es → ∀ circ, Reaches (relayStep relay) (Circuit.new false) pre circ →
          circ.OneMachine)
        ∧ Meets (relayStep relay) (Circuit.Truthful relay) (Circuit.new false) es)
      ↔ Meets (relayStep relay) (Circuit.Vacant relay) (Circuit.new false) es := by
  refine forall_reached_and_meets_iff (I := Circuit.OneMachine) (fun circ h => h) ?_ ?_
    Circuit.oneMachine_new
  · intro circ e h
    rw [← h.truthful_iff e]
    exact and_iff_right fun circ' hstep => h.step hstep
  · intro circ e circ' h _ hstep
    exact h.step hstep

/-- `circpad_machine_relay_hide_intro_circuits` and `circpad_machine_relay_hide_rend_circuits`: both
are for the first slot. -/
def relayPaddingMachines : RelayPaddingMachines where
  machines := [⟨0, 0, true, false, 0⟩, ⟨1, 0, false, false, 0⟩]
  relaySide := by decide

/-- A client starts both machines.  The check for the slot fires at the second, nothing changes, and
the relay answers with OK. -/
theorem relayMachines_fails :
    let payload := fun machineType machineCtr =>
      circpadNegotiateEncode ⟨.start, machineType, machineCtr⟩
    ∃ circ, Reaches (relayStep relayPaddingMachines) (Circuit.new false)
        [.paddingNegotiate (payload 0 1)] circ
      ∧ (circ.paddingMachine 0).map MachineSpec.machineNum = some 0
      ∧ let handled := circ.circpadHandlePaddingNegotiate relayPaddingMachines.machines (payload 1 2)
        handled.setup = some .bugPaddingMachine ∧ handled.answer = some ⟨.start, .ok, 1, 2⟩
          ∧ (handled.circ.paddingMachine 0).map MachineSpec.machineNum = some 0 := by
  refine ⟨_, rfl, ?_, ?_, ?_, ?_⟩
  · decide
  · decide
  · decide
  · decide

end Ator.Circpad
