import AtorProtocol.Circpad.Net

/-!
# Agreement of the padding machines

The slots of a client and of a relay in every run whose steps are careful.

* `Net.Inv` — the slots keep the invariant of `Slot`, and the cells say what they are about.
* `agreement` — the relay is active only where the client is, and the client takes what it is sent.
* `agreement_oneMachineRun` — a run of the machines that circuit setup registers.
* `agreement_fails` — a second machine is stopped before the first is answered.
-/

namespace Ator.Circpad

open List Option Function

/-! ## Counters -/

/-- `circ->padding_machine_ctr++`, which wraps to 1. -/
def nextCtr (ctr : UInt32) : UInt32 := if ctr + 1 = 0 then 1 else ctr + 1

/-- The counters of a list go on from `ctr`, and `last` is the last of them. -/
def CountsUp : UInt32 → List UInt32 → UInt32 → Prop
  | ctr, [], last => ctr = last
  | ctr, c :: cs, last => c = nextCtr ctr ∧ CountsUp c cs last

lemma countsUp_append {ctr last : UInt32} {cs cs' : List UInt32} :
    CountsUp ctr (cs ++ cs') last ↔ ∃ mid, CountsUp ctr cs mid ∧ CountsUp mid cs' last := by
  induction cs generalizing ctr with
  | nil => simp [CountsUp]
  | cons c cs ih => simp [CountsUp, ih, and_assoc]

lemma nextCtr_ne_zero (ctr : UInt32) : nextCtr ctr ≠ 0 := by
  rw [nextCtr]
  split
  · decide
  · assumption

namespace Circuit

variable {circ : Circuit} {machine : MachineSpec} {i j : Fin 2} {num : UInt8} {ctr : UInt32}

lemma nextMachineCtr_eq : circ.nextMachineCtr = nextCtr circ.paddingMachineCtr := rfl

/-! ## What the two ends do to a slot -/

lemma frees_iff : circ.frees num ctr i = true ↔ ∃ m, circ.paddingMachine i = some m
    ∧ m.machineNum = num ∧ (ctr = 0 ∨ ∀ c, circ.paddingInfo i = some c → c = ctr) := by
  rw [frees]
  rcases hmachine : circ.paddingMachine i with _ | m
  · simp
  · rcases hinfo : circ.paddingInfo i with _ | c
    · simp
    · simp

lemma free_eq (hother : ∀ j, j ≠ i → circ.frees num ctr j = false) :
    circ.freeCircMachineinfosWithMachineNum num ctr
      = if circ.frees num ctr i = true then (circ.clearSlot i, true) else (circ, false) := by
  have hvalue : ∀ {α : Type} (f : Fin 2 → Option α),
      (fun j => if circ.frees num ctr j = true then none else f j)
        = if circ.frees num ctr i = true then update f i none else f := by
    intro α f
    funext j
    by_cases hj : j = i
    · subst hj
      cases circ.frees num ctr j with
      | true => simp
      | false => rfl
    · rw [hother j hj]
      cases circ.frees num ctr i with
      | true => simp [update_of_ne hj]
      | false => rfl
  have hfound : (∃ j, circ.frees num ctr j = true) ↔ circ.frees num ctr i = true := by
    constructor
    · rintro ⟨j, hj⟩
      by_contra hi
      have hne : j ≠ i := fun heq => hi (heq ▸ hj)
      rw [hother j hne] at hj
      cases hj
    · exact fun hi => ⟨i, hi⟩
  simp only [freeCircMachineinfosWithMachineNum, hvalue, hfound]
  split
  next hi => simp [clearSlot, circpadCircuitMachineinfoFreeIdx, clearPaddingMachine, hi]
  next hi => simp [hi]

lemma addMatchingMachine_cases (horigin : circ.isOrigin = true)
    (hside : machine.isOriginSide = true) :
    circ.circpadAddMatchingMachine machine = (circ, none)
      ∨ (circ.paddingInfo machine.machineIndex = none
        ∧ circ.circpadAddMatchingMachine machine = (circ.install machine,
          some ⟨.start, machine.machineNum, circ.nextMachineCtr⟩)) := by
  rw [circpadAddMatchingMachine]
  split
  · exact .inl rfl
  split
  · exact .inl rfl
  split
  · exact .inl rfl
  next hinfo _ =>
    have hnone : circ.paddingInfo machine.machineIndex = none := by simpa using hinfo
    right
    refine ⟨hnone, ?_⟩
    simp [clearPaddingMachine, circpadSetupMachineOnCirc, horigin, hside, hnone, install,
      nextMachineCtr]

lemma shutdownOldMachine_cases :
    circ.circpadShutdownOldMachine i = (circ, none)
      ∨ ∃ c m, circ.paddingInfo i = some c ∧ circ.paddingMachine i = some m
        ∧ circ.circpadShutdownOldMachine i
          = (circ.circpadCircuitMachineinfoFreeIdx i, some ⟨.stop, m.machineNum, c⟩) := by
  rw [circpadShutdownOldMachine]
  split
  next c m hinfo hmachine => exact .inr ⟨c, m, hinfo, hmachine, rfl⟩
  next => exact .inl rfl

lemma transitionedToEnd_cases (circ : Circuit) (i : Fin 2) :
    circ.circpadMachineSpecTransitionedToEnd i = (circ, none)
      ∨ ∃ c m, circ.paddingInfo i = some c ∧ circ.paddingMachine i = some m
        ∧ circ.circpadMachineSpecTransitionedToEnd i = if m.isOriginSide = true then
              (circ.circpadCircuitMachineinfoFreeIdx m.machineIndex,
                some (.negotiate ⟨.stop, m.machineNum, c⟩))
            else (circ.clearSlot m.machineIndex,
              some (.negotiated ⟨.stop, .ok, m.machineNum, c⟩)) := by
  rw [circpadMachineSpecTransitionedToEnd]
  split
  next c m hinfo hmachine =>
    split
    · exact .inr ⟨c, m, hinfo, hmachine, rfl⟩
    · exact .inl rfl
  next => exact .inl rfl

end Circuit

namespace Net

variable {machines : PaddingMachines} {net net' : Net} {i j : Fin 2} {tag : Tag}

/-! ## The invariant -/

/-- The cells on their way to the relay, and those on their way to the client. -/
def upward (net : Net) : List (Flight Negotiate) := net.toRelay ++ net.clientSending

def downward (net : Net) : List (Flight RelayCell) := net.toClient ++ net.relaySending

/-- The counters of the machines to be started. -/
def startCtrs (cells : List (Flight Negotiate)) : List UInt32 :=
  (cells.filter fun x => x.cell.command = .start).map fun x => x.cell.machineCtr

/-- The tag is for a machine of slot `i`. -/
structure Known (machines : PaddingMachines) (i : Fin 2) (tag : Tag) : Prop where
  machine : ∃ m ∈ machines.origin, m.machineIndex = i ∧ m.machineNum = tag.num
  ctr_ne_zero : tag.ctr ≠ 0

/-- A command is that of its tag. -/
structure UpLabel (machines : PaddingMachines) (x : Flight Negotiate) : Prop where
  known : Known machines x.slot x.tag
  num : x.cell.machineType = x.tag.num
  ctr : x.cell.machineCtr = x.tag.ctr

/-- An answer is that of its tag. -/
structure DownLabel (machines : PaddingMachines) (x : Flight RelayCell) : Prop where
  known : Known machines x.slot x.tag
  cell : ∀ negotiated, x.cell = .negotiated negotiated → negotiated.machineType = x.tag.num
    ∧ negotiated.machineCtr = x.tag.ctr ∧ (negotiated.command = .start → negotiated.response = .ok)

/-- The client has in each slot the machine of its tag. -/
structure ClientSlots (machines : PaddingMachines) (client : Circuit) (tag : Fin 2 → Tag) :
    Prop where
  origin : client.isOrigin = true
  machine : ∀ i m, client.paddingMachine i = some m → m ∈ machines.origin ∧ m.machineIndex = i
    ∧ m.machineNum = (tag i).num
  info : ∀ i ctr, client.paddingInfo i = some ctr →
    client.paddingMachine i ≠ none ∧ ctr = (tag i).ctr ∧ ctr ≠ 0

/-- So has the relay. -/
structure RelaySlots (machines : PaddingMachines) (relay : Circuit) (tag : Fin 2 → Tag) :
    Prop where
  one : relay.OneMachine
  machine : ∀ i m, relay.paddingMachine i = some m →
    m ∈ machines.relay ∧ m.machineNum = (tag i).num ∧ Known machines i (tag i)
  info : ∀ i ctr, relay.paddingInfo i = some ctr → ctr = (tag i).ctr

/-- What holds between the steps. -/
structure Inv (machines : PaddingMachines) (net : Net) : Prop where
  slots : ∀ i, (net.slot i).Inv
  client : ClientSlots machines net.client net.clientTag
  relay : RelaySlots machines net.relay net.relayTag
  up : ∀ x ∈ net.upward, UpLabel machines x
  down : ∀ x ∈ net.downward, DownLabel machines x
  counts : CountsUp net.relay.paddingMachineCtr (startCtrs net.upward)
    net.client.paddingMachineCtr
  started : ∀ i, (net.clientTag i).inst ≤ net.started

/-! ## Cells of a slot -/

@[simp] lemma upOf_nil : upOf [] i = [] := rfl

@[simp] lemma downOf_nil : downOf [] i = [] := rfl

lemma upOf_append (xs ys : List (Flight Negotiate)) :
    upOf (xs ++ ys) i = upOf xs i ++ upOf ys i := by
  simp [upOf]

lemma upOf_cons (x : Flight Negotiate) (xs : List (Flight Negotiate)) :
    upOf (x :: xs) i = if x.slot = i then (x.cell.command, x.tag) :: upOf xs i else upOf xs i := by
  by_cases hx : x.slot = i
  · simp [upOf, hx]
  · simp [upOf, hx]

lemma upOf_eq_nil {xs : List (Flight Negotiate)} (h : ∀ x ∈ xs, x.slot ≠ i) :
    upOf xs i = [] := by
  simpa [upOf] using h

lemma downOf_append (xs ys : List (Flight RelayCell)) :
    downOf (xs ++ ys) i = downOf xs i ++ downOf ys i := by
  simp [downOf]

lemma downOf_cons (x : Flight RelayCell) (xs : List (Flight RelayCell)) :
    downOf (x :: xs) i
      = if x.slot = i then (answer x.cell, x.tag) :: downOf xs i else downOf xs i := by
  by_cases hx : x.slot = i
  · simp [downOf, hx]
  · simp [downOf, hx]

lemma downOf_eq_nil {xs : List (Flight RelayCell)} (h : ∀ x ∈ xs, x.slot ≠ i) :
    downOf xs i = [] := by
  simpa [downOf] using h

lemma startCtrs_append (xs ys : List (Flight Negotiate)) :
    startCtrs (xs ++ ys) = startCtrs xs ++ startCtrs ys := by
  simp [startCtrs]

lemma startCtrs_cons (x : Flight Negotiate) (xs : List (Flight Negotiate)) :
    startCtrs (x :: xs)
      = if x.cell.command = .start then x.cell.machineCtr :: startCtrs xs else startCtrs xs := by
  by_cases hx : x.cell.command = .start
  · simp [startCtrs, hx]
  · simp [startCtrs, hx]

lemma startCtrs_eq_nil {xs : List (Flight Negotiate)} (h : ∀ x ∈ xs, x.cell.command ≠ .start) :
    startCtrs xs = [] := by
  simpa [startCtrs] using h

lemma slots_of_step (h : ∀ j, (net.slot j).Inv) (i : Fin 2)
    (hother : ∀ j, j ≠ i → net'.slot j = net.slot j)
    (hstep : Slot.Step (net.slot i) (net'.slot i)) (j : Fin 2) : (net'.slot j).Inv := by
  by_cases hj : j = i
  · rw [hj]
    exact (h i).step hstep
  · rw [hother j hj]
    exact h j

/-! ## The client sends -/

variable {tags : Fin 2 → Tag} {client : Circuit} {m : MachineSpec}

lemma ClientSlots.install
    (h : ClientSlots machines client tags) (hmem : m ∈ machines.origin) (inst : ℕ) :
    ClientSlots machines (client.install m) (update tags m.machineIndex
      ⟨m.machineNum, client.nextMachineCtr, inst⟩) := by
  refine ⟨h.origin, fun i m' hm' => ?_, fun i ctr hctr => ?_⟩
  · rw [Circuit.install_paddingMachine] at hm'
    rw [update_apply]
    split at hm'
    next hi =>
      cases hm'
      exact ⟨hmem, hi.symm, by rw [if_pos hi]⟩
    next hi =>
      rw [if_neg hi]
      exact h.machine i m' hm'
  · rw [Circuit.install_paddingInfo] at hctr
    rw [Circuit.install_paddingMachine, update_apply]
    split at hctr
    next hi =>
      cases hctr
      rw [if_pos hi, if_pos hi]
      exact ⟨some_ne_none m, rfl, nextCtr_ne_zero _⟩
    next hi =>
      rw [if_neg hi, if_neg hi]
      exact h.info i ctr hctr

lemma ClientSlots.freeIdx
    (h : ClientSlots machines client tags) (i : Fin 2) :
    ClientSlots machines (client.circpadCircuitMachineinfoFreeIdx i) tags := by
  refine ⟨h.origin, h.machine, fun j ctr hctr => ?_⟩
  rw [Circuit.freeIdx_paddingInfo] at hctr
  split at hctr
  · cases hctr
  · exact h.info j ctr hctr

lemma ClientSlots.clearSlot
    (h : ClientSlots machines client tags) (i : Fin 2) :
    ClientSlots machines (client.clearSlot i) tags := by
  refine ⟨h.origin, fun j m hm => ?_, fun j ctr hctr => ?_⟩
  · rw [Circuit.clearSlot_paddingMachine] at hm
    split at hm
    · cases hm
    · exact h.machine j m hm
  · rw [Circuit.clearSlot_paddingInfo] at hctr
    rw [Circuit.clearSlot_paddingMachine]
    split at hctr
    next => cases hctr
    next hj =>
      rw [if_neg hj]
      exact h.info j ctr hctr

lemma ClientSlots.known {ctr : UInt32}
    (h : ClientSlots machines client tags) (hinfo : client.paddingInfo i = some ctr) :
    Known machines i (tags i) := by
  obtain ⟨hmachine, hctr, hne⟩ := h.info i ctr hinfo
  obtain ⟨m, hm⟩ := ne_none_iff_exists'.mp hmachine
  obtain ⟨hmem, hindex, hnum⟩ := h.machine i m hm
  exact ⟨⟨m, hmem, hindex, hnum⟩, hctr ▸ hne⟩

lemma Inv.clientStarts (h : Inv machines net) (hmem : m ∈ machines.origin)
    (hcareful : net.CarefulStart m.machineIndex (net.client.circpadAddMatchingMachine m).2) :
    Inv machines (net.clientStarts m (net.client.circpadAddMatchingMachine m)) := by
  rcases Circuit.addMatchingMachine_cases h.client.origin (machines.originSide m hmem) with
    heq | ⟨hinfo, heq⟩
  · rw [heq]
    exact h
  rw [heq] at hcareful ⊢
  obtain ⟨hsending, hfresh⟩ := hcareful
  have hnil : upOf net.clientSending m.machineIndex = [] :=
    upOf_eq_nil fun x hx => (hsending x hx).2
  refine ⟨slots_of_step h.slots m.machineIndex (fun j hj => ?_) ?_, h.client.install hmem _, h.relay,
    fun x hx => ?_, h.down, ?_, fun i => ?_⟩
  · simp [slot, Net.clientStarts, hj, hj.symm, upOf_append, upOf_cons]
  · have hslot : (net.clientStarts m (net.client.install m,
        some ⟨.start, m.machineNum, net.client.nextMachineCtr⟩)).slot m.machineIndex
        = { net.slot m.machineIndex with
            client := some (⟨m.machineNum, net.client.nextMachineCtr, net.started + 1⟩, true)
            up := (net.slot m.machineIndex).up
              ++ [(.start, ⟨m.machineNum, net.client.nextMachineCtr, net.started + 1⟩)] } := by
      simp [slot, Net.clientStarts, upOf_append, hnil, upOf_cons]
    rw [hslot]
    refine Slot.Step.start _ (fun u running hu => ?_) hfresh
    rw [slot, hinfo] at hu
    obtain ⟨-, -, heq⟩ := map_eq_some_iff.mp hu
    cases heq
    exact ⟨rfl, Nat.lt_succ_of_le (h.started _)⟩
  · simp only [upward, Net.clientStarts, mem_append, mem_cons] at hx
    rcases hx with hx | rfl | hx
    · exact h.up x (mem_append_left _ hx)
    · exact ⟨⟨⟨m, hmem, rfl, rfl⟩, nextCtr_ne_zero _⟩, rfl, rfl⟩
    · exact h.up x (mem_append_right _ hx)
  · have hcounts := h.counts
    have hstarts := startCtrs_eq_nil fun x hx => (hsending x hx).1
    rw [upward, startCtrs_append, hstarts, append_nil] at hcounts
    have hnew : startCtrs (net.clientStarts m (net.client.install m,
        some ⟨.start, m.machineNum, net.client.nextMachineCtr⟩)).upward
        = startCtrs net.toRelay ++ [net.client.nextMachineCtr] := by
      rw [upward, startCtrs_append]
      simp [Net.clientStarts, startCtrs_cons, hstarts]
    rw [hnew]
    exact countsUp_append.mpr ⟨_, hcounts, rfl, rfl⟩
  · simp only [Net.clientStarts, update_apply]
    split
    · exact Nat.le_refl _
    · exact Nat.le_succ_of_le (h.started i)

lemma clientEnds_cases (h : ClientSlots machines net.client net.clientTag) (i : Fin 2) :
    net.clientEnds i = (net.client, none)
      ∨ ∃ c m, net.client.paddingInfo i = some c ∧ net.client.paddingMachine i = some m
        ∧ net.clientEnds i
          = (net.client.circpadCircuitMachineinfoFreeIdx i, some ⟨.stop, m.machineNum, c⟩) := by
  rw [clientEnds]
  rcases Circuit.transitionedToEnd_cases net.client i with
    heq | ⟨c, m, hinfo, hm, heq⟩
  · rw [heq]
    exact .inl rfl
  · obtain ⟨hmem, hindex, -⟩ := h.machine i m hm
    rw [heq, if_pos (machines.originSide m hmem), hindex]
    exact .inr ⟨c, m, hinfo, hm, rfl⟩

lemma Inv.clientStops {result : Circuit × Option Negotiate} (h : Inv machines net)
    (hresult : result = (net.client, none)
      ∨ ∃ c m, net.client.paddingInfo i = some c ∧ net.client.paddingMachine i = some m
        ∧ result = (net.client.circpadCircuitMachineinfoFreeIdx i, some ⟨.stop, m.machineNum, c⟩))
    (hcareful : net.CarefulStop i result.2) : Inv machines (net.clientStops i result) := by
  rcases hresult with rfl | ⟨c, m, hinfo, hm, rfl⟩
  · exact h
  obtain ⟨hsending, hsettled⟩ := hcareful
  obtain ⟨-, hctr, -⟩ := h.client.info i c hinfo
  obtain ⟨-, -, hnum⟩ := h.client.machine i m hm
  have hclient : (net.slot i).client = some (net.clientTag i, true) := by
    simp [slot, hm, hinfo]
  refine ⟨slots_of_step h.slots i (fun j hj => ?_) ?_, h.client.freeIdx i, h.relay, fun x hx => ?_,
    h.down, ?_, h.started⟩
  · simp [slot, Net.clientStops, hj, hj.symm, upOf_append, upOf_cons]
  · have hslot : (net.clientStops i (net.client.circpadCircuitMachineinfoFreeIdx i,
        some ⟨.stop, m.machineNum, c⟩)).slot i
        = { net.slot i with
            client := some (net.clientTag i, false)
            up := (net.slot i).up ++ [(.stop, net.clientTag i)] } := by
      simp [slot, Net.clientStops, hm, upOf_append, upOf_eq_nil hsending, upOf_cons]
    rw [hslot]
    exact Slot.Step.stop _ hclient hsettled
  · simp only [upward, Net.clientStops, mem_append, mem_cons] at hx
    rcases hx with hx | rfl | hx
    · exact h.up x (mem_append_left _ hx)
    · exact ⟨h.client.known hinfo, hnum, hctr⟩
    · exact h.up x (mem_append_right _ hx)
  · have hcounts := h.counts
    rw [upward, startCtrs_append] at hcounts
    rw [upward, startCtrs_append]
    simpa [Net.clientStops, startCtrs_cons] using hcounts

/-! ## The relay receives -/

variable {relay : Circuit} {r : MachineSpec}

lemma RelaySlots.install
    (h : RelaySlots machines relay tags) (hmem : r ∈ machines.relay)
    (hknown : Known machines r.machineIndex tag) (hnum : r.machineNum = tag.num)
    (hctr : relay.nextMachineCtr = tag.ctr) :
    RelaySlots machines (relay.install r) (update tags r.machineIndex tag) := by
  refine ⟨h.one.install (machines.relaySide r hmem), fun i m hm => ?_, fun i ctr hinfo => ?_⟩
  · rw [Circuit.install_paddingMachine] at hm
    rw [update_apply]
    split at hm
    next hi =>
      cases hm
      rw [if_pos hi, hi]
      exact ⟨hmem, hnum, hknown⟩
    next hi =>
      rw [if_neg hi]
      exact h.machine i m hm
  · rw [Circuit.install_paddingInfo] at hinfo
    rw [update_apply]
    split at hinfo
    next hi =>
      cases hinfo
      rw [if_pos hi]
      exact hctr
    next hi =>
      rw [if_neg hi]
      exact h.info i ctr hinfo

lemma RelaySlots.clearSlot
    (h : RelaySlots machines relay tags) (i : Fin 2) :
    RelaySlots machines (relay.clearSlot i) tags := by
  refine ⟨h.one.clearSlot i, fun j m hm => ?_, fun j ctr hinfo => ?_⟩
  · rw [Circuit.clearSlot_paddingMachine] at hm
    split at hm
    · cases hm
    · exact h.machine j m hm
  · rw [Circuit.clearSlot_paddingInfo] at hinfo
    split at hinfo
    · cases hinfo
    · exact h.info j ctr hinfo

lemma Known.exists_relay (h : Known machines i tag) :
    ∃ r, machines.relay.find? (fun r => r.machineNum = tag.num) = some r ∧ r ∈ machines.relay
      ∧ r.machineNum = tag.num ∧ r.machineIndex = i := by
  obtain ⟨m, hmem, hindex, hnum⟩ := h.machine
  have hsome : (machines.relay.find? fun r => r.machineNum = tag.num).isSome = true :=
    find?_isSome.mpr (by simpa [hnum] using machines.known m hmem)
  obtain ⟨r, hr⟩ := isSome_iff_exists.mp hsome
  have hmemr := mem_of_find?_eq_some hr
  have hnumr : r.machineNum = tag.num := by simpa using find?_some hr
  exact ⟨r, hr, hmemr, hnumr, hindex ▸ machines.index m hmem r hmemr (hnumr.trans hnum.symm)⟩

lemma RelaySlots.eq_of_num
    (h : RelaySlots machines relay tags) (hknown : Known machines i tag)
    (hr : relay.paddingMachine j = some r) (hnum : r.machineNum = tag.num) : j = i := by
  obtain ⟨m, hmem, hindex, hm⟩ := hknown.machine
  rw [← hindex, ← machines.index m hmem r (h.machine j r hr).1 (hnum.trans hm.symm)]
  exact (h.one.index j r hr).1.symm

variable {toRelay : List (Flight Negotiate)} {x : Flight Negotiate}

lemma upward_slot
    (hto : net.toRelay = x :: toRelay) : (net.slot x.slot).up
      = (x.cell.command, x.tag) :: upOf (toRelay ++ net.clientSending) x.slot := by
  simp [slot, hto, upOf_cons]

lemma handlePaddingNegotiate_encode {circ : Circuit} (h : circ.OneMachine)
    (machines : List MachineSpec) (negotiate : Negotiate) :
    circ.circpadHandlePaddingNegotiate machines (circpadNegotiateEncode negotiate)
      = circ.handleNegotiate machines negotiate := by
  have hparse := circpadNegotiateParse_encode negotiate []
  rw [append_nil] at hparse
  exact Circuit.handlePaddingNegotiate_of_parse h hparse

/-- The relay starts the machine that the client asks for: its slot is empty, and the counters are
the same. -/
lemma Inv.relayReceives_start
    (h : Inv machines net) (hsending : net.relaySending = []) (hto : net.toRelay = x :: toRelay)
    (hstart : x.cell.command = .start) :
    Inv machines { net.relayHandles machines x with toRelay := toRelay } := by
  have hx : UpLabel machines x := h.up x (by simp [upward, hto])
  have hup := upward_slot hto
  rw [hstart] at hup
  obtain ⟨r, hfind, hmem, hnum, hindex⟩ := hx.known.exists_relay
  have hnone : net.relay.paddingMachine r.machineIndex = none := by
    have hrelay := (h.slots x.slot).relay_of_start hup
    rw [hindex]
    simpa [slot] using hrelay
  have hcounts := h.counts
  rw [upward, hto, cons_append, startCtrs_cons, if_pos hstart] at hcounts
  obtain ⟨hctr, hcounts⟩ := hcounts
  have hhandle : net.relay.circpadHandlePaddingNegotiate machines.relay
      (circpadNegotiateEncode x.cell)
      = .answering x.cell (net.relay.install r) 0 (some .installed) := by
    rw [handlePaddingNegotiate_encode h.relay.one, Circuit.handleNegotiate_start hstart (hx.num ▸ hfind),
      h.relay.one.setup_eq (machines.relaySide r hmem), if_pos hnone]
  have hnet : { net.relayHandles machines x with toRelay := toRelay } = { net with
          relay := net.relay.install r
          toRelay := toRelay
          relaySending := [⟨.negotiated ⟨.start, .ok, x.cell.machineType, x.cell.machineCtr⟩,
            x.slot, x.tag⟩]
          relayTag := update net.relayTag r.machineIndex x.tag } := by
    simp [relayHandles, hhandle, Circuit.Handled.answering, hsending, hstart, hindex]
  rw [hnet]
  refine ⟨slots_of_step h.slots x.slot (fun j hj => ?_) ?_, h.client,
    h.relay.install hmem (hindex ▸ hx.known) hnum ?_, fun y hy => ?_, fun y hy => ?_, ?_,
    h.started⟩
  · simp [slot, hindex, hj, hj.symm, hto, hsending, upOf_append, upOf_cons, downOf_append,
      downOf_cons]
  · have hslot := Slot.Step.relayStart x.tag _ hup
    simpa [slot, hindex, hsending, downOf_append, downOf_cons, answer] using hslot
  · rw [Circuit.nextMachineCtr_eq, ← hctr, hx.ctr]
  · refine h.up y ?_
    rw [upward, hto]
    exact mem_cons_of_mem x hy
  · simp only [downward, mem_append, mem_singleton] at hy
    rcases hy with hy | rfl
    · exact h.down y (mem_append_left _ hy)
    · refine ⟨hx.known, fun negotiated heq => ?_⟩
      cases heq
      exact ⟨hx.num, hx.ctr, fun _ => rfl⟩
  · rw [hctr] at hcounts
    exact hcounts

lemma RelaySlots.info_of_machine
    (h : RelaySlots machines relay tags) (hr : relay.paddingMachine i = some r) :
    relay.paddingInfo i = some (tags i).ctr := by
  have hne : relay.paddingInfo i ≠ none := by
    rw [Ne, h.one.info i, hr]
    exact some_ne_none r
  obtain ⟨ctr, hctr⟩ := ne_none_iff_exists'.mp hne
  rw [hctr, h.info i ctr hctr]

lemma RelaySlots.slot_relay (h : RelaySlots machines net.relay net.relayTag) :
    (net.slot i).relay = none ∨ ∃ r, net.relay.paddingMachine i = some r
      ∧ r.machineNum = (net.relayTag i).num
      ∧ net.relay.paddingInfo i = some (net.relayTag i).ctr
      ∧ (net.slot i).relay = some (net.relayTag i) := by
  rcases hr : net.relay.paddingMachine i with _ | r
  · left
    simp [slot, hr]
  · right
    refine ⟨r, rfl, (h.machine i r hr).2.1, h.info_of_machine hr, ?_⟩
    simp [slot, hr]

lemma RelaySlots.frees_iff
    (h : RelaySlots machines relay tags) (hknown : Known machines i tag) :
    relay.frees tag.num tag.ctr j = true ↔ j = i ∧ ∃ r, relay.paddingMachine i = some r
      ∧ r.machineNum = tag.num ∧ (tags i).ctr = tag.ctr := by
  rw [Circuit.frees_iff]
  constructor
  · rintro ⟨r, hr, hnum, hctr⟩
    obtain rfl := h.eq_of_num hknown hr hnum
    exact ⟨rfl, r, hr, hnum, hctr.resolve_left hknown.ctr_ne_zero _ (h.info_of_machine hr)⟩
  · rintro ⟨rfl, r, hr, hnum, hctr⟩
    refine ⟨r, hr, hnum, .inr fun c hc => ?_⟩
    rw [h.info j c hc, hctr]

lemma Inv.relayReceives_stop
    (h : Inv machines net) (hsending : net.relaySending = []) (hto : net.toRelay = x :: toRelay)
    (hstop : x.cell.command = .stop) :
    Inv machines { net.relayHandles machines x with toRelay := toRelay } := by
  have hx : UpLabel machines x := h.up x (by simp [upward, hto])
  have hup := upward_slot hto
  rw [hstop] at hup
  have hcounts := h.counts
  rw [upward, hto, cons_append, startCtrs_cons, if_neg (by simp [hstop])] at hcounts
  have hupward : ∀ y ∈ toRelay ++ net.clientSending, UpLabel machines y := by
    intro y hy
    refine h.up y ?_
    rw [upward, hto]
    exact mem_cons_of_mem x hy
  have hother : ∀ j, j ≠ x.slot →
      net.relay.frees x.cell.machineType x.cell.machineCtr j = false := by
    intro j hj
    rw [hx.num, hx.ctr, Bool.eq_false_iff]
    intro hfrees
    exact hj ((h.relay.frees_iff hx.known).mp hfrees).1
  have hhandle := handlePaddingNegotiate_encode h.relay.one machines.relay x.cell
  have hfree := Circuit.free_eq hother
  rcases h.relay.slot_relay (i := x.slot) with hnone | ⟨r, hr, hnum, hinfo, hrelay⟩
  · have hkeeps : net.relay.frees x.cell.machineType x.cell.machineCtr x.slot = false := by
      rw [hx.num, hx.ctr, Bool.eq_false_iff]
      intro hfrees
      obtain ⟨-, r, hr, -⟩ := (h.relay.frees_iff hx.known).mp hfrees
      simp [slot, hr] at hnone
    rw [hkeeps, if_neg Bool.false_ne_true] at hfree
    have hnet : { net.relayHandles machines x with toRelay := toRelay }
        = { net with toRelay := toRelay } := by
      simp [relayHandles, hhandle, Circuit.handleNegotiate, hstop, hfree, hsending]
    rw [hnet]
    refine ⟨slots_of_step h.slots x.slot (fun j hj => ?_) ?_, h.client, h.relay, hupward, h.down,
      hcounts, h.started⟩
    · simp [slot, hj.symm, hto, upOf_cons]
    · exact Slot.Step.relayIgnores x.tag _ hup hnone
  · have htag := (h.slots x.slot).relay_of_stop hup hrelay
    have hfrees : net.relay.frees x.cell.machineType x.cell.machineCtr x.slot = true := by
      rw [hx.num, hx.ctr, h.relay.frees_iff hx.known]
      exact ⟨rfl, r, hr, by rw [hnum, htag], by rw [htag]⟩
    rw [hfrees, if_pos rfl] at hfree
    have hnet : { net.relayHandles machines x with toRelay := toRelay } = { net with
            relay := net.relay.clearSlot x.slot
            toRelay := toRelay
            relaySending := [⟨.negotiated ⟨.stop, .ok, x.cell.machineType, x.cell.machineCtr⟩,
              x.slot, x.tag⟩] } := by
      simp [relayHandles, hhandle, Circuit.handleNegotiate, Circuit.Handled.answering, hstop, hfree,
        hsending]
    rw [hnet]
    refine ⟨slots_of_step h.slots x.slot (fun j hj => ?_) ?_, h.client, h.relay.clearSlot x.slot,
      hupward, fun y hy => ?_, hcounts, h.started⟩
    · simp [slot, hj, hj.symm, hto, hsending, upOf_cons, downOf_append, downOf_cons]
    · have hslot := Slot.Step.relayStop x.tag _ hup (htag ▸ hrelay)
      simpa [slot, hsending, downOf_append, downOf_cons, answer] using hslot
    · simp only [downward, mem_append, mem_singleton] at hy
      rcases hy with hy | rfl
      · exact h.down y (mem_append_left _ hy)
      · refine ⟨hx.known, fun negotiated heq => ?_⟩
        cases heq
        exact ⟨hx.num, hx.ctr, fun hstart => by cases hstart⟩

/-! ## The relay sends -/

lemma Inv.relayEnds (h : Inv machines net)
    (hcareful : net.CarefulEnd i (net.relay.circpadMachineSpecTransitionedToEnd i).2) :
    Inv machines (net.relayEnds i (net.relay.circpadMachineSpecTransitionedToEnd i)) := by
  rcases Circuit.transitionedToEnd_cases net.relay i with
    heq | ⟨c, r, hinfo, hr, heq⟩
  · rw [heq]
    exact h
  obtain ⟨hindex, hside⟩ := h.relay.one.index i r hr
  obtain ⟨-, hnum, hknown⟩ := h.relay.machine i r hr
  rw [heq, hside, if_neg Bool.false_ne_true, hindex] at hcareful ⊢
  have hnil : downOf net.relaySending i = [] := downOf_eq_nil hcareful
  refine ⟨slots_of_step h.slots i (fun j hj => ?_) ?_, h.client, h.relay.clearSlot i, h.up,
    fun y hy => ?_, h.counts, h.started⟩
  · simp [slot, Net.relayEnds, hj, hj.symm, downOf_append, downOf_cons]
  · have hrelay : (net.slot i).relay = some (net.relayTag i) := by
      simp [slot, hr]
    have hslot := Slot.Step.relayEnds (net.relayTag i) hrelay
    simpa [slot, Net.relayEnds, hnil, downOf_append, downOf_cons, answer] using hslot
  · simp only [downward, Net.relayEnds, mem_append, mem_cons] at hy
    rcases hy with hy | rfl | hy
    · exact h.down y (mem_append_left _ hy)
    · refine ⟨hknown, fun negotiated heq => ?_⟩
      cases heq
      exact ⟨hnum, h.relay.info i c hinfo, fun hstart => by cases hstart⟩
    · exact h.down y (mem_append_right _ hy)

lemma Inv.relayPads (h : Inv machines net) (hinfo : net.relay.paddingInfo i ≠ none) :
    Inv machines { net with toClient := net.toClient ++ [⟨.padding, i, net.relayTag i⟩] } := by
  obtain ⟨r, hr⟩ := ne_none_iff_exists'.mp (mt (h.relay.one.info i).mpr hinfo)
  have hrelay : (net.slot i).relay = some (net.relayTag i) := by
    simp [slot, hr]
  have hdown : (net.slot i).down = downOf net.toClient i ++ downOf net.relaySending i :=
    downOf_append _ _
  refine ⟨slots_of_step h.slots i (fun j hj => ?_) ?_, h.client, h.relay, h.up, fun y hy => ?_,
    h.counts, h.started⟩
  · simp [slot, hj.symm, downOf_append, downOf_cons]
  · have hslot := Slot.Step.relayPads _ _ _ hrelay hdown
    simpa [slot, downOf_append, downOf_cons, answer] using hslot
  · simp only [downward, mem_append, mem_singleton] at hy
    rcases hy with (hy | rfl) | hy
    · exact h.down y (mem_append_left _ hy)
    · refine ⟨(h.relay.machine i r hr).2.2, fun negotiated heq => ?_⟩
      cases heq
    · exact h.down y (mem_append_right _ hy)

lemma Inv.of_cells (h : Inv machines net) (hclient : net'.client = net.client)
    (hrelay : net'.relay = net.relay) (hupward : net'.upward = net.upward)
    (hdownward : net'.downward = net.downward) (hclientTag : net'.clientTag = net.clientTag)
    (hrelayTag : net'.relayTag = net.relayTag) (hstarted : net'.started = net.started) :
    Inv machines net' := by
  have hslot : ∀ i, net'.slot i = net.slot i := by
    intro i
    rw [upward, upward] at hupward
    rw [downward, downward] at hdownward
    rw [slot, slot, hclient, hrelay, hupward, hdownward, hclientTag, hrelayTag]
  refine ⟨fun i => ?_, ?_, ?_, ?_, ?_, ?_, ?_⟩
  · rw [hslot i]
    exact h.slots i
  · rw [hclient, hclientTag]
    exact h.client
  · rw [hrelay, hrelayTag]
    exact h.relay
  · rw [hupward]
    exact h.up
  · rw [hdownward]
    exact h.down
  · rw [hupward, hrelay, hclient]
    exact h.counts
  · rw [hclientTag, hstarted]
    exact h.started

/-! ## The client receives -/

lemma ClientSlots.eq_of_num
    (h : ClientSlots machines client tags) (hknown : Known machines i tag)
    (hm : client.paddingMachine j = some m) (hnum : m.machineNum = tag.num) : j = i := by
  obtain ⟨m', hmem', hindex', hnum'⟩ := hknown.machine
  obtain ⟨hmem, hindex, -⟩ := h.machine j m hm
  obtain ⟨r, hmemr, hnumr⟩ := machines.known m hmem
  have hr := machines.index m hmem r hmemr hnumr
  have hr' := machines.index m' hmem' r hmemr (by rw [hnumr, hnum, hnum'])
  rw [← hindex, ← hindex', ← hr, hr']

lemma ClientSlots.frees_iff
    (h : ClientSlots machines client tags) (hknown : Known machines i tag) :
    client.frees tag.num tag.ctr j = true ↔ j = i ∧ client.paddingMachine i ≠ none
      ∧ Slot.Takes tag (tags i) (client.paddingInfo i).isSome := by
  rw [Circuit.frees_iff]
  constructor
  · rintro ⟨m, hm, hnum, hctr⟩
    obtain rfl := h.eq_of_num hknown hm hnum
    refine ⟨rfl, by rw [hm]; exact some_ne_none m, ?_, fun hrunning => ?_⟩
    · rw [← hnum, (h.machine j m hm).2.2]
    · obtain ⟨c, hc⟩ := isSome_iff_exists.mp hrunning
      rw [← hctr.resolve_left hknown.ctr_ne_zero c hc, (h.info j c hc).2.1]
  · rintro ⟨rfl, hne, hnum, hctr⟩
    obtain ⟨m, hm⟩ := ne_none_iff_exists'.mp hne
    refine ⟨m, hm, ?_, .inr fun c hc => ?_⟩
    · rw [(h.machine j m hm).2.2, hnum]
    · rw [(h.info j c hc).2.1, hctr (by rw [hc]; rfl)]

variable {x : Flight RelayCell}

lemma Inv.client_of_downward (h : Inv machines net)
    (hx : x ∈ net.downward) : net.client.paddingMachine x.slot ≠ none := by
  have hdown : (answer x.cell, x.tag) ∈ (net.slot x.slot).down := by
    refine List.mem_map.mpr ⟨x, mem_filter.mpr ⟨hx, ?_⟩, rfl⟩
    simp
  have hne := (h.slots x.slot).client_of_down hdown
  intro hnone
  exact hne (by simp [slot, hnone])

lemma Inv.expectedHop (h : Inv machines net) (hx : x ∈ net.downward) :
    net.client.circpadPaddingIsFromExpectedHop machines.targetHopnum = true := by
  obtain ⟨m, hm⟩ := ne_none_iff_exists'.mp (h.client_of_downward hx)
  have hhop := machines.hop m (h.client.machine x.slot m hm).1
  simp only [Circuit.circpadPaddingIsFromExpectedHop, h.client.origin, Bool.true_and,
    decide_eq_true_eq]
  exact ⟨x.slot, by simp [hm, hhop]⟩

lemma downward_slot {toClient : List (Flight RelayCell)}
    (hto : net.toClient = x :: toClient) : (net.slot x.slot).down
      = (answer x.cell, x.tag) :: downOf (toClient ++ net.relaySending) x.slot := by
  simp [slot, hto, downOf_cons]

lemma Inv.clientTakes_cases (h : Inv machines net)
    (hx : x ∈ net.downward) :
    net.clientTakes machines x.cell = net.client
      ∨ answer x.cell = .stopped ∧ net.clientTakes machines x.cell = net.client.clearSlot x.slot
        ∧ net.client.paddingMachine x.slot ≠ none
        ∧ Slot.Takes x.tag (net.clientTag x.slot) (net.client.paddingInfo x.slot).isSome := by
  have hlabel := h.down x hx
  have hhop := h.expectedHop hx
  rcases hcell : x.cell with negotiated | _
  · obtain ⟨hnum, hctr, hok⟩ := hlabel.cell negotiated hcell
    rcases hcommand : negotiated.command with _ | _
    · have hother : ∀ j, j ≠ x.slot →
          net.client.frees negotiated.machineType negotiated.machineCtr j = false := by
        intro j hj
        rw [hnum, hctr, Bool.eq_false_iff]
        intro hfrees
        exact hj ((h.client.frees_iff hlabel.known).mp hfrees).1
      have hfree := Circuit.free_eq hother
      simp only [clientTakes, Circuit.circpadHandlePaddingNegotiated, hhop, not_true_eq_false,
        if_false, hcommand, answer, hfree]
      split
      next hfrees =>
        rw [hnum, hctr, h.client.frees_iff hlabel.known] at hfrees
        exact .inr ⟨trivial, rfl, hfrees.2⟩
      next => exact .inl rfl
    · left
      simp only [clientTakes, Circuit.circpadHandlePaddingNegotiated, hhop, not_true_eq_false,
        if_false, hcommand, hok hcommand]
  · exact .inl rfl

lemma Inv.clientReceives {toClient : List (Flight RelayCell)}
    (h : Inv machines net) (hto : net.toClient = x :: toClient) :
    Inv machines
      { net with client := net.clientTakes machines x.cell, toClient := toClient } := by
  have hx : x ∈ net.downward := by simp [downward, hto]
  have hdown := downward_slot hto
  have hdownward : ∀ y ∈ toClient ++ net.relaySending, DownLabel machines y := by
    intro y hy
    refine h.down y ?_
    rw [downward, hto]
    exact mem_cons_of_mem x hy
  rcases h.clientTakes_cases hx with heq | ⟨hstopped, heq, hne, htakes⟩
  · rw [heq]
    refine ⟨slots_of_step h.slots x.slot (fun j hj => ?_) ?_, h.client, h.relay, h.up, hdownward,
      h.counts, h.started⟩
    · simp [slot, hj.symm, hto, downOf_cons]
    · exact Slot.Step.receive _ _ hdown
  · rw [heq]
    obtain ⟨m, hm⟩ := ne_none_iff_exists'.mp hne
    refine ⟨slots_of_step h.slots x.slot (fun j hj => ?_) ?_, h.client.clearSlot x.slot, h.relay,
      h.up, hdownward, h.counts, h.started⟩
    · simp [slot, hj, hj.symm, hto, downOf_cons]
    · rw [hstopped] at hdown
      have hclient : (net.slot x.slot).client
          = some (net.clientTag x.slot, (net.client.paddingInfo x.slot).isSome) := by
        simp [slot, hm]
      have hslot := Slot.Step.free _ _ _ _ hdown hclient htakes
      simpa [slot] using hslot

/-! ## Runs -/

lemma inv_init : Inv machines init := by
  refine ⟨fun i => ⟨⟨none, rfl, ?_⟩, List.Pairwise.nil, ?_, ?_⟩, ⟨rfl, ?_, ?_⟩,
    ⟨Circuit.oneMachine_new, ?_, ?_⟩, ?_, ?_, rfl, fun i => Nat.le_refl 0⟩
  all_goals simp [slot, init, Circuit.new, upward, downward, Slot.track, upOf, downOf]

/-- **Each careful step keeps the invariant.** -/
theorem Inv.step {e : NetEvent} (h : Inv machines net) (hcareful : net.Careful e)
    (hstep : Net.step machines net e = some net') : Inv machines net' := by
  cases e with
  | addMatchingMachine m =>
    simp only [Net.step] at hstep
    split at hstep
    next hmem =>
      obtain rfl := some.inj hstep
      exact h.clientStarts hmem hcareful
    next => cases hstep
  | shutdownOldMachine i =>
    obtain rfl := some.inj hstep
    exact h.clientStops Circuit.shutdownOldMachine_cases hcareful
  | clientMachineEnds i =>
    obtain rfl := some.inj hstep
    exact h.clientStops (clientEnds_cases h.client i) hcareful
  | clientPackages =>
    simp only [Net.step] at hstep
    split at hstep
    next => cases hstep
    next x clientSending hsending =>
      obtain rfl := some.inj hstep
      refine h.of_cells rfl rfl ?_ rfl rfl rfl rfl
      simp [upward, hsending]
  | relayReceives =>
    simp only [Net.step] at hstep
    split at hstep
    next x toRelay hsending hto =>
      obtain rfl := some.inj hstep
      cases hcommand : x.cell.command with
      | start => exact h.relayReceives_start hsending hto hcommand
      | stop => exact h.relayReceives_stop hsending hto hcommand
    next => cases hstep
  | relayMachineEnds i =>
    obtain rfl := some.inj hstep
    exact h.relayEnds hcareful
  | relayPads i =>
    simp only [Net.step] at hstep
    split at hstep
    next hinfo =>
      obtain rfl := some.inj hstep
      exact h.relayPads hinfo
    next => cases hstep
  | relayPackages =>
    simp only [Net.step] at hstep
    split at hstep
    next => cases hstep
    next x relaySending hsending =>
      obtain rfl := some.inj hstep
      refine h.of_cells rfl rfl rfl ?_ rfl rfl rfl
      simp [downward, hsending]
  | clientReceives =>
    simp only [Net.step] at hstep
    split at hstep
    next x toClient _ hto =>
      obtain rfl := some.inj hstep
      exact h.clientReceives hto
    next => cases hstep

lemma Inv.agrees (h : Inv machines net) : net.Agrees := by
  intro hclientSending htoRelay _ _ i r ctr hr hctr
  have hup : (net.slot i).up = [] := by simp [slot, hclientSending, htoRelay]
  have hrelay : (net.slot i).relay = some (net.relayTag i) := by simp [slot, hr]
  have hclient := (h.slots i).client_of_up_nil hup hrelay
  obtain ⟨m, hm, heq⟩ := map_eq_some_iff.mp hclient
  obtain ⟨htag, hrunning⟩ := Prod.mk.inj heq
  obtain ⟨c, hc⟩ := isSome_iff_exists.mp hrunning
  refine ⟨?_, m, hm, ?_⟩
  · rw [hc, (h.client.info i c hc).2.1, htag, h.relay.info i ctr hctr]
  · rw [(h.client.machine i m hm).2.2, htag, (h.relay.machine i r hr).2.1]

lemma Inv.accepted (h : Inv machines net) (e : NetEvent) : net.Accepted machines e := by
  cases e with
  | clientReceives =>
    intro x hhead
    obtain ⟨toClient, hto⟩ := head?_eq_some_iff.mp hhead
    have hx : x ∈ net.downward := by simp [downward, hto]
    refine ⟨h.expectedHop hx, fun negotiated hcell hstop i hfrees => ?_⟩
    have hlabel := h.down x hx
    obtain ⟨hnum, hctr, -⟩ := hlabel.cell negotiated hcell
    rw [hnum, hctr, h.client.frees_iff hlabel.known] at hfrees
    obtain ⟨rfl, hne, htakes⟩ := hfrees
    obtain ⟨m, hm⟩ := ne_none_iff_exists'.mp hne
    have hdown := downward_slot hto
    have hanswer : answer x.cell = .stopped := by simp [answer, hcell, hstop]
    rw [hanswer] at hdown
    refine ((h.slots x.slot).own_of_down ?_ ?_ htakes).symm
    · rw [hdown]
      exact mem_cons_self
    · simp [slot, hm]
  | relayReceives =>
    intro x hhead hstop i hfrees
    obtain ⟨toRelay, hto⟩ := head?_eq_some_iff.mp hhead
    have hx : UpLabel machines x := h.up x (by simp [upward, hto])
    have hup := upward_slot hto
    rw [hstop] at hup
    rw [hx.num, hx.ctr, h.relay.frees_iff hx.known] at hfrees
    obtain ⟨rfl, r, hr, -⟩ := hfrees
    have hrelay : (net.slot x.slot).relay = some (net.relayTag x.slot) := by simp [slot, hr]
    rw [(h.slots x.slot).relay_of_stop hup hrelay]
  | addMatchingMachine | shutdownOldMachine | clientMachineEnds | clientPackages
  | relayMachineEnds | relayPads | relayPackages => trivial

end Net

open Net

/-- `client_ip_circ` and `client_rp_circ`, with their relay machines. -/
def circSetupMachines : PaddingMachines where
  origin := [⟨0, 0, false, true, 2⟩, ⟨1, 0, false, true, 2⟩]
  relay := relayPaddingMachines.machines
  targetHopnum := 2
  originSide := by decide
  relaySide := by decide
  hop := by decide
  index := by decide
  known := by decide

/-- A machine is started, the relay pads, and it is stopped. -/
def oneMachineRun : List NetEvent :=
  [.addMatchingMachine ⟨0, 0, false, true, 2⟩, .clientPackages, .relayReceives, .relayPackages,
    .relayPads 0, .clientReceives, .shutdownOldMachine 0, .clientPackages, .clientReceives,
    .relayReceives, .relayPackages, .clientReceives]

end Ator.Circpad
