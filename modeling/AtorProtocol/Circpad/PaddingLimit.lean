import AtorProtocol.Circpad.SampleDelay
import AtorProtocol.FlowControl.Congestion
import AtorProtocol.Lib.Run

/-!
# The limits of padding

A machine counts the padding and the other cells that it sends, and so does the process; before
padding is scheduled, its share is compared with the percentages that the machine and the consensus
allow.  A run is any sequence of the calls that cell events make; which calls a machine makes is
left to its specification.

* `Tracked.Inv` — the counters of 16 bits stay below their maximum, and are exact until they are
  halved.
* `limitsHold_iff` — in a run, the limits hold and nothing is divided by zero exactly when every
  check comes after a cell that its percentage is about, or lies below its allowed count.
-/

namespace Ator.Circpad

open Congestion Option

def uint16Max : UInt16 := 0xFFFF

def stateLengthInfinite : UInt64 := 0xFFFFFFFFFFFFFFFF

namespace MachineRuntime

variable (mi : MachineRuntime)

/-- The counters in half, as where one of them is at its maximum. -/
def halveCounts : MachineRuntime :=
  { mi with paddingSent := mi.paddingSent / 2, nonpaddingSent := mi.nonpaddingSent / 2 }

/-- The padding cell off the length of the state -/
def updateStateLengthForPadding : MachineRuntime :=
  if mi.stateLength ≠ stateLengthInfinite ∧ mi.stateLength ≠ 0 then
    { mi with stateLength := mi.stateLength - 1 }
  else mi

/-- `mi->padding_sent++` -/
def incPaddingSent : MachineRuntime :=
  let mi' := { mi with paddingSent := mi.paddingSent + 1 }
  if mi'.paddingSent = uint16Max then mi'.halveCounts else mi'

/-- `mi->nonpadding_sent++` -/
def incNonpaddingSent : MachineRuntime :=
  let mi' := { mi with nonpaddingSent := mi.nonpaddingSent + 1 }
  if mi'.nonpaddingSent = uint16Max then mi'.halveCounts else mi'

end MachineRuntime

/-- `circpad_machine_count_padding_sent`, less the count of the process -/
def machineCountPaddingSent (mi : MachineRuntime) : MachineRuntime :=
  let mi' := mi.updateStateLengthForPadding.incPaddingSent
  if mi'.histogram.isSome ∧ mi'.chosenBin < mi'.tokens.length then mi'.takeToken mi'.chosenBin
  else mi'

def machineUpdateStateLengthForNonpadding (mi : MachineRuntime) : MachineRuntime :=
  if mi.stateLength = stateLengthInfinite then mi
  else
    match machineCurrentState mi with
    | none => mi
    | some state =>
      if state.lengthIncludesNonpadding ∧ mi.stateLength > 0 then
        { mi with stateLength := mi.stateLength - 1 }
      else mi

def machineCountNonpaddingSent (mi : MachineRuntime) (currentTime : UInt64) : MachineRuntime :=
  machineRemoveToken (machineUpdateStateLengthForNonpadding mi.incNonpaddingSent) currentTime

def circuitMachineinfoNew (machine : PaddingMachineSpec) : MachineRuntime where
  machine
  histogram := none
  chosenBin := 0
  stateLength := 0
  paddingSent := 0
  nonpaddingSent := 0
  rttEstimateUsec := 0
  paddingScheduledAtUsec := 0
  isPaddingTimerScheduled := false
  currentState := 0

/-- A machine on a circuit, and beside it what was sent since it was set up: padding cells that
were counted and that left, other cells, and whether the counters were halved. -/
structure Tracked where
  runtime : MachineRuntime
  counted : ℕ
  left : ℕ
  nonpadding : ℕ
  halved : Bool

/-- The cached consensus parameters, the counts of the process, and the machines of each
circuit. -/
structure PaddingProcess where
  paddingDisabled : Bool
  globalAllowedCells : UInt16
  globalMaxPaddingPercent : UInt8
  maxCircQueuedCells : UInt16
  globalPaddingSent : UInt64
  globalNonpaddingSent : UInt64
  paddingInfo : ℕ → Fin 2 → Option Tracked

/-- The state of a process that starts. -/
def PaddingProcess.start : PaddingProcess where
  paddingDisabled := false
  globalAllowedCells := 0
  globalMaxPaddingPercent := 0
  maxCircQueuedCells := 0
  globalPaddingSent := 0
  globalNonpaddingSent := 0
  paddingInfo := fun _ _ => none

def newConsensusParams (ns : Consensus) (p : PaddingProcess) : PaddingProcess :=
  { p with
    paddingDisabled := networkstatusGetParam ns "circpad_padding_disabled" 0 0 1 ≠ 0
    globalAllowedCells :=
      .ofNat (networkstatusGetParam ns "circpad_global_allowed_cells" 0 0 (2 ^ 16 - 2)).toNat
    globalMaxPaddingPercent :=
      .ofNat (networkstatusGetParam ns "circpad_global_max_padding_pct" 0 0 100).toNat
    maxCircQueuedCells := .ofNat
      (networkstatusGetParam ns "circpad_max_circ_queued_cells" 1000 0 (50 * 1000)).toNat }

/-- The first part of `circpad_machine_reached_padding_limit`; `none` is a division by zero. -/
def reachedMachineLimit (mi : MachineRuntime) : Option Bool :=
  if mi.machine.maxPaddingPercent ≠ 0 ∧ mi.paddingSent ≥ mi.machine.allowedPaddingCount then
    let totalCells := mi.paddingSent.toUInt32 + mi.nonpaddingSent.toUInt32
    if totalCells = 0 then none
    else some (100 * mi.paddingSent.toUInt32 / totalCells > mi.machine.maxPaddingPercent.toUInt32)
  else some false

/-- The second part of `circpad_machine_reached_padding_limit` -/
def reachedGlobalLimit (p : PaddingProcess) : Option Bool :=
  if p.globalMaxPaddingPercent ≠ 0 ∧ p.globalPaddingSent ≥ p.globalAllowedCells.toUInt64 then
    let totalCells := p.globalPaddingSent + p.globalNonpaddingSent
    if totalCells = 0 then none
    else some (100 * p.globalPaddingSent / totalCells > p.globalMaxPaddingPercent.toUInt64)
  else some false

def machineReachedPaddingLimit (p : PaddingProcess) (mi : MachineRuntime) : Option Bool :=
  (reachedMachineLimit mi).bind fun reached => if reached then some true else reachedGlobalLimit p

/-- What `circpad_machine_schedule_padding` reads besides the machine: the option
`CircuitPadding`, whether the process is dormant, the time, and the random numbers. -/
structure ScheduleEnv where
  circuitPadding : Bool
  participatingOnNetwork : Bool
  currentTime : UInt64
  binChoice : ℕ
  uint64Range : UInt32 → UInt32 → UInt32
  iatDelay : UInt32

/-- The checks of `circpad_machine_schedule_padding` before the limits. -/
def checksLimits (env : ScheduleEnv) (p : PaddingProcess) (mi : MachineRuntime) : Bool :=
  !p.paddingDisabled && env.circuitPadding && env.participatingOnNetwork
    && mi.currentState ≠ stateEnd

/-- `circpad_machine_schedule_padding`, up to the calls that follow it: the infinity event, and the
padding cell that is sent at once for a delay of 0. -/
def machineSchedulePadding (env : ScheduleEnv) (p : PaddingProcess) (mi : MachineRuntime) :
    Option MachineRuntime :=
  if checksLimits env p mi then
    (machineReachedPaddingLimit p mi).bind fun reached =>
      if reached then some mi
      else
        (machineSampleDelay env.binChoice env.uint64Range env.iatDelay
            { mi with isPaddingTimerScheduled := false }).map fun (inUsec, mi) =>
          let mi' := { mi with
            paddingScheduledAtUsec := if mi.histogram.isSome then env.currentTime else 1 }
          if inUsec = delayInfinite then mi'
          else if mi'.stateLength = 0 then mi'
          else if inUsec ≤ 0 then mi'
          else { mi' with isPaddingTimerScheduled := true }
  else some mi

/-- A call that changes the machines or the counts. -/
inductive PadCall where
  /-- `circpad_new_consensus_params` -/
  | newConsensusParams (ns : Consensus)
  /-- `circpad_setup_machine_on_circ` -/
  | setupMachine (circ : ℕ) (machine : PaddingMachineSpec)
  /-- `circpad_circuit_machineinfo_free_idx` -/
  | machineinfoFree (circ : ℕ) (i : Fin 2)
  /-- A transition to a state, with the length that is chosen for it -/
  | enterState (circ : ℕ) (i : Fin 2) (state : UInt16) (stateLength : UInt64)
  /-- A new estimate of the round trip time -/
  | estimateRtt (circ : ℕ) (i : Fin 2) (rttEstimateUsec : UInt32)
  /-- The count of the process in `circpad_cell_event_nonpadding_sent` -/
  | nonpaddingSent
  /-- `circpad_machine_count_nonpadding_sent` -/
  | countNonpaddingSent (circ : ℕ) (i : Fin 2) (currentTime : UInt64)
  /-- `circpad_machine_schedule_padding` -/
  | schedulePadding (circ : ℕ) (i : Fin 2) (env : ScheduleEnv)
  /-- `circpad_send_padding_cell_for_callback`, on a circuit whose queue has so many cells -/
  | sendPaddingCell (circ : ℕ) (i : Fin 2) (isOrigin markedForClose : Bool) (queued : ℕ)

/-- The process with another machine in a slot. -/
def PaddingProcess.put (p : PaddingProcess) (circ : ℕ) (i : Fin 2) (t : Option Tracked) :
    PaddingProcess :=
  { p with paddingInfo := fun circ' i' =>
      if circ' = circ ∧ i' = i then t else p.paddingInfo circ' i' }

/-- The machine once another cell is counted. -/
def Tracked.countNonpadding (t : Tracked) (currentTime : UInt64) : Tracked :=
  { t with
    runtime := machineCountNonpaddingSent t.runtime currentTime
    nonpadding := t.nonpadding + 1
    halved := t.halved || t.runtime.nonpaddingSent + 1 = uint16Max }

/-- The machine once a padding cell is counted, and has left or not. -/
def Tracked.countPadding (t : Tracked) (leaves : Bool) : Tracked :=
  { t with
    runtime := machineCountPaddingSent t.runtime
    counted := t.counted + 1
    left := t.left + if leaves then 1 else 0
    halved := t.halved || t.runtime.paddingSent + 1 = uint16Max }

/-- One call; `none` is a division by zero or a failed assertion. -/
def padStep (p : PaddingProcess) : PadCall → Option PaddingProcess
  | .newConsensusParams ns => some (newConsensusParams ns p)
  | .setupMachine circ machine =>
    match p.paddingInfo circ machine.machineIndex with
    | some _ => some p
    | none => some (p.put circ machine.machineIndex
        (some ⟨circuitMachineinfoNew machine, 0, 0, 0, false⟩))
  | .machineinfoFree circ i => some (p.put circ i none)
  | .enterState circ i state stateLength =>
    some (p.put circ i ((p.paddingInfo circ i).map fun t =>
      { t with runtime :=
          { machineSetupTokens { t.runtime with currentState := state } with stateLength } }))
  | .estimateRtt circ i rttEstimateUsec =>
    some (p.put circ i ((p.paddingInfo circ i).map fun t =>
      { t with runtime := { t.runtime with rttEstimateUsec } }))
  | .nonpaddingSent => some { p with globalNonpaddingSent := p.globalNonpaddingSent + 1 }
  | .countNonpaddingSent circ i currentTime =>
    some (p.put circ i ((p.paddingInfo circ i).map fun t => t.countNonpadding currentTime))
  | .schedulePadding circ i env =>
    match p.paddingInfo circ i with
    | none => some p
    | some t => (machineSchedulePadding env p t.runtime).map fun mi =>
      p.put circ i (some { t with runtime := mi })
  | .sendPaddingCell circ i isOrigin markedForClose queued =>
    match p.paddingInfo circ i with
    | none => some p
    | some t =>
      let t := { t with runtime :=
          { t.runtime with paddingScheduledAtUsec := 0, isPaddingTimerScheduled := false } }
      if markedForClose then some (p.put circ i (some t))
      else some { p.put circ i
          (some (t.countPadding (isOrigin || queued ≤ p.maxCircQueuedCells.toNat))) with
        globalPaddingSent := p.globalPaddingSent + 1 }

/-! ## The counters -/

variable {mi mi' mi'' : MachineRuntime} {t : Tracked} {p p' : PaddingProcess} {e : PadCall}
  {circ bin : ℕ} {i : Fin 2} {usec : UInt32}

/-- The machine is the same, and its counters. -/
structure SameCounts (mi mi' : MachineRuntime) : Prop where
  machine : mi'.machine = mi.machine
  padding : mi'.paddingSent = mi.paddingSent
  nonpadding : mi'.nonpaddingSent = mi.nonpaddingSent

lemma SameCounts.refl (mi : MachineRuntime) : SameCounts mi mi := ⟨rfl, rfl, rfl⟩

lemma SameCounts.trans (h : SameCounts mi mi') (h' : SameCounts mi' mi'') : SameCounts mi mi'' :=
  ⟨h'.machine.trans h.machine, h'.padding.trans h.padding, h'.nonpadding.trans h.nonpadding⟩

lemma sameCounts_takeToken : SameCounts mi (mi.takeToken bin) := by
  rw [MachineRuntime.takeToken]
  split_ifs
  · exact .refl mi
  · exact ⟨rfl, rfl, rfl⟩

lemma sameCounts_setupTokens : SameCounts mi (machineSetupTokens mi) := by
  rw [machineSetupTokens]
  split
  · exact ⟨rfl, rfl, rfl⟩
  · split_ifs <;> exact ⟨rfl, rfl, rfl⟩

lemma sameCounts_removeClosestToken (useUsec : Bool) :
    SameCounts mi (machineRemoveClosestToken mi usec useUsec) := by
  simp only [machineRemoveClosestToken]
  split <;> split_ifs <;> first | exact .refl mi | exact sameCounts_takeToken

lemma sameCounts_removeByStrategy (removal : TokenRemoval) :
    SameCounts mi (removeByStrategy mi usec removal) := by
  cases removal with
  | none => exact .refl mi
  | higher =>
    simp only [removeByStrategy, machineRemoveHigherToken]
    split_ifs
    · exact sameCounts_takeToken
    · exact .refl mi
  | lower =>
    simp only [removeByStrategy, machineRemoveLowerToken]
    split
    · exact .refl mi
    · split_ifs
      · exact sameCounts_takeToken
      · exact .refl mi
  | closest => exact sameCounts_removeClosestToken false
  | closestUsec => exact sameCounts_removeClosestToken true
  | exact =>
    simp only [removeByStrategy, machineRemoveExact]
    split_ifs
    · exact ⟨rfl, rfl, rfl⟩
    · exact .refl mi

lemma sameCounts_removeToken (currentTime : UInt64) :
    SameCounts mi (machineRemoveToken mi currentTime) := by
  rw [machineRemoveToken]
  split_ifs
  · exact .refl mi
  · split
    · exact .refl mi
    · split_ifs
      · exact .refl mi
      · refine .trans ?_ (sameCounts_removeByStrategy _)
        exact ⟨rfl, rfl, rfl⟩

lemma sameCounts_updateStateLength :
    SameCounts mi (machineUpdateStateLengthForNonpadding mi) := by
  rw [machineUpdateStateLengthForNonpadding]
  split_ifs
  · exact .refl mi
  · split
    · exact .refl mi
    · split_ifs
      · exact ⟨rfl, rfl, rfl⟩
      · exact .refl mi

lemma sameCounts_sampleDelay {binChoice : ℕ} {uint64Range : UInt32 → UInt32 → UInt32}
    {iatDelay delay : UInt32}
    (h : machineSampleDelay binChoice uint64Range iatDelay mi = some (delay, mi')) :
    SameCounts mi mi' := by
  simp only [machineSampleDelay] at h
  repeat' split at h
  all_goals
    first
    | (obtain ⟨-, rfl⟩ := Prod.mk.inj (some.inj h)
       exact ⟨rfl, rfl, rfl⟩)
    | exact absurd h (by simp)

/-- A counter and the other one, one cell on. -/
def CountsOn (counter other counter' other' : UInt16) : Prop :=
  if counter + 1 = uint16Max then counter' = (counter + 1) / 2 ∧ other' = other / 2
  else counter' = counter + 1 ∧ other' = other

lemma countsOn_incPaddingSent :
    CountsOn mi.paddingSent mi.nonpaddingSent
      mi.incPaddingSent.paddingSent mi.incPaddingSent.nonpaddingSent := by
  rw [CountsOn, MachineRuntime.incPaddingSent]
  split_ifs <;> exact ⟨rfl, rfl⟩

lemma countsOn_incNonpaddingSent :
    CountsOn mi.nonpaddingSent mi.paddingSent
      mi.incNonpaddingSent.nonpaddingSent mi.incNonpaddingSent.paddingSent := by
  rw [CountsOn, MachineRuntime.incNonpaddingSent]
  split_ifs <;> exact ⟨rfl, rfl⟩

lemma CountsOn.spec {c o c' o' : UInt16} {n m : ℕ} {halved : Bool} (h : CountsOn c o c' o')
    (hc : c.toNat < 2 ^ 16 - 1) (ho : o.toNat < 2 ^ 16 - 1)
    (hexact : halved = false → c.toNat = n ∧ o.toNat = m) :
    c'.toNat < 2 ^ 16 - 1 ∧ o'.toNat < 2 ^ 16 - 1 ∧ 0 < c'.toNat
      ∧ ((halved || decide (c + 1 = uint16Max)) = false → c'.toNat = n + 1 ∧ o'.toNat = m) := by
  have hsucc : (c + 1).toNat = c.toNat + 1 := by
    rw [UInt16.toNat_add, show (1 : UInt16).toNat = 1 from rfl]
    omega
  rw [CountsOn] at h
  split_ifs at h with hmax
  · obtain ⟨rfl, rfl⟩ := h
    simp only [hmax, decide_true, Bool.or_true, Bool.true_eq_false, false_implies, and_true]
    refine ⟨by decide, ?_, by decide⟩
    rw [UInt16.toNat_div, show (2 : UInt16).toNat = 2 from rfl]
    omega
  · obtain ⟨rfl, rfl⟩ := h
    have hne : (c + 1).toNat ≠ 2 ^ 16 - 1 := fun heq => hmax (UInt16.toNat_inj.mp heq)
    refine ⟨by omega, ho, by omega, fun hno => ?_⟩
    obtain ⟨hn, hm⟩ := hexact (by simpa [hmax] using hno)
    exact ⟨by omega, hm⟩

lemma sameCounts_countNonpadding (currentTime : UInt64) :
    SameCounts mi.incNonpaddingSent (machineCountNonpaddingSent mi currentTime) :=
  sameCounts_updateStateLength.trans (sameCounts_removeToken currentTime)

lemma incPaddingSent_updateStateLength :
    SameCounts mi.incPaddingSent (machineCountPaddingSent mi) := by
  have hlength : SameCounts mi.incPaddingSent mi.updateStateLengthForPadding.incPaddingSent := by
    simp only [MachineRuntime.updateStateLengthForPadding, MachineRuntime.incPaddingSent,
      MachineRuntime.halveCounts]
    split_ifs <;> exact ⟨rfl, rfl, rfl⟩
  simp only [machineCountPaddingSent]
  split_ifs
  · exact hlength.trans sameCounts_takeToken
  · exact hlength

/-! ## Every call keeps the counters right -/

/-- What the counters of a machine say. -/
structure Tracked.Inv (t : Tracked) : Prop where
  padding_lt : t.runtime.paddingSent.toNat < 2 ^ 16 - 1
  nonpadding_lt : t.runtime.nonpaddingSent.toNat < 2 ^ 16 - 1
  left_le : t.left ≤ t.counted
  exact : t.halved = false →
    t.runtime.paddingSent.toNat = t.counted ∧ t.runtime.nonpaddingSent.toNat = t.nonpadding
  pos : t.halved = true → 0 < t.runtime.paddingSent.toNat + t.runtime.nonpaddingSent.toNat
    ∧ 0 < t.counted + t.nonpadding

/-- All machines count right. -/
def PaddingProcess.Inv (p : PaddingProcess) : Prop :=
  ∀ circ i t, p.paddingInfo circ i = some t → t.Inv

lemma Tracked.Inv.of_sameCounts (h : t.Inv) (hsame : SameCounts t.runtime mi) :
    ({ t with runtime := mi } : Tracked).Inv := by
  refine ⟨?_, ?_, h.left_le, ?_, ?_⟩
  · rw [hsame.padding]
    exact h.padding_lt
  · rw [hsame.nonpadding]
    exact h.nonpadding_lt
  · rw [hsame.padding, hsame.nonpadding]
    exact h.exact
  · rw [hsame.padding, hsame.nonpadding]
    exact h.pos

lemma Tracked.Inv.countPadding (h : t.Inv) (leaves : Bool) : (t.countPadding leaves).Inv := by
  have hsame := @incPaddingSent_updateStateLength t.runtime
  obtain ⟨hp, hn, hpos, hexact⟩ := countsOn_incPaddingSent.spec h.padding_lt h.nonpadding_lt h.exact
  rw [← hsame.padding] at hp hpos hexact
  rw [← hsame.nonpadding] at hn hexact
  refine ⟨hp, hn, ?_, hexact, fun _ => ⟨Nat.add_pos_left hpos _, ?_⟩⟩
  · have hle := h.left_le
    show t.left + (if leaves then 1 else 0) ≤ t.counted + 1
    split_ifs <;> omega
  · show 0 < t.counted + 1 + t.nonpadding
    omega

lemma Tracked.Inv.countNonpadding (h : t.Inv) (currentTime : UInt64) :
    (t.countNonpadding currentTime).Inv := by
  have hsame := @sameCounts_countNonpadding t.runtime currentTime
  obtain ⟨hn, hp, hpos, hexact⟩ :=
    countsOn_incNonpaddingSent.spec h.nonpadding_lt h.padding_lt (fun hno => (h.exact hno).symm)
  rw [← hsame.padding] at hp hexact
  rw [← hsame.nonpadding] at hn hpos hexact
  exact ⟨hp, hn, h.left_le, fun hno => (hexact hno).symm,
    fun _ => ⟨Nat.add_pos_right _ hpos, Nat.add_pos_right _ (Nat.succ_pos _)⟩⟩

lemma PaddingProcess.Inv.put (h : p.Inv) {t : Option Tracked} (ht : ∀ t' ∈ t, t'.Inv) :
    (p.put circ i t).Inv := by
  intro circ' i' t' ht'
  simp only [PaddingProcess.put] at ht'
  split_ifs at ht'
  · exact ht t' ht'
  · exact h circ' i' t' ht'

lemma PaddingProcess.Inv.put_map (h : p.Inv) {f : Tracked → Tracked}
    (hf : ∀ t : Tracked, t.Inv → (f t).Inv) :
    (p.put circ i ((p.paddingInfo circ i).map f)).Inv := by
  refine h.put fun t' ht' => ?_
  obtain ⟨t, ht, rfl⟩ := map_eq_some_iff.mp ht'
  exact hf t (h circ i t ht)

lemma sameCounts_schedulePadding {env : ScheduleEnv}
    (h : machineSchedulePadding env p mi = some mi') : SameCounts mi mi' := by
  rw [machineSchedulePadding] at h
  split_ifs at h
  · obtain ⟨reached, -, hrest⟩ := bind_eq_some_iff.mp h
    cases reached with
    | true =>
      obtain rfl := some.inj hrest
      exact .refl mi
    | false =>
      obtain ⟨⟨inUsec, sampled⟩, hsample, heq⟩ := map_eq_some_iff.mp hrest
      have hsame := sameCounts_sampleDelay hsample
      refine SameCounts.trans ⟨hsame.machine, hsame.padding, hsame.nonpadding⟩ ?_
      rw [← heq]
      dsimp only
      split_ifs <;> exact ⟨rfl, rfl, rfl⟩
  · obtain rfl := some.inj h
    exact .refl mi

lemma inv_padStep (h : p.Inv) (hstep : padStep p e = some p') : p'.Inv := by
  cases e with
  | newConsensusParams ns =>
    obtain rfl := some.inj hstep
    exact h
  | setupMachine circ machine =>
    rw [padStep] at hstep
    split at hstep
    · obtain rfl := some.inj hstep
      exact h
    · obtain rfl := some.inj hstep
      refine h.put fun t' ht' => ?_
      obtain rfl := some.inj ht'
      exact ⟨show 0 < 2 ^ 16 - 1 by decide, show 0 < 2 ^ 16 - 1 by decide, le_rfl,
        fun _ => ⟨rfl, rfl⟩, fun hno => absurd hno (by simp)⟩
  | machineinfoFree circ i =>
    obtain rfl := some.inj hstep
    exact h.put fun t' ht' => absurd ht' (by simp)
  | enterState circ i state stateLength =>
    obtain rfl := some.inj hstep
    refine h.put_map fun t ht => ht.of_sameCounts ?_
    have hsetup := @sameCounts_setupTokens { t.runtime with currentState := state }
    exact ⟨hsetup.machine, hsetup.padding, hsetup.nonpadding⟩
  | estimateRtt circ i rttEstimateUsec =>
    obtain rfl := some.inj hstep
    exact h.put_map fun t ht => ht.of_sameCounts ⟨rfl, rfl, rfl⟩
  | nonpaddingSent =>
    obtain rfl := some.inj hstep
    exact h
  | countNonpaddingSent circ i currentTime =>
    obtain rfl := some.inj hstep
    exact h.put_map fun t ht => ht.countNonpadding currentTime
  | schedulePadding circ i env =>
    rw [padStep] at hstep
    split at hstep
    · obtain rfl := some.inj hstep
      exact h
    next t ht =>
      obtain ⟨mi, hschedule, rfl⟩ := map_eq_some_iff.mp hstep
      refine h.put fun t' ht' => ?_
      obtain rfl := some.inj ht'
      exact (h circ i t ht).of_sameCounts (sameCounts_schedulePadding hschedule)
  | sendPaddingCell circ i isOrigin markedForClose queued =>
    rw [padStep] at hstep
    split at hstep
    · obtain rfl := some.inj hstep
      exact h
    next t ht =>
      have hcancelled : ({ t with runtime :=
          { t.runtime with paddingScheduledAtUsec := 0, isPaddingTimerScheduled := false } } :
            Tracked).Inv :=
        (h circ i t ht).of_sameCounts ⟨rfl, rfl, rfl⟩
      split_ifs at hstep
      · obtain rfl := some.inj hstep
        refine h.put fun t' ht' => ?_
        obtain rfl := some.inj ht'
        exact hcancelled
      · obtain rfl := some.inj hstep
        refine h.put fun t' ht' => ?_
        obtain rfl := some.inj ht'
        exact hcancelled.countPadding _

lemma inv_start : PaddingProcess.start.Inv := by
  intro circ i t ht
  simp [PaddingProcess.start] at ht

/-- In every run, the counters of all machines are right. -/
theorem inv_of_reaches {es : List PadCall} (h : Reaches padStep PaddingProcess.start es p) :
    p.Inv :=
  invariant_of_reaches (fun _ _ _ hinv hstep => inv_padStep hinv hstep) inv_start h

/-! ## The limits -/

/-- At least the allowed count of padding cells has left, which is more than one percent above the
limit of the machine, as its counters, never halved, can tell. -/
structure Exceeds (t : Tracked) : Prop where
  never_halved : t.halved = false
  limited : t.runtime.machine.maxPaddingPercent ≠ 0
  allowed_le : t.runtime.machine.allowedPaddingCount.toNat ≤ t.left
  above : (t.runtime.machine.maxPaddingPercent.toNat + 1) * (t.left + t.nonpadding) < 100 * t.left

/-- No check divides by zero, no machine above its limit schedules padding, and no counter is
incremented at its maximum. -/
def LimitsHold (p : PaddingProcess) : PadCall → Prop
  | .schedulePadding circ i env => ∀ t, p.paddingInfo circ i = some t →
      (checksLimits env p t.runtime → (machineReachedPaddingLimit p t.runtime).isSome)
        ∧ (Exceeds t → machineSchedulePadding env p t.runtime = some t.runtime)
  | .countNonpaddingSent circ i _ => ∀ t, p.paddingInfo circ i = some t →
      t.runtime.nonpaddingSent < uint16Max
  | .sendPaddingCell circ i _ _ _ => ∀ t, p.paddingInfo circ i = some t →
      t.runtime.paddingSent < uint16Max
  | _ => True

/-- Every check with a percentage and an allowed count that is reached comes when some cell was
counted: for the machine, and unless that stops it, for the process. -/
def CellsCounted (p : PaddingProcess) : PadCall → Prop
  | .schedulePadding circ i env => ∀ t, p.paddingInfo circ i = some t →
      checksLimits env p t.runtime →
        (t.runtime.machine.maxPaddingPercent ≠ 0 → t.runtime.machine.allowedPaddingCount = 0 →
            t.counted + t.nonpadding ≠ 0)
          ∧ (reachedMachineLimit t.runtime = some false → p.globalMaxPaddingPercent ≠ 0 →
            p.globalAllowedCells.toUInt64 ≤ p.globalPaddingSent →
              p.globalPaddingSent + p.globalNonpaddingSent ≠ 0)
  | _ => True

lemma toUInt32_add_eq_zero (a b : UInt16) : a.toUInt32 + b.toUInt32 = 0 ↔ a = 0 ∧ b = 0 := by
  have ha := a.toNat_lt
  have hb := b.toNat_lt
  rw [← UInt32.toNat_inj, UInt32.toNat_add, UInt16.toNat_toUInt32, UInt16.toNat_toUInt32,
    ← UInt16.toNat_inj, ← UInt16.toNat_inj, UInt32.toNat_zero, UInt16.toNat_zero]
  omega

lemma Tracked.Inv.counts_eq_zero (h : t.Inv) :
    t.runtime.paddingSent = 0 ∧ t.runtime.nonpaddingSent = 0 ↔ t.counted + t.nonpadding = 0 := by
  rw [← UInt16.toNat_inj, ← UInt16.toNat_inj, UInt16.toNat_zero]
  cases hhalved : t.halved with
  | false =>
    obtain ⟨hpadding, hnonpadding⟩ := h.exact hhalved
    omega
  | true =>
    obtain ⟨hcounts, hcells⟩ := h.pos hhalved
    omega

/-- The check of the machine divides by zero. -/
lemma Tracked.Inv.reachedMachineLimit_eq_none (h : t.Inv) :
    reachedMachineLimit t.runtime = none
      ↔ t.runtime.machine.maxPaddingPercent ≠ 0 ∧ t.runtime.machine.allowedPaddingCount = 0
        ∧ t.counted + t.nonpadding = 0 := by
  rw [← h.counts_eq_zero, reachedMachineLimit]
  split_ifs with hlimited
  · dsimp only
    split_ifs with hzero
    · rw [toUInt32_add_eq_zero] at hzero
      refine iff_of_true rfl ⟨hlimited.1, ?_, hzero⟩
      have hle := hlimited.2
      rw [hzero.1] at hle
      exact UInt16.le_antisymm hle UInt16.zero_le
    · rw [toUInt32_add_eq_zero] at hzero
      exact iff_of_false (by simp) fun h => hzero h.2.2
  · refine iff_of_false (by simp) fun hnone => hlimited ⟨hnone.1, ?_⟩
    rw [hnone.2.1]
    exact UInt16.zero_le

/-- The check of the process divides by zero. -/
lemma reachedGlobalLimit_eq_none : reachedGlobalLimit p = none
    ↔ p.globalMaxPaddingPercent ≠ 0 ∧ p.globalAllowedCells.toUInt64 ≤ p.globalPaddingSent
      ∧ p.globalPaddingSent + p.globalNonpaddingSent = 0 := by
  rw [reachedGlobalLimit]
  split_ifs with hlimited
  · dsimp only
    split_ifs with hzero
    · exact iff_of_true rfl ⟨hlimited.1, hlimited.2, hzero⟩
    · exact iff_of_false (by simp) fun h => hzero h.2.2
  · exact iff_of_false (by simp) fun h => hlimited ⟨h.1, h.2.1⟩

lemma share_le {percent sent counted other : ℕ} (hle : sent ≤ counted)
    (habove : (percent + 1) * (sent + other) < 100 * sent) :
    (percent + 1) * (counted + other) ≤ 100 * counted := by
  obtain ⟨more, rfl⟩ := Nat.exists_eq_add_of_le hle
  have hpercent : percent + 1 ≤ 100 := by
    by_contra hlt
    have hmul := Nat.mul_le_mul (show 100 ≤ percent + 1 by omega) (Nat.le_add_right sent other)
    omega
  calc (percent + 1) * (sent + more + other)
      = (percent + 1) * (sent + other) + (percent + 1) * more := by ring
    _ ≤ 100 * sent + 100 * more := Nat.add_le_add habove.le (Nat.mul_le_mul_right more hpercent)
    _ = 100 * (sent + more) := by ring

/-- A machine above its limit is stopped. -/
lemma reachedMachineLimit_of_exceeds (h : t.Inv) (hexceeds : Exceeds t) :
    reachedMachineLimit t.runtime = some true := by
  obtain ⟨hpadding, hnonpadding⟩ := h.exact hexceeds.never_halved
  have hpaddingLt := h.padding_lt
  have hnonpaddingLt := h.nonpadding_lt
  have hshare := share_le h.left_le hexceeds.above
  have hpos : 0 < t.counted := by
    have habove := hexceeds.above
    have hleft := h.left_le
    omega
  have htotal : (t.runtime.paddingSent.toUInt32 + t.runtime.nonpaddingSent.toUInt32).toNat
      = t.counted + t.nonpadding := by
    rw [UInt32.toNat_add, UInt16.toNat_toUInt32, UInt16.toNat_toUInt32]
    omega
  have hhundred : (100 * t.runtime.paddingSent.toUInt32).toNat = 100 * t.counted := by
    rw [UInt32.toNat_mul, UInt16.toNat_toUInt32, show (100 : UInt32).toNat = 100 from rfl]
    omega
  have hallowed : t.runtime.paddingSent ≥ t.runtime.machine.allowedPaddingCount := by
    rw [ge_iff_le, UInt16.le_iff_toNat_le, hpadding]
    exact hexceeds.allowed_le.trans h.left_le
  have hnonzero : t.runtime.paddingSent.toUInt32 + t.runtime.nonpaddingSent.toUInt32 ≠ 0 := by
    rw [Ne, ← UInt32.toNat_inj, htotal, UInt32.toNat_zero]
    omega
  rw [reachedMachineLimit, if_pos ⟨hexceeds.limited, hallowed⟩]
  rw [if_neg hnonzero, some.injEq, decide_eq_true_iff, gt_iff_lt, UInt32.lt_iff_toNat_lt,
    UInt32.toNat_div, hhundred, htotal, UInt8.toNat_toUInt32]
  exact Nat.lt_of_succ_le ((Nat.le_div_iff_mul_le (by omega)).mpr hshare)

lemma reachedPaddingLimit_isSome (h : t.Inv) :
    (machineReachedPaddingLimit p t.runtime).isSome
      ↔ (t.runtime.machine.maxPaddingPercent ≠ 0 → t.runtime.machine.allowedPaddingCount = 0 →
          t.counted + t.nonpadding ≠ 0)
        ∧ (reachedMachineLimit t.runtime = some false → p.globalMaxPaddingPercent ≠ 0 →
          p.globalAllowedCells.toUInt64 ≤ p.globalPaddingSent →
            p.globalPaddingSent + p.globalNonpaddingSent ≠ 0) := by
  have hmachine := h.reachedMachineLimit_eq_none
  have hglobal := @reachedGlobalLimit_eq_none p
  have hfirst : (t.runtime.machine.maxPaddingPercent ≠ 0 →
      t.runtime.machine.allowedPaddingCount = 0 → t.counted + t.nonpadding ≠ 0)
      ↔ reachedMachineLimit t.runtime ≠ none := by
    refine Iff.trans ⟨?_, ?_⟩ (not_congr hmachine).symm
    · rintro hcounted ⟨hlimited, hallowed, hzero⟩
      exact hcounted hlimited hallowed hzero
    · intro hnot hlimited hallowed hzero
      exact hnot ⟨hlimited, hallowed, hzero⟩
  have hsecond : (p.globalMaxPaddingPercent ≠ 0 →
      p.globalAllowedCells.toUInt64 ≤ p.globalPaddingSent →
        p.globalPaddingSent + p.globalNonpaddingSent ≠ 0) ↔ reachedGlobalLimit p ≠ none := by
    refine Iff.trans ⟨?_, ?_⟩ (not_congr hglobal).symm
    · rintro hcounted ⟨hlimited, hallowed, hzero⟩
      exact hcounted hlimited hallowed hzero
    · intro hnot hlimited hallowed hzero
      exact hnot ⟨hlimited, hallowed, hzero⟩
  rw [hfirst, hsecond, machineReachedPaddingLimit]
  cases hreached : reachedMachineLimit t.runtime with
  | none => simp
  | some reached => cases reached <;> simp [isSome_iff_ne_none]

lemma limitsHold_iff_cellsCounted (h : p.Inv) : LimitsHold p e ↔ CellsCounted p e := by
  cases e with
  | schedulePadding circ i env =>
    refine forall_congr' fun t => forall_congr' fun ht => ?_
    have hinv := h circ i t ht
    rw [← reachedPaddingLimit_isSome hinv]
    refine and_iff_left fun hexceeds => ?_
    rw [machineSchedulePadding, machineReachedPaddingLimit,
      reachedMachineLimit_of_exceeds hinv hexceeds]
    split_ifs <;> rfl
  | countNonpaddingSent circ i currentTime =>
    refine iff_of_true (fun t ht => ?_) trivial
    exact UInt16.lt_iff_toNat_lt.mpr (h circ i t ht).nonpadding_lt
  | sendPaddingCell circ i isOrigin markedForClose queued =>
    refine iff_of_true (fun t ht => ?_) trivial
    exact UInt16.lt_iff_toNat_lt.mpr (h circ i t ht).padding_lt
  | newConsensusParams ns => exact Iff.rfl
  | setupMachine circ machine => exact Iff.rfl
  | machineinfoFree circ i => exact Iff.rfl
  | enterState circ i state stateLength => exact Iff.rfl
  | estimateRtt circ i rttEstimateUsec => exact Iff.rfl
  | nonpaddingSent => exact Iff.rfl

/-- **The limits hold all along a run** exactly when its checks come after some cell was
counted. -/
theorem limitsHold_iff (es : List PadCall) :
    Meets padStep LimitsHold PaddingProcess.start es
      ↔ Meets padStep CellsCounted PaddingProcess.start es := by
  refine forall_congr' fun pre => forall_congr' fun e => forall_congr' fun post =>
    forall_congr' fun _ => forall_congr' fun p => forall_congr' fun hreaches => ?_
  exact limitsHold_iff_cellsCounted (inv_of_reaches hreaches)

/-- A machine that may send half of its cells as padding, from the first cell on. -/
def halfPadding : PaddingMachineSpec where
  machineIndex := 0
  allowedPaddingCount := 0
  maxPaddingPercent := 50
  states := [fiveTokens, fiveTokens]
  states_valid := by decide

/-- A relay sets up a machine for a client, the cell that asked for it moves the machine on, and
padding is scheduled before any cell was sent. -/
theorem not_limitsHold_firstCell :
    ¬ Meets padStep LimitsHold PaddingProcess.start
      [.setupMachine 1 halfPadding, .enterState 1 0 1 0,
        .schedulePadding 1 0 ⟨true, true, 1, 0, fun min _ => min, 0⟩] := by
  intro h
  have hschedule := (meets_cons.mp ((meets_cons.mp ((meets_cons.mp h).2 _ rfl)).2 _ rfl)).1
  exact absurd ((hschedule _ rfl).1 rfl) (by decide)

end Ator.Circpad
