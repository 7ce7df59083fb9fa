import AtorProtocol.Lib.IndexedHeap

/-!
# The EWMA policy

`src/core/or/circuitmux_ewma.c`: the queue of the active circuits of a circuitmux, by how much they
have sent lately.  The floating point arithmetic is a parameter, of which nothing is assumed; data
of circuits is reached through its address.  `none` is a failed assertion.

* `EwmaOk` — the queue knows its positions, and all of it is scaled to one tick.
-/

namespace Ator.Circuitmux

open List Function

/-- What the policy does with floating point numbers: `get_scale_factor` times a count, a count
and what some cells sent at a fraction of the tick add to it, and `<`. -/
structure EwmaArith (F : Type) where
  zero : F
  scale : F → (fromTick toTick : ℕ) → F
  increment : F → (nCells : ℕ) → (fractionalTick : F) → F
  lt : F → F → Bool

structure CellEwma (F : Type) where
  lastAdjustedTick : ℕ
  cellCount : F
  heapIndex : ℤ
  isForPChan : Bool

structure EwmaPolicyCircData (F : Type) where
  circ : ℕ
  cellEwma : CellEwma F

/-- The policy data of circuits, by address. -/
abbrev Memory (F : Type) := ℕ → EwmaPolicyCircData F

/-- `ewma_policy_data_t`: the addresses of the active circuits' data, in heap order. -/
structure EwmaPolicyData where
  activeCircuitPqueue : List ℕ
  activeCircuitPqueueLastRecalibrated : ℕ

variable {F : Type} (fl : EwmaArith F)

/-- Write a `cell_ewma_t`. -/
def setCellEwma (mem : Memory F) (p : ℕ) (ewma : CellEwma F) : Memory F :=
  update mem p { mem p with cellEwma := ewma }

/-- The queue, with the indices that the circuits' data hold. -/
def queueOf (pol : EwmaPolicyData) (mem : Memory F) : IndexedHeap ℕ where
  items := pol.activeCircuitPqueue
  idx p := (mem p).cellEwma.heapIndex

/-- The indices that a queue operation has written. -/
def writeIdx (h : IndexedHeap ℕ) (mem : Memory F) : Memory F := fun p =>
  { mem p with cellEwma := { (mem p).cellEwma with heapIndex := h.idx p } }

/-- `compare_cell_ewma_counts(e1, e2) < 0` -/
def compareCellEwmaCounts (mem : Memory F) (e1 e2 : ℕ) : Bool :=
  fl.lt (mem e1).cellEwma.cellCount (mem e2).cellEwma.cellCount

def scaleSingleCellEwma (mem : Memory F) (p curTick : ℕ) : Memory F :=
  let ewma := (mem p).cellEwma
  setCellEwma mem p { ewma with
    cellCount := fl.scale ewma.cellCount ewma.lastAdjustedTick curTick
    lastAdjustedTick := curTick }

def addCellEwma (pol : EwmaPolicyData) (mem : Memory F) (p : ℕ) :
    Option (EwmaPolicyData × Memory F) :=
  if (mem p).cellEwma.heapIndex ≠ -1 then none
  else
    let mem := scaleSingleCellEwma fl mem p pol.activeCircuitPqueueLastRecalibrated
    let h := (queueOf pol mem).add (compareCellEwmaCounts fl mem) p
    some ({ pol with activeCircuitPqueue := h.items }, writeIdx h mem)

def removeCellEwma (pol : EwmaPolicyData) (mem : Memory F) (p : ℕ) :
    Option (EwmaPolicyData × Memory F) :=
  if (mem p).cellEwma.heapIndex = -1 then none
  else ((queueOf pol mem).remove (compareCellEwmaCounts fl mem) p).map fun h =>
    ({ pol with activeCircuitPqueue := h.items }, writeIdx h mem)

def popFirstCellEwma (pol : EwmaPolicyData) (mem : Memory F) :
    Option (ℕ × EwmaPolicyData × Memory F) :=
  ((queueOf pol mem).pop (compareCellEwmaCounts fl mem)).map fun (top, h) =>
    (top, { pol with activeCircuitPqueue := h.items }, writeIdx h mem)

/-- The loop of `scale_active_circuits`. -/
def scaleCellEwmas (lastTick curTick : ℕ) : List ℕ → Memory F → Option (Memory F)
  | [], mem => some mem
  | p :: ps, mem =>
    let ewma := (mem p).cellEwma
    if ewma.lastAdjustedTick ≠ lastTick then none
    else scaleCellEwmas lastTick curTick ps (setCellEwma mem p { ewma with
      cellCount := fl.scale ewma.cellCount lastTick curTick, lastAdjustedTick := curTick })

def scaleActiveCircuits (pol : EwmaPolicyData) (mem : Memory F) (curTick : ℕ) :
    Option (EwmaPolicyData × Memory F) :=
  (scaleCellEwmas fl pol.activeCircuitPqueueLastRecalibrated curTick pol.activeCircuitPqueue
    mem).map fun mem => ({ pol with activeCircuitPqueueLastRecalibrated := curTick }, mem)

def ewmaNotifyXmitCells (pol : EwmaPolicyData) (mem : Memory F) (p nCells tick : ℕ)
    (fractionalTick : F) : Option (EwmaPolicyData × Memory F) := do
  let (pol, mem) ← (if tick ≠ pol.activeCircuitPqueueLastRecalibrated then
    scaleActiveCircuits fl pol mem tick else some (pol, mem))
  let ewma := (mem p).cellEwma
  let mem := setCellEwma mem p { ewma with
    cellCount := fl.increment ewma.cellCount nCells fractionalTick }
  let (tmp, pol, mem) ← popFirstCellEwma fl pol mem
  if tmp ≠ p then none else addCellEwma fl pol mem p

def ewmaPickActiveCircuit (pol : EwmaPolicyData) (mem : Memory F) : Option ℕ :=
  pol.activeCircuitPqueue.head?.map fun p => (mem p).circ

def ewmaAllocCmuxData (tick : ℕ) : EwmaPolicyData where
  activeCircuitPqueue := []
  activeCircuitPqueueLastRecalibrated := tick

def ewmaAllocCircData (circ tick : ℕ) (isForPChan : Bool) : EwmaPolicyCircData F where
  circ := circ
  cellEwma := ⟨tick, fl.zero, -1, isForPChan⟩

/-! ## What the operations do -/

/-- The queue knows its positions, and its counts are scaled to one tick. -/
structure EwmaOk (pol : EwmaPolicyData) (mem : Memory F) : Prop where
  positions : (queueOf pol mem).Consistent
  ticks : ∀ p ∈ pol.activeCircuitPqueue,
    (mem p).cellEwma.lastAdjustedTick = pol.activeCircuitPqueueLastRecalibrated

variable {fl} {pol : EwmaPolicyData} {mem mem' : Memory F} {p : ℕ}

lemma queueOf_writeIdx (h : IndexedHeap ℕ) (pol : EwmaPolicyData) (mem : Memory F) :
    queueOf { pol with activeCircuitPqueue := h.items } (writeIdx h mem) = h := rfl

variable {ewma : CellEwma F}

lemma heapIndex_setCellEwma (h : ewma.heapIndex = (mem p).cellEwma.heapIndex)
    (q : ℕ) : (setCellEwma mem p ewma q).cellEwma.heapIndex = (mem q).cellEwma.heapIndex := by
  by_cases hq : q = p
  · rw [hq, setCellEwma, update_self]
    exact h
  · rw [setCellEwma, update_of_ne hq]

lemma circ_setCellEwma (ewma : CellEwma F) (q : ℕ) :
    (setCellEwma mem p ewma q).circ = (mem q).circ := by
  by_cases hq : q = p
  · rw [hq, setCellEwma, update_self]
  · rw [setCellEwma, update_of_ne hq]

lemma queueOf_setCellEwma (h : ewma.heapIndex = (mem p).cellEwma.heapIndex) :
    queueOf pol (setCellEwma mem p ewma) = queueOf pol mem := by
  rw [queueOf, queueOf]
  congr 1
  exact funext fun q => heapIndex_setCellEwma h q

lemma tick_setCellEwma {q : ℕ} {tick : ℕ}
    (hp : q = p → ewma.lastAdjustedTick = tick)
    (hq : q ≠ p → (mem q).cellEwma.lastAdjustedTick = tick) :
    (setCellEwma mem p ewma q).cellEwma.lastAdjustedTick = tick := by
  by_cases h : q = p
  · rw [h, setCellEwma, update_self]
    exact hp h
  · rw [setCellEwma, update_of_ne h]
    exact hq h

lemma EwmaOk.heapIndex_notMem (h : EwmaOk pol mem) (hp : p ∉ pol.activeCircuitPqueue) :
    (mem p).cellEwma.heapIndex = -1 := h.positions.idx_out p hp

lemma EwmaOk.heapIndex_mem (h : EwmaOk pol mem) (hp : p ∈ pol.activeCircuitPqueue) :
    (mem p).cellEwma.heapIndex ≠ -1 := by
  obtain ⟨i, hi⟩ := mem_iff_getElem?.mp hp
  have hidx : (mem p).cellEwma.heapIndex = i := h.positions.idx_eq i p hi (Set.notMem_empty i)
  omega

variable (fl) in
/-- **An active circuit** is added. -/
lemma addCellEwma_spec (h : EwmaOk pol mem) (hp : p ∉ pol.activeCircuitPqueue) :
    ∃ pol' mem', addCellEwma fl pol mem p = some (pol', mem') ∧ EwmaOk pol' mem'
      ∧ pol'.activeCircuitPqueue.Perm (p :: pol.activeCircuitPqueue)
      ∧ ∀ q, (mem' q).circ = (mem q).circ := by
  have hqueue : queueOf pol (scaleSingleCellEwma fl mem p pol.activeCircuitPqueueLastRecalibrated)
      = queueOf pol mem := queueOf_setCellEwma rfl
  obtain ⟨hadd, hperm⟩ := h.positions.add
    (compareCellEwmaCounts fl
      (scaleSingleCellEwma fl mem p pol.activeCircuitPqueueLastRecalibrated)) hp
  refine ⟨_, _, if_neg (not_not.mpr (h.heapIndex_notMem hp)), ⟨?_, ?_⟩, ?_, ?_⟩
  · rw [hqueue, queueOf_writeIdx]
    exact hadd
  · intro q hq
    rw [hqueue] at hq
    refine tick_setCellEwma (fun _ => rfl) fun hne => ?_
    rcases mem_cons.mp (hperm.mem_iff.mp hq) with heq | hmem
    · exact absurd heq hne
    · exact h.ticks q hmem
  · rw [hqueue]
    exact hperm
  · exact fun q => circ_setCellEwma _ q

variable (fl) in
/-- **A circuit that is active no more** is removed. -/
lemma removeCellEwma_spec (h : EwmaOk pol mem) (hp : p ∈ pol.activeCircuitPqueue) :
    ∃ pol' mem', removeCellEwma fl pol mem p = some (pol', mem') ∧ EwmaOk pol' mem'
      ∧ (p :: pol'.activeCircuitPqueue).Perm pol.activeCircuitPqueue
      ∧ ∀ q, (mem' q).circ = (mem q).circ := by
  obtain ⟨q, hq, hc, hperm⟩ := h.positions.remove (compareCellEwmaCounts fl mem) hp
  refine ⟨{ pol with activeCircuitPqueue := q.items }, writeIdx q mem, ?_, ⟨hc, fun r hr => ?_⟩,
    hperm, fun _ => rfl⟩
  · rw [removeCellEwma, if_neg (h.heapIndex_mem hp), hq]
    rfl
  · exact h.ticks r (hperm.mem_iff.mp (mem_cons_of_mem p hr))

variable (fl) in
lemma popFirstCellEwma_spec {rest : List ℕ} (h : EwmaOk pol mem)
    (hqueue : pol.activeCircuitPqueue = p :: rest) :
    ∃ pol' mem', popFirstCellEwma fl pol mem = some (p, pol', mem') ∧ EwmaOk pol' mem'
      ∧ pol'.activeCircuitPqueue.Perm rest ∧ ∀ q, (mem' q).circ = (mem q).circ := by
  obtain ⟨q, hq, hc, hperm⟩ := h.positions.pop (compareCellEwmaCounts fl mem) hqueue
  refine ⟨{ pol with activeCircuitPqueue := q.items }, writeIdx q mem, ?_, ⟨hc, fun r hr => ?_⟩,
    hperm, fun _ => rfl⟩
  · rw [popFirstCellEwma, hq]
    rfl
  · refine h.ticks r ?_
    rw [hqueue]
    exact mem_cons_of_mem p (hperm.mem_iff.mp hr)

variable (fl) in
lemma scaleCellEwmas_spec {lastTick : ℕ} (curTick : ℕ) {ps : List ℕ} (hnodup : ps.Nodup)
    (hticks : ∀ q ∈ ps, (mem q).cellEwma.lastAdjustedTick = lastTick) :
    ∃ mem', scaleCellEwmas fl lastTick curTick ps mem = some mem'
      ∧ (∀ q ∈ ps, (mem' q).cellEwma.lastAdjustedTick = curTick)
      ∧ (∀ q, (mem' q).cellEwma.heapIndex = (mem q).cellEwma.heapIndex)
      ∧ (∀ q ∉ ps, mem' q = mem q) ∧ ∀ q, (mem' q).circ = (mem q).circ := by
  induction ps generalizing mem with
  | nil => exact ⟨mem, rfl, by simp, fun _ => rfl, fun _ _ => rfl, fun _ => rfl⟩
  | cons p ps ih =>
    obtain ⟨hp, hps⟩ := nodup_cons.mp hnodup
    have hset : (setCellEwma mem p { (mem p).cellEwma with
        cellCount := fl.scale (mem p).cellEwma.cellCount lastTick curTick
        lastAdjustedTick := curTick } p).cellEwma.lastAdjustedTick = curTick := by
      rw [setCellEwma, update_self]
    obtain ⟨mem', hscale, hticks', hidx, hsame, hcirc⟩ := @ih
      (setCellEwma mem p { (mem p).cellEwma with
        cellCount := fl.scale (mem p).cellEwma.cellCount lastTick curTick
        lastAdjustedTick := curTick }) hps fun q hq =>
          tick_setCellEwma (fun heq => absurd (heq ▸ hq) hp)
            fun _ => hticks q (mem_cons_of_mem p hq)
    refine ⟨mem', ?_, fun q hq => ?_, fun q => ?_, fun q hq => ?_, fun q => ?_⟩
    · rw [scaleCellEwmas, if_neg (not_not.mpr (hticks p mem_cons_self))]
      exact hscale
    · rcases mem_cons.mp hq with rfl | hq
      · rw [hsame q hp]
        exact hset
      · exact hticks' q hq
    · rw [hidx q]
      exact heapIndex_setCellEwma (by rfl) q
    · rw [hsame q fun hmem => hq (mem_cons_of_mem p hmem)]
      refine update_of_ne ?_ _ _
      rintro rfl
      exact hq mem_cons_self
    · rw [hcirc q]
      exact circ_setCellEwma _ q

lemma scaleActiveCircuits_spec (h : EwmaOk pol mem) (curTick : ℕ) :
    ∃ pol' mem', scaleActiveCircuits fl pol mem curTick = some (pol', mem') ∧ EwmaOk pol' mem'
      ∧ pol'.activeCircuitPqueue = pol.activeCircuitPqueue
      ∧ ∀ q, (mem' q).circ = (mem q).circ := by
  obtain ⟨mem', hscale, hticks, hidx, -, hcirc⟩ := scaleCellEwmas_spec fl
    curTick h.positions.nodup h.ticks
  refine ⟨{ pol with activeCircuitPqueueLastRecalibrated := curTick }, mem', ?_, ⟨?_, hticks⟩, rfl,
    hcirc⟩
  · exact Option.map_eq_some_iff.mpr ⟨mem', hscale, rfl⟩
  · have hqueue : queueOf { pol with activeCircuitPqueueLastRecalibrated := curTick } mem'
        = queueOf pol mem := by
      rw [queueOf, queueOf]
      congr 1
      exact funext hidx
    rw [hqueue]
    exact h.positions

variable (fl) in
/-- **The first circuit has sent**: it is popped, and added again. -/
lemma ewmaNotifyXmitCells_spec {rest : List ℕ} (h : EwmaOk pol mem)
    (hqueue : pol.activeCircuitPqueue = p :: rest) (nCells tick : ℕ) (fractionalTick : F) :
    ∃ pol' mem', ewmaNotifyXmitCells fl pol mem p nCells tick fractionalTick = some (pol', mem')
      ∧ EwmaOk pol' mem' ∧ pol'.activeCircuitPqueue.Perm pol.activeCircuitPqueue
      ∧ ∀ q, (mem' q).circ = (mem q).circ := by
  obtain ⟨pol₁, mem₁, hscale, hok₁, hqueue₁, hcirc₁⟩ : ∃ pol₁ mem₁,
      (if tick ≠ pol.activeCircuitPqueueLastRecalibrated then scaleActiveCircuits fl pol mem tick
        else some (pol, mem)) = some (pol₁, mem₁) ∧ EwmaOk pol₁ mem₁
      ∧ pol₁.activeCircuitPqueue = pol.activeCircuitPqueue
      ∧ ∀ q, (mem₁ q).circ = (mem q).circ := by
    split
    · exact scaleActiveCircuits_spec h tick
    · exact ⟨pol, mem, rfl, h, rfl, fun _ => rfl⟩
  rw [hqueue] at hqueue₁
  have hok₂ : EwmaOk pol₁ (setCellEwma mem₁ p { (mem₁ p).cellEwma with
      cellCount := fl.increment (mem₁ p).cellEwma.cellCount nCells fractionalTick }) := by
    refine ⟨?_, fun q hq => tick_setCellEwma (fun heq => ?_) fun _ => hok₁.ticks q hq⟩
    · rw [queueOf_setCellEwma (by rfl)]
      exact hok₁.positions
    · exact heq ▸ hok₁.ticks q hq
  obtain ⟨pol₃, mem₃, hpop, hok₃, hperm₃, hcirc₃⟩ := popFirstCellEwma_spec fl hok₂ hqueue₁
  have hnot : p ∉ pol₃.activeCircuitPqueue := by
    have hnodup := hok₁.positions.nodup
    rw [queueOf, hqueue₁] at hnodup
    exact fun hmem => (nodup_cons.mp hnodup).1 (hperm₃.mem_iff.mp hmem)
  obtain ⟨pol₄, mem₄, hadd, hok₄, hperm₄, hcirc₄⟩ := addCellEwma_spec fl hok₃ hnot
  refine ⟨pol₄, mem₄, ?_, hok₄, ?_, fun q => ?_⟩
  · rw [ewmaNotifyXmitCells, hscale]
    simp only [Option.bind_eq_bind, Option.bind_some, hpop, ne_eq, not_true_eq_false, if_false]
    exact hadd
  · rw [hqueue]
    exact hperm₄.trans (List.Perm.cons p hperm₃)
  · rw [hcirc₄ q, hcirc₃ q, circ_setCellEwma, hcirc₁ q]

end Ator.Circuitmux
