import AtorProtocol.Conflux.Link
import AtorProtocol.Lib.Run

/-!
# The memory of the out-of-order queues

`src/core/or/conflux.c` and `conflux_free_` in `src/core/or/conflux_pool.c`.  The OOM handler
reads one counter for the cells that wait in the queues of all conflux sets.

* `Allocation.step` — a set is made, receives a cell, gives one out, or is freed.
* `allocation_iff` — the counter agrees with the queues all along a run exactly when no set is
  freed with cells in its queue.
* `allocation_fails` — a set freed with one cell in its queue.
-/

namespace Ator.Conflux

variable {σ ι α : Type*} [DecidableEq σ] [DecidableEq ι]

/-- `sizeof(cell_t)`: the circuit id, the command, the length, the payload and what aligns them. -/
def sizeofCell : ℕ := 516

/-- The live sets, by their addresses, and `total_ooo_q_bytes`. -/
structure Allocation (σ ι α : Type*) where
  sets : AssocMap σ (Cfx ι α)
  totalOooQBytes : ℕ

/-- What can happen.  `update` is whatever else the program does to a set: it links and closes
legs, sends, and receives a SWITCH, none of which touches the queue. -/
inductive AllocationEvent (σ ι α : Type*) where
  | confluxNew (p : σ)
  | update (p : σ) (legs : AssocMap ι ConfluxLeg) (lastSeqDelivered : ℕ)
      (currLeg prevLeg : Option ι) (inFullTeardown : Bool)
  | processCell (p : σ) (inCirc : ι) (sourceHop : Bool) (cell : α)
  | dequeueCell (p : σ)
  | free (p : σ)

/-- A set with the same queue. -/
def Cfx.update (cfx : Cfx ι α) (legs : AssocMap ι ConfluxLeg) (lastSeqDelivered : ℕ)
    (currLeg prevLeg : Option ι) (inFullTeardown : Bool) : Cfx ι α :=
  { oooQ := cfx.oooQ, legs, lastSeqDelivered, currLeg, prevLeg, inFullTeardown }

/-- The bytes of the cells in a queue. -/
def Cfx.oooQBytes (cfx : Cfx ι α) : ℕ := cfx.oooQ.items.length * sizeofCell

namespace Allocation

/-- When the program starts. -/
def init : Allocation σ ι α := ⟨∅, 0⟩

/-- The bytes of the cells in the queues of the live sets. -/
def oooQBytes (s : Allocation σ ι α) : ℕ := s.sets.total Cfx.oooQBytes

/-- `conflux_process_cell`.  Where the cells no longer fit in memory `tor_malloc_zero` ends the
program. -/
def processCell (s : Allocation σ ι α) (p : σ) (cfx : Cfx ι α) (inCirc : ι) (sourceHop : Bool)
    (cell : α) : Option (Allocation σ ι α) :=
  let processed := confluxProcessCell cfx inCirc sourceHop cell
  if processed.inOrder ∨ processed.close then some { s with sets := s.sets.set p processed.cfx }
  else if s.oooQBytes + sizeofCell < 2 ^ 64 then
    some ⟨s.sets.set p processed.cfx, addU64 s.totalOooQBytes sizeofCell⟩
  else none

/-- `conflux_dequeue_cell` -/
def dequeueCell (s : Allocation σ ι α) (p : σ) (cfx : Cfx ι α) : Allocation σ ι α :=
  match confluxDequeueCell cfx with
  | none => s
  | some (_, cfx) => ⟨s.sets.set p cfx, subU64 s.totalOooQBytes sizeofCell⟩

/-- `conflux_free_` -/
def free (s : Allocation σ ι α) (p : σ) : Allocation σ ι α := { s with sets := s.sets.erase p }

/-- One call.  A set that is not there is not called. -/
def step (s : Allocation σ ι α) : AllocationEvent σ ι α → Option (Allocation σ ι α)
  | .confluxNew p =>
    match s.sets.get p with
    | none => some { s with sets := s.sets.set p Cfx.new }
    | some _ => none
  | .update p legs lastSeqDelivered currLeg prevLeg inFullTeardown =>
    (s.sets.get p).map fun cfx =>
      let cfx := cfx.update legs lastSeqDelivered currLeg prevLeg inFullTeardown
      { s with sets := s.sets.set p cfx }
  | .processCell p inCirc sourceHop cell =>
    (s.sets.get p).bind fun cfx => s.processCell p cfx inCirc sourceHop cell
  | .dequeueCell p => (s.sets.get p).map fun cfx => s.dequeueCell p cfx
  | .free p => (s.sets.get p).map fun _ => s.free p

end Allocation

/-! ## The queue of one set -/

lemma oooQ_confluxProcessCell (cfx : Cfx ι α) (inCirc : ι) (sourceHop : Bool) (cell : α) :
    let processed := confluxProcessCell cfx inCirc sourceHop cell
    if processed.inOrder ∨ processed.close then processed.cfx.oooQ = cfx.oooQ
    else ∃ c, processed.cfx.oooQ = cfx.oooQ.add c := by
  simp only [confluxProcessCell]
  split
  · simp
  · split
    · simp
    · split
      · simp [Cfx.modifyLeg]
      · split
        · simp [Cfx.modifyLeg]
        · simp only [Bool.false_eq_true, or_self, if_false]
          exact ⟨_, rfl⟩

omit [DecidableEq ι] in
lemma oooQBytes_confluxDequeueCell {cfx cfx' : Cfx ι α} {cell : α}
    (h : confluxDequeueCell cfx = some (cell, cfx')) :
    cfx.oooQBytes = cfx'.oooQBytes + sizeofCell := by
  obtain ⟨top, oooQ, hpop, -, -, rfl⟩ := confluxDequeueCell_eq_some h
  rw [Cfx.oooQBytes, (PQueue.pop?_eq_some hpop).1.length_eq, List.length_cons, Nat.succ_mul]
  rfl

/-! ## The counter -/

namespace Allocation

/-- The counter is the sum over the live sets, so 0 where there is none. -/
def Accounted (s : Allocation σ ι α) : Prop :=
  s.totalOooQBytes = s.oooQBytes ∧ (s.sets.size = 0 → s.totalOooQBytes = 0)

/-- The counter covers the cell that is taken off a queue. -/
def NoUnderflow (s : Allocation σ ι α) (e : AllocationEvent σ ι α) : Prop :=
  ∀ p cfx, e = .dequeueCell p → s.sets.get p = some cfx →
    (confluxDequeueCell cfx).isSome → sizeofCell ≤ s.totalOooQBytes

/-- A set that is freed has nothing in its queue. -/
def FreesEmptyQueue (s : Allocation σ ι α) (e : AllocationEvent σ ι α) : Prop :=
  ∀ p cfx, e = .free p → s.sets.get p = some cfx → cfx.oooQ.items = []

/-- What a run keeps. -/
structure Inv (s : Allocation σ ι α) : Prop where
  total : s.totalOooQBytes = s.oooQBytes
  lt : s.oooQBytes < 2 ^ 64

omit [DecidableEq σ] [DecidableEq ι] in
lemma Inv.accounted {s : Allocation σ ι α} (h : s.Inv) : s.Accounted := by
  refine ⟨h.total, fun hsize => ?_⟩
  rw [h.total, oooQBytes, AssocMap.eq_empty_of_size hsize, AssocMap.total_empty]

omit [DecidableEq σ] [DecidableEq ι] in
lemma inv_init : (init : Allocation σ ι α).Inv :=
  ⟨rfl, by rw [init, oooQBytes, AssocMap.total_empty]; omega⟩

variable {s t : Allocation σ ι α} {p : σ} {cfx cfx' : Cfx ι α}

omit [DecidableEq ι] in
lemma Inv.replace (h : s.Inv) (hget : s.sets.get p = some cfx) {n : ℕ}
    (hn : n + cfx.oooQBytes = s.totalOooQBytes + cfx'.oooQBytes) (hlt : n < 2 ^ 64) :
    Inv ⟨s.sets.set p cfx', n⟩ := by
  have htotal := AssocMap.total_set (f := Cfx.oooQBytes) hget (w := cfx')
  have heq : n = oooQBytes ⟨s.sets.set p cfx', n⟩ := by
    rw [h.total] at hn
    simp only [oooQBytes] at hn ⊢
    omega
  exact ⟨heq, heq ▸ hlt⟩

omit [DecidableEq ι] in
lemma Inv.replace_of_oooQ (h : s.Inv) (hget : s.sets.get p = some cfx)
    (hq : cfx'.oooQ = cfx.oooQ) : Inv { s with sets := s.sets.set p cfx' } := by
  refine h.replace hget ?_ (h.total ▸ h.lt)
  rw [Cfx.oooQBytes, Cfx.oooQBytes, hq]

omit [DecidableEq ι] in
lemma Inv.confluxNew (h : s.Inv) (hget : s.sets.get p = none) :
    Inv { s with sets := s.sets.set p Cfx.new } := by
  have htotal := AssocMap.total_set_new (f := Cfx.oooQBytes) hget (w := (Cfx.new : Cfx ι α))
  have hnew : (Cfx.new : Cfx ι α).oooQBytes = 0 := by simp [Cfx.oooQBytes, Cfx.new, PQueue.empty]
  have heq : oooQBytes { s with sets := s.sets.set p Cfx.new } = s.oooQBytes := by
    simp only [oooQBytes]
    omega
  exact ⟨h.total.trans heq.symm, heq ▸ h.lt⟩

lemma Inv.processCell (h : s.Inv) (hget : s.sets.get p = some cfx) {inCirc : ι}
    {sourceHop : Bool} {cell : α} (ht : s.processCell p cfx inCirc sourceHop cell = some t) :
    t.Inv := by
  have hqueue := oooQ_confluxProcessCell cfx inCirc sourceHop cell
  simp only [Allocation.processCell] at ht
  split at ht
  · next hkept =>
      rw [if_pos hkept] at hqueue
      obtain rfl := Option.some.inj ht
      exact h.replace_of_oooQ hget hqueue
  · next hadded =>
      rw [if_neg hadded] at hqueue
      obtain ⟨c, hc⟩ := hqueue
      split at ht
      · next hfits =>
          obtain rfl := Option.some.inj ht
          rw [← h.total] at hfits
          rw [addU64_of_lt hfits]
          refine h.replace hget ?_ hfits
          rw [Cfx.oooQBytes, Cfx.oooQBytes, hc, PQueue.items_add_perm.length_eq, List.length_cons,
            Nat.succ_mul]
          omega
      · cases ht

omit [DecidableEq ι] in
lemma Inv.sizeofCell_le (h : s.Inv) (hget : s.sets.get p = some cfx) {cell : α}
    (hdequeue : confluxDequeueCell cfx = some (cell, cfx')) : sizeofCell ≤ s.totalOooQBytes := by
  have hle := AssocMap.le_total (f := Cfx.oooQBytes) hget
  have hbytes := oooQBytes_confluxDequeueCell hdequeue
  rw [h.total, oooQBytes]
  omega

omit [DecidableEq ι] in
lemma Inv.dequeueCell (h : s.Inv) (hget : s.sets.get p = some cfx) :
    (s.dequeueCell p cfx).Inv := by
  rw [Allocation.dequeueCell]
  split
  · exact h
  · next cell cfx' hdequeue =>
      have hle := h.sizeofCell_le hget hdequeue
      have hbytes := oooQBytes_confluxDequeueCell hdequeue
      have hlt : s.totalOooQBytes < 2 ^ 64 := h.total ▸ h.lt
      rw [subU64_of_le hle hlt]
      refine h.replace hget ?_ ?_
      · omega
      · omega

omit [DecidableEq ι] in
lemma Inv.accounted_free_iff (h : s.Inv) (hget : s.sets.get p = some cfx) :
    (s.free p).Accounted ↔ cfx.oooQ.items = [] := by
  have htotal := AssocMap.total_erase (f := Cfx.oooQBytes) hget
  have hcounter : (s.free p).totalOooQBytes = (s.free p).oooQBytes + cfx.oooQBytes := by
    change s.totalOooQBytes = _
    rw [h.total, oooQBytes, ← htotal]
    rfl
  constructor
  · rintro ⟨heq, -⟩
    have hzero : cfx.oooQ.items.length * sizeofCell = 0 := by
      rw [Cfx.oooQBytes] at hcounter
      omega
    rw [sizeofCell] at hzero
    exact List.length_eq_zero_iff.mp (by omega)
  · intro hempty
    have hzero : cfx.oooQBytes = 0 := by rw [Cfx.oooQBytes, hempty, List.length_nil, Nat.zero_mul]
    rw [hzero, Nat.add_zero] at hcounter
    refine ⟨hcounter, fun hsize => ?_⟩
    rw [hcounter, oooQBytes, AssocMap.eq_empty_of_size hsize, AssocMap.total_empty]

omit [DecidableEq ι] in
lemma Inv.free (h : s.Inv) (hget : s.sets.get p = some cfx) (hempty : cfx.oooQ.items = []) :
    (s.free p).Inv := by
  have htotal := AssocMap.total_erase (f := Cfx.oooQBytes) hget
  refine ⟨((h.accounted_free_iff hget).mpr hempty).1, lt_of_le_of_lt ?_ h.lt⟩
  change (s.sets.erase p).total _ ≤ s.sets.total _
  omega

lemma Inv.step (s : Allocation σ ι α) (e : AllocationEvent σ ι α) (t : Allocation σ ι α)
    (h : s.Inv) (hfree : s.FreesEmptyQueue e) (ht : s.step e = some t) : t.Inv := by
  cases e with
  | confluxNew p =>
    simp only [Allocation.step] at ht
    split at ht
    · next hget =>
        obtain rfl := Option.some.inj ht
        exact h.confluxNew hget
    · cases ht
  | update p legs lastSeqDelivered currLeg prevLeg inFullTeardown =>
    simp only [Allocation.step, Option.map_eq_some_iff] at ht
    obtain ⟨cfx, hget, rfl⟩ := ht
    exact h.replace_of_oooQ hget rfl
  | processCell p inCirc sourceHop cell =>
    simp only [Allocation.step, Option.bind_eq_some_iff] at ht
    obtain ⟨cfx, hget, hprocess⟩ := ht
    exact h.processCell hget hprocess
  | dequeueCell p =>
    simp only [Allocation.step, Option.map_eq_some_iff] at ht
    obtain ⟨cfx, hget, rfl⟩ := ht
    exact h.dequeueCell hget
  | free p =>
    simp only [Allocation.step, Option.map_eq_some_iff] at ht
    obtain ⟨cfx, hget, rfl⟩ := ht
    exact h.free hget (hfree p cfx rfl hget)

omit [DecidableEq ι] in
lemma Inv.noUnderflow (h : s.Inv) (e : AllocationEvent σ ι α) : s.NoUnderflow e := by
  intro p cfx _ hget hsome
  obtain ⟨⟨cell, cfx'⟩, hdequeue⟩ := Option.isSome_iff_exists.mp hsome
  exact h.sizeofCell_le hget hdequeue

/-- **The counter of queued bytes**: it is the sum over the live sets, and never goes below zero,
all along a run exactly when no set is freed with cells in its queue. -/
theorem allocation_iff (es : List (AllocationEvent σ ι α)) :
    (∀ pre, pre <+: es → ∀ s : Allocation σ ι α, Reaches step init pre s → s.Accounted)
        ∧ Meets step NoUnderflow (init : Allocation σ ι α) es
      ↔ Meets step FreesEmptyQueue (init : Allocation σ ι α) es := by
  refine forall_reached_and_meets_iff (I := Inv) (fun s h => h.accounted) (fun s e h => ?_)
    Inv.step inv_init
  constructor
  · rintro ⟨hall, -⟩ p cfx rfl hget
    refine (h.accounted_free_iff hget).mp (hall _ ?_)
    rw [Allocation.step, hget, Option.map_some]
  · intro hfree
    exact ⟨fun t ht => (Inv.step s e t h hfree ht).accounted, h.noUnderflow e⟩

/-- The second leg is one cell ahead when its next cell comes, and the set is freed with that cell
in its queue. -/
theorem allocation_fails : ∃ s : Allocation ℕ ℕ ℕ,
    Reaches step init
        [.confluxNew 0,
          .update 0 (((∅ : AssocMap ℕ ConfluxLeg).set 1 ⟨0, 0⟩).set 2 ⟨1, 0⟩) 0 none none false,
          .processCell 0 2 true 7, .free 0] s
      ∧ s.sets.size = 0 ∧ s.totalOooQBytes = sizeofCell ∧ ¬ s.Accounted := by
  refine ⟨⟨∅, sizeofCell⟩, rfl, rfl, rfl, ?_⟩
  rintro ⟨-, hzero⟩
  exact absurd (hzero rfl) (by decide)

end Allocation

end Ator.Conflux
