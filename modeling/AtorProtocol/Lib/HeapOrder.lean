import AtorProtocol.Lib.IndexedHeap
import Mathlib.Order.Antisymmetrization

/-!
# The order of an indexed heap

The queues of `Lib/IndexedHeap` under a strict weak order: such an order compares keys of a linear
order, so that what is known of the heaps of `Lib/Heap` holds of them.

* `HeapOrdered` — no item comes before its parent.
* `HeapOrdered.add`, `HeapOrdered.pop` — the order is kept, and the item popped is a least one.
* `HeapOrdered.remove_iff` — after a removal the list is in order exactly when its last item does
  not come before the parent of the item that is taken out.
-/

namespace Ator

open List

universe u

variable {α : Type u} {β : Type*} {lt : α → α → Bool} {l : List α} {i j : ℕ}

/-- A strict weak order compares keys of a linear order. -/
lemma exists_key (lt : α → α → Bool) [IsStrictWeakOrder α fun a b => lt a b = true] :
    ∃ (β : Type u) (_ : LinearOrder β) (key : α → β), ∀ a b, lt a b = true ↔ key a < key b := by
  classical
  have hirrefl : ∀ a, ¬lt a a = true := irrefl_of fun a b => lt a b = true
  have htrans : ∀ {a b c}, lt a b = true → lt b c = true → lt a c = true :=
    fun hab hbc => trans_of (fun a b => lt a b = true) hab hbc
  have hincomp := @IsStrictWeakOrder.incomp_trans _ (fun a b => lt a b = true) _
  have hnot : ∀ {a b c}, ¬lt b a = true → ¬lt c b = true → ¬lt c a = true := by
    intro a b c hba hcb hca
    by_cases hab : lt a b = true
    · exact hcb (htrans hca hab)
    · by_cases hbc : lt b c = true
      · exact hba (htrans hbc hca)
      · exact (hincomp a b c ⟨hab, hba⟩ ⟨hbc, hcb⟩).2 hca
  let order : Preorder α :=
    { le := fun a b => ¬lt b a = true
      lt := fun a b => lt a b = true
      le_refl := hirrefl
      le_trans := fun a b c => hnot
      lt_iff_le_not_ge := fun a b =>
        ⟨fun hab => ⟨fun hba => hirrefl a (htrans hab hba), not_not.mpr hab⟩,
          fun hab => not_not.mp hab.2⟩ }
  have htotal : Std.Total fun a b : α => a ≤ b :=
    ⟨fun a b => not_or_of_imp fun hba hab => hirrefl a (htrans hab hba)⟩
  exact ⟨Antisymmetrization α (· ≤ ·), inferInstance, toAntisymmetrization _, fun a b => Iff.rfl⟩

namespace IndexedHeap

/-- **Heap order**: no item comes before its parent. -/
def HeapOrdered (lt : α → α → Bool) (l : List α) : Prop :=
  ∀ i, 0 < i → before lt l i (parent i) = false

/-! ## Comparing keys -/

section Keys

variable [LinearOrder β] {key : α → β}

lemma before_eq (hk : ∀ a b, lt a b = true ↔ key a < key b) (l : List α) (i j : ℕ) :
    before lt l i j = Ator.before key l i j := by
  have hkey : ∀ a b, lt a b = decide (key a < key b) := fun a b =>
    Bool.eq_iff_iff.mpr ((hk a b).trans decide_eq_true_iff.symm)
  rw [before, Ator.before]
  cases l[i]? with
  | none => rfl
  | some a =>
    cases l[j]? with
    | none => rfl
    | some b => exact hkey a b

lemma heapOrdered_iff (hk : ∀ a b, lt a b = true ↔ key a < key b) :
    HeapOrdered lt l ↔ Ordered key l := by
  refine forall_congr' fun i => forall_congr' fun hi => ?_
  rw [before_eq hk]
  by_cases hlt : i < l.length
  · rw [← Bool.not_eq_true, before_iff ((parent_lt hi).trans hlt), not_lt]
  · rw [rank_of_le (i := i) (not_lt.mp hlt), Ator.before, getElem?_eq_none (not_lt.mp hlt)]
    simp

variable [DecidableEq α] {h : IndexedHeap α} {item : α}

lemma items_siftUp (hk : ∀ a b, lt a b = true ↔ key a < key b) (h : IndexedHeap α) (i : ℕ) :
    (siftUp lt h i).items = Ator.siftUp key h.items i := by
  induction h, i using siftUp.induct lt with
  | case1 h i hup ih =>
    rw [siftUp, if_pos hup, ih, items_exchange]
    rw [before_eq hk] at hup
    exact ((Ator.siftUp.eq_def key h.items i).trans (if_pos hup)).symm
  | case2 h i hup =>
    rw [siftUp, if_neg hup]
    rw [before_eq hk] at hup
    rw [Ator.siftUp, if_neg hup]

lemma items_add (hk : ∀ a b, lt a b = true ↔ key a < key b) (h : IndexedHeap α) (item : α) :
    (h.add lt item).items = pqueueAdd key h.items item := by
  rw [add, items_siftUp hk, items_updateIdx, pqueueAdd]

omit [DecidableEq α] in
lemma bestOf_eq (hk : ∀ a b, lt a b = true ↔ key a < key b) (l : List α) (i : ℕ) :
    bestOf lt l i = Ator.bestOf key l i := by
  simp only [bestOf, Ator.bestOf, before_eq hk]

lemma items_heapify (hk : ∀ a b, lt a b = true ↔ key a < key b) (h : IndexedHeap α) (i : ℕ) :
    (heapify lt h i).items = Ator.heapify key h.items i := by
  induction h, i using heapify.induct lt with
  | case1 h i hdown ih =>
    rw [heapify, dif_pos hdown, ih, items_exchange]
    rw [bestOf_eq hk] at hdown ⊢
    exact ((Ator.heapify.eq_def key h.items i).trans (dif_pos hdown)).symm
  | case2 h i hdown =>
    rw [heapify, dif_neg hdown]
    rw [bestOf_eq hk] at hdown
    rw [Ator.heapify, dif_neg hdown]

lemma items_pop (hk : ∀ a b, lt a b = true ↔ key a < key b) (h : IndexedHeap α) :
    (h.pop lt).map (fun p => (p.1, p.2.items)) = pqueuePop key h.items := by
  rw [pop]
  split
  · next hitems => rw [hitems, pqueuePop, Option.map_none]
  · next top hitems => rw [hitems, pqueuePop, Option.map_some]
  · next top x rest hitems =>
      simp only [hitems, pqueuePop, Option.map_some, items_heapify hk, items_updateIdx]

end Keys

/-! ## What the operations do to the order -/

variable [DecidableEq α] [IsStrictWeakOrder α fun a b => lt a b = true] {h h' : IndexedHeap α}
  {item top : α}

/-- **The queue stays in heap order** when an item is added. -/
theorem HeapOrdered.add (hord : HeapOrdered lt h.items) (item : α) :
    HeapOrdered lt (h.add lt item).items := by
  obtain ⟨β, _, key, hk⟩ := exists_key lt
  rw [heapOrdered_iff hk, items_add hk]
  exact pqueueAdd_ordered ((heapOrdered_iff hk).mp hord) item

variable (lt) in
lemma add_perm (h : IndexedHeap α) (item : α) : (h.add lt item).items.Perm (item :: h.items) := by
  obtain ⟨β, _, key, hk⟩ := exists_key lt
  rw [items_add hk]
  exact pqueueAdd_perm h.items item

/-- **The queue stays in heap order** when its first item is popped, and that is a least one. -/
theorem HeapOrdered.pop (hord : HeapOrdered lt h.items) (hpop : h.pop lt = some (top, h')) :
    HeapOrdered lt h'.items ∧ ∀ a ∈ h.items, lt a top = false := by
  obtain ⟨β, _, key, hk⟩ := exists_key lt
  have hord' := (heapOrdered_iff hk).mp hord
  have hpop' : pqueuePop key h.items = some (top, h'.items) := by
    rw [← items_pop hk, hpop, Option.map_some]
  refine ⟨(heapOrdered_iff hk).mpr (pqueuePop_ordered hord' hpop'), fun a ha => ?_⟩
  rw [← Bool.not_eq_true, hk]
  exact not_lt.mpr (pqueuePop_le hord' hpop' a ha)

omit [DecidableEq α] in
/-- No item comes before the first one. -/
lemma HeapOrdered.before_zero (hord : HeapOrdered lt l) (i : ℕ) : before lt l i 0 = false := by
  obtain ⟨β, _, key, hk⟩ := exists_key lt
  rw [before_eq hk, ← Bool.not_eq_true]
  cases l with
  | nil => simp [Ator.before]
  | cons a l =>
    rw [before_iff (by simp)]
    exact not_lt.mpr (((heapOrdered_iff hk).mp hord).rank_zero_le i)

omit [DecidableEq α] in
lemma HeapOrdered.before_parent (hord : HeapOrdered lt l) (i : ℕ) :
    before lt l i (parent i) = false := by
  rcases Nat.eq_zero_or_pos i with rfl | hi
  · exact hord.before_zero 0
  · exact hord i hi

omit [DecidableEq α] [IsStrictWeakOrder α fun a b => lt a b = true] in
lemma HeapOrdered.of_concat {d : List α} {last : α} (hord : HeapOrdered lt (d ++ [last])) :
    HeapOrdered lt d := by
  intro i hi
  have hold := hord i hi
  by_cases hlt : i < d.length
  · rwa [before, getElem?_append_left hlt,
      getElem?_append_left ((parent_lt hi).trans hlt), ← before] at hold
  · rw [before, getElem?_eq_none (not_lt.mp hlt)]

/-- **After a removal** the queue is in heap order exactly when its last item does not come before
the parent of the item that was taken out. -/
theorem HeapOrdered.remove_iff (hc : Consistent h) (hord : HeapOrdered lt h.items)
    (hi : h.items[i]? = some item) (hremove : h.remove lt item = some h') :
    HeapOrdered lt h'.items ↔ before lt h.items (h.items.length - 1) (parent i) = false := by
  obtain ⟨β, _, key, hk⟩ := exists_key lt
  obtain ⟨d, last, hitems⟩ := exists_items_eq (mem_of_getElem? hi)
  have hlen : h.items.length = d.length + 1 := by
    rw [hitems, length_append, length_singleton]
  have hile := (List.getElem?_eq_some_iff.mp hi).1
  rw [hc.remove_eq lt hitems hi] at hremove
  rw [hlen, Nat.add_sub_cancel]
  by_cases hend : i = d.length
  · rw [if_pos hend] at hremove
    obtain rfl := Option.some.inj hremove
    exact iff_of_true (hitems ▸ hord).of_concat (hend ▸ hord.before_parent i)
  · rw [if_neg hend] at hremove
    obtain rfl := Option.some.inj hremove
    have hid : i < d.length := by omega
    have hord' := (heapOrdered_iff hk).mp hord
    rw [hitems] at hord' ⊢
    have hplt : parent i < (d ++ [last]).length := by
      rw [parent, length_append, length_singleton]
      omega
    have hlast : rank key (d ++ [last]) d.length = key last := by
      rw [rank_of_lt (by simp), getElem_concat_length rfl]
    rw [heapOrdered_iff hk, items_heapify hk, items_updateIdx, ordered_heapify_set_iff hord' hid,
      before_eq hk, ← Bool.not_eq_true, before_iff hplt, hlast, not_lt]
    refine ⟨fun hpos => ?_, fun hle _ => hle⟩
    rcases Nat.eq_zero_or_pos i with rfl | hi0
    · exact hlast ▸ hord'.rank_zero_le d.length
    · exact hpos hi0

end IndexedHeap

end Ator
