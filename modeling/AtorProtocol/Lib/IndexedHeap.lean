import AtorProtocol.Lib.Heap
import Mathlib.Data.Set.Insert

/-!
# Binary heaps whose items know their position

The queues of `Lib/Heap`, when each item has a field for its index: every move writes the indices
of the items that it moves, and an item that is taken out gets index -1.  Nothing is asked of the
comparison.

* `Consistent` — the index of an item is its position, and -1 outside of the queue.
* `Consistent.add`, `Consistent.pop`, `Consistent.remove` — the operations keep it, and move
  nothing else in or out.
-/

namespace Ator

open List Function

/-- The items, and the index field of every item there is. -/
structure IndexedHeap (α : Type*) where
  items : List α
  idx : α → ℤ

namespace IndexedHeap

variable {α : Type*} [DecidableEq α] {h : IndexedHeap α} {lt : α → α → Bool} {item : α} {i j : ℕ}

/-! ## Operations -/

/-- Write the index of the item at `i`. -/
def updateIdx (h : IndexedHeap α) (i : ℕ) : IndexedHeap α :=
  match h.items[i]? with
  | some p => { h with idx := update h.idx p i }
  | none => h

/-- Exchange two items, and write their indices. -/
def exchange (h : IndexedHeap α) (i j : ℕ) : IndexedHeap α :=
  updateIdx (updateIdx { h with items := swap h.items i j } i) j

/-- `compare(list[i], list[j]) < 0` -/
def before (lt : α → α → Bool) (l : List α) (i j : ℕ) : Bool :=
  match l[i]?, l[j]? with
  | some a, some b => lt a b
  | _, _ => false

lemma items_updateIdx (h : IndexedHeap α) (i : ℕ) : (h.updateIdx i).items = h.items := by
  rw [updateIdx]
  split <;> rfl

lemma items_exchange (h : IndexedHeap α) (i j : ℕ) :
    (h.exchange i j).items = swap h.items i j := by
  rw [exchange, items_updateIdx, items_updateIdx]

/-- The loop of `smartlist_pqueue_add`. -/
def siftUp (lt : α → α → Bool) (h : IndexedHeap α) (i : ℕ) : IndexedHeap α :=
  if 0 < i ∧ before lt h.items i (parent i) then
    siftUp lt (h.exchange i (parent i)) (parent i)
  else
    h
termination_by i
decreasing_by exact parent_lt (by tauto)

/-- `smartlist_pqueue_add` -/
def add (lt : α → α → Bool) (h : IndexedHeap α) (item : α) : IndexedHeap α :=
  siftUp lt (updateIdx { h with items := h.items ++ [item] } h.items.length) h.items.length

/-- Which of `i` and its children `smartlist_heapify` takes for the first. -/
def bestOf (lt : α → α → Bool) (l : List α) (i : ℕ) : ℕ :=
  let left := 2 * i + 1
  let best := if before lt l i left then i else left
  if left + 1 < l.length ∧ before lt l (left + 1) best then left + 1 else best

omit [DecidableEq α] in
lemma bestOf_cases (lt : α → α → Bool) (l : List α) (i : ℕ) :
    bestOf lt l i = i ∨ bestOf lt l i = 2 * i + 1
      ∨ bestOf lt l i = 2 * i + 2 ∧ 2 * i + 2 < l.length := by
  simp only [bestOf]
  split_ifs <;> tauto

omit [DecidableEq α] in
lemma bestOf_lt {l : List α} (hlen : 2 * i + 1 < l.length) : bestOf lt l i < l.length := by
  rcases bestOf_cases lt l i with hb | hb | hb <;> omega

/-- `smartlist_heapify` -/
def heapify (lt : α → α → Bool) (h : IndexedHeap α) (i : ℕ) : IndexedHeap α :=
  if _h : 2 * i + 1 < h.items.length ∧ bestOf lt h.items i ≠ i then
    heapify lt (h.exchange i (bestOf lt h.items i)) (bestOf lt h.items i)
  else
    h
termination_by h.items.length - i
decreasing_by
  have hlt : bestOf lt h.items i < h.items.length := bestOf_lt _h.1
  rw [items_exchange, length_swap]
  rcases bestOf_cases lt h.items i with hb | hb | hb
  · exact absurd hb _h.2
  · omega
  · omega

/-- `smartlist_pqueue_pop`; `none` is the assertion that the queue is not empty. -/
def pop (lt : α → α → Bool) (h : IndexedHeap α) : Option (α × IndexedHeap α) :=
  match h.items with
  | [] => none
  | [top] => some (top, ⟨[], update h.idx top (-1)⟩)
  | top :: x :: rest =>
    let items := (x :: rest).getLast (cons_ne_nil x rest) :: (x :: rest).dropLast
    some (top, heapify lt (updateIdx ⟨items, update h.idx top (-1)⟩ 0) 0)

/-- `smartlist_pqueue_remove`; `none` is an assertion: the item is at its index. -/
def remove (lt : α → α → Bool) (h : IndexedHeap α) (item : α) : Option (IndexedHeap α) :=
  let i := h.idx item
  if i < 0 then none
  else if h.items[i.toNat]? ≠ some item then none
  else match h.items.getLast? with
  | none => none
  | some last =>
    let idx := update h.idx item (-1)
    if i = h.items.length - 1 then some ⟨h.items.dropLast, idx⟩
    else some (heapify lt (updateIdx ⟨h.items.dropLast.set i.toNat last, idx⟩ i.toNat) i.toNat)

/-! ## Positions -/

/-- The indices are the positions, but for those of the items in some places, which are yet to be
written. -/
structure ConsistentBut (h : IndexedHeap α) (places : Set ℕ) : Prop where
  nodup : h.items.Nodup
  idx_eq : ∀ (i : ℕ) p, h.items[i]? = some p → i ∉ places → h.idx p = i
  idx_out : ∀ p, p ∉ h.items → h.idx p = -1

/-- **The indices are the positions**, and -1 outside of the queue. -/
def Consistent (h : IndexedHeap α) : Prop := ConsistentBut h ∅

lemma ConsistentBut.updateIdx {places : Set ℕ} (hc : ConsistentBut h places)
    (hi : i < h.items.length) : ConsistentBut (h.updateIdx i) (places \ {i}) := by
  have hp : h.items[i]? = some h.items[i] := getElem?_eq_getElem hi
  simp only [IndexedHeap.updateIdx, hp]
  refine ⟨hc.nodup, fun j p hj hplaces => ?_, fun p hout => ?_⟩
  · by_cases hji : j = i
    · subst hji
      obtain rfl : h.items[j] = p := Option.some.inj (hp.symm.trans hj)
      exact update_self _ _ _
    · have hne : p ≠ h.items[i] := by
        rintro rfl
        exact hji ((getElem?_inj hi hc.nodup).mp (hp.trans hj.symm)).symm
      refine (update_of_ne hne _ _).trans ?_
      exact hc.idx_eq j p hj fun hmem => hplaces ⟨hmem, hji⟩
  · have hne : p ≠ h.items[i] := by
      rintro rfl
      exact hout (getElem_mem hi)
    exact (update_of_ne hne _ _).trans (hc.idx_out p hout)

omit [DecidableEq α] in
lemma ConsistentBut.consistent {places : Set ℕ} (hc : ConsistentBut h places)
    (hplaces : ∀ i, i ∉ places) : Consistent h :=
  ⟨hc.nodup, fun i p hi _ => hc.idx_eq i p hi (hplaces i), hc.idx_out⟩

omit [DecidableEq α] in
lemma getElem?_swap {l : List α} (hi : i < l.length) (hj : j < l.length) {k : ℕ} (hki : k ≠ i)
    (hkj : k ≠ j) : (swap l i j)[k]? = l[k]? := by
  rw [swap, getElem?_eq_getElem hi, getElem?_eq_getElem hj]
  rw [getElem?_set_ne hkj.symm, getElem?_set_ne hki.symm]

lemma Consistent.exchange (hc : Consistent h) (hi : i < h.items.length) (hj : j < h.items.length) :
    Consistent (h.exchange i j) := by
  have hperm := swap_perm h.items i j
  have hbut : ConsistentBut { h with items := swap h.items i j } {i, j} := by
    refine ⟨hperm.nodup_iff.mpr hc.nodup, fun k p hk hplaces => ?_, fun p hout => ?_⟩
    · simp only [Set.mem_insert_iff, Set.mem_singleton_iff, not_or] at hplaces
      rw [getElem?_swap hi hj hplaces.1 hplaces.2] at hk
      exact hc.idx_eq k p hk (Set.notMem_empty k)
    · exact hc.idx_out p fun hmem => hout (hperm.mem_iff.mpr hmem)
  have hone := hbut.updateIdx (i := i) (by simpa using hi)
  have htwo := hone.updateIdx (i := j) (by rw [items_updateIdx]; simpa using hj)
  refine htwo.consistent ?_
  rintro k ⟨⟨hmem | hmem, hki⟩, hkj⟩
  · exact hki hmem
  · exact hkj hmem

lemma exchange_perm (h : IndexedHeap α) (i j : ℕ) : (h.exchange i j).items.Perm h.items := by
  rw [items_exchange]
  exact swap_perm h.items i j

/-! ## The operations keep the positions -/

variable (lt) in
lemma Consistent.siftUp (hc : Consistent h) (hi : i < h.items.length) :
    Consistent (siftUp lt h i) ∧ (siftUp lt h i).items.Perm h.items := by
  induction h, i using siftUp.induct lt with
  | case1 h i hup ih =>
    have hp := parent_lt hup.1
    have hnext := ih (hc.exchange hi (hp.trans hi)) (by
      rw [items_exchange, length_swap]
      exact hp.trans hi)
    rw [IndexedHeap.siftUp, if_pos hup]
    exact ⟨hnext.1, hnext.2.trans (exchange_perm h _ _)⟩
  | case2 h i hup =>
    rw [IndexedHeap.siftUp, if_neg hup]
    exact ⟨hc, List.Perm.refl _⟩

variable (lt) in
lemma Consistent.heapify (hc : Consistent h) (i : ℕ) :
    Consistent (heapify lt h i) ∧ (heapify lt h i).items.Perm h.items := by
  induction h, i using heapify.induct lt with
  | case1 h i hdown ih =>
    have hnext := ih (hc.exchange (by omega) (bestOf_lt hdown.1))
    rw [IndexedHeap.heapify, dif_pos hdown]
    exact ⟨hnext.1, hnext.2.trans (exchange_perm h _ _)⟩
  | case2 h i hdown =>
    rw [IndexedHeap.heapify, dif_neg hdown]
    exact ⟨hc, List.Perm.refl _⟩

variable (lt) in
/-- **A new item** is in the queue, with its index. -/
theorem Consistent.add (hc : Consistent h) (hitem : item ∉ h.items) :
    Consistent (h.add lt item) ∧ (h.add lt item).items.Perm (item :: h.items) := by
  have hbut : ConsistentBut { h with items := h.items ++ [item] } {h.items.length} := by
    refine ⟨?_, fun i p hi hplaces => ?_, fun p hout => ?_⟩
    · exact (perm_append_singleton item h.items).nodup_iff.mpr
        (nodup_cons.mpr ⟨hitem, hc.nodup⟩)
    · have hlt : i < h.items.length := by
        have hle := (List.getElem?_eq_some_iff.mp hi).1
        simp only [length_append, length_singleton] at hle
        exact lt_of_le_of_ne (by omega) hplaces
      rw [getElem?_append_left hlt] at hi
      exact hc.idx_eq i p hi (Set.notMem_empty i)
    · exact hc.idx_out p fun hmem => hout (mem_append_left _ hmem)
  have hc' : Consistent (IndexedHeap.updateIdx { h with items := h.items ++ [item] }
      h.items.length) :=
    (hbut.updateIdx (i := h.items.length) (by simp)).consistent fun _ hmem => hmem.2 hmem.1
  have hup := hc'.siftUp lt (i := h.items.length) (by rw [items_updateIdx]; simp)
  refine ⟨hup.1, hup.2.trans ?_⟩
  rw [items_updateIdx]
  exact perm_append_singleton item h.items

variable {d : List α}

omit [DecidableEq α] in
lemma perm_set_last {last : α} (hi : d[i]? = some item) :
    (item :: d.set i last).Perm (d ++ [last]) := by
  have hlt := (List.getElem?_eq_some_iff.mp hi).1
  have hswap : swap (d ++ [last]) i d.length = d.set i last ++ [item] := by
    rw [swap, getElem?_append_left hlt, hi, getElem?_concat_length]
    simp only
    rw [set_append_left _ _ hlt, set_append_right _ _ (by simp)]
    simp
  calc List.Perm (item :: d.set i last) (d.set i last ++ [item]) :=
        (perm_append_singleton item _).symm
    List.Perm _ (d ++ [last]) := hswap ▸ swap_perm (d ++ [last]) i d.length

/-- The last item takes the place of the one that is taken out. -/
lemma Consistent.replace (hc : Consistent h) {last : α}
    (hitems : h.items = d ++ [last]) (hi : d[i]? = some item) :
    Consistent (IndexedHeap.updateIdx ⟨d.set i last, update h.idx item (-1)⟩ i)
      ∧ (item :: d.set i last).Perm h.items := by
  have hperm : (item :: d.set i last).Perm h.items := hitems ▸ perm_set_last hi
  have hnodup := nodup_cons.mp (hperm.nodup_iff.mpr hc.nodup)
  have hlt := (List.getElem?_eq_some_iff.mp hi).1
  have hbut : ConsistentBut ⟨d.set i last, update h.idx item (-1)⟩ {i} := by
    refine ⟨hnodup.2, fun j p hj hplaces => ?_, fun p hout => ?_⟩
    · have hne : p ≠ item := by
        rintro rfl
        exact hnodup.1 (mem_of_getElem? hj)
      have hold : h.items[j]? = some p := by
        rw [getElem?_set_ne (Ne.symm hplaces)] at hj
        rw [hitems, getElem?_append_left (List.getElem?_eq_some_iff.mp hj).1, hj]
      exact (update_of_ne hne _ _).trans (hc.idx_eq j p hold (Set.notMem_empty j))
    · by_cases hp : p = item
      · rw [hp]
        exact update_self _ _ _
      · refine (update_of_ne hp _ _).trans (hc.idx_out p fun hmem => hout ?_)
        rcases mem_cons.mp (hperm.mem_iff.mpr hmem) with heq | hmem
        · exact absurd heq hp
        · exact hmem
  exact ⟨(hbut.updateIdx (i := i) (by simpa using hlt)).consistent fun _ hmem => hmem.2 hmem.1,
    hperm⟩

/-- The last item is taken out. -/
lemma Consistent.dropLast (hc : Consistent h) (hitems : h.items = d ++ [item]) :
    Consistent ⟨d, update h.idx item (-1)⟩ := by
  have hnodup := hc.nodup
  rw [hitems, (perm_append_singleton item d).nodup_iff, nodup_cons] at hnodup
  refine ⟨hnodup.2, fun i p hi _ => ?_, fun p hout => ?_⟩
  · have hne : p ≠ item := by
      rintro rfl
      exact hnodup.1 (mem_of_getElem? hi)
    refine (update_of_ne hne _ _).trans (hc.idx_eq i p ?_ (Set.notMem_empty i))
    rw [hitems, getElem?_append_left (List.getElem?_eq_some_iff.mp hi).1, hi]
  · by_cases hp : p = item
    · rw [hp]
      exact update_self _ _ _
    · refine (update_of_ne hp _ _).trans (hc.idx_out p fun hmem => ?_)
      rw [hitems, mem_append, mem_singleton] at hmem
      exact hmem.elim hout hp

variable (lt) in
/-- **The first item** is popped, and the others stay. -/
theorem Consistent.pop (hc : Consistent h) {top : α} {rest : List α} (hitems : h.items = top :: rest) :
    ∃ h', h.pop lt = some (top, h') ∧ Consistent h' ∧ h'.items.Perm rest := by
  cases rest with
  | nil =>
    refine ⟨⟨[], update h.idx top (-1)⟩, ?_, hc.dropLast hitems, List.Perm.refl _⟩
    rw [IndexedHeap.pop, hitems]
  | cons x rest =>
    have hlast := dropLast_append_getLast (l := x :: rest) (by simp)
    obtain ⟨hc', hperm⟩ := hc.replace (i := 0) (d := top :: (x :: rest).dropLast)
      (by rw [cons_append, hlast, hitems]) (getElem?_cons_zero (a := top))
    obtain ⟨hdown, hdown'⟩ := hc'.heapify lt 0
    refine ⟨_, ?_, hdown, hdown'.trans ?_⟩
    · rw [IndexedHeap.pop, hitems]
      rfl
    · rw [items_updateIdx]
      exact Perm.cons_inv (hperm.trans (Perm.of_eq hitems))

omit [DecidableEq α] in
lemma exists_items_eq (hitem : item ∈ h.items) : ∃ d last, h.items = d ++ [last] := by
  rcases eq_nil_or_concat h.items with hnil | ⟨d, last, hd⟩
  · rw [hnil] at hitem
    cases hitem
  · exact ⟨d, last, hd.trans concat_eq_append⟩

variable (lt) in
lemma Consistent.remove_eq (hc : Consistent h) {last : α}
    (hitems : h.items = d ++ [last]) (hi : h.items[i]? = some item) :
    h.remove lt item = if i = d.length then some ⟨d, update h.idx item (-1)⟩
        else some (IndexedHeap.heapify lt
          (updateIdx ⟨d.set i last, update h.idx item (-1)⟩ i) i) := by
  have hidx := hc.idx_eq i item hi (Set.notMem_empty i)
  have hget : h.items.getLast? = some last := by
    rw [hitems, getLast?_concat]
  have hdrop : h.items.dropLast = d := by
    rw [hitems, dropLast_concat]
  have hlen : h.items.length = d.length + 1 := by
    rw [hitems, length_append, length_singleton]
  simp only [IndexedHeap.remove, hidx, Int.toNat_natCast, hi, hget, hdrop, hlen]
  rw [if_neg (by omega), if_neg (by simp)]
  by_cases hend : i = d.length
  · rw [if_pos (by omega), if_pos hend]
  · rw [if_neg (by omega), if_neg hend]

variable (lt) in
/-- **An item** is taken out by its index, and the others stay. -/
theorem Consistent.remove (hc : Consistent h) (hitem : item ∈ h.items) :
    ∃ h', h.remove lt item = some h' ∧ Consistent h' ∧ (item :: h'.items).Perm h.items := by
  obtain ⟨i, hi⟩ := mem_iff_getElem?.mp hitem
  obtain ⟨d, last, hitems⟩ := exists_items_eq hitem
  rw [hc.remove_eq lt hitems hi]
  by_cases hend : i = d.length
  · rw [if_pos hend]
    rw [hitems, hend, getElem?_concat_length] at hi
    obtain rfl := Option.some.inj hi
    exact ⟨_, rfl, hc.dropLast hitems, hitems ▸ (perm_append_singleton _ d).symm⟩
  · rw [if_neg hend]
    have hlt : i < d.length := by
      have hle := (List.getElem?_eq_some_iff.mp hi).1
      rw [hitems, length_append, length_singleton] at hle
      omega
    rw [hitems, getElem?_append_left hlt] at hi
    obtain ⟨hc', hperm⟩ := hc.replace hitems hi
    obtain ⟨hdown, hdown'⟩ := hc'.heapify lt i
    refine ⟨_, rfl, hdown, List.Perm.trans (List.Perm.cons item ?_) hperm⟩
    rw [items_updateIdx] at hdown'
    exact hdown'

end IndexedHeap

end Ator
