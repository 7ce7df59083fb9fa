import Mathlib.Data.List.Nodup
import Mathlib.Data.Int.Basic

/-!
# Lists whose elements know their places

An element of the list has a field that says where in the list it is, so that it is taken out
without a search: the last element moves to the gap, and its field is set.

* `swapDel` — removal with the last element in the gap.
* `reindex`, `fixIndices` — the field of the element that has moved, and all fields set anew.
* `Indexed` — every field is right.  `Indexed.add`, `Indexed.del` and `Indexed.set` are what the
  operations keep.
-/

namespace Ator

open List Function Option

variable {α : Type*} {l : List α} {i j : ℕ} {a b : α} {index index' : α → ℤ}

/-- The last element is moved to the place `i`. -/
def swapDel (l : List α) (i : ℕ) : List α :=
  match l.getLast? with
  | none => []
  | some last => (l.set i last).dropLast

/-- The field of the element that is now at the place `i`, if there is one. -/
def reindex [DecidableEq α] (index : α → ℤ) (l : List α) (i : ℕ) : α → ℤ :=
  match l[i]? with
  | none => index
  | some a => update index a i

/-- Every field is set anew. -/
def fixIndices [DecidableEq α] (index : α → ℤ) (l : List α) : α → ℤ :=
  l.zipIdx.foldl (fun index p => update index p.1 p.2) index

/-- The field of each element is its place. -/
def Indexed (index : α → ℤ) (l : List α) : Prop := ∀ (i : ℕ) a, l[i]? = some a → index a = i

lemma getElem?_swapDel (hi : i < l.length) : (swapDel l i)[j]? =
    if j + 1 < l.length then if j = i then l[l.length - 1]? else l[j]? else none := by
  have hlast := getElem?_eq_getElem (l := l) (i := l.length - 1) (by omega)
  have hdel : swapDel l i = (l.set i l[l.length - 1]).dropLast := by
    rw [swapDel, getLast?_eq_getElem?, hlast]
  rw [hdel, getElem?_dropLast, length_set, hlast]
  by_cases hj : j + 1 < l.length
  · rw [if_pos hj, if_pos (by omega), getElem?_set]
    by_cases hij : i = j
    · subst hij
      rw [if_pos rfl, if_pos hi, if_pos rfl]
    · rw [if_neg hij, if_neg (Ne.symm hij)]
  · rw [if_neg hj, if_neg (by omega)]

namespace Indexed

/-- Fields that agree on the list. -/
lemma congr (h : Indexed index l) (heq : ∀ a ∈ l, index' a = index a) : Indexed index' l := by
  intro i a ha
  rw [heq a (mem_of_getElem? ha)]
  exact h i a ha

lemma nodup (h : Indexed index l) : l.Nodup := by
  rw [nodup_iff_getElem?_ne_getElem?]
  intro i j hij hj heq
  have hget := getElem?_eq_getElem hj
  have hi := h i l[j] (by rw [heq, hget])
  have hj := h j l[j] hget
  omega

/-- The place that an element knows. -/
lemma getElem?_index (h : Indexed index l) (ha : a ∈ l) :
    ∃ i : ℕ, index a = i ∧ i < l.length ∧ l[i]? = some a := by
  obtain ⟨i, hi, rfl⟩ := getElem_of_mem ha
  have hget := getElem?_eq_getElem hi
  exact ⟨i, h i l[i] hget, hi, hget⟩

variable [DecidableEq α]

/-- A new element, that goes last. -/
lemma add (h : Indexed index l) (ha : a ∉ l) :
    Indexed (update index a l.length) (l ++ [a]) := by
  intro i b hb
  rw [getElem?_append] at hb
  split at hb
  · have hne : b ≠ a := by
      rintro rfl
      exact ha (mem_of_getElem? hb)
    rw [update_of_ne hne]
    exact h i b hb
  · next hi =>
      obtain ⟨hzero, rfl⟩ : i - l.length = 0 ∧ a = b := by
        simpa [getElem?_singleton] using hb
      rw [update_self]
      omega

omit [DecidableEq α] in
/-- What is left of the list. -/
lemma mem_swapDel (h : Indexed index l) (ha : l[i]? = some a) :
    b ∈ swapDel l i ↔ b ∈ l ∧ b ≠ a := by
  have hi : i < l.length := (List.getElem?_eq_some_iff.mp ha).1
  constructor
  · intro hb
    obtain ⟨j, hj⟩ := mem_iff_getElem?.mp hb
    rw [getElem?_swapDel hi] at hj
    split at hj
    · next hlt =>
        have hother : ∃ k, k ≠ i ∧ l[k]? = some b := by
          split at hj
          · next heq => exact ⟨l.length - 1, by omega, hj⟩
          · next hne => exact ⟨j, hne, hj⟩
        obtain ⟨k, hk, hget⟩ := hother
        refine ⟨mem_of_getElem? hget, ?_⟩
        rintro rfl
        have hindex := h k b hget
        rw [h i b ha] at hindex
        omega
    · cases hj
  · rintro ⟨hb, hne⟩
    obtain ⟨k, -, hk, hget⟩ := h.getElem?_index hb
    have hki : k ≠ i := by
      rintro rfl
      rw [ha] at hget
      exact hne (some.inj hget).symm
    by_cases hlast : k + 1 < l.length
    · refine mem_of_getElem? (i := k) ?_
      rw [getElem?_swapDel hi, if_pos hlast, if_neg hki, hget]
    · refine mem_of_getElem? (i := i) ?_
      have hlen : l.length - 1 = k := by omega
      rw [getElem?_swapDel hi, if_pos (by omega), if_pos rfl, hlen, hget]

/-- The elements that are left know their places. -/
lemma reindex_swapDel (h : Indexed index l) (hi : i < l.length) :
    Indexed (reindex index (swapDel l i) i) (swapDel l i) := by
  intro j b hb
  have hj := hb
  rw [getElem?_swapDel hi] at hj
  split at hj
  · next hlt =>
      rw [reindex]
      by_cases hji : j = i
      · subst hji
        rw [hb]
        simp only [update_self]
      · rw [if_neg hji] at hj
        rcases hmoved : (swapDel l i)[i]? with _ | c
        · exact h j b hj
        · have hne : b ≠ c := by
            rintro rfl
            rw [getElem?_swapDel hi, if_pos rfl] at hmoved
            split at hmoved
            · have h₁ := h j b hj
              have h₂ := h _ b hmoved
              omega
            · cases hmoved
          simp only [update_of_ne hne]
          exact h j b hj
  · cases hj

/-- Only the fields of elements of the list are changed. -/
lemma reindex_of_notMem (ha : a ∉ l) : reindex index l i a = index a := by
  rw [reindex]
  rcases hb : l[i]? with _ | b
  · rfl
  · refine update_of_ne ?_ _ _
    rintro rfl
    exact ha (mem_of_getElem? hb)

lemma reindex_del_of_notMem (h : Indexed index l) (ha : l[i]? = some a) (hb : b ∉ l) (x : ℤ) :
    reindex (update index a x) (swapDel l i) i b = index b := by
  have hne : b ≠ a := (ne_of_mem_of_not_mem (mem_of_getElem? ha) hb).symm
  have hnotMem : b ∉ swapDel l i := fun hmem => hb ((h.mem_swapDel ha).mp hmem).1
  exact (reindex_of_notMem hnotMem).trans (update_of_ne hne _ _)

lemma reindex_update_of_ne {x : ℤ} (hne : b ≠ a) :
    reindex (update index a x) l i b = reindex index l i b := by
  rw [reindex, reindex]
  rcases l[i]? with _ | c
  · exact update_of_ne hne _ _
  · simp only [update_apply, if_neg hne]

/-- An element that is taken out, and has its own field changed before. -/
lemma del (h : Indexed index l) (ha : l[i]? = some a) (x : ℤ) :
    Indexed (reindex (update index a x) (swapDel l i) i) (swapDel l i) := by
  refine (h.reindex_swapDel (List.getElem?_eq_some_iff.mp ha).1).congr fun b hb => ?_
  exact reindex_update_of_ne ((h.mem_swapDel ha).mp hb).2

/-- A new element in the place of another. -/
lemma set (h : Indexed index l) (hb : b ∉ l) (hi : i < l.length) :
    Indexed (update index b i) (l.set i b) := by
  intro j c hc
  rw [getElem?_set] at hc
  split at hc
  · next hij =>
      subst hij
      rw [← some.inj hc, update_self]
  · have hne : c ≠ b := by
      rintro rfl
      exact hb (mem_of_getElem? hc)
    rw [update_of_ne hne]
    exact h j c hc

omit [DecidableEq α] in
lemma mem_set (h : Indexed index l) (ha : l[i]? = some a) {c : α} :
    c ∈ l.set i b ↔ c = b ∨ c ∈ l ∧ c ≠ a := by
  have hi : i < l.length := (List.getElem?_eq_some_iff.mp ha).1
  constructor
  · intro hc
    obtain ⟨j, hj⟩ := mem_iff_getElem?.mp hc
    rw [getElem?_set] at hj
    split at hj
    · exact Or.inl (some.inj hj).symm
    · next hij =>
        refine Or.inr ⟨mem_of_getElem? hj, ?_⟩
        rintro rfl
        have h₁ := h i c ha
        have h₂ := h j c hj
        omega
  · rintro (rfl | ⟨hc, hne⟩)
    · exact mem_of_getElem? (i := i) (by rw [getElem?_set, if_pos rfl, if_pos hi])
    · obtain ⟨k, -, -, hget⟩ := h.getElem?_index hc
      have hki : i ≠ k := by
        rintro rfl
        rw [ha] at hget
        exact hne (some.inj hget).symm
      exact mem_of_getElem? (i := k) (by rw [getElem?_set, if_neg hki, hget])

/-! ### All fields -/

lemma foldl_zipIdx_of_notMem (ha : a ∉ l) (n : ℕ) :
    (l.zipIdx n).foldl (fun index p => update index p.1 p.2) index a = index a := by
  induction l generalizing index n with
  | nil => rfl
  | cons b l ih =>
    obtain ⟨hne, hl⟩ := not_or.mp (mt mem_cons.mpr ha)
    rw [zipIdx_cons, foldl_cons, ih hl, update_of_ne hne]

lemma foldl_zipIdx (hl : l.Nodup) (n : ℕ) (ha : l[i]? = some a) :
    (l.zipIdx n).foldl (fun index p => update index p.1 p.2) index a = (n + i : ℕ) := by
  induction l generalizing index n i with
  | nil => simp at ha
  | cons b l ih =>
    obtain ⟨hb, hl⟩ := nodup_cons.mp hl
    rw [zipIdx_cons, foldl_cons]
    cases i with
    | zero =>
      obtain rfl : b = a := by simpa using ha
      rw [foldl_zipIdx_of_notMem hb, update_self, Nat.add_zero]
    | succ i =>
      rw [ih hl (n + 1) (by simpa using ha)]
      congr 1
      omega

lemma fixIndices_of_notMem (ha : a ∉ l) : fixIndices index l a = index a :=
  foldl_zipIdx_of_notMem ha 0

/-- After all fields have been set. -/
lemma fix (hl : l.Nodup) : Indexed (fixIndices index l) l := by
  intro i a ha
  rw [fixIndices, foldl_zipIdx hl 0 ha, Nat.zero_add]

end Indexed

end Ator
