import Mathlib.Data.List.Nodup
import Mathlib.Data.List.Perm.Subperm
import Mathlib.Order.Lattice

/-!
# Picking members around a ring

A ring is a list in ascending order of the positions of its members.

* `clockwise` — the members from a position on, and then, behind the end, those before it.
* `pick` — the first few members of a walk that were not picked before; `pickAll`, one walk after
  another.
* `length_pickAll` — how many are picked.
* **`pickAll_subset`** — who picks more on every walk has picked all that another has.
-/

namespace Ator

open List

variable {α β : Type*}

/-! ## Walks -/

section Walk

variable [LinearOrder β] (position : α → β) (key : β)

/-- The members of a ring clockwise from a key. -/
def clockwise (ring : List α) : List α :=
  ring.filter (key ≤ position ·) ++ ring.filter (position · < key)

variable {position key} {ring : List α}

/-- In a sorted ring, the walk starts at the first position that is not before the key. -/
lemma clockwise_eq_drop_append_take (h : ring.Pairwise fun a b => position a ≤ position b) :
    clockwise position key ring
      = ring.drop (ring.findIdx (key ≤ position ·)) ++ ring.take (ring.findIdx (key ≤ position ·)) := by
  have hafter : ∀ a ∈ ring.drop (ring.findIdx (key ≤ position ·)), key ≤ position a := by
    intro a ha
    obtain ⟨i, hi, rfl⟩ := mem_iff_getElem.mp ha
    rw [length_drop] at hi
    have hlt : ring.findIdx (key ≤ position ·) < ring.length := by omega
    have hfirst : key ≤ position (ring[ring.findIdx (key ≤ position ·)]) := by
      simpa using findIdx_getElem (w := hlt)
    rw [getElem_drop]
    cases i with
    | zero => exact hfirst
    | succ i => exact hfirst.trans (pairwise_iff_getElem.mp h _ _ hlt (by omega) (by omega))
  have hbefore : ∀ a ∈ ring.take (ring.findIdx (key ≤ position ·)), position a < key := by
    intro a ha
    obtain ⟨i, hi, rfl⟩ := mem_iff_getElem.mp ha
    rw [List.length_take, Nat.lt_min] at hi
    rw [getElem_take]
    simpa using not_of_lt_findIdx hi.1
  have hsplit := take_append_drop (ring.findIdx (key ≤ position ·)) ring
  have hright : ring.filter (key ≤ position ·) = ring.drop (ring.findIdx (key ≤ position ·)) := by
    conv_lhs => rw [← hsplit]
    rw [filter_append, filter_eq_nil_iff.mpr, filter_eq_self.mpr, nil_append]
    · intro a ha
      exact decide_eq_true (hafter a ha)
    · intro a ha
      simpa using hbefore a ha
  have hleft : ring.filter (position · < key) = ring.take (ring.findIdx (key ≤ position ·)) := by
    conv_lhs => rw [← hsplit]
    rw [filter_append, filter_eq_self.mpr, filter_eq_nil_iff.mpr, append_nil]
    · intro a ha
      simpa using hafter a ha
    · intro a ha
      exact decide_eq_true (hbefore a ha)
  rw [clockwise, hright, hleft]

lemma clockwise_perm (position : α → β) (key : β) (ring : List α) :
    (clockwise position key ring).Perm ring := by
  have hnot : ∀ a, decide (position a < key) = !decide (key ≤ position a) := by
    intro a
    rw [← decide_not, decide_eq_decide, not_le]
  rw [clockwise, filter_congr fun a _ => hnot a]
  exact filter_append_perm _ ring

end Walk

/-! ## Picking -/

variable [DecidableEq α] {circle : List α} {circles : List (List α)} {selected selected' : List α}
  {n m : ℕ}

/-- The first `n` members of a walk that were not selected before, behind those that were. -/
def pick (n : ℕ) (selected circle : List α) : List α :=
  selected ++ (circle.filter (· ∉ selected)).take n

/-- One walk after another. -/
def pickAll (n : ℕ) (selected : List α) (circles : List (List α)) : List α :=
  circles.foldl (pick n) selected

@[simp] lemma pickAll_nil : pickAll n selected [] = selected := rfl

@[simp] lemma pickAll_cons :
    pickAll n selected (circle :: circles) = pickAll n (pick n selected circle) circles := rfl

@[simp] lemma pick_zero (selected circle : List α) : pick 0 selected circle = selected := by
  simp [pick]

@[simp] lemma pick_nil (n : ℕ) (selected : List α) : pick n selected [] = selected := by
  simp [pick]

lemma pick_cons_of_mem {a : α} (h : a ∈ selected) :
    pick n selected (a :: circle) = pick n selected circle := by
  rw [pick, filter_cons_of_neg (by simpa using h), pick]

/-- A member that is picked will not be met again. -/
lemma pick_cons_of_notMem {a : α} (h : a ∉ selected) (hcircle : a ∉ circle) :
    pick (n + 1) selected (a :: circle) = pick n (selected ++ [a]) circle := by
  have hrest : circle.filter (· ∉ selected ++ [a]) = circle.filter (· ∉ selected) := by
    refine filter_congr fun b hb => ?_
    have hne : b ≠ a := fun heq => hcircle (heq ▸ hb)
    simp [hne]
  rw [pick, filter_cons_of_pos (by simpa using h), take_succ_cons, pick, hrest,
    append_assoc, singleton_append]

lemma nodup_pick (hselected : selected.Nodup) (hcircle : circle.Nodup) :
    (pick n selected circle).Nodup := by
  refine nodup_append.mpr ⟨hselected, (hcircle.filter _).sublist (take_sublist n _), ?_⟩
  rintro a ha b hb rfl
  have hnot := (mem_filter.mp (mem_of_mem_take hb)).2
  exact absurd ha (by simpa using hnot)

variable {ring : List α}

lemma pick_subset (hselected : selected ⊆ ring) (hcircle : circle ⊆ ring) :
    pick n selected circle ⊆ ring := by
  intro a ha
  rcases mem_append.mp ha with ha | ha
  · exact hselected ha
  · exact hcircle (mem_filter.mp (mem_of_mem_take ha)).1

/-- A walk around the whole ring adds `n` members, or all that are left. -/
lemma length_pick (hselected : selected.Nodup) (hsub : selected ⊆ ring)
    (hring : ring.Nodup) (hcircle : circle.Perm ring) :
    (pick n selected circle).length = min (selected.length + n) ring.length := by
  have hmember : (circle.filter (· ∈ selected)).Perm selected := by
    refine (perm_ext_iff_of_nodup ((hcircle.nodup_iff.mpr hring).filter _) hselected).mpr ?_
    intro a
    rw [mem_filter, decide_eq_true_eq, and_iff_right_iff_imp]
    exact fun ha => hcircle.mem_iff.mpr (hsub ha)
  have hsplit := (filter_append_perm (· ∈ selected) circle).length_eq
  rw [length_append, hmember.length_eq, hcircle.length_eq] at hsplit
  have hrest : (circle.filter (· ∉ selected)).length
      = (circle.filter fun a => !decide (a ∈ selected)).length := by
    simp only [decide_not]
  rw [pick, length_append, List.length_take, hrest]
  omega

lemma nodup_pickAll (hselected : selected.Nodup) (hcircles : ∀ circle ∈ circles, circle.Nodup) :
    (pickAll n selected circles).Nodup := by
  induction circles generalizing selected with
  | nil => exact hselected
  | cons circle circles ih =>
    exact ih (nodup_pick hselected (hcircles circle mem_cons_self))
      fun c hc => hcircles c (mem_cons_of_mem circle hc)

/-- **How many are picked** on walks around the whole ring. -/
theorem length_pickAll (hselected : selected.Nodup) (hsub : selected ⊆ ring)
    (hring : ring.Nodup) (hcircles : ∀ circle ∈ circles, circle.Perm ring) :
    (pickAll n selected circles).length
      = min (selected.length + circles.length * n) ring.length := by
  induction circles generalizing selected with
  | nil =>
    have hle := (hselected.subperm hsub).length_le
    simp [hle]
  | cons circle circles ih =>
    have hcircle := hcircles circle mem_cons_self
    rw [pickAll_cons, ih (nodup_pick hselected (hcircle.nodup_iff.mpr hring))
      (pick_subset hsub hcircle.subset) fun c hc => hcircles c (mem_cons_of_mem circle hc),
      length_pick hselected hsub hring hcircle, length_cons, Nat.add_mul, Nat.one_mul]
    omega

/-! ## Picking more -/

/-- Where one has selected more, its walk skips more, and still reaches as far. -/
lemma mem_take_filter (hsub : selected ⊆ selected') (hle : n ≤ m) {a : α}
    (ha : a ∈ (circle.filter (· ∉ selected)).take n) :
    a ∈ selected' ∨ a ∈ (circle.filter (· ∉ selected')).take m := by
  induction circle generalizing n m with
  | nil => simp at ha
  | cons b circle ih =>
    by_cases hb : b ∈ selected
    · rw [filter_cons_of_neg (by simpa using hb)] at ha
      rw [filter_cons_of_neg (by simpa using hsub hb)]
      exact ih hle ha
    · rw [filter_cons_of_pos (by simpa using hb)] at ha
      cases n with
      | zero => simp at ha
      | succ n =>
        rw [take_succ_cons] at ha
        by_cases hb' : b ∈ selected'
        · rw [filter_cons_of_neg (by simpa using hb')]
          rcases mem_cons.mp ha with rfl | ha
          · exact Or.inl hb'
          · exact ih (by omega) ha
        · rw [filter_cons_of_pos (by simpa using hb')]
          obtain ⟨m, rfl⟩ := Nat.exists_eq_succ_of_ne_zero (show m ≠ 0 by omega)
          rw [take_succ_cons]
          rcases mem_cons.mp ha with rfl | ha
          · exact Or.inr mem_cons_self
          · exact (ih (by omega) ha).imp_right (mem_cons_of_mem b)

lemma pick_mono (hsub : selected ⊆ selected') (hle : n ≤ m) (circle : List α) :
    pick n selected circle ⊆ pick m selected' circle := by
  intro a ha
  rcases mem_append.mp ha with ha | ha
  · exact mem_append_left _ (hsub ha)
  · rcases mem_take_filter hsub hle ha with h | h
    · exact mem_append_left _ h
    · exact mem_append_right _ h

/-- **Who picks more on every walk has picked all that another has.** -/
theorem pickAll_subset (hsub : selected ⊆ selected') (hle : n ≤ m) (circles : List (List α)) :
    pickAll n selected circles ⊆ pickAll m selected' circles := by
  induction circles generalizing selected selected' with
  | nil => exact hsub
  | cons circle circles ih => exact ih (pick_mono hsub hle circle)

end Ator
