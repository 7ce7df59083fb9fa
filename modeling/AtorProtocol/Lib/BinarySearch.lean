import Mathlib.Algebra.Order.Group.Int
import Mathlib.Data.List.Basic

/-!
# Binary search

A search in a sorted list by a comparator that says on which side of a member the key is: negative
before it, positive behind it, and zero on a match.

* `bsearchIdx` — the position of a match, or else of the first member behind the key.
* `InOrder`, `Ascending` — the members are in order; at most one of them matches.
* `exists_bsearchIdx` — a match is found, or the position between the members on either side; no
  member outside the list is looked at, and no assertion of the search fails.
* `bsearchIdx_eq` — it is the first position whose member is not before the key.
-/

namespace Ator

open List

variable {α : Type*} {compare : α → ℤ} {l : List α} {lo hi : ℕ}

/-- The end of a search without a match: the two assertions about the neighbours of the position. -/
def bsearchMiss (compare : α → ℤ) (l : List α) (lo hi : ℕ) : Option (ℕ × Bool) :=
  if lo = hi + 1 ∧ lo ≤ l.length ∧ hi ≤ l.length then
    if lo < l.length then
      (l[lo]?).bind fun a => if compare a < 0 then some (lo, false) else none
    else (l[l.length - 1]?).bind fun a => if compare a > 0 then some (lo, false) else none
  else none

/-- The loop of the search; `none` is a failed assertion, or a position outside the list. -/
def bsearchLoop (compare : α → ℤ) (l : List α) (lo hi : ℕ) : Option (ℕ × Bool) :=
  if lo ≤ hi then
    let mid := lo + (hi - lo) / 2
    match l[mid]? with
    | none => none
    | some a =>
      if compare a = 0 then some (mid, true)
      else if compare a > 0 then bsearchLoop compare l (mid + 1) hi
      else if mid > 0 then bsearchLoop compare l lo (mid - 1)
      else if mid = lo then some (0, false)
      else none
  else bsearchMiss compare l lo hi
termination_by hi + 1 - lo
decreasing_by all_goals omega

/-- The position of a match, and whether there is one. -/
def bsearchIdx (compare : α → ℤ) (l : List α) : Option (ℕ × Bool) :=
  if l.length = 0 then some (0, false) else bsearchLoop compare l 0 (l.length - 1)

/-- Behind a member that the key is not behind, or is before, there are only such. -/
def InOrder (compare : α → ℤ) (l : List α) : Prop :=
  l.Pairwise fun a b => (compare a ≤ 0 → compare b ≤ 0) ∧ (compare a < 0 → compare b < 0)

/-- The members come in order: behind one that the key is not behind, the key is before them. -/
def Ascending (compare : α → ℤ) (l : List α) : Prop :=
  l.Pairwise fun a b => compare a ≤ 0 → compare b < 0

lemma Ascending.inOrder (h : Ascending compare l) : InOrder compare l :=
  h.imp fun hab => ⟨fun ha => (hab ha).le, fun ha => hab ha.le⟩

/-! ## What is found -/

/-- The position of a match, or the one between the members on the two sides of the key. -/
def IsPosition (compare : α → ℤ) (l : List α) (r : ℕ × Bool) : Prop :=
  if r.2 then ∃ a, l[r.1]? = some a ∧ compare a = 0
  else r.1 ≤ l.length ∧ (∀ i (h : i < l.length), i < r.1 → 0 < compare l[i])
    ∧ ∀ i (h : i < l.length), r.1 ≤ i → compare l[i] < 0

lemma InOrder.lt_of_lt (h : InOrder compare l) {i j : ℕ} (hij : i ≤ j) (hj : j < l.length)
    (hlt : compare (l[i]) < 0) : compare l[j] < 0 := by
  rcases Nat.lt_or_eq_of_le hij with hij | rfl
  · exact (pairwise_iff_getElem.mp h i j (hij.trans hj) hj hij).2 hlt
  · exact hlt

/-- Members up to one that the key is behind. -/
lemma InOrder.pos_of_pos (h : InOrder compare l) {i j : ℕ} (hij : i ≤ j) (hj : j < l.length)
    (hpos : 0 < compare l[j]) : 0 < compare (l[i]) := by
  rcases Nat.lt_or_eq_of_le hij with hij | rfl
  · by_contra hle
    have := (pairwise_iff_getElem.mp h i j (hij.trans hj) hj hij).1 (not_lt.mp hle)
    omega
  · exact hpos

/-- **What the loop keeps**: the key is behind all members before `lo`, and before all members
after `hi`. -/
structure Narrows (compare : α → ℤ) (l : List α) (lo hi : ℕ) : Prop where
  lo_le : lo ≤ hi + 1
  hi_lt : hi < l.length
  below : ∀ i (h : i < l.length), i < lo → 0 < compare l[i]
  above : ∀ i (h : i < l.length), hi < i → compare l[i] < 0

lemma exists_bsearchLoop (h : InOrder compare l) (hn : Narrows compare l lo hi) :
    ∃ r, bsearchLoop compare l lo hi = some r ∧ IsPosition compare l r := by
  fun_induction bsearchLoop compare l lo hi with
  | case1 lo hi hle mid hread =>
    rw [getElem?_eq_none_iff] at hread
    have := hn.hi_lt
    omega
  | case2 lo hi hle mid a hread hzero => exact ⟨_, rfl, a, hread, hzero⟩
  | case3 lo hi hle mid a hread hzero hpos ih =>
    obtain ⟨hmid, rfl⟩ := List.getElem?_eq_some_iff.mp hread
    refine ih ⟨by omega, hn.hi_lt, fun i hi hlt => ?_, hn.above⟩
    exact h.pos_of_pos (by omega) hmid hpos
  | case4 lo hi hle mid a hread hzero hpos hmidpos ih =>
    obtain ⟨hmid, rfl⟩ := List.getElem?_eq_some_iff.mp hread
    refine ih ⟨by omega, by omega, hn.below, fun i hi hlt => ?_⟩
    exact h.lt_of_lt (show mid ≤ i by omega) hi (by omega)
  | case5 lo hi hle mid a hread hzero hpos hmidpos hlo =>
    obtain ⟨hmid, rfl⟩ := List.getElem?_eq_some_iff.mp hread
    refine ⟨_, rfl, Nat.zero_le _, fun i _ hlt => absurd hlt (Nat.not_lt_zero i), fun i hi _ => ?_⟩
    exact h.lt_of_lt (show mid ≤ i by omega) hi (by omega)
  | case6 lo hi hle mid a hread hzero hpos hmidpos hlo => omega
  | case7 lo hi hgt =>
    have hlo := hn.lo_le
    have hhi := hn.hi_lt
    refine ⟨(lo, false), ?_, by omega, hn.below, fun i hi hle => hn.above i hi (by omega)⟩
    rw [bsearchMiss, if_pos (by omega)]
    split
    · next hlt =>
      rw [getElem?_eq_getElem hlt, Option.bind_some, if_pos (hn.above lo hlt (by omega))]
    · next hge =>
      have hlast : l.length - 1 < l.length := by omega
      rw [getElem?_eq_getElem hlast, Option.bind_some, if_pos (hn.below _ hlast (by omega))]

/-- **The search finds a match**, or the position where the key belongs. -/
theorem exists_bsearchIdx (h : InOrder compare l) :
    ∃ r, bsearchIdx compare l = some r ∧ IsPosition compare l r := by
  rw [bsearchIdx]
  split
  · next hnil =>
    obtain rfl := length_eq_zero_iff.mp hnil
    exact ⟨_, rfl, le_rfl, fun i hi => absurd hi (Nat.not_lt_zero i),
      fun i hi => absurd hi (Nat.not_lt_zero i)⟩
  · exact exists_bsearchLoop h
      ⟨by omega, by omega, fun i _ hlt => by omega, fun i hi hlt => by omega⟩

/-- A position with members before the key on its left, and one that is not at it. -/
lemma findIdx_eq_of {p : α → Bool} {i : ℕ} (hi : i ≤ l.length)
    (hbefore : ∀ j (h : j < l.length), j < i → p l[j] = false)
    (hat : ∀ h : i < l.length, p l[i] = true) : l.findIdx p = i := by
  rcases Nat.lt_or_eq_of_le hi with hlt | rfl
  · rw [findIdx_eq hlt]
    exact ⟨hat hlt, fun j hj => hbefore j (hj.trans hlt) hj⟩
  · refine le_antisymm findIdx_le_length (not_lt.mp fun hlt => ?_)
    have htrue := findIdx_getElem (w := hlt)
    rw [hbefore _ hlt hlt] at htrue
    exact Bool.false_ne_true htrue

/-- **The search finds the first member that is not before the key.** -/
theorem bsearchIdx_eq (h : Ascending compare l) :
    bsearchIdx compare l = some (l.findIdx (compare · ≤ 0), l.any (compare · = 0)) := by
  obtain ⟨⟨i, found⟩, heq, hpos⟩ := exists_bsearchIdx h.inOrder
  rw [heq]
  cases found with
  | true =>
    obtain ⟨a, hread, hzero⟩ := hpos
    obtain ⟨hi, rfl⟩ := List.getElem?_eq_some_iff.mp hread
    have hfind : l.findIdx (compare · ≤ 0) = i := by
      refine findIdx_eq_of hi.le (fun j hj hlt => ?_) fun _ => by simp [hzero]
      rw [decide_eq_false_iff_not]
      intro hle
      exact (pairwise_iff_getElem.mp h j i hj hi hlt hle).ne hzero
    rw [hfind, any_eq_true.mpr ⟨_, getElem_mem hi, by simp [hzero]⟩]
  | false =>
    obtain ⟨hi, hbelow, habove⟩ := hpos
    have hfind : l.findIdx (compare · ≤ 0) = i := by
      refine findIdx_eq_of hi (fun j hj hlt => ?_) fun hlt => ?_
      · simpa using hbelow j hj hlt
      · simpa using (habove i hlt le_rfl).le
    have hany : l.any (compare · = 0) = false := by
      rw [any_eq_false]
      intro b hb
      obtain ⟨j, hj, rfl⟩ := mem_iff_getElem.mp hb
      rcases Nat.lt_or_ge j i with hlt | hge
      · simpa using (hbelow j hj hlt).ne'
      · simpa using (habove j hj hge).ne
    rw [hfind, hany]

end Ator
