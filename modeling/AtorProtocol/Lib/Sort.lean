import Mathlib.Data.List.GetD
import Mathlib.Data.List.Sort

/-!
# Sorts that only see comparisons

C's `qsort` promises a sorted rearrangement of its input and nothing about the order of equal
elements.  `ComparisonSort le` is that promise together with the one limit every such sort has:
it learns about the elements from `le` only, so it commutes with a map that `le` does not see.

* `ComparisonSort.filter_eq_of_perm` — where equal elements are the same, the result does not
  depend on the order of the input.
* `ComparisonSort.sort_swap` — where two elements are equal, it does: swapping them in the input
  swaps them in the result.
* `ComparisonSort.insertion` — the stable insertion sort is one.
* `lowMedian_mem_Icc` — the middle of a sorted list is where the majority is.
-/

namespace Ator

open List

variable {α : Type*}

/-- A sort by `le` that has no other access to the elements. -/
structure ComparisonSort (le : α → α → Bool) where
  sort : List α → List α
  perm : ∀ l, (sort l).Perm l
  pairwise : ∀ l, (sort l).Pairwise fun a b => le a b = true
  map : ∀ (f : α → α) (l : List α), (∀ a ∈ l, ∀ b ∈ l, le (f a) (f b) = le a b) →
    sort (l.map f) = (sort l).map f

namespace ComparisonSort

variable {le : α → α → Bool} (S : ComparisonSort le)

/-- The stable insertion sort. -/
def insertion (le : α → α → Bool) (trans : ∀ a b c, le a b → le b c → le a c)
    (total : ∀ a b, le a b ∨ le b a) : ComparisonSort le where
  sort l := l.insertionSort fun a b => le a b = true
  perm l := perm_insertionSort _ l
  pairwise l := by
    have : Std.Total fun a b => le a b = true := ⟨total⟩
    have : IsTrans α fun a b => le a b = true := ⟨trans⟩
    exact pairwise_insertionSort _ l
  map f l h := by
    refine (map_insertionSort _ _ f l fun a ha b hb => ?_).symm
    rw [h a ha b hb]

lemma mem_sort {l : List α} {a : α} : a ∈ S.sort l ↔ a ∈ l := (S.perm l).mem_iff

/-- The members that satisfy `p` come out in the same order from every arrangement of the input,
if `le` orders these strictly. -/
lemma filter_eq_of_perm {l l' : List α} (p : α → Bool) (h : l'.Perm l)
    (hanti : ∀ a ∈ l, ∀ b ∈ l, p a → p b → le a b → le b a → a = b) :
    (S.sort l').filter p = (S.sort l).filter p := by
  have hperm : ((S.sort l').filter p).Perm ((S.sort l).filter p) :=
    ((S.perm l').trans (h.trans (S.perm l).symm)).filter p
  refine @Perm.eq_of_pairwise _ (fun a b => le a b = true) _ _ ?_ ?_ ?_ hperm
  · intro a b ha hb hab hba
    rw [mem_filter, S.mem_sort, h.mem_iff] at ha
    rw [mem_filter, S.mem_sort] at hb
    exact hanti a ha.1 b hb.1 ha.2 hb.2 hab hba
  · exact (S.pairwise l').filter p
  · exact (S.pairwise l).filter p

/-! ## Swapping two equal elements -/

variable [DecidableEq α] {a b : α}

/-- `le` does not tell `a` from `b`. -/
def Tied (le : α → α → Bool) (a b : α) : Prop := ∀ c, le a c = le b c ∧ le c a = le c b

lemma le_swap (h : Tied le a b) (x y : α) :
    le (Equiv.swap a b x) (Equiv.swap a b y) = le x y := by
  have hl : ∀ x z, le (Equiv.swap a b x) z = le x z := by
    intro x z
    rw [Equiv.swap_apply_def]
    split
    · next hx => rw [hx, (h z).1]
    · split
      · next hx => rw [hx, (h z).1]
      · rfl
  have hr : ∀ y z, le z (Equiv.swap a b y) = le z y := by
    intro y z
    rw [Equiv.swap_apply_def]
    split
    · next hy => rw [hy, (h z).2]
    · split
      · next hy => rw [hy, (h z).2]
      · rfl
  rw [hl, hr]

lemma sort_swap (h : Tied le a b) (l : List α) :
    S.sort (l.map (Equiv.swap a b)) = (S.sort l).map (Equiv.swap a b) :=
  S.map _ l fun x _ y _ => le_swap h x y

/-- Swapping two members rearranges a list without duplicates. -/
lemma map_swap_perm {l : List α} (hl : l.Nodup) (ha : a ∈ l) (hb : b ∈ l) :
    (l.map (Equiv.swap a b)).Perm l := by
  refine (perm_ext_iff_of_nodup (hl.map (Equiv.swap a b).injective) hl).mpr fun x => ?_
  rw [List.mem_map]
  have hmem : ∀ y ∈ l, Equiv.swap a b y ∈ l := by
    intro y hy
    rw [Equiv.swap_apply_def]
    split
    · exact hb
    · split
      · exact ha
      · exact hy
  constructor
  · rintro ⟨y, hy, rfl⟩
    exact hmem y hy
  · intro hx
    exact ⟨Equiv.swap a b x, hmem x hx, Equiv.swap_apply_self a b x⟩

end ComparisonSort

/-- Two elements with different images of one length: the joined images of a list that has one of
them change when the two are swapped. -/
lemma flatMap_swap_ne {β : Type*} [DecidableEq α] {a b : α} {f : α → List β} {n : ℕ}
    (hn : n ≤ (f a).length) (hn' : n ≤ (f b).length) (hne : (f a).take n ≠ (f b).take n) :
    ∀ l : List α, a ∈ l ∨ b ∈ l → (l.map (Equiv.swap a b)).flatMap f ≠ l.flatMap f
  | [], h => by simp at h
  | x :: l, h => by
      intro heq
      simp only [map_cons, flatMap_cons] at heq
      by_cases hxa : x = a
      · rw [hxa, Equiv.swap_apply_left] at heq
        have htake := congrArg (List.take n) heq
        rw [take_append_of_le_length hn, take_append_of_le_length hn'] at htake
        exact hne htake.symm
      · by_cases hxb : x = b
        · rw [hxb, Equiv.swap_apply_right] at heq
          have htake := congrArg (List.take n) heq
          rw [take_append_of_le_length hn, take_append_of_le_length hn'] at htake
          exact hne htake
        · rw [Equiv.swap_apply_of_ne_of_ne hxa hxb] at heq
          refine flatMap_swap_ne hn hn' hne l ?_ (append_cancel_left heq)
          rcases h with h | h
          · exact Or.inl (mem_of_ne_of_mem (Ne.symm hxa) h)
          · exact Or.inr (mem_of_ne_of_mem (Ne.symm hxb) h)

/-! ## The middle -/

/-- **The low median is where most of the list is.** -/
theorem lowMedian_mem_Icc {β : Type*} [LinearOrder β] {f : α → β} {l : List α} {a b : β}
    (hsorted : l.Pairwise fun x y => f x ≤ f y)
    (h : l.length < 2 * l.countP fun x => a ≤ f x ∧ f x ≤ b) (d : α) :
    a ≤ f (l.getD ((l.length - 1) / 2) d) ∧ f (l.getD ((l.length - 1) / 2) d) ≤ b := by
  have hle := countP_le_length (p := fun x => decide (a ≤ f x ∧ f x ≤ b)) (l := l)
  have hi : (l.length - 1) / 2 < l.length := by omega
  rw [getD_eq_getElem _ _ hi]
  have hsplit := (take_append_drop ((l.length - 1) / 2) l).symm
  have hlen := length_take_of_le hi.le
  rw [drop_eq_getElem_cons hi] at hsplit
  generalize l[(l.length - 1) / 2] = m at hsplit ⊢
  generalize l.take _ = low at hsplit hlen
  generalize l.drop _ = high at hsplit
  subst hsplit
  simp only [pairwise_append, pairwise_cons, mem_cons, forall_eq_or_imp] at hsorted
  obtain ⟨-, ⟨hhigh, -⟩, hlow⟩ := hsorted
  simp only [countP_append, countP_cons, length_append, length_cons] at h hlen
  constructor
  · by_contra! hlt
    have hnone : low.countP (fun x => decide (a ≤ f x ∧ f x ≤ b)) = 0 :=
      countP_eq_zero.mpr fun x hx => by simp [((hlow x hx).1.trans_lt hlt).not_ge]
    have hrest := countP_le_length (p := fun x => decide (a ≤ f x ∧ f x ≤ b)) (l := high)
    rw [hnone, if_neg (by simp [hlt.not_ge])] at h
    omega
  · by_contra! hlt
    have hnone : high.countP (fun x => decide (a ≤ f x ∧ f x ≤ b)) = 0 :=
      countP_eq_zero.mpr fun x hx => by simp [(hlt.trans_le (hhigh x hx)).not_ge]
    have hrest := countP_le_length (p := fun x => decide (a ≤ f x ∧ f x ≤ b)) (l := low)
    rw [hnone, if_neg (by simp [hlt.not_ge])] at h
    omega

end Ator
