import Mathlib.Algebra.Order.Floor.Div

/-!
# Every n-th item

The items of a list at the places `n`, `2 n`, `3 n`, …, each with its place.  Two parties that
count the same items agree on these without a word.

* `everyNth_concat` — one item more.
* `everyNth_prefix`, `filter_everyNth` — a party that has seen less has the first of them.
* `length_everyNth` — how many there are.
-/

namespace Ator

open List

variable {α : Type*} {n : ℕ}

/-- The items at the multiples of `n`, counted from one. -/
def everyNth (n : ℕ) (l : List α) : List (α × ℕ) := (l.zipIdx 1).filter fun p => p.2 % n = 0

@[simp] lemma everyNth_nil : everyNth n ([] : List α) = [] := rfl

lemma everyNth_append (l m : List α) :
    everyNth n (l ++ m) = everyNth n l ++ (m.zipIdx (l.length + 1)).filter fun p => p.2 % n = 0 := by
  rw [everyNth, zipIdx_append, filter_append, Nat.add_comm]
  rfl

lemma everyNth_concat (l : List α) (a : α) : everyNth n (l ++ [a])
    = everyNth n l ++ if (l.length + 1) % n = 0 then [(a, l.length + 1)] else [] := by
  rw [everyNth_append, zipIdx_singleton, filter_singleton, Bool.cond_decide]

lemma everyNth_prefix (l m : List α) : everyNth n l <+: everyNth n (l ++ m) := by
  rw [everyNth_append]
  exact prefix_append _ _

/-- What a party that has seen the first items only makes of the places. -/
lemma filter_everyNth (l m : List α) :
    (everyNth n (l ++ m)).filter (fun p => p.2 ≤ l.length) = everyNth n l := by
  rw [everyNth_append, filter_append]
  have hleft : (everyNth n l).filter (fun p => p.2 ≤ l.length) = everyNth n l := by
    refine filter_eq_self.mpr fun p hp => ?_
    have := snd_lt_add_of_mem_zipIdx (mem_of_mem_filter hp)
    simpa using by omega
  have hright : ((m.zipIdx (l.length + 1)).filter fun p => p.2 % n = 0).filter
      (fun p => p.2 ≤ l.length) = [] := by
    refine filter_eq_nil_iff.mpr fun p hp => ?_
    have := le_snd_of_mem_zipIdx (mem_of_mem_filter hp)
    simpa using by omega
  rw [hleft, hright, append_nil]

lemma length_everyNth (l : List α) : (everyNth n l).length = l.length / n := by
  induction l using List.reverseRecOn with
  | nil => simp
  | append_singleton l a ih =>
    rw [everyNth_concat, length_append, ih, length_append, length_singleton, Nat.succ_div]
    by_cases h : (l.length + 1) % n = 0
    · rw [if_pos h, if_pos (Nat.dvd_of_mod_eq_zero h), length_singleton]
    · rw [if_neg h, if_neg fun hdvd => h (Nat.mod_eq_zero_of_dvd hdvd), length_nil]

end Ator
