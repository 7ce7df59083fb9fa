import Mathlib.Order.Lattice.Nat

/-!
# Longest common subsequences

* `IsLcsLength` — what the length of a longest common subsequence is; `lcsLength` is that number,
  and `IsLcsLength.eq` says that there is no other.
* `lcsLength_snoc_self`, `lcsLength_snoc_of_ne` — the recurrence that the dynamic program follows.
* `lcsLength_append_append` — what both lists share at their ends belongs to a longest common
  subsequence.
* `lcsLength_le_append`, `exists_lcsLength_append` — cutting one list in two: the best cut of the
  other list is the one with the largest sum.
* `prefixLengths` — a row of the table: one number for each prefix of the second list.
-/

namespace Ator

open List

variable {α : Type*} {a b : α} {l l₁ l₂ p q : List α} {n k : ℕ}

/-- `n` is the length of a longest common subsequence of the two lists. -/
def IsLcsLength (l₁ l₂ : List α) (n : ℕ) : Prop :=
  IsGreatest {n | ∃ l : List α, l.Sublist l₁ ∧ l.Sublist l₂ ∧ l.length = n} n

/-- The length of the longest common subsequences. -/
noncomputable def lcsLength (l₁ l₂ : List α) : ℕ :=
  sSup {n | ∃ l : List α, l.Sublist l₁ ∧ l.Sublist l₂ ∧ l.length = n}

lemma isLcsLength_lcsLength (l₁ l₂ : List α) : IsLcsLength l₁ l₂ (lcsLength l₁ l₂) := by
  have hbdd : BddAbove {n | ∃ l : List α, l.Sublist l₁ ∧ l.Sublist l₂ ∧ l.length = n} := by
    refine ⟨l₁.length, ?_⟩
    rintro n ⟨l, h₁, -, rfl⟩
    exact h₁.length_le
  refine ⟨Nat.sSup_mem ⟨0, [], nil_sublist l₁, nil_sublist l₂, rfl⟩ hbdd, ?_⟩
  intro n hn
  exact le_csSup hbdd hn

lemma exists_common (l₁ l₂ : List α) :
    ∃ l : List α, l.Sublist l₁ ∧ l.Sublist l₂ ∧ l.length = lcsLength l₁ l₂ :=
  (isLcsLength_lcsLength l₁ l₂).1

lemma length_le_lcsLength (h₁ : l.Sublist l₁) (h₂ : l.Sublist l₂) :
    l.length ≤ lcsLength l₁ l₂ :=
  (isLcsLength_lcsLength l₁ l₂).2 ⟨l, h₁, h₂, rfl⟩

lemma lcsLength_le_iff :
    lcsLength l₁ l₂ ≤ n ↔ ∀ l : List α, l.Sublist l₁ → l.Sublist l₂ → l.length ≤ n := by
  constructor
  · intro h l h₁ h₂
    exact (length_le_lcsLength h₁ h₂).trans h
  · intro h
    obtain ⟨l, h₁, h₂, hl⟩ := exists_common l₁ l₂
    exact hl ▸ h l h₁ h₂

lemma lcsLength_comm (l₁ l₂ : List α) : lcsLength l₁ l₂ = lcsLength l₂ l₁ := by
  refine le_antisymm ?_ ?_
  · exact lcsLength_le_iff.mpr fun l h₁ h₂ => length_le_lcsLength h₂ h₁
  · exact lcsLength_le_iff.mpr fun l h₁ h₂ => length_le_lcsLength h₂ h₁

lemma lcsLength_mono {l₁' l₂' : List α} (h₁ : l₁.Sublist l₁') (h₂ : l₂.Sublist l₂') :
    lcsLength l₁ l₂ ≤ lcsLength l₁' l₂' :=
  lcsLength_le_iff.mpr fun _ h h' => length_le_lcsLength (h.trans h₁) (h'.trans h₂)

@[simp] lemma lcsLength_nil_left (l : List α) : lcsLength [] l = 0 := by
  refine Nat.le_zero.mp (lcsLength_le_iff.mpr fun l' h _ => ?_)
  rw [sublist_nil.mp h, length_nil]

@[simp] lemma lcsLength_nil_right (l : List α) : lcsLength l [] = 0 := by
  rw [lcsLength_comm, lcsLength_nil_left]

lemma lcsLength_reverse (l₁ l₂ : List α) :
    lcsLength l₁.reverse l₂.reverse = lcsLength l₁ l₂ := by
  have hle : ∀ l₁ l₂ : List α, lcsLength l₁ l₂ ≤ lcsLength l₁.reverse l₂.reverse := by
    intro l₁ l₂
    refine lcsLength_le_iff.mpr fun l h₁ h₂ => ?_
    rw [← length_reverse]
    exact length_le_lcsLength h₁.reverse h₂.reverse
  refine le_antisymm ?_ (hle l₁ l₂)
  simpa using hle l₁.reverse l₂.reverse

/-! ## The recurrence -/

lemma lcsLength_cons_self (a : α) (l₁ l₂ : List α) :
    lcsLength (a :: l₁) (a :: l₂) = lcsLength l₁ l₂ + 1 := by
  refine le_antisymm (lcsLength_le_iff.mpr fun l h₁ h₂ => ?_) ?_
  · cases l with
    | nil => exact Nat.zero_le _
    | cons b l =>
      -- the rest of a common subsequence is common to the rests
      rw [length_cons]
      exact Nat.succ_le_succ (length_le_lcsLength h₁.tail h₂.tail)
  · obtain ⟨l, h₁, h₂, hl⟩ := exists_common l₁ l₂
    rw [← hl, ← length_cons (a := a)]
    exact length_le_lcsLength (h₁.cons_cons a) (h₂.cons_cons a)

lemma lcsLength_cons_of_ne (h : a ≠ b) (l₁ l₂ : List α) :
    lcsLength (a :: l₁) (b :: l₂) = max (lcsLength l₁ (b :: l₂)) (lcsLength (a :: l₁) l₂) := by
  refine le_antisymm (lcsLength_le_iff.mpr fun l h₁ h₂ => ?_) (max_le ?_ ?_)
  · rcases sublist_cons_iff.mp h₁ with h₁' | ⟨r, rfl, hr⟩
    · exact (length_le_lcsLength h₁' h₂).trans (le_max_left _ _)
    · rcases sublist_cons_iff.mp h₂ with h₂' | ⟨r', heq, -⟩
      · exact (length_le_lcsLength h₁ h₂').trans (le_max_right _ _)
      · exact absurd (List.cons.inj heq).1 h
  · exact lcsLength_mono (sublist_cons_self a l₁) (Sublist.refl _)
  · exact lcsLength_mono (Sublist.refl _) (sublist_cons_self b l₂)

lemma lcsLength_snoc_self (a : α) (l₁ l₂ : List α) :
    lcsLength (l₁ ++ [a]) (l₂ ++ [a]) = lcsLength l₁ l₂ + 1 := by
  rw [← lcsLength_reverse, reverse_append, reverse_append, reverse_singleton,
    singleton_append, singleton_append, lcsLength_cons_self, lcsLength_reverse]

lemma lcsLength_snoc_of_ne (h : a ≠ b) (l₁ l₂ : List α) :
    lcsLength (l₁ ++ [a]) (l₂ ++ [b])
      = max (lcsLength l₁ (l₂ ++ [b])) (lcsLength (l₁ ++ [a]) l₂) := by
  have hsnoc : ∀ (l : List α) (c : α), (l ++ [c]).reverse = c :: l.reverse := by
    intro l c
    rw [reverse_append, reverse_singleton, singleton_append]
  rw [← lcsLength_reverse, hsnoc, hsnoc, lcsLength_cons_of_ne h, ← hsnoc, ← hsnoc,
    lcsLength_reverse, lcsLength_reverse]

lemma lcsLength_singleton [DecidableEq α] (a : α) (l : List α) :
    lcsLength [a] l = if a ∈ l then 1 else 0 := by
  induction l with
  | nil => simp
  | cons b l ih =>
    by_cases hab : a = b
    · subst hab
      rw [lcsLength_cons_self, lcsLength_nil_left, if_pos mem_cons_self]
    · rw [lcsLength_cons_of_ne hab, lcsLength_nil_left, Nat.zero_max, ih]
      simp [hab]

lemma lcsLength_append_left (p l₁ l₂ : List α) :
    lcsLength (p ++ l₁) (p ++ l₂) = p.length + lcsLength l₁ l₂ := by
  induction p with
  | nil => rw [nil_append, nil_append, length_nil, Nat.zero_add]
  | cons a p ih =>
    rw [cons_append, cons_append, lcsLength_cons_self, ih, length_cons]
    omega

lemma lcsLength_append_right (l₁ l₂ q : List α) :
    lcsLength (l₁ ++ q) (l₂ ++ q) = lcsLength l₁ l₂ + q.length := by
  rw [← lcsLength_reverse, reverse_append, reverse_append, lcsLength_append_left,
    lcsLength_reverse, length_reverse, Nat.add_comm]

/-- What both lists share at their ends belongs to a longest common subsequence. -/
theorem lcsLength_append_append (p l₁ l₂ q : List α) :
    lcsLength (p ++ l₁ ++ q) (p ++ l₂ ++ q) = p.length + lcsLength l₁ l₂ + q.length := by
  rw [lcsLength_append_right, lcsLength_append_left]

/-! ## Cutting one list in two -/

lemma lcsLength_le_append (p q l : List α) (k : ℕ) :
    lcsLength p (l.take k) + lcsLength q (l.drop k) ≤ lcsLength (p ++ q) l := by
  obtain ⟨c, hc₁, hc₂, hc⟩ := exists_common p (l.take k)
  obtain ⟨d, hd₁, hd₂, hd⟩ := exists_common q (l.drop k)
  rw [← hc, ← hd, ← length_append]
  refine length_le_lcsLength (hc₁.append hd₁) ?_
  rw [← take_append_drop k l]
  exact hc₂.append hd₂

/-- Some cut of the other list loses nothing. -/
theorem exists_lcsLength_append (p q l : List α) :
    ∃ k ≤ l.length, lcsLength p (l.take k) + lcsLength q (l.drop k) = lcsLength (p ++ q) l := by
  obtain ⟨c, hc₁, hc₂, hc⟩ := exists_common (p ++ q) l
  obtain ⟨c₁, c₂, rfl, hp, hq⟩ := sublist_append_iff.mp hc₁
  obtain ⟨r₁, r₂, rfl, hr₁, hr₂⟩ := append_sublist_iff.mp hc₂
  refine ⟨r₁.length, by simp, le_antisymm (lcsLength_le_append p q _ _) ?_⟩
  rw [← hc, length_append, take_left, drop_left]
  exact Nat.add_le_add (length_le_lcsLength hp hr₁) (length_le_lcsLength hq hr₂)

/-! ## A row of the table -/

/-- The lengths for the first list and each prefix of the second, from the prefix `p` on. -/
noncomputable def prefixLengths (l p q : List α) : List ℕ := q.inits.map fun r => lcsLength l (p ++ r)

lemma prefixLengths_nil (l p : List α) : prefixLengths l p [] = [lcsLength l p] := by
  simp [prefixLengths]

lemma prefixLengths_cons (l p q : List α) (a : α) :
    prefixLengths l p (a :: q) = lcsLength l p :: prefixLengths l (p ++ [a]) q := by
  simp [prefixLengths, Function.comp_def]

lemma prefixLengths_nil_left (p q : List α) :
    prefixLengths [] p q = List.replicate (q.length + 1) 0 := by
  simp [prefixLengths, map_const']

lemma exists_prefixLengths (l p q : List α) :
    ∃ row, prefixLengths l p q = lcsLength l p :: row := by
  cases q with
  | nil => exact ⟨[], prefixLengths_nil l p⟩
  | cons a q => exact ⟨_, prefixLengths_cons l p q a⟩

lemma getD_prefixLengths (l q : List α) (h : k ≤ q.length) :
    (prefixLengths l [] q).getD k 0 = lcsLength l (q.take k) := by
  have hlt : k < q.inits.length := by
    rw [length_inits]
    omega
  rw [prefixLengths, getD_eq_getElem?_getD, getElem?_map, getElem?_eq_getElem hlt, getElem_inits]
  rfl

end Ator
