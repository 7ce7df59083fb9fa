import Mathlib.Data.List.Basic

/-!
# Rewriting with a limit

Terms that are rewritten one rule at a time, by a partial function that picks the rule, until none
applies or a number of rewrites was made.

* `Rewrites` — the rules applied from one term to another.
* `IsNormalizing` — a rewriting that goes on for as long as it may.
* `IsNormalizing.unique` — there is one.
-/

namespace Ator

open List

variable {α β : Type*} {next : α → Option (β × α)} {a b b' c : α} {r : β} {rs rs' : List β} {n : ℕ}

/-- The rules applied from one term to another, in order. -/
inductive Rewrites (next : α → Option (β × α)) : α → List β → α → Prop where
  | refl (a : α) : Rewrites next a [] a
  | step {a b c : α} {r : β} {rs : List β} (first : next a = some (r, b))
      (rest : Rewrites next b rs c) : Rewrites next a (r :: rs) c

/-- A rewriting that stops at the limit or where no rule applies. -/
structure IsNormalizing (next : α → Option (β × α)) (n : ℕ) (a : α) (rs : List β) (b : α) :
    Prop where
  rewrites : Rewrites next a rs b
  length_le : rs.length ≤ n
  stops : rs.length = n ∨ next b = none

lemma Rewrites.eq_of_nil (h : Rewrites next a [] b) : b = a := by
  cases h
  rfl

lemma IsNormalizing.of_limit (a : α) : IsNormalizing next 0 a [] a :=
  ⟨.refl a, Nat.le_refl 0, Or.inl rfl⟩

lemma IsNormalizing.of_none (n : ℕ) (h : next a = none) : IsNormalizing next n a [] a :=
  ⟨.refl a, Nat.zero_le n, Or.inr h⟩

lemma IsNormalizing.cons (first : next a = some (r, b)) (h : IsNormalizing next n b rs c) :
    IsNormalizing next (n + 1) a (r :: rs) c where
  rewrites := .step first h.rewrites
  length_le := Nat.succ_le_succ h.length_le
  stops := h.stops.imp (congrArg (· + 1)) id

/-- **A rewriting with a limit is determined by the term it starts from.** -/
theorem IsNormalizing.unique (h : IsNormalizing next n a rs b)
    (h' : IsNormalizing next n a rs' b') : rs = rs' ∧ b = b' := by
  obtain ⟨hrun, hle, hstop⟩ := h
  obtain ⟨hrun', hle', hstop'⟩ := h'
  induction hrun generalizing n rs' with
  | refl a =>
    cases hrun' with
    | refl => exact ⟨rfl, rfl⟩
    | step first rest =>
      rcases hstop with hn | hnone
      · simp only [length_cons, length_nil] at hle' hn
        omega
      · rw [hnone] at first
        cases first
  | step first rest ih =>
    cases hrun' with
    | refl =>
      rcases hstop' with hn | hnone
      · simp only [length_cons, length_nil] at hle hn
        omega
      · rw [hnone] at first
        cases first
    | step first' rest' =>
      rw [first] at first'
      obtain ⟨rfl, rfl⟩ := Prod.mk.inj (Option.some.inj first')
      obtain ⟨n, rfl⟩ : ∃ m, n = m + 1 := ⟨n - 1, by rw [length_cons] at hle; omega⟩
      simp only [length_cons, Nat.add_le_add_iff_right, Nat.add_right_cancel_iff]
        at hle hle' hstop hstop'
      obtain ⟨rfl, rfl⟩ := ih hle hstop rest' hle' hstop'
      exact ⟨rfl, rfl⟩

end Ator
