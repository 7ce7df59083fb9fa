import Mathlib.Data.List.Basic

/-!
# First-match rule lists

A list of rules answers a request with the verdict of the first rule that covers it, and with a
default where none does.

* `firstMatch_filter` — rules that an earlier rule makes unreachable can be dropped.
* `firstMatch_cons_eq` — a rule can be dropped that the rules after it agree with.
* `firstMatch_of_agree` — where the rules before a match agree with it, it decides.
-/

namespace Ator

open List

variable {ρ ι β : Type*} {covers : ρ → ι → Bool} {verdict : ρ → β} {dflt : β}
  {a r : ρ} {l l' pre post : List ρ} {x : ι}

/-- The verdict of the first rule that covers `x`. -/
def firstMatch (covers : ρ → ι → Bool) (verdict : ρ → β) (dflt : β) (l : List ρ) (x : ι) : β :=
  ((l.find? fun r => covers r x).map verdict).getD dflt

lemma firstMatch_cons_of_covers (h : covers a x = true) :
    firstMatch covers verdict dflt (a :: l) x = verdict a := by
  simp [firstMatch, h]

lemma firstMatch_cons_of_not (h : ¬ covers a x = true) :
    firstMatch covers verdict dflt (a :: l) x = firstMatch covers verdict dflt l x := by
  simp [firstMatch, h]

lemma firstMatch_cons_congr
    (h : firstMatch covers verdict dflt l x = firstMatch covers verdict dflt l' x) :
    firstMatch covers verdict dflt (a :: l) x = firstMatch covers verdict dflt (a :: l') x := by
  by_cases ha : covers a x = true
  · rw [firstMatch_cons_of_covers ha, firstMatch_cons_of_covers ha]
  · rw [firstMatch_cons_of_not ha, firstMatch_cons_of_not ha, h]

/-- Rules that do not cover the request can be dropped. -/
lemma firstMatch_filter_of_not {keep : ρ → Bool} (h : ∀ r ∈ l, keep r = false → ¬ covers r x = true) :
    firstMatch covers verdict dflt (l.filter keep) x = firstMatch covers verdict dflt l x := by
  induction l with
  | nil => rfl
  | cons r l ih =>
    have hrest := ih fun r' hr' => h r' (mem_cons_of_mem r hr')
    cases hk : keep r with
    | true =>
      rw [filter_cons_of_pos hk]
      exact firstMatch_cons_congr hrest
    | false =>
      rw [filter_cons_of_neg (by simp [hk]), hrest, firstMatch_cons_of_not (h r mem_cons_self hk)]

/-- **Unreachable rules.**  Behind `a`, rules can be dropped that cover no more than `a`. -/
lemma firstMatch_filter {keep : ρ → Bool}
    (h : ∀ r ∈ l, keep r = false → covers r x = true → covers a x = true) :
    firstMatch covers verdict dflt (a :: l.filter keep) x
      = firstMatch covers verdict dflt (a :: l) x := by
  by_cases ha : covers a x = true
  · rw [firstMatch_cons_of_covers ha, firstMatch_cons_of_covers ha]
  · refine firstMatch_cons_congr (firstMatch_filter_of_not fun r hr hk hc => ?_)
    exact ha (h r hr hk hc)

/-- **Redundant rules.**  A rule can be dropped when the rules after it agree with it. -/
lemma firstMatch_cons_eq
    (h : covers a x = true → firstMatch covers verdict dflt l x = verdict a) :
    firstMatch covers verdict dflt (a :: l) x = firstMatch covers verdict dflt l x := by
  by_cases ha : covers a x = true
  · rw [firstMatch_cons_of_covers ha, h ha]
  · exact firstMatch_cons_of_not ha

/-- **A match decides** where the rules before it agree with it. -/
lemma firstMatch_of_agree (hpre : ∀ r ∈ pre, covers r x = true → verdict r = verdict a)
    (ha : covers a x = true) :
    firstMatch covers verdict dflt (pre ++ a :: post) x = verdict a := by
  induction pre with
  | nil => exact firstMatch_cons_of_covers ha
  | cons r pre ih =>
    rw [cons_append]
    by_cases hr : covers r x = true
    · rw [firstMatch_cons_of_covers hr, hpre r mem_cons_self hr]
    · rw [firstMatch_cons_of_not hr]
      exact ih fun r' hr' => hpre r' (mem_cons_of_mem r hr')

/-- Without a match that disagrees with it, the default decides. -/
lemma firstMatch_eq_default (h : ∀ r ∈ l, covers r x = true → verdict r = dflt) :
    firstMatch covers verdict dflt l x = dflt := by
  induction l with
  | nil => rfl
  | cons r l ih =>
    by_cases hr : covers r x = true
    · rw [firstMatch_cons_of_covers hr, h r mem_cons_self hr]
    · rw [firstMatch_cons_of_not hr]
      exact ih fun r' hr' => h r' (mem_cons_of_mem r hr')

/-- A rule that does not cover the request can be dropped. -/
lemma firstMatch_append_cons_of_not (h : ¬ covers a x = true) :
    firstMatch covers verdict dflt (pre ++ a :: post) x
      = firstMatch covers verdict dflt (pre ++ post) x := by
  induction pre with
  | nil => exact firstMatch_cons_of_not h
  | cons r pre ih => exact firstMatch_cons_congr ih

end Ator
