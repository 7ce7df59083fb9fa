import Mathlib.Data.List.Basic
import Mathlib.Order.Bounds.Basic

/-!
# Linear search over indices

`searchUp lo hi p` is what a loop from `lo` up to `hi` finds, `searchDown hi p` what a loop from
`hi` down to 0 finds.

* `searchUp_eq_some`, `searchUp_eq_none` — the first index above, if there is one.
* `searchDown_eq_some`, `searchDown_eq_none` — the last index below.
-/

namespace Ator

variable {lo hi i : ℕ} {p : ℕ → Bool}

/-- The first index of `[lo, hi)` that has the property. -/
def searchUp (lo hi : ℕ) (p : ℕ → Bool) : Option ℕ := (List.range' lo (hi - lo)).find? p

/-- The last index of `[0, hi]` that has the property. -/
def searchDown : ℕ → (ℕ → Bool) → Option ℕ
  | 0, p => if p 0 then some 0 else none
  | hi + 1, p => if p (hi + 1) then some (hi + 1) else searchDown hi p

lemma searchUp_eq_some : searchUp lo hi p = some i
    ↔ IsLeast {j | lo ≤ j ∧ j < hi ∧ p j} i := by
  rw [searchUp, List.find?_range'_eq_some, List.mem_range'_1]
  constructor
  · rintro ⟨hp, ⟨hlo, hhi⟩, hfirst⟩
    refine ⟨⟨hlo, by omega, hp⟩, ?_⟩
    rintro j ⟨hj, -, hpj⟩
    by_contra hlt
    simpa [hpj] using hfirst j hj (by omega)
  · rintro ⟨⟨hlo, hhi, hp⟩, hleast⟩
    refine ⟨hp, ⟨hlo, by omega⟩, fun j hj hlt => ?_⟩
    by_contra hpj
    have hle : i ≤ j := hleast ⟨hj, by omega, by simpa using hpj⟩
    omega

lemma searchUp_eq_none : searchUp lo hi p = none ↔ ∀ j, lo ≤ j → j < hi → ¬ p j := by
  rw [searchUp, List.find?_range'_eq_none]
  constructor
  · intro h j hlo hhi
    simpa using h j hlo (by omega)
  · intro h j hlo hhi
    simpa using h j hlo (by omega)

lemma searchDown_eq_some : searchDown hi p = some i ↔ IsGreatest {j | j ≤ hi ∧ p j} i := by
  induction hi with
  | zero =>
    rw [searchDown]
    constructor
    · intro h
      split_ifs at h with hp
      obtain rfl := Option.some.inj h
      exact ⟨⟨le_rfl, hp⟩, fun j hj => hj.1⟩
    · rintro ⟨⟨hle, hp⟩, -⟩
      obtain rfl : i = 0 := by omega
      rw [if_pos hp]
  | succ hi ih =>
    rw [searchDown]
    by_cases hp : p (hi + 1)
    · rw [if_pos hp, Option.some.injEq]
      constructor
      · rintro rfl
        exact ⟨⟨le_rfl, hp⟩, fun j hj => hj.1⟩
      · rintro ⟨⟨hle, -⟩, hgreatest⟩
        exact (hgreatest ⟨le_rfl, hp⟩).antisymm hle
    · have hset : {j | j ≤ hi + 1 ∧ p j} = {j | j ≤ hi ∧ p j} := by
        ext j
        constructor
        · rintro ⟨hle, hpj⟩
          refine ⟨?_, hpj⟩
          rcases Nat.le_succ_iff.mp hle with hle | rfl
          · exact hle
          · exact absurd hpj hp
        · rintro ⟨hle, hpj⟩
          exact ⟨by omega, hpj⟩
      rw [if_neg hp, ih, hset]

lemma searchDown_eq_none : searchDown hi p = none ↔ ∀ j ≤ hi, ¬ p j := by
  induction hi with
  | zero => simp [searchDown]
  | succ hi ih =>
    rw [searchDown]
    split_ifs with hp
    · exact iff_of_false (by simp) fun h => h (hi + 1) le_rfl hp
    · rw [ih]
      constructor
      · intro h j hle
        rcases Nat.le_succ_iff.mp hle with hle | rfl
        · exact h j hle
        · exact hp
      · intro h j hle
        exact h j (by omega)

end Ator
