import Mathlib.Logic.Basic

/-!
# Reverse indices

`target` maps values to what they stand for, and `given` finds, for a target and a kind, a value
that stands for it.  The values an index finds must stand for what they are looked up by; a value
that no index finds is no harm.

* `ReverseIndex.restrict` — an index that finds less.
* `ReverseIndex.insert` — a new value, found at one place.
* `ReverseIndex.forget` — a value that the index does not find may change what it stands for.
-/

namespace Ator

variable {α β ι : Type*} {target target' : β → Option α} {given given' : α → ι → Option β}
  {a : α} {b : β} {i : ι}

/-- Whatever is given for `a` stands for `a`. -/
def ReverseIndex (target : β → Option α) (given : α → ι → Option β) : Prop :=
  ∀ a i b, given a i = some b → target b = some a

namespace ReverseIndex

/-- An index that finds less, and changes nothing of what it still finds. -/
lemma restrict (h : ReverseIndex target given)
    (hless : ∀ a i b, given' a i = some b → given a i = some b ∧ target' b = target b) :
    ReverseIndex target' given' := by
  intro a i b hb
  obtain ⟨hgiven, htarget⟩ := hless a i b hb
  rw [htarget]
  exact h a i b hgiven

/-- A value `b` that nothing finds can stand for something else. -/
lemma forget (h : ReverseIndex target given) (hb : ∀ a i, given a i ≠ some b)
    (hother : ∀ c, c ≠ b → target' c = target c) : ReverseIndex target' given := by
  refine h.restrict fun a i c hc => ⟨hc, hother c ?_⟩
  rintro rfl
  exact hb a i hc

/-- A new value `b` for `a`, at one place of the index. -/
lemma insert (h : ReverseIndex target given) (hb : ∀ a i, given a i ≠ some b)
    (hself : target' b = some a) (hother : ∀ c, c ≠ b → target' c = target c)
    (hless : ∀ x k c, given' x k = some c → given x k = some c ∨ x = a ∧ c = b) :
    ReverseIndex target' given' := by
  intro x k c hc
  rcases hless x k c hc with hold | ⟨rfl, rfl⟩
  · exact h.forget hb hother x k c hold
  · exact hself

end ReverseIndex

end Ator
