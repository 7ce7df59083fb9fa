import Mathlib.Data.List.Basic

/-!
# Parsers of input that arrives in pieces

A parser sees the elements that have arrived so far: it fails, asks for more, or is done with a value
and what it has not read.

* `Parser` — a monad, with `item`, `ensure`, `take` and `takeUntil`.
* `Incremental` — what a parser says once it does not ask for more, it says of every longer input.
* `Bounded`, `Reads` — how much is read at most, and at least.
-/

namespace Ator

open List

variable {β α γ : Type*}

/-- What a parser says of the elements so far. -/
inductive Parsed (β α : Type*) where
  | fail
  | truncated
  | done (value : α) (rest : List β)
  deriving DecidableEq

/-- A parser of elements of `β`. -/
def Parser (β α : Type*) := List β → Parsed β α

namespace Parser

/-- The next parser goes on where this one is done. -/
def andThen (p : Parser β α) (f : α → Parser β γ) : Parser β γ := fun xs =>
  match p xs with
  | .fail => .fail
  | .truncated => .truncated
  | .done a rest => f a rest

/-- Done without reading. -/
def succeed (a : α) : Parser β α := fun xs => .done a xs

/-- One element. -/
def item : Parser β β
  | [] => .truncated
  | x :: rest => .done x rest

/-- Fails unless the condition holds. -/
def ensure (c : Bool) : Parser β Unit := fun xs => if c then .done () xs else .fail

/-- `n` elements. -/
def take (n : ℕ) : Parser β (List β) := fun xs =>
  if n ≤ xs.length then .done (xs.take n) (xs.drop n) else .truncated

/-- The elements up to the first that is `stop`, which is read too. -/
def takeUntil [DecidableEq β] (stop : β) : Parser β (List β)
  | [] => .truncated
  | x :: xs =>
    if x = stop then .done [] xs
    else match takeUntil stop xs with
      | .fail => .fail
      | .truncated => .truncated
      | .done ys rest => .done (x :: ys) rest

/-! ## Longer inputs -/

/-- More input changes nothing but what is left over, and what is read suffices. -/
structure Incremental (p : Parser β α) : Prop where
  fail : ∀ xs ys, p xs = .fail → p (xs ++ ys) = .fail
  done : ∀ xs ys a rest, p xs = .done a rest → p (xs ++ ys) = .done a (rest ++ ys)
  exact : ∀ xs a rest, p xs = .done a rest → ∃ used, xs = used ++ rest ∧ p used = .done a []

variable {p : Parser β α} {f : α → Parser β γ} {xs ys rest : List β} {a : α} {m n : ℕ}

lemma Incremental.length_rest_le (hp : Incremental p) (h : p xs = .done a rest) :
    rest.length ≤ xs.length := by
  obtain ⟨used, rfl, -⟩ := hp.exact xs a rest h
  simp

lemma incremental_succeed : Incremental (succeed a : Parser β α) := by
  refine ⟨fun xs ys h => ?_, fun xs ys b rest h => ?_, fun xs b rest h => ?_⟩
  · cases h
  · cases h
    rfl
  · cases h
    exact ⟨[], rfl, rfl⟩

lemma incremental_item : Incremental (item : Parser β β) := by
  refine ⟨fun xs ys h => ?_, fun xs ys b rest h => ?_, fun xs b rest h => ?_⟩
  · cases xs with
    | nil => cases h
    | cons x xs => cases h
  · cases xs with
    | nil => cases h
    | cons x xs =>
      cases h
      rfl
  · cases xs with
    | nil => cases h
    | cons x xs =>
      cases h
      exact ⟨[b], rfl, rfl⟩

lemma incremental_ensure (c : Bool) : Incremental (ensure c : Parser β Unit) := by
  cases c with
  | true => exact incremental_succeed (a := ())
  | false =>
    refine ⟨fun xs ys h => rfl, fun xs ys b rest h => ?_, fun xs b rest h => ?_⟩
    · cases h
    · cases h

lemma incremental_take (n : ℕ) : Incremental (take n : Parser β (List β)) := by
  refine ⟨fun xs ys h => ?_, fun xs ys b rest h => ?_, fun xs b rest h => ?_⟩
  all_goals
    rw [take] at h
    split at h
  · cases h
  · cases h
  · next hn =>
    cases h
    have hlen : n ≤ (xs ++ ys).length := by
      rw [length_append]
      omega
    rw [take, if_pos hlen, take_append_of_le_length hn, drop_append_of_le_length hn]
  · cases h
  · next hn =>
    cases h
    refine ⟨xs.take n, (take_append_drop n xs).symm, ?_⟩
    have hlen : n ≤ (xs.take n).length := by
      rw [length_take]
      omega
    rw [take, if_pos hlen, take_take, Nat.min_self, drop_take_self]
  · cases h

lemma takeUntil_ne_fail [DecidableEq β] (stop : β) (xs : List β) : takeUntil stop xs ≠ .fail := by
  induction xs with
  | nil => simp [takeUntil]
  | cons x xs ih =>
    rw [takeUntil]
    split
    · simp
    · cases hxs : takeUntil stop xs with
      | fail => exact absurd hxs ih
      | truncated => simp
      | done ys rest => simp

lemma takeUntil_eq_done [DecidableEq β] {stop : β} {us : List β} :
    takeUntil stop xs = .done us rest ↔ xs = us ++ stop :: rest ∧ stop ∉ us := by
  induction xs generalizing us with
  | nil => simp [takeUntil]
  | cons x xs ih =>
    rw [takeUntil]
    by_cases hx : x = stop
    · rw [if_pos hx]
      cases us with
      | nil => simp [hx]
      | cons u us =>
        simp only [Parsed.done.injEq, reduceCtorEq, false_and, cons_append,
          cons.injEq, false_iff, not_and]
        rintro ⟨rfl, -⟩ hmem
        exact hmem (hx ▸ mem_cons_self)
    · rw [if_neg hx]
      cases us with
      | nil =>
        cases takeUntil stop xs with
        | fail => simp [hx]
        | truncated => simp [hx]
        | done ys rest' => simp [hx]
      | cons u us =>
        have hih : takeUntil stop xs = .done us rest ↔ xs = us ++ stop :: rest ∧ stop ∉ us := ih
        cases hxs : takeUntil stop xs with
        | fail => exact absurd hxs (takeUntil_ne_fail stop xs)
        | truncated =>
          rw [hxs] at hih
          simp only [reduceCtorEq, false_iff, not_and] at hih
          simp only [reduceCtorEq, false_iff, cons_append, cons.injEq, not_and]
          rintro ⟨-, heq⟩ hmem
          exact hih heq fun h => hmem (mem_cons_of_mem u h)
        | done ys rest' =>
          rw [hxs] at hih
          simp only [Parsed.done.injEq] at hih ⊢
          constructor
          · rintro ⟨heq, rfl⟩
            obtain ⟨rfl, rfl⟩ := cons.inj heq
            obtain ⟨rfl, hnot⟩ := hih.mp ⟨rfl, rfl⟩
            refine ⟨rfl, fun hmem => ?_⟩
            rcases mem_cons.mp hmem with heq | hmem
            · exact hx heq.symm
            · exact hnot hmem
          · rintro ⟨heq, hnot⟩
            obtain ⟨rfl, htail⟩ := cons.inj heq
            obtain ⟨rfl, rfl⟩ := hih.mpr
              ⟨htail, fun h => hnot (mem_cons_of_mem x h)⟩
            exact ⟨rfl, rfl⟩

lemma incremental_takeUntil [DecidableEq β] (stop : β) : Incremental (takeUntil stop) := by
  refine ⟨fun xs ys h => ?_, fun xs ys us rest h => ?_, fun xs us rest h => ?_⟩
  · exact absurd h (takeUntil_ne_fail stop xs)
  · obtain ⟨rfl, hnot⟩ := takeUntil_eq_done.mp h
    exact takeUntil_eq_done.mpr ⟨by simp, hnot⟩
  · obtain ⟨rfl, hnot⟩ := takeUntil_eq_done.mp h
    exact ⟨us ++ [stop], by simp, takeUntil_eq_done.mpr ⟨rfl, hnot⟩⟩

lemma Incremental.andThen (hp : Incremental p) (hf : ∀ a, Incremental (f a)) :
    Incremental (p.andThen f) := by
  refine ⟨fun xs ys h => ?_, fun xs ys c rest h => ?_, fun xs c rest h => ?_⟩
  all_goals
    rw [Parser.andThen] at h
    split at h
  next hxs => rw [Parser.andThen, hp.fail xs ys hxs]
  next => cases h
  next a rest hxs =>
    rw [Parser.andThen, hp.done xs ys a rest hxs]
    exact (hf a).fail rest ys h
  next => cases h
  next => cases h
  next a mid hxs =>
    rw [Parser.andThen, hp.done xs ys a mid hxs]
    exact (hf a).done mid ys c rest h
  next => cases h
  next => cases h
  next a mid hxs =>
    obtain ⟨used, rfl, hused⟩ := hp.exact xs a mid hxs
    obtain ⟨used', rfl, hused'⟩ := (hf a).exact mid c rest h
    refine ⟨used ++ used', (append_assoc used used' rest).symm, ?_⟩
    rw [Parser.andThen, hp.done used used' a [] hused]
    exact hused'

/-! ## Parsers that never fail -/

/-- A parser that takes any input. -/
def NeverFails (p : Parser β α) : Prop := ∀ xs, p xs ≠ .fail

lemma neverFails_succeed : NeverFails (succeed a : Parser β α) := by
  intro xs h
  cases h

lemma neverFails_item : NeverFails (item : Parser β β) := by
  intro xs h
  cases xs with
  | nil => cases h
  | cons x xs => cases h

lemma neverFails_take (n : ℕ) : NeverFails (take n : Parser β (List β)) := by
  intro xs h
  rw [take] at h
  split at h
  · cases h
  · cases h

lemma NeverFails.andThen (hp : NeverFails p) (hf : ∀ a, NeverFails (f a)) :
    NeverFails (p.andThen f) := by
  intro xs h
  rw [Parser.andThen] at h
  split at h
  next hxs => exact hp xs hxs
  next => cases h
  next a rest hxs => exact hf a rest h

/-! ## Bounds -/

/-- A parser that asks for more has seen less than `n` elements, and one that is done has read no
more than `n`. -/
structure Bounded (n : ℕ) (p : Parser β α) : Prop where
  truncated : ∀ xs, p xs = .truncated → xs.length < n
  done : ∀ xs a rest, p xs = .done a rest → xs.length ≤ rest.length + n

lemma Bounded.mono (h : Bounded m p) (hle : m ≤ n) : Bounded n p := by
  refine ⟨fun xs hxs => ?_, fun xs a rest hxs => ?_⟩
  · exact Nat.lt_of_lt_of_le (h.truncated xs hxs) hle
  · have hlen := h.done xs a rest hxs
    omega

lemma bounded_succeed : Bounded 0 (succeed a : Parser β α) := by
  refine ⟨fun xs h => ?_, fun xs b rest h => ?_⟩
  · cases h
  · cases h
    exact Nat.le_refl _

lemma bounded_item : Bounded 1 (item : Parser β β) := by
  refine ⟨fun xs h => ?_, fun xs b rest h => ?_⟩
  all_goals cases xs with
    | nil => cases h <;> exact Nat.zero_lt_one
    | cons x xs => cases h <;> exact Nat.le_refl _

lemma bounded_ensure (c : Bool) : Bounded 0 (ensure c : Parser β Unit) := by
  cases c with
  | true => exact bounded_succeed (a := ())
  | false =>
    refine ⟨fun xs h => ?_, fun xs b rest h => ?_⟩
    · cases h
    · cases h

lemma bounded_take (n : ℕ) : Bounded n (take n : Parser β (List β)) := by
  refine ⟨fun xs h => ?_, fun xs b rest h => ?_⟩
  all_goals
    rw [take] at h
    split at h
  next => cases h
  next hn => exact Nat.lt_of_not_le hn
  next =>
    cases h
    rw [length_drop]
    omega
  next => cases h

lemma Bounded.andThen (hp : Bounded m p) (hf : ∀ a, Bounded n (f a)) :
    Bounded (m + n) (p.andThen f) := by
  refine ⟨fun xs h => ?_, fun xs c rest h => ?_⟩
  all_goals
    rw [Parser.andThen] at h
    split at h
  next => cases h
  next hxs => exact Nat.lt_of_lt_of_le (hp.truncated xs hxs) (Nat.le_add_right m n)
  next a mid hxs =>
    have hlen := hp.done xs a mid hxs
    have hmid := (hf a).truncated mid h
    omega
  next => cases h
  next => cases h
  next a mid hxs =>
    have hlen := hp.done xs a mid hxs
    have hmid := (hf a).done mid c rest h
    omega

/-! ## What is read at least -/

/-- A parser that is done has read at least `n` elements. -/
def Reads (n : ℕ) (p : Parser β α) : Prop :=
  ∀ xs a rest, p xs = .done a rest → rest.length + n ≤ xs.length

lemma Incremental.reads (hp : Incremental p) : Reads 0 p := by
  intro xs a rest h
  exact hp.length_rest_le h

lemma reads_item : Reads 1 (item : Parser β β) := by
  intro xs b rest h
  cases xs with
  | nil => cases h
  | cons x xs =>
    cases h
    exact Nat.le_refl _

lemma reads_take (n : ℕ) : Reads n (take n : Parser β (List β)) := by
  intro xs b rest h
  rw [take] at h
  split at h
  next hn =>
    cases h
    rw [length_drop]
    omega
  next => cases h

lemma reads_takeUntil [DecidableEq β] (stop : β) : Reads 1 (takeUntil stop) := by
  intro xs us rest h
  obtain ⟨rfl, -⟩ := takeUntil_eq_done.mp h
  simp only [length_append, length_cons]
  omega

lemma Reads.andThen (hp : Reads m p) (hf : ∀ a, Reads n (f a)) : Reads (m + n) (p.andThen f) := by
  intro xs c rest h
  rw [Parser.andThen] at h
  split at h
  next => cases h
  next => cases h
  next a mid hxs =>
    have hlen := hp xs a mid hxs
    have hmid := hf a mid c rest h
    omega

end Parser

end Ator
