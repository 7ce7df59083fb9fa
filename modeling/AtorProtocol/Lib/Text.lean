import Mathlib.Data.List.TakeWhile
import Mathlib.Data.Nat.Digits.Defs

/-!
# Delimited text and decimal numbers

A C string is the list of its characters.  A pointer into it is the suffix it points at, and
`memchr` / `strchr` for a delimiter cut that suffix in two.

* `beforeDelim`, `fromDelim` — the two halves of a cut; the second still starts with the
  delimiter.  `beforeDelim_append` and `fromDelim_append` say what they are on a joined text.
* `digitsOf`, `afterDigits` — what `strtol` reads, and where it stops.
-/

namespace Ator.Text

open List

scoped instance lawfulBEq_chars : LawfulBEq (List Char) := inferInstance

variable {d : Char} {s t : List Char}

/-- The characters before the first `d`, or all of them. -/
def beforeDelim (d : Char) (s : List Char) : List Char := s.takeWhile (· != d)

/-- The suffix that starts at the first `d`, or the empty one. -/
def fromDelim (d : Char) (s : List Char) : List Char := s.dropWhile (· != d)

lemma beforeDelim_append_fromDelim (d : Char) (s : List Char) :
    beforeDelim d s ++ fromDelim d s = s :=
  takeWhile_append_dropWhile

lemma beforeDelim_of_notMem (h : d ∉ s) : beforeDelim d s = s := by
  refine takeWhile_eq_self_iff.mpr fun c hc => ?_
  have : c ≠ d := fun e => h (e ▸ hc)
  simpa using this

lemma fromDelim_of_notMem (h : d ∉ s) : fromDelim d s = [] := by
  have hcut := beforeDelim_append_fromDelim d s
  rw [beforeDelim_of_notMem h] at hcut
  exact append_right_eq_self.mp hcut

lemma beforeDelim_append (h : d ∉ s) : beforeDelim d (s ++ d :: t) = s := by
  have hs : ∀ c ∈ s, (c != d) = true := fun c hc => by
    have : c ≠ d := fun e => h (e ▸ hc)
    simpa using this
  rw [beforeDelim, takeWhile_append_of_pos hs]
  simp

lemma fromDelim_append (h : d ∉ s) : fromDelim d (s ++ d :: t) = d :: t := by
  have hcut := beforeDelim_append_fromDelim d (s ++ d :: t)
  rw [beforeDelim_append h] at hcut
  exact append_cancel_left hcut

lemma notMem_beforeDelim (d : Char) (s : List Char) : d ∉ beforeDelim d s := by
  intro h
  simpa using mem_takeWhile_imp h

lemma fromDelim_length_le (d : Char) (s : List Char) : (fromDelim d s).length ≤ s.length :=
  (dropWhile_sublist _).length_le

/-- A cut that leaves something starts with the delimiter. -/
lemma fromDelim_eq_cons {c : Char} (h : fromDelim d s = c :: t) : c = d := by
  by_contra hne
  have hd := head_dropWhile_not (· != d) (l := s) (by
    change fromDelim d s ≠ []
    rw [h]
    simp)
  change (((fromDelim d s).head _) != d) = false at hd
  simp only [h, head_cons] at hd
  simp [hne] at hd

/-! ## Decimal numbers -/

/-- The digits a string starts with. -/
def digitsOf (s : List Char) : List Char := s.takeWhile Char.isDigit

/-- What follows the digits a string starts with. -/
def afterDigits (s : List Char) : List Char := s.dropWhile Char.isDigit

/-- `%d` of a natural number. -/
abbrev decimal (n : ℕ) : List Char := Nat.toDigits 10 n

/-- The number a list of digits spells. -/
abbrev digitsVal (ds : List Char) : ℕ := Nat.ofDigitChars 10 ds 0

variable {n : ℕ}

lemma isDigit_of_mem_decimal {c : Char} (h : c ∈ decimal n) : c.isDigit :=
  Nat.isDigit_of_mem_toDigits (by omega) (by omega) h

@[simp] lemma digitsVal_decimal (n : ℕ) : digitsVal (decimal n) = n := Nat.ofDigitChars_ten_toDigits

lemma notMem_decimal {c : Char} (h : c.isDigit = false) : c ∉ decimal n := fun hc => by
  simp [isDigit_of_mem_decimal hc] at h

/-- Digits followed by something that is not a digit are read back whole. -/
lemma digitsOf_append (hs : ∀ c ∈ s, c.isDigit) (ht : ∀ c ∈ t.head?, c.isDigit = false) :
    digitsOf (s ++ t) = s := by
  rw [digitsOf, takeWhile_append_of_pos hs]
  cases t with
  | nil => simp
  | cons c t => simp [ht c (by simp)]

lemma afterDigits_append (hs : ∀ c ∈ s, c.isDigit) (ht : ∀ c ∈ t.head?, c.isDigit = false) :
    afterDigits (s ++ t) = t := by
  have hcut : digitsOf (s ++ t) ++ afterDigits (s ++ t) = s ++ t := takeWhile_append_dropWhile
  rw [digitsOf_append hs ht] at hcut
  exact append_cancel_left hcut

lemma digitsOf_ne_nil (h : s.head?.any Char.isDigit) : digitsOf s ≠ [] := by
  cases s with
  | nil => simp at h
  | cons c s =>
    have hc : c.isDigit := by simpa using h
    rw [digitsOf, takeWhile_cons_of_pos hc]
    exact cons_ne_nil _ _

/-- A number followed by something that is not a digit is read back whole. -/
lemma digitsOf_decimal_append (h : ∀ c ∈ t.head?, c.isDigit = false) :
    digitsOf (decimal n ++ t) = decimal n :=
  digitsOf_append (fun _ hc => isDigit_of_mem_decimal hc) h

lemma afterDigits_decimal_append (h : ∀ c ∈ t.head?, c.isDigit = false) :
    afterDigits (decimal n ++ t) = t :=
  afterDigits_append (fun _ hc => isDigit_of_mem_decimal hc) h

lemma decimal_head_isDigit (n : ℕ) : ∃ c cs, decimal n = c :: cs ∧ c.isDigit := by
  obtain ⟨c, cs, h⟩ := exists_cons_of_ne_nil (Nat.toDigits_ne_nil (n := n) (b := 10))
  exact ⟨c, cs, h, isDigit_of_mem_decimal (n := n) (by rw [decimal, h]; simp)⟩

end Ator.Text
