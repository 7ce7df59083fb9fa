import AtorProtocol.Lib.Text

/-!
# Decimal numbers with a sign

`src/lib/string/parse_int.c`, on the C strings of `Text`.

* `strtol` — the number a string starts with, and what follows it.
* `torParseLong` — a string that is a number within bounds.
-/

namespace Ator.Text

/-- `isspace` in the C locale. -/
def isCSpace (c : Char) : Bool := c = ' ' ∨ ('\t' ≤ c ∧ c ≤ '\r')

variable {c : Char}

lemma isAlphanum_iff_toNat : c.isAlphanum ↔ (97 ≤ c.toNat ∧ c.toNat < 97 + 26)
    ∨ (65 ≤ c.toNat ∧ c.toNat < 65 + 26) ∨ (48 ≤ c.toNat ∧ c.toNat < 48 + 10) := by
  have hupper : c.isUpper ↔ 65 ≤ c.toNat ∧ c.toNat ≤ 90 := decide_eq_true_iff
  have hlower : c.isLower ↔ 97 ≤ c.toNat ∧ c.toNat ≤ 122 := by
    refine Bool.and_eq_true_iff.trans (and_congr ?_ ?_)
    · exact decide_eq_true_iff
    · exact decide_eq_true_iff
  have hdigit : c.isDigit ↔ 48 ≤ c.toNat ∧ c.toNat ≤ 57 := by
    refine Bool.and_eq_true_iff.trans (and_congr ?_ ?_)
    · exact decide_eq_true_iff
    · exact decide_eq_true_iff
  have halphanum : c.isAlphanum = (c.isUpper || c.isLower || c.isDigit) := rfl
  rw [halphanum, Bool.or_eq_true, Bool.or_eq_true, hupper, hlower, hdigit]
  omega

/-- `strtol` to base 10, before the result is cut to the range of a `long`: the number and what
follows it, or `none` where no digit is converted. -/
def strtol (s : List Char) : Option (ℤ × List Char) :=
  let s := s.dropWhile isCSpace
  let negative := s.head? = some '-'
  let s := if s.head? = some '-' ∨ s.head? = some '+' then s.tail else s
  if digitsOf s = [] then none
  else
    let n : ℤ := digitsVal (digitsOf s)
    some (if negative then -n else n, afterDigits s)

/-- `tor_parse_long(s, 10, min, max, &ok, NULL)`; `none` where `ok` is 0 and the result is 0.  A
number outside the range of a `long` is outside the bounds. -/
def torParseLong (s : List Char) (min max : ℤ) : Option ℤ :=
  match strtol s with
  | some (r, []) => if r < min ∨ max < r then none else some r
  | _ => none

/-- `%ld` -/
def decimalInt (n : ℤ) : List Char := if n < 0 then '-' :: decimal n.natAbs else decimal n.natAbs

end Ator.Text
