import Mathlib.Data.Int.Log
import Mathlib.Data.Rat.Floor

/-!
# Rounding to double precision

The value of an expression over `double` is the exact value rounded to a mantissa of 53 bits, ties
to even.  Only magnitudes far from overflow and underflow are meant, where that is all there is to
the format.

* `abs_toDouble_sub_le` — rounding is off by at most the `2 ^ 53`th part.
* `abs_lround_sub_le` — `lround` is off by at most a half.
* `abs_toDouble_mul_sub_le` — a product of a rounded factor.
-/

namespace Ator

/-- The nearest integer, ties to even. -/
def roundEven (x : ℚ) : ℤ :=
  if x - ⌊x⌋ < 1 / 2 then ⌊x⌋
  else if 1 / 2 < x - ⌊x⌋ then ⌊x⌋ + 1
  else if ⌊x⌋ % 2 = 0 then ⌊x⌋
  else ⌊x⌋ + 1

/-- The unit in the last of the 53 places of `x`. -/
def ulp (x : ℚ) : ℚ := 2 ^ (Int.log 2 |x| - 52)

/-- The `double` nearest to `x`. -/
def toDouble (x : ℚ) : ℚ := roundEven (x / ulp x) * ulp x

/-- `lround`: the nearest integer, ties away from zero. -/
def lround (x : ℚ) : ℤ := if 0 ≤ x then round x else -round (-x)

lemma abs_roundEven_sub_le (x : ℚ) : |roundEven x - x| ≤ 1 / 2 := by
  have hle := Int.floor_le x
  have hlt := Int.lt_floor_add_one x
  rw [roundEven, abs_le]
  split_ifs <;> constructor <;> push_cast <;> linarith

lemma abs_lround_sub_le (x : ℚ) : |lround x - x| ≤ 1 / 2 := by
  rw [lround]
  split
  · rw [abs_sub_comm]
    exact abs_sub_round x
  · have h := abs_sub_round (-x)
    rw [Int.cast_neg, show -((round (-x) : ℤ) : ℚ) - x = -x - round (-x) by ring]
    exact h

lemma ulp_pos (x : ℚ) : 0 < ulp x := zpow_pos (by norm_num) _

lemma ulp_le {x : ℚ} (hx : x ≠ 0) : ulp x ≤ |x| / 2 ^ 52 := by
  have hlog := Int.zpow_log_le_self (b := 2) Nat.one_lt_two (abs_pos.mpr hx)
  rw [ulp, zpow_sub₀ (by norm_num)]
  exact div_le_div_of_nonneg_right hlog (by norm_num)

/-- **Rounding** is off by a half of the last place. -/
theorem abs_toDouble_sub_le (x : ℚ) : |toDouble x - x| ≤ |x| / 2 ^ 53 := by
  by_cases hx : x = 0
  · subst hx
    simp [toDouble, roundEven]
  · have hpos := ulp_pos x
    have hround := abs_roundEven_sub_le (x / ulp x)
    have hulp := ulp_le hx
    calc |toDouble x - x| = |roundEven (x / ulp x) - x / ulp x| * ulp x := by
          rw [← abs_of_pos hpos, ← abs_mul, abs_of_pos hpos, sub_mul, div_mul_cancel₀ x hpos.ne',
            toDouble]
      _ ≤ 1 / 2 * ulp x := mul_le_mul_of_nonneg_right hround hpos.le
      _ ≤ |x| / 2 ^ 53 := by linarith

/-- **A product** of a rounded factor of at most 1 and an integer is rounded again: it is off by
the `2 ^ 51`th part at most. -/
theorem abs_toDouble_mul_sub_le {x b : ℚ} (hx : |x| ≤ 1) :
    |toDouble (toDouble x * b) - x * b| ≤ |b| / 2 ^ 51 := by
  have hfactor : |toDouble x - x| ≤ 1 / 2 ^ 53 :=
    (abs_toDouble_sub_le x).trans (div_le_div_of_nonneg_right hx (by norm_num))
  have hone : |toDouble x| ≤ 2 := by
    have h := abs_le.mp hfactor
    have h' := abs_le.mp hx
    rw [abs_le]
    constructor <;> linarith
  have hproduct : |toDouble x * b - x * b| ≤ |b| / 2 ^ 53 := by
    rw [← sub_mul, abs_mul, div_eq_mul_one_div, mul_comm |b|]
    exact mul_le_mul_of_nonneg_right hfactor (abs_nonneg b)
  have hround : |toDouble (toDouble x * b) - toDouble x * b| ≤ 2 * |b| / 2 ^ 53 := by
    refine (abs_toDouble_sub_le _).trans (div_le_div_of_nonneg_right ?_ (by norm_num))
    rw [abs_mul]
    exact mul_le_mul_of_nonneg_right hone (abs_nonneg b)
  have hb := abs_nonneg b
  calc |toDouble (toDouble x * b) - x * b|
      ≤ |toDouble (toDouble x * b) - toDouble x * b| + |toDouble x * b - x * b| := abs_sub_le _ _ _
    _ ≤ 2 * |b| / 2 ^ 53 + |b| / 2 ^ 53 := add_le_add hround hproduct
    _ ≤ |b| / 2 ^ 51 := by linarith

end Ator
