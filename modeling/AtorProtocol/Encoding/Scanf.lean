import AtorProtocol.Lib.Text
import Mathlib.Data.List.Induction
import Mathlib.Tactic.IntervalCases

/-!
# A small `sscanf`

`tor_sscanf` of `src/lib/string/scanf.c`, for patterns of ordinary characters, `%u` and `%c`.

* `scanUnsigned` — digits, up to a width.
* `torSscanf` — the values that are matched; their number is what the source returns.
* `torSscanf_digits` — digits that end where they should are read as they are written.
-/

namespace Ator.Text

open List

/-- A part of a pattern. -/
inductive Directive
  | lit (c : Char)
  /-- `%u`, with a width or without. -/
  | unsigned (width : Option ℕ)
  /-- `%c` -/
  | char
deriving DecidableEq

/-- What a directive stores. -/
inductive Scanned
  | num (n : ℕ)
  | chr (c : Char)
deriving DecidableEq

def maxScanfWidth : ℕ := 9999

def uintMax : ℕ := 2 ^ 32 - 1

/-- `scan_unsigned`, to base 10, with the check for `UINT_MAX` behind it. -/
def scanUnsigned (width : ℕ) (buf : List Char) : Option (ℕ × List Char) :=
  let digits := digitsOf (buf.take width)
  if digits = [] then none
  else if digitsVal digits > uintMax then none
  else some (digitsVal digits, buf.drop digits.length)

def torSscanf : List Directive → List Char → List Scanned
  | [], _ => []
  | .lit _ :: _, [] => []
  | .lit c :: pattern, d :: buf => if d = c then torSscanf pattern buf else []
  | .unsigned width :: pattern, buf =>
    match scanUnsigned (width.getD maxScanfWidth) buf with
    | none => []
    | some (n, buf) => .num n :: torSscanf pattern buf
  | .char :: _, [] => []
  | .char :: pattern, c :: buf => .chr c :: torSscanf pattern buf

/-! ## What is read back -/

variable {pattern : List Directive} {ds t : List Char} {width : Option ℕ}

/-- Digits for one directive, with `t` behind them. -/
structure FitsWidth (width : Option ℕ) (ds t : List Char) : Prop where
  digits : ∀ c ∈ ds, c.isDigit = true
  ne_nil : ds ≠ []
  length_le : ds.length ≤ width.getD maxScanfWidth
  stops : ds.length = width.getD maxScanfWidth ∨ ∀ c ∈ t.head?, c.isDigit = false
  val_le : digitsVal ds ≤ uintMax

lemma digitsOf_take (h : FitsWidth width ds t) :
    digitsOf ((ds ++ t).take (width.getD maxScanfWidth)) = ds := by
  obtain ⟨hdigits, -, hlength, hstops, -⟩ := h
  generalize width.getD maxScanfWidth = n at hlength hstops
  rw [take_append, take_of_length_le hlength, digitsOf, takeWhile_append_of_pos hdigits]
  refine (congrArg (ds ++ ·) ?_).trans (append_nil ds)
  rcases hstops with hfull | hstops
  · rw [hfull, Nat.sub_self]
    rfl
  · cases t with
    | nil => rw [take_nil]; rfl
    | cons c t =>
      cases n - ds.length with
      | zero => rfl
      | succ k => rw [take_succ_cons, takeWhile_cons_of_neg (by simp [hstops c rfl])]

lemma torSscanf_digits (h : FitsWidth width ds t) :
    torSscanf (.unsigned width :: pattern) (ds ++ t)
      = .num (digitsVal ds) :: torSscanf pattern t := by
  rw [torSscanf, scanUnsigned]
  simp only [digitsOf_take h]
  rw [if_neg h.ne_nil, if_neg (not_lt.mpr h.val_le), drop_left]

@[simp] lemma torSscanf_lit (c : Char) (t : List Char) :
    torSscanf (.lit c :: pattern) (c :: t) = torSscanf pattern t := if_pos rfl

/-! ## What was read is written again -/

lemma toNat_of_isDigit {c : Char} (h : c.isDigit) : 48 ≤ c.toNat ∧ c.toNat ≤ 57 := by
  simp only [Char.isDigit, Bool.and_eq_true, decide_eq_true_eq] at h
  exact ⟨UInt32.le_iff_toNat_le.mp h.1, UInt32.le_iff_toNat_le.mp h.2⟩

lemma digitChar_of_isDigit {c : Char} (h : c.isDigit) : Nat.digitChar (c.toNat - '0'.toNat) = c := by
  obtain ⟨hge, hle⟩ := toNat_of_isDigit h
  have hc : c = Char.ofNat c.toNat := (Char.ofNat_toNat c).symm
  generalize c.toNat = n at hc hge hle
  subst hc
  interval_cases n <;> decide

lemma digitsVal_concat (ds : List Char) (c : Char) :
    digitsVal (ds ++ [c]) = 10 * digitsVal ds + (c.toNat - '0'.toNat) := by
  rw [digitsVal, Nat.ofDigitChars_append, Nat.ofDigitChars_cons, Nat.ofDigitChars_nil]

lemma digitsVal_pos (hdigits : ∀ c ∈ ds, c.isDigit) (hne : ds ≠ []) (hzero : ds.head? ≠ some '0') :
    0 < digitsVal ds := by
  induction ds using reverseRecOn with
  | nil => exact absurd rfl hne
  | append_singleton ds c ih =>
    rw [digitsVal_concat]
    by_cases hnil : ds = []
    · subst hnil
      have hc : c ≠ '0' := fun heq => hzero (by rw [heq]; rfl)
      have hchar := digitChar_of_isDigit (hdigits c (by simp))
      have hpos : c.toNat - '0'.toNat ≠ 0 := by
        intro h
        rw [h] at hchar
        exact hc hchar.symm
      omega
    · rw [head?_append, Option.or_of_isSome (isSome_head?.mpr hnil)] at hzero
      have hpos := ih (fun d hd => hdigits d (mem_append_left [c] hd)) hnil hzero
      omega

/-- **A number is written as it was read**, when it was read without leading zeros. -/
lemma decimal_digitsVal (hdigits : ∀ c ∈ ds, c.isDigit) (hne : ds ≠ [])
    (hzero : 1 < ds.length → ds.head? ≠ some '0') : decimal (digitsVal ds) = ds := by
  induction ds using reverseRecOn with
  | nil => exact absurd rfl hne
  | append_singleton ds c ih =>
    have hc := hdigits c (by simp)
    have hchar := digitChar_of_isDigit hc
    have hlt : c.toNat - '0'.toNat < 10 := by
      have hle := (toNat_of_isDigit hc).2
      have hzero : '0'.toNat = 48 := rfl
      omega
    rw [digitsVal_concat]
    by_cases hnil : ds = []
    · subst hnil
      rw [digitsVal, Nat.ofDigitChars_nil, Nat.mul_zero, Nat.zero_add, decimal,
        Nat.toDigits_of_lt_base hlt, hchar]
      rfl
    · have hlen : 1 < (ds ++ [c]).length := by
        have := length_pos_iff.mpr hnil
        rw [length_append, length_singleton]
        omega
      have hhead := hzero hlen
      rw [head?_append, Option.or_of_isSome (isSome_head?.mpr hnil)] at hhead
      have hds : ∀ d ∈ ds, d.isDigit := fun d hd => hdigits d (mem_append_left [c] hd)
      have hpos := digitsVal_pos hds hnil hhead
      rw [decimal, ← Nat.toDigits_append_toDigits (by decide) hpos hlt, Nat.toDigits_of_lt_base hlt,
        hchar]
      exact congrArg (· ++ [c]) (ih hds hnil fun _ => hhead)

variable {buf : List Char} {r : List Scanned} {n : ℕ} {lit : Char}

lemma exists_of_torSscanf_num (h : torSscanf (.unsigned width :: pattern) buf = .num n :: r) :
    ∃ ds t, buf = ds ++ t ∧ ds ≠ [] ∧ (∀ c ∈ ds, c.isDigit) ∧
      ds.length ≤ width.getD maxScanfWidth ∧ digitsVal ds = n ∧ torSscanf pattern t = r := by
  rw [torSscanf, scanUnsigned] at h
  generalize hds : digitsOf (buf.take (width.getD maxScanfWidth)) = ds at h
  have hhead : ds <+: buf.take (width.getD maxScanfWidth) := hds ▸ takeWhile_prefix _
  have hlength := hhead.length_le
  rw [length_take] at hlength
  have hbuf : ds ++ buf.drop ds.length = buf :=
    prefix_iff_eq_append.mp (hhead.trans ( take_prefix _ _))
  have hdigits : ∀ c ∈ ds, c.isDigit := by
    rw [← hds]
    exact fun c hc => mem_takeWhile_imp hc
  split at h
  · cases h
  · next n' t hscan =>
      split_ifs at hscan with hnil
      obtain ⟨rfl, rfl⟩ := Prod.mk.inj (Option.some.inj hscan)
      obtain ⟨hn, hr⟩ := cons.inj h
      exact ⟨ds, _, hbuf.symm, hnil, hdigits, by omega, Scanned.num.inj hn, hr⟩

lemma exists_of_torSscanf_lit (h : torSscanf (.lit lit :: pattern) buf = r) (hr : r ≠ []) :
    ∃ t, buf = lit :: t ∧ torSscanf pattern t = r := by
  cases buf with
  | nil => exact absurd h.symm hr
  | cons c t =>
    rw [torSscanf] at h
    split_ifs at h with hc
    · exact ⟨t, by rw [hc], h⟩
    · exact absurd h.symm hr

lemma eq_nil_of_torSscanf_char (h : torSscanf [.char] buf = []) : buf = [] := by
  cases buf with
  | nil => rfl
  | cons c t => cases h

end Ator.Text
