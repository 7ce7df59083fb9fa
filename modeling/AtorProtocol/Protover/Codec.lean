import AtorProtocol.Lib.Text
import Mathlib.Data.Nat.Bits

/-!
# Protocol-version lists

`src/core/or/protover.c`: the parser of a `Link=1-5 Relay=2` list and its encoder.  A string is
the list of its characters, and a pointer into it is the suffix it points at; the end pointers
of `parse_version_range` and `parse_single_entry` are the ends of the suffixes they are given.
That loses nothing: each end pointer is at a space, at a comma or at the final NUL, and none of
the three is a digit, so `tor_parse_ulong` never reads past one.

The encoder is partial.  `trailing_zeros` is `__builtin_ctzll`, undefined at zero, and
`none` stands for running into that.
-/

namespace Ator.Protover

open Text List

/-- `proto_entry_t`: version `x` is in the entry iff bit `x` of the mask is set. -/
structure ProtoEntry where
  name : List Char
  bitmask : BitVec 64
deriving DecidableEq

/-- The largest possible protocol version. -/
def maxProtocolVersion : ℕ := 63

/-- Maximum allowed length of any single subprotocol name. -/
def maxProtocolNameLength : ℕ := 100

/-! ## Parsing -/

/-- `tor_parse_ulong(s, 10, 0, max, &ok, &next)` on a string that starts with a digit, as both
callers below check first: the number and the suffix at `next`, or `none` when `ok` is 0. -/
def torParseUlong (s : List Char) (max : ℕ) : Option (ℕ × List Char) :=
  if digitsVal (digitsOf s) ≤ max then some (digitsVal (digitsOf s), afterDigits s) else none

/-- A protocol range is `U` or `U-U`, where `U` is a number between 0 and 63. -/
def parseVersionRange (s : List Char) : Option (ℕ × ℕ) :=
  -- a range must start with a digit
  if ¬ s.head?.any Char.isDigit then none else
  match torParseUlong s maxProtocolVersion with
  | none => none
  | some (low, []) => some (low, low)
  | some (low, c :: s) =>
    if c ≠ '-' then none else
    if ¬ s.head?.any Char.isDigit then none else
    match torParseUlong s maxProtocolVersion with
    | some (high, []) => if low > high then none else some (low, high)
    | _ => none

/-- Letters, digits and hyphens only. -/
def isValidKeyword (s : List Char) : Bool := s.all fun c => c.isAlphanum || c == '-'

/-- Bits `low` through `high` inclusive. -/
def bitmaskForRange (low high : ℕ) : BitVec 64 :=
  (((BitVec.allOnes 64) <<< (63 - high)) >>> (63 - high + low)) <<< low

lemma parseVersionRange_nil : parseVersionRange [] = none := rfl

lemma beforeDelim_ne_nil_of_parse {s : List Char} {r : ℕ × ℕ}
    (h : parseVersionRange (beforeDelim ',' s) = some r) : 0 < (beforeDelim ',' s).length := by
  rcases hb : beforeDelim ',' s with _ | ⟨c, cs⟩
  · rw [hb, parseVersionRange_nil] at h
    cases h
  · simp

/-- The `while (s < end_of_entry)` loop of `parse_single_entry`.  The separator after a range is
skipped only when something follows it, so a trailing comma is read again, as an empty range. -/
def parseRanges (s : List Char) (bitmask : BitVec 64) : Option (BitVec 64) :=
  if s = [] then some bitmask else
  match _h : parseVersionRange (beforeDelim ',' s) with
  | none => none
  | some (low, high) =>
    parseRanges (if 1 < (fromDelim ',' s).length then (fromDelim ',' s).tail
      else fromDelim ',' s) (bitmask ||| bitmaskForRange low high)
termination_by s.length
decreasing_by
  have hpos := beforeDelim_ne_nil_of_parse _h
  have hlen := congrArg List.length (beforeDelim_append_fromDelim ',' s)
  rw [length_append] at hlen
  split
  · rw [length_tail]
    omega
  · omega

/-- A protocol entry has a keyword, an `=` sign, and zero or more ranges. -/
def parseSingleEntry (s : List Char) : Option ProtoEntry :=
  let name := beforeDelim '=' s
  match fromDelim '=' s with
  | [] => none
  | _ :: ranges =>
    if name = [] then none else
    if name.length > maxProtocolNameLength then none else
    if ¬ isValidKeyword name then none else
    (parseRanges ranges 0).map fun mask => { name := name, bitmask := mask }

/-- `while (*s == ' ') ++s;` -/
def skipSpaces (s : List Char) : List Char := s.dropWhile (· == ' ')

lemma skipSpaces_length_le (s : List Char) : (skipSpaces s).length ≤ s.length :=
  (dropWhile_sublist _).length_le

lemma parseSingleEntry_nil : parseSingleEntry [] = none := rfl

/-- Space-separated entries, each of which must parse. -/
def parseProtocolList (s : List Char) : Option (List ProtoEntry) :=
  if s = [] then some [] else
  match _h : parseSingleEntry (beforeDelim ' ' s) with
  | none => none
  | some entry => (parseProtocolList (skipSpaces (fromDelim ' ' s))).map (entry :: ·)
termination_by s.length
decreasing_by
  have hpos : 0 < (beforeDelim ' ' s).length := by
    rcases hb : beforeDelim ' ' s with _ | ⟨c, cs⟩
    · rw [hb, parseSingleEntry_nil] at _h
      cases _h
    · simp
  have hlen := congrArg List.length (beforeDelim_append_fromDelim ' ' s)
  have hskip := skipSpaces_length_le (fromDelim ' ' s)
  rw [length_append] at hlen
  omega

/-! ## Encoding -/

/-- `__builtin_ctzll`: the number of trailing zeros of `x`, undefined if `x` is 0. -/
def trailingZeros (x : BitVec 64) : Option ℕ := (List.range 64).find? fun i => x.getLsbD i

/-- One round of the loop of `proto_entry_encode_into` on a nonzero `mask`: how many zeros, and
then how many ones, it shifts out.  The second count is guarded by a test of `mask`, where it is
`~mask` that may be 0. -/
def nextRun (mask : BitVec 64) : Option (ℕ × ℕ) :=
  match trailingZeros mask with
  | none => none
  | some zeros =>
    match if mask >>> zeros = 0 then some 64 else trailingZeros (~~~ (mask >>> zeros)) with
    | none => none
    | some ones => some (zeros, ones)

lemma trailingZeros_eq_some {x : BitVec 64} {n : ℕ} :
    trailingZeros x = some n ↔ n < 64 ∧ x.getLsbD n = true ∧ ∀ i < n, x.getLsbD i = false := by
  rw [trailingZeros, find?_range_eq_some]
  simp only [mem_range, Bool.not_eq_eq_eq_not, Bool.not_true]
  tauto

lemma trailingZeros_eq_none {x : BitVec 64} : trailingZeros x = none ↔ x = 0 := by
  rw [trailingZeros, find?_range_eq_none]
  constructor
  · intro h
    refine BitVec.eq_of_getLsbD_eq fun i hi => ?_
    simpa using h i hi
  · rintro rfl i _
    simp

variable {mask : BitVec 64}

lemma shiftRight_zeros_ne_zero {zeros : ℕ}
    (h : trailingZeros mask = some zeros) : mask >>> zeros ≠ 0 := by
  intro h0
  have hbit : (mask >>> zeros).getLsbD 0 = mask.getLsbD zeros := by simp
  rw [h0, (trailingZeros_eq_some.mp h).2.1] at hbit
  simp at hbit

/-- A round takes a maximal run of ones. -/
lemma nextRun_spec {zeros ones : ℕ} (h : nextRun mask = some (zeros, ones)) :
    0 < ones ∧ ones < 64 ∧ zeros + ones ≤ 64 ∧ (∀ i < zeros, mask.getLsbD i = false)
      ∧ (∀ i, zeros ≤ i → i < zeros + ones → mask.getLsbD i = true)
      ∧ mask.getLsbD (zeros + ones) = false := by
  rw [nextRun] at h
  rcases hz : trailingZeros mask with _ | z
  · simp [hz] at h
  · simp only [hz, if_neg (shiftRight_zeros_ne_zero hz)] at h
    rcases ho : trailingZeros (~~~ (mask >>> z)) with _ | o
    · simp [ho] at h
    · simp only [ho, Option.some.injEq, Prod.mk.injEq] at h
      obtain ⟨rfl, rfl⟩ := h
      obtain ⟨hz64, hzbit, hzlow⟩ := trailingZeros_eq_some.mp hz
      obtain ⟨ho64, hobit, holow⟩ := trailingZeros_eq_some.mp ho
      have hones : ∀ i < o, mask.getLsbD (z + i) = true := fun i hi => by
        have := holow i hi
        simpa [show i < 64 by omega] using this
      have hstop : mask.getLsbD (z + o) = false := by
        simpa [ho64] using hobit
      have hpos : 0 < o := by
        rcases Nat.eq_zero_or_pos o with rfl | hpos
        · rw [Nat.add_zero, hzbit] at hstop
          cases hstop
        · exact hpos
      have hfit : z + o ≤ 64 := by
        by_contra hlt
        have := hones (o - 1) (by omega)
        rw [BitVec.getLsbD_of_ge _ _ (by omega)] at this
        cases this
      refine ⟨hpos, ho64, hfit, hzlow, fun i hi hi' => ?_, hstop⟩
      have := hones (i - z) (by omega)
      rwa [show z + (i - z) = i by omega] at this

lemma shiftRight_run_lt {zeros ones : ℕ} (h0 : mask ≠ 0)
    (h : nextRun mask = some (zeros, ones)) :
    (mask >>> zeros >>> ones).toNat < mask.toNat := by
  have hpos := (nextRun_spec h).1
  have hmask : 0 < mask.toNat := by
    rcases Nat.eq_zero_or_pos mask.toNat with hz | hz
    · exact absurd (BitVec.eq_of_toNat_eq (by simpa using hz)) h0
    · exact hz
  rw [BitVec.toNat_ushiftRight, BitVec.toNat_ushiftRight, ← Nat.shiftRight_add,
    Nat.shiftRight_eq_div_pow]
  exact Nat.div_lt_self hmask (Nat.one_lt_two_pow (by omega))

/-- The loop of `proto_entry_encode_into`: the text it appends for what is left of the mask after
shifting it by `shift`. -/
def encodeRanges (mask : BitVec 64) (shift : ℕ) (first : Bool) : Option (List Char) :=
  if _h0 : mask = 0 then some [] else
  match _h : nextRun mask with
  | none => none
  | some (zeros, ones) =>
    let comma := if first then [] else [',']
    let low := shift + zeros
    let chunk := if ones = 1 then comma ++ decimal low
      else comma ++ decimal low ++ '-' :: decimal (low + ones - 1)
    if ones = 64 then some chunk else
    (encodeRanges (mask >>> zeros >>> ones) (low + ones) false).map (chunk ++ ·)
termination_by mask.toNat
decreasing_by exact shiftRight_run_lt _h0 _h

/-- `Name=` and the ranges of the mask. -/
def protoEntryEncodeInto (entry : ProtoEntry) : Option (List Char) :=
  (encodeRanges entry.bitmask 0 true).map (entry.name ++ '=' :: ·)

/-- The `SMARTLIST_FOREACH` of `encode_protocol_list`, joined: `separator` is empty before the
first entry and a space before the others. -/
def encodeEntries (separator : List Char) : List ProtoEntry → Option (List Char)
  | [] => some []
  | ent :: sl =>
    match protoEntryEncodeInto ent, encodeEntries [' '] sl with
    | some chunk, some rest => some (separator ++ chunk ++ rest)
    | _, _ => none

/-- The space-separated text of a list of entries. -/
def encodeProtocolList (sl : List ProtoEntry) : Option (List Char) := encodeEntries [] sl

end Ator.Protover
