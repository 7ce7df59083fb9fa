import AtorProtocol.Lib.Text
import Mathlib.Data.Fintype.Basic

/-!
# Binary to text

`src/lib/encoding/binascii.c` and the number parser of `src/lib/string/parse_int.c`.  A byte
buffer is a list of bytes, a C string is the list of its characters; `bytesOf` reads a string as
a buffer.

* `base16Encode`, `base16Decode` — upper-case hexadecimal; `bytesOf_base16Encode_injective`.
* `base64Encode`, `base64Decode` — the two accumulator loops of the source.
-/

namespace Ator

open Text List Option

/-- A byte buffer. -/
abbrev Bytes := List UInt8

/-- The bytes of a string, without the NUL. -/
def bytesOf (s : List Char) : Bytes := s.map fun c => c.toNat.toUInt8

lemma bytesOf_append (s t : List Char) : bytesOf (s ++ t) = bytesOf s ++ bytesOf t := map_append

lemma bytesOf_length (s : List Char) : (bytesOf s).length = s.length := length_map _

/-- A big-endian number: `get_uint64` after `tor_ntohll`. -/
def getUint (bs : Bytes) : ℕ := bs.foldl (fun n b => n * 256 + b.toNat) 0

/-- The `len` low bytes of a number, in network order: `set_uint64` of `tor_htonll`. -/
def setUint (len n : ℕ) : Bytes := ((List.range len).map fun i => (n >>> (8 * i)).toUInt8).reverse

/-! ## Base 16 -/

/-- `"0123456789ABCDEF"[n]` -/
def base16Digit (n : ℕ) : Char := "0123456789ABCDEF".toList.getD n '0'

def base16Encode : Bytes → List Char
  | [] => []
  | b :: src => base16Digit (b.toNat >>> 4) :: base16Digit (b.toNat &&& 0xf) :: base16Encode src

/-- `hex_decode_digit`, with `none` for -1. -/
def hexDecodeDigit (c : Char) : Option ℕ :=
  if '0' ≤ c ∧ c ≤ '9' then some (c.toNat - '0'.toNat)
  else if 'a' ≤ c ∧ c ≤ 'f' then some (c.toNat - 'a'.toNat + 10)
  else if 'A' ≤ c ∧ c ≤ 'F' then some (c.toNat - 'A'.toNat + 10)
  else none

/-- The loop of `base16_decode`, two characters at a time. -/
def base16DecodePairs : List Char → Option Bytes
  | [] => some []
  | [_] => none
  | c1 :: c2 :: src =>
    match hexDecodeDigit c1, hexDecodeDigit c2 with
    | some v1, some v2 => (base16DecodePairs src).map (((v1 <<< 4) ||| v2).toUInt8 :: ·)
    | _, _ => none

/-- `base16_decode(dest, destlen, src, srclen)`.  The caller's `srclen` may be more than the
string has; the NUL then ends the decoding with an error. -/
def base16Decode (destlen : ℕ) (src : List Char) (srclen : ℕ) : Option Bytes :=
  if srclen % 2 ≠ 0 then none else
  if destlen < srclen / 2 then none else
  if src.length < srclen then none else
  base16DecodePairs (src.take srclen)

lemma hexDecodeDigit_lt {c : Char} {x : ℕ} (h : hexDecodeDigit c = some x) : x < 16 := by
  unfold hexDecodeDigit at h
  split_ifs at h with hdigit hlower hupper
  · have h9 : c.val.toNat ≤ 57 := hdigit.2
    rw [← some.inj h]
    change c.val.toNat - 48 < 16
    omega
  · have hf : c.val.toNat ≤ 102 := hlower.2
    rw [← some.inj h]
    change c.val.toNat - 97 + 10 < 16
    omega
  · have hF : c.val.toNat ≤ 70 := hupper.2
    rw [← some.inj h]
    change c.val.toNat - 65 + 10 < 16
    omega

lemma base16Encode_length : ∀ src : Bytes, (base16Encode src).length = 2 * src.length
  | [] => rfl
  | b :: src => by
      simp only [base16Encode, length_cons, base16Encode_length src]
      omega

lemma base16DecodePairs_length : ∀ {src : List Char} {dest : Bytes},
    base16DecodePairs src = some dest → src.length = 2 * dest.length
  | [], dest, h => by
      obtain rfl := some.inj h
      rfl
  | [_], _, h => by cases h
  | c1 :: c2 :: src, dest, h => by
      rw [base16DecodePairs] at h
      split at h
      · obtain ⟨tail, htail, rfl⟩ := Option.map_eq_some_iff.mp h
        simp only [length_cons, base16DecodePairs_length htail]
        omega
      · cases h

lemma base16Decode_length {n : ℕ} {src : List Char} {dest : Bytes}
    (h : base16Decode n src (2 * n) = some dest) : dest.length = n := by
  rw [base16Decode] at h
  split_ifs at h with _ _ hlen
  have := base16DecodePairs_length h
  rw [List.length_take] at this
  omega

lemma base16Digit_injOn (m n : Fin 16)
    (h : (base16Digit m).toNat.toUInt8 = (base16Digit n).toNat.toUInt8) : m = n := by
  revert m n
  decide

lemma nibbles_injective {b c : UInt8} (hhigh : b.toNat >>> 4 = c.toNat >>> 4)
    (hlow : b.toNat &&& 0xf = c.toNat &&& 0xf) : b = c := by
  rw [show 0xf = 2 ^ 4 - 1 from rfl, Nat.and_two_pow_sub_one_eq_mod,
    Nat.and_two_pow_sub_one_eq_mod] at hlow
  refine UInt8.toNat_inj.mp ?_
  omega

lemma bytesOf_base16Encode_injective : ∀ {b c : Bytes},
    bytesOf (base16Encode b) = bytesOf (base16Encode c) → b = c
  | [], [], _ => rfl
  | [], _ :: _, h | _ :: _, [], h => by simp [base16Encode, bytesOf] at h
  | x :: b, y :: c, h => by
      simp only [base16Encode, bytesOf, map_cons, cons.injEq] at h
      obtain ⟨hhigh, hlow, htail⟩ := h
      have hx : x.toNat >>> 4 < 16 := by
        have := x.toNat_lt
        omega
      have hy : y.toNat >>> 4 < 16 := by
        have := y.toNat_lt
        omega
      have hlow16 : ∀ n : ℕ, n &&& 0xf < 16 := fun n =>
        Nat.and_lt_two_pow n (n := 4) (by omega)
      have h1 := base16Digit_injOn ⟨_, hx⟩ ⟨_, hy⟩ hhigh
      have h2 := base16Digit_injOn ⟨_, hlow16 _⟩ ⟨_, hlow16 _⟩ hlow
      rw [nibbles_injective (Fin.mk.inj h1) (Fin.mk.inj h2),
        bytesOf_base16Encode_injective (b := b) (c := c) htail]

/-! ## Base 32 -/

/-- `BASE32_CHARS[u]` -/
def base32Char (u : ℕ) : Char := "abcdefghijklmnopqrstuvwxyz234567".toList.getD u 'a'

/-- `base32_encode`: one character for every five bits. -/
def base32Encode (src : Bytes) : List Char :=
  (List.range ((src.length * 8 + 4) / 5)).map fun i =>
    let bit := i * 5
    let idx := bit / 8
    let v := ((src.getD idx 0).toNat <<< 8) + (src.getD (idx + 1) 0).toNat
    base32Char ((v >>> (11 - bit % 8)) &&& 0x1f)

/-! ## Base 64 -/

def base64EncodeTable (v : ℕ) : Char :=
  "ABCDEFGHIJKLMNOPQRSTUVWXYZabcdefghijklmnopqrstuvwxyz0123456789+/".toList.getD v 'A'

/-- `ENCODE_N(idx)` -/
def encodeN (n idx : ℕ) : Char := base64EncodeTable ((n >>> ((3 - idx) * 6)) &&& 0x3f)

/-- The loop of `base64_encode` without `BASE64_ENCODE_MULTILINE`: every byte adds 8 bits to `n`,
and every third one flushes four characters.  The tail is the `switch (n_idx)`. -/
def base64EncodeLoop : Bytes → ℕ → ℕ → List Char
  | [], n, nIdx =>
    match nIdx with
    | 1 => [encodeN (n <<< 4) 2, encodeN (n <<< 4) 3, '=', '=']
    | 2 => [encodeN (n <<< 2) 1, encodeN (n <<< 2) 2, encodeN (n <<< 2) 3, '=']
    | _ => []
  | b :: src, n, nIdx =>
    let n := (n <<< 8) ||| b.toNat
    if nIdx + 1 = 3 then
      encodeN n 0 :: encodeN n 1 :: encodeN n 2 :: encodeN n 3 :: base64EncodeLoop src 0 0
    else base64EncodeLoop src n (nIdx + 1)

/-- `base64_encode(dest, destlen, src, srclen, 0)` into a buffer that is large enough, as every
buffer of the callers modelled here is. -/
def base64Encode (src : Bytes) : List Char := base64EncodeLoop src 0 0

lemma encodeN_ne_zero (n idx : ℕ) : (encodeN n idx).toNat.toUInt8 ≠ 0 := by
  have htable : ∀ v : Fin 64, (base64EncodeTable v).toNat.toUInt8 ≠ 0 := by decide +kernel
  exact htable ⟨_, Nat.and_lt_two_pow (n := 6) _ (by omega)⟩

/-- An entry of `base64_decode_table`. -/
inductive Base64Class where
  | invalid
  | space
  | pad
  | value (v : ℕ)
deriving DecidableEq

/-- `base64_decode_table[c]` -/
def base64DecodeTable (c : Char) : Base64Class :=
  if c = '\t' ∨ c = '\n' ∨ c.toNat = 0x0b ∨ c = '\r' ∨ c = ' ' then .space
  else if c = '=' then .pad
  else if c = '+' then .value 62
  else if c = '/' then .value 63
  else if '0' ≤ c ∧ c ≤ '9' then .value (c.toNat - '0'.toNat + 52)
  else if 'A' ≤ c ∧ c ≤ 'Z' then .value (c.toNat - 'A'.toNat)
  else if 'a' ≤ c ∧ c ≤ 'z' then .value (c.toNat - 'a'.toNat + 26)
  else .invalid

/-- What follows `end_of_loop` in `base64_decode`: the leftover bits. -/
def base64DecodeEnd (destlen n nIdx : ℕ) (dest : Bytes) : Option Bytes :=
  match nIdx with
  | 1 => none
  | 2 => if destlen < dest.length + 1 then none else some (dest ++ [(n >>> 4).toUInt8])
  | 3 =>
    if destlen < dest.length + 2 then none
    else some (dest ++ [(n >>> 10).toUInt8, (n >>> 2).toUInt8])
  | _ => some dest

/-- The loop of `base64_decode`: every character adds 0 or 6 bits to `n`, and every fourth six
flush three bytes. -/
def base64DecodeLoop (destlen : ℕ) : List Char → ℕ → ℕ → Bytes → Option Bytes
  | [], n, nIdx, dest => base64DecodeEnd destlen n nIdx dest
  | c :: src, n, nIdx, dest =>
    match base64DecodeTable c with
    | .invalid => none
    | .space => base64DecodeLoop destlen src n nIdx dest
    | .pad => base64DecodeEnd destlen n nIdx dest
    | .value v =>
      let n := (n <<< 6) ||| v
      if nIdx + 1 = 4 then
        if destlen < dest.length + 3 then none
        else base64DecodeLoop destlen src 0 0
          (dest ++ [(n >>> 16).toUInt8, (n >>> 8).toUInt8, n.toUInt8])
      else base64DecodeLoop destlen src n (nIdx + 1) dest

/-- `base64_decode(dest, destlen, src, srclen)`, with `none` for -1. -/
def base64Decode (destlen : ℕ) (src : List Char) : Option Bytes :=
  base64DecodeLoop destlen src 0 0 []

def base64EncodeNopad (src : Bytes) : List Char :=
  (base64Encode src).filter fun c => c ≠ '=' ∧ c ≠ '\n'

/-! ### Reading back what is encoded -/

lemma base64DecodeTable_encodeTable (v : Fin 64) :
    base64DecodeTable (base64EncodeTable v) = .value v ∧ base64EncodeTable v ≠ '='
      ∧ base64EncodeTable v ≠ '\n' := by
  revert v
  decide +kernel

/-- The six bits that `ENCODE_N(idx)` writes. -/
def sextet (n idx : ℕ) : ℕ := n / 2 ^ ((3 - idx) * 6) % 64

lemma encodeN_eq (n idx : ℕ) : encodeN n idx = base64EncodeTable (sextet n idx) := by
  rw [encodeN, show 0x3f = 2 ^ 6 - 1 from rfl, Nat.and_two_pow_sub_one_eq_mod,
    Nat.shiftRight_eq_div_pow]
  rfl

lemma sextet_lt (n idx : ℕ) : sextet n idx < 64 := Nat.mod_lt _ (by omega)

lemma base64DecodeTable_encodeN (n idx : ℕ) :
    base64DecodeTable (encodeN n idx) = .value (sextet n idx) := by
  rw [encodeN_eq]
  exact (base64DecodeTable_encodeTable ⟨_, sextet_lt n idx⟩).1

lemma encodeN_not_pad (n idx : ℕ) : encodeN n idx ≠ '=' ∧ encodeN n idx ≠ '\n' := by
  rw [encodeN_eq]
  exact (base64DecodeTable_encodeTable ⟨_, sextet_lt n idx⟩).2

lemma shiftLeft_or (a : ℕ) {b k : ℕ} (h : b < 2 ^ k) : (a <<< k) ||| b = a * 2 ^ k + b := by
  rw [← Nat.shiftLeft_add_eq_or_of_lt h, Nat.shiftLeft_eq]

lemma toUInt8_eq {n : ℕ} {b : UInt8} (h : n % 256 = b.toNat) : n.toUInt8 = b := by
  refine UInt8.toNat_inj.mp ?_
  rw [← h]
  rfl

lemma base64EncodeLoop_group (b c d : UInt8) (src : Bytes) :
    base64EncodeLoop (b :: c :: d :: src) 0 0
      = (List.range 4).map (encodeN (b.toNat * 2 ^ 16 + c.toNat * 2 ^ 8 + d.toNat))
        ++ base64EncodeLoop src 0 0 := by
  have hb := b.toNat_lt
  have hc := c.toNat_lt
  have hd := d.toNat_lt
  have hgroup : ((((0 <<< 8) ||| b.toNat) <<< 8 ||| c.toNat) <<< 8 ||| d.toNat)
      = b.toNat * 2 ^ 16 + c.toNat * 2 ^ 8 + d.toNat := by
    rw [shiftLeft_or _ (by omega), shiftLeft_or _ (by omega), shiftLeft_or _ (by omega)]
    omega
  rw [← hgroup]
  rfl

lemma base64EncodeLoop_two (b c : UInt8) : base64EncodeLoop [b, c] 0 0
    = [1, 2, 3].map (encodeN ((b.toNat * 2 ^ 8 + c.toNat) * 4)) ++ ['='] := by
  have hb := b.toNat_lt
  have hc := c.toNat_lt
  have hgroup : ((((0 <<< 8) ||| b.toNat) <<< 8 ||| c.toNat) <<< 2)
      = (b.toNat * 2 ^ 8 + c.toNat) * 4 := by
    rw [shiftLeft_or _ (by omega), shiftLeft_or _ (by omega), Nat.shiftLeft_eq]
    omega
  rw [← hgroup]
  rfl

lemma base64EncodeLoop_one (b : UInt8) : base64EncodeLoop [b] 0 0
    = [2, 3].map (encodeN (b.toNat * 16)) ++ ['=', '='] := by
  have hb := b.toNat_lt
  have hgroup : ((0 <<< 8) ||| b.toNat) <<< 4 = b.toNat * 16 := by
    rw [shiftLeft_or _ (by omega), Nat.shiftLeft_eq]
    omega
  rw [← hgroup]
  rfl

lemma filter_map_encodeN (n : ℕ) (idxs : List ℕ) :
    (idxs.map (encodeN n)).filter (fun c => c ≠ '=' ∧ c ≠ '\n') = idxs.map (encodeN n) := by
  refine filter_eq_self.mpr fun c hc => ?_
  obtain ⟨idx, -, rfl⟩ := List.mem_map.mp hc
  exact decide_eq_true (encodeN_not_pad n idx)

lemma base64EncodeNopad_group (b c d : UInt8) (src : Bytes) :
    base64EncodeNopad (b :: c :: d :: src)
      = (List.range 4).map (encodeN (b.toNat * 2 ^ 16 + c.toNat * 2 ^ 8 + d.toNat))
        ++ base64EncodeNopad src := by
  rw [base64EncodeNopad, base64Encode, base64EncodeLoop_group, filter_append, filter_map_encodeN]
  rfl

lemma base64EncodeNopad_two (b c : UInt8) : base64EncodeNopad [b, c]
    = [1, 2, 3].map (encodeN ((b.toNat * 2 ^ 8 + c.toNat) * 4)) := by
  rw [base64EncodeNopad, base64Encode, base64EncodeLoop_two, filter_append, filter_map_encodeN]
  rfl

lemma base64EncodeNopad_one (b : UInt8) : base64EncodeNopad [b]
    = [2, 3].map (encodeN (b.toNat * 16)) := by
  rw [base64EncodeNopad, base64Encode, base64EncodeLoop_one, filter_append, filter_map_encodeN]
  rfl

lemma base64EncodeNopad_length : ∀ src : Bytes,
    (base64EncodeNopad src).length = (4 * src.length + 2) / 3
  | [] => rfl
  | [b] => by simp [base64EncodeNopad_one]
  | [b, c] => by simp [base64EncodeNopad_two]
  | b :: c :: d :: src => by
      rw [base64EncodeNopad_group, length_append, length_map, length_range,
        base64EncodeNopad_length src]
      simp only [length_cons]
      omega

lemma exists_of_mem_base64EncodeNopad : ∀ {src : Bytes} {ch : Char},
    ch ∈ base64EncodeNopad src → ∃ v : Fin 64, ch = base64EncodeTable v
  | [], _, h => by cases h
  | [b], _, h => by
      rw [base64EncodeNopad_one] at h
      obtain ⟨idx, -, rfl⟩ := List.mem_map.mp h
      exact ⟨⟨_, sextet_lt _ idx⟩, encodeN_eq _ _⟩
  | [b, c], _, h => by
      rw [base64EncodeNopad_two] at h
      obtain ⟨idx, -, rfl⟩ := List.mem_map.mp h
      exact ⟨⟨_, sextet_lt _ idx⟩, encodeN_eq _ _⟩
  | b :: c :: d :: src, _, h => by
      rw [base64EncodeNopad_group] at h
      rcases mem_append.mp h with h | h
      · obtain ⟨idx, -, rfl⟩ := List.mem_map.mp h
        exact ⟨⟨_, sextet_lt _ idx⟩, encodeN_eq _ _⟩
      · exact exists_of_mem_base64EncodeNopad h

variable {destlen : ℕ} {dest : Bytes}

lemma base64DecodeLoop_encodeN (n idx acc nIdx : ℕ) (src : List Char) (h : nIdx + 1 ≠ 4) :
    base64DecodeLoop destlen (encodeN n idx :: src) acc nIdx dest
      = base64DecodeLoop destlen src (acc * 64 + sextet n idx) (nIdx + 1) dest := by
  rw [base64DecodeLoop, base64DecodeTable_encodeN]
  simp only
  rw [if_neg h, shiftLeft_or (k := 6) acc (sextet_lt n idx)]
  norm_num

lemma base64DecodeLoop_group {n : ℕ} (hn : n < 2 ^ 24) (src : List Char)
    (hdest : dest.length + 3 ≤ destlen) :
    base64DecodeLoop destlen ((List.range 4).map (encodeN n) ++ src) 0 0 dest
      = base64DecodeLoop destlen src 0 0
        (dest ++ [(n / 2 ^ 16).toUInt8, (n / 2 ^ 8).toUInt8, n.toUInt8]) := by
  change base64DecodeLoop destlen (encodeN n 0 :: encodeN n 1 :: encodeN n 2 :: encodeN n 3 :: src)
    0 0 dest = _
  rw [base64DecodeLoop_encodeN _ _ _ _ _ (by omega), base64DecodeLoop_encodeN _ _ _ _ _ (by omega),
    base64DecodeLoop_encodeN _ _ _ _ _ (by omega), base64DecodeLoop, base64DecodeTable_encodeN]
  have hsum : ((((0 * 64 + sextet n 0) * 64 + sextet n 1) * 64 + sextet n 2) <<< 6) ||| sextet n 3
      = n := by
    rw [shiftLeft_or _ (sextet_lt n 3)]
    simp only [sextet]
    omega
  simp only [hsum, if_true]
  rw [if_neg (by omega), Nat.shiftRight_eq_div_pow, Nat.shiftRight_eq_div_pow]

/-- **Reading back** what `base64_encode_nopad` writes. -/
lemma base64DecodeLoop_encodeNopad : ∀ {src dest : Bytes}, dest.length + src.length ≤ destlen →
    base64DecodeLoop destlen (base64EncodeNopad src) 0 0 dest = some (dest ++ src)
  | [], dest, _ => by rw [append_nil]; rfl
  | [b], dest, h => by
      have hb := b.toNat_lt
      simp only [length_cons, length_nil] at h
      rw [base64EncodeNopad_one]
      simp only [map_cons, map_nil]
      rw [base64DecodeLoop_encodeN _ _ _ _ _ (by omega),
        base64DecodeLoop_encodeN _ _ _ _ _ (by omega), base64DecodeLoop, base64DecodeEnd,
        if_neg (by omega), toUInt8_eq]
      simp only [sextet]
      omega
  | [b, c], dest, h => by
      have hb := b.toNat_lt
      have hc := c.toNat_lt
      simp only [length_cons, length_nil] at h
      rw [base64EncodeNopad_two]
      simp only [map_cons, map_nil]
      rw [base64DecodeLoop_encodeN _ _ _ _ _ (by omega),
        base64DecodeLoop_encodeN _ _ _ _ _ (by omega),
        base64DecodeLoop_encodeN _ _ _ _ _ (by omega), base64DecodeLoop, base64DecodeEnd,
        if_neg (by omega), toUInt8_eq (b := b), toUInt8_eq (b := c)]
      · rw [Nat.shiftRight_eq_div_pow]
        simp only [sextet]
        omega
      · rw [Nat.shiftRight_eq_div_pow]
        simp only [sextet]
        omega
  | b :: c :: d :: src, dest, h => by
      have hb := b.toNat_lt
      have hc := c.toNat_lt
      have hd := d.toNat_lt
      simp only [length_cons] at h
      rw [base64EncodeNopad_group, base64DecodeLoop_group (by omega) _ (by omega),
        toUInt8_eq (b := b) (by omega), toUInt8_eq (b := c) (by omega),
        toUInt8_eq (b := d) (by omega),
        base64DecodeLoop_encodeNopad (by simp only [length_append, length_cons]; simp; omega),
        append_assoc]
      rfl

theorem base64Decode_encodeNopad {src : Bytes} (h : src.length ≤ destlen) :
    base64Decode destlen (base64EncodeNopad src) = some src :=
  base64DecodeLoop_encodeNopad (by simpa using h)

example : (base64Decode 5 (base64Encode [1, 2, 3, 4, 255])) = some [1, 2, 3, 4, 255] := by decide

/-! ## Numbers -/

/-- `isspace` in the C locale. -/
def isSpaceChar (c : Char) : Bool := c == ' ' || (9 ≤ c.toNat && c.toNat ≤ 13)

/-- `strtoul(s, &endptr, 10)`: the value and the suffix at `endptr`, or `none` on `ERANGE`.  A
minus sign negates in `unsigned long`. -/
def strtoul (s : List Char) : Option (ℕ × List Char) :=
  let body := s.dropWhile isSpaceChar
  let (negative, digits) := match body with
    | '-' :: t => (true, t)
    | '+' :: t => (false, t)
    | t => (false, t)
  if digitsOf digits = [] then some (0, s) else
  let v := digitsVal (digitsOf digits)
  if 2 ^ 64 ≤ v then none
  else some (if negative then (2 ^ 64 - v) % 2 ^ 64 else v, afterDigits digits)

/-- `tor_parse_ulong(s, 10, min, max, NULL, NULL)`: the whole string, and 0 on every error. -/
def torParseUlongAll (s : List Char) (min max : ℕ) : ℕ :=
  match strtoul s with
  | none => 0
  | some (r, endptr) =>
    if endptr = s then 0
    else if endptr ≠ [] then 0
    else if max < min then 0
    else if r < min ∨ r > max then 0
    else r

end Ator
