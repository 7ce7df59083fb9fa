import AtorProtocol.Encoding.Binascii
import Mathlib.Tactic.IntervalCases

/-!
# Encoders and decoders with their buffers

`src/lib/encoding/binascii.c` once more, now with the sizes that the encoders ask for and the
buffers that the decoders write to.  `size_t` has 64 bits.

* `base16EncodeInto`, `base32EncodeInto`, `base64EncodeInto`, `base64EncodeNopadInto` — the text, if
  the destination is large enough for it.
* `base16DecodeInto`, `base32DecodeInto`, `base64DecodeInto` — the destination after the call, and
  the value returned.
* `codecs_undone` — what is encoded is decoded into a buffer of the size that it had.
-/

namespace Ator.Binascii

open Text List Option

def sizeTCeiling : ℕ := 2 ^ 63 - 1 - 16

def intMax : ℕ := 2 ^ 31 - 1

/-! ## Sizes -/

/-- `CEIL_DIV(a, b)` -/
def ceilDiv (a b : ℕ) : ℕ := (a + (b - 1)) / b

/-- `BASE16_BUFSIZE(n)` -/
def base16Bufsize (n : ℕ) : ℕ := n * 2 + 1

/-- `BASE32_NOPAD_BUFSIZE(n)` -/
def base32NopadBufsize (n : ℕ) : ℕ := ceilDiv (n * 8) 5 + 1

/-- `BASE64_LEN(n)` -/
def base64Len (n : ℕ) : ℕ := ceilDiv n 3 * 4

/-- `BASE64_NOPAD_LEN(n)` -/
def base64NopadLen (n : ℕ) : ℕ := ceilDiv (n * 4) 3

/-- `base32_encoded_size`, with the NUL; `none` where an assertion fails. -/
def base32EncodedSize (srclen : ℕ) : Option ℕ :=
  let enclen := base32NopadBufsize srclen
  if srclen < sizeTCeiling / 8 ∧ enclen < intMax ∧ enclen > srclen then some enclen else none

def base64OpensslLinelen : ℕ := 64

/-- `base64_encode_size`, without the NUL; `none` where an assertion fails. -/
def base64EncodeSize (srclen : ℕ) (multiline : Bool) : Option ℕ :=
  let enclen := base64Len srclen
  let enclen := if multiline then enclen + ceilDiv enclen base64OpensslLinelen else enclen
  if srclen < intMax ∧ ceilDiv srclen 3 < intMax / 4 ∧ enclen < intMax
    ∧ (enclen = 0 ∨ enclen > srclen) then some enclen
  else none

/-! ## Encoders -/

/-- `base16_encode` -/
def base16EncodeInto (destlen : ℕ) (src : Bytes) : Option (List Char) :=
  if src.length < sizeTCeiling / 2 - 1 ∧ destlen ≥ base16Bufsize src.length
    ∧ destlen < sizeTCeiling then some (base16Encode src)
  else none

/-- `base32_encode` -/
def base32EncodeInto (destlen : ℕ) (src : Bytes) : Option (List Char) :=
  match base32EncodedSize src.length with
  | some enclen => if enclen ≤ destlen ∧ destlen < sizeTCeiling then some (base32Encode src) else none
  | none => none

/-- What `ENCODE_CHAR` writes for each of some characters, and the newline at the end. -/
def encodeChars (multiline : Bool) : ℕ → List Char → List Char
  | linelen, [] => if multiline ∧ linelen ≠ 0 then ['\n'] else []
  | linelen, ch :: chs =>
    if multiline then
      if (linelen + 1) % base64OpensslLinelen = 0 then ch :: '\n' :: encodeChars multiline 0 chs
      else ch :: encodeChars multiline (linelen + 1) chs
    else ch :: encodeChars multiline linelen chs

/-- `base64_encode` -/
def base64EncodeInto (destlen : ℕ) (src : Bytes) (multiline : Bool) : Option (List Char) :=
  match base64EncodeSize src.length multiline with
  | none => none
  | some enclen =>
    if destlen < enclen + 1 ∨ destlen > sizeTCeiling ∨ enclen > intMax then none
    else
      let dest := encodeChars multiline 0 (base64Encode src)
      -- the assertion behind the last newline
      if dest.length = enclen then some dest else none

/-- `base64_encode_nopad` -/
def base64EncodeNopadInto (destlen : ℕ) (src : Bytes) : Option (List Char) :=
  (base64EncodeInto destlen src false).map fun dest => dest.filter fun c => c ≠ '=' ∧ c ≠ '\n'

/-! ## Decoders -/

/-- Where a decoder may stop without a value: at an assertion, or where it reads or writes outside
of a buffer. -/
inductive Stop where
  | assertion
  | outside
deriving DecidableEq

/-- The destination and the value returned. -/
abbrev Decoded := Except Stop (Bytes × ℤ)

/-- `dest[i] = b` -/
def writeAt (dest : Bytes) (i : ℕ) (b : UInt8) : Except Stop Bytes :=
  if i < dest.length then .ok (dest.set i b) else .error .outside

/-- `memset(dest, 0, destlen)` -/
def zeroed (dest : Bytes) : Bytes := List.replicate dest.length 0

/-- The loop of `base16_decode`, and its last assertion. -/
def base16DecodeLoop : List Char → Bytes → ℕ → Decoded
  | [], dest, di => if di ≤ dest.length then .ok (dest, di) else .error .assertion
  | [_], _, _ => .error .outside
  | c1 :: c2 :: src, dest, di =>
    match hexDecodeDigit c1, hexDecodeDigit c2 with
    | some v1, some v2 =>
      match writeAt dest di ((v1 <<< 4) ||| v2).toUInt8 with
      | .ok dest => base16DecodeLoop src dest (di + 1)
      | .error stop => .error stop
    | _, _ => .ok (dest, -1)

/-- `base16_decode` -/
def base16DecodeInto (dest : Bytes) (src : List Char) : Decoded :=
  if src.length % 2 ≠ 0 then .ok (dest, -1)
  else if dest.length < src.length / 2 ∨ dest.length > intMax then .ok (dest, -1)
  else base16DecodeLoop src (zeroed dest) 0

/-- The 5-bit value of a character; `none` for an illegal one. -/
def base32Value (c : Char) : Option ℕ :=
  if 0x60 < c.toNat ∧ c.toNat < 0x7b then some (c.toNat - 0x61)
  else if 0x31 < c.toNat ∧ c.toNat < 0x38 then some (c.toNat - 0x18)
  else if 0x40 < c.toNat ∧ c.toNat < 0x5b then some (c.toNat - 0x41)
  else none

/-- The byte at a bit, in five possible cases; `none` where `tmp` is too short. -/
def base32Byte (tmp : List ℕ) (bit : ℕ) : Option UInt8 := do
  let a ← tmp[bit / 5]?
  let b ← tmp[bit / 5 + 1]?
  match bit % 40 with
  | 0 => some (a <<< 3 + b >>> 2).toUInt8
  | 8 => do
    let c ← tmp[bit / 5 + 2]?
    some (a <<< 6 + b <<< 1 + c >>> 4).toUInt8
  | 16 => some (a <<< 4 + b >>> 1).toUInt8
  | 24 => do
    let c ← tmp[bit / 5 + 2]?
    some (a <<< 7 + b <<< 2 + c >>> 3).toUInt8
  | _ => some (a <<< 5 + b).toUInt8

/-- The loop of `base32_decode`, over the bytes that are left. -/
def base32DecodeLoop (tmp : List ℕ) : (bytes : ℕ) → Bytes → UInt32 → ℕ → Decoded
  | 0, dest, i, _ => .ok (dest, i.toInt32.toInt)
  | bytes + 1, dest, i, bit =>
    match base32Byte tmp bit with
    | none => .error .outside
    | some b =>
      match writeAt dest i.toNat b with
      | .ok dest => base32DecodeLoop tmp bytes dest (i + 1) (bit + 8)
      | .error stop => .error stop

/-- `base32_decode` -/
def base32DecodeInto (dest : Bytes) (src : List Char) : Decoded :=
  let bytes := src.length * 5 / 8
  if src.length < sizeTCeiling / 5 ∧ bytes ≤ dest.length ∧ dest.length < sizeTCeiling then
    match src.mapM base32Value with
    | none => .ok (zeroed dest, -1)
    | some tmp => base32DecodeLoop tmp bytes (zeroed dest) 0 0
  else .error .assertion

/-- Writes, one after the other. -/
def writeAll (dest : Bytes) (di : ℕ) : List UInt8 → Except Stop Bytes
  | [] => .ok dest
  | b :: bs =>
    match writeAt dest di b with
    | .ok dest => writeAll dest (di + 1) bs
    | .error stop => .error stop

/-- The last bytes of `base64_decode`, and its last assertion. -/
def base64DecodeFinish (dest : Bytes) (di : ℕ) (bs : List UInt8) : Decoded :=
  match writeAll dest di bs with
  | .ok dest =>
    if di + bs.length ≤ dest.length then .ok (dest, (di + bs.length : ℕ)) else .error .assertion
  | .error stop => .error stop

/-- The leftover bits at the end of `base64_decode`. -/
def base64DecodeTail (dest : Bytes) (di n nIdx : ℕ) : Decoded :=
  match nIdx with
  | 1 => .ok (dest, -1)
  | 2 =>
    if dest.length < 1 ∨ di > dest.length - 1 then .ok (dest, -1)
    else base64DecodeFinish dest di [(n >>> 4).toUInt8]
  | 3 =>
    if dest.length < 2 ∨ di > dest.length - 2 then .ok (dest, -1)
    else base64DecodeFinish dest di [(n >>> 10).toUInt8, (n >>> 2).toUInt8]
  | _ => base64DecodeFinish dest di []

/-- The loop of `base64_decode`. -/
def base64DecodeIntoLoop : List Char → Bytes → ℕ → ℕ → ℕ → Decoded
  | [], dest, di, n, nIdx => base64DecodeTail dest di n nIdx
  | c :: src, dest, di, n, nIdx =>
    match base64DecodeTable c with
    | .invalid => .ok (dest, -1)
    | .space => base64DecodeIntoLoop src dest di n nIdx
    | .pad => base64DecodeTail dest di n nIdx
    | .value v =>
      let n := (n <<< 6) ||| v
      if nIdx + 1 = 4 then
        if dest.length < 3 ∨ di > dest.length - 3 then .ok (dest, -1)
        else
          match writeAll dest di [(n >>> 16).toUInt8, (n >>> 8).toUInt8, n.toUInt8] with
          | .ok dest => base64DecodeIntoLoop src dest (di + 3) 0 0
          | .error stop => .error stop
      else base64DecodeIntoLoop src dest di n (nIdx + 1)

/-- `base64_decode` -/
def base64DecodeInto (dest : Bytes) (src : List Char) : Decoded :=
  if dest.length > intMax then .ok (dest, -1)
  else base64DecodeIntoLoop src (zeroed dest) 0 0 0

/-! ## Buffers -/

variable {dest out : Bytes} {destlen di i n nIdx : ℕ} {b : UInt8} {bs : List UInt8}
  {src : List Char}

/-- A buffer that is filled from its start. -/
def padded (destlen : ℕ) (out : Bytes) : Bytes := out ++ List.replicate (destlen - out.length) 0

lemma length_padded (h : out.length ≤ destlen) : (padded destlen out).length = destlen := by
  rw [padded, length_append, length_replicate]
  omega

@[simp] lemma padded_length (out : Bytes) : padded out.length out = out := by simp [padded]

lemma zeroed_eq (dest : Bytes) : zeroed dest = padded dest.length [] := rfl

@[simp] lemma length_zeroed (dest : Bytes) : (zeroed dest).length = dest.length := length_replicate

lemma writeAt_of_lt (h : i < dest.length) : writeAt dest i b = .ok (dest.set i b) := if_pos h

lemma writeAt_padded (h : out.length < destlen) :
    writeAt (padded destlen out) out.length b = .ok (padded destlen (out ++ [b])) := by
  rw [writeAt_of_lt (by rw [length_padded h.le]; exact h)]
  obtain ⟨k, hk⟩ : ∃ k, destlen - out.length = k + 1 := ⟨destlen - out.length - 1, by omega⟩
  have hk' : destlen - (out ++ [b]).length = k := by
    rw [length_append, length_singleton]
    omega
  rw [padded, padded, hk, hk', replicate_succ, set_append_right _ _ le_rfl, Nat.sub_self,
    set_cons_zero, append_assoc, singleton_append]

lemma writeAll_of_le (h : di + bs.length ≤ dest.length) :
    ∃ dest', writeAll dest di bs = .ok dest' ∧ dest'.length = dest.length := by
  induction bs generalizing dest di with
  | nil => exact ⟨dest, rfl, rfl⟩
  | cons b bs ih =>
    rw [length_cons] at h
    rw [writeAll, writeAt_of_lt (by omega)]
    obtain ⟨dest', hwrite, hlen⟩ := @ih (dest.set di b) (di + 1)
      (by rw [length_set]; omega)
    exact ⟨dest', hwrite, hlen.trans length_set⟩

lemma writeAll_padded (h : out.length + bs.length ≤ destlen) :
    writeAll (padded destlen out) out.length bs = .ok (padded destlen (out ++ bs)) := by
  induction bs generalizing out with
  | nil => rw [append_nil]; rfl
  | cons b bs ih =>
    rw [length_cons] at h
    rw [writeAll, writeAt_padded (by omega)]
    have hih := @ih (out ++ [b]) (by rw [length_append, length_singleton]; omega)
    rw [length_append, length_singleton, append_assoc, singleton_append] at hih
    exact hih

/-- A decoder that returns, and leaves the size of the buffer as it is. -/
def Contained (size : ℕ) (r : Decoded) : Prop := ∃ dest n, r = .ok (dest, n) ∧ dest.length = size

/-! ## Base 16 -/

lemma base16DecodeLoop_contained (heven : src.length % 2 = 0)
    (h : di + src.length / 2 ≤ dest.length) :
    Contained dest.length (base16DecodeLoop src dest di) := by
  fun_induction base16DecodeLoop src dest di with
  | case1 dest di hle => exact ⟨dest, di, rfl, rfl⟩
  | case2 dest di hle => simp at h; omega
  | case3 => simp at heven
  | case4 c1 c2 src dest di v1 v2 hv1 hv2 dest' hwrite ih =>
    simp only [length_cons] at heven h
    rw [writeAt_of_lt (by omega)] at hwrite
    obtain rfl := Except.ok.inj hwrite
    rw [length_set] at ih
    exact ih (by omega) (by omega)
  | case5 c1 c2 src dest di v1 v2 hv1 hv2 stop hwrite =>
    simp only [length_cons] at h
    rw [writeAt_of_lt (by omega)] at hwrite
    cases hwrite
  | case6 c1 c2 src dest di => exact ⟨dest, -1, rfl, rfl⟩

lemma base16DecodeInto_contained (dest : Bytes) (src : List Char) :
    Contained dest.length (base16DecodeInto dest src) := by
  rw [base16DecodeInto]
  split_ifs with hodd hlen
  · exact ⟨dest, -1, rfl, rfl⟩
  · exact ⟨dest, -1, rfl, rfl⟩
  · have hloop : Contained (zeroed dest).length (base16DecodeLoop src (zeroed dest) 0) :=
      base16DecodeLoop_contained (by simpa using hodd) (by rw [length_zeroed]; omega)
    rwa [length_zeroed] at hloop

lemma hexDecodeDigit_base16Digit (v : Fin 16) : hexDecodeDigit (base16Digit v) = some v.val := by
  revert v
  decide

lemma hexDecodeDigit_nibbles (b : UInt8) :
    hexDecodeDigit (base16Digit (b.toNat >>> 4)) = some (b.toNat >>> 4)
      ∧ hexDecodeDigit (base16Digit (b.toNat &&& 0xf)) = some (b.toNat &&& 0xf) := by
  have hb := b.toNat_lt
  exact ⟨hexDecodeDigit_base16Digit ⟨b.toNat >>> 4, by rw [Nat.shiftRight_eq_div_pow]; omega⟩,
    hexDecodeDigit_base16Digit ⟨b.toNat &&& 0xf, Nat.and_lt_two_pow (n := 4) _ (by omega)⟩⟩

lemma toUInt8_nibbles (b : UInt8) : (((b.toNat >>> 4) <<< 4) ||| (b.toNat &&& 0xf)).toUInt8 = b := by
  have hb := b.toNat_lt
  refine toUInt8_eq ?_
  rw [shiftLeft_or _ (Nat.and_lt_two_pow (n := 4) _ (by omega)), show 0xf = 2 ^ 4 - 1 from rfl,
    Nat.and_two_pow_sub_one_eq_mod, Nat.shiftRight_eq_div_pow]
  omega

lemma base16DecodePairs_encode : ∀ b : Bytes, base16DecodePairs (base16Encode b) = some b
  | [] => rfl
  | v :: b => by
      obtain ⟨hhigh, hlow⟩ := hexDecodeDigit_nibbles v
      rw [base16Encode, base16DecodePairs, hhigh, hlow]
      simp only [base16DecodePairs_encode b, map_some, toUInt8_nibbles]

variable {x : Bytes}

lemma base16DecodeLoop_encode (h : out.length + x.length ≤ destlen) :
    base16DecodeLoop (base16Encode x) (padded destlen out) out.length
      = .ok (padded destlen (out ++ x), (out.length + x.length : ℕ)) := by
  induction x generalizing out with
  | nil =>
    rw [base16Encode, base16DecodeLoop, length_padded (by simpa using h), if_pos (by simpa using h)]
    simp
  | cons b x ih =>
    rw [length_cons] at h
    obtain ⟨hhigh, hlow⟩ := hexDecodeDigit_nibbles b
    rw [base16Encode, base16DecodeLoop, hhigh, hlow]
    dsimp only
    rw [toUInt8_nibbles, writeAt_padded (by omega)]
    have hih := @ih (out ++ [b]) (by rw [length_append, length_singleton]; omega)
    rw [length_append, length_singleton, append_assoc, singleton_append, add_right_comm] at hih
    exact hih

/-- A decoder that gives `x` back in a buffer of its size. -/
def Restores (decode : Bytes → List Char → Decoded) (text : List Char) (x : Bytes) : Prop :=
  ∀ dest : Bytes, dest.length = x.length → decode dest text = .ok (x, x.length)

lemma base16DecodeInto_encode (h : x.length ≤ intMax) :
    Restores base16DecodeInto (base16Encode x) x := by
  intro dest hdest
  have hlen := base16Encode_length x
  rw [base16DecodeInto, if_neg (by omega), if_neg (by omega), zeroed_eq, hdest]
  have hloop : base16DecodeLoop (base16Encode x) (padded x.length []) 0
      = .ok (padded x.length ([] ++ x), (0 + x.length : ℕ)) := base16DecodeLoop_encode (by simp)
  simpa using hloop

lemma base16DecodeInto_large (h : intMax < dest.length) (src : List Char) :
    base16DecodeInto dest src = .ok (dest, -1) := by
  rw [base16DecodeInto]
  split_ifs with hodd hlen
  · rfl
  · rfl
  · omega

/-! ## Base 32 -/

variable {tmp : List ℕ}

lemma base32Byte_eq_some {bit : ℕ} (hbit : bit % 8 = 0)
    (h : bit + 8 ≤ tmp.length * 5) : ∃ b, base32Byte tmp bit = some b := by
  have h1 : bit / 5 < tmp.length := by omega
  have h2 : bit / 5 + 1 < tmp.length := by omega
  rw [base32Byte, getElem?_eq_getElem h1, getElem?_eq_getElem h2]
  split
  · exact ⟨_, rfl⟩
  · rw [getElem?_eq_getElem (by omega)]
    exact ⟨_, rfl⟩
  · exact ⟨_, rfl⟩
  · rw [getElem?_eq_getElem (by omega)]
    exact ⟨_, rfl⟩
  · exact ⟨_, rfl⟩

lemma base32DecodeLoop_contained {bytes bit : ℕ} {i : UInt32} (hbit : bit % 8 = 0)
    (htmp : bit + bytes * 8 ≤ tmp.length * 5) (hi : i.toNat ≤ bit / 8)
    (h : bit / 8 + bytes ≤ dest.length) :
    Contained dest.length (base32DecodeLoop tmp bytes dest i bit) := by
  induction bytes generalizing dest i bit with
  | zero => exact ⟨dest, _, rfl, rfl⟩
  | succ bytes ih =>
    obtain ⟨b, hb⟩ := @base32Byte_eq_some tmp bit hbit (by omega)
    have hnext : (i + 1).toNat ≤ (bit + 8) / 8 := by
      rw [UInt32.toNat_add]
      exact (Nat.mod_le _ _).trans (by simp; omega)
    rw [base32DecodeLoop, hb]
    dsimp only
    rw [writeAt_of_lt (by omega)]
    have hih : Contained (dest.set i.toNat b).length
        (base32DecodeLoop tmp bytes (dest.set i.toNat b) (i + 1) (bit + 8)) :=
      ih (by omega) (by omega) hnext (by rw [length_set]; omega)
    rwa [length_set] at hih

lemma length_of_mapM {f : Char → Option ℕ} (h : src.mapM f = some tmp) :
    tmp.length = src.length := by
  induction src generalizing tmp with
  | nil =>
    obtain rfl := some.inj h
    rfl
  | cons c src ih =>
    rw [mapM_cons] at h
    obtain ⟨v, -, h⟩ := bind_eq_some_iff.mp h
    obtain ⟨vs, hvs, h⟩ := bind_eq_some_iff.mp h
    obtain rfl := some.inj h
    rw [length_cons, length_cons, ih hvs]

lemma base32DecodeInto_contained (dest : Bytes) (src : List Char) :
    base32DecodeInto dest src = .error .assertion ∨ Contained dest.length (base32DecodeInto dest src) := by
  rw [base32DecodeInto]
  split_ifs with hsize
  · refine .inr ?_
    split
    · exact ⟨zeroed dest, -1, rfl, length_zeroed dest⟩
    · rename_i tmp htmp
      have hlen := length_of_mapM htmp
      have hloop : Contained (zeroed dest).length
          (base32DecodeLoop tmp (src.length * 5 / 8) (zeroed dest) 0 0) :=
        base32DecodeLoop_contained rfl (by omega) (by simp) (by rw [length_zeroed]; omega)
      rwa [length_zeroed] at hloop
  · exact .inl rfl

lemma base32Value_base32Char (u : Fin 32) : base32Value (base32Char u) = some u.val := by
  revert u
  decide

/-- The five bits at bit `5 * j`. -/
def quintet (x : Bytes) (j : ℕ) : ℕ :=
  ((x.getD (j * 5 / 8) 0).toNat * 256 + (x.getD (j * 5 / 8 + 1) 0).toNat) / 2 ^ (11 - j * 5 % 8) % 32

lemma base32Encode_eq (x : Bytes) : base32Encode x
    = (List.range ((x.length * 8 + 4) / 5)).map fun j => base32Char (quintet x j) := by
  refine map_congr_left fun j _ => ?_
  dsimp only
  rw [quintet, show 0x1f = 2 ^ 5 - 1 from rfl, Nat.and_two_pow_sub_one_eq_mod,
    Nat.shiftRight_eq_div_pow, Nat.shiftLeft_eq]

lemma quintet_lt (x : Bytes) (j : ℕ) : quintet x j < 32 := Nat.mod_lt _ (by omega)

lemma base32Encode_length (x : Bytes) : (base32Encode x).length = (x.length * 8 + 4) / 5 := by
  rw [base32Encode_eq, length_map, length_range]

lemma mapM_base32Encode (x : Bytes) : (base32Encode x).mapM base32Value
    = some ((List.range ((x.length * 8 + 4) / 5)).map (quintet x)) := by
  rw [base32Encode_eq]
  generalize List.range ((x.length * 8 + 4) / 5) = js
  induction js with
  | nil => rfl
  | cons j js ih =>
    rw [map_cons, mapM_cons, ih, base32Value_base32Char ⟨_, quintet_lt x j⟩]
    rfl

lemma quintet_group (x : Bytes) (q t : ℕ) : quintet x (8 * q + t)
    = ((x.getD (5 * q + t * 5 / 8) 0).toNat * 256 + (x.getD (5 * q + (t * 5 / 8 + 1)) 0).toNat)
      / 2 ^ (11 - t * 5 % 8) % 32 := by
  rw [quintet, show (8 * q + t) * 5 / 8 = 5 * q + t * 5 / 8 by omega,
    show (8 * q + t) * 5 % 8 = t * 5 % 8 by omega, add_assoc]

lemma base32Byte_quintets {k : ℕ} (hk : k < x.length) :
    base32Byte ((List.range ((x.length * 8 + 4) / 5)).map (quintet x)) (8 * k) = some x[k] := by
  have hget : ∀ j, j < (x.length * 8 + 4) / 5 →
      ((List.range ((x.length * 8 + 4) / 5)).map (quintet x))[j]? = some (quintet x j) := by
    intro j hj
    rw [getElem?_map, getElem?_range hj]
    rfl
  have hbyte : x[k] = x.getD k 0 := getElem_eq_getD 0
  obtain ⟨q, r, hr, rfl⟩ : ∃ q r, r < 5 ∧ k = 5 * q + r := ⟨k / 5, k % 5, by omega, by omega⟩
  have hlt : ∀ i, (x.getD i 0).toNat < 256 := fun i => UInt8.toNat_lt _
  have h0 := hlt (5 * q + 0)
  have h1 := hlt (5 * q + 1)
  have h2 := hlt (5 * q + 2)
  have h3 := hlt (5 * q + 3)
  have h4 := hlt (5 * q + 4)
  have h5 := hlt (5 * q + 5)
  rw [hbyte, base32Byte, show 8 * (5 * q + r) / 5 = 8 * q + 8 * r / 5 by omega,
    show 8 * (5 * q + r) % 40 = 8 * r by omega, hget _ (by omega), hget _ (by omega)]
  -- the quintets that the byte is made of, by its place in a group of five
  interval_cases r
  all_goals try rw [hget _ (by omega)]
  all_goals
    refine congrArg some (toUInt8_eq ?_)
    simp only [add_assoc, quintet_group, Nat.shiftLeft_eq, Nat.shiftRight_eq_div_pow,
      Nat.reduceAdd, Nat.reduceMul, Nat.reduceDiv, Nat.reduceMod, Nat.reduceSub, Nat.reducePow]
    omega

lemma base32DecodeLoop_quintets (hx : x.length < 2 ^ 31) {bytes k : ℕ} {i : UInt32}
    (hk : k + bytes = x.length) (hi : i.toNat = k) :
    base32DecodeLoop ((List.range ((x.length * 8 + 4) / 5)).map (quintet x)) bytes
      (padded x.length (x.take k)) i (8 * k) = .ok (x, x.length) := by
  induction bytes generalizing k i with
  | zero =>
    obtain rfl : k = x.length := hk
    have hint : i.toInt32.toInt = x.length := by
      rw [← hi]
      exact BitVec.toInt_eq_toNat_of_lt (x := i.toBitVec) (by rw [UInt32.toNat_toBitVec]; omega)
    rw [base32DecodeLoop, take_length, padded_length, hint]
  | succ bytes ih =>
    have hlt : k < x.length := by omega
    have htake : (x.take k).length = k := by rw [List.length_take]; omega
    rw [base32DecodeLoop, base32Byte_quintets (by omega), hi]
    dsimp only
    have hwrite : writeAt (padded x.length (x.take k)) (x.take k).length x[k]
        = .ok (padded x.length (x.take k ++ [x[k]])) := writeAt_padded (by omega)
    rw [htake, take_append_getElem hlt] at hwrite
    rw [hwrite]
    have hnext : (i + 1).toNat = k + 1 := by
      rw [UInt32.toNat_add, hi]
      exact Nat.mod_eq_of_lt (by simp; omega)
    exact ih (k := k + 1) (i := i + 1) (by omega) hnext

lemma base32DecodeInto_encode (hx : x.length < 2 ^ 31) :
    Restores base32DecodeInto (base32Encode x) x := by
  intro dest hdest
  have hlen := base32Encode_length x
  have hbytes : (base32Encode x).length * 5 / 8 = x.length := by omega
  rw [base32DecodeInto, if_pos (by simp only [sizeTCeiling]; omega), mapM_base32Encode, hbytes,
    zeroed_eq, hdest]
  exact base32DecodeLoop_quintets hx (k := 0) (i := 0) (by omega) rfl

/-! ## Base 64 -/

lemma base64DecodeFinish_contained (h : di + bs.length ≤ dest.length) :
    Contained dest.length (base64DecodeFinish dest di bs) := by
  obtain ⟨dest', hwrite, hlen⟩ := writeAll_of_le h
  rw [base64DecodeFinish, hwrite]
  dsimp only
  rw [if_pos (by omega)]
  exact ⟨dest', _, rfl, hlen⟩

lemma base64DecodeTail_contained (h : di ≤ dest.length) :
    Contained dest.length (base64DecodeTail dest di n nIdx) := by
  unfold base64DecodeTail
  split
  · exact ⟨dest, -1, rfl, rfl⟩
  · split_ifs
    · exact ⟨dest, -1, rfl, rfl⟩
    · exact base64DecodeFinish_contained (by simp; omega)
  · split_ifs
    · exact ⟨dest, -1, rfl, rfl⟩
    · exact base64DecodeFinish_contained (by simp; omega)
  · exact base64DecodeFinish_contained (by simpa using h)

lemma base64DecodeIntoLoop_contained (h : di ≤ dest.length) :
    Contained dest.length (base64DecodeIntoLoop src dest di n nIdx) := by
  induction src generalizing dest di n nIdx with
  | nil => exact base64DecodeTail_contained h
  | cons c src ih =>
    rw [base64DecodeIntoLoop]
    cases base64DecodeTable c with
    | invalid => exact ⟨dest, -1, rfl, rfl⟩
    | space => exact ih h
    | pad => exact base64DecodeTail_contained h
    | value v =>
      dsimp only
      split_ifs with hfull hlen
      · exact ⟨dest, -1, rfl, rfl⟩
      · obtain ⟨dest', hwrite, hlen'⟩ : ∃ dest', writeAll dest di
            [(((n <<< 6) ||| v) >>> 16).toUInt8, (((n <<< 6) ||| v) >>> 8).toUInt8,
              ((n <<< 6) ||| v).toUInt8] = .ok dest' ∧ dest'.length = dest.length :=
          writeAll_of_le (by simp; omega)
        rw [hwrite, ← hlen']
        exact ih (by omega)
      · exact ih h

lemma base64DecodeInto_contained (dest : Bytes) (src : List Char) :
    Contained dest.length (base64DecodeInto dest src) := by
  rw [base64DecodeInto]
  split_ifs
  · exact ⟨dest, -1, rfl, rfl⟩
  · have hloop : Contained (zeroed dest).length (base64DecodeIntoLoop src (zeroed dest) 0 0 0) :=
      base64DecodeIntoLoop_contained (by simp)
    rwa [length_zeroed] at hloop

lemma base64DecodeFinish_padded (h : out.length + bs.length ≤ destlen) :
    base64DecodeFinish (padded destlen out) out.length bs
      = .ok (padded destlen (out ++ bs), (out ++ bs).length) := by
  rw [base64DecodeFinish, writeAll_padded h]
  dsimp only
  rw [length_padded (by rw [length_append]; exact h), if_pos h, length_append]

lemma base64DecodeTail_padded {out' : Bytes} (h : out.length ≤ destlen)
    (hdecode : base64DecodeEnd destlen n nIdx out = some out') :
    base64DecodeTail (padded destlen out) out.length n nIdx
      = .ok (padded destlen out', out'.length) := by
  have hlen := length_padded h
  have hnone : base64DecodeEnd destlen n nIdx out = some out →
      base64DecodeFinish (padded destlen out) out.length [] = .ok (padded destlen out', out'.length) := by
    intro hend
    obtain rfl := some.inj (hend.symm.trans hdecode)
    rw [base64DecodeFinish_padded (by simpa using h), append_nil]
  match nIdx with
  | 0 => exact hnone rfl
  | 1 => exact nomatch hdecode
  | 2 =>
    rw [base64DecodeEnd] at hdecode
    split_ifs at hdecode with hfits
    obtain rfl := some.inj hdecode
    change (if _ ∨ _ then _ else base64DecodeFinish _ _ [_]) = _
    rw [if_neg (by omega)]
    refine base64DecodeFinish_padded ?_
    rw [length_singleton]
    omega
  | 3 =>
    rw [base64DecodeEnd] at hdecode
    split_ifs at hdecode with hfits
    obtain rfl := some.inj hdecode
    change (if _ ∨ _ then _ else base64DecodeFinish _ _ [_, _]) = _
    rw [if_neg (by omega)]
    refine base64DecodeFinish_padded ?_
    rw [length_cons, length_singleton]
    omega
  | k + 4 => exact hnone rfl

lemma base64DecodeIntoLoop_padded {out' : Bytes} (h : out.length ≤ destlen)
    (hdecode : base64DecodeLoop destlen src n nIdx out = some out') :
    base64DecodeIntoLoop src (padded destlen out) out.length n nIdx
      = .ok (padded destlen out', out'.length) := by
  induction src generalizing out n nIdx with
  | nil => exact base64DecodeTail_padded h hdecode
  | cons c src ih =>
    have hlen := length_padded h
    rw [base64DecodeLoop] at hdecode
    rw [base64DecodeIntoLoop]
    cases hc : base64DecodeTable c with
    | invalid =>
      rw [hc] at hdecode
      cases hdecode
    | space =>
      rw [hc] at hdecode
      exact ih h hdecode
    | pad =>
      rw [hc] at hdecode
      exact base64DecodeTail_padded h hdecode
    | value v =>
      rw [hc] at hdecode
      dsimp only at hdecode ⊢
      split_ifs at hdecode with hfull hfits
      · rw [if_pos hfull, if_neg (by omega), writeAll_padded (by simp; omega)]
        have hnext := ih (by simp; omega) hdecode
        rw [length_append] at hnext
        exact hnext
      · rw [if_neg hfull]
        exact ih h hdecode

lemma restores_of_base64Decode {text : List Char} (hx : x.length ≤ intMax)
    (h : base64Decode x.length text = some x) : Restores base64DecodeInto text x := by
  intro dest hdest
  rw [base64DecodeInto, if_neg (by omega), zeroed_eq, hdest]
  have := base64DecodeIntoLoop_padded (Nat.zero_le _) h
  rwa [padded_length] at this

/-! ### Padding and newlines -/

lemma base64DecodeLoop_filter :
    base64DecodeLoop destlen (src.filter (· ≠ '\n')) n nIdx out
      = base64DecodeLoop destlen src n nIdx out := by
  induction src generalizing n nIdx out with
  | nil => rfl
  | cons c src ih =>
    by_cases hc : c = '\n'
    · subst hc
      rw [filter_cons_of_neg (by decide), ih, base64DecodeLoop]
      rfl
    · rw [filter_cons_of_pos (by simpa using hc), base64DecodeLoop, base64DecodeLoop]
      simp only [ih]

lemma base64DecodeLoop_pad (t : List Char) :
    base64DecodeLoop destlen (src ++ '=' :: t) n nIdx out
      = base64DecodeLoop destlen src n nIdx out := by
  induction src generalizing n nIdx out with
  | nil => rfl
  | cons c src ih =>
    rw [cons_append, base64DecodeLoop, base64DecodeLoop]
    simp only [ih]

lemma base64Encode_eq : ∀ x : Bytes, ∃ pads, (pads = [] ∨ pads = ['='] ∨ pads = ['=', '='])
    ∧ base64Encode x = base64EncodeNopad x ++ pads ∧ (base64Encode x).length = base64Len x.length
  | [] => ⟨[], .inl rfl, rfl, rfl⟩
  | [b] => by
      refine ⟨['=', '='], .inr (.inr rfl), ?_, ?_⟩
      · rw [base64EncodeNopad_one, base64Encode, base64EncodeLoop_one]
      · simp [base64Encode, base64EncodeLoop_one, base64Len, ceilDiv]
  | [b, c] => by
      refine ⟨['='], .inr (.inl rfl), ?_, ?_⟩
      · rw [base64EncodeNopad_two, base64Encode, base64EncodeLoop_two]
      · simp [base64Encode, base64EncodeLoop_two, base64Len, ceilDiv]
  | b :: c :: d :: x => by
      obtain ⟨pads, hpads, heq, hlen⟩ := base64Encode_eq x
      rw [base64Encode] at heq hlen
      refine ⟨pads, hpads, ?_, ?_⟩
      · rw [base64EncodeNopad_group, base64Encode, base64EncodeLoop_group, heq, append_assoc]
      · rw [base64Encode, base64EncodeLoop_group, length_append, hlen, length_map, length_range]
        simp only [base64Len, ceilDiv, length_cons]
        omega

lemma newline_notMem_base64Encode (x : Bytes) : '\n' ∉ base64Encode x := by
  obtain ⟨pads, hpads, heq, -⟩ := base64Encode_eq x
  rw [heq, mem_append, not_or]
  constructor
  · intro hc
    obtain ⟨v, hv⟩ := exists_of_mem_base64EncodeNopad hc
    exact (base64DecodeTable_encodeTable v).2.2 hv.symm
  · rcases hpads with rfl | rfl | rfl <;> decide

lemma base64Decode_base64Encode (x : Bytes) : base64Decode x.length (base64Encode x) = some x := by
  obtain ⟨pads, hpads, heq, -⟩ := base64Encode_eq x
  have hnopad := @base64Decode_encodeNopad x.length x (le_refl x.length)
  rw [heq, base64Decode]
  rcases hpads with rfl | rfl | rfl
  · rwa [append_nil]
  · rwa [base64DecodeLoop_pad]
  · rwa [base64DecodeLoop_pad]

lemma encodeChars_single (linelen : ℕ) (chs : List Char) : encodeChars false linelen chs = chs := by
  induction chs with
  | nil => rfl
  | cons ch chs ih => rw [encodeChars, if_neg (by decide), ih]

variable {multiline : Bool}

lemma filter_encodeChars {linelen : ℕ} {chs : List Char} (h : '\n' ∉ chs) :
    (encodeChars multiline linelen chs).filter (· ≠ '\n') = chs := by
  induction chs generalizing linelen with
  | nil =>
    rw [encodeChars]
    split_ifs <;> rfl
  | cons ch chs ih =>
    rw [mem_cons, not_or] at h
    have hch : ch ≠ '\n' := fun heq => h.1 heq.symm
    rw [encodeChars]
    split_ifs
    · rw [filter_cons_of_pos (by simpa using hch), filter_cons_of_neg (by decide), ih h.2]
    · rw [filter_cons_of_pos (by simpa using hch), ih h.2]
    · rw [filter_cons_of_pos (by simpa using hch), ih h.2]

lemma length_encodeChars {linelen : ℕ} (h : linelen < 64) (chs : List Char) :
    (encodeChars true linelen chs).length = chs.length + ceilDiv (linelen + chs.length) 64 := by
  induction chs generalizing linelen with
  | nil =>
    rw [encodeChars, ceilDiv]
    split_ifs with hline
    · simp at hline
      simp only [length_cons, length_nil]
      omega
    · simp at hline
      simp [hline]
  | cons ch chs ih =>
    rw [encodeChars, if_pos rfl, base64OpensslLinelen]
    split_ifs with hfull
    · rw [length_cons, length_cons, ih (by omega), length_cons, ceilDiv, ceilDiv]
      omega
    · rw [length_cons, ih (by omega), length_cons, ceilDiv, ceilDiv]
      omega

lemma base64Decode_encodeChars (x : Bytes) (multiline : Bool) :
    base64Decode x.length (encodeChars multiline 0 (base64Encode x)) = some x := by
  rw [base64Decode, ← base64DecodeLoop_filter, filter_encodeChars (newline_notMem_base64Encode x)]
  exact base64Decode_base64Encode x

lemma base64EncodeSize_eq_some {srclen enclen : ℕ}
    (h : base64EncodeSize srclen multiline = some enclen) :
    srclen < intMax ∧ enclen < intMax
      ∧ enclen = if multiline then base64Len srclen + ceilDiv (base64Len srclen) 64
        else base64Len srclen := by
  rw [base64EncodeSize] at h
  split_ifs at h with hsize <;> simp_all [base64OpensslLinelen]

lemma length_base64Encode {enclen : ℕ}
    (h : base64EncodeSize x.length multiline = some enclen) :
    (encodeChars multiline 0 (base64Encode x)).length = enclen := by
  obtain ⟨-, -, -, hlen⟩ := base64Encode_eq x
  rw [(base64EncodeSize_eq_some h).2.2]
  cases multiline with
  | false => rw [encodeChars_single, hlen]; rfl
  | true => rw [length_encodeChars (by omega), hlen, Nat.zero_add]; rfl

/-! ## All of the encodings -/

/-- What the encodings promise of a string of bytes. -/
structure Undone (x : Bytes) : Prop where
  base16 : ∀ destlen text, base16EncodeInto destlen x = some text →
    base16Bufsize x.length = text.length + 1 ∧ (x.length ≤ intMax → Restores base16DecodeInto text x)
      ∧ (intMax < x.length →
        ∀ dest : Bytes, dest.length = x.length → base16DecodeInto dest text = .ok (dest, -1))
  base32 : ∀ destlen text, base32EncodeInto destlen x = some text →
    base32EncodedSize x.length = some (text.length + 1) ∧ Restores base32DecodeInto text x
  base64 : ∀ multiline destlen enclen, base64EncodeSize x.length multiline = some enclen →
    enclen < destlen → destlen ≤ sizeTCeiling →
    ∃ text, base64EncodeInto destlen x multiline = some text ∧ text.length = enclen
      ∧ Restores base64DecodeInto text x
  base64Nopad : ∀ destlen text, base64EncodeNopadInto destlen x = some text →
    base64NopadLen x.length = text.length ∧ Restores base64DecodeInto text x

/-- Whatever a decoder reads, it writes within its buffer. -/
structure WithinBuffer (dest : Bytes) (src : List Char) : Prop where
  base16 : Contained dest.length (base16DecodeInto dest src)
  base32 : base32DecodeInto dest src = .error .assertion
    ∨ Contained dest.length (base32DecodeInto dest src)
  base64 : Contained dest.length (base64DecodeInto dest src)

/-- **Encodings.**  Every string of bytes comes back from its encodings, of the sizes that are
predicted, and no decoder writes outside of its buffer. -/
theorem codecs_undone (x : Bytes) : Undone x ∧ ∀ dest src, WithinBuffer dest src := by
  refine ⟨⟨?_, ?_, ?_, ?_⟩, fun dest src => ⟨base16DecodeInto_contained dest src,
    base32DecodeInto_contained dest src, base64DecodeInto_contained dest src⟩⟩
  · intro destlen text h
    rw [base16EncodeInto] at h
    split_ifs at h
    obtain rfl := some.inj h
    refine ⟨?_, base16DecodeInto_encode, fun hlarge dest hdest => ?_⟩
    · rw [base16Encode_length, base16Bufsize, mul_comm]
    · exact base16DecodeInto_large (hdest ▸ hlarge) _
  · intro destlen text h
    rw [base32EncodeInto] at h
    split at h
    · rename_i enclen hsize
      split_ifs at h
      obtain rfl := some.inj h
      rw [base32EncodedSize] at hsize ⊢
      split_ifs at hsize with hlen
      have hbuf := base32Encode_length x
      refine ⟨?_, base32DecodeInto_encode (by have := hlen.2.1; rw [intMax] at this; omega)⟩
      rw [if_pos hlen, hbuf]
      rfl
    · cases h
  · intro multiline destlen enclen hsize hdest hceiling
    have hlen := length_base64Encode hsize
    have hmax : ¬ (destlen < enclen + 1 ∨ destlen > sizeTCeiling ∨ enclen > intMax) := by
      have := (base64EncodeSize_eq_some hsize).2.1
      omega
    refine ⟨_, ?_, hlen, restores_of_base64Decode (base64EncodeSize_eq_some hsize).1.le
      (base64Decode_encodeChars x multiline)⟩
    rw [base64EncodeInto, hsize]
    dsimp only
    rw [if_neg hmax, if_pos hlen]
  · intro destlen text h
    obtain ⟨full, hfull, rfl⟩ := map_eq_some_iff.mp h
    rw [base64EncodeInto] at hfull
    split at hfull
    · cases hfull
    · rename_i enclen hsize
      dsimp only at hfull
      split_ifs at hfull
      obtain rfl := some.inj hfull
      rw [encodeChars_single]
      refine ⟨?_, restores_of_base64Decode (base64EncodeSize_eq_some hsize).1.le
        (base64Decode_encodeNopad le_rfl)⟩
      have hlen := base64EncodeNopad_length x
      rw [base64EncodeNopad] at hlen
      rw [hlen, base64NopadLen, ceilDiv, mul_comm]

/-- A string of 2^31 bytes is encoded, and its decoder refuses the buffer for it. -/
theorem codecs_undone_fails : ¬ (∀ (x : Bytes) (destlen : ℕ) (text : List Char),
    base16EncodeInto destlen x = some text → Restores base16DecodeInto text x) := by
  intro h
  obtain ⟨x, hx⟩ : ∃ x : Bytes, x.length = 2 ^ 31 := ⟨List.replicate (2 ^ 31) 0, length_replicate⟩
  have hencode : base16EncodeInto (2 ^ 32 + 1) x = some (base16Encode x) := by
    rw [base16EncodeInto, if_pos]
    rw [hx, sizeTCeiling, base16Bufsize]
    norm_num
  have hdecode := h x _ _ hencode x rfl
  rw [base16DecodeInto_large (by rw [hx, intMax]; norm_num)] at hdecode
  have := congrArg Prod.snd (Except.ok.inj hdecode)
  simp only [hx] at this
  norm_num at this

end Ator.Binascii
