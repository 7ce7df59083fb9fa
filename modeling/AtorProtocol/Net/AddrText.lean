import AtorProtocol.Net.InetPton

/-!
# Addresses with their families as text

`tor_addr_to_str` and `tor_addr_parse` of `src/lib/net/address.c`.

* `torAddrToStr`, `torAddrParse` — an IPv6 address with brackets or without, and an IPv4 address.
* `addressText_roundTrip` — each reads what the other writes, and nothing goes wrong.
-/

namespace Ator.Inaddr

open Text List Option
open Policies (TorAddr afInet afInet6)

/-! ## Addresses -/

/-- `addr->addr.in_addr` -/
def inAddrOf (a : BitVec 32) : InAddr where
  a := (a.toNat / 256 ^ 3).toUInt8
  b := (a.toNat / 256 ^ 2 % 256).toUInt8
  c := (a.toNat / 256 % 256).toUInt8
  d := (a.toNat % 256).toUInt8

/-- `addr->addr.in6_addr` -/
def in6AddrOf (a : {bs : Bytes // bs.length = 16}) : In6Addr := ⟨a.1, a.2⟩

def torAddrFromIn (addr : InAddr) : TorAddr :=
  .inet (BitVec.ofNat 32 (((addr.a.toNat * 256 + addr.b.toNat) * 256 + addr.c.toNat) * 256
    + addr.d.toNat))

def torAddrFromIn6 (addr : In6Addr) : TorAddr := .inet6 ⟨addr.s6Addr, addr.length_eq⟩

def torAddrBufLen : ℕ := 48

/-- A string in a buffer of `len` bytes. -/
def fitted (text : List Char) (len : ℕ) : Option (List Char) :=
  if text.length + 1 > len then none else some text

/-- `tor_addr_to_str(dest, addr, len, decorate)` -/
def torAddrToStr (addr : TorAddr) (len : ℕ) (decorate : Bool) : Option (List Char) :=
  match addr with
  | .inet a => if len < 8 then none else fitted (torInetNtoa (inAddrOf a)) len
  | .inet6 a =>
    if len < 3 + (if decorate then 2 else 0) then none
    else if decorate then
      (fitted (torInetNtop6 (in6AddrOf a)) (len - 2)).map fun text => '[' :: (text ++ [']'])
    else fitted (torInetNtop6 (in6AddrOf a)) len
  | .unspec => none

def torAddrParseImpl (src : List Char) (allowIpv6WithoutBrackets : Bool) :
    Except PtonFault (Option TorAddr) :=
  let bracketsDetected : Bool := src.head? = some '[' ∧ src.getLast? = some ']'
  let src := if bracketsDetected then src.tail.take (src.length - 2) else src
  (if bracketsDetected || allowIpv6WithoutBrackets then torInetPton afInet6 src
    else .ok .malformed).bind fun in6Tmp =>
  (if bracketsDetected then .ok .malformed else torInetPton afInet src).map fun inTmp =>
    match inTmp, in6Tmp with
    | .inet addr, _ => some (torAddrFromIn addr)
    | _, .inet6 addr => some (torAddrFromIn6 addr)
    | _, _ => none

def torAddrParse (src : List Char) : Except PtonFault (Option TorAddr) := torAddrParseImpl src true

/-! ## What is written is read back -/

variable {addr : TorAddr} {text : List Char}

lemma torAddrFromIn_inAddrOf (a : BitVec 32) : torAddrFromIn (inAddrOf a) = .inet a := by
  have hbyte {n : ℕ} (hn : n < 256) : n.toUInt8.toNat = n := by
    rw [Nat.toUInt8, UInt8.toNat_ofNat']
    omega
  rw [torAddrFromIn, inAddrOf]
  rw [hbyte (by omega), hbyte (by omega), hbyte (by omega), hbyte (by omega)]
  refine congrArg TorAddr.inet (BitVec.eq_of_toNat_eq ?_)
  rw [BitVec.toNat_ofNat]
  omega

lemma torInetPton6_ntoa (addr : InAddr) : torInetPton6 (torInetNtoa addr) = none := by
  have hdigits : ∀ c ∈ decimal addr.a.toNat, (decide (c ≠ '.')) = true := by
    intro c hc
    have hne : c ≠ '.' := fun heq => notMem_dot_decimal addr.a.toNat (heq ▸ hc)
    simpa using hne
  have htake : (torInetNtoa addr).takeWhile (· ≠ '.') = decimal addr.a.toNat := by
    rw [torInetNtoa, dottedQuad_eq, takeWhile_append_of_pos hdigits,
      takeWhile_cons_of_neg (by decide), append_nil]
  have hdrop : (decimal addr.a.toNat).rdropWhile Char.isDigit = [] :=
    rdropWhile_eq_nil_iff.mpr fun c hc => isDigit_of_mem_decimal hc
  have hlength : (decimal addr.a.toNat).length ≠ (torInetNtoa addr).length := by
    rw [torInetNtoa, dottedQuad_eq, length_append, length_cons]
    omega
  have hsplit : splitQuad (torInetNtoa addr) = none := by
    rw [splitQuad, htake, if_neg hlength, hdrop]
    rfl
  rw [torInetPton6, hsplit]
  split_ifs <;> rfl

lemma torInetPton_inet (src : List Char) :
    torInetPton afInet src = .ok ((torInetAton src).elim PtonResult.malformed PtonResult.inet) := by
  rw [torInetPton, if_pos rfl]
  cases torInetAton src <;> rfl

lemma torInetAton_of_pton6 {addr : In6Addr} (h : torInetPton6 text = some addr) :
    torInetAton text = none := by
  cases haton : torInetAton text with
  | none => rfl
  | some addr =>
    rw [torInetAton_eq_some.mp haton, torInetPton6_ntoa] at h
    cases h

lemma torAddrParse_brackets {addr : In6Addr} (h : torInetPton6 text = some addr) :
    torAddrParse ('[' :: (text ++ [']'])) = .ok (some (torAddrFromIn6 addr)) := by
  have hlast : ('[' :: (text ++ [']'])).getLast? = some ']' := by
    rw [← cons_append, getLast?_append_of_ne_nil _ (by simp)]
    rfl
  have hinner : (text ++ [']']).take (('[' :: (text ++ [']'])).length - 2) = text := by
    rw [length_cons, length_append, length_singleton]
    exact take_left
  rw [torAddrParse, torAddrParseImpl]
  simp only [hlast, head?_cons, and_self, decide_true, if_true, Bool.true_or, tail_cons,
    hinner, torInetPton_inet6, h]
  rfl

lemma torAddrParse_inet6 {addr : In6Addr} (h : torInetPton6 text = some addr)
    (hbracket : text.head? ≠ some '[') : torAddrParse text = .ok (some (torAddrFromIn6 addr)) := by
  rw [torAddrParse, torAddrParseImpl]
  simp only [hbracket, false_and, decide_false, Bool.false_or, if_true, Bool.false_eq_true, if_false,
    torInetPton_inet6, h, torInetPton_inet, torInetAton_of_pton6 h]
  rfl

lemma torAddrParse_inet (addr : InAddr) :
    torAddrParse (torInetNtoa addr) = .ok (some (torAddrFromIn addr)) := by
  have hbracket : (torInetNtoa addr).head? ≠ some '[' := by
    obtain ⟨c, cs, hcons, hc⟩ := decimal_head_isDigit addr.a.toNat
    rw [torInetNtoa, dottedQuad_eq, hcons]
    intro h
    obtain rfl := some.inj h
    exact absurd hc (by decide)
  rw [torAddrParse, torAddrParseImpl]
  simp only [hbracket, false_and, decide_false, Bool.false_or, if_true, Bool.false_eq_true, if_false,
    torInetPton_inet6, torInetPton6_ntoa, torInetPton_inet, torInetAton_ntoa]
  rfl

/-! ## The text fits -/

lemma length_dottedQuad (a b c d : UInt8) : 7 ≤ (dottedQuad a b c d).length ∧
    (dottedQuad a b c d).length ≤ 15 := by
  have hlength (b : UInt8) : 1 ≤ (decimal b.toNat).length ∧ (decimal b.toNat).length ≤ 3 :=
    ⟨length_pos_iff.mpr Nat.toDigits_ne_nil, length_decimal_byte b⟩
  have ha := hlength a
  have hb := hlength b
  have hc := hlength c
  have hd := hlength d
  rw [dottedQuad_eq]
  simp only [length_append, length_cons]
  omega

lemma length_formatWords {gap : Option ℕ} {i : ℕ} {words : List ℕ} (hwords : ∀ w ∈ words, w < 65536) :
    (formatWords gap i words).length ≤ 5 * words.length + 1 := by
  induction i, words using formatWords.induct gap with
  | case1 i => simp [formatWords]
  | case2 i w words hgap ih =>
    have hsub := dropWhile_sublist (· = 0) (l := words)
    have hlength := hsub.length_le
    have ih := ih fun w' hw' => hwords w' (mem_cons_of_mem w (hsub.subset hw'))
    have hcolons : (if i = 0 then [':', ':'] else [':']).length ≤ 2 := by
      split <;> simp
    rw [formatWords, if_pos hgap, length_append, length_cons]
    omega
  | case3 i w words hgap ih =>
    have ih := ih fun w' hw' => hwords w' (mem_cons_of_mem w hw')
    have hlength := length_hexadecimal (hwords w mem_cons_self)
    have hcolon : (if i = 7 then [] else [':']).length ≤ 1 := by
      split <;> simp
    rw [formatWords, if_neg hgap, length_append, length_append, length_cons]
    omega

lemma torInetNtop6_cases (addr : In6Addr) :
    (∃ gap, torInetNtop6 addr = formatWords gap 0 (wordsOf addr.s6Addr)) ∨
    ∃ a b c d, torInetNtop6 addr = [':', ':'] ++ dottedQuad a b c d ∨
      torInetNtop6 addr = [':', ':'] ++ hexadecimal 0xffff ++ ':' :: dottedQuad a b c d := by
  have hcolons : "::".toList = [':', ':'] := by decide
  rw [torInetNtop6, hcolons]
  split
  · next w5 w6 w7 a b c d hw hbytes =>
      split
      · exact .inr ⟨a, b, c, d, .inl rfl⟩
      · split
        · next hffff => exact .inr ⟨a, b, c, d, .inr (by rw [hffff])⟩
        · exact .inl ⟨_, rfl⟩
  · exact .inl ⟨_, rfl⟩

lemma length_torInetNtop6 (addr : In6Addr) : (torInetNtop6 addr).length ≤ 41 := by
  have hffff := length_hexadecimal (n := 0xffff) (by decide)
  rcases torInetNtop6_cases addr with ⟨gap, heq⟩ | ⟨a, b, c, d, heq | heq⟩
  · have hle : (formatWords gap 0 (wordsOf addr.s6Addr)).length ≤ _ :=
      length_formatWords (lt_of_mem_wordsOf addr.s6Addr)
    rw [length_wordsOf, addr.length_eq] at hle
    rw [heq]
    exact hle
  · have hquad := length_dottedQuad a b c d
    rw [heq, length_append]
    simp only [length_cons, length_nil]
    omega
  · have hquad := length_dottedQuad a b c d
    rw [heq, length_append, length_append]
    simp only [length_cons, length_nil]
    omega

lemma head?_torInetNtop6 (addr : In6Addr) : (torInetNtop6 addr).head? ≠ some '[' := by
  rcases torInetNtop6_cases addr with ⟨gap, heq⟩ | ⟨a, b, c, d, heq | heq⟩
  · rw [heq]
    intro h
    rcases mem_formatWords (mem_of_head? h) with h | h
    · exact absurd h (by decide)
    · exact absurd h (by decide)
  · rw [heq]
    exact fun h => absurd (some.inj h) (by decide)
  · rw [heq]
    exact fun h => absurd (some.inj h) (by decide)

lemma fitted_eq_some {out : List Char} {len : ℕ} :
    fitted text len = some out ↔ text = out ∧ text.length + 1 ≤ len := by
  rw [fitted]
  split_ifs with hlong
  · simp
    omega
  · simp
    omega

/-- **What is written is read back**, in a buffer of any size that it fits in. -/
lemma torAddrParse_toStr {len : ℕ} {decorate : Bool} (h : torAddrToStr addr len decorate = some text) :
    torAddrParse text = .ok (some addr) := by
  cases addr with
  | unspec => cases h
  | inet a =>
    rw [torAddrToStr] at h
    split_ifs at h
    obtain ⟨rfl, -⟩ := fitted_eq_some.mp h
    rw [torAddrParse_inet, torAddrFromIn_inAddrOf]
  | inet6 a =>
    have hread := torInetPton6_ntop6 (in6AddrOf a)
    rw [torAddrToStr] at h
    split_ifs at h
    · obtain ⟨inner, hinner, rfl⟩ := Option.map_eq_some_iff.mp h
      obtain ⟨rfl, -⟩ := fitted_eq_some.mp hinner
      exact torAddrParse_brackets hread
    · obtain ⟨rfl, -⟩ := fitted_eq_some.mp h
      exact torAddrParse_inet6 hread (head?_torInetNtop6 _)

lemma exists_torAddrToStr {len : ℕ} (haddr : addr ≠ .unspec) (hlen : torAddrBufLen ≤ len)
    (decorate : Bool) : ∃ text, torAddrToStr addr len decorate = some text := by
  rw [torAddrBufLen] at hlen
  cases addr with
  | unspec => exact absurd rfl haddr
  | inet a =>
    have hquad := (length_dottedQuad (inAddrOf a).a (inAddrOf a).b (inAddrOf a).c (inAddrOf a).d).2
    refine ⟨torInetNtoa (inAddrOf a), ?_⟩
    rw [torAddrToStr, if_neg (by omega)]
    exact fitted_eq_some.mpr ⟨rfl, by rw [torInetNtoa]; omega⟩
  | inet6 a =>
    have hlength := length_torInetNtop6 (in6AddrOf a)
    have henough : ¬len < 3 + (if decorate = true then 2 else 0) := by
      split <;> omega
    rw [torAddrToStr, if_neg henough]
    cases decorate with
    | true =>
      refine ⟨'[' :: (torInetNtop6 (in6AddrOf a) ++ [']']), ?_⟩
      rw [if_pos rfl, fitted_eq_some.mpr ⟨rfl, by omega⟩]
      rfl
    | false => exact ⟨torInetNtop6 (in6AddrOf a), fitted_eq_some.mpr ⟨rfl, by omega⟩⟩

lemma exists_torInetPton (af : ℕ) (src : List Char) : ∃ r, torInetPton af src = .ok r := by
  by_cases hinet : af = afInet
  · rw [hinet, torInetPton_inet]
    exact ⟨_, rfl⟩
  · by_cases hinet6 : af = afInet6
    · rw [hinet6, torInetPton_inet6]
      exact ⟨_, rfl⟩
    · rw [torInetPton, if_neg hinet, if_neg hinet6]
      exact ⟨_, rfl⟩

lemma exists_torAddrParse (src : List Char) : ∃ r, torAddrParse src = .ok r := by
  rw [torAddrParse, torAddrParseImpl]
  simp only [Bool.or_true, if_true, torInetPton_inet6, torInetPton_inet]
  split <;> exact ⟨_, rfl⟩

/-- **The text of an address is read back**: of each IPv6 address, and of each address with its
family, with brackets or without; and reading a string neither fails an assertion nor writes outside
the words. -/
theorem addressText_roundTrip :
    (∀ addr : In6Addr, torInetPton afInet6 (torInetNtop6 addr) = .ok (.inet6 addr)) ∧
    (∀ (addr : TorAddr) (len : ℕ) (decorate : Bool), addr ≠ .unspec → torAddrBufLen ≤ len →
      ∃ text, torAddrToStr addr len decorate = some text) ∧
    (∀ (addr : TorAddr) (len : ℕ) (decorate : Bool) (text : List Char),
      torAddrToStr addr len decorate = some text → torAddrParse text = .ok (some addr)) ∧
    (∀ (af : ℕ) (src : List Char), ∃ r, torInetPton af src = .ok r) := by
  refine ⟨fun addr => ?_, fun _ _ decorate haddr hlen => exists_torAddrToStr haddr hlen decorate,
    fun _ _ _ _ h => torAddrParse_toStr h, exists_torInetPton⟩
  rw [torInetPton_inet6, torInetPton6_ntop6]
  rfl

end Ator.Inaddr
