import AtorProtocol.Nodelist.Nodefamily
import AtorProtocol.Encoding.Codecs
import Mathlib

/-!
# The members of a node family

* `memberOf_eq_some` — the source recognises exactly the well-formed elements.
* `memberOf_recase` — the case of a well-formed element makes no difference.
* `Denotes.formatted` — a member is written as an element that stands for it.
-/

namespace Ator.Nodefamily

open Text List

variable {s t cp hex suffix : List Char} {m n : Bytes} {c d : Char} {id : Bytes}

/-! ## Characters -/

lemma isAlphanum_toLower (c : Char) : c.toLower.isAlphanum = c.isAlphanum := by
  have hdigit : c.toLower.isDigit = c.isDigit := by
    simp only [Char.isDigit, Char.toLower]
    split <;> grind [UInt32.toNat_add, Char.toNat_val]
  rw [Char.isAlphanum, Char.isAlphanum, Char.isAlpha_toLower_eq_isAlpha, hdigit]

lemma toLower_eq_self (h : c.isAlphanum = false) : c.toLower = c := by
  refine Char.toLower_eq_of_not_isUpper fun hupper => ?_
  simp [Char.isAlphanum, Char.isAlpha, hupper] at h

lemma mem_legalNicknameCharacters : c ∈ legalNicknameCharacters ↔ c.isAlphanum := by
  have hranges : legalNicknameCharacters
      = (range' 97 26 ++ range' 65 26 ++ range' 48 10).map Char.ofNat :=
    String.toList_ofList
  rw [hranges, mem_map, isAlphanum_iff_toNat]
  simp only [mem_append, mem_range'_1, or_assoc]
  constructor
  · rintro ⟨n, hn, rfl⟩
    rwa [Char.toNat_ofNat, if_pos (.inl (by omega))]
  · intro h
    exact ⟨c.toNat, h, Char.ofNat_toNat c⟩

lemma not_space_of_alphanum (h : c.isAlphanum) : isCSpace c = false := by
  rw [isAlphanum_iff_toNat] at h
  rw [isCSpace, decide_eq_false_iff_not]
  rintro (rfl | ⟨-, hle⟩)
  · exact absurd h (by decide)
  · simp [Char.le_def, UInt32.le_iff_toNat_le] at hle
    omega

lemma exists_hexDecodeDigit (h : c ∈ hexCharacters) :
    ∃ v : Fin 16, hexDecodeDigit c = some v.val ∧ c.toUpper = base16Digit v := by
  have hdigits : hexCharacters.all (fun c => decide (∃ v : Fin 16,
      hexDecodeDigit c = some v.val ∧ c.toUpper = base16Digit v)) = true := by decide +kernel
  exact of_decide_eq_true (all_eq_true.mp hdigits c h)

lemma mem_hexCharacters (v : Fin 16) (h : c.toUpper = base16Digit v) : c ∈ hexCharacters := by
  by_cases hlower : c.isLower
  · have hdigit : ∀ v : Fin 16, 65 ≤ (base16Digit v).toNat →
        Char.ofNat ((base16Digit v).toNat + 32) ∈ hexCharacters := by decide
    have hrange : 97 ≤ c.toNat ∧ c.toNat ≤ 122 := by
      simpa [Char.isLower, UInt32.le_iff_toNat_le] using hlower
    have hnat : (base16Digit v).toNat = c.toNat - 32 := by
      rw [← h, Char.toUpper_eq_of_isLower hlower, Char.toNat_ofNat, if_pos (.inl (by omega))]
    have hmem := hdigit v (by omega)
    rwa [hnat, Nat.sub_add_cancel (by omega), Char.ofNat_toNat] at hmem
  · have hdigit : ∀ v : Fin 16, base16Digit v ∈ hexCharacters := by decide
    rw [Char.toUpper_eq_of_not_isLower hlower] at h
    rw [h]
    exact hdigit v

/-! ## Legal elements -/

lemma strspn_eq_length (accept : List Char) : strspn s accept = s.length ↔ ∀ c ∈ s, c ∈ accept := by
  rw [strspn]
  constructor
  · intro h c hc
    have hall := ( takeWhile_prefix (· ∈ accept)).eq_of_length h
    rw [← hall] at hc
    simpa using mem_takeWhile_imp hc
  · intro h
    rw [takeWhile_eq_self_iff.mpr (by simpa using h)]

lemma isLegalNickname_iff : isLegalNickname s ↔ WellFormedNickname s := by
  simp only [isLegalNickname, strspn_eq_length, decide_eq_true_eq]
  constructor
  · rintro ⟨hpos, hle, hlegal⟩
    exact ⟨ne_nil_of_length_pos hpos, hle, fun c hc =>
      mem_legalNicknameCharacters.mp (hlegal c hc)⟩
  · rintro ⟨hne, hle, halphanum⟩
    exact ⟨length_pos_of_ne_nil hne, hle, fun c hc =>
      mem_legalNicknameCharacters.mpr (halphanum c hc)⟩

lemma HexSuffix.tailIsLegal (h : HexSuffix suffix) :
    suffix = [] ∨ ∃ c s, suffix = c :: s ∧ (c = '=' ∨ c = '~') ∧ WellFormedNickname s := by
  cases h with
  | none => exact .inl rfl
  | named h => exact .inr ⟨_, _, rfl, .inl rfl, h⟩
  | unnamed h => exact .inr ⟨_, _, rfl, .inr rfl, h⟩

lemma HexSuffix.strspn (h : HexSuffix suffix) (hhex : ∀ c ∈ hex, c ∈ hexCharacters) :
    strspn (hex ++ suffix) hexCharacters = hex.length := by
  have hempty : suffix.takeWhile (· ∈ hexCharacters) = [] := by
    rcases h.tailIsLegal with rfl | ⟨c, s, rfl, rfl | rfl, -⟩
    · rfl
    · exact takeWhile_cons_of_neg (by decide)
    · exact takeWhile_cons_of_neg (by decide)
  rw [Nodefamily.strspn, takeWhile_append_of_pos (by simpa using hhex), hempty, append_nil]

lemma isLegalHexdigest_iff : isLegalHexdigest cp ↔ ∃ hex suffix, skipDollar cp = hex ++ suffix
    ∧ hex.length = hexDigestLen ∧ (∀ c ∈ hex, c ∈ hexCharacters) ∧ HexSuffix suffix := by
  simp only [isLegalHexdigest, decide_eq_true_eq]
  generalize skipDollar cp = s
  constructor
  · rintro ⟨htail, hlen, hspan⟩
    refine ⟨s.take hexDigestLen, s.drop hexDigestLen, (take_append_drop _ s).symm, ?_, ?_, ?_⟩
    · rw [length_take, min_eq_left hlen]
    · have hprefix := prefix_iff_eq_take.mp ( takeWhile_prefix (· ∈ hexCharacters) (l := s))
      rw [show (s.takeWhile (· ∈ hexCharacters)).length = hexDigestLen from hspan] at hprefix
      rw [← hprefix]
      intro c hc
      simpa using mem_takeWhile_imp hc
    · split at htail
      · rename_i hnil
        rw [hnil]
        exact HexSuffix.none
      · rename_i c nickname hcons
        simp only [decide_eq_true_eq] at htail
        obtain ⟨rfl | rfl, hlegal⟩ := htail
        · rw [hcons]
          exact HexSuffix.named (isLegalNickname_iff.mp hlegal)
        · rw [hcons]
          exact HexSuffix.unnamed (isLegalNickname_iff.mp hlegal)
  · rintro ⟨hex, suffix, rfl, hlen, hhex, hsuffix⟩
    refine ⟨?_, ?_, by rw [hsuffix.strspn hhex, hlen]⟩
    · rw [drop_left' hlen]
      rcases hsuffix.tailIsLegal with rfl | ⟨c, s, rfl, hc, hs⟩
      · rfl
      · simpa using ⟨hc, isLegalNickname_iff.mpr hs⟩
    · rw [length_append]
      omega

/-! ## Hexadecimal identities -/

lemma byte_of_nibbles (x y : Fin 16) : ((x.val <<< 4) ||| y.val).toUInt8.toNat >>> 4 = x
    ∧ ((x.val <<< 4) ||| y.val).toUInt8.toNat &&& 0xf = y := by
  have hy := y.isLt
  have hor : (x.val <<< 4) ||| y.val = x.val * 16 + y.val := by
    rw [← Nat.shiftLeft_add_eq_or_of_lt (show y.val < 2 ^ 4 from hy), Nat.shiftLeft_eq]
  have hbyte : ((x.val <<< 4) ||| y.val).toUInt8.toNat = x.val * 16 + y.val := by
    rw [hor, Nat.toUInt8, UInt8.toNat_ofNat']
    omega
  rw [hbyte]
  constructor
  · rw [Nat.shiftRight_eq_div_pow]
    omega
  · rw [Nat.and_two_pow_sub_one_eq_mod _ 4]
    omega

lemma exists_base16DecodePairs : ∀ {hex : List Char}, (∀ c ∈ hex, c ∈ hexCharacters) →
    hex.length % 2 = 0 → ∃ id, base16DecodePairs hex = some id ∧ torStrupper hex = base16Encode id
  | [], _, _ => ⟨[], rfl, rfl⟩
  | [_], _, h => by simp at h
  | c1 :: c2 :: hex, hhex, heven => by
      obtain ⟨x, hx, hx'⟩ := exists_hexDecodeDigit (hhex c1 (by simp))
      obtain ⟨y, hy, hy'⟩ := exists_hexDecodeDigit (hhex c2 (by simp))
      have heven' : hex.length % 2 = 0 := by
        simp only [length_cons] at heven
        omega
      obtain ⟨id, hdecode, hupper⟩ := exists_base16DecodePairs
        (fun c hc => hhex c (mem_cons_of_mem c1 (mem_cons_of_mem c2 hc))) heven'
      refine ⟨((x.val <<< 4) ||| y.val).toUInt8 :: id, ?_, ?_⟩
      · simp [base16DecodePairs, hx, hy, hdecode]
      · obtain ⟨hhigh, hlow⟩ := byte_of_nibbles x y
        rw [torStrupper] at hupper
        rw [torStrupper, map_cons, map_cons, hupper, hx', hy', base16Encode, hhigh, hlow]

lemma mem_base16Encode (h : c ∈ base16Encode id) : ∃ v : Fin 16, c = base16Digit v := by
  induction id with
  | nil => cases h
  | cons b id ih =>
    have hb := b.toNat_lt
    rw [base16Encode, mem_cons, mem_cons] at h
    rcases h with rfl | rfl | h
    · refine ⟨⟨b.toNat >>> 4, ?_⟩, rfl⟩
      omega
    · exact ⟨⟨b.toNat &&& 0xf, Nat.and_lt_two_pow _ (n := 4) (by omega)⟩, rfl⟩
    · exact ih h

lemma hexCharacters_of_torStrupper (h : torStrupper hex = base16Encode id) :
    ∀ c ∈ hex, c ∈ hexCharacters := by
  intro c hc
  have hmem : c.toUpper ∈ base16Encode id := by
    rw [← h]
    exact mem_map_of_mem hc
  obtain ⟨v, hv⟩ := mem_base16Encode hmem
  exact mem_hexCharacters v hv

lemma length_of_torStrupper (h : torStrupper hex = base16Encode id) :
    hex.length = 2 * id.length := by
  rw [← base16Encode_length, ← h, torStrupper, length_map]

lemma base16DecodePairs_of_torStrupper (h : torStrupper hex = base16Encode id) :
    base16DecodePairs hex = some id := by
  obtain ⟨id', hdecode, hupper⟩ := exists_base16DecodePairs (hexCharacters_of_torStrupper h)
    (by rw [length_of_torStrupper h]; omega)
  rw [hdecode, bytesOf_base16Encode_injective (congrArg bytesOf (hupper.symm.trans h))]

lemma hexDigestNicknameDecode_of_torStrupper (hskip : skipDollar cp = hex ++ suffix)
    (hid : id.length = digestLen) (h : torStrupper hex = base16Encode id)
    (hsuffix : HexSuffix suffix) :
    (hexDigestNicknameDecode cp).map Prod.fst = some id := by
  have hlen : hex.length = hexDigestLen := by
    rw [length_of_torStrupper h, hid, digestLen, hexDigestLen]
  have hdecode : base16Decode digestLen (hex ++ suffix) hexDigestLen = some id := by
    rw [base16Decode, if_neg (by decide), if_neg (by decide), if_neg (by rw [length_append]; omega),
      take_left' hlen, base16DecodePairs_of_torStrupper h]
  simp only [hexDigestNicknameDecode, hskip, hdecode]
  rw [if_neg (by rw [length_append]; omega), drop_left' hlen]
  rcases hsuffix.tailIsLegal with rfl | ⟨c, s, rfl, hc, hs⟩
  · simp [hid]
  · have hle := hs.length_le
    have hfits : (hex ++ c :: s).length ≤ hexDigestLen + 1 + maxNicknameLen := by
      rw [length_append, length_cons]
      omega
    simp only [if_pos (And.intro hc hfits), if_pos hid, Option.map_some]

/-! ## The member of an element -/

/-- The member that the loop over the elements writes, if any. -/
def memberOf (cp : List Char) : Option Bytes :=
  if isLegalNickname cp then
    some (byNickname :: (bytesOf (torStrlower cp) ++ List.replicate (digestLen - cp.length) 0))
  else if isLegalHexdigest cp then (hexDigestNicknameDecode cp).map (byRsaId :: ·.1)
  else none

lemma skipDollar_eq (h : skipDollar cp = s) : cp = s ∨ cp = '$' :: s := by
  rw [skipDollar.eq_def] at h
  split at h
  · exact .inr (by rw [h])
  · exact .inl h

lemma skipDollar_hex (hlen : hex.length = hexDigestLen) (hhex : ∀ c ∈ hex, c ∈ hexCharacters) :
    skipDollar (hex ++ suffix) = hex ++ suffix := by
  rw [hexDigestLen] at hlen
  cases hex with
  | nil => cases hlen
  | cons c hex =>
    rw [cons_append, skipDollar.eq_2]
    intro s heq
    obtain ⟨rfl, -⟩ := cons.inj heq
    exact absurd (hhex '$' mem_cons_self) (by decide)

lemma not_isLegalNickname_of_le (h : hexDigestLen ≤ s.length) : isLegalNickname s = false := by
  rw [Bool.eq_false_iff]
  intro hlegal
  have := (isLegalNickname_iff.mp hlegal).length_le
  rw [hexDigestLen] at h
  rw [maxNicknameLen] at this
  omega

lemma memberOf_hexId (id : RsaId) (hhex : torStrupper hex = base16Encode id.val)
    (hsuffix : HexSuffix suffix) (hcp : skipDollar cp = hex ++ suffix) (hle : hexDigestLen ≤ cp.length) :
    memberOf cp = some (byRsaId :: id.val) := by
  have hlen : hex.length = hexDigestLen := by
    rw [length_of_torStrupper hhex, id.property, digestLen, hexDigestLen]
  have hlegal : isLegalHexdigest cp = true :=
    isLegalHexdigest_iff.mpr ⟨hex, suffix, hcp, hlen, hexCharacters_of_torStrupper hhex, hsuffix⟩
  have hdecode := hexDigestNicknameDecode_of_torStrupper hcp id.property hhex hsuffix
  rw [memberOf, not_isLegalNickname_of_le hle, if_neg Bool.false_ne_true, if_pos hlegal]
  obtain ⟨r, hr, hfst⟩ := Option.map_eq_some_iff.mp hdecode
  rw [hr, Option.map_some, hfst]

lemma exists_rsaId_of_isLegalHexdigest (h : isLegalHexdigest cp) : ∃ (id : RsaId) (hex suffix : _),
    torStrupper hex = base16Encode id.val ∧ HexSuffix suffix ∧ skipDollar cp = hex ++ suffix
      ∧ hex.length = hexDigestLen := by
  obtain ⟨hex, suffix, hcp, hlen, hhex, hsuffix⟩ := isLegalHexdigest_iff.mp h
  obtain ⟨id, -, hid⟩ := exists_base16DecodePairs hhex (by rw [hlen]; rfl)
  have hidlen : id.length = digestLen := by
    have := length_of_torStrupper hid
    rw [hlen, hexDigestLen] at this
    rw [digestLen]
    omega
  exact ⟨⟨id, hidlen⟩, hex, suffix, hid, hsuffix, hcp, hlen⟩

lemma hexDigestLen_le_length (h : skipDollar cp = hex ++ suffix) (hlen : hex.length = hexDigestLen) :
    hexDigestLen ≤ cp.length := by
  rcases skipDollar_eq h with rfl | rfl
  · simp [hlen]
  · simp only [length_cons, length_append]
    omega

/-- The source recognises exactly the well-formed elements, and writes what they stand for. -/
theorem memberOf_eq_some : memberOf cp = some m ↔ Denotes cp m := by
  constructor
  · intro h
    by_cases hnick : isLegalNickname cp = true
    · rw [memberOf, if_pos hnick, Option.some.injEq] at h
      rw [← h]
      exact Denotes.nickname (isLegalNickname_iff.mp hnick)
    · by_cases hlegal : isLegalHexdigest cp = true
      · obtain ⟨id, hex, suffix, hhex, hsuffix, hcp, hlen⟩ := exists_rsaId_of_isLegalHexdigest hlegal
        rw [memberOf_hexId id hhex hsuffix hcp (hexDigestLen_le_length hcp hlen),
          Option.some.injEq] at h
        rw [← h]
        rcases skipDollar_eq hcp with rfl | rfl
        · exact Denotes.hexId id hhex hsuffix
        · exact Denotes.dollarHexId id hhex hsuffix
      · rw [memberOf, if_neg hnick, if_neg hlegal] at h
        cases h
  · intro h
    cases h with
    | nickname h => rw [memberOf, if_pos (isLegalNickname_iff.mpr h)]
    | hexId id hhex hsuffix =>
      rename_i hex suffix
      have hlen : hex.length = hexDigestLen := by
        rw [length_of_torStrupper hhex, id.property, digestLen, hexDigestLen]
      have hcp : skipDollar (hex ++ suffix) = hex ++ suffix :=
        skipDollar_hex hlen (hexCharacters_of_torStrupper hhex)
      exact memberOf_hexId id hhex hsuffix hcp (hexDigestLen_le_length hcp hlen)
    | dollarHexId id hhex hsuffix =>
      rename_i hex suffix
      have hlen : hex.length = hexDigestLen := by
        rw [length_of_torStrupper hhex, id.property, digestLen, hexDigestLen]
      have hcp : skipDollar ('$' :: (hex ++ suffix)) = hex ++ suffix := rfl
      exact memberOf_hexId id hhex hsuffix hcp (hexDigestLen_le_length hcp hlen)

lemma memberOf_eq_none :
    memberOf cp = none ↔ isLegalNickname cp = false ∧ isLegalHexdigest cp = false := by
  constructor
  · intro h
    refine ⟨Bool.eq_false_iff.mpr fun hnick => ?_, Bool.eq_false_iff.mpr fun hlegal => ?_⟩
    · rw [memberOf, if_pos hnick] at h
      cases h
    · obtain ⟨id, hex, suffix, hhex, hsuffix, hcp, hlen⟩ := exists_rsaId_of_isLegalHexdigest hlegal
      rw [memberOf_hexId id hhex hsuffix hcp (hexDigestLen_le_length hcp hlen)] at h
      cases h
  · rintro ⟨hnick, hlegal⟩
    simp [memberOf, hnick, hlegal]

/-! ## Case -/

lemma torStrlower_torStrlower (s : List Char) : torStrlower (torStrlower s) = torStrlower s := by
  simp [torStrlower]

lemma wellFormedNickname_torStrlower :
    WellFormedNickname (torStrlower s) ↔ WellFormedNickname s := by
  constructor
  · rintro ⟨hne, hle, halphanum⟩
    refine ⟨by simpa [torStrlower] using hne, by simpa [torStrlower] using hle, fun c hc => ?_⟩
    rw [← isAlphanum_toLower]
    exact halphanum _ (mem_map_of_mem hc)
  · rintro ⟨hne, hle, halphanum⟩
    refine ⟨by simpa [torStrlower] using hne, by simpa [torStrlower] using hle, fun c hc => ?_⟩
    obtain ⟨d, hd, rfl⟩ := mem_map.mp hc
    rw [isAlphanum_toLower]
    exact halphanum d hd

lemma eq_of_toLower_eq (h : c.toLower = d) (hd : d.isAlphanum = false) : c = d := by
  rw [← h, isAlphanum_toLower] at hd
  rw [← h, toLower_eq_self hd]

lemma hexSuffix_torStrlower : HexSuffix (torStrlower suffix) ↔ HexSuffix suffix := by
  constructor
  · intro h
    cases suffix with
    | nil => exact HexSuffix.none
    | cons c s =>
      rcases h.tailIsLegal with hnil | ⟨d, t, hcons, hd, ht⟩
      · cases hnil
      · obtain ⟨hc, rfl⟩ := cons.inj hcons
        rw [← torStrlower, wellFormedNickname_torStrlower] at ht
        rcases hd with rfl | rfl
        · rw [eq_of_toLower_eq hc (by decide)]
          exact HexSuffix.named ht
        · rw [eq_of_toLower_eq hc (by decide)]
          exact HexSuffix.unnamed ht
  · intro h
    cases h with
    | none => exact HexSuffix.none
    | named h => exact HexSuffix.named (wellFormedNickname_torStrlower.mpr h)
    | unnamed h => exact HexSuffix.unnamed (wellFormedNickname_torStrlower.mpr h)

lemma torStrupper_torStrlower (s : List Char) : torStrupper (torStrlower s) = torStrupper s := by
  simp [torStrupper, torStrlower]

lemma denotes_torStrlower : Denotes (torStrlower cp) m ↔ Denotes cp m := by
  constructor
  · intro h
    generalize hs : torStrlower cp = s at h
    cases h with
    | nickname h =>
      rw [← hs, torStrlower_torStrlower, ← length_map Char.toLower, ← torStrlower]
      rw [← hs, wellFormedNickname_torStrlower] at h
      simpa [torStrlower] using Denotes.nickname h
    | hexId id hhex hsuffix =>
      obtain ⟨hex', suffix', rfl, rfl, rfl⟩ := map_eq_append_iff.mp hs
      rw [← torStrlower, torStrupper_torStrlower] at hhex
      rw [← torStrlower, hexSuffix_torStrlower] at hsuffix
      exact Denotes.hexId id hhex hsuffix
    | dollarHexId id hhex hsuffix =>
      obtain ⟨c, tail, rfl, hc, htail⟩ := map_eq_cons_iff.mp hs
      obtain ⟨hex', suffix', rfl, rfl, rfl⟩ := map_eq_append_iff.mp htail
      rw [← torStrlower, torStrupper_torStrlower] at hhex
      rw [← torStrlower, hexSuffix_torStrlower] at hsuffix
      rw [eq_of_toLower_eq hc (by decide)]
      exact Denotes.dollarHexId id hhex hsuffix
  · intro h
    cases h with
    | nickname h =>
      have hlower := Denotes.nickname (wellFormedNickname_torStrlower.mpr h)
      rwa [torStrlower_torStrlower, torStrlower, length_map] at hlower
    | hexId id hhex hsuffix =>
      rw [torStrlower, map_append]
      exact Denotes.hexId id (by rw [← torStrlower, torStrupper_torStrlower, hhex])
        (hexSuffix_torStrlower.mpr hsuffix)
    | dollarHexId id hhex hsuffix =>
      rw [torStrlower, map_cons, map_append]
      exact Denotes.dollarHexId id (by rw [← torStrlower, torStrupper_torStrlower, hhex])
        (hexSuffix_torStrlower.mpr hsuffix)

lemma memberOf_recase (h : torStrlower s = torStrlower t) : memberOf s = memberOf t := by
  refine Option.ext fun m => ?_
  rw [memberOf_eq_some, memberOf_eq_some, ← denotes_torStrlower, h, denotes_torStrlower]

/-! ## A member as a string -/

lemma stringOf_bytesOf (hs : ∀ c ∈ s, c ∈ legalNicknameCharacters) (k : ℕ) :
    stringOf (bytesOf s ++ List.replicate k 0) = s := by
  have hbyte : ∀ c ∈ legalNicknameCharacters,
      c.toNat.toUInt8 ≠ 0 ∧ Char.ofNat c.toNat.toUInt8.toNat = c := by
    intro c hc
    have hrange := isAlphanum_iff_toNat.mp (mem_legalNicknameCharacters.mp hc)
    have htoNat : c.toNat.toUInt8.toNat = c.toNat := by
      rw [Nat.toUInt8, UInt8.toNat_ofNat']
      omega
    refine ⟨fun hzero => ?_, by rw [htoNat, Char.ofNat_toNat]⟩
    rw [hzero] at htoNat
    have hpos : c.toNat = 0 := htoNat.symm
    omega
  have hstop : (replicate k (0 : UInt8)).takeWhile (· ≠ 0) = [] := by
    cases k <;> simp [replicate_succ]
  rw [stringOf, takeWhile_append_of_pos, hstop, append_nil, bytesOf, map_map]
  · exact (map_congr_left fun c hc => (hbyte c (hs c hc)).2).trans (map_id s)
  · intro b hb
    obtain ⟨c, hc, rfl⟩ := mem_map.mp hb
    exact decide_eq_true (hbyte c (hs c hc)).1

lemma torStrupper_base16Encode (id : Bytes) :
    torStrupper (base16Encode id) = base16Encode id := by
  have hdigit : ∀ v : Fin 16, (base16Digit v).toUpper = base16Digit v := by decide
  refine (map_congr_left fun c hc => ?_).trans (map_id _)
  obtain ⟨v, rfl⟩ := mem_base16Encode hc
  exact hdigit v

/-- A member is written as an element that stands for it, without spaces. -/
theorem Denotes.formatted (h : Denotes cp m) : ∃ s, formatMember m = some s ∧ Denotes s m
    ∧ IsPiece isHorizontal s := by
  cases h with
  | nickname h =>
    have hlower := wellFormedNickname_torStrlower.mpr h
    refine ⟨torStrlower cp, ?_, denotes_torStrlower.mpr (Denotes.nickname h), ?_⟩
    · rw [formatMember, if_pos rfl, stringOf_bytesOf]
      exact fun c hc => mem_legalNicknameCharacters.mpr (hlower.alphanum c hc)
    · exact isPiece_of_notSpace hlower.ne_nil
        (fun c hc => not_space_of_alphanum (hlower.alphanum c hc)) fun c => isHorizontal_space
  | hexId id hhex hsuffix | dollarHexId id hhex hsuffix =>
    refine ⟨'$' :: base16Encode id.val, ?_, ?_, ?_⟩
    · rw [formatMember, if_neg (by decide), if_pos rfl, take_of_length_le id.property.le,
        torStrupper, map_cons, ← torStrupper, torStrupper_base16Encode]
      rfl
    · have hid := Denotes.dollarHexId id (torStrupper_base16Encode id.val) HexSuffix.none
      rwa [append_nil] at hid
    · refine isPiece_of_notSpace (cons_ne_nil _ _) (fun c hc => ?_)
        fun c => isHorizontal_space
      have hdigit : ∀ v : Fin 16, isCSpace (base16Digit v) = false := by decide
      rcases mem_cons.mp hc with rfl | hc
      · rfl
      · obtain ⟨v, rfl⟩ := mem_base16Encode hc
        exact hdigit v

end Ator.Nodefamily
