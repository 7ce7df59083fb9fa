import AtorProtocol.Net.AddrText

/-!
# Names for reverse lookups

`tor_addr_to_PTR_name` and `tor_addr_parse_PTR_name` of `src/lib/net/address.c`.

* `nybbles` — the loop over the nybbles of an `ip6.arpa` name.
* `ptrName_roundTrip` — each reads what the other writes, and no name is read past its end.
-/

namespace Ator.Inaddr

open Text List Option
open Policies (TorAddr torAddrFamily afUnspec afInet afInet6)

/-! ## Writing -/

def reverseLookupNameBufLen : ℕ := 73

def inetNtoaBufLen : ℕ := 16

def inAddrArpa : List Char := ".in-addr.arpa".toList

def ip6Arpa : List Char := "ip6.arpa".toList

/-- `"0123456789abcdef"[n]` -/
def hexNybble (n : ℕ) : Char := "0123456789abcdef".toList.getD n '0'

/-- The loop of `tor_addr_to_PTR_name`, over the bytes from the last one on. -/
def writeNybbles : Bytes → List Char
  | [] => []
  | byte :: bytes =>
    hexNybble (byte.toNat % 16) :: '.' :: hexNybble (byte.toNat / 16) :: '.' :: writeNybbles bytes

/-- `tor_addr_to_PTR_name(out, outlen, addr)` -/
def torAddrToPtrName (outlen : ℕ) (addr : TorAddr) : Option (List Char) :=
  match addr with
  | .inet a =>
    let addr := inAddrOf a
    fitted (dottedQuad addr.d addr.c addr.b addr.a ++ inAddrArpa) outlen
  | .inet6 bytes =>
    if outlen < reverseLookupNameBufLen then none
    else some (writeNybbles bytes.1.reverse ++ ip6Arpa)
  | .unspec => none

/-! ## Reading -/

/-- What must not happen. -/
inductive PtrFault where
  | overread
  | pton (fault : PtonFault)

/-- What `tor_addr_parse_PTR_name` returns: 0, -1, or 1 with an address. -/
inductive PtrResult where
  | notPtr
  | malformed
  | parsed (result : TorAddr)
deriving DecidableEq

/-- `!strcasecmp(s1, s2)` -/
def caseEq (s1 s2 : List Char) : Bool := s1.map Char.toLower = s2.map Char.toLower

/-- `!strcasecmpend(s1, s2)` -/
def caseEqEnd (s1 s2 : List Char) : Bool := (s2.map Char.toLower).isSuffixOf (s1.map Char.toLower)

/-- The bytes up to the one that is read. -/
def snocByte {n : ℕ} (bytes : {bs : Bytes // bs.length = n}) (byte : UInt8) :
    {bs : Bytes // bs.length = n + 1} :=
  ⟨bytes.1 ++ [byte], length_append.trans (congrArg (· + 1) bytes.2)⟩

/-- The loop of `tor_addr_parse_PTR_name` over the last `n` bytes, and where it ends.  The NUL behind
the name is read as any character is, but what is behind that is not. -/
def nybbles : (n : ℕ) → List Char →
    Except PtrFault (Option ({bs : Bytes // bs.length = n} × List Char))
  | 0, cp => .ok (some (⟨[], rfl⟩, cp))
  | n + 1, c0 :: d0 :: c1 :: d1 :: cp =>
    if d0 ≠ '.' then .ok none
    else if d1 ≠ '.' then .ok none
    else
      match hexDecodeDigit c0, hexDecodeDigit c1 with
      | some n0, some n1 =>
        (nybbles n cp).map fun out =>
          out.map fun r => (snocByte r.1 (n0 ||| n1 <<< 4).toUInt8, r.2)
      | _, _ => .ok none
  | _ + 1, [_, _, _] => .ok none
  | _ + 1, [_, d0] => if d0 ≠ '.' then .ok none else .error .overread
  | _ + 1, [_] => .ok none
  | _ + 1, [] => .error .overread

/-- `tor_addr_parse_PTR_name(result, address, family, accept_regular)` -/
def torAddrParsePtrName (address : List Char) (family : ℕ) (acceptRegular : Bool) :
    Except PtrFault PtrResult :=
  if caseEqEnd address inAddrArpa then
    if family = afInet6 then .ok .malformed
    else
      let len := address.length - inAddrArpa.length
      if len ≥ inetNtoaBufLen then .ok .malformed
      else
        match torInetAton (address.take len) with
        | none => .ok .malformed
        | some inaddr => .ok (.parsed (torAddrFromIn ⟨inaddr.d, inaddr.c, inaddr.b, inaddr.a⟩))
  else if caseEqEnd address ('.' :: ip6Arpa) then
    if family = afInet then .ok .malformed
    else
      match nybbles 16 address with
      | .error fault => .error fault
      | .ok none => .ok .malformed
      | .ok (some (in6, cp)) =>
        if caseEq cp ip6Arpa then .ok (.parsed (.inet6 in6)) else .ok .malformed
  else if acceptRegular then
    match torAddrParse address with
    | .error fault => .error (.pton fault)
    | .ok none => .ok .notPtr
    | .ok (some tmp) =>
      if torAddrFamily tmp ≠ family ∧ family ≠ afUnspec then .ok .malformed else .ok (.parsed tmp)
  else .ok .notPtr

/-! ## Nybbles -/

variable {n x y : ℕ} {c : Char} {cp front rest text address : List Char} {addr : TorAddr}

lemma hexDecodeDigit_hexNybble (h : n < 16) : hexDecodeDigit (hexNybble n) = some n := by
  interval_cases n <;> decide

lemma toLower_of_hexDecodeDigit (h : hexDecodeDigit c = some x) : c.toLower = hexNybble x := by
  have hc : c = Char.ofNat c.toNat := (Char.ofNat_toNat c).symm
  unfold hexDecodeDigit at h
  split_ifs at h with hdigit hlower hupper
  · have hge : 48 ≤ c.toNat := hdigit.1
    have hle : c.toNat ≤ 57 := hdigit.2
    obtain rfl := some.inj h
    generalize c.toNat = k at hc hge hle
    subst hc
    interval_cases k <;> decide
  · have hge : 97 ≤ c.toNat := hlower.1
    have hle : c.toNat ≤ 102 := hlower.2
    obtain rfl := some.inj h
    generalize c.toNat = k at hc hge hle
    subst hc
    interval_cases k <;> decide
  · have hge : 65 ≤ c.toNat := hupper.1
    have hle : c.toNat ≤ 70 := hupper.2
    obtain rfl := some.inj h
    generalize c.toNat = k at hc hge hle
    subst hc
    interval_cases k <;> decide

lemma toNat_nybbles (hx : x < 16) (hy : y < 16) :
    (x ||| y <<< 4).toUInt8.toNat = y * 16 + x := by
  have hor : x ||| y <<< 4 = y * 16 + x := by
    rw [Nat.or_comm, ← Nat.shiftLeft_add_eq_or_of_lt hx, Nat.shiftLeft_eq]
  rw [hor, Nat.toUInt8, UInt8.toNat_ofNat']
  omega

lemma toLower_writeNybbles (bytes : Bytes) :
    (writeNybbles bytes).map Char.toLower = writeNybbles bytes := by
  have hnybble {n : ℕ} (hn : n < 16) : (hexNybble n).toLower = hexNybble n := by
    interval_cases n <;> decide
  induction bytes with
  | nil => rfl
  | cons byte bytes ih =>
    have hbyte := byte.toNat_lt
    rw [writeNybbles, map_cons, map_cons, map_cons, map_cons, ih,
      hnybble (Nat.mod_lt _ (by decide)), hnybble (by omega)]
    rfl

lemma nybbles_writeNybbles {bytes : Bytes} (hn : bytes.length = n) (rest : List Char) :
    ∃ r, nybbles n (writeNybbles bytes ++ rest) = .ok (some (r, rest)) ∧ r.1 = bytes.reverse := by
  subst hn
  induction bytes with
  | nil => exact ⟨⟨[], rfl⟩, rfl, rfl⟩
  | cons byte bytes ih =>
    obtain ⟨r, hr, hbytes⟩ := ih
    have hbyte := byte.toNat_lt
    have hlow : byte.toNat % 16 < 16 := Nat.mod_lt _ (by decide)
    have hhigh : byte.toNat / 16 < 16 := by omega
    have hsame : (byte.toNat % 16 ||| (byte.toNat / 16) <<< 4).toUInt8 = byte := by
      refine UInt8.toNat_inj.mp ?_
      rw [toNat_nybbles hlow hhigh]
      omega
    refine ⟨snocByte r byte, ?_, ?_⟩
    · change nybbles (bytes.length + 1) (hexNybble (byte.toNat % 16) :: '.' ::
        hexNybble (byte.toNat / 16) :: '.' :: (writeNybbles bytes ++ rest)) = _
      simp only [nybbles, ne_eq, not_true_eq_false, if_false, hexDecodeDigit_hexNybble hlow,
        hexDecodeDigit_hexNybble hhigh, hr, Except.map, map_some, hsame]
    · change r.1 ++ [byte] = _
      rw [hbytes, reverse_cons]

lemma exists_of_nybbles {r : {bs : Bytes // bs.length = n}}
    (h : nybbles n cp = .ok (some (r, rest))) :
    ∃ front, cp = front ++ rest ∧ front.map Char.toLower = writeNybbles r.1.reverse := by
  induction n generalizing cp with
  | zero =>
    obtain ⟨rfl, rfl⟩ := Prod.mk.inj (some.inj (Except.ok.inj h))
    exact ⟨[], rfl, rfl⟩
  | succ n ih =>
    rcases cp with _ | ⟨c0, _ | ⟨d0, _ | ⟨c1, _ | ⟨d1, cp⟩⟩⟩⟩
    · cases h
    · cases h
    · rw [nybbles] at h
      split_ifs at h
      cases h
    · cases h
    · rw [nybbles] at h
      split_ifs at h with hd0 hd1
      · cases h
      · cases h
      split at h
      · next n0 n1 hn0 hn1 =>
          cases hrest : nybbles n cp with
          | error fault =>
            rw [hrest] at h
            cases h
          | ok out =>
            cases out with
            | none =>
              rw [hrest] at h
              cases h
            | some out =>
              obtain ⟨bytes, cp'⟩ := out
              rw [hrest] at h
              obtain ⟨hr, rfl⟩ := Prod.mk.inj (some.inj (Except.ok.inj h))
              obtain ⟨front, rfl, hfront⟩ := ih hrest
              have hlow := hexDecodeDigit_lt hn0
              have hhigh := hexDecodeDigit_lt hn1
              have hbyte := toNat_nybbles hlow hhigh
              refine ⟨c0 :: d0 :: c1 :: d1 :: front, rfl, ?_⟩
              rw [← hr]
              change _ = writeNybbles (bytes.1 ++ [(n0 ||| n1 <<< 4).toUInt8]).reverse
              rw [reverse_append, reverse_singleton, singleton_append,
                writeNybbles, hbyte, ← hfront, not_not.mp hd0, not_not.mp hd1,
                show (n1 * 16 + n0) % 16 = n0 by omega, show (n1 * 16 + n0) / 16 = n1 by omega,
                ← toLower_of_hexDecodeDigit hn0, ← toLower_of_hexDecodeDigit hn1]
              rfl
      · cases h

/-- **No name is read past its end**: one that ends in the suffix has no dots where they would be
needed. -/
lemma exists_nybbles (h : ('.' :: ip6Arpa) <:+ cp.map Char.toLower ∨ cp.map Char.toLower = ip6Arpa) :
    ∃ r, nybbles n cp = .ok r := by
  have harpa : ip6Arpa = ['i', 'p', '6', '.', 'a', 'r', 'p', 'a'] := by decide
  have hdot : Char.toLower '.' = '.' := by decide
  induction n generalizing cp with
  | zero => exact ⟨_, rfl⟩
  | succ n ih =>
    have hlen : 8 ≤ cp.length := by
      rcases h with ⟨front, hfront⟩ | h
      · have hlength := congrArg length hfront
        rw [length_append, length_map, harpa] at hlength
        simp only [length_cons, length_nil] at hlength
        omega
      · have hlength := congrArg length h
        rw [length_map, harpa] at hlength
        exact hlength.ge
    rcases cp with _ | ⟨c0, _ | ⟨d0, _ | ⟨c1, _ | ⟨d1, cp⟩⟩⟩⟩
    · simp at hlen
    · simp at hlen
    · simp at hlen
    · simp at hlen
    · rw [nybbles]
      split_ifs with hd0 hd1
      · exact ⟨_, rfl⟩
      · exact ⟨_, rfl⟩
      obtain rfl := not_not.mp hd0
      obtain rfl := not_not.mp hd1
      rw [map_cons, map_cons, map_cons, map_cons, hdot, harpa] at h
      have hnext : ('.' :: ip6Arpa) <:+ cp.map Char.toLower ∨ cp.map Char.toLower = ip6Arpa := by
        rcases h with ⟨front, hfront⟩ | h
        · -- The letters of the suffix are not where the dots are.
          rcases front with _ | ⟨a, _ | ⟨b, _ | ⟨c, _ | ⟨d, front⟩⟩⟩⟩
          · simp at hfront
          · simp at hfront
          · simp at hfront
          · simp only [cons_append, nil_append, cons.injEq] at hfront
            exact .inr (by rw [harpa]; exact hfront.2.2.2.2.symm)
          · simp only [cons_append, cons.injEq] at hfront
            exact .inl ⟨front, by rw [harpa]; exact hfront.2.2.2.2⟩
        · simp at h
      obtain ⟨r, hr⟩ := ih hnext
      split
      · rw [hr]
        exact ⟨_, rfl⟩
      · exact ⟨_, rfl⟩

/-! ## Names -/

lemma caseEqEnd_append (s t : List Char) : caseEqEnd (s ++ t) t = true := by
  rw [caseEqEnd, isSuffixOf_iff_suffix, map_append]
  exact suffix_append _ _

lemma not_caseEqEnd_inAddrArpa (h : caseEqEnd address ('.' :: ip6Arpa) = true) :
    caseEqEnd address inAddrArpa = false := by
  rw [caseEqEnd, isSuffixOf_iff_suffix] at h
  refine Bool.eq_false_iff.mpr fun hin => ?_
  rw [caseEqEnd, isSuffixOf_iff_suffix] at hin
  have hsuffix := suffix_of_suffix_length_le h hin (by decide)
  exact absurd hsuffix (by decide)

lemma exists_of_caseEqEnd {suffix : List Char} (h : caseEqEnd address suffix = true) :
    ∃ front last, address = front ++ last ∧ last.map Char.toLower = suffix.map Char.toLower ∧
      front = address.take (address.length - suffix.length) := by
  rw [caseEqEnd, isSuffixOf_iff_suffix] at h
  obtain ⟨front, hfront⟩ := h
  obtain ⟨front', last, rfl, rfl, hlast⟩ := map_eq_append_iff.mp hfront.symm
  refine ⟨front', last, rfl, hlast, ?_⟩
  have hlength := congrArg length hlast
  rw [length_map, length_map] at hlength
  rw [length_append, hlength, Nat.add_sub_cancel, take_left]

lemma exists_inAddrOf (inaddr : InAddr) :
    ∃ a, torAddrFromIn inaddr = .inet a ∧ inAddrOf a = inaddr := by
  obtain ⟨a, b, c, d⟩ := inaddr
  have ha := a.toNat_lt
  have hb := b.toNat_lt
  have hc := c.toNat_lt
  have hd := d.toNat_lt
  refine ⟨_, rfl, ?_⟩
  simp only [inAddrOf, BitVec.toNat_ofNat, InAddr.mk.injEq]
  refine ⟨toUInt8_eq ?_, toUInt8_eq ?_, toUInt8_eq ?_, toUInt8_eq ?_⟩ <;> omega

lemma exists_writeNybbles {bytes : Bytes} (hne : bytes ≠ []) :
    ∃ front, writeNybbles bytes = front ++ ['.'] := by
  induction bytes with
  | nil => exact absurd rfl hne
  | cons byte bytes ih =>
    by_cases hnil : bytes = []
    · subst hnil
      exact ⟨[hexNybble (byte.toNat % 16), '.', hexNybble (byte.toNat / 16)], rfl⟩
    · obtain ⟨front, hfront⟩ := ih hnil
      refine ⟨hexNybble (byte.toNat % 16) :: '.' :: hexNybble (byte.toNat / 16) :: '.' :: front, ?_⟩
      rw [writeNybbles, hfront]
      rfl

/-- **A name that is written is read back.** -/
lemma torAddrParsePtrName_to {outlen family : ℕ} {acceptRegular : Bool}
    (h : torAddrToPtrName outlen addr = some text)
    (hfamily : family = afUnspec ∨ family = torAddrFamily addr) :
    torAddrParsePtrName text family acceptRegular = .ok (.parsed addr) := by
  cases addr with
  | unspec => cases h
  | inet a =>
    obtain ⟨rfl, -⟩ := fitted_eq_some.mp h
    have hnot6 : family ≠ afInet6 := by
      rcases hfamily with rfl | rfl
      · decide
      · simp [torAddrFamily, afInet, afInet6]
    have hquad := (length_dottedQuad (inAddrOf a).d (inAddrOf a).c (inAddrOf a).b (inAddrOf a).a).2
    have haton := torInetAton_ntoa ⟨(inAddrOf a).d, (inAddrOf a).c, (inAddrOf a).b, (inAddrOf a).a⟩
    rw [torInetNtoa] at haton
    rw [torAddrParsePtrName, if_pos (caseEqEnd_append _ _), if_neg hnot6]
    simp only [length_append, Nat.add_sub_cancel, take_left, haton]
    rw [if_neg (by rw [inetNtoaBufLen]; omega), ← torAddrFromIn_inAddrOf a]
  | inet6 bytes =>
    have hnot4 : family ≠ afInet := by
      rcases hfamily with rfl | rfl
      · decide
      · simp [torAddrFamily, afInet, afInet6]
    rw [torAddrToPtrName] at h
    split_ifs at h
    obtain rfl := some.inj h
    have hlength : bytes.1.reverse.length = 16 := by rw [length_reverse, bytes.2]
    obtain ⟨r, hr, hbytes⟩ := nybbles_writeNybbles hlength ip6Arpa
    obtain rfl : r = bytes := Subtype.ext (by rw [hbytes, reverse_reverse])
    have hne : r.1.reverse ≠ [] := ne_nil_of_length_pos (by omega)
    have hend : caseEqEnd (writeNybbles r.1.reverse ++ ip6Arpa) ('.' :: ip6Arpa) = true := by
      obtain ⟨front, hfront⟩ := exists_writeNybbles hne
      rw [hfront, append_assoc, singleton_append]
      exact caseEqEnd_append _ _
    have hcase : caseEq ip6Arpa ip6Arpa = true := by decide
    rw [torAddrParsePtrName, not_caseEqEnd_inAddrArpa hend, if_neg (by decide), if_pos hend,
      if_neg hnot4, hr]
    simp only
    rw [if_pos hcase]

/-- **A name that is read is written again**, up to the case of its letters. -/
lemma torAddrToPtrName_parse {family : ℕ} {acceptRegular : Bool}
    (hptr : caseEqEnd address inAddrArpa = true ∨ caseEqEnd address ('.' :: ip6Arpa) = true)
    (h : torAddrParsePtrName address family acceptRegular = .ok (.parsed addr)) :
    ∃ name, torAddrToPtrName reverseLookupNameBufLen addr = some name ∧
      caseEq name address = true := by
  rw [torAddrParsePtrName] at h
  rcases hptr with hin | hip6
  · obtain ⟨front, last, rfl, hlast, hfront⟩ := exists_of_caseEqEnd hin
    rw [if_pos hin] at h
    by_cases hfamily : family = afInet6
    · rw [if_pos hfamily] at h
      cases h
    rw [if_neg hfamily] at h
    simp only [← hfront] at h
    split_ifs at h
    · cases h
    split at h
    · cases h
    · next inaddr haton =>
        obtain rfl := PtrResult.parsed.inj (Except.ok.inj h)
        obtain ⟨a, ha, hof⟩ := exists_inAddrOf ⟨inaddr.d, inaddr.c, inaddr.b, inaddr.a⟩
        have htext := torInetAton_eq_some.mp haton
        have hquad := (length_dottedQuad inaddr.a inaddr.b inaddr.c inaddr.d).2
        have hname : torAddrToPtrName reverseLookupNameBufLen (.inet a)
            = some (front ++ inAddrArpa) := by
          have harpa : inAddrArpa.length = 13 := by decide
          rw [torAddrToPtrName]
          simp only [hof]
          refine fitted_eq_some.mpr ⟨by rw [htext, torInetNtoa], ?_⟩
          rw [length_append, harpa, reverseLookupNameBufLen]
          omega
        rw [ha]
        refine ⟨_, hname, decide_eq_true ?_⟩
        rw [map_append, map_append, hlast]
  · rw [not_caseEqEnd_inAddrArpa hip6, if_neg (by decide), if_pos hip6] at h
    by_cases hfamily : family = afInet
    · rw [if_pos hfamily] at h
      cases h
    rw [if_neg hfamily] at h
    cases hread : nybbles 16 address with
    | error fault =>
      rw [hread] at h
      cases h
    | ok out =>
      rw [hread] at h
      rcases out with _ | ⟨in6, cp⟩
      · cases h
      simp only at h
      by_cases hcase : caseEq cp ip6Arpa = true
      swap
      · rw [if_neg hcase] at h
        cases h
      rw [if_pos hcase] at h
      obtain rfl := PtrResult.parsed.inj (Except.ok.inj h)
      obtain ⟨front, rfl, hfront⟩ := exists_of_nybbles hread
      refine ⟨writeNybbles in6.1.reverse ++ ip6Arpa, ?_, decide_eq_true ?_⟩
      · rw [torAddrToPtrName, if_neg (lt_irrefl _)]
      · have hcase := of_decide_eq_true hcase
        rw [map_append, map_append, hcase, hfront, toLower_writeNybbles]

lemma exists_torAddrToPtrName {outlen : ℕ} (haddr : addr ≠ .unspec)
    (hlen : reverseLookupNameBufLen ≤ outlen) : ∃ name, torAddrToPtrName outlen addr = some name := by
  cases addr with
  | unspec => exact absurd rfl haddr
  | inet a =>
    have hquad := (length_dottedQuad (inAddrOf a).d (inAddrOf a).c (inAddrOf a).b (inAddrOf a).a).2
    have harpa : inAddrArpa.length = 13 := by decide
    rw [reverseLookupNameBufLen] at hlen
    refine ⟨_, fitted_eq_some.mpr ⟨rfl, ?_⟩⟩
    rw [length_append, harpa]
    omega
  | inet6 bytes => exact ⟨_, if_neg (Nat.not_lt.mpr hlen)⟩

/-- No name is read past its end. -/
lemma exists_torAddrParsePtrName (address : List Char) (family : ℕ) (acceptRegular : Bool) :
    ∃ r, torAddrParsePtrName address family acceptRegular = .ok r := by
  rw [torAddrParsePtrName]
  by_cases hin : caseEqEnd address inAddrArpa = true
  · rw [if_pos hin]
    by_cases hfamily : family = afInet6
    · rw [if_pos hfamily]
      exact ⟨_, rfl⟩
    rw [if_neg hfamily]
    simp only
    split
    · exact ⟨_, rfl⟩
    split <;> exact ⟨_, rfl⟩
  rw [if_neg hin]
  by_cases hip6 : caseEqEnd address ('.' :: ip6Arpa) = true
  · have hsuffix := hip6
    rw [caseEqEnd, isSuffixOf_iff_suffix] at hsuffix
    obtain ⟨r, hr⟩ := exists_nybbles (n := 16) (.inl hsuffix)
    rw [if_pos hip6, hr]
    split_ifs
    · exact ⟨_, rfl⟩
    rcases r with _ | ⟨in6, cp⟩
    · exact ⟨_, rfl⟩
    simp only
    split <;> exact ⟨_, rfl⟩
  rw [if_neg hip6]
  obtain ⟨regular, hregular⟩ := exists_torAddrParse address
  split_ifs
  · rw [hregular]
    rcases regular with _ | tmp
    · exact ⟨_, rfl⟩
    simp only
    split <;> exact ⟨_, rfl⟩
  · exact ⟨_, rfl⟩

/-- **Names for reverse lookups are read back**, of each address and for each family that allows it;
a name that is read is that of its address, up to the case of its letters; and no name is read past
its end. -/
theorem ptrName_roundTrip :
    (∀ (addr : TorAddr) (outlen : ℕ), addr ≠ .unspec → reverseLookupNameBufLen ≤ outlen →
      ∃ name, torAddrToPtrName outlen addr = some name) ∧
    (∀ (addr : TorAddr) (outlen family : ℕ) (acceptRegular : Bool) (name : List Char),
      torAddrToPtrName outlen addr = some name → (family = afUnspec ∨ family = torAddrFamily addr) →
        torAddrParsePtrName name family acceptRegular = .ok (.parsed addr)) ∧
    (∀ (address : List Char) (family : ℕ) (acceptRegular : Bool) (addr : TorAddr),
      (caseEqEnd address inAddrArpa = true ∨ caseEqEnd address ('.' :: ip6Arpa) = true) →
      torAddrParsePtrName address family acceptRegular = .ok (.parsed addr) →
        ∃ name, torAddrToPtrName reverseLookupNameBufLen addr = some name ∧
          caseEq name address = true) ∧
    (∀ (address : List Char) (family : ℕ) (acceptRegular : Bool),
      ∃ r, torAddrParsePtrName address family acceptRegular = .ok r) :=
  ⟨fun _ _ haddr hlen => exists_torAddrToPtrName haddr hlen,
    fun _ _ _ _ _ h hfamily => torAddrParsePtrName_to h hfamily,
    fun _ _ _ _ hptr h => torAddrToPtrName_parse hptr h, exists_torAddrParsePtrName⟩

end Ator.Inaddr
