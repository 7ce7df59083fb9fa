import AtorProtocol.Dirauth.RouterstatusConsensus

/-!
# Comparing addresses

`tor_addr_compare` and `tor_addr_compare_masked` of `src/lib/net/address.c`, for every family and
both ways to compare.  A semantic comparison takes an IPv6 address that stands for an IPv4 one as
that, but only beside an IPv4 address.

* `AddrRef` — an address, with those of AF_UNIX.
* `firstBits` — what a mask leaves of an address, as a number.
* `Comparable` — the lists that are ordered; `totalOrder_iff` says that these are all.
-/

namespace Ator.Net

open List
open Policies (TorAddr torAddrFamily afUnspec afInet afInet6 tristate torMemcmp)
open Dirauth (ordOf byteOrder)
open Nat (add_zero mul_add_div shiftRight_add shiftRight_eq_div_pow shiftRight_eq_zero sub_le)

/-! ## Addresses -/

/-- `tor_addr_t` in memory: one of AF_UNIX has nothing but its place. -/
inductive AddrRef where
  | ip (addr : TorAddr)
  | unix (place : ℕ)
deriving DecidableEq

def afUnix : ℕ := 1

inductive TorAddrComparison where
  | exact
  | semantic
deriving DecidableEq

/-- `tor_addr_family` -/
def addrFamily : AddrRef → ℕ
  | .ip addr => torAddrFamily addr
  | .unix _ => afUnix

def torAddrToIpv4h : AddrRef → ℕ
  | .ip (.inet a) => a.toNat
  | _ => 0

def torAddrToMappedIpv4h : AddrRef → ℕ
  | .ip (.inet6 a) => getUint (a.1.drop 12)
  | _ => 0

/-- The first twelve bytes of an IPv6 address that stands for an IPv4 one. -/
def mappedPrefix : Bytes := [0, 0, 0, 0, 0, 0, 0, 0, 0, 0, 0xff, 0xff]

def torAddrIsV4 : AddrRef → Bool
  | .ip (.inet _) => true
  | .ip (.inet6 a) => a.1.take 12 = mappedPrefix
  | _ => false

/-- `tor_addr_compare_masked`; two addresses of one family are compared alike either way. -/
def torAddrCompareMasked (addr1 addr2 : AddrRef) (mbits : ℕ) (how : TorAddrComparison) : ℤ :=
  let family1 := addrFamily addr1
  let family2 := addrFamily addr2
  if family1 = family2 then
    match addr1, addr2 with
    | .ip a1, .ip a2 => Policies.torAddrCompareMasked a1 a2 mbits
    | .unix place1, .unix place2 => tristate place1 place2
    | _, _ => 0
  else if how = .exact then tristate family1 family2
  else if mbits = 0 then 0
  else
    let vFamily1 := if family1 = afInet6 ∧ torAddrIsV4 addr1 then afInet else family1
    let vFamily2 := if family2 = afInet6 ∧ torAddrIsV4 addr2 then afInet else family2
    if vFamily1 = vFamily2 then
      let a1 := if family1 = afInet6 then torAddrToMappedIpv4h addr1 else torAddrToIpv4h addr1
      let a2 := if family2 = afInet6 then torAddrToMappedIpv4h addr2 else torAddrToIpv4h addr2
      if family1 = afInet6 ∧ mbits ≤ 96 then 0
      else
        let mbits := if family1 = afInet6 then mbits - 96 else mbits
        let mbits := if mbits > 32 then 32 else mbits
        tristate (a1 >>> (32 - mbits)) (a2 >>> (32 - mbits))
    else tristate family1 family2

def torAddrCompare (addr1 addr2 : AddrRef) (how : TorAddrComparison) : ℤ :=
  torAddrCompareMasked addr1 addr2 128 how

/-- The number of the first bits of an IPv4 address. -/
def inetBits (a mbits : ℕ) : ℕ := a >>> (32 - min mbits 32)

/-- The number of the first bits of an IPv6 address. -/
def inet6Bits (a : {bs : Bytes // bs.length = 16}) (mbits : ℕ) : ℕ :=
  getUint a.1 >>> (128 - min mbits 128)

/-- The number of the first bits of an address.  A mask leaves the place of one of AF_UNIX. -/
def firstBits : AddrRef → ℕ → ℕ
  | .ip .unspec, _ => 0
  | .ip (.inet a), mbits => inetBits a.toNat mbits
  | .ip (.inet6 a), mbits => inet6Bits a mbits
  | .unix place, _ => place

/-- What an exact comparison sees: the family, and then the first bits. -/
def exactKey (mbits : ℕ) (addr : AddrRef) : ℕ ×ₗ ℕ := toLex (addrFamily addr, firstBits addr mbits)

/-! ## Bytes and bits -/

variable {x y : ℕ}

lemma getUint_append (as bs : Bytes) :
    getUint (as ++ bs) = getUint as * 256 ^ bs.length + getUint bs := by
  induction bs using List.reverseRecOn with
  | nil => simp [getUint]
  | append_singleton bs b ih =>
    have hsnoc (l : Bytes) : getUint (l ++ [b]) = getUint l * 256 + b.toNat := by
      rw [getUint, foldl_append]
      rfl
    rw [← append_assoc, hsnoc, hsnoc, ih, length_append, length_singleton, pow_succ]
    ring

lemma getUint_cons (c : UInt8) (bs : Bytes) :
    getUint (c :: bs) = c.toNat * 256 ^ bs.length + getUint bs := by
  have hone : getUint [c] = c.toNat := by simp [getUint]
  rw [← hone, ← getUint_append, singleton_append]

lemma pow_256 (n : ℕ) : 256 ^ n = 2 ^ (8 * n) := by
  rw [pow_mul]
  rfl

lemma getUint_lt (bs : Bytes) : getUint bs < 256 ^ bs.length := by
  induction bs with
  | nil => simp [getUint]
  | cons c bs ih =>
    have hc := c.toNat_lt
    rw [getUint_cons, length_cons, pow_succ]
    nlinarith

variable {k : ℕ}

lemma getUint_cons_shiftRight (c : UInt8) (bs : Bytes) (hk : k < 8) :
    getUint (c :: bs) >>> (8 * (bs.length + 1) - k) = c.toNat >>> (8 - k) := by
  have hlt := getUint_lt bs
  rw [show 8 * (bs.length + 1) - k = 8 * bs.length + (8 - k) by omega, shiftRight_add,
    shiftRight_eq_div_pow _ (8 * bs.length), ← pow_256, getUint_cons, mul_comm,
    mul_add_div (by positivity), Nat.div_eq_of_lt hlt, add_zero]

lemma getUint_cons_shiftRight' (c : UInt8) (bs : Bytes) (hk : k ≤ 8 * bs.length) :
    getUint (c :: bs) >>> (8 * (bs.length + 1) - (k + 8))
      = c.toNat * 2 ^ k + getUint bs >>> (8 * bs.length - k) := by
  have hpow : 256 ^ bs.length = 2 ^ k * 2 ^ (8 * bs.length - k) := by
    rw [← pow_add, Nat.add_sub_cancel' hk, pow_256]
  rw [show 8 * (bs.length + 1) - (k + 8) = 8 * bs.length - k by omega, getUint_cons, hpow,
    ← mul_assoc, shiftRight_eq_div_pow, shiftRight_eq_div_pow, mul_comm _ (2 ^ (_ - k)),
    mul_add_div (by positivity)]

lemma getUint_shiftRight_lt (bs : Bytes) (hk : k ≤ 8 * bs.length) :
    getUint bs >>> (8 * bs.length - k) < 2 ^ k := by
  have hlt := getUint_lt bs
  rw [shiftRight_eq_div_pow]
  refine Nat.div_lt_of_lt_mul (hlt.trans_eq ?_)
  rw [← pow_add, Nat.sub_add_cancel hk, pow_256]

lemma compare_mul_add {c d n : ℕ} (hx : x < n) (hy : y < n) :
    compare (c * n + x) (d * n + y) = (compare c d).then (compare x y) := by
  rcases lt_trichotomy c d with h | rfl | h
  · rw [compare_lt_iff_lt.mpr h, compare_lt_iff_lt.mpr]
    · rfl
    · nlinarith
  · rw [compare_eq_iff_eq.mpr rfl]
    rcases lt_trichotomy x y with h | rfl | h
    · rw [compare_lt_iff_lt.mpr h, compare_lt_iff_lt.mpr (by omega)]
      rfl
    · rw [compare_eq_iff_eq.mpr rfl, compare_eq_iff_eq.mpr rfl]
      rfl
    · rw [compare_gt_iff_gt.mpr h, compare_gt_iff_gt.mpr (by omega)]
      rfl
  · rw [compare_gt_iff_gt.mpr h, compare_gt_iff_gt.mpr]
    · rfl
    · nlinarith

lemma compare_firstBits {as bs : Bytes} (hlen : as.length = bs.length)
    (hk : k ≤ 8 * as.length) :
    compare (getUint as >>> (8 * as.length - k)) (getUint bs >>> (8 * as.length - k))
      = (byteOrder (as.take (k / 8)) (bs.take (k / 8))).then
        (if k % 8 ≠ 0 then
          compare ((as.getD (k / 8) 0).toNat >>> (8 - k % 8)) ((bs.getD (k / 8) 0).toNat >>> (8 - k % 8))
        else .eq) := by
  induction as generalizing bs k with
  | nil =>
    obtain rfl := length_eq_zero_iff.mp hlen.symm
    obtain rfl : k = 0 := by simpa using hk
    rfl
  | cons c as ih =>
    obtain ⟨d, bs, rfl⟩ := exists_cons_of_length_eq_add_one hlen.symm
    have hlen' : as.length = bs.length := by simpa using hlen
    rw [length_cons] at hk ⊢
    rcases Nat.lt_or_ge k 8 with hlt | hge
    · have hc := getUint_cons_shiftRight c as hlt
      have hd := getUint_cons_shiftRight d bs hlt
      rw [← hlen'] at hd
      rw [hc, hd, Nat.div_eq_of_lt hlt, Nat.mod_eq_of_lt hlt]
      by_cases hzero : k = 0
      · have hshift (b : UInt8) : b.toNat >>> 8 = 0 := shiftRight_eq_zero _ _ b.toNat_lt
        subst hzero
        rw [Nat.sub_zero, hshift, hshift]
        rfl
      · rw [if_pos hzero]
        rfl
    · obtain ⟨k, rfl⟩ := Nat.exists_eq_add_of_le' hge
      have hk' : k ≤ 8 * as.length := by omega
      have hc := getUint_cons_shiftRight' c as hk'
      have hd := getUint_cons_shiftRight' d bs (hlen' ▸ hk')
      have hx := getUint_shiftRight_lt as hk'
      have hy := getUint_shiftRight_lt bs (hlen' ▸ hk')
      rw [← hlen'] at hd hy
      rw [hc, hd, compare_mul_add hx hy, ih hlen' hk', Nat.add_div_right k (by decide),
        Nat.add_mod_right, take_succ_cons, take_succ_cons, getD_cons_succ,
        getD_cons_succ, byteOrder, List.compareLex_cons_cons, Ordering.then_assoc]
      rfl

/-- **A masked comparison of IPv6 addresses** compares their first bits. -/
lemma compare_inet6 (a b : {bs : Bytes // bs.length = 16}) (m : ℕ) :
    compare (Policies.torAddrCompareMasked (.inet6 a) (.inet6 b) m) 0
      = compare (inet6Bits a m) (inet6Bits b m) := by
  have hcap : (if m > 128 then 128 else m) = min m 128 := by
    split <;> omega
  have hbytes : min m 128 >>> 3 = min m 128 / 8 := shiftRight_eq_div_pow _ 3
  have hleft : min m 128 &&& 7 = min m 128 % 8 := Nat.and_two_pow_sub_one_eq_mod _ 3
  have hbits := compare_firstBits (a.2.trans b.2.symm) (k := min m 128) (by rw [a.2]; omega)
  have hlen : (a.1.take (min m 128 / 8)).length = (b.1.take (min m 128 / 8)).length := by
    rw [List.length_take, List.length_take, a.2, b.2]
  have hmemcmp := Dirauth.compare_torMemcmp hlen
  rw [a.2] at hbits
  rw [inet6Bits, inet6Bits, hbits, ← hmemcmp]
  simp only [Policies.torAddrCompareMasked, hcap, hbytes, hleft]
  by_cases hr : torMemcmp (a.1.take (min m 128 / 8)) (b.1.take (min m 128 / 8)) = 0
  · rw [if_neg (fun h => h.2 hr), hr, compare_eq_iff_eq.mpr rfl, Ordering.eq_then]
    split
    · exact Dirauth.compare_tristate _ _
    · rfl
  · have hne : min m 128 / 8 ≠ 0 := by
      intro hzero
      rw [hzero] at hr
      exact hr rfl
    have hcmp : compare (torMemcmp (a.1.take (min m 128 / 8)) (b.1.take (min m 128 / 8))) 0 ≠ .eq :=
      fun heq => hr (compare_eq_iff_eq.mp heq)
    rw [if_pos ⟨hne, hr⟩]
    cases hcase : compare (torMemcmp (a.1.take (min m 128 / 8)) (b.1.take (min m 128 / 8))) 0 with
    | lt => rfl
    | eq => exact absurd hcase hcmp
    | gt => rfl

lemma compare_inet (a b : BitVec 32) (m : ℕ) :
    compare (Policies.torAddrCompareMasked (.inet a) (.inet b) m) 0
      = compare (inetBits a.toNat m) (inetBits b.toNat m) := by
  have hcap : (if m > 32 then 32 else m) = min m 32 := by
    split <;> omega
  rw [inetBits, inetBits]
  by_cases hm : m = 0
  · have hshift (c : BitVec 32) : c.toNat >>> 32 = 0 := shiftRight_eq_zero _ _ c.isLt
    simp [Policies.torAddrCompareMasked, hm, hshift]
  · simp only [Policies.torAddrCompareMasked, if_neg hm, hcap, BitVec.toNat_ushiftRight]
    exact Dirauth.compare_tristate _ _

/-! ## Exact comparisons -/

variable {a b : AddrRef}

lemma compare_of_family_eq (h : addrFamily a = addrFamily b) (m : ℕ)
    (how : TorAddrComparison) :
    compare (torAddrCompareMasked a b m how) 0 = compare (firstBits a m) (firstBits b m) := by
  unfold torAddrCompareMasked
  cases a with
  | unix i =>
    cases b with
    | unix j => exact Dirauth.compare_tristate i j
    | ip b => cases b <;> simp [addrFamily, torAddrFamily, afUnix, afUnspec, afInet, afInet6] at h
  | ip a =>
    cases b with
    | unix j => cases a <;> simp [addrFamily, torAddrFamily, afUnix, afUnspec, afInet, afInet6] at h
    | ip b =>
      cases a <;> cases b <;>
        simp only [addrFamily, torAddrFamily, afUnspec, afInet, afInet6, OfNat.zero_ne_ofNat,
          OfNat.ofNat_ne_zero, Nat.reduceEqDiff] at h
      · rfl
      · exact compare_inet _ _ m
      · exact compare_inet6 _ _ m

lemma compare_exactKey_of_ne (h : addrFamily a ≠ addrFamily b) (m : ℕ) :
    compare (exactKey m a) (exactKey m b) = compare (addrFamily a) (addrFamily b) := by
  have hne : compare (addrFamily a) (addrFamily b) ≠ .eq := fun heq => h (compare_eq_iff_eq.mp heq)
  rw [exactKey, exactKey, Prod.Lex.compare_def]
  cases hcase : compare (addrFamily a) (addrFamily b) with
  | lt => simp [compareLex, compareOn, hcase]
  | eq => exact absurd hcase hne
  | gt => simp [compareLex, compareOn, hcase]

lemma compare_exactKey_of_eq (h : addrFamily a = addrFamily b) (m : ℕ) :
    compare (exactKey m a) (exactKey m b) = compare (firstBits a m) (firstBits b m) := by
  rw [exactKey, exactKey, Prod.Lex.compare_def]
  simp [compareLex, compareOn, h]

/-- **An exact comparison** compares the keys. -/
lemma compare_exact (a b : AddrRef) (m : ℕ) :
    ordOf (torAddrCompareMasked · · m .exact) a b = compare (exactKey m a) (exactKey m b) := by
  rw [ordOf]
  by_cases h : addrFamily a = addrFamily b
  · rw [compare_of_family_eq h, compare_exactKey_of_eq h]
  · rw [compare_exactKey_of_ne h, ← Dirauth.compare_tristate]
    unfold torAddrCompareMasked
    simp only [if_neg h, if_true]

/-! ## Semantic comparisons -/

/-- The IPv4 address that an IPv6 address stands for. -/
def mapped4 (a : {bs : Bytes // bs.length = 16}) : ℕ := getUint (a.1.drop 12)

lemma mapped4_lt (a : {bs : Bytes // bs.length = 16}) : getUint (a.1.drop 12) < 2 ^ 32 := by
  have hlt := getUint_lt (a.1.drop 12)
  rw [length_drop, a.2] at hlt
  exact hlt

/-- An IPv6 address that stands for an IPv4 one. -/
def IsMapped (a : {bs : Bytes // bs.length = 16}) : Prop := a.1.take 12 = mappedPrefix

instance isMapped_decidable (a : {bs : Bytes // bs.length = 16}) : Decidable (IsMapped a) :=
  inferInstanceAs (Decidable (a.1.take 12 = mappedPrefix))

/-- An IPv4 address beside an IPv6 one that stands for such. -/
def Mixed : AddrRef → AddrRef → Prop
  | .ip (.inet _), .ip (.inet6 w) => IsMapped w
  | .ip (.inet6 w), .ip (.inet _) => IsMapped w
  | _, _ => False

variable {m : ℕ} {a b : AddrRef} {v : BitVec 32} {p w : {bs : Bytes // bs.length = 16}}

lemma compare_semantic_zero (h : addrFamily a ≠ addrFamily b) :
    ordOf (torAddrCompareMasked · · 0 .semantic) a b = .eq := by
  simp [ordOf, torAddrCompareMasked, h]

/-- The family that a semantic comparison takes an address to be of. -/
def semanticFamily (addr : AddrRef) : ℕ :=
  if addrFamily addr = afInet6 ∧ torAddrIsV4 addr then afInet else addrFamily addr

@[simp]
lemma semanticFamily_unspec : semanticFamily (.ip .unspec) = afUnspec := by
  simp [semanticFamily, torAddrIsV4, addrFamily, torAddrFamily]

@[simp]
lemma semanticFamily_inet (v : BitVec 32) : semanticFamily (.ip (.inet v)) = afInet := by
  simp [semanticFamily, torAddrIsV4, addrFamily, torAddrFamily]

@[simp]
lemma semanticFamily_inet6 (w : {bs : Bytes // bs.length = 16}) :
    semanticFamily (.ip (.inet6 w)) = if IsMapped w then afInet else afInet6 := by
  by_cases hw : IsMapped w
  · have htake : w.1.take 12 = mappedPrefix := hw
    simp [semanticFamily, torAddrIsV4, addrFamily, torAddrFamily, hw, htake]
  · have htake : w.1.take 12 ≠ mappedPrefix := hw
    simp [semanticFamily, torAddrIsV4, addrFamily, torAddrFamily, hw, htake]

@[simp]
lemma semanticFamily_unix (i : ℕ) : semanticFamily (.unix i) = afUnix := by
  simp [semanticFamily, torAddrIsV4, addrFamily]

/-- Addresses of two families keep their order, when one is taken to be of another family: only an
IPv4 address and one that stands for such become of one. -/
lemma family_lt_iff (hfam : addrFamily a ≠ addrFamily b) (h : ¬Mixed a b) {c d : ℕ}
    (hc : c = addrFamily a ∨ c = semanticFamily a) (hd : d = addrFamily b ∨ d = semanticFamily b) :
    c ≠ d ∧ (addrFamily a < addrFamily b ↔ c < d) ∧ (addrFamily b < addrFamily a ↔ d < c) := by
  have hfamilies : afUnspec = 0 ∧ afUnix = 1 ∧ afInet = 2 ∧ afInet6 = 10 := ⟨rfl, rfl, rfl, rfl⟩
  rcases a with (_ | v | w) | i <;> rcases b with (_ | v' | w') | j <;>
    simp only [semanticFamily_unspec, semanticFamily_inet, semanticFamily_inet6,
      semanticFamily_unix, Mixed, addrFamily, torAddrFamily] at h hfam hc hd ⊢ <;>
    first
    | exact absurd rfl hfam
    | (split_ifs at hc <;> omega)
    | (split_ifs at hd <;> omega)
    | omega

lemma compare_semantic (hm : m ≠ 0) (h : ¬Mixed a b) :
    ordOf (torAddrCompareMasked · · m .semantic) a b = compare (exactKey m a) (exactKey m b) := by
  rw [ordOf]
  by_cases hfam : addrFamily a = addrFamily b
  · rw [compare_of_family_eq hfam, compare_exactKey_of_eq hfam]
  · have hne := (family_lt_iff hfam h (.inr rfl) (.inr rfl)).1
    rw [semanticFamily, semanticFamily] at hne
    rw [compare_exactKey_of_ne hfam, ← Dirauth.compare_tristate]
    unfold torAddrCompareMasked
    simp only [if_neg hfam, reduceCtorEq, if_false, if_neg hm, if_neg hne]

lemma compare_inet_mapped (hm : m ≠ 0) (hw : IsMapped w) :
    ordOf (torAddrCompareMasked · · m .semantic) (.ip (.inet v)) (.ip (.inet6 w))
      = compare (inetBits v.toNat m) (inetBits (mapped4 w) m) := by
  have hv4 : torAddrIsV4 (.ip (.inet6 w)) = true := decide_eq_true hw
  have hcap : (if m > 32 then 32 else m) = min m 32 := by
    split <;> omega
  rw [inetBits, inetBits, mapped4, ← Dirauth.compare_tristate, ordOf]
  simp only [torAddrCompareMasked, addrFamily, torAddrFamily, afInet, afInet6, hv4, Nat.reduceEqDiff,
    if_false, if_true, reduceCtorEq, if_neg hm, and_true, false_and, hcap, torAddrToIpv4h,
    torAddrToMappedIpv4h]

lemma compare_mapped_inet (hm : m ≠ 0) (hw : IsMapped w) :
    ordOf (torAddrCompareMasked · · m .semantic) (.ip (.inet6 w)) (.ip (.inet v))
      = compare (inetBits (mapped4 w) (m - 96)) (inetBits v.toNat (m - 96)) := by
  have hv4 : torAddrIsV4 (.ip (.inet6 w)) = true := decide_eq_true hw
  have hcap : (if m - 96 > 32 then 32 else m - 96) = min (m - 96) 32 := by
    split <;> omega
  rw [inetBits, inetBits, mapped4, ← Dirauth.compare_tristate, ordOf]
  simp only [torAddrCompareMasked, addrFamily, torAddrFamily, afInet, afInet6, hv4, Nat.reduceEqDiff,
    if_false, if_true, reduceCtorEq, if_neg hm, and_true, true_and, false_and, hcap, torAddrToIpv4h,
    torAddrToMappedIpv4h]
  by_cases hle : m ≤ 96
  · rw [if_pos hle, Nat.sub_eq_zero_of_le hle]
    simp only [Nat.zero_min, Nat.sub_zero, shiftRight_eq_zero _ _ v.isLt,
      shiftRight_eq_zero _ _ (mapped4_lt w)]
    rfl
  · rw [if_neg hle]

/-! ## Shorter masks -/

lemma inetBits_le_of_le {c d k : ℕ} (hk : k ≤ m) (h : inetBits c m ≤ inetBits d m) :
    inetBits c k ≤ inetBits d k := by
  have hsplit : 32 - min k 32 = (32 - min m 32) + (min m 32 - min k 32) := by omega
  rw [inetBits, inetBits, hsplit, shiftRight_add, shiftRight_add,
    shiftRight_eq_div_pow _ (min m 32 - min k 32), shiftRight_eq_div_pow _ (min m 32 - min k 32)]
  exact Nat.div_le_div_right h

lemma inetBits_lt_of_lt {c d k : ℕ} (hk : k ≤ m) (h : inetBits c k < inetBits d k) :
    inetBits c m < inetBits d m := by
  by_contra hle
  exact absurd h (Nat.not_lt.mpr (inetBits_le_of_le hk (Nat.le_of_not_lt hle)))

lemma inet6Bits_of_isMapped (hw : IsMapped w) (m : ℕ) :
    inet6Bits w m = (getUint mappedPrefix * 2 ^ 32) >>> (128 - min m 128)
      + inetBits (mapped4 w) (m - 96) := by
  have hlt : mapped4 w < 2 ^ 32 := mapped4_lt w
  have hnum : getUint w.1 = getUint mappedPrefix * 2 ^ 32 + mapped4 w := by
    have hlen : (w.1.drop 12).length = 4 := by rw [length_drop, w.2]
    have happ := getUint_append (w.1.take 12) (w.1.drop 12)
    rw [take_append_drop, hw, hlen] at happ
    exact happ
  rw [inet6Bits, inetBits, hnum]
  generalize mapped4 w = c at hlt
  generalize getUint mappedPrefix = d
  rcases Nat.le_total (128 - min m 128) 32 with hle | hge
  · have hshift : 32 - min (m - 96) 32 = 128 - min m 128 := by omega
    obtain ⟨e, he⟩ := Nat.exists_eq_add_of_le hle
    have hpow : 2 ^ 32 = 2 ^ (128 - min m 128) * 2 ^ e := by rw [← pow_add, ← he]
    rw [hshift, hpow, shiftRight_eq_div_pow, shiftRight_eq_div_pow, shiftRight_eq_div_pow,
      mul_left_comm, mul_add_div (by positivity), Nat.mul_div_cancel_left _ (by positivity)]
  · obtain ⟨e, he⟩ := Nat.exists_eq_add_of_le hge
    have hzero : c >>> (32 - min (m - 96) 32) = 0 :=
      shiftRight_eq_zero _ _ (hlt.trans_le (Nat.pow_le_pow_right (by decide) (by omega)))
    rw [hzero, he, shiftRight_add, shiftRight_add, shiftRight_eq_div_pow _ 32,
      shiftRight_eq_div_pow _ 32, mul_comm d, mul_add_div (by positivity),
      Nat.mul_div_cancel_left _ (by positivity), Nat.div_eq_of_lt hlt, add_zero, add_zero]

lemma compare_plain_inet (hm : m ≠ 0) (hp : ¬IsMapped p) :
    ordOf (torAddrCompareMasked · · m .semantic) (.ip (.inet6 p)) (.ip (.inet v)) = .gt := by
  have hmix : ¬Mixed (.ip (.inet6 p)) (.ip (.inet v)) := hp
  have hne : addrFamily (.ip (.inet6 p)) ≠ addrFamily (.ip (.inet v)) := by
    simp [addrFamily, torAddrFamily, afInet, afInet6]
  rw [compare_semantic hm hmix, compare_exactKey_of_ne hne]
  rfl

lemma compare_inet_plain (hm : m ≠ 0) (hp : ¬IsMapped p) :
    ordOf (torAddrCompareMasked · · m .semantic) (.ip (.inet v)) (.ip (.inet6 p)) = .lt := by
  have hmix : ¬Mixed (.ip (.inet v)) (.ip (.inet6 p)) := hp
  have hne : addrFamily (.ip (.inet v)) ≠ addrFamily (.ip (.inet6 p)) := by
    simp [addrFamily, torAddrFamily, afInet, afInet6]
  rw [compare_semantic hm hmix, compare_exactKey_of_ne hne]
  rfl

/-! ## Lists that are ordered -/

/-- The mask leaves addresses that an order can tell apart. -/
def Comparable (how : TorAddrComparison) (m : ℕ) (l : List AddrRef) : Prop :=
  how = .semantic →
    if m = 0 then
      ∀ a ∈ l, addrFamily a ≠ afUnix → ∀ i j, .unix i ∈ l → .unix j ∈ l → i = j
    else
      ∀ v w, .ip (.inet v) ∈ l → .ip (.inet6 w) ∈ l → IsMapped w →
        (inetBits (mapped4 w) (m - 96) = inetBits v.toNat (m - 96) →
          inetBits (mapped4 w) m = inetBits v.toNat m) ∧
        (inetBits (mapped4 w) (m - 96) ≤ inetBits v.toNat (m - 96) →
          ∀ p, .ip (.inet6 p) ∈ l → ¬IsMapped p → inet6Bits w m < inet6Bits p m)

/-- By its bits behind the prefix, an address stands for one that comes before an IPv4 address. -/
def BelowInet (m : ℕ) (l : List AddrRef) (w : {bs : Bytes // bs.length = 16}) : Prop :=
  IsMapped w ∧ ∃ v, .ip (.inet v) ∈ l ∧ inetBits (mapped4 w) (m - 96) ≤ inetBits v.toNat (m - 96)

open Classical in
/-- The place of an address in a list that is ordered. -/
noncomputable def semanticKey (m : ℕ) (l : List AddrRef) : AddrRef → ℕ ×ₗ ℕ ×ₗ ℕ
  | .ip (.inet v) => toLex (afInet, toLex (inetBits v.toNat (m - 96), inetBits v.toNat m))
  | .ip (.inet6 w) =>
    if BelowInet m l w then
      toLex (afInet, toLex (inetBits (mapped4 w) (m - 96),
        if ∃ v, .ip (.inet v) ∈ l ∧ inetBits (mapped4 w) (m - 96) = inetBits v.toNat (m - 96) then
          inetBits (mapped4 w) m else 0))
    else toLex (afInet6, toLex (inet6Bits w m, 0))
  | addr => toLex (addrFamily addr, toLex (firstBits addr m, 0))

variable {l : List AddrRef}

lemma semanticKey_inet (m : ℕ) (l : List AddrRef) (v : BitVec 32) :
    semanticKey m l (.ip (.inet v))
      = toLex (afInet, toLex (inetBits v.toNat (m - 96), inetBits v.toNat m)) := rfl

lemma semanticKey_of_not_below (h : ¬BelowInet m l w) :
    semanticKey m l (.ip (.inet6 w)) = toLex (afInet6, toLex (inet6Bits w m, 0)) := by
  rw [semanticKey, if_neg h]

lemma semanticKey_of_below (h : BelowInet m l w) :
    ∃ n, semanticKey m l (.ip (.inet6 w)) = toLex (afInet, toLex (inetBits (mapped4 w) (m - 96), n)) ∧
      ((∃ v, .ip (.inet v) ∈ l ∧ inetBits (mapped4 w) (m - 96) = inetBits v.toNat (m - 96)) →
        n = inetBits (mapped4 w) m) ∧
      ((¬∃ v, .ip (.inet v) ∈ l ∧ inetBits (mapped4 w) (m - 96) = inetBits v.toNat (m - 96)) →
        n = 0) := by
  rw [semanticKey, if_pos h]
  exact ⟨_, rfl, fun heq => if_pos heq, fun hne => if_neg hne⟩

lemma compare_congr {α β : Type*} [LinearOrder α] [LinearOrder β] {c d : α} {e f : β}
    (hlt : c < d ↔ e < f) (hgt : d < c ↔ f < e) : compare c d = compare e f := by
  rcases lt_trichotomy c d with h | rfl | h
  · rw [compare_lt_iff_lt.mpr h, compare_lt_iff_lt.mpr (hlt.mp h)]
  · have heq : e = f := le_antisymm (not_lt.mp fun h => lt_irrefl c (hgt.mpr h))
      (not_lt.mp fun h => lt_irrefl c (hlt.mpr h))
    rw [compare_eq_iff_eq.mpr rfl, compare_eq_iff_eq.mpr heq]
  · rw [compare_gt_iff_gt.mpr h, compare_gt_iff_gt.mpr (hgt.mp h)]

lemma compare_inetBits (hk : k ≤ m) (c d : ℕ) :
    compare (inetBits c m) (inetBits d m)
      = compare (toLex (inetBits c k, inetBits c m) : ℕ ×ₗ ℕ) (toLex (inetBits d k, inetBits d m)) := by
  have hcd := inetBits_le_of_le (c := c) (d := d) hk
  have hdc := inetBits_le_of_le (c := d) (d := c) hk
  refine compare_congr ?_ ?_ <;> simp only [Prod.Lex.toLex_lt_toLex] <;> omega

/-- The lists that are ordered, behind a mask that leaves something. -/
structure Ordered (m : ℕ) (l : List AddrRef) : Prop where
  pos : m ≠ 0
  eq_of_eq : ∀ v w, .ip (.inet v) ∈ l → .ip (.inet6 w) ∈ l → IsMapped w →
    inetBits (mapped4 w) (m - 96) = inetBits v.toNat (m - 96) →
      inetBits (mapped4 w) m = inetBits v.toNat m
  below : ∀ v w, .ip (.inet v) ∈ l → .ip (.inet6 w) ∈ l → IsMapped w →
    inetBits (mapped4 w) (m - 96) ≤ inetBits v.toNat (m - 96) →
      ∀ p, .ip (.inet6 p) ∈ l → ¬IsMapped p → inet6Bits w m < inet6Bits p m

lemma compare_key_mixed (hv : .ip (.inet v) ∈ l) (hmap : IsMapped w) :
    compare (inetBits v.toNat m) (inetBits (mapped4 w) m)
      = compare (semanticKey m l (.ip (.inet v))) (semanticKey m l (.ip (.inet6 w))) := by
  have hle : m - 96 ≤ m := sub_le m 96
  have hlt := inetBits_lt_of_lt (c := v.toNat) (d := mapped4 w) hle
  have hgt := inetBits_lt_of_lt (c := mapped4 w) (d := v.toNat) hle
  rw [semanticKey_inet]
  by_cases hbelow : BelowInet m l w
  · obtain ⟨n, hkey, hn, -⟩ := semanticKey_of_below hbelow
    have hn' : inetBits (mapped4 w) (m - 96) = inetBits v.toNat (m - 96) →
        n = inetBits (mapped4 w) m := fun hcoarse => hn ⟨v, hv, hcoarse⟩
    rw [hkey]
    refine compare_congr ?_ ?_ <;>
      simp only [Prod.Lex.toLex_lt_toLex, lt_irrefl, false_or, true_and] <;> omega
  · have hfar : inetBits v.toNat (m - 96) < inetBits (mapped4 w) (m - 96) :=
      Nat.lt_of_not_le fun hcoarse => hbelow ⟨hmap, v, hv, hcoarse⟩
    rw [semanticKey_of_not_below hbelow]
    refine compare_congr ?_ ?_ <;>
      simp only [Prod.Lex.toLex_lt_toLex, afInet, afInet6] <;> omega

lemma lt_of_below (h : Ordered m l) (hbelow : BelowInet m l w) (hp : .ip (.inet6 p) ∈ l)
    (hw : .ip (.inet6 w) ∈ l) (hnot : ¬BelowInet m l p) : inet6Bits w m < inet6Bits p m := by
  obtain ⟨hmap, v, hv, hcoarse⟩ := hbelow
  by_cases hpmap : IsMapped p
  · have hfar : inetBits v.toNat (m - 96) < inetBits (mapped4 p) (m - 96) :=
      Nat.lt_of_not_le fun hle => hnot ⟨hpmap, v, hv, hle⟩
    rw [inet6Bits_of_isMapped hmap, inet6Bits_of_isMapped hpmap]
    omega
  · exact h.below v w hv hw hmap hcoarse p hp hpmap

lemma compare_key_inet6 (h : Ordered m l) (hp : .ip (.inet6 p) ∈ l) (hw : .ip (.inet6 w) ∈ l) :
    compare (inet6Bits p m) (inet6Bits w m)
      = compare (semanticKey m l (.ip (.inet6 p))) (semanticKey m l (.ip (.inet6 w))) := by
  by_cases hpb : BelowInet m l p <;> by_cases hwb : BelowInet m l w
  · obtain ⟨n, hkey, hn, hzero⟩ := semanticKey_of_below hpb
    obtain ⟨n', hkey', hn', hzero'⟩ := semanticKey_of_below hwb
    have hsame : inetBits (mapped4 p) (m - 96) = inetBits (mapped4 w) (m - 96) → n = n' := by
      intro hcoarse
      rw [← hcoarse] at hn' hzero'
      by_cases hex : ∃ v, .ip (.inet v) ∈ l ∧
          inetBits (mapped4 p) (m - 96) = inetBits v.toNat (m - 96)
      · obtain ⟨v, hv, hpv⟩ := hex
        rw [hn ⟨v, hv, hpv⟩, hn' ⟨v, hv, hpv⟩, h.eq_of_eq v p hv hp hpb.1 hpv,
          h.eq_of_eq v w hv hw hwb.1 (hcoarse ▸ hpv)]
      · rw [hzero hex, hzero' hex]
    rw [hkey, hkey', inet6Bits_of_isMapped hpb.1, inet6Bits_of_isMapped hwb.1]
    refine compare_congr ?_ ?_ <;>
      simp only [Prod.Lex.toLex_lt_toLex, lt_irrefl, false_or, true_and] <;> omega
  · obtain ⟨n, hkey, -, -⟩ := semanticKey_of_below hpb
    have hlt := lt_of_below h hpb hw hp hwb
    rw [hkey, semanticKey_of_not_below hwb]
    refine compare_congr ?_ ?_ <;> simp only [Prod.Lex.toLex_lt_toLex, afInet, afInet6] <;> omega
  · obtain ⟨n, hkey, -, -⟩ := semanticKey_of_below hwb
    have hlt := lt_of_below h hwb hp hw hpb
    rw [hkey, semanticKey_of_not_below hpb]
    refine compare_congr ?_ ?_ <;> simp only [Prod.Lex.toLex_lt_toLex, afInet, afInet6] <;> omega
  · rw [semanticKey_of_not_below hpb, semanticKey_of_not_below hwb]
    refine compare_congr ?_ ?_ <;>
      simp only [Prod.Lex.toLex_lt_toLex, lt_irrefl, and_false, or_false, false_or, true_and]

lemma compare_key_family {c d : ℕ} {x y : ℕ ×ₗ ℕ} (ha : semanticKey m l a = toLex (c, x))
    (hb : semanticKey m l b = toLex (d, y)) (hne : c ≠ d)
    (hlt : addrFamily a < addrFamily b ↔ c < d) (hgt : addrFamily b < addrFamily a ↔ d < c) :
    compare (exactKey m a) (exactKey m b) = compare (semanticKey m l a) (semanticKey m l b) := by
  have hfam : addrFamily a ≠ addrFamily b := by omega
  rw [compare_exactKey_of_ne hfam, ha, hb]
  refine compare_congr ?_ ?_ <;> simp only [Prod.Lex.toLex_lt_toLex] <;> omega

lemma exists_semanticKey (m : ℕ) (l : List AddrRef) (a : AddrRef) :
    ∃ c x, semanticKey m l a = toLex (c, x) ∧ (c = addrFamily a ∨ c = semanticFamily a) := by
  rcases a with (_ | v | w) | i
  · exact ⟨_, _, rfl, .inl rfl⟩
  · exact ⟨_, _, rfl, .inl rfl⟩
  · by_cases hw : BelowInet m l w
    · obtain ⟨n, hkey, -, -⟩ := semanticKey_of_below hw
      exact ⟨_, _, hkey, .inr (by rw [semanticFamily_inet6, if_pos hw.1])⟩
    · exact ⟨_, _, semanticKey_of_not_below hw, .inl rfl⟩
  · exact ⟨_, _, rfl, .inl rfl⟩

lemma compare_shorter (h : Ordered m l) (hv : .ip (.inet v) ∈ l) (hw : .ip (.inet6 w) ∈ l)
    (hmap : IsMapped w) :
    compare (inetBits (mapped4 w) (m - 96)) (inetBits v.toNat (m - 96))
      = compare (inetBits (mapped4 w) m) (inetBits v.toNat m) := by
  have hle : m - 96 ≤ m := sub_le m 96
  have heq := h.eq_of_eq v w hv hw hmap
  have hlt := inetBits_lt_of_lt (c := v.toNat) (d := mapped4 w) hle
  have hgt := inetBits_lt_of_lt (c := mapped4 w) (d := v.toNat) hle
  refine compare_congr ?_ ?_ <;> omega

lemma compare_key_of_eq (h : Ordered m l) (ha : a ∈ l) (hb : b ∈ l)
    (hfam : addrFamily a = addrFamily b) :
    compare (firstBits a m) (firstBits b m) = compare (semanticKey m l a) (semanticKey m l b) := by
  rcases a with (_ | v | w) | i <;> rcases b with (_ | v' | w') | j <;>
    simp only [addrFamily, torAddrFamily, afUnspec, afUnix, afInet, afInet6, OfNat.zero_ne_ofNat,
      OfNat.ofNat_ne_zero, OfNat.one_ne_ofNat, OfNat.ofNat_ne_one, zero_ne_one, one_ne_zero,
      Nat.reduceEqDiff] at hfam
  · rw [compare_eq_iff_eq.mpr rfl, compare_eq_iff_eq.mpr rfl]
  · rw [semanticKey_inet, semanticKey_inet]
    have hbits := compare_inetBits (sub_le m 96) v.toNat v'.toNat
    refine hbits.trans (compare_congr ?_ ?_) <;>
      simp only [Prod.Lex.toLex_lt_toLex, lt_irrefl, false_or, true_and]
  · exact compare_key_inet6 h ha hb
  · refine compare_congr ?_ ?_ <;>
      simp only [semanticKey, firstBits, addrFamily, Prod.Lex.toLex_lt_toLex, lt_irrefl, false_or,
        true_and, and_false, or_false]

/-- **In a list that is ordered** a semantic comparison compares the keys. -/
lemma compare_semanticKey (h : Ordered m l) (ha : a ∈ l) (hb : b ∈ l) :
    ordOf (torAddrCompareMasked · · m .semantic) a b
      = compare (semanticKey m l a) (semanticKey m l b) := by
  by_cases hmix : Mixed a b
  · rcases a with (_ | v | w) | i <;> rcases b with (_ | v' | w') | j <;>
      try exact hmix.elim
    · rw [compare_inet_mapped h.pos hmix]
      exact compare_key_mixed ha hmix
    · rw [compare_mapped_inet h.pos hmix, compare_shorter h hb ha hmix, Std.OrientedOrd.eq_swap,
        compare_key_mixed hb hmix]
      exact Std.OrientedOrd.eq_swap.symm
  · rw [compare_semantic h.pos hmix]
    by_cases hfam : addrFamily a = addrFamily b
    · rw [compare_exactKey_of_eq hfam]
      exact compare_key_of_eq h ha hb hfam
    · obtain ⟨c, x, hkey, hc⟩ := exists_semanticKey m l a
      obtain ⟨d, y, hkey', hd⟩ := exists_semanticKey m l b
      obtain ⟨hne, hlt, hgt⟩ := family_lt_iff hfam hmix hc hd
      exact compare_key_family hkey hkey' hne hlt hgt

/-! ## The lists that are ordered are these -/

lemma comparable_of_consistent_zero
    (h : Consistent (ordOf fun a b => torAddrCompareMasked a b 0 .semantic) l) :
    Comparable .semantic 0 l := by
  intro _
  rw [if_pos rfl]
  intro a ha hfam i j hi hj
  have hplaces (i j : ℕ) (hi : .unix i ∈ l) (hj : .unix j ∈ l) : i ≤ j := by
    have htrans := h.trans _ hi _ ha _ hj
    have hia := compare_semantic_zero (a := .unix i) (b := a) (Ne.symm hfam)
    have haj := compare_semantic_zero (a := a) (b := .unix j) hfam
    have hij := compare_of_family_eq (a := .unix i) (b := .unix j) rfl 0 .semantic
    rw [ordOf] at hia haj
    rw [ordOf, ordOf, ordOf, hia, haj, hij] at htrans
    exact compare_le_iff_le.mp (htrans (by decide) (by decide))
  exact le_antisymm (hplaces i j hi hj) (hplaces j i hj hi)

lemma comparable_of_consistent (hm : m ≠ 0)
    (h : Consistent (ordOf fun a b => torAddrCompareMasked a b m .semantic) l) :
    Comparable .semantic m l := by
  intro _
  rw [if_neg hm]
  intro v w hv hw hmap
  have hswap := h.swap _ hv _ hw
  rw [compare_inet_mapped hm hmap, compare_mapped_inet hm hmap] at hswap
  constructor
  · intro hcoarse
    rw [compare_eq_iff_eq.mpr hcoarse] at hswap
    have heq : compare (inetBits v.toNat m) (inetBits (mapped4 w) m) = .eq := by
      cases hcase : compare (inetBits v.toNat m) (inetBits (mapped4 w) m) with
      | lt => simp [hcase] at hswap
      | eq => rfl
      | gt => simp [hcase] at hswap
    exact (compare_eq_iff_eq.mp heq).symm
  · intro hcoarse p hp hplain
    have hpv := compare_plain_inet (v := v) hm hplain
    have hvp : ordOf (torAddrCompareMasked · · m .semantic) (.ip (.inet v)) (.ip (.inet6 p)) ≠ .gt := by
      rw [compare_inet_plain hm hplain]
      decide
    have hwv : ordOf (torAddrCompareMasked · · m .semantic) (.ip (.inet6 w)) (.ip (.inet v)) ≠ .gt := by
      rw [compare_mapped_inet hm hmap]
      exact compare_le_iff_le.mpr hcoarse
    have hbits (p w : {bs : Bytes // bs.length = 16}) :
        ordOf (torAddrCompareMasked · · m .semantic) (.ip (.inet6 p)) (.ip (.inet6 w))
          = compare (inet6Bits p m) (inet6Bits w m) :=
      compare_of_family_eq (a := .ip (.inet6 p)) (b := .ip (.inet6 w)) rfl m .semantic
    have hwp := h.trans _ hw _ hv _ hp hwv hvp
    rw [hbits] at hwp
    refine lt_of_le_of_ne (compare_le_iff_le.mp hwp) fun heq => ?_
    refine h.trans _ hp _ hw _ hv ?_ hwv hpv
    rw [hbits]
    exact compare_le_iff_le.mpr (Nat.le_of_eq heq.symm)

lemma exists_unix (h : addrFamily a = afUnix) : ∃ i, a = .unix i := by
  rcases a with (_ | v | w) | i
  · simp [addrFamily, torAddrFamily, afUnspec, afUnix] at h
  · simp [addrFamily, torAddrFamily, afInet, afUnix] at h
  · simp [addrFamily, torAddrFamily, afInet6, afUnix] at h
  · exact ⟨i, rfl⟩

lemma firstBits_zero (hfam : addrFamily a = addrFamily b) (ha : addrFamily a ≠ afUnix) :
    firstBits a 0 = firstBits b 0 := by
  have hzero (c : AddrRef) (hc : addrFamily c ≠ afUnix) : firstBits c 0 = 0 := by
    rcases c with (_ | v | w) | i
    · rfl
    · exact shiftRight_eq_zero _ _ v.isLt
    · have hlt := getUint_lt w.1
      rw [w.2] at hlt
      exact shiftRight_eq_zero _ _ hlt
    · exact absurd rfl hc
  rw [hzero a ha, hzero b (hfam ▸ ha)]

lemma consistent_of_comparable_zero (h : Comparable .semantic 0 l) :
    Consistent (ordOf fun a b => torAddrCompareMasked a b 0 .semantic) l := by
  have hplaces := h rfl
  rw [if_pos rfl] at hplaces
  by_cases hall : ∀ a ∈ l, addrFamily a = afUnix
  · refine .of_key (firstBits · 0) fun a ha b hb => ?_
    exact compare_of_family_eq ((hall a ha).trans (hall b hb).symm) 0 .semantic
  · obtain ⟨c, hc, hcfam⟩ : ∃ c ∈ l, addrFamily c ≠ afUnix := by
      push Not at hall
      exact hall
    refine .of_key (fun _ => 0) fun a ha b hb => ?_
    by_cases hfam : addrFamily a = addrFamily b
    · have hbits : firstBits a 0 = firstBits b 0 := by
        by_cases hunix : addrFamily a = afUnix
        · obtain ⟨i, rfl⟩ := exists_unix hunix
          obtain ⟨j, rfl⟩ := exists_unix (hfam.symm.trans hunix)
          rw [hplaces c hc hcfam i j ha hb]
        · exact firstBits_zero hfam hunix
      rw [ordOf, compare_of_family_eq hfam, hbits, compare_eq_iff_eq.mpr rfl]
      rfl
    · exact compare_semantic_zero hfam

/-- **A masked comparison is a total preorder on a list** when the mask leaves addresses that an
order can tell apart, and only then; so is a comparison of all the bits. -/
theorem totalOrder_iff (how : TorAddrComparison) (l : List AddrRef) :
    (∀ m, Consistent (ordOf fun a b => torAddrCompareMasked a b m how) l ↔ Comparable how m l) ∧
    (Consistent (ordOf fun a b => torAddrCompare a b how) l ↔ Comparable how 128 l) := by
  have hmasked (m : ℕ) :
      Consistent (ordOf fun a b => torAddrCompareMasked a b m how) l ↔ Comparable how m l := by
    cases how with
    | exact =>
      refine iff_of_true ?_ ?_
      · exact .of_key (exactKey m) fun a _ b _ => compare_exact a b m
      · intro hhow
        cases hhow
    | semantic =>
      by_cases hm : m = 0
      · subst hm
        exact ⟨comparable_of_consistent_zero, consistent_of_comparable_zero⟩
      · refine ⟨comparable_of_consistent hm, fun h => ?_⟩
        have hpairs := h rfl
        rw [if_neg hm] at hpairs
        have hord : Ordered m l :=
          ⟨hm, fun v w hv hw hmap => (hpairs v w hv hw hmap).1,
            fun v w hv hw hmap => (hpairs v w hv hw hmap).2⟩
        exact .of_key (semanticKey m l) fun a ha b hb => compare_semanticKey hord ha hb
  exact ⟨hmasked, hmasked 128⟩

/-- `::1`, `::ffff:1.2.3.4` and `1.2.3.4` go round: the second equals the third, which comes before
the first, which comes before the second. -/
theorem totalOrder_fails :
    ¬Consistent (ordOf fun a b => torAddrCompare a b .semantic)
      [.ip (.inet6 ⟨[0, 0, 0, 0, 0, 0, 0, 0, 0, 0, 0, 0, 0, 0, 0, 1], rfl⟩),
        .ip (.inet6 ⟨[0, 0, 0, 0, 0, 0, 0, 0, 0, 0, 0xff, 0xff, 1, 2, 3, 4], rfl⟩),
        .ip (.inet 0x01020304)] := by
  intro h
  refine h.trans (.ip (.inet6 ⟨[0, 0, 0, 0, 0, 0, 0, 0, 0, 0, 0xff, 0xff, 1, 2, 3, 4], rfl⟩)) ?_
    (.ip (.inet 0x01020304)) ?_
    (.ip (.inet6 ⟨[0, 0, 0, 0, 0, 0, 0, 0, 0, 0, 0, 0, 0, 0, 0, 1], rfl⟩)) ?_ ?_ ?_ ?_
  · simp
  · simp
  · simp
  · decide
  · decide
  · decide

end Ator.Net
