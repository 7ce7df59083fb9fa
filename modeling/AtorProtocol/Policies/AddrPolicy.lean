import AtorProtocol.Encoding.Binascii
import AtorProtocol.Lib.FirstMatch

/-!
# Address policies

The masked comparison of `src/lib/net/address.c`, and the answers that `src/core/or/policies.c`
gives for an address and a port with a policy: a list of entries of which the first match counts.

* `compareKnown_eq` — the answer for a known address and port is a first match.
-/

namespace Ator.Policies

open List

/-- `tor_addr_t`, for the families a policy can have. -/
inductive TorAddr where
  | unspec
  | inet (a : BitVec 32)
  | inet6 (a : {bs : Bytes // bs.length = 16})
deriving DecidableEq

/-- The families, with their numbers. -/
def afUnspec : ℕ := 0
def afInet : ℕ := 2
def afInet6 : ℕ := 10

def torAddrFamily : TorAddr → ℕ
  | .unspec => afUnspec
  | .inet _ => afInet
  | .inet6 _ => afInet6

/-- `TRISTATE(a,b)` -/
def tristate (a b : ℕ) : ℤ := if a < b then -1 else if a = b then 0 else 1

/-- `tor_memcmp` on as many bytes as the two have: the difference of the first two that differ. -/
def torMemcmp : Bytes → Bytes → ℤ
  | a :: as, b :: bs => if a = b then torMemcmp as bs else (a.toNat : ℤ) - b.toNat
  | _, _ => 0

/-- `tor_addr_compare_masked(addr1, addr2, mbits, CMP_EXACT)` -/
def torAddrCompareMasked (addr1 addr2 : TorAddr) (mbits : ℕ) : ℤ :=
  match addr1, addr2 with
  | .unspec, .unspec => 0
  | .inet a1, .inet a2 =>
    if mbits = 0 then 0
    else
      let mbits := if mbits > 32 then 32 else mbits
      tristate (a1 >>> (32 - mbits)).toNat (a2 >>> (32 - mbits)).toNat
  | .inet6 a1, .inet6 a2 =>
    let mbits := if mbits > 128 then 128 else mbits
    let bytes := mbits >>> 3
    let leftoverBits := mbits &&& 7
    let r := torMemcmp (a1.1.take bytes) (a2.1.take bytes)
    if bytes ≠ 0 ∧ r ≠ 0 then r
    else if leftoverBits ≠ 0 then
      tristate ((a1.1.getD bytes 0).toNat >>> (8 - leftoverBits))
        ((a2.1.getD bytes 0).toNat >>> (8 - leftoverBits))
    else 0
  | _, _ => tristate (torAddrFamily addr1) (torAddrFamily addr2)

/-- `addr_policy_action_t` -/
inductive PolicyType where
  | accept
  | reject
deriving DecidableEq

structure AddrPolicy where
  policyType : PolicyType
  addr : TorAddr
  maskbits : ℕ
  prtMin : ℕ
  prtMax : ℕ
deriving DecidableEq

inductive AddrPolicyResult where
  | accepted
  | rejected
  | probablyAccepted
  | probablyRejected
deriving DecidableEq

/-! ## Answers -/

/-- The loop of `compare_known_tor_addr_to_addr_policy` -/
def compareKnown (addr : TorAddr) (port : ℕ) : List AddrPolicy → AddrPolicyResult
  | [] => .accepted
  | tmpe :: policy =>
    if torAddrCompareMasked addr tmpe.addr tmpe.maskbits = 0 then
      if port ≥ tmpe.prtMin ∧ port ≤ tmpe.prtMax then
        if tmpe.policyType = .accept then .accepted else .rejected
      else compareKnown addr port policy
    else compareKnown addr port policy

/-- The loop of the comparisons that lack the port or the address: some entries may match, and
of these some surely do. -/
def comparePartial (mayMatch matchesAll : AddrPolicy → Bool) (maybeAccept maybeReject : Bool) :
    List AddrPolicy → AddrPolicyResult
  | [] => if maybeReject then .probablyAccepted else .accepted
  | tmpe :: policy =>
    if mayMatch tmpe then
      if matchesAll tmpe then
        if tmpe.policyType = .accept then
          if maybeReject then .probablyAccepted else .accepted
        else if maybeAccept then .probablyRejected else .rejected
      else if tmpe.policyType = .reject then
        comparePartial mayMatch matchesAll maybeAccept true policy
      else comparePartial mayMatch matchesAll true maybeReject policy
    else comparePartial mayMatch matchesAll maybeAccept maybeReject policy

/-- `compare_known_tor_addr_to_addr_policy_noport` -/
def compareKnownNoport (addr : TorAddr) (policy : List AddrPolicy) : AddrPolicyResult :=
  comparePartial (fun tmpe => torAddrCompareMasked addr tmpe.addr tmpe.maskbits = 0)
    (fun tmpe => tmpe.prtMin ≤ 1 && tmpe.prtMax ≥ 65535) false false policy

/-- `compare_unknown_tor_addr_to_addr_policy` -/
def compareUnknown (port : ℕ) (policy : List AddrPolicy) : AddrPolicyResult :=
  comparePartial (fun tmpe => tmpe.prtMin ≤ port && port ≤ tmpe.prtMax)
    (fun tmpe => tmpe.maskbits = 0) false false policy

/-! ## The masked comparison -/

variable {x y : TorAddr} {m n : ℕ}

lemma tristate_eq_zero {a b : ℕ} : tristate a b = 0 ↔ a = b := by
  rw [tristate]
  split
  · simp
    omega
  · split <;> simp_all

lemma torMemcmp_eq_zero {a b : Bytes} (h : a.length = b.length) : torMemcmp a b = 0 ↔ a = b := by
  induction a generalizing b with
  | nil =>
    obtain rfl := length_eq_zero_iff.mp h.symm
    simp [torMemcmp]
  | cons c a ih =>
    obtain ⟨d, b, rfl⟩ := exists_cons_of_length_eq_add_one h.symm
    have hlen : a.length = b.length := by simpa using h
    by_cases hcd : c = d
    · rw [torMemcmp, if_pos hcd, ih hlen]
      simp [hcd]
    · rw [torMemcmp, if_neg hcd]
      have hne : c.toNat ≠ d.toNat := fun e => hcd (UInt8.toNat_inj.mp e)
      simp only [List.cons.injEq, hcd, false_and, iff_false]
      omega

/-- What a comparison with a mask sees: the family, and the first `mbits` bits, of an IPv6 address
as whole bytes and leftover bits. -/
def addrPrefix (addr : TorAddr) (mbits : ℕ) : ℕ × Bytes × ℕ :=
  match addr with
  | .unspec => (afUnspec, [], 0)
  | .inet a => (afInet, [], (a >>> (32 - min mbits 32)).toNat)
  | .inet6 a =>
    (afInet6, a.1.take (min mbits 128 / 8), if min mbits 128 % 8 ≠ 0 then
        (a.1.getD (min mbits 128 / 8) 0).toNat >>> (8 - min mbits 128 % 8)
      else 0)

lemma compareMasked_inet (a b : BitVec 32) (m : ℕ) :
    torAddrCompareMasked (.inet a) (.inet b) m = 0
      ↔ (a >>> (32 - min m 32)).toNat = (b >>> (32 - min m 32)).toNat := by
  have hcap : (if m > 32 then 32 else m) = min m 32 := by
    split <;> omega
  by_cases hm : m = 0
  · have hzero : ∀ c : BitVec 32, c >>> (32 - min m 32) = 0 := fun c => by
      rw [hm]
      exact BitVec.ushiftRight_eq_zero (by omega)
    rw [torAddrCompareMasked, if_pos hm, hzero, hzero]
    simp
  · simp only [torAddrCompareMasked, if_neg hm, hcap, tristate_eq_zero]

lemma compareMasked_inet6 (a b : {bs : Bytes // bs.length = 16}) (m : ℕ) :
    torAddrCompareMasked (.inet6 a) (.inet6 b) m = 0
      ↔ addrPrefix (.inet6 a) m = addrPrefix (.inet6 b) m := by
  have hcap : (if m > 128 then 128 else m) = min m 128 := by
    split <;> omega
  have hbytes : min m 128 >>> 3 = min m 128 / 8 := Nat.shiftRight_eq_div_pow _ 3
  have hleft : min m 128 &&& 7 = min m 128 % 8 := Nat.and_two_pow_sub_one_eq_mod _ 3
  have hcmp := torMemcmp_eq_zero (a := a.1.take (min m 128 / 8)) (b := b.1.take (min m 128 / 8))
    (by rw [List.length_take, List.length_take, a.2, b.2])
  simp only [torAddrCompareMasked, addrPrefix, hcap, hbytes, hleft, Prod.mk.injEq, true_and]
  by_cases hr : torMemcmp (a.1.take (min m 128 / 8)) (b.1.take (min m 128 / 8)) = 0
  · rw [if_neg (fun h => h.2 hr), and_iff_right (hcmp.mp hr)]
    by_cases hl : min m 128 % 8 ≠ 0
    · simp only [if_pos hl, tristate_eq_zero]
    · simp only [if_neg hl]
  · have hne : min m 128 / 8 ≠ 0 := fun h => hr (by rw [h]; rfl)
    rw [if_pos ⟨hne, hr⟩]
    exact ⟨fun h => absurd h hr, fun h => absurd (hcmp.mpr h.1) hr⟩

/-- **The comparison** sees the prefixes, and nothing else. -/
lemma torAddrCompareMasked_eq_zero (x y : TorAddr) (m : ℕ) :
    torAddrCompareMasked x y m = 0 ↔ addrPrefix x m = addrPrefix y m := by
  cases x with
  | unspec =>
    cases y <;> simp [torAddrCompareMasked, addrPrefix, tristate, torAddrFamily, afUnspec,
      afInet, afInet6]
  | inet a =>
    cases y with
    | unspec | inet6 b =>
      simp [torAddrCompareMasked, addrPrefix, tristate, torAddrFamily, afUnspec, afInet, afInet6]
    | inet b => rw [compareMasked_inet, addrPrefix, addrPrefix]; simp
  | inet6 a =>
    cases y with
    | unspec | inet b =>
      simp [torAddrCompareMasked, addrPrefix, tristate, torAddrFamily, afUnspec, afInet, afInet6]
    | inet6 b => exact compareMasked_inet6 a b m

lemma shiftRight_congr {a b i j : ℕ} (hij : i ≤ j) (h : a >>> i = b >>> i) :
    a >>> j = b >>> j := by
  obtain ⟨d, rfl⟩ := Nat.exists_eq_add_of_le hij
  rw [Nat.shiftRight_add, Nat.shiftRight_add, h]

lemma leftover_congr {a b : Bytes} {M N : ℕ} (hMN : M ≤ N)
    (hbytes : a.take (N / 8) = b.take (N / 8))
    (hleft : N % 8 ≠ 0 →
      (a.getD (N / 8) 0).toNat >>> (8 - N % 8) = (b.getD (N / 8) 0).toNat >>> (8 - N % 8))
    (hM : M % 8 ≠ 0) :
    (a.getD (M / 8) 0).toNat >>> (8 - M % 8) = (b.getD (M / 8) 0).toNat >>> (8 - M % 8) := by
  have hdiv : M / 8 ≤ N / 8 := Nat.div_le_div_right hMN
  rcases hdiv.lt_or_eq with hlt | heq
  · -- the byte is among the whole bytes of the longer prefix
    have hget : ∀ c : Bytes, c.getD (M / 8) 0 = (c.take (N / 8)).getD (M / 8) 0 := fun c => by
      rw [getD_eq_getElem?_getD, getD_eq_getElem?_getD, getElem?_take_of_lt hlt]
    rw [hget a, hget b, hbytes]
  · rw [heq]
    exact shiftRight_congr (by omega) (hleft (by omega))

lemma addrPrefix_family (h : addrPrefix x m = addrPrefix y m) :
    torAddrFamily x = torAddrFamily y := by
  have hfst := congrArg Prod.fst h
  cases x <;> cases y <;> exact hfst

lemma addrPrefix_zero (h : torAddrFamily x = torAddrFamily y) :
    addrPrefix x 0 = addrPrefix y 0 := by
  have hshift : ∀ a : BitVec 32, (a >>> 32).toNat = 0 := fun a => by
    rw [BitVec.ushiftRight_eq_zero le_rfl]
    rfl
  cases x <;> cases y <;>
    simp_all [torAddrFamily, addrPrefix, afUnspec, afInet, afInet6]

lemma addrPrefix_mono (hmn : m ≤ n) (h : addrPrefix x n = addrPrefix y n) :
    addrPrefix x m = addrPrefix y m := by
  have hfamily := addrPrefix_family h
  cases x with
  | unspec =>
    cases y with
    | unspec => rfl
    | inet b => exact absurd hfamily (by simp [torAddrFamily, afUnspec, afInet])
    | inet6 b => exact absurd hfamily (by simp [torAddrFamily, afUnspec, afInet6])
  | inet a =>
    cases y with
    | unspec => exact absurd hfamily (by simp [torAddrFamily, afUnspec, afInet])
    | inet6 b => exact absurd hfamily (by simp [torAddrFamily, afInet, afInet6])
    | inet b =>
      simp only [addrPrefix, Prod.mk.injEq, true_and, BitVec.toNat_ushiftRight] at h ⊢
      exact shiftRight_congr (by omega) h
  | inet6 a =>
    cases y with
    | unspec => exact absurd hfamily (by simp [torAddrFamily, afUnspec, afInet6])
    | inet b => exact absurd hfamily (by simp [torAddrFamily, afInet, afInet6])
    | inet6 b =>
      simp only [addrPrefix, Prod.mk.injEq, true_and] at h ⊢
      obtain ⟨hbytes, hleft⟩ := h
      have hcap : min m 128 ≤ min n 128 := by omega
      have htake : ∀ c : Bytes, c.take (min m 128 / 8)
          = (c.take (min n 128 / 8)).take (min m 128 / 8) := fun c => by
        rw [take_take, min_eq_left (Nat.div_le_div_right hcap)]
      refine ⟨by rw [htake a.1, htake b.1, hbytes], ?_⟩
      by_cases hM : min m 128 % 8 ≠ 0
      · rw [if_pos hM, if_pos hM]
        refine leftover_congr hcap hbytes (fun hN => ?_) hM
        simpa only [if_pos hN] using hleft
      · rw [if_neg hM, if_neg hM]

/-! ## What an entry covers -/

/-- The entry matches the address on the port. -/
def AddrPolicy.covers (p : AddrPolicy) (x : TorAddr × ℕ) : Bool :=
  torAddrCompareMasked x.1 p.addr p.maskbits = 0 ∧ p.prtMin ≤ x.2 ∧ x.2 ≤ p.prtMax

variable {p : AddrPolicy} {port : ℕ}

lemma AddrPolicy.covers_iff : p.covers (x, port)
    ↔ addrPrefix x p.maskbits = addrPrefix p.addr p.maskbits ∧ p.prtMin ≤ port ∧
      port ≤ p.prtMax := by
  rw [AddrPolicy.covers, decide_eq_true_iff, torAddrCompareMasked_eq_zero]

lemma AddrPolicy.family_of_covers (h : p.covers (x, port)) :
    torAddrFamily p.addr = torAddrFamily x :=
  (addrPrefix_family (AddrPolicy.covers_iff.mp h).1).symm

lemma AddrPolicy.covers_of_catchAll
    (hfamily : torAddrFamily p.addr = torAddrFamily x) (hbits : p.maskbits = 0)
    (hmin : p.prtMin ≤ port) (hmax : port ≤ p.prtMax) : p.covers (x, port) := by
  rw [AddrPolicy.covers_iff, hbits]
  exact ⟨addrPrefix_zero hfamily.symm, hmin, hmax⟩

/-- What an entry answers. -/
def AddrPolicy.verdict (p : AddrPolicy) : AddrPolicyResult :=
  if p.policyType = .accept then .accepted else .rejected

/-- **A known address and port** are answered by the first entry that covers them. -/
theorem compareKnown_eq (addr : TorAddr) (port : ℕ) (policy : List AddrPolicy) :
    compareKnown addr port policy
      = firstMatch AddrPolicy.covers AddrPolicy.verdict .accepted policy (addr, port) := by
  induction policy with
  | nil => rfl
  | cons p policy ih =>
    by_cases haddr : torAddrCompareMasked addr p.addr p.maskbits = 0
    · by_cases hport : port ≥ p.prtMin ∧ port ≤ p.prtMax
      · rw [compareKnown, if_pos haddr, if_pos hport, firstMatch_cons_of_covers, AddrPolicy.verdict]
        exact decide_eq_true ⟨haddr, hport⟩
      · rw [compareKnown, if_pos haddr, if_neg hport, firstMatch_cons_of_not, ih]
        exact fun h => hport (of_decide_eq_true h).2
    · rw [compareKnown, if_neg haddr, firstMatch_cons_of_not, ih]
      exact fun h => haddr (of_decide_eq_true h).1

end Ator.Policies
