import AtorProtocol.Policies.AddrPolicy

/-!
# General exits

Two tests of whole policies, of `src/core/or/policies.c`, against the answers for single addresses
and ports.

* `exitPolicyIsGeneralExitHelper` — there is a /8 that the policy allows on a port.
* `policyIsRejectStar` — the policy allows no address of a family.
* `generalExit_sound` — what the tests promise.
-/

namespace Ator.Policies

open List
open BitVec (getElem_and toNat_ushiftRight)

/-! ## The tests -/

/-- `tor_addr_is_internal_`, of an IPv4 address. -/
def torAddrIsInternal (iph4 : BitVec 32) (forListening : Bool) : Bool :=
  if forListening ∧ (iph4 = 0 ∨ iph4 &&& 0xffc00000 = 0x64400000) then false
  else
    iph4 &&& 0xff000000 = 0x0a000000 ∨ iph4 &&& 0xff000000 = 0x00000000 ∨
      iph4 &&& 0xff000000 = 0x7f000000 ∨ iph4 &&& 0xffc00000 = 0x64400000 ∨
      iph4 &&& 0xffff0000 = 0xa9fe0000 ∨ iph4 &&& 0xfff00000 = 0xac100000 ∨
      iph4 &&& 0xffff0000 = 0xc0a80000

/-- `mask` -/
def maskOf (maskbits : ℕ) : BitVec 32 :=
  if maskbits ≠ 0 then BitVec.allOnes 32 <<< (32 - maskbits) else 0

/-- The first /8 that an entry touches. -/
def firstSubnet (ip : BitVec 32) (maskbits : ℕ) : ℕ := ((maskOf maskbits &&& ip) >>> 24).toNat

/-- The last one. -/
def lastSubnet (ip : BitVec 32) (maskbits : ℕ) : ℕ :=
  (~~~((maskOf maskbits &&& ip) ^^^ maskOf maskbits) >>> 24).toNat

/-- The /8 is not skipped as local or not routable. -/
def routableSubnet (dirAllowPrivateAddresses : Bool) (i : ℕ) : Bool :=
  !torAddrIsInternal (BitVec.ofNat 32 i <<< 24) false || dirAllowPrivateAddresses

/-- The loop of `exit_policy_is_general_exit_helper` over the subnets of an entry: their status
behind it, or `none` when one is found that is allowed. -/
def touchSubnets (dirAllowPrivateAddresses : Bool) (p : AddrPolicy) (subnetStatus : ℕ → Bool) :
    List ℕ → Option (ℕ → Bool)
  | [] => some subnetStatus
  | i :: is =>
    if subnetStatus i then touchSubnets dirAllowPrivateAddresses p subnetStatus is
    else if !routableSubnet dirAllowPrivateAddresses i then
      touchSubnets dirAllowPrivateAddresses p subnetStatus is
    else
      match p.policyType with
      | .accept =>
        if p.maskbits > 8 then touchSubnets dirAllowPrivateAddresses p subnetStatus is else none
      | .reject =>
        touchSubnets dirAllowPrivateAddresses p (Function.update subnetStatus i true) is

/-- The loop of `exit_policy_is_general_exit_helper` over the entries; `none` is a failed
assertion. -/
def generalExitLoop (dirAllowPrivateAddresses : Bool) (port : ℤ) (subnetStatus : ℕ → Bool) :
    List AddrPolicy → Option Bool
  | [] => some false
  | p :: policy =>
    match p.addr with
    | .inet ip =>
      if p.prtMin > port ∨ p.prtMax < port then
        generalExitLoop dirAllowPrivateAddresses port subnetStatus policy
      else if p.maskbits > 32 then none
      else
        match touchSubnets dirAllowPrivateAddresses p subnetStatus
            (List.range' (firstSubnet ip p.maskbits)
              (lastSubnet ip p.maskbits + 1 - firstSubnet ip p.maskbits)) with
        | none => some true
        | some subnetStatus => generalExitLoop dirAllowPrivateAddresses port subnetStatus policy
    | _ => generalExitLoop dirAllowPrivateAddresses port subnetStatus policy

def exitPolicyIsGeneralExitHelper (dirAllowPrivateAddresses : Bool) (policy : List AddrPolicy)
    (port : ℤ) : Option Bool :=
  generalExitLoop dirAllowPrivateAddresses port (fun _ => false) policy

/-- The loop of `policy_is_reject_star` -/
def rejectStarLoop (family : ℕ) (defaultReject : Bool) : List AddrPolicy → Bool
  | [] => defaultReject
  | p :: policy =>
    if p.policyType = .accept ∧
        (torAddrFamily p.addr = family ∨ torAddrFamily p.addr = afUnspec) then false
    else if p.policyType = .reject ∧ p.prtMin ≤ 1 ∧ p.prtMax = 65535 ∧ p.maskbits = 0 ∧
        (torAddrFamily p.addr = family ∨ torAddrFamily p.addr = afUnspec) then true
    else rejectStarLoop family defaultReject policy

/-- `policy_is_reject_star`, with `none` for `NULL`. -/
def policyIsRejectStar (policy : Option (List AddrPolicy)) (family : ℕ) (defaultReject : Bool) :
    Bool :=
  match policy with
  | none => defaultReject
  | some policy => rejectStarLoop family defaultReject policy

/-! ## The subnets of an entry -/

variable {ip a : BitVec 32} {m i : ℕ}

lemma maskOf_eq (m : ℕ) : maskOf m = BitVec.allOnes 32 <<< (32 - m) := by
  rw [maskOf]
  split_ifs with hm
  · rfl
  · obtain rfl := not_not.mp hm
    rfl

lemma mask_and_eq (ip : BitVec 32) (m : ℕ) :
    maskOf m &&& ip = (ip >>> (32 - m)) <<< (32 - m) := by
  rw [maskOf_eq]
  ext j hj
  simp only [getElem_and, BitVec.getElem_shiftLeft, BitVec.getElem_allOnes,
    BitVec.getElem_ushiftRight]
  by_cases hlow : j < 32 - m
  · simp [hlow]
  · have hsum : 32 - m + (j - (32 - m)) = j := by omega
    simp [hlow, hsum, BitVec.getLsbD_eq_getElem hj]

lemma toNat_mask_and (ip : BitVec 32) (m : ℕ) :
    (maskOf m &&& ip).toNat = ip.toNat / 2 ^ (32 - m) * 2 ^ (32 - m) := by
  have hip := ip.isLt
  have hle := Nat.div_mul_le_self ip.toNat (2 ^ (32 - m))
  rw [mask_and_eq, BitVec.toNat_shiftLeft, toNat_ushiftRight, Nat.shiftRight_eq_div_pow,
    Nat.shiftLeft_eq, Nat.mod_eq_of_lt (hle.trans_lt hip)]

lemma toNat_maskOf (m : ℕ) : (maskOf m).toNat = 2 ^ 32 - 2 ^ (32 - m) := by
  have hpos := Nat.two_pow_pos (32 - m)
  have hle : 2 ^ (32 - m) ≤ 2 ^ 32 := Nat.pow_le_pow_right (by decide) (Nat.sub_le 32 m)
  rw [maskOf_eq, BitVec.toNat_shiftLeft, BitVec.toNat_allOnes, Nat.shiftLeft_eq]
  omega

lemma toNat_mask_or (ip : BitVec 32) (m : ℕ) :
    (~~~((maskOf m &&& ip) ^^^ maskOf m)).toNat
      = ip.toNat / 2 ^ (32 - m) * 2 ^ (32 - m) + (2 ^ (32 - m) - 1) := by
  have hor : ~~~((maskOf m &&& ip) ^^^ maskOf m) = (maskOf m &&& ip) ||| ~~~maskOf m := by
    ext j hj
    simp only [BitVec.getElem_not, BitVec.getElem_xor, getElem_and, BitVec.getElem_or]
    cases (maskOf m)[j] <;> cases ip[j] <;> rfl
  have hpos := Nat.two_pow_pos (32 - m)
  have hle : 2 ^ (32 - m) ≤ 2 ^ 32 := Nat.pow_le_pow_right (by decide) (Nat.sub_le 32 m)
  have hlow : 2 ^ 32 - 1 - (2 ^ 32 - 2 ^ (32 - m)) = 2 ^ (32 - m) - 1 := by omega
  rw [hor, BitVec.toNat_or, toNat_mask_and, BitVec.toNat_not, toNat_maskOf, hlow, ← Nat.shiftLeft_eq,
    Nat.shiftLeft_add_eq_or_of_lt (by omega)]

lemma touches_of_prefix (h : a.toNat / 2 ^ (32 - m) = ip.toNat / 2 ^ (32 - m)) :
    firstSubnet ip m ≤ a.toNat / 2 ^ 24 ∧ a.toNat / 2 ^ 24 ≤ lastSubnet ip m := by
  have hdiv := Nat.div_add_mod a.toNat (2 ^ (32 - m))
  rw [firstSubnet, lastSubnet, toNat_ushiftRight, toNat_ushiftRight,
    toNat_mask_and, toNat_mask_or, Nat.shiftRight_eq_div_pow, Nat.shiftRight_eq_div_pow, ← h]
  rw [mul_comm] at hdiv
  exact ⟨Nat.div_le_div_right (by omega), Nat.div_le_div_right (by omega)⟩

lemma prefix_of_touches (hm : m ≤ 8) (hfirst : firstSubnet ip m ≤ a.toNat / 2 ^ 24)
    (hlast : a.toNat / 2 ^ 24 ≤ lastSubnet ip m) :
    a.toNat / 2 ^ (32 - m) = ip.toNat / 2 ^ (32 - m) := by
  have hpow : 2 ^ (32 - m) = 2 ^ (8 - m) * 2 ^ 24 := by
    rw [← pow_add]
    congr 1
    omega
  have hpos := Nat.two_pow_pos (8 - m)
  rw [firstSubnet, toNat_ushiftRight, toNat_mask_and, Nat.shiftRight_eq_div_pow,
    hpow, ← mul_assoc, Nat.mul_div_cancel _ (by decide)] at hfirst
  rw [lastSubnet, toNat_ushiftRight, toNat_mask_or, Nat.shiftRight_eq_div_pow,
    hpow, ← mul_assoc] at hlast
  have hsplit : a.toNat / (2 ^ (8 - m) * 2 ^ 24) = a.toNat / 2 ^ 24 / 2 ^ (8 - m) := by
    rw [Nat.div_div_eq_div_mul, mul_comm]
  rw [hpow, hsplit]
  refine Nat.div_eq_of_lt_le hfirst ?_
  rw [Nat.succ_mul]
  omega

/-! ## One entry -/

variable {p : AddrPolicy} {allow : Bool} {status status' : ℕ → Bool} {is : List ℕ} {port : ℕ}
  {policy pre : List AddrPolicy}

lemma touchSubnets_none (h : touchSubnets allow p status is = none) :
    p.policyType = .accept ∧ p.maskbits ≤ 8 ∧
      ∃ i ∈ is, status i = false ∧ routableSubnet allow i = true := by
  induction is generalizing status with
  | nil => cases h
  | cons i is ih =>
    have hlater (h : touchSubnets allow p status is = none) :
        p.policyType = .accept ∧ p.maskbits ≤ 8 ∧
          ∃ i' ∈ i :: is, status i' = false ∧ routableSubnet allow i' = true := by
      obtain ⟨haccept, hwide, i', hi', hfound⟩ := ih h
      exact ⟨haccept, hwide, i', mem_cons_of_mem i hi', hfound⟩
    rw [touchSubnets] at h
    by_cases hrejected : status i = true
    · rw [if_pos hrejected] at h
      exact hlater h
    by_cases hroutable : routableSubnet allow i = true
    swap
    · rw [if_neg hrejected, if_pos (by simp [hroutable])] at h
      exact hlater h
    rw [if_neg hrejected, if_neg (by simp [hroutable])] at h
    cases hp : p.policyType with
    | accept =>
      rw [hp] at h
      split_ifs at h with hnarrow
      · exact hp ▸ hlater h
      · exact ⟨rfl, Nat.not_lt.mp hnarrow, i, mem_cons_self,
          Bool.eq_false_iff.mpr hrejected, hroutable⟩
    | reject =>
      rw [hp] at h
      have haccept := (ih h).1
      rw [hp] at haccept
      cases haccept

lemma touchSubnets_some (h : touchSubnets allow p status is = some status') :
    (∀ i, status' i = false → status i = false) ∧
      (p.policyType = .reject → ∀ i ∈ is, routableSubnet allow i = true → status' i = true) := by
  induction is generalizing status with
  | nil =>
    obtain rfl := Option.some.inj h
    exact ⟨fun _ h => h, fun _ i hi => absurd hi not_mem_nil⟩
  | cons i is ih =>
    rw [touchSubnets] at h
    by_cases hrejected : status i = true
    · rw [if_pos hrejected] at h
      obtain ⟨hkeep, hnote⟩ := ih h
      refine ⟨hkeep, fun hp => forall_mem_cons.mpr ⟨fun _ => ?_, hnote hp⟩⟩
      by_contra hfalse
      rw [hkeep i (Bool.eq_false_iff.mpr hfalse)] at hrejected
      cases hrejected
    by_cases hroutable : routableSubnet allow i = true
    swap
    · rw [if_neg hrejected, if_pos (by simp [hroutable])] at h
      obtain ⟨hkeep, hnote⟩ := ih h
      exact ⟨hkeep, fun hp => forall_mem_cons.mpr ⟨fun hr => absurd hr hroutable, hnote hp⟩⟩
    rw [if_neg hrejected, if_neg (by simp [hroutable])] at h
    cases hp : p.policyType with
    | accept =>
      rw [hp] at h
      split_ifs at h
      exact ⟨(ih h).1, fun hreject => by cases hreject⟩
    | reject =>
      rw [hp] at h
      obtain ⟨hkeep, hnote⟩ := ih h
      refine ⟨fun j hj => ?_, fun _ => forall_mem_cons.mpr ⟨fun _ => ?_, hnote hp⟩⟩
      · have hupdate := hkeep j hj
        by_cases hji : j = i
        · rw [hji, Function.update_self] at hupdate
          cases hupdate
        · rwa [Function.update_of_ne hji] at hupdate
      · by_contra hfalse
        have hupdate := hkeep i (Bool.eq_false_iff.mpr hfalse)
        rw [Function.update_self] at hupdate
        cases hupdate

lemma covers_inet (hp : p.addr = .inet ip) (hm : p.maskbits ≤ 32) :
    p.covers (.inet a, port) = true ↔
      a.toNat / 2 ^ (32 - p.maskbits) = ip.toNat / 2 ^ (32 - p.maskbits) ∧
        p.prtMin ≤ port ∧ port ≤ p.prtMax := by
  rw [AddrPolicy.covers_iff, hp, addrPrefix, addrPrefix, Nat.min_eq_left hm, toNat_ushiftRight,
    toNat_ushiftRight, Nat.shiftRight_eq_div_pow, Nat.shiftRight_eq_div_pow]
  simp

/-! ## All entries -/

/-- Of the entries so far, none rejects an address in a subnet that is not noted. -/
def Undecided (allow : Bool) (port : ℕ) (status : ℕ → Bool) (pre : List AddrPolicy) : Prop :=
  ∀ i, status i = false → routableSubnet allow i = true → ∀ a : BitVec 32, a.toNat / 2 ^ 24 = i →
    ∀ q ∈ pre, q.covers (.inet a, port) = true → q.verdict = .accepted

lemma mem_subnets {i : ℕ} : i ∈ List.range' (firstSubnet ip m) (lastSubnet ip m + 1 - firstSubnet ip m)
    ↔ firstSubnet ip m ≤ i ∧ i ≤ lastSubnet ip m := by
  rw [mem_range'_1]
  omega

lemma Undecided.keep (h : Undecided allow port status pre)
    (hp : ∀ a : BitVec 32, p.covers (.inet a, port) = true → p.verdict = .accepted) :
    Undecided allow port status (pre ++ [p]) := by
  intro i hi hroutable a ha q hq hcovers
  rcases mem_append.mp hq with hq | hq
  · exact h i hi hroutable a ha q hq hcovers
  · obtain rfl := mem_singleton.mp hq
    exact hp a hcovers

/-- **One entry** keeps what is known of the subnets. -/
lemma Undecided.touch (h : Undecided allow port status pre) (hp : p.addr = .inet ip)
    (hm : p.maskbits ≤ 32)
    (htouch : touchSubnets allow p status (List.range' (firstSubnet ip p.maskbits)
      (lastSubnet ip p.maskbits + 1 - firstSubnet ip p.maskbits)) = some status') :
    Undecided allow port status' (pre ++ [p]) := by
  obtain ⟨hkeep, hnote⟩ := touchSubnets_some htouch
  intro i hi hroutable a ha q hq hcovers
  rcases mem_append.mp hq with hq | hq
  · exact h i (hkeep i hi) hroutable a ha q hq hcovers
  · obtain rfl := mem_singleton.mp hq
    cases htype : q.policyType with
    | accept => rw [AddrPolicy.verdict, if_pos htype]
    | reject =>
      have htouches := touches_of_prefix ((covers_inet hp hm).mp hcovers).1
      rw [ha] at htouches
      rw [hnote htype i (mem_subnets.mpr htouches) hroutable] at hi
      cases hi

lemma generalExitLoop_of_neg {port : ℤ} (hport : port < 0) :
    generalExitLoop allow port status policy = some false := by
  induction policy with
  | nil => rfl
  | cons p policy ih =>
    rw [generalExitLoop]
    split
    · rw [if_pos (.inl (by omega))]
      exact ih
    · exact ih

/-- **All entries**: where a subnet is found, all of its addresses are accepted. -/
lemma generalExitLoop_true (hpre : Undecided allow port status pre)
    (h : generalExitLoop allow port status policy = some true) :
    ∃ i < 256, routableSubnet allow i = true ∧ ∀ a : BitVec 32, a.toNat / 2 ^ 24 = i →
      compareKnown (.inet a) port (pre ++ policy) = .accepted := by
  induction policy generalizing pre status with
  | nil => cases h
  | cons p policy ih =>
    have hnext {status' : ℕ → Bool} (hpre' : Undecided allow port status' (pre ++ [p]))
        (h : generalExitLoop allow port status' policy = some true) :
        ∃ i < 256, routableSubnet allow i = true ∧ ∀ a : BitVec 32, a.toNat / 2 ^ 24 = i →
          compareKnown (.inet a) port (pre ++ p :: policy) = .accepted := by
      have hall := ih hpre' h
      rw [append_assoc, singleton_append] at hall
      exact hall
    rw [generalExitLoop] at h
    split at h
    · next ip hp =>
        by_cases hport : (p.prtMin : ℤ) > port ∨ (p.prtMax : ℤ) < port
        · rw [if_pos hport] at h
          refine hnext (hpre.keep fun a hcovers => ?_) h
          have hrange := (AddrPolicy.covers_iff.mp hcovers).2
          omega
        rw [if_neg hport] at h
        by_cases hm : p.maskbits > 32
        · rw [if_pos hm] at h
          cases h
        rw [if_neg hm] at h
        split at h
        · next htouch =>
            obtain ⟨haccept, hwide, i, hi, hstatus, hroutable⟩ := touchSubnets_none htouch
            obtain ⟨hfirst, hlast⟩ := mem_subnets.mp hi
            have hi256 : i < 256 := by
              rw [lastSubnet, toNat_ushiftRight, Nat.shiftRight_eq_div_pow] at hlast
              omega
            refine ⟨i, hi256, hroutable, fun a ha => ?_⟩
            have hverdict : p.verdict = .accepted := if_pos haccept
            have hcovers : p.covers (.inet a, port) = true :=
              (covers_inet hp (by omega)).mpr
                ⟨prefix_of_touches hwide (ha ▸ hfirst) (ha ▸ hlast), by omega, by omega⟩
            rw [compareKnown_eq, firstMatch_of_agree _ hcovers, hverdict]
            intro q hq hqcovers
            rw [hpre i hstatus hroutable a ha q hq hqcovers, hverdict]
        · next status' htouch => exact hnext (hpre.touch hp (by omega) htouch) h
    · next hother =>
        refine hnext (hpre.keep fun a hcovers => ?_) h
        have hfamily := AddrPolicy.family_of_covers hcovers
        cases hp : p.addr with
        | inet ip => exact absurd hp (hother ip)
        | unspec => simp [hp, torAddrFamily, afUnspec, afInet] at hfamily
        | inet6 bytes => simp [hp, torAddrFamily, afInet, afInet6] at hfamily

/-! ## Policies that reject a family -/

variable {addr : TorAddr}

lemma rejectStarLoop_true (hspec : addr = .unspec ∨ ∀ p ∈ policy, p.addr ≠ .unspec)
    (hport : 1 ≤ port) (hmax : port ≤ 65535)
    (h : rejectStarLoop (torAddrFamily addr) false policy = true) :
    compareKnown addr port policy = .rejected := by
  induction policy with
  | nil => cases h
  | cons p policy ih =>
    have hsame : torAddrFamily p.addr = afUnspec → torAddrFamily p.addr = torAddrFamily addr := by
      intro hp
      rcases hspec with rfl | hspec
      · exact hp
      · have hne := hspec p mem_cons_self
        cases haddr : p.addr with
        | unspec => exact absurd haddr hne
        | inet ip => simp [haddr, torAddrFamily, afUnspec, afInet] at hp
        | inet6 bytes => simp [haddr, torAddrFamily, afUnspec, afInet6] at hp
    have hspec' : addr = .unspec ∨ ∀ p ∈ policy, p.addr ≠ .unspec :=
      hspec.imp_right fun hspec q hq => hspec q (mem_cons_of_mem p hq)
    rw [rejectStarLoop] at h
    split_ifs at h with haccept hreject
    · rw [compareKnown_eq, firstMatch_cons_of_covers, AddrPolicy.verdict, if_neg (by simp [hreject.1])]
      obtain ⟨-, hmin, hprt, hbits, hfamily⟩ := hreject
      exact AddrPolicy.covers_of_catchAll (hfamily.elim id hsame) hbits (by omega) (by omega)
    · by_cases hcovers : p.covers (addr, port) = true
      · have hfamily := AddrPolicy.family_of_covers hcovers
        have htype : ¬p.policyType = .accept := fun htype => haccept ⟨htype, .inl hfamily⟩
        rw [compareKnown_eq, firstMatch_cons_of_covers hcovers, AddrPolicy.verdict, if_neg htype]
      · rw [compareKnown_eq, firstMatch_cons_of_not hcovers, ← compareKnown_eq]
        exact ih hspec' h

/-- **What the tests promise.**  A general exit accepts all addresses of some /8 on the port, one
that is not skipped as private.  A policy without entries of AF_UNSPEC that rejects a family by one
of its entries accepts no address of the family on any port. -/
theorem generalExit_sound :
    (∀ (dirAllowPrivateAddresses : Bool) (policy : List AddrPolicy) (port : ℤ),
      exitPolicyIsGeneralExitHelper dirAllowPrivateAddresses policy port = some true →
        ∃ i < 256, routableSubnet dirAllowPrivateAddresses i = true ∧
          ∀ a : BitVec 32, a.toNat / 2 ^ 24 = i →
            compareKnown (.inet a) port.toNat policy = .accepted) ∧
    (∀ (policy : List AddrPolicy) (addr : TorAddr) (port : ℕ),
      (addr = .unspec ∨ ∀ p ∈ policy, p.addr ≠ .unspec) → 1 ≤ port → port ≤ 65535 →
        policyIsRejectStar (some policy) (torAddrFamily addr) false = true →
          compareKnown addr port policy = .rejected) := by
  refine ⟨fun allow policy port h => ?_, fun policy addr port hspec hport hmax h =>
    rejectStarLoop_true hspec hport hmax h⟩
  rw [exitPolicyIsGeneralExitHelper] at h
  rcases lt_or_ge port 0 with hneg | hnonneg
  · rw [generalExitLoop_of_neg hneg] at h
    cases h
  · have hnone : Undecided allow port.toNat (fun _ => false) [] := fun _ _ _ _ _ q hq =>
      absurd hq not_mem_nil
    rw [← Int.toNat_of_nonneg hnonneg] at h
    exact generalExitLoop_true hnone h

/-- A default rejects what no entry does; an entry of AF_UNSPEC rejects no other address; and one
from port 1 on does not reject port 0. -/
theorem rejectStar_fails :
    (policyIsRejectStar (some []) afInet true = true ∧
      compareKnown (.inet 0x01020304) 80 [] = .accepted) ∧
    (policyIsRejectStar (some [⟨.reject, .unspec, 0, 1, 65535⟩]) afInet false = true ∧
      compareKnown (.inet 0x01020304) 80 [⟨.reject, .unspec, 0, 1, 65535⟩] = .accepted) ∧
    policyIsRejectStar (some [⟨.reject, .inet 0, 0, 1, 65535⟩]) afInet false = true ∧
      compareKnown (.inet 0x01020304) 0 [⟨.reject, .inet 0, 0, 1, 65535⟩] = .accepted := by
  decide

end Ator.Policies
