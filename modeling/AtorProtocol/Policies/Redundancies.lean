import AtorProtocol.Policies.AddrPolicy

/-!
# Removing redundant exit policy entries

`exit_policy_remove_redundancies` of `src/core/or/policies.c` deletes entries in three passes.
Each pass goes through the list once and looks at the entries behind the current one, so that it
is a recursion on what is left of the list.

* `killAfterWildcard_eq`, `removeCovered_eq`, `removeShadowed_eq` — each pass keeps every answer.
* `exitPolicyRemoveRedundancies_eq` — so do the three.
-/

namespace Ator.Policies

/-- Whether `a` covers every case that `b` covers. -/
def addrPolicyCovers (a b : AddrPolicy) : Bool :=
  if torAddrFamily a.addr ≠ torAddrFamily b.addr then false
  else if a.maskbits > b.maskbits then false
  else if torAddrCompareMasked a.addr b.addr a.maskbits ≠ 0 then false
  else a.prtMin ≤ b.prtMin && a.prtMax ≥ b.prtMax

/-- Whether an address and port are covered by both. -/
def addrPolicyIntersects (a b : AddrPolicy) : Bool :=
  let minbits := if a.maskbits < b.maskbits then a.maskbits else b.maskbits
  if torAddrCompareMasked a.addr b.addr minbits ≠ 0 then false
  else if a.prtMax < b.prtMin ∨ b.prtMax < a.prtMin then false
  else true

/-- Step one: nothing of a family is reached after a catch-all of it. -/
def killAfterWildcard (killV4 killV6 : Bool) : List AddrPolicy → List AddrPolicy
  | [] => []
  | ap :: dest =>
    let family := torAddrFamily ap.addr
    if (family = afInet ∧ killV4) ∨ (family = afInet6 ∧ killV6) then
      killAfterWildcard killV4 killV6 dest
    else if ap.maskbits = 0 ∧ ap.prtMin ≤ 1 ∧ ap.prtMax ≥ 65535 then
      ap :: killAfterWildcard (killV4 || family = afInet) (killV6 || family = afInet6) dest
    else ap :: killAfterWildcard killV4 killV6 dest

/-- The inner loop of step two: what `ap` does not cover. -/
def removeCoveredBy (ap : AddrPolicy) (dest : List AddrPolicy) : List AddrPolicy :=
  dest.filter fun tmp => !addrPolicyCovers ap tmp

/-- Step two: delete the entries that an earlier one covers. -/
def removeCovered : List AddrPolicy → List AddrPolicy
  | [] => []
  | ap :: dest => ap :: removeCovered (removeCoveredBy ap dest)
termination_by dest => dest.length
decreasing_by
  exact Nat.lt_succ_of_le (List.length_filter_le _ _)

/-- The inner loop of step three: whether an entry of the same type covers `ap`, before one of
the other type intersects it. -/
def coveredLater (ap : AddrPolicy) : List AddrPolicy → Bool
  | [] => false
  | tmp :: dest =>
    if ap.policyType ≠ tmp.policyType then
      if addrPolicyIntersects ap tmp then false else coveredLater ap dest
    else if addrPolicyCovers tmp ap then true
    else coveredLater ap dest

/-- Step three: delete the entries that a later one makes redundant. -/
def removeShadowed : List AddrPolicy → List AddrPolicy
  | [] => []
  | ap :: dest => if coveredLater ap dest then removeShadowed dest else ap :: removeShadowed dest

def exitPolicyRemoveRedundancies (dest : List AddrPolicy) : List AddrPolicy :=
  removeShadowed (removeCovered (killAfterWildcard false false dest))

variable {a b ap : AddrPolicy} {addr : TorAddr} {port : ℕ} {dest : List AddrPolicy}

/-! ## Covering and intersecting -/

lemma covers_of_addrPolicyCovers (h : addrPolicyCovers a b) (hb : b.covers (addr, port)) :
    a.covers (addr, port) := by
  rw [addrPolicyCovers] at h
  by_cases hfamily : torAddrFamily a.addr = torAddrFamily b.addr
  · by_cases hbits : a.maskbits > b.maskbits
    · simp [hfamily, hbits] at h
    by_cases hcmp : torAddrCompareMasked a.addr b.addr a.maskbits = 0
    · simp only [hfamily, hbits, hcmp, ne_eq, not_true_eq_false, if_false, Bool.and_eq_true,
        decide_eq_true_iff] at h
      rw [AddrPolicy.covers_iff] at hb ⊢
      obtain ⟨hpre, hmin, hmax⟩ := hb
      refine ⟨?_, by omega, by omega⟩
      rw [addrPrefix_mono (not_lt.mp hbits) hpre]
      exact ((torAddrCompareMasked_eq_zero _ _ _).mp hcmp).symm
    · simp [hfamily, hbits, hcmp] at h
  · simp [hfamily] at h

lemma addrPolicyIntersects_of_covers (ha : a.covers (addr, port)) (hb : b.covers (addr, port)) :
    addrPolicyIntersects a b := by
  rw [AddrPolicy.covers_iff] at ha hb
  have hmin : (if a.maskbits < b.maskbits then a.maskbits else b.maskbits)
      = min a.maskbits b.maskbits := by
    split <;> omega
  have hcmp : torAddrCompareMasked a.addr b.addr (min a.maskbits b.maskbits) = 0 := by
    rw [torAddrCompareMasked_eq_zero, ← addrPrefix_mono (min_le_left _ _) ha.1,
      ← addrPrefix_mono (min_le_right _ _) hb.1]
  have hports : ¬ (a.prtMax < b.prtMin ∨ b.prtMax < a.prtMin) := by omega
  simp [addrPolicyIntersects, hmin, hcmp, hports]

/-! ## The passes -/

/-- The answer of a known address and port. -/
abbrev answer (dest : List AddrPolicy) (addr : TorAddr) (port : ℕ) : AddrPolicyResult :=
  firstMatch AddrPolicy.covers AddrPolicy.verdict .accepted dest (addr, port)

lemma removeCovered_eq (dest : List AddrPolicy) (addr : TorAddr) (port : ℕ) :
    answer (removeCovered dest) addr port = answer dest addr port := by
  induction dest using removeCovered.induct with
  | case1 => rw [removeCovered]
  | case2 ap dest ih =>
    rw [removeCovered]
    refine (firstMatch_cons_congr ih).trans (firstMatch_filter fun r _ hkeep hr => ?_)
    exact covers_of_addrPolicyCovers (by simpa using hkeep) hr

lemma answer_of_coveredLater (h : coveredLater ap dest) (hap : ap.covers (addr, port)) :
    answer dest addr port = ap.verdict := by
  induction dest with
  | nil => cases h
  | cons tmp dest ih =>
    rw [coveredLater] at h
    by_cases htype : ap.policyType = tmp.policyType
    · rw [if_neg (not_not.mpr htype)] at h
      have hverdict : tmp.verdict = ap.verdict := by
        rw [AddrPolicy.verdict, AddrPolicy.verdict, htype]
      by_cases hcov : tmp.covers (addr, port) = true
      · exact (firstMatch_cons_of_covers hcov).trans hverdict
      · refine (firstMatch_cons_of_not hcov).trans (ih ?_)
        rwa [if_neg fun hc => hcov (covers_of_addrPolicyCovers hc hap)] at h
    · rw [if_pos htype] at h
      by_cases hint : addrPolicyIntersects ap tmp = true
      · rw [if_pos hint] at h
        cases h
      · rw [if_neg hint] at h
        refine (firstMatch_cons_of_not fun hcov => ?_).trans (ih h)
        exact hint (addrPolicyIntersects_of_covers hap hcov)

lemma removeShadowed_eq (dest : List AddrPolicy) (addr : TorAddr) (port : ℕ) :
    answer (removeShadowed dest) addr port = answer dest addr port := by
  induction dest with
  | nil => rfl
  | cons ap dest ih =>
    rw [removeShadowed]
    by_cases hlater : coveredLater ap dest = true
    · rw [if_pos hlater, ih]
      exact (firstMatch_cons_eq fun hap => answer_of_coveredLater hlater hap).symm
    · rw [if_neg hlater]
      exact firstMatch_cons_congr ih

/-! ### Catch-alls -/

lemma killAfterWildcard_eq {killV4 killV6 : Bool} (hport : 1 ≤ port ∧ port ≤ 65535)
    (h4 : torAddrFamily addr = afInet → killV4 = false)
    (h6 : torAddrFamily addr = afInet6 → killV6 = false) :
    answer (killAfterWildcard killV4 killV6 dest) addr port = answer dest addr port := by
  induction dest generalizing killV4 killV6 with
  | nil => rfl
  | cons ap dest ih =>
    simp only [killAfterWildcard]
    by_cases hkill : (torAddrFamily ap.addr = afInet ∧ killV4)
        ∨ (torAddrFamily ap.addr = afInet6 ∧ killV6)
    · rw [if_pos hkill, ih h4 h6]
      refine (firstMatch_cons_of_not fun hcov => ?_).symm
      have hfamily := AddrPolicy.family_of_covers hcov
      rcases hkill with ⟨hf, hk⟩ | ⟨hf, hk⟩
      · exact absurd hk (by simp [h4 (hfamily.symm.trans hf)])
      · exact absurd hk (by simp [h6 (hfamily.symm.trans hf)])
    rw [if_neg hkill]
    by_cases hall : ap.maskbits = 0 ∧ ap.prtMin ≤ 1 ∧ ap.prtMax ≥ 65535
    · rw [if_pos hall]
      by_cases hcov : ap.covers (addr, port) = true
      · exact (firstMatch_cons_of_covers hcov).trans (firstMatch_cons_of_covers hcov).symm
      · -- the catch-all is of another family, so that this one's flag stays down
        have hfamily : torAddrFamily ap.addr ≠ torAddrFamily addr := fun hf =>
          hcov (AddrPolicy.covers_of_catchAll hf hall.1 (by omega) (by omega))
        refine firstMatch_cons_congr (ih (fun hf => ?_) fun hf => ?_)
        · simp [h4 hf, ← hf, hfamily]
        · simp [h6 hf, ← hf, hfamily]
    · rw [if_neg hall]
      exact firstMatch_cons_congr (ih h4 h6)

/-- **Redundancies.**  A known address and port are answered after the removal of redundant
entries as they were before. -/
theorem exitPolicyRemoveRedundancies_eq (dest : List AddrPolicy) (addr : TorAddr) {port : ℕ}
    (hport : 1 ≤ port ∧ port ≤ 65535) :
    compareKnown addr port (exitPolicyRemoveRedundancies dest) = compareKnown addr port dest := by
  rw [compareKnown_eq, compareKnown_eq]
  exact (removeShadowed_eq _ _ _).trans ((removeCovered_eq _ _ _).trans
    (killAfterWildcard_eq hport (fun _ => rfl) fun _ => rfl))

theorem exitPolicyRemoveRedundancies_eq_http :
    compareKnown (.inet 0x01020304#32) 80 (exitPolicyRemoveRedundancies
        [⟨.accept, .inet 0, 0, 80, 80⟩, ⟨.reject, .inet 0, 0, 1, 65535⟩,
          ⟨.accept, .inet 0, 8, 1, 65535⟩])
      = compareKnown (.inet 0x01020304#32) 80
          [⟨.accept, .inet 0, 0, 80, 80⟩, ⟨.reject, .inet 0, 0, 1, 65535⟩,
            ⟨.accept, .inet 0, 8, 1, 65535⟩] :=
  exitPolicyRemoveRedundancies_eq _ _ (by decide)

end Ator.Policies
