import AtorProtocol.Policies.AddrPolicy

/-!
# Answers without the port or the address

With an unknown port or an unknown address, the comparisons of `src/core/or/policies.c` stop at
the first entry that they take to match everything.  An entry for all ports does.  An entry
without mask bits only matches all of its address family.

* `compareKnownNoport_sound` — without a port, it is the answer on every port.
* `partialAnswersSound_iff` — without an address, when it is the answer for every address.
-/

namespace Ator.Policies

variable {mayMatch matchesAll : AddrPolicy → Bool} {addr : TorAddr} {port : ℕ} {t : PolicyType}
  {policy pre post : List AddrPolicy} {p e : AddrPolicy} {maybeAccept maybeReject : Bool}

/-! ## Definite answers -/

/-- The entry `e` behind `pre` decides: it matches all, and what may match before it agrees. -/
def Decides (mayMatch matchesAll : AddrPolicy → Bool) (pre : List AddrPolicy) (e : AddrPolicy) :
    Prop :=
  mayMatch e ∧ matchesAll e ∧
    ∀ p ∈ pre, mayMatch p → matchesAll p = false ∧ p.policyType = e.policyType

/-- An entry of the type decides. -/
def DecidedAs (mayMatch matchesAll : AddrPolicy → Bool) (t : PolicyType)
    (policy : List AddrPolicy) : Prop :=
  ∃ pre e post, policy = pre ++ e :: post ∧ Decides mayMatch matchesAll pre e ∧ e.policyType = t

lemma not_decidedAs_nil : ¬ DecidedAs mayMatch matchesAll t [] := by
  rintro ⟨pre, e, post, h, -⟩
  simp at h

lemma decidedAs_cons : DecidedAs mayMatch matchesAll t (p :: policy)
    ↔ (mayMatch p ∧ matchesAll p ∧ p.policyType = t) ∨
      (mayMatch p → matchesAll p = false ∧ p.policyType = t) ∧
        DecidedAs mayMatch matchesAll t policy := by
  constructor
  · rintro ⟨pre, e, post, h, ⟨hmay, hall, hpre⟩, ht⟩
    cases pre with
    | nil =>
      obtain ⟨rfl, -⟩ := List.cons.inj h
      exact .inl ⟨hmay, hall, ht⟩
    | cons q pre =>
      obtain ⟨rfl, rfl⟩ := List.cons.inj h
      refine .inr ⟨fun hp => ?_, pre, e, post, rfl, ⟨hmay, hall, fun q' hq' => ?_⟩, ht⟩
      · exact ht ▸ hpre p List.mem_cons_self hp
      · exact hpre q' (List.mem_cons_of_mem p hq')
  · rintro (⟨hmay, hall, ht⟩ | ⟨hp, pre, e, post, rfl, ⟨hmay, hall, hpre⟩, ht⟩)
    · exact ⟨[], p, policy, rfl, ⟨hmay, hall, by simp⟩, ht⟩
    · refine ⟨p :: pre, e, post, rfl, ⟨hmay, hall, ?_⟩, ht⟩
      intro q hq hmayq
      rcases List.mem_cons.mp hq with rfl | hq
      · exact ht ▸ hp hmayq
      · exact hpre q hq hmayq

/-- **Accepted**: an accept entry decides, or everything that may match accepts. -/
lemma comparePartial_accepted :
    comparePartial mayMatch matchesAll maybeAccept maybeReject policy = .accepted
      ↔ maybeReject = false ∧ (DecidedAs mayMatch matchesAll .accept policy ∨
        ∀ p ∈ policy, mayMatch p → matchesAll p = false ∧ p.policyType = .accept) := by
  induction policy generalizing maybeAccept maybeReject with
  | nil => cases maybeReject <;> simp [comparePartial]
  | cons p policy ih =>
    rw [comparePartial, decidedAs_cons]
    by_cases hmay : mayMatch p = true
    · by_cases hall : matchesAll p = true
      · cases htype : p.policyType <;> cases maybeAccept <;> cases maybeReject <;>
          simp [hmay, hall]
      · cases htype : p.policyType <;> simp [hmay, hall, htype, ih]
    · simp [hmay, ih]

/-- **Rejected**: a reject entry decides. -/
lemma comparePartial_rejected :
    comparePartial mayMatch matchesAll maybeAccept maybeReject policy = .rejected
      ↔ maybeAccept = false ∧ DecidedAs mayMatch matchesAll .reject policy := by
  induction policy generalizing maybeAccept maybeReject with
  | nil => cases maybeReject <;> simp [comparePartial, not_decidedAs_nil]
  | cons p policy ih =>
    rw [comparePartial, decidedAs_cons]
    by_cases hmay : mayMatch p = true
    · by_cases hall : matchesAll p = true
      · cases htype : p.policyType <;> cases maybeAccept <;> cases maybeReject <;>
          simp [hmay, hall]
      · cases htype : p.policyType <;> simp [hmay, hall, ih]
    · simp [hmay, ih]

lemma verdict_congr (h : p.policyType = e.policyType) : p.verdict = e.verdict := by
  rw [AddrPolicy.verdict, AddrPolicy.verdict, h]

lemma compareKnown_of_decides (h : Decides mayMatch matchesAll pre e)
    (hmay : ∀ p ∈ pre, p.covers (addr, port) → mayMatch p) (he : e.covers (addr, port)) :
    compareKnown addr port (pre ++ e :: post) = e.verdict := by
  rw [compareKnown_eq]
  exact firstMatch_of_agree (fun p hp hcov => verdict_congr (h.2.2 p hp (hmay p hp hcov)).2) he

lemma compareKnown_of_all_accept
    (hmay : ∀ p ∈ policy, p.covers (addr, port) → mayMatch p)
    (h : ∀ p ∈ policy, mayMatch p → matchesAll p = false ∧ p.policyType = .accept) :
    compareKnown addr port policy = .accepted := by
  rw [compareKnown_eq]
  exact firstMatch_eq_default fun p hp hcov => if_pos (h p hp (hmay p hp hcov)).2

/-- The verdict of a type. -/
def PolicyType.result (t : PolicyType) : AddrPolicyResult :=
  if t = .accept then .accepted else .rejected

lemma noport_mayMatch (hcov : p.covers (addr, port)) :
    torAddrCompareMasked addr p.addr p.maskbits = 0 :=
  (of_decide_eq_true hcov).1

lemma noport_covers (hmay : torAddrCompareMasked addr e.addr e.maskbits = 0)
    (hall : (e.prtMin ≤ 1 && e.prtMax ≥ 65535) = true) (hport : 1 ≤ port ∧ port ≤ 65535) :
    e.covers (addr, port) := by
  obtain ⟨hmin, hmax⟩ := Bool.and_eq_true_iff.mp hall
  rw [decide_eq_true_iff] at hmin hmax
  exact decide_eq_true ⟨hmay, by omega, by omega⟩

lemma compareKnownNoport_sound (hport : 1 ≤ port ∧ port ≤ 65535) :
    (compareKnownNoport addr policy = .accepted → compareKnown addr port policy = .accepted) ∧
      (compareKnownNoport addr policy = .rejected → compareKnown addr port policy = .rejected) := by
  have hdecided : ∀ t, DecidedAs (fun p => torAddrCompareMasked addr p.addr p.maskbits = 0)
      (fun p => p.prtMin ≤ 1 && p.prtMax ≥ 65535) t policy →
        compareKnown addr port policy = t.result := by
    rintro t ⟨pre, e, post, rfl, hdec, rfl⟩
    exact compareKnown_of_decides hdec (fun p _ hcov => decide_eq_true (noport_mayMatch hcov))
      (noport_covers (of_decide_eq_true hdec.1) hdec.2.1 hport)
  constructor
  · intro h
    obtain ⟨-, hdec | hall⟩ := comparePartial_accepted.mp h
    · exact hdecided .accept hdec
    · exact compareKnown_of_all_accept
        (fun p _ hcov => decide_eq_true (noport_mayMatch hcov)) hall
  · intro h
    exact hdecided .reject (comparePartial_rejected.mp h).2

/-! ## Without an address -/

/-- The entry `e` behind `pre` decides the answer for the port without an address. -/
abbrev DecidesPort (port : ℕ) (pre : List AddrPolicy) (e : AddrPolicy) : Prop :=
  Decides (fun p => p.prtMin ≤ port && port ≤ p.prtMax) (fun p => p.maskbits = 0) pre e

lemma port_mayMatch (hcov : p.covers (addr, port)) :
    (p.prtMin ≤ port && port ≤ p.prtMax) = true := by
  obtain ⟨-, hmin, hmax⟩ := of_decide_eq_true hcov
  simp [hmin, hmax]

/-- Where a wildcard decides the port, the policy without it gives its answer to the addresses of
the other families. -/
def WildcardsAgree (port : ℕ) (policy : List AddrPolicy) : Prop :=
  ∀ pre e post, policy = pre ++ e :: post → DecidesPort port pre e →
    ∀ addr, addr ≠ .unspec → torAddrFamily addr ≠ torAddrFamily e.addr →
      compareKnown addr port (pre ++ post) = e.verdict

lemma compareKnown_other_family (h : torAddrFamily addr ≠ torAddrFamily e.addr) :
    compareKnown addr port (pre ++ e :: post) = compareKnown addr port (pre ++ post) := by
  rw [compareKnown_eq, compareKnown_eq]
  exact firstMatch_append_cons_of_not fun hcov => h (AddrPolicy.family_of_covers hcov).symm

lemma compareKnown_same_family (h : torAddrFamily addr = torAddrFamily e.addr)
    (hdec : DecidesPort port pre e) :
    compareKnown addr port (pre ++ e :: post) = e.verdict := by
  refine compareKnown_of_decides hdec (fun p _ hcov => port_mayMatch hcov) ?_
  have hports : e.prtMin ≤ port ∧ port ≤ e.prtMax := by simpa using hdec.1
  exact AddrPolicy.covers_of_catchAll h.symm (of_decide_eq_true hdec.2.1) hports.1 hports.2

variable (post) in
lemma compareUnknown_of_decides (hdec : DecidesPort port pre e) :
    compareUnknown port (pre ++ e :: post) = e.verdict := by
  rw [AddrPolicy.verdict]
  by_cases ht : e.policyType = .accept
  · rw [if_pos ht]
    exact comparePartial_accepted.mpr ⟨rfl, .inl ⟨pre, e, post, rfl, hdec, ht⟩⟩
  · rw [if_neg ht]
    have ht : e.policyType = .reject := by
      cases h : e.policyType with
      | accept => exact absurd h ht
      | reject => rfl
    exact comparePartial_rejected.mpr ⟨rfl, pre, e, post, rfl, hdec, ht⟩

/-! ## Definite answers are right -/

/-- A definite answer without the port is right on every port, and one for the port without the
address is right for every address of every family. -/
structure PartialAnswersSound (port : ℕ) (policy : List AddrPolicy) : Prop where
  noportAccepted : ∀ addr, compareKnownNoport addr policy = .accepted →
    ∀ p, 1 ≤ p ∧ p ≤ 65535 → compareKnown addr p policy = .accepted
  noportRejected : ∀ addr, compareKnownNoport addr policy = .rejected →
    ∀ p, 1 ≤ p ∧ p ≤ 65535 → compareKnown addr p policy = .rejected
  unknownAccepted : compareUnknown port policy = .accepted →
    ∀ addr, addr ≠ .unspec → compareKnown addr port policy = .accepted
  unknownRejected : compareUnknown port policy = .rejected →
    ∀ addr, addr ≠ .unspec → compareKnown addr port policy = .rejected

/-- **Partial knowledge.**  The answers with partial knowledge are right exactly when a wildcard
that decides the port agrees with the rest of the policy about the other families. -/
theorem partialAnswersSound_iff (port : ℕ) (policy : List AddrPolicy) :
    PartialAnswersSound port policy ↔ WildcardsAgree port policy := by
  constructor
  · rintro hsound pre e post rfl hdec addr haddr hfamily
    rw [← compareKnown_other_family hfamily]
    have hanswer := compareUnknown_of_decides post hdec
    rw [AddrPolicy.verdict] at hanswer ⊢
    by_cases ht : e.policyType = .accept
    · rw [if_pos ht] at hanswer ⊢
      exact hsound.unknownAccepted hanswer addr haddr
    · rw [if_neg ht] at hanswer ⊢
      exact hsound.unknownRejected hanswer addr haddr
  · intro hagree
    have hdecided : ∀ t, DecidedAs (fun p => p.prtMin ≤ port && port ≤ p.prtMax)
        (fun p => p.maskbits = 0) t policy → ∀ addr, addr ≠ .unspec →
          compareKnown addr port policy = t.result := by
      rintro t ⟨pre, e, post, rfl, hdec, rfl⟩ addr haddr
      by_cases hfamily : torAddrFamily addr = torAddrFamily e.addr
      · exact compareKnown_same_family hfamily hdec
      · rw [compareKnown_other_family hfamily]
        exact hagree pre e post rfl hdec addr haddr hfamily
    refine ⟨fun addr h p hp => (compareKnownNoport_sound hp).1 h,
      fun addr h p hp => (compareKnownNoport_sound hp).2 h, fun h addr haddr => ?_,
      fun h => hdecided .reject (comparePartial_rejected.mp h).2⟩
    obtain ⟨-, hdec | hall⟩ := comparePartial_accepted.mp h
    · exact hdecided .accept hdec addr haddr
    · exact compareKnown_of_all_accept (fun p _ hcov => port_mayMatch hcov) hall

/-- `reject *4:*` rejects a web port without an address, and no IPv6 address is rejected. -/
theorem partialAnswersSound_fails :
    ¬ PartialAnswersSound 80 [⟨.reject, .inet 0, 0, 1, 65535⟩] := by
  intro h
  have haddr := h.unknownRejected (by decide) (.inet6 ⟨List.replicate 16 1, rfl⟩) (by simp)
  exact absurd haddr (by decide)

end Ator.Policies
