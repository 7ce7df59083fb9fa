import AtorProtocol.Dirauth.Versions

/-!
# The consensus method

`compute_consensus_method` of `src/feature/dirauth/dirvote.c`, on the methods that the voters list.

* `cmpIntStrings` — the comparison of methods, an order that does not tell spellings apart.
* `MethodOutcome` — a method that the code may choose.
* `methodTallied_iff` — when it is the greatest that two thirds of the voters list.
* `majorityTallies_iff` — the tallies of versions and of methods.
-/

namespace Ator.Dirauth

open Ator.Text List

/-- `(int) tor_parse_long(s, 10, 1, INT_MAX, NULL, NULL)` -/
def methodNumber (s : List Char) : ℤ := (torParseLong s 1 2147483647).getD 0

def cmpIntStrings (a b : List Char) : Ordering :=
  if methodNumber a < methodNumber b then .lt
  else if methodNumber a = methodNumber b then
    if methodNumber a = 0 then compare a b else .eq
  else .gt

/-- What `compute_consensus_method` may return for the `supported_methods` of the votes, by the
order in which the sorts leave the methods that compare equal. -/
def MethodOutcome (votes : List (List (List Char))) (result : ℤ) : Prop :=
  ∃ good, TallyTo cmpIntStrings (votes.length * 2 / 3) votes good ∧
    result = (good.getLast?.map methodNumber).getD 1

/-- The number of voters that list a method, in any spelling. -/
def listingNumber (votes : List (List (List Char))) (m : ℤ) : ℕ :=
  votes.countP fun l => ∃ s ∈ l, methodNumber s = m

/-- The method numbers that more than two thirds of the voters list. -/
def acceptable (votes : List (List (List Char))) : Set ℤ :=
  {m | 0 < m ∧ 2 * votes.length < 3 * listingNumber votes m}

/-- Where a method is listed by more than two thirds of the voters, the greatest is chosen. -/
def MethodTallied (votes : List (List (List Char))) : Prop :=
  (∃ result, MethodOutcome votes result) ∧
    ∀ m, IsGreatest (acceptable votes) m → ∀ result, MethodOutcome votes result → result = m

/-- The greatest method is listed in one spelling; or there is one voter; or it is the method 1,
which is chosen by default, and no string that is not a number is listed as often. -/
def MethodSpelledOnce (votes : List (List (List Char))) : Prop :=
  ∀ m, IsGreatest (acceptable votes) m →
    votes.length ≤ 1 ∨
    (∀ s ∈ votes.flatten, ∀ t ∈ votes.flatten, methodNumber s = m → methodNumber t = m → s = t) ∨
    (m = 1 ∧ ∀ s, methodNumber s = 0 → 3 * listing votes s ≤ 2 * votes.length)

variable {a b s t : List Char} {votes : List (List (List Char))} {m : ℤ} {good : List (List Char)}

/-! ## Comparing methods -/

lemma methodNumber_nonneg (s : List Char) : 0 ≤ methodNumber s := by
  rw [methodNumber, torParseLong]
  split
  · split
    · simp
    · next h =>
        rw [not_or, not_lt] at h
        simpa using Int.le_trans (by omega) h.1
  · simp

lemma cmpIntStrings_eq_iff : cmpIntStrings a b = .eq ↔
    methodNumber a = methodNumber b ∧ (methodNumber a = 0 → a = b) := by
  rw [cmpIntStrings]
  split
  · next h =>
      simp only [reduceCtorEq, false_iff, not_and]
      omega
  · split
    · next heq =>
        split
        · next hzero =>
            rw [Std.LawfulEqOrd.compare_eq_iff_eq]
            exact ⟨fun h => ⟨heq, fun _ => h⟩, fun h => h.2 hzero⟩
        · next hzero => exact ⟨fun _ => ⟨heq, fun h => absurd h hzero⟩, fun _ => rfl⟩
    · next hne => simp [hne]

lemma cmpIntStrings_eq_iff_of_pos (h : 0 < methodNumber b) :
    cmpIntStrings a b = .eq ↔ methodNumber a = methodNumber b := by
  rw [cmpIntStrings_eq_iff]
  refine and_iff_left_of_imp fun heq hzero => ?_
  omega

/-- **The comparison of methods does not tell spellings apart.** -/
theorem cmpIntStrings_congruent : EqCongruent cmpIntStrings where
  refl a := cmpIntStrings_eq_iff.mpr ⟨rfl, fun _ => rfl⟩
  left a b c h := by
    obtain ⟨hnum, hsame⟩ := cmpIntStrings_eq_iff.mp h
    by_cases hzero : methodNumber a = 0
    · rw [hsame hzero]
    · simp only [cmpIntStrings, ← hnum, hzero, if_false]
  right a b c h := by
    obtain ⟨hnum, hsame⟩ := cmpIntStrings_eq_iff.mp h
    by_cases hzero : methodNumber a = 0
    · rw [hsame hzero]
    · have : ∀ d, methodNumber d = methodNumber a → methodNumber c = methodNumber d →
          methodNumber c ≠ 0 := fun d hd hcd => by rwa [hcd, hd]
      simp only [cmpIntStrings, ← hnum]
      split
      · rfl
      · split
        · next heq => simp [heq, hzero]
        · rfl

lemma cmpIntStrings_ne_gt_iff : cmpIntStrings a b ≠ .gt ↔ methodNumber a < methodNumber b ∨
    methodNumber a = methodNumber b ∧ (methodNumber a = 0 → compare a b ≠ .gt) := by
  rw [cmpIntStrings]
  split
  · next h => simp [h]
  · next hlt =>
      split
      · next heq => split <;> simp_all
      · next hne => simp [hlt, hne]

/-- **The comparison of methods is an order.** -/
theorem cmpIntStrings_consistent (l : List (List Char)) : Consistent cmpIntStrings l where
  swap a _ b _ := by
    rw [cmpIntStrings, cmpIntStrings]
    rcases lt_trichotomy (methodNumber a) (methodNumber b) with h | h | h
    · rw [if_pos h, if_neg (not_lt.mpr h.le), if_neg h.ne']
      simp
    · simp only [h, lt_irrefl, if_false, if_true]
      split
      · exact Std.OrientedCmp.eq_swap
      · simp
    · rw [if_neg (not_lt.mpr h.le), if_neg h.ne', if_pos h]
      simp
  trans a _ b _ c _ hab hbc := by
    rw [cmpIntStrings_ne_gt_iff] at hab hbc ⊢
    rcases hab with hab | ⟨hab, hab'⟩
    · rcases hbc with hbc | ⟨hbc, -⟩
      · exact .inl (hab.trans hbc)
      · exact .inl (hbc ▸ hab)
    · rcases hbc with hbc | ⟨hbc, hbc'⟩
      · exact .inl (hab ▸ hbc)
      · refine .inr ⟨hab.trans hbc, fun hzero => ?_⟩
        have h1 := Ordering.isLE_iff_ne_gt.mpr (hab' hzero)
        have h2 := Ordering.isLE_iff_ne_gt.mpr (hbc' (hab ▸ hzero))
        exact Ordering.isLE_iff_ne_gt.mp (Std.TransCmp.isLE_trans h1 h2)

/-! ## The chosen method -/

lemma two_thirds_lt_iff {n k : ℕ} : n * 2 / 3 < k ↔ 2 * n < 3 * k := by omega

lemma listingEq_eq_listingNumber (hs : 0 < methodNumber s) :
    listingEq cmpIntStrings votes s = listingNumber votes (methodNumber s) := by
  refine countP_congr fun l _ => ?_
  simp only [decide_eq_true_eq, cmpIntStrings_eq_iff_of_pos hs]

lemma exists_mem_of_listingNumber (h : 0 < listingNumber votes m) :
    ∃ s ∈ votes.flatten, methodNumber s = m := by
  obtain ⟨l, hl, hs⟩ := countP_pos_iff.mp h
  obtain ⟨s, hs, hsm⟩ := of_decide_eq_true hs
  exact ⟨s, mem_flatten.mpr ⟨l, hl, hs⟩, hsm⟩

lemma methodNumber_le_of_mem (htally : TallyTo cmpIntStrings (votes.length * 2 / 3) votes good)
    (hm : IsGreatest (acceptable votes) m) (hs : s ∈ good) : methodNumber s ≤ m := by
  rcases (methodNumber_nonneg s).eq_or_lt with hzero | hpos
  · exact hzero ▸ hm.1.1.le
  · have hlist := htally.lt_listing cmpIntStrings_congruent hs
    have hle := listing_le_listingEq cmpIntStrings_congruent votes s
    rw [listingEq_eq_listingNumber hpos] at hle
    exact hm.2 ⟨hpos, two_thirds_lt_iff.mp (hlist.trans_le hle)⟩

lemma methodNumber_le_getLast (htally : TallyTo cmpIntStrings (votes.length * 2 / 3) votes good)
    (hs : s ∈ good) : ∃ best ∈ good, good.getLast? = some best ∧
      methodNumber s ≤ methodNumber best := by
  have hne := ne_nil_of_mem hs
  refine ⟨good.getLast hne, getLast_mem hne, getLast?_eq_some_getLast hne, ?_⟩
  have hpair := htally.pairwise
  rw [← dropLast_append_getLast hne] at hs hpair
  rcases mem_append.mp hs with hs | hs
  · have hle := (List.pairwise_append.mp hpair).2.2 s hs _ (mem_singleton_self _)
    rcases cmpIntStrings_ne_gt_iff.mp hle with h | h
    · exact h.le
    · exact h.1.le
  · rw [mem_singleton.mp hs]

lemma result_eq_of_mem (htally : TallyTo cmpIntStrings (votes.length * 2 / 3) votes good)
    (hm : IsGreatest (acceptable votes) m) (hs : s ∈ good) (hsm : methodNumber s = m) :
    (good.getLast?.map methodNumber).getD 1 = m := by
  obtain ⟨best, hbest, hlast, hle⟩ := methodNumber_le_getLast htally hs
  rw [hlast]
  exact le_antisymm (methodNumber_le_of_mem htally hm hbest) (hsm ▸ hle)

lemma mem_of_length_le_one (hlen : votes.length ≤ 1) (hs : s ∈ votes.flatten)
    (htally : TallyTo cmpIntStrings (votes.length * 2 / 3) votes good) :
    ∃ t ∈ good, cmpIntStrings s t = .eq := by
  obtain ⟨kept, sorted, hkept, hsort, rfl⟩ := htally
  obtain ⟨t, ht, hst⟩ := exists_eq_kept cmpIntStrings_congruent hkept hs
  refine ⟨t, mem_getFrequentMembers.mpr ?_, hst⟩
  have hmin : votes.length * 2 / 3 = 0 := by omega
  rw [hmin, Nat.zero_add, replicate_one, singleton_infix_iff]
  exact hsort.mem_iff.mpr ht

/-- **The greatest method that two thirds of the voters list is chosen, exactly where it is listed
in one spelling, or there is one voter, or the default is right.** -/
theorem methodTallied_iff : MethodTallied votes ↔ MethodSpelledOnce votes := by
  have hcmp := cmpIntStrings_congruent
  have hcons := cmpIntStrings_consistent votes.flatten
  constructor
  · rintro ⟨-, hall⟩ m hm
    by_contra hno
    rw [not_or, not_or] at hno
    obtain ⟨hlen, hsame, hdefault⟩ := hno
    simp only [not_forall, exists_prop] at hsame
    obtain ⟨s, hs, t, ht, hsm, htm, hne⟩ := hsame
    have hpos : 0 < methodNumber s := hsm ▸ hm.1.1
    have hlist : 2 ≤ listingEq cmpIntStrings votes s := by
      rw [listingEq_eq_listingNumber hpos, hsm]
      have := hm.1.2
      omega
    obtain ⟨good, htally, hnone⟩ := TallyTo.exists_none (votes.length * 2 / 3) hcmp hcons hs ht
      ((cmpIntStrings_eq_iff_of_pos hpos).mpr (htm.trans hsm.symm)) (Ne.symm hne) hlist (by omega)
    have hresult := hall m hm _ ⟨good, htally, rfl⟩
    have hlt : ∀ best ∈ good, methodNumber best < m := by
      intro best hbest
      refine lt_of_le_of_ne (methodNumber_le_of_mem htally hm hbest) fun heq => ?_
      exact hnone best ((cmpIntStrings_eq_iff_of_pos hpos).mpr (heq.trans hsm.symm)) hbest
    cases hlast : good.getLast? with
    | none =>
      -- Nothing comes out: the default is right for the method 1 only.
      rw [hlast] at hresult
      refine hdefault ⟨hresult.symm, fun x hx => ?_⟩
      by_contra hmany
      have hxgood := htally.mem_of_unique hcmp (v := x)
        (fun w _ hw => ((cmpIntStrings_eq_iff.mp hw).2 ((cmpIntStrings_eq_iff.mp hw).1.trans hx)))
        (two_thirds_lt_iff.mpr (not_le.mp hmany))
      rw [getLast?_eq_none_iff.mp hlast] at hxgood
      simp at hxgood
    | some best =>
      rw [hlast] at hresult
      have := hlt best (mem_of_getLast? hlast)
      exact absurd hresult this.ne
  · intro honce
    obtain ⟨good, hgood⟩ := TallyTo.exists_good (votes.length * 2 / 3) hcons
    refine ⟨⟨_, good, hgood, rfl⟩, ?_⟩
    rintro m hm result ⟨good, htally, rfl⟩
    obtain ⟨s, hs, hsm⟩ := exists_mem_of_listingNumber
      (by have := hm.1.2; omega : 0 < listingNumber votes m)
    have hpos : 0 < methodNumber s := hsm ▸ hm.1.1
    rcases honce m hm with hlen | hsame | ⟨rfl, hnon⟩
    · obtain ⟨t, ht, hst⟩ := mem_of_length_le_one hlen hs htally
      exact result_eq_of_mem htally hm ht ((cmpIntStrings_eq_iff.mp hst).1.symm.trans hsm)
    · have hunique : ∀ w ∈ votes.flatten, cmpIntStrings w s = .eq → w = s := fun w hw hws =>
        hsame w hw s hs (((cmpIntStrings_eq_iff.mp hws).1).trans hsm) hsm
      have hlist : votes.length * 2 / 3 < listing votes s := by
        have hall : listing votes s = listingNumber votes m := by
          rw [← hsm, ← listingEq_eq_listingNumber hpos]
          refine countP_congr fun l hl => ?_
          simp only [decide_eq_true_eq]
          refine ⟨fun h => ⟨s, h, hcmp.refl s⟩, ?_⟩
          rintro ⟨w, hw, hws⟩
          exact hunique w (mem_flatten.mpr ⟨l, hl, hw⟩) hws ▸ hw
        rw [hall, two_thirds_lt_iff]
        exact hm.1.2
      exact result_eq_of_mem htally hm (htally.mem_of_unique hcmp hunique hlist) hsm
    · cases hlast : good.getLast? with
      | none => rfl
      | some best =>
        have hbest := mem_of_getLast? hlast
        have hle := methodNumber_le_of_mem htally hm hbest
        have hnum : methodNumber best ≠ 0 := fun hzero => by
          have := two_thirds_lt_iff.mp (htally.lt_listing hcmp hbest)
          have := hnon best hzero
          omega
        have := methodNumber_nonneg best
        change methodNumber best = 1
        omega

/-- **Both tallies are right exactly where the spellings agree.** -/
theorem majorityTallies_iff (versionVotes : List (Option (List Char)))
    (methodVotes : List (List (List Char))) :
    (VersionsTallied versionVotes ↔ VersionsSpelledOnce versionVotes) ∧
      (MethodTallied methodVotes ↔ MethodSpelledOnce methodVotes) :=
  ⟨versionsTallied_iff, methodTallied_iff⟩

/-- Three voters list the version 0.1.2.3, and the method 28, one of them with a zero more. -/
theorem majorityTallies_fail :
    ¬ VersionsTallied [some "0.1.2.3".toList, some "0.1.2.03".toList, some "0.1.2.3".toList] ∧
      ¬ MethodTallied [["28".toList], ["028".toList], ["28".toList]] := by
  constructor
  · rw [versionsTallied_iff]
    rintro ⟨-, honce⟩
    have hsame := honce "0.1.2.3".toList (by decide) "0.1.2.03".toList (by decide) (by decide)
    exact absurd hsame (by decide)
  · rw [methodTallied_iff]
    intro honce
    have hgreatest : IsGreatest (acceptable [["28".toList], ["028".toList], ["28".toList]]) 28 := by
      refine ⟨⟨by omega, by decide⟩, fun m hm => ?_⟩
      obtain ⟨s, hs, rfl⟩ := exists_mem_of_listingNumber (by have := hm.2; omega :
        0 < listingNumber [["28".toList], ["028".toList], ["28".toList]] m)
      have hall : ∀ s ∈ [["28".toList], ["028".toList], ["28".toList]].flatten,
          methodNumber s ≤ 28 := by decide
      exact hall s hs
    rcases honce 28 hgreatest with hlen | hsame | ⟨hone, -⟩
    · exact absurd hlen (by decide)
    · exact absurd (hsame "28".toList (by decide) "028".toList (by decide) (by decide) (by decide))
        (by decide)
    · exact absurd hone (by decide)

end Ator.Dirauth
