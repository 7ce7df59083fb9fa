import AtorProtocol.Dirauth.Versions
import AtorProtocol.Lib.Plurality

/-!
# When the versions are in an order

`tor_version_compare` reads the difference of two fields as a signed number.  The fields that
`tor_version_parse` bounds are then in their order; a svn revision is any number, so that the
revisions go around in a circle.

* `torVersionParse_bounded` — the bounds of a parsed version.
* `compareTorVersionStr_consistent_iff` — when a list of versions can be sorted.
-/

namespace Ator.Dirauth

open Ator.Text List Option

/-- The bounds that `tor_version_parse` puts on the fields. -/
structure TorVersion.Bounded (v : TorVersion) : Prop where
  major : v.major.toNat < 2 ^ 31
  minor : v.minor.toNat < 2 ^ 31
  micro : v.micro.toNat < 2 ^ 31
  status : v.status.toNat < 2 ^ 31
  patchlevel : v.patchlevel.toNat < 2 ^ 31
  gitTag : v.gitTag.length ≤ 20

/-- The fields that are compared before the revision. -/
def SameBeforeRevision (x y : TorVersion) : Prop :=
  x.major = y.major ∧ x.minor = y.minor ∧ x.micro = y.micro ∧ x.status = y.status
    ∧ x.patchlevel = y.patchlevel ∧ x.statusTag = y.statusTag

/-- The revisions of the versions that agree before it are in one half of the circle. -/
def RevisionsWithinHalf (l : List (List Char)) : Prop :=
  ∀ a ∈ l, ∀ x, torVersionParse a = some x →
    ∃ r : BitVec 32, ∀ b ∈ l, ∀ y, torVersionParse b = some y → SameBeforeRevision x y →
      (y.svnRevision - r).toNat < 2 ^ 31

/-! ## Parsed versions -/

variable {x y z out v : TorVersion} {cp rest s a b c : List Char} {l : List (List Char)}
  {m n r : BitVec 32}

lemma parseNumber_lt (h : parseNumber cp = some (n, rest)) : n.toNat < 2 ^ 31 := by
  rw [parseNumber] at h
  split_ifs at h with _ hle
  obtain ⟨rfl, -⟩ := Prod.mk.inj (some.inj h)
  rw [BitVec.toNat_ofNat]
  omega

lemma gitTag_length_le {hex : List Char} {tag : Bytes}
    (hlen : ¬ (hexDigestLen < hex.length ∨ hex.length = 0))
    (h : base16Decode (hex.length / 2) hex hex.length = some tag) : tag.length ≤ 20 := by
  rw [base16Decode] at h
  split_ifs at h with _ _ _
  have := base16DecodePairs_length h
  rw [List.length_take, hexDigestLen] at *
  omega

lemma parseStatusTag_bounded (hout : out.Bounded) (h : parseStatusTag out cp = some v) :
    v.Bounded := by
  obtain ⟨hmajor, hminor, hmicro, hstatus, hpatch, hgit⟩ := hout
  rw [parseStatusTag] at h
  generalize (if cp.head? = some '-' ∨ cp.head? = some '.' then cp.tail else cp) = cp at h
  simp only at h
  split at h
  · obtain rfl := some.inj h
    exact ⟨hmajor, hminor, hmicro, hstatus, hpatch, hgit⟩
  · split at h
    · split_ifs at h with _ hlen
      obtain ⟨tag, htag, rfl⟩ := map_eq_some_iff.mp h
      exact ⟨hmajor, hminor, hmicro, hstatus, hpatch, gitTag_length_le hlen htag⟩
    · obtain rfl := some.inj h
      exact ⟨hmajor, hminor, hmicro, hstatus, hpatch, hgit⟩

/-- **A parsed version** has small numbers, but for the revision. -/
theorem torVersionParse_bounded (h : torVersionParse s = some v) : v.Bounded := by
  simp only [torVersionParse, bind_eq_bind, bind_eq_some_iff, Prod.exists] at h
  obtain ⟨major, cp₁, hmajor, cp₂, -, minor, cp₃, hminor, h⟩ := h
  have hout : TorVersion.Bounded ⟨major, minor, 0, verRelease, 0, [], 0, []⟩ :=
    ⟨parseNumber_lt hmajor, parseNumber_lt hminor, by simp, by simp [verRelease], by simp, by simp⟩
  split at h
  · exact some.inj h ▸ hout
  · exact parseStatusTag_bounded hout h
  · simp only [bind_eq_some_iff, Prod.exists] at h
    obtain ⟨cp₄, -, micro, cp₅, hmicro, h⟩ := h
    have hpatch : ∀ st : BitVec 32, st.toNat < 2 ^ 31 → ∀ patch : BitVec 32, patch.toNat < 2 ^ 31 →
        TorVersion.Bounded ⟨major, minor, micro, st, patch, [], 0, []⟩ := fun st hst patch hp =>
      ⟨hout.major, hout.minor, parseNumber_lt hmicro, hst, hp, hout.gitTag⟩
    have hrel : verRelease.toNat < 2 ^ 31 := by decide
    split at h
    · exact some.inj h ▸ hpatch _ hrel _ hout.patchlevel
    · simp only [bind_eq_some_iff, Prod.exists] at h
      obtain ⟨patch, cp₆, hp, h⟩ := h
      exact parseStatusTag_bounded (hpatch _ hrel _ (parseNumber_lt hp)) h
    · exact parseStatusTag_bounded (hpatch _ hrel _ hout.patchlevel) h
    · simp only [bind_eq_some_iff, Prod.exists] at h
      obtain ⟨patch, cp₆, hp, h⟩ := h
      exact parseStatusTag_bounded (hpatch _ (by decide) _ (parseNumber_lt hp)) h
    · simp only [bind_eq_some_iff, Prod.exists] at h
      obtain ⟨patch, cp₆, hp, h⟩ := h
      exact parseStatusTag_bounded (hpatch _ (by decide) _ (parseNumber_lt hp)) h
    · cases h

/-! ## Differences -/

/-- **Numbers from one half of the circle** are in their order. -/
lemma cmpField_eq_compare (hm : (m - r).toNat < 2 ^ 31) (hn : (n - r).toNat < 2 ^ 31) :
    cmpField m n = compare (m - r).toNat (n - r).toNat := by
  have hsub : (m - n).toInt = (m - r).toNat - (n - r).toNat := by
    have hdiff : m - n = (m - r) - (n - r) := by bv_omega
    rw [hdiff]
    generalize m - r = u at *
    generalize n - r = w at *
    rw [BitVec.toInt_eq_toNat_cond, BitVec.toNat_sub]
    omega
  rw [cmpField, hsub]
  rcases lt_trichotomy (m - r).toNat (n - r).toNat with h | h | h
  · rw [if_pos (by omega), compare_lt_iff_lt.mpr h]
  · rw [if_neg (by omega), if_neg (by omega), compare_eq_iff_eq.mpr h]
  · rw [if_neg (by omega), if_pos (by omega), compare_gt_iff_gt.mpr h]

lemma cmpField_eq_compareOn (hm : m.toNat < 2 ^ 31) (hn : n.toNat < 2 ^ 31) :
    cmpField m n = compare m.toNat n.toNat := by
  have h := cmpField_eq_compare (r := 0) (by simpa using hm) (by simpa using hn)
  simpa using h

/-- A number that is not above another, in an order, is below it by less than half of the
circle. -/
lemma sub_toNat_lt (h : cmpField m n ≠ .gt) (hswap : cmpField n m = (cmpField m n).swap) :
    (n - m).toNat < 2 ^ 31 := by
  have hneg : (n - m).toNat = (2 ^ 32 - (m - n).toNat) % 2 ^ 32 := by
    rw [BitVec.toNat_sub, BitVec.toNat_sub]
    omega
  by_contra hge
  have hcond := BitVec.toInt_eq_toNat_cond (m - n)
  have hcond' := BitVec.toInt_eq_toNat_cond (n - m)
  rcases lt_or_ge (m - n).toNat (2 ^ 31) with hsmall | hlarge
  · have hpos : 0 < (m - n).toInt := by
      rw [hcond, if_pos (by omega)]
      omega
    exact h (by rw [cmpField, if_neg (by omega), if_pos hpos])
  · have hneg₁ : (m - n).toInt < 0 := by
      rw [hcond, if_neg (by omega)]
      omega
    have hneg₂ : (n - m).toInt < 0 := by
      rw [hcond', if_neg (by omega)]
      omega
    rw [cmpField, cmpField, if_pos hneg₁, if_pos hneg₂] at hswap
    cases hswap

/-! ## The order of versions -/

/-- The order by the fields before the revision. -/
def prefixOrder : TorVersion → TorVersion → Ordering :=
  compareLex (compareOn fun v => v.major.toNat) <|
  compareLex (compareOn fun v => v.minor.toNat) <|
  compareLex (compareOn fun v => v.micro.toNat) <|
  compareLex (compareOn fun v => v.status.toNat) <|
  compareLex (compareOn fun v => v.patchlevel.toNat) <|
  compareOn TorVersion.statusTag

/-- The order by the tag of a git commit. -/
def gitTagOrder : TorVersion → TorVersion → Ordering :=
  compareLex (compareOn fun v => v.gitTag.length) (compareOn TorVersion.gitTag)

instance : Std.TransCmp prefixOrder := by
  unfold prefixOrder
  infer_instance

instance : Std.TransCmp gitTagOrder := by
  unfold gitTagOrder
  infer_instance

lemma prefixOrder_eq_iff : prefixOrder x y = .eq ↔ SameBeforeRevision x y := by
  simp only [prefixOrder, compareLex, compareOn, Ordering.then_eq_eq,
    Std.LawfulEqOrd.compare_eq_iff_eq, BitVec.toNat_inj, SameBeforeRevision]

/-- **The comparison of parsed versions**: all but the revision is compared as it should be. -/
lemma torVersionCompare_eq (hx : x.Bounded) (hy : y.Bounded) :
    torVersionCompare x y = (prefixOrder x y).then
      ((cmpField x.svnRevision y.svnRevision).then (gitTagOrder x y)) := by
  have hlen : ∀ v : TorVersion, v.Bounded →
      (BitVec.ofNat 32 v.gitTag.length).toNat = v.gitTag.length := by
    intro v hv
    have := hv.gitTag
    rw [BitVec.toNat_ofNat]
    omega
  have hgit : cmpField (BitVec.ofNat 32 x.gitTag.length) (BitVec.ofNat 32 y.gitTag.length)
      = compare x.gitTag.length y.gitTag.length := by
    have hx' := hx.gitTag
    have hy' := hy.gitTag
    rw [cmpField_eq_compareOn (by rw [hlen x hx]; omega) (by rw [hlen y hy]; omega), hlen x hx,
      hlen y hy]
  simp only [torVersionCompare, prefixOrder, gitTagOrder, compareLex, compareOn,
    cmpField_eq_compareOn hx.major hy.major, cmpField_eq_compareOn hx.minor hy.minor,
    cmpField_eq_compareOn hx.micro hy.micro, cmpField_eq_compareOn hx.status hy.status,
    cmpField_eq_compareOn hx.patchlevel hy.patchlevel, hgit, Ordering.then_assoc]

/-- The order of versions whose revisions are in the half of the circle above `r`. -/
def halfOrder (r : BitVec 32) : TorVersion → TorVersion → Ordering :=
  compareLex prefixOrder <|
  compareLex (compareOn fun v => (v.svnRevision - r).toNat) gitTagOrder

instance : Std.TransCmp (halfOrder r) := by
  unfold halfOrder
  infer_instance

lemma torVersionCompare_eq_halfOrder (hx : x.Bounded) (hy : y.Bounded)
    (h : SameBeforeRevision x y →
      (x.svnRevision - r).toNat < 2 ^ 31 ∧ (y.svnRevision - r).toNat < 2 ^ 31) :
    torVersionCompare x y = halfOrder r x y := by
  rw [torVersionCompare_eq hx hy, halfOrder, compareLex, compareLex]
  cases hfields : prefixOrder x y with
  | lt => rfl
  | gt => rfl
  | eq =>
    obtain ⟨hxr, hyr⟩ := h (prefixOrder_eq_iff.mp hfields)
    rw [cmpField_eq_compare hxr hyr, compareOn]

namespace SameBeforeRevision

lemma symm (h : SameBeforeRevision x y) : SameBeforeRevision y x := by
  obtain ⟨h1, h2, h3, h4, h5, h6⟩ := h
  exact ⟨h1.symm, h2.symm, h3.symm, h4.symm, h5.symm, h6.symm⟩

lemma trans (h : SameBeforeRevision x y) (h' : SameBeforeRevision y z) :
    SameBeforeRevision x z := by
  rw [← prefixOrder_eq_iff] at *
  exact (eqCongruent_of_transCmp prefixOrder).trans h h'

end SameBeforeRevision

/-! ## Lists that can be sorted -/

lemma compareTorVersionStr_some (ha : torVersionParse a = some x)
    (hb : torVersionParse b = some y) :
    compareTorVersionStr a b = torVersionCompare x y := by
  rw [compareTorVersionStr, ha, hb]

lemma prefixOrder_ne_gt (hx : x.Bounded) (hy : y.Bounded) (h : torVersionCompare x y ≠ .gt) :
    prefixOrder x y ≠ .gt := by
  intro hgt
  rw [torVersionCompare_eq hx hy, hgt] at h
  exact h rfl

lemma torVersionCompare_trans (hx : x.Bounded) (hy : y.Bounded) (hz : z.Bounded)
    (hr : ∀ v ∈ [x, y, z], SameBeforeRevision x v → (v.svnRevision - r).toNat < 2 ^ 31)
    (hxy : torVersionCompare x y ≠ .gt) (hyz : torVersionCompare y z ≠ .gt) :
    torVersionCompare x z ≠ .gt := by
  have hcons := consistent_of_transCmp prefixOrder [x, y, z]
  have hpxy := prefixOrder_ne_gt hx hy hxy
  have hpyz := prefixOrder_ne_gt hy hz hyz
  have hpxz := hcons.trans x (by simp) y (by simp) z (by simp) hpxy hpyz
  cases hfields : prefixOrder x z with
  | gt => exact absurd hfields hpxz
  | lt =>
    rw [torVersionCompare_eq hx hz, hfields]
    simp
  | eq =>
    have hxyeq : SameBeforeRevision x y := by
      cases hcase : prefixOrder x y with
      | gt => exact absurd hcase hpxy
      | eq => exact prefixOrder_eq_iff.mp hcase
      | lt =>
        have := hcons.lt_trans_le (by simp) (by simp) (by simp) hcase hpyz
        rw [hfields] at this
        cases this
    have hxr := hr x (by simp) (hxyeq.trans hxyeq.symm)
    have hyr := hr y (by simp) hxyeq
    have hzr := hr z (by simp) (prefixOrder_eq_iff.mp hfields)
    rw [torVersionCompare_eq_halfOrder hx hy fun _ => ⟨hxr, hyr⟩] at hxy
    rw [torVersionCompare_eq_halfOrder hy hz fun _ => ⟨hyr, hzr⟩] at hyz
    rw [torVersionCompare_eq_halfOrder hx hz fun _ => ⟨hxr, hzr⟩]
    exact (consistent_of_transCmp (halfOrder r) [x, y, z]).trans x (by simp) y (by simp) z
      (by simp) hxy hyz

lemma consistent_of_withinHalf (h : RevisionsWithinHalf l) :
    Consistent compareTorVersionStr l where
  swap a ha b hb := by
    cases hx : torVersionParse a with
    | none =>
      cases hy : torVersionParse b with
      | none =>
        simp only [compareTorVersionStr, hx, hy]
        exact Std.OrientedCmp.eq_swap
      | some y => simp [compareTorVersionStr, hx, hy]
    | some x =>
      cases hy : torVersionParse b with
      | none => simp [compareTorVersionStr, hx, hy]
      | some y =>
        obtain ⟨r, hr⟩ := h a ha x hx
        have hbx := torVersionParse_bounded hx
        have hby := torVersionParse_bounded hy
        have hhalf : SameBeforeRevision x y → (x.svnRevision - r).toNat < 2 ^ 31
            ∧ (y.svnRevision - r).toNat < 2 ^ 31 := fun hsame =>
          ⟨hr a ha x hx (hsame.trans hsame.symm), hr b hb y hy hsame⟩
        rw [compareTorVersionStr_some hx hy, compareTorVersionStr_some hy hx,
          torVersionCompare_eq_halfOrder hbx hby hhalf,
          torVersionCompare_eq_halfOrder hby hbx fun hsame => (hhalf hsame.symm).symm]
        exact Std.OrientedCmp.eq_swap
  trans a ha b hb c hc hab hbc := by
    cases hz : torVersionParse c with
    | none =>
      cases hx : torVersionParse a with
      | some x => simp [compareTorVersionStr, hx, hz]
      | none =>
        cases hy : torVersionParse b with
        | some y => simp [compareTorVersionStr, hx, hy] at hab
        | none =>
          simp only [compareTorVersionStr, hx, hy, hz] at *
          exact (consistent_of_transCmp compare [a, b, c]).trans a (by simp) b (by simp) c
            (by simp) hab hbc
    | some z =>
      cases hy : torVersionParse b with
      | none => simp [compareTorVersionStr, hy, hz] at hbc
      | some y =>
        cases hx : torVersionParse a with
        | none => simp [compareTorVersionStr, hx, hy] at hab
        | some x =>
          obtain ⟨r, hr⟩ := h a ha x hx
          rw [compareTorVersionStr_some hx hy] at hab
          rw [compareTorVersionStr_some hy hz] at hbc
          rw [compareTorVersionStr_some hx hz]
          refine torVersionCompare_trans (torVersionParse_bounded hx)
            (torVersionParse_bounded hy) (torVersionParse_bounded hz) ?_ hab hbc (r := r)
          simp only [mem_cons, not_mem_nil, or_false]
          rintro v (rfl | rfl | rfl) hsame
          · exact hr a ha v hx hsame
          · exact hr b hb v hy hsame
          · exact hr c hc v hz hsame

lemma withinHalf_of_consistent (h : Consistent compareTorVersionStr l) :
    RevisionsWithinHalf l := by
  classical
  intro a ha x hx
  obtain ⟨s, hs⟩ := (h.mono (s := l.filter fun b =>
    ∃ y, torVersionParse b = some y ∧ SameBeforeRevision x y)
      (filter_subset_self l)).exists_sortsTo
  have hmem : ∀ b, b ∈ s ↔ b ∈ l ∧ ∃ y, torVersionParse b = some y ∧ SameBeforeRevision x y := by
    intro b
    rw [hs.mem_iff, mem_filter, decide_eq_true_eq]
  cases s with
  | nil => simpa [hx] using (hmem a).mpr ⟨ha, x, hx, prefixOrder_eq_iff.mp Std.ReflCmp.compare_self⟩
  | cons least s =>
    obtain ⟨hleast, v, hv, hxv⟩ := (hmem least).mp mem_cons_self
    refine ⟨v.svnRevision, fun b hb y hy hxy => ?_⟩
    have hvy := hxv.symm.trans hxy
    have hbs : b ∈ least :: s := (hmem b).mpr ⟨hb, y, hy, hxy⟩
    have hle : compareTorVersionStr least b ≠ .gt := by
      rcases mem_cons.mp hbs with rfl | hbs
      · simp [compareTorVersionStr_congruent.refl b]
      · exact (pairwise_cons.mp hs.sorted).1 b hbs
    have hswap := h.swap least hleast b hb
    have hbv := torVersionParse_bounded hv
    have hby := torVersionParse_bounded hy
    rw [compareTorVersionStr_some hv hy, torVersionCompare_eq hbv hby,
      prefixOrder_eq_iff.mpr hvy] at hle hswap
    rw [compareTorVersionStr_some hy hv, torVersionCompare_eq hby hbv,
      prefixOrder_eq_iff.mpr hvy.symm] at hswap
    refine sub_toNat_lt (m := v.svnRevision) ?_ ?_
    · intro hgt
      rw [hgt] at hle
      exact hle rfl
    · cases hcase : cmpField v.svnRevision y.svnRevision with
      | eq => rw [← cmpField_eq_iff.mp hcase, cmpField_eq_iff.mpr rfl, Ordering.swap_eq]
      | lt | gt =>
        rw [hcase] at hswap
        cases hcase' : cmpField y.svnRevision v.svnRevision with
        | eq => simp [cmpField_eq_iff.mp hcase', cmpField_eq_iff.mpr] at hcase
        | lt | gt => simp_all

/-- **A list of versions can be sorted** when, of the versions that agree before the revision, the
revisions are in one half of the circle of 32-bit numbers, and no other. -/
theorem compareTorVersionStr_consistent_iff (l : List (List Char)) :
    Consistent compareTorVersionStr l ↔ RevisionsWithinHalf l :=
  ⟨withinHalf_of_consistent, consistent_of_withinHalf⟩

/-- Versions with revisions half of the circle apart are each below the other. -/
theorem compareTorVersionStr_not_consistent : ¬ ∀ l, Consistent compareTorVersionStr l := by
  intro h
  have hswap := (h ["0.1.0.1 (r0)".toList, "0.1.0.1 (r-2147483648)".toList]).swap _
    mem_cons_self _ (mem_cons_of_mem _ mem_cons_self)
  revert hswap
  decide +kernel

end Ator.Dirauth
