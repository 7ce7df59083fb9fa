import AtorProtocol.Dirauth.DetachedSignatures

/-!
# Sets of detached signatures

What sequences of detached-signature documents make of a consensus.

* `Wanted` — when a signature is added; what is not wanted is never wanted later.
* `mem_goodSet_applyDocuments` — the good signatures in the end, which no order enters.
* `signaturesSound_iff` — when only documents with a matching digest add signatures.
-/

namespace Ator.Dirauth

open List
open Option (some.inj)

variable {Key : Type*} {V : Verifier Key} {digests : DigestAlgorithm → Bytes}

open SharedRandom

/-- The voters and algorithms with a good signature. -/
def goodSet (voters : List VoterInfo) : Set (Bytes × DigestAlgorithm) :=
  {p | ∃ voter ∈ voters, voter.identityDigest = p.1 ∧
    ∃ sig ∈ voter.sigs, sig.alg = p.2 ∧ sig.goodSignature}

/-- A recognized digest of the document matches, and none mismatches. -/
def DigestsMatch (target : NetworkStatus) (sigs : NsDetachedSignatures) : Prop :=
  ∃ digests, sigs.digests (networkstatusGetFlavorName target.flavor) = some digests ∧
    (∃ alg ∈ commonDigestAlgorithms, hasDigest digests alg ∧ target.digests alg = digests alg) ∧
    ∀ alg ∈ commonDigestAlgorithms, hasDigest digests alg → target.digests alg = digests alg

/-- What holds of a consensus to which documents are applied, in every order of them. -/
structure SignaturesSound (V : Verifier Key) (target : ParsedConsensus)
    (documents : List NsDetachedSignatures) : Prop where
  matched : ∀ before sigs after, (before ++ sigs :: after).Perm documents →
    0 < (networkstatusAddDetachedSignatures V
      (applyDocuments V target.toNetworkStatus before) sigs).r →
    DigestsMatch target.toNetworkStatus sigs
  unique : ∀ before after, (before ++ after).Perm documents →
    ∀ voter ∈ (applyDocuments V target.toNetworkStatus before).voters,
      (voter.sigs.map (·.alg)).Nodup
  kept : ∀ before sigs after, (before ++ sigs :: after).Perm documents → ∀ (i : ℕ) voter,
    (applyDocuments V target.toNetworkStatus before).voters[i]? = some voter →
    ∃ voter', (applyDocuments V target.toNetworkStatus (before ++ [sigs])).voters[i]? =
        some voter' ∧ voter'.identityDigest = voter.identityDigest ∧
      ∀ sig ∈ voter.sigs, sig.goodSignature → sig ∈ voter'.sigs
  sameGood : ∀ order, order.Perm documents →
    goodSet (applyDocuments V target.toNetworkStatus order).voters =
      goodSet (applyDocuments V target.toNetworkStatus documents).voters

/-- A signature that the consensus takes: of a voter that it knows, who has no signature with that
algorithm, or a bad one, or one that is not good while this one is. -/
def Wanted (V : Verifier Key) (digests : DigestAlgorithm → Bytes) (voters : List VoterInfo)
    (sig : DocumentSignature) : Prop :=
  ∃ voter, voters.find? (·.identityDigest = sig.identityDigest) = some voter ∧
    ∀ oldSig, networkstatusGetVoterSigByAlg voter sig.alg = some oldSig → ¬ oldSig.goodSignature ∧
        (oldSig.badSignature ∨ (V.checked digests sig).goodSignature)

/-- No document for the consensus without a recognized digest brings a signature that the
consensus takes. -/
def UnrecognizedBringNothing (V : Verifier Key) (target : NetworkStatus)
    (documents : List NsDetachedSignatures) : Prop :=
  ∀ sigs ∈ documents, target.validAfter = sigs.validAfter →
    target.freshUntil = sigs.freshUntil → target.validUntil = sigs.validUntil →
    ∀ digests, sigs.digests (networkstatusGetFlavorName target.flavor) = some digests →
    (∀ alg ∈ commonDigestAlgorithms, hasDigest digests alg = false) →
    ∀ siglist, sigs.signatures (networkstatusGetFlavorName target.flavor) = some siglist →
    ∀ sig ∈ siglist, ¬ Wanted V target.digests target.voters sig

variable {alg : DigestAlgorithm} {sig s old : DocumentSignature} {voter voter' : VoterInfo}
  {voters voters' : List VoterInfo} {l : List DocumentSignature}

/-! ## One signature -/

lemma removeSig_perm (h : l.find? (·.alg = alg) = some old) :
    (old :: removeSig alg l).Perm l := by
  induction l with
  | nil => simp at h
  | cons sig rest ih =>
    rw [find?_cons] at h
    rw [removeSig]
    split at h
    · next heq =>
        rw [if_pos (of_decide_eq_true heq)]
        obtain rfl := some.inj h
        cases hlast : rest.getLast? with
        | none =>
          rw [getLast?_eq_none_iff.mp hlast]
        | some last =>
          refine List.Perm.cons sig ?_
          have hrest := dropLast_append_getLast? last hlast
          refine List.Perm.trans ?_ (Perm.of_eq hrest)
          exact (perm_append_singleton last rest.dropLast).symm
    · next hne =>
        rw [if_neg (of_decide_eq_false hne)]
        exact (List.Perm.swap sig old _).trans ((ih h).cons sig)

lemma checkDocumentSignature_alg (pk : PublicKeys Key) (cert : AuthorityCert Key) :
    (networkstatusCheckDocumentSignature pk digests sig cert).alg = sig.alg ∧
      (networkstatusCheckDocumentSignature pk digests sig cert).identityDigest =
        sig.identityDigest := by
  unfold networkstatusCheckDocumentSignature
  dsimp only
  split
  · exact ⟨rfl, rfl⟩
  · split_ifs
    · exact ⟨rfl, rfl⟩
    · exact ⟨rfl, rfl⟩
    all_goals split <;> try split_ifs
    all_goals exact ⟨rfl, rfl⟩

@[simp] lemma checked_alg (V : Verifier Key) (digests : DigestAlgorithm → Bytes)
    (sig : DocumentSignature) : (V.checked digests sig).alg = sig.alg := by
  rw [Verifier.checked]
  split
  · split
    · rfl
    · exact (checkDocumentSignature_alg V.pk _).1
  · rfl

/-- **What the addition of a signature does to its voter.** -/
lemma addSignature_eq_some (h : addSignature V digests voter sig = some voter') :
    voter'.identityDigest = voter.identityDigest ∧
      ((networkstatusGetVoterSigByAlg voter sig.alg = none ∧
          voter'.sigs = voter.sigs ++ [V.checked digests sig]) ∨
        ∃ old, networkstatusGetVoterSigByAlg voter sig.alg = some old ∧ ¬ old.goodSignature ∧
          ((V.checked digests sig).goodSignature ∨ old.badSignature) ∧
          ∃ rest, (old :: rest).Perm voter.sigs ∧
            voter'.sigs = rest ++ [V.checked digests sig]) := by
  rw [addSignature] at h
  split at h
  · next hnone =>
      obtain rfl := some.inj h
      exact ⟨rfl, .inl ⟨hnone, rfl⟩⟩
  · next old hold =>
      split_ifs at h with hgood hadd
      obtain rfl := some.inj h
      exact ⟨rfl, .inr ⟨old, hold, hgood, hadd, _, removeSig_perm hold, rfl⟩⟩

lemma addSignature_isSome_iff : (addSignature V digests voter sig).isSome ↔
    ∀ old, networkstatusGetVoterSigByAlg voter sig.alg = some old → ¬ old.goodSignature ∧
      (old.badSignature ∨ (V.checked digests sig).goodSignature) := by
  rw [addSignature]
  cases hold : networkstatusGetVoterSigByAlg voter sig.alg with
  | none => simp
  | some old =>
    simp only [Option.some.injEq, forall_eq']
    split_ifs with hgood hadd
    · simp [hgood]
    · simpa [hgood] using hadd.symm
    · simp only [Option.isSome_none, Bool.false_eq_true, false_iff, not_and]
      exact fun _ h => hadd h.symm

lemma addToVoters_eq_some (h : addToVoters V digests sig voters = some voters') :
    ∃ before voter voter' after, voters = before ++ voter :: after ∧
      (∀ v ∈ before, v.identityDigest ≠ sig.identityDigest) ∧
      voter.identityDigest = sig.identityDigest ∧
      addSignature V digests voter sig = some voter' ∧ voters' = before ++ voter' :: after := by
  induction voters generalizing voters' with
  | nil => cases h
  | cons v rest ih =>
    rw [addToVoters] at h
    split at h
    · next hid =>
        obtain ⟨v', hv', rfl⟩ := Option.map_eq_some_iff.mp h
        exact ⟨[], v, v', rest, rfl, by simp, hid, hv', rfl⟩
    · next hid =>
        obtain ⟨rest', hrest, rfl⟩ := Option.map_eq_some_iff.mp h
        obtain ⟨before, voter, voter', after, rfl, hbefore, hvoter, hadd, rfl⟩ := ih hrest
        refine ⟨v :: before, voter, voter', after, rfl, ?_, hvoter, hadd, rfl⟩
        intro w hw
        rcases mem_cons.mp hw with rfl | hw
        · exact hid
        · exact hbefore w hw

lemma addToVoters_isSome_iff :
    (addToVoters V digests sig voters).isSome ↔ Wanted V digests voters sig := by
  induction voters with
  | nil => simp [addToVoters, Wanted]
  | cons v rest ih =>
    rw [addToVoters, Wanted, find?_cons]
    by_cases hid : v.identityDigest = sig.identityDigest
    · simp only [hid, decide_true, if_true, Option.isSome_map, addSignature_isSome_iff,
        Option.some.injEq, exists_eq_left']
    · simp only [hid, decide_false, if_false, Option.isSome_map, ih]
      rfl

lemma addToVoters_eq_none (h : addToVoters V digests sig voters = none) :
    ¬ Wanted V digests voters sig := by
  rw [← addToVoters_isSome_iff, h]
  simp

/-! ### What stays -/

/-- The voters after a signature was looked at. -/
def afterSignature (V : Verifier Key) (digests : DigestAlgorithm → Bytes) (voters : List VoterInfo)
    (sig : DocumentSignature) : List VoterInfo :=
  (addToVoters V digests sig voters).getD voters

lemma afterSignature_cases (P : List VoterInfo → Prop) (hsame : P voters)
    (hadd : ∀ before voter voter' after, voters = before ++ voter :: after →
      (∀ v ∈ before, v.identityDigest ≠ sig.identityDigest) →
      voter.identityDigest = sig.identityDigest → addSignature V digests voter sig = some voter' →
      P (before ++ voter' :: after)) : P (afterSignature V digests voters sig) := by
  rw [afterSignature]
  cases h : addToVoters V digests sig voters with
  | none => exact hsame
  | some voters' =>
    obtain ⟨before, voter, voter', after, hvoters, hbefore, hid, hsig, rfl⟩ := addToVoters_eq_some h
    exact hadd before voter voter' after hvoters hbefore hid hsig

@[simp] lemma afterSignature_ids (V : Verifier Key) (digests : DigestAlgorithm → Bytes)
    (voters : List VoterInfo) (sig : DocumentSignature) :
    (afterSignature V digests voters sig).map (·.identityDigest) =
      voters.map (·.identityDigest) := by
  refine afterSignature_cases
    (fun v => v.map (·.identityDigest) = voters.map (·.identityDigest)) rfl ?_
  rintro before voter voter' after rfl - - hadd
  simp [(addSignature_eq_some hadd).1]

lemma addSignature_unique (h : addSignature V digests voter sig = some voter')
    (hu : (voter.sigs.map (·.alg)).Nodup) : (voter'.sigs.map (·.alg)).Nodup := by
  obtain ⟨-, ⟨hnone, hsigs⟩ | ⟨old, hold, -, -, rest, hperm, hsigs⟩⟩ := addSignature_eq_some h
  · rw [hsigs, map_append, map_singleton, nodup_append_comm]
    refine nodup_cons.mpr ⟨fun hmem => ?_, hu⟩
    obtain ⟨s, hs, halg⟩ := mem_map.mp hmem
    rw [checked_alg] at halg
    simpa [halg] using find?_eq_none.mp hnone s hs
  · rw [hsigs, map_append, map_singleton, nodup_append_comm]
    have halg : old.alg = sig.alg := by simpa using find?_some hold
    have hnodup := (hperm.map (·.alg)).nodup_iff.mpr hu
    rw [map_cons, halg] at hnodup
    simpa using hnodup

lemma afterSignature_unique (hu : ∀ v ∈ voters, (v.sigs.map (·.alg)).Nodup) :
    ∀ v ∈ afterSignature V digests voters sig, (v.sigs.map (·.alg)).Nodup := by
  refine afterSignature_cases (fun l => ∀ v ∈ l, (v.sigs.map (·.alg)).Nodup) hu ?_
  rintro before voter voter' after rfl - - hadd v hv
  rcases mem_append.mp hv with hv | hv
  · exact hu v (mem_append_left _ hv)
  · rcases mem_cons.mp hv with rfl | hv
    · exact addSignature_unique hadd (hu voter (by simp))
    · exact hu v (by simp [hv])

/-- Good signatures stay with their voter. -/
def Keeps (voter voter' : VoterInfo) : Prop :=
  voter'.identityDigest = voter.identityDigest ∧
    ∀ sig ∈ voter.sigs, sig.goodSignature → sig ∈ voter'.sigs

lemma Keeps.refl (voter : VoterInfo) : Keeps voter voter := ⟨rfl, fun _ h _ => h⟩

lemma Keeps.trans {a b c : VoterInfo} (hab : Keeps a b) (hbc : Keeps b c) : Keeps a c :=
  ⟨hbc.1.trans hab.1, fun sig hs hgood => hbc.2 sig (hab.2 sig hs hgood) hgood⟩

lemma keeps_trans {l m n : List VoterInfo} (hlm : List.Forall₂ Keeps l m)
    (hmn : List.Forall₂ Keeps m n) : List.Forall₂ Keeps l n := by
  induction hlm generalizing n with
  | nil => exact hmn
  | cons hab _ ih =>
    cases hmn with
    | cons hbc hrest => exact .cons (hab.trans hbc) (ih hrest)

lemma exists_keeps_of_getElem? {l m : List VoterInfo} (h : List.Forall₂ Keeps l m) {i : ℕ}
    (hi : l[i]? = some voter) : ∃ voter', m[i]? = some voter' ∧ Keeps voter voter' := by
  induction h generalizing i with
  | nil => simp at hi
  | @cons a b _ _ hab _ ih =>
    cases i with
    | zero =>
      obtain rfl : a = voter := by simpa using hi
      exact ⟨b, rfl, hab⟩
    | succ i => exact ih hi

lemma addSignature_keeps (h : addSignature V digests voter sig = some voter') :
    Keeps voter voter' := by
  obtain ⟨hid, ⟨-, hsigs⟩ | ⟨old, -, hbad, -, rest, hperm, hsigs⟩⟩ := addSignature_eq_some h
  · exact ⟨hid, fun s hs _ => by simp [hsigs, hs]⟩
  · refine ⟨hid, fun s hs hgood => ?_⟩
    rcases mem_cons.mp (hperm.mem_iff.mpr hs) with rfl | hs
    · exact absurd hgood hbad
    · simp [hsigs, hs]

lemma afterSignature_keeps (V : Verifier Key) (digests : DigestAlgorithm → Bytes)
    (voters : List VoterInfo) (sig : DocumentSignature) :
    List.Forall₂ Keeps voters (afterSignature V digests voters sig) := by
  have hrefl : ∀ l : List VoterInfo, List.Forall₂ Keeps l l := fun l =>
    forall₂_same.mpr fun v _ => Keeps.refl v
  refine afterSignature_cases (List.Forall₂ Keeps voters) (hrefl voters) ?_
  rintro before voter voter' after rfl - - hadd
  exact rel_append (hrefl before) (.cons (addSignature_keeps hadd) (hrefl after))

/-! ### Good signatures -/

variable {p : Bytes × DigestAlgorithm}

lemma mem_goodSet_append_cons {before after : List VoterInfo} :
    p ∈ goodSet (before ++ voter :: after) ↔ p ∈ goodSet (before ++ after) ∨
      (voter.identityDigest = p.1 ∧ ∃ sig ∈ voter.sigs, sig.alg = p.2 ∧ sig.goodSignature) := by
  constructor
  · rintro ⟨v, hv, hgood⟩
    rcases mem_append.mp hv with hv | hv
    · exact .inl ⟨v, mem_append_left _ hv, hgood⟩
    · rcases mem_cons.mp hv with rfl | hv
      · exact .inr hgood
      · exact .inl ⟨v, mem_append_right _ hv, hgood⟩
  · rintro (⟨v, hv, hgood⟩ | hgood)
    · rcases mem_append.mp hv with hv | hv
      · exact ⟨v, mem_append_left _ hv, hgood⟩
      · exact ⟨v, mem_append_right _ (mem_cons_of_mem voter hv), hgood⟩
    · exact ⟨voter, mem_append_right _ mem_cons_self, hgood⟩

lemma addSignature_good (h : addSignature V digests voter sig = some voter') :
    (∃ s ∈ voter'.sigs, s.alg = alg ∧ s.goodSignature) ↔
      (∃ s ∈ voter.sigs, s.alg = alg ∧ s.goodSignature) ∨
        (sig.alg = alg ∧ (V.checked digests sig).goodSignature) := by
  have hlast : ∀ l : List DocumentSignature,
      (∃ s ∈ l ++ [V.checked digests sig], s.alg = alg ∧ s.goodSignature) ↔
        (∃ s ∈ l, s.alg = alg ∧ s.goodSignature) ∨
          (sig.alg = alg ∧ (V.checked digests sig).goodSignature) := by
    intro l
    simp only [mem_append, mem_singleton, or_and_right, exists_or, exists_eq_left, checked_alg]
  obtain ⟨-, ⟨-, hsigs⟩ | ⟨old, -, hbad, -, rest, hperm, hsigs⟩⟩ := addSignature_eq_some h
  · rw [hsigs, hlast]
  · rw [hsigs, hlast]
    refine or_congr_left ⟨?_, ?_⟩
    · rintro ⟨s, hs, hgood⟩
      exact ⟨s, hperm.mem_iff.mp (mem_cons_of_mem old hs), hgood⟩
    · rintro ⟨s, hs, hgood⟩
      rcases mem_cons.mp (hperm.mem_iff.mpr hs) with rfl | hs
      · exact absurd hgood.2 hbad
      · exact ⟨s, hs, hgood⟩

lemma mem_goodSet_of_not_wanted (h : ¬ Wanted V digests voters sig)
    (hid : sig.identityDigest ∈ voters.map (·.identityDigest))
    (hgood : (V.checked digests sig).goodSignature) :
    (sig.identityDigest, sig.alg) ∈ goodSet voters := by
  cases hfind : voters.find? (·.identityDigest = sig.identityDigest) with
  | none =>
    obtain ⟨v, hv, hvid⟩ := mem_map.mp hid
    exact absurd hvid (by simpa using find?_eq_none.mp hfind v hv)
  | some voter =>
    have hvid : voter.identityDigest = sig.identityDigest := by simpa using find?_some hfind
    refine ⟨voter, mem_of_find?_eq_some hfind, hvid, ?_⟩
    by_contra hno
    refine h ⟨voter, hfind, fun old hold => ⟨fun hold' => hno ?_, .inr hgood⟩⟩
    have halg : old.alg = sig.alg := by simpa using find?_some hold
    exact ⟨old, mem_of_find?_eq_some hold, halg, hold'⟩

/-- **The good signatures after a signature was looked at.** -/
lemma mem_goodSet_afterSignature :
    p ∈ goodSet (afterSignature V digests voters sig) ↔ p ∈ goodSet voters ∨
      (p = (sig.identityDigest, sig.alg) ∧ sig.identityDigest ∈ voters.map (·.identityDigest) ∧
        (V.checked digests sig).goodSignature) := by
  rw [afterSignature]
  cases h : addToVoters V digests sig voters with
  | none =>
    refine (or_iff_left_of_imp ?_).symm
    rintro ⟨rfl, hid, hgood⟩
    exact mem_goodSet_of_not_wanted (addToVoters_eq_none h) hid hgood
  | some voters' =>
    obtain ⟨before, voter, voter', after, rfl, -, hid, hadd, rfl⟩ := addToVoters_eq_some h
    rw [Option.getD_some, mem_goodSet_append_cons, mem_goodSet_append_cons,
      addSignature_good hadd, (addSignature_eq_some hadd).1, hid, or_assoc]
    refine or_congr_right ?_
    rw [and_or_left]
    refine or_congr_right ?_
    rw [Prod.ext_iff]
    constructor
    · rintro ⟨h1, h2, hgood⟩
      exact ⟨⟨h1.symm, h2.symm⟩, by simp [hid], hgood⟩
    · rintro ⟨⟨h1, h2⟩, -, hgood⟩
      exact ⟨h1.symm, h2.symm, hgood⟩

/-! ### What is wanted -/

lemma getVoterSigByAlg_eq_some_iff (hu : (voter.sigs.map (·.alg)).Nodup) :
    networkstatusGetVoterSigByAlg voter alg = some s ↔ s ∈ voter.sigs ∧ s.alg = alg := by
  constructor
  · intro h
    exact ⟨mem_of_find?_eq_some h, by simpa using find?_some h⟩
  · rintro ⟨hs, rfl⟩
    cases hfind : networkstatusGetVoterSigByAlg voter s.alg with
    | none => simpa using find?_eq_none.mp hfind s hs
    | some t =>
      have ht : t.alg = s.alg := by simpa using find?_some hfind
      rw [inj_on_of_nodup_map hu (mem_of_find?_eq_some hfind) hs ht]

/-- What a voter's next signature asks for. -/
def WantedBy (V : Verifier Key) (digests : DigestAlgorithm → Bytes) (voter : VoterInfo)
    (s : DocumentSignature) : Prop :=
  ∀ old, networkstatusGetVoterSigByAlg voter s.alg = some old →
    ¬ old.goodSignature ∧ (old.badSignature ∨ (V.checked digests s).goodSignature)

lemma WantedBy.of_addSignature (hu : (voter.sigs.map (·.alg)).Nodup)
    (hadd : addSignature V digests voter sig = some voter') (h : WantedBy V digests voter' s) :
    WantedBy V digests voter s := by
  intro old hold
  have hu' := addSignature_unique hadd hu
  obtain ⟨hmem, halg⟩ := (getVoterSigByAlg_eq_some_iff hu).mp hold
  have hchecked : V.checked digests sig ∈ voter'.sigs → sig.alg = s.alg →
      ¬ (V.checked digests sig).goodSignature := fun hin heq =>
    (h _ ((getVoterSigByAlg_eq_some_iff hu').mpr ⟨hin, (checked_alg V digests sig).trans heq⟩)).1
  obtain ⟨-, ⟨hnone, hsigs⟩ | ⟨old', hold', hbad, hcase, rest, hperm, hsigs⟩⟩ :=
    addSignature_eq_some hadd
  · exact h old ((getVoterSigByAlg_eq_some_iff hu').mpr ⟨by simp [hsigs, hmem], halg⟩)
  · rcases mem_cons.mp (hperm.mem_iff.mpr hmem) with rfl | hrest
    · have hsig : old.alg = sig.alg := by simpa using find?_some hold'
      have hnot := hchecked (by simp [hsigs]) (hsig.symm.trans halg)
      exact ⟨hbad, .inl (hcase.resolve_left hnot)⟩
    · exact h old ((getVoterSigByAlg_eq_some_iff hu').mpr ⟨by simp [hsigs, hrest], halg⟩)

/-- **What is not wanted is not wanted later.** -/
lemma Wanted.of_afterSignature (hu : ∀ v ∈ voters, (v.sigs.map (·.alg)).Nodup)
    (h : Wanted V digests (afterSignature V digests voters sig) s) : Wanted V digests voters s := by
  rw [afterSignature] at h
  cases hstep : addToVoters V digests sig voters with
  | none => rwa [hstep] at h
  | some voters' =>
    obtain ⟨before, voter, voter', after, rfl, hbefore, hid, hadd, rfl⟩ := addToVoters_eq_some hstep
    rw [hstep, Option.getD_some] at h
    obtain ⟨v, hv, hwanted⟩ := h
    have hid' := (addSignature_eq_some hadd).1
    rw [find?_append, find?_cons] at hv
    cases hfind : before.find? (·.identityDigest = s.identityDigest) with
    | some w =>
      rw [hfind, Option.some_or] at hv
      obtain rfl := some.inj hv
      exact ⟨w, by rw [find?_append, hfind, Option.some_or], hwanted⟩
    | none =>
      rw [hfind, Option.none_or, hid'] at hv
      by_cases hs : voter.identityDigest = s.identityDigest
      · simp only [hs, decide_true] at hv
        obtain rfl := some.inj hv
        refine ⟨voter, by simp [find?_append, hfind, hs], ?_⟩
        exact WantedBy.of_addSignature (hu voter (by simp)) hadd hwanted
      · simp only [hs, decide_false] at hv
        exact ⟨v, by simp [find?_append, hfind, hs, hv], hwanted⟩

/-! ## The signatures of a document -/

variable {siglist : List DocumentSignature} {r : ℕ}

lemma addSignatures_cons : addSignatures V digests (sig :: siglist) r voters =
    addSignatures V digests siglist
      (r + if (addToVoters V digests sig voters).isSome then 1 else 0)
      (afterSignature V digests voters sig) := by
  rw [addSignatures, afterSignature]
  cases addToVoters V digests sig voters <;> rfl

lemma le_addSignatures : r ≤ (addSignatures V digests siglist r voters).1 := by
  induction siglist generalizing r voters with
  | nil => exact Nat.le_refl r
  | cons sig siglist ih =>
    rw [addSignatures_cons]
    exact (Nat.le_add_right r _).trans ih

lemma addSignatures_induction (P : List VoterInfo → Prop)
    (hstep : ∀ voters sig, P voters → P (afterSignature V digests voters sig)) (h : P voters) :
    P (addSignatures V digests siglist r voters).2 := by
  induction siglist generalizing r voters with
  | nil => exact h
  | cons sig siglist ih =>
    rw [addSignatures_cons]
    exact ih (hstep voters sig h)

lemma lt_addSignatures_iff (hu : ∀ v ∈ voters, (v.sigs.map (·.alg)).Nodup) :
    r < (addSignatures V digests siglist r voters).1 ↔
      ∃ sig ∈ siglist, Wanted V digests voters sig := by
  induction siglist generalizing r voters with
  | nil => simp [addSignatures]
  | cons sig siglist ih =>
    rw [addSignatures_cons, exists_mem_cons_iff, ← addToVoters_isSome_iff]
    by_cases hsome : (addToVoters V digests sig voters).isSome
    · rw [if_pos hsome]
      exact iff_of_true le_addSignatures (.inl hsome)
    · have hsame : afterSignature V digests voters sig = voters := by
        rw [afterSignature, Option.not_isSome_iff_eq_none.mp hsome, Option.getD_none]
      rw [if_neg hsome, hsame, Nat.add_zero, ih hu, or_iff_right hsome]

lemma mem_goodSet_addSignatures :
    p ∈ goodSet (addSignatures V digests siglist r voters).2 ↔ p ∈ goodSet voters ∨
      ∃ sig ∈ siglist, p = (sig.identityDigest, sig.alg) ∧
        sig.identityDigest ∈ voters.map (·.identityDigest) ∧
        (V.checked digests sig).goodSignature := by
  induction siglist generalizing r voters with
  | nil => simp [addSignatures]
  | cons sig siglist ih =>
    rw [addSignatures_cons, ih, mem_goodSet_afterSignature, afterSignature_ids,
      exists_mem_cons_iff, or_assoc]

/-! ## Sequences of documents -/

variable {target : NetworkStatus} {sigs : NsDetachedSignatures}
  {documents before after : List NsDetachedSignatures}

/-- The document is for the consensus, and none of its digests mismatches. -/
def Accepts (target : NetworkStatus) (sigs : NsDetachedSignatures)
    (digests : DigestAlgorithm → Bytes) (siglist : List DocumentSignature) : Prop :=
  target.validAfter = sigs.validAfter ∧ target.freshUntil = sigs.freshUntil ∧
    target.validUntil = sigs.validUntil ∧
    sigs.signatures (networkstatusGetFlavorName target.flavor) = some siglist ∧
    sigs.digests (networkstatusGetFlavorName target.flavor) = some digests ∧
    ∀ alg ∈ commonDigestAlgorithms, hasDigest digests alg → target.digests alg = digests alg

/-- **A document is refused and changes nothing, or is accepted and its signatures are looked
at.** -/
lemma addDetachedSignatures_cases (V : Verifier Key) (target : NetworkStatus)
    (sigs : NsDetachedSignatures) :
    ((networkstatusAddDetachedSignatures V target sigs).r = -1 ∧
        (networkstatusAddDetachedSignatures V target sigs).target = target ∧
        ∀ digests siglist, ¬ Accepts target sigs digests siglist) ∨
      ∃ digests siglist, Accepts target sigs digests siglist ∧
        (networkstatusAddDetachedSignatures V target sigs).r =
          (addSignatures V target.digests siglist 0 target.voters).1 ∧
        (networkstatusAddDetachedSignatures V target sigs).target =
          { target with voters := (addSignatures V target.digests siglist 0 target.voters).2 } := by
  have hno : ∀ {P : Prop}, ¬ P → (∀ digests siglist, Accepts target sigs digests siglist → P) →
      ∀ digests siglist, ¬ Accepts target sigs digests siglist :=
    fun hP himp digests siglist hacc => hP (himp digests siglist hacc)
  rw [networkstatusAddDetachedSignatures]
  split_ifs with hafter hfresh huntil
  · exact .inl ⟨rfl, rfl, hno hafter fun _ _ hacc => hacc.1⟩
  · exact .inl ⟨rfl, rfl, hno hfresh fun _ _ hacc => hacc.2.1⟩
  · exact .inl ⟨rfl, rfl, hno huntil fun _ _ hacc => hacc.2.2.1⟩
  · rw [not_not] at hafter hfresh huntil
    cases hsigs : sigs.signatures (networkstatusGetFlavorName target.flavor) with
    | none =>
      refine .inl ⟨rfl, rfl, fun digests siglist hacc => ?_⟩
      have := hacc.2.2.2.1
      rw [hsigs] at this
      cases this
    | some siglist =>
      cases hdigests : sigs.digests (networkstatusGetFlavorName target.flavor) with
      | none =>
        refine .inl ⟨rfl, rfl, fun digests siglist hacc => ?_⟩
        have := hacc.2.2.2.2.1
        rw [hdigests] at this
        cases this
      | some digests =>
        have hany : ((commonDigestAlgorithms.filter (hasDigest digests)).any
              fun alg => target.digests alg ≠ digests alg) = true ↔
            ¬ ∀ alg ∈ commonDigestAlgorithms, hasDigest digests alg →
              target.digests alg = digests alg := by
          simp only [any_eq_true, mem_filter, decide_eq_true_eq, not_forall, exists_prop, and_assoc]
        by_cases hmatch : ∀ alg ∈ commonDigestAlgorithms, hasDigest digests alg →
            target.digests alg = digests alg
        · refine .inr ⟨digests, siglist, ⟨hafter, hfresh, huntil, hsigs, hdigests, hmatch⟩, ?_⟩
          have hfalse := mt hany.mp (not_not_intro hmatch)
          dsimp only
          rw [if_neg hfalse]
          exact ⟨rfl, rfl⟩
        · refine .inl ?_
          dsimp only
          rw [if_pos (hany.mpr hmatch)]
          refine ⟨rfl, rfl, fun digests' siglist' hacc => hmatch ?_⟩
          obtain ⟨-, -, -, -, hd, hall⟩ := hacc
          obtain rfl := some.inj (hdigests.symm.trans hd)
          exact hall

/-- Each voter has one signature for an algorithm. -/
def SigsUnique (voters : List VoterInfo) : Prop := ∀ v ∈ voters, (v.sigs.map (·.alg)).Nodup

lemma addDetachedSignatures_induction (P : List VoterInfo → Prop) (V : Verifier Key)
    (target : NetworkStatus) (sigs : NsDetachedSignatures)
    (hstep : ∀ voters sig, P voters → P (afterSignature V target.digests voters sig))
    (h : P target.voters) : P (networkstatusAddDetachedSignatures V target sigs).target.voters := by
  rcases addDetachedSignatures_cases V target sigs with ⟨-, hsame, -⟩ | ⟨_, _, -, -, hadd⟩
  · rwa [hsame]
  · rw [hadd]
    exact addSignatures_induction P hstep h

lemma addDetachedSignatures_frame (V : Verifier Key) (target : NetworkStatus)
    (sigs : NsDetachedSignatures) : (networkstatusAddDetachedSignatures V target sigs).target =
      { target with
        voters := (networkstatusAddDetachedSignatures V target sigs).target.voters } := by
  rcases addDetachedSignatures_cases V target sigs with ⟨-, hsame, -⟩ | ⟨_, _, -, -, hadd⟩
  · rw [hsame]
  · rw [hadd]

lemma applyDocuments_concat (V : Verifier Key) (target : NetworkStatus)
    (documents : List NsDetachedSignatures) (sigs : NsDetachedSignatures) :
    applyDocuments V target (documents ++ [sigs]) =
      (networkstatusAddDetachedSignatures V (applyDocuments V target documents) sigs).target := by
  rw [applyDocuments, foldl_append]
  rfl

lemma applyDocuments_frame (V : Verifier Key) (target : NetworkStatus)
    (documents : List NsDetachedSignatures) : applyDocuments V target documents =
      { target with voters := (applyDocuments V target documents).voters } := by
  induction documents using reverseRecOn with
  | nil => rfl
  | append_singleton documents sigs ih =>
    rw [applyDocuments_concat, addDetachedSignatures_frame, ih]

lemma applyDocuments_induction (P : List VoterInfo → Prop) (V : Verifier Key)
    (target : NetworkStatus) (documents : List NsDetachedSignatures)
    (hstep : ∀ voters sig, P voters → P (afterSignature V target.digests voters sig))
    (h : P target.voters) : P (applyDocuments V target documents).voters := by
  induction documents using reverseRecOn with
  | nil => exact h
  | append_singleton documents sigs ih =>
    rw [applyDocuments_concat]
    refine addDetachedSignatures_induction P V _ sigs (fun voters sig hP => ?_) ih
    rw [applyDocuments_frame]
    exact hstep voters sig hP

lemma applyDocuments_unique (hu : SigsUnique target.voters) :
    SigsUnique (applyDocuments V target documents).voters :=
  applyDocuments_induction SigsUnique V target documents
    (fun _ _ h => afterSignature_unique h) hu

/-- **What is not wanted at the start is never wanted.** -/
theorem Wanted.of_applyDocuments (documents : List NsDetachedSignatures)
    (hu : SigsUnique target.voters)
    (h : Wanted V target.digests (applyDocuments V target documents).voters s) :
    Wanted V target.digests target.voters s := by
  have hP := applyDocuments_induction
    (fun voters => SigsUnique voters ∧
      (Wanted V target.digests voters s → Wanted V target.digests target.voters s))
    V target documents ?_ ⟨hu, fun h => h⟩
  · exact hP.2 h
  · rintro voters sig ⟨hu, hw⟩
    exact ⟨afterSignature_unique hu, fun h => hw (h.of_afterSignature hu)⟩

/-! ### The good signatures in the end -/

/-- An accepted document has a good signature of a voter that the consensus knows. -/
def Contributes (V : Verifier Key) (target : NetworkStatus) (p : Bytes × DigestAlgorithm)
    (sigs : NsDetachedSignatures) : Prop :=
  ∃ digests siglist, Accepts target sigs digests siglist ∧
    ∃ sig ∈ siglist, p = (sig.identityDigest, sig.alg) ∧
      sig.identityDigest ∈ target.voters.map (·.identityDigest) ∧
      (V.checked target.digests sig).goodSignature

lemma Accepts.congr {digests' : DigestAlgorithm → Bytes} (h : Accepts target sigs digests siglist)
    (h' : Accepts target sigs digests' l) : digests = digests' ∧ siglist = l :=
  ⟨some.inj (h.2.2.2.2.1.symm.trans h'.2.2.2.2.1), some.inj (h.2.2.2.1.symm.trans h'.2.2.2.1)⟩

lemma mem_goodSet_addDetachedSignatures :
    p ∈ goodSet (networkstatusAddDetachedSignatures V target sigs).target.voters ↔
      p ∈ goodSet target.voters ∨ Contributes V target p sigs := by
  rcases addDetachedSignatures_cases V target sigs with
    ⟨-, hsame, hno⟩ | ⟨digests, siglist, hacc, -, hadd⟩
  · rw [hsame]
    refine (or_iff_left ?_).symm
    rintro ⟨digests, siglist, hacc, -⟩
    exact hno digests siglist hacc
  · rw [hadd, mem_goodSet_addSignatures]
    refine or_congr_right ⟨fun h => ⟨digests, siglist, hacc, h⟩, ?_⟩
    rintro ⟨digests', siglist', hacc', h⟩
    obtain ⟨-, rfl⟩ := hacc'.congr hacc
    exact h

lemma applyDocuments_ids (V : Verifier Key) (target : NetworkStatus)
    (documents : List NsDetachedSignatures) :
    (applyDocuments V target documents).voters.map (·.identityDigest) =
      target.voters.map (·.identityDigest) := by
  refine applyDocuments_induction
    (fun voters => voters.map (·.identityDigest) = target.voters.map (·.identityDigest))
    V target documents (fun voters sig h => ?_) rfl
  rw [afterSignature_ids, h]

/-- **The good signatures in the end are those at the start and those of the accepted
documents.** -/
theorem mem_goodSet_applyDocuments :
    p ∈ goodSet (applyDocuments V target documents).voters ↔
      p ∈ goodSet target.voters ∨ ∃ sigs ∈ documents, Contributes V target p sigs := by
  induction documents using reverseRecOn with
  | nil => simp [applyDocuments]
  | append_singleton documents sigs ih =>
    have hsame : Contributes V (applyDocuments V target documents) p sigs ↔
        Contributes V target p sigs := by
      rw [Contributes, applyDocuments_ids, applyDocuments_frame]
      rfl
    rw [applyDocuments_concat, mem_goodSet_addDetachedSignatures, ih, hsame, or_assoc]
    refine or_congr_right ?_
    simp only [mem_append, mem_singleton, or_and_right, exists_or, exists_eq_left]

/-! ## When the signatures are sound -/

lemma addDetachedSignatures_pos_iff (hu : SigsUnique target.voters) :
    0 < (networkstatusAddDetachedSignatures V target sigs).r ↔
      ∃ digests siglist, Accepts target sigs digests siglist ∧
        ∃ sig ∈ siglist, Wanted V target.digests target.voters sig := by
  rcases addDetachedSignatures_cases V target sigs with
    ⟨hr, -, hno⟩ | ⟨digests, siglist, hacc, hr, -⟩
  · rw [hr]
    refine iff_of_false (by omega) ?_
    rintro ⟨digests, siglist, hacc, -⟩
    exact hno digests siglist hacc
  · rw [hr, Int.natCast_pos, lt_addSignatures_iff hu]
    refine ⟨fun h => ⟨digests, siglist, hacc, h⟩, ?_⟩
    rintro ⟨digests', siglist', hacc', h⟩
    obtain ⟨-, rfl⟩ := hacc'.congr hacc
    exact h

lemma pos_of_applyDocuments (hu : SigsUnique target.voters)
    (h : 0 < (networkstatusAddDetachedSignatures V (applyDocuments V target before) sigs).r) :
    ∃ digests siglist, Accepts target sigs digests siglist ∧
      ∃ sig ∈ siglist, Wanted V target.digests target.voters sig := by
  rw [addDetachedSignatures_pos_iff (applyDocuments_unique hu)] at h
  obtain ⟨digests, siglist, hacc, sig, hsig, hwanted⟩ := h
  rw [applyDocuments_frame] at hacc
  refine ⟨digests, siglist, hacc, sig, hsig, Wanted.of_applyDocuments before hu ?_⟩
  rw [applyDocuments_frame] at hwanted
  exact hwanted

lemma matched_iff (V : Verifier Key) (target : ParsedConsensus)
    (documents : List NsDetachedSignatures) :
    (∀ before sigs after, (before ++ sigs :: after).Perm documents →
        0 < (networkstatusAddDetachedSignatures V
          (applyDocuments V target.toNetworkStatus before) sigs).r →
        DigestsMatch target.toNetworkStatus sigs) ↔
      UnrecognizedBringNothing V target.toNetworkStatus documents := by
  constructor
  · intro hmatch sigs hsigs hafter hfresh huntil digests hdigests hnone siglist hsiglist sig hsig
      hwanted
    obtain ⟨a, b, hab⟩ := append_of_mem hsigs
    have hperm : ([] ++ sigs :: (a ++ b)).Perm documents := by
      rw [hab]
      exact perm_middle.symm
    have hacc : Accepts target.toNetworkStatus sigs digests siglist :=
      ⟨hafter, hfresh, huntil, hsiglist, hdigests, fun alg halg hd => by
        rw [hnone alg halg] at hd
        cases hd⟩
    have hpos := (addDetachedSignatures_pos_iff target.sigsUnique).mpr
      ⟨digests, siglist, hacc, sig, hsig, hwanted⟩
    obtain ⟨digests', hdigests', ⟨alg, halg, hd, -⟩, -⟩ := hmatch [] sigs (a ++ b) hperm hpos
    obtain rfl := some.inj (hdigests.symm.trans hdigests')
    rw [hnone alg halg] at hd
    cases hd
  · intro hnothing before sigs after hperm hpos
    obtain ⟨digests, siglist, hacc, sig, hsig, hwanted⟩ :=
      pos_of_applyDocuments target.sigsUnique hpos
    obtain ⟨hafter, hfresh, huntil, hsiglist, hdigests, hall⟩ := hacc
    have hmem : sigs ∈ documents := hperm.mem_iff.mp (by simp)
    have hsome : ¬ ∀ alg ∈ commonDigestAlgorithms, hasDigest digests alg = false := fun hnone =>
      hnothing sigs hmem hafter hfresh huntil digests hdigests hnone siglist hsiglist sig hsig
        hwanted
    simp only [not_forall, exists_prop, Bool.not_eq_false] at hsome
    obtain ⟨alg, halg, hd⟩ := hsome
    exact ⟨digests, hdigests, ⟨alg, halg, hd, hall alg halg hd⟩, hall⟩

/-- **A signature is only added with a matching digest exactly where no document without a
recognized digest brings one that the consensus takes; the rest always holds.** -/
theorem signaturesSound_iff (V : Verifier Key) (target : ParsedConsensus)
    (documents : List NsDetachedSignatures) :
    SignaturesSound V target documents ↔
      UnrecognizedBringNothing V target.toNetworkStatus documents := by
  rw [← matched_iff]
  refine ⟨fun h => h.matched, fun hmatched => ⟨hmatched, ?_, ?_, ?_⟩⟩
  · intro before after _
    exact applyDocuments_unique target.sigsUnique
  · intro before sigs after _ i voter hvoter
    rw [applyDocuments_concat]
    have hkeeps : List.Forall₂ Keeps (applyDocuments V target.toNetworkStatus before).voters
        (networkstatusAddDetachedSignatures V
          (applyDocuments V target.toNetworkStatus before) sigs).target.voters := by
      refine addDetachedSignatures_induction _ V _ sigs (fun voters sig h => ?_)
        (forall₂_same.mpr fun v _ => Keeps.refl v)
      exact keeps_trans h (afterSignature_keeps V _ voters sig)
    exact exists_keeps_of_getElem? hkeeps hvoter
  · intro order hperm
    ext p
    rw [mem_goodSet_applyDocuments, mem_goodSet_applyDocuments]
    simp only [hperm.mem_iff]

/-! ### A document with a digest of zeros -/

/-- A consensus of two voters, of whom one has signed. -/
def consensusOfTwo : ParsedConsensus where
  flavor := .ns
  validAfter := 0
  freshUntil := 3600
  validUntil := 7200
  digests _ := List.replicate 20 7 ++ List.replicate 12 0
  voters :=
    [⟨List.replicate 20 1, [⟨List.replicate 20 1, List.replicate 20 3, .sha1, [5], false, true⟩]⟩,
      ⟨List.replicate 20 2, []⟩]
  sigsUnique := by decide

/-- The document of the other voter, whose `consensus-digest` is forty zeros. -/
def zeroDigestDocument : NsDetachedSignatures where
  validAfter := 0
  freshUntil := 3600
  validUntil := 7200
  digests flavor := if flavor = "ns".toList then some fun _ => List.replicate 32 0 else none
  signatures flavor :=
    if flavor = "ns".toList then
      some [⟨List.replicate 20 2, List.replicate 20 4, .sha1, [6], false, false⟩]
    else none

/-- A signature of a document that recognizes nothing is added. -/
theorem signaturesSound_fails :
    ¬ SignaturesSound (⟨⟨fun _ => none, fun _ _ => none⟩, []⟩ : Verifier Unit) consensusOfTwo
      [zeroDigestDocument] := by
  intro h
  have hmatch := h.matched [] zeroDigestDocument [] (List.Perm.refl _) (by decide)
  obtain ⟨digests, hdigests, ⟨alg, -, hd, -⟩, -⟩ := hmatch
  obtain rfl : (fun _ => replicate 32 0) = digests := some.inj hdigests
  cases alg <;> exact absurd hd (by decide)

end Ator.Dirauth
