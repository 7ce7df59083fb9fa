import AtorProtocol.Dirauth.Dircollate
import AtorProtocol.Lib.Run

/-!
# Which relays are voted for, and with which entries

* `Indexed` — the indexes hold the entries that were added.
* `pair_unique` — no two pairs of one RSA identity are each listed by more than half of the
  authorities.
* `collateVotes_collated` — the identities, their rows, and the Ed25519 keys of a row.
-/

namespace Ator.Dircollate

open List Option
open AssocMap (get_eq_some get_set_of_ne get_set_self)

variable {Rsa Ed κ : Type*} [DecidableEq κ]

/-! ## The indexes -/

section Indexes

variable {m : AssocMap κ (VrsLst Rsa Ed)} {k k' : κ} {ptr p : VrsPtr Rsa Ed} {i : ℕ}

lemma vrsAt_putVrs : vrsAt (putVrs m k ptr) k' i
    = if k' = k ∧ i = ptr.voteNum then some ptr else vrsAt m k' i := by
  rw [vrsAt, putVrs]
  by_cases hk : k' = k
  · subst hk
    rw [get_set_self, bind_some, Function.update_apply, vrsAt]
    by_cases hi : i = ptr.voteNum
    · rw [if_pos hi, if_pos ⟨rfl, hi⟩]
    · rw [if_neg hi, if_neg fun h => hi h.2]
      cases m.get k' with
      | none => rfl
      | some vrsLst => rfl
  · rw [get_set_of_ne hk, if_neg fun h => hk h.1, vrsAt]

end Indexes

variable [DecidableEq Rsa] [DecidableEq Ed] {dc dc' : Dircollator Rsa Ed}
  {added : List (VrsPtr Rsa Ed)} {p q : VrsPtr Rsa Ed}

/-- The indexes hold the entries that were added, and their flags are clear. -/
structure Indexed (dc : Dircollator Rsa Ed) (added : List (VrsPtr Rsa Ed)) : Prop where
  byRsa : ∀ k i p, vrsAt dc.byRsaSha1 k i = some p
    ↔ p ∈ added ∧ p.voteNum = i ∧ p.status.identityDigest = k
  byBoth : ∀ k e i p, vrsAt dc.byBothIds (k, e) i = some p ↔ p ∈ added ∧ p.voteNum = i
    ∧ p.status.identityDigest = k ∧ p.status.hasEd25519Listing = true ∧ p.status.ed25519Id = e
  clear : ∀ p ∈ added, dc.reflectsConsensus p.ref = false

/-- What adding entries leaves alone. -/
structure SameVotes (dc dc' : Dircollator Rsa Ed) : Prop where
  nVotes : dc'.nVotes = dc.nVotes
  nAuthorities : dc'.nAuthorities = dc.nAuthorities
  nextVoteNum : dc'.nextVoteNum = dc.nextVoteNum
  isCollated : dc'.isCollated = dc.isCollated

omit [DecidableEq Rsa] [DecidableEq Ed] in
lemma SameVotes.trans {dc'' : Dircollator Rsa Ed} (h : SameVotes dc dc') (h' : SameVotes dc' dc'') :
    SameVotes dc dc'' :=
  ⟨h'.nVotes.trans h.nVotes, h'.nAuthorities.trans h.nAuthorities,
    h'.nextVoteNum.trans h.nextVoteNum, h'.isCollated.trans h.isCollated⟩

lemma Indexed.add (h : Indexed dc added) (hnew : ∀ p ∈ added, p.voteNum = q.voteNum →
      p.status.identityDigest ≠ q.status.identityDigest) :
    ∃ dc', addRouterstatus dc q = some dc' ∧ Indexed dc' (added ++ [q]) ∧ SameVotes dc dc' := by
  have hrsa : vrsAt dc.byRsaSha1 q.status.identityDigest q.voteNum = none := by
    rw [eq_none_iff_forall_ne_some]
    intro p hp
    obtain ⟨hmem, hvote, hid⟩ := (h.byRsa _ _ p).mp hp
    exact hnew p hmem hvote hid
  have hboth : vrsAt dc.byBothIds (q.status.identityDigest, q.status.ed25519Id) q.voteNum = none := by
    rw [eq_none_iff_forall_ne_some]
    intro p hp
    obtain ⟨hmem, hvote, hid, -⟩ := (h.byBoth _ _ _ p).mp hp
    exact hnew p hmem hvote hid
  have hbyRsa : ∀ k i p, vrsAt (putVrs dc.byRsaSha1 q.status.identityDigest q) k i = some p
      ↔ p ∈ added ++ [q] ∧ p.voteNum = i ∧ p.status.identityDigest = k := by
    intro k i p
    rw [vrsAt_putVrs, mem_append, mem_singleton]
    split
    next hkey =>
      obtain ⟨rfl, rfl⟩ := hkey
      constructor
      · intro hq
        obtain rfl := some.inj hq
        exact ⟨.inr rfl, rfl, rfl⟩
      · rintro ⟨hmem | rfl, hvote, hid⟩
        · exact absurd hid (hnew p hmem hvote)
        · rfl
    next hkey =>
      rw [h.byRsa]
      constructor
      · rintro ⟨hmem, hrest⟩
        exact ⟨.inl hmem, hrest⟩
      · rintro ⟨hmem | rfl, hvote, hid⟩
        · exact ⟨hmem, hvote, hid⟩
        · exact absurd ⟨hid.symm, hvote.symm⟩ hkey
  have hclear : ∀ p ∈ added ++ [q],
      Function.update dc.reflectsConsensus q.ref false p.ref = false := by
    intro p hp
    rw [Function.update_apply]
    split
    · rfl
    · next hne =>
      rcases mem_append.mp hp with hmem | hmem
      · exact h.clear p hmem
      · rw [mem_singleton.mp hmem] at hne
        exact absurd rfl hne
  rw [addRouterstatus]
  simp only [hrsa, hboth, isSome_none, Bool.false_eq_true, if_false]
  cases hed : q.status.hasEd25519Listing with
  | false =>
    refine ⟨_, rfl, ⟨hbyRsa, fun k e i p => ?_, hclear⟩, rfl, rfl, rfl, rfl⟩
    rw [h.byBoth, mem_append, mem_singleton]
    constructor
    · rintro ⟨hmem, hrest⟩
      exact ⟨.inl hmem, hrest⟩
    · rintro ⟨hmem | rfl, hrest⟩
      · exact ⟨hmem, hrest⟩
      · rw [hed] at hrest
        simp at hrest
  | true =>
    refine ⟨_, rfl, ⟨hbyRsa, fun k e i p => ?_, hclear⟩, rfl, rfl, rfl, rfl⟩
    rw [vrsAt_putVrs, mem_append, mem_singleton]
    split
    next hkey =>
      obtain ⟨hpair, rfl⟩ := hkey
      obtain ⟨rfl, rfl⟩ := Prod.mk.inj hpair
      constructor
      · intro hq
        obtain rfl := some.inj hq
        exact ⟨.inr rfl, rfl, rfl, hed, rfl⟩
      · rintro ⟨hmem | rfl, hvote, hid, -⟩
        · exact absurd hid (hnew p hmem hvote)
        · rfl
    next hkey =>
      rw [h.byBoth]
      constructor
      · rintro ⟨hmem, hrest⟩
        exact ⟨.inl hmem, hrest⟩
      · rintro ⟨hmem | rfl, hvote, hid, hhas, hval⟩
        · exact ⟨hmem, hvote, hid, hhas, hval⟩
        · exact absurd ⟨by rw [hid, hval], hvote.symm⟩ hkey

/-! ## The votes -/

/-- No vote lists an RSA identity twice. -/
def UniqueRsa (vote : List (VoteRouterstatus Rsa Ed)) : Prop :=
  (vote.map VoteRouterstatus.identityDigest).Nodup

omit [DecidableEq Ed] in
instance (vote : List (VoteRouterstatus Rsa Ed)) : Decidable (UniqueRsa vote) :=
  inferInstanceAs (Decidable (List.Nodup _))

/-- The entries of the votes, of which the first has the number `j`. -/
def pointersFrom (j : ℕ) : List (List (VoteRouterstatus Rsa Ed)) → List (VrsPtr Rsa Ed)
  | [] => []
  | vote :: votes => pointersOf j vote ++ pointersFrom (j + 1) votes

variable {vote : List (VoteRouterstatus Rsa Ed)} {votes : List (List (VoteRouterstatus Rsa Ed))}
  {j : ℕ}

omit [DecidableEq Rsa] [DecidableEq Ed] in
lemma mem_pointersOf : p ∈ pointersOf j vote ↔ p.voteNum = j ∧ vote[p.place]? = some p.status := by
  rw [pointersOf, List.mem_map]
  constructor
  · rintro ⟨entry, hentry, rfl⟩
    exact ⟨rfl, mem_zipIdx_iff_getElem?.mp hentry⟩
  · rintro ⟨rfl, hplace⟩
    exact ⟨(p.status, p.place), mem_zipIdx_iff_getElem?.mpr hplace, rfl⟩

omit [DecidableEq Rsa] [DecidableEq Ed] in
lemma mem_pointersFrom : p ∈ pointersFrom j votes ↔ j ≤ p.voteNum
    ∧ ∃ vote, votes[p.voteNum - j]? = some vote ∧ vote[p.place]? = some p.status := by
  induction votes generalizing j with
  | nil => simp [pointersFrom]
  | cons vote votes ih =>
    rw [pointersFrom, mem_append, mem_pointersOf, ih]
    constructor
    · rintro (⟨rfl, hplace⟩ | ⟨hle, vote', hvote', hplace⟩)
      · exact ⟨Nat.le_refl _, vote, by simp, hplace⟩
      · refine ⟨by omega, vote', ?_, hplace⟩
        rw [show p.voteNum - j = p.voteNum - (j + 1) + 1 by omega, getElem?_cons_succ]
        exact hvote'
    · rintro ⟨hle, vote', hvote', hplace⟩
      rcases Nat.lt_or_eq_of_le hle with hlt | heq
      · rw [show p.voteNum - j = p.voteNum - (j + 1) + 1 by omega, getElem?_cons_succ]
          at hvote'
        exact .inr ⟨hlt, vote', hvote', hplace⟩
      · rw [heq, Nat.sub_self, getElem?_cons_zero] at hvote'
        obtain rfl := some.inj hvote'
        exact .inl ⟨heq.symm, hplace⟩

omit [DecidableEq Rsa] [DecidableEq Ed] in
lemma pairwise_pointersOf (h : UniqueRsa vote) (j : ℕ) : (pointersOf j vote).Pairwise fun p q =>
    p.status.identityDigest ≠ q.status.identityDigest := by
  have hmap : (pointersOf j vote).map (fun p => p.status.identityDigest)
      = vote.map VoteRouterstatus.identityDigest := by
    rw [pointersOf, List.map_map]
    conv_rhs => rw [← zipIdx_map_fst 0 vote, List.map_map]
    rfl
  rw [UniqueRsa, ← hmap] at h
  exact pairwise_map.mp h

lemma Indexed.addAll {l : List (VrsPtr Rsa Ed)} (h : Indexed dc added)
    (hnew : ∀ q ∈ l, ∀ p ∈ added, p.voteNum = q.voteNum →
      p.status.identityDigest ≠ q.status.identityDigest)
    (hl : l.Pairwise fun p q => p.status.identityDigest ≠ q.status.identityDigest) :
    ∃ dc', l.foldlM addRouterstatus dc = some dc' ∧ Indexed dc' (added ++ l) ∧ SameVotes dc dc' := by
  induction l generalizing dc added with
  | nil => exact ⟨dc, rfl, by rwa [append_nil], rfl, rfl, rfl, rfl⟩
  | cons q l ih =>
    obtain ⟨hq, hl⟩ := pairwise_cons.mp hl
    obtain ⟨mid, hmid, hindexed, hsame⟩ := h.add (hnew q mem_cons_self)
    obtain ⟨dc', hdc', hindexed', hsame'⟩ := ih hindexed (fun q' hq' p hp hvote => by
      rcases mem_append.mp hp with hmem | hmem
      · exact hnew q' (mem_cons_of_mem q hq') p hmem hvote
      · rw [mem_singleton.mp hmem]
        exact hq q' hq') hl
    refine ⟨dc', ?_, ?_, hsame.trans hsame'⟩
    · rw [foldlM_cons, hmid]
      exact hdc'
    · rwa [append_assoc, singleton_append] at hindexed'

lemma Indexed.addVotes (h : Indexed dc added) (hroom : dc.nextVoteNum + votes.length ≤ dc.nVotes)
    (hcollated : dc.isCollated = false) (hadded : ∀ p ∈ added, p.voteNum < dc.nextVoteNum)
    (hunique : ∀ vote ∈ votes, UniqueRsa vote) :
    ∃ dc', votes.foldlM addVote dc = some dc'
      ∧ Indexed dc' (added ++ pointersFrom dc.nextVoteNum votes) ∧ dc'.nVotes = dc.nVotes
      ∧ dc'.nAuthorities = dc.nAuthorities ∧ dc'.isCollated = false := by
  induction votes generalizing dc added with
  | nil =>
    refine ⟨dc, rfl, ?_, rfl, rfl, hcollated⟩
    rwa [pointersFrom, append_nil]
  | cons vote votes ih =>
    rw [length_cons] at hroom
    have hstart : Indexed { dc with nextVoteNum := dc.nextVoteNum + 1 } added :=
      ⟨h.byRsa, h.byBoth, h.clear⟩
    obtain ⟨mid, hmid, hindexed, hsame⟩ := hstart.addAll (fun q hq p hp hvote => by
      have hlt := hadded p hp
      rw [hvote, (mem_pointersOf.mp hq).1] at hlt
      exact absurd hlt (Nat.lt_irrefl _))
      (pairwise_pointersOf (hunique vote mem_cons_self) dc.nextVoteNum)
    have hnext : mid.nextVoteNum = dc.nextVoteNum + 1 := hsame.nextVoteNum
    have hn : mid.nVotes = dc.nVotes := hsame.nVotes
    obtain ⟨dc', hdc', hindexed', hnVotes, hnAuthorities, hcollated'⟩ := ih hindexed (by omega)
      (hsame.isCollated.trans hcollated) (fun p hp => by
        rw [hnext]
        rcases mem_append.mp hp with hmem | hmem
        · exact Nat.lt_succ_of_lt (hadded p hmem)
        · rw [(mem_pointersOf.mp hmem).1]
          exact Nat.lt_succ_self _)
      (fun vote' hmem => hunique vote' (mem_cons_of_mem vote hmem))
    refine ⟨dc', ?_, ?_, hnVotes.trans hn, hnAuthorities.trans hsame.nAuthorities, hcollated'⟩
    · rw [foldlM_cons, addVote, if_pos ⟨by omega, hcollated⟩, hmid]
      exact hdc'
    · rwa [hnext, append_assoc] at hindexed'

/-! ## Counting -/

/-- The entry is for the RSA identity. -/
def isRsa (k : Rsa) (vrs : VoteRouterstatus Rsa Ed) : Bool := vrs.identityDigest = k

/-- The vote lists the RSA identity. -/
def lists (k : Rsa) (vote : List (VoteRouterstatus Rsa Ed)) : Bool := vote.any (isRsa k)

/-- The entry is for the pair. -/
def isPair (k : Rsa) (e : Ed) (vrs : VoteRouterstatus Rsa Ed) : Bool :=
  vrs.identityDigest = k ∧ vrs.hasEd25519Listing = true ∧ vrs.ed25519Id = e

/-- The entry is for the RSA identity, and lists no Ed25519 key. -/
def isBare (k : Rsa) (vrs : VoteRouterstatus Rsa Ed) : Bool :=
  vrs.identityDigest = k ∧ vrs.hasEd25519Listing = false

/-- The vote lists the pair. -/
def listsPair (k : Rsa) (e : Ed) (vote : List (VoteRouterstatus Rsa Ed)) : Bool :=
  vote.any (isPair k e)

/-- More than half of the authorities vote so. -/
def Majority (nAuthorities : ℕ) (votes : List (List (VoteRouterstatus Rsa Ed)))
    (f : List (VoteRouterstatus Rsa Ed) → Bool) : Prop :=
  nAuthorities < 2 * votes.countP f

omit [DecidableEq Rsa] [DecidableEq Ed] in
lemma UniqueRsa.eq (h : UniqueRsa vote) {vrs vrs' : VoteRouterstatus Rsa Ed} (hvrs : vrs ∈ vote)
    (hvrs' : vrs' ∈ vote) (heq : vrs.identityDigest = vrs'.identityDigest) : vrs = vrs' :=
  inj_on_of_nodup_map h hvrs hvrs' heq

lemma countP_add_countP_le {α : Type*} {f g : α → Bool} {l : List α}
    (h : ∀ a ∈ l, ¬ (f a = true ∧ g a = true)) : l.countP f + l.countP g ≤ l.length := by
  induction l with
  | nil => simp
  | cons a l ih =>
    have hl := ih fun b hb => h b (mem_cons_of_mem a hb)
    have ha := h a mem_cons_self
    rw [countP_cons, countP_cons, length_cons]
    by_cases hf : f a = true
    · have hg : ¬ g a = true := fun hg => ha ⟨hf, hg⟩
      simp only [hf, hg, if_true]
      simp only [Bool.false_eq_true, if_false]
      omega
    · simp only [hf, Bool.false_eq_true, if_false]
      split
      · omega
      · omega

/-- **No two pairs of one RSA identity** are each listed by more than half of the authorities. -/
theorem pair_unique {nAuthorities : ℕ} {k : Rsa} {e e' : Ed}
    (hunique : ∀ vote ∈ votes, UniqueRsa vote) (hle : votes.length ≤ nAuthorities)
    (h : Majority nAuthorities votes (listsPair k e))
    (h' : Majority nAuthorities votes (listsPair k e')) : e = e' := by
  by_contra hne
  have hcount : votes.countP (listsPair k e) + votes.countP (listsPair k e') ≤ votes.length := by
    refine countP_add_countP_le fun vote hvote => ?_
    rintro ⟨hlists, hlists'⟩
    obtain ⟨vrs, hvrs, hpair⟩ := any_eq_true.mp hlists
    obtain ⟨vrs', hvrs', hpair'⟩ := any_eq_true.mp hlists'
    rw [isPair, decide_eq_true_eq] at hpair hpair'
    obtain rfl := (hunique vote hvote).eq hvrs hvrs' (hpair.1.trans hpair'.1.symm)
    exact hne (hpair.2.2.symm.trans hpair'.2.2)
  rw [Majority] at h h'
  omega

section Counting

variable {row bare : VrsLst Rsa Ed} {k : Rsa} {e : Ed} {i : ℕ}

/-- The row holds the entries of a kind. -/
def Holds (row : VrsLst Rsa Ed) (votes : List (List (VoteRouterstatus Rsa Ed)))
    (f : VoteRouterstatus Rsa Ed → Bool) : Prop :=
  ∀ i p, row i = some p ↔ p.voteNum = i ∧ f p.status = true
    ∧ ∃ vote, votes[i]? = some vote ∧ vote[p.place]? = some p.status

omit [DecidableEq Rsa] [DecidableEq Ed] in
lemma Holds.map_status {f : VoteRouterstatus Rsa Ed → Bool} (h : Holds row votes f)
    (hvote : votes[i]? = some vote) : (row i).map VrsPtr.status = vote.find? f := by
  cases hfind : vote.find? f with
  | none =>
    rw [map_eq_none_iff, eq_none_iff_forall_ne_some]
    intro p hp
    obtain ⟨-, hf, vote', hvote', hplace⟩ := (h i p).mp hp
    obtain rfl := some.inj (hvote'.symm.trans hvote)
    exact find?_eq_none.mp hfind p.status (mem_of_getElem? hplace) hf
  | some vrs =>
    obtain ⟨place, hplace⟩ := mem_iff_getElem?.mp (mem_of_find?_eq_some hfind)
    have hrow := (h i ⟨i, place, vrs⟩).mpr
      ⟨rfl, find?_some hfind, vote, hvote, hplace⟩
    rw [hrow, map_some]

omit [DecidableEq Rsa] [DecidableEq Ed] in
lemma Holds.countListing {f : VoteRouterstatus Rsa Ed → Bool} (h : Holds row votes f) :
    countListing votes.length row = votes.countP fun vote => vote.any f := by
  have hsome : ∀ i vote, votes[i]? = some vote → (row i).isSome = vote.any f :=
    fun i vote hvote => by
      rw [← isSome_map (f := VrsPtr.status), h.map_status hvote, Bool.eq_iff_iff,
        find?_isSome, List.any_eq_true]
  clear h
  rw [Dircollate.countListing]
  induction votes using reverseRecOn with
  | nil => rfl
  | append_singleton votes vote ih =>
    have hlast := hsome votes.length vote (by simp)
    rw [length_append, length_singleton, range_succ, countP_append,
      countP_append, ih fun i vote' hvote' => hsome i vote' ?_]
    · rw [countP_singleton, countP_singleton, hlast]
    · obtain ⟨hlt, -⟩ := List.getElem?_eq_some_iff.mp hvote'
      rwa [getElem?_append_left hlt]

lemma Indexed.holds_rsa (h : Indexed dc (pointersFrom 0 votes))
    (hrow : dc.byRsaSha1.get k = some row) : Holds row votes (isRsa k) := by
  intro i p
  have hat := h.byRsa k i p
  rw [vrsAt, hrow, bind_some, mem_pointersFrom] at hat
  rw [hat, isRsa, decide_eq_true_eq]
  constructor
  · rintro ⟨⟨-, hvote⟩, rfl, hid⟩
    exact ⟨rfl, hid, hvote⟩
  · rintro ⟨rfl, hid, hvote⟩
    exact ⟨⟨Nat.zero_le _, hvote⟩, rfl, hid⟩

lemma Indexed.holds_both (h : Indexed dc (pointersFrom 0 votes))
    (hrow : dc.byBothIds.get (k, e) = some row) : Holds row votes (isPair k e) := by
  intro i p
  have hat := h.byBoth k e i p
  rw [vrsAt, hrow, bind_some, mem_pointersFrom] at hat
  rw [hat, isPair, decide_eq_true_eq]
  constructor
  · rintro ⟨⟨-, hvote⟩, rfl, hpair⟩
    exact ⟨rfl, hpair, hvote⟩
  · rintro ⟨rfl, hpair, hvote⟩
    exact ⟨⟨Nat.zero_le _, hvote⟩, rfl, hpair⟩

lemma Indexed.exists_rsa (h : Indexed dc (pointersFrom 0 votes))
    (hlists : 0 < votes.countP (lists k)) : ∃ row, dc.byRsaSha1.get k = some row := by
  obtain ⟨vote, hvote, hany⟩ := countP_pos_iff.mp hlists
  obtain ⟨i, hi⟩ := mem_iff_getElem?.mp hvote
  obtain ⟨vrs, hvrs, hid⟩ := any_eq_true.mp hany
  obtain ⟨place, hplace⟩ := mem_iff_getElem?.mp hvrs
  have hat := (h.byRsa k i ⟨i, place, vrs⟩).mpr
    ⟨mem_pointersFrom.mpr ⟨Nat.zero_le _, vote, hi, hplace⟩, rfl, of_decide_eq_true hid⟩
  obtain ⟨row, hrow, -⟩ := bind_eq_some_iff.mp hat
  exact ⟨row, hrow⟩

lemma Indexed.exists_both (h : Indexed dc (pointersFrom 0 votes))
    (hlists : 0 < votes.countP (listsPair k e)) : ∃ row, dc.byBothIds.get (k, e) = some row := by
  obtain ⟨vote, hvote, hany⟩ := countP_pos_iff.mp hlists
  obtain ⟨i, hi⟩ := mem_iff_getElem?.mp hvote
  obtain ⟨vrs, hvrs, hpair⟩ := any_eq_true.mp hany
  obtain ⟨place, hplace⟩ := mem_iff_getElem?.mp hvrs
  rw [isPair, decide_eq_true_eq] at hpair
  have hat := (h.byBoth k e i ⟨i, place, vrs⟩).mpr
    ⟨mem_pointersFrom.mpr ⟨Nat.zero_le _, vote, hi, hplace⟩, rfl, hpair⟩
  obtain ⟨row, hrow, -⟩ := bind_eq_some_iff.mp hat
  exact ⟨row, hrow⟩

end Counting

/-! ## The loops -/

section Loops

variable {dc₀ : Dircollator Rsa Ed} {st st₀ : Collating Rsa Ed}

/-- The array has entries of more than half of the authorities. -/
def Chosen (dc : Dircollator Rsa Ed) (vrsLst : VrsLst Rsa Ed) : Prop :=
  dc.nAuthorities / 2 < countListing dc.nVotes vrsLst

instance (dc : Dircollator Rsa Ed) (vrsLst : VrsLst Rsa Ed) : Decidable (Chosen dc vrsLst) :=
  inferInstanceAs (Decidable (_ < _))

omit [DecidableEq Rsa] [DecidableEq Ed] in
lemma of_setReflects {n : ℕ} {row : VrsLst Rsa Ed} {reflects : ℕ × ℕ → Bool} {ref : ℕ × ℕ}
    (h : setReflects n row reflects ref = true) :
    reflects ref = true ∨ ∃ i p, row i = some p ∧ p.ref = ref := by
  rw [setReflects] at h
  induction n with
  | zero => exact .inl h
  | succ n ih =>
    rw [range_succ, foldl_append, foldl_cons, foldl_nil] at h
    cases hp : row n with
    | none =>
      simp only [hp] at h
      exact ih h
    | some p =>
      simp only [hp, Function.update_apply] at h
      by_cases href : ref = p.ref
      · exact .inr ⟨n, p, hp, href.symm⟩
      · rw [if_neg href] at h
        exact ih h

/-- After the pairs `visited` have been visited. -/
structure PairsDone (dc₀ : Dircollator Rsa Ed) (visited : List ((Rsa × Ed) × VrsLst Rsa Ed))
    (st : Collating Rsa Ed) : Prop where
  nVotes : st.1.nVotes = dc₀.nVotes
  nAuthorities : st.1.nAuthorities = dc₀.nAuthorities
  byRsa : st.1.byRsaSha1 = dc₀.byRsaSha1
  all : st.1.allRsaSha1Lst = (visited.filter fun x => Chosen dc₀ x.2).map fun x => x.1.1
  digests : ∀ k row, st.2.get k = some row ↔ ∃ x ∈ visited, Chosen dc₀ x.2 ∧ x.1.1 = k
    ∧ ∃ bare, dc₀.byRsaSha1.get k = some bare ∧ row = fillVrsLst dc₀.nVotes x.2 bare
  reflects : ∀ ref, st.1.reflectsConsensus ref = true → dc₀.reflectsConsensus ref = true
    ∨ ∃ x ∈ visited, Chosen dc₀ x.2 ∧ ∃ i p, x.2 i = some p ∧ p.ref = ref

lemma PairsDone.step {visited : List ((Rsa × Ed) × VrsLst Rsa Ed)}
    {x : (Rsa × Ed) × VrsLst Rsa Ed} (h : PairsDone dc₀ visited st)
    (hrsa : Chosen dc₀ x.2 → ∃ bare, dc₀.byRsaSha1.get x.1.1 = some bare)
    (hone : ∀ y ∈ visited, Chosen dc₀ y.2 → Chosen dc₀ x.2 → y.1.1 ≠ x.1.1) :
    ∃ st', collatePair st x = some st' ∧ PairsDone dc₀ (visited ++ [x]) st' := by
  rw [collatePair, h.nVotes, h.nAuthorities, h.byRsa]
  by_cases hchosen : Chosen dc₀ x.2
  · obtain ⟨bare, hbare⟩ := hrsa hchosen
    rw [if_neg (Nat.not_le.mpr hchosen), hbare]
    refine ⟨_, rfl, rfl, rfl, rfl, ?_, fun k row => ?_, fun ref href => ?_⟩
    · simp [h.all, filter_append, hchosen]
    · dsimp only
      by_cases hk : k = x.1.1
      · subst hk
        rw [get_set_self]
        constructor
        · intro hrow
          exact ⟨x, by simp, hchosen, rfl, bare, hbare, (some.inj hrow).symm⟩
        · rintro ⟨y, hy, hychosen, hkey, bare', hbare', rfl⟩
          rcases mem_append.mp hy with hmem | hmem
          · exact absurd hkey (hone y hmem hychosen hchosen)
          · rw [mem_singleton.mp hmem, some.inj (hbare.symm.trans hbare')]
      · rw [get_set_of_ne hk, h.digests]
        constructor
        · rintro ⟨y, hy, hrest⟩
          exact ⟨y, mem_append_left _ hy, hrest⟩
        · rintro ⟨y, hy, hychosen, hkey, hrest⟩
          rcases mem_append.mp hy with hmem | hmem
          · exact ⟨y, hmem, hychosen, hkey, hrest⟩
          · rw [mem_singleton.mp hmem] at hkey
            exact absurd hkey.symm hk
    · rcases of_setReflects href with hold | ⟨i, p, hp, hpref⟩
      · rcases h.reflects ref hold with hclear | ⟨y, hy, hrest⟩
        · exact .inl hclear
        · exact .inr ⟨y, mem_append_left _ hy, hrest⟩
      · exact .inr ⟨x, by simp, hchosen, i, p, hp, hpref⟩
  · rw [if_pos (Nat.not_lt.mp hchosen)]
    refine ⟨st, rfl, h.nVotes, h.nAuthorities, h.byRsa, ?_, fun k row => ?_, fun ref href => ?_⟩
    · simp [h.all, filter_append, hchosen]
    · rw [h.digests]
      constructor
      · rintro ⟨y, hy, hrest⟩
        exact ⟨y, mem_append_left _ hy, hrest⟩
      · rintro ⟨y, hy, hychosen, hrest⟩
        rcases mem_append.mp hy with hmem | hmem
        · exact ⟨y, hmem, hychosen, hrest⟩
        · rw [mem_singleton.mp hmem] at hychosen
          exact absurd hychosen hchosen
    · rcases h.reflects ref href with hclear | ⟨y, hy, hrest⟩
      · exact .inl hclear
      · exact .inr ⟨y, mem_append_left _ hy, hrest⟩

lemma PairsDone.run {visited rest : List ((Rsa × Ed) × VrsLst Rsa Ed)} (h : PairsDone dc₀ visited st)
    (hrsa : ∀ x ∈ rest, Chosen dc₀ x.2 → ∃ bare, dc₀.byRsaSha1.get x.1.1 = some bare)
    (hone : (visited ++ rest).Pairwise fun y x =>
      Chosen dc₀ y.2 → Chosen dc₀ x.2 → y.1.1 ≠ x.1.1) :
    ∃ st', rest.foldlM collatePair st = some st' ∧ PairsDone dc₀ (visited ++ rest) st' := by
  induction rest generalizing visited st with
  | nil => exact ⟨st, rfl, by rwa [append_nil]⟩
  | cons x rest ih =>
    obtain ⟨mid, hmid, hdone⟩ := h.step (hrsa x mem_cons_self) fun y hy => by
      exact (pairwise_append.mp hone).2.2 y hy x mem_cons_self
    obtain ⟨st', hst', hdone'⟩ := ih hdone (fun y hy => hrsa y (mem_cons_of_mem x hy))
      (by rwa [append_assoc, singleton_append])
    refine ⟨st', ?_, by rwa [append_assoc, singleton_append] at hdone'⟩
    rw [foldlM_cons, hmid]
    exact hst'

/-- After the RSA identities `visited` have been visited. -/
structure RsasDone (st₀ : Collating Rsa Ed) (visited : List (Rsa × VrsLst Rsa Ed))
    (st : Collating Rsa Ed) : Prop where
  nVotes : st.1.nVotes = st₀.1.nVotes
  nAuthorities : st.1.nAuthorities = st₀.1.nAuthorities
  reflects : st.1.reflectsConsensus = st₀.1.reflectsConsensus
  all : st.1.allRsaSha1Lst = st₀.1.allRsaSha1Lst
    ++ (visited.filter fun x => st₀.2.get x.1 = none ∧ Chosen st₀.1 x.2).map Prod.fst
  digests : ∀ k row, st.2.get k = some row ↔ st₀.2.get k = some row
    ∨ (st₀.2.get k = none ∧ (k, row) ∈ visited ∧ Chosen st₀.1 row)

omit [DecidableEq Ed] in
lemma RsasDone.step {visited : List (Rsa × VrsLst Rsa Ed)} {x : Rsa × VrsLst Rsa Ed}
    (h : RsasDone st₀ visited st) (hone : ∀ y ∈ visited, y.1 ≠ x.1) :
    RsasDone st₀ (visited ++ [x]) (collateRsa st x) := by
  have hget : st.2.get x.1 = st₀.2.get x.1 := by
    refine ext fun row => ?_
    rw [h.digests]
    constructor
    · rintro (hget | ⟨-, hmem, -⟩)
      · exact hget
      · exact absurd rfl (hone (x.1, row) hmem)
    · exact .inl
  have hkeep : ∀ k row, ((k, row) = x → st₀.2.get k = none → ¬ Chosen st₀.1 row) →
      (st.2.get k = some row ↔ st₀.2.get k = some row
        ∨ (st₀.2.get k = none ∧ (k, row) ∈ visited ++ [x] ∧ Chosen st₀.1 row)) := by
    intro k row hnot
    rw [h.digests, mem_append, mem_singleton]
    constructor
    · rintro (hold | ⟨hnone, hmem, hchosen⟩)
      · exact .inl hold
      · exact .inr ⟨hnone, .inl hmem, hchosen⟩
    · rintro (hold | ⟨hnone, hmem | rfl, hchosen⟩)
      · exact .inl hold
      · exact .inr ⟨hnone, hmem, hchosen⟩
      · exact absurd hchosen (hnot rfl hnone)
  rw [collateRsa, hget, h.nVotes, h.nAuthorities]
  by_cases hseen : (st₀.2.get x.1).isSome
  · have hne : st₀.2.get x.1 ≠ none := isSome_iff_ne_none.mp hseen
    rw [if_pos hseen]
    refine ⟨h.nVotes, h.nAuthorities, h.reflects, ?_, fun k row => hkeep k row ?_⟩
    · simp [h.all, filter_append, hne]
    · rintro rfl hnone
      exact absurd hnone hne
  · have hnone : st₀.2.get x.1 = none := by simpa using hseen
    rw [if_neg hseen]
    by_cases hchosen : Chosen st₀.1 x.2
    · rw [if_neg (Nat.not_le.mpr hchosen)]
      refine ⟨rfl, rfl, h.reflects, ?_, fun k row => ?_⟩
      · simp [h.all, filter_append, hnone, hchosen]
      · dsimp only
        by_cases hk : k = x.1
        · subst hk
          rw [get_set_self, hnone]
          constructor
          · intro hrow
            rw [← some.inj hrow]
            exact .inr ⟨rfl, by simp, hchosen⟩
          · rintro (hold | ⟨-, hmem, -⟩)
            · cases hold
            · rcases mem_append.mp hmem with hin | hin
              · exact absurd rfl (hone (x.1, row) hin)
              · rw [← mem_singleton.mp hin]
        · rw [get_set_of_ne hk]
          refine hkeep k row ?_
          rintro rfl
          exact absurd rfl hk
    · rw [if_pos (Nat.not_lt.mp hchosen)]
      refine ⟨h.nVotes, h.nAuthorities, h.reflects, ?_, fun k row => hkeep k row ?_⟩
      · simp [h.all, filter_append, hchosen]
      · rintro rfl -
        exact hchosen

omit [DecidableEq Ed] in
lemma RsasDone.run {visited rest : List (Rsa × VrsLst Rsa Ed)} (h : RsasDone st₀ visited st)
    (hone : ((visited ++ rest).map Prod.fst).Nodup) :
    RsasDone st₀ (visited ++ rest) (rest.foldl collateRsa st) := by
  induction rest generalizing visited st with
  | nil => rwa [append_nil]
  | cons x rest ih =>
    have hone' := hone
    rw [map_append, map_cons, nodup_append] at hone'
    have hstep := h.step fun y hy =>
      hone'.2.2 y.1 (mem_map_of_mem hy) x.1 mem_cons_self
    have hrun := ih hstep (by rwa [append_assoc, singleton_append])
    rwa [append_assoc, singleton_append] at hrun

end Loops

/-! ## The collation -/

section Outcome

variable {nAuthorities : ℕ} {k : Rsa} {row row' : VrsLst Rsa Ed}

omit [DecidableEq Rsa] [DecidableEq Ed] in
lemma Holds.unique {f : VoteRouterstatus Rsa Ed → Bool} (h : Holds row votes f)
    (h' : Holds row' votes f) : row = row' := by
  funext i
  refine ext fun p => ?_
  rw [h i p, h' i p]

/-- What a collator knows when the votes have been added. -/
structure Ready (nAuthorities : ℕ) (votes : List (List (VoteRouterstatus Rsa Ed)))
    (dc : Dircollator Rsa Ed) : Prop where
  nVotes : dc.nVotes = votes.length
  nAuthorities : dc.nAuthorities = nAuthorities
  all : dc.allRsaSha1Lst = []
  indexed : Indexed dc (pointersFrom 0 votes)

lemma Ready.chosen_both (h : Ready nAuthorities votes dc) {both : Rsa × Ed}
    (hrow : dc.byBothIds.get both = some row) :
    Chosen dc row ↔ Majority nAuthorities votes (listsPair both.1 both.2) := by
  have hcount := (h.indexed.holds_both hrow).countListing
  have hlists : votes.countP (listsPair both.1 both.2)
      = votes.countP fun vote => vote.any (isPair both.1 both.2) := rfl
  rw [Chosen, Majority, h.nVotes, h.nAuthorities, hlists, ← hcount]
  omega

lemma Ready.chosen_rsa (h : Ready nAuthorities votes dc) (hrow : dc.byRsaSha1.get k = some row) :
    Chosen dc row ↔ Majority nAuthorities votes (lists k) := by
  have hcount := (h.indexed.holds_rsa hrow).countListing
  have hlists : votes.countP (lists k) = votes.countP fun vote => vote.any (isRsa k) := rfl
  rw [Chosen, Majority, h.nVotes, h.nAuthorities, hlists, ← hcount]
  omega

omit [DecidableEq Rsa] [DecidableEq Ed] in
lemma Majority.pos {f : List (VoteRouterstatus Rsa Ed) → Bool} (h : Majority nAuthorities votes f) :
    0 < votes.countP f := by
  rw [Majority] at h
  omega

lemma Majority.lists {e : Ed} (h : Majority nAuthorities votes (listsPair k e)) :
    Majority nAuthorities votes (Dircollate.lists k) := by
  have hle : votes.countP (listsPair k e) ≤ votes.countP (Dircollate.lists k) := by
    refine countP_mono_left fun vote _ hlists => ?_
    obtain ⟨vrs, hvrs, hpair⟩ := any_eq_true.mp hlists
    rw [isPair, decide_eq_true_eq] at hpair
    exact any_eq_true.mpr ⟨vrs, hvrs, decide_eq_true hpair.1⟩
  rw [Majority] at h ⊢
  omega

/-- A row for an identity: that of its pair, or else that of all entries for it. -/
def IsRow (nAuthorities : ℕ) (votes : List (List (VoteRouterstatus Rsa Ed))) (k : Rsa)
    (row : VrsLst Rsa Ed) : Prop :=
  (∃ e both bare, Majority nAuthorities votes (listsPair k e) ∧ Holds both votes (isPair k e)
      ∧ Holds bare votes (isRsa k) ∧ row = fillVrsLst votes.length both bare)
    ∨ ((∀ e, ¬ Majority nAuthorities votes (listsPair k e))
      ∧ Majority nAuthorities votes (lists k) ∧ Holds row votes (isRsa k))

/-- What the collation leaves. -/
structure Outcome (nAuthorities : ℕ) (votes : List (List (VoteRouterstatus Rsa Ed)))
    (dc : Dircollator Rsa Ed) (digests : AssocMap Rsa (VrsLst Rsa Ed)) : Prop where
  nVotes : dc.nVotes = votes.length
  rows : ∀ k row, digests.get k = some row ↔ IsRow nAuthorities votes k row
  both : ∀ k e, Majority nAuthorities votes (listsPair k e) → ∃ both, Holds both votes (isPair k e)
  bare : ∀ k, Majority nAuthorities votes (lists k) → ∃ bare, Holds bare votes (isRsa k)
  nodup : dc.allRsaSha1Lst.Nodup
  mem : ∀ k, k ∈ dc.allRsaSha1Lst ↔ ∃ row, digests.get k = some row
  flagged : ∀ p ∈ pointersFrom 0 votes, dc.reflectsConsensus p.ref = true →
    ∃ e, Majority nAuthorities votes (listsPair p.status.identityDigest e)
      ∧ isPair p.status.identityDigest e p.status = true

omit [DecidableEq Rsa] [DecidableEq Ed] in
lemma eq_of_ref (hp : p ∈ pointersFrom 0 votes) (hq : q ∈ pointersFrom 0 votes)
    (h : p.ref = q.ref) : p = q := by
  obtain ⟨hvoteNum, hplace⟩ := Prod.mk.inj h
  obtain ⟨-, vote, hvote, hstatus⟩ := mem_pointersFrom.mp hp
  obtain ⟨-, vote', hvote', hstatus'⟩ := mem_pointersFrom.mp hq
  cases p
  cases q
  simp_all

lemma Ready.pairwise (h : Ready nAuthorities votes dc) (hle : votes.length ≤ nAuthorities)
    (hunique : ∀ vote ∈ votes, UniqueRsa vote) {l : List ((Rsa × Ed) × VrsLst Rsa Ed)}
    (hl : l.Perm dc.byBothIds.entries) :
    l.Pairwise fun y x => Chosen dc y.2 → Chosen dc x.2 → y.1.1 ≠ x.1.1 := by
  have hnodup : (l.map Prod.fst).Nodup := (hl.map Prod.fst).nodup_iff.mpr dc.byBothIds.nodup
  have hpairwise := pairwise_map.mp hnodup
  refine hpairwise.imp_of_mem fun {y x} hy hx hne hychosen hxchosen heq => hne ?_
  have hygot := get_eq_some.mpr (hl.mem_iff.mp hy)
  have hxgot := get_eq_some.mpr (hl.mem_iff.mp hx)
  have hymaj := (h.chosen_both hygot).mp hychosen
  have hxmaj := (h.chosen_both hxgot).mp hxchosen
  rw [heq] at hymaj
  exact Prod.ext heq (pair_unique hunique hle hymaj hxmaj)

omit [DecidableEq Rsa] [DecidableEq Ed] in
lemma Holds.mem {f : VoteRouterstatus Rsa Ed → Bool} {i : ℕ} (h : Holds row votes f)
    (hp : row i = some p) : p ∈ pointersFrom 0 votes ∧ f p.status = true := by
  obtain ⟨rfl, hf, hvote⟩ := (h i p).mp hp
  exact ⟨mem_pointersFrom.mpr ⟨Nat.zero_le _, hvote⟩, hf⟩

lemma Ready.pairRow_iff (h : Ready nAuthorities votes dc) {l : List ((Rsa × Ed) × VrsLst Rsa Ed)}
    (hl : l.Perm dc.byBothIds.entries) :
    (∃ x ∈ l, Chosen dc x.2 ∧ x.1.1 = k
        ∧ ∃ bare, dc.byRsaSha1.get k = some bare ∧ row = fillVrsLst dc.nVotes x.2 bare)
      ↔ ∃ e both bare, Majority nAuthorities votes (listsPair k e) ∧ Holds both votes (isPair k e)
        ∧ Holds bare votes (isRsa k) ∧ row = fillVrsLst votes.length both bare := by
  rw [h.nVotes]
  constructor
  · rintro ⟨x, hx, hchosen, rfl, bare, hbare, hrow⟩
    have hget := get_eq_some.mpr (hl.mem_iff.mp hx)
    exact ⟨x.1.2, x.2, bare, (h.chosen_both hget).mp hchosen, h.indexed.holds_both hget,
      h.indexed.holds_rsa hbare, hrow⟩
  · rintro ⟨e, both, bare, hmaj, hboth, hbare, hrow⟩
    obtain ⟨both', hget⟩ := h.indexed.exists_both hmaj.pos
    obtain ⟨bare', hgetBare⟩ := h.indexed.exists_rsa hmaj.lists.pos
    obtain rfl := hboth.unique (h.indexed.holds_both hget)
    obtain rfl := hbare.unique (h.indexed.holds_rsa hgetBare)
    exact ⟨((k, e), both), hl.mem_iff.mpr (get_eq_some.mp hget),
      (h.chosen_both hget).mpr hmaj, rfl, bare, hgetBare, hrow⟩

/-- **The loops choose the rows.** -/
lemma Ready.outcome (h : Ready nAuthorities votes dc) (hle : votes.length ≤ nAuthorities)
    (hunique : ∀ vote ∈ votes, UniqueRsa vote) (pairs : HashOrder ((Rsa × Ed) × VrsLst Rsa Ed))
    (rsas : HashOrder (Rsa × VrsLst Rsa Ed)) :
    ∃ dc', collateByEd25519 pairs rsas dc = some dc'
      ∧ Outcome nAuthorities votes dc' dc'.byCollatedRsaSha1 := by
  have hl := pairs.perm dc.byBothIds.entries
  have hstart : PairsDone dc [] (dc, ∅) := by
    refine ⟨rfl, rfl, rfl, h.all, fun k row => ?_, fun ref href => .inl href⟩
    simp
  have hrsa : ∀ x ∈ pairs.order dc.byBothIds.entries, Chosen dc x.2 →
      ∃ bare, dc.byRsaSha1.get x.1.1 = some bare := fun x hx hchosen => by
    have hget := get_eq_some.mpr (hl.mem_iff.mp hx)
    exact h.indexed.exists_rsa ((h.chosen_both hget).mp hchosen).lists.pos
  obtain ⟨st, hst, hpairs⟩ := hstart.run hrsa (h.pairwise hle hunique hl)
  rw [nil_append] at hpairs
  have hl' := rsas.perm st.1.byRsaSha1.entries
  have hkeys : ((rsas.order st.1.byRsaSha1.entries).map Prod.fst).Nodup :=
    (hl'.map Prod.fst).nodup_iff.mpr st.1.byRsaSha1.nodup
  have hstart' : RsasDone st [] st := by
    refine ⟨rfl, rfl, rfl, by simp, fun k row => ?_⟩
    simp
  have hrsas : RsasDone st (rsas.order st.1.byRsaSha1.entries)
      ((rsas.order st.1.byRsaSha1.entries).foldl collateRsa st) := hstart'.run hkeys
  rw [collateByEd25519, hst]
  have hchosen : ∀ row, Chosen st.1 row ↔ Chosen dc row := fun row => by
    rw [Chosen, Chosen, hpairs.nVotes, hpairs.nAuthorities]
  have hmem : ∀ x, x ∈ rsas.order st.1.byRsaSha1.entries ↔ dc.byRsaSha1.get x.1 = some x.2 :=
    fun x => by
      rw [hl'.mem_iff, hpairs.byRsa]
      exact get_eq_some.symm
  have hdigests : ∀ k row, st.2.get k = some row ↔ ∃ e both bare,
      Majority nAuthorities votes (listsPair k e) ∧ Holds both votes (isPair k e)
        ∧ Holds bare votes (isRsa k) ∧ row = fillVrsLst votes.length both bare :=
    fun k row => by rw [hpairs.digests, h.pairRow_iff hl]
  have hnone : ∀ k, st.2.get k = none ↔ ∀ e, ¬ Majority nAuthorities votes (listsPair k e) :=
    fun k => by
      rw [eq_none_iff_forall_ne_some]
      constructor
      · intro hall e hmaj
        obtain ⟨both, hget⟩ := h.indexed.exists_both hmaj.pos
        obtain ⟨bare, hgetBare⟩ := h.indexed.exists_rsa hmaj.lists.pos
        exact hall _ ((hdigests k _).mpr ⟨e, both, bare, hmaj, h.indexed.holds_both hget,
          h.indexed.holds_rsa hgetBare, rfl⟩)
      · intro hall row hget
        obtain ⟨e, -, -, hmaj, -⟩ := (hdigests k row).mp hget
        exact hall e hmaj
  have hall : ∀ k, k ∈ st.1.allRsaSha1Lst ↔ ∃ row, st.2.get k = some row := fun k => by
    rw [hpairs.all, List.mem_map]
    constructor
    · rintro ⟨x, hx, rfl⟩
      obtain ⟨hx, hxchosen⟩ := mem_filter.mp hx
      obtain ⟨bare, hbare⟩ := hrsa x hx (of_decide_eq_true hxchosen)
      exact ⟨_, (hpairs.digests _ _).mpr ⟨x, hx, of_decide_eq_true hxchosen, rfl, bare, hbare, rfl⟩⟩
    · rintro ⟨row, hrow⟩
      obtain ⟨x, hx, hxchosen, hkey, -⟩ := (hpairs.digests _ _).mp hrow
      exact ⟨x, mem_filter.mpr ⟨hx, decide_eq_true hxchosen⟩, hkey⟩
  refine ⟨_, rfl, ?_, fun k row => ?_, fun k e hmaj => ?_, fun k hmaj => ?_, ?_, fun k => ?_,
    fun p hp hflag => ?_⟩
  · exact (hrsas.nVotes.trans hpairs.nVotes).trans h.nVotes
  · dsimp only
    rw [hrsas.digests, hdigests, hnone, hmem, hchosen, IsRow]
    refine or_congr_right (and_congr_right fun _ => ?_)
    constructor
    · rintro ⟨hget, hrow⟩
      exact ⟨(h.chosen_rsa hget).mp hrow, h.indexed.holds_rsa hget⟩
    · rintro ⟨hmaj, hholds⟩
      obtain ⟨row', hget⟩ := h.indexed.exists_rsa hmaj.pos
      obtain rfl := hholds.unique (h.indexed.holds_rsa hget)
      exact ⟨hget, (h.chosen_rsa hget).mpr hmaj⟩
  · obtain ⟨both, hget⟩ := h.indexed.exists_both hmaj.pos
    exact ⟨both, h.indexed.holds_both hget⟩
  · obtain ⟨bare, hget⟩ := h.indexed.exists_rsa hmaj.pos
    exact ⟨bare, h.indexed.holds_rsa hget⟩
  · dsimp only
    rw [hrsas.all, nodup_append]
    refine ⟨?_, (filter_sublist.map Prod.fst).nodup hkeys, ?_⟩
    · rw [hpairs.all]
      refine pairwise_map.mpr (pairwise_filter.mpr ?_)
      refine (h.pairwise hle hunique hl).imp fun {y x} hne hy hx => ?_
      exact hne (of_decide_eq_true hy) (of_decide_eq_true hx)
    · rintro k hk k' hk' rfl
      obtain ⟨row, hrow⟩ := (hall k).mp hk
      obtain ⟨x, hx, rfl⟩ := mem_map.mp hk'
      have hx' := of_decide_eq_true (mem_filter.mp hx).2
      rw [hx'.1] at hrow
      cases hrow
  · dsimp only
    rw [hrsas.all, mem_append, hall, List.mem_map]
    constructor
    · rintro (⟨row, hrow⟩ | ⟨x, hx, rfl⟩)
      · exact ⟨row, (hrsas.digests k row).mpr (.inl hrow)⟩
      · obtain ⟨hx, hxchosen⟩ := mem_filter.mp hx
        obtain ⟨hnew, hxchosen⟩ := of_decide_eq_true hxchosen
        exact ⟨x.2, (hrsas.digests x.1 x.2).mpr (.inr ⟨hnew, hx, hxchosen⟩)⟩
    · rintro ⟨row, hrow⟩
      rcases (hrsas.digests k row).mp hrow with hold | ⟨hnew, hx, hxchosen⟩
      · exact .inl ⟨row, hold⟩
      · exact .inr ⟨(k, row), mem_filter.mpr ⟨hx, decide_eq_true ⟨hnew, hxchosen⟩⟩, rfl⟩
  · dsimp only at hflag
    rw [hrsas.reflects] at hflag
    rcases hpairs.reflects p.ref hflag with hclear | ⟨x, hx, hxchosen, i, q, hq, href⟩
    · rw [h.indexed.clear p hp] at hclear
      cases hclear
    · have hget := get_eq_some.mpr (hl.mem_iff.mp hx)
      obtain ⟨hqmem, hqpair⟩ := (h.indexed.holds_both hget).mem hq
      obtain rfl := eq_of_ref hqmem hp href
      have hid : q.status.identityDigest = x.1.1 := by
        rw [isPair, decide_eq_true_eq] at hqpair
        exact hqpair.1
      rw [hid]
      exact ⟨x.1.2, (h.chosen_both hget).mp hxchosen, hqpair⟩

omit [DecidableEq Ed] in
/-- In a vote that lists no RSA identity twice, the entry without an Ed25519 key is the one for the
RSA identity, if that lists none. -/
lemma find?_isBare (h : UniqueRsa vote) (k : Rsa) :
    (vote.find? (isRsa k)).filter (fun vrs => !vrs.hasEd25519Listing) = vote.find? (isBare k) := by
  have hbare : ∀ vrs : VoteRouterstatus Rsa Ed, isBare k vrs = true
      ↔ isRsa k vrs = true ∧ vrs.hasEd25519Listing = false := fun vrs => by
    rw [isBare, isRsa, decide_eq_true_eq, decide_eq_true_eq]
  cases hfind : vote.find? (isRsa k) with
  | none =>
    rw [filter_none, eq_comm, find?_eq_none]
    intro vrs hvrs hmem
    exact find?_eq_none.mp hfind vrs hvrs ((hbare vrs).mp hmem).1
  | some vrs =>
    have hvrs := mem_of_find?_eq_some hfind
    have hrsa := find?_some hfind
    have hsame : ∀ vrs' ∈ vote, isBare k vrs' = true → vrs' = vrs := fun vrs' hvrs' hmem => by
      refine h.eq hvrs' hvrs ?_
      rw [of_decide_eq_true ((hbare vrs').mp hmem).1, of_decide_eq_true hrsa]
    cases hed : vrs.hasEd25519Listing with
    | true =>
      rw [filter_some, hed, if_neg (by simp), eq_comm, find?_eq_none]
      intro vrs' hvrs' hmem
      rw [hsame vrs' hvrs' hmem, hbare, hed] at hmem
      cases hmem.2
    | false =>
      rw [filter_some, hed, if_pos (by simp)]
      have hfound : (vote.find? (isBare k)).isSome := by
        rw [find?_isSome]
        exact ⟨vrs, hvrs, (hbare vrs).mpr ⟨hrsa, hed⟩⟩
      obtain ⟨vrs', hvrs'⟩ := isSome_iff_exists.mp hfound
      rw [hvrs', hsame vrs' (mem_of_find?_eq_some hvrs') (find?_some hvrs')]

lemma map_status_fillVrsLst {both bare : VrsLst Rsa Ed} {e : Ed} {i : ℕ} (hunique : UniqueRsa vote)
    (hboth : Holds both votes (isPair k e)) (hbare : Holds bare votes (isRsa k))
    (hvote : votes[i]? = some vote) : (fillVrsLst votes.length both bare i).map VrsPtr.status
      = (vote.find? (isPair k e)).or (vote.find? (isBare k)) := by
  have hi : i < votes.length := (List.getElem?_eq_some_iff.mp hvote).1
  have hpair := hboth.map_status hvote
  have hrsa := hbare.map_status hvote
  rw [fillVrsLst, if_pos hi, ← hpair, ← find?_isBare hunique k, ← hrsa]
  cases both i with
  | some p => rfl
  | none =>
    cases bare i with
    | none => rfl
    | some p =>
      simp only [filter_some, map_some, map_none, none_or]
      split
      · rfl
      · rfl

lemma Outcome.oneKey {digests : AssocMap Rsa (VrsLst Rsa Ed)}
    (h : Outcome nAuthorities votes dc digests) (hrow : IsRow nAuthorities votes k row) :
    ∃ e : Option Ed, ∀ i p, row i = some p → dc.reflectsConsensus p.ref = true →
      some p.status.ed25519Id = e := by
  rcases hrow with ⟨e, both, bare, hmaj, hboth, hbare, rfl⟩ | ⟨hno, -, hholds⟩
  · refine ⟨some e, fun i p hp hflag => ?_⟩
    have hkey : ∀ {q}, both i = some q → q.status.ed25519Id = e := fun {q} hq => by
      have hpair := (hboth.mem hq).2
      rw [isPair, decide_eq_true_eq] at hpair
      exact hpair.2.2
    rw [fillVrsLst] at hp
    split at hp
    · cases hq : both i with
      | some q =>
        rw [hq] at hp
        obtain rfl := some.inj hp
        rw [hkey hq]
      | none =>
        rw [hq] at hp
        obtain ⟨hget, hnot⟩ := filter_eq_some_iff.mp hp
        obtain ⟨hmem, -⟩ := hbare.mem hget
        obtain ⟨e', -, hpair⟩ := h.flagged p hmem hflag
        rw [isPair, decide_eq_true_eq] at hpair
        simp [hpair.2.1] at hnot
    · rw [hkey hp]
  · refine ⟨none, fun i p hp hflag => ?_⟩
    obtain ⟨hmem, hrsa⟩ := hholds.mem hp
    obtain ⟨e, hmaj, -⟩ := h.flagged p hmem hflag
    rw [of_decide_eq_true hrsa] at hmaj
    exact absurd hmaj (hno e)

omit [DecidableEq Rsa] in
lemma edConsensus_isSome {e : Option Ed} (h : ∀ i p, row i = some p →
    dc.reflectsConsensus p.ref = true → some p.status.ed25519Id = e) :
    (edConsensus dc row).isSome = true := by
  rw [edConsensus, isSome_iff_exists]
  refine (exists_reaches_of_meets (C := fun _ _ => True) (I := fun tally : ℕ × Option Ed =>
    ∀ val, tally.2 = some val → some val = e) (fun tally i htally _ => ?_)
    (fun val hval => by cases hval) meets_true).imp fun _ h => h.1
  cases hp : row i with
  | none => exact ⟨tally, rfl, htally⟩
  | some p =>
    by_cases hflag : dc.reflectsConsensus p.ref = true
    · have hkey := h i p hp hflag
      have hkeep : ∀ val, some p.status.ed25519Id = some val → some val = e :=
        fun val heq => by rw [← heq, hkey]
      simp only [hflag, if_true]
      cases hval : tally.2 with
      | none => exact ⟨_, rfl, hkeep⟩
      | some val =>
        have hsame : val = p.status.ed25519Id := some.inj ((htally val hval).trans hkey.symm)
        simp only [hsame, if_true]
        exact ⟨_, rfl, hkeep⟩
    · simp only [hflag, Bool.false_eq_true, if_false]
      exact ⟨tally, rfl, htally⟩

end Outcome

section Spec

variable {R E : Type*} [LinearOrder R] [DecidableEq E]

/-- What the collation is for: each RSA identity once and in order; the pair that more than half of
the authorities list, with the entries for it and those without an Ed25519 key; and without such a
pair, the RSA identities that more than half of the authorities list. -/
structure Collated (nAuthorities : ℕ) (votes : List (List (VoteRouterstatus R E)))
    (dc : Dircollator R E) : Prop where
  sorted : dc.allRsaSha1Lst.Pairwise (· < ·)
  pair : ∀ k e, Majority nAuthorities votes (listsPair k e) → k ∈ dc.allRsaSha1Lst
    ∧ ∃ row, votesForRouter dc k = some row ∧ ∀ i vote, votes[i]? = some vote →
      (row i).map VrsPtr.status = (vote.find? (isPair k e)).or (vote.find? (isBare k))
  rsa : ∀ k, (∀ e, ¬ Majority nAuthorities votes (listsPair k e)) →
    (k ∈ dc.allRsaSha1Lst ↔ Majority nAuthorities votes (lists k))
      ∧ ∀ row, votesForRouter dc k = some row → ∀ i vote, votes[i]? = some vote →
        (row i).map VrsPtr.status = vote.find? (isRsa k)
  oneKey : ∀ k row, votesForRouter dc k = some row → ∀ i j p q, row i = some p → row j = some q →
    dc.reflectsConsensus p.ref = true → dc.reflectsConsensus q.ref = true →
      p.status.ed25519Id = q.status.ed25519Id
  noFailure : ∀ k ∈ dc.allRsaSha1Lst,
    ∃ row, votesForRouter dc k = some row ∧ (edConsensus dc row).isSome = true

lemma Outcome.collated {nAuthorities : ℕ} {votes : List (List (VoteRouterstatus R E))}
    {dc : Dircollator R E} (h : Outcome nAuthorities votes dc dc.byCollatedRsaSha1)
    (hunique : ∀ vote ∈ votes, UniqueRsa vote) (collated : Bool) : Collated nAuthorities votes
      { dc with allRsaSha1Lst := dc.allRsaSha1Lst.insertionSort (· ≤ ·), isCollated := collated } := by
  have hmem : ∀ k, k ∈ dc.allRsaSha1Lst.insertionSort (· ≤ ·)
      ↔ ∃ row, IsRow nAuthorities votes k row := fun k => by
    rw [mem_insertionSort, h.mem]
    exact exists_congr fun row => h.rows k row
  have hvote : ∀ {i vote}, votes[i]? = some vote → UniqueRsa vote :=
    fun hi => hunique _ (mem_of_getElem? hi)
  refine ⟨?_, fun k e hmaj => ?_, fun k hno => ⟨?_, fun row hrow i vote hi => ?_⟩,
    fun k row hrow i j p q hp hq hpflag hqflag => ?_, fun k hk => ?_⟩
  · have hsorted := pairwise_insertionSort (· ≤ ·) dc.allRsaSha1Lst
    have hnodup := (perm_insertionSort (· ≤ ·) dc.allRsaSha1Lst).nodup_iff.mpr h.nodup
    exact (hsorted.and hnodup).imp fun hand => lt_of_le_of_ne hand.1 hand.2
  · obtain ⟨both, hboth⟩ := h.both k e hmaj
    obtain ⟨bare, hbare⟩ := h.bare k hmaj.lists
    have hrow : IsRow nAuthorities votes k (fillVrsLst votes.length both bare) :=
      .inl ⟨e, both, bare, hmaj, hboth, hbare, rfl⟩
    exact ⟨(hmem k).mpr ⟨_, hrow⟩, _, (h.rows k _).mpr hrow, fun i vote hi =>
      map_status_fillVrsLst (hvote hi) hboth hbare hi⟩
  · rw [hmem]
    constructor
    · rintro ⟨row, ⟨e, -, -, hmaj, -⟩ | ⟨-, hmaj, -⟩⟩
      · exact absurd hmaj (hno e)
      · exact hmaj
    · intro hmaj
      obtain ⟨bare, hbare⟩ := h.bare k hmaj
      exact ⟨bare, .inr ⟨hno, hmaj, hbare⟩⟩
  · rcases (h.rows k row).mp hrow with ⟨e, -, -, hmaj, -⟩ | ⟨-, -, hholds⟩
    · exact absurd hmaj (hno e)
    · exact hholds.map_status hi
  · obtain ⟨key, hkey⟩ := h.oneKey ((h.rows k row).mp hrow)
    exact some.inj ((hkey i p hp hpflag).trans (hkey j q hq hqflag).symm)
  · obtain ⟨row, hrow⟩ := (hmem k).mp hk
    obtain ⟨key, hkey⟩ := h.oneKey hrow
    exact ⟨row, (h.rows k row).mpr hrow, edConsensus_isSome hkey⟩

/-- **Relay collation.**  Votes of which none lists an RSA identity twice are collated, whatever the
order in which the hash tables are visited and whatever the flags were before. -/
theorem collateVotes_collated (pairs : HashOrder ((R × E) × VrsLst R E))
    (rsas : HashOrder (R × VrsLst R E)) (reflects : ℕ × ℕ → Bool) {nAuthorities : ℕ}
    {votes : List (List (VoteRouterstatus R E))} (hle : votes.length ≤ nAuthorities)
    (hunique : ∀ vote ∈ votes, UniqueRsa vote) :
    ∃ dc, collateVotes pairs rsas reflects nAuthorities votes = some dc
      ∧ Collated nAuthorities votes dc := by
  rw [collateVotes, dircollatorNew, if_pos hle, bind_some]
  have hstart : Indexed (⟨votes.length, nAuthorities, 0, ∅, ∅, ∅, [], false, reflects⟩ :
      Dircollator R E) [] := by
    refine ⟨fun k i p => ?_, fun k e i p => ?_, fun p hp => ?_⟩
    · simp [vrsAt]
    · simp [vrsAt]
    · cases hp
  obtain ⟨dc, hdc, hindexed, hnVotes, hnAuthorities, hcollated⟩ :=
    hstart.addVotes (by simp) rfl (fun p hp => by cases hp) hunique
  have hready : Ready nAuthorities votes { dc with allRsaSha1Lst := [] } :=
    ⟨hnVotes, hnAuthorities, rfl, hindexed.byRsa, hindexed.byBoth, hindexed.clear⟩
  obtain ⟨dc', hdc', houtcome⟩ := hready.outcome hle hunique pairs rsas
  rw [hdc, bind_some, dircollatorCollate, if_neg (by simp [hcollated]), hdc', map_some]
  exact ⟨_, rfl, houtcome.collated hunique true⟩

/-- Three votes, the first two for one pair and the third for its RSA identity. -/
def threeVotes : List (List (VoteRouterstatus ℕ ℕ)) :=
  [[⟨1, true, 7⟩], [⟨1, true, 7⟩, ⟨2, false, 0⟩], [⟨1, false, 0⟩]]

theorem collateVotes_collated_threeVotes :
    ∃ dc, collateVotes ⟨List.reverse, reverse_perm⟩ ⟨fun l => l, List.Perm.refl⟩
        (fun _ => true) 3 threeVotes = some dc ∧ Collated 3 threeVotes dc :=
  collateVotes_collated _ _ _ (by decide) (by decide)

end Spec

end Ator.Dircollate
