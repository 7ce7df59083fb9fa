import AtorProtocol.Lib.AssocMap

/-!
# Collation of the votes

`src/feature/dirauth/dircollate.c`, and what `networkstatus_compute_consensus` does with the Ed25519
keys of a row.

* `addRouterstatus`, `addVote` — the two indexes over the entries of the votes.
* `collateByEd25519`, `dircollatorCollate` — the identities to vote for, and a row of entries for each.
* `edConsensus` — the loop over a row in the consensus builder, with its assertion.
-/

namespace Ator.Dircollate

variable {Rsa Ed : Type*}

/-- `vote_routerstatus_t`, as far as it is collated. -/
structure VoteRouterstatus (Rsa Ed : Type*) where
  identityDigest : Rsa
  hasEd25519Listing : Bool
  ed25519Id : Ed
  deriving DecidableEq

/-- A pointer to the entry at a place in the list of a vote, with what does not change of the entry. -/
structure VrsPtr (Rsa Ed : Type*) where
  voteNum : ℕ
  place : ℕ
  status : VoteRouterstatus Rsa Ed
  deriving DecidableEq

/-- Where the entry is. -/
def VrsPtr.ref (ptr : VrsPtr Rsa Ed) : ℕ × ℕ := (ptr.voteNum, ptr.place)

/-- The array `vrs_lst`: the entry of each vote, if any. -/
abbrev VrsLst (Rsa Ed : Type*) := ℕ → Option (VrsPtr Rsa Ed)

/-- `dircollator_t`, with the flag `ed25519_reflects_consensus` of each entry. -/
structure Dircollator (Rsa Ed : Type*) where
  nVotes : ℕ
  nAuthorities : ℕ
  nextVoteNum : ℕ
  byRsaSha1 : AssocMap Rsa (VrsLst Rsa Ed)
  byBothIds : AssocMap (Rsa × Ed) (VrsLst Rsa Ed)
  byCollatedRsaSha1 : AssocMap Rsa (VrsLst Rsa Ed)
  allRsaSha1Lst : List Rsa
  isCollated : Bool
  reflectsConsensus : ℕ × ℕ → Bool

/-- The order in which an iteration visits the entries of a hash table. -/
structure HashOrder (α : Type*) where
  order : List α → List α
  perm : ∀ l, (order l).Perm l

/-- `dircollator_new`; `none` where the assertion fails. -/
def dircollatorNew (nVotes nAuthorities : ℕ) (reflectsConsensus : ℕ × ℕ → Bool) :
    Option (Dircollator Rsa Ed) :=
  if nVotes ≤ nAuthorities then
    some
      { nVotes := nVotes
        nAuthorities := nAuthorities
        nextVoteNum := 0
        byRsaSha1 := ∅
        byBothIds := ∅
        byCollatedRsaSha1 := ∅
        allRsaSha1Lst := []
        isCollated := false
        reflectsConsensus := reflectsConsensus }
  else none

section Add

variable [DecidableEq Rsa] [DecidableEq Ed]

/-- `vrs_lst[vote_num]` of the array for a key, which is none where there is no array. -/
def vrsAt {κ : Type*} [DecidableEq κ] (m : AssocMap κ (VrsLst Rsa Ed)) (k : κ) (i : ℕ) :
    Option (VrsPtr Rsa Ed) := (m.get k).bind fun vrsLst => vrsLst i

/-- Sets `vrs_lst[vote_num]` of the array for a key, which is made if there is none. -/
def putVrs {κ : Type*} [DecidableEq κ] (m : AssocMap κ (VrsLst Rsa Ed)) (k : κ)
    (ptr : VrsPtr Rsa Ed) : AssocMap κ (VrsLst Rsa Ed) :=
  m.set k (Function.update ((m.get k).getD fun _ => none) ptr.voteNum (some ptr))

/-- `dircollator_add_routerstatus` -/
def addRouterstatus (dc : Dircollator Rsa Ed) (ptr : VrsPtr Rsa Ed) : Option (Dircollator Rsa Ed) :=
  let id := ptr.status.identityDigest
  let dc := { dc with reflectsConsensus := Function.update dc.reflectsConsensus ptr.ref false }
  if (vrsAt dc.byRsaSha1 id ptr.voteNum).isSome then none
  else
    let dc := { dc with byRsaSha1 := putVrs dc.byRsaSha1 id ptr }
    if !ptr.status.hasEd25519Listing then some dc
    else
      let both := (id, ptr.status.ed25519Id)
      if (vrsAt dc.byBothIds both ptr.voteNum).isSome then none
      else some { dc with byBothIds := putVrs dc.byBothIds both ptr }

/-- The entries of a vote. -/
def pointersOf (voteNum : ℕ) (vote : List (VoteRouterstatus Rsa Ed)) : List (VrsPtr Rsa Ed) :=
  vote.zipIdx.map fun entry => ⟨voteNum, entry.2, entry.1⟩

/-- `dircollator_add_vote` -/
def addVote (dc : Dircollator Rsa Ed) (vote : List (VoteRouterstatus Rsa Ed)) :
    Option (Dircollator Rsa Ed) :=
  if dc.nextVoteNum < dc.nVotes ∧ dc.isCollated = false then
    (pointersOf dc.nextVoteNum vote).foldlM addRouterstatus
      { dc with nextVoteNum := dc.nextVoteNum + 1 }
  else none

end Add

/-- How many votes have an entry in the array. -/
def countListing (nVotes : ℕ) (vrsLst : VrsLst Rsa Ed) : ℕ :=
  (List.range nVotes).countP fun i => (vrsLst i).isSome

/-- The entries for the pair, and those for the RSA identity that list no Ed25519 key. -/
def fillVrsLst (nVotes : ℕ) (vrsLst vrsLst2 : VrsLst Rsa Ed) : VrsLst Rsa Ed := fun i =>
  if i < nVotes then
    match vrsLst i with
    | some ptr => some ptr
    | none => (vrsLst2 i).filter fun ptr => !ptr.status.hasEd25519Listing
  else vrsLst i

/-- The flags, when those of the entries for the pair are set. -/
def setReflects (nVotes : ℕ) (vrsLst : VrsLst Rsa Ed) (reflects : ℕ × ℕ → Bool) : ℕ × ℕ → Bool :=
  (List.range nVotes).foldl (fun reflects i =>
    match vrsLst i with
    | some ptr => Function.update reflects ptr.ref true
    | none => reflects) reflects

section Collate

variable [DecidableEq Rsa] [DecidableEq Ed]

/-- A collator, and the map `rsa_digests` of the identities seen. -/
abbrev Collating (Rsa Ed : Type*) := Dircollator Rsa Ed × AssocMap Rsa (VrsLst Rsa Ed)

/-- The loop over the pairs in `dircollator_collate_by_ed25519`. -/
def collatePair (st : Collating Rsa Ed) (ent : (Rsa × Ed) × VrsLst Rsa Ed) :
    Option (Collating Rsa Ed) :=
  let dc := st.1
  if countListing dc.nVotes ent.2 ≤ dc.nAuthorities / 2 then some st
  else
    match dc.byRsaSha1.get ent.1.1 with
    | none => none
    | some vrsLst2 =>
      let row := fillVrsLst dc.nVotes ent.2 vrsLst2
      some ({ dc with
        byBothIds := dc.byBothIds.set ent.1 row
        reflectsConsensus := setReflects dc.nVotes ent.2 dc.reflectsConsensus
        allRsaSha1Lst := dc.allRsaSha1Lst ++ [ent.1.1] }, st.2.set ent.1.1 row)

/-- The loop over the RSA identities in `dircollator_collate_by_ed25519`. -/
def collateRsa (st : Collating Rsa Ed) (ent : Rsa × VrsLst Rsa Ed) : Collating Rsa Ed :=
  let dc := st.1
  if (st.2.get ent.1).isSome then st
  else if countListing dc.nVotes ent.2 ≤ dc.nAuthorities / 2 then st
  else ({ dc with allRsaSha1Lst := dc.allRsaSha1Lst ++ [ent.1] }, st.2.set ent.1 ent.2)

/-- `dircollator_collate_by_ed25519` -/
def collateByEd25519 (pairs : HashOrder ((Rsa × Ed) × VrsLst Rsa Ed))
    (rsas : HashOrder (Rsa × VrsLst Rsa Ed)) (dc : Dircollator Rsa Ed) :
    Option (Dircollator Rsa Ed) :=
  ((pairs.order dc.byBothIds.entries).foldlM collatePair (dc, ∅)).map fun st =>
    let st := (rsas.order st.1.byRsaSha1.entries).foldl collateRsa st
    { st.1 with byCollatedRsaSha1 := st.2 }

end Collate

section Sorted

variable [LinearOrder Rsa] [DecidableEq Ed]

def dircollatorCollate (pairs : HashOrder ((Rsa × Ed) × VrsLst Rsa Ed))
    (rsas : HashOrder (Rsa × VrsLst Rsa Ed)) (dc : Dircollator Rsa Ed) :
    Option (Dircollator Rsa Ed) :=
  if dc.isCollated then none
  else (collateByEd25519 pairs rsas { dc with allRsaSha1Lst := [] }).map fun dc =>
    { dc with
      allRsaSha1Lst := dc.allRsaSha1Lst.insertionSort (· ≤ ·)
      isCollated := true }

/-- The collation of the votes in `networkstatus_compute_consensus`. -/
def collateVotes (pairs : HashOrder ((Rsa × Ed) × VrsLst Rsa Ed))
    (rsas : HashOrder (Rsa × VrsLst Rsa Ed)) (reflects : ℕ × ℕ → Bool) (nAuthorities : ℕ)
    (votes : List (List (VoteRouterstatus Rsa Ed))) : Option (Dircollator Rsa Ed) :=
  (dircollatorNew votes.length nAuthorities reflects).bind fun dc =>
    (votes.foldlM addVote dc).bind (dircollatorCollate pairs rsas)

end Sorted

/-- `dircollator_get_votes_for_router` of an identity in the list. -/
def votesForRouter [DecidableEq Rsa] (dc : Dircollator Rsa Ed) (id : Rsa) :
    Option (VrsLst Rsa Ed) := dc.byCollatedRsaSha1.get id

/-- The tally of `ed_consensus` and `ed_consensus_val` over a row in
`networkstatus_compute_consensus`; `none` where the assertion fails. -/
def edConsensus [DecidableEq Ed] (dc : Dircollator Rsa Ed) (vrsLst : VrsLst Rsa Ed) :
    Option (ℕ × Option Ed) :=
  (List.range dc.nVotes).foldlM (fun (tally : ℕ × Option Ed) i =>
    match vrsLst i with
    | none => some tally
    | some ptr =>
      if dc.reflectsConsensus ptr.ref then
        match tally.2 with
        | some val => if val = ptr.status.ed25519Id then some (tally.1 + 1, some val) else none
        | none => some (tally.1 + 1, some ptr.status.ed25519Id)
      else some tally) (0, none)

end Ator.Dircollate
