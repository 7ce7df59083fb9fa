import AtorProtocol.Protover.RoundTrip
import Mathlib.Data.Char
import Mathlib.Data.List.Induction
import Mathlib.Data.List.Lex
import Mathlib.Data.List.Sort

/-!
# Voting on protocol versions

`protover_compute_vote` of `src/core/or/protover.c`: the protocol versions that at least
`threshold` of the votes list.  The versions are counted name by name, through the first entry
that each vote has for the name.

* `protoverComputeVote_correct_iff` — when the result has the versions that enough votes list.
-/

namespace Ator.Protover

open Text List

def findEntryByName (protos : List ProtoEntry) (name : List Char) : Option ProtoEntry :=
  protos.find? fun ent => ent.name = name

/-- The names of a vote, after those of the votes before it. -/
def addProtoNames (protoNames : List (List Char)) (unexpanded : List ProtoEntry) :
    List (List Char) :=
  unexpanded.foldl (fun names ent => if ent.name ∈ names then names else names ++ [ent.name])
    protoNames

/-- The 64 counters of a name: each is a `uint8_t`. -/
def voteCounts (parsed : List (List ProtoEntry)) (name : List Char) : Fin 64 → UInt8 :=
  parsed.foldl
    (fun counts vote =>
      match findEntryByName vote name with
      | none => counts
      | some ent => fun i => if ent.bitmask.getLsbD i then counts i + 1 else counts i)
    fun _ => 0

/-- The versions whose counters reach the threshold. -/
def voteBitmask (counts : Fin 64 → UInt8) (threshold : ℤ) : BitVec 64 :=
  (List.finRange 64).foldl
    (fun mask i => if threshold ≤ (counts i).toNat then mask ||| BitVec.twoPow 64 i else mask) 0

/-- The `result` of `protover_compute_vote`, from the votes that parse. -/
def voteEntries (parsed : List (List ProtoEntry)) (threshold : ℤ) : List ProtoEntry :=
  let protoNames := (parsed.foldl addProtoNames []).insertionSort (· ≤ ·)
  protoNames.filterMap fun name =>
    let resultBitmask := voteBitmask (voteCounts parsed name) threshold
    if resultBitmask ≠ 0 then some ⟨name, resultBitmask⟩ else none

/-- `protover_compute_vote`.  `none` is the assertion on the number of votes, or the undefined
`trailing_zeros` of the encoder. -/
def protoverComputeVote (listOfProtoStrings : List (List Char)) (threshold : ℤ) :
    Option (List Char) :=
  if listOfProtoStrings.length < 256 then
    if listOfProtoStrings.length = 0 then some []
    else encodeProtocolList (voteEntries (listOfProtoStrings.filterMap parseProtocolList) threshold)
  else none

variable {parsed parsed' : List (List ProtoEntry)} {name : List Char} {threshold : ℤ}
  {vote : List ProtoEntry} {v : ℕ}

/-! ## Names -/

lemma mem_addProtoNames {names : List (List Char)} :
    name ∈ addProtoNames names vote ↔ name ∈ names ∨ ∃ e ∈ vote, e.name = name := by
  induction vote generalizing names with
  | nil => simp [addProtoNames]
  | cons e vote ih =>
    rw [addProtoNames, foldl_cons, ← addProtoNames, ih, exists_mem_cons_iff]
    by_cases hmem : e.name ∈ names
    · rw [if_pos hmem]
      constructor
      · exact fun h => h.imp_right .inr
      · rintro (h | rfl | h)
        · exact .inl h
        · exact .inl hmem
        · exact .inr h
    · rw [if_neg hmem, mem_append, mem_singleton, or_assoc, eq_comm (a := name)]

lemma nodup_addProtoNames {names : List (List Char)} (h : names.Nodup) :
    (addProtoNames names vote).Nodup := by
  induction vote generalizing names with
  | nil => exact h
  | cons e vote ih =>
    rw [addProtoNames, foldl_cons, ← addProtoNames]
    by_cases hmem : e.name ∈ names
    · rw [if_pos hmem]
      exact ih h
    · rw [if_neg hmem]
      exact ih (nodup_append.mpr ⟨h, nodup_singleton _, by
        rintro x hx y hy rfl
        exact hmem (mem_singleton.mp hy ▸ hx)⟩)

lemma protoNames_spec (parsed : List (List ProtoEntry)) :
    (parsed.foldl addProtoNames []).Nodup ∧
      ∀ name, name ∈ parsed.foldl addProtoNames [] ↔ ∃ vote ∈ parsed, ∃ e ∈ vote, e.name = name := by
  induction parsed using reverseRecOn with
  | nil => simp
  | append_singleton parsed vote ih =>
    rw [foldl_append, foldl_cons, foldl_nil]
    refine ⟨nodup_addProtoNames ih.1, fun name => ?_⟩
    rw [mem_addProtoNames, ih.2]
    simp [or_and_right, exists_or]

lemma sortedLT_protoNames (parsed : List (List ProtoEntry)) :
    ((parsed.foldl addProtoNames []).insertionSort (· ≤ ·)).SortedLT :=
  sortedLE_insertionSort.sortedLT_of_nodup
    ((perm_insertionSort _ _).nodup_iff.mpr (protoNames_spec parsed).1)

/-! ## Counters -/

/-- The vote lists the version in its first entry for the name. -/
def ListsFirst (name : List Char) (v : ℕ) (vote : List ProtoEntry) : Bool :=
  (findEntryByName vote name).any fun ent => ent.bitmask.getLsbD v

/-- The vote lists the version in some entry for the name. -/
def Lists (name : List Char) (v : ℕ) (vote : List ProtoEntry) : Bool :=
  vote.any fun ent => ent.name = name && ent.bitmask.getLsbD v

lemma lists_of_listsFirst (h : ListsFirst name v vote) : Lists name v vote := by
  obtain ⟨ent, hfind, hbit⟩ := (Option.any_eq_true _ _).mp h
  refine any_eq_true.mpr ⟨ent, mem_of_find?_eq_some hfind, ?_⟩
  have hname : ent.name = name := by simpa using find?_some hfind
  simp [hname, hbit]

lemma voteCounts_toNat (h : parsed.length < 256) (name : List Char) (i : Fin 64) :
    (voteCounts parsed name i).toNat = parsed.countP (ListsFirst name i) := by
  induction parsed using reverseRecOn with
  | nil => rfl
  | append_singleton parsed vote ih =>
    rw [length_append, length_singleton] at h
    have hprev := ih (by omega)
    have hle := countP_le_length (p := ListsFirst name i) (l := parsed)
    rw [voteCounts, foldl_append, ← voteCounts, foldl_cons, foldl_nil,
      countP_append, countP_singleton]
    rcases hfind : findEntryByName vote name with _ | ent
    · simp [ListsFirst, hfind, hprev]
    · by_cases hbit : ent.bitmask.getLsbD i
      · have hlists : ListsFirst name i vote := by simp [ListsFirst, hfind, hbit]
        simp only [hbit, hlists, if_true]
        rw [UInt8.toNat_add, hprev]
        simp only [UInt8.toNat_one]
        omega
      · rw [Bool.not_eq_true] at hbit
        have hlists : ListsFirst name i vote = false := by
          simp only [ListsFirst, hfind, Option.any_some, hbit]
        simp only [hbit, hlists, Bool.false_eq_true, if_false, Nat.add_zero]
        exact hprev

lemma getLsbD_foldl_voteBitmask (counts : Fin 64 → UInt8) (threshold : ℤ) (is : List (Fin 64))
    (mask : BitVec 64) (i : Fin 64) :
    (is.foldl (fun mask i => if threshold ≤ (counts i).toNat then mask ||| BitVec.twoPow 64 i
        else mask) mask).getLsbD i = true
      ↔ mask.getLsbD i = true ∨ i ∈ is ∧ threshold ≤ (counts i).toNat := by
  induction is generalizing mask with
  | nil => simp
  | cons j is ih =>
    rw [foldl_cons, ih, mem_cons]
    by_cases hj : threshold ≤ (counts j).toNat
    · rw [if_pos hj, BitVec.getLsbD_or, BitVec.getLsbD_twoPow, Bool.or_eq_true]
      by_cases hij : i = j
      · simp [hij, hj]
      · have hij' : (j : ℕ) ≠ i := fun h => hij (Fin.ext h.symm)
        simp [hij, hij']
    · rw [if_neg hj]
      by_cases hij : i = j
      · simp [hij, hj]
      · simp [hij]

/-- **The mask of a name** has the versions that enough first entries list. -/
lemma getLsbD_voteBitmask (h : parsed.length < 256) (hpos : 0 < threshold) (name : List Char)
    (v : ℕ) : (voteBitmask (voteCounts parsed name) threshold).getLsbD v = true
      ↔ threshold ≤ parsed.countP (ListsFirst name v) := by
  by_cases hv : v < 64
  · have hfold := getLsbD_foldl_voteBitmask (voteCounts parsed name) threshold
      (finRange 64) 0 ⟨v, hv⟩
    rw [voteCounts_toNat h] at hfold
    refine hfold.trans ?_
    simp
  · rw [BitVec.getLsbD_of_ge _ _ (by omega)]
    have hnone : parsed.countP (ListsFirst name v) = 0 := by
      refine countP_eq_zero.mpr fun vote _ hlists => ?_
      obtain ⟨ent, -, hbit⟩ := (Option.any_eq_true _ _).mp hlists
      rw [BitVec.getLsbD_of_ge _ _ (by omega)] at hbit
      cases hbit
    simp [hnone, hpos]

/-! ## The result -/

lemma voteBitmask_ne_zero (h : parsed.length < 256) (hpos : 0 < threshold) (name : List Char) :
    voteBitmask (voteCounts parsed name) threshold ≠ 0
      ↔ ∃ v, threshold ≤ parsed.countP (ListsFirst name v) := by
  constructor
  · intro hne
    by_contra hnone
    refine hne (BitVec.eq_of_getLsbD_eq fun i _ => ?_)
    rw [show (0 : BitVec 64).getLsbD i = false from BitVec.getLsbD_zero, Bool.eq_false_iff, ne_eq,
      getLsbD_voteBitmask h hpos]
    exact fun hi => hnone ⟨i, hi⟩
  · rintro ⟨v, hv⟩ hzero
    rw [← getLsbD_voteBitmask h hpos, hzero] at hv
    simp at hv

lemma exists_of_le_countP (hpos : 0 < threshold)
    (h : threshold ≤ parsed.countP (ListsFirst name v)) :
    ∃ vote ∈ parsed, ∃ e ∈ vote, e.name = name := by
  have hcount : 0 < parsed.countP (ListsFirst name v) := by omega
  obtain ⟨vote, hvote, hlists⟩ := countP_pos_iff.mp hcount
  obtain ⟨e, he, hname⟩ := any_eq_true.mp (lists_of_listsFirst hlists)
  exact ⟨vote, hvote, e, he, by simpa using (Bool.and_eq_true_iff.mp hname).1⟩

lemma mem_nameEntry {mask : BitVec 64} {e : ProtoEntry}
    (h : e ∈ if mask ≠ 0 then some (⟨name, mask⟩ : ProtoEntry) else none) :
    mask ≠ 0 ∧ e.name = name ∧ e.bitmask = mask := by
  by_cases hne : mask ≠ 0
  · rw [if_pos hne, Option.mem_some_iff] at h
    exact ⟨hne, h ▸ rfl, h ▸ rfl⟩
  · rw [if_neg hne] at h
    cases h

/-- **The entries of the result**: one for each name with a version that reaches the threshold. -/
lemma mem_voteEntries (h : parsed.length < 256) (hpos : 0 < threshold) {e : ProtoEntry} :
    e ∈ voteEntries parsed threshold
      ↔ e.bitmask = voteBitmask (voteCounts parsed e.name) threshold ∧
        ∃ v, threshold ≤ parsed.countP (ListsFirst e.name v) := by
  rw [voteEntries, mem_filterMap]
  constructor
  · rintro ⟨name, hname, he⟩
    obtain ⟨hne, rfl, hmask⟩ := mem_nameEntry he
    exact ⟨hmask, (voteBitmask_ne_zero h hpos e.name).mp hne⟩
  · rintro ⟨hmask, v, hv⟩
    refine ⟨e.name, ?_, ?_⟩
    · rw [(perm_insertionSort _ _).mem_iff, (protoNames_spec parsed).2]
      exact exists_of_le_countP hpos hv
    · have hne := (voteBitmask_ne_zero h hpos e.name).mpr ⟨v, hv⟩
      change (if voteBitmask (voteCounts parsed e.name) threshold ≠ 0 then
        some (⟨e.name, voteBitmask (voteCounts parsed e.name) threshold⟩ : ProtoEntry) else none)
          = some e
      rw [← hmask] at hne ⊢
      exact if_pos hne

lemma mem_voteEntries_of_le (hlen : parsed.length < 256) (hpos : 0 < threshold)
    (h : threshold ≤ parsed.countP (ListsFirst name v)) :
    ⟨name, voteBitmask (voteCounts parsed name) threshold⟩ ∈ voteEntries parsed threshold := by
  rw [mem_voteEntries hlen hpos]
  exact ⟨Eq.refl (voteBitmask (voteCounts parsed name) threshold), v, h⟩

lemma voteEntries_sorted (parsed : List (List ProtoEntry)) (threshold : ℤ) :
    ((voteEntries parsed threshold).map ProtoEntry.name).SortedLT := by
  rw [sortedLT_iff_pairwise, pairwise_map, voteEntries]
  refine Pairwise.filterMap _ (fun name name' hlt e he e' he' => ?_)
    (sortedLT_protoNames parsed).pairwise
  rw [(mem_nameEntry he).2.1, (mem_nameEntry he').2.1]
  exact hlt

/-- The order of the votes does not matter. -/
lemma voteEntries_perm (hlen : parsed.length < 256) (hpos : 0 < threshold)
    (h : parsed'.Perm parsed) : voteEntries parsed' threshold = voteEntries parsed threshold := by
  have hlen' : parsed'.length < 256 := h.length_eq ▸ hlen
  have hmask : ∀ name, voteBitmask (voteCounts parsed' name) threshold
      = voteBitmask (voteCounts parsed name) threshold := fun name => by
    refine BitVec.eq_of_getLsbD_eq fun i _ => Bool.eq_iff_iff.mpr ?_
    rw [getLsbD_voteBitmask hlen' hpos, getLsbD_voteBitmask hlen hpos, h.countP_eq]
  have hnames : (parsed'.foldl addProtoNames []).insertionSort (· ≤ ·)
      = (parsed.foldl addProtoNames []).insertionSort (· ≤ ·) := by
    refine (sortedLT_protoNames parsed').eq_of_mem_iff (sortedLT_protoNames parsed) fun name => ?_
    rw [(perm_insertionSort _ _).mem_iff, (perm_insertionSort _ _).mem_iff,
      (protoNames_spec parsed').2, (protoNames_spec parsed).2]
    simp only [h.mem_iff]
  rw [voteEntries, voteEntries]
  simp only [hnames, hmask]

lemma validName_voteEntries (hlen : parsed.length < 256) (hpos : 0 < threshold)
    (hnames : ∀ vote ∈ parsed, ∀ e ∈ vote, ValidName e.name) :
    ∀ e ∈ voteEntries parsed threshold, ValidName e.name := by
  intro e he
  obtain ⟨-, v, hv⟩ := (mem_voteEntries hlen hpos).mp he
  obtain ⟨vote, hvote, e', he', hname⟩ := exists_of_le_countP hpos hv
  exact hname ▸ hnames vote hvote e' he'

/-! ## When the result is right -/

/-- The votes that parse. -/
abbrev parsedVotes (votes : List (List Char)) : List (List ProtoEntry) :=
  votes.filterMap parseProtocolList

/-- The output has the versions that enough of the votes that parse list, its names are sorted
and distinct, and the order of the votes does not matter. -/
def ComputesVote (votes : List (List Char)) (threshold : ℤ) : Prop :=
  ∃ text entries, protoverComputeVote votes threshold = some text ∧
    parseProtocolList text = some entries ∧
    (∀ name v, (∃ e ∈ entries, e.name = name ∧ e.bitmask.getLsbD v = true)
      ↔ threshold ≤ (parsedVotes votes).countP (Lists name v)) ∧
    (entries.map ProtoEntry.name).SortedLT ∧
    ∀ votes' : List (List Char), votes'.Perm votes → protoverComputeVote votes' threshold = some text

variable {votes : List (List Char)}

lemma protoverComputeVote_eq (h : votes.length < 256) :
    protoverComputeVote votes threshold
      = encodeProtocolList (voteEntries (parsedVotes votes) threshold) := by
  rw [protoverComputeVote, if_pos h]
  by_cases hnil : votes.length = 0
  · rw [if_pos hnil, length_eq_zero_iff.mp hnil]
    rfl
  · rw [if_neg hnil]

lemma parsedVotes_length (h : votes.length < 256) :
    (parsedVotes votes).length < 256 :=
  (length_filterMap_le _ _).trans_lt h

lemma validName_parsedVotes :
    ∀ vote ∈ parsedVotes votes, ∀ e ∈ vote, ValidName e.name := by
  intro vote hvote
  obtain ⟨s, -, hs⟩ := mem_filterMap.mp hvote
  exact validName_of_parseProtocolList s vote hs

lemma voteEntries_versions (hlen : parsed.length < 256) (hpos : 0 < threshold) (name : List Char)
    (v : ℕ) : (∃ e ∈ voteEntries parsed threshold, e.name = name ∧ e.bitmask.getLsbD v = true)
      ↔ threshold ≤ parsed.countP (ListsFirst name v) := by
  constructor
  · rintro ⟨e, he, rfl, hbit⟩
    rw [((mem_voteEntries hlen hpos).mp he).1] at hbit
    exact (getLsbD_voteBitmask hlen hpos e.name v).mp hbit
  · intro hv
    refine ⟨_, mem_voteEntries_of_le hlen hpos hv, rfl, ?_⟩
    exact (getLsbD_voteBitmask hlen hpos name v).mpr hv

lemma encodeProtocolList_voteEntries (hlen : parsed.length < 256) (hpos : 0 < threshold) :
    (encodeProtocolList (voteEntries parsed threshold)).isSome
      ↔ ∀ name, ∃ v < 64, parsed.countP (ListsFirst name v) < threshold := by
  rw [encodeProtocolList, encodeEntries_isSome]
  constructor
  · intro h name
    by_contra! hall
    refine h _ (mem_voteEntries_of_le hlen hpos (hall 0 (by omega))) ?_
    refine BitVec.eq_of_getLsbD_eq fun v hv => ?_
    rw [BitVec.getLsbD_allOnes, decide_eq_true hv]
    exact (getLsbD_voteBitmask hlen hpos name v).mpr (hall v hv)
  · intro h e he hones
    obtain ⟨v, hv, hlt⟩ := h e.name
    have hbit := (getLsbD_voteBitmask hlen hpos e.name v).mp
    rw [← ((mem_voteEntries hlen hpos).mp he).1, hones, BitVec.getLsbD_allOnes,
      decide_eq_true hv] at hbit
    exact absurd (hbit rfl) (by omega)

/-- **When the vote is right.**  Exactly when no version owes its threshold to votes that list it
in a later entry for its name, and no name has all 64 versions. -/
theorem protoverComputeVote_correct_iff {votes : List (List Char)} (hlen : votes.length < 256)
    (hpos : 0 < threshold) :
    ComputesVote votes threshold
      ↔ (∀ name v, threshold ≤ (parsedVotes votes).countP (Lists name v) →
          threshold ≤ (parsedVotes votes).countP (ListsFirst name v)) ∧
        ∀ name, ∃ v < 64, (parsedVotes votes).countP (Lists name v) < threshold := by
  have hlen' := parsedVotes_length hlen
  have hroundTrip := fun text => parseProtocolList_encodeEntries
    (voteEntries (parsedVotes votes) threshold) text
    (validName_voteEntries hlen' hpos validName_parsedVotes)
  constructor
  · rintro ⟨text, entries, hvote, hparse, hversions, -, -⟩
    rw [protoverComputeVote_eq hlen] at hvote
    rw [(hroundTrip text hvote).2, Option.some_inj] at hparse
    have hfirst : ∀ name v, threshold ≤ (parsedVotes votes).countP (Lists name v)
        ↔ threshold ≤ (parsedVotes votes).countP (ListsFirst name v) := fun name v => by
      rw [← hversions, ← hparse, voteEntries_versions hlen' hpos]
    refine ⟨fun name v => (hfirst name v).mp, fun name => ?_⟩
    have hsome := Option.isSome_of_eq_some hvote
    obtain ⟨v, hv, hlt⟩ := (encodeProtocolList_voteEntries hlen' hpos).mp hsome name
    exact ⟨v, hv, not_le.mp fun hle => hlt.not_ge ((hfirst name v).mp hle)⟩
  · rintro ⟨hfirst, hfull⟩
    have hmono : ∀ name v, (parsedVotes votes).countP (ListsFirst name v)
        ≤ (parsedVotes votes).countP (Lists name v) := fun name v =>
      countP_mono_left fun vote _ h => lists_of_listsFirst h
    have hsome : (encodeProtocolList (voteEntries (parsedVotes votes) threshold)).isSome := by
      refine (encodeProtocolList_voteEntries hlen' hpos).mpr fun name => ?_
      obtain ⟨v, hv, hlt⟩ := hfull name
      have := hmono name v
      exact ⟨v, hv, by omega⟩
    obtain ⟨text, htext⟩ := Option.isSome_iff_exists.mp hsome
    refine ⟨text, _, (protoverComputeVote_eq hlen).trans htext, (hroundTrip text htext).2,
      fun name v => ?_, voteEntries_sorted _ _, fun votes' hperm => ?_⟩
    · rw [voteEntries_versions hlen' hpos]
      refine ⟨fun hle => ?_, hfirst name v⟩
      have := hmono name v
      omega
    · rw [protoverComputeVote_eq (hperm.length_eq ▸ hlen),
        voteEntries_perm hlen' hpos (hperm.filterMap _), htext]

theorem protoverComputeVote_correct_iff_link :
    ComputesVote (["Link=1-4 Relay=1-2", "Link=3-5", "Cons=1 Link=2-4"].map String.toList) 2 := by
  have hparse : parsedVotes (["Link=1-4 Relay=1-2", "Link=3-5", "Cons=1 Link=2-4"].map String.toList)
      = [[⟨"Link".toList, 0x1e⟩, ⟨"Relay".toList, 0x6⟩], [⟨"Link".toList, 0x38⟩],
        [⟨"Cons".toList, 0x2⟩, ⟨"Link".toList, 0x1c⟩]] := by
    decide +kernel
  refine (protoverComputeVote_correct_iff (by decide) (by decide)).mpr
    ⟨fun name v h => ?_, fun name => ⟨0, by decide, ?_⟩⟩ <;> rw [hparse] at *
  · refine h.trans (Int.ofNat_le.mpr (countP_mono_left fun vote hvote hlists => ?_))
    simp only [mem_cons, not_mem_nil, or_false] at hvote
    rcases hvote with rfl | rfl | rfl <;>
      simp only [Lists, ListsFirst, findEntryByName, any_cons, find?_cons] at hlists ⊢ <;>
      grind
  · simp [Lists]

/-- A second entry for a name is not counted, and 64 versions of a name cannot be encoded. -/
theorem protoverComputeVote_fails :
    ¬ ComputesVote ["Link=1 Link=2".toList] 1 ∧ ¬ ComputesVote ["Link=0-63".toList] 1 := by
  have hvote : protoverComputeVote ["Link=1 Link=2".toList] 1 = some "Link=1".toList := by
    decide +kernel
  have hparse : parseProtocolList "Link=1".toList = some [⟨"Link".toList, 2⟩] := by
    decide +kernel
  have hlists : 1 ≤ (parsedVotes ["Link=1 Link=2".toList]).countP (Lists "Link".toList 2) := by
    decide +kernel
  have hfull : protoverComputeVote ["Link=0-63".toList] 1 = none := by
    decide +kernel
  constructor
  · rintro ⟨text, entries, htext, hentries, hversions, -, -⟩
    obtain rfl := Option.some.inj (htext.symm.trans hvote)
    obtain rfl := Option.some.inj (hentries.symm.trans hparse)
    obtain ⟨e, he, -, hbit⟩ := (hversions "Link".toList 2).mpr (by exact_mod_cast hlists)
    rw [mem_singleton.mp he] at hbit
    exact absurd hbit (by decide)
  · rintro ⟨text, -, htext, -⟩
    rw [hfull] at htext
    cases htext

end Ator.Protover
