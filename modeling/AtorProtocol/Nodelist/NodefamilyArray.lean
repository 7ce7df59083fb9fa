import AtorProtocol.Nodelist.NodefamilyMembers

/-!
# The array of a node family

* `nodefamilyFromMembers_eq` — the array that is looked up is `canonicalMembers`.
* `pairwise_canonicalMembers`, `mem_canonicalMembers` — it is sorted, without duplicates, and has
  the members that the elements stand for.
* `canonicalMembers_formatted` — it is the array of its own string.
* `canonicalString_split`, `canonicalString_congr` — the canonical string is its own canonical
  string, and depends neither on the order of the elements nor on the case of well-formed ones.
-/

namespace Ator.Nodefamily

open Text List Option

variable {cp s : List Char} {members members' : List (List Char)} {m x : Bytes}
  {pre l l' done : List Bytes} {f : Filling} {rsaIdSelf : Option RsaId} {flags : UInt32}

/-! ## Filling the array -/

/-- The memory of a member that is not written yet. -/
def blank : Bytes := List.replicate nodefamilyMemberLen 0

lemma strlowerBuf_nickname (h : WellFormedNickname s) :
    strlowerBuf (memcpy (blank.drop 1) (bytesOf s))
      = bytesOf (torStrlower s) ++ List.replicate (digestLen - s.length) 0 := by
  have hlegal : legalNicknameCharacters.all (fun c => decide (c.toNat.toUInt8 ≠ 0
      ∧ torTolower c.toNat.toUInt8 = c.toLower.toNat.toUInt8)) = true := by decide
  have hbyte : ∀ c ∈ s, c.toNat.toUInt8 ≠ 0
      ∧ torTolower c.toNat.toUInt8 = c.toLower.toNat.toUInt8 := fun c hc =>
    of_decide_eq_true (List.all_eq_true.mp hlegal c
      (mem_legalNicknameCharacters.mpr (h.alphanum c hc)))
  have hpad : memcpy (blank.drop 1) (bytesOf s)
      = bytesOf s ++ List.replicate (digestLen - s.length) 0 := by
    rw [memcpy, blank, drop_replicate, drop_replicate, bytesOf_length]
    rfl
  have hnonzero : ∀ b ∈ bytesOf s, decide (b ≠ 0) = true := by
    intro b hb
    obtain ⟨c, hc, rfl⟩ := mem_map.mp hb
    exact decide_eq_true (hbyte c hc).1
  have hstop : ∀ k, (replicate k (0 : UInt8)).takeWhile (· ≠ 0) = []
      ∧ (replicate k (0 : UInt8)).dropWhile (· ≠ 0) = replicate k 0 := by
    intro k
    cases k <;> simp [replicate_succ]
  rw [strlowerBuf, hpad, takeWhile_append_of_pos hnonzero,
    dropWhile_append_of_pos hnonzero, (hstop _).1, (hstop _).2, append_nil]
  refine congrArg (· ++ _) ?_
  rw [bytesOf, bytesOf, torStrlower, List.map_map, List.map_map]
  exact map_congr_left fun c hc => (hbyte c hc).2

lemma fillMember_eq (h : f.familyMembers[f.ptr]? = some blank) (cp : List Char) :
    fillMember f cp =
      match memberOf cp with
      | some m => f.write fun _ => m
      | none => { f with
          nBadElements := f.nBadElements + 1, unrecognizedOut := f.unrecognizedOut ++ [cp] } := by
  have hwrite : ∀ {g : Bytes → Bytes} {m : Bytes}, g blank = m → f.write g = f.write fun _ => m := by
    intro g m hg
    obtain ⟨hlt, hblank⟩ := List.getElem?_eq_some_iff.mp h
    simp only [Filling.write, Filling.mk.injEq, and_true]
    rw [modify_eq_set_getElem?, modify_eq_set_getElem?, h]
    simp [hg]
  by_cases hnick : isLegalNickname cp = true
  · rw [fillMember, memberOf, if_pos hnick, if_pos hnick]
    refine hwrite ?_
    rw [strlowerBuf_nickname (isLegalNickname_iff.mp hnick)]
  · by_cases hlegal : isLegalHexdigest cp = true
    · obtain ⟨id, hex, suffix, hhex, hsuffix, hcp, hlen⟩ := exists_rsaId_of_isLegalHexdigest hlegal
      have hdecode := hexDigestNicknameDecode_of_torStrupper hcp id.property hhex hsuffix
      obtain ⟨⟨digestBuf, qualified⟩, hr, rfl⟩ := map_eq_some_iff.mp hdecode
      rw [fillMember, memberOf, if_neg hnick, if_pos hlegal, if_neg hnick, if_pos hlegal, hr]
      refine hwrite ?_
      rw [memcpy, blank, drop_replicate, drop_of_length_le, append_nil]
      rw [length_replicate]
      exact id.property.ge
    · rw [memberOf_eq_none.mpr ⟨by simpa using hnick, by simpa using hlegal⟩, fillMember,
        if_neg hnick, if_neg hlegal]

/-- The elements that stand for no member. -/
def malformed (members : List (List Char)) : List (List Char) :=
  members.filter fun cp => (memberOf cp).isNone

lemma write_append (member : Bytes → Bytes) (nBad : ℕ) (unrecognized : List (List Char))
    (rest : List Bytes) :
    Filling.write ⟨done ++ blank :: rest, done.length, nBad, unrecognized⟩ member
      = ⟨(done ++ [member blank]) ++ rest, (done ++ [member blank]).length, nBad,
          unrecognized⟩ := by
  simp [Filling.write, modify_eq_set_getElem?]

/-- The loop over the elements: the members come first, and behind them is what the malformed
elements and the node itself have been given. -/
lemma foldl_fillMember (k nBad : ℕ) (unrecognized : List (List Char)) :
    members.foldl fillMember ⟨done ++ List.replicate (members.length + k) blank, done.length, nBad,
        unrecognized⟩
      = ⟨(done ++ members.filterMap memberOf)
            ++ List.replicate ((malformed members).length + k) blank,
          (done ++ members.filterMap memberOf).length, nBad + (malformed members).length,
          unrecognized ++ malformed members⟩ := by
  induction members generalizing done k nBad unrecognized with
  | nil => simp [malformed]
  | cons cp members ih =>
    have hnext : (⟨done ++ replicate ((cp :: members).length + k) blank, done.length, nBad,
        unrecognized⟩ : Filling) = ⟨done ++ blank :: replicate (members.length + k) blank,
          done.length, nBad, unrecognized⟩ := by
      rw [length_cons, show members.length + 1 + k = members.length + k + 1 by omega,
        replicate_succ]
    rw [foldl_cons, hnext, fillMember_eq (by simp)]
    cases hm : memberOf cp with
    | some m =>
      have hbad : malformed (cp :: members) = malformed members := by
        simp [malformed, hm]
      rw [hbad, filterMap_cons_some hm]
      simp only
      rw [write_append, ih, append_assoc done [m], singleton_append]
    | none =>
      have hbad : malformed (cp :: members) = cp :: malformed members := by
        simp [malformed, hm]
      have hgrow : done ++ blank :: replicate (members.length + k) blank
          = done ++ replicate (members.length + (k + 1)) blank := by
        rfl
      rw [hgrow, ih, hbad, filterMap_cons_none hm, length_cons]
      simp only [append_assoc, singleton_append, Filling.mk.injEq, true_and]
      refine ⟨?_, by omega, trivial⟩
      rw [show (malformed members).length + (k + 1) = (malformed members).length + 1 + k by omega]

/-! ## The array that is looked up -/

/-- The members that the elements and the node itself stand for, in their order. -/
def allMembers (members : List (List Char)) (rsaIdSelf : Option RsaId) : List Bytes :=
  members.filterMap memberOf ++ (rsaIdSelf.map fun id => byRsaId :: id.val).toList

def canonicalMembers (members : List (List Char)) (rsaIdSelf : Option RsaId) : List Bytes :=
  removeDuplicates ((allMembers members rsaIdSelf).insertionSort compareMembers) 0

/-- A malformed element is an error. -/
def Rejects (members : List (List Char)) (flags : UInt32) : Prop :=
  malformed members ≠ [] ∧ flags &&& nfRejectMalformed ≠ 0

instance : Decidable (Rejects members flags) := inferInstanceAs (Decidable (_ ∧ _))

/-- `nodefamily_from_members` looks the canonical array up, unless it rejects an element. -/
theorem nodefamilyFromMembers_eq (theNodeFamilies : NodefamilyMap) (tmp : ℕ)
    (members : List (List Char)) (rsaIdSelf : Option RsaId) (flags : UInt32) :
    nodefamilyFromMembers theNodeFamilies tmp members rsaIdSelf flags =
      if Rejects members flags then ⟨theNodeFamilies, none, malformed members⟩
      else ⟨(findOrInsert theNodeFamilies tmp (canonicalMembers members rsaIdSelf)).1,
        some (findOrInsert theNodeFamilies tmp (canonicalMembers members rsaIdSelf)).2,
        malformed members⟩ := by
  have hlen : members.length = (members.filterMap memberOf).length + (malformed members).length := by
    induction members with
    | nil => rfl
    | cons cp members ih =>
      cases hm : memberOf cp with
      | some m | none => simp [malformed, hm] at ih ⊢; omega
  have hfill : ∀ k, members.foldl fillMember ⟨nodefamilyAlloc (members.length + k), 0, 0, []⟩
      = ⟨members.filterMap memberOf ++ replicate ((malformed members).length + k) blank,
          (members.filterMap memberOf).length, (malformed members).length, malformed members⟩ := by
    intro k
    have := @foldl_fillMember members [] k 0 []
    simpa [nodefamilyAlloc, blank] using this
  simp only [nodefamilyFromMembers, hfill]
  by_cases hreject : Rejects members flags
  · rw [if_pos hreject, if_pos ⟨fun hnil => hreject.1 (eq_nil_of_length_eq_zero hnil), hreject.2⟩]
  · rw [if_neg hreject, if_neg fun h => hreject ⟨fun hnil => h.1 (by rw [hnil]; rfl), h.2⟩]
    cases rsaIdSelf with
    | none =>
      have hmembers : (members.filterMap memberOf ++ replicate
          ((malformed members).length + 0) blank).take (members.length + 0
            - (malformed members).length) = allMembers members none := by
        rw [take_left' (by omega)]
        simp [allMembers]
      simp only [isSome_none, Bool.false_eq_true, if_false, canonicalMembers, hmembers]
    | some id =>
      have hself : byRsaId :: memcpy (blank.drop 1) id.val = byRsaId :: id.val := by
        rw [memcpy, drop_drop, drop_of_length_le, append_nil]
        rw [blank, length_replicate, id.property]
        rfl
      have hmembers : (members.filterMap memberOf ++ [byRsaId :: id.val]
            ++ replicate (malformed members).length blank).take (members.length + 1
            - (malformed members).length) = allMembers members (some id) := by
        rw [take_left' (by rw [length_append, length_singleton]; omega)]
        rfl
      simp only [isSome_some, if_true, canonicalMembers, replicate_succ, write_append,
        hself, hmembers]

/-! ## Sorted, without duplicates -/

/-- `compare_members(a, b) < 0` -/
def MemberLt (a b : Bytes) : Prop := a.map UInt8.toNat < b.map UInt8.toNat

instance : IsTrans Bytes compareMembers := ⟨fun _ _ _ h h' => le_trans h h'⟩

instance : Std.Total compareMembers := ⟨fun a b => le_total (a.map UInt8.toNat) (b.map UInt8.toNat)⟩

lemma map_toNat_injective : Function.Injective (List.map UInt8.toNat) :=
  map_injective_iff.mpr fun _ _ => UInt8.toNat_inj.mp

lemma memberLt_of_ne {a b : Bytes} (h : compareMembers a b) (hne : a ≠ b) : MemberLt a b :=
  lt_of_le_of_ne h fun heq => hne (map_toNat_injective heq)

/-- The loop over a sorted array drops nothing but repetitions; what stands before it is already
without them. -/
lemma removeDuplicates_spec (hle : (pre ++ x :: l).Pairwise compareMembers)
    (hlt : (pre ++ [x]).Pairwise MemberLt) :
    (removeDuplicates (pre ++ x :: l) pre.length).Pairwise MemberLt
      ∧ ∀ m, m ∈ removeDuplicates (pre ++ x :: l) pre.length ↔ m ∈ pre ++ x :: l := by
  induction l generalizing pre x with
  | nil =>
    rw [removeDuplicates, dif_neg (by simp)]
    exact ⟨hlt, fun m => Iff.rfl⟩
  | cons y l ih =>
    have hlen : pre.length + 1 < (pre ++ x :: y :: l).length := by simp
    have hx (h : pre.length < (pre ++ x :: y :: l).length) :
        (pre ++ x :: y :: l)[pre.length] = x := by simp
    have hy : (pre ++ x :: y :: l)[pre.length + 1] = y := by simp
    rw [removeDuplicates, dif_pos hlen, hx, hy]
    split_ifs with heq
    · subst heq
      have herase : (pre ++ x :: x :: l).eraseIdx pre.length = pre ++ x :: l := by
        rw [eraseIdx_append_of_length_le le_rfl]
        simp
      have hsub : (pre ++ x :: l).Sublist (pre ++ x :: x :: l) :=
        (sublist_cons_self x _).append_left pre
      rw [herase]
      obtain ⟨hsorted, hmem⟩ := ih (hle.sublist hsub) hlt
      refine ⟨hsorted, fun m => ?_⟩
      rw [hmem]
      simp
    · have happend : pre ++ x :: y :: l = (pre ++ [x]) ++ y :: l := by simp
      have hlt' : (pre ++ [x] ++ [y]).Pairwise MemberLt := by
        refine pairwise_append.mpr ⟨hlt, pairwise_singleton _ _, fun a ha b hb => ?_⟩
        obtain rfl := mem_singleton.mp hb
        have hxy : compareMembers x b := by
          have hpair := (pairwise_append.mp hle).2.1
          exact (pairwise_cons.mp hpair).1 b mem_cons_self
        have hxb := memberLt_of_ne hxy heq
        rcases mem_append.mp ha with ha | ha
        · have hax := (pairwise_append.mp hlt).2.2 a ha x (by simp)
          exact lt_trans hax hxb
        · rwa [mem_singleton.mp ha]
      have hrec := ih (by rwa [← happend]) hlt'
      rw [happend]
      simpa using hrec

lemma eq_of_pairwise_memberLt (h : l.Pairwise MemberLt) (h' : l'.Pairwise MemberLt)
    (hmem : ∀ m, m ∈ l ↔ m ∈ l') : l = l' := by
  have hne : ∀ a b : Bytes, MemberLt a b → a ≠ b := by
    rintro a _ hab rfl
    exact lt_irrefl _ hab
  have hperm : l.Perm l' := (perm_ext_iff_of_nodup (h.imp (hne _ _)) (h'.imp (hne _ _))).mpr hmem
  refine hperm.eq_of_pairwise (fun a b _ _ hab hba => ?_) h h'
  exact absurd (lt_trans hab hba) (lt_irrefl _)

/-- The canonical array is sorted and has no member twice. -/
theorem pairwise_canonicalMembers (members : List (List Char)) (rsaIdSelf : Option RsaId) :
    (canonicalMembers members rsaIdSelf).Pairwise MemberLt
      ∧ ∀ m, m ∈ canonicalMembers members rsaIdSelf ↔ m ∈ allMembers members rsaIdSelf := by
  have hperm := perm_insertionSort compareMembers (allMembers members rsaIdSelf)
  have hsorted := pairwise_insertionSort compareMembers (allMembers members rsaIdSelf)
  rw [canonicalMembers]
  generalize (allMembers members rsaIdSelf).insertionSort compareMembers = sorted at hperm hsorted
  cases sorted with
  | nil =>
    rw [removeDuplicates, dif_neg (by simp)]
    exact ⟨List.Pairwise.nil, fun m => hperm.mem_iff⟩
  | cons x l =>
    obtain ⟨hlt, hmem⟩ := @removeDuplicates_spec x [] l hsorted (by simp)
    exact ⟨hlt, fun m => (hmem m).trans hperm.mem_iff⟩

lemma mem_allMembers : m ∈ allMembers members rsaIdSelf
    ↔ (∃ cp ∈ members, Denotes cp m) ∨ ∃ id ∈ rsaIdSelf, m = byRsaId :: id.val := by
  simp only [allMembers, mem_append, mem_filterMap, memberOf_eq_some, mem_toList,
    mem_def, map_eq_some_iff, @eq_comm _ m]

/-- The canonical array has exactly the members that the well-formed elements and the node itself
stand for. -/
theorem mem_canonicalMembers : m ∈ canonicalMembers members rsaIdSelf
    ↔ (∃ cp ∈ members, Denotes cp m) ∨ ∃ id ∈ rsaIdSelf, m = byRsaId :: id.val := by
  rw [(pairwise_canonicalMembers members rsaIdSelf).2, mem_allMembers]

/-! ## Families as strings -/

/-- An array that a family may have. -/
structure Canonical (familyMembers : List Bytes) : Prop where
  sorted : familyMembers.Pairwise MemberLt
  denoted : ∀ m ∈ familyMembers, ∃ cp, Denotes cp m

lemma denotes_rsaId (id : RsaId) : Denotes ('$' :: base16Encode id.val) (byRsaId :: id.val) := by
  have := Denotes.dollarHexId id (torStrupper_base16Encode id.val) HexSuffix.none
  rwa [append_nil] at this

lemma canonical_canonicalMembers (members : List (List Char)) (rsaIdSelf : Option RsaId) :
    Canonical (canonicalMembers members rsaIdSelf) where
  sorted := (pairwise_canonicalMembers members rsaIdSelf).1
  denoted m hm := by
    rcases mem_canonicalMembers.mp hm with ⟨cp, -, hcp⟩ | ⟨id, -, rfl⟩
    · exact ⟨cp, hcp⟩
    · exact ⟨_, denotes_rsaId id⟩

lemma canonicalMembers_eq (h : Canonical l)
    (hmem : ∀ m, m ∈ l ↔ (∃ cp ∈ members, Denotes cp m) ∨ ∃ id ∈ rsaIdSelf, m = byRsaId :: id.val) :
    canonicalMembers members rsaIdSelf = l := by
  refine eq_of_pairwise_memberLt (pairwise_canonicalMembers members rsaIdSelf).1 h.sorted fun m => ?_
  rw [mem_canonicalMembers, hmem]

lemma Denotes.unique {n : Bytes} (h : Denotes cp m) (h' : Denotes cp n) : m = n := by
  rw [← memberOf_eq_some] at h h'
  exact some.inj (h.symm.trans h')

lemma mem_formatted (h : Canonical l) : s ∈ l.filterMap formatMember
    ↔ ∃ m ∈ l, formatMember m = some s ∧ Denotes s m ∧ IsPiece isHorizontal s := by
  rw [mem_filterMap]
  refine exists_congr fun m => and_congr_right fun hm => ⟨fun hs => ?_, fun hs => hs.1⟩
  obtain ⟨cp, hcp⟩ := h.denoted m hm
  obtain ⟨t, ht, hdenotes, hpiece⟩ := hcp.formatted
  obtain rfl := some.inj (hs.symm.trans ht)
  exact ⟨ht, hdenotes, hpiece⟩

lemma denotes_formatted (h : Canonical l) :
    (∃ cp ∈ l.filterMap formatMember, Denotes cp m) ↔ m ∈ l := by
  constructor
  · rintro ⟨cp, hcp, hm⟩
    obtain ⟨n, hn, -, hdenotes, -⟩ := (mem_formatted h).mp hcp
    rwa [hm.unique hdenotes]
  · intro hm
    obtain ⟨cp, hcp⟩ := h.denoted m hm
    obtain ⟨s, hs, hdenotes, -⟩ := hcp.formatted
    exact ⟨s, mem_filterMap.mpr ⟨m, hm, hs⟩, hdenotes⟩

lemma splitHorizontal_format (h : Canonical l) :
    splitHorizontal (joinSpace (l.filterMap formatMember)) = l.filterMap formatMember := by
  refine splitHorizontal_join fun s hs => ?_
  obtain ⟨m, -, -, -, hpiece⟩ := (mem_formatted h).mp hs
  exact hpiece

/-- **The string of a family is parsed as the array of the family.** -/
theorem canonicalMembers_formatted (h : Canonical l) :
    canonicalMembers (splitHorizontal (joinSpace (l.filterMap formatMember))) none = l := by
  refine canonicalMembers_eq h fun m => ?_
  rw [splitHorizontal_format h, denotes_formatted h]
  simp

lemma malformed_formatted (h : Canonical l) : malformed (l.filterMap formatMember) = [] := by
  refine filter_eq_nil_iff.mpr fun s hs => ?_
  obtain ⟨m, -, -, hdenotes, -⟩ := (mem_formatted h).mp hs
  rw [memberOf_eq_some.mpr hdenotes]
  simp

/-! ## Canonical strings -/

/-- The elements of the canonical string, before they are sorted. -/
def canonicalElements (members : List (List Char)) (rsaIdSelf : Option RsaId) (flags : UInt32) :
    List (List Char) :=
  malformed members ++ if Rejects members flags then []
    else (canonicalMembers members rsaIdSelf).filterMap formatMember

def canonicalString (members : List (List Char)) (rsaIdSelf : Option RsaId) (flags : UInt32) :
    List Char :=
  joinSpace (smartlistSortStrings (canonicalElements members rsaIdSelf flags))

lemma smartlistSortStrings_congr (h : members.Perm members') :
    smartlistSortStrings members = smartlistSortStrings members' := by
  have hperm := ((perm_insertionSort (· ≤ ·) members).trans h).trans
    (perm_insertionSort (· ≤ ·) members').symm
  exact hperm.eq_of_pairwise (fun a b _ _ hab hba => le_antisymm hab hba)
    (pairwise_insertionSort _ _) (pairwise_insertionSort _ _)

lemma rejects_congr (h : (malformed members).Perm (malformed members')) :
    Rejects members flags ↔ Rejects members' flags := by
  rw [Rejects, Rejects, ← length_pos_iff, ← length_pos_iff, h.length_eq]

/-- The canonical string depends on the malformed elements and on the members that the others stand
for. -/
lemma canonicalString_eq (hbad : (malformed members).Perm (malformed members'))
    (hmem : canonicalMembers members rsaIdSelf = canonicalMembers members' rsaIdSelf) :
    canonicalString members rsaIdSelf flags = canonicalString members' rsaIdSelf flags := by
  rw [canonicalString, canonicalString, canonicalElements, canonicalElements, hmem,
    if_congr (rejects_congr hbad) rfl rfl]
  exact congrArg joinSpace (smartlistSortStrings_congr (hbad.append_right _))

lemma canonicalMembers_perm (h : members.Perm members') :
    canonicalMembers members rsaIdSelf = canonicalMembers members' rsaIdSelf := by
  refine canonicalMembers_eq (canonical_canonicalMembers members' rsaIdSelf) fun m => ?_
  rw [mem_canonicalMembers]
  refine or_congr_left (exists_congr fun cp => ?_)
  rw [h.mem_iff]

/-- `t` is `s`, or a well-formed `s` with letters of another case. -/
def Recased (s t : List Char) : Prop := s = t ∨ (∃ m, Denotes s m) ∧ torStrlower s = torStrlower t

lemma filterMap_memberOf_recased (h : List.Forall₂ Recased members members') :
    members.filterMap memberOf = members'.filterMap memberOf ∧ malformed members = malformed members' := by
  induction h with
  | nil => exact ⟨rfl, rfl⟩
  | @cons s t members members' hst _ ih =>
    obtain ⟨hmem, hbad⟩ := ih
    have hmember : memberOf s = memberOf t := by
      rcases hst with rfl | ⟨-, hlower⟩
      · rfl
      · exact memberOf_recase hlower
    have hkept : ∀ l l', malformed l = malformed l' → (memberOf s = none → s = t) →
        malformed (s :: l) = malformed (t :: l') := by
      intro l l' hl hsame
      simp only [malformed, filter_cons, ← hmember] at hl ⊢
      rw [hl]
      split_ifs with hnone
      · rw [hsame (isNone_iff_eq_none.mp hnone)]
      · rfl
    refine ⟨by simp only [filterMap_cons, hmember, hmem], hkept _ _ hbad fun hnone => ?_⟩
    rcases hst with rfl | ⟨⟨m, hm⟩, -⟩
    · rfl
    · rw [memberOf_eq_some.mpr hm] at hnone
      cases hnone

/-- **Neither the order of the elements nor the case of the well-formed ones makes a difference.** -/
theorem canonicalString_congr {recased : List (List Char)} (hperm : members.Perm recased)
    (hcase : List.Forall₂ Recased recased members') :
    canonicalString members rsaIdSelf flags = canonicalString members' rsaIdSelf flags := by
  obtain ⟨hmem, hbad⟩ := filterMap_memberOf_recased hcase
  refine (canonicalString_eq (hperm.filter _) (canonicalMembers_perm hperm)).trans
    (canonicalString_eq (by rw [hbad]) ?_)
  rw [canonicalMembers, canonicalMembers, allMembers, allMembers, hmem]

lemma malformed_malformed (members : List (List Char)) :
    malformed (malformed members) = malformed members := by
  simp [malformed]

lemma malformed_canonicalElements (members : List (List Char)) (rsaIdSelf : Option RsaId)
    (flags : UInt32) :
    malformed (canonicalElements members rsaIdSelf flags) = malformed members := by
  have hformat : malformed (if Rejects members flags then []
      else (canonicalMembers members rsaIdSelf).filterMap formatMember) = [] := by
    split_ifs
    · rfl
    · exact malformed_formatted (canonical_canonicalMembers members rsaIdSelf)
  have happend : ∀ l l', malformed (l ++ l') = malformed l ++ malformed l' := fun l l' =>
    filter_append l l'
  rw [canonicalElements, happend, hformat, malformed_malformed, append_nil]

/-- **The canonical string is canonical.** -/
theorem canonicalString_split (h : ∀ s ∈ members, IsPiece isHorizontal s) (rsaIdSelf : Option RsaId)
    (flags : UInt32) :
    canonicalString (splitHorizontal (canonicalString members rsaIdSelf flags)) rsaIdSelf flags
      = canonicalString members rsaIdSelf flags := by
  have hcanonical := canonical_canonicalMembers members rsaIdSelf
  have hperm := perm_insertionSort (· ≤ ·) (canonicalElements members rsaIdSelf flags)
  have hpieces : ∀ s ∈ canonicalElements members rsaIdSelf flags, IsPiece isHorizontal s := by
    intro s hs
    rcases mem_append.mp hs with hs | hs
    · exact h s (mem_of_mem_filter hs)
    · split_ifs at hs
      · cases hs
      · obtain ⟨m, -, -, -, hpiece⟩ := (mem_formatted hcanonical).mp hs
        exact hpiece
  have hsplit : splitHorizontal (canonicalString members rsaIdSelf flags)
      = smartlistSortStrings (canonicalElements members rsaIdSelf flags) :=
    splitHorizontal_join fun s hs => hpieces s (hperm.mem_iff.mp hs)
  rw [hsplit]
  have hbad : (malformed (smartlistSortStrings (canonicalElements members rsaIdSelf flags))).Perm
      (malformed members) := by
    rw [← malformed_canonicalElements members rsaIdSelf flags]
    exact hperm.filter _
  by_cases hreject : Rejects members flags
  · rw [canonicalString, canonicalString, canonicalElements,
      if_pos ((rejects_congr hbad).mpr hreject), append_nil, canonicalElements, if_pos hreject,
      append_nil]
    exact congrArg joinSpace (smartlistSortStrings_congr (by
      rw [canonicalElements, if_pos hreject, append_nil] at hbad
      exact hbad))
  · refine canonicalString_eq hbad (canonicalMembers_eq hcanonical fun m => ?_)
    have hdenoted : (∃ cp ∈ smartlistSortStrings (canonicalElements members rsaIdSelf flags),
        Denotes cp m) ↔ m ∈ canonicalMembers members rsaIdSelf := by
      rw [← denotes_formatted hcanonical]
      refine exists_congr fun cp => and_congr_left fun hcp => ?_
      rw [smartlistSortStrings, hperm.mem_iff, canonicalElements, if_neg hreject, mem_append,
        or_iff_right]
      intro hmem
      have hnone := (mem_filter.mp hmem).2
      rw [memberOf_eq_some.mpr hcp] at hnone
      cases hnone
    rw [hdenoted, or_iff_left_of_imp]
    exact fun hself => mem_canonicalMembers.mpr (Or.inr hself)

end Ator.Nodefamily
