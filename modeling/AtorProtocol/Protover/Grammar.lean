import AtorProtocol.Protover.RoundTrip
import Mathlib.Data.List.Forall2

/-!
# The grammar of protocol-version lists

What `parse_protocol_list` of `src/core/or/protover.c` accepts, and the versions that it reads.

* `IsVersionRange`, `IsVersionList`, `IsEntry` — how a range, a list of ranges and an entry are
  written.
* `IsEntryList` — entries with spaces between them, and maybe behind the last one.
* `parseProtocolList_eq_some_iff` — the strings that are accepted are exactly these lists, and each
  mask is the union of the ranges that are written.
-/

namespace Ator.Protover

open Text List
open Option (some.inj)

/-- The name of an entry, and its ranges from low to high. -/
abbrev Listing := List Char × List (ℕ × ℕ)

/-- A decimal number between 0 and 63. -/
structure IsVersion (s : List Char) (n : ℕ) : Prop where
  ne_nil : s ≠ []
  digits : ∀ c ∈ s, c.isDigit
  val_eq : digitsVal s = n
  le : n ≤ maxProtocolVersion

/-- `U` or `U-U`. -/
inductive IsVersionRange : List Char → ℕ × ℕ → Prop
  | one {s : List Char} {n : ℕ} (hs : IsVersion s n) : IsVersionRange s (n, n)
  | range {s t : List Char} {low high : ℕ} (hs : IsVersion s low) (ht : IsVersion t high)
      (hle : low ≤ high) : IsVersionRange (s ++ '-' :: t) (low, high)

/-- No range, or ranges with commas between them. -/
inductive IsVersionList : List Char → List (ℕ × ℕ) → Prop
  | nil : IsVersionList [] []
  | last {s : List Char} {range : ℕ × ℕ} (hs : IsVersionRange s range) : IsVersionList s [range]
  | cons {s t : List Char} {range : ℕ × ℕ} {ranges : List (ℕ × ℕ)} (hs : IsVersionRange s range)
      (ht : IsVersionList t ranges) (hne : ranges ≠ []) :
      IsVersionList (s ++ ',' :: t) (range :: ranges)

/-- `name=versions` -/
def IsEntry (s : List Char) (listing : Listing) : Prop :=
  ValidName listing.1 ∧ ∃ versions, s = listing.1 ++ '=' :: versions
    ∧ IsVersionList versions listing.2

/-- Entries with at least one space between them, and any spaces behind the last one. -/
inductive IsEntryList : List Char → List Listing → Prop
  | nil : IsEntryList [] []
  | last {s : List Char} {listing : Listing} (hs : IsEntry s listing) (n : ℕ) :
      IsEntryList (s ++ List.replicate n ' ') [listing]
  | cons {s t : List Char} {listing : Listing} {listings : List Listing} (hs : IsEntry s listing)
      (n : ℕ) (ht : IsEntryList t listings) (hne : listings ≠ []) :
      IsEntryList (s ++ ' ' :: (List.replicate n ' ' ++ t)) (listing :: listings)

/-- Entries with one space between two of them, and nothing else. -/
def IsSpaceSeparated (s : List Char) (listings : List Listing) : Prop :=
  ∃ texts, List.Forall₂ IsEntry texts listings ∧ s = [' '].intercalate texts

/-- A version is one of the ranges. -/
def InRanges (ranges : List (ℕ × ℕ)) (v : ℕ) : Prop := ∃ r ∈ ranges, r.1 ≤ v ∧ v ≤ r.2

/-- An entry has the name that is written, and its mask is the union of the ranges. -/
def Covers (entry : ProtoEntry) (listing : Listing) : Prop :=
  entry.name = listing.1 ∧ ∀ v, entry.bitmask.getLsbD v = true ↔ InRanges listing.2 v

variable {s t : List Char} {n low high : ℕ} {range : ℕ × ℕ} {ranges : List (ℕ × ℕ)}
  {listing : Listing} {listings : List Listing} {c : Char}

/-! ## Ranges -/

lemma IsVersion.head_isDigit (hs : IsVersion s n) (t : List Char) :
    (s ++ t).head?.any Char.isDigit = true := by
  obtain ⟨c, cs, rfl⟩ := exists_cons_of_ne_nil hs.ne_nil
  simpa using hs.digits c mem_cons_self

lemma IsVersion.torParseUlong (hs : IsVersion s n) (ht : ∀ c ∈ t.head?, c.isDigit = false) :
    torParseUlong (s ++ t) maxProtocolVersion = some (n, t) := by
  rw [Protover.torParseUlong, digitsOf_append hs.digits ht, afterDigits_append hs.digits ht,
    hs.val_eq, if_pos hs.le]

lemma isVersion_of_torParseUlong (hhead : s.head?.any Char.isDigit)
    (h : torParseUlong s maxProtocolVersion = some (n, t)) :
    ∃ u, IsVersion u n ∧ s = u ++ t := by
  rw [Protover.torParseUlong] at h
  split_ifs at h with hle
  obtain ⟨rfl, rfl⟩ := h
  exact ⟨digitsOf s, ⟨digitsOf_ne_nil hhead, fun c hc => mem_takeWhile_imp hc, rfl, hle⟩,
    takeWhile_append_dropWhile.symm⟩

lemma IsVersion.notMem (hs : IsVersion s n) (hc : c.isDigit = false) : c ∉ s := by
  intro hmem
  rw [hs.digits c hmem] at hc
  cases hc

lemma parseVersionRange_of_isVersionRange (h : IsVersionRange s range) :
    parseVersionRange s = some range := by
  cases h with
  | @one s n hs =>
    have hhead := hs.head_isDigit []
    have hlow := hs.torParseUlong (t := []) (by simp)
    rw [append_nil] at hhead hlow
    rw [parseVersionRange, if_neg (by rw [hhead]; decide), hlow]
  | @range s t low high hs ht hle =>
    have hlow := hs.torParseUlong (t := '-' :: t) (by simp)
    have hhead := ht.head_isDigit []
    have hhigh := ht.torParseUlong (t := []) (by simp)
    rw [append_nil] at hhead hhigh
    rw [parseVersionRange, if_neg (by rw [hs.head_isDigit]; decide), hlow]
    dsimp only
    rw [if_neg (not_not.mpr rfl), if_neg (by rw [hhead]; decide), hhigh]
    dsimp only
    rw [if_neg hle.not_gt]

lemma isVersionRange_of_parse (h : parseVersionRange s = some range) : IsVersionRange s range := by
  rw [parseVersionRange] at h
  split_ifs at h with hhead
  split at h
  · cases h
  · next low hlow =>
      obtain rfl := some.inj h
      obtain ⟨u, hu, rfl⟩ := isVersion_of_torParseUlong hhead hlow
      rw [append_nil]
      exact .one hu
  · next low c rest hlow =>
      split_ifs at h with hdash hhead2
      rw [not_not] at hdash
      subst hdash
      obtain ⟨u, hu, rfl⟩ := isVersion_of_torParseUlong hhead hlow
      split at h
      · next high hhigh =>
          split_ifs at h with hle
          obtain rfl := some.inj h
          obtain ⟨w, hw, rfl⟩ := isVersion_of_torParseUlong hhead2 hhigh
          rw [append_nil]
          exact .range hu hw (not_lt.mp hle)
      · cases h

lemma IsVersionRange.notMem (h : IsVersionRange s range) (hc : c.isDigit = false) (hdash : c ≠ '-') :
    c ∉ s := by
  cases h with
  | one hs => exact hs.notMem hc
  | range hs ht hle =>
    simp only [mem_append, mem_cons, not_or]
    exact ⟨hs.notMem hc, hdash, ht.notMem hc⟩

lemma IsVersionRange.ne_nil (h : IsVersionRange s range) : s ≠ [] := by
  cases h with
  | one hs => exact hs.ne_nil
  | range hs ht hle => simp

lemma IsVersionRange.le (h : IsVersionRange s range) : range.1 ≤ range.2 ∧ range.2 < 64 := by
  cases h with
  | one hs => exact ⟨le_rfl, Nat.lt_succ_of_le hs.le⟩
  | range hs ht hle => exact ⟨hle, Nat.lt_succ_of_le ht.le⟩

/-! ## Lists of ranges -/

lemma IsVersionList.eq_nil (h : IsVersionList s []) : s = [] := by
  cases h
  rfl

lemma IsVersionList.ne_nil (h : IsVersionList s ranges) (hne : ranges ≠ []) : s ≠ [] := by
  cases h with
  | nil => exact absurd rfl hne
  | last hs => exact hs.ne_nil
  | cons hs ht hne => simp

lemma IsVersionList.notMem (h : IsVersionList s ranges) : ' ' ∉ s := by
  induction h with
  | nil => exact not_mem_nil
  | last hs => exact hs.notMem (by decide) (by decide)
  | cons hs ht hne ih =>
    simp only [mem_append, mem_cons, not_or]
    exact ⟨hs.notMem (by decide) (by decide), by decide, ih⟩

lemma parseRanges_step {bitmask : BitVec 64} (hne : s ≠ [])
    (h : parseVersionRange (beforeDelim ',' s) = some (low, high)) :
    parseRanges s bitmask = parseRanges (if 1 < (fromDelim ',' s).length then (fromDelim ',' s).tail
          else fromDelim ',' s) (bitmask ||| bitmaskForRange low high) := by
  rw [parseRanges, if_neg hne]
  split
  · next hnone => rw [h] at hnone; cases hnone
  · next low' high' hsome =>
      rw [h, Option.some.injEq, Prod.mk.injEq] at hsome
      obtain ⟨rfl, rfl⟩ := hsome
      rfl

lemma parseRanges_of_isVersionList (h : IsVersionList s ranges) (bitmask : BitVec 64) :
    parseRanges s bitmask
      = some (ranges.foldl (fun mask r => mask ||| bitmaskForRange r.1 r.2) bitmask) := by
  induction h generalizing bitmask with
  | nil => exact parseRanges_nil bitmask
  | @last s range hs =>
    have hcomma : ',' ∉ s := hs.notMem (by decide) (by decide)
    have hrange : parseVersionRange (beforeDelim ',' s) = some (range.1, range.2) := by
      rw [beforeDelim_of_notMem hcomma, parseVersionRange_of_isVersionRange hs]
    rw [parseRanges_step hs.ne_nil hrange, fromDelim_of_notMem hcomma, if_neg (by simp), parseRanges_nil]
    rfl
  | @cons s t range ranges hs ht hne ih =>
    have hcomma : ',' ∉ s := hs.notMem (by decide) (by decide)
    have hlen : 1 < (',' :: t).length := by
      have := length_pos_iff.mpr (ht.ne_nil hne)
      rw [length_cons]
      omega
    have hrange : parseVersionRange (beforeDelim ',' (s ++ ',' :: t))
        = some (range.1, range.2) := by
      rw [beforeDelim_append hcomma, parseVersionRange_of_isVersionRange hs]
    rw [parseRanges_step (by simp) hrange, fromDelim_append hcomma, if_pos hlen, tail_cons, ih]
    rfl

lemma isVersionList_of_parseRanges {bitmask mask : BitVec 64}
    (h : parseRanges s bitmask = some mask) :
    ∃ ranges, IsVersionList s ranges
      ∧ mask = ranges.foldl (fun mask r => mask ||| bitmaskForRange r.1 r.2) bitmask := by
  induction s, bitmask using parseRanges.induct with
  | case1 bitmask =>
    rw [parseRanges_nil, Option.some.injEq] at h
    exact ⟨[], .nil, h.symm⟩
  | case2 s bitmask hne hnone =>
    rw [parseRanges, if_neg hne] at h
    split at h
    · cases h
    · next hsome => rw [hnone] at hsome; cases hsome
  | case3 s bitmask hne low high hsome ih =>
    rw [parseRanges_step hne hsome] at h
    obtain ⟨ranges, hlist, hmask⟩ := ih h
    have hrange := isVersionRange_of_parse hsome
    have hcut := beforeDelim_append_fromDelim ',' s
    refine ⟨(low, high) :: ranges, ?_, hmask⟩
    rcases hfrom : fromDelim ',' s with _ | ⟨c, t⟩
    · -- the last range of the entry
      rw [hfrom, dif_neg (by simp)] at hlist
      obtain rfl : ranges = [] := by_contra fun hne => hlist.ne_nil hne rfl
      rw [hfrom, append_nil] at hcut
      rw [← hcut]
      exact .last hrange
    · obtain rfl := fromDelim_eq_cons hfrom
      rw [hfrom] at hcut hlist
      cases t with
      | nil =>
        -- a comma with nothing behind it is read as a range, and is none
        rw [hfrom, if_neg (by simp), parseRanges, if_neg (by simp)] at h
        split at h
        · cases h
        · next hcomma => cases hcomma
      | cons d t =>
        rw [← hcut]
        refine .cons hrange hlist ?_
        rintro rfl
        cases hlist.eq_nil

lemma getLsbD_foldl_ranges (hle : ∀ r ∈ ranges, r.1 ≤ r.2 ∧ r.2 < 64) (bitmask : BitVec 64)
    (v : ℕ) :
    (ranges.foldl (fun mask r => mask ||| bitmaskForRange r.1 r.2) bitmask).getLsbD v = true
      ↔ bitmask.getLsbD v = true ∨ InRanges ranges v := by
  induction ranges generalizing bitmask with
  | nil => simp [InRanges]
  | cons r ranges ih =>
    obtain ⟨hr, hranges⟩ := forall_mem_cons.mp hle
    rw [foldl_cons, ih hranges, BitVec.getLsbD_or, bitmaskForRange_getLsbD hr.1 hr.2]
    simp only [InRanges, Bool.or_eq_true, decide_eq_true_eq, mem_cons, exists_eq_or_imp]
    rw [or_assoc]

lemma IsVersionList.le (h : IsVersionList s ranges) : ∀ r ∈ ranges, r.1 ≤ r.2 ∧ r.2 < 64 := by
  induction h with
  | nil => intro r hr; cases hr
  | last hs =>
    intro r hr
    rw [mem_singleton.mp hr]
    exact hs.le
  | cons hs ht hne ih => exact forall_mem_cons.mpr ⟨hs.le, ih⟩

/-- **The ranges of an entry are read exactly if they are written so, and the mask is their
union.** -/
lemma parseRanges_eq_some_iff {mask : BitVec 64} :
    parseRanges s 0 = some mask
      ↔ ∃ ranges, IsVersionList s ranges ∧ ∀ v, mask.getLsbD v = true ↔ InRanges ranges v := by
  have hbits : ∀ {ranges}, IsVersionList s ranges → ∀ v,
      ((ranges.foldl (fun mask r => mask ||| bitmaskForRange r.1 r.2) 0).getLsbD v = true
        ↔ InRanges ranges v) := by
    intro ranges hlist v
    rw [getLsbD_foldl_ranges hlist.le]
    simp
  constructor
  · intro h
    obtain ⟨ranges, hlist, rfl⟩ := isVersionList_of_parseRanges h
    exact ⟨ranges, hlist, hbits hlist⟩
  · rintro ⟨ranges, hlist, hmask⟩
    rw [parseRanges_of_isVersionList hlist, Option.some.injEq]
    refine BitVec.eq_of_getLsbD_eq fun v hv => ?_
    rw [Bool.eq_iff_iff, hbits hlist v, hmask v]

/-! ## Entries -/

/-- **An entry is read exactly if it is written so.** -/
lemma parseSingleEntry_eq_some_iff {entry : ProtoEntry} :
    parseSingleEntry s = some entry ↔ ∃ listing, IsEntry s listing ∧ Covers entry listing := by
  constructor
  · intro h
    have hname := validName_of_parseSingleEntry h
    simp only [parseSingleEntry] at h
    have hcut := beforeDelim_append_fromDelim '=' s
    split at h
    · cases h
    · next c versions hfrom =>
        obtain rfl := fromDelim_eq_cons hfrom
        split_ifs at h
        obtain ⟨mask, hmask, rfl⟩ := Option.map_eq_some_iff.mp h
        obtain ⟨ranges, hlist, hbits⟩ := parseRanges_eq_some_iff.mp hmask
        refine ⟨(beforeDelim '=' s, ranges), ⟨hname, versions, ?_, hlist⟩, rfl, hbits⟩
        rw [← hfrom, hcut]
  · rintro ⟨⟨name, ranges⟩, ⟨hname, versions, rfl, hlist⟩, hcovers, hbits⟩
    have heq : '=' ∉ name := hname.notMem rfl
    have hmask := parseRanges_eq_some_iff.mpr ⟨ranges, hlist, hbits⟩
    obtain ⟨hne, hlen, hkey⟩ := hname
    simp only [parseSingleEntry, beforeDelim_append heq, fromDelim_append heq]
    rw [if_neg hne, if_neg (not_lt.mpr hlen), if_neg (not_not.mpr hkey), hmask, Option.map_some]
    obtain ⟨entryName, bitmask⟩ := entry
    rw [show entryName = name from hcovers]

lemma IsEntry.notMem (h : IsEntry s listing) : ' ' ∉ s ∧ s ≠ [] := by
  obtain ⟨hname, versions, rfl, hlist⟩ := h
  refine ⟨?_, by simp⟩
  simp only [mem_append, mem_cons, not_or]
  exact ⟨hname.notMem rfl, by decide, hlist.notMem⟩

/-! ## Lists of entries -/

lemma IsEntryList.head_ne (h : IsEntryList t listings) : t.head? ≠ some ' ' := by
  have hentry : ∀ {s listing} (u : List Char), IsEntry s listing → (s ++ u).head? ≠ some ' ' := by
    intro s listing u hs hhead
    obtain ⟨hspace, hne⟩ := hs.notMem
    obtain ⟨c, cs, rfl⟩ := exists_cons_of_ne_nil hne
    rw [cons_append, head?_cons, Option.some.injEq] at hhead
    subst hhead
    exact hspace mem_cons_self
  cases h with
  | nil => simp
  | last hs n => exact hentry _ hs
  | cons hs n ht hne => exact hentry _ hs

lemma IsEntryList.ne_nil (h : IsEntryList t listings) (hne : listings ≠ []) : t ≠ [] := by
  cases h with
  | nil => exact absurd rfl hne
  | last hs n => simp [hs.notMem.2]
  | cons hs n ht hne => simp

lemma skipSpaces_replicate (n : ℕ) (h : t.head? ≠ some ' ') :
    skipSpaces (List.replicate n ' ' ++ t) = t := by
  rw [skipSpaces, dropWhile_append_of_pos fun c hc => by simp [eq_of_mem_replicate hc]]
  cases t with
  | nil => rfl
  | cons c t =>
    simpa using h

lemma parseProtocolList_entry {entry : ProtoEntry} (n : ℕ) (hspace : ' ' ∉ s)
    (hparse : parseSingleEntry s = some entry) (ht : t.head? ≠ some ' ')
    (hsep : n = 0 → t = []) :
    parseProtocolList (s ++ (List.replicate n ' ' ++ t)) = (parseProtocolList t).map (entry :: ·) := by
  cases n with
  | zero =>
    rw [hsep rfl, replicate_zero, append_nil, append_nil,
      parseProtocolList_last hspace hparse, parseProtocolList_nil]
    rfl
  | succ n =>
    have hskip : skipSpaces (' ' :: (replicate n ' ' ++ t)) = t := skipSpaces_replicate (n + 1) ht
    have htext : s ++ (replicate (n + 1) ' ' ++ t) = s ++ ' ' :: (replicate n ' ' ++ t) := rfl
    rw [htext, parseProtocolList, if_neg (by simp), beforeDelim_append hspace,
      fromDelim_append hspace, hskip]
    split
    · next hnone => rw [hparse] at hnone; cases hnone
    · next e he =>
        rw [hparse, Option.some.injEq] at he
        rw [he]

lemma exists_skipSpaces (s : List Char) : ∃ n, s = List.replicate n ' ' ++ skipSpaces s := by
  refine ⟨(s.takeWhile (· == ' ')).length, ?_⟩
  have hreplicate : s.takeWhile (· == ' ') = replicate (s.takeWhile (· == ' ')).length ' ' :=
    eq_replicate_of_mem fun c hc => by simpa using mem_takeWhile_imp hc
  rw [← hreplicate]
  exact takeWhile_append_dropWhile.symm

lemma isEntryList_of_parse {sl : List ProtoEntry} (h : parseProtocolList s = some sl) :
    ∃ listings, IsEntryList s listings ∧ List.Forall₂ Covers sl listings := by
  induction s using parseProtocolList.induct generalizing sl with
  | case1 =>
    rw [parseProtocolList_nil, Option.some.injEq] at h
    subst h
    exact ⟨[], .nil, .nil⟩
  | case2 s hne hnone =>
    rw [parseProtocolList, if_neg hne] at h
    split at h
    · cases h
    · next hsome => rw [hnone] at hsome; cases hsome
  | case3 s hne entry hsome ih =>
    rw [parseProtocolList, if_neg hne] at h
    split at h
    · cases h
    · next e he =>
        obtain ⟨rest, hrest, rfl⟩ := Option.map_eq_some_iff.mp h
        obtain ⟨listing, hentry, hcovers⟩ := parseSingleEntry_eq_some_iff.mp he
        obtain ⟨listings, hlist, hall⟩ := ih hrest
        refine ⟨listing :: listings, ?_, .cons hcovers hall⟩
        have hcut := beforeDelim_append_fromDelim ' ' s
        obtain ⟨n, hn⟩ := exists_skipSpaces (fromDelim ' ' s)
        generalize skipSpaces (fromDelim ' ' s) = u at hn hlist
        rw [← hcut, hn]
        by_cases hmore : listings = []
        · -- nothing but spaces behind the entry
          subst hmore
          cases hlist
          rw [append_nil]
          exact .last hentry n
        · cases n with
          | zero =>
            rw [replicate_zero, nil_append] at hn
            rcases hfrom : fromDelim ' ' s with _ | ⟨c, t⟩
            · exact absurd (hn.symm.trans hfrom) (hlist.ne_nil hmore)
            · obtain rfl := fromDelim_eq_cons hfrom
              exact absurd (by rw [← hn, hfrom]; rfl) hlist.head_ne
          | succ n => exact .cons hentry n hlist hmore

lemma parse_of_isEntryList {sl : List ProtoEntry} (hlist : IsEntryList s listings)
    (hall : List.Forall₂ Covers sl listings) : parseProtocolList s = some sl := by
  induction hlist generalizing sl with
  | nil =>
    cases hall
    exact parseProtocolList_nil
  | @last s listing hs n =>
    obtain ⟨entry, rest, hcovers, hrest, rfl⟩ := forall₂_cons_right_iff.mp hall
    cases hrest
    have hparse := parseSingleEntry_eq_some_iff.mpr ⟨listing, hs, hcovers⟩
    have hstep := parseProtocolList_entry n hs.notMem.1 hparse (t := []) (by simp) fun _ => rfl
    rw [append_nil, parseProtocolList_nil] at hstep
    exact hstep
  | @cons s t listing listings hs n ht hne ih =>
    obtain ⟨entry, rest, hcovers, hrest, rfl⟩ := forall₂_cons_right_iff.mp hall
    have hparse := parseSingleEntry_eq_some_iff.mpr ⟨listing, hs, hcovers⟩
    have hstep := parseProtocolList_entry (n + 1) hs.notMem.1 hparse ht.head_ne (by simp)
    rw [ih hrest] at hstep
    exact hstep

/-- **A string is accepted exactly if it is a list of entries with spaces between them, and maybe
behind the last one; and each mask is the union of the ranges that are written.** -/
theorem parseProtocolList_eq_some_iff (s : List Char) (sl : List ProtoEntry) :
    parseProtocolList s = some sl
      ↔ ∃ listings, IsEntryList s listings ∧ List.Forall₂ Covers sl listings := by
  constructor
  · exact isEntryList_of_parse
  · rintro ⟨listings, hlist, hall⟩
    exact parse_of_isEntryList hlist hall

/-- A space behind the last entry is accepted, although it separates nothing. -/
theorem parseProtocolList_trailingSpace :
    parseProtocolList "Link=1 ".toList = some [⟨"Link".toList, 2⟩]
      ∧ ¬ ∃ listings, IsSpaceSeparated "Link=1 ".toList listings := by
  refine ⟨by decide +kernel, ?_⟩
  rintro ⟨listings, texts, hall, htext⟩
  cases hall with
  | nil => cases htext
  | @cons t1 l1 texts listings h1 hall =>
    obtain ⟨hspace, -⟩ := h1.notMem
    cases hall with
    | nil =>
      rw [intercalate_singleton] at htext
      rw [← htext] at hspace
      exact hspace (by decide)
    | @cons t2 l2 texts listings h2 hall =>
      obtain ⟨-, hne⟩ := h2.notMem
      have hjoin : [' '].intercalate (t1 :: t2 :: texts)
          = t1 ++ ' ' :: [' '].intercalate (t2 :: texts) := by
        simp [intercalate]
      have hlink : fromDelim ' ' "Link=1 ".toList = [' '] := by decide
      rw [htext, hjoin, fromDelim_append hspace] at hlink
      have htail : [' '].intercalate (t2 :: texts) = [] := cons_injective hlink
      cases texts <;> simp [intercalate, hne] at htail

end Ator.Protover
