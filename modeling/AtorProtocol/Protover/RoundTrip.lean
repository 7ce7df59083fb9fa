import AtorProtocol.Protover.Codec

/-!
# The protocol-list codec

Encoding a list of entries and parsing the text gives the entries back, whenever the encoder is
defined on them; and it is defined exactly when no entry has every one of the 64 version bits.

The mask side is `bitmaskForRange_getLsbD` and `shiftLeft_eq_run_or`: the loop of the encoder
peels one maximal run of ones, and the range it prints sets exactly those bits.  The text side
is `parseRanges_encodeRanges`, by induction on the encoder's own loop.
-/

namespace Ator.Protover

open Text List Option

/-! ## Where the encoder is defined -/

variable {mask : BitVec 64}

lemma nextRun_eq_none (h0 : mask ≠ 0) :
    nextRun mask = none ↔ mask = BitVec.allOnes 64 := by
  rcases hz : trailingZeros mask with _ | z
  · exact absurd (trailingZeros_eq_none.mp hz) h0
  · have hne := shiftRight_zeros_ne_zero hz
    obtain ⟨hz64, hzbit, hzlow⟩ := trailingZeros_eq_some.mp hz
    have hrun : nextRun mask = none ↔ ~~~ (mask >>> z) = 0 := by
      rw [← trailingZeros_eq_none, nextRun]
      simp only [hz, if_neg hne]
      rcases trailingZeros (~~~ (mask >>> z)) with _ | o <;> simp
    rw [hrun]
    constructor
    · intro hall
      have hbits : ∀ i < 64, mask.getLsbD (z + i) = true := fun i hi => by
        have := congrArg (BitVec.getLsbD · i) hall
        simpa [hi] using this
      -- the last of these bits lies past the mask unless no zero was shifted out
      have hz0 : z = 0 := by
        by_contra hz0
        have := hbits 63 (by omega)
        rw [BitVec.getLsbD_of_ge _ _ (by omega)] at this
        cases this
      refine BitVec.eq_of_getLsbD_eq fun i hi => ?_
      have := hbits i hi
      rw [hz0, Nat.zero_add] at this
      rw [this, BitVec.getLsbD_allOnes]
      simp [hi]
    · rintro rfl
      have hz0 : z = 0 := by
        by_contra hz0
        have := hzlow 0 (by omega)
        simp at this
      subst hz0
      simp

/-- The bits that are left after `shift` of the 64 have been shifted out. -/
def FitsAfter (mask : BitVec 64) (shift : ℕ) : Prop := ∀ i, mask.getLsbD i = true → shift + i < 64

variable {shift zeros ones : ℕ}

lemma fitsAfter_run (hfit : FitsAfter mask shift) :
    FitsAfter (mask >>> zeros >>> ones) (shift + zeros + ones) := by
  intro i hi
  have := hfit (zeros + (ones + i)) (by simpa [Nat.add_assoc, Nat.add_left_comm] using hi)
  omega

lemma encodeRanges_zero (shift : ℕ) (first : Bool) : encodeRanges 0 shift first = some [] := by
  rw [encodeRanges]
  simp

/-- The separator the loop puts before a range. -/
def comma (first : Bool) : List Char := if first then [] else [',']

/-- What the loop prints for one run. -/
def runText (low ones : ℕ) : List Char :=
  if ones = 1 then decimal low else decimal low ++ '-' :: decimal (low + ones - 1)

/-- One round of the loop.  The exit for 64 ones is never taken, as 64 ones are the undefined
case of the count. -/
lemma encodeRanges_run {first : Bool} (h0 : mask ≠ 0)
    (h : nextRun mask = some (zeros, ones)) :
    encodeRanges mask shift first
      = (encodeRanges (mask >>> zeros >>> ones) (shift + zeros + ones) false).map
          (comma first ++ runText (shift + zeros) ones ++ ·) := by
  have hlt : ones ≠ 64 := by
    have := (nextRun_spec h).2.1
    omega
  rw [encodeRanges, dif_neg h0]
  split
  · next hn => rw [h] at hn; cases hn
  · next z o hs =>
      rw [h, some.injEq, Prod.mk.injEq] at hs
      obtain ⟨rfl, rfl⟩ := hs
      simp only [if_neg hlt, comma, runText]
      split <;> simp

lemma encodeRanges_allOnes (shift : ℕ) (first : Bool) :
    encodeRanges (BitVec.allOnes 64) shift first = none := by
  have h0 : BitVec.allOnes 64 ≠ 0 := by decide
  rw [encodeRanges, dif_neg h0]
  split
  · rfl
  · next z o hs => rw [(nextRun_eq_none h0).mpr rfl] at hs; cases hs

lemma encodeRanges_isSome (mask : BitVec 64) (shift : ℕ) (first : Bool)
    (h : mask ≠ BitVec.allOnes 64) : (encodeRanges mask shift first).isSome := by
  by_cases h0 : mask = 0
  · rw [h0, encodeRanges_zero]
    rfl
  · rcases hrun : nextRun mask with _ | ⟨zeros, ones⟩
    · exact absurd ((nextRun_eq_none h0).mp hrun) h
    · rw [encodeRanges_run h0 hrun, isSome_map]
      refine encodeRanges_isSome _ _ _ fun hall => ?_
      have htop := congrArg (BitVec.getLsbD · 63) hall
      have hpos := (nextRun_spec hrun).1
      simp only [BitVec.getLsbD_ushiftRight] at htop
      rw [BitVec.getLsbD_of_ge _ _ (by omega)] at htop
      simp at htop
termination_by mask.toNat
decreasing_by exact shiftRight_run_lt h0 hrun

lemma bitmaskForRange_getLsbD {low high : ℕ} (hle : low ≤ high) (hhigh : high < 64) (i : ℕ) :
    (bitmaskForRange low high).getLsbD i = decide (low ≤ i ∧ i ≤ high) := by
  simp only [bitmaskForRange, BitVec.getLsbD_shiftLeft, BitVec.getLsbD_ushiftRight,
    BitVec.getLsbD_allOnes]
  by_cases hi : low ≤ i ∧ i ≤ high
  · simp only [hi, and_self, decide_true]
    grind
  · simp only [hi, decide_false]
    grind

lemma shiftLeft_eq_run_or (hfit : FitsAfter mask shift)
    (h : nextRun mask = some (zeros, ones)) :
    mask <<< shift = bitmaskForRange (shift + zeros) (shift + zeros + ones - 1)
      ||| (mask >>> zeros >>> ones) <<< (shift + zeros + ones) := by
  obtain ⟨hpos, -, -, hlow, hrun, hstop⟩ := nextRun_spec h
  have hhigh := hfit (zeros + ones - 1) (hrun _ (by omega) (by omega))
  refine BitVec.eq_of_getLsbD_eq fun i hi => ?_
  rw [BitVec.getLsbD_or, bitmaskForRange_getLsbD (by omega) (by omega), BitVec.getLsbD_shiftLeft,
    BitVec.getLsbD_shiftLeft, BitVec.getLsbD_ushiftRight, BitVec.getLsbD_ushiftRight]
  by_cases h1 : i < shift
  · simp [h1, show i < shift + zeros + ones by omega, show ¬ shift + zeros ≤ i by omega]
  by_cases h2 : i < shift + zeros
  · simp [h1, hlow (i - shift) (by omega), show i < shift + zeros + ones by omega,
      show ¬ shift + zeros ≤ i by omega]
  by_cases h3 : i < shift + zeros + ones
  · have hlast : i ≤ shift + zeros + ones - 1 := by omega
    simp [h1, hi, hrun (i - shift) (by omega) (by omega), show shift + zeros ≤ i by omega, hlast]
  · have hidx : zeros + (ones + (i - (shift + zeros + ones))) = i - shift := by omega
    simp [h1, h3, hi, hidx, show ¬ i ≤ shift + zeros + ones - 1 by omega]

/-! ## Reading a printed range -/

lemma torParseUlong_decimal_append {n max : ℕ} {t : List Char} (hn : n ≤ max)
    (ht : ∀ c ∈ t.head?, c.isDigit = false) :
    torParseUlong (decimal n ++ t) max = some (n, t) := by
  rw [torParseUlong, digitsOf_decimal_append ht, afterDigits_decimal_append ht, digitsVal_decimal,
    if_pos hn]

lemma torParseUlong_decimal {n max : ℕ} (hn : n ≤ max) :
    torParseUlong (decimal n) max = some (n, []) := by
  have := torParseUlong_decimal_append hn (t := []) (by simp)
  rwa [append_nil] at this

lemma head?_decimal_append_any (n : ℕ) (t : List Char) :
    (decimal n ++ t).head?.any Char.isDigit = true := by
  obtain ⟨c, cs, hc, hdig⟩ := decimal_head_isDigit n
  simp [hc, hdig]

lemma head?_decimal_any (n : ℕ) : (decimal n).head?.any Char.isDigit = true := by
  have := head?_decimal_append_any n []
  rwa [append_nil] at this

variable {low ones : ℕ}

lemma parseVersionRange_runText (hpos : 0 < ones) (hfit : low + ones ≤ 64) :
    parseVersionRange (runText low ones) = some (low, low + ones - 1) := by
  have hlow : low ≤ maxProtocolVersion := by
    simp only [maxProtocolVersion]
    omega
  have hhigh : low + ones - 1 ≤ maxProtocolVersion := by
    simp only [maxProtocolVersion]
    omega
  rw [runText]
  split
  · next h1 =>
      rw [parseVersionRange, torParseUlong_decimal hlow]
      simp only [head?_decimal_any]
      simp [h1]
  · next h1 =>
      rw [parseVersionRange, torParseUlong_decimal_append hlow (by simp)]
      simp only [head?_decimal_append_any, head?_decimal_any, torParseUlong_decimal hhigh]
      simp [show ¬ low > low + ones - 1 by omega]

lemma notMem_runText {c : Char} (hd : c.isDigit = false) (hc : c ≠ '-') :
    c ∉ runText low ones := by
  rw [runText]
  split
  · exact notMem_decimal hd
  · simp only [mem_append, mem_cons, not_or]
    exact ⟨notMem_decimal hd, hc, notMem_decimal hd⟩

lemma runText_ne_nil (low ones : ℕ) : runText low ones ≠ [] := by
  obtain ⟨c, cs, hc, -⟩ := decimal_head_isDigit low
  rw [runText]
  split <;> simp [hc]

lemma parseRanges_nil (bitmask : BitVec 64) : parseRanges [] bitmask = some bitmask := by
  rw [parseRanges]
  simp

lemma parseRanges_last (hpos : 0 < ones) (hfit : low + ones ≤ 64)
    (bitmask : BitVec 64) :
    parseRanges (runText low ones) bitmask
      = some (bitmask ||| bitmaskForRange low (low + ones - 1)) := by
  have hsep : ',' ∉ runText low ones := notMem_runText rfl (by decide)
  rw [parseRanges, if_neg (runText_ne_nil low ones), beforeDelim_of_notMem hsep,
    fromDelim_of_notMem hsep]
  split
  · next hn => rw [parseVersionRange_runText hpos hfit] at hn; cases hn
  · next l h hs =>
      rw [parseVersionRange_runText hpos hfit, some.injEq, Prod.mk.injEq] at hs
      obtain ⟨rfl, rfl⟩ := hs
      simp [parseRanges_nil]

lemma parseRanges_cons {s : List Char} (hpos : 0 < ones) (hfit : low + ones ≤ 64)
    (hs : s ≠ []) (bitmask : BitVec 64) :
    parseRanges (runText low ones ++ ',' :: s) bitmask
      = parseRanges s (bitmask ||| bitmaskForRange low (low + ones - 1)) := by
  have hsep : ',' ∉ runText low ones := notMem_runText rfl (by decide)
  rw [parseRanges, if_neg (by simp), beforeDelim_append hsep, fromDelim_append hsep]
  split
  · next hn => rw [parseVersionRange_runText hpos hfit] at hn; cases hn
  · next l h hp =>
      rw [parseVersionRange_runText hpos hfit, some.injEq, Prod.mk.injEq] at hp
      obtain ⟨rfl, rfl⟩ := hp
      have hlen : 1 < (',' :: s).length := by
        rw [length_cons]
        have := length_pos_iff.mpr hs
        omega
      rw [if_pos hlen, tail_cons]

/-- **The loop of the parser undoes the loop of the encoder**, from any accumulated mask. -/
lemma parseRanges_encodeRanges (mask : BitVec 64) (shift : ℕ) (first : Bool) (text : List Char)
    (hfit : FitsAfter mask shift) (h : encodeRanges mask shift first = some text) :
    ∃ body, text = (if mask = 0 then [] else comma first) ++ body ∧ (mask ≠ 0 → body ≠ [])
      ∧ ' ' ∉ body ∧ ∀ acc, parseRanges body acc = some (acc ||| mask <<< shift) := by
  by_cases h0 : mask = 0
  · subst h0
    rw [encodeRanges_zero, some.injEq] at h
    subst h
    exact ⟨[], by simp, by simp, by simp, fun acc => by simp [parseRanges_nil]⟩
  · rcases hrun : nextRun mask with _ | ⟨zeros, ones⟩
    · rw [(nextRun_eq_none h0).mp hrun, encodeRanges_allOnes] at h
      cases h
    · obtain ⟨hpos, -, -, -, hbits, -⟩ := nextRun_spec hrun
      have hend : shift + zeros + ones ≤ 64 := by
        have := hfit (zeros + ones - 1) (hbits _ (by omega) (by omega))
        omega
      rw [encodeRanges_run h0 hrun, map_eq_some_iff] at h
      obtain ⟨rest, hrest, rfl⟩ := h
      obtain ⟨body, rfl, hne, hspace, hparse⟩ :=
        parseRanges_encodeRanges _ _ _ rest (fitsAfter_run hfit) hrest
      have hrunSpace : ' ' ∉ runText (shift + zeros) ones := notMem_runText rfl (by decide)
      by_cases h1 : mask >>> zeros >>> ones = 0
      · -- the last run: what is left of the mask adds no bit
        refine ⟨runText (shift + zeros) ones ++ body, ?_, fun _ => ?_, ?_, ?_⟩
        · rw [if_neg h0, if_pos h1, nil_append, append_assoc]
        · simp [runText_ne_nil]
        · simp [hrunSpace, hspace]
        · intro acc
          have hbody : body = [] := by
            rw [h1, encodeRanges_zero] at hrest
            simpa using hrest.symm
          rw [hbody, append_nil, parseRanges_last hpos hend, shiftLeft_eq_run_or hfit hrun, h1]
          simp
      · refine ⟨runText (shift + zeros) ones ++ ',' :: body, ?_, fun _ => ?_, ?_, ?_⟩
        · rw [if_neg h0, if_neg h1]
          simp [comma]
        · simp
        · simp [hrunSpace, hspace]
        · intro acc
          rw [parseRanges_cons hpos hend (hne h1), hparse, shiftLeft_eq_run_or hfit hrun,
            BitVec.or_assoc]
termination_by mask.toNat
decreasing_by exact shiftRight_run_lt h0 hrun

/-! ## Entries and lists -/

/-- A name the parser accepts. -/
def ValidName (name : List Char) : Prop :=
  name ≠ [] ∧ name.length ≤ maxProtocolNameLength ∧ isValidKeyword name = true

instance (name : List Char) : Decidable (ValidName name) := inferInstanceAs (Decidable (_ ∧ _ ∧ _))

lemma ValidName.notMem {name : List Char} (h : ValidName name) {c : Char}
    (hc : (c.isAlphanum || c == '-') = false) : c ∉ name := by
  intro hmem
  have := List.all_eq_true.mp h.2.2 c hmem
  rw [hc] at this
  cases this

lemma fitsAfter_zero (mask : BitVec 64) : FitsAfter mask 0 := by
  intro i hi
  by_contra hge
  rw [BitVec.getLsbD_of_ge _ _ (by omega)] at hi
  cases hi

variable {entry : ProtoEntry}

lemma parseSingleEntry_encode {text : List Char} (hname : ValidName entry.name)
    (h : protoEntryEncodeInto entry = some text) :
    text ≠ [] ∧ ' ' ∉ text ∧ parseSingleEntry text = some entry := by
  rw [protoEntryEncodeInto, map_eq_some_iff] at h
  obtain ⟨ranges, hranges, rfl⟩ := h
  obtain ⟨body, hbody, -, hspace, hparse⟩ :=
    parseRanges_encodeRanges _ _ _ ranges (fitsAfter_zero _) hranges
  have hbody' : ranges = body := by
    rw [hbody, comma]
    split <;> simp
  subst hbody'
  have heq : '=' ∉ entry.name := hname.notMem rfl
  refine ⟨by simp, ?_, ?_⟩
  · simp only [mem_append, mem_cons, not_or]
    exact ⟨hname.notMem rfl, by decide, hspace⟩
  · simp only [parseSingleEntry, beforeDelim_append heq, fromDelim_append heq, hparse]
    simp [hname.1, hname.2.1.not_gt, hname.2.2]

lemma validName_of_parseSingleEntry {s : List Char}
    (h : parseSingleEntry s = some entry) : ValidName entry.name := by
  simp only [parseSingleEntry] at h
  split at h
  · cases h
  · split_ifs at h with hnil hlen hkey
    obtain ⟨mask, -, rfl⟩ := map_eq_some_iff.mp h
    exact ⟨hnil, Nat.le_of_not_gt hlen, hkey⟩

lemma validName_of_parseProtocolList (s : List Char) (sl : List ProtoEntry)
    (h : parseProtocolList s = some sl) : ∀ e ∈ sl, ValidName e.name := by
  induction s using parseProtocolList.induct generalizing sl with
  | case1 =>
    rw [parseProtocolList, if_pos rfl, some.injEq] at h
    subst h
    simp
  | case2 s hne hnone =>
    rw [parseProtocolList, if_neg hne] at h
    split at h
    · cases h
    · next hs => rw [hnone] at hs; cases hs
  | case3 s hne entry hsome ih =>
    rw [parseProtocolList, if_neg hne] at h
    split at h
    · cases h
    · next e he =>
        obtain ⟨rest, hrest, rfl⟩ := map_eq_some_iff.mp h
        intro e' hmem
        rcases mem_cons.mp hmem with rfl | hmem
        · exact validName_of_parseSingleEntry he
        · exact ih rest hrest e' hmem

lemma protoEntryEncodeInto_isSome (entry : ProtoEntry) :
    (protoEntryEncodeInto entry).isSome ↔ entry.bitmask ≠ BitVec.allOnes 64 := by
  rw [protoEntryEncodeInto, isSome_map]
  constructor
  · intro h hall
    rw [hall, encodeRanges_allOnes] at h
    cases h
  · exact encodeRanges_isSome _ _ _

lemma encodeEntries_isSome (separator : List Char) (sl : List ProtoEntry) :
    (encodeEntries separator sl).isSome ↔ ∀ e ∈ sl, e.bitmask ≠ BitVec.allOnes 64 := by
  induction sl generalizing separator with
  | nil => simp [encodeEntries]
  | cons e sl ih =>
    rw [forall_mem_cons, ← protoEntryEncodeInto_isSome, ← ih [' '], encodeEntries]
    rcases protoEntryEncodeInto e with _ | chunk <;>
      rcases encodeEntries [' '] sl with _ | rest <;> simp

lemma parseProtocolList_nil : parseProtocolList [] = some [] := by
  rw [parseProtocolList]
  simp

lemma parseProtocolList_last {text : List Char} (hspace : ' ' ∉ text)
    (hparse : parseSingleEntry text = some entry) : parseProtocolList text = some [entry] := by
  have hne : text ≠ [] := by
    rintro rfl
    cases hparse
  rw [parseProtocolList, if_neg hne, beforeDelim_of_notMem hspace, fromDelim_of_notMem hspace]
  split
  · next hn => rw [hparse] at hn; cases hn
  · next e he =>
      rw [hparse, some.injEq] at he
      subst he
      simp [skipSpaces, parseProtocolList_nil]

lemma parseProtocolList_cons {text rest : List Char} (hspace : ' ' ∉ text)
    (hparse : parseSingleEntry text = some entry) (hrest : rest.head? ≠ some ' ') :
    parseProtocolList (text ++ ' ' :: rest) = (parseProtocolList rest).map (entry :: ·) := by
  have hskip : skipSpaces (' ' :: rest) = rest := by
    rw [skipSpaces, dropWhile_cons_of_pos (by simp)]
    rcases rest with _ | ⟨c, rest⟩
    · rfl
    · rw [dropWhile_cons_of_neg]
      simpa using hrest
  rw [parseProtocolList, if_neg (by simp), beforeDelim_append hspace, fromDelim_append hspace,
    hskip]
  split
  · next hn => rw [hparse] at hn; cases hn
  · next e he =>
      rw [hparse, some.injEq] at he
      rw [he]

/-- **Parsing inverts encoding** wherever the encoder is defined. -/
theorem parseProtocolList_encodeEntries : ∀ (sl : List ProtoEntry) (text : List Char),
    (∀ e ∈ sl, ValidName e.name) → encodeEntries [] sl = some text →
      text.head? ≠ some ' ' ∧ parseProtocolList text = some sl
  | [], text, _, h => by
      rw [encodeEntries, some.injEq] at h
      subst h
      exact ⟨by simp, parseProtocolList_nil⟩
  | e :: sl, text, hnames, h => by
      rw [encodeEntries] at h
      split at h
      · next chunk rest hchunk hrest =>
          rw [nil_append, some.injEq] at h
          subst h
          obtain ⟨hne, hspace, hparse⟩ := parseSingleEntry_encode (hnames e (by simp)) hchunk
          have hhead : ∀ t, (chunk ++ t).head? ≠ some ' ' := fun t ht => by
            obtain ⟨c, cs, rfl⟩ := exists_cons_of_ne_nil hne
            have : c = ' ' := by simpa using ht
            simp [this] at hspace
          refine ⟨hhead rest, ?_⟩
          cases sl with
          | nil =>
            rw [encodeEntries, some.injEq] at hrest
            rw [← hrest, append_nil, parseProtocolList_last hspace hparse]
          | cons e' sl =>
            -- the separator is the only difference between the two encodings of the others
            obtain ⟨tail, rfl, htail⟩ : ∃ tail, rest = ' ' :: tail
                ∧ encodeEntries [] (e' :: sl) = some tail := by
              rw [encodeEntries] at hrest ⊢
              split at hrest
              · next chunk' rest' _ _ =>
                  exact ⟨chunk' ++ rest', by simpa using hrest.symm, by simp⟩
              · cases hrest
            obtain ⟨hspace', ih⟩ := parseProtocolList_encodeEntries (e' :: sl) tail
              (fun e he => hnames e (mem_cons_of_mem _ he)) htail
            rw [parseProtocolList_cons hspace hparse hspace', ih]
            rfl
      · cases h

lemma encodeProtocolList_bind_iff {sl : List ProtoEntry} (hnames : ∀ e ∈ sl, ValidName e.name) :
    (encodeProtocolList sl).bind parseProtocolList = some sl
      ↔ ∀ e ∈ sl, e.bitmask ≠ BitVec.allOnes 64 := by
  rw [← encodeEntries_isSome [] sl, encodeProtocolList]
  rcases henc : encodeEntries [] sl with _ | text
  · simp
  · simp [(parseProtocolList_encodeEntries sl text hnames henc).2]

/-- **The codec round-trips exactly off the full mask**, on lists of entries with valid names and
on the strings the parser accepts alike. -/
theorem protocolList_roundTrip_iff (sl : List ProtoEntry)
    (h : (∀ e ∈ sl, ValidName e.name) ∨ ∃ s, parseProtocolList s = some sl) :
    (encodeProtocolList sl).bind parseProtocolList = some sl
      ↔ ∀ e ∈ sl, e.bitmask ≠ BitVec.allOnes 64 := by
  rcases h with hnames | ⟨s, hs⟩
  · exact encodeProtocolList_bind_iff hnames
  · exact encodeProtocolList_bind_iff (validName_of_parseProtocolList s sl hs)

theorem protocolList_roundTrip_iff_link :
    (encodeProtocolList [⟨"Link".toList, 0x3e⟩, ⟨"Relay".toList, 0x2e⟩]).bind parseProtocolList
      = some [⟨"Link".toList, 0x3e⟩, ⟨"Relay".toList, 0x2e⟩] :=
  (protocolList_roundTrip_iff _ (Or.inl (by decide))).mpr (by decide)

/-- `Link=0-63` is accepted, and its parse cannot be encoded. -/
theorem protocolList_roundTrip_fails :
    parseProtocolList "Link=0-63".toList = some [⟨"Link".toList, BitVec.allOnes 64⟩]
      ∧ (encodeProtocolList [⟨"Link".toList, BitVec.allOnes 64⟩]).bind parseProtocolList
          ≠ some [⟨"Link".toList, BitVec.allOnes 64⟩] := by
  constructor
  · decide +kernel
  · rw [encodeProtocolList, encodeEntries, protoEntryEncodeInto, encodeRanges_allOnes]
    simp

end Ator.Protover
