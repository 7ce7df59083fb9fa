import AtorProtocol.ConsDiff.RoundTrip
import AtorProtocol.Encoding.Codecs

/-!
# Consensus diffs between texts

`consensus_diff_generate` and `consensus_diff_apply` of `src/feature/dircommon/consdiff.c`: the
texts are split into lines, the diff carries the digests of both documents in its second line, and
the result is joined again.

* `consensusSplitLines`, `consensusJoinLines` — `consensusJoinLines_split`: joining undoes splitting.
* `consdiffGetDigests` — the digests in the header of a diff.
* `consensusDiff_roundTrip_iff` — a diff that is generated makes the target text out of the base
  text exactly when the target has no NUL in it, since the result is a C string.
-/

namespace Ator.ConsDiff

open Text List
open Option (some.inj)

/-! ## Texts and lines -/

/-- The character that ends a C string. -/
def nul : Char := Char.ofNat 0

def consensusLineMaxLen : ℕ := 2 ^ 20

/-- `consensus_split_lines`, with `none` for -1. -/
def consensusSplitLines (s : List Char) : Option (List Line) :=
  if s = [] then some [] else
  match _h : fromDelim '\n' s with
  | [] => none
  | _ :: next =>
    if (beforeDelim '\n' s).length > consensusLineMaxLen then none
    else (consensusSplitLines next).map (beforeDelim '\n' s :: ·)
termination_by s.length
decreasing_by
  have hle := fromDelim_length_le '\n' s
  rw [_h, length_cons] at hle
  exact hle

/-- `consensus_join_lines`: the buffer without the NUL behind it. -/
def consensusJoinLines (lines : List Line) : List Char := lines.flatMap fun line => line ++ ['\n']

/-- A line that the splitter can have found. -/
def IsLine (line : Line) : Prop := '\n' ∉ line ∧ line.length ≤ consensusLineMaxLen

variable {lines : List Line}

/-- **Joining undoes splitting.** -/
theorem consensusJoinLines_split {s : List Char}
    (h : consensusSplitLines s = some lines) : consensusJoinLines lines = s := by
  fun_induction consensusSplitLines s generalizing lines with
  | case1 => obtain rfl := some.inj h; rfl
  | case2 => cases h
  | case3 => cases h
  | case4 s hs c next hrest hlen ih =>
    obtain ⟨tail, htail, rfl⟩ := Option.map_eq_some_iff.mp h
    have hcut := beforeDelim_append_fromDelim '\n' s
    rw [hrest, fromDelim_eq_cons hrest] at hcut
    rw [consensusJoinLines, flatMap_cons, append_assoc]
    rw [show tail.flatMap (fun line => line ++ ['\n']) = next from ih htail]
    exact hcut

lemma isLine_of_mem_split {s : List Char}
    (h : consensusSplitLines s = some lines) : ∀ line ∈ lines, IsLine line := by
  fun_induction consensusSplitLines s generalizing lines with
  | case1 => obtain rfl := some.inj h; intro line hline; cases hline
  | case2 => cases h
  | case3 => cases h
  | case4 s hs c next hrest hlen ih =>
    obtain ⟨tail, htail, rfl⟩ := Option.map_eq_some_iff.mp h
    intro line hline
    rcases mem_cons.mp hline with rfl | hline
    · exact ⟨notMem_beforeDelim '\n' s, not_lt.mp hlen⟩
    · exact ih htail line hline

lemma consensusSplitLines_join (h : ∀ line ∈ lines, IsLine line) :
    consensusSplitLines (consensusJoinLines lines) = some lines := by
  induction lines with
  | nil => rw [consensusJoinLines, flatMap_nil, consensusSplitLines, if_pos rfl]
  | cons line lines ih =>
    obtain ⟨hnl, hlen⟩ := h line mem_cons_self
    have htext : consensusJoinLines (line :: lines) = line ++ '\n' :: consensusJoinLines lines := by
      rw [consensusJoinLines, flatMap_cons, append_assoc]
      rfl
    rw [htext, consensusSplitLines, if_neg (by simp), beforeDelim_append hnl]
    split
    · next hrest =>
        rw [fromDelim_append hnl] at hrest
        cases hrest
    · next c next hrest =>
        rw [fromDelim_append hnl] at hrest
        obtain ⟨rfl, rfl⟩ := List.cons.inj hrest
        rw [if_neg (not_lt.mpr hlen), ih fun line hline => h line (mem_cons_of_mem _ hline)]
        rfl

/-! ## The header of a diff -/

def digest256Len : ℕ := 32

def hexDigest256Len : ℕ := 64

structure ConsensusDigest where
  sha3_256 : Bytes
  length_eq : sha3_256.length = digest256Len

/-- `smartlist_split_string(sl, cp, " ", 0, max)`, where `more` pieces may come behind the first
one. -/
def splitAtSpaces : ℕ → List Char → List (List Char)
  | 0, cp => [cp]
  | more + 1, cp =>
    match fromDelim ' ' cp with
    | [] => [cp]
    | _ :: next => beforeDelim ' ' cp :: splitAtSpaces more next

/-- `consdiff_get_digests`, with `none` for 1. -/
def consdiffGetDigests : List Line → Option (Bytes × Bytes)
  | format :: line2 :: _ =>
    if format ≠ nsDiffVersion then none else
    -- the second line is copied into a C string
    match splitAtSpaces 3 (beforeDelim nul line2) with
    | [token, cons1HashHex, cons2HashHex] =>
      if token ≠ hashToken then none else
      if cons1HashHex.length ≠ hexDigest256Len ∨ cons2HashHex.length ≠ hexDigest256Len then none
      else
      match base16Decode digest256Len cons1HashHex hexDigest256Len,
          base16Decode digest256Len cons2HashHex hexDigest256Len with
      | some cons1Hash, some cons2Hash => some (cons1Hash, cons2Hash)
      | _, _ => none
    | _ => none
  | _ => none

/-! ## Generating and applying

The digest functions are any functions: `consensus_compute_digest` on a text, and
`consensus_compute_digest_as_signed`, with `none` for -1. -/

section Texts

variable (computeDigest computeDigestAsSigned : List Char → Option ConsensusDigest)

/-- `consdiff_apply_diff`; the result is a C string. -/
def consdiffApplyDiff (cons1 diff : List Line) (digests1 : ConsensusDigest) : Option (List Char) :=
  match consdiffGetDigests diff with
  | none => none
  | some (eCons1Hash, eCons2Hash) =>
    if digests1.sha3_256 ≠ eCons1Hash then none else
    match applyEdDiff cons1 diff 2 with
    | none => none
    | some cons2 =>
      let cons2Str := beforeDelim nul (consensusJoinLines cons2)
      match computeDigest cons2Str with
      | none => none
      | some cons2Digests =>
        if cons2Digests.sha3_256 ≠ eCons2Hash then none else some cons2Str

/-- `consensus_diff_generate`; the result is a C string. -/
def consensusDiffGenerate (cons1 cons2 : List Char) : Option (List Char) :=
  match computeDigestAsSigned cons1, computeDigest cons2 with
  | some d1, some d2 =>
    match consensusSplitLines cons1, consensusSplitLines cons2 with
    | some lines1, some lines2 =>
      (consdiffGenDiff lines1 lines2 d1.sha3_256 d2.sha3_256).map fun resultLines =>
        beforeDelim nul (consensusJoinLines resultLines)
    | _, _ => none
  | _, _ => none

def consensusDiffApply (consensus diff : List Char) : Option (List Char) :=
  match computeDigestAsSigned consensus with
  | none => none
  | some d1 =>
    match consensusSplitLines consensus, consensusSplitLines diff with
    | some lines1, some lines2 => consdiffApplyDiff computeDigest lines1 lines2 d1
    | _, _ => none

end Texts

/-! ## The header is read back -/

section Header

variable {b : Bytes} {c : Char} {cons1 cons2 diff : List Line} {line : Line}

lemma mem_base16Encode (hc : c ∈ base16Encode b) : ∃ n : Fin 16, c = base16Digit n := by
  induction b with
  | nil => cases hc
  | cons v b ih =>
    have hv := v.toNat_lt
    rcases mem_cons.mp hc with rfl | hc
    · exact ⟨⟨v.toNat >>> 4, by rw [Nat.shiftRight_eq_div_pow]; omega⟩, rfl⟩
    · rcases mem_cons.mp hc with rfl | hc
      · exact ⟨⟨v.toNat &&& 0xf, Nat.and_lt_two_pow (n := 4) _ (by omega)⟩, rfl⟩
      · exact ih hc

lemma base16Digit_ne (n : Fin 16) (hc : c = ' ' ∨ c = nul ∨ c = '\n') : base16Digit n ≠ c := by
  rcases hc with rfl | rfl | rfl <;> revert n <;> decide

lemma notMem_base16Encode (b : Bytes) (hc : c = ' ' ∨ c = nul ∨ c = '\n') :
    c ∉ base16Encode b := by
  intro hmem
  obtain ⟨n, hn⟩ := mem_base16Encode hmem
  exact base16Digit_ne n hc hn.symm

lemma ConsensusDigest.decode_encode (d : ConsensusDigest) :
    base16Decode digest256Len (base16Encode d.sha3_256) hexDigest256Len = some d.sha3_256
      ∧ (base16Encode d.sha3_256).length = hexDigest256Len := by
  have hlen : (base16Encode d.sha3_256).length = hexDigest256Len := by
    rw [base16Encode_length, d.length_eq]
    rfl
  refine ⟨?_, hlen⟩
  rw [base16Decode, if_neg (by decide), if_neg (by decide), if_neg hlen.not_lt, ← hlen,
    take_length, Binascii.base16DecodePairs_encode]

/-- The second line of a diff. -/
def hashLine (d1 d2 : ConsensusDigest) : Line :=
  hashToken ++ ' ' :: (base16Encode d1.sha3_256 ++ ' ' :: base16Encode d2.sha3_256)

lemma notMem_hashLine (d1 d2 : ConsensusDigest) (hc : c = nul ∨ c = '\n') :
    c ∉ hashLine d1 d2 := by
  have htoken : c ∉ hashToken := by rcases hc with rfl | rfl <;> decide
  have hspace : c ≠ ' ' := by rcases hc with rfl | rfl <;> decide
  simp [hashLine, htoken, hspace, notMem_base16Encode _ (.inr hc)]

/-- **The digests in the header of a diff are those that were written there.** -/
lemma consdiffGetDigests_header (d1 d2 : ConsensusDigest) (diff : List Line) :
    consdiffGetDigests (nsDiffVersion :: hashLine d1 d2 :: diff)
      = some (d1.sha3_256, d2.sha3_256) := by
  obtain ⟨hdecode1, hlen1⟩ := d1.decode_encode
  obtain ⟨hdecode2, hlen2⟩ := d2.decode_encode
  have htoken : ' ' ∉ hashToken := by decide
  have hhex1 := notMem_base16Encode d1.sha3_256 (c := ' ') (.inl rfl)
  have hhex2 := notMem_base16Encode d2.sha3_256 (c := ' ') (.inl rfl)
  have hsplit : splitAtSpaces 3 (hashLine d1 d2)
      = [hashToken, base16Encode d1.sha3_256, base16Encode d2.sha3_256] := by
    rw [hashLine, splitAtSpaces, fromDelim_append htoken, beforeDelim_append htoken]
    dsimp only
    rw [splitAtSpaces, fromDelim_append hhex1, beforeDelim_append hhex1]
    dsimp only
    rw [splitAtSpaces, fromDelim_of_notMem hhex2]
  rw [consdiffGetDigests, if_neg (by simp), beforeDelim_of_notMem (notMem_hashLine d1 d2 (.inl rfl)),
    hsplit]
  simp only [hdecode1, hdecode2, hlen1, hlen2, ne_eq, not_true_eq_false, or_self, if_false]

/-! ## The lines of a diff -/

lemma eq_of_zip_all {l1 l2 : List Line} (hlen : l1.length = l2.length)
    (h : (l1.zip l2).all fun p => p.1 == p.2) : l1 = l2 := by
  induction l1 generalizing l2 with
  | nil => exact (length_eq_zero_iff.mp hlen.symm).symm
  | cons a l1 ih =>
    cases l2 with
    | nil => cases hlen
    | cons b l2 =>
      rw [zip_cons_cons, all_cons, Bool.and_eq_true, beq_iff_eq] at h
      rw [show a = b from h.1, ih (Nat.succ.inj hlen) h.2]

lemma apply_of_selfCheck (h : selfCheck cons1 cons2 diff = true) :
    applyEdDiff cons1 diff 0 = some cons2 := by
  rw [selfCheck] at h
  split at h
  · cases h
  · next edCons2 happly =>
      rw [Bool.and_eq_true, beq_iff_eq] at h
      rw [happly, eq_of_zip_all h.1 h.2]

lemma applyCommands_suffix {j : ℤ} {tail : List Line}
    (h : applyCommands cons1 diff j tail = some cons2) : tail <:+ cons2 := by
  fun_induction applyCommands cons1 diff j tail with
  | case1 j tail =>
    obtain rfl := some.inj h
    exact suffix_append _ _
  | case2 => cases h
  | case3 => cases h
  | case4 diffLine diff j tail cmd hcmd hstop tail' j' hd ih =>
    exact (suffix_append _ _).trans (ih h)
  | case5 => cases h
  | case6 => cases h
  | case7 diffLine diff j tail cmd hcmd hstop tail' j' hd body dot rest hrest hbody ih =>
    exact ((suffix_append _ _).trans (suffix_append _ _)).trans (ih h)

lemma length_of_applyCommands {j : ℤ} {tail : List Line}
    (h : applyCommands cons1 diff j tail = some cons2) (hline : line ∈ diff) :
    line.length ≤ 127 ∨ line ∈ cons2 := by
  have hcommand : ∀ {cmd : EdCommand} {diffLine : Line},
      parseEdCommand cons1.length diffLine = some cmd → diffLine.length ≤ 127 := by
    intro cmd diffLine hcmd
    rw [parseEdCommand] at hcmd
    split_ifs at hcmd with hlen
    exact not_lt.mp hlen
  fun_induction applyCommands cons1 diff j tail with
  | case1 => cases hline
  | case2 => cases h
  | case3 => cases h
  | case4 diffLine diff j tail cmd hcmd hstop tail' j' hd ih =>
    rcases mem_cons.mp hline with rfl | hline
    · exact .inl (hcommand hcmd)
    · exact ih h hline
  | case5 => cases h
  | case6 => cases h
  | case7 diffLine diff j tail cmd hcmd hstop tail' j' hd body dot rest hrest hbody ih =>
    rcases mem_cons.mp hline with rfl | hline
    · exact .inl (hcommand hcmd)
    · rw [← takeWhile_append_dropWhile (p := (· ≠ ['.'])) (l := diff), hrest] at hline
      rcases mem_append.mp hline with hline | hline
      · have hsuffix := applyCommands_suffix h
        exact .inr (hsuffix.subset (mem_append_left _ hline))
      · rcases mem_cons.mp hline with rfl | hline
        · have hdot := head?_dropWhile_not (· ≠ ['.']) diff
          rw [hrest] at hdot
          left
          have : line = ['.'] := by simpa using hdot
          rw [this]
          decide
        · exact ih h hline

/-- The characters of a command line. -/
def IsCommandText (line : Line) : Prop := ∀ c ∈ line, c.isDigit ∨ c ∈ ",$acd".toList

lemma isCommandText_append {s t : Line} (hs : IsCommandText s) (ht : IsCommandText t) :
    IsCommandText (s ++ t) := by
  intro c hc
  rcases mem_append.mp hc with hc | hc
  · exact hs c hc
  · exact ht c hc

lemma isCommandText_decimal (n : ℕ) : IsCommandText (decimal n) :=
  fun _ hc => .inl (isDigit_of_mem_decimal hc)

lemma isCommandText_edCommandLine (start deleted added : ℕ) :
    IsCommandText (edCommandLine start deleted added) := by
  have hone : ∀ n : ℕ, ∀ c ∈ ",$acd".toList, IsCommandText (decimal n ++ [c]) := fun n c hc =>
    isCommandText_append (isCommandText_decimal n) fun d hd => by
      rw [mem_singleton.mp hd]
      exact .inr hc
  have htwo : ∀ n m : ℕ, ∀ c ∈ ",$acd".toList,
      IsCommandText (decimal n ++ ',' :: (decimal m ++ [c])) := fun n m c hc => by
    rw [append_cons]
    exact isCommandText_append (hone n ',' (by decide)) (hone m c hc)
  rw [edCommandLine]
  split_ifs
  · exact hone _ _ (by decide)
  · exact htwo _ _ _ (by decide)
  · exact hone _ _ (by decide)
  · exact hone _ _ (by decide)
  · exact htwo _ _ _ (by decide)

lemma mem_edCommands {changed1 changed2 : Bitarray} {n1 n2 : ℕ}
    (h : edCommands cons2 changed1 changed2 n1 n2 = some diff) (hline : line ∈ diff) :
    IsCommandText line ∨ line = ['.'] ∨ line ∈ cons2 := by
  fun_induction edCommands cons2 changed1 changed2 n1 n2 generalizing diff with
  | case1 => obtain rfl := some.inj h; cases hline
  | case2 n1 n2 h0 hmarks ih => exact ih h hline
  | case3 => cases h
  | case4 n1 n2 h0 hmarks m1 m2 added hdot =>
    rename_i ih
    obtain ⟨rest, hrest, rfl⟩ := Option.map_eq_some_iff.mp h
    rcases mem_append.mp hline with hline | hline
    · rcases mem_cons.mp hline with rfl | hline
      · exact .inl (isCommandText_edCommandLine _ _ _)
      · split_ifs at hline
        · cases hline
        · rcases mem_append.mp hline with hline | hline
          · exact .inr (.inr (mem_of_mem_drop (mem_of_mem_take hline)))
          · exact .inr (.inl (mem_singleton.mp hline))
    · exact ih hrest hline

lemma mem_genEdDiff (h : genEdDiff cons1 cons2 = some diff) (hline : line ∈ diff) :
    IsCommandText line ∨ line = ['.'] ∨ line ∈ cons2 := by
  have htrailer : ∀ n : ℕ, IsCommandText (decimal n ++ ",$d".toList) := fun n =>
    isCommandText_append (isCommandText_decimal n) fun c hc =>
      .inr ((by decide : ",$d".toList ⊆ ",$acd".toList) hc)
  rw [genEdDiff] at h
  split at h
  next cons trailer hpre =>
  split at h
  · cases h
  · next pairs hpairs =>
      obtain ⟨text, htext, rfl⟩ := Option.map_eq_some_iff.mp h
      rcases mem_append.mp hline with hline | hline
      · rw [preprocessConsensus] at hpre
        split_ifs at hpre
        · obtain ⟨-, rfl⟩ := Prod.mk.inj hpre
          obtain rfl := mem_singleton.mp hline
          exact .inl (htrailer _)
        · obtain ⟨-, rfl⟩ := Prod.mk.inj hpre
          cases hline
      · exact mem_edCommands htext hline

end Header

/-! ## From text to text -/

section RoundTrip

variable {computeDigest computeDigestAsSigned : List Char → Option ConsensusDigest}

lemma IsCommandText.notMem {line : Line} (h : IsCommandText line) {c : Char}
    (hc : c = nul ∨ c = '\n') : c ∉ line := by
  intro hmem
  rcases h c hmem with h | h
  · rcases hc with rfl | rfl <;> exact absurd h (by decide)
  · rcases hc with rfl | rfl <;> exact absurd h (by decide)

lemma notMem_join {c : Char} (hc : c ≠ '\n') (h : ∀ line ∈ lines, c ∉ line) :
    c ∉ consensusJoinLines lines := by
  intro hmem
  obtain ⟨line, hline, hmem⟩ := mem_flatMap.mp hmem
  rcases mem_append.mp hmem with hmem | hmem
  · exact h line hline hmem
  · exact hc (mem_singleton.mp hmem)

lemma notMem_of_notMem_join {c : Char} (h : c ∉ consensusJoinLines lines) :
    ∀ line ∈ lines, c ∉ line := fun line hline hmem =>
  h (mem_flatMap.mpr ⟨line, hline, mem_append_left _ hmem⟩)

lemma isLine_of_genDiff {cons1 cons2 diff : List Line} {d1 d2 : ConsensusDigest}
    (hcons2 : ∀ line ∈ cons2, IsLine line ∧ nul ∉ line)
    (h : consdiffGenDiff cons1 cons2 d1.sha3_256 d2.sha3_256 = some diff) :
    ∃ edDiff, diff = nsDiffVersion :: hashLine d1 d2 :: edDiff
      ∧ applyEdDiff cons1 edDiff 0 = some cons2
      ∧ ∀ line ∈ diff, IsLine line ∧ nul ∉ line := by
  rw [consdiffGenDiff] at h
  split at h
  · cases h
  · next edDiff hgen =>
      split_ifs at h with hself
      obtain rfl := some.inj h
      have happly := apply_of_selfCheck hself
      refine ⟨edDiff, rfl, happly, fun line hline => ?_⟩
      rcases mem_cons.mp hline with rfl | hline
      · exact ⟨⟨by decide, by decide⟩, by decide⟩
      rcases mem_cons.mp hline with rfl | hline
      · refine ⟨⟨notMem_hashLine d1 d2 (.inr rfl), ?_⟩, notMem_hashLine d1 d2 (.inl rfl)⟩
        change (hashLine d1 d2).length ≤ _
        simp only [hashLine, length_append, length_cons, d1.decode_encode.2, d2.decode_encode.2]
        decide
      · have hcommand : IsCommandText line → IsLine line ∧ nul ∉ line := by
          intro htext
          rcases length_of_applyCommands happly hline with hlen | hmem
          · exact ⟨⟨htext.notMem (.inr rfl), hlen.trans (by decide)⟩, htext.notMem (.inl rfl)⟩
          · exact hcons2 line hmem
        rcases mem_genEdDiff hgen hline with htext | rfl | hmem
        · exact hcommand htext
        · exact ⟨⟨by decide, by decide⟩, by decide⟩
        · exact hcons2 line hmem

/-- What is returned is a C string. -/
lemma nul_notMem_of_apply {cons1 diff cons2 : List Char}
    (h : consensusDiffApply computeDigest computeDigestAsSigned cons1 diff = some cons2) :
    nul ∉ cons2 := by
  rw [consensusDiffApply] at h
  split at h
  · cases h
  split at h
  · rw [consdiffApplyDiff] at h
    split at h
    · cases h
    split_ifs at h
    split at h
    · cases h
    dsimp only at h
    split at h
    · cases h
    split_ifs at h
    obtain rfl := some.inj h
    exact notMem_beforeDelim nul _
  · cases h

/-- **A generated diff makes the target text out of the base text, byte for byte, exactly when the
target is a C string; and joining the lines of a text that the splitter accepts gives the text
back.** -/
theorem consensusDiff_roundTrip_iff
    (computeDigest computeDigestAsSigned : List Char → Option ConsensusDigest) :
    (∀ s lines, consensusSplitLines s = some lines → consensusJoinLines lines = s)
      ∧ ∀ cons1 cons2 diff,
        consensusDiffGenerate computeDigest computeDigestAsSigned cons1 cons2 = some diff →
        (consensusDiffApply computeDigest computeDigestAsSigned cons1 diff = some cons2
          ↔ nul ∉ cons2) := by
  refine ⟨fun s lines => consensusJoinLines_split, fun cons1 cons2 diff h =>
    ⟨nul_notMem_of_apply, fun hnul => ?_⟩⟩
  rw [consensusDiffGenerate] at h
  split at h
  · next d1 d2 hd1 hd2 =>
      split at h
      · next lines1 lines2 hlines1 hlines2 =>
          obtain ⟨resultLines, hresult, rfl⟩ := Option.map_eq_some_iff.mp h
          have hjoin2 := consensusJoinLines_split hlines2
          have hcons2 : ∀ line ∈ lines2, IsLine line ∧ nul ∉ line := fun line hline =>
            ⟨isLine_of_mem_split hlines2 line hline,
              notMem_of_notMem_join (by rw [hjoin2]; exact hnul) line hline⟩
          obtain ⟨edDiff, rfl, happly, hlines⟩ := isLine_of_genDiff hcons2 hresult
          have htext : nul ∉ consensusJoinLines (nsDiffVersion :: hashLine d1 d2 :: edDiff) :=
            notMem_join (by decide) fun line hline => (hlines line hline).2
          have happly2 : applyEdDiff lines1 (nsDiffVersion :: hashLine d1 d2 :: edDiff) 2
              = some lines2 := happly
          rw [beforeDelim_of_notMem htext, consensusDiffApply, hd1]
          dsimp only
          rw [hlines1, consensusSplitLines_join fun line hline => (hlines line hline).1]
          dsimp only
          rw [consdiffApplyDiff, consdiffGetDigests_header]
          dsimp only
          rw [if_neg (not_not.mpr rfl), happly2]
          dsimp only
          rw [hjoin2, beforeDelim_of_notMem hnul, hd2]
          dsimp only
          rw [if_neg (not_not.mpr rfl)]
      · cases h
  · cases h

/-- A digest of zeros. -/
def zeroDigest : ConsensusDigest where
  sha3_256 := List.replicate digest256Len 0
  length_eq := length_replicate

theorem consensusDiff_roundTrip_iff_lines :
    ∃ diff, consensusDiffGenerate (fun _ => some zeroDigest) (fun _ => some zeroDigest)
          "a\nb\n".toList "a\nc\n".toList = some diff
      ∧ consensusDiffApply (fun _ => some zeroDigest) (fun _ => some zeroDigest)
          "a\nb\n".toList diff = some "a\nc\n".toList := by
  have h : (consensusDiffGenerate (fun _ => some zeroDigest) (fun _ => some zeroDigest)
      "a\nb\n".toList "a\nc\n".toList).isSome := by
    decide +kernel
  obtain ⟨diff, hdiff⟩ := Option.isSome_iff_exists.mp h
  exact ⟨diff, hdiff, ((consensusDiff_roundTrip_iff (fun _ => some zeroDigest)
    (fun _ => some zeroDigest)).2 _ _ diff hdiff).mpr (by decide)⟩

/-- A target text with a NUL in it: a diff is generated, and does not give the text back. -/
theorem consensusDiff_nul :
    ∃ diff, consensusDiffGenerate (fun _ => some zeroDigest) (fun _ => some zeroDigest)
          "a\n".toList ['b', nul, '\n'] = some diff
      ∧ consensusDiffApply (fun _ => some zeroDigest) (fun _ => some zeroDigest)
          "a\n".toList diff ≠ some ['b', nul, '\n'] := by
  have h : (consensusDiffGenerate (fun _ => some zeroDigest) (fun _ => some zeroDigest)
      "a\n".toList ['b', nul, '\n']).isSome := by
    decide +kernel
  obtain ⟨diff, hdiff⟩ := Option.isSome_iff_exists.mp h
  refine ⟨diff, hdiff, fun happly => ?_⟩
  exact nul_notMem_of_apply happly (by decide)

end RoundTrip

end Ator.ConsDiff
