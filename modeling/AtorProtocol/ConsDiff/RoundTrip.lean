import AtorProtocol.ConsDiff.EdScript

/-!
# A generated diff applies

* `parseEdCommand_edCommandLine` — every command that is written is read back.
* `applyCommands_edCommands` — the written commands turn the base document without its signatures
  into the target; the induction follows the generator's walk down both documents.
* `genEdDiff_roundTrip_iff` — the whole diff turns the base document into the target exactly when
  the command that deletes the signatures is well formed.
-/

namespace Ator.ConsDiff

open Text List

/-! ## Reading back a command line -/

lemma decimal_length_le {n : ℕ} (h : n ≤ int32Max) : (decimal n).length ≤ 10 :=
  Nat.toDigits_length 10 n 10 (by omega) (by rw [int32Max] at h; omega)

lemma parseEdCommand_one {n len1 : ℕ} (action : EdAction) (hn : n ≤ int32Max) :
    parseEdCommand len1 (decimal n ++ [action.letter]) = some ⟨n, n, action⟩ := by
  have hlen := decimal_length_le hn
  have hnul : Char.ofNat 0 ∉ decimal n ++ [action.letter] := by
    simp [notMem_decimal, (action.letter_ne (.inr rfl)).symm]
  exact parseEdCommand_of_isCommand (.line action (isNumber_decimal hn)) (by simp; omega) hnul

lemma parseEdCommand_two {n m len1 : ℕ} (action : EdAction) (ha : action ≠ .a) (hnm : n < m)
    (hm : m ≤ int32Max) :
    parseEdCommand len1 (decimal n ++ ',' :: (decimal m ++ [action.letter]))
      = some ⟨n, m, action⟩ := by
  have hlen1 := decimal_length_le (hnm.le.trans hm)
  have hlen2 := decimal_length_le hm
  have hnul : Char.ofNat 0 ∉ decimal n ++ ',' :: (decimal m ++ [action.letter]) := by
    simp [notMem_decimal, (action.letter_ne (.inr rfl)).symm]
  exact parseEdCommand_of_isCommand
    (.range (isNumber_decimal (hnm.le.trans hm)) (isNumber_decimal hm) hnm ha) (by simp; omega) hnul

/-- **Every command that is written is read back.** -/
theorem parseEdCommand_edCommandLine (start deleted added len1 : ℕ)
    (hle : start + deleted ≤ int32Max) (hpos : added = 0 → 0 < deleted) :
    parseEdCommand len1 (edCommandLine start deleted added)
      = some { start := if deleted = 0 then start else start + 1
               stop := start + deleted
               action := if added = 0 then .d else if deleted = 0 then .a else .c } := by
  rw [edCommandLine]
  by_cases hadd : added = 0
  · have hdel := hpos hadd
    rw [if_pos hadd, if_pos hadd, if_neg (by omega : ¬ deleted = 0)]
    split
    · next hone =>
        subst hone
        exact parseEdCommand_one .d hle
    · next hone => exact parseEdCommand_two .d (by simp) (by omega) hle
  · rw [if_neg hadd, if_neg hadd]
    split
    · next hzero =>
        subst hzero
        exact parseEdCommand_one .a hle
    · next hzero =>
        split
        · next hone =>
            subst hone
            exact parseEdCommand_one .c hle
        · next hone => exact parseEdCommand_two .c (by simp) (by omega) hle

/-! ## The walk down the documents -/

variable {list cons1 cons2 : List Line} {changed changed1 changed2 : Bitarray}

lemma kept_snoc (list : List Line) (changed : Bitarray) (n : ℕ) :
    kept list changed 0 (n + 1)
      = kept list changed 0 n ++ (if changed n then [] else [lineAt list n]) := by
  rw [kept_add, kept_one, Nat.zero_add]

lemma kept_skipMarked (list : List Line) (changed : Bitarray) :
    ∀ n, kept list changed 0 (skipMarked changed n) = kept list changed 0 n
  | 0 => rfl
  | n + 1 => by
      rw [skipMarked]
      split_ifs with h
      · rw [kept_skipMarked list changed n, kept_snoc, if_pos h, append_nil]
      · rfl

lemma kept_unmarked {n1 n2 : ℕ} (hkept : kept cons1 changed1 0 n1 = kept cons2 changed2 0 n2)
    (h0 : ¬ (n1 = 0 ∧ n2 = 0)) (h1 : ¬ topMarked changed1 n1) (h2 : ¬ topMarked changed2 n2) :
    0 < n1 ∧ 0 < n2 ∧ lineAt cons1 (n1 - 1) = lineAt cons2 (n2 - 1)
      ∧ kept cons1 changed1 0 (n1 - 1) = kept cons2 changed2 0 (n2 - 1) := by
  cases n1 with
  | zero =>
    obtain ⟨n2, rfl⟩ := Nat.exists_eq_succ_of_ne_zero (fun h => h0 ⟨rfl, h⟩)
    rw [topMarked] at h2
    rw [kept_snoc, if_neg h2] at hkept
    simp at hkept
  | succ n1 =>
    cases n2 with
    | zero =>
      rw [topMarked] at h1
      rw [kept_snoc, if_neg h1] at hkept
      simp at hkept
    | succ n2 =>
      rw [topMarked] at h1 h2
      rw [kept_snoc, kept_snoc, if_neg h1, if_neg h2] at hkept
      obtain ⟨hinit, hlast⟩ := append_inj' hkept rfl
      exact ⟨n1.succ_pos, n2.succ_pos, (cons.inj hlast).1, hinit⟩

lemma drop_eq_lineAt_cons {n : ℕ} (h0 : 0 < n) (h : n ≤ list.length) :
    list.drop (n - 1) = lineAt list (n - 1) :: list.drop n := by
  rw [drop_eq_getElem_cons (by omega), lineAt, getD_eq_getElem?_getD,
    getElem?_eq_getElem (by omega), Option.getD_some, Nat.sub_add_cancel h0]

lemma skipRemoved_edCommand (start deleted : ℕ) (action : EdAction)
    (ha : action = .a ↔ deleted = 0) :
    skipRemoved ⟨if deleted = 0 then start else start + 1, start + deleted, action⟩
      (start + deleted : ℕ) = start := by
  rw [skipRemoved]
  cases action with
  | a =>
    have hzero := ha.mp rfl
    simp [hzero]
  | c | d =>
    have hzero : deleted ≠ 0 := fun h => EdAction.noConfusion (ha.mpr h)
    simp only [if_neg hzero]
    omega

/-- One written command: it puts the lines of the target between `m2` and `n2` in the place of the
lines of the base document between `m1` and `n1`. -/
lemma applyCommands_edCommandLine {m1 n1 m2 n2 j : ℕ} {rest tail : List Line} (hm1 : m1 ≤ n1)
    (hj : n1 ≤ j) (hmax : n1 ≤ int32Max) (hm2 : m2 ≤ n2) (hn2 : n2 ≤ cons2.length)
    (hmore : n1 ≠ m1 ∨ n2 ≠ m2) (hdot : ['.'] ∉ (cons2.drop m2).take (n2 - m2))
    (htail : (cons1.take j).drop n1 ++ tail = cons2.drop n2) :
    applyCommands cons1 (edCommandLine m1 (n1 - m1) (n2 - m2)
        :: ((if n2 - m2 = 0 then [] else (cons2.drop m2).take (n2 - m2) ++ [['.']]) ++ rest)) j tail
      = applyCommands cons1 rest m1 (cons2.drop m2) := by
  have hcmd := parseEdCommand_edCommandLine m1 (n1 - m1) (n2 - m2) cons1.length
    (by omega) (by omega)
  have hstop : m1 + (n1 - m1) = n1 := by omega
  by_cases hadd : n2 - m2 = 0
  · have hskip := skipRemoved_edCommand m1 (n1 - m1) .d
      ⟨fun h => EdAction.noConfusion h, by omega⟩
    rw [if_pos hadd] at hcmd ⊢
    rw [nil_append, applyCommands_delete hcmd rfl (by simp only; omega), hskip,
      Int.toNat_natCast, hstop, htail, show n2 = m2 by omega]
  · have hlen : ((cons2.drop m2).take (n2 - m2)).length = n2 - m2 := by
      rw [length_take, length_drop]
      omega
    have hbody : (cons2.drop m2).take (n2 - m2) ≠ [] := by
      rintro h
      rw [h] at hlen
      exact hadd hlen.symm
    have hact : (if n1 - m1 = 0 then EdAction.a else .c) ≠ .d := by
      split <;> simp
    have hskip := skipRemoved_edCommand m1 (n1 - m1)
      (if n1 - m1 = 0 then .a else .c) (by split <;> simp [*])
    rw [if_neg hadd] at hcmd ⊢
    rw [append_assoc, singleton_append,
      applyCommands_insert hcmd hact (by simp only; omega) hbody hdot, hskip, Int.toNat_natCast,
      hstop, htail]
    congr 1
    rw [show n2 = m2 + (n2 - m2) by omega, ← drop_drop, Nat.add_sub_cancel_left, take_append_drop]

/-- **The written commands turn the base document into the target.**  Before each command the
applier has the first `j` lines of the base document left, and has built the target from line `n2`
on, but for the lines between `n1` and `j`, which both documents have. -/
theorem applyCommands_edCommands (n1 n2 : ℕ) {j : ℕ} {text tail : List Line} (hj : n1 ≤ j)
    (hlen : j ≤ cons1.length) (hmax : cons1.length ≤ int32Max) (hn2 : n2 ≤ cons2.length)
    (hkept : kept cons1 changed1 0 n1 = kept cons2 changed2 0 n2)
    (htail : (cons1.take j).drop n1 ++ tail = cons2.drop n2)
    (h : edCommands cons2 changed1 changed2 n1 n2 = some text) :
    applyCommands cons1 text j tail = some cons2 := by
  induction n1, n2 using edCommands.induct cons2 changed1 changed2 generalizing j text tail with
  | case1 n1 n2 h0 =>
    obtain ⟨rfl, rfl⟩ := h0
    rw [edCommands, dif_pos ⟨rfl, rfl⟩, Option.some.injEq] at h
    subst h
    rw [applyCommands, Int.toNat_natCast]
    simpa using htail
  | case2 n1 n2 h0 hno ih =>
    obtain ⟨hpos1, hpos2, hline, hkept⟩ := kept_unmarked hkept h0 hno.1 hno.2
    rw [edCommands, dif_neg h0, dif_pos hno] at h
    refine ih (by omega) hlen (by omega) hkept ?_ h
    rw [drop_eq_lineAt_cons hpos1 (by rw [length_take]; omega),
      drop_eq_lineAt_cons hpos2 hn2, cons_append, htail, ← hline, lineAt, lineAt,
      getD_eq_getElem?_getD, getD_eq_getElem?_getD, getElem?_take_of_lt (by omega)]
  | case3 n1 n2 h0 hsome m2 =>
    rename_i hdot
    rw [edCommands, dif_neg h0, dif_neg hsome] at h
    rw [if_pos hdot] at h
    cases h
  | case4 n1 n2 h0 hsome m1 m2 =>
    rename_i hdot ih
    rw [edCommands, dif_neg h0, dif_neg hsome] at h
    rw [if_neg hdot] at h
    obtain ⟨rest, hrest, rfl⟩ := Option.map_eq_some_iff.mp h
    have hm1 := skipMarked_le changed1 n1
    have hm2 := skipMarked_le changed2 n2
    have hmore : n1 ≠ m1 ∨ n2 ≠ m2 := by
      by_cases h1 : topMarked changed1 n1 = true
      · exact .inl (skipMarked_lt h1).ne'
      · exact .inr (skipMarked_lt (by_contra fun h2 => hsome ⟨h1, h2⟩)).ne'
    rw [cons_append, applyCommands_edCommandLine hm1 hj (by omega) hm2 hn2 hmore hdot htail]
    refine ih le_rfl (by omega) (by omega) ?_ ?_ hrest
    · rw [kept_skipMarked, kept_skipMarked, hkept]
    · rw [drop_eq_nil_of_le (by rw [length_take]; omega), nil_append]

/-! ## The whole diff -/

lemma kept_take {n len : ℕ} (h : len ≤ n) :
    kept (list.take n) changed 0 len = kept list changed 0 len := by
  rw [kept, kept]
  refine map_congr_left fun i hi => ?_
  have hi := mem_range'_1.mp (mem_of_mem_filter hi)
  rw [lineAt, lineAt, getD_eq_getElem?_getD, getD_eq_getElem?_getD, getElem?_take_of_lt (by omega)]

lemma parseEdCommand_trailer (idx len1 : ℕ) (hidx : idx < int32Max) :
    parseEdCommand len1 (decimal (idx + 1) ++ ",$d".toList)
      = if len1 ≤ idx + 1 then none else some ⟨idx + 1, len1, .d⟩ := by
  have hlen := decimal_length_le (n := idx + 1) hidx
  have hnul : Char.ofNat 0 ∉ decimal (idx + 1) ++ ",$d".toList := by
    rw [mem_append]
    rintro (h | h)
    · exact notMem_decimal rfl h
    · exact absurd h (by decide)
  have htext : decimal (idx + 1) ++ ",$d".toList = decimal (idx + 1) ++ ',' :: '$' :: ['d'] := rfl
  rw [parseEdCommand, if_neg (by simp; omega), beforeDelim_of_notMem hnul, htext,
    (isNumber_decimal hidx).parseRange_toEnd]
  split_ifs <;> rfl

lemma signatureIdx_le (cons : List Line) : signatureIdx cons ≤ cons.length := findIdx_le_length

lemma applyCommands_genEdDiff {pairs : List SlicePair} {text : List Line} {idx : ℕ}
    (hidx : idx ≤ cons1.length) (hmax : cons1.length ≤ int32Max)
    (hpairs : slicePairs (cons1.take idx) cons2 .init .init 0 0 = some pairs)
    (h : edCommands cons2 (changedLines (cons1.take idx) cons2 pairs).1
      (changedLines (cons1.take idx) cons2 pairs).2 idx cons2.length = some text) :
    applyCommands cons1 text idx [] = some cons2 := by
  have hkept := kept_changedLines hpairs
  rw [length_take, min_eq_left hidx, kept_take le_rfl] at hkept
  refine applyCommands_edCommands idx cons2.length le_rfl hidx hmax le_rfl hkept ?_ h
  rw [drop_eq_nil_of_le (by rw [length_take]; omega), drop_length, append_nil]

lemma selfCheck_of_apply {diff : List Line} (h : applyEdDiff cons1 diff 0 = some cons2) :
    selfCheck cons1 cons2 diff = true := by
  rw [selfCheck, h]
  simp only [beq_self_eq_true, Bool.true_and, all_eq_true, beq_iff_eq]
  rintro ⟨line1, line2⟩ hmem
  obtain ⟨i, hi⟩ := mem_iff_getElem?.mp hmem
  obtain ⟨h1, h2⟩ := getElem?_zip_eq_some.mp hi
  exact Option.some.inj (h1.symm.trans h2)

/-- **A diff that is generated can be applied, and gives the target document, exactly when the
base document does not end with its first signature line.** -/
theorem genEdDiff_roundTrip_iff (cons1 cons2 : Consensus) (diff : List Line)
    (h : genEdDiff cons1.lines cons2.lines = some diff) :
    (applyEdDiff cons1.lines diff 0 = some cons2.lines ∧ ∀ digests1 digests2,
          (consdiffGenDiff cons1.lines cons2.lines digests1 digests2).isSome)
      ↔ signatureIdx cons1.lines + 1 ≠ cons1.lines.length := by
  have hidx := signatureIdx_le cons1.lines
  have hmax := cons1.length_le
  have hself : applyEdDiff cons1.lines diff 0 = some cons2.lines → ∀ digests1 digests2,
      (consdiffGenDiff cons1.lines cons2.lines digests1 digests2).isSome := by
    intro happly digests1 digests2
    rw [consdiffGenDiff, h]
    simp [selfCheck_of_apply happly]
  rw [and_iff_left_of_imp hself]
  rw [genEdDiff, preprocessConsensus] at h
  split_ifs at h with hsig
  · simp only at h
    split at h
    · cases h
    · next pairs hpairs =>
        obtain ⟨text, htext, rfl⟩ := Option.map_eq_some_iff.mp h
        rw [length_take, min_eq_left hidx] at htext
        have htrailer := parseEdCommand_trailer (signatureIdx cons1.lines)
          cons1.lines.length (by omega)
        rw [applyEdDiff, drop_zero, Option.toList_some, singleton_append]
        constructor
        · rintro happly hlast
          rw [if_pos hlast.ge] at htrailer
          rw [applyCommands, htrailer] at happly
          cases happly
        · intro hlast
          rw [if_neg (by omega)] at htrailer
          have hskip : skipRemoved ⟨signatureIdx cons1.lines + 1, cons1.lines.length, .d⟩
              cons1.lines.length = signatureIdx cons1.lines := by
            simp only [skipRemoved]
            omega
          rw [applyCommands_delete htrailer rfl le_rfl, hskip, Int.toNat_natCast, take_length,
            drop_length]
          exact applyCommands_genEdDiff hidx hmax hpairs htext
  · simp only at h
    split at h
    · cases h
    · next pairs hpairs =>
        obtain ⟨text, htext, rfl⟩ := Option.map_eq_some_iff.mp h
        rw [applyEdDiff, drop_zero, Option.toList_none, nil_append, iff_true_right (by omega)]
        rw [← take_length (l := cons1.lines)] at hpairs
        refine applyCommands_genEdDiff le_rfl hmax hpairs ?_
        rw [take_length]
        exact htext

/-- A base document whose signatures are two lines long. -/
def signedConsensus : Consensus where
  lines := ["network-status-version 3".toList, "directory-signature sha256".toList,
    "-----BEGIN SIGNATURE-----".toList]
  length_le := by decide

/-- The same document, cut after the first line of its signatures. -/
def cutConsensus : Consensus where
  lines := ["network-status-version 3".toList, "directory-signature sha256".toList]
  length_le := by decide

/-- A target document. -/
def nextConsensus : Consensus where
  lines := ["network-status-version 3".toList, "vote-status consensus".toList]
  length_le := by decide

theorem genEdDiff_roundTrip_iff_signed :
    genEdDiff signedConsensus.lines nextConsensus.lines
        = some ["2,$d".toList, "1a".toList, "vote-status consensus".toList, ".".toList]
      ∧ applyEdDiff signedConsensus.lines
          ["2,$d".toList, "1a".toList, "vote-status consensus".toList, ".".toList] 0
        = some nextConsensus.lines := by
  have h : genEdDiff signedConsensus.lines nextConsensus.lines
      = some ["2,$d".toList, "1a".toList, "vote-status consensus".toList, ".".toList] := by
    decide +kernel
  exact ⟨h, ((genEdDiff_roundTrip_iff signedConsensus nextConsensus _ h).mpr
    (by decide +kernel)).1⟩

/-- The diff of a document that ends with its first signature line starts with `2,$d`, for a
document of two lines, and cannot be applied. -/
theorem genEdDiff_cut_fails :
    ∃ diff, genEdDiff cutConsensus.lines nextConsensus.lines = some diff
      ∧ applyEdDiff cutConsensus.lines diff 0 = none
      ∧ selfCheck cutConsensus.lines nextConsensus.lines diff = false :=
  ⟨["2,$d".toList, "1a".toList, "vote-status consensus".toList, ".".toList],
    by decide +kernel, by decide +kernel, by decide +kernel⟩

end Ator.ConsDiff
