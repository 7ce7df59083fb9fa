import AtorProtocol.ConsDiff.Changes
import AtorProtocol.Lib.Lcs

/-!
# The lines kept are a longest common subsequence

`calc_changes` marks as few lines as it can.

* `calcChanges_longest` — the lines left unmarked are a longest common subsequence of the slices.
-/

namespace Ator.ConsDiff

open List

variable {s1 s2 t1 t2 : SmartlistSlice} {line : Line} {l p q : List Line} {b1 b2 : Bitarray}

/-- `smartlist_slice` is called with bounds inside of the list. -/
def SmartlistSlice.InBounds (slice : SmartlistSlice) : Prop :=
  slice.offset + slice.len ≤ slice.list.length

lemma SmartlistSlice.InBounds.length_lines (h : s1.InBounds) : s1.lines.length = s1.len := by
  rw [SmartlistSlice.lines, length_take, length_drop]
  rw [SmartlistSlice.InBounds] at h
  omega

/-! ## Rows of the table -/

lemma lcsRow_prefixLengths (l p q : List Line) (line : Line) :
    lcsRow line q (prefixLengths l p q) (lcsLength (l ++ [line]) p)
      = (prefixLengths (l ++ [line]) p q).tail := by
  induction q generalizing p with
  | nil =>
    rfl
  | cons c q ih =>
    obtain ⟨row, hrow⟩ := exists_prefixLengths l (p ++ [c]) q
    obtain ⟨row', hrow'⟩ := exists_prefixLengths (l ++ [line]) (p ++ [c]) q
    have hresult : (if line = c then lcsLength l p + 1
        else max (lcsLength (l ++ [line]) p) (lcsLength l (p ++ [c])))
        = lcsLength (l ++ [line]) (p ++ [c]) := by
      by_cases hc : line = c
      · rw [if_pos hc, hc, lcsLength_snoc_self]
      · rw [if_neg hc, lcsLength_snoc_of_ne hc, max_comm]
    rw [prefixLengths_cons, prefixLengths_cons, hrow, lcsRow, hresult, ← hrow, ih (p ++ [c]), hrow',
      tail_cons, tail_cons]

lemma foldl_lcsRow (done lines1 lines2 : List Line) :
    lines1.foldl (fun result line1 => 0 :: lcsRow line1 lines2 result 0)
        (prefixLengths done [] lines2) = prefixLengths (done ++ lines1) [] lines2 := by
  induction lines1 generalizing done with
  | nil => rw [foldl_nil, append_nil]
  | cons line lines1 ih =>
    have hstep := lcsRow_prefixLengths done [] lines2 line
    obtain ⟨row, hrow⟩ := exists_prefixLengths (done ++ [line]) [] lines2
    rw [lcsLength_nil_right] at hstep hrow
    rw [foldl_cons, hstep, hrow, tail_cons, ← hrow, ih, append_assoc, singleton_append]

/-- **`lcs_lengths`** computes a row of the table, for the slices or for the slices reversed. -/
lemma lcsLengths_eq (h2 : s2.InBounds) (reversed : Bool) :
    lcsLengths s1 s2 reversed = prefixLengths (if reversed then s1.lines.reverse else s1.lines) []
          (if reversed then s2.lines.reverse else s2.lines) := by
  have hlen : (if reversed then s2.lines.reverse else s2.lines).length = s2.len := by
    split
    · rw [length_reverse, h2.length_lines]
    · exact h2.length_lines
  rw [lcsLengths, ← hlen, ← prefixLengths_nil_left [], foldl_lcsRow, nil_append]

/-! ## The column to split at -/

lemma foldl_best {f : ℕ → ℤ} (hf : ∀ i, 0 ≤ f i) (n : ℕ) :
    let best := (List.range (n + 1)).foldl
      (fun (best : ℕ × ℤ) i => if f i > best.2 then (i, f i) else best) (0, -1)
    best.2 = f best.1 ∧ ∀ i ≤ n, f i ≤ best.2 := by
  induction n with
  | zero =>
    have h0 : f 0 > -1 := by
      have := hf 0
      omega
    rw [Nat.zero_add, range_one, foldl_cons, foldl_nil, if_pos h0]
    refine ⟨rfl, fun i hi => ?_⟩
    rw [Nat.le_zero.mp hi]
  | succ n ih =>
    obtain ⟨hbest, hmax⟩ := ih
    rw [range_succ, foldl_append, foldl_cons, foldl_nil]
    split
    · next hgt =>
        refine ⟨rfl, fun i hi => ?_⟩
        rcases Nat.le_succ_iff.mp hi with hi | rfl
        · exact (hmax i hi).trans hgt.lt.le
        · exact le_refl _
    · next hle =>
        refine ⟨hbest, fun i hi => ?_⟩
        rcases Nat.le_succ_iff.mp hi with hi | rfl
        · exact hmax i hi
        · exact not_lt.mp hle

lemma take_reverse_lines {k : ℕ} (h : k ≤ l.length) :
    l.reverse.take (l.length - k) = (l.drop k).reverse := by
  rw [take_reverse, Nat.sub_sub_self h]

/-- **Splitting at the column that the code chooses loses nothing.** -/
lemma lcsLength_optimalColumn (top bot : SmartlistSlice) (h2 : s2.InBounds) :
    lcsLength top.lines (s2.lines.take (optimalColumnToSplit top bot s2))
        + lcsLength bot.lines (s2.lines.drop (optimalColumnToSplit top bot s2))
      = lcsLength (top.lines ++ bot.lines) s2.lines := by
  have hlen := h2.length_lines
  have hsum : ∀ i ≤ s2.len, ((lcsLengths top s2 false).getD i 0
      + (lcsLengths bot s2 true).getD (s2.len - i) 0)
      = lcsLength top.lines (s2.lines.take i) + lcsLength bot.lines (s2.lines.drop i) := by
    intro i hi
    rw [lcsLengths_eq h2, lcsLengths_eq h2]
    simp only [Bool.false_eq_true, if_false, if_true]
    rw [getD_prefixLengths _ _ (by omega), getD_prefixLengths _ _ (by rw [length_reverse]; omega),
      ← hlen, take_reverse_lines (by omega), lcsLength_reverse]
  refine le_antisymm (lcsLength_le_append _ _ _ _) ?_
  obtain ⟨k, hk, hcut⟩ := exists_lcsLength_append top.lines bot.lines s2.lines
  obtain ⟨hbest, hmax⟩ := foldl_best (f := fun i : ℕ => (lcsLengths top s2 false).getD i 0
      + (lcsLengths bot s2 true).getD (s2.len - i) 0)
    (fun i => Int.add_nonneg (Int.natCast_nonneg _) (Int.natCast_nonneg _)) s2.len
  have hcolumn := optimalColumnToSplit_le top bot s2
  have hle := (hmax k (by omega)).trans_eq hbest
  rw [← hcut, ← hsum k (by omega), ← hsum _ hcolumn]
  exact_mod_cast hle

lemma SmartlistSlice.InBounds.lines_eq (h : s1.InBounds) :
    s1.lines = keptIn s1 fun _ => false := by
  have hkept : (keptIn s1 fun _ => false) = (range' s1.offset s1.len).map (lineAt s1.list) :=
    congrArg (map (lineAt s1.list)) (filter_eq_self.mpr fun _ _ => rfl)
  rw [hkept]
  refine ext_getElem (by rw [h.length_lines, length_map, length_range']) ?_
  intro i hi _
  rw [h.length_lines] at hi
  rw [SmartlistSlice.InBounds] at h
  simp only [SmartlistSlice.lines, getElem_take, getElem_drop, getElem_map,
    getElem_range', lineAt, Nat.one_mul, getD_eq_getElem?_getD]
  rw [getElem?_eq_getElem (by omega), Option.getD_some]

lemma SmartlistSlice.InBounds.mem_lines (h : s1.InBounds) :
    line ∈ s1.lines ↔ ∃ i, s1.offset ≤ i ∧ i < s1.offset + s1.len ∧ lineAt s1.list i = line := by
  rw [h.lines_eq, keptIn, kept]
  simp only [mem_map, mem_filter, mem_range'_1, Bool.not_false, and_true, and_assoc]

variable {mid : ℕ}

lemma SmartlistSlice.InBounds.upper (h : s1.InBounds) (hmid : mid ≤ s1.len) :
    (smartlistSlice s1.list s1.offset (s1.offset + mid)).InBounds := by
  simp only [SmartlistSlice.InBounds, smartlistSlice] at h ⊢
  omega

lemma SmartlistSlice.InBounds.lower (h : s1.InBounds) (hmid : mid ≤ s1.len) :
    (smartlistSlice s1.list (s1.offset + mid) (s1.offset + s1.len)).InBounds := by
  simp only [SmartlistSlice.InBounds, smartlistSlice] at h ⊢
  omega

lemma lines_upper (hmid : mid ≤ s1.len) :
    (smartlistSlice s1.list s1.offset (s1.offset + mid)).lines = s1.lines.take mid := by
  rw [SmartlistSlice.lines, SmartlistSlice.lines, take_take, min_eq_left hmid]
  simp only [smartlistSlice, Nat.add_sub_cancel_left]

lemma lines_lower :
    (smartlistSlice s1.list (s1.offset + mid) (s1.offset + s1.len)).lines = s1.lines.drop mid := by
  rw [SmartlistSlice.lines, SmartlistSlice.lines, drop_take, drop_drop]
  simp only [smartlistSlice, Nat.add_sub_add_left]

lemma stringPos_eq_none (h2 : s2.InBounds) :
    smartlistSliceStringPos s2 line = none ↔ line ∉ s2.lines := by
  rw [smartlistSliceStringPos, find?_eq_none, h2.mem_lines]
  simp only [mem_range'_1, decide_eq_true_eq]
  constructor
  · rintro h ⟨i, hlow, hhigh, hline⟩
    exact h i ⟨hlow, hhigh⟩ hline
  · intro h i hi hline
    exact h ⟨i, hi.1, hi.2, hline⟩

lemma length_keptIn_setChanged (hlen : s1.len ≤ 1) (h1 : s1.InBounds) (h2 : s2.InBounds)
    (hclear : Clear b1 s1) :
    (keptIn s1 (setChanged b1 b2 s1 s2).1).length = lcsLength s1.lines s2.lines := by
  rcases Nat.le_one_iff_eq_zero_or_eq_one.mp hlen with hzero | hone
  · rw [h1.lines_eq, keptIn, keptIn, hzero, kept_zero, kept_zero, lcsLength_nil_left, length_nil]
  · have hline : s1.lines = [lineAt s1.list s1.offset] := by
      rw [h1.lines_eq, keptIn, hone, kept_one]
      rfl
    rw [hline, lcsLength_singleton, keptIn, hone, kept_one, setChanged]
    simp only [hone, if_true, true_and, stringPos_eq_none h2]
    by_cases hmem : lineAt s1.list s1.offset ∈ s2.lines
    · rw [if_neg (not_not.mpr hmem), if_pos hmem, hclear _ (le_refl _) (by omega)]
      rfl
    · rw [if_pos hmem, if_neg hmem, bitarraySet, Function.update_self]
      rfl

/-! ## The induction -/

variable {m n : ℕ}

lemma Trims.symm (h : Trims s1 s2 t1 t2 m n) : Trims s2 s1 t2 t1 m n where
  list1 := h.list2
  list2 := h.list1
  offset1 := h.offset2
  offset2 := h.offset1
  len1 := h.len2
  len2 := h.len1
  start i hi := (h.start i hi).symm
  stop i hi := (h.stop i hi).symm

lemma Trims.inBounds (h : Trims s1 s2 t1 t2 m n) (h1 : s1.InBounds) : t1.InBounds := by
  have hlen := h.len1
  have hoff := h.offset1
  rw [SmartlistSlice.InBounds] at h1 ⊢
  rw [h.list1]
  omega

lemma Trims.keptIn_eq (h : Trims s1 s2 t1 t2 m n) (b : Bitarray) :
    keptIn s1 b = kept s1.list b s1.offset m ++ keptIn t1 b
      ++ kept s1.list b (s1.offset + m + t1.len) n := by
  rw [keptIn, keptIn, h.len1, kept_add, kept_add, h.list1, h.offset1, Nat.add_assoc s1.offset]

lemma Trims.ends_eq (h : Trims s1 s2 t1 t2 m n) (h1 : Clear b1 s1) (h2 : Clear b2 s2) :
    kept s1.list b1 s1.offset m = kept s2.list b2 s2.offset m
      ∧ kept s1.list b1 (s1.offset + m + t1.len) n
        = kept s2.list b2 (s2.offset + m + t2.len) n := by
  have hlen1 := h.len1
  have hlen2 := h.len2
  constructor
  · exact kept_eq_of_lines (fun i hi => h1 _ (by omega) (by omega))
      (fun i hi => h2 _ (by omega) (by omega)) h.start
  · exact kept_eq_of_lines (fun i hi => h1 _ (by omega) (by omega))
      (fun i hi => h2 _ (by omega) (by omega)) h.stop

lemma Trims.length_keptIn {d : Bitarray} (h : Trims s1 s2 t1 t2 m n) (h1 : s1.InBounds)
    (h2 : s2.InBounds) (hclear : Clear b1 s1) (hin : MarksInside b1 d t1)
    (hlongest : (keptIn t1 d).length = lcsLength t1.lines t2.lines) :
    (keptIn s1 d).length = lcsLength s1.lines s2.lines := by
  have hlen := h.len1
  have hoff := h.offset1
  have hends := h.ends_eq (show Clear (fun _ => false) s1 from fun _ _ _ => rfl)
    (show Clear (fun _ => false) s2 from fun _ _ _ => rfl)
  have hstart : kept s1.list d s1.offset m = kept s1.list (fun _ => false) s1.offset m :=
    kept_congr fun i hi hi' => by rw [hin i (by omega), hclear i hi (by omega)]
  have hstop : kept s1.list d (s1.offset + m + t1.len) n
      = kept s1.list (fun _ => false) (s1.offset + m + t1.len) n :=
    kept_congr fun i hi hi' => by rw [hin i (by omega), hclear i (by omega) (by omega)]
  rw [h1.lines_eq, h2.lines_eq, h.keptIn_eq, h.keptIn_eq, h.symm.keptIn_eq, hstart, hstop, ← hends.1,
    ← hends.2, lcsLength_append_append, ← (h.inBounds h1).lines_eq, ← (h.symm.inBounds h2).lines_eq,
    ← hlongest, length_append, length_append]

/-- As many lines are kept of the first slice as a common subsequence can have. -/
def KeepsLongest (s1 s2 : SmartlistSlice) (c d : Bitarray × Bitarray) : Prop :=
  s1.InBounds → s2.InBounds → Clear c.1 s1 → Clear c.2 s2 →
    (keptIn s1 d.1).length = lcsLength s1.lines s2.lines

lemma keepsLongest_of_parts {mid mid2 : ℕ} {c d e : Bitarray × Bitarray} (hmid : mid ≤ t1.len)
    (hmid2 : mid2 ≤ t2.len)
    (hcut : lcsLength (t1.lines.take mid) (t2.lines.take mid2)
      + lcsLength (t1.lines.drop mid) (t2.lines.drop mid2) = lcsLength t1.lines t2.lines)
    (hmarks : Marks (smartlistSlice t1.list t1.offset (t1.offset + mid))
      (smartlistSlice t2.list t2.offset (t2.offset + mid2)) c d)
    (hmarks' : Marks (smartlistSlice t1.list (t1.offset + mid) (t1.offset + t1.len))
      (smartlistSlice t2.list (t2.offset + mid2) (t2.offset + t2.len)) d e)
    (hd : KeepsLongest (smartlistSlice t1.list t1.offset (t1.offset + mid))
      (smartlistSlice t2.list t2.offset (t2.offset + mid2)) c d)
    (he : KeepsLongest (smartlistSlice t1.list (t1.offset + mid) (t1.offset + t1.len))
      (smartlistSlice t2.list (t2.offset + mid2) (t2.offset + t2.len)) d e) :
    KeepsLongest t1 t2 c e := by
  intro h1 h2 hc1 hc2
  obtain ⟨-, hin1, hin2⟩ := hmarks (hc1.upper hmid) (hc2.upper hmid2)
  obtain ⟨-, hin1', -⟩ := hmarks' (hc1.lower hin1) (hc2.lower hin2)
  have htop : keptIn (smartlistSlice t1.list t1.offset (t1.offset + mid)) e.1
      = keptIn (smartlistSlice t1.list t1.offset (t1.offset + mid)) d.1 :=
    keptIn_congr fun i _ hi => hin1' i (by simp only [smartlistSlice] at hi ⊢; omega)
  have hupper := hd (h1.upper hmid) (h2.upper hmid2) (hc1.upper hmid) (hc2.upper hmid2)
  have hlower := he (h1.lower hmid) (h2.lower hmid2) (hc1.lower hin1) (hc2.lower hin2)
  rw [lines_upper hmid, lines_upper hmid2] at hupper
  rw [lines_lower, lines_lower] at hlower
  calc (keptIn t1 e.1).length
      = (keptIn (smartlistSlice t1.list t1.offset (t1.offset + mid)) e.1).length
        + (keptIn (smartlistSlice t1.list (t1.offset + mid) (t1.offset + t1.len)) e.1).length := by
        rw [← length_append]
        exact congrArg length (keptIn_split t1.list e.1 t1.offset mid t1.len hmid)
    _ = lcsLength t1.lines t2.lines := by rw [htop, hupper, hlower, hcut]

lemma calcChanges_keepsLongest (s1 s2 : SmartlistSlice) (c : Bitarray × Bitarray) :
    KeepsLongest s1 s2 c (calcChanges s1 s2 c) := by
  induction s1, s2, c using calcChanges.induct with
  | case1 s1 s2 c trimmed t1 hlen =>
    intro h1 h2 hc1 hc2
    obtain ⟨m, n, htrims⟩ := trimSlices_trims s1 s2
    obtain ⟨ht1, ht2⟩ := htrims.clear hc1 hc2
    rw [calcChanges, dif_pos hlen]
    refine htrims.length_keptIn h1 h2 hc1 (setChanged_spec hlen ht1 ht2).2.1 ?_
    exact length_keptIn_setChanged hlen (htrims.inBounds h1) (htrims.symm.inBounds h2) ht1
  | case2 s1 s2 c trimmed t1 t2 hlen1 hlen2 =>
    intro h1 h2 hc1 hc2
    obtain ⟨m, n, htrims⟩ := trimSlices_trims s1 s2
    obtain ⟨ht1, ht2⟩ := htrims.clear hc1 hc2
    obtain ⟨hkept, -, hin⟩ := setChanged_spec hlen2 ht2 ht1
    rw [calcChanges, dif_neg hlen1, if_pos hlen2]
    refine htrims.length_keptIn h1 h2 hc1 hin ?_
    rw [lcsLength_comm, ← length_keptIn_setChanged hlen2 (htrims.symm.inBounds h2)
      (htrims.inBounds h1) ht2, hkept]
    rfl
  | case3 s1 s2 c trimmed t1 t2 hlen1 hlen2 mid top bot mid2 left right ih1 _ ih2 =>
    intro h1 h2 hc1 hc2
    obtain ⟨m, n, htrims⟩ := trimSlices_trims s1 s2
    obtain ⟨ht1, ht2⟩ := htrims.clear hc1 hc2
    have hmid : mid ≤ t1.len := Nat.div_le_self _ _
    have hmid2 : mid2 ≤ t2.len := optimalColumnToSplit_le top bot t2
    have hmarks := calcChanges_marks top left c
    have hmarks' := calcChanges_marks bot right (calcChanges top left c)
    have hcut : lcsLength (t1.lines.take mid) (t2.lines.take mid2)
        + lcsLength (t1.lines.drop mid) (t2.lines.drop mid2) = lcsLength t1.lines t2.lines := by
      have hcolumn := lcsLength_optimalColumn top bot (htrims.symm.inBounds h2)
      rwa [lines_upper hmid, lines_lower, take_append_drop] at hcolumn
    rw [calcChanges, dif_neg hlen1, if_neg hlen2]
    refine htrims.length_keptIn h1 h2 hc1 (marks_of_parts hmid hmid2 hmarks hmarks' ht1 ht2).2.1 ?_
    exact keepsLongest_of_parts hmid hmid2 hcut hmarks hmarks' ih1 ih2 (htrims.inBounds h1)
      (htrims.symm.inBounds h2) ht1 ht2

/-- **`calc_changes` finds a longest common subsequence.**  The lines that it leaves unmarked are the
same ones in both slices, every mark is inside of the slices, and no common subsequence of the
slices is longer. -/
theorem calcChanges_longest (s1 s2 : SmartlistSlice) (c : Bitarray × Bitarray)
    (h1 : s1.InBounds) (h2 : s2.InBounds) (hc1 : Clear c.1 s1) (hc2 : Clear c.2 s2) :
    let d := calcChanges s1 s2 c
    keptIn s1 d.1 = keptIn s2 d.2 ∧ MarksInside c.1 d.1 s1 ∧ MarksInside c.2 d.2 s2
      ∧ IsLcsLength s1.lines s2.lines (keptIn s1 d.1).length := by
  obtain ⟨hkept, hin1, hin2⟩ := calcChanges_marks s1 s2 c hc1 hc2
  refine ⟨hkept, hin1, hin2, ?_⟩
  rw [calcChanges_keepsLongest s1 s2 c h1 h2 hc1 hc2]
  exact isLcsLength_lcsLength s1.lines s2.lines

/-- Two lines that change places: one of them is kept. -/
theorem calcChanges_longest_swapped :
    IsLcsLength ["a".toList, "b".toList] ["b".toList, "a".toList]
      (keptIn ⟨["a".toList, "b".toList], 0, 2⟩
        (calcChanges ⟨["a".toList, "b".toList], 0, 2⟩ ⟨["b".toList, "a".toList], 0, 2⟩
          (fun _ => false, fun _ => false)).1).length :=
  (calcChanges_longest ⟨["a".toList, "b".toList], 0, 2⟩ ⟨["b".toList, "a".toList], 0, 2⟩
    (fun _ => false, fun _ => false) (le_refl 2) (le_refl 2) (fun _ _ _ => rfl) fun _ _ _ => rfl).2.2.2

end Ator.ConsDiff
