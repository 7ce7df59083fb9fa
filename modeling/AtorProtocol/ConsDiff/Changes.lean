import Mathlib.Data.Int.Notation
import Mathlib.Data.List.Basic

/-!
# Marking what changed

The diff of two slices in `src/feature/dircommon/consdiff.c`: `calc_changes` trims what the
slices share at their ends, splits the first one in half and the second one at the column that
the lengths of longest common subsequences choose, and in the base case marks the lines that the
other slice does not have.

* `calcChanges` — with `trimSlices`, `setChanged`, `lcsLengths`, `optimalColumnToSplit`.
* `kept` — the lines of a stretch that are not marked.
* `calcChanges_marks` — the lines that are kept are the same on both sides, and nothing outside
  of the slices is marked.  Any column to split at would do for this.
-/

namespace Ator.ConsDiff

open List

/-- `cdline_t`: the characters of a line. -/
abbrev Line := List Char

/-- `smartlist_get`; the source never reads past the end. -/
def lineAt (list : List Line) (i : ℕ) : Line := list.getD i []

abbrev Bitarray := ℕ → Bool

def bitarraySet (b : Bitarray) (i : ℕ) : Bitarray := Function.update b i true

structure SmartlistSlice where
  list : List Line
  offset : ℕ
  len : ℕ
deriving DecidableEq

/-- `smartlist_slice(list, start, end)` -/
def smartlistSlice (list : List Line) (start stop : ℕ) : SmartlistSlice :=
  { list := list, offset := start, len := stop - start }

/-- The lines of a slice. -/
def SmartlistSlice.lines (slice : SmartlistSlice) : List Line :=
  (slice.list.drop slice.offset).take slice.len

/-! ## Longest common subsequences -/

/-- The inner loop of `lcs_lengths`, from the column after `left`: `prev` is the old row from that
column's left neighbour on. -/
def lcsRow (line1 : Line) : List Line → List ℕ → ℕ → List ℕ
  | line2 :: lines2, p :: q :: prev, left =>
    let result := if line1 = line2 then p + 1 else max left q
    result :: lcsRow line1 lines2 (q :: prev) result
  | _, _, _ => []

/-- `lcs_lengths(slice1, slice2, direction)`, with `reversed` for direction -1. -/
def lcsLengths (slice1 slice2 : SmartlistSlice) (reversed : Bool) : List ℕ :=
  let lines1 := if reversed then slice1.lines.reverse else slice1.lines
  let lines2 := if reversed then slice2.lines.reverse else slice2.lines
  lines1.foldl (fun result line1 => 0 :: lcsRow line1 lines2 result 0)
    (List.replicate (slice2.len + 1) 0)

def optimalColumnToSplit (top bot slice2 : SmartlistSlice) : ℕ :=
  let lensTop := lcsLengths top slice2 false
  let lensBot := lcsLengths bot slice2 true
  ((List.range (slice2.len + 1)).foldl (fun (best : ℕ × ℤ) i =>
    let sum : ℤ := lensTop.getD i 0 + lensBot.getD (slice2.len - i) 0
    if sum > best.2 then (i, sum) else best) (0, -1)).1

lemma foldl_best_mem {f : ℕ × ℤ → ℕ → ℕ × ℤ} (hf : ∀ b i, f b i = b ∨ (f b i).1 = i) :
    ∀ (l : List ℕ) (b : ℕ × ℤ), (l.foldl f b).1 = b.1 ∨ (l.foldl f b).1 ∈ l
  | [], b => .inl rfl
  | i :: l, b => by
      rw [foldl_cons]
      rcases foldl_best_mem hf l (f b i) with h | h
      · rcases hf b i with hb | hi
        · exact .inl (by rw [h, hb])
        · exact .inr (by rw [h, hi]; simp)
      · exact .inr (mem_cons_of_mem i h)

lemma optimalColumnToSplit_le (top bot slice2 : SmartlistSlice) :
    optimalColumnToSplit top bot slice2 ≤ slice2.len := by
  rw [optimalColumnToSplit]
  rcases foldl_best_mem (f := fun (best : ℕ × ℤ) i =>
    let sum : ℤ := (lcsLengths top slice2 false).getD i 0
      + (lcsLengths bot slice2 true).getD (slice2.len - i) 0
    if sum > best.2 then (i, sum) else best) (fun b i => by
      simp only
      split
      · exact .inr rfl
      · exact .inl rfl) (List.range (slice2.len + 1)) (0, -1) with h | h
  · simp only at h ⊢
    omega
  · rw [mem_range] at h
    omega

/-! ## Trimming -/

/-- The first loop of `trim_slices`. -/
def trimStart (slice1 slice2 : SmartlistSlice) : SmartlistSlice × SmartlistSlice :=
  if slice1.len > 0 ∧ slice2.len > 0
      ∧ lineAt slice1.list slice1.offset = lineAt slice2.list slice2.offset then
    trimStart { slice1 with offset := slice1.offset + 1, len := slice1.len - 1 }
      { slice2 with offset := slice2.offset + 1, len := slice2.len - 1 }
  else (slice1, slice2)
termination_by slice1.len

/-- The second loop; `i1` and `i2` are the last indices of the slices throughout. -/
def trimEnd (slice1 slice2 : SmartlistSlice) : SmartlistSlice × SmartlistSlice :=
  if slice1.len > 0 ∧ slice2.len > 0 ∧ lineAt slice1.list (slice1.offset + slice1.len - 1)
        = lineAt slice2.list (slice2.offset + slice2.len - 1) then
    trimEnd { slice1 with len := slice1.len - 1 } { slice2 with len := slice2.len - 1 }
  else (slice1, slice2)
termination_by slice1.len

def trimSlices (slice1 slice2 : SmartlistSlice) : SmartlistSlice × SmartlistSlice :=
  let trimmed := trimStart slice1 slice2
  trimEnd trimmed.1 trimmed.2

/-- `p` lines are trimmed at the start and `q` at the end, the same ones on both sides. -/
structure Trims (s1 s2 t1 t2 : SmartlistSlice) (p q : ℕ) : Prop where
  list1 : t1.list = s1.list
  list2 : t2.list = s2.list
  offset1 : t1.offset = s1.offset + p
  offset2 : t2.offset = s2.offset + p
  len1 : s1.len = p + t1.len + q
  len2 : s2.len = p + t2.len + q
  start : ∀ i < p, lineAt s1.list (s1.offset + i) = lineAt s2.list (s2.offset + i)
  stop : ∀ i < q, lineAt s1.list (s1.offset + p + t1.len + i)
    = lineAt s2.list (s2.offset + p + t2.len + i)

lemma trimStart_trims (s1 s2 : SmartlistSlice) :
    ∃ p, Trims s1 s2 (trimStart s1 s2).1 (trimStart s1 s2).2 p 0 := by
  induction s1, s2 using trimStart.induct with
  | case1 s1 s2 h ih =>
    obtain ⟨p, ih⟩ := ih
    obtain ⟨h1, h2, heq⟩ := h
    rw [trimStart, if_pos ⟨h1, h2, heq⟩]
    have hoff1 := ih.offset1
    have hoff2 := ih.offset2
    have hlen1 := ih.len1
    have hlen2 := ih.len2
    simp only at hoff1 hoff2 hlen1 hlen2
    refine ⟨p + 1, ih.list1, ih.list2, by omega, by omega, by omega, by omega, ?_, by simp⟩
    rintro (_ | i) hi
    · exact heq
    · have := ih.start i (by omega)
      simpa only [Nat.add_assoc, Nat.add_comm 1 i] using this
  | case2 s1 s2 h =>
    rw [trimStart, if_neg h]
    exact ⟨0, rfl, rfl, rfl, rfl, by simp, by simp, by simp, by simp⟩

lemma trimEnd_trims (s1 s2 : SmartlistSlice) :
    ∃ q, Trims s1 s2 (trimEnd s1 s2).1 (trimEnd s1 s2).2 0 q := by
  induction s1, s2 using trimEnd.induct with
  | case1 s1 s2 h ih =>
    obtain ⟨q, ih⟩ := ih
    obtain ⟨h1, h2, heq⟩ := h
    rw [trimEnd, if_pos ⟨h1, h2, heq⟩]
    have hlen1 := ih.len1
    have hlen2 := ih.len2
    simp only at hlen1 hlen2
    refine ⟨q + 1, ih.list1, ih.list2, ih.offset1, ih.offset2, by omega, by omega, by simp,
      fun i hi => ?_⟩
    by_cases hiq : i < q
    · exact ih.stop i hiq
    · convert heq using 2 <;> omega
  | case2 s1 s2 h =>
    rw [trimEnd, if_neg h]
    exact ⟨0, rfl, rfl, rfl, rfl, by simp, by simp, by simp, by simp⟩

lemma trimSlices_trims (s1 s2 : SmartlistSlice) :
    ∃ p q, Trims s1 s2 (trimSlices s1 s2).1 (trimSlices s1 s2).2 p q := by
  obtain ⟨p, hp⟩ := trimStart_trims s1 s2
  obtain ⟨q, hq⟩ := trimEnd_trims (trimStart s1 s2).1 (trimStart s1 s2).2
  have hplen1 := hp.len1
  have hplen2 := hp.len2
  have hqlen1 := hq.len1
  have hqlen2 := hq.len2
  have hpoff1 := hp.offset1
  have hpoff2 := hp.offset2
  have hqoff1 := hq.offset1
  have hqoff2 := hq.offset2
  refine ⟨p, q, hq.list1.trans hp.list1, hq.list2.trans hp.list2, ?_, ?_, ?_, ?_, hp.start,
    fun i hi => ?_⟩
  · rw [trimSlices]
    omega
  · rw [trimSlices]
    omega
  · rw [trimSlices]
    omega
  · rw [trimSlices]
    omega
  · have := hq.stop i hi
    rw [hp.list1, hp.list2, hpoff1, hpoff2] at this
    exact this

lemma trimSlices_len_le (s1 s2 : SmartlistSlice) : (trimSlices s1 s2).1.len ≤ s1.len := by
  obtain ⟨p, q, h⟩ := trimSlices_trims s1 s2
  have := h.len1
  omega

def smartlistSliceStringPos (slice : SmartlistSlice) (string : Line) : Option ℕ :=
  (List.range' slice.offset slice.len).find? fun i => lineAt slice.list i = string

/-- The first slice must be of length 0 or 1. -/
def setChanged (changed1 changed2 : Bitarray) (slice1 slice2 : SmartlistSlice) :
    Bitarray × Bitarray :=
  let toskip := if slice1.len = 1 then
      smartlistSliceStringPos slice2 (lineAt slice1.list slice1.offset)
    else none
  let changed1 := if slice1.len = 1 ∧ toskip = none then bitarraySet changed1 slice1.offset
    else changed1
  (changed1, (List.range' slice2.offset slice2.len).foldl
    (fun changed2 i => if some i ≠ toskip then bitarraySet changed2 i else changed2) changed2)

/-- `calc_changes`, on the two bit arrays as a pair. -/
def calcChanges (slice1 slice2 : SmartlistSlice) (changed : Bitarray × Bitarray) :
    Bitarray × Bitarray :=
  let trimmed := trimSlices slice1 slice2
  let t1 := trimmed.1
  let t2 := trimmed.2
  if _h1 : t1.len ≤ 1 then setChanged changed.1 changed.2 t1 t2
  else if t2.len ≤ 1 then (setChanged changed.2 changed.1 t2 t1).swap
  else
    let mid := t1.len / 2
    let top := smartlistSlice t1.list t1.offset (t1.offset + mid)
    let bot := smartlistSlice t1.list (t1.offset + mid) (t1.offset + t1.len)
    let mid2 := optimalColumnToSplit top bot t2
    let left := smartlistSlice t2.list t2.offset (t2.offset + mid2)
    let right := smartlistSlice t2.list (t2.offset + mid2) (t2.offset + t2.len)
    calcChanges bot right (calcChanges top left changed)
termination_by slice1.len
decreasing_by
  · have hle := trimSlices_len_le slice1 slice2
    have hlen : ¬ (trimSlices slice1 slice2).1.len ≤ 1 := _h1
    simp only [smartlistSlice]
    omega
  · have hle := trimSlices_len_le slice1 slice2
    have hlen : ¬ (trimSlices slice1 slice2).1.len ≤ 1 := _h1
    simp only [smartlistSlice]
    omega

/-! ## What is kept -/

/-- The lines of a stretch that are not marked. -/
def kept (list : List Line) (changed : Bitarray) (start len : ℕ) : List Line :=
  ((List.range' start len).filter fun i => !changed i).map (lineAt list)

variable {list list1 list2 : List Line} {b b' b1 b2 : Bitarray} {s1 s2 t1 t2 : SmartlistSlice}

@[simp] lemma kept_zero (list : List Line) (b : Bitarray) (start : ℕ) : kept list b start 0 = [] :=
  rfl

lemma kept_add (list : List Line) (b : Bitarray) (start m n : ℕ) :
    kept list b start (m + n) = kept list b start m ++ kept list b (start + m) n := by
  rw [kept, ← range'_append_1, filter_append, map_append]
  rfl

lemma kept_congr {start len : ℕ} (h : ∀ i, start ≤ i → i < start + len → b i = b' i) :
    kept list b start len = kept list b' start len := by
  rw [kept, kept]
  congr 1
  refine filter_congr fun i hi => ?_
  rw [mem_range'_1] at hi
  rw [h i hi.1 hi.2]

lemma kept_eq_nil {start len : ℕ} (h : ∀ i, start ≤ i → i < start + len → b i = true) :
    kept list b start len = [] := by
  rw [kept, map_eq_nil_iff, filter_eq_nil_iff]
  intro i hi
  rw [mem_range'_1] at hi
  simp [h i hi.1 hi.2]

lemma kept_one (list : List Line) (b : Bitarray) (start : ℕ) :
    kept list b start 1 = if b start then [] else [lineAt list start] := by
  cases h : b start <;> simp [kept, h]

lemma kept_eq_of_lines {start1 start2 : ℕ} : ∀ {len : ℕ},
    (∀ i < len, b1 (start1 + i) = false) → (∀ i < len, b2 (start2 + i) = false) →
      (∀ i < len, lineAt list1 (start1 + i) = lineAt list2 (start2 + i)) →
      kept list1 b1 start1 len = kept list2 b2 start2 len
  | 0, _, _, _ => rfl
  | n + 1, h1, h2, h => by
      rw [kept_add, kept_add, kept_one, kept_one, h1 n (by omega), h2 n (by omega), h n (by omega),
        kept_eq_of_lines (fun i hi => h1 i (by omega)) (fun i hi => h2 i (by omega))
          fun i hi => h i (by omega)]

/-- No line of the slice is marked. -/
def Clear (b : Bitarray) (slice : SmartlistSlice) : Prop :=
  ∀ i, slice.offset ≤ i → i < slice.offset + slice.len → b i = false

/-- No line outside of the slice is marked anew. -/
def MarksInside (b b' : Bitarray) (slice : SmartlistSlice) : Prop :=
  ∀ i, i < slice.offset ∨ slice.offset + slice.len ≤ i → b' i = b i

/-- The lines of the slice that are not marked. -/
def keptIn (slice : SmartlistSlice) (b : Bitarray) : List Line :=
  kept slice.list b slice.offset slice.len

lemma foldl_mark (toskip : Option ℕ) : ∀ (len start : ℕ) (b : Bitarray) (k : ℕ),
    ((List.range' start len).foldl
      (fun b i => if some i ≠ toskip then bitarraySet b i else b) b) k
      = if start ≤ k ∧ k < start + len ∧ some k ≠ toskip then true else b k
  | 0, start, b, k => by
      rw [if_neg (by omega)]
      rfl
  | len + 1, start, b, k => by
      rw [range'_succ, foldl_cons, foldl_mark toskip len (start + 1)]
      by_cases hk : k = start
      · subst hk
        by_cases hskip : some k = toskip
        · simp [hskip]
        · simp [hskip, bitarraySet]
      · have hset : (if some start ≠ toskip then bitarraySet b start else b) k = b k := by
          split
          · exact Function.update_of_ne hk _ _
          · rfl
        rw [hset]
        refine if_congr ?_ rfl rfl
        constructor
        · rintro ⟨h1, h2, h3⟩
          exact ⟨by omega, by omega, h3⟩
        · rintro ⟨h1, h2, h3⟩
          exact ⟨by omega, by omega, h3⟩

variable {slice : SmartlistSlice}

lemma stringPos_eq_some {string : Line} {p : ℕ}
    (h : smartlistSliceStringPos slice string = some p) :
    slice.offset ≤ p ∧ p < slice.offset + slice.len ∧ lineAt slice.list p = string := by
  have hmem := mem_of_find?_eq_some h
  rw [mem_range'_1] at hmem
  exact ⟨hmem.1, hmem.2, by simpa using find?_some h⟩

lemma keptIn_singleton {p : ℕ} (hlow : s1.offset ≤ p) (hhigh : p < s1.offset + s1.len)
    (hp : b p = false) (h : ∀ i, s1.offset ≤ i → i < s1.offset + s1.len → i ≠ p → b i = true) :
    keptIn s1 b = [lineAt s1.list p] := by
  have hlen : s1.len = (p - s1.offset) + (1 + (s1.offset + s1.len - p - 1)) := by omega
  rw [keptIn, hlen, kept_add, kept_add, show s1.offset + (p - s1.offset) = p by omega, kept_one, hp,
    kept_eq_nil fun i h1 h2 => h i h1 (by omega) (by omega),
    kept_eq_nil fun i h1 h2 => h i (by omega) (by omega) (by omega)]
  rfl

lemma setChanged_spec (hlen : s1.len ≤ 1) (h1 : Clear b1 s1) (h2 : Clear b2 s2) :
    keptIn s1 (setChanged b1 b2 s1 s2).1 = keptIn s2 (setChanged b1 b2 s1 s2).2
      ∧ MarksInside b1 (setChanged b1 b2 s1 s2).1 s1
      ∧ MarksInside b2 (setChanged b1 b2 s1 s2).2 s2 := by
  have hinside : ∀ toskip, MarksInside b2 ((List.range' s2.offset s2.len).foldl
      (fun b i => if some i ≠ toskip then bitarraySet b i else b) b2) s2 := fun toskip i hi => by
    rw [foldl_mark, if_neg (by omega)]
  have hall : keptIn s2 ((List.range' s2.offset s2.len).foldl
      (fun b i => if some i ≠ none then bitarraySet b i else b) b2) = [] :=
    kept_eq_nil fun i hi hi' => by rw [foldl_mark, if_pos ⟨hi, hi', by simp⟩]
  rw [setChanged]
  by_cases hone : s1.len = 1
  · simp only [if_pos hone]
    rcases hpos : smartlistSliceStringPos s2 (lineAt s1.list s1.offset) with _ | p
    · -- the line is gone, and the lines of the other slice are all new
      rw [if_pos ⟨hone, rfl⟩]
      refine ⟨?_, fun i hi => Function.update_of_ne (by omega) _ _, hinside none⟩
      rw [hall, keptIn, hone, kept_one]
      simp [bitarraySet]
    · obtain ⟨hlow, hhigh, hline⟩ := stringPos_eq_some hpos
      rw [if_neg (by simp)]
      refine ⟨?_, fun i hi => rfl, hinside _⟩
      rw [keptIn_singleton hlow hhigh, hline, keptIn, hone, kept_one, h1 _ (Nat.le_refl _) (by omega)]
      · rfl
      · rw [foldl_mark, if_neg (by simp)]
        exact h2 p hlow hhigh
      · intro i hi hi' hne
        rw [foldl_mark, if_pos ⟨hi, hi', by simpa using hne⟩]
  · simp only [hone, false_and, if_false]
    refine ⟨?_, fun i hi => rfl, hinside none⟩
    rw [hall, keptIn, show s1.len = 0 by omega, kept_zero]

lemma Trims.clear {p q : ℕ} (h : Trims s1 s2 t1 t2 p q) (h1 : Clear b1 s1) (h2 : Clear b2 s2) :
    Clear b1 t1 ∧ Clear b2 t2 := by
  have hlen1 := h.len1
  have hlen2 := h.len2
  have hoff1 := h.offset1
  have hoff2 := h.offset2
  exact ⟨fun i hi hi' => h1 i (by omega) (by omega), fun i hi hi' => h2 i (by omega) (by omega)⟩

lemma Trims.spec {p q : ℕ} {d1 d2 : Bitarray} (h : Trims s1 s2 t1 t2 p q) (h1 : Clear b1 s1)
    (h2 : Clear b2 s2) (hkept : keptIn t1 d1 = keptIn t2 d2) (hin1 : MarksInside b1 d1 t1)
    (hin2 : MarksInside b2 d2 t2) :
    keptIn s1 d1 = keptIn s2 d2 ∧ MarksInside b1 d1 s1 ∧ MarksInside b2 d2 s2 := by
  have hlen1 := h.len1
  have hlen2 := h.len2
  have hoff1 := h.offset1
  have hoff2 := h.offset2
  refine ⟨?_, fun i hi => hin1 i (by omega), fun i hi => hin2 i (by omega)⟩
  rw [keptIn, keptIn, hlen1, hlen2, kept_add, kept_add, kept_add, kept_add]
  rw [keptIn, keptIn, h.list1, h.list2, hoff1, hoff2] at hkept
  rw [hkept]
  congr 1
  · congr 1
    refine kept_eq_of_lines (fun i hi => ?_) (fun i hi => ?_) h.start
    · rw [hin1 _ (by omega), h1 _ (by omega) (by omega)]
    · rw [hin2 _ (by omega), h2 _ (by omega) (by omega)]
  · refine kept_eq_of_lines (fun i hi => ?_) (fun i hi => ?_) fun i hi => ?_
    · rw [hin1 _ (by omega), h1 _ (by omega) (by omega)]
    · rw [hin2 _ (by omega), h2 _ (by omega) (by omega)]
    · have := h.stop i hi
      simpa only [Nat.add_assoc] using this

lemma keptIn_split (list : List Line) (b : Bitarray) (offset mid len : ℕ) (h : mid ≤ len) :
    keptIn ⟨list, offset, len⟩ b = keptIn (smartlistSlice list offset (offset + mid)) b
      ++ keptIn (smartlistSlice list (offset + mid) (offset + len)) b := by
  simp only [keptIn, smartlistSlice]
  rw [show offset + mid - offset = mid by omega, show offset + len - (offset + mid) = len - mid by
    omega, ← kept_add, show mid + (len - mid) = len by omega]

lemma MarksInside.mono {slice slice' : SmartlistSlice} (h : MarksInside b b' slice)
    (hlow : slice'.offset ≤ slice.offset)
    (hhigh : slice.offset + slice.len ≤ slice'.offset + slice'.len) : MarksInside b b' slice' :=
  fun i hi => h i (by omega)

lemma MarksInside.trans {b'' : Bitarray} (h : MarksInside b b' slice)
    (h' : MarksInside b' b'' slice) : MarksInside b b'' slice :=
  fun i hi => (h' i hi).trans (h i hi)

lemma keptIn_congr
    (h : ∀ i, slice.offset ≤ i → i < slice.offset + slice.len → b' i = b i) :
    keptIn slice b' = keptIn slice b :=
  kept_congr h

/-- What `calc_changes` promises of two slices without marks. -/
def Marks (s1 s2 : SmartlistSlice) (c d : Bitarray × Bitarray) : Prop :=
  Clear c.1 s1 → Clear c.2 s2 →
    keptIn s1 d.1 = keptIn s2 d.2 ∧ MarksInside c.1 d.1 s1 ∧ MarksInside c.2 d.2 s2

lemma Clear.upper {mid : ℕ} (h : Clear b slice) (hmid : mid ≤ slice.len) :
    Clear b (smartlistSlice slice.list slice.offset (slice.offset + mid)) :=
  fun i hi hi' => h i hi (by simp only [smartlistSlice] at hi'; omega)

lemma Clear.lower {mid : ℕ} (h : Clear b slice)
    (hin : MarksInside b b' (smartlistSlice slice.list slice.offset (slice.offset + mid))) :
    Clear b' (smartlistSlice slice.list (slice.offset + mid) (slice.offset + slice.len)) := by
  intro i hi hi'
  simp only [smartlistSlice] at hi hi'
  rw [hin i (by simp only [smartlistSlice]; omega)]
  exact h i (by omega) (by omega)

lemma marks_of_parts {mid mid2 : ℕ} {c d e : Bitarray × Bitarray} (hmid : mid ≤ t1.len)
    (hmid2 : mid2 ≤ t2.len)
    (hd : Marks (smartlistSlice t1.list t1.offset (t1.offset + mid))
      (smartlistSlice t2.list t2.offset (t2.offset + mid2)) c d)
    (he : Marks (smartlistSlice t1.list (t1.offset + mid) (t1.offset + t1.len))
      (smartlistSlice t2.list (t2.offset + mid2) (t2.offset + t2.len)) d e) :
    Marks t1 t2 c e := by
  intro hc1 hc2
  obtain ⟨hkept, hin1, hin2⟩ := hd (hc1.upper hmid) (hc2.upper hmid2)
  obtain ⟨hkept', hin1', hin2'⟩ := he (hc1.lower hin1) (hc2.lower hin2)
  have htop : keptIn (smartlistSlice t1.list t1.offset (t1.offset + mid)) e.1
      = keptIn (smartlistSlice t1.list t1.offset (t1.offset + mid)) d.1 :=
    keptIn_congr fun i _ hi => hin1' i (by simp only [smartlistSlice] at hi ⊢; omega)
  have hleft : keptIn (smartlistSlice t2.list t2.offset (t2.offset + mid2)) e.2
      = keptIn (smartlistSlice t2.list t2.offset (t2.offset + mid2)) d.2 :=
    keptIn_congr fun i _ hi => hin2' i (by simp only [smartlistSlice] at hi ⊢; omega)
  refine ⟨?_, ?_, ?_⟩
  · calc keptIn t1 e.1 = keptIn (smartlistSlice t1.list t1.offset (t1.offset + mid)) e.1
          ++ keptIn (smartlistSlice t1.list (t1.offset + mid) (t1.offset + t1.len)) e.1 :=
        keptIn_split t1.list e.1 t1.offset mid t1.len hmid
      _ = keptIn (smartlistSlice t1.list t1.offset (t1.offset + mid)) d.1
          ++ keptIn (smartlistSlice t2.list (t2.offset + mid2) (t2.offset + t2.len)) e.2 := by
        rw [hkept', htop]
      _ = keptIn (smartlistSlice t2.list t2.offset (t2.offset + mid2)) e.2
          ++ keptIn (smartlistSlice t2.list (t2.offset + mid2) (t2.offset + t2.len)) e.2 := by
        rw [hkept, hleft]
      _ = keptIn t2 e.2 := (keptIn_split t2.list e.2 t2.offset mid2 t2.len hmid2).symm
  · exact (hin1.mono (by simp [smartlistSlice]) (by simp [smartlistSlice, hmid])).trans
      (hin1'.mono (by simp [smartlistSlice]) (by simp only [smartlistSlice]; omega))
  · exact (hin2.mono (by simp [smartlistSlice]) (by simp [smartlistSlice, hmid2])).trans
      (hin2'.mono (by simp [smartlistSlice]) (by simp only [smartlistSlice]; omega))

/-- **The marks of `calc_changes`**: the lines it leaves unmarked are the same ones on both sides,
and it marks nothing outside of the slices. -/
theorem calcChanges_marks (s1 s2 : SmartlistSlice) (c : Bitarray × Bitarray) :
    Marks s1 s2 c (calcChanges s1 s2 c) := by
  induction s1, s2, c using calcChanges.induct with
  | case1 s1 s2 c trimmed t1 hlen =>
    intro h1 h2
    obtain ⟨p, q, htrims⟩ := trimSlices_trims s1 s2
    obtain ⟨hc1, hc2⟩ := htrims.clear h1 h2
    rw [calcChanges, dif_pos hlen]
    obtain ⟨hkept, hin1, hin2⟩ := setChanged_spec hlen hc1 hc2
    exact htrims.spec h1 h2 hkept hin1 hin2
  | case2 s1 s2 c trimmed t1 t2 hlen1 hlen2 =>
    intro h1 h2
    obtain ⟨p, q, htrims⟩ := trimSlices_trims s1 s2
    obtain ⟨hc1, hc2⟩ := htrims.clear h1 h2
    rw [calcChanges, dif_neg hlen1, if_pos hlen2]
    obtain ⟨hkept, hin2, hin1⟩ := setChanged_spec hlen2 hc2 hc1
    exact htrims.spec h1 h2 hkept.symm hin1 hin2
  | case3 s1 s2 c trimmed t1 t2 hlen1 hlen2 mid top bot mid2 left right ih1 _ ih2 =>
    intro h1 h2
    obtain ⟨p, q, htrims⟩ := trimSlices_trims s1 s2
    obtain ⟨hc1, hc2⟩ := htrims.clear h1 h2
    have hmid : mid ≤ t1.len := Nat.div_le_self _ _
    have hmid2 : mid2 ≤ t2.len := optimalColumnToSplit_le top bot t2
    obtain ⟨hkept, hin1, hin2⟩ := marks_of_parts hmid hmid2 ih1 ih2 hc1 hc2
    rw [calcChanges, dif_neg hlen1, if_neg hlen2]
    exact htrims.spec h1 h2 hkept hin1 hin2

end Ator.ConsDiff
