import AtorProtocol.Buffers.Queue

/-!
# Searching a buffer

`buf_find_string_offset` of `src/lib/buf/buffers.c`.

* `bufFindPosOfChar`, `bufPosInc`, `bufMatchesAtPos`, `bufFindStringOffset` — the code.
* `IsOffset` — the first place where a string occurs.
* `isMisread` — a comparison that goes wrong in the memory of an empty chunk.
* `bufFindStringOffset_isOffset_iff` — when the search finds that place.
-/

namespace Ator.Buffers

open List Option

/-! ## The code -/

/-- `buf_pos_t`, with the chunks from the one it is in. -/
structure BufPos where
  chunks : List Chunk
  pos : ℕ
  chunkPos : ℕ

def bufPosInit (buf : Buf) : BufPos := ⟨buf.chunks, 0, 0⟩

/-- `memchr` in the data of a chunk from `pos` on, as a position in the data. -/
def Chunk.memchr (c : Chunk) (ch : UInt8) (pos : ℕ) : Option ℕ :=
  ((c.bytes.drop pos).findIdx? fun b => b = ch).map (pos + ·)

/-- The loop of `buf_find_pos_of_char`. -/
def findPosFrom (ch : UInt8) : List Chunk → (pos chunkPos : ℕ) → Option BufPos
  | [], _, _ => none
  | c :: cs, pos, chunkPos =>
    match c.memchr ch pos with
    | some cp => some ⟨c :: cs, cp, chunkPos⟩
    | none => findPosFrom ch cs 0 (chunkPos + c.datalen)

/-- `buf_find_pos_of_char`: the position moved to the character, if there is one. -/
def bufFindPosOfChar (ch : UInt8) (out : BufPos) : Option (Option BufPos) :=
  if out.chunks.head?.all fun c => if c.datalen ≠ 0 then out.pos < c.datalen else out.pos = 0 then
    match findPosFrom ch out.chunks out.pos out.chunkPos with
    | some out => if out.pos ≤ bufMaxLen then some (some out) else none
    | none => some none
  else none

/-- `buf_pos_inc`: the next position, if there is one. -/
def bufPosInc (p : BufPos) : Option (Option BufPos) :=
  if p.pos < bufMaxLen then
    match p.chunks with
    | [] => none
    | c :: cs =>
      if p.pos + 1 = c.datalen then
        some (if cs = [] then none else some ⟨cs, 0, p.chunkPos + c.datalen⟩)
      else some (some { p with pos := p.pos + 1 })
  else none

/-- What can be read from `data` on: the memory, and the sentinel behind it. -/
def Chunk.readable (c : Chunk) : Bytes := c.mem.drop c.offset ++ List.replicate 4 0

/-- `p.chunk->data[p.pos]` -/
def BufPos.read (p : BufPos) : Option UInt8 := p.chunks.head?.bind fun c => c.readable[p.pos]?

def bufMatchesAtPos : BufPos → Bytes → Option Bool
  | _, [] => some true
  | p, c :: s =>
    match p.read with
    | none => none
    | some ch =>
      if ch ≠ c then some false
      else if s = [] then some true
      else
        match bufPosInc p with
        | none => none
        | some none => some false
        | some (some p) => bufMatchesAtPos p s

/-- The loop of `buf_find_string_offset`, which moves on in each turn. -/
def findStringLoop (s : Bytes) (ch : UInt8) : ℕ → BufPos → Option (Option ℕ)
  | 0, _ => none
  | n + 1, pos =>
    match bufFindPosOfChar ch pos with
    | none => none
    | some none => some none
    | some (some pos) =>
      match bufMatchesAtPos pos s with
      | none => none
      | some true =>
        if pos.chunkPos + pos.pos ≤ bufMaxLen then some (some (pos.chunkPos + pos.pos)) else none
      | some false =>
        match bufPosInc pos with
        | none => none
        | some none => some none
        | some (some pos) => findStringLoop s ch n pos

/-- `buf_find_string_offset`, of a string with a first character; -1 is `some none`. -/
def bufFindStringOffset (buf : Buf) (s : Bytes) : Option (Option ℕ) :=
  match s with
  | [] => none
  | ch :: _ => findStringLoop s ch (buf.datalen + 1) (bufPosInit buf)

/-! ## What it is for -/

/-- Where a string first occurs, if it does. -/
def IsOffset (s bytes : Bytes) : Option ℕ → Prop
  | some i => s <+: bytes.drop i ∧ ∀ j < i, ¬ s <+: bytes.drop j
  | none => ∀ i, ¬ s <+: bytes.drop i

/-- The first empty chunk, and how many bytes stand before it. -/
def gapIn : List Chunk → Option (ℕ × Chunk)
  | [] => none
  | c :: cs =>
    if c.datalen = 0 then some (0, c)
    else (gapIn cs).map fun gap => (c.datalen + gap.1, gap.2)

/-- The first empty chunk behind the one with byte `i`, and how many bytes from `i` on stand before
it. -/
def gapFrom : List Chunk → ℕ → Option (ℕ × Chunk)
  | [], _ => none
  | c :: cs, i =>
    if i < c.datalen then (gapIn cs).map fun gap => (c.datalen - i + gap.1, gap.2)
    else gapFrom cs (i - c.datalen)

/-- A string compared with memory, from position `pos` of an empty chunk on. -/
def compareUnused : (pos : ℕ) → (mem s : Bytes) → Option Bool
  | _, _, [] => some true
  | _, [], _ :: _ => none
  | pos, b :: mem, c :: s =>
    if b ≠ c then some false
    else if s = [] then some true
    else if pos < bufMaxLen then compareUnused (pos + 1) mem s
    else none

/-- **A misread**: the string agrees with the bytes from `i` on up to an empty chunk, and the memory
of that decides the rest otherwise than the bytes behind it. -/
def isMisread (cs : List Chunk) (s : Bytes) (i : ℕ) : Bool :=
  (gapFrom cs i).any fun (n, e) =>
    n < s.length ∧ s.take n = ((chunkBytes cs).drop i).take n ∧
      compareUnused 0 e.readable (s.drop n) ≠
        some ((s.drop n).isPrefixOf ((chunkBytes cs).drop (i + n)))

/-! ## A comparison -/

variable {c e : Chunk} {cs all : List Chunk} {s : Bytes} {p q : BufPos} {ch : UInt8} {i k n pos : ℕ}

lemma bufMatchesAtPos_empty (he : e.datalen = 0) :
    bufMatchesAtPos ⟨e :: cs, pos, k⟩ s = compareUnused pos (e.readable.drop pos) s := by
  induction s generalizing pos with
  | nil =>
    cases e.readable.drop pos <;> rfl
  | cons b s ih =>
    have hread : BufPos.read ⟨e :: cs, pos, k⟩ = (e.readable.drop pos).head? := by
      rw [head?_drop]
      rfl
    rw [bufMatchesAtPos, hread]
    cases hmem : e.readable.drop pos with
    | nil => rfl
    | cons d mem =>
      have htail : e.readable.drop (pos + 1) = mem := by
        rw [← tail_drop, hmem]
        rfl
      simp only [head?_cons, compareUnused]
      rw [bufPosInc]
      simp only [he, Nat.succ_ne_zero, if_false]
      by_cases hmax : pos < bufMaxLen
      · simp only [hmax, if_true]
        rw [ih, htail]
      · simp only [hmax, if_false]

lemma bufMatchesAtPos_chunk (hc : c.Fits) (hmax : c.datalen ≤ bufMaxLen) (hpos : pos < c.datalen)
    (hs : s ≠ []) :
    bufMatchesAtPos ⟨c :: cs, pos, k⟩ s =
      if s.length ≤ c.datalen - pos then some (s.isPrefixOf (c.bytes.drop pos))
      else if (c.bytes.drop pos).isPrefixOf s ∧ cs ≠ [] then
        bufMatchesAtPos ⟨cs, 0, k + c.datalen⟩ (s.drop (c.datalen - pos))
      else some false := by
  induction s generalizing pos with
  | nil => exact absurd rfl hs
  | cons b s ih =>
    have hlen : c.bytes.length = c.datalen := hc.length_bytes
    have hdrop : c.bytes.drop pos = c.bytes[pos] :: c.bytes.drop (pos + 1) :=
      drop_eq_getElem_cons (by omega)
    have hread : BufPos.read ⟨c :: cs, pos, k⟩ = some c.bytes[pos] := by
      rw [← getElem?_eq_getElem]
      change c.readable[pos]? = _
      rw [Chunk.readable, getElem?_append_left (hpos.trans_le (hlen ▸ length_take_le' ..)),
        Chunk.bytes, getElem?_take_of_lt hpos]
    rw [bufMatchesAtPos, hread, hdrop]
    by_cases hb : c.bytes[pos] = b
    · subst hb
      simp only [ne_eq, not_true, if_false, isPrefixOf_cons_cons_self, length_cons]
      by_cases hnil : s = []
      · subst hnil
        simp only [if_true, length_nil]
        rw [if_pos (by omega)]
        rfl
      · rw [if_neg hnil, bufPosInc, if_pos (show pos < bufMaxLen by omega)]
        by_cases hend : pos + 1 = c.datalen
        · have hgone : c.bytes.drop c.datalen = [] := drop_of_length_le (by omega)
          have hone : c.datalen - pos = 1 := by omega
          have hlong : ¬ s.length + 1 ≤ 1 := by
            have := length_pos_iff.mpr hnil
            omega
          by_cases hcs : cs = []
          · simp [hend, hone, hlong, hcs]
          · simp [hend, hgone, hone, hlong, hcs]
        · have hsub : c.datalen - pos = c.datalen - (pos + 1) + 1 := by omega
          simp only [if_neg hend, hsub, Nat.add_le_add_iff_right, drop_succ_cons]
          exact ih (by omega) hnil
    · have hb' : (c.bytes[pos] == b) = false := by simpa using hb
      have hb'' : (b == c.bytes[pos]) = false := by simpa using Ne.symm hb
      simp [hb, isPrefixOf, hb', hb'']

lemma isPrefixOf_append {s u v : Bytes} (hu : u.length ≤ s.length) :
    s.isPrefixOf (u ++ v) = (u.isPrefixOf s && (s.drop u.length).isPrefixOf v) := by
  rw [Bool.eq_iff_iff, Bool.and_eq_true, isPrefixOf_iff_prefix, isPrefixOf_iff_prefix,
    isPrefixOf_iff_prefix]
  constructor
  · rintro h
    have hpre : u <+: s := prefix_of_prefix_length_le (prefix_append u v) h hu
    obtain ⟨t, rfl⟩ := hpre
    rw [drop_left]
    exact ⟨prefix_append u t, (prefix_append_right_inj u).mp h⟩
  · rintro ⟨⟨t, rfl⟩, h⟩
    rw [drop_left] at h
    exact (prefix_append_right_inj u).mpr h

lemma isPrefixOf_append_of_le {s u v : Bytes} (hu : s.length ≤ u.length) :
    s.isPrefixOf (u ++ v) = s.isPrefixOf u := by
  rw [Bool.eq_iff_iff, isPrefixOf_iff_prefix, isPrefixOf_iff_prefix]
  exact ⟨fun h => prefix_of_prefix_length_le h (prefix_append u v) hu,
    fun h => h.trans (prefix_append u v)⟩

/-- What a comparison finds whose string agrees with `bytes` up to an empty chunk, or to the end. -/
def compareUpTo (bytes s : Bytes) : Option (ℕ × Chunk) → Option Bool
  | none => some (s.isPrefixOf bytes)
  | some (n, e) =>
    if s.length ≤ n then some (s.isPrefixOf bytes)
    else if s.take n = bytes.take n then compareUnused 0 e.readable (s.drop n)
    else some false

lemma compareUpTo_append {u bytes : Bytes} (gap : Option (ℕ × Chunk)) (hu : u.length < s.length) :
    compareUpTo (u ++ bytes) s (gap.map fun gap => (u.length + gap.1, gap.2)) =
      if u.isPrefixOf s then compareUpTo bytes (s.drop u.length) gap else some false := by
  have hpre := isPrefixOf_append (v := bytes) hu.le
  rcases gap with _ | ⟨n, e⟩
  · rw [map_none, compareUpTo, compareUpTo, hpre]
    cases u.isPrefixOf s <;> rfl
  · have htake : s.take (u.length + n) = (u ++ bytes).take (u.length + n) ↔
        u.isPrefixOf s ∧ (s.drop u.length).take n = bytes.take n := by
      rw [take_length_add_append, take_add, isPrefixOf_iff_prefix]
      constructor
      · intro h
        have hlen : (s.take u.length).length = u.length := by
          rw [length_take]
          omega
        obtain ⟨h₁, h₂⟩ := append_inj h hlen
        exact ⟨prefix_iff_eq_take.mpr h₁.symm, h₂⟩
      · rintro ⟨h₁, h₂⟩
        rw [← prefix_iff_eq_take.mp h₁, h₂]
    have hle : s.length ≤ u.length + n ↔ s.length - u.length ≤ n := by omega
    simp only [map_some, compareUpTo, hpre, htake, hle, length_drop, drop_drop]
    cases u.isPrefixOf s <;> simp

lemma bufMatchesAtPos_split (hc : c.Fits) (hmax : c.datalen ≤ bufMaxLen) (hpos : pos < c.datalen)
    (hs : s ≠ [])
    (hnext : ∀ s ≠ [], (if cs = [] then some false
      else bufMatchesAtPos ⟨cs, 0, k + c.datalen⟩ s) = compareUpTo (chunkBytes cs) s (gapIn cs)) :
    bufMatchesAtPos ⟨c :: cs, pos, k⟩ s =
      compareUpTo (c.bytes.drop pos ++ chunkBytes cs) s
        ((gapIn cs).map fun gap => (c.datalen - pos + gap.1, gap.2)) := by
  have hlen : (c.bytes.drop pos).length = c.datalen - pos := by
    rw [length_drop, hc.length_bytes]
  rw [bufMatchesAtPos_chunk hc hmax hpos hs, ← hlen]
  by_cases hle : s.length ≤ (c.bytes.drop pos).length
  · rw [if_pos hle]
    cases gapIn cs with
    | none => rw [map_none, compareUpTo, isPrefixOf_append_of_le hle]
    | some gap =>
      rw [map_some, compareUpTo, if_pos (by omega), isPrefixOf_append_of_le hle]
  · rw [if_neg hle, compareUpTo_append _ (Nat.lt_of_not_le hle)]
    have hne : s.drop (c.bytes.drop pos).length ≠ [] := by
      rw [Ne, drop_eq_nil_iff]
      exact hle
    rw [← hnext _ hne]
    by_cases hcs : cs = []
    · simp [hcs]
    · simp [hcs]

/-- **A comparison** is with the bytes up to the next empty chunk, and the memory of that. -/
lemma bufMatchesAtPos_eq (hc : c.Fits) (hcs : ∀ d ∈ cs, d.Fits)
    (hmax : ∀ d ∈ c :: cs, d.datalen ≤ bufMaxLen) (hpos : pos < c.datalen) (hs : s ≠ []) :
    bufMatchesAtPos ⟨c :: cs, pos, k⟩ s =
      compareUpTo (c.bytes.drop pos ++ chunkBytes cs) s
        ((gapIn cs).map fun gap => (c.datalen - pos + gap.1, gap.2)) := by
  induction cs generalizing c pos k s with
  | nil =>
    refine bufMatchesAtPos_split hc (hmax c (by simp)) hpos hs fun s hs => ?_
    cases s with
    | nil => exact absurd rfl hs
    | cons b s => simp [compareUpTo, gapIn]
  | cons d cs ih =>
    obtain ⟨hd, hcs⟩ := forall_mem_cons.mp hcs
    refine bufMatchesAtPos_split hc (hmax c (by simp)) hpos hs fun s hs => ?_
    rw [if_neg (by simp)]
    by_cases hempty : d.datalen = 0
    · have hlen : ¬ s.length ≤ 0 := by
        simpa using hs
      rw [bufMatchesAtPos_empty hempty, gapIn, if_pos hempty, compareUpTo, if_neg hlen]
      rfl
    · rw [ih hd hcs (fun e he => hmax e (mem_cons_of_mem c he)) (by omega) hs, gapIn, if_neg hempty]
      rfl

/-- **A misread is a comparison with another outcome than one with the bytes.** -/
lemma isMisread_iff : isMisread cs s i = true ↔
    compareUpTo ((chunkBytes cs).drop i) s (gapFrom cs i) ≠
      some (s.isPrefixOf ((chunkBytes cs).drop i)) := by
  rw [isMisread]
  rcases gapFrom cs i with _ | ⟨n, e⟩
  · simp [compareUpTo]
  · rw [any_some, decide_eq_true_eq, compareUpTo]
    by_cases hle : s.length ≤ n
    · simp [hle]
    · by_cases htake : s.take n = ((chunkBytes cs).drop i).take n
      · have hlen : (s.take n).length = n := by
          rw [length_take]
          omega
        have hsplit : s.isPrefixOf ((chunkBytes cs).drop i) =
            (s.drop n).isPrefixOf ((chunkBytes cs).drop (i + n)) := by
          have h := isPrefixOf_append (s := s) (u := s.take n) (v := (chunkBytes cs).drop (i + n))
            (by omega)
          have hpre : (s.take n).isPrefixOf s = true := isPrefixOf_iff_prefix.mpr ( take_prefix n s)
          rw [hpre, hlen, Bool.true_and, htake, ← drop_drop, take_append_drop] at h
          rw [h, drop_drop]
        rw [if_neg hle, if_pos htake, hsplit]
        exact ⟨fun h => h.2.2, fun h => ⟨Nat.lt_of_not_le hle, htake, h⟩⟩
      · have hfalse : s.isPrefixOf ((chunkBytes cs).drop i) = false := by
          rw [Bool.eq_false_iff, Ne, isPrefixOf_iff_prefix]
          rintro ⟨t, ht⟩
          refine htake ?_
          rw [← ht, take_append_of_le_length (by omega)]
        rw [if_neg hle, if_neg htake, hfalse]
        exact iff_of_false (fun h => htake h.2.1) (fun h => h rfl)

/-! ## Positions -/

/-- A position at byte `i` of the chunks, or at the start of an empty chunk before it. -/
structure PosAt (all : List Chunk) (i : ℕ) (p : BufPos) : Prop where
  split : ∃ pre, all = pre ++ p.chunks ∧ p.chunkPos = chunkLength pre
  eq_add : i = p.chunkPos + p.pos
  valid : ∀ c ∈ p.chunks.head?, if c.datalen = 0 then p.pos = 0 else p.pos < c.datalen
  ends : p.chunks = [] → p.pos = 0

/-- A position at a byte. -/
def BufPos.IsByte (p : BufPos) : Prop := ∃ c cs, p.chunks = c :: cs ∧ p.pos < c.datalen

lemma drop_chunkBytes (cs : List Chunk) {pre : List Chunk} (hfits : ∀ d ∈ pre, d.Fits) (hc : c.Fits)
    (hpos : pos ≤ c.datalen) :
    (chunkBytes (pre ++ c :: cs)).drop (chunkLength pre + pos) =
      c.bytes.drop pos ++ chunkBytes cs := by
  rw [chunkBytes_append, ← length_chunkBytes hfits, drop_length_add_append, chunkBytes_cons,
    drop_append_of_le_length (by rw [hc.length_bytes]; exact hpos)]

lemma gapFrom_append (pre : List Chunk) (hpos : pos < c.datalen) :
    gapFrom (pre ++ c :: cs) (chunkLength pre + pos) =
      (gapIn cs).map fun gap => (c.datalen - pos + gap.1, gap.2) := by
  induction pre with
  | nil =>
    rw [chunkLength_nil, Nat.zero_add, nil_append, gapFrom, if_pos hpos]
  | cons d pre ih =>
    rw [chunkLength_cons, cons_append, gapFrom, if_neg (by omega), ← ih]
    congr 1
    omega

/-- **At a byte** the comparison is with what stands from there on. -/
lemma PosAt.matches_eq (h : PosAt all i p) (hbyte : p.IsByte) (hfits : ∀ d ∈ all, d.Fits)
    (hmax : ∀ d ∈ all, d.datalen ≤ bufMaxLen) (hs : s ≠ []) :
    bufMatchesAtPos p s = compareUpTo ((chunkBytes all).drop i) s (gapFrom all i) := by
  obtain ⟨pre, hall, hchunkPos⟩ := h.split
  obtain ⟨chunks, pos, chunkPos⟩ := p
  obtain ⟨c, cs, rfl, hpos⟩ := hbyte
  obtain rfl : chunkPos = chunkLength pre := hchunkPos
  obtain rfl : i = chunkLength pre + pos := h.eq_add
  subst hall
  rw [drop_chunkBytes cs (fun d hd => hfits d (by simp [hd])) (hfits c (by simp)) hpos.le,
    gapFrom_append pre hpos]
  exact bufMatchesAtPos_eq (hfits c (by simp)) (fun d hd => hfits d (by simp [hd]))
    (fun d hd => hmax d (mem_append_right pre hd)) hpos hs

lemma Chunk.memchr_eq_some {cp : ℕ} (hc : c.Fits) (h : c.memchr ch pos = some cp) :
    cp < c.datalen ∧ pos ≤ cp ∧
      ∃ v, c.bytes.drop pos = (c.bytes.drop pos).take (cp - pos) ++ ch :: v ∧
        ch ∉ (c.bytes.drop pos).take (cp - pos) := by
  obtain ⟨j, hfind, rfl⟩ := map_eq_some_iff.mp h
  obtain ⟨hj, hch, hbefore⟩ := findIdx?_eq_some_iff_getElem.mp hfind
  have hlen : (c.bytes.drop pos).length = c.datalen - pos := by
    rw [length_drop, hc.length_bytes]
  refine ⟨by omega, Nat.le_add_right pos j, (c.bytes.drop pos).drop (j + 1), ?_, ?_⟩
  · rw [Nat.add_sub_cancel_left]
    conv_lhs => rw [← take_append_drop j (c.bytes.drop pos)]
    rw [drop_eq_getElem_cons hj, of_decide_eq_true hch]
  · rw [Nat.add_sub_cancel_left]
    intro hmem
    obtain ⟨k, hk, hget⟩ := mem_take_iff_getElem.mp hmem
    exact hbefore k (by omega) (decide_eq_true hget)

lemma Chunk.memchr_eq_none (h : c.memchr ch pos = none) : ch ∉ c.bytes.drop pos := by
  have hfind := findIdx?_eq_none_iff.mp (map_eq_none_iff.mp h)
  intro hmem
  simpa using hfind ch hmem

/-- **The next occurrence of a character** from a position on. -/
lemma findPosFrom_spec (ch : UInt8) {pre : List Chunk} (hall : all = pre ++ cs)
    (hfits : ∀ d ∈ all, d.Fits)
    (hpos : ∀ c ∈ cs.head?, pos ≤ c.datalen) (hend : cs = [] → pos = 0) :
    match findPosFrom ch cs pos (chunkLength pre) with
    | none => ch ∉ (chunkBytes all).drop (chunkLength pre + pos)
    | some q => ∃ u v, (chunkBytes all).drop (chunkLength pre + pos) = u ++ ch :: v ∧ ch ∉ u ∧
        q.IsByte ∧ PosAt all (chunkLength pre + pos + u.length) q := by
  induction cs generalizing pre pos with
  | nil =>
    obtain rfl := hend rfl
    rw [append_nil] at hall
    subst hall
    rw [findPosFrom, Nat.add_zero, ← length_chunkBytes hfits, drop_length]
    exact not_mem_nil
  | cons c cs ih =>
    have hc : c.Fits := hfits c (by simp [hall])
    have hpre : ∀ d ∈ pre, d.Fits := fun d hd => hfits d (by simp [hall, hd])
    have hdrop := hall ▸ drop_chunkBytes cs hpre hc (hpos c rfl)
    rw [findPosFrom, hdrop]
    cases hmem : c.memchr ch pos with
    | some cp =>
      obtain ⟨hcp, hle, v, hsplit, hnot⟩ := Chunk.memchr_eq_some hc hmem
      have hlen : ((c.bytes.drop pos).take (cp - pos)).length = cp - pos := by
        rw [length_take, length_drop, hc.length_bytes]
        omega
      refine ⟨(c.bytes.drop pos).take (cp - pos), v ++ chunkBytes cs, ?_, hnot,
        ⟨c, cs, rfl, hcp⟩, ⟨pre, hall, rfl⟩, ?_, ?_, ?_⟩
      · conv_lhs => rw [hsplit]
        rw [append_assoc, cons_append]
      · rw [hlen]
        change _ = chunkLength pre + cp
        omega
      · rintro d hd
        obtain rfl := some.inj hd
        rw [if_neg (by omega)]
        exact hcp
      · rintro ⟨⟩
    | none =>
      have hnot := Chunk.memchr_eq_none hmem
      have hlen : chunkLength (pre ++ [c]) = chunkLength pre + c.datalen := by
        rw [chunkLength_append]
        rfl
      have hrest : (chunkBytes all).drop (chunkLength (pre ++ [c]) + 0) = chunkBytes cs := by
        have hnil : c.bytes.drop c.datalen = [] := drop_of_length_le (by rw [hc.length_bytes])
        rw [Nat.add_zero, hlen, hall, drop_chunkBytes cs hpre hc (Nat.le_refl _), hnil, nil_append]
      have hnext := ih (show all = (pre ++ [c]) ++ cs by simp [hall])
        (show ∀ d ∈ cs.head?, 0 ≤ d.datalen from fun _ _ => Nat.zero_le _) (fun _ => rfl)
      dsimp only
      rw [← hlen]
      rw [hrest] at hnext
      split
      · next hnone =>
          rw [hnone] at hnext
          rw [mem_append, not_or]
          exact ⟨hnot, hnext⟩
      · next q hsome =>
          rw [hsome] at hnext
          obtain ⟨u, v, heq, hu, hbyte, hat⟩ := hnext
          refine ⟨c.bytes.drop pos ++ u, v, by rw [heq, append_assoc], ?_, hbyte, ?_⟩
          · rw [mem_append, not_or]
            exact ⟨hnot, hu⟩
          · convert hat using 1
            rw [length_append, length_drop, hc.length_bytes, hlen]
            have := hpos c rfl
            omega

lemma PosAt.inc (h : PosAt all i p) (hbyte : p.IsByte) (hfits : ∀ d ∈ all, d.Fits)
    (hmax : ∀ d ∈ all, d.datalen ≤ bufMaxLen) :
    (bufPosInc p = some none ∧ (chunkBytes all).length = i + 1) ∨
      ∃ q, bufPosInc p = some (some q) ∧ PosAt all (i + 1) q := by
  obtain ⟨pre, hall, hchunkPos⟩ := h.split
  obtain ⟨chunks, pos, chunkPos⟩ := p
  obtain ⟨c, cs, rfl, hpos⟩ := hbyte
  dsimp only at hall hchunkPos hpos
  have hi : i = chunkPos + pos := h.eq_add
  have hle : c.datalen ≤ bufMaxLen := hmax c (by simp [hall])
  rw [bufPosInc, if_pos (show pos < bufMaxLen by omega)]
  dsimp only
  by_cases hend : pos + 1 = c.datalen
  · rw [if_pos hend]
    cases cs with
    | nil =>
      refine .inl ⟨rfl, ?_⟩
      rw [length_chunkBytes hfits, hall, chunkLength_append, chunkLength_cons, chunkLength_nil]
      omega
    | cons d cs =>
      refine .inr ⟨_, rfl, ⟨pre ++ [c], by simp [hall], ?_⟩, ?_, ?_, ?_⟩
      · change chunkPos + c.datalen = _
        rw [chunkLength_append, hchunkPos]
        rfl
      · change i + 1 = chunkPos + c.datalen + 0
        omega
      · rintro e he
        obtain rfl := some.inj he
        change if d.datalen = 0 then 0 = 0 else 0 < d.datalen
        split <;> omega
      · rintro ⟨⟩
  · rw [if_neg hend]
    refine .inr ⟨_, rfl, ⟨pre, hall, hchunkPos⟩, ?_, ?_, ?_⟩
    · change i + 1 = chunkPos + (pos + 1)
      omega
    · rintro e he
      obtain rfl := some.inj he
      rw [if_neg (by omega)]
      change pos + 1 < c.datalen
      omega
    · rintro ⟨⟩

lemma PosAt.le_length (h : PosAt all i p) (hfits : ∀ d ∈ all, d.Fits) :
    i ≤ (chunkBytes all).length := by
  obtain ⟨pre, hall, hchunkPos⟩ := h.split
  have hvalid := h.valid
  have hends := h.ends
  rw [length_chunkBytes hfits, h.eq_add, hall, chunkLength_append, hchunkPos]
  cases hchunks : p.chunks with
  | nil =>
    rw [hends hchunks]
    exact Nat.le_add_right _ _
  | cons c cs =>
    rw [hchunks] at hvalid
    have hc := hvalid c rfl
    rw [chunkLength_cons]
    split at hc <;> omega

/-- **The next occurrence of a character**, if there is one. -/
lemma PosAt.findPosOfChar (h : PosAt all i p) (hfits : ∀ d ∈ all, d.Fits)
    (hmax : ∀ d ∈ all, d.datalen ≤ bufMaxLen) (ch : UInt8) :
    (bufFindPosOfChar ch p = some none ∧ ch ∉ (chunkBytes all).drop i) ∨
      ∃ q u v, bufFindPosOfChar ch p = some (some q) ∧ (chunkBytes all).drop i = u ++ ch :: v ∧
        ch ∉ u ∧ q.IsByte ∧ PosAt all (i + u.length) q := by
  obtain ⟨pre, hall, hchunkPos⟩ := h.split
  have hle : ∀ c ∈ p.chunks.head?, p.pos ≤ c.datalen := by
    intro c hc
    have hvalid := h.valid c hc
    split at hvalid <;> omega
  have hfind := findPosFrom_spec ch hall hfits hle h.ends
  have hassert : (p.chunks.head?.all fun c =>
      if c.datalen ≠ 0 then p.pos < c.datalen else p.pos = 0) = true := by
    rw [Option.all_eq_true]
    intro c hc
    have hvalid := h.valid c hc
    by_cases hempty : c.datalen = 0
    · simpa [hempty] using hvalid
    · simpa [hempty] using hvalid
  rw [bufFindPosOfChar, if_pos hassert, hchunkPos, h.eq_add, hchunkPos]
  split at hfind
  · next hnone => exact .inl ⟨by rw [hnone], hfind⟩
  · next q hsome =>
      obtain ⟨u, v, hdrop, hu, hbyte, hat⟩ := hfind
      obtain ⟨c, cs, hchunks, hpos⟩ := hbyte
      obtain ⟨pre', hall', -⟩ := hat.split
      have hqmax : q.pos ≤ bufMaxLen := hpos.le.trans (hmax c (by simp [hall', hchunks]))
      refine .inr ⟨q, u, v, ?_, hdrop, hu, ⟨c, cs, hchunks, hpos⟩, hat⟩
      rw [hsome]
      exact if_pos hqmax

/-! ## The search -/

lemma gapFrom_pos (h : gapFrom cs i = some (n, e)) : 0 < n := by
  induction cs generalizing i with
  | nil => cases h
  | cons c cs ih =>
    rw [gapFrom] at h
    split at h
    · obtain ⟨gap, -, heq⟩ := map_eq_some_iff.mp h
      obtain ⟨rfl, -⟩ := Prod.mk.inj heq
      omega
    · exact ih h

lemma head?_of_occurs {s : Bytes} (h : ch :: s <+: (chunkBytes all).drop i) :
    ((chunkBytes all).drop i).head? = some ch := by
  obtain ⟨t, ht⟩ := h
  rw [← ht]
  rfl

lemma head?_of_isMisread {s : Bytes} (h : isMisread all (ch :: s) i = true) :
    ((chunkBytes all).drop i).head? = some ch := by
  obtain ⟨⟨n, e⟩, hgap, h⟩ := (any_eq_true _ _).mp h
  obtain ⟨-, htake, -⟩ := of_decide_eq_true h
  obtain ⟨m, rfl⟩ := Nat.exists_eq_succ_of_ne_zero (gapFrom_pos hgap).ne'
  cases hdrop : (chunkBytes all).drop i with
  | nil =>
    rw [hdrop] at htake
    simp at htake
  | cons b t =>
    rw [hdrop, take_succ_cons, take_succ_cons] at htake
    rw [(cons.inj htake).1]
    rfl

lemma head?_ne_of_split {bytes u v : Bytes} {j : ℕ} (h : bytes.drop i = u ++ ch :: v) (hu : ch ∉ u)
    (hle : i ≤ j) (hlt : j < i + u.length) : (bytes.drop j).head? ≠ some ch := by
  have hdrop : bytes.drop j = u.drop (j - i) ++ ch :: v := by
    rw [← drop_append_of_le_length (by omega), ← h, drop_drop, Nat.add_sub_of_le hle]
  have hcons : u.drop (j - i) = u[j - i] :: u.drop (j - i + 1) := drop_eq_getElem_cons (by omega)
  rw [hdrop, hcons, cons_append, head?_cons]
  intro heq
  exact hu (some.inj heq ▸ getElem_mem _)

lemma head?_ne_of_notMem {bytes : Bytes} {j : ℕ} (h : ch ∉ bytes.drop i) (hle : i ≤ j) :
    (bytes.drop j).head? ≠ some ch := by
  intro heq
  refine h ?_
  have hmem : ch ∈ bytes.drop j := mem_of_mem_head? heq
  rw [← Nat.add_sub_of_le hle, ← drop_drop] at hmem
  exact mem_of_mem_drop hmem

lemma findStringLoop_ge (h : PosAt all i p) (hfits : ∀ d ∈ all, d.Fits)
    (hmax : ∀ d ∈ all, d.datalen ≤ bufMaxLen) {m : ℕ}
    (hfound : findStringLoop s ch n p = some (some m)) : i ≤ m := by
  induction n generalizing i p with
  | zero => cases hfound
  | succ n ih =>
    rw [findStringLoop] at hfound
    rcases h.findPosOfChar hfits hmax ch with ⟨hnone, -⟩ | ⟨q, u, v, hsome, -, -, hbyte, hat⟩
    · rw [hnone] at hfound
      cases hfound
    · rw [hsome] at hfound
      dsimp only at hfound
      split at hfound
      · cases hfound
      · split at hfound
        · have hm := some.inj (some.inj hfound)
          have := hat.eq_add
          omega
        · cases hfound
      · rcases hat.inc hbyte hfits hmax with ⟨hlast, -⟩ | ⟨q', hnext, hat'⟩
        · rw [hlast] at hfound
          cases hfound
        · rw [hnext] at hfound
          have := ih hat' hfound
          omega

/-- **A misread spoils the search**: a string is found where it does not stand, or passed over where
it does. -/
lemma not_isOffset_of_isMisread {s : Bytes} {m : ℕ} (hat : PosAt all m q) (hbyte : q.IsByte)
    (hfits : ∀ d ∈ all, d.Fits) (hmax : ∀ d ∈ all, d.datalen ≤ bufMaxLen)
    (hle : m ≤ bufMaxLen) (hmis : isMisread all (ch :: s) m = true) :
    ¬ ∃ r, (match bufMatchesAtPos q (ch :: s) with
      | none => none
      | some true =>
        if q.chunkPos + q.pos ≤ bufMaxLen then some (some (q.chunkPos + q.pos)) else none
      | some false =>
        match bufPosInc q with
        | none => none
        | some none => some none
        | some (some pos) => findStringLoop (ch :: s) ch n pos) = some r ∧
      IsOffset (ch :: s) (chunkBytes all) r := by
  rintro ⟨r, hr, hoff⟩
  have hne := isMisread_iff.mp hmis
  rw [hat.matches_eq hbyte hfits hmax (cons_ne_nil ch s)] at hr
  cases hcompare : compareUpTo ((chunkBytes all).drop m) (ch :: s) (gapFrom all m) with
  | none =>
    rw [hcompare] at hr
    cases hr
  | some outcome =>
    rw [hcompare, Ne, some.injEq] at hne
    rw [hcompare] at hr
    cases outcome with
    | true =>
      rw [← hat.eq_add, if_pos hle] at hr
      obtain rfl := some.inj hr
      exact hne ( isPrefixOf_iff_prefix.mpr hoff.1).symm
    | false =>
      have hocc : ch :: s <+: (chunkBytes all).drop m :=
        isPrefixOf_iff_prefix.mp (Bool.eq_true_of_not_eq_false (Ne.symm hne))
      rcases hat.inc hbyte hfits hmax with ⟨hlast, -⟩ | ⟨q', hnext, hat'⟩
      · rw [hlast] at hr
        obtain rfl := some.inj hr
        exact hoff _ hocc
      · rw [hnext] at hr
        cases r with
        | none => exact hoff _ hocc
        | some k =>
          have hk := findStringLoop_ge hat' hfits hmax hr
          exact hoff.2 _ (by omega) hocc

/-- **The search from a position on** finds the place of the string exactly if it is not misread
before. -/
lemma findStringLoop_isOffset_iff (ch : UInt8) (s : Bytes) (h : PosAt all i p)
    (hfits : ∀ d ∈ all, d.Fits) (hmax : ∀ d ∈ all, d.datalen ≤ bufMaxLen)
    (hlen : chunkLength all ≤ bufMaxLen)
    (hfuel : (chunkBytes all).length < n + i)
    (hbefore : ∀ j < i, ¬ ch :: s <+: (chunkBytes all).drop j) :
    (∃ r, findStringLoop (ch :: s) ch n p = some r ∧ IsOffset (ch :: s) (chunkBytes all) r) ↔
      ∀ j, i ≤ j → (∀ k < j, ¬ ch :: s <+: (chunkBytes all).drop k) →
        isMisread all (ch :: s) j = false := by
  induction n generalizing i p with
  | zero =>
    have := h.le_length hfits
    omega
  | succ n ih =>
    rw [findStringLoop]
    rcases h.findPosOfChar hfits hmax ch with
      ⟨hnone, hnot⟩ | ⟨q, u, v, hsome, hdrop, hu, hbyte, hat⟩
    · rw [hnone]
      refine iff_of_true ⟨none, rfl, fun j hj => ?_⟩ fun j hij _ => ?_
      · rcases Nat.lt_or_ge j i with hlt | hge
        · exact hbefore j hlt hj
        · exact head?_ne_of_notMem hnot hge (head?_of_occurs hj)
      · rw [Bool.eq_false_iff]
        exact fun hj => head?_ne_of_notMem hnot hij (head?_of_isMisread hj)
    · rw [hsome]
      dsimp only
      have hbefore' : ∀ j < i + u.length, ¬ ch :: s <+: (chunkBytes all).drop j := by
        intro j hj hocc
        rcases Nat.lt_or_ge j i with hlt | hge
        · exact hbefore j hlt hocc
        · exact head?_ne_of_split hdrop hu hge hj (head?_of_occurs hocc)
      have hread : ∀ j, i ≤ j → j < i + u.length → isMisread all (ch :: s) j = false := by
        intro j hij hj
        rw [Bool.eq_false_iff]
        exact fun hmis => head?_ne_of_split hdrop hu hij hj (head?_of_isMisread hmis)
      have hle : i + u.length ≤ bufMaxLen :=
        (hat.le_length hfits).trans (length_chunkBytes hfits ▸ hlen)
      have hmatch := hat.matches_eq hbyte hfits hmax (cons_ne_nil ch s)
      by_cases hmis : isMisread all (ch :: s) (i + u.length) = true
      · refine iff_of_false ?_ fun hall => ?_
        · exact not_isOffset_of_isMisread hat hbyte hfits hmax hle hmis
        · rw [hall _ (Nat.le_add_right _ _) hbefore'] at hmis
          cases hmis
      · have hok := (isMisread_iff.not.mp hmis)
        rw [not_not] at hok
        rw [hmatch, hok]
        rw [Bool.not_eq_true] at hmis
        cases hocc : (ch :: s).isPrefixOf ((chunkBytes all).drop (i + u.length)) with
        | true =>
          have hoff := isPrefixOf_iff_prefix.mp hocc
          rw [← hat.eq_add, if_pos hle]
          refine iff_of_true ⟨some (i + u.length), rfl, hoff, hbefore'⟩ fun j hij hj => ?_
          rcases Nat.lt_trichotomy j (i + u.length) with hlt | rfl | hgt
          · exact hread j hij hlt
          · exact hmis
          · exact absurd hoff (hj _ hgt)
        | false =>
          have hnot : ¬ ch :: s <+: (chunkBytes all).drop (i + u.length) := by
            rw [← isPrefixOf_iff_prefix, hocc]
            exact Bool.false_ne_true
          have hbefore'' : ∀ j < i + u.length + 1, ¬ ch :: s <+: (chunkBytes all).drop j := by
            intro j hj
            rcases Nat.lt_succ_iff_lt_or_eq.mp hj with hlt | rfl
            · exact hbefore' j hlt
            · exact hnot
          rcases hat.inc hbyte hfits hmax with ⟨hlast, hend⟩ | ⟨q', hnext, hat'⟩
          · have hgone : ∀ j, i + u.length < j → (chunkBytes all).drop j = [] :=
              fun j hj => drop_of_length_le (by omega)
            rw [hlast]
            refine iff_of_true ⟨none, rfl, fun j hj => ?_⟩ fun j hij _ => ?_
            · rcases Nat.lt_or_ge j (i + u.length + 1) with hlt | hge
              · exact hbefore'' j hlt hj
              · have hhead := head?_of_occurs hj
                rw [hgone j hge] at hhead
                cases hhead
            · rcases Nat.lt_trichotomy j (i + u.length) with hlt | rfl | hgt
              · exact hread j hij hlt
              · exact hmis
              · rw [Bool.eq_false_iff]
                intro hj
                have hhead := head?_of_isMisread hj
                rw [hgone j hgt] at hhead
                cases hhead
          · rw [hnext]
            rw [ih hat' (by omega) hbefore'']
            refine ⟨fun hall j hij hj => ?_, fun hall j hij hj => hall j (by omega) hj⟩
            rcases Nat.lt_trichotomy j (i + u.length) with hlt | rfl | hgt
            · exact hread j hij hlt
            · exact hmis
            · exact hall j hgt hj

lemma datalen_le_chunkLength (h : c ∈ all) : c.datalen ≤ chunkLength all := by
  induction all with
  | nil => cases h
  | cons d all ih =>
    rw [chunkLength_cons]
    rcases mem_cons.mp h with rfl | h
    · exact Nat.le_add_right _ _
    · exact (ih h).trans (Nat.le_add_left _ _)

/-- **A search of a buffer that was reached finds the first place of the string exactly if no
comparison up to there is a misread.** -/
theorem bufFindStringOffset_isOffset_iff {ι : Type*} [DecidableEq ι] {ops : List (Op ι)}
    {t : ι → Buf} (h : Reaches step (fun _ => Buf.new) ops t) (i : ι) (s : Bytes) (hs : s ≠ []) :
    (∃ r, bufFindStringOffset (t i) s = some r ∧ IsOffset s (t i).bytes r) ↔
      ∀ j, (∀ k < j, ¬ s <+: (t i).bytes.drop k) → isMisread (t i).chunks s j = false := by
  have hok := ok_of_reaches h i
  have hlen : chunkLength (t i).chunks ≤ bufMaxLen := hok.datalen_eq ▸ hok.datalen_le
  have hmax : ∀ d ∈ (t i).chunks, d.datalen ≤ bufMaxLen :=
    fun d hd => (datalen_le_chunkLength hd).trans hlen
  obtain ⟨ch, s, rfl⟩ := exists_cons_of_ne_nil hs
  have hat : PosAt (t i).chunks 0 (bufPosInit (t i)) := by
    refine ⟨⟨[], rfl, rfl⟩, rfl, fun c _ => ?_, fun _ => rfl⟩
    change if c.datalen = 0 then 0 = 0 else 0 < c.datalen
    split <;> omega
  have hfuel : (chunkBytes (t i).chunks).length < (t i).datalen + 1 + 0 := by
    rw [length_chunkBytes hok.fits, hok.datalen_eq]
    exact Nat.lt_succ_self _
  have hsearch := findStringLoop_isOffset_iff ch s hat hok.fits hmax hlen hfuel
    (fun j hj => absurd hj (Nat.not_lt_zero j))
  exact hsearch.trans ⟨fun hall j hj => hall j (Nat.zero_le j) hj, fun hall j _ hj => hall j hj⟩

/-- Without empty chunks nothing is misread. -/
lemma isMisread_eq_false (h : ∀ c ∈ cs, c.datalen ≠ 0) (s : Bytes) (i : ℕ) :
    isMisread cs s i = false := by
  have hgapIn : ∀ cs : List Chunk, (∀ c ∈ cs, c.datalen ≠ 0) → gapIn cs = none := by
    intro cs h
    induction cs with
    | nil => rfl
    | cons c cs ih =>
      obtain ⟨hc, hcs⟩ := forall_mem_cons.mp h
      rw [gapIn, if_neg hc, ih hcs]
      rfl
  have hgap : gapFrom cs i = none := by
    induction cs generalizing i with
    | nil => rfl
    | cons c cs ih =>
      obtain ⟨-, hcs⟩ := forall_mem_cons.mp h
      rw [gapFrom]
      split
      · rw [hgapIn cs hcs]
        rfl
      · exact ih hcs _
  rw [isMisread, hgap]
  rfl

/-- A byte in each of two buffers, and all of the second moved to the first. -/
def straddleOps : List (Op (Fin 3)) :=
  [.newWithCapacity 0 1, .newWithCapacity 1 1, .add 0 [97] (fun _ _ => 0),
    .add 1 [98] (fun _ _ => 0), .moveAll 0 1]

/-- A string that straddles two chunks is found. -/
theorem bufFindStringOffset_isOffset_straddle :
    ∃ t, Reaches step (fun _ => Buf.new) straddleOps t ∧
      ∃ r, bufFindStringOffset (t 0) [97, 98] = some r ∧ IsOffset [97, 98] (t 0).bytes r := by
  have hrun : (straddleOps.foldlM step (fun _ => Buf.new)).map
      (fun t => (t 0).chunks.map Chunk.datalen) = some [1, 1] := by
    decide +kernel
  obtain ⟨t, ht, hlens⟩ := map_eq_some_iff.mp hrun
  have hne : ∀ c ∈ (t 0).chunks, c.datalen ≠ 0 := by
    intro c hc hzero
    have hmem : c.datalen ∈ (t 0).chunks.map Chunk.datalen := mem_map_of_mem hc
    rw [hlens, hzero] at hmem
    exact absurd hmem (by decide)
  exact ⟨t, ht, (bufFindStringOffset_isOffset_iff ht 0 [97, 98] (by decide)).mpr
    fun j _ => isMisread_eq_false hne [97, 98] j⟩

/-- A byte in each of the first two buffers, and between them the chunk of a read of nothing into
the third. -/
def gapOps : List (Op (Fin 3)) :=
  [.newWithCapacity 0 1, .newWithCapacity 1 1, .newWithCapacity 2 1,
    .add 0 [97] (fun _ _ => 0), .add 1 [98] (fun _ _ => 0), .addChunk 2 1 true (fun _ => 0),
    .moveAll 2 1, .moveAll 0 2]

/-- **Not every search finds the string**: "ab", with an empty chunk between the "a" and the "b",
is not found. -/
theorem bufFindStringOffset_isOffset_fails :
    ¬ ∀ (ops : List (Op (Fin 3))) (t : Fin 3 → Buf), Reaches step (fun _ => Buf.new) ops t →
      ∀ (i : Fin 3) (s : Bytes), s ≠ [] →
        ∃ r, bufFindStringOffset (t i) s = some r ∧ IsOffset s (t i).bytes r := by
  intro h
  have hrun : (gapOps.foldlM step (fun _ => Buf.new)).map
      (fun t => ((t 0).bytes, bufFindStringOffset (t 0) [97, 98])) =
        some ([97, 98], some none) := by
    decide +kernel
  obtain ⟨t, ht, hout⟩ := map_eq_some_iff.mp hrun
  obtain ⟨hbytes, hfind⟩ := Prod.mk.inj hout
  obtain ⟨r, hr, hoff⟩ := h gapOps t ht 0 [97, 98] (by decide)
  rw [hfind] at hr
  obtain rfl := some.inj hr
  rw [hbytes] at hoff
  exact hoff 0 (prefix_refl _)

end Ator.Buffers
