import AtorProtocol.ConsDiff.Changes
import AtorProtocol.Lib.Text

/-!
# Generating a consensus diff

`gen_ed_diff` of `src/feature/dircommon/consdiff.c`.  It cuts the signatures off the base
document, walks the router entries of both documents in the order of their identity hashes, cuts
the documents into pairs of slices at the entries they share, marks what changed in each pair,
and writes one ed command for each stretch of marks, last stretch first.

* `slicePairs` — the walk over the router entries; `walkSlices_covers` says that it ends, that its
  slices are contiguous on both sides, and that they cover both documents unless it gives up.
* `changedLines` — the marks of all the pairs; `kept_changedLines`: the lines without a mark are
  the same in both documents.
* `edCommands`, `genEdDiff` — the commands.
-/

namespace Ator.ConsDiff

open Text List Option

/-! ## Router entries -/

/-- `base64_compare_table[c]`, with `none` for `NOT_VALID_BASE64`. -/
def base64CompareTable (c : Char) : Option ℕ :=
  if c = '+' then some 62
  else if c = '/' then some 63
  else if '0' ≤ c ∧ c ≤ '9' then some (c.toNat - '0'.toNat + 52)
  else if 'A' ≤ c ∧ c ≤ 'Z' then some (c.toNat - 'A'.toNat)
  else if 'a' ≤ c ∧ c ≤ 'z' then some (c.toNat - 'a'.toNat + 26)
  else none

/-- The identity hash of a router line, with `none` for -1. -/
def getIdHash (line : Line) : Option (List Char) :=
  if line.length < 2 then none else
  match fromDelim ' ' (line.drop 2) with
  | [] => none
  | _ :: hash =>
    let hash := hash.takeWhile fun c => (base64CompareTable c).isSome
    if hash = [] then none else some hash

def isValidRouterEntry (line : Line) : Bool :=
  if line.length < 2 ∨ line.take 2 ≠ "r ".toList then false else (getIdHash line).isSome

/-- `next_router(cons, cur)`, where `cur` may be -1. -/
def nextRouter (cons : List Line) (cur : ℤ) : ℤ :=
  let start := (cur + 1).toNat
  start + (cons.drop start).findIdx isValidRouterEntry

/-- The loop of `base64cmp`, which stops at the ends of the hashes and where they differ. -/
def base64cmpLoop : List Char → List Char → Ordering
  | [], [] => .eq
  | [], _ :: _ => .lt
  | _ :: _, [] => .gt
  | a :: as, b :: bs =>
    match base64CompareTable a, base64CompareTable b with
    | none, none => .eq
    | none, some _ => .lt
    | some _, none => .gt
    | some av, some bv =>
      if av < bv then .lt else if av > bv then .gt else base64cmpLoop as bs

/-- `base64cmp`, where `none` is a hash that is still `NULL`. -/
def base64cmp : Option (List Char) → Option (List Char) → Ordering
  | none, none => .eq
  | none, some _ => .lt
  | some _, none => .gt
  | some hash1, some hash2 => base64cmpLoop hash1 hash2

/-- An index into a consensus with its `router_id_iterator_t`. -/
structure RouterPos where
  i : ℤ
  lastHash : Option (List Char)
  hash : Option (List Char)
deriving DecidableEq

/-- Before the first line: `ROUTER_ID_ITERATOR_INIT`. -/
def RouterPos.init : RouterPos := { i := -1, lastHash := none, hash := none }

def findNextRouterLine (cons : List Line) (p : RouterPos) : Option RouterPos :=
  let i := nextRouter cons p.i
  if i < cons.length then
    match getIdHash (lineAt cons i.toNat) with
    | none => none
    | some hash =>
      if base64cmp (some hash) p.hash ≠ .gt then none
      else some { i := i, lastHash := p.hash, hash := some hash }
  else some { p with i := i }

lemma lt_nextRouter (cons : List Line) (cur : ℤ) : cur < nextRouter cons cur := by
  rw [nextRouter]
  omega

variable {cons : List Line}

lemma nextRouter_le {cur : ℤ} (h : cur < cons.length) :
    nextRouter cons cur ≤ cons.length := by
  rw [nextRouter]
  have hidx := @findIdx_le_length _ isValidRouterEntry (cons.drop (cur + 1).toNat)
  rw [length_drop] at hidx
  omega

variable {p q : RouterPos}

lemma findNextRouterLine_i
    (h : findNextRouterLine cons p = some q) : q.i = nextRouter cons p.i := by
  simp only [findNextRouterLine] at h
  split at h
  · split at h
    · cases h
    · split_ifs at h
      rw [← some.inj h]
  · rw [← some.inj h]

/-- How many lines the walk may still move a position over. -/
def RouterPos.left (p : RouterPos) (cons : List Line) : ℕ := (cons.length - p.i).toNat

lemma left_lt (hp : p.i < cons.length)
    (h : findNextRouterLine cons p = some q) : q.left cons < p.left cons := by
  have hlt := lt_nextRouter cons p.i
  rw [← findNextRouterLine_i h] at hlt
  simp only [RouterPos.left]
  omega

/-- The inner loop of the walk: move on the position with the lower hash until the hashes match,
or one of the documents ends. -/
def syncRouters (cons1 cons2 : List Line) (p1 p2 : RouterPos) : Option (RouterPos × RouterPos) :=
  let cmp := base64cmp p1.hash p2.hash
  if cmp = .eq then some (p1, p2)
  else if _h1 : p1.i < cons1.length ∧ cmp = .lt then
    match _h : findNextRouterLine cons1 p1 with
    | none => none
    | some q1 =>
      if q1.i = cons1.length then some (q1, { p2 with i := cons2.length })
      else syncRouters cons1 cons2 q1 p2
  else if _h2 : p2.i < cons2.length ∧ cmp = .gt then
    match _h : findNextRouterLine cons2 p2 with
    | none => none
    | some q2 =>
      if q2.i = cons2.length then some ({ p1 with i := cons1.length }, q2)
      else syncRouters cons1 cons2 p1 q2
  else some ({ p1 with i := cons1.length }, { p2 with i := cons2.length })
termination_by p1.left cons1 + p2.left cons2
decreasing_by
  · have := left_lt _h1.1 _h
    omega
  · have := left_lt _h2.1 _h
    omega

/-- A position moves forward, and stays inside of the document. -/
structure Moves (cons : List Line) (p q : RouterPos) : Prop where
  left_le : q.left cons ≤ p.left cons
  le : p.i ≤ cons.length → p.i ≤ q.i ∧ q.i ≤ cons.length

lemma Moves.refl (cons : List Line) (p : RouterPos) : Moves cons p p :=
  ⟨le_refl _, fun h => ⟨le_refl _, h⟩⟩

lemma Moves.trans {p q r : RouterPos} (h : Moves cons p q)
    (h' : Moves cons q r) : Moves cons p r := by
  refine ⟨h'.left_le.trans h.left_le, fun hp => ?_⟩
  obtain ⟨hpq, hq⟩ := h.le hp
  obtain ⟨hqr, hr⟩ := h'.le hq
  exact ⟨hpq.trans hqr, hr⟩

lemma Moves.of_find (hp : p.i < cons.length)
    (h : findNextRouterLine cons p = some q) : Moves cons p q := by
  refine ⟨(left_lt hp h).le, fun _ => ?_⟩
  rw [findNextRouterLine_i h]
  exact ⟨(lt_nextRouter cons p.i).le, nextRouter_le hp⟩

lemma Moves.to_end (cons : List Line) (p : RouterPos) :
    Moves cons p { p with i := cons.length } := by
  refine ⟨?_, fun hp => ⟨hp, le_refl _⟩⟩
  simp [RouterPos.left]

variable {cons1 cons2 : List Line}

lemma syncRouters_moves (p1 p2 : RouterPos) {q1 q2 : RouterPos}
    (h : syncRouters cons1 cons2 p1 p2 = some (q1, q2)) :
    Moves cons1 p1 q1 ∧ Moves cons2 p2 q2 := by
  induction p1, p2 using syncRouters.induct cons1 cons2 with
  | case1 p1 p2 cmp hcmp =>
    rw [syncRouters, if_pos hcmp, some.injEq, Prod.mk.injEq] at h
    obtain ⟨rfl, rfl⟩ := h
    exact ⟨Moves.refl _ _, Moves.refl _ _⟩
  | case2 p1 p2 cmp hcmp hlt hnone =>
    rw [syncRouters, if_neg hcmp, dif_pos hlt] at h
    split at h
    · cases h
    · next q hq => rw [hnone] at hq; cases hq
  | case3 p1 p2 cmp hcmp hlt q hq hend =>
    rw [syncRouters, if_neg hcmp, dif_pos hlt] at h
    split at h
    · cases h
    · next q' hq' =>
        obtain rfl := some.inj (hq.symm.trans hq')
        rw [if_pos hend, some.injEq, Prod.mk.injEq] at h
        obtain ⟨rfl, rfl⟩ := h
        exact ⟨Moves.of_find hlt.1 hq, Moves.to_end _ _⟩
  | case4 p1 p2 cmp hcmp hlt q hq hend ih =>
    rw [syncRouters, if_neg hcmp, dif_pos hlt] at h
    split at h
    · cases h
    · next q' hq' =>
        obtain rfl := some.inj (hq.symm.trans hq')
        rw [if_neg hend] at h
        exact ⟨(Moves.of_find hlt.1 hq).trans (ih h).1, (ih h).2⟩
  | case5 p1 p2 cmp hcmp hlt hgt hnone =>
    rw [syncRouters, if_neg hcmp, dif_neg hlt, dif_pos hgt] at h
    split at h
    · cases h
    · next q hq => rw [hnone] at hq; cases hq
  | case6 p1 p2 cmp hcmp hlt hgt q hq hend =>
    rw [syncRouters, if_neg hcmp, dif_neg hlt, dif_pos hgt] at h
    split at h
    · cases h
    · next q' hq' =>
        obtain rfl := some.inj (hq.symm.trans hq')
        rw [if_pos hend, some.injEq, Prod.mk.injEq] at h
        obtain ⟨rfl, rfl⟩ := h
        exact ⟨Moves.to_end _ _, Moves.of_find hgt.1 hq⟩
  | case7 p1 p2 cmp hcmp hlt hgt q hq hend ih =>
    rw [syncRouters, if_neg hcmp, dif_neg hlt, dif_pos hgt] at h
    split at h
    · cases h
    · next q' hq' =>
        obtain rfl := some.inj (hq.symm.trans hq')
        rw [if_neg hend] at h
        exact ⟨(ih h).1, (Moves.of_find hgt.1 hq).trans (ih h).2⟩
  | case8 p1 p2 cmp hcmp hlt hgt =>
    rw [syncRouters, if_neg hcmp, dif_neg hlt, dif_neg hgt, some.injEq, Prod.mk.injEq] at h
    obtain ⟨rfl, rfl⟩ := h
    exact ⟨Moves.to_end _ _, Moves.to_end _ _⟩

/-- The start of a round: a position that is not at the end moves on by a router entry. -/
def advanceRouter (cons : List Line) (p : RouterPos) : Option RouterPos :=
  if p.i < cons.length then findNextRouterLine cons p else some p

/-- One round of the outer loop, up to the slices: both positions move on, and are then brought to
a common entry. -/
def nextSync (cons1 cons2 : List Line) (p1 p2 : RouterPos) : Option (RouterPos × RouterPos) :=
  match advanceRouter cons1 p1, advanceRouter cons2 p2 with
  | some q1, some q2 =>
    if q1.i < cons1.length ∨ q2.i < cons2.length then syncRouters cons1 cons2 q1 q2
    else some (q1, q2)
  | _, _ => none

lemma advanceRouter_moves
    (h : advanceRouter cons p = some q) :
    Moves cons p q ∧ (p.i < cons.length → q.left cons < p.left cons) := by
  rw [advanceRouter] at h
  split_ifs at h with hlt
  · exact ⟨Moves.of_find hlt h, fun _ => left_lt hlt h⟩
  · obtain rfl := some.inj h
    exact ⟨Moves.refl _ _, fun hlt' => absurd hlt' hlt⟩

lemma nextSync_moves {p1 p2 r1 r2 : RouterPos}
    (h : nextSync cons1 cons2 p1 p2 = some (r1, r2)) :
    Moves cons1 p1 r1 ∧ Moves cons2 p2 r2 ∧ (p1.i < cons1.length → r1.left cons1 < p1.left cons1)
      ∧ (p2.i < cons2.length → r2.left cons2 < p2.left cons2) := by
  rw [nextSync] at h
  split at h
  · next q1 q2 hq1 hq2 =>
      obtain ⟨hmove1, hlt1⟩ := advanceRouter_moves hq1
      obtain ⟨hmove2, hlt2⟩ := advanceRouter_moves hq2
      split_ifs at h
      · obtain ⟨hsync1, hsync2⟩ := syncRouters_moves q1 q2 h
        exact ⟨hmove1.trans hsync1, hmove2.trans hsync2,
          fun hlt => hsync1.left_le.trans_lt (hlt1 hlt),
          fun hlt => hsync2.left_le.trans_lt (hlt2 hlt)⟩
      · rw [some.injEq, Prod.mk.injEq] at h
        obtain ⟨rfl, rfl⟩ := h
        exact ⟨hmove1, hmove2, hlt1, hlt2⟩
  · cases h

lemma left_nextSync_lt {p1 p2 r1 r2 : RouterPos}
    (hr : nextSync cons1 cons2 p1 p2 = some (r1, r2))
    (hmore : p1.i < cons1.length ∨ p2.i < cons2.length) :
    r1.left cons1 + r2.left cons2 < p1.left cons1 + p2.left cons2 := by
  obtain ⟨hmove1, hmove2, hlt1, hlt2⟩ := nextSync_moves hr
  have hle1 := hmove1.left_le
  have hle2 := hmove2.left_le
  rcases hmore with h1 | h2
  · have := hlt1 h1
    omega
  · have := hlt2 h2
    omega

/-! ## The slices -/

/-- A pair of slices, by its bounds. -/
structure SlicePair where
  start1 : ℕ
  end1 : ℕ
  start2 : ℕ
  end2 : ℕ
deriving DecidableEq

def maxLineCount : ℕ := 10000

/-- The walk over the router entries of both documents: the bounds of the slices it compares, from
the positions on.  The walk fails when the entries are not sorted, or when a slice is too long. -/
def slicePairs (cons1 cons2 : List Line) (p1 p2 : RouterPos) (start1 start2 : ℕ) :
    Option (List SlicePair) :=
  if _h : p1.i < cons1.length ∨ p2.i < cons2.length then
    match _hr : nextSync cons1 cons2 p1 p2 with
    | none => none
    | some (r1, r2) =>
      if r1.i - start1 > maxLineCount ∨ r2.i - start2 > maxLineCount then none else
      (slicePairs cons1 cons2 r1 r2 r1.i.toNat r2.i.toNat).map
        ({ start1 := start1, end1 := r1.i.toNat, start2 := start2, end2 := r2.i.toNat } :: ·)
  else some []
termination_by p1.left cons1 + p2.left cons2
decreasing_by
  exact left_nextSync_lt _hr _h

/-- The slices are contiguous on both sides, from the given starts to the given ends. -/
def Tiles : List SlicePair → (start1 start2 end1 end2 : ℕ) → Prop
  | [], start1, start2, end1, end2 => start1 = end1 ∧ start2 = end2
  | p :: pairs, start1, start2, end1, end2 =>
    p.start1 = start1 ∧ p.start2 = start2 ∧ start1 ≤ p.end1 ∧ start2 ≤ p.end2
      ∧ Tiles pairs p.end1 p.end2 end1 end2

/-- The same walk, by what it has handed to `calc_changes` when it ends, and whether it ends at the
ends of both documents; otherwise it has given up. -/
def walkSlices (cons1 cons2 : List Line) (p1 p2 : RouterPos) (start1 start2 : ℕ) :
    List SlicePair × Bool :=
  if _h : p1.i < cons1.length ∨ p2.i < cons2.length then
    match _hr : nextSync cons1 cons2 p1 p2 with
    | none => ([], false)
    | some (r1, r2) =>
      if r1.i - start1 > maxLineCount ∨ r2.i - start2 > maxLineCount then ([], false) else
      let rest := walkSlices cons1 cons2 r1 r2 r1.i.toNat r2.i.toNat
      ({ start1 := start1, end1 := r1.i.toNat, start2 := start2, end2 := r2.i.toNat } :: rest.1,
        rest.2)
  else ([], true)
termination_by p1.left cons1 + p2.left cons2
decreasing_by
  exact left_nextSync_lt _hr _h

lemma walkSlices_of_more {p1 p2 : RouterPos} {start1 start2 : ℕ}
    (hmore : p1.i < cons1.length ∨ p2.i < cons2.length) :
    walkSlices cons1 cons2 p1 p2 start1 start2 = (nextSync cons1 cons2 p1 p2).elim ([], false) fun r =>
      if r.1.i - start1 > maxLineCount ∨ r.2.i - start2 > maxLineCount then ([], false) else
      (⟨start1, r.1.i.toNat, start2, r.2.i.toNat⟩
          :: (walkSlices cons1 cons2 r.1 r.2 r.1.i.toNat r.2.i.toNat).1,
        (walkSlices cons1 cons2 r.1 r.2 r.1.i.toNat r.2.i.toNat).2) := by
  rw [walkSlices, dif_pos hmore]
  split
  · next hnone => rw [hnone, elim_none]
  · next r1 r2 hr => rw [hr, elim_some]

lemma slicePairs_of_more {p1 p2 : RouterPos} {start1 start2 : ℕ}
    (hmore : p1.i < cons1.length ∨ p2.i < cons2.length) :
    slicePairs cons1 cons2 p1 p2 start1 start2 = (nextSync cons1 cons2 p1 p2).bind fun r =>
      if r.1.i - start1 > maxLineCount ∨ r.2.i - start2 > maxLineCount then none else
      (slicePairs cons1 cons2 r.1 r.2 r.1.i.toNat r.2.i.toNat).map
        (⟨start1, r.1.i.toNat, start2, r.2.i.toNat⟩ :: ·) := by
  rw [slicePairs, dif_pos hmore]
  split
  · next hnone => rw [hnone, bind_none]
  · next r1 r2 hr => rw [hr, bind_some]

lemma slicePairs_eq_walkSlices (cons1 cons2 : List Line) (p1 p2 : RouterPos) (start1 start2 : ℕ) :
    slicePairs cons1 cons2 p1 p2 start1 start2 = if (walkSlices cons1 cons2 p1 p2 start1 start2).2
        then some (walkSlices cons1 cons2 p1 p2 start1 start2).1 else none := by
  induction p1, p2, start1, start2 using walkSlices.induct cons1 cons2 with
  | case1 p1 p2 start1 start2 hmore hnone =>
    rw [walkSlices_of_more hmore, slicePairs_of_more hmore, hnone]
    rfl
  | case2 p1 p2 start1 start2 hmore r1 r2 hr hlong =>
    rw [walkSlices_of_more hmore, slicePairs_of_more hmore, hr, elim_some, bind_some,
      if_pos hlong, if_pos hlong]
    rfl
  | case3 p1 p2 start1 start2 hmore r1 r2 hr hlong ih =>
    rw [walkSlices_of_more hmore, slicePairs_of_more hmore, hr, elim_some, bind_some,
      if_neg hlong, if_neg hlong, ih]
    split <;> rfl
  | case4 p1 p2 start1 start2 hdone =>
    rw [slicePairs, dif_neg hdone, walkSlices, dif_neg hdone]
    rfl

/-- **What the walk hands out is contiguous**, in every round, and covers both documents where it
does not give up. -/
theorem walkSlices_tiles (cons1 cons2 : List Line) (p1 p2 : RouterPos) (start1 start2 : ℕ)
    (hp1 : p1.i ≤ cons1.length) (hp2 : p2.i ≤ cons2.length) (hs1 : start1 = p1.i.toNat)
    (hs2 : start2 = p2.i.toNat) :
    ∃ end1 end2, Tiles (walkSlices cons1 cons2 p1 p2 start1 start2).1 start1 start2 end1 end2
      ∧ end1 ≤ cons1.length ∧ end2 ≤ cons2.length
      ∧ ((walkSlices cons1 cons2 p1 p2 start1 start2).2 = true →
        end1 = cons1.length ∧ end2 = cons2.length) := by
  induction p1, p2, start1, start2 using walkSlices.induct cons1 cons2 with
  | case1 p1 p2 start1 start2 hmore hnone =>
    rw [walkSlices_of_more hmore, hnone]
    exact ⟨start1, start2, ⟨rfl, rfl⟩, by omega, by omega, fun h => by cases h⟩
  | case2 p1 p2 start1 start2 hmore r1 r2 hr hlong =>
    rw [walkSlices_of_more hmore, hr, elim_some, if_pos hlong]
    exact ⟨start1, start2, ⟨rfl, rfl⟩, by omega, by omega, fun h => by cases h⟩
  | case3 p1 p2 start1 start2 hmore r1 r2 hr hlong ih =>
    obtain ⟨hmove1, hmove2, -, -⟩ := nextSync_moves hr
    obtain ⟨hle1, hlen1⟩ := hmove1.le hp1
    obtain ⟨hle2, hlen2⟩ := hmove2.le hp2
    obtain ⟨end1, end2, htiles, hend⟩ := ih hlen1 hlen2 rfl rfl
    rw [walkSlices_of_more hmore, hr, elim_some, if_neg hlong]
    refine ⟨end1, end2, ⟨rfl, rfl, ?_, ?_, htiles⟩, hend⟩
    · exact hs1 ▸ Int.toNat_le_toNat hle1
    · exact hs2 ▸ Int.toNat_le_toNat hle2
  | case4 p1 p2 start1 start2 hdone =>
    rw [walkSlices, dif_neg hdone]
    exact ⟨start1, start2, ⟨rfl, rfl⟩, by omega, by omega, fun _ => by omega⟩

lemma length_walkSlices_le (cons1 cons2 : List Line) (p1 p2 : RouterPos) (start1 start2 : ℕ) :
    (walkSlices cons1 cons2 p1 p2 start1 start2).1.length ≤ p1.left cons1 + p2.left cons2 := by
  induction p1, p2, start1, start2 using walkSlices.induct cons1 cons2 with
  | case1 p1 p2 start1 start2 hmore hnone =>
    rw [walkSlices_of_more hmore, hnone]
    exact Nat.zero_le _
  | case2 p1 p2 start1 start2 hmore r1 r2 hr hlong =>
    rw [walkSlices_of_more hmore, hr, elim_some, if_pos hlong]
    exact Nat.zero_le _
  | case3 p1 p2 start1 start2 hmore r1 r2 hr hlong ih =>
    rw [walkSlices_of_more hmore, hr, elim_some, if_neg hlong, length_cons]
    exact (Nat.succ_le_succ ih).trans (left_nextSync_lt hr hmore)
  | case4 p1 p2 start1 start2 hdone =>
    rw [walkSlices, dif_neg hdone]
    exact Nat.zero_le _

variable {pairs : List SlicePair}

lemma Tiles.le {start1 start2 end1 end2 : ℕ}
    (h : Tiles pairs start1 start2 end1 end2) :
    ∀ p ∈ pairs, start1 ≤ p.start1 ∧ p.start1 ≤ p.end1 ∧ start2 ≤ p.start2 ∧ p.start2 ≤ p.end2 := by
  induction pairs generalizing start1 start2 with
  | nil => exact fun p hp => absurd hp not_mem_nil
  | cons q pairs ih =>
    obtain ⟨rfl, rfl, hle1, hle2, htail⟩ := h
    intro p hp
    rcases mem_cons.mp hp with rfl | hp
    · exact ⟨le_refl _, hle1, le_refl _, hle2⟩
    · obtain ⟨h1, h1', h2, h2'⟩ := ih htail p hp
      exact ⟨hle1.trans h1, h1', hle2.trans h2, h2'⟩

lemma Tiles.pairwise {start1 start2 end1 end2 : ℕ}
    (h : Tiles pairs start1 start2 end1 end2) :
    pairs.Pairwise fun p q => p.end1 ≤ q.start1 ∧ p.end2 ≤ q.start2 := by
  induction pairs generalizing start1 start2 with
  | nil => exact List.Pairwise.nil
  | cons q pairs ih =>
    obtain ⟨-, -, -, -, htail⟩ := h
    refine List.Pairwise.cons (fun p hp => ?_) (ih htail)
    obtain ⟨h1, -, h2, -⟩ := htail.le p hp
    exact ⟨h1, h2⟩

/-- **The walk over the routers.**  It ends after at most as many rounds as the documents have lines,
and two; the slices that it hands to `calc_changes` are contiguous from the first lines on, and cover
both documents unless it gives up. -/
theorem walkSlices_covers (cons1 cons2 : List Line) :
    let walk := walkSlices cons1 cons2 .init .init 0 0
    walk.1.length ≤ cons1.length + cons2.length + 2
      ∧ (walk.1.Pairwise fun p q => p.end1 ≤ q.start1 ∧ p.end2 ≤ q.start2)
      ∧ (∀ p ∈ walk.1, p.start1 ≤ p.end1 ∧ p.start2 ≤ p.end2)
      ∧ ∃ end1 end2, Tiles walk.1 0 0 end1 end2 ∧ end1 ≤ cons1.length ∧ end2 ≤ cons2.length
        ∧ (walk.2 = true → end1 = cons1.length ∧ end2 = cons2.length) := by
  obtain ⟨end1, end2, htiles, hend⟩ := walkSlices_tiles cons1 cons2 .init .init 0 0
    (by simp only [RouterPos.init]; omega) (by simp only [RouterPos.init]; omega) rfl rfl
  refine ⟨?_, htiles.pairwise, fun p hp => ?_, end1, end2, htiles, hend⟩
  · have hlength := length_walkSlices_le cons1 cons2 .init .init 0 0
    simp only [RouterPos.left, RouterPos.init] at hlength
    simp only [RouterPos.init]
    omega
  · obtain ⟨-, h1, -, h2⟩ := htiles.le p hp
    exact ⟨h1, h2⟩

/-- Two routers out of order: the walk gives up before it has handed out a slice. -/
theorem walkSlices_outOfOrder :
    ¬ Tiles (walkSlices ["r a B".toList, "r a A".toList] ["r a C".toList] .init .init 0 0).1 0 0
      ["r a B".toList, "r a A".toList].length ["r a C".toList].length := by
  have hwalk : (walkSlices ["r a B".toList, "r a A".toList] ["r a C".toList] .init .init 0 0).1 = [] := by
    decide +kernel
  rw [hwalk]
  rintro ⟨h, -⟩
  cases h

/-- **The slices cover both documents**, one after the other. -/
theorem tiles_slicePairs (p1 p2 : RouterPos) (start1 start2 : ℕ)
 (hp1 : p1.i ≤ cons1.length) (hp2 : p2.i ≤ cons2.length)
    (hs1 : start1 = p1.i.toNat) (hs2 : start2 = p2.i.toNat)
    (h : slicePairs cons1 cons2 p1 p2 start1 start2 = some pairs) :
    Tiles pairs start1 start2 cons1.length cons2.length := by
  obtain ⟨end1, end2, htiles, -, -, hend⟩ := walkSlices_tiles cons1 cons2 p1 p2 start1 start2 hp1
    hp2 hs1 hs2
  rw [slicePairs_eq_walkSlices] at h
  split_ifs at h with hdone
  obtain ⟨rfl, rfl⟩ := hend hdone
  exact some.inj h ▸ htiles

/-! ## The marks -/

/-- `calc_changes` of each pair in turn, on arrays that start out clear. -/
def changedLines (cons1 cons2 : List Line) (pairs : List SlicePair) : Bitarray × Bitarray :=
  pairs.foldl (fun changed p => calcChanges (smartlistSlice cons1 p.start1 p.end1)
    (smartlistSlice cons2 p.start2 p.end2) changed) (fun _ => false, fun _ => false)

lemma kept_append_pair {c d : Bitarray × Bitarray}
    {start1 end1 start2 end2 : ℕ} (hle1 : start1 ≤ end1) (hle2 : start2 ≤ end2)
    (hkept : kept cons1 c.1 0 start1 = kept cons2 c.2 0 start2)
    (hmark : keptIn (smartlistSlice cons1 start1 end1) d.1
      = keptIn (smartlistSlice cons2 start2 end2) d.2)
    (hin1 : MarksInside c.1 d.1 (smartlistSlice cons1 start1 end1))
    (hin2 : MarksInside c.2 d.2 (smartlistSlice cons2 start2 end2)) :
    kept cons1 d.1 0 end1 = kept cons2 d.2 0 end2 := by
  have hbefore1 : kept cons1 d.1 0 start1 = kept cons1 c.1 0 start1 :=
    kept_congr fun i _ hi => hin1 i (by simp only [smartlistSlice]; omega)
  have hbefore2 : kept cons2 d.2 0 start2 = kept cons2 c.2 0 start2 :=
    kept_congr fun i _ hi => hin2 i (by simp only [smartlistSlice]; omega)
  simp only [keptIn, smartlistSlice] at hmark
  rw [show end1 = start1 + (end1 - start1) by omega, show end2 = start2 + (end2 - start2) by omega,
    kept_add, kept_add, Nat.zero_add, Nat.zero_add, hbefore1, hbefore2, hkept, hmark]

lemma foldl_calcChanges : ∀ (pairs : List SlicePair)
    {start1 start2 end1 end2 : ℕ} (c : Bitarray × Bitarray),
    Tiles pairs start1 start2 end1 end2 →
    kept cons1 c.1 0 start1 = kept cons2 c.2 0 start2 →
    (∀ i, start1 ≤ i → c.1 i = false) → (∀ i, start2 ≤ i → c.2 i = false) →
    kept cons1 (pairs.foldl (fun changed p => calcChanges (smartlistSlice cons1 p.start1 p.end1)
        (smartlistSlice cons2 p.start2 p.end2) changed) c).1 0 end1
      = kept cons2 (pairs.foldl (fun changed p => calcChanges
          (smartlistSlice cons1 p.start1 p.end1) (smartlistSlice cons2 p.start2 p.end2) changed)
          c).2 0 end2
  | [], start1, start2, end1, end2, c, htiles, hkept, _, _ => by
      obtain ⟨rfl, rfl⟩ := htiles
      exact hkept
  | p :: pairs, start1, start2, end1, end2, c, htiles, hkept, h1, h2 => by
      obtain ⟨rfl, rfl, hle1, hle2, htiles⟩ := htiles
      obtain ⟨hmark, hin1, hin2⟩ := calcChanges_marks (smartlistSlice cons1 p.start1 p.end1)
        (smartlistSlice cons2 p.start2 p.end2) c (fun i hi _ => h1 i hi) (fun i hi _ => h2 i hi)
      rw [foldl_cons]
      refine foldl_calcChanges pairs _ htiles
        (kept_append_pair hle1 hle2 hkept hmark hin1 hin2) (fun i hi => ?_) (fun i hi => ?_)
      · rw [hin1 i (by simp only [smartlistSlice]; omega)]
        exact h1 i (by omega)
      · rw [hin2 i (by simp only [smartlistSlice]; omega)]
        exact h2 i (by omega)

/-- **The lines without a mark are the same in both documents.** -/
theorem kept_changedLines
    (h : slicePairs cons1 cons2 .init .init 0 0 = some pairs) :
    kept cons1 (changedLines cons1 cons2 pairs).1 0 cons1.length
      = kept cons2 (changedLines cons1 cons2 pairs).2 0 cons2.length := by
  have htiles := tiles_slicePairs .init .init 0 0 (by simp only [RouterPos.init]; omega)
    (by simp only [RouterPos.init]; omega) rfl rfl h
  exact foldl_calcChanges pairs _ htiles rfl (fun _ _ => rfl) fun _ _ => rfl

/-! ## The commands -/

/-- How many lines are left before a stretch of marked lines that ends before line `n`:
`while (i >= 0 && bitarray_is_set(changed, i)) i--;` with `n` for `i + 1`. -/
def skipMarked (changed : Bitarray) : ℕ → ℕ
  | 0 => 0
  | n + 1 => if changed n then skipMarked changed n else n + 1

/-- `i >= 0 && bitarray_is_set(changed, i)`, with `n` for `i + 1`. -/
def topMarked (changed : Bitarray) : ℕ → Bool
  | 0 => false
  | n + 1 => changed n

lemma skipMarked_le (changed : Bitarray) : ∀ n, skipMarked changed n ≤ n
  | 0 => le_refl _
  | n + 1 => by
      rw [skipMarked]
      split_ifs
      · exact (skipMarked_le changed n).trans n.le_succ
      · exact le_refl _

lemma skipMarked_lt {changed : Bitarray} {n : ℕ} (h : topMarked changed n = true) :
    skipMarked changed n < n := by
  cases n with
  | zero => cases h
  | succ n =>
    rw [topMarked] at h
    rw [skipMarked, if_pos h]
    exact Nat.lt_succ_of_le (skipMarked_le changed n)

/-- The line with the range and the command, for `added` lines in the place of the `deleted` ones
after line `start`. -/
def edCommandLine (start deleted added : ℕ) : Line :=
  if added = 0 then
    if deleted = 1 then decimal (start + 1) ++ ['d']
    else decimal (start + 1) ++ ',' :: (decimal (start + deleted) ++ ['d'])
  else
    if deleted = 0 then decimal start ++ ['a']
    else if deleted = 1 then decimal (start + 1) ++ ['c']
    else decimal (start + 1) ++ ',' :: (decimal (start + deleted) ++ ['c'])

/-- The last loop of `gen_ed_diff`, with `n1` for `i1 + 1` and `n2` for `i2 + 1`. -/
def edCommands (cons2 : List Line) (changed1 changed2 : Bitarray) (n1 n2 : ℕ) :
    Option (List Line) :=
  if _h0 : n1 = 0 ∧ n2 = 0 then some []
  else if _h : ¬ topMarked changed1 n1 ∧ ¬ topMarked changed2 n2 then
    edCommands cons2 changed1 changed2 (n1 - 1) (n2 - 1)
  else
    let m1 := skipMarked changed1 n1
    let m2 := skipMarked changed2 n2
    let added := (cons2.drop m2).take (n2 - m2)
    if ['.'] ∈ added then none else
    (edCommands cons2 changed1 changed2 m1 m2).map fun rest =>
      edCommandLine m1 (n1 - m1) (n2 - m2) :: (if n2 - m2 = 0 then [] else added ++ [['.']]) ++ rest
termination_by n1 + n2
decreasing_by
  · omega
  · have hle1 := skipMarked_le changed1 n1
    have hle2 := skipMarked_le changed2 n2
    by_cases h1 : topMarked changed1 n1 = true
    · have := skipMarked_lt h1
      omega
    · have h2 : topMarked changed2 n2 = true := by
        by_contra h2
        exact _h ⟨h1, h2⟩
      have := skipMarked_lt h2
      omega

def startOfSignaturesSection : Line := "directory-signature ".toList

/-- Where the signatures start, or the end of the document. -/
def signatureIdx (cons : List Line) : ℕ :=
  cons.findIdx fun line => startOfSignaturesSection.isPrefixOf line

/-- `preprocess_consensus`: the document without its signatures, and the command that deletes
them. -/
def preprocessConsensus (cons : List Line) : List Line × Option Line :=
  if signatureIdx cons < cons.length then
    (cons.take (signatureIdx cons), some (decimal (signatureIdx cons + 1) ++ ",$d".toList))
  else (cons, none)

def genEdDiff (cons1Orig cons2 : List Line) : Option (List Line) :=
  let (cons1, removeTrailer) := preprocessConsensus cons1Orig
  match slicePairs cons1 cons2 .init .init 0 0 with
  | none => none
  | some pairs =>
    let changed := changedLines cons1 cons2 pairs
    (edCommands cons2 changed.1 changed.2 cons1.length cons2.length).map
      (removeTrailer.toList ++ ·)

end Ator.ConsDiff
