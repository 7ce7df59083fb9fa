import AtorProtocol.Encoding.ParseInt
import Mathlib.Data.List.DropRight

/-!
# Splitting a string

`smartlist_split_string` of `src/lib/smartlist_core/smartlist_split.c` with the flags
`SPLIT_SKIP_SPACE | SPLIT_IGNORE_BLANK`, and `smartlist_join_strings`.

* `smartlistSplitString` — the pieces between separators, without the spaces around them.
* `smartlistSplitString_join` — pieces that are joined are split again.
-/

namespace Ator.Text

open List

/-- The piece before the next separator, unless it is blank. -/
def splitPiece (isSep : Char → Bool) (cp : List Char) : List (List Char) :=
  let string := (cp.takeWhile (¬ isSep ·)).rdropWhile isCSpace
  if string = [] then [] else [string]

/-- `smartlist_split_string` for a separator of one character, behind which the `skipped` characters
are skipped. -/
def smartlistSplitString (isSep skipped : Char → Bool) (str : List Char) : List (List Char) :=
  match _h : (str.dropWhile isCSpace).dropWhile (¬ isSep ·) with
  | [] => splitPiece isSep (str.dropWhile isCSpace)
  | _ :: next =>
    splitPiece isSep (str.dropWhile isCSpace)
      ++ smartlistSplitString isSep skipped (next.dropWhile skipped)
termination_by str.length
decreasing_by
  have hcp := (dropWhile_sublist isCSpace (l := str)).length_le
  have hrest := (dropWhile_sublist (¬ isSep ·) (l := str.dropWhile isCSpace)).length_le
  have hnext := (dropWhile_sublist skipped (l := next)).length_le
  rw [_h, length_cons] at hrest
  omega

/-- `'\t'` and `' '` -/
def isHorizontal (c : Char) : Bool := c = '\t' ∨ c = ' '

/-- `smartlist_split_string(sl, str, NULL, flags, 0)` -/
def splitHorizontal (str : List Char) : List (List Char) :=
  smartlistSplitString isHorizontal isHorizontal str

/-- `smartlist_join_strings(sl, " ", 0, NULL)` -/
def joinSpace (pieces : List (List Char)) : List Char := [' '].intercalate pieces

variable {isSep skipped : Char → Bool} {str s t cp : List Char} {pieces : List (List Char)}

/-- A piece between separators: nothing of it is taken away. -/
structure IsPiece (isSep : Char → Bool) (s : List Char) : Prop where
  ne_nil : s ≠ []
  sep : ∀ c ∈ s, isSep c = false
  head : ∀ c ∈ s.head?, isCSpace c = false
  last : ∀ c ∈ s.getLast?, isCSpace c = false

lemma isPiece_of_notSpace (hne : s ≠ []) (hspace : ∀ c ∈ s, isCSpace c = false)
    (hsep : ∀ c, isSep c → isCSpace c) : IsPiece isSep s where
  ne_nil := hne
  sep c hc := by
    by_contra h
    have := hspace c hc
    rw [hsep c (by simpa using h)] at this
    cases this
  head c hc := hspace c (mem_of_mem_head? hc)
  last c hc := hspace c (mem_of_getLast? hc)

/-! ## What is split off -/

lemma isPiece_of_mem_splitPiece (h : s ∈ splitPiece isSep (str.dropWhile isCSpace)) :
    IsPiece isSep s := by
  rw [splitPiece] at h
  split_ifs at h with hnil
  · cases h
  · obtain rfl := mem_singleton.mp h
    set cp := str.dropWhile isCSpace with hcp
    have hpre := rdropWhile_prefix isCSpace (cp.takeWhile (¬ isSep ·))
    have hhead := head?_dropWhile_not isCSpace str
    refine ⟨hnil, fun c hc => ?_, fun c hc => ?_, fun c hc => ?_⟩
    · simpa using mem_takeWhile_imp (hpre.subset hc)
    · have hmem : c ∈ cp.head? := by
        have hcut := hpre.trans ( takeWhile_prefix _)
        obtain ⟨d, t, hd⟩ := exists_cons_of_ne_nil hnil
        rw [hd] at hcut hc
        obtain ⟨u, hu⟩ := hcut
        rw [← hu]
        exact hc
      rw [← hcp, hmem] at hhead
      simpa using hhead
    · have hlast := rdropWhile_last_not isCSpace _ hnil
      rw [Option.mem_def, getLast?_eq_some_getLast hnil, Option.some.injEq] at hc
      rw [hc] at hlast
      simpa using hlast

lemma isPiece_of_mem_split (h : s ∈ smartlistSplitString isSep skipped str) : IsPiece isSep s := by
  fun_induction smartlistSplitString isSep skipped str with
  | case1 str hrest => exact isPiece_of_mem_splitPiece h
  | case2 str c next hrest ih =>
    rcases mem_append.mp h with h | h
    · exact isPiece_of_mem_splitPiece h
    · exact ih h

/-! ## What is joined is split again -/

lemma IsPiece.dropWhile (h : IsPiece isSep s) (t : List Char) :
    (s ++ t).dropWhile isCSpace = s ++ t := by
  obtain ⟨c, u, rfl⟩ := exists_cons_of_ne_nil h.ne_nil
  exact dropWhile_cons_of_neg (by simpa using h.head c rfl)

lemma IsPiece.splitPiece (h : IsPiece isSep s) (ht : ∀ c ∈ t.head?, isSep c) :
    splitPiece isSep (s ++ t) = [s] ∧ (s ++ t).dropWhile (¬ isSep ·) = t := by
  have hs : ∀ c ∈ s, decide (¬ isSep c) = true := fun c hc => by simpa using h.sep c hc
  have hkeep : s.rdropWhile isCSpace = s := by
    rw [rdropWhile_eq_self_iff]
    intro hne
    have := h.last (s.getLast hne) (getLast?_eq_some_getLast hne)
    simpa using this
  rw [Text.splitPiece, takeWhile_append_of_pos hs, dropWhile_append_of_pos hs]
  cases t with
  | nil => simp [hkeep, h.ne_nil]
  | cons c t => simp [hkeep, h.ne_nil, ht c rfl]

/-- **Pieces that are joined are split again.** -/
theorem smartlistSplitString_join (h : ∀ s ∈ pieces, IsPiece isSep s) (hsep : isSep ' ')
    (hskipped : ∀ c, skipped c → isCSpace c) :
    smartlistSplitString isSep skipped (joinSpace pieces) = pieces := by
  induction pieces with
  | nil => rw [joinSpace, smartlistSplitString]; rfl
  | cons s pieces ih =>
    have hs := h s mem_cons_self
    have ih := ih fun t ht => h t (mem_cons_of_mem s ht)
    rw [smartlistSplitString]
    cases pieces with
    | nil =>
      have hjoin : joinSpace [s] = s ++ [] := by simp [joinSpace, intercalate]
      obtain ⟨hpiece, hrest⟩ := hs.splitPiece (t := []) (by simp)
      rw [hjoin, hs.dropWhile]
      split
      · exact hpiece
      · rename_i c next hnext
        rw [hrest] at hnext
        cases hnext
    | cons s' pieces =>
      have hjoin : joinSpace (s :: s' :: pieces) = s ++ ' ' :: joinSpace (s' :: pieces) := by
        simp [joinSpace, intercalate]
      obtain ⟨hpiece, hrest⟩ := hs.splitPiece (t := ' ' :: joinSpace (s' :: pieces))
        (by simpa using hsep)
      rw [hjoin, hs.dropWhile]
      split
      · rename_i hnil
        rw [hrest] at hnil
        cases hnil
      · rename_i c next hnext
        rw [hrest] at hnext
        obtain ⟨-, rfl⟩ := cons.inj hnext
        have hhead : (joinSpace (s' :: pieces)).dropWhile skipped = joinSpace (s' :: pieces) := by
          have hs' := h s' (by simp)
          obtain ⟨d, u, rfl⟩ := exists_cons_of_ne_nil hs'.ne_nil
          have hd : skipped d = false := by
            by_contra hd
            have := hs'.head d rfl
            rw [hskipped d (by simpa using hd)] at this
            cases this
          cases pieces <;> simp [joinSpace, intercalate, hd]
        rw [hpiece, hhead, ih]
        rfl

lemma isHorizontal_space {c : Char} (h : isHorizontal c) : isCSpace c := by
  simp only [isHorizontal, decide_eq_true_eq] at h
  rcases h with rfl | rfl <;> decide

lemma splitHorizontal_join (h : ∀ s ∈ pieces, IsPiece isHorizontal s) :
    splitHorizontal (joinSpace pieces) = pieces :=
  smartlistSplitString_join h (by decide) fun _ => isHorizontal_space

end Ator.Text
