import Mathlib.Algebra.Ring.Nat
import Mathlib.Data.List.Basic

/-!
# Escaped data on a control connection

`write_escaped_data` and `read_escaped_data` of `src/feature/control/control_proto.c`.

* `Escapes` — what is written is a sequence of lines, fits in the buffer and is read back.
* `escapes_iff` — it is so unless the data begins with an LF, or is too long to be written.
-/

namespace Ator.Control

open List Option

def sizeMax : ℕ := 2 ^ 64 - 1
def sizeTCeiling : ℕ := 2 ^ 63 - 1 - 16
def crlf : List Char := ['\r', '\n']

/-! ## Writing -/

/-- The loop over the LFs of the data: `sz_out`, or `none` where it reaches the ceiling. -/
def sizeLoop (szOut : ℕ) : List Char → Option ℕ
  | [] => some szOut
  | c :: data =>
    if c = '\n' then if szOut + 2 ≥ sizeTCeiling then none else sizeLoop (szOut + 2) data
    else sizeLoop szOut data

/-- The loop of `write_escaped_data`; `prev` is `data[-1]`, unless `data` is at its start. -/
def writeLoop (prev : Option Char) (startOfLine : Bool) : List Char → List Char
  | [] => []
  | c :: data =>
    if c = '\n' then
      (if prev.any (· ≠ '\r') then ['\r'] else []) ++ c :: writeLoop (some c) true data
    else if c = '.' then (if startOfLine then ['.'] else []) ++ c :: writeLoop (some c) false data
    else c :: writeLoop (some c) false data

/-- The text with a last line that is ended. -/
def finish (out : List Char) : List Char := if crlf <:+ out then out else out ++ crlf

/-- `write_escaped_data`: what is in `*out`, and how many bytes are allocated; `none` where an
assertion fails. -/
def writeEscapedData (data : List Char) : Option (List Char × ℕ) :=
  if data.length < sizeMax - 9 then
    match sizeLoop (data.length + 8 + 1) data with
    | none => some ('.' :: crlf, 4)
    | some szOut =>
      let out := finish (writeLoop none true data) ++ '.' :: crlf
      if out.length ≤ szOut then some (out, szOut) else none
  else none

/-! ## Reading -/

/-- The line in front of an LF, without the CR that precedes it. -/
def withoutCr (line : List Char) : List Char :=
  if line.getLast? = some '\r' then line.dropLast else line

lemma length_afterLf_lt {data : List Char} (h : data ≠ []) :
    ((if data.head? = some '.' then data.tail else data).dropWhile (· ≠ '\n')).tail.length
      < data.length := by
  have hpos := length_pos_iff.mpr h
  have hdrop := (dropWhile_sublist (· ≠ '\n')
    (l := if data.head? = some '.' then data.tail else data)).length_le
  have hle : (if data.head? = some '.' then data.tail else data).length ≤ data.length := by
    split <;> simp
  rw [length_tail]
  omega

def readEscapedData (data : List Char) : List Char :=
  if _h : data = [] then []
  else
    let data' := if data.head? = some '.' then data.tail else data
    if '\n' ∈ data' then
      withoutCr (data'.takeWhile (· ≠ '\n')) ++ '\n' ::
        readEscapedData (data'.dropWhile (· ≠ '\n')).tail
    else data'
termination_by data.length
decreasing_by exact length_afterLf_lt _h

/-! ## Lines -/

/-- Each CRLF turned into an LF. -/
def fromCrlf : List Char → List Char
  | [] => []
  | c :: s => if c = '\r' ∧ s.head? = some '\n' then fromCrlf s else c :: fromCrlf s

/-- Text that ends with a newline, which is added where it is missing. -/
def withNewline (s : List Char) : List Char := if s.getLast? = some '\n' then s else s ++ ['\n']

/-- What is written is a sequence of lines ended by CRLF, none of them a lone `.`, in front of the
one that is; it fits in the buffer with a NUL; and it is read back. -/
def Escapes (data : List Char) : Prop :=
  ∃ (lines : List (List Char)) (szOut : ℕ),
    writeEscapedData data = some (lines.flatMap (· ++ crlf) ++ '.' :: crlf, szOut)
      ∧ (lines.flatMap (· ++ crlf) ++ '.' :: crlf).length + 1 ≤ szOut
      ∧ (∀ line ∈ lines, '\n' ∉ line ∧ line ≠ ['.'])
      ∧ readEscapedData (lines.flatMap (· ++ crlf)) = withNewline (fromCrlf data)

/-- A line as it is written. -/
def stuff (line : List Char) : List Char := if line.head? = some '.' then '.' :: line else line

/-- The data is empty, or ends with an LF. -/
def Ended (data : List Char) : Prop := data = [] ∨ data.getLast? = some '\n'

instance decidableEnded (data : List Char) : Decidable (Ended data) :=
  inferInstanceAs (Decidable (data = [] ∨ data.getLast? = some '\n'))

variable {l s data : List Char} {prev : Option Char} {b : Bool} {szOut : ℕ}

lemma writeLoop_line {p : Option Char} (hl : '\n' ∉ l) : writeLoop p b (l ++ s)
    = (if b then stuff l else l) ++ writeLoop (l.getLast?.or p) (b && l.isEmpty) s := by
  induction l generalizing p b with
  | nil => simp [stuff]
  | cons c l ih =>
    have hc : c ≠ '\n' := fun h => hl (by simp [h])
    have hlast : (c :: l).getLast?.or p = l.getLast?.or (some c) := by
      cases h : l.getLast? <;> simp [getLast?_cons, h]
    rw [hlast]
    by_cases hdot : c = '.'
    · cases b <;> simp_all [writeLoop, stuff]
    · cases b <;> simp_all [writeLoop, stuff]

lemma withoutCr_concat (l : List Char) : withoutCr (l ++ ['\r']) = l := by simp [withoutCr]

lemma writeLoop_lf (hl : '\n' ∉ l) : writeLoop (some '\n') true (l ++ '\n' :: s)
    = stuff (withoutCr l) ++ crlf ++ writeLoop (some '\n') true s := by
  rw [writeLoop_line hl]
  rcases eq_nil_or_concat l with rfl | ⟨l, c, rfl⟩
  · simp [writeLoop, stuff, withoutCr, crlf]
  by_cases hc : c = '\r'
  · subst hc
    have hlast : (l ++ ['\r']).getLast?.or (some '\n') = some '\r' := by simp
    rw [concat_eq_append, withoutCr_concat, hlast]
    cases l with
    | nil => simp [writeLoop, stuff, crlf]
    | cons c l => by_cases hdot : c = '.' <;> simp [writeLoop, stuff, crlf, hdot]
  · simp [writeLoop, withoutCr, hc, crlf]

lemma readEscapedData_line (hl : '\n' ∉ l) :
    readEscapedData (stuff l ++ crlf ++ s) = l ++ '\n' :: readEscapedData s := by
  have hstuff : (if (stuff l ++ crlf ++ s).head? = some '.' then (stuff l ++ crlf ++ s).tail
      else stuff l ++ crlf ++ s) = l ++ '\r' :: '\n' :: s := by
    rw [stuff]
    split
    · simp [crlf]
    · cases l <;> simp_all [crlf]
  have hne : ∀ c ∈ l, decide (c ≠ '\n') = true := fun c hc => by
    simpa using fun h : c = '\n' => hl (h ▸ hc)
  rw [readEscapedData, dif_neg (by simp [crlf])]
  simp only [hstuff]
  rw [if_pos (by simp), takeWhile_append_of_pos hne, dropWhile_append_of_pos hne]
  simp [withoutCr_concat]

lemma fromCrlf_append (hl : '\n' ∉ l) (hs : l.getLast? ≠ some '\r' ∨ s.head? ≠ some '\n') :
    fromCrlf (l ++ s) = l ++ fromCrlf s := by
  induction l with
  | nil => rfl
  | cons c l ih =>
    rw [cons_append, fromCrlf, if_neg, ih fun h => hl (mem_cons_of_mem _ h)]
    · rfl
    · cases l <;> simp_all [getLast?_cons]
    · rintro ⟨rfl, hhead⟩
      cases l <;> simp_all

lemma fromCrlf_lf (hl : '\n' ∉ l) :
    fromCrlf (l ++ '\n' :: s) = withoutCr l ++ '\n' :: fromCrlf s := by
  have hlf : fromCrlf ('\n' :: s) = '\n' :: fromCrlf s := by simp [fromCrlf]
  rcases eq_nil_or_concat l with rfl | ⟨l, c, rfl⟩
  · exact hlf
  rw [concat_eq_append] at hl ⊢
  by_cases hc : c = '\r'
  · subst hc
    rw [withoutCr_concat, append_assoc, fromCrlf_append (by simp_all) (by simp)]
    simp [fromCrlf]
  · rw [fromCrlf_append hl (by simp [hc]), hlf]
    simp [withoutCr, hc]

/-- **From the start of a line on**, the text is lines that are read back. -/
lemma exists_lines (data : List Char) : ∃ lines : List (List Char),
    writeLoop (some '\n') true data ++ (if Ended data then [] else crlf) = lines.flatMap (· ++ crlf)
      ∧ (∀ line ∈ lines, '\n' ∉ line ∧ line ≠ ['.'])
      ∧ readEscapedData (lines.flatMap (· ++ crlf))
        = fromCrlf data ++ if Ended data then [] else ['\n'] := by
  have hread : readEscapedData [] = [] := by rw [readEscapedData, dif_pos rfl]
  have hstuff : ∀ l : List Char, '\n' ∉ l → '\n' ∉ stuff l ∧ stuff l ≠ ['.'] := by
    intro l hl
    rw [stuff]
    split
    · cases l <;> simp_all
    · refine ⟨hl, ?_⟩
      rintro rfl
      simp_all
  induction hn : data.length using Nat.strong_induction_on generalizing data with
  | _ n ih =>
    by_cases hlf : '\n' ∈ data
    · obtain ⟨l, s, rfl, hl⟩ := eq_append_cons_of_mem hlf
      obtain ⟨lines, hwrite, hlines, hback⟩ := ih s.length (by rw [← hn]; simp; omega) s rfl
      have hended : Ended (l ++ '\n' :: s) ↔ Ended s := by
        rw [Ended, Ended, getLast?_append]
        cases s <;> simp [getLast?_cons]
      have hcr : '\n' ∉ withoutCr l := by
        rw [withoutCr]
        split
        · exact fun h => hl (dropLast_subset _ h)
        · exact hl
      refine ⟨stuff (withoutCr l) :: lines, ?_, ?_, ?_⟩
      · rw [writeLoop_lf hl, append_assoc, flatMap_cons]
        simp only [hended, hwrite]
      · simpa using ⟨hstuff _ hcr, hlines⟩
      · rw [flatMap_cons, readEscapedData_line hcr, hback, fromCrlf_lf hl]
        simp [hended]
    · by_cases hnil : data = []
      · exact ⟨[], by simp [hnil, Ended, writeLoop], by simp, by simp [hnil, Ended, fromCrlf, hread]⟩
      have hended : ¬ Ended data := by
        rintro (h | h)
        · exact hnil h
        · exact hlf (mem_of_getLast? h)
      have hline := writeLoop_line (p := some '\n') (b := true) (s := []) hlf
      have hback := readEscapedData_line (s := []) hlf
      have hfrom := fromCrlf_append (s := []) hlf (.inr (by simp))
      rw [append_nil] at hline hback hfrom
      refine ⟨[stuff data], ?_, by simpa using hstuff data hlf, ?_⟩
      · rw [hline, if_neg hended]
        simp [writeLoop]
      · rw [flatMap_singleton, hback, hread, if_neg hended, hfrom]
        simp [fromCrlf]

/-! ## The text and its buffer -/

lemma getLast?_writeLoop : (writeLoop prev b data).getLast? = data.getLast? := by
  induction data generalizing prev b with
  | nil => rfl
  | cons c data ih =>
    rw [writeLoop]
    split_ifs <;> simp [getLast?_cons, ih]

lemma length_writeLoop_le : (writeLoop prev b data).length
    ≤ data.length + 2 * data.count '\n' + if b then 1 else 0 := by
  induction data generalizing prev b with
  | nil => simp [writeLoop]
  | cons c data ih =>
    rw [writeLoop]
    grind

lemma sizeLoop_eq : sizeLoop szOut data
    = if '\n' ∈ data → szOut + 2 * data.count '\n' < sizeTCeiling then
        some (szOut + 2 * data.count '\n') else none := by
  induction data generalizing szOut with
  | nil => simp [sizeLoop]
  | cons c data ih =>
    rw [sizeLoop, ih, ih]
    grind

lemma getLast?_fromCrlf (data : List Char) : (fromCrlf data).getLast? = data.getLast? := by
  induction data with
  | nil => rfl
  | cons c s ih =>
    rw [fromCrlf]
    split
    · next h => cases s <;> simp_all [getLast?_cons]
    · simp [getLast?_cons, ih]

lemma head?_lines {lines : List (List Char)} (h : ∀ line ∈ lines, '\n' ∉ line ∧ line ≠ ['.']) :
    (lines.flatMap (· ++ crlf)).head? ≠ some '\n' := by
  cases lines with
  | nil => simp
  | cons line lines => cases line <;> simp_all [crlf, eq_comm]

lemma head?_finish : (finish (writeLoop none true ('\n' :: data))).head? = some '\n' := by
  rw [finish]
  split <;> simp [writeLoop]

lemma finish_eq {lines : List (List Char)} (hnil : data ≠ [])
    (hwrite : writeLoop (some '\n') true data ++ (if Ended data then [] else crlf)
      = lines.flatMap (· ++ crlf)) :
    finish (writeLoop (some '\n') true data) = lines.flatMap (· ++ crlf) := by
  have hlast : (writeLoop (some '\n') true data).getLast? = data.getLast? := getLast?_writeLoop
  rw [finish, ← hwrite]
  by_cases hended : Ended data
  · rw [if_pos hended, append_nil] at hwrite ⊢
    rw [if_pos]
    rcases eq_nil_or_concat lines with rfl | ⟨lines, line, rfl⟩
    · rw [hwrite, hended.resolve_left hnil] at hlast
      cases hlast
    · rw [hwrite, concat_eq_append, flatMap_append, flatMap_singleton, ← append_assoc]
      exact suffix_append _ _
  · rw [if_neg hended, if_neg]
    rintro ⟨out, hout⟩
    rw [← hout] at hlast
    exact hended (.inr (hlast.symm.trans (by simp [crlf])))

/-- Data that does not begin with an LF, and is short enough for the size of the buffer. -/
def CanEscape (data : List Char) : Prop :=
  data.head? ≠ some '\n' ∧ data.length < sizeMax - 9
    ∧ ('\n' ∈ data → data.length + 8 + 1 + 2 * data.count '\n' < sizeTCeiling)

/-- **Escaped data is lines, and is read back**, but for data that begins with an LF. -/
theorem escapes_iff (data : List Char) : Escapes data ↔ CanEscape data := by
  have hread : readEscapedData [] = [] := by rw [readEscapedData, dif_pos rfl]
  constructor
  · rintro ⟨lines, szOut, hout, -, hlines, hback⟩
    rw [writeEscapedData, sizeLoop_eq] at hout
    split at hout
    · next hlength =>
      split at hout
      · -- the text is too long, and nothing of it is written
        have htext : [] ++ '.' :: crlf = lines.flatMap (· ++ crlf) ++ '.' :: crlf :=
          (Prod.mk.inj (some.inj hout)).1
        rw [← append_cancel_right htext, hread, withNewline] at hback
        split at hback
        · next hlast =>
          rw [← hback] at hlast
          cases hlast
        · simp at hback
      · next hsize =>
        refine ⟨fun hhead => ?_, hlength, by_contra fun hlong => ?_⟩
        · obtain ⟨s, rfl⟩ := head?_eq_some_iff.mp hhead
          simp only at hout
          split at hout
          · have hfinish := append_cancel_right (Prod.mk.inj (some.inj hout)).1
            exact head?_lines hlines (hfinish ▸ head?_finish)
          · cases hout
        · rw [if_neg hlong] at hsize
          cases hsize
    · cases hout
  · rintro ⟨hhead, hlength, hsize⟩
    rcases eq_or_ne data [] with rfl | hnil
    · have hcrlf : readEscapedData crlf = ['\n'] := by
        simpa [stuff, hread] using readEscapedData_line (l := []) (s := []) (by simp)
      exact ⟨[[]], 9, by decide, by decide, by simp, hcrlf⟩
    obtain ⟨lines, hwrite, hlines, hback⟩ := exists_lines data
    have hstart : writeLoop none true data = writeLoop (some '\n') true data := by
      cases data with
      | nil => rfl
      | cons c data =>
        have hc : c ≠ '\n' := by simpa using hhead
        simp [writeLoop, hc]
    have hfinish := finish_eq hnil hwrite
    have hfits : (lines.flatMap (· ++ crlf) ++ '.' :: crlf).length + 1
        ≤ data.length + 8 + 1 + 2 * data.count '\n' := by
      have hbound : (writeLoop (some '\n') true data).length
          ≤ data.length + 2 * data.count '\n' + 1 := length_writeLoop_le
      have hcrlf : crlf.length = 2 := rfl
      rw [← hfinish, finish, length_append, length_cons]
      split
      · omega
      · rw [length_append]
        omega
    refine ⟨lines, _, ?_, hfits, hlines, ?_⟩
    · rw [writeEscapedData, if_pos hlength, sizeLoop_eq, if_pos hsize]
      simp only [hstart, hfinish]
      rw [if_pos (by omega)]
    · rw [hback, withNewline, getLast?_fromCrlf]
      by_cases hended : data.getLast? = some '\n' <;> simp [Ended, hnil, hended]

/-- The first LF gets no CR. -/
theorem not_escapes_newline :
    writeEscapedData ['\n'] = some (['\n', '\r', '\n'] ++ '.' :: crlf, 12) ∧ ¬ Escapes ['\n'] := by
  have hout : writeEscapedData ['\n'] = some (['\n', '\r', '\n'] ++ '.' :: crlf, 12) := by decide
  refine ⟨hout, ?_⟩
  rintro ⟨lines, szOut, hout', -, hlines, -⟩
  have htext := append_cancel_right (Prod.mk.inj (some.inj (hout.symm.trans hout'))).1
  exact head?_lines hlines (htext ▸ rfl)

end Ator.Control
