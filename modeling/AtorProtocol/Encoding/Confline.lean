import AtorProtocol.Encoding.Escape
import AtorProtocol.Encoding.ParseInt
import Mathlib.Data.List.DropRight

/-!
# Configuration lines

`parse_config_line_from_str_verbose` and `config_get_lines` of `src/lib/encoding/confline.c`.  A
pointer into the string is the suffix it points at.

* `parseConfigLine` — one line, and where the next one starts.
* `configGetLines` — all lines of a string.
-/

namespace Ator.Text

open List

/-- The blanks between a key and its value. -/
def isBlank (c : Char) : Bool := c = ' ' ∨ c = '\t'

/-- `while (*line && *line != '\n') ++line;` -/
def toLineEnd (line : List Char) : List Char := line.dropWhile (· ≠ '\n')

/-- Skip until the first keyword; within a comment or not. -/
def skipToKeyword : Bool → List Char → List Char
  | _, [] => []
  | true, c :: line => if c = '\n' then skipToKeyword false line else skipToKeyword true line
  | false, c :: line =>
    if isCSpace c then skipToKeyword false line
    else if c = '#' then skipToKeyword true line
    else c :: line

/-- The keyword at the start of a line, up to the next space, comment or continuation. -/
def keywordOf : List Char → List Char
  | [] => []
  | c :: line =>
    if isCSpace c ∨ c = '#' ∨ (c = '\\' ∧ line.head? = some '\n') then []
    else c :: keywordOf line

/-- Look for the end of an unquoted value: the characters up to it, whether there was a
continuation, and the line from there.  `comment` is set within the comment of a continuation. -/
def valueEnd : (comment continuation : Bool) → List Char → List Char × Bool × List Char
  | _, continuation, [] => ([], continuation, [])
  | true, continuation, c :: line =>
    let (val, continuation, line) := valueEnd (c ≠ '\n') continuation line
    (c :: val, continuation, line)
  | false, _, '\\' :: '\n' :: line =>
    let (val, continuation, line) := valueEnd false true line
    ('\\' :: '\n' :: val, continuation, line)
  | false, continuation, c :: line =>
    if c = '\n' ∨ (c = '#' ∧ ¬ continuation) then ([], continuation, c :: line)
    else
      let (val, continuation, line) := valueEnd (c = '#') continuation line
      (c :: val, continuation, line)

/-- Copy out a value with continuations, without these and the comments in it. -/
def decodeContinuation : (comment : Bool) → List Char → List Char
  | _, [] => []
  | true, c :: v => decodeContinuation (c ≠ '\n') v
  | false, '\\' :: '\n' :: v => decodeContinuation false v
  | false, c :: v => if c = '#' then decodeContinuation true v else c :: decodeContinuation false v

/-- What is skipped behind a value. -/
def skipAfterValue (line : List Char) : List Char :=
  (if line.head? = some '#' then toLineEnd line else line).dropWhile isCSpace

/-- `if (*line == '\r' && *(++line) == '\n') ++line;` -/
def skipReturn : List Char → List Char
  | '\r' :: '\n' :: line => line
  | '\r' :: line => line
  | line => line

/-- What may stand behind a quoted string on its line; `none` for excess data. -/
def afterQuoted (line : List Char) : Option (List Char) :=
  let line := skipReturn (line.dropWhile isBlank)
  match line.head? with
  | none => some line
  | some c => if c = '#' ∨ c = '\n' then some line else none

/-- `if (*line == '\n') ++line;` -/
def skipNewline : List Char → List Char
  | '\n' :: line => line
  | line => line

/-- The value at the start of a line, and the line behind it; the message of an error. -/
def parseValue (line : List Char) : Except (List Char) (List Char × List Char) :=
  if line.head? = some '"' then
    match unescapeString line with
    | none => .error "Invalid escape sequence in quoted string".toList
    | some (value, line) =>
      match afterQuoted line with
      | none => .error "Excess data after quoted string".toList
      | some line => .ok (value, line)
  else
    let (val, continuation, line) := valueEnd false false line
    let value := val.rdropWhile isCSpace
    .ok (if continuation then decodeContinuation false value else value, skipNewline line)

/-- `parse_config_line_from_str_verbose`: the key and the value, if there is a line, and the start
of the next line. -/
def parseConfigLine (line : List Char) :
    Except (List Char) (Option (List Char × List Char) × List Char) :=
  match skipToKeyword false line with
  | [] => .ok (none, [])
  | line =>
    let key := keywordOf line
    match parseValue ((line.drop key.length).dropWhile isBlank) with
    | .error msg => .error msg
    | .ok (value, line) => .ok (some (key, value), skipAfterValue line)

/-! ## Each line is shorter than what is left -/

variable {line rest key value : List Char} {c : Char} {comment continuation : Bool}

lemma skipToKeyword_length (comment : Bool) (line : List Char) :
    (skipToKeyword comment line).length ≤ line.length := by
  fun_induction skipToKeyword comment line with
  | case1 => simp
  | case2 _ ih | case3 _ _ _ ih | case4 _ _ _ ih | case5 _ _ ih =>
    rw [length_cons]
    omega
  | case6 => simp

lemma skipToKeyword_eq_cons (h : skipToKeyword comment line = c :: rest) :
    isCSpace c = false ∧ c ≠ '#' := by
  fun_induction skipToKeyword comment line with
  | case1 => cases h
  | case2 _ ih | case3 _ _ _ ih | case4 _ _ _ ih | case5 _ _ ih => exact ih h
  | case6 d _ hspace hcomment =>
    obtain ⟨rfl, -⟩ := List.cons.inj h
    exact ⟨by simpa using hspace, hcomment⟩

lemma keywordOf_prefix (line : List Char) : keywordOf line <+: line := by
  induction line with
  | nil => exact nil_prefix
  | cons c line ih =>
    rw [keywordOf]
    split
    · exact nil_prefix
    · exact cons_prefix_cons.mpr ⟨rfl, ih⟩

lemma valueEnd_append (comment continuation : Bool) (line : List Char) :
    (valueEnd comment continuation line).1 ++ (valueEnd comment continuation line).2.2 = line := by
  fun_induction valueEnd comment continuation line with
  | case1 => rfl
  | case2 _ _ _ _ _ _ h ih | case3 _ _ _ _ _ h ih | case5 _ _ _ _ _ _ _ _ h ih => simp_all
  | case4 => rfl

lemma valueEnd_flag (h : continuation = true) :
    (valueEnd comment continuation line).2.1 = true := by
  fun_induction valueEnd comment continuation line with
  | case1 | case4 => exact h
  | case2 _ _ _ _ _ _ heq ih | case5 _ _ _ _ _ _ _ _ heq ih =>
    rw [heq] at ih
    exact ih h
  | case3 _ _ _ _ _ heq ih =>
    rw [heq] at ih
    exact ih rfl

lemma toLineEnd_length (line : List Char) : (toLineEnd line).length ≤ line.length :=
  (dropWhile_sublist _).length_le

lemma skipAfterValue_length (line : List Char) :
    (skipAfterValue line).length ≤ line.length := by
  rw [skipAfterValue]
  refine (dropWhile_sublist _).length_le.trans ?_
  split
  · exact toLineEnd_length line
  · exact Nat.le_refl _

lemma skipReturn_length (line : List Char) : (skipReturn line).length ≤ line.length := by
  unfold skipReturn
  split
  · simp only [length_cons]
    omega
  · simp
  · exact Nat.le_refl _

lemma afterQuoted_length (h : afterQuoted line = some rest) : rest.length ≤ line.length := by
  have hblank := (dropWhile_sublist isBlank (l := line)).length_le
  have hrest := skipReturn_length (line.dropWhile isBlank)
  unfold afterQuoted at h
  dsimp only at h
  split at h
  · obtain rfl := Option.some.inj h
    exact hrest.trans hblank
  · split at h
    · obtain rfl := Option.some.inj h
      exact hrest.trans hblank
    · cases h

lemma skipNewline_length (line : List Char) : (skipNewline line).length ≤ line.length := by
  unfold skipNewline
  split
  · simp
  · exact Nat.le_refl _

lemma parseValue_length (h : parseValue line = .ok (value, rest)) :
    rest.length ≤ line.length ∧ (line.head? = some '\\' → rest.length < line.length) := by
  unfold parseValue at h
  split at h
  · next hquote =>
      split at h
      · cases h
      · next hstring =>
          split at h
          · cases h
          · next hafter =>
              obtain ⟨-, rfl⟩ := Prod.mk.inj (Except.ok.inj h)
              obtain ⟨p, rfl, -, hlen⟩ := unescapeString_eq_some hstring
              have := afterQuoted_length hafter
              rw [length_append]
              refine ⟨by omega, fun hback => ?_⟩
              rw [hquote] at hback
              cases hback
  · obtain ⟨-, rfl⟩ := Prod.mk.inj (Except.ok.inj h)
    have hcut := congrArg List.length (valueEnd_append false false line)
    rw [length_append] at hcut
    have htail := skipNewline_length (valueEnd false false line).2.2
    refine ⟨htail.trans (by omega), fun hback => ?_⟩
    have hread : 0 < (valueEnd false false line).1.length := by
      obtain ⟨l, rfl⟩ : ∃ l, line = '\\' :: l := by
        cases line with
        | nil => cases hback
        | cons c l => exact ⟨l, by rw [Option.some.inj hback]⟩
      unfold valueEnd
      split <;> simp_all
    exact Nat.lt_of_le_of_lt htail (by omega)

lemma keywordOf_eq_nil (h : keywordOf (c :: rest) = []) (hc : isCSpace c = false) (hc' : c ≠ '#') :
    c = '\\' := by
  rw [keywordOf] at h
  split at h
  · next hor =>
      simp only [hc, Bool.false_eq_true, hc', false_or] at hor
      exact hor.1
  · cases h

/-- **A line that is read is not empty.** -/
lemma parseConfigLine_length {kv : List Char × List Char}
    (h : parseConfigLine line = .ok (some kv, rest)) : rest.length < line.length := by
  rw [parseConfigLine] at h
  have hskip := skipToKeyword_length false line
  split at h
  · cases h
  · next hne =>
      obtain ⟨c, l, hl⟩ := exists_cons_of_ne_nil (hne ·)
      obtain ⟨hspace, hcomment⟩ := skipToKeyword_eq_cons hl
      rw [hl] at h hskip
      dsimp only at h
      split at h
      · cases h
      · next value line' hvalue =>
          obtain ⟨-, rfl⟩ := Prod.mk.inj (Except.ok.inj h)
          obtain ⟨hle, hlt⟩ := parseValue_length hvalue
          have hafter := skipAfterValue_length line'
          have hblank := (dropWhile_sublist isBlank
            (l := (c :: l).drop (keywordOf (c :: l)).length)).length_le
          rw [length_drop] at hblank
          cases hkey : keywordOf (c :: l) with
          | nil =>
            obtain rfl := keywordOf_eq_nil hkey hspace hcomment
            rw [hkey] at hlt hblank
            have hread := hlt rfl
            omega
          | cons k ks =>
            rw [hkey] at hblank hle
            simp only [length_cons] at hblank hskip hle
            omega

/-! ## All lines -/

/-- `CONFIG_LINE_NORMAL` and the others. -/
inductive LineCommand where
  | normal
  | append
  | clear
  deriving DecidableEq

structure ConfigLine where
  key : List Char
  value : List Char
  command : LineCommand
  deriving DecidableEq

/-- A key and a value as a line; in the extended format the key may start with a command. -/
def configLineOf (extended : Bool) (kv : List Char × List Char) : ConfigLine :=
  if extended ∧ kv.1.head? = some '+' then ⟨kv.1.tail, kv.2, .append⟩
  else if extended ∧ kv.1.head? = some '/' then ⟨kv.1.tail, [], .clear⟩
  else ⟨kv.1, kv.2, .normal⟩

def configGetLines (extended : Bool) (string : List Char) : Except (List Char) (List ConfigLine) :=
  match _h : parseConfigLine string with
  | .error msg => .error msg
  | .ok (none, _) => .ok []
  | .ok (some kv, rest) =>
    if rest = [] then .ok [configLineOf extended kv]
    else
      match configGetLines extended rest with
      | .error msg => .error msg
      | .ok lines => .ok (configLineOf extended kv :: lines)
termination_by string.length
decreasing_by exact parseConfigLine_length _h

end Ator.Text
