import AtorProtocol.ConsDiff.Generate
import AtorProtocol.Encoding.Binascii

/-!
# Applying a consensus diff

`apply_ed_diff` and `consdiff_gen_diff` of `src/feature/dircommon/consdiff.c`.  The commands of a
diff come in reverse order, so the target document is built from its end.

* `parseEdCommand` — one command line.
* `applyEdDiff` — the whole script.
* `selfCheck`, `consdiffGenDiff` — a diff is published only after it has been tried.
-/

namespace Ator.ConsDiff

open Text

def int32Max : ℕ := 2 ^ 31 - 1

/-- A smartlist of lines; its length is an `int`. -/
structure Consensus where
  lines : List Line
  length_le : lines.length ≤ int32Max

/-- `get_linenum`: the number and what follows it, with `none` for -1. -/
def getLinenum (s : List Char) : Option (ℕ × List Char) :=
  if ¬ s.head?.any Char.isDigit then none else
  if digitsVal (digitsOf s) ≤ int32Max then some (digitsVal (digitsOf s), afterDigits s) else none

/-- The letter of an ed command. -/
inductive EdAction where
  | a
  | c
  | d
deriving DecidableEq

/-- A command line that passes every check but the one on the order of the commands. -/
structure EdCommand where
  start : ℕ
  stop : ℕ
  action : EdAction
deriving DecidableEq

/-- The range of a command: start, end, whether it has two parts, whether the end was `$`, and the
rest of the line. -/
def parseRange (len1 : ℕ) (line : List Char) : Option (ℕ × ℕ × Bool × Bool × List Char) :=
  match getLinenum line with
  | none => none
  | some (start, ',' :: '$' :: ptr) =>
    if len1 ≤ start then none else some (start, len1, true, true, ptr)
  | some (start, ',' :: ptr) =>
    match getLinenum ptr with
    | none => none
    | some (stop, ptr) => if stop ≤ start then none else some (start, stop, true, false, ptr)
  | some (start, ptr) => some (start, start, false, false, ptr)

/-- The head of the loop of `apply_ed_diff`.  The line is copied into a C string of 127 characters,
which ends at the first NUL. -/
def parseEdCommand (len1 : ℕ) (diffLine : Line) : Option EdCommand :=
  if diffLine.length > 127 then none else
  match parseRange len1 (beforeDelim (Char.ofNat 0) diffLine) with
  | none => none
  | some (start, stop, hadRange, endWasEof, ptr) =>
    match ptr with
    | ['a'] => if endWasEof ∨ hadRange then none else some ⟨start, stop, .a⟩
    | ['c'] => if endWasEof then none else some ⟨start, stop, .c⟩
    | ['d'] => some ⟨start, stop, .d⟩
    | _ => none

/-- `j` after a command has skipped the lines it removes: `while (--j >= start);` -/
def skipRemoved (cmd : EdCommand) (j : ℤ) : ℤ :=
  match cmd.action with
  | .a => j
  | .c | .d => min (j - 1) (cmd.start - 1)

/-- The commands of a diff on the first `j` lines of the base document; `cons2` is the end of the
target document that has been built. -/
def applyCommands (cons1 : List Line) : List Line → ℤ → List Line → Option (List Line)
  | [], j, cons2 => some (cons1.take j.toNat ++ cons2)
  | diffLine :: diff, j, cons2 =>
    match parseEdCommand cons1.length diffLine with
    | none => none
    | some cmd =>
      if cmd.stop > j then none else
      -- the unchanged lines behind the range
      let cons2 := (cons1.take j.toNat).drop cmd.stop ++ cons2
      let j := skipRemoved cmd cmd.stop
      if cmd.action = .d then applyCommands cons1 diff j cons2 else
      let body := diff.takeWhile (· ≠ ['.'])
      match _h : diff.dropWhile (· ≠ ['.']) with
      | [] => none
      | _ :: rest => if body = [] then none else applyCommands cons1 rest j (body ++ cons2)
termination_by diff => diff.length
decreasing_by
  · simp
  · have hle := (List.dropWhile_sublist (· ≠ ['.']) (l := diff)).length_le
    rw [_h, List.length_cons] at hle
    simp only [List.length_cons]
    omega

def applyEdDiff (cons1 diff : List Line) (diffStartingLine : ℕ) : Option (List Line) :=
  applyCommands cons1 (diff.drop diffStartingLine) cons1.length []

/-- The trial in `consdiff_gen_diff`: the diff can be applied, and the result has as many lines as
the target and the same ones. -/
def selfCheck (cons1 cons2 edDiff : List Line) : Bool :=
  match applyEdDiff cons1 edDiff 0 with
  | none => false
  | some edCons2 => cons2.length == edCons2.length && (cons2.zip edCons2).all fun p => p.1 == p.2

def nsDiffVersion : Line := "network-status-diff-version 1".toList

def hashToken : Line := "hash".toList

def consdiffGenDiff (cons1 cons2 : List Line) (digests1 digests2 : Bytes) : Option (List Line) :=
  match genEdDiff cons1 cons2 with
  | none => none
  | some edDiff =>
    if ¬ selfCheck cons1 cons2 edDiff then none else
    some ([nsDiffVersion, hashToken ++ ' ' :: (base16Encode digests1 ++ ' ' ::
      base16Encode digests2)] ++ edDiff)

end Ator.ConsDiff
