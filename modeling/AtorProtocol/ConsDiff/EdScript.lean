import AtorProtocol.ConsDiff.Commands

/-!
# Ed scripts

What `apply_ed_diff` of `src/feature/dircommon/consdiff.c` accepts, and what it makes of it.

* `Edit`, `IsScript` — the commands of a script with the lines that they put in, and their text.
* `Descending` — each command ends before what the one in front of it has touched.
* `Edit.splice` — a command on a document.
* `applyCommands_eq_some_iff` — a script is applied exactly if it is the text of descending
  commands, and the result is what they make of the document one after the other.
-/

namespace Ator.ConsDiff

open Text List

/-! ## Scripts -/

/-- A command and the lines that it puts in. -/
structure Edit where
  cmd : EdCommand
  body : List Line
  body_d : cmd.action = .d → body = []
  body_ne_nil : cmd.action ≠ .d → body ≠ []
  body_dot : ['.'] ∉ body

/-- A command that removes lines. -/
def Edit.delete (cmd : EdCommand) (ha : cmd.action = .d) : Edit where
  cmd := cmd
  body := []
  body_d _ := rfl
  body_ne_nil hne := absurd ha hne
  body_dot := not_mem_nil

/-- A command that puts lines in. -/
def Edit.insert (cmd : EdCommand) (ha : cmd.action ≠ .d) (body : List Line) (hbody : body ≠ [])
    (hdot : ['.'] ∉ body) : Edit where
  cmd := cmd
  body := body
  body_d heq := absurd heq ha
  body_ne_nil _ := hbody
  body_dot := hdot

/-- What stands behind the command line: the lines that are put in, and a lone dot. -/
def Edit.text (edit : Edit) : List Line := if edit.cmd.action = .d then [] else edit.body ++ [['.']]

/-- The line of a command, which may go on behind a NUL. -/
def IsCommandLine (len1 : ℕ) (line : Line) (cmd : EdCommand) : Prop :=
  line.length ≤ 127 ∧ IsCommand len1 (beforeDelim (Char.ofNat 0) line) cmd

/-- The text of commands on a document of `len1` lines. -/
inductive IsScript (len1 : ℕ) : List Line → List Edit → Prop
  | nil : IsScript len1 [] []
  | cons {line : Line} {edit : Edit} {diff : List Line} {edits : List Edit}
      (hline : IsCommandLine len1 line edit.cmd) (hdiff : IsScript len1 diff edits) :
      IsScript len1 (line :: (edit.text ++ diff)) (edit :: edits)

/-- The number of the last line in front of those that a command touches; -1 for one that removes
lines from line 0 on. -/
def EdCommand.before (cmd : EdCommand) : ℤ := if cmd.action = .a then cmd.stop else cmd.start - 1

/-- Each command ends at or before what the one in front of it leaves. -/
def Descending : ℤ → List Edit → Prop
  | _, [] => True
  | j, edit :: edits => edit.cmd.stop ≤ j ∧ Descending edit.cmd.before edits

/-- A command on a document: its lines take the place of the removed ones. -/
def Edit.splice (doc : List Line) (edit : Edit) : List Line :=
  doc.take edit.cmd.before.toNat ++ edit.body ++ doc.drop edit.cmd.stop

variable {cons1 cons2 diff tail : List Line} {line : Line} {len1 : ℕ} {j : ℤ} {cmd : EdCommand}
  {edit : Edit} {edits : List Edit}

lemma IsCommand.start_le (h : IsCommand len1 line cmd) : cmd.start ≤ cmd.stop := by
  cases h with
  | line action hs => exact le_rfl
  | range hs ht hlt haction => exact hlt.le
  | toEnd hs hlt => exact hlt.le

lemma IsCommandLine.before_le (h : IsCommandLine len1 line cmd) : cmd.before ≤ cmd.stop := by
  have hle := h.2.start_le
  rw [EdCommand.before]
  split_ifs <;> omega

lemma IsCommandLine.skipRemoved (h : IsCommandLine len1 line cmd) :
    skipRemoved cmd cmd.stop = cmd.before := by
  have hle := h.2.start_le
  rw [ConsDiff.skipRemoved, EdCommand.before]
  cases cmd.action with
  | a => rfl
  | c | d => simp only [reduceCtorEq, if_false]; omega

lemma Edit.splice_take (hbefore : edit.cmd.before ≤ edit.cmd.stop) (hstop : edit.cmd.stop ≤ j)
    (hj : j ≤ cons1.length) :
    edit.splice (cons1.take j.toNat ++ tail) = cons1.take edit.cmd.before.toNat
        ++ (edit.body ++ ((cons1.take j.toNat).drop edit.cmd.stop ++ tail)) := by
  have hlen : (cons1.take j.toNat).length = j.toNat := by
    rw [List.length_take]
    omega
  rw [Edit.splice, take_append_of_le_length (by omega), take_take,
    drop_append_of_le_length (by omega), min_eq_left (by omega), append_assoc]

lemma applyCommands_delete (hcmd : parseEdCommand cons1.length line = some cmd) (ha : cmd.action = .d)
    (hj : cmd.stop ≤ j) :
    applyCommands cons1 (line :: diff) j tail = applyCommands cons1 diff (skipRemoved cmd cmd.stop)
          ((cons1.take j.toNat).drop cmd.stop ++ tail) := by
  rw [applyCommands, hcmd]
  simp only
  rw [if_neg (by omega), if_pos ha]

lemma takeWhile_body {body : List Line} (rest : List Line) (h : ['.'] ∉ body) :
    (body ++ ['.'] :: rest).takeWhile (· ≠ ['.']) = body
      ∧ (body ++ ['.'] :: rest).dropWhile (· ≠ ['.']) = ['.'] :: rest := by
  have hne : ∀ line ∈ body, decide (line ≠ ['.']) = true := fun line hline => by
    have : line ≠ ['.'] := fun e => h (e ▸ hline)
    simpa using this
  rw [takeWhile_append_of_pos hne, dropWhile_append_of_pos hne]
  simp

lemma applyCommands_insert {body rest : List Line}
    (hcmd : parseEdCommand cons1.length line = some cmd) (ha : cmd.action ≠ .d)
    (hj : cmd.stop ≤ j) (hbody : body ≠ []) (hdot : ['.'] ∉ body) :
    applyCommands cons1 (line :: (body ++ ['.'] :: rest)) j tail
      = applyCommands cons1 rest (skipRemoved cmd cmd.stop)
          (body ++ ((cons1.take j.toNat).drop cmd.stop ++ tail)) := by
  obtain ⟨htake, hdrop⟩ := takeWhile_body rest hdot
  rw [applyCommands, hcmd]
  simp only
  rw [if_neg (by omega), if_neg ha, htake]
  split
  · next h =>
      rw [hdrop] at h
      cases h
  · next h =>
      rw [hdrop] at h
      rw [if_neg hbody, (List.cons.inj h).2]

/-! ## What is applied -/

lemma IsScript.applyCommands (h : IsScript cons1.length diff edits) (hdesc : Descending j edits)
    (hj : j ≤ cons1.length) :
    applyCommands cons1 diff j tail
      = some (edits.foldl Edit.splice (cons1.take j.toNat ++ tail)) := by
  induction h generalizing j tail with
  | nil => rw [ConsDiff.applyCommands, foldl_nil]
  | @cons line edit diff edits hline hdiff ih =>
    obtain ⟨hstop, hrest⟩ := hdesc
    have hbefore := hline.before_le
    have hcmd := parseEdCommand_eq_some_iff.mpr hline
    rw [foldl_cons, Edit.splice_take hbefore hstop hj, ← ih hrest (by omega), ← hline.skipRemoved]
    by_cases ha : edit.cmd.action = .d
    · rw [Edit.text, if_pos ha, nil_append, applyCommands_delete hcmd ha hstop,
        edit.body_d ha, nil_append]
    · rw [Edit.text, if_neg ha, append_assoc, singleton_append,
        applyCommands_insert hcmd ha hstop (edit.body_ne_nil ha) edit.body_dot]

lemma IsScript.delete (h : IsScript len1 diff edits) (ha : cmd.action = .d)
    (hline : IsCommandLine len1 line cmd) :
    IsScript len1 (line :: diff) (Edit.delete cmd ha :: edits) := by
  have hcons : IsScript len1 (line :: ((Edit.delete cmd ha).text ++ diff))
      (Edit.delete cmd ha :: edits) := .cons hline h
  have htext : (Edit.delete cmd ha).text = [] := if_pos ha
  rw [htext, nil_append] at hcons
  exact hcons

lemma eq_of_dropWhile {rest : List Line} {dot : Line}
    (h : diff.dropWhile (· ≠ ['.']) = dot :: rest) :
    ['.'] ∉ diff.takeWhile (· ≠ ['.']) ∧ diff = diff.takeWhile (· ≠ ['.']) ++ ['.'] :: rest := by
  have hfirst := head?_dropWhile_not (fun line : Line => decide (line ≠ ['.'])) diff
  have hsplit : diff.takeWhile (· ≠ ['.']) ++ diff.dropWhile (· ≠ ['.']) = diff :=
    takeWhile_append_dropWhile
  rw [h] at hfirst hsplit
  have hdot : dot = ['.'] := by simpa using hfirst
  constructor
  · intro hmem
    simpa using mem_takeWhile_imp hmem
  · rw [hdot] at hsplit
    exact hsplit.symm

lemma IsScript.insert {body rest : List Line} (h : IsScript len1 rest edits) (ha : cmd.action ≠ .d)
    (hline : IsCommandLine len1 line cmd) (hbody : body ≠ []) (hdot : ['.'] ∉ body) :
    IsScript len1 (line :: (body ++ ['.'] :: rest)) (Edit.insert cmd ha body hbody hdot :: edits) := by
  have hcons : IsScript len1 (line :: ((Edit.insert cmd ha body hbody hdot).text ++ rest))
      (Edit.insert cmd ha body hbody hdot :: edits) := .cons hline h
  have htext : (Edit.insert cmd ha body hbody hdot).text = body ++ [['.']] := if_neg ha
  rw [htext, append_assoc, singleton_append] at hcons
  exact hcons

lemma exists_isScript (h : applyCommands cons1 diff j tail = some cons2) :
    ∃ edits, IsScript cons1.length diff edits ∧ Descending j edits := by
  fun_induction applyCommands cons1 diff j tail with
  | case1 j tail => exact ⟨[], .nil, trivial⟩
  | case2 line diff j tail hcmd => cases h
  | case3 line diff j tail cmd hcmd hstop => cases h
  | case4 line diff j tail cmd hcmd hstop tail' j' ha ih =>
    obtain ⟨edits, hscript, hdesc⟩ := ih h
    have hline : IsCommandLine cons1.length line cmd := parseEdCommand_eq_some_iff.mp hcmd
    rw [show j' = cmd.before from hline.skipRemoved] at hdesc
    exact ⟨_, hscript.delete ha hline, not_lt.mp hstop, hdesc⟩
  | case5 => cases h
  | case6 => cases h
  | case7 line diff j tail cmd hcmd hstop tail' j' ha body dot rest hdot hbody ih =>
    obtain ⟨edits, hscript, hdesc⟩ := ih h
    have hline : IsCommandLine cons1.length line cmd := parseEdCommand_eq_some_iff.mp hcmd
    obtain ⟨hnot, hdiff⟩ := eq_of_dropWhile hdot
    rw [show j' = cmd.before from hline.skipRemoved] at hdesc
    rw [hdiff]
    exact ⟨_, hscript.insert ha hline hbody hnot, not_lt.mp hstop, hdesc⟩

/-- **A script is applied exactly if it is the text of descending commands.**  The document is
the first `j` lines of the base document, followed by `tail`. -/
theorem applyCommands_eq_some_iff (hj : j ≤ cons1.length) :
    applyCommands cons1 diff j tail = some cons2
      ↔ ∃ edits, IsScript cons1.length diff edits ∧ Descending j edits
        ∧ cons2 = edits.foldl Edit.splice (cons1.take j.toNat ++ tail) := by
  constructor
  · intro h
    obtain ⟨edits, hscript, hdesc⟩ := exists_isScript h
    rw [hscript.applyCommands hdesc hj, Option.some.injEq] at h
    exact ⟨edits, hscript, hdesc, h.symm⟩
  · rintro ⟨edits, hscript, hdesc, rfl⟩
    exact hscript.applyCommands hdesc hj

end Ator.ConsDiff
