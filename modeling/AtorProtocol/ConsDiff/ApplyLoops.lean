import AtorProtocol.ConsDiff.EdScript

/-!
# The loops of `apply_ed_diff`

`apply_ed_diff` of `src/feature/dircommon/consdiff.c` with its two cursors: `i` in the diff and `j` in
the base document.  The outer `none` is a read outside of a list, the inner one the `NULL` of a diff
that is not properly formatted.

* `applyEdDiffAt` — the loops over the indices of both lists.
* `applyEdDiffAt_eq` — no index is outside of its list, and the result is that of `applyEdDiff`.
* `applyEdDiffAt_splices` — which diffs are applied, and what they make of the base document.
-/

namespace Ator.ConsDiff

open List
open Option (some.inj)

/-- `smartlist_get`; `none` outside of the list. -/
def smartlistGet (sl : List Line) (idx : ℤ) : Option Line :=
  if idx < 0 then none else sl[idx.toNat]?

/-- "Add unchanged lines.": `for (; j && j > end; --j)` -/
def addUnchanged (cons1 : List Line) (stop : ℕ) (j : ℤ) (cons2 : List Line) :
    Option (ℤ × List Line) :=
  if j ≠ 0 ∧ j > stop then
    match smartlistGet cons1 (j - 1) with
    | none => none
    | some consLine => addUnchanged cons1 stop (j - 1) (cons2 ++ [consLine])
  else some (j, cons2)
termination_by j.toNat

/-- "Ignore removed lines.": `while (--j >= start)` -/
def ignoreRemoved (start : ℕ) (j : ℤ) : ℤ :=
  if j - 1 ≥ start then ignoreRemoved start (j - 1) else j - 1
termination_by j.toNat

/-- The index of the dot that ends the lines to be inserted; the inner `none` where they "don't end
with a `.`". -/
def findDot (diff : List Line) (i : ℕ) : Option (Option ℕ) :=
  if i < diff.length then
    match smartlistGet diff i with
    | none => none
    | some line =>
      if line = ['.'] then some (some i)
      else if i + 1 = diff.length then some none
      else findDot diff (i + 1)
  else some (some i)
termination_by diff.length - i

/-- "Add new lines in reverse order": `while (added_i > added_end)` -/
def addNew (diff : List Line) (addedEnd addedI : ℕ) (cons2 : List Line) : Option (List Line) :=
  if addedI > addedEnd then
    match smartlistGet diff addedI with
    | none => none
    | some addedLine => addNew diff addedEnd (addedI - 1) (cons2 ++ [addedLine])
  else some cons2
termination_by addedI

lemma le_findDot {diff : List Line} {i k : ℕ} (h : findDot diff i = some (some k)) : i ≤ k := by
  fun_induction findDot diff i with
  | case1 i hlt hget => cases h
  | case2 i hlt hget =>
    simp only [Option.some.injEq] at h
    omega
  | case3 i hlt line hget hdot hlast => simp at h
  | case4 i hlt line hget hdot hlast ih => exact (Nat.le_succ i).trans (ih h)
  | case5 i hge =>
    simp only [Option.some.injEq] at h
    omega

/-- The loop of `apply_ed_diff` from `i` on. -/
def applyFrom (cons1 diff : List Line) (i : ℕ) (j : ℤ) (cons2 : List Line) :
    Option (Option (List Line)) :=
  if i < diff.length then
    match smartlistGet diff i with
    | none => none
    | some diffCdline =>
    match parseEdCommand cons1.length diffCdline with
    | none => some none
    | some cmd =>
    if cmd.stop > j then some none else
    match addUnchanged cons1 cmd.stop j cons2 with
    | none => none
    | some (j, cons2) =>
    let j := if cmd.action = .c ∨ cmd.action = .d then ignoreRemoved cmd.start j else j
    if cmd.action = .a ∨ cmd.action = .c then
      match _h : findDot diff (i + 1) with
      | none => none
      | some none => some none
      | some (some k) =>
        -- "It would make no sense to add zero new lines."
        if k - 1 = i then some none else
        match addNew diff i (k - 1) cons2 with
        | none => none
        | some cons2 => applyFrom cons1 diff (k + 1) j cons2
    else applyFrom cons1 diff (i + 1) j cons2
  else
    -- "Add remaining unchanged lines.", and "Reverse the whole thing"
    match addUnchanged cons1 0 j cons2 with
    | none => none
    | some (_, cons2) => some (some cons2.reverse)
termination_by diff.length - i
decreasing_by
  · have hle := le_findDot _h
    omega
  · omega

/-- `apply_ed_diff` -/
def applyEdDiffAt (cons1 diff : List Line) (diffStartingLine : ℕ) : Option (Option (List Line)) :=
  applyFrom cons1 diff diffStartingLine cons1.length []

variable {cons1 cons2 diff body rest : List Line} {line : Line} {i k start stop : ℕ} {j : ℤ}

/-! ## Each loop -/

lemma smartlistGet_natCast (sl : List Line) (k : ℕ) : smartlistGet sl k = sl[k]? := by
  rw [smartlistGet, if_neg (by omega), Int.toNat_natCast]

lemma smartlistGet_of_drop (h : diff.drop i = line :: rest) : smartlistGet diff i = some line := by
  rw [smartlistGet_natCast, ← head?_drop, h, head?_cons]

lemma drop_of_smartlistGet (h : smartlistGet diff i = some line) :
    diff.drop i = line :: diff.drop (i + 1) := by
  obtain ⟨hlt, rfl⟩ := List.getElem?_eq_some_iff.mp h
  exact drop_eq_getElem_cons hlt

lemma addUnchanged_eq (hj : j ≤ cons1.length) :
    addUnchanged cons1 stop j cons2
      = some (min j stop, cons2 ++ ((cons1.take j.toNat).drop stop).reverse) := by
  fun_induction addUnchanged cons1 stop j cons2 with
  | case1 j cons2 hcopy hget =>
    rw [show j - 1 = ((j.toNat - 1 : ℕ) : ℤ) by omega, smartlistGet_natCast,
      getElem?_eq_none_iff] at hget
    omega
  | case2 j cons2 hcopy line hget ih =>
    rw [show j - 1 = ((j.toNat - 1 : ℕ) : ℤ) by omega, smartlistGet_natCast] at hget
    have htake : cons1.take j.toNat = cons1.take (j - 1).toNat ++ [line] := by
      rw [show j.toNat = j.toNat - 1 + 1 by omega, take_add_one, hget, Option.toList_some,
        show (j - 1).toNat = j.toNat - 1 by omega]
    have hlen : stop ≤ (cons1.take (j - 1).toNat).length := by
      rw [length_take]
      omega
    rw [ih (by omega), htake, drop_append_of_le_length hlen, reverse_append,
      reverse_singleton, append_assoc, min_eq_right (by omega), min_eq_right (by omega)]
  | case3 j cons2 hstop =>
    have hnil : (cons1.take j.toNat).drop stop = [] := by
      refine drop_eq_nil_of_le ?_
      rw [length_take]
      omega
    rw [hnil, reverse_nil, append_nil, min_eq_left (by omega)]

lemma ignoreRemoved_eq (start : ℕ) (j : ℤ) : ignoreRemoved start j = min (j - 1) (start - 1) := by
  fun_induction ignoreRemoved start j with
  | case1 j hge ih => rw [ih]; omega
  | case2 j hlt => omega

lemma findDot_of_dot (h : diff.drop i = body ++ ['.'] :: rest) (hdot : ['.'] ∉ body) :
    findDot diff i = some (some (i + body.length)) := by
  induction body generalizing i with
  | nil =>
    have hlt : i < diff.length := by
      by_contra hge
      rw [drop_eq_nil_of_le (by omega)] at h
      cases h
    rw [findDot, if_pos hlt, smartlistGet_of_drop h]
    simp
  | cons line body ih =>
    have hdrop : diff.drop (i + 1) = body ++ ['.'] :: rest := by
      rw [← drop_drop, h]
      rfl
    have hlen := congrArg length hdrop
    rw [length_drop, length_append, length_cons] at hlen
    have hne : line ≠ ['.'] := fun heq => hdot (heq ▸ mem_cons_self)
    rw [findDot, if_pos (by omega), smartlistGet_of_drop h]
    simp only [if_neg hne, if_neg (show ¬ i + 1 = diff.length by omega)]
    rw [ih hdrop fun hmem => hdot (mem_cons_of_mem line hmem), length_cons,
      Nat.add_right_comm, Nat.add_assoc]

lemma findDot_of_no_dot (hi : i < diff.length) (h : ['.'] ∉ diff.drop i) :
    findDot diff i = some none := by
  fun_induction findDot diff i with
  | case1 i hlt hget =>
    rw [smartlistGet_natCast, getElem?_eq_none_iff] at hget
    omega
  | case2 i hlt hget =>
    rw [drop_of_smartlistGet hget] at h
    exact absurd mem_cons_self h
  | case3 i hlt line hget hdot hlast => rfl
  | case4 i hlt line hget hdot hlast ih =>
    rw [drop_of_smartlistGet hget] at h
    exact ih (by omega) fun hmem => h (mem_cons_of_mem line hmem)
  | case5 i hge => exact absurd hi hge

lemma addNew_eq (hk : k < diff.length) :
    addNew diff i k cons2 = some (cons2 ++ ((diff.take (k + 1)).drop (i + 1)).reverse) := by
  fun_induction addNew diff i k cons2 with
  | case1 k cons2 hgt hget =>
    rw [smartlistGet_natCast, getElem?_eq_none_iff] at hget
    omega
  | case2 k cons2 hgt line hget ih =>
    rw [smartlistGet_natCast] at hget
    have hlen : i + 1 ≤ (diff.take k).length := by
      rw [length_take]
      omega
    rw [ih (by omega), show k - 1 + 1 = k by omega, take_add_one, hget, Option.toList_some,
      drop_append_of_le_length hlen, reverse_append, reverse_singleton, append_assoc]
  | case3 k cons2 hle =>
    have hnil : (diff.take (k + 1)).drop (i + 1) = [] := by
      refine drop_eq_nil_of_le ?_
      rw [length_take]
      omega
    rw [hnil, reverse_nil, append_nil]

/-! ## All of them -/

lemma findDot_cases (hi : i ≤ diff.length) :
    (∃ body rest, diff.drop i = body ++ ['.'] :: rest ∧ ['.'] ∉ body
        ∧ findDot diff i = some (some (i + body.length)))
      ∨ (['.'] ∉ diff.drop i
        ∧ (findDot diff i = some none ∨ (i = diff.length ∧ findDot diff i = some (some i)))) := by
  by_cases hmem : ['.'] ∈ diff.drop i
  · obtain ⟨body, rest, hdrop, hdot⟩ := eq_append_cons_of_mem hmem
    exact .inl ⟨body, rest, hdrop, hdot, findDot_of_dot hdrop hdot⟩
  · refine .inr ⟨hmem, ?_⟩
    rcases Nat.lt_or_ge i diff.length with hlt | hge
    · exact .inl (findDot_of_no_dot hlt hmem)
    · exact .inr ⟨by omega, by rw [findDot, if_neg (by omega)]⟩

lemma no_lines_of_findDot (hi : i < diff.length) (hfind : findDot diff (i + 1) = some (some k))
    (hk : k - 1 = i) :
    (∃ rest, diff.drop (i + 1) = ['.'] :: rest) ∨ ['.'] ∉ diff.drop (i + 1) := by
  rcases findDot_cases (show i + 1 ≤ diff.length from hi) with
    ⟨body, rest, hdrop, hdot, hbody⟩ | ⟨hdot, -⟩
  · rw [hfind, Option.some.injEq, Option.some.injEq] at hbody
    obtain rfl : body = [] := eq_nil_of_length_eq_zero (by omega)
    exact .inl ⟨rest, hdrop⟩
  · exact .inr hdot

lemma lines_of_findDot (hi : i < diff.length) (hfind : findDot diff (i + 1) = some (some k))
    (hk : ¬ k - 1 = i) :
    ∃ body rest, diff.drop (i + 1) = body ++ ['.'] :: rest ∧ ['.'] ∉ body ∧ body ≠ []
      ∧ k = i + 1 + body.length := by
  rcases findDot_cases (show i + 1 ≤ diff.length from hi) with
    ⟨body, rest, hdrop, hdot, hbody⟩ | ⟨-, hnone | ⟨-, hend⟩⟩
  · rw [hfind, Option.some.injEq, Option.some.injEq] at hbody
    refine ⟨body, rest, hdrop, hdot, ?_, hbody⟩
    rintro rfl
    rw [length_nil] at hbody
    omega
  · rw [hfind] at hnone
    cases hnone
  · rw [hfind, Option.some.injEq, Option.some.injEq] at hend
    omega

lemma addNew_of_drop (hdrop : diff.drop (i + 1) = body ++ ['.'] :: rest) :
    addNew diff i (i + 1 + body.length - 1) cons2 = some (cons2 ++ body.reverse) := by
  have hlen := congrArg length hdrop
  rw [length_drop, length_append, length_cons] at hlen
  rw [addNew_eq (by omega), drop_take, hdrop,
    show i + 1 + body.length - 1 + 1 - (i + 1) = body.length by omega, take_left]

lemma cursor_eq (cmd : EdCommand) :
    (if cmd.action = .c ∨ cmd.action = .d then ignoreRemoved cmd.start cmd.stop else (cmd.stop : ℤ))
      = skipRemoved cmd cmd.stop := by
  rw [ignoreRemoved_eq, skipRemoved]
  cases cmd.action with
  | a => rfl
  | c => rfl
  | d => rfl

lemma skipRemoved_le (cmd : EdCommand) (j : ℤ) : skipRemoved cmd j ≤ j := by
  rw [skipRemoved]
  cases cmd.action with
  | a => exact le_rfl
  | c => simp only; omega
  | d => simp only; omega

section

variable {cmd : EdCommand} {tail : List Line}

lemma applyCommands_no_dot (hcmd : parseEdCommand cons1.length line = some cmd)
    (ha : cmd.action ≠ .d) (hstop : cmd.stop ≤ j) (h : ['.'] ∉ diff) :
    applyCommands cons1 (line :: diff) j tail = none := by
  have hdrop : diff.dropWhile (· ≠ ['.']) = [] := by
    rw [dropWhile_eq_nil_iff]
    intro l hl
    exact decide_eq_true fun heq => h (heq ▸ hl)
  rw [applyCommands, hcmd]
  simp only
  rw [if_neg (by omega), if_neg ha]
  split
  · rfl
  · next hcons =>
      rw [hdrop] at hcons
      cases hcons

lemma applyCommands_no_lines (hcmd : parseEdCommand cons1.length line = some cmd)
    (ha : cmd.action ≠ .d) (hstop : cmd.stop ≤ j) :
    applyCommands cons1 (line :: ['.'] :: rest) j tail = none := by
  rw [applyCommands, hcmd]
  simp only
  rw [if_neg (by omega), if_neg ha]
  split
  · rfl
  · next hcons => simp

end

/-- **The loops read inside both lists, and do what `applyCommands` does.** -/
theorem applyFrom_eq (hj : j ≤ cons1.length) :
    applyFrom cons1 diff i j cons2 = some (applyCommands cons1 (diff.drop i) j cons2.reverse) := by
  fun_induction applyFrom cons1 diff i j cons2 with
  | case1 i j cons2 hi hget =>
    rw [smartlistGet_natCast, getElem?_eq_none_iff] at hget
    omega
  | case2 i j cons2 hi line hget hcmd => rw [drop_of_smartlistGet hget, applyCommands, hcmd]
  | case3 i j cons2 hi line hget cmd hcmd hstop =>
    rw [drop_of_smartlistGet hget, applyCommands, hcmd]
    simp only [if_pos hstop]
  | case4 i j cons2 hi line hget cmd hcmd hstop hadd =>
    rw [addUnchanged_eq hj] at hadd
    cases hadd
  | case5 i j cons2 hi line hget cmd hcmd hstop j' cons2' hadd ha hdot =>
    rcases findDot_cases (show i + 1 ≤ diff.length from hi) with
      ⟨body, rest, -, -, hfind⟩ | ⟨-, hfind | ⟨-, hfind⟩⟩
    all_goals
      rw [hfind] at hdot
      cases hdot
  | case6 i j cons2 hi line hget cmd hcmd hstop j' cons2' hadd ha hfind =>
    rw [drop_of_smartlistGet hget]
    rcases findDot_cases (show i + 1 ≤ diff.length from hi) with
      ⟨body, rest, -, -, hsome⟩ | ⟨hdot, -⟩
    · rw [hfind] at hsome
      cases hsome
    · have hne : cmd.action ≠ .d := by rcases ha with h | h <;> simp [h]
      rw [applyCommands_no_dot hcmd hne (by omega) hdot]
  | case7 j cons2 line cmd hcmd hstop j' cons2' hadd ha k hi hget hfind =>
    have hne : cmd.action ≠ .d := by rcases ha with h | h <;> simp [h]
    rw [drop_of_smartlistGet hget]
    rcases no_lines_of_findDot hi hfind rfl with ⟨rest, hdrop⟩ | hdot
    · rw [hdrop, applyCommands_no_lines hcmd hne (by omega)]
    · rw [applyCommands_no_dot hcmd hne (by omega) hdot]
  | case8 i j cons2 hi line hget cmd hcmd hstop j' cons2' hadd ha k hfind hk hnew =>
    obtain ⟨body, rest, hdrop, -, hbody, rfl⟩ := lines_of_findDot hi hfind hk
    rw [addNew_of_drop hdrop] at hnew
    cases hnew
  | case9 i j cons2 hi line hget cmd hcmd hstop j' cons2' hadd j'' ha k hfind hk cons2'' hnew ih =>
    have hne : cmd.action ≠ .d := by rcases ha with h | h <;> simp [h]
    rw [addUnchanged_eq hj, min_eq_right (by omega), Option.some.injEq, Prod.mk.injEq] at hadd
    obtain ⟨rfl, rfl⟩ := hadd
    obtain ⟨body, rest, hdrop, hdot, hbody, rfl⟩ := lines_of_findDot hi hfind hk
    rw [addNew_of_drop hdrop, Option.some.injEq] at hnew
    subst hnew
    have hj'' : j'' = skipRemoved cmd cmd.stop := cursor_eq cmd
    have hle := skipRemoved_le cmd cmd.stop
    have hrest : diff.drop (i + 1 + body.length + 1) = rest := by
      rw [Nat.add_assoc, ← drop_drop, hdrop, ← drop_drop, drop_left]
      rfl
    rw [ih (by omega), drop_of_smartlistGet hget, hrest, hdrop,
      applyCommands_insert hcmd hne (by omega) hbody hdot, hj'']
    simp
  | case10 i j cons2 hi line hget cmd hcmd hstop j' cons2' hadd j'' ha ih =>
    have hd : cmd.action = .d := by cases h : cmd.action <;> simp [h] at ha ⊢
    rw [addUnchanged_eq hj, min_eq_right (by omega), Option.some.injEq, Prod.mk.injEq] at hadd
    obtain ⟨rfl, rfl⟩ := hadd
    have hj'' : j'' = skipRemoved cmd cmd.stop := cursor_eq cmd
    have hle := skipRemoved_le cmd cmd.stop
    rw [ih (by omega), drop_of_smartlistGet hget, applyCommands_delete hcmd hd (by omega), hj'']
    simp
  | case11 i j cons2 hi hadd =>
    rw [addUnchanged_eq hj] at hadd
    cases hadd
  | case12 i j cons2 hi j' cons2' hadd =>
    rw [addUnchanged_eq hj, Option.some.injEq, Prod.mk.injEq] at hadd
    rw [drop_eq_nil_of_le (not_lt.mp hi), applyCommands, ← hadd.2]
    simp

lemma applyEdDiffAt_eq (cons1 diff : List Line) (diffStartingLine : ℕ) :
    applyEdDiffAt cons1 diff diffStartingLine = some (applyEdDiff cons1 diff diffStartingLine) :=
  applyFrom_eq le_rfl

/-- **Every diff is read inside both lists, and applied exactly if it is the text of descending
commands on the base document**; the result is what they make of it, one after the other. -/
theorem applyEdDiffAt_splices (cons1 diff : List Line) (diffStartingLine : ℕ) :
    ∃ result, applyEdDiffAt cons1 diff diffStartingLine = some result ∧ ∀ cons2, result = some cons2
        ↔ ∃ edits, IsScript cons1.length (diff.drop diffStartingLine) edits
          ∧ Descending cons1.length edits ∧ cons2 = edits.foldl Edit.splice cons1 := by
  refine ⟨_, applyEdDiffAt_eq cons1 diff diffStartingLine, fun cons2 => ?_⟩
  rw [applyEdDiff, applyCommands_eq_some_iff le_rfl, Int.toNat_natCast, take_length, append_nil]

/-- `1,2a` is refused, although its range is one of the document's; and a line that lines have been
added behind can be removed by the next command. -/
theorem applyEdDiffAt_rangeAdded :
    applyEdDiffAt [['A'], ['B'], ['C']] ["1,2a".toList, ['X'], ['.']] 0 = some none
      ∧ applyEdDiffAt [['A'], ['B'], ['C']] ["1a".toList, ['X'], ['.'], "1d".toList] 0
        = some (some [['X'], ['B'], ['C']]) := by
  decide +kernel

end Ator.ConsDiff
