import AtorProtocol.Dirparse.TokenizeString

/-!
# Items, blank lines and `"opt"`

A document written as items with blank lines between them.

* `Blank` — blank lines and comments.
* `Item` — a keyword line, and the object that may follow it.
* `text` — the items as they are written: each may have an `"opt"`, and blank lines follow it.
* `nextToken_item` — the token of an item depends on the item alone.
* `tokensOf_text` — documents with the same items have the same tokens.
-/

namespace Ator.Dirparse

open List

/-! ## Blank lines -/

/-- A run of white space and of comments. -/
inductive Blank : List Char → Prop
  | nil : Blank []
  | space {c : Char} {w : List Char} (hc : isWhitespace c = true) (h : Blank w) : Blank (c :: w)
  | comment {text w : List Char} (htext : ∀ c ∈ text, inComment c = true) (h : Blank w) :
      Blank ('#' :: (text ++ '\n' :: w))

lemma eatWhitespace_blank {w : List Char} (h : Blank w) (str : List Char) :
    eatWhitespace (w ++ str) = eatWhitespace str := by
  induction h with
  | nil => rfl
  | space hc _ ih => rw [cons_append, eatWhitespace, if_pos hc, ih]
  | @comment text w htext _ ih =>
    have hdrop : (text ++ '\n' :: (w ++ str)).dropWhile inComment = '\n' :: (w ++ str) := by
      rw [dropWhile_append_of_pos htext, dropWhile_cons_of_neg (by decide)]
    rw [cons_append, append_assoc, cons_append, eatWhitespace, if_neg (by decide),
      if_pos rfl, hdrop, eatWhitespace, if_pos (by decide), ih]

lemma nul_notMem_blank {w : List Char} (h : Blank w) : '\x00' ∉ w := by
  induction h with
  | nil => exact not_mem_nil
  | @space c w hc _ ih =>
    rw [mem_cons, not_or]
    refine ⟨?_, ih⟩
    rintro rfl
    exact absurd hc (by decide)
  | comment htext _ ih =>
    simp only [mem_cons, mem_append, not_or]
    exact ⟨by decide, fun hmem => absurd (htext _ hmem) (by decide), by decide, ih⟩

lemma eatWhitespace_of_head {str : List Char}
    (h : ∀ c ∈ str.head?, isWhitespace c = false ∧ c ≠ '#') : eatWhitespace str = str := by
  cases str with
  | nil => rw [eatWhitespace]
  | cons c str =>
    obtain ⟨hspace, hcomment⟩ := h c rfl
    rw [eatWhitespace, if_neg (by simp [hspace]), if_neg hcomment]

lemma eatWhitespace_eatWhitespace (str : List Char) :
    eatWhitespace (eatWhitespace str) = eatWhitespace str :=
  eatWhitespace_of_head (head_eatWhitespace str)

/-! ## Items -/

/-- The object behind a keyword line; `gap` is what stands between the two. -/
structure Obj where
  gap : List Char
  beginLine : List Char
  body : List Char
  endLine : List Char
  gap_blank : Blank gap
  gap_newline : gap.head? = some '\n'
  begins : "-----BEGIN ".toList <+: beginLine
  beginLine_line : ∀ c ∈ beginLine, notNewline c = true
  ends : findEnd "-----END ".toList (body ++ endLine) = some (body, endLine)
  endLine_line : ∀ c ∈ endLine, notNewline c = true

/-- A keyword line, without what follows its last character. -/
structure Item where
  line : List Char
  object : Option Obj
  starts : ∃ c ∈ line.head?, isWhitespace c = false ∧ c ≠ '#'
  line_line : ∀ c ∈ line, notNewline c = true

/-- From the first line of the object on. -/
def Obj.text (o : Obj) : List Char := o.beginLine ++ '\n' :: (o.body ++ o.endLine)

def Item.text (i : Item) : List Char :=
  match i.object with
  | none => i.line
  | some o => i.line ++ (o.gap ++ o.text)

/-- How an item is written: what stands behind its `"opt"`, if it has one, and the blank lines
behind it. -/
structure Layout where
  opt : Option (List Char)
  blank : List Char

def optPrefix : Option (List Char) → List Char
  | none => []
  | some gap => "opt".toList ++ gap

/-- The items as they are written, with `tail` behind them. -/
def text : List (Item × Layout) → List Char → List Char
  | [], tail => tail
  | (i, l) :: ds, tail => optPrefix l.opt ++ (i.text ++ (l.blank ++ text ds tail))

/-- An item that may be given an `"opt"`: it has none, and the line does not become too long. -/
structure Item.TakesOpt (i : Item) (gap : List Char) : Prop where
  gap_ne : gap ≠ []
  gap_space : ∀ c ∈ gap, isSpaceNoNl c = true
  noOpt : firstWord i.line ≠ "opt".toList
  fits : 3 + gap.length + i.line.length ≤ maxLineLength

/-- The line ends here. -/
def EndsLine (str : List Char) : Prop := ∀ c ∈ str.head?, c = '\n'

/-- Only blank lines stand between the items; each item has its own lines, and the object behind it
is its own. -/
def WellWritten : List (Item × Layout) → List Char → Prop
  | [], _ => True
  | (i, l) :: ds, tail =>
    (∀ gap ∈ l.opt, i.TakesOpt gap) ∧ Blank l.blank ∧ EndsLine (l.blank ++ text ds tail)
      ∧ (i.object = none → beginsObject (eatWhitespace (text ds tail)) = false)
      ∧ WellWritten ds tail

/-! ## The token of an item -/

variable {κ : Type} (crypto : Crypto κ) (table : List TokenRule)

/-- The token of an item, whatever stands around it. -/
def itemToken (i : Item) : Except ErrorText (DirectoryToken κ) :=
  match splitLine i.line with
  | .error e => .error e
  | .ok line =>
    match keywordToken table line with
    | .error e => .error e
    | .ok k =>
      match i.object with
      | none => tokenCheckObject crypto k.kwd k.tok k.oSyn
      | some o => (nextObject crypto k o.text).map Prod.fst

/-- What `get_next_token` leaves. -/
def Item.rest (i : Item) (after : List Char) : List Char :=
  match i.object with
  | none => eatWhitespace after
  | some _ => after

lemma eatWhitespace_rest (i : Item) (after : List Char) :
    eatWhitespace (i.rest after) = eatWhitespace after := by
  rw [Item.rest]
  split
  · exact eatWhitespace_eatWhitespace after
  · rfl

variable {line after : List Char} {i : Item}

lemma lineOf_append (hline : ∀ c ∈ line, notNewline c = true) (hafter : EndsLine after) :
    lineOf (line ++ after) = line ∧ afterLine (line ++ after) = after := by
  rw [lineOf, afterLine, takeWhile_append_of_pos hline, dropWhile_append_of_pos hline]
  cases after with
  | nil => exact ⟨append_nil line, rfl⟩
  | cons c after =>
    have hc : ¬ notNewline c = true := by
      rw [hafter c rfl]
      decide
    rw [takeWhile_cons_of_neg hc, dropWhile_cons_of_neg hc, append_nil]
    exact ⟨rfl, rfl⟩

lemma not_isSpaceNoNl_of_not_isWhitespace {c : Char} (h : isWhitespace c = false) :
    isSpaceNoNl c = false := by
  simp only [isWhitespace, isSpaceNoNl, decide_eq_false_iff_not, not_or] at h ⊢
  exact ⟨h.1, h.2.1, h.2.2.2⟩

lemma not_inWord_of_isSpaceNoNl {c : Char} (h : isSpaceNoNl c = true) : inWord c = false := by
  simp only [isSpaceNoNl, decide_eq_true_eq] at h
  rcases h with rfl | rfl | rfl <;> decide

lemma notNewline_of_isSpaceNoNl {c : Char} (h : isSpaceNoNl c = true) : notNewline c = true := by
  simp only [isSpaceNoNl, decide_eq_true_eq] at h
  rcases h with rfl | rfl | rfl <;> decide

lemma words_opt {gap : List Char} (hopt : i.TakesOpt gap) :
    firstWord ("opt".toList ++ gap ++ i.line) = "opt".toList
      ∧ afterWord ("opt".toList ++ gap ++ i.line) = i.line := by
  have hword : ∀ c ∈ "opt".toList, inWord c = true := List.all_eq_true.mp (by decide)
  obtain ⟨c, gap', hgap⟩ := exists_cons_of_ne_nil hopt.gap_ne
  have hc : ¬ inWord c = true := by
    rw [not_inWord_of_isSpaceNoNl (hopt.gap_space c (by simp [hgap]))]
    exact Bool.false_ne_true
  obtain ⟨d, hd, hspace, -⟩ := i.starts
  obtain ⟨line', hline⟩ : ∃ line', i.line = d :: line' := head?_eq_some_iff.mp hd
  have hd' : ¬ isSpaceNoNl d = true := by
    rw [not_isSpaceNoNl_of_not_isWhitespace hspace]
    exact Bool.false_ne_true
  rw [firstWord, afterWord, append_assoc, takeWhile_append_of_pos hword,
    dropWhile_append_of_pos hword]
  constructor
  · rw [hgap, cons_append, takeWhile_cons_of_neg hc, append_nil]
  · have hdrop : (gap ++ i.line).dropWhile inWord = gap ++ i.line := by
      rw [hgap, cons_append, dropWhile_cons_of_neg hc]
    rw [hdrop, dropWhile_append_of_pos hopt.gap_space, hline, dropWhile_cons_of_neg hd']

variable {opt : Option (List Char)}

lemma line_opt (hopt : ∀ gap ∈ opt, i.TakesOpt gap) :
    ∀ c ∈ optPrefix opt ++ i.line, notNewline c = true := by
  cases opt with
  | none => exact i.line_line
  | some gap =>
    intro c hc
    simp only [optPrefix, mem_append] at hc
    rcases hc with (hc | hc) | hc
    · exact List.all_eq_true.mp (by decide : "opt".toList.all notNewline = true) c hc
    · exact notNewline_of_isSpaceNoNl ((hopt gap rfl).gap_space c hc)
    · exact i.line_line c hc

lemma head_item (opt : Option (List Char)) (after : List Char) :
    ∀ c ∈ (optPrefix opt ++ (i.line ++ after)).head?, isWhitespace c = false ∧ c ≠ '#' := by
  cases opt with
  | none =>
    obtain ⟨d, hd, hstarts⟩ := i.starts
    obtain ⟨line', hline⟩ : ∃ line', i.line = d :: line' := head?_eq_some_iff.mp hd
    simpa [optPrefix, hline] using hstarts
  | some gap => simp [optPrefix, isWhitespace]

lemma splitLine_eq (str : List Char) :
    splitLine str = if (lineOf str).length > maxLineLength then .error "Line far too long".toList
        else if firstWord (lineOf str) = "opt".toList then
          .ok (lineOfText (afterWord (lineOf str)))
        else if str = [] then .error "Unexpected EOF".toList
        else .ok (lineOfText (lineOf str)) := rfl

lemma splitLine_item (hopt : ∀ gap ∈ opt, i.TakesOpt gap)
    (hafter : EndsLine after) :
    splitLine (optPrefix opt ++ (i.line ++ after)) = splitLine i.line := by
  obtain ⟨c, hc, -⟩ := i.starts
  have hne : i.line ≠ [] := by
    intro hnil
    simp [hnil] at hc
  have hself : lineOf i.line = i.line := by
    have := lineOf_append_afterLine i.line
    rwa [afterLine, dropWhile_eq_nil_iff.mpr i.line_line, append_nil] at this
  cases opt with
  | none =>
    have hne' : i.line ++ after ≠ [] := by simp [hne]
    rw [optPrefix, nil_append, splitLine_eq, splitLine_eq,
      (lineOf_append i.line_line hafter).1, hself, if_neg hne, if_neg hne']
  | some gap =>
    have htakes := hopt gap rfl
    have hline := line_opt hopt
    have hlength : ¬ ("opt".toList ++ gap ++ i.line).length > maxLineLength := by
      have := htakes.fits
      simp only [length_append, show "opt".toList.length = 3 from rfl]
      omega
    have hlength' : ¬ i.line.length > maxLineLength := by
      have := htakes.fits
      omega
    rw [optPrefix] at hline
    rw [optPrefix, ← append_assoc, splitLine_eq, splitLine_eq,
      (lineOf_append hline hafter).1, hself, if_neg hlength, if_neg hlength',
      if_pos (words_opt htakes).1, (words_opt htakes).2, if_neg htakes.noOpt, if_neg hne]

lemma findEnd_append_right {needle str body fin : List Char} (after : List Char)
    (h : findEnd needle str = some (body, fin)) :
    findEnd needle (str ++ after) = some (body, fin ++ after) := by
  have hpre := prefix_of_findEnd h
  induction str generalizing body with
  | nil =>
    rw [findEnd] at h
    split_ifs at h with hneedle
    cases h
    rw [hneedle, nil_append]
    cases after with
    | nil => rw [findEnd, if_pos rfl]
    | cons c after => rw [findEnd, if_pos nil_prefix]
  | cons c str ih =>
    rw [findEnd] at h
    split_ifs at h with hneedle
    · cases h
      rw [cons_append, findEnd, if_pos]
      rw [← cons_append]
      exact hneedle.trans (prefix_append _ _)
    · obtain ⟨⟨body', fin'⟩, hrec, heq⟩ := Option.map_eq_some_iff.mp h
      cases heq
      -- the needle is no longer than `fin`, so no occurrence reaches into `after`
      have hlater : ¬ needle <+: (c :: str) ++ after := by
        intro hlong
        have hle := hpre.length_le
        have hsplit := congrArg List.length (findEnd_append hrec)
        rw [length_append] at hsplit
        refine hneedle (prefix_of_prefix_length_le hlong (prefix_append _ _) ?_)
        rw [length_cons]
        omega
      rw [cons_append] at hlater ⊢
      rw [findEnd, if_neg hlater, ih hrec]
      rfl

lemma head_text (o : Obj) (after : List Char) :
    ∀ c ∈ (o.text ++ after).head?, isWhitespace c = false ∧ c ≠ '#' := by
  obtain ⟨name, hname⟩ := o.begins
  rw [Obj.text, ← hname]
  simp [isWhitespace]

lemma beginsObject_text (o : Obj) (after : List Char) : beginsObject (o.text ++ after) = true := by
  have hends : EndsLine ('\n' :: (o.body ++ o.endLine ++ after)) := by simp [EndsLine]
  obtain ⟨hline, hafter⟩ := lineOf_append o.beginLine_line hends
  have htext : o.text ++ after = o.beginLine ++ '\n' :: (o.body ++ o.endLine ++ after) := by
    rw [Obj.text, append_assoc, cons_append]
  have hlength := o.begins.length_le
  rw [htext, beginsObject, hline, hafter, decide_eq_true_eq]
  refine ⟨cons_ne_nil _ _, hlength, ?_⟩
  have htake : (o.beginLine ++ '\n' :: (o.body ++ o.endLine ++ after)).take
      "-----BEGIN ".toList.length = o.beginLine.take "-----BEGIN ".toList.length :=
    take_append_of_le_length hlength
  refine htake.trans ?_
  exact (prefix_iff_eq_take.mp o.begins).symm

lemma nextObject_append (k : Keyword κ) (o : Obj) (hafter : EndsLine after) :
    nextObject crypto k (o.text ++ after)
      = ((nextObject crypto k o.text).map Prod.fst).map fun tok => (tok, after) := by
  have hends : ∀ after', EndsLine ('\n' :: (o.body ++ o.endLine ++ after')) := by simp [EndsLine]
  have htext : ∀ after', o.text ++ after' = o.beginLine ++ '\n' :: (o.body ++ o.endLine ++ after') := by
    intro after'
    rw [Obj.text, append_assoc, cons_append]
  have hnil : EndsLine [] := by simp [EndsLine]
  conv_rhs => rw [← append_nil o.text]
  rw [htext, htext]
  simp only [nextObject, (lineOf_append o.beginLine_line (hends _)).1,
    (lineOf_append o.beginLine_line (hends _)).2, tail_cons, findEnd_append_right _ o.ends,
    (lineOf_append o.endLine_line hafter).1, (lineOf_append o.endLine_line hafter).2,
    (lineOf_append o.endLine_line hnil).1, (lineOf_append o.endLine_line hnil).2]
  split_ifs
  · rfl
  · rfl
  · rfl
  · rfl
  · rfl
  · cases decodeObject crypto k ((o.beginLine.drop 11).take (o.beginLine.length - 16)) o.body <;> rfl

variable {table} in
/-- **The token of an item depends on the item alone.** -/
theorem nextToken_item (hopt : ∀ gap ∈ opt, i.TakesOpt gap)
    (hafter : EndsLine after)
    (hobject : i.object = none → beginsObject (eatWhitespace after) = false) :
    nextToken crypto table (optPrefix opt ++ (i.text ++ after))
      = (itemToken crypto table i).map fun tok => (tok, i.rest after) := by
  obtain ⟨behind, htext, hbehind, hrest⟩ : ∃ behind, i.text ++ after = i.line ++ behind
      ∧ EndsLine behind
      ∧ ∀ k : Keyword κ, nextRest crypto k behind = (match i.object with
          | none => tokenCheckObject crypto k.kwd k.tok k.oSyn
          | some o => (nextObject crypto k o.text).map Prod.fst).map fun tok => (tok, i.rest after) := by
    cases hi : i.object with
    | none =>
      refine ⟨after, by rw [Item.text, hi], hafter, fun k => ?_⟩
      rw [nextRest, hobject hi, Item.rest, hi]
      rfl
    | some o =>
      refine ⟨o.gap ++ (o.text ++ after), ?_, ?_, fun k => ?_⟩
      · rw [Item.text, hi]
        simp only [append_assoc]
      · intro c hc
        rw [head?_append, o.gap_newline] at hc
        exact (Option.some.inj hc).symm
      · rw [nextRest, eatWhitespace_blank o.gap_blank, eatWhitespace_of_head (head_text o after),
          beginsObject_text, if_pos rfl, nextObject_append crypto k o hafter, Item.rest, hi]
  have hline := lineOf_append (line_opt hopt) hbehind
  rw [append_assoc] at hline
  rw [htext, nextToken, eatWhitespace_of_head (head_item opt behind), splitLine_item hopt hbehind,
    hline.2, itemToken]
  cases splitLine i.line with
  | error e => rfl
  | ok line =>
    simp only
    cases keywordToken (κ := κ) table line with
    | error e => rfl
    | ok k => exact hrest k

/-! ## The tokens of a document -/

variable {ds ds' : List (Item × Layout)} {tail : List Char}

lemma exists_behind (i : Item) (hafter : EndsLine after) :
    ∃ behind, i.text ++ after = i.line ++ behind ∧ EndsLine behind := by
  rw [Item.text]
  cases i.object with
  | none => exact ⟨after, rfl, hafter⟩
  | some o =>
    refine ⟨o.gap ++ o.text ++ after, by simp only [append_assoc], ?_⟩
    intro c hc
    rw [append_assoc, head?_append, o.gap_newline] at hc
    exact (Option.some.inj hc).symm

variable {l : Layout}

lemma eatWhitespace_text (hds : WellWritten ((i, l) :: ds) tail) :
    eatWhitespace (text ((i, l) :: ds) tail) = text ((i, l) :: ds) tail := by
  obtain ⟨-, -, hends, -⟩ := hds
  obtain ⟨behind, hbehind, -⟩ := exists_behind i hends
  refine eatWhitespace_of_head ?_
  rw [text, hbehind]
  exact head_item l.opt behind

lemma text_ne_nil (hds : WellWritten ((i, l) :: ds) tail) :
    text ((i, l) :: ds) tail ≠ [] := by
  obtain ⟨-, -, hends, -⟩ := hds
  obtain ⟨behind, hbehind, -⟩ := exists_behind i hends
  obtain ⟨c, hc, -⟩ := i.starts
  obtain ⟨line', hline⟩ : ∃ line', i.line = c :: line' := head?_eq_some_iff.mp hc
  rw [text, hbehind, hline]
  simp

lemma nextToken_text (hds : WellWritten ((i, l) :: ds) tail) :
    nextToken crypto table (text ((i, l) :: ds) tail)
      = (itemToken crypto table i).map fun tok => (tok, i.rest (l.blank ++ text ds tail)) := by
  obtain ⟨hopt, hblank, hends, hobject, -⟩ := hds
  rw [text]
  refine nextToken_item crypto hopt hends fun hnone => ?_
  rw [eatWhitespace_blank hblank]
  exact hobject hnone

variable {crypto table} {out : List (DirectoryToken κ)}

/-- Documents with the same items have the same tokens. -/
theorem nextTokens_text (hds : WellWritten ds tail) (hds' : WellWritten ds' tail)
    (hitems : ds.map Prod.fst = ds'.map Prod.fst) (out : List (DirectoryToken κ)) :
    nextTokens crypto table (eatWhitespace (text ds tail)) out
      = nextTokens crypto table (eatWhitespace (text ds' tail)) out := by
  induction ds generalizing ds' out with
  | nil =>
    obtain rfl : ds' = [] := map_eq_nil_iff.mp hitems.symm
    rfl
  | cons d ds ih =>
    obtain ⟨i, l⟩ := d
    cases ds' with
    | nil => cases hitems
    | cons d' ds' =>
      obtain ⟨i', l'⟩ := d'
      obtain ⟨hi, htail⟩ := List.cons.inj hitems
      obtain rfl : i = i' := hi
      have hnext := nextToken_text crypto table hds
      have hnext' := nextToken_text crypto table hds'
      rw [eatWhitespace_text hds, eatWhitespace_text hds']
      cases htok : itemToken crypto table i with
      | error e =>
        rw [htok] at hnext hnext'
        rw [nextTokens_error (text_ne_nil hds) hnext, nextTokens_error (text_ne_nil hds') hnext']
      | ok tok =>
        rw [htok] at hnext hnext'
        rw [nextTokens_ok (text_ne_nil hds) hnext, nextTokens_ok (text_ne_nil hds') hnext',
          eatWhitespace_rest, eatWhitespace_rest, eatWhitespace_blank hds.2.1,
          eatWhitespace_blank hds'.2.1, ih hds.2.2.2.2 hds'.2.2.2.2 htail]

lemma nul_mem_text (hds : WellWritten ds tail) :
    '\x00' ∈ text ds tail ↔ (∃ i ∈ ds.map Prod.fst, '\x00' ∈ i.text) ∨ '\x00' ∈ tail := by
  induction ds with
  | nil => simp [text]
  | cons d ds ih =>
    obtain ⟨i, l⟩ := d
    obtain ⟨hopt, hblank, -, -, hds⟩ := hds
    have hprefix : '\x00' ∉ optPrefix l.opt := by
      cases h : l.opt with
      | none => exact not_mem_nil
      | some gap =>
        rw [optPrefix, mem_append, not_or]
        refine ⟨by decide, fun hmem => ?_⟩
        exact absurd ((hopt gap h).gap_space _ hmem) (by decide)
    have hblank' := nul_notMem_blank hblank
    simp only [text, mem_append, hprefix, hblank', false_or, ih hds, map_cons,
      exists_mem_cons_iff, or_assoc]

lemma nextTokens_blank {w str : List Char} (hw : Blank w) (hne : eatWhitespace str ≠ []) :
    nextTokens crypto table (w ++ str) out = nextTokens crypto table (eatWhitespace str) out := by
  have hstr : w ++ str ≠ [] := by
    intro hnil
    rw [(append_eq_nil_iff.mp hnil).2, eatWhitespace] at hne
    exact hne rfl
  have hnext : nextToken crypto table (w ++ str) = nextToken crypto table (eatWhitespace str) := by
    rw [nextToken, nextToken, eatWhitespace_blank hw, eatWhitespace_eatWhitespace]
  cases h : nextToken crypto table (eatWhitespace str) with
  | error e => rw [nextTokens_error hne h, nextTokens_error hstr (hnext.trans h)]
  | ok r => rw [nextTokens_ok hne h, nextTokens_ok hstr (hnext.trans h)]

lemma eatWhitespace_text_ne_nil (hds : WellWritten ds tail)
    (hne : ds ≠ [] ∨ eatWhitespace tail ≠ []) : eatWhitespace (text ds tail) ≠ [] := by
  cases ds with
  | nil => exact hne.resolve_left fun h => h rfl
  | cons d ds =>
    rw [eatWhitespace_text hds]
    exact text_ne_nil hds

/-- **The blank lines between the items, and the `"opt"` of an item, do not change the tokens.** -/
theorem tokensOf_text {w w' : List Char} (hw : Blank w) (hw' : Blank w')
    (hds : WellWritten ds tail) (hds' : WellWritten ds' tail)
    (hitems : ds.map Prod.fst = ds'.map Prod.fst)
    (hne : ds ≠ [] ∨ eatWhitespace tail ≠ []) (flags : Flags) (out : List (DirectoryToken κ)) :
    tokensOf crypto table (w ++ text ds tail) flags out
      = tokensOf crypto table (w' ++ text ds' tail) flags out := by
  have hne' : ds' ≠ [] ∨ eatWhitespace tail ≠ [] := by
    refine hne.imp (fun h hnil => h ?_) id
    rwa [hnil, map_nil, map_eq_nil_iff] at hitems
  have hnul : '\x00' ∈ w ++ text ds tail ↔ '\x00' ∈ w' ++ text ds' tail := by
    rw [mem_append, mem_append, nul_mem_text hds, nul_mem_text hds', hitems]
    simp only [nul_notMem_blank hw, nul_notMem_blank hw', false_or]
  rw [tokensOf, tokensOf, nextTokens_blank hw (eatWhitespace_text_ne_nil hds hne),
    nextTokens_blank hw' (eatWhitespace_text_ne_nil hds' hne'), nextTokens_text hds hds' hitems]
  simp only [hnul]

end Ator.Dirparse
