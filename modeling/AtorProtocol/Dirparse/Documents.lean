import AtorProtocol.Dirparse.Items

/-!
# Every range that is accepted is a document

* `exists_item` — what `get_next_token` reads is an item.
* `exists_document` — what `tokenize_string` accepts is written as items.
* `Relaid` — the same items with other blank lines between them, and with an `"opt"`.
* `tokenizeString_sound` — what the tokenizer promises.
* `unchecked_and_changed` — what it does not promise.
-/

namespace Ator.Dirparse

open List Option

variable {κ : Type} {crypto : Crypto κ} {table : List TokenRule} {str rest : List Char}
  {tok : DirectoryToken κ} {out out' : List (DirectoryToken κ)}

/-! ## What is eaten -/

lemma newline_of_dropWhile {s w : List Char} (hnul : '\x00' ∉ s.dropWhile inComment)
    (hw : s.dropWhile inComment = w ++ eatWhitespace (s.dropWhile inComment)) (hblank : Blank w)
    (hne : eatWhitespace (s.dropWhile inComment) ≠ []) : ∃ w', w = '\n' :: w' ∧ Blank w' := by
  cases hdrop : s.dropWhile inComment with
  | nil =>
    rw [hdrop, eatWhitespace] at hne
    exact absurd rfl hne
  | cons c s' =>
    have hc : c = '\n' := by
      have hcomment : ¬ inComment c = true := by
        have := head?_dropWhile_not inComment s
        simpa [hdrop] using this
      rw [hdrop] at hnul
      simp only [inComment, decide_eq_true_eq, not_and, not_not] at hcomment
      exact hcomment fun hzero => hnul (hzero ▸ mem_cons_self)
    cases hblank with
    | nil =>
      have hhead := head_eatWhitespace (s.dropWhile inComment)
      rw [← nil_append (eatWhitespace _), ← hw, hdrop] at hhead
      have := (hhead c rfl).1
      rw [hc] at this
      exact absurd this (by decide)
    | @space d w' hd hblank =>
      rw [hdrop, cons_append] at hw
      obtain ⟨rfl, -⟩ := cons.inj hw
      exact ⟨w', by rw [hc], hblank⟩
    | @comment text w' htext hblank =>
      rw [hdrop, cons_append] at hw
      obtain ⟨rfl, -⟩ := cons.inj hw
      exact absurd hc (by decide)

lemma exists_blank (hnul : '\x00' ∉ str) :
    ∃ w, str = w ++ eatWhitespace str ∧ (eatWhitespace str ≠ [] → Blank w) := by
  fun_induction eatWhitespace str with
  | case1 => exact ⟨[], rfl, fun h => absurd rfl h⟩
  | case2 c s hc ih =>
    obtain ⟨w, hw, hblank⟩ := ih (not_mem_of_not_mem_cons hnul)
    exact ⟨c :: w, by rw [cons_append, ← hw], fun h => Blank.space hc (hblank h)⟩
  | case3 s hc ih =>
    have hs : '\x00' ∉ s := not_mem_of_not_mem_cons hnul
    have hdrop : '\x00' ∉ s.dropWhile inComment :=
      fun hmem => hs ((List.dropWhile_suffix inComment).mem hmem)
    obtain ⟨w, hw, hblank⟩ := ih hdrop
    have hsplit : s = s.takeWhile inComment ++ (w ++ eatWhitespace (s.dropWhile inComment)) := by
      rw [← hw, takeWhile_append_dropWhile]
    refine ⟨'#' :: (s.takeWhile inComment ++ w), ?_, fun hne => ?_⟩
    · rw [cons_append, append_assoc, ← hsplit]
    · obtain ⟨w', rfl, hblank'⟩ := newline_of_dropWhile hdrop hw (hblank hne) hne
      exact Blank.comment (fun c hc => mem_takeWhile_imp hc) hblank'
  | case4 c s hc hcomment => exact ⟨[], rfl, fun _ => Blank.nil⟩

lemma findEnd_of_append {needle body fin : List Char} (after : List Char)
    (h : findEnd needle (body ++ (fin ++ after)) = some (body, fin ++ after))
    (hfin : needle <+: fin) : findEnd needle (body ++ fin) = some (body, fin) := by
  induction body with
  | nil =>
    cases fin with
    | nil => rw [append_nil, findEnd, if_pos (prefix_nil.mp hfin)]
    | cons c fin => rw [nil_append, findEnd, if_pos hfin]
  | cons c body ih =>
    rw [cons_append, findEnd] at h
    split_ifs at h with hpre
    · cases h
    · obtain ⟨⟨body', fin'⟩, hrec, heq⟩ := map_eq_some_iff.mp h
      cases heq
      have hlater : ¬ needle <+: c :: (body ++ fin) := by
        intro hshort
        refine hpre (hshort.trans ?_)
        rw [← append_assoc, ← cons_append]
        exact prefix_append _ _
      rw [cons_append, findEnd, if_neg hlater, ih hrec]
      rfl

/-! ## What is read -/

lemma line_lineOf (str : List Char) : ∀ c ∈ lineOf str, notNewline c = true :=
  fun _ hc => mem_takeWhile_imp hc

lemma prefix_lineOf {needle : List Char} (h : needle <+: str)
    (hneedle : ∀ c ∈ needle, notNewline c = true) : needle <+: lineOf str := by
  obtain ⟨t, rfl⟩ := h
  rw [lineOf, takeWhile_append_of_pos hneedle]
  exact prefix_append _ _

lemma endsLine_afterLine (str : List Char) : EndsLine (afterLine str) := by
  intro c hc
  have := head?_dropWhile_not notNewline str
  rw [← afterLine, mem_def.mp hc] at this
  simpa [notNewline] using this

lemma starts_lineOf (hhead : ∀ c ∈ str.head?, isWhitespace c = false ∧ c ≠ '#') (hne : str ≠ []) :
    ∃ c ∈ (lineOf str).head?, isWhitespace c = false ∧ c ≠ '#' := by
  obtain ⟨c, s, rfl⟩ := exists_cons_of_ne_nil hne
  have hc := hhead c rfl
  have hline : notNewline c = true := by
    simp only [isWhitespace, decide_eq_false_iff_not, not_or] at hc
    exact decide_eq_true hc.1.2.2.1
  rw [lineOf, takeWhile_cons_of_pos hline]
  exact ⟨c, rfl, hc⟩

lemma exists_of_nextObject {k : Keyword κ} (h : nextObject crypto k str = .ok (tok, rest)) :
    ∃ body fin, findEnd "-----END ".toList (afterLine str).tail = some (body, fin)
      ∧ rest = afterLine fin := by
  simp only [nextObject] at h
  split_ifs at h
  split at h
  · cases h
  · rename_i body fin hfind
    split_ifs at h
    obtain ⟨tok', -, heq⟩ := exists_of_map_eq_ok h
    cases heq
    exact ⟨body, fin, hfind, rfl⟩

lemma exists_obj {k : Keyword κ} {after : List Char} (hnul : '\x00' ∉ after)
    (hafter : EndsLine after) (hbegins : beginsObject (eatWhitespace after) = true)
    (h : nextObject crypto k (eatWhitespace after) = .ok (tok, rest)) :
    ∃ o : Obj, after = o.gap ++ (o.text ++ rest) ∧ EndsLine rest := by
  obtain ⟨w, hw, hblank⟩ := exists_blank hnul
  have hhead := head_eatWhitespace after
  obtain ⟨body, fin, hfind, rfl⟩ := exists_of_nextObject h
  have hsplit := lineOf_append_afterLine (eatWhitespace after)
  have hnewline := endsLine_afterLine (eatWhitespace after)
  simp only [beginsObject, decide_eq_true_eq] at hbegins
  obtain ⟨hne, -, htake⟩ := hbegins
  have hnonempty : eatWhitespace after ≠ [] := by
    intro hnil
    rw [hnil] at hne
    exact hne rfl
  generalize eatWhitespace after = str at *
  obtain ⟨c, behind, hbehind⟩ := exists_cons_of_ne_nil hne
  obtain rfl : c = '\n' := hnewline c (by rw [hbehind]; rfl)
  rw [hbehind, tail_cons] at hfind
  have hbody := findEnd_append hfind
  have hfin : "-----END ".toList <+: lineOf fin :=
    prefix_lineOf (prefix_of_findEnd hfind) (all_eq_true.mp (by decide))
  have hbegin : "-----BEGIN ".toList <+: lineOf str := by
    refine prefix_lineOf ?_ (all_eq_true.mp (by decide))
    rw [← htake]
    exact take_prefix 11 str
  have hends : findEnd "-----END ".toList (body ++ lineOf fin) = some (body, lineOf fin) := by
    refine findEnd_of_append (afterLine fin) ?_ hfin
    rwa [lineOf_append_afterLine, ← hbody]
  have hgap : w.head? = some '\n' := by
    cases w with
    | nil =>
      obtain ⟨d, str', rfl⟩ := exists_cons_of_ne_nil hnonempty
      rw [nil_append] at hw
      have hd := hafter d (by rw [hw]; rfl)
      have := (hhead d rfl).1
      rw [hd] at this
      exact absurd this (by decide)
    | cons d w =>
      rw [hafter d (by rw [hw]; rfl)]
      rfl
  refine ⟨⟨w, lineOf str, body, lineOf fin, hblank hnonempty, hgap, hbegin, line_lineOf str, hends,
    line_lineOf fin⟩, ?_, endsLine_afterLine fin⟩
  rw [Obj.text, append_assoc, cons_append, append_assoc, lineOf_append_afterLine,
    ← hbody, ← hbehind, hsplit, ← hw]

lemma exists_item (hhead : ∀ c ∈ str.head?, isWhitespace c = false ∧ c ≠ '#') (hne : str ≠ [])
    (hnul : '\x00' ∉ str) (h : nextToken crypto table str = .ok (tok, rest)) :
    ∃ (i : Item) (after : List Char), str = i.text ++ after ∧ EndsLine after
      ∧ rest = i.rest after ∧ (i.object = none → beginsObject (eatWhitespace after) = false) := by
  have hstarts := starts_lineOf hhead hne
  have hsplit := lineOf_append_afterLine str
  have hends := endsLine_afterLine str
  have hafter : '\x00' ∉ afterLine str := fun hmem => hnul ((afterLine_suffix str).mem hmem)
  rw [nextToken, eatWhitespace_of_head hhead] at h
  split at h
  · cases h
  · split at h
    · cases h
    · rename_i k hk
      rw [nextRest] at h
      cases hbegins : beginsObject (eatWhitespace (afterLine str)) with
      | true =>
        rw [hbegins, if_pos rfl] at h
        obtain ⟨o, ho, hrest⟩ := exists_obj hafter hends hbegins h
        refine ⟨⟨lineOf str, some o, hstarts, line_lineOf str⟩, rest, ?_, hrest, rfl, ?_⟩
        · rw [Item.text]
          simp only [append_assoc]
          rw [← ho, hsplit]
        · intro hnone
          cases hnone
      | false =>
        rw [hbegins, if_neg Bool.false_ne_true] at h
        obtain ⟨tok', -, heq⟩ := exists_of_map_eq_ok h
        cases heq
        exact ⟨⟨lineOf str, none, hstarts, line_lineOf str⟩, afterLine str, hsplit.symm, hends, rfl,
          fun _ => hbegins⟩

/-! ## Documents -/

lemma nextTokens_of_tokensOf {buf : List Char} {flags : Flags}
    (h : tokensOf crypto table buf flags out = .ok out') :
    nextTokens crypto table buf out = .ok out' ∧ checkTokens table flags out.length out' = .ok () := by
  rw [tokensOf] at h
  split_ifs at h
  split at h
  · cases h
  · rename_i out'' hnext
    obtain ⟨u, hcheck, rfl⟩ := exists_of_map_eq_ok h
    exact ⟨hnext, hcheck⟩

lemma wellWritten_last {i : Item} {after : List Char} (hends : EndsLine after)
    (hobject : i.object = none → beginsObject (eatWhitespace after) = false) :
    WellWritten [(i, ⟨none, []⟩)] after :=
  ⟨fun _ h => (not_mem_none _ h).elim, Blank.nil, hends, hobject, trivial⟩

lemma exists_items (hhead : ∀ c ∈ str.head?, isWhitespace c = false ∧ c ≠ '#') (hnul : '\x00' ∉ str)
    (h : nextTokens crypto table str out = .ok out') :
    ∃ ds tail, str = text ds tail ∧ WellWritten ds tail ∧ out'.length = out.length + ds.length := by
  fun_induction nextTokens crypto table str out with
  | case1 out =>
    cases h
    exact ⟨[], [], rfl, trivial, rfl⟩
  | case2 => cases h
  | case3 str out hne tok rest hnext heof =>
    cases h
    obtain ⟨i, after, htext, hends, -, hobject⟩ := exists_item hhead hne hnul hnext
    exact ⟨[(i, ⟨none, []⟩)], after, htext, wellWritten_last hends hobject, length_append⟩
  | case4 str out hne tok rest hnext heof ih =>
    obtain ⟨i, after, htext, hends, rfl, hobject⟩ := exists_item hhead hne hnul hnext
    have hafter : '\x00' ∉ after := fun hmem => hnul (htext ▸ mem_append_right _ hmem)
    rw [eatWhitespace_rest] at ih h
    obtain ⟨w, hw, hblank⟩ := exists_blank hafter
    have hnul' : '\x00' ∉ eatWhitespace after :=
      fun hmem => hafter ((eatWhitespace_suffix after).mem hmem)
    obtain ⟨ds, tail, hds, hwritten, hlength⟩ := ih (head_eatWhitespace after) hnul' h
    rw [length_append, length_singleton] at hlength
    by_cases hnil : eatWhitespace after = []
    · -- nothing but blank lines is left
      cases ds with
      | nil =>
        exact ⟨[(i, ⟨none, []⟩)], after, htext, wellWritten_last hends hobject, hlength⟩
      | cons d ds =>
        rw [hnil] at hds
        exact absurd hds.symm (text_ne_nil hwritten)
    · refine ⟨(i, ⟨none, w⟩) :: ds, tail, ?_, ⟨?_, hblank hnil, ?_, ?_, hwritten⟩, ?_⟩
      · rw [text, optPrefix, nil_append, ← hds, ← hw, htext]
      · exact fun _ h => (not_mem_none _ h).elim
      · rwa [← hds, ← hw]
      · rwa [← hds, eatWhitespace_eatWhitespace]
      · rw [hlength, length_cons]
        omega

/-- What `tokenize_string` accepts is a document. -/
theorem exists_document {buf : List Char} {flags : Flags}
    (h : tokensOf crypto table buf flags out = .ok out') :
    ∃ w ds tail, buf = w ++ text ds tail ∧ Blank w ∧ WellWritten ds tail
      ∧ out'.length = out.length + ds.length := by
  obtain ⟨hnext, -⟩ := nextTokens_of_tokensOf h
  have hnul : '\x00' ∉ buf := by
    intro hmem
    rw [tokensOf, if_pos hmem] at h
    cases h
  by_cases hbuf : buf = []
  · rw [hbuf, nextTokens, if_pos rfl] at hnext
    cases hnext
    exact ⟨[], [], [], hbuf, Blank.nil, trivial, rfl⟩
  · obtain ⟨w, hw, hblank⟩ := exists_blank hnul
    have hne : eatWhitespace buf ≠ [] := by
      intro hnil
      have herror : nextToken crypto table buf = .error "Unexpected EOF".toList := by
        rw [nextToken, hnil]
        rfl
      rw [nextTokens_error hbuf herror] at hnext
      cases hnext
    rw [hw, nextTokens_blank (hblank hne) (by rwa [eatWhitespace_eatWhitespace]),
      eatWhitespace_eatWhitespace] at hnext
    have hnul' : '\x00' ∉ eatWhitespace buf :=
      fun hmem => hnul ((eatWhitespace_suffix buf).mem hmem)
    obtain ⟨ds, tail, hds, hwritten, hlength⟩ := exists_items (head_eatWhitespace buf) hnul' hnext
    exact ⟨w, ds, tail, by rw [← hds, ← hw], hblank hne, hwritten, hlength⟩

/-! ## Other blank lines, and `"opt"` -/

/-- The same items with an `"opt"` in front of some of them, and other blank lines between them. -/
inductive Relaid : List (Item × Layout) → List (Item × Layout) → Prop
  | nil : Relaid [] []
  | cons {i : Item} {l l' : Layout} {ds ds' : List (Item × Layout)}
      (hopt : l'.opt = l.opt ∨ ∃ gap, l'.opt = some gap ∧ i.TakesOpt gap)
      (hblank : l'.blank = l.blank ∨ ds ≠ [] ∧ Blank l'.blank ∧ l'.blank.head? = some '\n')
      (h : Relaid ds ds') : Relaid ((i, l) :: ds) ((i, l') :: ds')

variable {ds ds' : List (Item × Layout)} {tail : List Char}

lemma Relaid.items (h : Relaid ds ds') : ds.map Prod.fst = ds'.map Prod.fst := by
  induction h with
  | nil => rfl
  | cons _ _ _ ih => rw [map_cons, map_cons, ih]

lemma Relaid.eq_nil_iff (h : Relaid ds ds') : ds = [] ↔ ds' = [] := by
  cases h <;> simp

lemma blank_ne_nil {i : Item} {l : Layout} (hds : WellWritten ((i, l) :: ds) tail) (hne : ds ≠ []) :
    l.blank ≠ [] := by
  intro hnil
  obtain ⟨⟨j, m⟩, ds, rfl⟩ := exists_cons_of_ne_nil hne
  obtain ⟨-, -, hends, -, hds⟩ := hds
  obtain ⟨c, s, hcons⟩ := exists_cons_of_ne_nil (text_ne_nil hds)
  have hhead := head_eatWhitespace (text ((j, m) :: ds) tail)
  rw [eatWhitespace_text hds, hcons] at hhead
  rw [hnil, nil_append, hcons] at hends
  have := (hhead c rfl).1
  rw [hends c rfl] at this
  exact absurd this (by decide)

lemma beginsObject_line {i : Item} {behind : List Char} (hends : EndsLine behind) :
    beginsObject (i.line ++ behind) = true
      ↔ behind ≠ [] ∧ 11 ≤ i.line.length ∧ i.line.take 11 = "-----BEGIN ".toList := by
  obtain ⟨hline, hafter⟩ := lineOf_append i.line_line hends
  rw [beginsObject, hline, hafter, decide_eq_true_eq]
  refine and_congr_right fun _ => and_congr_right fun hlength => ?_
  rw [take_append_of_le_length hlength]

lemma Item.length_line_le (i : Item) : i.line.length ≤ i.text.length := by
  rw [Item.text]
  cases i.object with
  | none => exact le_rfl
  | some o =>
    rw [length_append]
    exact Nat.le_add_right _ _

lemma Relaid.beginsObject (h : Relaid ds ds') (hds : WellWritten ds tail)
    (hds' : WellWritten ds' tail) (hno : beginsObject (eatWhitespace (text ds tail)) = false) :
    beginsObject (eatWhitespace (text ds' tail)) = false := by
  cases h with
  | nil => exact hno
  | @cons i l l' ds ds' hopt hblank h =>
    rw [eatWhitespace_text hds, text] at hno
    rw [eatWhitespace_text hds', text]
    obtain ⟨behind, hbehind, hends⟩ := exists_behind i hds.2.2.1
    obtain ⟨behind', hbehind', hends'⟩ := exists_behind i hds'.2.2.1
    rw [hbehind] at hno
    rw [hbehind']
    cases hl' : l'.opt with
    | some gap => simp [Dirparse.beginsObject, optPrefix]
    | none =>
      have hl : l.opt = none := by
        rcases hopt with hopt | ⟨gap, hgap, -⟩
        · rw [← hopt, hl']
        · rw [hl'] at hgap
          cases hgap
      rw [hl, optPrefix, nil_append] at hno
      rw [optPrefix, nil_append]
      by_contra hbegins
      rw [Bool.not_eq_false, beginsObject_line hends'] at hbegins
      obtain ⟨hne', hline⟩ := hbegins
      refine absurd ((beginsObject_line hends).mpr ⟨fun hnil => hne' ?_, hline⟩) (by simp [hno])
      -- nothing stands behind the line, so nothing can stand behind it in the other document
      rw [hnil, append_nil] at hbehind
      have hle := i.length_line_le
      have hlength := congrArg length hbehind
      rw [length_append] at hlength
      obtain ⟨hblanks, htext⟩ := append_eq_nil_iff.mp
        (length_eq_zero_iff.mp (show (l.blank ++ text ds tail).length = 0 by omega))
      have hds : ds = [] := by
        by_contra hne
        exact blank_ne_nil hds hne hblanks
      have hblank' : l'.blank = [] := by
        rcases hblank with hblank | ⟨hne, -⟩
        · rw [hblank, hblanks]
        · exact absurd hds hne
      rw [h.eq_nil_iff.mp hds, hblank', nil_append, text] at hbehind'
      rw [hds, text] at htext
      have hlength' := congrArg length hbehind'
      rw [htext, length_append, length_append, length_nil] at hlength'
      exact length_eq_zero_iff.mp (by omega)

lemma Relaid.wellWritten (h : Relaid ds ds') (hds : WellWritten ds tail) : WellWritten ds' tail := by
  induction h with
  | nil => trivial
  | @cons i l l' ds ds' hopt hblank h ih =>
    have hnonempty := blank_ne_nil hds
    obtain ⟨htakes, hblanks, hends, hobject, hrest⟩ := hds
    refine ⟨?_, ?_, ?_, ?_, ih hrest⟩
    · rcases hopt with hopt | ⟨gap, hopt, hgap⟩
      · rwa [hopt]
      · rw [hopt]
        intro gap' hgap'
        rwa [← some.inj hgap']
    · rcases hblank with hblank | ⟨-, hblank, -⟩
      · rwa [hblank]
      · exact hblank
    · rcases hblank with hblank | ⟨-, -, hnewline⟩
      · rw [hblank]
        by_cases hnil : ds = []
        · rwa [h.eq_nil_iff.mp hnil, ← hnil]
        · obtain ⟨c, w, hw⟩ := exists_cons_of_ne_nil (hnonempty hnil)
          rw [hw] at hends ⊢
          exact hends
      · intro c hc
        rw [head?_append, hnewline] at hc
        exact (some.inj hc).symm
    · exact fun hnone => h.beginsObject hrest (ih hrest) (hobject hnone)

/-! ## The tokenizer -/

variable (crypto table) in
/-- **The tokenizer.**  A call that finds a token moves the pointer; nothing outside the range is
read; the tokens of a range that is accepted are as the table says, and are those of the items that
it consists of; blank lines between the items, and an `"opt"`, do not change them. -/
theorem tokenizeString_sound :
    (∀ (buf : List Char) (s : ℕ), s ≤ buf.length → getNextToken crypto buf table s ≠ none
          ∧ ∀ tok t, getNextToken crypto buf table s = some (.ok (tok, t)) → s < t ∧ t ≤ buf.length)
    ∧ (∀ buf flags out, tokenizeString crypto table buf flags out ≠ none)
    ∧ (∀ buf flags out out', tokenizeString crypto table buf flags out = some (.ok out') →
        (∃ new, out' = out ++ new ∧ ∀ tok ∈ new, Bounded crypto table tok)
          ∧ (flags.noCheck = false → ∃ first, Satisfies table flags out.length first out')
          ∧ ∃ w ds tail, buf = w ++ text ds tail ∧ Blank w ∧ WellWritten ds tail
            ∧ out'.length = out.length + ds.length)
    ∧ ∀ w w' ds ds' tail flags out, Blank w → Blank w' → WellWritten ds tail → Relaid ds ds' →
        ds ≠ [] ∨ eatWhitespace tail ≠ [] →
        tokenizeString crypto table (w' ++ text ds' tail) flags out
          = tokenizeString crypto table (w ++ text ds tail) flags out := by
  refine ⟨?_, ?_, ?_, ?_⟩
  · intro buf s hs
    refine ⟨?_, fun tok t h => lt_of_getNextToken buf hs h⟩
    have hsuffix : buf.drop s <:+ buf := drop_suffix s buf
    have hptr : ptr buf (buf.drop s) = s := by
      rw [ptr, length_drop]
      omega
    rw [← hptr, getNextToken_eq crypto table hsuffix]
    exact some_ne_none _
  · intro buf flags out
    rw [tokenizeString_eq]
    exact some_ne_none _
  · intro buf flags out out' h
    rw [tokenizeString_eq] at h
    have htokens := some.inj h
    refine ⟨?_, ?_, exists_document htokens⟩
    · obtain ⟨hnext, -⟩ := nextTokens_of_tokensOf htokens
      exact bounded_of_nextTokens hnext
    · intro hcheck
      obtain ⟨-, hchecked⟩ := nextTokens_of_tokensOf htokens
      exact satisfies_of_checkTokens hcheck hchecked
  · intro w w' ds ds' tail flags out hw hw' hds hrelaid hne
    rw [tokenizeString_eq, tokenizeString_eq,
      tokensOf_text hw hw' hds (hrelaid.wellWritten hds) hrelaid.items hne]

/-! ## Runs -/

section Runs

/-- No keys are known. -/
def noKeys : Crypto Unit := ⟨fun _ => none, fun _ => 0, fun _ => false⟩

def noFlags : Flags := ⟨false, false, false⟩

def itemA : Item := ⟨['a'], none, ⟨'a', rfl, by decide⟩, List.all_eq_true.mp rfl⟩

def itemB : Item := ⟨['b'], none, ⟨'b', rfl, by decide⟩, List.all_eq_true.mp rfl⟩

/-- Two items, with and without a comment between them and an `"opt"` in front of the first. -/
theorem tokenizeString_sound_twoItems :
    tokenizeString noKeys [] "\nopt a\n\n# c\nb\n".toList noFlags []
      = tokenizeString noKeys [] "a\nb\n".toList noFlags [] := by
  have hnewline : Blank ['\n'] := Blank.space rfl Blank.nil
  have hcomment : Blank "\n\n# c\n".toList :=
    Blank.space rfl (Blank.space rfl (@Blank.comment " c".toList [] (all_eq_true.mp rfl) Blank.nil))
  have hb : WellWritten [(itemB, ⟨none, ['\n']⟩)] [] := by
    refine ⟨by simp, hnewline, by simp [EndsLine], fun _ => ?_, trivial⟩
    rw [text, eatWhitespace]
    rfl
  have hds : WellWritten [(itemA, ⟨none, ['\n']⟩), (itemB, ⟨none, ['\n']⟩)] [] := by
    refine ⟨by simp, hnewline, by simp [EndsLine], fun _ => ?_, hb⟩
    rw [eatWhitespace_text hb]
    rfl
  have hrelaid : Relaid [(itemA, ⟨none, ['\n']⟩), (itemB, ⟨none, ['\n']⟩)]
      [(itemA, ⟨some [' '], "\n\n# c\n".toList⟩), (itemB, ⟨none, ['\n']⟩)] :=
    .cons (.inr ⟨[' '], rfl, by decide, all_eq_true.mp rfl, by decide, by decide⟩)
      (.inr ⟨by simp, hcomment, rfl⟩) (.cons (.inl rfl) (.inl rfl) .nil)
  exact (tokenizeString_sound noKeys []).2.2.2 [] ['\n'] _ _ [] noFlags [] Blank.nil hnewline hds
    hrelaid (.inl (by simp))

lemma tokenizeString_line (i : Item) (hi : i.object = none) (hnul : '\x00' ∉ i.line) :
    tokenizeString noKeys [] (i.line ++ ['\n']) noFlags [] = some (match itemToken noKeys [] i with
        | .error e => .error ("parse error: ".toList ++ e)
        | .ok tok => if isAnnotationToken tok then .error "parse error: no annotations allowed.".toList
            else .ok [tok]) := by
  have hends : EndsLine ['\n'] := by simp [EndsLine]
  have heat : eatWhitespace ['\n'] = [] := by
    rw [eatWhitespace, if_pos (by decide), eatWhitespace]
  have hne : i.line ++ ['\n'] ≠ [] := by simp
  have hbuf : '\x00' ∉ i.line ++ ['\n'] := by simp [hnul]
  have hnext : nextToken noKeys [] (i.line ++ ['\n'])
      = (itemToken noKeys [] i).map fun tok => (tok, i.rest ['\n']) := by
    have := @nextToken_item _ noKeys [] ['\n'] i none (by simp) hends (fun _ => by rw [heat]; rfl)
    rwa [optPrefix, nil_append, Item.text, hi] at this
  rw [tokenizeString_eq, tokensOf, if_neg hbuf]
  cases htok : itemToken noKeys [] i with
  | error e =>
    rw [htok] at hnext
    rw [nextTokens_error hne hnext]
  | ok tok =>
    rw [htok] at hnext
    have htokens : nextTokens noKeys [] (i.line ++ ['\n']) [] = .ok [tok] := by
      rw [nextTokens_ok hne hnext, eatWhitespace_rest, heat, nextTokens, if_pos rfl, nil_append]
      split_ifs <;> rfl
    rw [htokens]
    cases hannot : isAnnotationToken tok <;>
      simp [checkTokens, firstNonannotationIndex, checkRules, noFlags, hannot, Except.map]

/-- The longest line that there may be. -/
@[irreducible]
def longLine : List Char := List.replicate maxLineLength 'a'

lemma length_longLine : longLine.length = maxLineLength := by
  rw [longLine, length_replicate]

lemma mem_longLine {c : Char} (h : c ∈ longLine) : c = 'a' := by
  rw [longLine] at h
  exact eq_of_mem_replicate h

lemma head_longLine : longLine.head? = some 'a' := by
  rw [longLine, head?_replicate, if_neg (by decide)]

lemma firstWord_longLine : firstWord longLine = longLine :=
  takeWhile_eq_self_iff.mpr fun c hc => by
    rw [mem_longLine hc]
    decide

def longItem : Item where
  line := longLine
  object := none
  starts := ⟨'a', head_longLine, by decide⟩
  line_line := fun c hc => by
    rw [mem_longLine hc]
    decide

def longOptItem : Item where
  line := "opt ".toList ++ longLine
  object := none
  starts := ⟨'o', rfl, by decide⟩
  line_line := fun c hc => by
    rcases List.mem_append.mp hc with hc | hc
    · exact List.all_eq_true.mp (by decide : "opt ".toList.all notNewline = true) c hc
    · rw [mem_longLine hc]
      decide

lemma itemToken_longItem : itemToken noKeys [] longItem = .ok (unrecognized longLine) := by
  have hline : splitLine longLine = .ok (lineOfText longLine) := by
    have hself : lineOf longLine = longLine := takeWhile_eq_self_iff.mpr longItem.line_line
    have hopt : longLine ≠ "opt".toList := by
      intro heq
      have := head_longLine
      rw [heq] at this
      exact absurd this (by decide)
    have hne : longLine ≠ [] := by
      intro hnil
      have := head_longLine
      rw [hnil] at this
      cases this
    rw [splitLine_eq, hself, if_neg (by rw [length_longLine]; exact lt_irrefl _), firstWord_longLine,
      if_neg hopt, if_neg hne]
  rw [itemToken, show longItem.line = longLine from rfl, hline]
  rfl

lemma itemToken_longOptItem :
    itemToken noKeys [] longOptItem = .error "Line far too long".toList := by
  have hself : lineOf longOptItem.line = longOptItem.line :=
    takeWhile_eq_self_iff.mpr longOptItem.line_line
  have hlength : longOptItem.line.length = 4 + maxLineLength := by
    rw [longOptItem, length_append, length_longLine]
    rfl
  rw [itemToken, splitLine_eq, hself, if_pos (by omega)]

def missingRule : TokenRule :=
  { t := "a".toList, v := .keyword 0, minArgs := 0, maxArgs := 0, concatArgs := false, os := .noObj,
    minCnt := 1, maxCnt := 1, atStart := false, atEnd := false }

/-- With `TS_NOCHECK` a token may be missing; an `"opt"` changes a line that has one, and may make a
line too long. -/
theorem unchecked_and_changed :
    (tokenizeString noKeys [missingRule] [] { noFlags with noCheck := true } [] = some (.ok [])
      ∧ ¬ ∃ first, Satisfies [missingRule] { noFlags with noCheck := true } 0 first
        ([] : List (DirectoryToken Unit)))
    ∧ tokenizeString noKeys [] "opt a\n".toList noFlags [] = some (.ok [unrecognized ['a']])
    ∧ tokenizeString noKeys [] "opt opt a\n".toList noFlags [] = some (.ok [unrecognized "opt a".toList])
    ∧ tokenizeString noKeys [] (longLine ++ ['\n']) noFlags [] = some (.ok [unrecognized longLine])
    ∧ tokenizeString noKeys [] ("opt ".toList ++ longLine ++ ['\n']) noFlags []
      = some (.error "parse error: Line far too long".toList) := by
  refine ⟨⟨?_, ?_⟩, ?_, ?_, ?_, ?_⟩
  · rw [tokenizeString_eq, tokensOf, nextTokens]
    rfl
  · rintro ⟨first, hsatisfies⟩
    have := hsatisfies.minCnt missingRule mem_cons_self
    exact absurd this (by decide)
  · exact tokenizeString_line
      ⟨"opt a".toList, none, ⟨'o', rfl, by decide⟩, all_eq_true.mp rfl⟩ rfl (by decide)
  · exact tokenizeString_line
      ⟨"opt opt a".toList, none, ⟨'o', rfl, by decide⟩, all_eq_true.mp rfl⟩ rfl (by decide)
  · have hnul : '\x00' ∉ longLine := fun hmem => absurd (mem_longLine hmem) (by decide)
    have hannot : isAnnotationToken (unrecognized longLine : DirectoryToken Unit) = false := by
      rw [unrecognized, head_longLine]
      rfl
    have hline := tokenizeString_line longItem rfl hnul
    rw [itemToken_longItem] at hline
    simp only [hannot, Bool.false_eq_true, if_false] at hline
    exact hline
  · have hnul : '\x00' ∉ longOptItem.line := by
      intro hmem
      rcases mem_append.mp hmem with hmem | hmem
      · exact absurd hmem (by decide)
      · exact absurd (mem_longLine hmem) (by decide)
    rw [show "opt ".toList ++ longLine = longOptItem.line from rfl,
      tokenizeString_line longOptItem rfl hnul, itemToken_longOptItem]
    rfl

end Runs

end Ator.Dirparse
