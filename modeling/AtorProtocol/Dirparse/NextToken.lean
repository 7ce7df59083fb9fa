import AtorProtocol.Dirparse.Parsecommon

/-!
# The next token of a text

The next token as a function of the text that is left, without pointers.

* `nextToken` — the token, and what is left behind it.
* `getNextToken_eq` — `getNextToken` finds it, and reads nothing outside the range.
* `nextToken_suffix` — what is left is shorter.
-/

namespace Ator.Dirparse

open List Option

/-! ## Texts -/

def lineOf (str : List Char) : List Char := str.takeWhile notNewline

/-- From the end of the line on. -/
def afterLine (str : List Char) : List Char := str.dropWhile notNewline

def firstWord (line : List Char) : List Char := line.takeWhile inWord

def afterWord (line : List Char) : List Char := (line.dropWhile inWord).dropWhile isSpaceNoNl

def lineOfText (text : List Char) : Line := ⟨firstWord text, afterWord text, text⟩

/-- The line of a text that starts with one, without its `"opt"`. -/
def splitLine (str : List Char) : Except ErrorText Line :=
  let line := lineOf str
  if line.length > maxLineLength then .error "Line far too long".toList
  else if firstWord line = "opt".toList then .ok (lineOfText (afterWord line))
  else if str = [] then .error "Unexpected EOF".toList
  else .ok (lineOfText line)

/-- What stands before the needle, and the text from the needle on. -/
def findEnd (needle : List Char) : List Char → Option (List Char × List Char)
  | [] => if needle = [] then some ([], []) else none
  | c :: str =>
    if needle <+: c :: str then some ([], c :: str)
    else (findEnd needle str).map fun (body, fin) => (c :: body, fin)

/-- The text starts with the first line of an object. -/
def beginsObject (str : List Char) : Bool :=
  afterLine str ≠ [] ∧ 11 ≤ (lineOf str).length ∧ str.take 11 = "-----BEGIN ".toList

variable {κ : Type} (crypto : Crypto κ)

def nextObject (k : Keyword κ) (str : List Char) : Except ErrorText (DirectoryToken κ × List Char) :=
  let line := lineOf str
  let badBeginLine := "Malformed object: bad begin line".toList
  let name := (line.drop 11).take (line.length - 16)
  if line.length ≤ 16 then .error badBeginLine
  else if '\x00' ∈ name ∨ line.drop (line.length - 5) ≠ "-----".toList
      ∨ line.length > maxUnparsedObjectSize then .error badBeginLine
  else
    match findEnd "-----END ".toList (afterLine str).tail with
    | none => .error "Malformed object: missing object end line".toList
    | some (body, fin) =>
      let endLine := lineOf fin
      let mismatched := ebuf "Malformed object: mismatched end tag ".toList name
      if endLine.length ≠ 9 + name.length + 5 then .error mismatched
      else if (endLine.drop 9).take name.length ≠ name
          ∨ endLine.drop (endLine.length - 5) ≠ "-----".toList then .error mismatched
      else if body.length > maxUnparsedObjectSize then
        .error "Couldn't parse object: missing footer or object much too big.".toList
      else (decodeObject crypto k name body).map fun tok => (tok, afterLine fin)

/-- The object that may follow the line of `k`. -/
def nextRest (k : Keyword κ) (after : List Char) : Except ErrorText (DirectoryToken κ × List Char) :=
  let str := eatWhitespace after
  if beginsObject str then nextObject crypto k str
  else (tokenCheckObject crypto k.kwd k.tok k.oSyn).map fun tok => (tok, str)

def nextToken (table : List TokenRule) (text : List Char) :
    Except ErrorText (DirectoryToken κ × List Char) :=
  let str := eatWhitespace text
  match splitLine str with
  | .error e => .error e
  | .ok line =>
    match keywordToken table line with
    | .error e => .error e
    | .ok k => nextRest crypto k (afterLine str)

/-! ## Pointers into a text -/

/-- The pointer to a text that ends where the range does. -/
def ptr (buf str : List Char) : ℕ := buf.length - str.length

variable {buf a r str : List Char} {p : Char → Bool}

lemma ptr_nil (buf : List Char) : ptr buf [] = buf.length := rfl

lemma ptr_append (h : a ++ r <:+ buf) : ptr buf (a ++ r) + a.length = ptr buf r := by
  have := h.length_le
  rw [length_append] at this
  rw [ptr, ptr, length_append]
  omega

lemma suffix_of_append (h : a ++ r <:+ buf) : r <:+ buf := (suffix_append a r).trans h

lemma drop_ptr (h : str <:+ buf) : buf.drop (ptr buf str) = str := by
  obtain ⟨pre, rfl⟩ := h
  rw [ptr, length_append, Nat.add_sub_cancel, drop_left]

lemma slice_ptr (h : a ++ r <:+ buf) : slice buf (ptr buf (a ++ r)) (ptr buf r) = some a := by
  have hptr := ptr_append h
  have hle : ptr buf r ≤ buf.length := Nat.sub_le _ _
  rw [slice, if_pos ⟨by omega, hle⟩, drop_ptr h, ← hptr, Nat.add_sub_cancel_left, take_left]

lemma getElem?_ptr {c : Char} (h : c :: str <:+ buf) : buf[ptr buf (c :: str)]? = some c := by
  rw [← head?_drop, drop_ptr h, head?_cons]

lemma ptr_cons {c : Char} (h : c :: str <:+ buf) : ptr buf (c :: str) + 1 = ptr buf str :=
  ptr_append (a := [c]) h

lemma scanWhile_ptr (p : Char → Bool) (h : a ++ r <:+ buf) :
    scanWhile buf p (ptr buf (a ++ r)) (ptr buf r) = some (ptr buf (a.dropWhile p ++ r)) := by
  induction a with
  | nil => rw [nil_append, scanWhile, if_neg (lt_irrefl _)]; rfl
  | cons c a ih =>
    have hcons : c :: (a ++ r) <:+ buf := h
    have hlt : ptr buf (c :: (a ++ r)) < ptr buf r := by
      have := ptr_append h
      rw [length_cons, cons_append] at this
      omega
    rw [cons_append, scanWhile, if_pos hlt, getElem?_ptr hcons]
    simp only
    split_ifs with hc
    · rw [ptr_cons hcons, ih ((suffix_cons c _).trans h), dropWhile_cons_of_pos hc]
    · rw [dropWhile_cons_of_neg hc, cons_append]

lemma scanWhile_eos (p : Char → Bool) (h : str <:+ buf) :
    scanWhile buf p (ptr buf str) buf.length = some (ptr buf (str.dropWhile p)) := by
  have hstr : str ++ [] <:+ buf := by rwa [append_nil]
  have := scanWhile_ptr p hstr
  rwa [append_nil, append_nil, ptr_nil] at this

lemma dropWhile_suffix (p : Char → Bool) (h : str <:+ buf) : str.dropWhile p <:+ buf :=
  (List.dropWhile_suffix p).trans h

lemma eatWhitespace_suffix (str : List Char) : eatWhitespace str <:+ str := by
  fun_induction eatWhitespace str with
  | case1 => exact suffix_rfl
  | case2 c s hc ih => exact ih.trans (suffix_cons c s)
  | case3 s hc ih => exact (ih.trans (List.dropWhile_suffix _)).trans (suffix_cons _ s)
  | case4 => exact suffix_rfl

lemma eatWhitespaceEos_ptr (h : str <:+ buf) :
    eatWhitespaceEos buf (ptr buf str) buf.length = some (ptr buf (eatWhitespace str)) := by
  fun_induction eatWhitespace str with
  | case1 =>
    rw [ptr_nil, eatWhitespaceEos, if_neg (lt_irrefl _)]
  | case2 c s hc ih =>
    have hlt : ptr buf (c :: s) < buf.length := by
      have := h.length_le
      rw [length_cons] at this
      rw [ptr, length_cons]
      omega
    rw [eatWhitespaceEos, if_pos hlt, getElem?_ptr h]
    simp only [hc, if_true]
    rw [ptr_cons h, ih ((suffix_cons c s).trans h)]
  | case3 s hc ih =>
    have hs : s <:+ buf := (suffix_cons '#' s).trans h
    have hlt : ptr buf ('#' :: s) < buf.length := by
      have := h.length_le
      rw [length_cons] at this
      rw [ptr, length_cons]
      omega
    rw [eatWhitespaceEos, if_pos hlt, getElem?_ptr h]
    simp only [hc]
    rw [if_neg Bool.false_ne_true, if_pos trivial]
    have hscan := scanWhile_eos inComment hs
    rw [← ptr_cons h] at hscan
    split
    · rename_i hnone
      rw [hnone] at hscan
      cases hscan
    · rename_i s' hs'
      rw [hs'] at hscan
      obtain rfl := some.inj hscan
      exact ih (dropWhile_suffix inComment hs)
  | case4 c s hc hcomment =>
    have hlt : ptr buf (c :: s) < buf.length := by
      have := h.length_le
      rw [length_cons] at this
      rw [ptr, length_cons]
      omega
    rw [eatWhitespaceEos, if_pos hlt, getElem?_ptr h]
    simp only [hc, hcomment, Bool.false_eq_true, if_false]

lemma findEnd_append {needle body fin : List Char} (h : findEnd needle str = some (body, fin)) :
    str = body ++ fin := by
  induction str generalizing body with
  | nil =>
    rw [findEnd] at h
    split_ifs at h
    cases h
    rfl
  | cons c str ih =>
    rw [findEnd] at h
    split_ifs at h
    · cases h
      rfl
    · obtain ⟨⟨body', fin'⟩, hrec, heq⟩ := map_eq_some_iff.mp h
      cases heq
      rw [ih hrec, cons_append]

lemma prefix_of_findEnd {needle body fin : List Char} (h : findEnd needle str = some (body, fin)) :
    needle <+: fin := by
  induction str generalizing body with
  | nil =>
    rw [findEnd] at h
    split_ifs at h with hnil
    rw [hnil]
    exact nil_prefix
  | cons c str ih =>
    rw [findEnd] at h
    split_ifs at h with hpre
    · cases h
      exact hpre
    · obtain ⟨⟨body', fin'⟩, hrec, heq⟩ := map_eq_some_iff.mp h
      cases heq
      exact ih hrec

lemma memstr_ptr {needle : List Char} (hne : needle ≠ []) (h : str <:+ buf) :
    memstr buf needle (ptr buf str) buf.length
      = some ((findEnd needle str).map fun r => ptr buf r.2) := by
  have hlen : 0 < needle.length := length_pos_iff.mpr hne
  induction str with
  | nil =>
    rw [ptr_nil, memstr, if_neg (by omega), findEnd, if_neg hne]
    rfl
  | cons c str ih =>
    have hptr := ptr_cons h
    have hlength : ptr buf (c :: str) + (c :: str).length = buf.length := by
      have := h.length_le
      rw [ptr]
      omega
    rw [memstr, findEnd, hptr, ih ((suffix_cons c str).trans h)]
    by_cases hfits : ptr buf (c :: str) + needle.length ≤ buf.length
    · have hslice : slice buf (ptr buf (c :: str)) (ptr buf (c :: str) + needle.length)
          = some ((c :: str).take needle.length) := by
        rw [slice, if_pos ⟨by omega, hfits⟩, drop_ptr h, Nat.add_sub_cancel_left]
      rw [if_pos hfits, hslice]
      simp only
      by_cases hpre : needle <+: c :: str
      · rw [if_pos (prefix_iff_eq_take.mp hpre).symm, if_pos hpre]
        rfl
      · rw [if_neg fun heq => hpre (prefix_iff_eq_take.mpr heq.symm), if_neg hpre]
        cases findEnd needle str <;> rfl
    · have hpre : ¬ needle <+: c :: str := fun hpre => by
        have := hpre.length_le
        omega
      have hnone : findEnd needle str = none := by
        cases hfind : findEnd needle str with
        | none => rfl
        | some r =>
          have hfin := (prefix_of_findEnd hfind).length_le
          have happend := congrArg length (findEnd_append hfind)
          rw [length_append] at happend
          rw [length_cons] at hlength
          omega
      rw [if_neg hfits, if_neg hpre, hnone]
      rfl

/-! ## The pointers and the texts agree -/

lemma lineOf_append_afterLine (str : List Char) : lineOf str ++ afterLine str = str :=
  takeWhile_append_dropWhile

lemma afterLine_suffix (str : List Char) : afterLine str <:+ str := List.dropWhile_suffix _

lemma lineParts_ptr {text : List Char} (h : text ++ r <:+ buf) :
    lineParts buf (ptr buf (text ++ r)) (ptr buf (text.dropWhile inWord ++ r)) (ptr buf r)
      = some (lineOfText text) := by
  have hword : text.takeWhile inWord ++ (text.dropWhile inWord ++ r) = text ++ r := by
    rw [← append_assoc, takeWhile_append_dropWhile]
  have hrest : text.dropWhile inWord ++ r <:+ buf := by
    rw [← hword] at h
    exact suffix_of_append h
  have hword' : slice buf (ptr buf (text ++ r)) (ptr buf (text.dropWhile inWord ++ r))
      = some (text.takeWhile inWord) := by
    rw [← hword] at h ⊢
    exact slice_ptr h
  have hargs : afterWord text ++ r <:+ buf := by
    have hsplit : (text.dropWhile inWord).takeWhile isSpaceNoNl ++ (afterWord text ++ r)
        = text.dropWhile inWord ++ r := by
      rw [afterWord, ← append_assoc, takeWhile_append_dropWhile]
    rw [← hsplit] at hrest
    exact suffix_of_append hrest
  have hscan := scanWhile_ptr isSpaceNoNl hrest
  rw [← afterWord] at hscan
  simp only [lineParts, eatWhitespaceEosNoNl, hword', hscan, slice_ptr hargs, slice_ptr h,
    bind_eq_bind, bind_some, lineOfText, firstWord]

lemma ptr_eq_length_iff (h : str <:+ buf) : ptr buf str = buf.length ↔ str = [] := by
  have := h.length_le
  rw [ptr, ← length_eq_zero_iff]
  omega

lemma readLine_ptr (h : str <:+ buf) :
    readLine buf (ptr buf str) (ptr buf (afterLine str)) = some (splitLine str) := by
  have hsplit := lineOf_append_afterLine str
  have hline : lineOf str ++ afterLine str <:+ buf := by rwa [hsplit]
  have hlen : ptr buf (afterLine str) - ptr buf str = (lineOf str).length := by
    have := ptr_append hline
    rw [hsplit] at this
    omega
  have hscan := scanWhile_ptr inWord hline
  have hparts := lineParts_ptr hline
  have hword : slice buf (ptr buf str) (ptr buf ((lineOf str).dropWhile inWord ++ afterLine str))
      = some (firstWord (lineOf str)) := by
    have hjoin : firstWord (lineOf str) ++ ((lineOf str).dropWhile inWord ++ afterLine str) = str := by
      rw [firstWord, ← append_assoc, takeWhile_append_dropWhile, hsplit]
    have hsuffix := h
    rw [← hjoin] at hsuffix
    have := slice_ptr hsuffix
    rwa [hjoin] at this
  have hrest : (lineOf str).dropWhile inWord ++ afterLine str <:+ buf := by
    have hjoin : (lineOf str).takeWhile inWord ++ ((lineOf str).dropWhile inWord ++ afterLine str)
        = str := by
      rw [← append_assoc, takeWhile_append_dropWhile, hsplit]
    rw [← hjoin] at h
    exact suffix_of_append h
  have hargs : afterWord (lineOf str) ++ afterLine str <:+ buf := by
    have hjoin : ((lineOf str).dropWhile inWord).takeWhile isSpaceNoNl
        ++ (afterWord (lineOf str) ++ afterLine str)
        = (lineOf str).dropWhile inWord ++ afterLine str := by
      rw [afterWord, ← append_assoc, takeWhile_append_dropWhile]
    rw [← hjoin] at hrest
    exact suffix_of_append hrest
  have hskip : eatWhitespaceEosNoNl buf (ptr buf ((lineOf str).dropWhile inWord ++ afterLine str))
      (ptr buf (afterLine str)) = some (ptr buf (afterWord (lineOf str) ++ afterLine str)) :=
    scanWhile_ptr isSpaceNoNl hrest
  rw [hsplit] at hscan hparts
  simp only [readLine, splitLine, hlen, findWhitespaceEos, hscan, hword, hparts, hskip,
    scanWhile_ptr inWord hargs, lineParts_ptr hargs, ptr_eq_length_iff h, bind_eq_bind, bind_some]
  split_ifs <;> rfl

lemma slice_within {line : List Char} (h : line ++ r <:+ buf) {i j : ℕ} (hij : i + j ≤ line.length) :
    slice buf (ptr buf (line ++ r) + i) (ptr buf (line ++ r) + i + j)
      = some ((line.drop i).take j) := by
  have hptr := ptr_append h
  have hle : ptr buf r ≤ buf.length := Nat.sub_le _ _
  rw [slice, if_pos ⟨by omega, by omega⟩, Nat.add_sub_cancel_left, ← drop_drop, drop_ptr h,
    drop_append_of_le_length (by omega), take_append_of_le_length]
  rw [length_drop]
  omega

lemma sliceBefore_ptr {line : List Char} (h : line ++ r <:+ buf) {n : ℕ} (hn : n ≤ line.length) :
    sliceBefore buf (ptr buf r) n = some (line.drop (line.length - n)) := by
  have hptr := ptr_append h
  have hwithin := slice_within h (i := line.length - n) (j := n) (by omega)
  rw [show ptr buf (line ++ r) + (line.length - n) = ptr buf r - n by omega,
    show ptr buf r - n + n = ptr buf r by omega, take_of_length_le] at hwithin
  · rw [sliceBefore, if_pos (by omega), hwithin]
  · rw [length_drop]
    omega

lemma length_lineOf (h : str <:+ buf) :
    ptr buf (afterLine str) - ptr buf str = (lineOf str).length := by
  have hline : lineOf str ++ afterLine str <:+ buf := by rwa [lineOf_append_afterLine]
  have := ptr_append hline
  rw [lineOf_append_afterLine] at this
  omega

lemma readObject_ptr (k : Keyword κ) (h : str <:+ buf) (hbegins : beginsObject str) :
    readObject crypto buf k (ptr buf str) (ptr buf (afterLine str))
      = some ((nextObject crypto k str).map fun r => (r.1, ptr buf r.2)) := by
  have hline : lineOf str ++ afterLine str <:+ buf := by rwa [lineOf_append_afterLine]
  have hstart : ptr buf str = ptr buf (lineOf str ++ afterLine str) := by
    rw [lineOf_append_afterLine]
  have heol := ptr_append hline
  simp only [beginsObject, decide_eq_true_eq] at hbegins
  obtain ⟨hnewline, -, -⟩ := hbegins
  obtain ⟨c, rest, hrest⟩ := exists_cons_of_ne_nil hnewline
  have hcons : c :: rest <:+ buf := by
    rw [← hrest]
    exact (afterLine_suffix str).trans h
  have hbody : rest <:+ buf := (suffix_cons c rest).trans hcons
  have hnext : ptr buf (afterLine str) + 1 = ptr buf rest := by rw [hrest, ptr_cons hcons]
  have htail : (afterLine str).tail = rest := by rw [hrest, tail_cons]
  simp only [readObject, nextObject, length_lineOf h, htail]
  by_cases hshort : (lineOf str).length ≤ 16
  · rw [if_pos hshort, if_pos hshort]
    rfl
  · have hname : slice buf (ptr buf str + 11) (ptr buf (afterLine str) - 5)
        = some (((lineOf str).drop 11).take ((lineOf str).length - 16)) := by
      have := slice_within hline (i := 11) (j := (lineOf str).length - 16) (by omega)
      rw [← hstart] at this heol
      rwa [show ptr buf str + 11 + ((lineOf str).length - 16) = ptr buf (afterLine str) - 5 by omega]
        at this
    have hending := sliceBefore_ptr hline (n := 5) (by omega)
    simp only [hname, hending, hnext, bind_eq_bind, bind_some]
    generalize ((lineOf str).drop 11).take ((lineOf str).length - 16) = name
    split_ifs with hbad
    · rfl
    · have hneedle : "-----END ".toList ≠ [] := by simp
      have hfind := memstr_ptr hneedle hbody
      rw [hfind]
      cases hend : findEnd "-----END ".toList rest with
      | none => rfl
      | some r =>
        obtain ⟨body, fin⟩ := r
        have hsplit := findEnd_append hend
        have hfin : fin <:+ buf := by
          rw [hsplit] at hbody
          exact suffix_of_append hbody
        have hendLine : lineOf fin ++ afterLine fin <:+ buf := by rwa [lineOf_append_afterLine]
        have hfinStart : ptr buf fin = ptr buf (lineOf fin ++ afterLine fin) := by
          rw [lineOf_append_afterLine]
        have hscan := scanWhile_eos notNewline hfin
        rw [← afterLine] at hscan
        simp only [map_some, bind_some, hscan, length_lineOf hfin]
        by_cases hlen : (lineOf fin).length = 9 + name.length + 5
        · have hendName : slice buf (ptr buf fin + 9) (ptr buf fin + 9 + name.length)
              = some (((lineOf fin).drop 9).take name.length) := by
            have := slice_within hendLine (i := 9) (j := name.length) (by omega)
            rwa [← hfinStart] at this
          have hendEnding := sliceBefore_ptr hendLine (n := 5) (by omega)
          have hslice : slice buf (ptr buf rest) (ptr buf fin) = some body := by
            rw [hsplit] at hbody ⊢
            exact slice_ptr hbody
          have hbodyLen : ptr buf fin - ptr buf rest = body.length := by
            rw [hsplit] at hbody ⊢
            have := ptr_append hbody
            omega
          simp only [hlen, ne_eq, not_true_eq_false, if_false, hendName, hendEnding,
            bind_some, hbodyLen, hslice]
          split_ifs
          · rfl
          · rfl
          · cases decodeObject crypto k name body <;> rfl
        · simp only [ne_eq, hlen, not_false_eq_true, if_true]
          rfl

lemma readRest_ptr (k : Keyword κ) {after : List Char} (h : after <:+ buf) :
    readRest crypto buf k (ptr buf after)
      = some ((nextRest crypto k after).map fun r => (r.1, ptr buf r.2)) := by
  have hstr : eatWhitespace after <:+ buf := (eatWhitespace_suffix after).trans h
  simp only [readRest, nextRest, eatWhitespaceEos_ptr h, bind_eq_bind, bind_some]
  generalize eatWhitespace after = str at hstr
  have hafter : afterLine str <:+ buf := (afterLine_suffix str).trans hstr
  have hscan := scanWhile_eos notNewline hstr
  rw [← afterLine] at hscan
  simp only [hscan, bind_some, ptr_eq_length_iff hafter, length_lineOf hstr]
  by_cases hno : afterLine str = [] ∨ (lineOf str).length < 11
  · have hbegins : beginsObject str = false := by
      simp only [beginsObject, decide_eq_false_iff_not]
      rintro ⟨hne, hlen, -⟩
      exact hno.elim hne fun hlt => by omega
    rw [if_pos hno, hbegins, if_neg Bool.false_ne_true]
    cases tokenCheckObject crypto k.kwd k.tok k.oSyn <;> rfl
  · have hstart : slice buf (ptr buf str) (ptr buf str + 11) = some (str.take 11) := by
      have hle : 11 ≤ str.length := by
        have := congrArg length (lineOf_append_afterLine str)
        rw [length_append] at this
        omega
      have hnil : str ++ [] <:+ buf := by rwa [append_nil]
      have := slice_within hnil (i := 0) (j := 11) (by omega)
      simpa using this
    rw [if_neg hno, hstart, bind_some]
    by_cases hbegins : beginsObject str = true
    · have htake := hbegins
      simp only [beginsObject, decide_eq_true_eq] at htake
      rw [if_neg (not_not.mpr htake.2.2), if_pos hbegins]
      exact readObject_ptr crypto k hstr hbegins
    · have htake : str.take 11 ≠ "-----BEGIN ".toList := by
        intro htake
        simp only [beginsObject, decide_eq_true_eq] at hbegins
        exact hbegins ⟨fun hnil => hno (Or.inl hnil), by omega, htake⟩
      rw [if_pos htake, if_neg hbegins]
      cases tokenCheckObject crypto k.kwd k.tok k.oSyn <;> rfl

/-- **`get_next_token` reads nothing outside the range**, and finds the next token of the text that
is left. -/
theorem getNextToken_eq (table : List TokenRule) (h : str <:+ buf) :
    getNextToken crypto buf table (ptr buf str)
      = some ((nextToken crypto table str).map fun r => (r.1, ptr buf r.2)) := by
  have hstr : eatWhitespace str <:+ buf := (eatWhitespace_suffix str).trans h
  have hafter : afterLine (eatWhitespace str) <:+ buf := (afterLine_suffix _).trans hstr
  have hscan := scanWhile_eos notNewline hstr
  rw [← afterLine] at hscan
  simp only [getNextToken, nextToken, eatWhitespaceEos_ptr h, hscan, readLine_ptr hstr,
    bind_eq_bind, bind_some]
  cases splitLine (eatWhitespace str) with
  | error e => rfl
  | ok line =>
    simp only
    cases keywordToken (κ := κ) table line with
    | error e => rfl
    | ok k => exact readRest_ptr crypto k hafter

/-! ## Progress -/

lemma head_eatWhitespace (str : List Char) :
    ∀ c ∈ (eatWhitespace str).head?, isWhitespace c = false ∧ c ≠ '#' := by
  fun_induction eatWhitespace str with
  | case1 => simp
  | case2 c s hc ih => exact ih
  | case3 s hc ih => exact ih
  | case4 c s hc hcomment => simpa using ⟨Bool.eq_false_iff.mpr hc, hcomment⟩

lemma length_afterLine_lt (h : ∀ c ∈ str.head?, isWhitespace c = false ∧ c ≠ '#') (hne : str ≠ []) :
    (afterLine str).length < str.length := by
  obtain ⟨c, rest, rfl⟩ := exists_cons_of_ne_nil hne
  have hc : notNewline c = true := by
    have hspace := (h c rfl).1
    simp only [isWhitespace, decide_eq_false_iff_not, not_or] at hspace
    exact decide_eq_true hspace.2.2.1
  have := (List.dropWhile_suffix notNewline (l := rest)).length_le
  rw [afterLine, dropWhile_cons_of_pos hc, length_cons]
  omega

lemma ne_nil_of_splitLine {line : Line} (h : splitLine str = .ok line) : str ≠ [] := by
  rintro rfl
  simp [splitLine, lineOf, firstWord] at h

variable {crypto} {table : List TokenRule} {tok : DirectoryToken κ} {rest : List Char}

lemma nextRest_suffix {k : Keyword κ} {after : List Char}
    (h : nextRest crypto k after = .ok (tok, rest)) : rest <:+ after := by
  have heat := eatWhitespace_suffix after
  simp only [nextRest] at h
  split_ifs at h
  · simp only [nextObject] at h
    split_ifs at h
    split at h
    · cases h
    · rename_i body fin hfind
      have hfin : fin <:+ eatWhitespace after := by
        have htail := findEnd_append hfind
        have hsuffix : body ++ fin <:+ eatWhitespace after := by
          rw [← htail]
          exact (tail_suffix _).trans (afterLine_suffix _)
        exact suffix_of_append hsuffix
      split_ifs at h
      cases hdecode : decodeObject crypto k
          (((lineOf (eatWhitespace after)).drop 11).take ((lineOf (eatWhitespace after)).length - 16))
          body with
      | error e =>
        rw [hdecode] at h
        cases h
      | ok tok' =>
        rw [hdecode] at h
        cases h
        exact ((afterLine_suffix fin).trans hfin).trans heat
  · cases hcheck : tokenCheckObject crypto k.kwd k.tok k.oSyn with
    | error e =>
      rw [hcheck] at h
      cases h
    | ok tok' =>
      rw [hcheck] at h
      cases h
      exact heat

/-- **A call that does not fail consumes at least one byte.** -/
theorem nextToken_suffix (h : nextToken crypto table str = .ok (tok, rest)) :
    rest <:+ str ∧ rest.length < str.length := by
  have heat := eatWhitespace_suffix str
  simp only [nextToken] at h
  split at h
  · cases h
  · rename_i line hline
    split at h
    · cases h
    · rename_i k hk
      have hsuffix := nextRest_suffix h
      have hlt := length_afterLine_lt (head_eatWhitespace str) (ne_nil_of_splitLine hline)
      exact ⟨(hsuffix.trans (afterLine_suffix _)).trans heat,
        lt_of_le_of_lt hsuffix.length_le (lt_of_lt_of_le hlt heat.length_le)⟩

end Ator.Dirparse
