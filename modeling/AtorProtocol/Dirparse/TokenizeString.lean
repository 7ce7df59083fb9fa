import AtorProtocol.Dirparse.NextToken

/-!
# Tokenizing a range

`tokenize_string` of `src/feature/dirparse/parsecommon.c`.

* `tokenizeString` — the tokens of a range, checked against the table.
* `nextTokens` — the loop, as a function of the text that is left.
* `tokenizeString_eq` — `tokenizeString` reads nothing outside the range.
* `bounded_of_nextTokens` — the arguments and the object of every token are as its rule says.
* `satisfies_of_checkTokens` — what is checked at the end.
-/

namespace Ator.Dirparse

open List
open Except (ok.inj)

variable {κ : Type} (crypto : Crypto κ) (table : List TokenRule)

/-- `TS_ANNOTATIONS_OK`, `TS_NOCHECK` and `TS_NO_NEW_ANNOTATIONS`. -/
structure Flags where
  annotationsOk : Bool
  noCheck : Bool
  noNewAnnotations : Bool
deriving DecidableEq

/-! ## The checks -/

/-- From `MIN_ANNOTATION` to `MAX_ANNOTATION`. -/
def isAnnotationToken (tok : DirectoryToken κ) : Bool :=
  match tok.tp with
  | .annotationKeyword _ | .annotationUnknown => true
  | _ => false

/-- Where the annotations end, if they are where they may be. -/
def firstNonannotationIndex (flags : Flags) (prevLen : ℕ) (out : List (DirectoryToken κ)) :
    Except ErrorText ℕ :=
  if flags.annotationsOk then
    match out.findIdx? (! isAnnotationToken ·) with
    | none => .error "parse error: item contains only annotations".toList
    | some i =>
      if (out.drop i).any isAnnotationToken then
        .error "parse error: Annotations mixed with keywords".toList
      else if flags.noNewAnnotations ∧ i ≠ prevLen then
        .error "parse error: Unexpected annotations.".toList
      else .ok i
  else if out.any isAnnotationToken then .error "parse error: no annotations allowed.".toList
  else .ok 0

/-- `counts[v]` -/
def count (out : List (DirectoryToken κ)) (v : DirectoryKeyword) : ℤ := out.countP (·.tp = v)

/-- The check of one rule of the table. -/
def checkRule (first : ℕ) (out : List (DirectoryToken κ)) (rule : TokenRule) :
    Except ErrorText Unit :=
  if count out rule.v < rule.minCnt then
    .error ("Parse error: missing ".toList ++ rule.t ++ " element.".toList)
  else if count out rule.v > rule.maxCnt then
    .error ("Parse error: too many ".toList ++ rule.t ++ " elements.".toList)
  else if rule.atStart ∧ out[first]?.map DirectoryToken.tp ≠ some rule.v then
    .error ("Parse error: first item is not ".toList ++ rule.t ++ ".".toList)
  else if rule.atEnd ∧ out.getLast?.map DirectoryToken.tp ≠ some rule.v then
    .error ("Parse error: last item is not ".toList ++ rule.t ++ ".".toList)
  else .ok ()

/-- The loop over the table. -/
def checkRules (first : ℕ) (out : List (DirectoryToken κ)) : List TokenRule → Except ErrorText Unit
  | [] => .ok ()
  | rule :: rules =>
    match checkRule first out rule with
    | .error e => .error e
    | .ok () => checkRules first out rules

def checkTokens (flags : Flags) (prevLen : ℕ) (out : List (DirectoryToken κ)) :
    Except ErrorText Unit :=
  if flags.noCheck then .ok ()
  else
    match firstNonannotationIndex flags prevLen out with
    | .error e => .error e
    | .ok first => checkRules first out table

/-! ## The loop -/

variable (buf : List Char)

lemma le_of_eatWhitespaceEos {s eos t : ℕ} (h : eatWhitespaceEos buf s eos = some t) : s ≤ t := by
  fun_induction eatWhitespaceEos buf s eos with
  | case1 => cases h
  | case2 s hlt c hc hspace ih => exact (Nat.le_succ s).trans (ih h)
  | case3 => cases h
  | case4 s hlt s' hscan hspace hc ih =>
    have hle := le_of_scanWhile buf hscan
    exact (Nat.le_succ s).trans (hle.trans (ih h))
  | case5 | case6 => exact (Option.some.inj h).le

variable {crypto table} in
lemma lt_of_getNextToken {s t : ℕ} {tok : DirectoryToken κ} (hs : s ≤ buf.length)
    (h : getNextToken crypto buf table s = some (.ok (tok, t))) : s < t ∧ t ≤ buf.length := by
  have hsuffix : buf.drop s <:+ buf := drop_suffix s buf
  have hptr : ptr buf (buf.drop s) = s := by
    rw [ptr, length_drop]
    omega
  rw [← hptr, getNextToken_eq crypto table hsuffix] at h
  cases hnext : nextToken crypto table (buf.drop s) with
  | error e =>
    rw [hnext] at h
    cases h
  | ok r =>
    rw [hnext] at h
    cases h
    obtain ⟨hrest, hlt⟩ := nextToken_suffix hnext
    rw [length_drop] at hlt
    rw [ptr]
    exact ⟨by omega, Nat.sub_le _ _⟩

/-- The loop of `tokenize_string`. -/
def tokenizeLoop (s : ℕ) (out : List (DirectoryToken κ)) :
    Option (Except ErrorText (List (DirectoryToken κ))) :=
  if _hs : s < buf.length then
    match _h : getNextToken crypto buf table s with
    | none => none
    | some (.error e) => some (.error ("parse error: ".toList ++ e))
    | some (.ok (tok, s')) =>
      match _h' : eatWhitespaceEos buf s' buf.length with
      | none => none
      | some s'' =>
        if tok.tp = .eof then some (.ok (out ++ [tok])) else tokenizeLoop s'' (out ++ [tok])
  else some (.ok out)
termination_by buf.length - s
decreasing_by
  have hlt := (lt_of_getNextToken buf _hs.le _h).1
  have hle := le_of_eatWhitespaceEos buf _h'
  omega

/-- `tokenize_string`: `out` with the new tokens. -/
def tokenizeString (flags : Flags) (out : List (DirectoryToken κ)) :
    Option (Except ErrorText (List (DirectoryToken κ))) :=
  if '\x00' ∈ buf then some (.error "parse error: internal NUL character.".toList)
  else
    match tokenizeLoop crypto table buf 0 out with
    | none => none
    | some (.error e) => some (.error e)
    | some (.ok out') => some ((checkTokens table flags out.length out').map fun () => out')

/-! ## The tokens of a text -/

/-- The loop, on the text that is left. -/
def nextTokens (str : List Char) (out : List (DirectoryToken κ)) :
    Except ErrorText (List (DirectoryToken κ)) :=
  if str = [] then .ok out
  else
    match _h : nextToken crypto table str with
    | .error e => .error ("parse error: ".toList ++ e)
    | .ok (tok, rest) =>
      if tok.tp = .eof then .ok (out ++ [tok]) else nextTokens (eatWhitespace rest) (out ++ [tok])
termination_by str.length
decreasing_by
  exact lt_of_le_of_lt (length_eatWhitespace_le rest) (nextToken_suffix _h).2

/-- `tokenizeString`, without pointers. -/
def tokensOf (flags : Flags) (out : List (DirectoryToken κ)) :
    Except ErrorText (List (DirectoryToken κ)) :=
  if '\x00' ∈ buf then .error "parse error: internal NUL character.".toList
  else
    match nextTokens crypto table buf out with
    | .error e => .error e
    | .ok out' => (checkTokens table flags out.length out').map fun () => out'

variable {crypto table buf} {str : List Char} {out out' : List (DirectoryToken κ)}
  {tok : DirectoryToken κ} {rest : List Char} {flags : Flags}

lemma nextTokens_error {e : ErrorText} (hne : str ≠ [])
    (h : nextToken crypto table str = .error e) :
    nextTokens crypto table str out = .error ("parse error: ".toList ++ e) := by
  rw [nextTokens, if_neg hne]
  split
  · rename_i e' he
    rw [h] at he
    cases he
    rfl
  · rename_i tok' rest' hok
    rw [h] at hok
    cases hok

lemma nextTokens_ok (hne : str ≠ []) (h : nextToken crypto table str = .ok (tok, rest)) :
    nextTokens crypto table str out = if tok.tp = .eof then .ok (out ++ [tok])
        else nextTokens crypto table (eatWhitespace rest) (out ++ [tok]) := by
  rw [nextTokens, if_neg hne]
  split
  · rename_i e he
    rw [h] at he
    cases he
  · rename_i tok' rest' hok
    rw [h] at hok
    cases hok
    rfl

lemma ptr_lt_length (h : str <:+ buf) (hne : str ≠ []) : ptr buf str < buf.length := by
  have := h.length_le
  have := length_pos_iff.mpr hne
  rw [ptr]
  omega

lemma tokenizeLoop_next (h : str <:+ buf) (hne : str ≠ [])
    (hnext : nextToken crypto table str = .ok (tok, rest)) :
    tokenizeLoop crypto table buf (ptr buf str) out
      = if tok.tp = .eof then some (.ok (out ++ [tok]))
        else tokenizeLoop crypto table buf (ptr buf (eatWhitespace rest)) (out ++ [tok]) := by
  have hget := getNextToken_eq crypto table h
  have heat := eatWhitespaceEos_ptr ((nextToken_suffix hnext).1.trans h)
  rw [hnext] at hget
  rw [tokenizeLoop, dif_pos (ptr_lt_length h hne)]
  split
  · rename_i hnone
    rw [hnone] at hget
    cases hget
  · rename_i e herror
    rw [herror] at hget
    cases hget
  · rename_i tok' s' hok
    rw [hok] at hget
    cases hget
    split
    · rename_i hnone
      rw [hnone] at heat
      cases heat
    · rename_i s'' hs''
      rw [hs''] at heat
      cases heat
      rfl

lemma tokenizeLoop_eq (h : str <:+ buf) (out : List (DirectoryToken κ)) :
    tokenizeLoop crypto table buf (ptr buf str) out = some (nextTokens crypto table str out) := by
  fun_induction nextTokens crypto table str out with
  | case1 out => rw [ptr_nil, tokenizeLoop, dif_neg (lt_irrefl _)]
  | case2 str out hne e hnext =>
    have hget := getNextToken_eq crypto table h
    rw [hnext] at hget
    rw [tokenizeLoop, dif_pos (ptr_lt_length h hne)]
    split
    · rename_i hnone
      rw [hnone] at hget
      cases hget
    · rename_i e' herror
      rw [herror] at hget
      cases hget
      rfl
    · rename_i tok s' hok
      rw [hok] at hget
      cases hget
  | case3 str out hne tok rest hnext heof =>
    rw [tokenizeLoop_next h hne hnext, if_pos heof]
  | case4 str out hne tok rest hnext heof ih =>
    have hrest : rest <:+ buf := (nextToken_suffix hnext).1.trans h
    rw [tokenizeLoop_next h hne hnext, if_neg heof, ih ((eatWhitespace_suffix rest).trans hrest)]

/-- **`tokenize_string` reads nothing outside the range**, and gives the tokens of its text. -/
theorem tokenizeString_eq (flags : Flags) (out : List (DirectoryToken κ)) :
    tokenizeString crypto table buf flags out = some (tokensOf crypto table buf flags out) := by
  have hloop : tokenizeLoop crypto table buf (ptr buf buf) out
      = some (nextTokens crypto table buf out) := tokenizeLoop_eq (suffix_refl buf) out
  rw [ptr, Nat.sub_self] at hloop
  rw [tokenizeString, tokensOf, hloop]
  split_ifs
  · rfl
  · cases nextTokens crypto table buf out <;> rfl

/-! ## The bounds of one token -/

variable (crypto) in
/-- The arguments and the object are as the rule says. -/
structure Obeys (rule : TokenRule) (tok : DirectoryToken κ) : Prop where
  tp : tok.tp = rule.v
  minArgs : rule.minArgs ≤ tok.args.length
  maxArgs : tok.args.length ≤ rule.maxArgs
  object : tokenCheckObject crypto rule.t tok rule.os = .ok tok

/-- A token without a rule. -/
structure IsUnrecognized (tok : DirectoryToken κ) : Prop where
  tp : tok.tp = .opt ∨ tok.tp = .annotationUnknown
  args : tok.args.length = 1

variable (crypto table) in
/-- What a token may be: one that obeys the first rule of its keyword, or one without a rule. -/
def Bounded (tok : DirectoryToken κ) : Prop :=
  (∃ rule, table.find? (·.t = rule.t) = some rule ∧ Obeys crypto rule tok) ∨ IsUnrecognized tok

lemma exists_of_map_eq_ok {ε α β : Type} {f : α → β} {x : Except ε α} {b : β}
    (h : x.map f = .ok b) : ∃ a, x = .ok a ∧ f a = b := by
  cases x with
  | error e => cases h
  | ok a => exact ⟨a, rfl, ok.inj h⟩

variable {tok' : DirectoryToken κ}

lemma checkKey_eq {kwd : List Char} {bits : Option ℤ}
    (h : checkKey crypto kwd tok bits = .ok tok') : tok' = tok := by
  rw [checkKey] at h
  split at h
  · cases h
  · split_ifs at h
    exact (ok.inj h).symm

lemma tokenCheckObject_eq {kwd : List Char} {oSyn : ObjSyntax}
    (h : tokenCheckObject crypto kwd tok oSyn = .ok tok') : tok' = tok := by
  cases oSyn with
  | noObj | needObj =>
    simp only [tokenCheckObject] at h
    split_ifs at h
    exact (ok.inj h).symm
  | optKey1024 =>
    simp only [tokenCheckObject] at h
    split_ifs at h
    · exact (ok.inj h).symm
    · exact checkKey_eq h
  | needKey1024 => exact checkKey_eq h
  | needKey => exact checkKey_eq h
  | objOk => exact (ok.inj h).symm

/-- What the object leaves as it was. -/
structure FromKeyword (crypto : Crypto κ) (k : Keyword κ) (tok : DirectoryToken κ) : Prop where
  tp : tok.tp = k.tok.tp
  args : tok.args = k.tok.args
  object : tokenCheckObject crypto k.kwd tok k.oSyn = .ok tok

variable {k : Keyword κ}

lemma FromKeyword.of_check (htp : tok'.tp = k.tok.tp)
    (hargs : tok'.args = k.tok.args) (h : tokenCheckObject crypto k.kwd tok' k.oSyn = .ok tok) :
    FromKeyword crypto k tok := by
  obtain rfl := tokenCheckObject_eq h
  exact ⟨htp, hargs, h⟩

lemma fromKeyword_of_decodeObject {name body : List Char}
    (h : decodeObject crypto k name body = .ok tok) : FromKeyword crypto k tok := by
  simp only [decodeObject] at h
  split at h
  · cases h
  · split_ifs at h
    · split at h
      · cases h
      · refine FromKeyword.of_check ?_ ?_ h <;> rfl
    · refine FromKeyword.of_check ?_ ?_ h <;> rfl

lemma fromKeyword_of_nextRest {after : List Char}
    (h : nextRest crypto k after = .ok (tok, rest)) : FromKeyword crypto k tok := by
  simp only [nextRest] at h
  split_ifs at h
  · simp only [nextObject] at h
    split_ifs at h
    split at h
    · cases h
    · split_ifs at h
      obtain ⟨tok', hdecode, heq⟩ := exists_of_map_eq_ok h
      cases heq
      exact fromKeyword_of_decodeObject hdecode
  · obtain ⟨tok', hcheck, heq⟩ := exists_of_map_eq_ok h
    cases heq
    exact FromKeyword.of_check rfl rfl hcheck

lemma isUnrecognized_unrecognized (text : List Char) :
    IsUnrecognized (unrecognized text : DirectoryToken κ) := by
  refine ⟨?_, rfl⟩
  simp only [unrecognized, DirectoryToken.ofLine]
  split_ifs
  · exact .inr rfl
  · exact .inl rfl

lemma bounded_of_keywordToken {line : Line} (h : keywordToken table line = .ok k)
    (htok : FromKeyword crypto k tok) : Bounded crypto table tok := by
  have hunrecognized : IsUnrecognized k.tok → IsUnrecognized tok := fun hk =>
    ⟨htok.tp ▸ hk.tp, htok.args ▸ hk.args⟩
  simp only [keywordToken] at h
  split at h
  · rename_i rule hfind
    split at h
    · cases h
    · rename_i args hargs
      split_ifs at h with hmin hmax herr hconcat
      · cases h
        exact .inr (hunrecognized (isUnrecognized_unrecognized _))
      · cases h
        exact .inr (hunrecognized (isUnrecognized_unrecognized _))
      · cases h
        have ht : rule.t = line.word := by
          simpa using find?_some hfind
        refine .inl ⟨rule, by rwa [ht], htok.tp, ?_, ?_, htok.object⟩
        · rw [htok.args]
          exact not_lt.mp hmin
        · rw [htok.args]
          exact not_lt.mp hmax
  · cases h
    exact .inr (hunrecognized (isUnrecognized_unrecognized _))

/-- Every token is as the table says. -/
theorem bounded_of_nextToken (h : nextToken crypto table str = .ok (tok, rest)) :
    Bounded crypto table tok := by
  simp only [nextToken] at h
  split at h
  · cases h
  · split at h
    · cases h
    · rename_i k hk
      exact bounded_of_keywordToken hk (fromKeyword_of_nextRest h)

/-- The loop adds tokens that are as the table says. -/
theorem bounded_of_nextTokens (h : nextTokens crypto table str out = .ok out') :
    ∃ new, out' = out ++ new ∧ ∀ tok ∈ new, Bounded crypto table tok := by
  fun_induction nextTokens crypto table str out with
  | case1 out =>
    cases h
    exact ⟨[], (append_nil _).symm, by simp⟩
  | case2 => cases h
  | case3 str out hne tok rest hnext heof =>
    cases h
    exact ⟨[tok], rfl, by simpa using bounded_of_nextToken hnext⟩
  | case4 str out hne tok rest hnext heof ih =>
    obtain ⟨new, rfl, hnew⟩ := ih h
    refine ⟨tok :: new, by simp, ?_⟩
    rintro tok' (_ | ⟨_, htok'⟩)
    · exact bounded_of_nextToken hnext
    · exact hnew tok' htok'

/-! ## The bounds of all tokens -/

variable (table) in
/-- The counts and the positions are as the rules say; the annotations are the first `first`
tokens. -/
structure Satisfies (flags : Flags) (prevLen first : ℕ) (out : List (DirectoryToken κ)) : Prop where
  annotations : ∀ tok ∈ out.take first, isAnnotationToken tok = true
  keywords : ∀ tok ∈ out.drop first, isAnnotationToken tok = false
  notAllowed : flags.annotationsOk = false → first = 0
  notNew : flags.annotationsOk = true → flags.noNewAnnotations = true → first = prevLen
  minCnt : ∀ rule ∈ table, rule.minCnt ≤ count out rule.v
  maxCnt : ∀ rule ∈ table, count out rule.v ≤ rule.maxCnt
  atStart : ∀ rule ∈ table, rule.atStart = true → out[first]?.map DirectoryToken.tp = some rule.v
  atEnd : ∀ rule ∈ table, rule.atEnd = true → out.getLast?.map DirectoryToken.tp = some rule.v

lemma exists_of_firstNonannotationIndex {prevLen first : ℕ}
    (h : firstNonannotationIndex flags prevLen out = .ok first) :
    (∀ tok ∈ out.take first, isAnnotationToken tok = true) ∧
      (∀ tok ∈ out.drop first, isAnnotationToken tok = false) ∧
      (flags.annotationsOk = false → first = 0) ∧
      (flags.annotationsOk = true → flags.noNewAnnotations = true → first = prevLen) := by
  rw [firstNonannotationIndex] at h
  split_ifs at h with hallowed hany
  · split at h
    · cases h
    · rename_i i hfind
      split_ifs at h with hmixed hnew
      cases h
      obtain ⟨hlt, -, hbefore⟩ := findIdx?_eq_some_iff_getElem.mp hfind
      refine ⟨?_, ?_, ?_, ?_⟩
      · intro tok htok
        obtain ⟨j, hj, rfl⟩ := mem_iff_getElem.mp htok
        rw [List.length_take] at hj
        have := hbefore j (by omega)
        simpa using this
      · simpa using hmixed
      · intro hnot
        exact absurd hallowed (by simp [hnot])
      · intro _ hno
        by_contra hne
        exact hnew ⟨hno, hne⟩
  · cases h
    refine ⟨by simp, ?_, fun _ => rfl, fun hok => absurd hok hallowed⟩
    intro tok htok
    simp only [List.any_eq_true, not_exists, not_and, Bool.not_eq_true] at hany
    exact hany tok htok

lemma checkRule_eq_ok {first : ℕ} {rule : TokenRule} (h : checkRule first out rule = .ok ()) :
    (rule.minCnt ≤ count out rule.v ∧ count out rule.v ≤ rule.maxCnt) ∧
      (rule.atStart = true → out[first]?.map DirectoryToken.tp = some rule.v) ∧
      (rule.atEnd = true → out.getLast?.map DirectoryToken.tp = some rule.v) := by
  rw [checkRule] at h
  split_ifs at h with hmin hmax hstart hend
  refine ⟨⟨not_lt.mp hmin, not_lt.mp hmax⟩, ?_, ?_⟩
  · intro hat
    by_contra hne
    exact hstart ⟨hat, hne⟩
  · intro hat
    by_contra hne
    exact hend ⟨hat, hne⟩

lemma checkRules_eq_ok {first : ℕ} {rules : List TokenRule}
    (h : checkRules first out rules = .ok ()) : ∀ rule ∈ rules, checkRule first out rule = .ok () := by
  induction rules with
  | nil => simp
  | cons rule rules ih =>
    rw [checkRules] at h
    split at h
    · cases h
    · rename_i hrule
      rintro rule' (_ | ⟨_, hmem⟩)
      · exact hrule
      · exact ih h rule' hmem

/-- **What is checked at the end**, unless `TS_NOCHECK` is given. -/
theorem satisfies_of_checkTokens {prevLen : ℕ} (hcheck : flags.noCheck = false)
    (h : checkTokens table flags prevLen out = .ok ()) :
    ∃ first, Satisfies table flags prevLen first out := by
  rw [checkTokens, if_neg (by simp [hcheck])] at h
  split at h
  · cases h
  · rename_i first hfirst
    obtain ⟨hannotations, hkeywords, hnot, hnew⟩ := exists_of_firstNonannotationIndex hfirst
    have hrules := fun rule hmem => checkRule_eq_ok (checkRules_eq_ok h rule hmem)
    exact ⟨first, hannotations, hkeywords, hnot, hnew, fun rule hmem => (hrules rule hmem).1.1,
      fun rule hmem => (hrules rule hmem).1.2, fun rule hmem => (hrules rule hmem).2.1,
      fun rule hmem => (hrules rule hmem).2.2⟩

end Ator.Dirparse
