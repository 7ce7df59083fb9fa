import AtorProtocol.Encoding.Escape
import AtorProtocol.Encoding.ParseInt

/-!
# Lines of keys and values

`kvline_encode` and `kvline_parse` of `src/lib/encoding/kvline.c`, and the quoted strings of
`src/lib/encoding/qstring.c`.  A pointer into the line is the suffix it points at.

* `kvlineEncode` — the line for a list of pairs.
* `kvlineParse` — the pairs of a line.
* `kvlineParse_of_kvlineEncode` — the pairs of the line for a list of pairs.
* `canEncode_of_parse` — pairs that are read can be written.
-/

namespace Ator.Text

open List Option

/-- `KV_QUOTED`, `KV_OMIT_KEYS`, `KV_OMIT_VALS`, `KV_QUOTED_QSTRING` and `KV_RAW` -/
structure KvFlags where
  quoted : Bool
  omitKeys : Bool
  omitVals : Bool
  quotedQstring : Bool
  raw : Bool
deriving DecidableEq

/-- A `config_line_t`; `none` is NULL. -/
structure KvLine where
  key : Option (List Char)
  value : Option (List Char)
deriving DecidableEq

/-- The characters that a value has to be quoted for. -/
def isUnusual (c : Char) : Bool := 127 ≤ c.toNat ∨ isCSpace c ∨ ¬ torIsprint c ∨ c = '\'' ∨ c = '"'

def needsEscape (s : List Char) (asKeylessVal : Bool) : Bool :=
  (asKeylessVal && s.isEmpty) || (asKeylessVal && s.contains '=') || s.any isUnusual

def lineHasNoKey (line : KvLine) : Bool := (line.key.getD []).isEmpty

def lineHasNoVal (line : KvLine) : Bool := (line.value.getD []).isEmpty

/-- The loop body of `kvline_can_encode_lines`. -/
def kvlineCanEncodeLine (flags : KvFlags) (line : KvLine) : Bool :=
  let keyless := lineHasNoKey line
  if keyless ∧ ¬ flags.omitKeys then false
  else
    match line.value with
    -- a NULL value is dereferenced: the line is not encoded
    | none => false
    | some value =>
      if needsEscape value keyless ∧ ¬ (flags.quoted ∨ flags.raw) then false
      else if ¬ keyless ∧ needsEscape (line.key.getD []) true then false
      else true

def kvlineCanEncodeLines (lines : List KvLine) (flags : KvFlags) : Bool :=
  lines.all (kvlineCanEncodeLine flags)

/-- The loop body of `kvline_encode`. -/
def kvlineEncodeLine (flags : KvFlags) (line : KvLine) : List Char :=
  let keyless := lineHasNoKey line
  let value := line.value.getD []
  let esc := needsEscape value keyless
  let k := if keyless then [] else line.key.getD []
  let eq := if keyless then [] else ['=']
  if flags.omitVals ∧ lineHasNoVal line then k
  else if ¬ flags.raw ∧ esc then k ++ eq ++ escForLog value
  else k ++ eq ++ value

/-- `kvline_encode`; `none` for NULL, and where an assertion fails. -/
def kvlineEncode (lines : List KvLine) (flags : KvFlags) : Option (List Char) :=
  if flags.quotedQstring ∨ (flags.omitKeys ∧ flags.omitVals) ∨ (flags.quoted ∧ flags.raw) then none
  else if ¬ kvlineCanEncodeLines lines flags then none
  else some ([' '].intercalate (lines.map (kvlineEncodeLine flags)))

/-- `decode_qstring` behind the opening quote. -/
def decodeQstringLoop : List Char → Option (List Char × List Char)
  | [] => none
  | ['\\'] => none
  | '\\' :: c :: cp => (decodeQstringLoop cp).map fun out => (c :: out.1, out.2)
  | '"' :: cp => some ([], cp)
  | c :: cp => (decodeQstringLoop cp).map fun out => (c :: out.1, out.2)

/-- `decode_qstring` of all that is left of the line. -/
def decodeQstring : List Char → Option (List Char × List Char)
  | '"' :: cp => decodeQstringLoop cp
  | _ => none

/-- The characters that `strspn` skips. -/
def isKvSpace (c : Char) : Bool := c = ' ' ∨ c = '\t' ∨ c = '\r' ∨ c = '\x0b' ∨ c = '\n'

/-- The characters before the end of a key. -/
def isKvKey (c : Char) : Bool := ¬ isKvSpace c ∧ c ≠ '='

/-- What `kvline_parse` does at `commit`: a pair, and where the next one starts. -/
def kvlineCommit (key : Option (List Char)) (val cp : List Char) : Option (KvLine × List Char) :=
  if key = some [] then none else some (⟨some (key.getD []), some val⟩, cp)

/-- The quoted string of either kind. -/
def kvlineUnquote (flags : KvFlags) (cp : List Char) : Option (List Char × List Char) :=
  if flags.quoted then unescapeString cp else decodeQstring cp

/-- The value behind a key, or without one. -/
def kvlineParseValue (flags : KvFlags) (key : Option (List Char)) (cp : List Char) :
    Option (KvLine × List Char) :=
  if cp.head? = some '"' then
    if ¬ (flags.quoted ∨ flags.quotedQstring) then none
    else
      match kvlineUnquote flags cp with
      | none => none
      | some (val, cp) => if '\x00' ∈ val then none else kvlineCommit key val cp
  else kvlineCommit key (cp.takeWhile (¬ isKvSpace ·)) (cp.dropWhile (¬ isKvSpace ·))

/-- The loop body of `kvline_parse` behind the spaces. -/
def kvlineParseLine (flags : KvFlags) (cp : List Char) : Option (KvLine × List Char) :=
  if cp.head? = some '"' then kvlineParseValue flags none cp
  else
    match cp.dropWhile isKvKey with
    | '=' :: rest => kvlineParseValue flags (some (cp.takeWhile isKvKey)) rest
    | rest =>
      if flags.omitVals then kvlineCommit (some (cp.takeWhile isKvKey)) [] rest
      else if ¬ flags.omitKeys then none
      else kvlineParseValue flags none cp

variable {flags : KvFlags} {line : KvLine} {lines : List KvLine} {s cp rest val value : List Char}
  {key : Option (List Char)} {c : Char}

/-- The characters of a C string are the bytes but NUL. -/
def IsCString (s : List Char) : Prop := ∀ c ∈ s, 0 < c.toNat ∧ c.toNat < 256

/-! ## Progress -/

lemma kvlineCommit_eq_some (h : kvlineCommit key val cp = some (line, rest)) :
    key ≠ some [] ∧ line = ⟨some (key.getD []), some val⟩ ∧ rest = cp := by
  rw [kvlineCommit] at h
  split_ifs at h with hkey
  cases h
  exact ⟨hkey, rfl, rfl⟩

lemma decodeQstringLoop_eq_some (h : decodeQstringLoop cp = some (val, rest)) :
    (∃ p, p ≠ [] ∧ cp = p ++ rest) ∧ val ⊆ cp := by
  fun_induction decodeQstringLoop cp generalizing val with
  | case1 => cases h
  | case2 => cases h
  | case3 c cp ih =>
    obtain ⟨⟨val', rest'⟩, hloop, heq⟩ := map_eq_some_iff.mp h
    cases heq
    obtain ⟨⟨p, -, rfl⟩, hsub⟩ := ih hloop
    refine ⟨⟨'\\' :: c :: p, by simp, rfl⟩, ?_⟩
    rw [cons_subset]
    exact ⟨by simp, fun d hd => by simp [hsub hd]⟩
  | case4 cp =>
    cases h
    exact ⟨⟨['"'], by simp, rfl⟩, nil_subset _⟩
  | case5 c cp _ _ _ ih =>
    obtain ⟨⟨val', rest'⟩, hloop, heq⟩ := map_eq_some_iff.mp h
    cases heq
    obtain ⟨⟨p, -, rfl⟩, hsub⟩ := ih hloop
    exact ⟨⟨c :: p, by simp, rfl⟩, cons_subset_cons _ hsub⟩

lemma kvlineUnquote_eq_some (h : kvlineUnquote flags cp = some (val, rest)) :
    (∃ p, p ≠ [] ∧ cp = p ++ rest) ∧ ((∀ c ∈ cp, c.toNat < 256) → ∀ c ∈ val, c.toNat < 256) := by
  rw [kvlineUnquote] at h
  split_ifs at h
  · obtain ⟨p, rfl, -, hlen⟩ := unescapeString_eq_some h
    refine ⟨⟨p, ?_, rfl⟩, unescapeString_lt h⟩
    rintro rfl
    simp at hlen
  · unfold decodeQstring at h
    split at h
    · obtain ⟨⟨p, -, rfl⟩, hsub⟩ := decodeQstringLoop_eq_some h
      exact ⟨⟨'"' :: p, by simp, rfl⟩, fun hcp c hc => hcp c (mem_cons_of_mem _ (hsub hc))⟩
    · cases h

lemma kvlineParseValue_eq_some (h : kvlineParseValue flags key cp = some (line, rest)) :
    key ≠ some [] ∧ ∃ val p, line = ⟨some (key.getD []), some val⟩ ∧ cp = p ++ rest
      ∧ (p = [] → cp = [] ∨ ∃ c t, cp = c :: t ∧ isKvSpace c) ∧ (IsCString cp → IsCString val) := by
  rw [kvlineParseValue] at h
  split_ifs at h with hquote hquoted
  · split at h
    · cases h
    · rename_i val cp' hval
      split_ifs at h with hnul
      obtain ⟨hkey, rfl, rfl⟩ := kvlineCommit_eq_some h
      obtain ⟨⟨p, hp, rfl⟩, hlt⟩ := kvlineUnquote_eq_some hval
      refine ⟨hkey, val, p, rfl, rfl, fun hnil => absurd hnil hp, fun hcp c hc => ⟨?_, ?_⟩⟩
      · rw [Nat.pos_iff_ne_zero]
        intro hzero
        rw [← Char.ofNat_toNat c, hzero] at hc
        exact hnul hc
      · exact hlt (fun d hd => (hcp d hd).2) c hc
  · obtain ⟨hkey, rfl, rfl⟩ := kvlineCommit_eq_some h
    refine ⟨hkey, _, _, rfl, (takeWhile_append_dropWhile).symm, fun hnil => ?_,
      fun hcp c hc => hcp c (takeWhile_subset _ hc)⟩
    cases cp with
    | nil => exact .inl rfl
    | cons c t =>
      refine .inr ⟨c, t, rfl, ?_⟩
      rw [takeWhile_cons] at hnil
      split_ifs at hnil with hc
      simpa using hc

lemma kvlineParseLine_eq_some (h : kvlineParseLine flags (c :: cp) = some (line, rest))
    (hc : isKvSpace c = false) :
    (∃ key val, line = ⟨some key, some val⟩ ∧ (IsCString (c :: cp) → IsCString key ∧ IsCString val))
    ∧ ∃ p, p ≠ [] ∧ c :: cp = p ++ rest := by
  have hcut := takeWhile_append_dropWhile (p := isKvKey) (l := c :: cp)
  have hvalue : kvlineParseValue flags none (c :: cp) = some (line, rest) →
      (∃ key val, line = ⟨some key, some val⟩
        ∧ (IsCString (c :: cp) → IsCString key ∧ IsCString val))
      ∧ ∃ p, p ≠ [] ∧ c :: cp = p ++ rest := by
    intro h
    obtain ⟨-, val, p, rfl, hp, hne, hval⟩ := kvlineParseValue_eq_some h
    refine ⟨⟨[], val, rfl, fun hs => ⟨by simp [IsCString], hval hs⟩⟩, p, fun hnil => ?_, hp⟩
    obtain hnil' | ⟨d, t, hd, hspace⟩ := hne hnil
    · cases hnil'
    · cases hd
      rw [hc] at hspace
      cases hspace
  rw [kvlineParseLine] at h
  split at h
  · exact hvalue h
  · split at h
    · rename_i rest' hdrop
      rw [hdrop] at hcut
      obtain ⟨-, val, p, rfl, rfl, -, hval⟩ := kvlineParseValue_eq_some h
      refine ⟨⟨_, val, rfl, fun hs => ⟨fun d hd => ?_, hval fun d hd => ?_⟩⟩, ?_⟩
      · exact hs d (takeWhile_subset _ hd)
      · exact hs d (by rw [← hcut]; simp [hd])
      · exact ⟨(c :: cp).takeWhile isKvKey ++ '=' :: p, by simp, by simpa using hcut.symm⟩
    · split at h
      · obtain ⟨hkey, rfl, rfl⟩ := kvlineCommit_eq_some h
        refine ⟨⟨_, [], rfl, fun hs => ⟨fun d hd => ?_, by simp [IsCString]⟩⟩, _, ?_, hcut.symm⟩
        · exact hs d (takeWhile_subset _ hd)
        · exact fun hnil => hkey (congrArg some hnil)
      · split at h
        · cases h
        · exact hvalue h

lemma kvlineParseLine_length (h : kvlineParseLine flags (cp.dropWhile isKvSpace) = some (line, rest))
    (hne : cp.dropWhile isKvSpace ≠ []) : rest.length < cp.length := by
  have hhead := head?_dropWhile_not isKvSpace cp
  have hlen := (dropWhile_sublist isKvSpace (l := cp)).length_le
  cases hcp : cp.dropWhile isKvSpace with
  | nil => exact absurd hcp hne
  | cons c t =>
    rw [hcp] at h hhead hlen
    obtain ⟨-, p, hp, heq⟩ := kvlineParseLine_eq_some h (by simpa using hhead)
    have hplen := length_pos_iff.mpr hp
    rw [heq, length_append] at hlen
    omega

/-- The loop of `kvline_parse`; `cplast` is where the last turn began. -/
def kvlineParseLoop (flags : KvFlags) (cp : List Char) (cplast : Option (List Char)) :
    Option (List KvLine) :=
  if cp = [] then some []
  else if cplast = some (cp.dropWhile isKvSpace) then none
  else if _hend : cp.dropWhile isKvSpace = [] then some []
  else
    match _h : kvlineParseLine flags (cp.dropWhile isKvSpace) with
    | none => none
    | some (line, rest) =>
      (kvlineParseLoop flags rest (some (cp.dropWhile isKvSpace))).map (line :: ·)
termination_by cp.length
decreasing_by exact kvlineParseLine_length _h _hend

/-- `kvline_parse`; `none` for an error, and where an assertion fails. -/
def kvlineParse (line : List Char) (flags : KvFlags) : Option (List KvLine) :=
  if (flags.omitKeys ∧ flags.omitVals) ∨ flags.raw then none
  else
    match kvlineParseLoop flags line none with
    | none => none
    | some result =>
      if ¬ flags.quotedQstring ∧ ¬ kvlineCanEncodeLines result flags then none else some result

/-! ## What is written is read back -/

/-- A line whose key and value are strings. -/
def KvLine.IsCString (line : KvLine) : Prop :=
  (∀ key ∈ line.key, Text.IsCString key) ∧ ∀ value ∈ line.value, Text.IsCString value

/-- The line that comes back: a key that is not set is empty. -/
def KvLine.reread (line : KvLine) : KvLine := ⟨some (line.key.getD []), line.value⟩

lemma takeWhile_append_of_stop {p : Char → Bool} (rest : List Char) (hs : ∀ c ∈ s, p c)
    (hrest : ∀ c ∈ rest.head?, p c = false) :
    (s ++ rest).takeWhile p = s ∧ (s ++ rest).dropWhile p = rest := by
  rw [takeWhile_append_of_pos hs, dropWhile_append_of_pos hs]
  cases rest with
  | nil => simp
  | cons c t => simp [hrest c rfl]

lemma needsEscape_eq_false {keyless : Bool} (h : needsEscape s keyless = false) :
    (∀ c ∈ s, isUnusual c = false) ∧ (keyless = true → s ≠ [] ∧ '=' ∉ s) := by
  rw [needsEscape, Bool.or_eq_false_iff, Bool.or_eq_false_iff, List.any_eq_false] at h
  refine ⟨fun c hc => by simpa using h.2 c hc, ?_⟩
  rintro rfl
  simpa using h.1

lemma isUnusual_eq_false (h : isUnusual c = false) : isKvSpace c = false ∧ c ≠ '"' := by
  have hspace : isKvSpace c = true → isCSpace c = true := by
    rw [isKvSpace, decide_eq_true_eq]
    rintro (rfl | rfl | rfl | rfl | rfl) <;> decide
  rw [isUnusual, decide_eq_false_iff_not, not_or, not_or, not_or, not_or] at h
  exact ⟨by simpa using mt hspace h.2.1, h.2.2.2.2⟩

lemma head_escForLog (s rest : List Char) : (escForLog s ++ rest).head? = some '"' := by
  simp [escForLog]

lemma kvlineParseValue_append {v : List Char} (hvalue : IsCString value) (hkey : key ≠ some [])
    (hrest : ∀ c ∈ rest.head?, isKvSpace c)
    (hv : (v = escForLog value ∧ flags.quoted) ∨ (v = value ∧ ∀ c ∈ value, isUnusual c = false)) :
    kvlineParseValue flags key (v ++ rest) = some (⟨some (key.getD []), some value⟩, rest) := by
  rcases hv with ⟨rfl, hquoted⟩ | ⟨rfl, hplain⟩
  · have hnul : '\x00' ∉ value := fun h => absurd (hvalue _ h).1 (by decide)
    rw [kvlineParseValue, if_pos (head_escForLog value rest), if_neg (by simp [hquoted]),
      kvlineUnquote, if_pos hquoted, unescapeString_escForLog hvalue]
    dsimp only
    rw [if_neg hnul, kvlineCommit, if_neg hkey]
  · have hhead : (v ++ rest).head? ≠ some '"' := by
      cases v with
      | nil =>
        intro h
        exact absurd (hrest '"' h) (by decide)
      | cons c t =>
        intro h
        exact (isUnusual_eq_false (hplain c mem_cons_self)).2 (some.inj h)
    obtain ⟨htake, hdrop⟩ := takeWhile_append_of_stop (p := fun c => ¬ isKvSpace c) (s := v)
      rest (fun c hc => by simpa using (isUnusual_eq_false (hplain c hc)).1)
      (fun c hc => by simpa using hrest c hc)
    rw [kvlineParseValue, if_neg hhead, htake, hdrop, kvlineCommit, if_neg hkey]

lemma kvlineCanEncodeLine_eq_true (h : kvlineCanEncodeLine flags line) (hraw : flags.raw = false) :
    ∃ value, line.value = some value ∧ (needsEscape value (lineHasNoKey line) → flags.quoted)
      ∧ if lineHasNoKey line then flags.omitKeys = true
        else needsEscape (line.key.getD []) true = false := by
  rw [kvlineCanEncodeLine] at h
  split at h
  · cases h
  · rename_i hkeyless
    split at h
    · cases h
    · rename_i value hvalue
      split_ifs at h with hesc hkey
      refine ⟨value, hvalue, fun hneeds => ?_, ?_⟩
      · simpa [hneeds, hraw] using hesc
      · split_ifs with hno
        · simpa [hno] using hkeyless
        · simpa [hno] using hkey

lemma isKvKey_of_needsEscape (h : needsEscape s true = false) :
    s ≠ [] ∧ (∀ c ∈ s, isKvKey c) ∧ (∀ c ∈ s, isUnusual c = false) ∧ ∀ t, (s ++ t).head? ≠ some '"' := by
  obtain ⟨husual, hkeyless⟩ := needsEscape_eq_false h
  obtain ⟨hne, heq⟩ := hkeyless rfl
  refine ⟨hne, fun c hc => ?_, husual, fun t => ?_⟩
  · have : c ≠ '=' := fun h => heq (h ▸ hc)
    simp [isKvKey, (isUnusual_eq_false (husual c hc)).1, this]
  · obtain ⟨c, s, rfl⟩ := exists_cons_of_ne_nil hne
    intro h
    exact (isUnusual_eq_false (husual c mem_cons_self)).2 (some.inj h)

lemma kvlineParseLine_word (h : needsEscape s true = false) (hrest : ∀ c ∈ rest.head?, isKvSpace c) :
    kvlineParseLine flags (s ++ rest) =
      if flags.omitVals then kvlineCommit (some s) [] rest
      else if ¬ flags.omitKeys then none
      else kvlineParseValue flags none (s ++ rest) := by
  obtain ⟨-, hkey, -, hquote⟩ := isKvKey_of_needsEscape h
  obtain ⟨htake, hdrop⟩ := takeWhile_append_of_stop rest hkey
    fun c hc => by simp [isKvKey, hrest c hc]
  rw [kvlineParseLine, if_neg (hquote rest), hdrop, htake]
  split
  · exact absurd (hrest '=' rfl) (by decide)
  · rfl

lemma kvlineParseLine_pair (h : needsEscape s true = false) (t : List Char) :
    kvlineParseLine flags (s ++ '=' :: t) = kvlineParseValue flags (some s) t := by
  obtain ⟨-, hkey, -, hquote⟩ := isKvKey_of_needsEscape h
  obtain ⟨htake, hdrop⟩ := takeWhile_append_of_stop ('=' :: t) hkey
    fun c hc => by simp [isKvKey, ← some.inj hc]
  rw [kvlineParseLine, if_neg (hquote _), hdrop, htake]
  rfl

/-- **A line is read back as it was written.** -/
lemma kvlineParseLine_kvlineEncodeLine (h : kvlineCanEncodeLine flags line)
    (hraw : flags.raw = false) (homit : ¬ (flags.omitKeys ∧ flags.omitVals))
    (hline : line.IsCString) (hrest : ∀ c ∈ rest.head?, isKvSpace c) :
    kvlineParseLine flags (kvlineEncodeLine flags line ++ rest) = some (line.reread, rest) := by
  obtain ⟨value, hvalue, hquoted, hkey⟩ := kvlineCanEncodeLine_eq_true h hraw
  have hbytes := hline.2 value hvalue
  set v := if needsEscape value (lineHasNoKey line) then escForLog value else value with hv
  have hcases : (v = escForLog value ∧ flags.quoted)
      ∨ (v = value ∧ ∀ c ∈ value, isUnusual c = false) := by
    rw [hv]
    split_ifs with hesc
    · exact .inl ⟨rfl, hquoted hesc⟩
    · exact .inr ⟨rfl, (needsEscape_eq_false (by simpa using hesc)).1⟩
  rw [KvLine.reread, hvalue]
  split_ifs at hkey with hno
  · -- without a key, the line is the value
    have hempty : line.key.getD [] = [] := by simpa [lineHasNoKey] using hno
    have hvals : flags.omitVals = false := by simpa [hkey] using homit
    have henc : kvlineEncodeLine flags line = v := by
      simp [kvlineEncodeLine, hv, hno, hvals, hraw, hvalue]
    have hread : kvlineParseValue flags none (v ++ rest) = some (⟨some [], some value⟩, rest) :=
      kvlineParseValue_append hbytes (by simp) hrest hcases
    rw [henc, hempty]
    cases hesc : needsEscape value true with
    | true =>
      have : v = escForLog value := by simp [hv, hno, hesc]
      rw [kvlineParseLine, if_pos (by rw [this]; exact head_escForLog value rest), hread]
    | false =>
      have : v = value := by simp [hv, hno, hesc]
      rw [this] at hread ⊢
      simp only [kvlineParseLine_word hesc hrest, hvals, hkey, hread]
      rfl
  · have hne := (isKvKey_of_needsEscape hkey).1
    by_cases hval : flags.omitVals ∧ lineHasNoVal line
    · have henc : kvlineEncodeLine flags line = line.key.getD [] := by
        simp [kvlineEncodeLine, hno, hval]
      have hempty : value = [] := by simpa [lineHasNoVal, hvalue] using hval.2
      rw [henc, kvlineParseLine_word hkey hrest, if_pos hval.1, kvlineCommit,
        if_neg (by simpa using hne), hempty]
      rfl
    · have henc : kvlineEncodeLine flags line ++ rest = line.key.getD [] ++ '=' :: (v ++ rest) := by
        have hno : lineHasNoKey line = false := by simpa using hno
        rw [kvlineEncodeLine, hv]
        simp only [hno, if_neg hval, hvalue, hraw, getD_some, Bool.false_eq_true, if_false,
          not_false_eq_true, true_and]
        split_ifs <;> simp
      rw [henc, kvlineParseLine_pair hkey,
        kvlineParseValue_append hbytes (by simpa using hne) hrest hcases]
      rfl

lemma kvlineEncodeLine_eq_cons (h : kvlineCanEncodeLine flags line) (hraw : flags.raw = false)
    (homit : ¬ (flags.omitKeys ∧ flags.omitVals)) :
    ∃ c t, kvlineEncodeLine flags line = c :: t ∧ isKvSpace c = false := by
  obtain ⟨value, hvalue, -, hkey⟩ := kvlineCanEncodeLine_eq_true h hraw
  have hword : ∀ {s : List Char}, needsEscape s true = false → ∃ c t, s = c :: t ∧ isKvSpace c = false := by
    intro s hs
    obtain ⟨hne, -, husual, -⟩ := isKvKey_of_needsEscape hs
    obtain ⟨c, s, rfl⟩ := exists_cons_of_ne_nil hne
    exact ⟨c, s, rfl, (isUnusual_eq_false (husual c mem_cons_self)).1⟩
  split_ifs at hkey with hno
  · have hvals : flags.omitVals = false := by simpa [hkey] using homit
    cases hesc : needsEscape value true with
    | true =>
      refine ⟨'"', value.flatMap escChar ++ ['"'], ?_, by decide⟩
      simp [kvlineEncodeLine, hno, hvals, hraw, hvalue, hesc, escForLog]
    | false =>
      obtain ⟨c, t, hct, hc⟩ := hword hesc
      refine ⟨c, t, ?_, hc⟩
      rw [← hct]
      simp [kvlineEncodeLine, hno, hvals, hraw, hvalue, hesc]
  · obtain ⟨c, t, hct, hc⟩ := hword hkey
    have hno : lineHasNoKey line = false := by simpa using hno
    rw [kvlineEncodeLine]
    simp only [hno, hct, Bool.false_eq_true, if_false]
    split_ifs
    · exact ⟨c, t, rfl, hc⟩
    · exact ⟨c, _, rfl, hc⟩
    · exact ⟨c, _, rfl, hc⟩

lemma exists_join_cons (h : ∀ line ∈ lines, kvlineCanEncodeLine flags line)
    (hraw : flags.raw = false) (homit : ¬ (flags.omitKeys ∧ flags.omitVals)) (line : KvLine) :
    ∃ rest, [' '].intercalate ((line :: lines).map (kvlineEncodeLine flags))
        = kvlineEncodeLine flags line ++ rest
      ∧ (∀ c ∈ rest.head?, isKvSpace c)
      ∧ rest.dropWhile isKvSpace = [' '].intercalate (lines.map (kvlineEncodeLine flags)) := by
  cases lines with
  | nil => exact ⟨[], by simp [intercalate], by simp, rfl⟩
  | cons next lines =>
    obtain ⟨c, t, hct, hc⟩ := kvlineEncodeLine_eq_cons (h next mem_cons_self) hraw homit
    refine ⟨' ' :: [' '].intercalate ((next :: lines).map (kvlineEncodeLine flags)), ?_, ?_, ?_⟩
    · simp [intercalate]
    · simp [isKvSpace]
    · rw [dropWhile_cons_of_pos (by decide), map_cons, hct]
      cases lines <;> simp [intercalate, hc]

/-- **What is written of a list is read back.** -/
lemma kvlineParseLoop_join (h : ∀ line ∈ lines, kvlineCanEncodeLine flags line)
    (hstrings : ∀ line ∈ lines, line.IsCString) (hraw : flags.raw = false)
    (homit : ¬ (flags.omitKeys ∧ flags.omitVals)) {cplast : Option (List Char)}
    (hcp : cp.dropWhile isKvSpace = [' '].intercalate (lines.map (kvlineEncodeLine flags)))
    (hlast : ∀ last ∈ cplast, cp.length < last.length) :
    kvlineParseLoop flags cp cplast = some (lines.map KvLine.reread) := by
  induction lines generalizing cp cplast with
  | nil =>
    rw [kvlineParseLoop]
    split_ifs with hnil hprogress hend
    · rfl
    · have := hlast _ hprogress
      rw [show cp.dropWhile isKvSpace = [] from hcp] at this
      exact absurd this (by simp)
    · rfl
    · exact absurd hcp hend
  | cons line lines ih =>
    have hcan := h line mem_cons_self
    obtain ⟨c, t, hct, -⟩ := kvlineEncodeLine_eq_cons hcan hraw homit
    obtain ⟨rest, hrest, hstop, htail⟩ := exists_join_cons
      (fun next hnext => h next (mem_cons_of_mem line hnext)) hraw homit line
    rw [hrest] at hcp
    have hlen := (dropWhile_sublist isKvSpace (l := cp)).length_le
    have hprogress : cplast ≠ some (cp.dropWhile isKvSpace) := fun hlast' => by
      have := hlast _ hlast'
      omega
    have hend : cp.dropWhile isKvSpace ≠ [] := by
      rw [hcp, hct]
      simp
    have hnil : cp ≠ [] := fun hnil => hend (by rw [hnil]; rfl)
    have hread := kvlineParseLine_kvlineEncodeLine hcan hraw homit
      (hstrings line mem_cons_self) hstop
    rw [← hcp] at hread
    rw [kvlineParseLoop, if_neg hnil, if_neg hprogress, dif_neg hend]
    split
    · rename_i hnone
      rw [hread] at hnone
      cases hnone
    · rename_i line' rest' hsome
      rw [hread] at hsome
      cases hsome
      rw [ih (fun next hnext => h next (mem_cons_of_mem line hnext))
        (fun next hnext => hstrings next (mem_cons_of_mem line hnext)) htail ?_]
      · rfl
      · rintro last hlast'
        cases hlast'
        rw [hcp, hct, length_append, length_cons]
        omega

lemma kvlineCanEncodeLine_reread (flags : KvFlags) (line : KvLine) :
    kvlineCanEncodeLine flags line.reread = kvlineCanEncodeLine flags line := rfl

lemma kvlineParse_of_kvlineEncode (hraw : flags.raw = false)
    (hstrings : ∀ line ∈ lines, line.IsCString) (h : kvlineEncode lines flags = some s) :
    kvlineParse s flags = some (lines.map KvLine.reread) := by
  rw [kvlineEncode] at h
  split_ifs at h with hflags hcan
  cases h
  rw [not_or, not_or] at hflags
  have hall : ∀ line ∈ lines, kvlineCanEncodeLine flags line := all_eq_true.mp hcan
  have hcan' : kvlineCanEncodeLines (lines.map KvLine.reread) flags = true := by
    simpa [kvlineCanEncodeLines, kvlineCanEncodeLine_reread] using hall
  have hstart : ([' '].intercalate (lines.map (kvlineEncodeLine flags))).dropWhile isKvSpace
      = [' '].intercalate (lines.map (kvlineEncodeLine flags)) := by
    cases lines with
    | nil => rfl
    | cons line lines =>
      obtain ⟨c, t, hct, hc⟩ := kvlineEncodeLine_eq_cons (hall line mem_cons_self) hraw
        hflags.2.1
      rw [map_cons, hct]
      cases lines <;> simp [intercalate, hc]
  have hloop : kvlineParseLoop flags ([' '].intercalate (lines.map (kvlineEncodeLine flags))) none
      = some (lines.map KvLine.reread) :=
    kvlineParseLoop_join hall hstrings hraw hflags.2.1 hstart (by simp)
  rw [kvlineParse, if_neg (by simp [hraw, hflags.2.1]), hloop]
  simp [hcan']

/-! ## What is read can be written -/

lemma kvlineParseLoop_spec {cplast : Option (List Char)} (hcp : IsCString cp)
    (h : kvlineParseLoop flags cp cplast = some lines) :
    ∀ line ∈ lines, line.IsCString ∧ line.reread = line := by
  fun_induction kvlineParseLoop flags cp cplast generalizing lines with
  | case1 => cases h; simp
  | case2 => cases h
  | case3 => cases h; simp
  | case4 => cases h
  | case5 cp cplast _ _ hend line rest hline ih =>
    obtain ⟨lines, hlines, rfl⟩ := map_eq_some_iff.mp h
    have hhead := head?_dropWhile_not isKvSpace cp
    have hsub : IsCString (cp.dropWhile isKvSpace) := fun c hc =>
      hcp c (dropWhile_sublist _ |>.subset hc)
    obtain ⟨c, t, hct⟩ := exists_cons_of_ne_nil hend
    rw [hct] at hline hhead hsub
    obtain ⟨⟨key, val, rfl, hkeyval⟩, p, -, hp⟩ :=
      kvlineParseLine_eq_some hline (by simpa using hhead)
    rw [forall_mem_cons]
    refine ⟨⟨⟨?_, ?_⟩, rfl⟩, ih (fun d hd => hsub d ?_) hlines⟩
    · simpa using (hkeyval hsub).1
    · simpa using (hkeyval hsub).2
    · rw [hp]
      exact mem_append_right p hd

lemma canEncode_of_parse (hqstring : flags.quotedQstring = false)
    (h : kvlineParse s flags = some lines) :
    flags.raw = false ∧ kvlineParseLoop flags s none = some lines
      ∧ ∃ t, kvlineEncode lines flags = some t := by
  rw [kvlineParse] at h
  split_ifs at h with hflags
  rw [not_or] at hflags
  have hraw : flags.raw = false := by simpa using hflags.2
  split at h
  · cases h
  · rename_i result hloop
    split_ifs at h with hcan
    cases h
    refine ⟨hraw, hloop, [' '].intercalate (lines.map (kvlineEncodeLine flags)), ?_⟩
    rw [kvlineEncode, if_neg (by simp [hqstring, hraw, hflags.1]),
      if_neg (by simpa [hqstring] using hcan)]

/-- **Lines of keys and values.**  What is written is read back with the same flags, but for keys
that are not set, which are read as empty keys; and what is read can be written, and is read back as
it was. -/
theorem kvline_reread (flags : KvFlags) (hqstring : flags.quotedQstring = false)
    (hraw : flags.raw = false) :
    (∀ lines s, (∀ line ∈ lines, line.IsCString) → kvlineEncode lines flags = some s →
      kvlineParse s flags = some (lines.map KvLine.reread))
    ∧ ∀ s lines, IsCString s → kvlineParse s flags = some lines →
      ∃ t, kvlineEncode lines flags = some t ∧ kvlineParse t flags = some lines := by
  refine ⟨fun lines s hstrings h => kvlineParse_of_kvlineEncode hraw hstrings h, ?_⟩
  intro s lines hs h
  obtain ⟨-, hloop, t, ht⟩ := canEncode_of_parse hqstring h
  have hspec := kvlineParseLoop_spec hs hloop
  refine ⟨t, ht, ?_⟩
  rw [kvlineParse_of_kvlineEncode hraw (fun line hline => (hspec line hline).1) ht]
  rw [map_congr_left fun line hline => (hspec line hline).2, List.map_id']

/-- A value with a space and one that looks like a pair, with the quotes that they need. -/
theorem kvline_reread_quoted :
    kvlineParse "AB=\"C D\" \"E=F\"".toList ⟨true, true, false, false, false⟩
      = some [⟨some "AB".toList, some "C D".toList⟩, ⟨some [], some "E=F".toList⟩] :=
  (kvline_reread ⟨true, true, false, false, false⟩ rfl rfl).1
    [⟨some "AB".toList, some "C D".toList⟩, ⟨none, some "E=F".toList⟩] _
    (by simp [KvLine.IsCString, IsCString]) (by decide)

/-- A key that is not set is read as an empty key. -/
theorem kvline_reread_fails : ¬ (∀ (flags : KvFlags) (lines : List KvLine) (s : List Char),
    flags.quotedQstring = false → flags.raw = false → (∀ line ∈ lines, line.IsCString) →
    kvlineEncode lines flags = some s → kvlineParse s flags = some lines) := by
  intro h
  have hparse := h ⟨false, true, false, false, false⟩ [⟨none, some ['a']⟩] ['a'] rfl rfl
    (by simp [KvLine.IsCString, IsCString]) (by decide)
  revert hparse
  decide +kernel

end Ator.Text
