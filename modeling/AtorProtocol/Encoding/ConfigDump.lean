import AtorProtocol.Encoding.Confline

/-!
# Written configurations

`config_dump` of `src/lib/confmgt/confmgt.c`, and what `config_get_lines` reads of it.

* `configValueNeedsEscape` — which values are quoted.
* `configDump` — the text of a configuration.
* `configDump_roundTrip_iff` — when a whole configuration is.
-/

namespace Ator.Text

open List Option
open Except (ok.inj)
open Prod (mk.inj)

/-- The characters of the names of options. -/
def isOptionChar (c : Char) : Bool := c.isAlphanum ∨ c = '_'

/-- A line of an option: the name is that of an option, and the value a C string. -/
structure OptionLine where
  key : List Char
  value : List Char
  key_ne_nil : key ≠ []
  key_isOptionChar : ∀ c ∈ key, isOptionChar c
  value_isByte : ∀ c ∈ value, 0 < c.toNat ∧ c.toNat < 256

/-- The lines of an option, whether they are saved, and whether they are those of the defaults. -/
structure ManagedVar where
  isDumpable : Bool
  isSame : Bool
  lines : List OptionLine

def configValueNeedsEscape (value : List Char) : Bool :=
  value.head? = some '"' ∨ value.any fun c => c = '\r' ∨ c = '\n' ∨ c = '#' ∨ ¬ torIsprint c

/-- The value of a line of `config_get_assigned_option`. -/
def escapedValue (value : List Char) : List Char :=
  if configValueNeedsEscape value then escForLog value else value

/-- `"%s%s%s\n"` -/
def lineText (key value : List Char) : List Char :=
  key ++ (if value = [] then [] else [' ']) ++ value ++ ['\n']

/-- A name that is not saved. -/
def isHidden (key : List Char) : Bool := "__".toList.isPrefixOf key

/-- The lines of an option, each in a comment or not. -/
def dumpVar (commentOption : Bool) (lines : List OptionLine) : List Char :=
  (lines.filter fun line => ¬ isHidden line.key).flatMap fun line =>
    (if commentOption then "# ".toList else []) ++ lineText line.key (escapedValue line.value)

/-- `config_dump`; the lines of `extra` are not escaped. -/
def configDump (minimal commentDefaults : Bool) (vars : List ManagedVar)
    (extra : List (List Char × List Char)) : List Char :=
  (vars.filter fun var => var.isDumpable ∧ ¬ (minimal ∧ var.isSame)).flatMap
      (fun var => dumpVar (commentDefaults ∧ var.isSame) var.lines) ++
    extra.flatMap fun line => lineText line.1 line.2

/-- The lines that `config_dump` writes. -/
def writtenLines (minimal : Bool) (vars : List ManagedVar) : List OptionLine :=
  (vars.filter fun var => var.isDumpable ∧ ¬ (minimal ∧ var.isSame)).flatMap fun var =>
    var.lines.filter fun line => ¬ isHidden line.key

/-- The line as `config_get_lines` should find it. -/
def OptionLine.toConfigLine (line : OptionLine) : ConfigLine := ⟨line.key, line.value, .normal⟩

/-- A value that is read back: one that is quoted, or has no blank at its ends and no backslash at
its end, if another line follows. -/
def ReadsBack (value : List Char) (isLast : Prop) : Prop :=
  configValueNeedsEscape value ∨
    (value.head? ≠ some ' ' ∧ value.getLast? ≠ some ' ' ∧ (value.getLast? = some '\\' → isLast))

/-- Each value is read back. -/
def AllReadBack : List OptionLine → Prop
  | [] => True
  | line :: rest => ReadsBack line.value (rest = []) ∧ AllReadBack rest

variable {c k : Char} {s t u v w key value rest : List Char} {lines : List OptionLine}

/-! ## Keys -/

lemma isCSpace_of_isOptionChar (h : isOptionChar c) :
    isCSpace c = false ∧ isBlank c = false ∧ c ≠ '#' ∧ c ≠ '\\' ∧ c ≠ '\n' ∧ c ≠ '"' ∧
      c ≠ '+' ∧ c ≠ '/' := by
  have hge : 48 ≤ c.toNat := by
    rcases (decide_eq_true_iff.mp h : c.isAlphanum ∨ c = '_') with halphanum | rfl
    · have := isAlphanum_iff_toNat.mp halphanum
      omega
    · decide
  have hne : ∀ {d : Char}, d.toNat < 48 → c ≠ d := by
    rintro d hd rfl
    omega
  refine ⟨?_, ?_, hne (by decide), ?_, hne (by decide), hne (by decide), hne (by decide),
    hne (by decide)⟩
  · simp only [isCSpace, Char.le_def, UInt32.le_iff_toNat_le, decide_eq_false_iff_not, not_or,
      not_and, not_le]
    exact ⟨hne (by decide), fun _ => Nat.lt_of_lt_of_le (by decide) hge⟩
  · simp [isBlank, hne (d := ' ') (by decide), hne (d := '\t') (by decide)]
  · rintro rfl
    exact absurd h (by decide)

/-- What a line starts with, or the end of the string. -/
def StartsLine (s : List Char) : Prop := ∀ c ∈ s.head?, isOptionChar c

lemma skipToKeyword_startsLine (h : StartsLine s) : skipToKeyword false s = s := by
  cases s with
  | nil => rfl
  | cons c s =>
    obtain ⟨hspace, -, hcomment, -⟩ := isCSpace_of_isOptionChar (h c rfl)
    rw [skipToKeyword, if_neg (by simp [hspace]), if_neg hcomment]

lemma dropWhile_isCSpace_startsLine (h : StartsLine s) : s.dropWhile isCSpace = s := by
  cases s with
  | nil => rfl
  | cons c s =>
    simp [(isCSpace_of_isOptionChar (h c rfl)).1]

lemma keywordOf_append (hkey : ∀ c ∈ key, isOptionChar c) (hc : isCSpace c) :
    keywordOf (key ++ c :: s) = key := by
  induction key with
  | nil => simp [keywordOf, hc]
  | cons k key ih =>
    obtain ⟨hspace, -, hcomment, hback, -⟩ := isCSpace_of_isOptionChar (hkey k mem_cons_self)
    rw [cons_append, keywordOf, if_neg (by simp [hspace, hcomment, hback]),
      ih fun c hc => hkey c (mem_cons_of_mem k hc)]

lemma parseConfigLine_append (hne : key ≠ []) (hkey : ∀ c ∈ key, isOptionChar c)
    (hc : isCSpace c) : parseConfigLine (key ++ c :: s) =
      match parseValue ((c :: s).dropWhile isBlank) with
      | .error msg => .error msg
      | .ok (value, line) => .ok (some (key, value), skipAfterValue line) := by
  have hstarts : StartsLine (key ++ c :: s) := by
    obtain ⟨k, ks, rfl⟩ := exists_cons_of_ne_nil hne
    intro d hd
    obtain rfl : k = d := by simpa using hd
    exact hkey k mem_cons_self
  rw [parseConfigLine, skipToKeyword_startsLine hstarts]
  split
  · next hnil => simp at hnil
  · rw [keywordOf_append hkey hc]
    cases hparse : parseValue ((c :: s).dropWhile isBlank) <;>
      simp only [drop_left, hparse]

lemma parseValue_quoted (hv : ∀ c ∈ v, 0 < c.toNat ∧ c.toNat < 256) :
    parseValue (escForLog v ++ '\n' :: s) = .ok (v, '\n' :: s) := by
  have hhead : (escForLog v ++ '\n' :: s).head? = some '"' := rfl
  rw [parseValue, if_pos hhead, unescapeString_escForLog hv]
  rfl

/-! ## Plain values -/

/-- A character that does not make a value need quotes, where it is not the first. -/
def IsPlain (v : List Char) : Prop := ∀ c ∈ v, c ≠ '\n' ∧ c ≠ '#'

lemma isPlain_of_not_needsEscape (h : ¬ configValueNeedsEscape v) :
    IsPlain v ∧ v.head? ≠ some '"' ∧ ∀ c ∈ v, isCSpace c → c = ' ' := by
  simp only [configValueNeedsEscape, List.any_eq_true, decide_eq_true_eq, not_or, not_exists,
    not_and, not_not] at h
  obtain ⟨hhead, hall⟩ := h
  refine ⟨fun c hc => ⟨(hall c hc).2.1, (hall c hc).2.2.1⟩, hhead, fun c hc hspace => ?_⟩
  have hprint := (hall c hc).2.2.2
  simp only [torIsprint, decide_eq_true_eq] at hprint
  simp only [isCSpace, decide_eq_true_eq] at hspace
  refine hspace.resolve_right fun hrange => ?_
  have hle : c.toNat ≤ '\r'.toNat := by
    have := hrange.2
    rwa [Char.le_def, UInt32.le_iff_toNat_le] at this
  have h13 : '\r'.toNat = 13 := by decide
  omega

lemma IsPlain.of_cons (h : IsPlain (c :: v)) : IsPlain v := fun d hd => h d (mem_cons_of_mem c hd)

lemma valueEnd_plain (h : IsPlain v) (hlast : v.getLast? ≠ some '\\') :
    valueEnd false false (v ++ '\n' :: s) = (v, false, '\n' :: s) := by
  induction v with
  | nil => simp [valueEnd]
  | cons c v ih =>
    obtain ⟨hnl, hcomment⟩ := h c mem_cons_self
    have hlast' : v.getLast? ≠ some '\\' := fun hv => hlast (by
      rw [getLast?_cons, hv]
      rfl)
    rw [cons_append, valueEnd]
    · simp [hnl, hcomment, ih h.of_cons hlast']
    · rintro line rfl hline
      cases v with
      | nil => exact hlast rfl
      | cons d v => exact (h d (by simp)).1 (cons.inj hline).1

lemma valueEnd_continuation (h : IsPlain u) (continuation : Bool) :
    valueEnd false continuation (u ++ '\\' :: '\n' :: s) =
      (u ++ '\\' :: '\n' :: (valueEnd false true s).1, (valueEnd false true s).2) := by
  induction u with
  | nil =>
    rfl
  | cons c u ih =>
    obtain ⟨hnl, hcomment⟩ := h c mem_cons_self
    rw [cons_append, valueEnd]
    · simp [hnl, hcomment, ih h.of_cons]
    · rintro line rfl hline
      cases u with
      | nil => exact absurd (cons.inj hline).1 (by decide)
      | cons d u => exact (h d (by simp)).1 (cons.inj hline).1

lemma decodeContinuation_plain (h : IsPlain u) :
    decodeContinuation false (u ++ '\\' :: '\n' :: s) = u ++ decodeContinuation false s := by
  induction u with
  | nil => rw [nil_append, decodeContinuation, nil_append]
  | cons c u ih =>
    obtain ⟨hnl, hcomment⟩ := h c mem_cons_self
    rw [cons_append, decodeContinuation, if_neg hcomment, ih h.of_cons, cons_append]
    rintro line rfl hline
    cases u with
    | nil => exact absurd (cons.inj hline).1 (by decide)
    | cons d u => exact (h d (by simp)).1 (cons.inj hline).1

lemma decodeContinuation_last (h : IsPlain u) :
    decodeContinuation false (u ++ ['\\']) = u ++ ['\\'] := by
  induction u with
  | nil => decide
  | cons c u ih =>
    obtain ⟨hnl, hcomment⟩ := h c mem_cons_self
    rw [cons_append, decodeContinuation, if_neg hcomment, ih h.of_cons]
    rintro line rfl hline
    cases u with
    | nil => exact absurd (cons.inj hline).1 (by decide)
    | cons d u => exact (h d (by simp)).1 (cons.inj hline).1

lemma rdropWhile_append_cons (p : Char → Bool) (h : p c = false) (s t : List Char) :
    (s ++ c :: t).rdropWhile p = s ++ c :: t.rdropWhile p := by
  induction t using reverseRecOn with
  | nil => rw [rdropWhile_concat_neg p s c (by simp [h]), rdropWhile_nil]
  | append_singleton t d ih =>
    rw [← cons_append, ← append_assoc]
    by_cases hd : p d
    · rw [rdropWhile_concat_pos p _ d hd, rdropWhile_concat_pos p _ d hd, ih]
    · rw [rdropWhile_concat_neg p _ d hd, rdropWhile_concat_neg p _ d hd, append_assoc, cons_append]

lemma dropWhile_append_cons (p : Char → Bool) (h : p c = false) (s t : List Char) :
    (s ++ c :: t).dropWhile p = s.dropWhile p ++ c :: t := by
  induction s with
  | nil => simp [h]
  | cons d s ih =>
    rw [cons_append, dropWhile_cons, dropWhile_cons, ih]
    split <;> rfl

lemma parseValue_plain (h : IsPlain v) (hhead : v.head? ≠ some '"')
    (hlast : v.getLast? ≠ some '\\') :
    parseValue (v ++ '\n' :: s) = .ok (v.rdropWhile isCSpace, s) := by
  have hquote : (v ++ '\n' :: s).head? ≠ some '"' := by
    cases v with
    | nil => simp
    | cons c v => exact hhead
  rw [parseValue, if_neg hquote, valueEnd_plain h hlast]
  rfl

lemma parseValue_continuation (h : IsPlain u) (hhead : (u ++ ['\\']).head? ≠ some '"') :
    parseValue (u ++ '\\' :: '\n' :: s) =
      .ok (decodeContinuation false
          ((u ++ '\\' :: '\n' :: (valueEnd false true s).1).rdropWhile isCSpace),
        skipNewline (valueEnd false true s).2.2) := by
  have hquote : (u ++ '\\' :: '\n' :: s).head? ≠ some '"' := by
    cases u with
    | nil => simp
    | cons c u => exact hhead
  rw [parseValue, if_neg hquote, valueEnd_continuation h false]
  dsimp only
  rw [valueEnd_flag rfl, if_pos rfl]

lemma parseValue_backslash_last (h : IsPlain u) (hhead : (u ++ ['\\']).head? ≠ some '"') :
    parseValue (u ++ '\\' :: ['\n']) = .ok (u ++ ['\\'], []) := by
  have hraw : u ++ '\\' :: '\n' :: (valueEnd false true []).1 = u ++ '\\' :: ['\n'] := by
    rw [valueEnd]
  have hnl : (['\n'] : List Char).rdropWhile isCSpace = [] := by decide
  rw [parseValue_continuation h hhead, hraw, rdropWhile_append_cons isCSpace (by decide), hnl,
    decodeContinuation_last h, valueEnd]
  rfl

lemma parseValue_backslash (h : IsPlain u) (hhead : (u ++ ['\\']).head? ≠ some '"')
    (hk : isOptionChar k) (s : List Char) :
    ∃ t rest, parseValue (u ++ '\\' :: '\n' :: k :: s) = .ok (u ++ k :: t, rest) := by
  obtain ⟨hspace, -, hcomment, hback, hnl, -⟩ := isCSpace_of_isOptionChar hk
  have hraw : (valueEnd false true (k :: s)).1 = k :: (valueEnd false true s).1 := by
    rw [valueEnd]
    · simp [hnl, hcomment]
    · intro line hk
      exact absurd hk hback
  have htrim : (u ++ '\\' :: '\n' :: (valueEnd false true (k :: s)).1).rdropWhile isCSpace =
      u ++ '\\' :: '\n' :: k :: (valueEnd false true s).1.rdropWhile isCSpace := by
    have hassoc := rdropWhile_append_cons isCSpace hspace (u ++ ['\\', '\n'])
      (valueEnd false true s).1
    rw [hraw]
    simpa using hassoc
  have hdecode : ∀ t : List Char, decodeContinuation false (k :: t) =
      k :: decodeContinuation false t := by
    intro t
    rw [decodeContinuation, if_neg hcomment]
    intro line hk
    exact absurd hk hback
  have hparse := parseValue_continuation (s := k :: s) h hhead
  rw [htrim, decodeContinuation_plain h, hdecode] at hparse
  exact ⟨_, _, hparse⟩

/-! ## Which values are read back -/

lemma head_dropWhile_isBlank (h : v.dropWhile isBlank = c :: t) : isBlank c = false := by
  have hhead := head?_dropWhile_not isBlank v
  rw [h] at hhead
  simpa using hhead

lemma head_ne_space (h : v.dropWhile isBlank = w) : w.head? ≠ some ' ' := by
  intro hw
  cases w with
  | nil => cases hw
  | cons c w =>
    have hc := head_dropWhile_isBlank h
    rw [some.inj hw] at hc
    exact absurd hc (by decide)

/-- **A plain value that is read back has no blank at its ends, and no backslash before another
line.** -/
lemma readsBack_of_parseValue (hplain : ¬ configValueNeedsEscape v) (hs : StartsLine s)
    (h : parseValue ((v ++ '\n' :: s).dropWhile isBlank) = .ok (v, rest)) :
    ReadsBack v (s = []) := by
  obtain ⟨hv, hhead, hspace⟩ := isPlain_of_not_needsEscape hplain
  obtain ⟨w, hw⟩ : ∃ w, w = v.dropWhile isBlank := ⟨_, rfl⟩
  have hwv : w.length ≤ v.length := by
    rw [hw]
    exact (dropWhile_sublist isBlank).length_le
  have hwplain : IsPlain w := fun c hc => hv c ((dropWhile_sublist isBlank).subset (hw ▸ hc))
  rw [dropWhile_append_cons isBlank (by decide), ← hw] at h
  by_cases hquote : w.head? = some '"'
  · -- A quote behind blanks: what stands in the quotes is shorter.
    have hquote' : (w ++ '\n' :: s).head? = some '"' := by
      cases w with
      | nil => cases hquote
      | cons c w => exact hquote
    rw [parseValue, if_pos hquote'] at h
    split at h
    · cases h
    · next value line hstring =>
        split at h
        · cases h
        · obtain ⟨rfl, -⟩ := mk.inj (ok.inj h)
          obtain ⟨p, hp, hpn, hlen⟩ := unescapeString_eq_some hstring
          have hle : p.length ≤ w.length := by
            rcases append_eq_append_iff.mp hp with ⟨q, rfl, hq⟩ | ⟨q, rfl, -⟩
            · cases q with
              | nil => simp
              | cons d q =>
                obtain rfl := (cons.inj hq).1
                exact absurd (by simp) hpn
            · simp
          omega
  · have hvw : v.head? ≠ some ' ' → w = v := by
      intro hne
      cases v with
      | nil => exact hw
      | cons c v =>
        have hc : isBlank c = false := by
          by_contra hblank
          have hcs : isCSpace c = true := by
            simp only [isBlank, decide_eq_true_eq, Bool.not_eq_false] at hblank
            rcases hblank with rfl | rfl <;> decide
          exact hne (by rw [hspace c mem_cons_self hcs]; rfl)
        rw [hw, dropWhile_cons_of_neg (by simp [hc])]
    have hwhead : w.head? ≠ some ' ' := head_ne_space hw.symm
    by_cases hlast : w.getLast? = some '\\'
    · obtain ⟨u, rfl⟩ := getLast?_eq_some_iff.mp hlast
      have hu : IsPlain u := fun c hc => hwplain c (mem_append_left _ hc)
      rw [append_assoc, singleton_append] at h
      cases s with
      | nil =>
        rw [parseValue_backslash_last hu hquote] at h
        obtain ⟨rfl, -⟩ := mk.inj (ok.inj h)
        exact .inr ⟨hwhead, by rw [hlast]; decide, fun _ => rfl⟩
      | cons k s =>
        have hk := hs k rfl
        obtain ⟨t, rest', hparse⟩ := parseValue_backslash hu hquote hk s
        rw [hparse] at h
        obtain ⟨rfl, -⟩ := mk.inj (ok.inj h)
        have hsame : u ++ ['\\'] = u ++ k :: t := by
          refine hvw ?_
          cases u with
          | nil =>
            rintro hksp
            obtain rfl := some.inj hksp
            exact absurd hk (by decide)
          | cons c u => exact hwhead
        obtain ⟨rfl, -⟩ := cons.inj (append_cancel_left hsame)
        exact absurd hk (by decide)
    · rw [parseValue_plain hwplain hquote hlast] at h
      obtain ⟨htrim, -⟩ := mk.inj (ok.inj h)
      have hpre : v <+: w := htrim ▸ rdropWhile_prefix isCSpace w
      obtain rfl : v = w := hpre.eq_of_length (le_antisymm hpre.length_le hwv)
      refine .inr ⟨hwhead, fun hsp => ?_, fun hb => absurd hb hlast⟩
      obtain ⟨u, rfl⟩ := getLast?_eq_some_iff.mp hsp
      have hdrop : (u ++ [' ']).rdropWhile isCSpace = u.rdropWhile isCSpace :=
        rdropWhile_concat_pos isCSpace u ' ' (by decide)
      have hlen := ( rdropWhile_prefix isCSpace u).length_le
      rw [← hdrop, htrim, length_append, length_singleton] at hlen
      omega

/-- **A value that is to be read back is read back.** -/
lemma parseValue_of_readsBack (hplain : ¬ configValueNeedsEscape v) (h : ReadsBack v (s = [])) :
    ∃ line, parseValue (v ++ '\n' :: s) = .ok (v, line) ∧ (line = s ∨ line = '\n' :: s) := by
  obtain ⟨hv, hquote, hspace⟩ := isPlain_of_not_needsEscape hplain
  obtain ⟨-, hend, hback⟩ := h.resolve_left hplain
  by_cases hlast : v.getLast? = some '\\'
  · obtain rfl := hback hlast
    obtain ⟨u, rfl⟩ := getLast?_eq_some_iff.mp hlast
    have hu : IsPlain u := fun c hc => hv c (mem_append_left _ hc)
    rw [append_assoc, singleton_append]
    exact ⟨[], parseValue_backslash_last hu hquote, .inl rfl⟩
  · refine ⟨s, ?_, .inl rfl⟩
    rw [parseValue_plain hv hquote hlast]
    have htrim : v.rdropWhile isCSpace = v := by
      refine rdropWhile_eq_self_iff.mpr fun hne hc => hend ?_
      rw [getLast?_eq_some_getLast hne, hspace _ (getLast_mem hne) hc]
    rw [htrim]

/-! ## Lines -/

lemma parseConfigLine_text (line : OptionLine) (value s : List Char) :
    parseConfigLine (lineText line.key value ++ s) =
      match parseValue ((value ++ '\n' :: s).dropWhile isBlank) with
      | .error msg => .error msg
      | .ok (value, rest) => .ok (some (line.key, value), skipAfterValue rest) := by
  rw [lineText]
  by_cases hvalue : value = []
  · have htext : line.key ++ (if value = [] then [] else [' ']) ++ value ++ ['\n'] ++ s =
        line.key ++ '\n' :: s := by simp [hvalue]
    rw [htext, parseConfigLine_append line.key_ne_nil line.key_isOptionChar (by decide), hvalue]
    rfl
  · have htext : line.key ++ (if value = [] then [] else [' ']) ++ value ++ ['\n'] ++ s =
        line.key ++ ' ' :: (value ++ '\n' :: s) := by simp [hvalue]
    rw [htext, parseConfigLine_append line.key_ne_nil line.key_isOptionChar (by decide)]
    rfl

lemma skipAfterValue_startsLine (hs : StartsLine s) : skipAfterValue s = s := by
  have hhead : s.head? ≠ some '#' := fun h => (isCSpace_of_isOptionChar (hs '#' h)).2.2.1 rfl
  rw [skipAfterValue, if_neg hhead, dropWhile_isCSpace_startsLine hs]

lemma skipAfterValue_newline (hs : StartsLine s) : skipAfterValue ('\n' :: s) = s := by
  rw [skipAfterValue, if_neg (by simp), dropWhile_cons_of_pos (by decide),
    dropWhile_isCSpace_startsLine hs]

lemma parseConfigLine_lineText (line : OptionLine) (hs : StartsLine s)
    (h : ReadsBack line.value (s = [])) :
    parseConfigLine (lineText line.key (escapedValue line.value) ++ s) =
      .ok (some (line.key, line.value), s) := by
  rw [parseConfigLine_text, escapedValue]
  by_cases hplain : configValueNeedsEscape line.value
  · have hquoted : (escForLog line.value ++ '\n' :: s).dropWhile isBlank =
        escForLog line.value ++ '\n' :: s := rfl
    rw [if_pos hplain, hquoted, parseValue_quoted line.value_isByte]
    simp only [skipAfterValue_newline hs]
  · obtain ⟨rest, hparse, hrest⟩ := parseValue_of_readsBack hplain h
    have hdrop : (line.value ++ '\n' :: s).dropWhile isBlank = line.value ++ '\n' :: s := by
      obtain ⟨-, -, hspace⟩ := isPlain_of_not_needsEscape hplain
      obtain ⟨hhead, -⟩ := h.resolve_left hplain
      cases hv : line.value with
      | nil => rfl
      | cons c v =>
        rw [hv] at hspace hhead
        refine dropWhile_cons_of_neg fun hc => hhead ?_
        have hcs : isCSpace c = true := by
          simp only [isBlank, decide_eq_true_eq] at hc
          rcases hc with rfl | rfl <;> decide
        rw [head?_cons, hspace c mem_cons_self hcs]
    rw [if_neg hplain, hdrop, hparse]
    rcases hrest with rfl | rfl
    · simp only [skipAfterValue_startsLine hs]
    · simp only [skipAfterValue_newline hs]

lemma readsBack_of_parseConfigLine (line : OptionLine) (hs : StartsLine s)
    (h : parseConfigLine (lineText line.key (escapedValue line.value) ++ s) =
      .ok (some (line.key, line.value), rest)) : ReadsBack line.value (s = []) := by
  by_cases hplain : configValueNeedsEscape line.value
  · exact .inl hplain
  · rw [parseConfigLine_text, escapedValue, if_neg hplain] at h
    split at h
    · cases h
    · next value rest' hparse =>
        obtain ⟨hkv, -⟩ := mk.inj (ok.inj h)
        obtain ⟨-, rfl⟩ := mk.inj (some.inj hkv)
        exact readsBack_of_parseValue hplain hs hparse

/-! ## Configurations -/

/-- The text of a list of lines. -/
def linesText (lines : List OptionLine) : List Char :=
  lines.flatMap fun line => lineText line.key (escapedValue line.value)

lemma linesText_startsLine (lines : List OptionLine) : StartsLine (linesText lines) := by
  cases lines with
  | nil =>
    intro c hc
    cases hc
  | cons line rest =>
    obtain ⟨k, ks, hkey⟩ := exists_cons_of_ne_nil line.key_ne_nil
    intro c hc
    rw [linesText, flatMap_cons, lineText, hkey] at hc
    obtain rfl : k = c := by simpa using hc
    exact line.key_isOptionChar k (by simp [hkey])

lemma linesText_eq_nil_iff : linesText lines = [] ↔ lines = [] := by
  constructor
  · intro h
    cases lines with
    | nil => rfl
    | cons line rest => simp [linesText, lineText] at h
  · rintro rfl
    rfl

lemma configLineOf_option (extended : Bool) (line : OptionLine) :
    configLineOf extended (line.key, line.value) = line.toConfigLine := by
  obtain ⟨k, ks, hkey⟩ := exists_cons_of_ne_nil line.key_ne_nil
  obtain ⟨-, -, -, -, -, -, hplus, hslash⟩ :=
    isCSpace_of_isOptionChar (line.key_isOptionChar k (by simp [hkey]))
  rw [configLineOf, if_neg (by simp [hkey, hplus]), if_neg (by simp [hkey, hslash])]
  rfl

variable {extended : Bool}

lemma eq_of_configLineOf {kv : List Char × List Char}
    (h : configLineOf extended kv = ⟨key, value, .normal⟩) : kv = (key, value) := by
  rw [configLineOf] at h
  split_ifs at h
  · exact absurd (ConfigLine.mk.inj h).2.2 (by decide)
  · exact absurd (ConfigLine.mk.inj h).2.2 (by decide)
  · obtain ⟨rfl, rfl, -⟩ := ConfigLine.mk.inj h
    rfl

/-- The lines of a string behind its first one. -/
def configGetRest (extended : Bool) (string : List Char) : Except (List Char) (List ConfigLine) :=
  if string = [] then .ok [] else configGetLines extended string

lemma configGetLines_of_parse {kv : List Char × List Char}
    (h : parseConfigLine s = .ok (some kv, rest)) : configGetLines extended s =
      (configGetRest extended rest).map (configLineOf extended kv :: ·) := by
  rw [configGetLines, configGetRest]
  split
  · next herr =>
      rw [h] at herr
      cases herr
  · next hnone =>
      rw [h] at hnone
      cases hnone
  · next kv' rest' hsome =>
      rw [h] at hsome
      obtain ⟨hkv, rfl⟩ := mk.inj (ok.inj hsome)
      obtain rfl := some.inj hkv
      split
      · rfl
      · cases configGetLines extended rest <;> rfl

lemma parse_of_configGetLines {line : ConfigLine} {lines : List ConfigLine}
    (h : configGetLines extended s = .ok (line :: lines)) :
    ∃ kv rest, parseConfigLine s = .ok (some kv, rest) ∧ configLineOf extended kv = line := by
  rw [configGetLines] at h
  split at h
  · cases h
  · cases h
  · next kv rest hparse =>
      refine ⟨kv, rest, hparse, ?_⟩
      split at h
      · exact (cons.inj (ok.inj h)).1
      · split at h
        · cases h
        · exact (cons.inj (ok.inj h)).1

/-- **A list of lines is read back exactly where each value is.** -/
theorem configGetLines_linesText_iff (extended : Bool) (lines : List OptionLine) :
    configGetLines extended (linesText lines) = .ok (lines.map OptionLine.toConfigLine) ↔
      AllReadBack lines := by
  induction lines with
  | nil =>
    refine iff_of_true ?_ trivial
    rw [configGetLines]
    rfl
  | cons line rest ih =>
    have hrest : configGetRest extended (linesText rest) =
        .ok (rest.map OptionLine.toConfigLine) ↔ AllReadBack rest := by
      rw [configGetRest, ← ih]
      split
      · next hnil => rw [linesText_eq_nil_iff.mp hnil, configGetLines]; rfl
      · rfl
    have hlast : ReadsBack line.value (linesText rest = []) ↔ ReadsBack line.value (rest = []) := by
      rw [linesText_eq_nil_iff]
    have hstep : parseConfigLine (linesText (line :: rest)) =
        .ok (some (line.key, line.value), linesText rest) →
        (configGetLines extended (linesText (line :: rest)) =
          .ok ((line :: rest).map OptionLine.toConfigLine) ↔ AllReadBack rest) := by
      intro hparse
      rw [configGetLines_of_parse hparse, configLineOf_option, ← hrest, map_cons]
      cases configGetRest extended (linesText rest) with
      | error msg => simp [Except.map]
      | ok lines => simp [Except.map]
    constructor
    · intro h
      -- The first line that is found is this one, so that it is read back.
      have hback : ReadsBack line.value (linesText rest = []) := by
        obtain ⟨kv, rest', hparse, hkv⟩ := parse_of_configGetLines h
        obtain rfl := eq_of_configLineOf hkv
        exact readsBack_of_parseConfigLine line (linesText_startsLine rest) hparse
      refine ⟨hlast.mp hback, (hstep ?_).mp h⟩
      exact parseConfigLine_lineText line (linesText_startsLine rest) hback
    · rintro ⟨hback, hall⟩
      refine (hstep ?_).mpr hall
      exact parseConfigLine_lineText line (linesText_startsLine rest) (hlast.mpr hback)

lemma configDump_eq_linesText (minimal : Bool) (vars : List ManagedVar) :
    configDump minimal false vars [] = linesText (writtenLines minimal vars) := by
  rw [configDump, flatMap_nil, append_nil, linesText, writtenLines, flatMap_assoc]
  refine flatMap_congr fun var _ => ?_
  simp [dumpVar]

/-- **A configuration that is written is read back exactly where each value that is not quoted has
no blank at its ends, and no backslash at its end before another line.** -/
theorem configDump_roundTrip_iff (extended minimal : Bool) (vars : List ManagedVar) :
    configGetLines extended (configDump minimal false vars []) =
        .ok ((writtenLines minimal vars).map OptionLine.toConfigLine) ↔
      AllReadBack (writtenLines minimal vars) := by
  rw [configDump_eq_linesText]
  exact configGetLines_linesText_iff extended _

/-- `DataDirectory C:\tor\` -/
def dataDirectoryLine : OptionLine :=
  ⟨"DataDirectory".toList, "C:\\tor\\".toList, by decide, List.all_eq_true.mp rfl, by simp⟩

/-- `Nickname ator` -/
def nicknameLine : OptionLine :=
  ⟨"Nickname".toList, "ator".toList, by decide, List.all_eq_true.mp rfl, by simp⟩

/-- A value that ends in a backslash swallows the next line. -/
theorem configDump_roundTrip_fails :
    configGetLines true
        (configDump true false [⟨true, false, [dataDirectoryLine, nicknameLine]⟩] []) ≠
      .ok ([dataDirectoryLine, nicknameLine].map OptionLine.toConfigLine) := by
  intro h
  obtain ⟨hback, -⟩ := (configGetLines_linesText_iff true [dataDirectoryLine, nicknameLine]).mp h
  rcases hback with hescape | ⟨-, -, hlast⟩
  · exact absurd hescape (by decide)
  · exact cons_ne_nil _ _ (hlast (by decide))

end Ator.Text
