import AtorProtocol.Encoding.Confline

/-!
# Line ends of configurations

The same text with CRLF for every LF, as `config_get_lines` of `src/lib/encoding/confline.c` reads
both.

* `skipToKeyword_toCrlf`, `keywordOf_toCrlf`, `unescapeString_toCrlf`, `valueEnd_toCrlf` — each scan
  finds the same in both.
* `configGetLines_toCrlf_iff` — when the whole texts are read alike.
-/

namespace Ator.Text

open List Option

/-- Every LF replaced by CRLF. -/
def toCrlf (text : List Char) : List Char :=
  text.flatMap fun c => if c = '\n' then ['\r', '\n'] else [c]

variable {s t r v out rest line key value : List Char} {c : Char} {fuel fuel' : ℕ}
  {extended comment : Bool}

@[simp] lemma toCrlf_nil : toCrlf [] = [] := rfl

@[simp] lemma toCrlf_newline (s : List Char) : toCrlf ('\n' :: s) = '\r' :: '\n' :: toCrlf s := rfl

lemma toCrlf_cons (hc : c ≠ '\n') (s : List Char) : toCrlf (c :: s) = c :: toCrlf s := by
  rw [toCrlf, flatMap_cons, if_neg hc]
  rfl

lemma toCrlf_append (s t : List Char) : toCrlf (s ++ t) = toCrlf s ++ toCrlf t := flatMap_append

lemma toCrlf_of_notMem (hs : '\n' ∉ s) : toCrlf s = s := by
  induction s with
  | nil => rfl
  | cons c s ih =>
    rw [mem_cons, not_or] at hs
    rw [toCrlf_cons (Ne.symm hs.1), ih hs.2]

@[simp] lemma toCrlf_eq_nil : toCrlf s = [] ↔ s = [] := by
  cases s with
  | nil => simp
  | cons c s =>
    by_cases hc : c = '\n'
    · simp [hc]
    · simp [toCrlf_cons hc]

lemma head?_toCrlf (hr : c ≠ '\r') (hn : c ≠ '\n') :
    (toCrlf s).head? = some c ↔ s.head? = some c := by
  cases s with
  | nil => rfl
  | cons d s =>
    by_cases hd : d = '\n'
    · simp [hd, Ne.symm hr, Ne.symm hn]
    · simp [toCrlf_cons hd]

/-! ## Scans -/

lemma skipToKeyword_toCrlf (comment : Bool) (s : List Char) :
    skipToKeyword comment (toCrlf s) = toCrlf (skipToKeyword comment s) := by
  have hspace : isCSpace '\r' = true ∧ isCSpace '\n' = true := by decide
  fun_induction skipToKeyword comment s with
  | case1 => simp [skipToKeyword]
  | case2 s ih => simpa [skipToKeyword] using ih
  | case3 c s hc ih => rw [toCrlf_cons hc, skipToKeyword, if_neg hc, ih]
  | case4 c s hc ih =>
    by_cases hn : c = '\n'
    · subst hn
      simpa [skipToKeyword, hspace] using ih
    · rw [toCrlf_cons hn, skipToKeyword, if_pos hc, ih]
  | case5 s hc ih =>
    rw [toCrlf_cons (by decide), skipToKeyword, if_neg hc, if_pos rfl, ih]
  | case6 c s hc hcomment =>
    have hn : c ≠ '\n' := by
      rintro rfl
      exact hc hspace.2
    rw [toCrlf_cons hn, skipToKeyword, if_neg hc, if_neg hcomment]

lemma keywordOf_toCrlf (hs : ∀ r, s.drop (keywordOf s).length ≠ '\\' :: '\n' :: r) :
    keywordOf (toCrlf s) = keywordOf s := by
  have hspace : isCSpace '\r' = true ∧ isCSpace '\n' = true := by decide
  induction s with
  | nil => rfl
  | cons c s ih =>
    by_cases hn : c = '\n'
    · subst hn
      simp [keywordOf, hspace]
    · rw [toCrlf_cons hn, keywordOf, keywordOf]
      have hback : c = '\\' → s.head? ≠ some '\n' := by
        rintro rfl hhead
        obtain ⟨r, rfl⟩ := head?_eq_some_iff.mp hhead
        exact hs r (by simp [keywordOf])
      have hback' : ¬ (c = '\\' ∧ s.head? = some '\n') := fun h => hback h.1 h.2
      have hcr : ¬ (c = '\\' ∧ (toCrlf s).head? = some '\n') := by
        rintro ⟨-, h⟩
        cases s with
        | nil => cases h
        | cons d s =>
          by_cases hd : d = '\n'
          · subst hd
            cases h
          · rw [toCrlf_cons hd] at h
            exact hd (some.inj h)
      by_cases hend : isCSpace c = true ∨ c = '#'
      · rw [if_pos (hend.imp_right .inl), if_pos (hend.imp_right .inl)]
      · obtain ⟨hcspace, hhash⟩ := not_or.mp hend
        rw [if_neg (not_or.mpr ⟨hcspace, not_or.mpr ⟨hhash, hcr⟩⟩),
          if_neg (not_or.mpr ⟨hcspace, not_or.mpr ⟨hhash, hback'⟩⟩), ih]
        intro r hr
        refine hs r ?_
        rw [keywordOf, if_neg (by tauto)]
        exact hr

lemma newline_notMem_keywordOf (s : List Char) : '\n' ∉ keywordOf s := by
  induction s with
  | nil => simp [keywordOf]
  | cons c s ih =>
    rw [keywordOf]
    split
    · simp
    · next h =>
        rw [mem_cons, not_or]
        refine ⟨?_, ih⟩
        rintro rfl
        exact h (.inl (by decide))

lemma toCrlf_drop (hp : r <+: s) (hr : '\n' ∉ r) :
    (toCrlf s).drop r.length = toCrlf (s.drop r.length) := by
  obtain ⟨q, rfl⟩ := hp
  rw [toCrlf_append, toCrlf_of_notMem hr, drop_left, drop_left]

lemma dropWhile_isBlank_toCrlf (s : List Char) :
    (toCrlf s).dropWhile isBlank = toCrlf (s.dropWhile isBlank) := by
  induction s with
  | nil => rfl
  | cons c s ih =>
    by_cases hn : c = '\n'
    · subst hn
      rfl
    · rw [toCrlf_cons hn, dropWhile_cons, dropWhile_cons, ih]
      split
      · rfl
      · rw [toCrlf_cons hn]

/-! ## Quoted strings -/

lemma takeWhile_torIsodigit_toCrlf (s : List Char) :
    (toCrlf s).takeWhile torIsodigit = s.takeWhile torIsodigit := by
  induction s with
  | nil => rfl
  | cons c s ih =>
    by_cases hn : c = '\n'
    · subst hn
      rfl
    · rw [toCrlf_cons hn, takeWhile_cons, takeWhile_cons, ih]

lemma unescapeChar_hex_toCrlf {x : Char} (hx : x = 'x' ∨ x = 'X') (s : List Char) :
    unescapeChar (x :: toCrlf s) =
      (unescapeChar (x :: s)).map fun out => (out.1, toCrlf out.2) := by
  have hr : hexDecodeDigit '\r' = none := by decide
  have hn : hexDecodeDigit '\n' = none := by decide
  have hnil : unescapeChar [x] = none := by
    rcases hx with rfl | rfl <;> rfl
  have hone : ∀ a, unescapeChar [x, a] = none := by
    intro a
    rcases hx with rfl | rfl <;> rfl
  have htwo : ∀ a b cp, unescapeChar (x :: a :: b :: cp) =
      (hexDecodeDigit a).bind fun x1 => (hexDecodeDigit b).map fun x2 =>
        (Char.ofNat (x1 <<< 4 + x2), cp) := by
    intro a b cp
    cases ha : hexDecodeDigit a <;> cases hb : hexDecodeDigit b <;>
      rcases hx with rfl | rfl <;> simp [unescapeChar, ha, hb]
  rcases s with _ | ⟨a, _ | ⟨b, cp⟩⟩
  · simp [hnil]
  · by_cases ha : a = '\n'
    · simp [ha, hone, htwo, hr]
    · simp [toCrlf_cons ha, hone]
  · by_cases ha : a = '\n'
    · simp [ha, htwo, hr, hn]
    · rw [toCrlf_cons ha]
      by_cases hb : b = '\n'
      · rw [hb, toCrlf_newline, htwo, htwo, hr, hn]
        cases hexDecodeDigit a <;> rfl
      · rw [toCrlf_cons hb, htwo, htwo]
        cases hexDecodeDigit a <;> cases hexDecodeDigit b <;> rfl

lemma unescapeChar_cons (hx : ¬ (c = 'x' ∨ c = 'X')) :
    (∃ d, ∀ cp, unescapeChar (c :: cp) = some (d, cp)) ∨ ∀ cp, unescapeChar (c :: cp) =
        if torIsodigit c then
          let ds := c :: (cp.takeWhile torIsodigit).take 2
          let n := ds.foldl (fun n d => n * 8 + (d.toNat - '0'.toNat)) 0
          if 255 < n then none else some (Char.ofNat n, cp.drop (ds.length - 1))
        else none := by
  rw [not_or] at hx
  by_cases hc : c = 'n' ∨ c = 'r' ∨ c = 't' ∨ c = '"' ∨ c = '\\' ∨ c = '\''
  · left
    rcases hc with rfl | rfl | rfl | rfl | rfl | rfl
    all_goals exact ⟨_, fun _ => rfl⟩
  · right
    intro cp
    conv_lhs => unfold unescapeChar
    split <;> simp_all

lemma unescapeChar_toCrlf (s : List Char) :
    unescapeChar (toCrlf s) = (unescapeChar s).map fun out => (out.1, toCrlf out.2) := by
  cases s with
  | nil => rfl
  | cons c s =>
    by_cases hn : c = '\n'
    · subst hn
      rfl
    rw [toCrlf_cons hn]
    by_cases hx : c = 'x' ∨ c = 'X'
    · exact unescapeChar_hex_toCrlf hx s
    rcases unescapeChar_cons hx with ⟨d, hd⟩ | hd
    · rw [hd, hd]
      rfl
    · rw [hd, hd, takeWhile_torIsodigit_toCrlf]
      split
      · have hp : (s.takeWhile torIsodigit).take 2 <+: s :=
          ( take_prefix 2 _).trans ( takeWhile_prefix torIsodigit)
        dsimp only
        rw [length_cons, Nat.add_sub_cancel, toCrlf_drop hp (newline_notMem_takeWhile 2)]
        split <;> rfl
      · rfl

lemma unescapeLoop_toCrlf (hfuel : s.length < fuel) (hfuel' : (toCrlf s).length < fuel') :
    unescapeLoop fuel' (toCrlf s) =
      (unescapeLoop fuel s).map fun out => (out.1, toCrlf out.2) := by
  induction fuel generalizing s fuel' with
  | zero => omega
  | succ fuel ih =>
    obtain ⟨fuel', rfl⟩ : ∃ f, fuel' = f + 1 := ⟨fuel' - 1, by omega⟩
    cases s with
    | nil => rfl
    | cons c s =>
      by_cases hn : c = '\n'
      · subst hn
        obtain ⟨f, rfl⟩ : ∃ f, fuel' = f + 1 :=
          ⟨fuel' - 1, by simp only [toCrlf_newline, length_cons] at hfuel'; omega⟩
        rfl
      rw [toCrlf_cons hn] at hfuel' ⊢
      rw [length_cons] at hfuel hfuel'
      by_cases hq : c = '"'
      · subst hq
        rfl
      by_cases hb : c = '\\'
      · subst hb
        rw [unescapeLoop, unescapeLoop, unescapeChar_toCrlf]
        cases hchar : unescapeChar s with
        | none => rfl
        | some out =>
          obtain ⟨d, r⟩ := out
          obtain ⟨p, rfl, -, -⟩ := unescapeChar_eq_some hchar
          simp only [toCrlf_append, length_append] at hfuel hfuel'
          dsimp only [map_some]
          rw [ih (by omega) (by omega), Option.map_map, Option.map_map]
          rfl
      · have hstep : ∀ (f : ℕ) (cp : List Char), unescapeLoop (f + 1) (c :: cp) =
            (unescapeLoop f cp).map fun out => (c :: out.1, out.2) := by
          intro f cp
          rw [unescapeLoop]
          · exact hn
          · exact hq
          · exact hb
        rw [hstep, hstep, ih (by omega) (by omega), Option.map_map, Option.map_map]
        rfl

/-- **A quoted string is read alike.** -/
lemma unescapeString_toCrlf (s : List Char) :
    unescapeString (toCrlf s) = (unescapeString s).map fun out => (out.1, toCrlf out.2) := by
  cases s with
  | nil => rfl
  | cons c s =>
    by_cases hn : c = '\n'
    · subst hn
      rfl
    rw [toCrlf_cons hn]
    by_cases hq : c = '"'
    · subst hq
      exact unescapeLoop_toCrlf (Nat.lt_succ_self _) (Nat.lt_succ_self _)
    · have hnone : ∀ cp, unescapeString (c :: cp) = none := by
        intro cp
        unfold unescapeString
        split <;> simp_all
      rw [hnone, hnone]
      rfl

/-- Behind a quoted string: the CRLF that a LF becomes is skipped with the line end, and the next
line starts with something else than a comment; or the one that it had becomes CR CR LF. -/
def isSpoiled (rest : List Char) : Bool :=
  match rest.dropWhile isBlank with
  | '\n' :: tail => tail ≠ [] ∧ tail.head? ≠ some '#'
  | '\r' :: '\n' :: tail => tail = [] ∨ tail.head? = some '#' ∨ tail.head? = some '\n'
  | _ => false

/-- Nothing, a comment or a line end. -/
def isLineRest (line : List Char) : Bool := line.head?.all fun c => c = '#' ∨ c = '\n'

lemma afterQuoted_eq (s : List Char) :
    afterQuoted s = if isLineRest (skipReturn (s.dropWhile isBlank)) then
      some (skipReturn (s.dropWhile isBlank)) else none := by
  unfold afterQuoted isLineRest
  dsimp only
  cases (skipReturn (s.dropWhile isBlank)).head? <;> simp

lemma isLineRest_toCrlf (hs : s.head? ≠ some '\n') : isLineRest (toCrlf s) = isLineRest s := by
  cases s with
  | nil => rfl
  | cons c s =>
    rw [toCrlf_cons (by simpa using hs)]
    rfl

/-- **What stands behind a quoted string is read alike, unless the CRLF behind it is skipped and
the next line taken for the rest of this one.** -/
lemma afterQuoted_toCrlf (s : List Char) :
    (afterQuoted (toCrlf s)).isSome = ((afterQuoted s).isSome && !isSpoiled s) := by
  have hsome : ∀ s, (afterQuoted s).isSome = isLineRest (skipReturn (s.dropWhile isBlank)) := by
    intro s
    rw [afterQuoted_eq]
    split <;> simp_all
  rw [hsome, hsome, isSpoiled, dropWhile_isBlank_toCrlf]
  have hskip : ∀ d b, d ≠ '\r' → skipReturn (d :: b) = d :: b := by
    intro d b hd
    unfold skipReturn
    split <;> simp_all
  cases s.dropWhile isBlank with
  | nil => rfl
  | cons c b =>
    by_cases hn : c = '\n'
    · subst hn
      rw [toCrlf_newline, hskip '\n' b (by decide)]
      change isLineRest (toCrlf b) = _
      cases b with
      | nil => rfl
      | cons d b =>
        by_cases hd : d = '\n'
        · subst hd
          rfl
        · rw [isLineRest_toCrlf (by simpa using hd)]
          simp [isLineRest, hd]
    rw [toCrlf_cons hn]
    by_cases hr : c = '\r'
    · subst hr
      cases b with
      | nil => rfl
      | cons d b =>
        by_cases hd : d = '\n'
        · subst hd
          change false = (isLineRest b && _)
          cases b with
          | nil => rfl
          | cons e b =>
            have hline : isLineRest (e :: b) = decide (e = '#' ∨ e = '\n') := rfl
            by_cases he : e = '#' ∨ e = '\n'
            · rcases he with rfl | rfl
              · rfl
              · rfl
            · rw [hline, decide_eq_false he, Bool.false_and]
        · rw [toCrlf_cons hd]
          have hline : ∀ b, skipReturn ('\r' :: d :: b) = d :: b := by
            intro b
            unfold skipReturn
            split <;> simp_all
          simp [hline, isLineRest, hd]
    · rw [hskip _ _ hr, hskip _ _ hr]
      simp [isLineRest, hn, hr]

lemma skipToKeyword_afterQuoted (h : afterQuoted s = some rest) :
    skipToKeyword false rest = skipToKeyword false s := by
  have hspace : isCSpace '\r' = true ∧ isCSpace '\n' = true := by decide
  have hblank : ∀ s, skipToKeyword false (s.dropWhile isBlank) = skipToKeyword false s := by
    intro s
    induction s with
    | nil => rfl
    | cons c s ih =>
      rw [dropWhile_cons]
      split
      · next hc =>
          have hc' : isCSpace c = true := by
            simp only [isBlank, decide_eq_true_eq] at hc
            rcases hc with rfl | rfl <;> decide
          rw [ih, skipToKeyword, if_pos hc']
      · rfl
  have hreturn : ∀ s, skipToKeyword false (skipReturn s) = skipToKeyword false s := by
    intro s
    unfold skipReturn
    split <;> simp [skipToKeyword, hspace]
  rw [afterQuoted_eq] at h
  split at h
  · obtain rfl := some.inj h
    rw [hreturn, hblank]
  · cases h

/-! ## Values that are not quoted -/

lemma valueEnd_cons (hn : c ≠ '\n') (hc : c ≠ '#') (hb : ¬ (c = '\\' ∧ line.head? = some '\n')) :
    valueEnd false false (c :: line) =
      (c :: (valueEnd false false line).1, (valueEnd false false line).2) := by
  rw [valueEnd]
  · rw [if_neg (by simp [hn, hc]), decide_eq_false hc]
  · rintro tail rfl rfl
    exact hb ⟨rfl, rfl⟩

/-- **A value without continuations is read alike, except for the CR at its end.** -/
lemma valueEnd_toCrlf (h : (valueEnd false false v).2.1 = false) :
    ∃ cr line, valueEnd false false (toCrlf v) = ((valueEnd false false v).1 ++ cr, false, line) ∧
      (cr = [] ∨ cr = ['\r']) ∧
      skipNewline line = toCrlf (skipNewline (valueEnd false false v).2.2) := by
  induction v with
  | nil => exact ⟨[], [], rfl, .inl rfl, rfl⟩
  | cons c v ih =>
    by_cases hn : c = '\n'
    · subst hn
      exact ⟨['\r'], '\n' :: toCrlf v, rfl, .inr rfl, rfl⟩
    rw [toCrlf_cons hn]
    by_cases hc : c = '#'
    · subst hc
      exact ⟨[], '#' :: toCrlf v, rfl, .inl rfl, rfl⟩
    by_cases hb : c = '\\' ∧ v.head? = some '\n'
    · obtain ⟨rfl, hv⟩ := hb
      obtain ⟨v, rfl⟩ := head?_eq_some_iff.mp hv
      rw [valueEnd] at h
      have hseen : (valueEnd false true v).2.1 = true := valueEnd_flag rfl
      rw [h] at hseen
      cases hseen
    · have hb' : ¬ (c = '\\' ∧ (toCrlf v).head? = some '\n') := by
        rintro ⟨-, hhead⟩
        cases v with
        | nil => cases hhead
        | cons d v =>
          by_cases hd : d = '\n'
          · subst hd
            cases hhead
          · rw [toCrlf_cons hd] at hhead
            exact hd (some.inj hhead)
      rw [valueEnd_cons hn hc hb] at h ⊢
      obtain ⟨cr, line, heq, hcr, hline⟩ := ih h
      exact ⟨cr, line, by rw [valueEnd_cons hn hc hb', heq]; rfl, hcr, hline⟩

/-! ## One line -/

/-- Where the value of a line starts. -/
def valueOf (line : List Char) : List Char := (line.drop (keywordOf line).length).dropWhile isBlank

/-- A line with a value that is not quoted and goes on behind a backslash. -/
def hasContinuation (line : List Char) : Bool :=
  (valueOf line).head? ≠ some '"' ∧ (valueEnd false false (valueOf line)).2.1

/-- A line with a quoted string that is read of it with LF and not with CRLF. -/
def isSpoiledLine (line : List Char) : Bool :=
  (valueOf line).head? = some '"' ∧ (unescapeString (valueOf line)).any fun out => isSpoiled out.2

/-- A line with more than a comment behind a quoted string. -/
def hasExcess (line : List Char) : Bool :=
  (valueOf line).head? = some '"' ∧
    (unescapeString (valueOf line)).any fun out => (afterQuoted out.2).isNone

/-- The message for such a line. -/
def excessMessage : List Char := "Excess data after quoted string".toList

lemma keywordOf_toCrlf_of_hasContinuation (h : hasContinuation line = false) :
    keywordOf (toCrlf line) = keywordOf line := by
  refine keywordOf_toCrlf fun r hr => ?_
  have hvalue : valueOf line = '\\' :: '\n' :: r := by
    rw [valueOf, hr]
    rfl
  have hseen : (valueEnd false false ('\\' :: '\n' :: r)).2.1 = true := by
    rw [valueEnd]
    exact valueEnd_flag rfl
  rw [hasContinuation, hvalue, hseen] at h
  simp at h

lemma valueOf_toCrlf (h : hasContinuation line = false) :
    valueOf (toCrlf line) = toCrlf (valueOf line) := by
  have hkey := keywordOf_prefix line
  rw [valueOf, keywordOf_toCrlf_of_hasContinuation h,
    toCrlf_drop hkey (newline_notMem_keywordOf line), dropWhile_isBlank_toCrlf]
  rfl

lemma skipToKeyword_skipAfterValue (line : List Char) :
    skipToKeyword false (skipAfterValue line) = skipToKeyword false line := by
  have hspaces : ∀ s, skipToKeyword false (s.dropWhile isCSpace) = skipToKeyword false s := by
    intro s
    induction s with
    | nil => rfl
    | cons c s ih =>
      rw [dropWhile_cons]
      split
      · next hc => rw [ih, skipToKeyword, if_pos hc]
      · rfl
  have hcomment : ∀ s, skipToKeyword false (toLineEnd s) = skipToKeyword true s := by
    have hnewline : isCSpace '\n' = true := by decide
    intro s
    rw [toLineEnd]
    induction s with
    | nil => rfl
    | cons c s ih =>
      by_cases hn : c = '\n'
      · simp [hn, skipToKeyword, hnewline]
      · simpa [hn, skipToKeyword] using ih
  rw [skipAfterValue, hspaces]
  split
  · next h =>
      obtain ⟨tail, rfl⟩ := head?_eq_some_iff.mp h
      have hhash : isCSpace '#' = false := by decide
      rw [hcomment]
      simp [skipToKeyword, hhash]
  · rfl

/-- **A quoted value**: an error of both, or the same string. -/
lemma parseValue_toCrlf_quoted (hquote : v.head? = some '"')
    (hs : (unescapeString v).any (fun out => isSpoiled out.2) = false) :
    (∃ msg, parseValue v = .error msg ∧ parseValue (toCrlf v) = .error msg) ∨
      ∃ value line line', parseValue v = .ok (value, line) ∧
        parseValue (toCrlf v) = .ok (value, line') ∧
        skipToKeyword false line' = toCrlf (skipToKeyword false line) := by
  have hquote' : (toCrlf v).head? = some '"' := (head?_toCrlf (by decide) (by decide)).mpr hquote
  simp only [parseValue, if_pos hquote, if_pos hquote', unescapeString_toCrlf]
  cases hstring : unescapeString v with
  | none => exact .inl ⟨_, rfl, rfl⟩
  | some out =>
    obtain ⟨value, r⟩ := out
    rw [hstring] at hs
    have hafter := afterQuoted_toCrlf r
    rw [show isSpoiled r = false from hs, Bool.not_false, Bool.and_true] at hafter
    dsimp only [map_some]
    cases hline : afterQuoted r with
    | none =>
      rw [hline] at hafter
      rw [isSome_eq_false_iff.mp hafter |> isNone_iff_eq_none.mp]
      exact .inl ⟨_, rfl, rfl⟩
    | some line =>
      rw [hline] at hafter
      obtain ⟨line', hline'⟩ := isSome_iff_exists.mp hafter
      rw [hline']
      refine .inr ⟨value, line, line', rfl, rfl, ?_⟩
      rw [skipToKeyword_afterQuoted hline', skipToKeyword_afterQuoted hline, skipToKeyword_toCrlf]

lemma parseValue_toCrlf_spoiled (hquote : v.head? = some '"')
    (hs : (unescapeString v).any (fun out => isSpoiled out.2) = true) :
    parseValue (toCrlf v) = .error excessMessage := by
  have hquote' : (toCrlf v).head? = some '"' := (head?_toCrlf (by decide) (by decide)).mpr hquote
  obtain ⟨⟨value, r⟩, hstring, hr⟩ := (any_eq_true _ _).mp hs
  have hafter := afterQuoted_toCrlf r
  rw [hr, Bool.not_true, Bool.and_false] at hafter
  rw [parseValue, if_pos hquote', unescapeString_toCrlf, hstring]
  dsimp only [map_some]
  rw [isNone_iff_eq_none.mp (isSome_eq_false_iff.mp hafter)]
  rfl

lemma parseValue_bare (hquote : v.head? ≠ some '"') :
    parseValue v = .ok
      (if (valueEnd false false v).2.1 then
        decodeContinuation false ((valueEnd false false v).1.rdropWhile isCSpace)
      else (valueEnd false false v).1.rdropWhile isCSpace,
      skipNewline (valueEnd false false v).2.2) := by
  rw [parseValue, if_neg hquote]

/-- **A value that is not quoted.** -/
lemma parseValue_toCrlf_bare (hquote : v.head? ≠ some '"')
    (hv : (valueEnd false false v).2.1 = false) :
    ∃ value line line', parseValue v = .ok (value, line) ∧
      parseValue (toCrlf v) = .ok (value, line') ∧
      skipToKeyword false line' = toCrlf (skipToKeyword false line) := by
  have hquote' : (toCrlf v).head? ≠ some '"' :=
    (head?_toCrlf (by decide) (by decide)).not.mpr hquote
  obtain ⟨cr, line, hend, hcr, hline⟩ := valueEnd_toCrlf hv
  have htrim : ((valueEnd false false v).1 ++ cr).rdropWhile isCSpace =
      (valueEnd false false v).1.rdropWhile isCSpace := by
    rcases hcr with rfl | rfl
    · rw [append_nil]
    · exact rdropWhile_concat_pos _ _ _ (by decide)
  refine ⟨(valueEnd false false v).1.rdropWhile isCSpace, skipNewline (valueEnd false false v).2.2,
    skipNewline line, ?_, ?_, ?_⟩
  · rw [parseValue_bare hquote, hv]
    rfl
  · rw [parseValue_bare hquote', hend, ← htrim]
    rfl
  · rw [hline, skipToKeyword_toCrlf]

lemma parseConfigLine_eq (h : skipToKeyword false s = line) (hne : line ≠ []) :
    parseConfigLine s = match parseValue (valueOf line) with
      | .error msg => .error msg
      | .ok (value, rest) => .ok (some (keywordOf line, value), skipAfterValue rest) := by
  rw [parseConfigLine, h]
  split
  · exact absurd rfl hne
  · rfl

lemma parseConfigLine_nil (h : skipToKeyword false s = []) :
    parseConfigLine s = .ok (none, []) := by
  rw [parseConfigLine, h]

lemma skipToKeyword_ne_nil (h : parseConfigLine s ≠ .ok (none, [])) :
    skipToKeyword false s ≠ [] :=
  fun hnil => h (parseConfigLine_nil hnil)

/-- **A line that is not spoiled**: an error of both, or the same key and value, and the same
keyword next. -/
lemma parseConfigLine_toCrlf (hs : skipToKeyword false s = line) (hne : line ≠ [])
    (ht : skipToKeyword false t = toCrlf line) (hcont : hasContinuation line = false)
    (hspoiled : isSpoiledLine line = false) :
    (∃ msg, parseConfigLine s = .error msg ∧ parseConfigLine t = .error msg) ∨
      ∃ kv rest rest', parseConfigLine s = .ok (some kv, rest) ∧
        parseConfigLine t = .ok (some kv, rest') ∧
        skipToKeyword false rest' = toCrlf (skipToKeyword false rest) := by
  rw [parseConfigLine_eq hs hne, parseConfigLine_eq ht (by simpa using hne), valueOf_toCrlf hcont,
    keywordOf_toCrlf_of_hasContinuation hcont]
  have hvalue : (∃ msg, parseValue (valueOf line) = .error msg ∧
      parseValue (toCrlf (valueOf line)) = .error msg) ∨
      ∃ value rest rest', parseValue (valueOf line) = .ok (value, rest) ∧
        parseValue (toCrlf (valueOf line)) = .ok (value, rest') ∧
        skipToKeyword false rest' = toCrlf (skipToKeyword false rest) := by
    by_cases hquote : (valueOf line).head? = some '"'
    · refine parseValue_toCrlf_quoted hquote ?_
      simpa [isSpoiledLine, hquote] using hspoiled
    · refine .inr (parseValue_toCrlf_bare hquote ?_)
      simpa [hasContinuation, hquote] using hcont
  rcases hvalue with ⟨msg, h, h'⟩ | ⟨value, rest, rest', h, h', hrest⟩
  · exact .inl ⟨msg, by rw [h], by rw [h']⟩
  · refine .inr ⟨(keywordOf line, value), skipAfterValue rest, skipAfterValue rest',
      by rw [h], by rw [h'], ?_⟩
    rw [skipToKeyword_skipAfterValue, skipToKeyword_skipAfterValue, hrest]

/-- **A line that is spoiled** is an error with CRLF. -/
lemma parseConfigLine_toCrlf_spoiled (ht : skipToKeyword false t = toCrlf line) (hne : line ≠ [])
    (hcont : hasContinuation line = false) (hspoiled : isSpoiledLine line = true) :
    parseConfigLine t = .error excessMessage := by
  rw [isSpoiledLine, decide_eq_true_eq] at hspoiled
  rw [parseConfigLine_eq ht (by simpa using hne), valueOf_toCrlf hcont,
    parseValue_toCrlf_spoiled hspoiled.1 hspoiled.2]

lemma parseConfigLine_eq_excess (hs : skipToKeyword false s = line) (hne : line ≠ []) :
    parseConfigLine s = .error excessMessage ↔ hasExcess line = true := by
  have hescape : "Invalid escape sequence in quoted string".toList ≠ excessMessage := by
    exact fun h => absurd (String.toList_inj.mp h) (by decide)
  rw [parseConfigLine_eq hs hne, hasExcess]
  by_cases hquote : (valueOf line).head? = some '"'
  · rw [parseValue, if_pos hquote]
    cases hstring : unescapeString (valueOf line) with
    | none => exact iff_of_false (fun h => hescape (Except.error.inj h)) (by simp)
    | some out =>
      obtain ⟨value, r⟩ := out
      dsimp only
      cases hafter : afterQuoted r with
      | none => exact iff_of_true rfl (by simp [hquote, hafter])
      | some rest => exact iff_of_false (by rintro ⟨⟩) (by simp [hafter])
  · rw [parseValue_bare hquote]
    exact iff_of_false (by rintro ⟨⟩) (by simp [hquote])

/-! ## All lines -/

/-- The lines that are read of a text, each from its keyword on, up to one that is an error. -/
def reachedLines (string : List Char) : List (List Char) :=
  match _h : parseConfigLine string with
  | .error _ => [skipToKeyword false string]
  | .ok (none, _) => []
  | .ok (some _, rest) => skipToKeyword false string :: reachedLines rest
termination_by string.length
decreasing_by exact parseConfigLine_length _h

lemma reachedLines_cons {kv : List Char × List Char} (h : parseConfigLine s = .ok (some kv, rest)) :
    reachedLines s = skipToKeyword false s :: reachedLines rest := by
  rw [reachedLines]
  split <;> simp_all

lemma configGetLines_error {msg : List Char} (h : parseConfigLine s = .error msg) :
    configGetLines extended s = .error msg := by
  rw [configGetLines]
  split <;> simp_all

lemma configGetLines_nil (h : parseConfigLine s = .ok (none, rest)) :
    configGetLines extended s = .ok [] := by
  rw [configGetLines]
  split <;> simp_all

lemma configGetLines_cons {kv : List Char × List Char}
    (h : parseConfigLine s = .ok (some kv, rest)) :
    configGetLines extended s =
      (configGetLines extended rest).map fun lines => configLineOf extended kv :: lines := by
  conv_lhs => rw [configGetLines]
  split
  · simp_all
  · simp_all
  · next kv' rest' h' =>
      rw [h] at h'
      obtain ⟨heq, rfl⟩ := Prod.mk.inj (Except.ok.inj h')
      obtain rfl := some.inj heq
      split
      · next hnil =>
          rw [hnil, configGetLines_nil (parseConfigLine_nil rfl)]
          rfl
      · cases configGetLines extended rest <;> rfl

/-- **With CRLF a text is read as it is, up to the first line that is spoiled.** -/
lemma configGetLines_toCrlf (ht : skipToKeyword false t = toCrlf (skipToKeyword false s))
    (hcont : ∀ line ∈ reachedLines s, hasContinuation line = false) :
    configGetLines extended t =
      if (reachedLines s).any isSpoiledLine then .error excessMessage
      else configGetLines extended s := by
  fun_induction reachedLines s generalizing t with
  | case1 s msg h =>
    have hne := skipToKeyword_ne_nil (by rw [h]; rintro ⟨⟩)
    have hline := hcont _ (mem_singleton_self _)
    rw [any_cons, any_nil, Bool.or_false]
    cases hspoiled : isSpoiledLine (skipToKeyword false s) with
    | true =>
      rw [if_pos rfl]
      exact configGetLines_error (parseConfigLine_toCrlf_spoiled ht hne hline hspoiled)
    | false =>
      rw [if_neg Bool.false_ne_true]
      rcases parseConfigLine_toCrlf rfl hne ht hline hspoiled with
        ⟨msg', hs, ht'⟩ | ⟨kv, rest, rest', hs, -⟩
      · rw [configGetLines_error hs, configGetLines_error ht']
      · rw [hs] at h
        cases h
  | case2 s rest h =>
    have hnil : skipToKeyword false s = [] := by
      by_contra hne
      rw [parseConfigLine_eq rfl hne] at h
      split at h <;> cases h
    rw [hnil] at ht
    rw [any_nil, if_neg Bool.false_ne_true, configGetLines_nil (parseConfigLine_nil ht),
      configGetLines_nil h]
  | case3 s kv rest h ih =>
    have hne := skipToKeyword_ne_nil (by rw [h]; rintro ⟨⟩)
    have hline := hcont _ mem_cons_self
    rw [any_cons]
    cases hspoiled : isSpoiledLine (skipToKeyword false s) with
    | true =>
      exact configGetLines_error (parseConfigLine_toCrlf_spoiled ht hne hline hspoiled)
    | false =>
      rw [Bool.false_or]
      rcases parseConfigLine_toCrlf rfl hne ht hline hspoiled with
        ⟨msg, hs, -⟩ | ⟨kv', rest₁, rest', hs, ht', hrest⟩
      · rw [hs] at h
        cases h
      · rw [h] at hs
        obtain ⟨hkv, rfl⟩ := Prod.mk.inj (Except.ok.inj hs)
        obtain rfl := some.inj hkv
        rw [configGetLines_cons ht', configGetLines_cons h,
          ih hrest fun line hline => hcont line (mem_cons_of_mem _ hline)]
        split <;> rfl

lemma configGetLines_eq_excess :
    configGetLines extended s = .error excessMessage ↔ ∃ line ∈ reachedLines s, hasExcess line := by
  fun_induction reachedLines s with
  | case1 s msg h =>
    have hne := skipToKeyword_ne_nil (by rw [h]; rintro ⟨⟩)
    have hexcess := parseConfigLine_eq_excess rfl hne
    rw [h, Except.error.injEq] at hexcess
    rw [configGetLines_error h, Except.error.injEq, hexcess]
    simp
  | case2 s rest h =>
    rw [configGetLines_nil h]
    exact iff_of_false (by rintro ⟨⟩) (by simp)
  | case3 s kv rest h ih =>
    have hne := skipToKeyword_ne_nil (by rw [h]; rintro ⟨⟩)
    have hline : ¬ hasExcess (skipToKeyword false s) = true := by
      rw [← parseConfigLine_eq_excess rfl hne, h]
      rintro ⟨⟩
    rw [configGetLines_cons h, exists_mem_cons_iff, or_iff_right hline, ← ih]
    cases configGetLines extended rest <;> simp [Except.map]

/-- **Line ends matter exactly where a quoted string is spoiled by CRLF**, in a text without
continuations and without excess data. -/
theorem configGetLines_toCrlf_iff (extended : Bool) (text : List Char)
    (hcont : ∀ line ∈ reachedLines text, hasContinuation line = false) :
    configGetLines extended (toCrlf text) = configGetLines extended text ↔
      (∀ line ∈ reachedLines text, isSpoiledLine line = false) ∨
        ∃ line ∈ reachedLines text, hasExcess line := by
  rw [configGetLines_toCrlf (skipToKeyword_toCrlf false text) hcont]
  by_cases hspoiled : (reachedLines text).any isSpoiledLine
  · rw [if_pos hspoiled, eq_comm, configGetLines_eq_excess]
    refine ⟨.inr, fun h => h.resolve_left fun hnone => ?_⟩
    obtain ⟨line, hline, htrue⟩ := any_eq_true.mp hspoiled
    rw [hnone line hline] at htrue
    cases htrue
  · rw [if_neg hspoiled]
    simp only [Bool.not_eq_true, List.any_eq_false] at hspoiled
    exact iff_of_true rfl (.inl hspoiled)

/-- A quoted value on the last line. -/
def quotedLast : List Char := "B y\nA \"x\"\n".toList

/-- A quoted value and a line behind it. -/
def quotedFirst : List Char := "A \"x\"\nB y\n".toList

lemma parseConfigLine_quotedFirst :
    parseConfigLine quotedFirst = .ok (some ("A".toList, "x".toList), "B y\n".toList) ∧
      parseConfigLine "B y\n".toList = .ok (some ("B".toList, "y".toList), []) :=
  ⟨rfl, rfl⟩

lemma parseConfigLine_quotedLast :
    parseConfigLine quotedLast = .ok (some ("B".toList, "y".toList), "A \"x\"\n".toList) ∧
      parseConfigLine "A \"x\"\n".toList = .ok (some ("A".toList, "x".toList), []) :=
  ⟨rfl, rfl⟩

lemma reachedLines_nil : reachedLines [] = [] := by
  rw [reachedLines]
  rfl

lemma reachedLines_quotedLast : reachedLines quotedLast = [quotedLast, "A \"x\"\n".toList] := by
  rw [reachedLines_cons parseConfigLine_quotedLast.1,
    reachedLines_cons parseConfigLine_quotedLast.2, reachedLines_nil]
  rfl

lemma reachedLines_quotedFirst : reachedLines quotedFirst = [quotedFirst, "B y\n".toList] := by
  rw [reachedLines_cons parseConfigLine_quotedFirst.1,
    reachedLines_cons parseConfigLine_quotedFirst.2, reachedLines_nil]
  rfl

/-- A quoted value on the last line is read alike. -/
theorem configGetLines_toCrlf_quotedLast :
    configGetLines false (toCrlf quotedLast) = configGetLines false quotedLast := by
  have hall : ∀ p : List Char → Bool, p quotedLast = false → p "A \"x\"\n".toList = false →
      ∀ line ∈ reachedLines quotedLast, p line = false := by
    intro p h h'
    rw [reachedLines_quotedLast]
    exact forall_mem_cons.mpr ⟨h, forall_mem_singleton.mpr h'⟩
  have hcont := hall hasContinuation (by decide) (by decide)
  exact (configGetLines_toCrlf_iff false quotedLast hcont).mpr
    (.inl (hall isSpoiledLine (by decide) (by decide)))

/-- **Not every text is read alike**: with CRLF, the line behind a quoted value is taken for the
rest of its line. -/
theorem configGetLines_toCrlf_fails :
    ¬ ∀ (extended : Bool) (text : List Char),
      (∀ line ∈ reachedLines text, hasContinuation line = false) →
        configGetLines extended (toCrlf text) = configGetLines extended text := by
  intro h
  have hcont : ∀ line ∈ reachedLines quotedFirst, hasContinuation line = false := by
    rw [reachedLines_quotedFirst]
    decide
  have heq := h false quotedFirst hcont
  have hcrlf : parseConfigLine (toCrlf quotedFirst) = .error excessMessage := rfl
  rw [configGetLines_error hcrlf, configGetLines_cons parseConfigLine_quotedFirst.1,
    configGetLines_cons parseConfigLine_quotedFirst.2,
    configGetLines_nil (parseConfigLine_nil rfl)] at heq
  cases heq

end Ator.Text
