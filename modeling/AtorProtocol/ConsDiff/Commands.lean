import AtorProtocol.ConsDiff.Apply

/-!
# The command lines of a script

* `IsNumber`, `IsCommand` — how a number and a command are written.
* `parseEdCommand_eq_some_iff` — a line is read as a command exactly if it is written so.
-/

namespace Ator.ConsDiff

open Text List Option

/-- The letter that `parseEdCommand` reads the action from. -/
def EdAction.letter : EdAction → Char
  | .a => 'a'
  | .c => 'c'
  | .d => 'd'

/-- The digits of a line number. -/
structure IsNumber (s : List Char) (n : ℕ) : Prop where
  ne_nil : s ≠ []
  digits : ∀ c ∈ s, c.isDigit
  val_eq : digitsVal s = n
  le : n ≤ int32Max

/-- How commands on a document of `len1` lines are written: `3a`, `3,5c`, `3,$d`. -/
inductive IsCommand (len1 : ℕ) : List Char → EdCommand → Prop
  | line {s : List Char} {n : ℕ} (action : EdAction) (hs : IsNumber s n) :
      IsCommand len1 (s ++ [action.letter]) ⟨n, n, action⟩
  | range {s t : List Char} {n m : ℕ} {action : EdAction} (hs : IsNumber s n) (ht : IsNumber t m)
      (hlt : n < m) (haction : action ≠ .a) :
      IsCommand len1 (s ++ ',' :: (t ++ [action.letter])) ⟨n, m, action⟩
  | toEnd {s : List Char} {n : ℕ} (hs : IsNumber s n) (hlt : n < len1) :
      IsCommand len1 (s ++ ",$d".toList) ⟨n, len1, .d⟩

variable {len1 n : ℕ} {line s t rest ptr : List Char} {cmd : EdCommand}

lemma EdAction.isDigit_letter : ∀ action : EdAction, action.letter.isDigit = false
  | .a => rfl
  | .c => rfl
  | .d => rfl

lemma EdAction.letter_ne : ∀ (action : EdAction) {c : Char}, c = ',' ∨ c = Char.ofNat 0 →
    action.letter ≠ c := by
  rintro (_ | _ | _) _ (rfl | rfl) <;> simp [EdAction.letter]

/-! ## Numbers -/

lemma isNumber_decimal (h : n ≤ int32Max) : IsNumber (decimal n) n where
  ne_nil := Nat.toDigits_ne_nil
  digits _ hc := isDigit_of_mem_decimal hc
  val_eq := digitsVal_decimal n
  le := h

lemma IsNumber.getLinenum (hs : IsNumber s n) (ht : ∀ c ∈ t.head?, c.isDigit = false) :
    getLinenum (s ++ t) = some (n, t) := by
  obtain ⟨c, cs, rfl⟩ := exists_cons_of_ne_nil hs.ne_nil
  have hhead : c.isDigit := hs.digits c mem_cons_self
  rw [ConsDiff.getLinenum, if_neg (by simp [hhead]), digitsOf_append hs.digits ht,
    afterDigits_append hs.digits ht, hs.val_eq, if_pos hs.le]

lemma isNumber_of_getLinenum (h : getLinenum line = some (n, rest)) :
    ∃ s, IsNumber s n ∧ line = s ++ rest := by
  rw [getLinenum] at h
  split_ifs at h with hhead hle
  rw [some.injEq, Prod.mk.injEq] at h
  obtain ⟨rfl, rfl⟩ := h
  exact ⟨digitsOf line, ⟨digitsOf_ne_nil hhead, fun c hc => mem_takeWhile_imp hc, rfl,
    hle⟩, takeWhile_append_dropWhile.symm⟩

lemma IsNumber.head_ne_dollar (hs : IsNumber s n) : ∃ c cs, s = c :: cs ∧ c ≠ '$' := by
  obtain ⟨c, cs, rfl⟩ := exists_cons_of_ne_nil hs.ne_nil
  refine ⟨c, cs, rfl, ?_⟩
  rintro rfl
  exact absurd (hs.digits '$' mem_cons_self) (by decide)

/-! ## Ranges -/

lemma IsNumber.parseRange_line (hs : IsNumber s n) (hdigit : ∀ c ∈ ptr.head?, c.isDigit = false)
    (hcomma : ∀ c ∈ ptr.head?, c ≠ ',') :
    parseRange len1 (s ++ ptr) = some (n, n, false, false, ptr) := by
  rw [parseRange, hs.getLinenum hdigit]
  split
  · next h => cases h
  · next h =>
      obtain ⟨rfl, rfl⟩ := Prod.mk.inj (some.inj h)
      simp at hcomma
  · next h =>
      obtain ⟨rfl, rfl⟩ := Prod.mk.inj (some.inj h)
      simp at hcomma
  · next h =>
      obtain ⟨rfl, rfl⟩ := Prod.mk.inj (some.inj h)
      rfl

lemma IsNumber.parseRange_range {m : ℕ} (hs : IsNumber s n) (ht : IsNumber t m) (hlt : n < m)
    (hdigit : ∀ c ∈ ptr.head?, c.isDigit = false) :
    parseRange len1 (s ++ ',' :: (t ++ ptr)) = some (n, m, true, false, ptr) := by
  rw [parseRange, hs.getLinenum (by simp)]
  split
  · next h => cases h
  · next h =>
      obtain ⟨c, cs, rfl, hc⟩ := ht.head_ne_dollar
      simp [hc] at h
  · next start rest _ h =>
      obtain ⟨rfl, hrest⟩ := Prod.mk.inj (some.inj h)
      obtain rfl := (cons.inj hrest).2
      rw [ht.getLinenum hdigit]
      simp [Nat.not_le.mpr hlt]
  · next start rest _ hno h =>
      exact absurd (Prod.mk.inj (some.inj h)).2.symm (hno _)

lemma IsNumber.parseRange_toEnd (hs : IsNumber s n) :
    parseRange len1 (s ++ ',' :: '$' :: ptr)
      = if len1 ≤ n then none else some (n, len1, true, true, ptr) := by
  rw [parseRange, hs.getLinenum (by simp)]
  rfl

/-- How a range that is read is written. -/
inductive IsRange (len1 : ℕ) : List Char → ℕ × ℕ × Bool × Bool × List Char → Prop
  | line {s ptr : List Char} {n : ℕ} (hs : IsNumber s n) :
      IsRange len1 (s ++ ptr) (n, n, false, false, ptr)
  | range {s t ptr : List Char} {n m : ℕ} (hs : IsNumber s n) (ht : IsNumber t m) (hlt : n < m) :
      IsRange len1 (s ++ ',' :: (t ++ ptr)) (n, m, true, false, ptr)
  | toEnd {s ptr : List Char} {n : ℕ} (hs : IsNumber s n) (hlt : n < len1) :
      IsRange len1 (s ++ ',' :: '$' :: ptr) (n, len1, true, true, ptr)

lemma isRange_of_parseRange {range : ℕ × ℕ × Bool × Bool × List Char}
    (h : parseRange len1 line = some range) : IsRange len1 line range := by
  rw [parseRange] at h
  split at h
  · cases h
  · next start ptr hstart =>
      obtain ⟨s, hs, rfl⟩ := isNumber_of_getLinenum hstart
      split_ifs at h with hle
      rw [some.injEq] at h
      subst h
      exact .toEnd hs (by omega)
  · next start ptr _ hstart =>
      obtain ⟨s, hs, rfl⟩ := isNumber_of_getLinenum hstart
      split at h
      · cases h
      · next stop rest hstop =>
          obtain ⟨t, ht, rfl⟩ := isNumber_of_getLinenum hstop
          split_ifs at h with hle
          rw [some.injEq] at h
          subst h
          exact .range hs ht (by omega)
  · next start ptr _ _ hstart =>
      obtain ⟨s, hs, rfl⟩ := isNumber_of_getLinenum hstart
      rw [some.injEq] at h
      subst h
      exact .line hs

/-! ## Commands -/

/-- **A line is read as a command exactly if it is short enough and written so**, up to its first
NUL. -/
theorem parseEdCommand_eq_some_iff :
    parseEdCommand len1 line = some cmd
      ↔ line.length ≤ 127 ∧ IsCommand len1 (beforeDelim (Char.ofNat 0) line) cmd := by
  rw [parseEdCommand]
  constructor
  · intro h
    split_ifs at h with hlong
    refine ⟨by omega, ?_⟩
    split at h
    · cases h
    · next start stop hadRange endWasEof ptr hrange =>
        have hrange := isRange_of_parseRange hrange
        generalize beforeDelim (Char.ofNat 0) line = text at hrange ⊢
        split at h
        · split_ifs at h with hno
          rw [not_or] at hno
          rw [some.injEq] at h
          subst h
          cases hrange with
          | line hs => exact .line .a hs
          | range hs ht hlt => simp at hno
          | toEnd hs hlt => simp at hno
        · split_ifs at h with hno
          rw [some.injEq] at h
          subst h
          cases hrange with
          | line hs => exact .line .c hs
          | range hs ht hlt =>
            have haction : EdAction.c ≠ .a := by simp
            exact .range hs ht hlt haction
          | toEnd hs hlt => simp at hno
        · rw [some.injEq] at h
          subst h
          cases hrange with
          | line hs => exact .line .d hs
          | range hs ht hlt =>
            have haction : EdAction.d ≠ .a := by simp
            exact .range hs ht hlt haction
          | toEnd hs hlt => exact .toEnd hs hlt
        · cases h
  · rintro ⟨hlen, hcommand⟩
    rw [if_neg (by omega)]
    generalize beforeDelim (Char.ofNat 0) line = text at hcommand
    cases hcommand with
    | line action hs =>
      rw [hs.parseRange_line (by simp [action.isDigit_letter])
        (by simp [action.letter_ne (Or.inl rfl)])]
      cases action <;> rfl
    | @range s t n m action hs ht hlt haction =>
      rw [hs.parseRange_range ht hlt (by simp [action.isDigit_letter])]
      cases action with
      | a => exact absurd rfl haction
      | c => rfl
      | d => rfl
    | @toEnd s n hs hlt =>
      have htext : s ++ ",$d".toList = s ++ ',' :: '$' :: ['d'] := rfl
      rw [htext, hs.parseRange_toEnd, if_neg (by omega)]
      rfl

lemma parseEdCommand_of_isCommand (h : IsCommand len1 line cmd) (hlen : line.length ≤ 127)
    (hnul : Char.ofNat 0 ∉ line) : parseEdCommand len1 line = some cmd := by
  rw [parseEdCommand_eq_some_iff, beforeDelim_of_notMem hnul]
  exact ⟨hlen, h⟩

end Ator.ConsDiff
