import AtorProtocol.Encoding.Binascii
import Mathlib.Tactic.FinCases

/-!
# Quoted strings

`esc_for_log` of `src/lib/log/escape.c` writes a C string literal, and `unescape_string` of
`src/lib/encoding/cstring.c` reads one.

* `unescapeString_escForLog` — a string is read back as it was written.
-/

namespace Ator.Text

open List Option

def torIsprint (c : Char) : Bool := 32 ≤ c.toNat ∧ c.toNat < 127

def torIsodigit (c : Char) : Bool := '0' ≤ c ∧ c ≤ '7'

/-- A digit below eight. -/
def octalDigit (n : ℕ) : Char := Char.ofNat ('0'.toNat + n)

/-- What `esc_for_log` writes for a character. -/
def escChar (c : Char) : List Char :=
  if c = '\\' ∨ c = '"' ∨ c = '\'' then ['\\', c]
  else if c = '\n' then ['\\', 'n']
  else if c = '\t' then ['\\', 't']
  else if c = '\r' then ['\\', 'r']
  else if torIsprint c then [c]
  else
    ['\\', octalDigit (c.toNat / 64 % 8), octalDigit (c.toNat / 8 % 8), octalDigit (c.toNat % 8)]

def escForLog (s : List Char) : List Char := '"' :: (s.flatMap escChar ++ ['"'])

/-- What follows a backslash in a quoted string: the character, and the rest. -/
def unescapeChar : List Char → Option (Char × List Char)
  | 'x' :: a :: b :: cp | 'X' :: a :: b :: cp =>
    match hexDecodeDigit a, hexDecodeDigit b with
    | some x1, some x2 => some (Char.ofNat (x1 <<< 4 + x2), cp)
    | _, _ => none
  | 'n' :: cp => some ('\n', cp)
  | 'r' :: cp => some ('\r', cp)
  | 't' :: cp => some ('\t', cp)
  | '"' :: cp => some ('"', cp)
  | '\\' :: cp => some ('\\', cp)
  | '\'' :: cp => some ('\'', cp)
  | c :: cp =>
    if torIsodigit c then
      let ds := c :: (cp.takeWhile torIsodigit).take 2
      let n := ds.foldl (fun n d => n * 8 + (d.toNat - '0'.toNat)) 0
      if 255 < n then none else some (Char.ofNat n, cp.drop (ds.length - 1))
    else none
  | [] => none

/-- The two loops of `unescape_string` behind the opening quote, the one that checks and the one
that copies; `none` for NULL.  Each step reads a character, so that fuel for the whole string and
its NUL does not run out. -/
def unescapeLoop : ℕ → List Char → Option (List Char × List Char)
  | 0, _ => none
  | _ + 1, [] => none
  | _ + 1, '\n' :: _ => none
  | _ + 1, '"' :: cp => some ([], cp)
  | fuel + 1, '\\' :: cp =>
    match unescapeChar cp with
    | none => none
    | some (c, cp) => (unescapeLoop fuel cp).map fun out => (c :: out.1, out.2)
  | fuel + 1, c :: cp => (unescapeLoop fuel cp).map fun out => (c :: out.1, out.2)

/-- `unescape_string`: the string, and what follows the closing quote. -/
def unescapeString : List Char → Option (List Char × List Char)
  | '"' :: cp => unescapeLoop (cp.length + 1) cp
  | _ => none

variable {s t r out p : List Char} {c : Char} {fuel : ℕ}

/-! ## What is read stands in one line -/

lemma newline_notMem_takeWhile (n : ℕ) : '\n' ∉ (s.takeWhile torIsodigit).take n := by
  intro h
  have := mem_takeWhile_imp (mem_of_mem_take h)
  exact absurd this (by decide)

lemma unescapeChar_eq_some (h : unescapeChar s = some (c, r)) :
    ∃ p, s = p ++ r ∧ p ≠ [] ∧ '\n' ∉ p := by
  unfold unescapeChar at h
  split at h
  case h_1 a b cp | h_2 a b cp =>
    split at h
    · next x1 x2 ha hb =>
        obtain ⟨-, rfl⟩ := Prod.mk.inj (some.inj h)
        refine ⟨[_, a, b], rfl, by simp, ?_⟩
        have hne : ∀ {d : Char} {x : ℕ}, hexDecodeDigit d = some x → '\n' ≠ d := by
          rintro d x hd rfl
          have hnone : hexDecodeDigit '\n' = none := by decide
          rw [hnone] at hd
          cases hd
        simp [hne ha, hne hb]
    · cases h
  case h_9 d cp _ _ _ _ _ _ _ _ =>
    split at h
    · next hd =>
        dsimp only at h
        split at h
        · cases h
        · obtain ⟨-, rfl⟩ := Prod.mk.inj (some.inj h)
          refine ⟨d :: (cp.takeWhile torIsodigit).take 2, ?_, by simp, ?_⟩
          · have hpre : (cp.takeWhile torIsodigit).take 2 <+: cp :=
              ( take_prefix 2 _).trans ( takeWhile_prefix torIsodigit)
            rw [length_cons, Nat.add_sub_cancel, cons_append]
            rw [prefix_iff_eq_append.mp hpre]
          · rw [mem_cons, not_or]
            refine ⟨?_, newline_notMem_takeWhile 2⟩
            rintro rfl
            exact absurd hd (by decide)
    · cases h
  case h_10 => cases h
  all_goals
    obtain ⟨-, rfl⟩ := Prod.mk.inj (some.inj h)
    exact ⟨[_], rfl, by simp, by decide⟩

/-- **What is read is shorter than what was written, which is on one line.** -/
lemma unescapeLoop_eq_some (h : unescapeLoop fuel s = some (out, r)) :
    ∃ p, s = p ++ r ∧ '\n' ∉ p ∧ out.length < p.length := by
  fun_induction unescapeLoop fuel s generalizing out with
  | case1 | case2 | case3 => all_goals cases h
  | case4 fuel cp =>
    obtain ⟨rfl, rfl⟩ := Prod.mk.inj (some.inj h)
    exact ⟨['"'], rfl, by decide, by simp⟩
  | case5 => cases h
  | case6 fuel cp c cp' hc ih =>
    obtain ⟨⟨out', r'⟩, hloop, heq⟩ := map_eq_some_iff.mp h
    obtain ⟨rfl, rfl⟩ := Prod.mk.inj heq
    obtain ⟨p, rfl, hp, hpn⟩ := unescapeChar_eq_some hc
    obtain ⟨q, rfl, hqn, hlen⟩ := ih hloop
    refine ⟨'\\' :: (p ++ q), by simp, by simp [hpn, hqn], ?_⟩
    simp only [length_cons, length_append]
    omega
  | case7 fuel c cp hnl _ _ ih =>
    obtain ⟨⟨out', r'⟩, hloop, heq⟩ := map_eq_some_iff.mp h
    obtain ⟨rfl, rfl⟩ := Prod.mk.inj heq
    obtain ⟨q, rfl, hqn, hlen⟩ := ih hloop
    refine ⟨c :: q, rfl, ?_, by simpa using hlen⟩
    rw [mem_cons, not_or]
    exact ⟨fun h => hnl h.symm, hqn⟩

lemma unescapeString_eq_some (h : unescapeString s = some (out, r)) :
    ∃ p, s = p ++ r ∧ '\n' ∉ p ∧ out.length + 1 < p.length := by
  unfold unescapeString at h
  split at h
  · obtain ⟨p, rfl, hp, hlen⟩ := unescapeLoop_eq_some h
    exact ⟨'"' :: p, rfl, by simp [hp], by simpa using hlen⟩
  · cases h

/-! ## What is read from bytes are bytes -/

lemma toNat_ofNat_of_lt {n : ℕ} (h : n < 256) : (Char.ofNat n).toNat < 256 := by
  rw [Char.ofNat, dif_pos (Or.inl (by omega))]
  exact h

lemma unescapeChar_lt (h : unescapeChar s = some (c, r)) : c.toNat < 256 := by
  unfold unescapeChar at h
  split at h
  case h_1 a b cp | h_2 a b cp =>
    split at h
    · next x1 x2 ha hb =>
        obtain ⟨rfl, -⟩ := Prod.mk.inj (some.inj h)
        refine toNat_ofNat_of_lt ?_
        have ha := hexDecodeDigit_lt ha
        have hb := hexDecodeDigit_lt hb
        rw [Nat.shiftLeft_eq]
        omega
    · cases h
  case h_9 d cp _ _ _ _ _ _ _ _ =>
    split at h
    · dsimp only at h
      split at h
      · cases h
      · next hn =>
          obtain ⟨rfl, -⟩ := Prod.mk.inj (some.inj h)
          exact toNat_ofNat_of_lt (by omega)
    · cases h
  case h_10 => cases h
  all_goals
    obtain ⟨rfl, -⟩ := Prod.mk.inj (some.inj h)
    decide

lemma unescapeLoop_lt (h : unescapeLoop fuel s = some (out, r)) (hs : ∀ d ∈ s, d.toNat < 256) :
    ∀ d ∈ out, d.toNat < 256 := by
  fun_induction unescapeLoop fuel s generalizing out with
  | case1 | case2 | case3 => all_goals cases h
  | case4 fuel cp =>
    obtain ⟨rfl, rfl⟩ := Prod.mk.inj (some.inj h)
    simp
  | case5 => cases h
  | case6 fuel cp c cp' hc ih =>
    obtain ⟨⟨out', r'⟩, hloop, heq⟩ := map_eq_some_iff.mp h
    obtain ⟨rfl, rfl⟩ := Prod.mk.inj heq
    obtain ⟨p, rfl, -, -⟩ := unescapeChar_eq_some hc
    have htail := ih hloop fun d hd => hs d (by simp [hd])
    exact forall_mem_cons.mpr ⟨unescapeChar_lt hc, htail⟩
  | case7 fuel c cp _ _ _ ih =>
    obtain ⟨⟨out', r'⟩, hloop, heq⟩ := map_eq_some_iff.mp h
    obtain ⟨rfl, rfl⟩ := Prod.mk.inj heq
    have htail := ih hloop fun d hd => hs d (mem_cons_of_mem c hd)
    exact forall_mem_cons.mpr ⟨hs c mem_cons_self, htail⟩

lemma unescapeString_lt (h : unescapeString s = some (out, r)) (hs : ∀ d ∈ s, d.toNat < 256) :
    ∀ d ∈ out, d.toNat < 256 := by
  unfold unescapeString at h
  split at h
  · exact unescapeLoop_lt h fun d hd => hs d (mem_cons_of_mem _ hd)
  · cases h

/-! ## What is written is read back -/

lemma torIsodigit_octalDigit (n : Fin 8) : torIsodigit (octalDigit n) = true := by
  revert n
  decide

lemma octalDigit_toNat (n : Fin 8) : (octalDigit n).toNat - '0'.toNat = n := by
  revert n
  decide

lemma unescapeChar_octal {a b d : Fin 8} (h : (a * 8 + b) * 8 + d.val < 256) :
    unescapeChar (octalDigit a :: octalDigit b :: octalDigit d :: s) =
      some (Char.ofNat ((a * 8 + b) * 8 + d), s) := by
  have hdefault : ∀ cp : List Char, unescapeChar (octalDigit a :: cp) =
      if torIsodigit (octalDigit a) then
        let ds := octalDigit a :: (cp.takeWhile torIsodigit).take 2
        let n := ds.foldl (fun n d => n * 8 + (d.toNat - '0'.toNat)) 0
        if 255 < n then none else some (Char.ofNat n, cp.drop (ds.length - 1))
      else none := by
    intro cp
    fin_cases a <;> rfl
  have hds : ((octalDigit b :: octalDigit d :: s).takeWhile torIsodigit).take 2 =
      [octalDigit b, octalDigit d] := by
    rw [takeWhile_cons_of_pos (torIsodigit_octalDigit b),
      takeWhile_cons_of_pos (torIsodigit_octalDigit d)]
    rfl
  rw [hdefault, if_pos (torIsodigit_octalDigit a), hds]
  simp only [foldl_cons, foldl_nil, octalDigit_toNat, Nat.zero_mul, Nat.zero_add]
  rw [if_neg (by omega)]
  rfl

lemma escChar_ne_nil (c : Char) : escChar c ≠ [] := by
  unfold escChar
  split_ifs <;> simp

lemma unescapeLoop_escChar (h0 : 0 < c.toNat) (h255 : c.toNat < 256) :
    unescapeLoop (fuel + 1) (escChar c ++ s) =
      (unescapeLoop fuel s).map fun out => (c :: out.1, out.2) := by
  have hescape : ∀ {p : List Char}, unescapeChar (p ++ s) = some (c, s) →
      unescapeLoop (fuel + 1) ('\\' :: p ++ s) =
        (unescapeLoop fuel s).map fun out => (c :: out.1, out.2) := by
    intro p hp
    rw [cons_append, unescapeLoop, hp]
  unfold escChar
  split_ifs with hquote hn ht hr hprint
  · refine hescape ?_
    rcases hquote with rfl | rfl | rfl <;> rfl
  · exact hescape (by rw [hn]; rfl)
  · exact hescape (by rw [ht]; rfl)
  · exact hescape (by rw [hr]; rfl)
  · rw [not_or, not_or] at hquote
    rw [singleton_append, unescapeLoop]
    · exact hn
    · exact hquote.2.1
    · exact hquote.1
  · refine hescape (p := [_, _, _]) ?_
    have hoctal := @unescapeChar_octal s ⟨c.toNat / 64 % 8, Nat.mod_lt _ (by omega)⟩
      ⟨c.toNat / 8 % 8, Nat.mod_lt _ (by omega)⟩ ⟨c.toNat % 8, Nat.mod_lt _ (by omega)⟩
    have hval : (c.toNat / 64 % 8 * 8 + c.toNat / 8 % 8) * 8 + c.toNat % 8 = c.toNat := by omega
    simp only [hval, Char.ofNat_toNat] at hoctal
    exact hoctal h255

lemma unescapeLoop_flatMap (hs : ∀ c ∈ s, 0 < c.toNat ∧ c.toNat < 256) (hfuel : s.length < fuel) :
    unescapeLoop fuel (s.flatMap escChar ++ '"' :: t) = some (s, t) := by
  induction s generalizing fuel with
  | nil =>
    obtain ⟨fuel, rfl⟩ := Nat.exists_eq_add_of_lt hfuel
    simp [unescapeLoop]
  | cons c s ih =>
    obtain ⟨fuel, rfl⟩ : ∃ f, fuel = f + 1 := ⟨fuel - 1, by omega⟩
    obtain ⟨h0, h255⟩ := hs c mem_cons_self
    rw [flatMap_cons, append_assoc, unescapeLoop_escChar h0 h255,
      ih (fun d hd => hs d (mem_cons_of_mem c hd)) (by simpa using hfuel)]
    rfl

/-- **A string of bytes is read back as it was written.** -/
theorem unescapeString_escForLog (hs : ∀ c ∈ s, 0 < c.toNat ∧ c.toNat < 256) :
    unescapeString (escForLog s ++ t) = some (s, t) := by
  rw [escForLog, cons_append, append_assoc, singleton_append, unescapeString]
  refine unescapeLoop_flatMap hs ?_
  have hlen : s.length ≤ (s.flatMap escChar).length := by
    induction s with
    | nil => simp
    | cons c s ih =>
      have hc := length_pos_iff.mpr (escChar_ne_nil c)
      rw [flatMap_cons, length_append, length_cons]
      have := ih fun d hd => hs d (mem_cons_of_mem c hd)
      omega
  simp only [length_append, length_cons]
  omega

end Ator.Text
