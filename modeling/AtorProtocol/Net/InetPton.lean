import AtorProtocol.Net.InaddrRoundTrip
import AtorProtocol.Policies.AddrPolicy

/-!
# What `tor_inet_pton` asserts and where it writes

The function of `src/lib/net/inaddr.c` as it runs: `strtol` on the string, the words written in
place, and the gap opened by a `memmove`.

* `torInetPton` — what it returns, or what goes wrong.
* `torInetPton_inet6` — nothing goes wrong, and the words are those of `torInetPton6`.
-/

namespace Ator.Inaddr

open Text List Option
open Policies (afInet afInet6)

/-- What must not happen. -/
inductive PtonFault where
  | assertion
  | outsideWords
deriving DecidableEq

/-- What `tor_inet_pton` returns: -1, 0, or 1 with an address. -/
inductive PtonResult where
  | badFamily
  | malformed
  | inet (addr : InAddr)
  | inet6 (addr : In6Addr)
deriving DecidableEq

/-! ## `strtol` -/

def longMax : ℕ := 2 ^ 63 - 1

/-- The string goes on with `0x` and a digit. -/
def hasHexPrefix (src : List Char) : Bool :=
  src.head? = some '0' ∧ (src.tail.head? = some 'x' ∨ src.tail.head? = some 'X') ∧
    src.tail.tail.head?.any isXDigit

/-- `strtol(src, &next, 16)`, for a string that begins with a digit: the number, which then is not
negative, and `next`. -/
def strtolHex (src : List Char) : ℕ × List Char :=
  let digits := if hasHexPrefix src then src.drop 2 else src
  (min (hexVal (digits.takeWhile isXDigit)) longMax, digits.dropWhile isXDigit)

/-! ## The words -/

/-- `words[i] = w` -/
def setWord (words : List ℕ) (i w : ℕ) : Except PtonFault (List ℕ) :=
  if i < 8 then .ok (words.set i w) else .error .outsideWords

/-- `memmove(&words[dst], &words[src], sizeof(uint16_t)*n)` -/
def memmoveWords (words : List ℕ) (dst src n : ℕ) : Except PtonFault (List ℕ) :=
  if dst + n ≤ 8 ∧ src + n ≤ 8 then
    .ok (words.take dst ++ (words.drop src).take n ++ words.drop (dst + n))
  else .error .outsideWords

/-- `memset(&words[pos], 0, sizeof(uint16_t)*n)` -/
def memsetWords (words : List ℕ) (pos n : ℕ) : Except PtonFault (List ℕ) :=
  if pos + n ≤ 8 then .ok (words.take pos ++ List.replicate n 0 ++ words.drop (pos + n))
  else .error .outsideWords

/-- The variables of the loop. -/
structure PtonState where
  words : List ℕ
  i : ℕ
  setWords : ℕ
  gapPos : Option ℕ

/-- The loop from `src` on, with `afterEow` characters from `eow` on. -/
def ptonScan (afterEow : ℕ) (st : PtonState) (src : List Char) :
    Except PtonFault (Option PtonState) :=
  if src.length ≤ afterEow then .ok (some st)
  else if st.i > 7 then .ok none
  else
    match src with
    | [] => .ok (some st)
    | c :: rest =>
      if isXDigit c then
        let r := (strtolHex (c :: rest)).1
        let next := (strtolHex (c :: rest)).2
        if _h : next.length < (c :: rest).length then
          let len :=
            if next = [] then (c :: rest).length - afterEow else (c :: rest).length - next.length
          if len > 4 then .ok none
          else if len > 1 ∧ ¬rest.head?.any isXDigit then .ok none
          else if ¬r < 65536 then .error .assertion
          else
            match setWord st.words st.i r with
            | .error fault => .error fault
            | .ok words =>
              if next.head? ≠ some ':' ∧ next.length ≠ afterEow then .ok none
              else
                ptonScan afterEow { st with words, i := st.i + 1, setWords := st.setWords + 1 }
                  next.tail
        else .ok none
      else if c = ':' ∧ st.i > 0 ∧ st.gapPos = none then
        ptonScan afterEow { st with gapPos := some st.i } rest
      else if c = ':' ∧ st.i = 0 ∧ rest.length > afterEow ∧ rest.head? = some ':' ∧
          st.gapPos = none then
        ptonScan afterEow { st with gapPos := some st.i } rest.tail
      else .ok none
termination_by src.length
decreasing_by
  · refine Nat.lt_of_le_of_lt ?_ _h
    rw [length_tail]
    exact Nat.sub_le _ _
  · simp
  · simp only [length_tail, length_cons]
    omega

/-- What is done with the words behind the loop. -/
def placeWords (dot : Bool) (st : PtonState) : Except PtonFault (Option (List ℕ)) :=
  if st.setWords > 8 ∨ (st.setWords = 8 ∧ st.gapPos ≠ none) ∨
      (st.setWords < 8 ∧ st.gapPos = none) then .ok none
  else
    match st.gapPos with
    | none => .ok (some st.words)
    | some gapPos =>
      let nToMove : ℤ := st.setWords - (if dot then 2 else 0) - gapPos
      let gapLen := 8 - st.setWords
      if nToMove < 0 then .error .assertion
      else
        match memmoveWords st.words (gapPos + gapLen) gapPos nToMove.toNat with
        | .error fault => .error fault
        | .ok words => (memsetWords words gapPos gapLen).map some

/-- The words of a dotted quad are set first. -/
def presetWords : List ℕ → Except PtonFault (List ℕ)
  | [w6, w7] => (setWord (List.replicate 8 0xf8f8) 6 w6).bind fun words => setWord words 7 w7
  | _ => .ok (List.replicate 8 0xf8f8)

/-- The address that the words are written to. -/
def outOfWords : Option (List ℕ) → Except PtonFault PtonResult
  | none => .ok .malformed
  | some words =>
    match In6Addr.ofWords words with
    | none => .error .outsideWords
    | some addr => .ok (.inet6 addr)

/-- `tor_inet_pton(AF_INET6, src, dst)` -/
def inet6Pton (src : List Char) : Except PtonFault PtonResult :=
  if src.length > 2 ∧ src.getLast? = some ':' ∧ src.dropLast.getLast? ≠ some ':' then .ok .malformed
  else
    match splitQuad src with
    | none => .ok .malformed
    | some (beforeEow, quad) =>
      (presetWords quad).bind fun words =>
        (ptonScan (src.length - beforeEow.length) ⟨words, 0, quad.length, none⟩ src).bind fun st =>
          match st with
          | none => .ok .malformed
          | some st => (placeWords (quad ≠ []) st).bind outOfWords

def torInetPton (af : ℕ) (src : List Char) : Except PtonFault PtonResult :=
  if af = afInet then
    match torInetAton src with
    | none => .ok .malformed
    | some addr => .ok (.inet addr)
  else if af = afInet6 then inet6Pton src
  else .ok .badFamily

/-! ## Nothing goes wrong -/

variable {rest src : List Char} {words init : List ℕ} {gap : Option ℕ} {c : Char} {w q : ℕ}

/-- `eow` is the end of the string or behind a colon. -/
def EndsAt (src rest : List Char) : Prop := rest = [] ∨ src = [] ∨ src.getLast? = some ':'

/-- The variables when `words` are written. -/
def stateOf (init : List ℕ) (quad : ℕ) (words : List ℕ) (gap : Option ℕ) : PtonState :=
  ⟨words ++ init.drop words.length, words.length, quad + words.length, gap⟩

lemma EndsAt.suffix {next : List Char} (h : EndsAt src rest) (hnext : next <:+ src) :
    EndsAt next rest := by
  obtain ⟨front, rfl⟩ := hnext
  rcases h with h | h | h
  · exact .inl h
  · exact .inr (.inl (append_eq_nil_iff.mp h).2)
  · by_cases hne : next = []
    · exact .inr (.inl hne)
    · rw [getLast?_append_of_ne_nil _ hne] at h
      exact .inr (.inr h)

lemma takeWhile_append_of_endsAt (h : EndsAt src rest) (hne : src ≠ []) :
    (src ++ rest).takeWhile isXDigit = src.takeWhile isXDigit ∧
      (src ++ rest).dropWhile isXDigit = src.dropWhile isXDigit ++ rest := by
  rcases h with rfl | h | h
  · rw [append_nil, append_nil]
    exact ⟨rfl, rfl⟩
  · exact absurd h hne
  · obtain ⟨front, rfl⟩ := getLast?_eq_some_iff.mp h
    have hcolon : ':' ∈ front ++ [':'] := by simp
    have hnot : ¬isXDigit ':' = true := by decide
    constructor
    · rw [takeWhile_append, if_neg]
      intro hlen
      have heq := takeWhile_prefix isXDigit |>.eq_of_length hlen
      exact hnot (takeWhile_eq_self_iff.mp heq _ hcolon)
    · rw [dropWhile_append, if_neg]
      intro hnil
      exact hnot (dropWhile_eq_nil_iff.mp (isEmpty_iff.mp hnil) _ hcolon)

lemma hexVal_lt (ds : List Char) : hexVal ds < 16 ^ ds.length := by
  induction ds using reverseRecOn with
  | nil => decide
  | append_singleton ds c ih =>
    have hc : (hexDecodeDigit c).getD 0 < 16 := by
      cases h : hexDecodeDigit c with
      | none => decide
      | some x => exact hexDecodeDigit_lt h
    rw [hexVal, foldl_append, ← hexVal, length_append, length_singleton, pow_succ]
    change hexVal ds * 16 + (hexDecodeDigit c).getD 0 < 16 ^ ds.length * 16
    omega

lemma ptonScan_end {after : ℕ} (st : PtonState) (h : src.length ≤ after) :
    ptonScan after st src = .ok (some st) := by
  rw [ptonScan.eq_def, if_pos h]

lemma ptonScan_full {after : ℕ} {st : PtonState} (h : after < src.length) (hi : st.i > 7) :
    ptonScan after st src = .ok none := by
  rw [ptonScan.eq_def, if_neg (Nat.not_le.mpr h), if_pos hi]

lemma ptonScan_hexPrefix (hc : isXDigit c = true) (hsrc : EndsAt (c :: src) rest)
    (hhex : hasHexPrefix (c :: (src ++ rest)) = true) (st : PtonState) (hi : st.i ≤ 7) :
    ptonScan rest.length st (c :: (src ++ rest)) = .ok none ∧ src.takeWhile isXDigit = [] ∧
      ∃ d next, src.dropWhile isXDigit = d :: next ∧ d ≠ ':' := by
  have hne : src ≠ [] := by
    rintro rfl
    rcases hsrc with rfl | h | h
    · simp [hasHexPrefix] at hhex
    · cases h
    · obtain rfl : c = ':' := by simpa using h
      exact absurd hc (by decide)
  obtain ⟨x, src, rfl⟩ := exists_cons_of_ne_nil hne
  rw [cons_append] at hhex ⊢
  have hparts : c = '0' ∧ (x = 'x' ∨ x = 'X') ∧ (src ++ rest).head?.any isXDigit = true := by
    simpa [hasHexPrefix] using hhex
  obtain ⟨-, hx, hdigit⟩ := hparts
  have hx' : isXDigit x = false ∧ x ≠ ':' := by
    rcases hx with rfl | rfl <;> decide
  have hxneg : ¬isXDigit x = true := by simp [hx'.1]
  refine ⟨?_, takeWhile_cons_of_neg hxneg, x, src, dropWhile_cons_of_neg hxneg, hx'.2⟩
  have hnext : (strtolHex (c :: x :: (src ++ rest))).2 = (src ++ rest).dropWhile isXDigit := by
    rw [strtolHex, hhex]
    rfl
  have hlt : ((src ++ rest).dropWhile isXDigit).length < (src ++ rest).length := by
    cases hcons : src ++ rest with
    | nil => simp [hcons] at hdigit
    | cons d t =>
      have hd : isXDigit d = true := by simpa [hcons] using hdigit
      have hle := (dropWhile_sublist isXDigit (l := t)).length_le
      rw [dropWhile_cons_of_pos hd, length_cons]
      omega
  have hlen : rest.length < (c :: x :: (src ++ rest)).length := by
    rw [length_cons, length_cons, length_append]
    omega
  rw [ptonScan.eq_def, if_neg (Nat.not_le.mpr hlen), if_neg (by omega)]
  simp only [hc, if_true, hnext]
  have hmany : 1 < (if (src ++ rest).dropWhile isXDigit = [] then
      (c :: x :: (src ++ rest)).length - rest.length
      else (c :: x :: (src ++ rest)).length - ((src ++ rest).dropWhile isXDigit).length) := by
    rw [length_cons, length_cons, length_append] at hlen ⊢
    rw [length_append] at hlt
    split <;> omega
  rw [dif_pos (by rw [length_cons, length_cons]; omega)]
  generalize (if (src ++ rest).dropWhile isXDigit = [] then
      (c :: x :: (src ++ rest)).length - rest.length
      else (c :: x :: (src ++ rest)).length - ((src ++ rest).dropWhile isXDigit).length) = len
    at hmany ⊢
  by_cases hfour : len > 4
  · rw [if_pos hfour]
  · rw [if_neg hfour, if_pos ⟨hmany, by simp [hx'.1]⟩]

lemma strtolHex_of_not_prefix (hc : isXDigit c = true) (hsrc : EndsAt (c :: src) rest)
    (hhex : hasHexPrefix (c :: (src ++ rest)) = false) :
    strtolHex (c :: (src ++ rest))
      = (min (hexVal (c :: src.takeWhile isXDigit)) longMax, src.dropWhile isXDigit ++ rest) := by
  have hcut := takeWhile_append_of_endsAt hsrc (cons_ne_nil c src)
  rw [cons_append, takeWhile_cons_of_pos hc, dropWhile_cons_of_pos hc,
    takeWhile_cons_of_pos hc, dropWhile_cons_of_pos hc] at hcut
  rw [strtolHex, hhex, if_neg (by decide), takeWhile_cons_of_pos hc,
    dropWhile_cons_of_pos hc, hcut.1, hcut.2]

lemma setWord_stateOf (hinit : init.length = 8) (hlen : words.length ≤ 7) :
    setWord (words ++ init.drop words.length) words.length w
      = .ok ((words ++ [w]) ++ init.drop (words ++ [w]).length) := by
  have hcons : init.drop words.length = init[words.length] :: init.drop (words.length + 1) :=
    drop_eq_getElem_cons (by omega)
  rw [setWord, if_pos (by omega), hcons, set_append_right _ _ le_rfl, Nat.sub_self, set_cons_zero,
    length_append, length_singleton, append_assoc, singleton_append]

lemma ptonScan_word (hinit : init.length = 8) (hlen : words.length ≤ 7) (hc : isXDigit c = true)
    (hsrc : EndsAt (c :: src) rest) :
    ptonScan rest.length (stateOf init q words gap) (c :: (src ++ rest))
      = if (c :: src.takeWhile isXDigit).length > 4 then .ok none
        else
          match src.dropWhile isXDigit with
          | [] => .ok (some (stateOf init q (words ++ [hexVal (c :: src.takeWhile isXDigit)]) gap))
          | d :: next =>
            if d = ':' then
              ptonScan rest.length
                (stateOf init q (words ++ [hexVal (c :: src.takeWhile isXDigit)]) gap) (next ++ rest)
            else .ok none := by
  cases hhex : hasHexPrefix (c :: (src ++ rest)) with
  | true =>
    obtain ⟨hscan, htake, d, next, hdrop, hd⟩ :=
      ptonScan_hexPrefix hc hsrc hhex (stateOf init q words gap) hlen
    rw [hscan, htake, hdrop, if_neg (by simp)]
    simp only
    rw [if_neg hd]
  | false =>
    have hstrtol := strtolHex_of_not_prefix hc hsrc hhex
    have hcut := congrArg length (takeWhile_append_dropWhile (p := isXDigit) (l := src))
    rw [length_append] at hcut
    have hrest : src.dropWhile isXDigit = [] → rest = [] := by
      intro hnil
      rcases hsrc with h | h | h
      · exact h
      · cases h
      · have hall : ∀ d ∈ c :: src, isXDigit d = true :=
          forall_mem_cons.mpr ⟨hc, dropWhile_eq_nil_iff.mp hnil⟩
        exact absurd (hall ':' (mem_of_getLast? h)) (by decide)
    have hafter : ¬(c :: (src ++ rest)).length ≤ rest.length := by
      rw [length_cons, length_append]
      omega
    have hi : ¬(stateOf init q words gap).i > 7 := Nat.not_lt.mpr hlen
    rw [ptonScan.eq_def, if_neg hafter, if_neg hi]
    simp only [hc, if_true, hstrtol]
    rw [dif_pos (by simp; omega)]
    have hcount : (if src.dropWhile isXDigit ++ rest = [] then
        (c :: (src ++ rest)).length - rest.length
        else (c :: (src ++ rest)).length - (src.dropWhile isXDigit ++ rest).length)
        = (c :: src.takeWhile isXDigit).length := by
      simp only [length_cons, length_append]
      split
      · next hnil =>
          obtain ⟨hdrop, hrest⟩ := append_eq_nil_iff.mp hnil
          rw [hdrop, length_nil] at hcut
          omega
      · omega
    rw [hcount]
    by_cases hfour : (c :: src.takeWhile isXDigit).length > 4
    · rw [if_pos hfour, if_pos hfour]
    · have hsecond : ¬((c :: src.takeWhile isXDigit).length > 1 ∧
          ¬(src ++ rest).head?.any isXDigit = true) := by
        rintro ⟨hmany, hhead⟩
        cases src with
        | nil => simp at hmany
        | cons d src =>
          have hd : ¬isXDigit d = true := hhead
          rw [takeWhile_cons_of_neg hd] at hmany
          exact absurd hmany (by simp)
      have hval : hexVal (c :: src.takeWhile isXDigit) < 65536 :=
        (hexVal_lt _).trans_le (Nat.pow_le_pow_right (by decide) (Nat.not_lt.mp hfour))
      have hmin : min (hexVal (c :: src.takeWhile isXDigit)) longMax
          = hexVal (c :: src.takeWhile isXDigit) := by
        rw [longMax]
        omega
      rw [if_neg hfour, if_neg hfour, if_neg hsecond, hmin, if_neg (not_not.mpr hval)]
      have hset := setWord_stateOf (w := hexVal (c :: src.takeWhile isXDigit)) hinit hlen
      simp only [stateOf, hset]
      cases hdrop : src.dropWhile isXDigit with
      | nil =>
        rw [hrest hdrop, append_nil, if_neg (by simp), ptonScan_end _ (by simp)]
        simp [length_append, Nat.add_assoc]
      | cons d next =>
        have hlong : (d :: next ++ rest).length ≠ rest.length := by
          rw [length_append, length_cons]
          omega
        by_cases hd : d = ':'
        · rw [if_neg (by simp [hd])]
          simp [hd, length_append, Nat.add_assoc]
        · rw [if_pos ⟨by simp [hd], hlong⟩]
          simp only
          rw [if_neg hd]

lemma ptonScan_colon (hlen : words.length ≤ 7) (hc : ¬isXDigit c = true) :
    ptonScan rest.length (stateOf init q words gap) (c :: (src ++ rest))
      = if c = ':' ∧ words ≠ [] ∧ gap = none then
          ptonScan rest.length (stateOf init q words (some words.length)) (src ++ rest)
        else if c = ':' ∧ words = [] ∧ src.head? = some ':' ∧ gap = none then
          ptonScan rest.length (stateOf init q words (some 0)) (src.tail ++ rest)
        else .ok none := by
  have hafter : ¬(c :: (src ++ rest)).length ≤ rest.length := by
    rw [length_cons, length_append]
    omega
  have hi : ¬(stateOf init q words gap).i > 7 := Nat.not_lt.mpr hlen
  rw [ptonScan.eq_def, if_neg hafter, if_neg hi]
  simp only [if_neg hc, stateOf]
  by_cases hwords : words = []
  · subst hwords
    cases src with
    | nil => simp
    | cons d src =>
      have hbefore : rest.length < src.length + rest.length + 1 := by omega
      simp [hbefore]
  · have hpos := length_pos_iff.mpr hwords
    simp [hwords, hpos]

lemma ptonLoop_digit (hfull : ¬words.length > 7) (hc : isXDigit c = true) :
    ptonLoop words gap (c :: src) = if (c :: src.takeWhile isXDigit).length > 4 then none
        else
          match src.dropWhile isXDigit with
          | [] => some (words ++ [hexVal (c :: src.takeWhile isXDigit)], gap)
          | d :: next =>
            if d = ':' then ptonLoop (words ++ [hexVal (c :: src.takeWhile isXDigit)]) gap next
            else none := by
  rw [ptonLoop, if_neg hfull, if_pos hc]
  by_cases hfour : (c :: src.takeWhile isXDigit).length > 4
  · rw [if_pos hfour, if_pos hfour]
  · rw [if_neg hfour, if_neg hfour]
    split
    · next hnil => rw [hnil]
    · next d next hcons => rw [hcons]

/-- **The loop does what `ptonLoop` says**, and nothing goes wrong in it. -/
lemma ptonScan_eq (hinit : init.length = 8) (hlen : words.length ≤ 8) (hsrc : EndsAt src rest) :
    ptonScan rest.length (stateOf init q words gap) (src ++ rest)
      = .ok ((ptonLoop words gap src).map fun r => stateOf init q r.1 r.2) := by
  induction words, gap, src using ptonLoop.induct with
  | case1 words gap =>
    rw [ptonLoop, nil_append, ptonScan_end _ le_rfl]
    rfl
  | case2 words gap c src hfull =>
    have hpast : rest.length < (c :: src ++ rest).length := by
      rw [length_append, length_cons]
      omega
    rw [ptonLoop, if_pos hfull, ptonScan_full hpast hfull]
    rfl
  | case3 words gap c src hfull hc digits hfour =>
    rw [ptonLoop_digit hfull hc, if_pos hfour, cons_append,
      ptonScan_word hinit (by omega) hc hsrc, if_pos hfour]
    rfl
  | case4 words gap c src hfull hc digits hfour hdrop =>
    rw [ptonLoop_digit hfull hc, if_neg hfour, cons_append,
      ptonScan_word hinit (by omega) hc hsrc, if_neg hfour, hdrop]
    rfl
  | case5 words gap c src hfull hc digits hfour next hdrop ih =>
    have hnext : next <:+ c :: src := by
      have hsuffix : ':' :: next <:+ src := hdrop ▸ dropWhile_suffix isXDigit
      exact (suffix_cons ':' next).trans (hsuffix.trans (suffix_cons c src))
    have hlen' : (words ++ [hexVal digits]).length ≤ 8 := by
      rw [length_append, length_singleton]
      omega
    rw [ptonLoop_digit hfull hc, if_neg hfour, cons_append,
      ptonScan_word hinit (by omega) hc hsrc, if_neg hfour, hdrop]
    exact ih hlen' (hsrc.suffix hnext)
  | case6 words gap c src hfull hc digits hfour d next hdrop hd =>
    rw [ptonLoop_digit hfull hc, if_neg hfour, cons_append,
      ptonScan_word hinit (by omega) hc hsrc, if_neg hfour, hdrop]
    simp only [if_neg hd]
    rfl
  | case7 words gap c src hfull hc hcolon ih =>
    rw [ptonLoop, if_neg hfull, if_neg hc, if_pos hcolon, cons_append,
      ptonScan_colon (by omega) hc, if_pos hcolon]
    exact ih hlen (hsrc.suffix (suffix_cons c src))
  | case8 words gap c src hfull hc hcolon hcolons ih =>
    have hnext : src.tail <:+ c :: src := (tail_suffix src).trans (suffix_cons c src)
    rw [ptonLoop, if_neg hfull, if_neg hc, if_neg hcolon, if_pos hcolons, cons_append,
      ptonScan_colon (by omega) hc, if_neg hcolon, if_pos hcolons]
    exact ih hlen (hsrc.suffix hnext)
  | case9 words gap c src hfull hc hcolon hcolons =>
    rw [ptonLoop, if_neg hfull, if_neg hc, if_neg hcolon, if_neg hcolons, cons_append,
      ptonScan_colon (by omega) hc, if_neg hcolon, if_neg hcolons]
    rfl

lemma ptonLoop_le {r : List ℕ × Option ℕ} (h : ptonLoop words gap src = some r)
    (hlen : words.length ≤ 8) (hgap : ∀ pos, gap = some pos → pos ≤ words.length) :
    r.1.length ≤ 8 ∧ ∀ pos, r.2 = some pos → pos ≤ r.1.length := by
  induction words, gap, src using ptonLoop.induct with
  | case1 words gap =>
    rw [ptonLoop] at h
    obtain rfl := some.inj h
    exact ⟨hlen, hgap⟩
  | case2 words gap c src hfull =>
    rw [ptonLoop, if_pos hfull] at h
    cases h
  | case3 words gap c src hfull hc digits hfour =>
    rw [ptonLoop_digit hfull hc, if_pos hfour] at h
    cases h
  | case4 words gap c src hfull hc digits hfour hdrop =>
    rw [ptonLoop_digit hfull hc, if_neg hfour, hdrop] at h
    obtain rfl := some.inj h
    rw [length_append, length_singleton]
    refine ⟨by omega, fun pos hpos => ?_⟩
    have := hgap pos hpos
    omega
  | case5 words gap c src hfull hc digits hfour next hdrop ih =>
    rw [ptonLoop_digit hfull hc, if_neg hfour, hdrop] at h
    have hgap' : ∀ pos, gap = some pos → pos ≤ (words ++ [hexVal digits]).length := by
      intro pos hpos
      have := hgap pos hpos
      rw [length_append]
      omega
    exact ih (by simpa using h) (by rw [length_append, length_singleton]; omega) hgap'
  | case6 words gap c src hfull hc digits hfour d next hdrop hd =>
    rw [ptonLoop_digit hfull hc, if_neg hfour, hdrop] at h
    simp [hd] at h
  | case7 words gap c src hfull hc hcolon ih =>
    rw [ptonLoop, if_neg hfull, if_neg hc, if_pos hcolon] at h
    exact ih h hlen fun pos hpos => (some.inj hpos).ge
  | case8 words gap c src hfull hc hcolon hcolons ih =>
    rw [ptonLoop, if_neg hfull, if_neg hc, if_neg hcolon, if_pos hcolons] at h
    exact ih h hlen fun pos hpos => (some.inj hpos).ge.trans (Nat.zero_le _)
  | case9 words gap c src hfull hc hcolon hcolons =>
    rw [ptonLoop, if_neg hfull, if_neg hc, if_neg hcolon, if_neg hcolons] at h
    cases h

lemma openGap (front move between behind : List ℕ)
    (hfits : front.length + between.length + move.length ≤ 8) :
    (memmoveWords (front ++ (move ++ (between ++ behind))) (front.length + between.length)
        front.length move.length).bind (memsetWords · front.length between.length)
      = .ok (front ++ List.replicate between.length 0 ++ move ++ behind) := by
  have hbehind : (front ++ (move ++ (between ++ behind))).drop
      (front.length + between.length + move.length) = behind := by
    have hlength : front.length + between.length + move.length
        = (front ++ (move ++ between)).length := by
      rw [length_append, length_append]
      omega
    rw [hlength, ← append_assoc move, ← append_assoc front _ behind, drop_left]
  rw [memmoveWords, if_pos ⟨hfits, by omega⟩, drop_left, take_left, hbehind]
  generalize hkept : (front ++ (move ++ (between ++ behind))).take (front.length + between.length)
    = kept
  have hkeptLength : kept.length = front.length + between.length := by
    rw [← hkept, length_take, length_append, length_append, length_append]
    omega
  have hkeptFront : kept.take front.length = front := by
    rw [← hkept, take_take, Nat.min_eq_left (Nat.le_add_right _ _), take_left]
  change memsetWords (kept ++ move ++ behind) front.length between.length = _
  rw [memsetWords, if_pos (by omega), append_assoc kept, take_append_of_le_length (by omega),
    hkeptFront, ← hkeptLength, drop_left, append_assoc _ move]

/-- **The gap is opened** within the words, before the dotted quad. -/
lemma placeWords_eq {quad : List ℕ} (hquad : quad.length = 0 ∨ quad.length = 2)
    (hinit : init.length = 8) (hlast : init.drop (8 - quad.length) = quad) (hlen : words.length ≤ 8)
    (hgap : ∀ pos, gap = some pos → pos ≤ words.length) :
    placeWords (quad ≠ []) (stateOf init quad.length words gap) = .ok (fillGap words quad gap) := by
  have hdot : (if decide (quad ≠ []) = true then (2 : ℤ) else 0) = quad.length := by
    rcases hquad with h | h
    · obtain rfl := length_eq_zero_iff.mp h
      rfl
    · have hne : quad ≠ [] := by
        rintro rfl
        cases h
      rw [if_pos (decide_eq_true hne), h]
      rfl
  cases gap with
  | none =>
    rw [placeWords, fillGap]
    simp only [stateOf, ne_eq, not_true_eq_false, and_false, and_true, false_or]
    by_cases height : words.length + quad.length = 8
    · rw [if_neg (by omega), if_pos height, show words.length = 8 - quad.length by omega, hlast]
    · rw [if_pos (by omega), if_neg height]
  | some pos =>
    have hpos := hgap pos rfl
    simp only [placeWords, stateOf, fillGap, ne_eq, reduceCtorEq, not_false_eq_true, and_true,
      and_false, or_false]
    by_cases hlt : words.length + quad.length < 8
    · have hmove : ((quad.length + words.length : ℕ) : ℤ) - quad.length - pos
          = ((words.length - pos : ℕ) : ℤ) := by omega
      have hnonneg : ¬((words.length - pos : ℕ) : ℤ) < 0 := by omega
      have hfew : ¬(quad.length + words.length > 8 ∨ quad.length + words.length = 8) := by omega
      rw [if_neg hfew, if_pos hlt]
      simp only [hdot, hmove, if_neg hnonneg, Int.toNat_natCast]
      -- The words behind the gap, what they are moved over, and the quad.
      generalize hgapLen : 8 - (quad.length + words.length) = gapLen
      have hsplit : init.drop words.length = (init.drop words.length).take gapLen ++ quad := by
        have hcut := take_append_drop gapLen (init.drop words.length)
        rw [drop_drop, show words.length + gapLen = 8 - quad.length by omega, hlast] at hcut
        exact hcut.symm
      have hbetween : ((init.drop words.length).take gapLen).length = gapLen := by
        rw [length_take, length_drop, hinit]
        omega
      have hfront : (words.take pos).length = pos := length_take_of_le hpos
      have hopen := openGap (words.take pos) (words.drop pos)
        ((init.drop words.length).take gapLen) quad
        (by rw [hfront, hbetween, length_drop]; omega)
      rw [hfront, hbetween, length_drop, ← append_assoc, take_append_drop, ← hsplit] at hopen
      rw [show 8 - (words.length + quad.length) = gapLen by omega]
      cases hmoved : memmoveWords (words ++ init.drop words.length) (pos + gapLen) pos
          (words.length - pos) with
      | error fault =>
        rw [hmoved] at hopen
        cases hopen
      | ok moved =>
        rw [hmoved] at hopen
        exact congrArg (Except.map some) hopen
    · rw [if_pos (by omega), if_neg hlt]

lemma length_bytesOfWords (words : List ℕ) : (bytesOfWords words).length = 2 * words.length := by
  induction words with
  | nil => rfl
  | cons w words ih =>
    rw [bytesOfWords, flatMap_cons, length_append, ← bytesOfWords, ih, length_cons]
    simp only [length_cons, length_nil]
    omega

lemma length_of_fillGap {quad out : List ℕ} (h : fillGap words quad gap = some out)
    (hgap : ∀ pos, gap = some pos → pos ≤ words.length) : out.length = 8 := by
  cases gap with
  | none =>
    rw [fillGap] at h
    split_ifs at h with height
    obtain rfl := some.inj h
    rw [length_append, height]
  | some pos =>
    rw [fillGap] at h
    split_ifs at h with hlt
    obtain rfl := some.inj h
    rw [length_append, length_append, length_append, length_take, length_replicate, length_drop]
    omega

lemma splitQuad_spec {before : List Char} {quad : List ℕ} (h : splitQuad src = some (before, quad)) :
    before <+: src ∧ EndsAt before (src.drop before.length) ∧
      ∃ init, presetWords quad = .ok init ∧ init.length = 8 ∧
        (quad.length = 0 ∨ quad.length = 2) ∧ init.drop (8 - quad.length) = quad := by
  rw [splitQuad] at h
  simp only at h
  split_ifs at h with hdot hcolon
  · obtain ⟨rfl, rfl⟩ := Prod.mk.inj (some.inj h)
    refine ⟨prefix_rfl, .inl (drop_length), _, rfl, rfl, .inl rfl, rfl⟩
  · obtain ⟨addr, -, heq⟩ := map_eq_some_iff.mp h
    obtain ⟨rfl, rfl⟩ := Prod.mk.inj heq
    refine ⟨?_, .inr (.inr (not_not.mp hcolon)), _, rfl, rfl, .inr rfl, rfl⟩
    exact ( rdropWhile_prefix _ _).trans ( takeWhile_prefix _)

/-- **Nothing goes wrong** when an IPv6 address is read, whatever the string. -/
theorem torInetPton_inet6 (src : List Char) :
    torInetPton afInet6 src
      = .ok ((torInetPton6 src).elim PtonResult.malformed PtonResult.inet6) := by
  rw [torInetPton, if_neg (by decide), if_pos rfl, inet6Pton, torInetPton6]
  split_ifs with hcolon
  · rfl
  cases hsplit : splitQuad src with
  | none => rfl
  | some split =>
    obtain ⟨before, quad⟩ := split
    obtain ⟨⟨rest, rfl⟩, hends, init, hpreset, hinit, hquad, hlast⟩ := splitQuad_spec hsplit
    rw [drop_left] at hends
    have hrest : (before ++ rest).length - before.length = rest.length := by
      rw [length_append, Nat.add_sub_cancel_left]
    have hscan := @ptonScan_eq _ _ [] _ none quad.length hinit (by simp) hends
    have hstart : stateOf init quad.length [] none = ⟨init, 0, quad.length, none⟩ := rfl
    simp only [hpreset, hrest, ← hstart, Except.bind, hscan]
    cases hloop : ptonLoop [] none before with
    | none => rfl
    | some r =>
      obtain ⟨words, gap⟩ := r
      obtain ⟨hlen, hgap⟩ := ptonLoop_le hloop (by simp) (by simp)
      simp only [map_some, placeWords_eq hquad hinit hlast hlen hgap]
      cases hfill : fillGap words quad gap with
      | none => rfl
      | some out =>
        have hout := length_of_fillGap hfill hgap
        have hbytes : (bytesOfWords out).length = 16 := by rw [length_bytesOfWords, hout]
        simp only [bind_some, outOfWords, In6Addr.ofWords, dif_pos hbytes]
        rfl

end Ator.Inaddr
