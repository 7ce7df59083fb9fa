import AtorProtocol.Encoding.Codecs
import AtorProtocol.Net.Inaddr

/-!
# The text of an address is read back

* `torInetAton_ntoa` — an IPv4 address.
* `torInetPton6_ntop6` — an IPv6 address.
-/

namespace Ator.Inaddr

open Text Binascii List

/-! ## Dotted quads -/

variable {a b c d : UInt8} {rest : List Char}

lemma length_decimal_byte (b : UInt8) : (decimal b.toNat).length ≤ 3 :=
  (Nat.length_toDigits_le_iff (by omega) (by omega)).mpr (by have := b.toNat_lt; omega)

lemma fitsWidth_byte (b : UInt8) (h : ∀ c ∈ rest.head?, c.isDigit = false) :
    FitsWidth (some 3) (decimal b.toNat) rest where
  digits := fun _ hc => isDigit_of_mem_decimal hc
  ne_nil := Nat.toDigits_ne_nil
  length_le := length_decimal_byte b
  stops := Or.inr h
  val_le := by
    rw [digitsVal_decimal, uintMax]
    have := b.toNat_lt
    omega

lemma dottedQuad_eq (a b c d : UInt8) : dottedQuad a b c d
    = decimal a.toNat ++ '.' :: (decimal b.toNat ++ '.' :: (decimal c.toNat ++ '.' ::
      decimal d.toNat)) := by
  simp [dottedQuad, intercalate]

lemma scanQuad_dottedQuad (a b c d : UInt8) : scanQuad (dottedQuad a b c d) = some ⟨a, b, c, d⟩ := by
  have hdot : ∀ rest : List Char, ∀ c ∈ ('.' :: rest).head?, c.isDigit = false := by
    rintro rest c hc
    cases hc
    rfl
  have hlast := @torSscanf_digits [.char] _ _ _ (@fitsWidth_byte [] d (by simp))
  rw [append_nil] at hlast
  have hbyte : ∀ b : UInt8, b.toNat.toUInt8 = b := fun b => toUInt8_eq (by
    have := b.toNat_lt
    omega)
  rw [scanQuad, dottedQuad_eq, quadPattern, torSscanf_digits (fitsWidth_byte a (hdot _)),
    torSscanf_lit, torSscanf_digits (fitsWidth_byte b (hdot _)), torSscanf_lit,
    torSscanf_digits (fitsWidth_byte c (hdot _)), torSscanf_lit, hlast]
  have := a.toNat_lt
  have := b.toNat_lt
  have := c.toNat_lt
  have := d.toNat_lt
  simp only [digitsVal_decimal, torSscanf, hbyte]
  rw [if_neg (by omega)]

lemma notMem_dot_decimal (n : ℕ) : '.' ∉ decimal n := notMem_decimal rfl

lemma not_isOctal_decimal (b : UInt8) : isOctal (decimal b.toNat) = false := by
  rw [isOctal, decide_eq_false_iff_not]
  rintro ⟨hlength, hzero⟩
  have hb := b.toNat_lt
  generalize b.toNat = n at hlength hzero hb
  by_cases hlt : n < 10
  · rw [decimal, Nat.toDigits_of_lt_base hlt] at hlength
    exact absurd hlength (by simp)
  · interval_cases n <;> exact absurd hzero (by decide)

/-- **An IPv4 address is read back.** -/
theorem torInetAton_ntoa (addr : InAddr) : torInetAton (torInetNtoa addr) = some addr := by
  have hsplit : (torInetNtoa addr).splitOn '.'
      = [decimal addr.a.toNat, decimal addr.b.toNat, decimal addr.c.toNat, decimal addr.d.toNat] :=
    splitOn_intercalate '.' (by simp [notMem_dot_decimal]) (by simp)
  rw [torInetAton, hsplit]
  simp only [any_cons, any_nil, not_isOctal_decimal, Bool.or_false, Bool.false_eq_true, if_false]
  exact scanQuad_dottedQuad addr.a addr.b addr.c addr.d

variable {str : List Char}

lemma exists_of_scanQuad {addr : InAddr} (h : scanQuad str = some addr) :
    ∃ ds₁ ds₂ ds₃ ds₄, str = ['.'].intercalate [ds₁, ds₂, ds₃, ds₄] ∧
      (∀ ds ∈ [ds₁, ds₂, ds₃, ds₄], ds ≠ [] ∧ ∀ c ∈ ds, c.isDigit) ∧
      addr.a.toNat = digitsVal ds₁ ∧ addr.b.toNat = digitsVal ds₂ ∧
      addr.c.toNat = digitsVal ds₃ ∧ addr.d.toNat = digitsVal ds₄ := by
  rw [scanQuad] at h
  split at h
  · next n₁ n₂ n₃ n₄ hscan =>
      obtain ⟨ds₁, t₁, rfl, hne₁, hdigits₁, -, rfl, hdot₁⟩ := exists_of_torSscanf_num hscan
      obtain ⟨t₁, rfl, hscan₂⟩ := exists_of_torSscanf_lit hdot₁ (cons_ne_nil _ _)
      obtain ⟨ds₂, t₂, rfl, hne₂, hdigits₂, -, rfl, hdot₂⟩ := exists_of_torSscanf_num hscan₂
      obtain ⟨t₂, rfl, hscan₃⟩ := exists_of_torSscanf_lit hdot₂ (cons_ne_nil _ _)
      obtain ⟨ds₃, t₃, rfl, hne₃, hdigits₃, -, rfl, hdot₃⟩ := exists_of_torSscanf_num hscan₃
      obtain ⟨t₃, rfl, hscan₄⟩ := exists_of_torSscanf_lit hdot₃ (cons_ne_nil _ _)
      obtain ⟨ds₄, t₄, rfl, hne₄, hdigits₄, -, rfl, hmore⟩ := exists_of_torSscanf_num hscan₄
      obtain rfl := eq_nil_of_torSscanf_char hmore
      have hbyte {n : ℕ} (hn : n ≤ 255) : n.toUInt8.toNat = n := by
        rw [Nat.toUInt8, UInt8.toNat_ofNat']
        omega
      split_ifs at h with hbig
      push Not at hbig
      obtain rfl := Option.some.inj h
      refine ⟨ds₁, ds₂, ds₃, ds₄, by simp [intercalate], by simp_all, ?_⟩
      exact ⟨hbyte (by omega), hbyte (by omega), hbyte (by omega), hbyte (by omega)⟩
  · cases h

lemma decimal_of_not_isOctal {ds : List Char} (hdigits : ∀ c ∈ ds, c.isDigit) (hne : ds ≠ [])
    (h : isOctal ds = false) : decimal (digitsVal ds) = ds := by
  refine decimal_digitsVal hdigits hne fun hlength hzero => ?_
  rw [isOctal, decide_eq_false_iff_not] at h
  exact h ⟨hlength, hzero⟩

/-- **An IPv4 address is only read from its text.** -/
theorem torInetAton_eq_some {addr : InAddr} :
    torInetAton str = some addr ↔ str = torInetNtoa addr := by
  constructor
  · intro h
    rw [torInetAton] at h
    split_ifs at h with hoctal
    obtain ⟨ds₁, ds₂, ds₃, ds₄, rfl, hds, ha, hb, hc, hd⟩ := exists_of_scanQuad h
    have hdot : ∀ ds ∈ [ds₁, ds₂, ds₃, ds₄], '.' ∉ ds := by
      intro ds hmem hdot
      exact absurd ((hds ds hmem).2 '.' hdot) (by decide)
    rw [splitOn_intercalate '.' hdot (by simp)] at hoctal
    have hdecimal : ∀ ds ∈ [ds₁, ds₂, ds₃, ds₄], decimal (digitsVal ds) = ds := by
      intro ds hmem
      refine decimal_of_not_isOctal (hds ds hmem).2 (hds ds hmem).1 ?_
      exact Bool.eq_false_iff.mpr fun hds => hoctal (any_eq_true.mpr ⟨ds, hmem, hds⟩)
    rw [torInetNtoa, dottedQuad, ha, hb, hc, hd, hdecimal ds₁ (by simp), hdecimal ds₂ (by simp),
      hdecimal ds₃ (by simp), hdecimal ds₄ (by simp)]
  · rintro rfl
    exact torInetAton_ntoa addr

/-! ## Hexadecimal words -/

lemma hexDecodeDigit_digitChar (v : Fin 16) : hexDecodeDigit (Nat.digitChar v) = some v.val := by
  revert v
  decide

lemma hexadecimal_step {n : ℕ} (h : 16 ≤ n) :
    hexadecimal n = hexadecimal (n / 16) ++ [Nat.digitChar (n % 16)] := by
  rw [hexadecimal, Nat.toDigits_eq_if (by omega), if_neg (not_lt.mpr h)]

lemma isXDigit_hexadecimal (n : ℕ) : ∀ c ∈ hexadecimal n, isXDigit c = true := by
  induction n using Nat.strong_induction_on with
  | _ n ih =>
    by_cases hlt : n < 16
    · rw [hexadecimal, Nat.toDigits_of_lt_base hlt]
      intro c hc
      obtain rfl := mem_singleton.mp hc
      rw [isXDigit, hexDecodeDigit_digitChar ⟨n, hlt⟩]
      rfl
    · rw [hexadecimal_step (not_lt.mp hlt)]
      intro c hc
      rcases mem_append.mp hc with hc | hc
      · exact ih (n / 16) (by omega) c hc
      · obtain rfl := mem_singleton.mp hc
        rw [isXDigit, hexDecodeDigit_digitChar ⟨n % 16, Nat.mod_lt _ (by omega)⟩]
        rfl

lemma hexVal_hexadecimal (n : ℕ) : hexVal (hexadecimal n) = n := by
  induction n using Nat.strong_induction_on with
  | _ n ih =>
    by_cases hlt : n < 16
    · rw [hexadecimal, Nat.toDigits_of_lt_base hlt, hexVal, foldl_cons, foldl_nil,
        hexDecodeDigit_digitChar ⟨n, hlt⟩, Nat.zero_mul, Nat.zero_add]
      rfl
    · rw [hexadecimal_step (not_lt.mp hlt), hexVal, foldl_append, foldl_cons, foldl_nil, ← hexVal,
        ih (n / 16) (by omega), hexDecodeDigit_digitChar ⟨n % 16, Nat.mod_lt _ (by omega)⟩]
      simp only [Option.getD_some]
      omega

lemma length_hexadecimal {n : ℕ} (h : n < 65536) : (hexadecimal n).length ≤ 4 :=
  (Nat.length_toDigits_le_iff (by omega) (by omega)).mpr (by omega)

lemma exists_hexadecimal (n : ℕ) : ∃ c ds, hexadecimal n = c :: ds ∧ isXDigit c = true
    ∧ ∀ d ∈ ds, isXDigit d = true := by
  obtain ⟨c, ds, h⟩ := exists_cons_of_ne_nil (@Nat.toDigits_ne_nil n 16)
  have hall := isXDigit_hexadecimal n
  rw [hexadecimal, h] at hall
  exact ⟨c, ds, h, hall c mem_cons_self, fun d hd => hall d (mem_cons_of_mem _ hd)⟩

/-! ## The loop over the words -/

variable {words acc : List ℕ} {gap g : Option ℕ} {w i : ℕ}

lemma ptonLoop_word (hw : w < 65536) (hacc : acc.length ≤ 7) (rest : List Char) :
    ptonLoop acc g (hexadecimal w ++ ':' :: rest) = ptonLoop (acc ++ [w]) g rest := by
  obtain ⟨c, ds, hcons, hc, hds⟩ := exists_hexadecimal w
  have hval := hexVal_hexadecimal w
  have hlength := length_hexadecimal hw
  have hcolon : ¬ isXDigit ':' = true := by decide
  rw [hcons] at hval hlength ⊢
  have htake : (ds ++ ':' :: rest).takeWhile isXDigit = ds := by
    rw [takeWhile_append_of_pos hds, takeWhile_cons_of_neg hcolon, append_nil]
  have hdrop : (ds ++ ':' :: rest).dropWhile isXDigit = ':' :: rest := by
    rw [dropWhile_append_of_pos hds, dropWhile_cons_of_neg hcolon]
  rw [cons_append, ptonLoop, if_neg (by omega), if_pos hc]
  simp only [htake, hval]
  rw [if_neg (not_lt.mpr hlength)]
  split
  · rename_i hnil
    rw [hdrop] at hnil
    cases hnil
  · rename_i d next hcons'
    rw [hdrop] at hcons'
    cases hcons'
    rfl

lemma ptonLoop_last (hw : w < 65536) (hacc : acc.length ≤ 7) :
    ptonLoop acc g (hexadecimal w) = some (acc ++ [w], g) := by
  obtain ⟨c, ds, hcons, hc, hds⟩ := exists_hexadecimal w
  have hval := hexVal_hexadecimal w
  have hlength := length_hexadecimal hw
  rw [hcons] at hval hlength ⊢
  have htake : ds.takeWhile isXDigit = ds := takeWhile_eq_self_iff.mpr hds
  have hdrop : ds.dropWhile isXDigit = [] := dropWhile_eq_nil_iff.mpr hds
  rw [ptonLoop, if_neg (by omega), if_pos hc]
  simp only [htake, hval]
  rw [if_neg (not_lt.mpr hlength)]
  split
  · rfl
  · rename_i d next hcons'
    rw [hdrop] at hcons'
    cases hcons'

lemma formatWords_word (h : ¬ (w = 0 ∧ gap = some i)) :
    formatWords gap i (w :: words)
      = hexadecimal w ++ (if i = 7 then [] else [':']) ++ formatWords gap (i + 1) words := by
  rw [formatWords, if_neg h]

lemma ptonLoop_formatWords_after (hgap : ∀ j, i ≤ j → gap ≠ some j) (hlength : i + words.length = 8)
    (hacc : acc.length ≤ i) (hwords : ∀ w ∈ words, w < 65536) :
    ptonLoop acc g (formatWords gap i words) = some (acc ++ words, g) := by
  induction words generalizing i acc with
  | nil => rw [formatWords, ptonLoop, append_nil]
  | cons w words ih =>
    have hw := hwords w mem_cons_self
    rw [length_cons] at hlength
    rw [formatWords_word fun h => hgap i le_rfl h.2]
    by_cases hi : i = 7
    · obtain rfl : words = [] := length_eq_zero_iff.mp (by omega)
      rw [if_pos hi, formatWords, append_nil, append_nil, ptonLoop_last hw (by omega)]
    · rw [if_neg hi, append_assoc, singleton_append, ptonLoop_word hw (by omega),
        ih (fun j hj => hgap j (by omega)) (by omega) (by simpa using hacc)
          fun w' hw' => hwords w' (mem_cons_of_mem w hw'), append_assoc,
        singleton_append]

lemma ptonLoop_gap (hacc : acc.length = i) (hi : i < 8) (rest : List Char) :
    ptonLoop acc none ((if i = 0 then [':', ':'] else [':']) ++ rest)
      = ptonLoop acc (some i) rest := by
  have hcolon : ¬ isXDigit ':' = true := by decide
  by_cases hzero : i = 0
  · obtain rfl : acc = [] := length_eq_zero_iff.mp (by omega)
    rw [if_pos hzero, hzero, cons_append, cons_append, nil_append, ptonLoop,
      if_neg (by simp), if_neg hcolon, if_neg (by simp), if_pos (by simp), tail_cons]
  · have hne : acc ≠ [] := by
      rintro rfl
      exact hzero hacc.symm
    rw [if_neg hzero, singleton_append, ptonLoop, if_neg (by omega), if_neg hcolon,
      if_pos ⟨rfl, hne, rfl⟩, hacc]

/-- **The words are read back**, whichever gap is left out. -/
lemma ptonLoop_formatWords (hlength : i + words.length = 8) (hacc : acc.length = i)
    (hwords : ∀ w ∈ words, w < 65536) :
    ∃ r g, ptonLoop acc none (formatWords gap i words) = some (r, g)
      ∧ fillGap r [] g = some (acc ++ words) := by
  induction words generalizing i acc with
  | nil =>
    refine ⟨acc, none, by rw [formatWords, ptonLoop], ?_⟩
    rw [length_nil] at hlength
    rw [fillGap, if_pos (by simp; omega), append_nil]
  | cons w words ih =>
    rw [length_cons] at hlength
    by_cases hgap : w = 0 ∧ gap = some i
    · obtain ⟨rfl, rfl⟩ := hgap
      have hsplit := takeWhile_append_dropWhile (p := (· = 0)) (l := words)
      have hcount := congrArg length hsplit
      rw [length_append] at hcount
      have hzeros : words.takeWhile (· = 0) = replicate (words.takeWhile (· = 0)).length 0 :=
        eq_replicate_length.mpr fun w hw => by simpa using mem_takeWhile_imp hw
      generalize hrun : words.takeWhile (· = 0) = run at hsplit hcount hzeros
      generalize hafter : words.dropWhile (· = 0) = after at hsplit hcount
      refine ⟨acc ++ after, some i, ?_, ?_⟩
      · rw [formatWords, if_pos ⟨rfl, rfl⟩, hrun, hafter, ptonLoop_gap hacc (by omega)]
        refine ptonLoop_formatWords_after (fun j hj hsome => ?_) (by omega) (by omega) ?_
        · have := Option.some.inj hsome
          omega
        · intro w' hw'
          refine hwords w' (mem_cons_of_mem 0 ?_)
          rw [← hsplit]
          exact mem_append_right run hw'
      · have hset : 8 - ((acc ++ after).length + ([] : List ℕ).length) = run.length + 1 := by
          rw [length_append, length_nil]
          omega
        rw [fillGap, if_pos (by rw [length_append, length_nil]; omega), hset, ← hacc, take_left,
          drop_left, append_nil, replicate_succ, ← hzeros, append_assoc, cons_append, hsplit]
    · have hw := hwords w mem_cons_self
      rw [formatWords_word hgap]
      by_cases hi : i = 7
      · obtain rfl : words = [] := length_eq_zero_iff.mp (by omega)
        refine ⟨acc ++ [w], none, ?_, ?_⟩
        · rw [if_pos hi, formatWords, append_nil, append_nil, ptonLoop_last hw (by omega)]
        · rw [fillGap, if_pos (by rw [length_append]; simp; omega), append_nil]
      · obtain ⟨r, g, hloop, hfill⟩ := @ih (acc ++ [w]) (i + 1) (by omega) (by simp [hacc])
          fun w' hw' => hwords w' (mem_cons_of_mem w hw')
        refine ⟨r, g, ?_, ?_⟩
        · rw [if_neg hi, append_assoc, singleton_append, ptonLoop_word hw (by omega), hloop]
        · rw [hfill, append_assoc, singleton_append]

lemma bytesOfWords_wordsOf : ∀ bs : Bytes, bs.length % 2 = 0 → bytesOfWords (wordsOf bs) = bs
  | [], _ => rfl
  | [_], h => by simp at h
  | hi :: lo :: bs, h => by
      rw [length_cons, length_cons] at h
      have hhi := hi.toNat_lt
      have hlo := lo.toNat_lt
      have ih := bytesOfWords_wordsOf bs (by omega)
      have hw : ((hi.toNat * 256 + lo.toNat) / 256).toUInt8 = hi := toUInt8_eq (by omega)
      have hw' : ((hi.toNat * 256 + lo.toNat) % 256).toUInt8 = lo := toUInt8_eq (by omega)
      rw [wordsOf, bytesOfWords, flatMap_cons, hw, hw', ← bytesOfWords, ih]
      rfl

lemma length_wordsOf : ∀ bs : Bytes, (wordsOf bs).length = bs.length / 2
  | [] => rfl
  | [_] => by simp [wordsOf]
  | hi :: lo :: bs => by
      rw [wordsOf, length_cons, length_wordsOf bs, length_cons, length_cons]
      omega

lemma lt_of_mem_wordsOf : ∀ bs : Bytes, ∀ w ∈ wordsOf bs, w < 65536
  | [], _, h | [_], _, h => by simp [wordsOf] at h
  | hi :: lo :: bs, w, h => by
      have hhi := hi.toNat_lt
      have hlo := lo.toNat_lt
      rw [wordsOf, mem_cons] at h
      rcases h with rfl | h
      · omega
      · exact lt_of_mem_wordsOf bs w h

lemma ofWords_wordsOf (addr : In6Addr) : In6Addr.ofWords (wordsOf addr.s6Addr) = some addr := by
  have hbytes := bytesOfWords_wordsOf addr.s6Addr (by rw [addr.length_eq])
  have hlen : (bytesOfWords (wordsOf addr.s6Addr)).length = 16 := by rw [hbytes, addr.length_eq]
  rw [In6Addr.ofWords, dif_pos hlen]
  obtain ⟨bs, hbs⟩ := addr
  simp only [hbytes]

/-! ## The text of an IPv6 address -/

lemma mem_formatWords {ch : Char} (h : ch ∈ formatWords gap i words) :
    isXDigit ch = true ∨ ch = ':' := by
  induction i, words using formatWords.induct gap with
  | case1 i => simp [formatWords] at h
  | case2 i w words hgap ih =>
    rw [formatWords, if_pos hgap, mem_append] at h
    rcases h with h | h
    · split at h <;> simp_all
    · exact ih h
  | case3 i w words hgap ih =>
    rw [formatWords, if_neg hgap, mem_append, mem_append] at h
    rcases h with (h | h) | h
    · exact .inl (isXDigit_hexadecimal w ch h)
    · split at h <;> simp_all
    · exact ih h

/-- A colon at the end has another in front of it. -/
def NoNeedlessColon (str : List Char) : Prop :=
  str.getLast? = some ':' → str.dropLast.getLast? = some ':'

lemma NoNeedlessColon.append {s t : List Char} (h : NoNeedlessColon t) (ht : 2 ≤ t.length) :
    NoNeedlessColon (s ++ t) := by
  have hne : t ≠ [] := by
    rintro rfl
    simp at ht
  have hne' : t.dropLast ≠ [] := by
    intro hnil
    have hlen := congrArg length hnil
    rw [length_dropLast, length_nil] at hlen
    omega
  intro hlast
  rw [getLast?_append_of_ne_nil _ hne] at hlast
  rw [dropLast_append_of_ne_nil hne, getLast?_append_of_ne_nil _ hne']
  exact h hlast

lemma formatWords_ne_nil (hne : words ≠ []) : formatWords gap i words ≠ [] := by
  obtain ⟨w, words, rfl⟩ := exists_cons_of_ne_nil hne
  obtain ⟨c, ds, hcons, -, -⟩ := exists_hexadecimal w
  by_cases hgap : w = 0 ∧ gap = some i
  · rw [formatWords, if_pos hgap]
    split <;> simp
  · rw [formatWords, if_neg hgap, hcons]
    simp

lemma two_le_length_colon (hne : words ≠ []) : 2 ≤ (':' :: formatWords gap i words).length := by
  have hne' : formatWords gap i words ≠ [] := formatWords_ne_nil hne
  have hpos := length_pos_of_ne_nil hne'
  rw [length_cons]
  omega

lemma noNeedlessColon_formatWords (hlength : i + words.length = 8) (hi : 0 < i) (hne : words ≠ []) :
    NoNeedlessColon (':' :: formatWords gap i words) := by
  induction i, words using formatWords.induct gap with
  | case1 i => exact absurd rfl hne
  | case2 i w words hgap ih =>
    have hsplit := takeWhile_append_dropWhile (p := (· = 0)) (l := words)
    have hcount := congrArg length hsplit
    rw [length_append] at hcount
    rw [length_cons] at hlength
    rw [formatWords, if_pos hgap, if_neg (by omega), singleton_append]
    by_cases hafter : words.dropWhile (· = 0) = []
    · rw [hafter, formatWords]
      exact fun _ => rfl
    · exact (ih (by omega) (by omega) hafter).append (s := [':']) (two_le_length_colon hafter)
  | case3 i w words hgap ih =>
    rw [length_cons] at hlength
    rw [formatWords, if_neg hgap]
    by_cases hseven : i = 7
    · obtain rfl : words = [] := length_eq_zero_iff.mp (by omega)
      rw [if_pos hseven, formatWords, append_nil, append_nil]
      intro hlast
      rw [← singleton_append, getLast?_append_of_ne_nil _ Nat.toDigits_ne_nil] at hlast
      have hdigit := isXDigit_hexadecimal w ':' (mem_of_getLast? hlast)
      exact absurd hdigit (by decide)
    · have hwords : words ≠ [] := by
        rintro rfl
        rw [length_nil] at hlength
        omega
      have hrest := (ih (by omega) (by omega) hwords).append (s := ':' :: hexadecimal w)
        (two_le_length_colon hwords)
      rw [if_neg hseven, append_assoc, singleton_append]
      exact hrest

lemma noNeedlessColon_formatWords_zero (hlength : words.length = 8) :
    NoNeedlessColon (formatWords gap 0 words) := by
  obtain ⟨w, words, rfl⟩ := exists_cons_of_length_pos (by omega : 0 < words.length)
  rw [length_cons] at hlength
  by_cases hgap : w = 0 ∧ gap = some 0
  · have hsplit := takeWhile_append_dropWhile (p := (· = 0)) (l := words)
    have hcount := congrArg length hsplit
    rw [length_append] at hcount
    rw [formatWords, if_pos hgap, if_pos rfl]
    by_cases hafter : words.dropWhile (· = 0) = []
    · rw [hafter, formatWords]
      exact fun _ => rfl
    · exact (noNeedlessColon_formatWords (by omega) (by omega) hafter).append (s := [':'])
        (two_le_length_colon hafter)
  · have hwords : words ≠ [] := by
      rintro rfl
      rw [length_nil] at hlength
      omega
    rw [formatWords, if_neg hgap, if_neg (by decide), append_assoc, singleton_append]
    exact (noNeedlessColon_formatWords (by omega) (by omega) hwords).append
      (two_le_length_colon hwords)

lemma splitQuad_of_notMem (h : '.' ∉ str) : splitQuad str = some (str, []) := by
  have htake : str.takeWhile (· ≠ '.') = str := by
    refine takeWhile_eq_self_iff.mpr fun c hc => ?_
    have hne : c ≠ '.' := fun heq => h (heq ▸ hc)
    simpa using hne
  rw [splitQuad, htake, if_pos rfl]

lemma splitQuad_dottedQuad (h : '.' ∉ str) (hlast : str.getLast? = some ':')
    (a b c d : UInt8) :
    splitQuad (str ++ dottedQuad a b c d)
      = some (str, [a.toNat * 256 + b.toNat, c.toNat * 256 + d.toNat]) := by
  have hdots : ∀ ch ∈ str ++ decimal a.toNat, (decide (ch ≠ '.')) = true := by
    intro ch hch
    rcases mem_append.mp hch with hch | hch
    · have hne : ch ≠ '.' := fun heq => h (heq ▸ hch)
      simpa using hne
    · have hne : ch ≠ '.' := fun heq => notMem_dot_decimal a.toNat (heq ▸ hch)
      simpa using hne
  have htake : (str ++ dottedQuad a b c d).takeWhile (· ≠ '.') = str ++ decimal a.toNat := by
    rw [dottedQuad_eq, ← append_assoc, takeWhile_append_of_pos hdots,
      takeWhile_cons_of_neg (by decide), append_nil]
  have hrdrop : (str ++ decimal a.toNat).rdropWhile Char.isDigit = str := by
    obtain ⟨front, rfl⟩ := getLast?_eq_some_iff.mp hlast
    have hdigits : ∀ ch ∈ (decimal a.toNat).reverse, ch.isDigit = true := fun ch hch =>
      isDigit_of_mem_decimal (mem_reverse.mp hch)
    rw [rdropWhile, reverse_append, dropWhile_append_of_pos hdigits,
      reverse_append, reverse_singleton, singleton_append,
      dropWhile_cons_of_neg (by decide), reverse_cons, reverse_reverse]
  rw [splitQuad, htake, if_neg]
  · simp only [hrdrop, hlast, ne_eq, not_true_eq_false, if_false, drop_left,
      scanQuad_dottedQuad, Option.map_some]
  · rw [dottedQuad_eq, length_append, length_append, length_append, length_cons]
    omega

/-! ## IPv6 addresses are read back -/

lemma torInetPton6_dottedQuad (hdot : '.' ∉ str) (hlast : str.getLast? = some ':')
    (a b c d : UInt8) : torInetPton6 (str ++ dottedQuad a b c d)
      = (ptonLoop [] none str).bind fun r =>
        (fillGap r.1 [a.toNat * 256 + b.toNat, c.toNat * 256 + d.toNat] r.2).bind In6Addr.ofWords := by
  have hcolon : (str ++ dottedQuad a b c d).getLast? ≠ some ':' := by
    have hsplit : str ++ dottedQuad a b c d
        = (str ++ decimal a.toNat ++ '.' :: decimal b.toNat ++ '.' :: decimal c.toNat ++ ['.'])
          ++ decimal d.toNat := by
      simp [dottedQuad_eq]
    intro h
    rw [hsplit, getLast?_append_of_ne_nil _ Nat.toDigits_ne_nil] at h
    exact absurd (mem_of_getLast? h) (notMem_decimal rfl)
  rw [torInetPton6, if_neg fun h => hcolon h.2.1, splitQuad_dottedQuad hdot hlast]
  simp only
  cases ptonLoop [] none str <;> rfl

lemma torInetPton6_formatWords {addr : In6Addr} (hlength : words.length = 8)
    (hwords : ∀ w ∈ words, w < 65536) (haddr : In6Addr.ofWords words = some addr) :
    torInetPton6 (formatWords gap 0 words) = some addr := by
  have hdot : '.' ∉ formatWords gap 0 words := by
    intro h
    rcases mem_formatWords h with h | h
    · exact absurd h (by decide)
    · exact absurd h (by decide)
  have hcolon : NoNeedlessColon (formatWords gap 0 words) :=
    noNeedlessColon_formatWords_zero hlength
  obtain ⟨r, g, hloop, hfill⟩ := @ptonLoop_formatWords words [] gap 0 (by omega) rfl hwords
  rw [torInetPton6, if_neg fun h => h.2.2 (hcolon h.2.1), splitQuad_of_notMem hdot]
  simp only [hloop, hfill, nil_append, Option.bind_some, haddr]

lemma wordsOf_drop : ∀ n : ℕ, ∀ bs : Bytes, wordsOf (bs.drop (2 * n)) = (wordsOf bs).drop n
  | 0, _ => rfl
  | n + 1, [] => by simp [wordsOf]
  | n + 1, [_] => by simp [Nat.mul_succ, wordsOf]
  | n + 1, hi :: lo :: bs => by
      rw [Nat.mul_succ, drop_succ_cons, drop_succ_cons, wordsOf_drop n bs, wordsOf, drop_succ_cons]

/-- **An IPv6 address is read back.** -/
theorem torInetPton6_ntop6 (addr : In6Addr) : torInetPton6 (torInetNtop6 addr) = some addr := by
  have hwords := ofWords_wordsOf addr
  have hlen : (wordsOf addr.s6Addr).length = 8 := by rw [length_wordsOf, addr.length_eq]
  have hlt := lt_of_mem_wordsOf addr.s6Addr
  have hquad := wordsOf_drop 6 addr.s6Addr
  have hcolons : "::".toList = [':', ':'] := by decide
  rw [torInetNtop6, hcolons]
  split
  · next w5 w6 w7 a b c d hw hbytes =>
    rw [hw, hbytes] at hquad
    obtain ⟨h6, h7⟩ : a.toNat * 256 + b.toNat = w6 ∧ c.toNat * 256 + d.toNat = w7 := by
      simpa [wordsOf] using hquad
    rw [hw] at hwords
    split
    · next hzero =>
        obtain ⟨rfl, -, -⟩ := hzero
        have hgap := @ptonLoop_gap [] 0 rfl (by decide) []
        rw [torInetPton6_dottedQuad (by decide) (by decide), h6, h7]
        rw [if_pos rfl, append_nil, ptonLoop] at hgap
        rw [hgap]
        exact hwords
    · split
      · next hffff =>
          subst hffff
          have hgap := @ptonLoop_gap [] 0 rfl (by decide)
            (hexadecimal 0xffff ++ [':'])
          have hword := @ptonLoop_word [] (some 0) 0xffff (by decide) (by decide) []
          rw [hword, if_pos rfl, ptonLoop] at hgap
          rw [← singleton_append (l := dottedQuad a b c d), ← append_assoc,
            torInetPton6_dottedQuad (by decide) (by decide), h6, h7, append_assoc, hgap]
          exact hwords
      · exact torInetPton6_formatWords hlen hlt (hw ▸ hwords)
  · exact torInetPton6_formatWords hlen hlt hwords

end Ator.Inaddr
