import AtorProtocol.Encoding.ParseInt
import AtorProtocol.Lib.Sort
import Mathlib.Data.Char
import Mathlib.Data.List.Lex

/-!
# Consensus parameters

`dirvote_compute_params` of `src/feature/dirauth/dirvote.c`: the parameters of all votes are sorted,
and each run of strings that begin alike up to the `=` is one keyword.

* `dirvoteComputeParams` — the loop over the sorted list.
* `prefix_of_between` — the strings that begin alike stand together.
* `medianInt32_mem_Icc` — the low median is where the majority is.
* `dirvoteComputeParams_spec` — each keyword with enough votes, once, with the low median.
-/

namespace Ator.Dirauth

open Ator.Text List

/-- The characters up to the first `=`. -/
def keyword (param : List Char) : List Char := beforeDelim '=' param

/-- `tor_parse_long` of what follows the first `=`. -/
def paramValue (param : List Char) : Option ℤ :=
  torParseLong (fromDelim '=' param).tail (-2147483648) 2147483647

/-- `median_int32`: the element in the middle of the sorted array, or before the middle. -/
def medianInt32 (vals : List ℤ) : ℤ := (vals.insertionSort (· ≤ ·)).getD ((vals.length - 1) / 2) 0

def minVotesForParam : ℕ := 3

/-- Enough authorities voted on a parameter. -/
def enoughVotes (totalAuthorities i : ℕ) : Bool := totalAuthorities / 2 < i ∨ minVotesForParam ≤ i

/-- The loop of `dirvote_compute_params` over the sorted list; `none` where an assertion fails. -/
def paramLoop (nVotes totalAuthorities : ℕ) : ℕ → List ℤ → List (List Char) → Option (List (List Char))
  | _, _, [] => some []
  | curParamLen, vals, param :: rest =>
    if nVotes ≤ vals.length then none
    else
      match paramValue param with
      | none => none
      | some val =>
        let vals := vals ++ [val]
        match rest with
        | [] =>
          some (if enoughVotes totalAuthorities vals.length then
            [param.take curParamLen ++ decimalInt (medianInt32 vals)] else [])
        | nextParam :: rest =>
          if nextParam.take curParamLen ≠ param.take curParamLen then
            (paramLoop nVotes totalAuthorities ((keyword nextParam).length + 1) []
              (nextParam :: rest)).map fun output =>
                (if enoughVotes totalAuthorities vals.length then
                  [param.take curParamLen ++ decimalInt (medianInt32 vals)] else []) ++ output
          else paramLoop nVotes totalAuthorities curParamLen vals (nextParam :: rest)

/-- `dirvote_compute_params`, of the `net_params` of each vote. -/
def dirvoteComputeParams (votes : List (Option (List (List Char)))) (totalAuthorities : ℕ) :
    Option (List (List Char)) :=
  let paramList := (votes.filterMap id).flatten
  match paramList.insertionSort (· ≤ ·) with
  | [] => some []
  | param :: rest =>
    if '=' ∉ param then none
    else paramLoop votes.length totalAuthorities ((keyword param).length + 1) [] (param :: rest)

/-- A parameter that the parser of votes admits. -/
def IsParam (param : List Char) : Prop := '=' ∈ param ∧ (paramValue param).isSome

instance (param : List Char) : Decidable (IsParam param) := inferInstanceAs (Decidable (_ ∧ _))

/-- The parameters of a vote, as the parser admits them. -/
structure WellFormedParams (params : List (List Char)) : Prop where
  isParam : ∀ param ∈ params, IsParam param
  sorted : params.Pairwise (· < ·)
  unique : (params.map keyword).Nodup

/-- What a vote proposes for a keyword. -/
def proposal (K : List Char) (params : List (List Char)) : Option ℤ :=
  (params.find? fun param => keyword param = K).bind paramValue

/-- What the votes propose for a keyword. -/
def proposals (K : List Char) (votes : List (Option (List (List Char)))) : List ℤ :=
  votes.filterMap fun vote => vote.bind (proposal K)

/-! ## Strings that begin alike -/

variable {K s t : List Char} {p x y z : List Char}

lemma prefix_of_between (hx : p <+: x) (hz : p <+: z) (hxy : x ≤ y) (hyz : y ≤ z) : p <+: y := by
  induction p generalizing x y z with
  | nil => exact nil_prefix
  | cons c p ih =>
    obtain ⟨x, rfl⟩ := hx
    obtain ⟨z, rfl⟩ := hz
    rw [cons_append] at hxy hyz
    rw [← not_lt] at hxy hyz
    cases y with
    | nil => exact absurd (nil_lt_cons c _) hxy
    | cons d y =>
      rw [cons_lt_cons_iff, not_or, not_and] at hxy hyz
      obtain rfl : d = c := le_antisymm (not_lt.mp hyz.1) (not_lt.mp hxy.1)
      have hpre := ih (prefix_append p x) (prefix_append p z)
        (not_lt.mp (hxy.2 rfl)) (not_lt.mp (hyz.2 rfl))
      exact cons_prefix_cons.mpr ⟨rfl, hpre⟩

lemma notMem_keyword (param : List Char) : '=' ∉ keyword param := notMem_beforeDelim '=' param

lemma keyword_append (h : '=' ∈ s) : ∃ t, s = keyword s ++ '=' :: t := by
  have hcut := beforeDelim_append_fromDelim '=' s
  cases hfrom : fromDelim '=' s with
  | nil =>
    rw [hfrom, append_nil] at hcut
    exact absurd h (hcut ▸ notMem_keyword s)
  | cons c t =>
    obtain rfl := fromDelim_eq_cons hfrom
    rw [hfrom] at hcut
    exact ⟨t, hcut.symm⟩

lemma take_keyword (h : '=' ∈ s) : s.take ((keyword s).length + 1) = keyword s ++ ['='] := by
  obtain ⟨t, ht⟩ := keyword_append h
  generalize keyword s = u at ht ⊢
  rw [ht, append_cons, take_left']
  simp

lemma take_keyword_eq_iff (hs : '=' ∈ s) (ht : '=' ∈ t) :
    t.take ((keyword s).length + 1) = s.take ((keyword s).length + 1) ↔ keyword t = keyword s := by
  rw [take_keyword hs]
  constructor
  · intro heq
    have hsplit := take_append_drop ((keyword s).length + 1) t
    rw [heq, append_assoc, singleton_append] at hsplit
    rw [← hsplit]
    exact beforeDelim_append (notMem_keyword s)
  · intro heq
    rw [← heq]
    exact take_keyword ht

lemma keyword_between (hx : '=' ∈ x) (hz : '=' ∈ z) (hxy : x ≤ y) (hyz : y ≤ z)
    (hkeyword : keyword x = keyword z) : keyword y = keyword x := by
  have hpx : keyword x ++ ['='] <+: x := take_keyword hx ▸ List.take_prefix _ x
  have hpz : keyword x ++ ['='] <+: z := hkeyword ▸ take_keyword hz ▸ List.take_prefix _ z
  obtain ⟨y', rfl⟩ := prefix_of_between hpx hpz hxy hyz
  rw [append_assoc, singleton_append]
  exact beforeDelim_append (notMem_keyword x)

/-! ## The median -/

lemma medianInt32_perm {vals vals' : List ℤ} (h : vals.Perm vals') :
    medianInt32 vals = medianInt32 vals' := by
  have hsort : vals.insertionSort (· ≤ ·) = vals'.insertionSort (· ≤ ·) :=
    Perm.eq_of_pairwise (fun a b _ _ hab hba => le_antisymm hab hba)
      (pairwise_insertionSort (· ≤ ·) vals) (pairwise_insertionSort (· ≤ ·) vals')
      (((perm_insertionSort (· ≤ ·) vals).trans h).trans
        (perm_insertionSort (· ≤ ·) vals').symm)
  rw [medianInt32, medianInt32, hsort, h.length_eq]

variable {vals : List ℤ}

/-- **The median is where the majority is.** -/
theorem medianInt32_mem_Icc {a b : ℤ}
    (h : vals.length < 2 * vals.countP fun v => a ≤ v ∧ v ≤ b) :
    a ≤ medianInt32 vals ∧ medianInt32 vals ≤ b := by
  have hperm := perm_insertionSort (· ≤ ·) vals
  rw [← hperm.countP_eq, ← hperm.length_eq] at h
  rw [medianInt32, ← hperm.length_eq]
  exact lowMedian_mem_Icc (f := id) (pairwise_insertionSort (· ≤ ·) vals) h 0

/-! ## The loop -/

/-- The values of a keyword in a list of parameters. -/
def valuesOf (K : List Char) (params : List (List Char)) : List ℤ :=
  (params.filter fun param => keyword param = K).filterMap paramValue

/-- A keyword and its median. -/
def paramText (K : List Char) (vals : List ℤ) : List Char := K ++ '=' :: decimalInt (medianInt32 vals)

variable {K : List Char}

lemma keyword_paramText (h : '=' ∉ K) :
    keyword (paramText K vals) = K := beforeDelim_append h

lemma mem_ite_singleton {c : Bool} {a b : List Char} :
    a ∈ (if c = true then [b] else []) ↔ c = true ∧ a = b := by
  cases c with
  | true => simp
  | false => simp

lemma valuesOf_cons {K param : List Char} {rest : List (List Char)} {val : ℤ}
    (hval : paramValue param = some val) : valuesOf K (param :: rest)
      = (if keyword param = K then [val] else []) ++ valuesOf K rest := by
  rw [valuesOf, filter_cons]
  by_cases hkeyword : keyword param = K
  · simp [hkeyword, hval, valuesOf]
  · simp [hkeyword, valuesOf]

lemma valuesOf_eq_nil {params : List (List Char)}
    (h : ∀ t ∈ params, keyword t ≠ K) : valuesOf K params = [] := by
  rw [valuesOf, filter_eq_nil_iff.mpr, filterMap_nil]
  intro t ht
  simpa using h t ht

/-- The values of a keyword when those of the first keyword so far are `vals`. -/
def valuesAfter (first : List Char) (vals : List ℤ) (params : List (List Char)) (K : List Char) :
    List ℤ := (if K = first then vals else []) ++ valuesOf K params

/-- What the loop is to come to. -/
def IsOutput (totalAuthorities : ℕ) (values : List Char → List ℤ) (params output : List (List Char)) :
    Prop :=
  output.Nodup ∧ ∀ s, s ∈ output ↔ ∃ K, (∃ t ∈ params, keyword t = K)
    ∧ enoughVotes totalAuthorities (values K).length = true ∧ s = paramText K (values K)

lemma IsOutput.cons {totalAuthorities : ℕ} {values : List Char → List ℤ}
    {rest output : List (List Char)} (h : IsOutput totalAuthorities values rest output)
    (param : List Char) (hlast : ∀ t ∈ rest, keyword t ≠ keyword param) :
    IsOutput totalAuthorities values (param :: rest)
      ((if enoughVotes totalAuthorities (values (keyword param)).length = true then
        [paramText (keyword param) (values (keyword param))] else []) ++ output) := by
  obtain ⟨hnodup, hmem⟩ := h
  refine ⟨?_, fun s => ?_⟩
  · rw [nodup_append]
    refine ⟨?_, hnodup, ?_⟩
    · split
      · exact nodup_singleton _
      · exact nodup_nil
    · rintro s hs t ht rfl
      obtain ⟨-, rfl⟩ := mem_ite_singleton.mp hs
      obtain ⟨K, ⟨t, ht, rfl⟩, -, heq⟩ := (hmem _).mp ht
      have hkeyword := congrArg keyword heq
      rw [keyword_paramText (notMem_keyword param), keyword_paramText (notMem_keyword t)] at hkeyword
      exact hlast t ht hkeyword.symm
  · rw [mem_append, mem_ite_singleton, hmem]
    constructor
    · rintro (⟨henough, rfl⟩ | ⟨K, ⟨t, ht, hkeyword⟩, hrest⟩)
      · exact ⟨keyword param, ⟨param, mem_cons_self, rfl⟩, henough, rfl⟩
      · exact ⟨K, ⟨t, mem_cons_of_mem param ht, hkeyword⟩, hrest⟩
    · rintro ⟨K, ⟨t, ht, rfl⟩, henough, rfl⟩
      rcases mem_cons.mp ht with rfl | ht
      · exact Or.inl ⟨henough, rfl⟩
      · exact Or.inr ⟨keyword t, ⟨t, ht, rfl⟩, henough, rfl⟩

lemma take_append_decimalInt {param : List Char} (h : '=' ∈ param) :
    param.take ((keyword param).length + 1) ++ decimalInt (medianInt32 vals)
      = paramText (keyword param) vals := by
  rw [take_keyword h, append_assoc, singleton_append, paramText]

/-- **The loop takes each keyword once.**  `vals` are the values of the first keyword so far. -/
lemma paramLoop_spec {nVotes totalAuthorities : ℕ} {param : List Char}
    {rest : List (List Char)} (hparam : ∀ s ∈ param :: rest, IsParam s)
    (hsorted : (param :: rest).Pairwise (· ≤ ·))
    (hroom : ∀ K, (valuesAfter (keyword param) vals (param :: rest) K).length ≤ nVotes) :
    ∃ output, paramLoop nVotes totalAuthorities ((keyword param).length + 1) vals (param :: rest)
        = some output ∧ IsOutput totalAuthorities (valuesAfter (keyword param) vals (param :: rest))
          (param :: rest) output := by
  induction rest generalizing vals param with
  | nil =>
    obtain ⟨hmem, hsome⟩ := hparam param mem_cons_self
    obtain ⟨val, hval⟩ := Option.isSome_iff_exists.mp hsome
    have hvalues : valuesAfter (keyword param) vals [param] (keyword param) = vals ++ [val] := by
      rw [valuesAfter, if_pos rfl, valuesOf_cons hval, if_pos rfl, valuesOf_eq_nil (by simp),
        append_nil]
    have hlen := hroom (keyword param)
    rw [hvalues, length_append, length_singleton] at hlen
    rw [paramLoop, if_neg (by omega), hval]
    refine ⟨_, rfl, ?_⟩
    have hnil : IsOutput totalAuthorities (valuesAfter (keyword param) vals [param]) [] [] :=
      ⟨nodup_nil, fun s => by simp⟩
    have hcons := hnil.cons param (by simp)
    rw [hvalues, append_nil] at hcons
    rw [take_append_decimalInt hmem]
    exact hcons
  | cons nextParam rest ih =>
    obtain ⟨hmem, hsome⟩ := hparam param mem_cons_self
    obtain ⟨hmem', -⟩ := hparam nextParam (by simp)
    obtain ⟨val, hval⟩ := Option.isSome_iff_exists.mp hsome
    obtain ⟨hle, hsorted'⟩ := pairwise_cons.mp hsorted
    have hparam' : ∀ s ∈ nextParam :: rest, IsParam s := fun s hs =>
      hparam s (mem_cons_of_mem param hs)
    have hlen := hroom (keyword param)
    rw [valuesAfter, if_pos rfl, valuesOf_cons hval, if_pos rfl] at hlen
    simp only [length_append, length_singleton] at hlen
    rw [paramLoop, if_neg (by omega), hval]
    by_cases hsame : keyword nextParam = keyword param
    · have hvalues : valuesAfter (keyword nextParam) (vals ++ [val]) (nextParam :: rest)
          = valuesAfter (keyword param) vals (param :: nextParam :: rest) := by
        funext K
        rw [valuesAfter, valuesAfter, valuesOf_cons hval, hsame]
        by_cases hK : K = keyword param
        · simp [hK]
        · simp [hK, Ne.symm hK]
      have htake : ¬ nextParam.take ((keyword param).length + 1)
          ≠ param.take ((keyword param).length + 1) :=
        not_not.mpr ((take_keyword_eq_iff hmem hmem').mpr hsame)
      obtain ⟨output, hout, hspec⟩ := ih hparam' hsorted' (by rwa [hvalues])
      rw [hvalues] at hspec
      rw [hsame] at hout
      dsimp only
      rw [if_neg htake]
      refine ⟨output, hout, hspec.1, fun s => ?_⟩
      rw [hspec.2]
      refine exists_congr fun K => and_congr_left fun _ => ?_
      constructor
      · rintro ⟨t, ht, rfl⟩
        exact ⟨t, mem_cons_of_mem param ht, rfl⟩
      · rintro ⟨t, ht, rfl⟩
        rcases mem_cons.mp ht with rfl | ht
        · exact ⟨nextParam, mem_cons_self, hsame⟩
        · exact ⟨t, ht, rfl⟩
    · have hlast : ∀ t ∈ nextParam :: rest, keyword t ≠ keyword param := fun t ht heq => by
        rcases mem_cons.mp ht with rfl | ht'
        · exact hsame heq
        · refine hsame (keyword_between hmem (hparam' t ht).1 (hle nextParam mem_cons_self)
            ((pairwise_cons.mp hsorted').1 t ht') heq.symm)
      have hfirst : valuesAfter (keyword param) vals (param :: nextParam :: rest) (keyword param)
          = vals ++ [val] := by
        rw [valuesAfter, if_pos rfl, valuesOf_cons hval, if_pos rfl, valuesOf_eq_nil hlast,
          append_nil]
      have hothers : ∀ K, K ≠ keyword param →
          valuesAfter (keyword nextParam) [] (nextParam :: rest) K
            = valuesAfter (keyword param) vals (param :: nextParam :: rest) K := fun K hK => by
        rw [valuesAfter, valuesAfter, valuesOf_cons hval, if_neg hK, if_neg (Ne.symm hK)]
        simp
      have htake : nextParam.take ((keyword param).length + 1)
          ≠ param.take ((keyword param).length + 1) :=
        fun heq => hsame ((take_keyword_eq_iff hmem hmem').mp heq)
      have hroom' : ∀ K,
          (valuesAfter (keyword nextParam) [] (nextParam :: rest) K).length ≤ nVotes := fun K => by
        by_cases hK : K = keyword param
        · rw [hK, valuesAfter, valuesOf_eq_nil hlast]
          simp
        · rw [hothers K hK]
          exact hroom K
      obtain ⟨output, hout, hspec⟩ := ih hparam' hsorted' hroom'
      dsimp only
      rw [if_pos htake, hout, Option.map_some]
      refine ⟨_, rfl, ?_⟩
      have hrest : IsOutput totalAuthorities
          (valuesAfter (keyword param) vals (param :: nextParam :: rest)) (nextParam :: rest)
            output := by
        refine ⟨hspec.1, fun s => ?_⟩
        rw [hspec.2]
        refine exists_congr fun K => and_congr_right fun hK => ?_
        obtain ⟨t, ht, rfl⟩ := hK
        rw [hothers (keyword t) (hlast t ht)]
      have hcons := hrest.cons param hlast
      rw [hfirst] at hcons
      rw [take_append_decimalInt hmem]
      exact hcons

/-! ## All votes -/

lemma valuesOf_append (xs ys : List (List Char)) :
    valuesOf K (xs ++ ys) = valuesOf K xs ++ valuesOf K ys := by
  rw [valuesOf, filter_append, filterMap_append]
  rfl

lemma WellFormedParams.valuesOf_eq {params : List (List Char)} (h : WellFormedParams params)
    (K : List Char) : valuesOf K params = (proposal K params).toList := by
  obtain ⟨hparam, -, hunique⟩ := h
  induction params with
  | nil => rfl
  | cons param rest ih =>
    obtain ⟨hnew, hunique'⟩ := nodup_cons.mp hunique
    obtain ⟨val, hval⟩ := Option.isSome_iff_exists.mp (hparam param mem_cons_self).2
    have hrest := ih (fun s hs => hparam s (mem_cons_of_mem param hs)) hunique'
    rw [valuesOf_cons hval]
    by_cases hK : keyword param = K
    · have hnone : valuesOf K rest = [] := valuesOf_eq_nil fun t ht heq =>
        hnew (List.mem_map.mpr ⟨t, ht, heq.trans hK.symm⟩)
      rw [hnone, if_pos hK, proposal, find?_cons_of_pos (by simpa using hK)]
      simp [hval]
    · rw [if_neg hK, nil_append, hrest, proposal, proposal, find?_cons_of_neg (by simpa using hK)]

lemma proposals_eq {votes : List (Option (List (List Char)))}
    (h : ∀ params, some params ∈ votes → WellFormedParams params) :
    valuesOf K (votes.filterMap id).flatten = proposals K votes := by
  induction votes with
  | nil => rfl
  | cons vote votes ih =>
    have hrest := ih fun params hparams => h params (mem_cons_of_mem vote hparams)
    cases vote with
    | none => exact hrest
    | some params =>
      have hvote := (h params mem_cons_self).valuesOf_eq K
      have hflat : ((some params :: votes).filterMap id).flatten
          = params ++ (votes.filterMap id).flatten := rfl
      have hcons : proposals K (some params :: votes)
          = (proposal K params).toList ++ proposals K votes := by
        rw [proposals, filterMap_cons, Option.bind_some]
        cases proposal K params with
        | none => rfl
        | some val => rfl
      rw [hflat, hcons, valuesOf_append, hvote, hrest]

lemma enoughVotes_iff {totalAuthorities i : ℕ} :
    enoughVotes totalAuthorities i = true ↔ totalAuthorities < 2 * i ∨ 3 ≤ i := by
  rw [enoughVotes, decide_eq_true_eq, minVotesForParam]
  omega

/-- What the parameters of a consensus are: a keyword that more than half of the authorities or at
least three voted for is there once, with the low median of what they propose, and no other; and where
a majority of them proposes values within bounds, the median is within these bounds. -/
structure ComputesParams (votes : List (Option (List (List Char)))) (totalAuthorities : ℕ)
    (output : List (List Char)) : Prop where
  nodup : output.Nodup
  mem : ∀ s, s ∈ output ↔ ∃ K, (totalAuthorities < 2 * (proposals K votes).length
      ∨ 3 ≤ (proposals K votes).length)
    ∧ s = K ++ '=' :: decimalInt (medianInt32 (proposals K votes))
  median : ∀ K a b, ((proposals K votes).length
      < 2 * (proposals K votes).countP fun v => a ≤ v ∧ v ≤ b) →
    a ≤ medianInt32 (proposals K votes) ∧ medianInt32 (proposals K votes) ≤ b

/-- **Consensus parameters.**  No assertion fails, and the output is what the votes call for. -/
theorem dirvoteComputeParams_spec {votes : List (Option (List (List Char)))} (totalAuthorities : ℕ)
    (h : ∀ params, some params ∈ votes → WellFormedParams params) :
    ∃ output, dirvoteComputeParams votes totalAuthorities = some output
      ∧ ComputesParams votes totalAuthorities output := by
  have hperm := perm_insertionSort (· ≤ ·) (votes.filterMap id).flatten
  have hsorted := pairwise_insertionSort (· ≤ ·) (votes.filterMap id).flatten
  have hvalues : ∀ K, (valuesOf K ((votes.filterMap id).flatten.insertionSort (· ≤ ·))).Perm
      (proposals K votes) := fun K => by
    rw [← proposals_eq h]
    exact (hperm.filter _).filterMap _
  have hparam : ∀ s ∈ (votes.filterMap id).flatten.insertionSort (· ≤ ·), IsParam s := by
    intro s hs
    obtain ⟨params, hparams, hmem⟩ := mem_flatten.mp (hperm.mem_iff.mp hs)
    obtain ⟨vote, hvote, rfl⟩ := mem_filterMap.mp hparams
    exact (h params hvote).isParam s hmem
  rw [dirvoteComputeParams]
  generalize (votes.filterMap id).flatten.insertionSort (· ≤ ·) = l at hsorted hvalues hparam
  have hmain : ∃ output, (match l with
      | [] => some []
      | param :: rest =>
        if '=' ∉ param then none
        else paramLoop votes.length totalAuthorities ((keyword param).length + 1) [] (param :: rest))
        = some output ∧ IsOutput totalAuthorities (fun K => valuesOf K l) l output := by
    cases l with
    | nil => exact ⟨[], rfl, nodup_nil, fun s => by simp⟩
    | cons param rest =>
      have hafter : valuesAfter (keyword param) [] (param :: rest)
          = fun K => valuesOf K (param :: rest) := by
        funext K
        simp [valuesAfter]
      have hroom : ∀ K, (valuesAfter (keyword param) [] (param :: rest) K).length
          ≤ votes.length := fun K => by
        rw [hafter, (hvalues K).length_eq]
        exact length_filterMap_le _ _
      obtain ⟨output, hout, hspec⟩ := paramLoop_spec hparam hsorted hroom
      rw [hafter] at hspec
      dsimp only
      rw [if_neg (not_not.mpr (hparam param mem_cons_self).1)]
      exact ⟨output, hout, hspec⟩
  obtain ⟨output, hout, hnodup, hmem⟩ := hmain
  refine ⟨output, hout, hnodup, fun s => ?_, fun K a b => medianInt32_mem_Icc⟩
  rw [hmem]
  refine exists_congr fun K => ?_
  rw [enoughVotes_iff, (hvalues K).length_eq, paramText, medianInt32_perm (hvalues K)]
  refine and_iff_right_of_imp fun henough => ?_
  by_contra hno
  have hnil := valuesOf_eq_nil fun t ht heq => hno ⟨t, ht, heq⟩
  have hlen := (hvalues K).length_eq
  rw [hnil, length_nil] at hlen
  omega

/-- Two votes of three authorities. -/
def twoVotes : List (Option (List (List Char))) :=
  [some ["ab=5".toList, "b=1".toList], some ["ab=-2".toList]]

theorem dirvoteComputeParams_spec_twoVotes :
    ∃ output, dirvoteComputeParams twoVotes 3 = some output ∧ ComputesParams twoVotes 3 output := by
  refine dirvoteComputeParams_spec 3 fun params hparams => ?_
  rcases mem_cons.mp hparams with heq | hmem
  · obtain rfl := Option.some.inj heq
    exact ⟨by decide, by decide, by decide⟩
  · obtain rfl := Option.some.inj (mem_singleton.mp hmem)
    exact ⟨by decide, by decide, by decide⟩

end Ator.Dirauth
