import AtorProtocol.Circpad.TokenRemoval
import Mathlib.Data.List.GetD

/-!
# Sampling a delay

`circpad_machine_sample_delay` draws a number below the tokens of the histogram, walks over the
bins until their tokens reach the number, and draws a delay within the bin where it stops.

* `selectBin_first` — the first bin with tokens is selected by one draw more than it has tokens.
* `samplesRight_iff` — each bin is selected by as many draws as it has tokens exactly where only one
  bin has any.
-/

namespace Ator.Circpad

open List Option

/-- `while (!histogram[curr_bin]) curr_bin++`: the bin, its tokens and the bins behind it, or `none`
where the loop runs past the end. -/
def skipEmptyBins : ℕ → List UInt32 → Option (ℕ × UInt32 × List UInt32)
  | _, [] => none
  | currBin, tokens :: bins =>
    if tokens = 0 then skipEmptyBins (currBin + 1) bins else some (currBin, tokens, bins)

/-- `while (curr_weight < bin_choice)`; the sums are below `2 ^ 39`, far from the end of a
`uint64_t`. -/
def scanBins (binChoice : ℕ) : List UInt32 → ℕ → ℕ → Option ℕ
  | [], currBin, currWeight => if currWeight < binChoice then none else some currBin
  | tokens :: bins, currBin, currWeight =>
    if currWeight < binChoice then scanBins binChoice bins (currBin + 1) (currWeight + tokens.toNat)
    else some currBin

/-- The bin that a draw selects. -/
def selectBin (histogram : List UInt32) (binChoice : ℕ) : Option ℕ :=
  (skipEmptyBins 0 histogram).bind fun (currBin, tokens, bins) =>
    scanBins binChoice bins currBin tokens.toNat

/-- The tokens to sample from. -/
def histogramToSample (mi : MachineRuntime) (state : PaddingState) : List UInt32 :=
  mi.histogram.getD state.histogram

/-- `histogram_total_tokens`: a sum of 64 bits over the mutable histogram, or the constant of the
state. -/
def histogramTotalTokens (mi : MachineRuntime) (state : PaddingState) : ℕ :=
  match mi.histogram with
  | some tokens => (tokens.map UInt32.toNat).sum
  | none => state.histogramTotalTokens.toNat

/-- `circpad_machine_sample_delay`, with the values that the random number generator gives for the
bin and within the bin, and the sample of `iat_dist`; `none` is a failed assertion, or a read past
the end. -/
def machineSampleDelay (binChoice : ℕ) (uint64Range : UInt32 → UInt32 → UInt32)
    (iatDelay : UInt32) (mi : MachineRuntime) : Option (UInt32 × MachineRuntime) :=
  match machineCurrentState mi with
  | none => none
  | some state =>
    if state.usesIatDist then some (iatDelay, mi)
    else if histogramTotalTokens mi state = 0 then some (delayInfinite, mi)
    else
      match skipEmptyBins 0 (histogramToSample mi state) with
      | none => none
      | some (firstBin, tokens, bins) =>
        match scanBins binChoice bins firstBin tokens.toNat with
        -- "It should be impossible to run past the end of the histogram"
        | none => some (delayInfinite, mi)
        | some currBin =>
          if currBin ≥ state.histogram.length
              ∨ (histogramToSample mi state).getD currBin 0 = 0 then some (delayInfinite, mi)
          else
            let mi' := if state.tokenRemoval ≠ .none then { mi with chosenBin := currBin } else mi
            if currBin ≥ state.infinityBin then
              some (delayInfinite,
                if state.tokenRemoval ≠ .none ∧ mi'.tokensIn currBin > 0 then mi'.removeAt currBin
                else mi')
            else
              let binStart := histogramBinToUsec mi currBin
              let binEnd := histogramBinToUsec mi (currBin + 1)
              -- a shift past the end of a `circpad_delay_t`
              if binStart ≥ binEnd then some (binStart, mi')
              else some (uint64Range binStart binEnd, mi')

/-- `crypto_fast_rng_uint64_range` answers a number of `[min, max)`. -/
def InRange (uint64Range : UInt32 → UInt32 → UInt32) : Prop :=
  ∀ min max, min < max → min ≤ uint64Range min max ∧ uint64Range min max < max

/-! ## The walk -/

variable {mi : MachineRuntime} {state : PaddingState} {histogram bins : List UInt32}
  {binChoice currBin currWeight first : ℕ} {tokens : UInt32}
  {uint64Range : UInt32 → UInt32 → UInt32} {iatDelay : UInt32}

lemma skipEmptyBins_eq (h : skipEmptyBins currBin histogram = some (first, tokens, bins)) :
    histogram = List.replicate (first - currBin) 0 ++ tokens :: bins
      ∧ currBin ≤ first ∧ tokens ≠ 0 := by
  induction histogram generalizing currBin with
  | nil => simp [skipEmptyBins] at h
  | cons count rest ih =>
    rw [skipEmptyBins] at h
    split_ifs at h with hzero
    · obtain ⟨hrest, hle, htokens⟩ := ih h
      refine ⟨?_, by omega, htokens⟩
      rw [show first - currBin = first - (currBin + 1) + 1 by omega, replicate_succ,
        cons_append, ← hrest, hzero]
    · obtain ⟨rfl, rfl, rfl⟩ : currBin = first ∧ count = tokens ∧ rest = bins := by
        simpa using h
      simp [hzero]

lemma skipEmptyBins_isSome (h : ∃ tokens ∈ histogram, tokens ≠ 0) :
    (skipEmptyBins currBin histogram).isSome := by
  induction histogram generalizing currBin with
  | nil => simp at h
  | cons count rest ih =>
    rw [skipEmptyBins]
    split_ifs with hzero
    · refine ih ?_
      obtain ⟨tokens, hmem, htokens⟩ := h
      rcases mem_cons.mp hmem with rfl | hmem
      · exact absurd hzero htokens
      · exact ⟨tokens, hmem, htokens⟩
    · rfl

lemma scanBins_stocked (h : binChoice ≤ currWeight + (bins.map UInt32.toNat).sum) :
    ∃ bin, scanBins binChoice bins currBin currWeight = some bin
      ∧ (bin = currBin ∧ binChoice ≤ currWeight
        ∨ currBin < bin ∧ bins.getD (bin - currBin - 1) 0 ≠ 0) := by
  induction bins generalizing currBin currWeight with
  | nil =>
    rw [map_nil, sum_nil] at h
    exact ⟨currBin, by rw [scanBins, if_neg (by omega)], .inl ⟨rfl, h⟩⟩
  | cons tokens bins ih =>
    rw [map_cons, sum_cons, ← Nat.add_assoc] at h
    rw [scanBins]
    split_ifs with hlt
    · obtain ⟨bin, hscan, hbin⟩ := @ih (currBin + 1) (currWeight + tokens.toNat) h
      refine ⟨bin, hscan, .inr ?_⟩
      rcases hbin with ⟨rfl, hle⟩ | ⟨hgt, htokens⟩
      · refine ⟨Nat.lt_add_one _, ?_⟩
        rw [show currBin + 1 - currBin - 1 = 0 by omega, getD_cons_zero]
        rintro rfl
        exact absurd hle (by simpa using hlt)
      · refine ⟨by omega, ?_⟩
        rw [show bin - currBin - 1 = bin - (currBin + 1) - 1 + 1 by omega, getD_cons_succ]
        exact htokens
    · exact ⟨currBin, rfl, .inl ⟨rfl, by omega⟩⟩

lemma sum_replicate_append (n : ℕ) :
    ((List.replicate n (0 : UInt32) ++ tokens :: bins).map UInt32.toNat).sum
      = tokens.toNat + (bins.map UInt32.toNat).sum := by
  rw [map_append, sum_append, map_replicate, map_cons, sum_cons,
    UInt32.toNat_zero, sum_replicate_nat, Nat.mul_zero, Nat.zero_add]

/-- **No draw selects an empty bin**, or runs past the end. -/
lemma selectBin_stocked (hstocked : ∃ tokens ∈ histogram, tokens ≠ 0)
    (h : binChoice ≤ (histogram.map UInt32.toNat).sum) :
    ∃ bin, selectBin histogram binChoice = some bin ∧ histogram.getD bin 0 ≠ 0 := by
  obtain ⟨⟨first, tokens, bins⟩, hskip⟩ := isSome_iff_exists.mp (@skipEmptyBins_isSome _ 0 hstocked)
  obtain ⟨heq, -, htokens⟩ := skipEmptyBins_eq hskip
  rw [heq, sum_replicate_append] at h
  obtain ⟨bin, hscan, hbin⟩ := @scanBins_stocked bins binChoice first _ h
  refine ⟨bin, by rw [selectBin, hskip]; exact hscan, ?_⟩
  rw [heq, Nat.sub_zero, getD_append_right _ _ _ _
    (by rw [length_replicate]; omega), length_replicate]
  rcases hbin with ⟨rfl, -⟩ | ⟨hgt, hne⟩
  · rwa [Nat.sub_self, getD_cons_zero]
  · rwa [show bin - first = bin - first - 1 + 1 by omega, getD_cons_succ]

lemma selectBin_first (hskip : skipEmptyBins 0 histogram = some (first, tokens, bins))
    (h : binChoice ≤ tokens.toNat) : selectBin histogram binChoice = some first := by
  rw [selectBin, hskip]
  show scanBins binChoice bins first tokens.toNat = some first
  cases bins with
  | nil | cons count bins => exact if_neg (Nat.not_lt.mpr h)

/-! ## Proportional samples -/

/-- The bin as a range of delays; the infinity bin is the infinite delay. -/
def InBin (mi : MachineRuntime) (state : PaddingState) (bin : ℕ) (delay : UInt32) : Prop :=
  if bin + 1 < state.histogram.length then
    (state.histogramEdges.getD bin 0).toNat + (rttAddUsec mi state).toNat ≤ delay.toNat
      ∧ delay.toNat < (state.histogramEdges.getD (bin + 1) 0).toNat + (rttAddUsec mi state).toNat
  else delay = delayInfinite

/-- Each bin is selected by as many draws as it has tokens, only bins with tokens are selected, and
the delay is in the selected bin. -/
structure SamplesRight (mi : MachineRuntime) (state : PaddingState) : Prop where
  proportional : ∀ bin, (List.range (histogramTotalTokens mi state)).countP
      (fun draw => selectBin (histogramToSample mi state) draw = some bin)
    = ((histogramToSample mi state).getD bin 0).toNat
  stocked : ∀ draw < histogramTotalTokens mi state,
    ∃ bin, selectBin (histogramToSample mi state) draw = some bin
      ∧ (histogramToSample mi state).getD bin 0 ≠ 0
  in_bin : ∀ draw < histogramTotalTokens mi state, ∀ uint64Range, InRange uint64Range →
    ∀ iatDelay bin, selectBin (histogramToSample mi state) draw = some bin →
      ∃ delay mi', machineSampleDelay draw uint64Range iatDelay mi = some (delay, mi')
        ∧ InBin mi state bin delay

/-- A state with a histogram that has tokens. -/
structure HasSamples (mi : MachineRuntime) (state : PaddingState) : Prop extends
  InHistogram mi state where
  no_iat : state.usesIatDist = false
  length_eq : (histogramToSample mi state).length = state.histogram.length
  tokens : ∃ tokens ∈ histogramToSample mi state, tokens ≠ 0

/-- All tokens are in one bin, and the shift of its lower edge is a `circpad_delay_t`. -/
def OneBin (mi : MachineRuntime) (state : PaddingState) : Prop :=
  ∃ bin, (∀ b, (histogramToSample mi state).getD b 0 ≠ 0 ↔ b = bin)
    ∧ (bin + 1 < state.histogram.length →
      (state.histogramEdges.getD bin 0).toNat + (rttAddUsec mi state).toNat < 2 ^ 32)

variable {bin : ℕ}

lemma InHistogram.binToUsec_eq (h : InHistogram mi state)
    (hbin : bin < state.histogram.length) :
    histogramBinToUsec mi bin = state.histogramEdges.getD bin 0 + rttAddUsec mi state := by
  rw [← state.edges_length] at hbin
  simp only [histogramBinToUsec, h.in_state, dif_pos hbin, getD_eq_getElem _ _ hbin]

lemma InHistogram.edge_lt (h : InHistogram mi state)
    (hbin : bin + 1 < state.histogram.length) :
    (state.histogramEdges.getD bin 0).toNat < (state.histogramEdges.getD (bin + 1) 0).toNat := by
  rw [← state.edges_length] at hbin
  rw [getD_eq_getElem _ _ hbin, getD_eq_getElem _ _ (Nat.lt_of_succ_lt hbin)]
  exact UInt32.lt_iff_toNat_lt.mp (pairwise_iff_getElem.mp h.isHistogram.edges_increase bin
    (bin + 1) (Nat.lt_of_succ_lt hbin) hbin (Nat.lt_add_one bin))

/-- The delay that is drawn in a bin. -/
def delayIn (mi : MachineRuntime) (state : PaddingState) (uint64Range : UInt32 → UInt32 → UInt32)
    (bin : ℕ) : UInt32 :=
  if bin ≥ state.infinityBin then delayInfinite
  else if histogramBinToUsec mi bin ≥ histogramBinToUsec mi (bin + 1) then histogramBinToUsec mi bin
  else uint64Range (histogramBinToUsec mi bin) (histogramBinToUsec mi (bin + 1))

lemma HasSamples.sampleDelay_eq (h : HasSamples mi state)
    (htotal : histogramTotalTokens mi state ≠ 0)
    (hselect : selectBin (histogramToSample mi state) binChoice = some bin)
    (htokens : (histogramToSample mi state).getD bin 0 ≠ 0) :
    ∃ mi', machineSampleDelay binChoice uint64Range iatDelay mi
      = some (delayIn mi state uint64Range bin, mi') := by
  have hbin : bin < state.histogram.length := by
    rw [← h.length_eq]
    by_contra hge
    exact htokens (getD_eq_default _ _ (Nat.le_of_not_lt hge))
  obtain ⟨⟨first, tokens, bins⟩, hskip, hscan⟩ := bind_eq_some_iff.mp hselect
  have hsane : ¬ (bin ≥ state.histogram.length ∨ (histogramToSample mi state).getD bin 0 = 0) := by
    rintro (hge | hzero)
    · omega
    · exact htokens hzero
  simp only [machineSampleDelay, h.in_state, h.no_iat, Bool.false_eq_true, if_false, if_neg htotal,
    hskip, hscan, if_neg hsane, delayIn]
  split_ifs <;> exact ⟨_, rfl⟩

lemma HasSamples.inBin_delayIn (h : HasSamples mi state) (hrange : InRange uint64Range)
    (hfits : bin + 1 < state.histogram.length →
      (state.histogramEdges.getD bin 0).toNat + (rttAddUsec mi state).toNat < 2 ^ 32) :
    InBin mi state bin (delayIn mi state uint64Range bin) := by
  rw [InBin]
  split_ifs with hfinite
  · have hedge := h.edge_lt hfinite
    have hlower := hfits hfinite
    have hstart : (histogramBinToUsec mi bin).toNat
        = (state.histogramEdges.getD bin 0).toNat + (rttAddUsec mi state).toNat := by
      rw [h.binToUsec_eq (Nat.lt_of_succ_lt hfinite), UInt32.toNat_add, Nat.mod_eq_of_lt hlower]
    have hend : (histogramBinToUsec mi (bin + 1)).toNat
        = ((state.histogramEdges.getD (bin + 1) 0).toNat + (rttAddUsec mi state).toNat)
          % 2 ^ 32 := by
      rw [h.binToUsec_eq hfinite, UInt32.toNat_add]
    rw [delayIn, if_neg (by rw [PaddingState.infinityBin]; omega)]
    split_ifs with hwrap
    · omega
    · obtain ⟨hmin, hmax⟩ := hrange _ _ (UInt32.not_le.mp hwrap)
      rw [UInt32.le_iff_toNat_le] at hmin
      rw [UInt32.lt_iff_toNat_lt] at hmax
      omega
  · exact if_pos (by rw [PaddingState.infinityBin]; omega)

/-! ## Where all tokens are in one bin -/

lemma HasSamples.exists_first (h : HasSamples mi state) : ∃ first tokens bins,
    skipEmptyBins 0 (histogramToSample mi state) = some (first, tokens, bins)
      ∧ (histogramToSample mi state).getD first 0 = tokens ∧ tokens ≠ 0 := by
  obtain ⟨⟨first, tokens, bins⟩, hskip⟩ := isSome_iff_exists.mp (@skipEmptyBins_isSome _ 0 h.tokens)
  obtain ⟨heq, -, htokens⟩ := skipEmptyBins_eq hskip
  refine ⟨first, tokens, bins, hskip, ?_, htokens⟩
  rw [heq, Nat.sub_zero, getD_append_right _ _ _ _ (by rw [length_replicate]),
    length_replicate, Nat.sub_self, getD_cons_zero]

lemma sum_eq_of_oneBin (h : ∀ b, histogram.getD b 0 ≠ 0 ↔ b = bin) :
    histogram.sum = histogram.getD bin 0
      ∧ (histogram.map UInt32.toNat).sum = (histogram.getD bin 0).toNat := by
  induction histogram generalizing bin with
  | nil => exact absurd rfl ((h bin).mpr rfl)
  | cons tokens bins ih =>
    rw [sum_cons, map_cons, sum_cons]
    cases bin with
    | zero =>
      have hrest : ∀ tokens' ∈ bins, tokens' = 0 := by
        intro tokens' hmem
        obtain ⟨i, hi, rfl⟩ := getElem_of_mem hmem
        by_contra hne
        have hother := (h (i + 1)).mp (by
          rwa [getD_cons_succ, getD_eq_getElem _ _ hi])
        omega
      rw [eq_replicate_of_mem hrest, map_replicate, UInt32.toNat_zero,
        sum_replicate_nat, Nat.mul_zero, getD_cons_zero]
      refine ⟨?_, rfl⟩
      have hzero : ∀ n, (replicate n (0 : UInt32)).sum = 0 := by
        intro n
        induction n with
        | zero => rfl
        | succ n ih => rw [replicate_succ, sum_cons, ih, UInt32.add_zero]
      rw [hzero, UInt32.add_zero]
    | succ bin =>
      have hfirst : tokens = 0 := by
        by_contra hne
        have hother := (h 0).mp (by rwa [getD_cons_zero])
        omega
      have hbins : ∀ b, bins.getD b 0 ≠ 0 ↔ b = bin := by
        intro b
        have hb := h (b + 1)
        rw [getD_cons_succ] at hb
        rw [hb]
        omega
      obtain ⟨hsum, hnat⟩ := ih hbins
      rw [hfirst, hsum, hnat, UInt32.zero_add, UInt32.toNat_zero, Nat.zero_add, getD_cons_succ]
      exact ⟨rfl, rfl⟩

lemma HasSamples.total_eq (h : HasSamples mi state)
    (hone : ∀ b, (histogramToSample mi state).getD b 0 ≠ 0 ↔ b = bin) :
    histogramTotalTokens mi state = ((histogramToSample mi state).getD bin 0).toNat := by
  obtain ⟨hsum, hnat⟩ := sum_eq_of_oneBin hone
  cases hhistogram : mi.histogram with
  | none =>
    rw [← hsum]
    simp only [histogramTotalTokens, histogramToSample, hhistogram, getD_none,
      h.isHistogram.total_eq]
  | some tokens =>
    rw [← hnat]
    simp only [histogramTotalTokens, histogramToSample, hhistogram, getD_some]

lemma samplesRight_of_oneBin (h : HasSamples mi state) (hone : OneBin mi state) :
    SamplesRight mi state := by
  obtain ⟨bin, hone, hfits⟩ := hone
  have htotal := h.total_eq hone
  have hne : (histogramToSample mi state).getD bin 0 ≠ 0 := (hone bin).mpr rfl
  have hpos : histogramTotalTokens mi state ≠ 0 := by
    rw [htotal]
    exact fun hzero => hne (UInt32.toNat_inj.mp hzero)
  have hselect : ∀ draw < histogramTotalTokens mi state,
      selectBin (histogramToSample mi state) draw = some bin := by
    intro draw hdraw
    obtain ⟨b, hb, htokens⟩ := @selectBin_stocked (histogramToSample mi state) draw h.tokens (by
      rw [(sum_eq_of_oneBin hone).2, ← htotal]
      exact hdraw.le)
    rwa [(hone b).mp htokens] at hb
  refine ⟨fun b => ?_, fun draw hdraw => ⟨bin, hselect draw hdraw, hne⟩, ?_⟩
  · rcases eq_or_ne b bin with rfl | hother
    · rw [← htotal, countP_eq_length.mpr, length_range]
      intro draw hdraw
      exact decide_eq_true (hselect draw (mem_range.mp hdraw))
    · have hzero : (histogramToSample mi state).getD b 0 = 0 := by
        by_contra hb
        exact hother ((hone b).mp hb)
      rw [hzero, UInt32.toNat_zero, countP_eq_zero]
      intro draw hdraw hsame
      have heq := (hselect draw (mem_range.mp hdraw)).symm.trans (of_decide_eq_true hsame)
      exact hother (some.inj heq).symm
  · intro draw hdraw uint64Range hrange iatDelay b hb
    obtain rfl := some.inj ((hselect draw hdraw).symm.trans hb)
    obtain ⟨mi', hsample⟩ := @HasSamples.sampleDelay_eq mi state draw uint64Range iatDelay bin h
      hpos hb hne
    exact ⟨_, mi', hsample, h.inBin_delayIn hrange hfits⟩

lemma oneBin_of_samplesRight (h : HasSamples mi state) (hright : SamplesRight mi state) :
    OneBin mi state := by
  obtain ⟨first, tokens, bins, hskip, hfirst, htokens⟩ := h.exists_first
  have hselect : ∀ draw ≤ tokens.toNat, selectBin (histogramToSample mi state) draw = some first :=
    fun draw hdraw => selectBin_first hskip hdraw
  have hcount := hright.proportional first
  rw [hfirst] at hcount
  -- one more draw than tokens would select the first bin
  have hle : histogramTotalTokens mi state ≤ tokens.toNat := by
    by_contra hlt
    have hmore : (range (tokens.toNat + 1)).countP
        (fun draw => selectBin (histogramToSample mi state) draw = some first)
        = tokens.toNat + 1 := by
      rw [countP_eq_length.mpr, length_range]
      intro draw hdraw
      rw [mem_range] at hdraw
      exact decide_eq_true (hselect draw (by omega))
    have hsublist := @Sublist.countP_le _
      (fun draw => decide (selectBin (histogramToSample mi state) draw = some first)) _ _
      (range_sublist.mpr (show tokens.toNat + 1 ≤ histogramTotalTokens mi state by omega))
    omega
  have hpos : 0 < histogramTotalTokens mi state := by
    have hbound := @countP_le_length _
      (fun draw => decide (selectBin (histogramToSample mi state) draw = some first))
      (range (histogramTotalTokens mi state))
    rw [length_range] at hbound
    have hnonzero : tokens.toNat ≠ 0 := fun hzero => htokens (UInt32.toNat_inj.mp hzero)
    omega
  refine ⟨first, fun b => ⟨fun hb => ?_, ?_⟩, fun hfinite => ?_⟩
  · by_contra hother
    have hnone := hright.proportional b
    rw [countP_eq_zero.mpr] at hnone
    · exact hb (UInt32.toNat_inj.mp hnone.symm)
    · intro draw hdraw hsame
      rw [mem_range] at hdraw
      have heq := (hselect draw (by omega)).symm.trans (of_decide_eq_true hsame)
      exact hother (some.inj heq).symm
  · rintro rfl
    rwa [hfirst]
  · have hlower : InRange fun min _ => min := fun min max hlt => ⟨UInt32.le_refl min, hlt⟩
    obtain ⟨delay, mi', -, hbin⟩ := hright.in_bin 0 hpos _ hlower 0 first
      (hselect 0 (Nat.zero_le _))
    rw [InBin, if_pos hfinite] at hbin
    exact hbin.1.trans_lt delay.toNat_lt

/-- **Delays are sampled right** exactly where all tokens are in one bin. -/
theorem samplesRight_iff (h : HasSamples mi state) : SamplesRight mi state ↔ OneBin mi state :=
  ⟨oneBin_of_samplesRight h, samplesRight_of_oneBin h⟩

/-- A histogram with five tokens, all in its first bin. -/
def fiveTokens : PaddingState where
  histogram := [5, 0]
  histogramEdges := [500, 1000000]
  histogramTotalTokens := 5
  usesIatDist := false
  lengthIncludesNonpadding := false
  useRttEstimate := false
  tokenRemoval := .closest
  edges_length := rfl
  histogram_length_le := by decide

lemma hasSamples_ofState (hvalid : paddingMachineStateIsValid state)
    (hno : state.usesIatDist = false) (htokens : ∃ tokens ∈ state.histogram, tokens ≠ 0)
    (rttEstimateUsec : UInt32) :
    HasSamples (MachineRuntime.ofState state hvalid rttEstimateUsec) state where
  in_state := rfl
  bins := by
    rintro hnil
    simp [hnil] at htokens
  no_iat := hno
  length_eq := rfl
  tokens := htokens

theorem samplesRight_fiveTokens :
    SamplesRight (MachineRuntime.ofState fiveTokens (by decide) 0) fiveTokens := by
  refine (samplesRight_iff (hasSamples_ofState _ rfl ⟨5, by decide, by decide⟩ 0)).mpr ?_
  refine ⟨0, fun b => ?_, fun _ => by decide⟩
  match b with
  | 0 => decide
  | 1 => decide
  | b + 2 => exact iff_of_false (not_not.mpr rfl) (by omega)

/-- Of three bins with a token each, the first is selected by two draws and the last by none. -/
theorem not_samplesRight_threeBins :
    ¬ SamplesRight (MachineRuntime.ofState threeBins (by decide) 0) threeBins := by
  intro h
  exact absurd (h.proportional 0) (by decide)

end Ator.Circpad
