import AtorProtocol.Circpad.Negotiate
import AtorProtocol.Lib.LinearSearch
import Mathlib.Data.List.Pairwise
import Mathlib.Data.UInt

/-!
# Histograms of padding delays

A state of a padding machine has a histogram over delays in microseconds: bin `b` reaches from its
edge to the edge of the next bin, and the last bin, the infinity bin, stands for no padding.  A
machine that estimates the round trip time moves all edges up by it.

* `isHistogram_of_valid` — what `padding_machine_state_is_valid` checks.
* `exists_contains`, `Contains.unique` — every delay is in one finite bin, where the first is open
  below and the last above.
-/

namespace Ator.Circpad

open List Option

def delayInfinite : UInt32 := 0xFFFFFFFF

def maxHistogramLen : ℕ := 100

/-- `circpad_removal_t` -/
inductive TokenRemoval where
  | none
  | higher
  | lower
  | closest
  | closestUsec
  | exact
deriving DecidableEq

/-- `circpad_state_t`; `histogram_len` is the length of both lists. -/
structure PaddingState where
  histogram : List UInt32
  histogramEdges : List UInt32
  histogramTotalTokens : UInt32
  usesIatDist : Bool
  lengthIncludesNonpadding : Bool
  useRttEstimate : Bool
  tokenRemoval : TokenRemoval
  edges_length : histogramEdges.length = histogram.length
  histogram_length_le : histogram.length ≤ maxHistogramLen

/-- `CIRCPAD_INFINITY_BIN` of a state -/
def PaddingState.infinityBin (state : PaddingState) : ℕ := state.histogram.length - 1

/-- The loop of `padding_machine_state_is_valid` from bin `b` on: the number of tokens, as the
`uint32_t` that it is, or `none` where an edge is not above the one before it. -/
def countTokens (b : ℕ) (prevBinEdge tokensCount : UInt32) :
    List (UInt32 × UInt32) → Option UInt32
  | [] => some tokensCount
  | (edge, tokens) :: bins =>
    if prevBinEdge ≥ edge ∧ b > 0 then none
    else countTokens (b + 1) edge (tokensCount + tokens) bins

def paddingMachineStateIsValid (state : PaddingState) : Bool :=
  if state.histogram.length = 0 then true
  else if state.histogram.length < 2 then false
  else countTokens 0 0 0 (state.histogramEdges.zip state.histogram)
    = some state.histogramTotalTokens

/-- `circpad_machine_spec_t`, as `circpad_register_padding_machine` admits it -/
structure PaddingMachineSpec where
  machineIndex : Fin 2
  allowedPaddingCount : UInt16
  maxPaddingPercent : UInt8
  states : List PaddingState
  states_valid : ∀ state ∈ states, paddingMachineStateIsValid state

def stateEnd : UInt16 := 0xFFFF

/-- `circpad_machine_runtime_t`; `histogram_len` is the length of the mutable histogram. -/
structure MachineRuntime where
  machine : PaddingMachineSpec
  histogram : Option (List UInt32)
  chosenBin : ℕ
  stateLength : UInt64
  paddingSent : UInt16
  nonpaddingSent : UInt16
  rttEstimateUsec : UInt32
  paddingScheduledAtUsec : UInt64
  isPaddingTimerScheduled : Bool
  currentState : UInt16

def machineCurrentState (mi : MachineRuntime) : Option PaddingState :=
  if mi.currentState = stateEnd then none else mi.machine.states[mi.currentState.toNat]?

/-- The shift of the edges in a state. -/
def rttAddUsec (mi : MachineRuntime) (state : PaddingState) : UInt32 :=
  if state.useRttEstimate then mi.rttEstimateUsec else 0

def histogramBinToUsec (mi : MachineRuntime) (bin : ℕ) : UInt32 :=
  match machineCurrentState mi with
  | none => delayInfinite
  | some state =>
    -- `bin > CIRCPAD_INFINITY_BIN(state)`, an `int` comparison, where there is no such edge
    if h : bin < state.histogramEdges.length then state.histogramEdges[bin] + rttAddUsec mi state
    else delayInfinite

def histogramGetBinUpperBound (mi : MachineRuntime) (bin : ℕ) : UInt32 :=
  histogramBinToUsec mi (bin + 1) - 1

/-- `circpad_get_histogram_bin_midpoint` -/
def histogramBinMidpoint (mi : MachineRuntime) (binIndex : ℕ) : UInt32 :=
  let leftBound := histogramBinToUsec mi binIndex
  let rightBound := histogramGetBinUpperBound mi binIndex
  leftBound + (rightBound - leftBound) / 2

def histogramUsecToBin (mi : MachineRuntime) (usec : UInt32) : ℕ :=
  match machineCurrentState mi with
  | none => 0
  | some state =>
    (searchUp 0 state.infinityBin fun bin =>
      usec ≤ histogramGetBinUpperBound mi bin + rttAddUsec mi state).getD (state.infinityBin - 1)

/-! ## Valid histograms -/

/-- A state with a histogram that was checked. -/
structure IsHistogram (state : PaddingState) : Prop where
  two_le : 2 ≤ state.histogram.length
  edges_increase : state.histogramEdges.Pairwise (· < ·)
  total_eq : state.histogram.sum = state.histogramTotalTokens

variable {state : PaddingState} {mi : MachineRuntime} {usec : UInt32} {bin bin' b : ℕ}
  {prevBinEdge tokensCount total : UInt32} {edges tokens : List UInt32}

lemma countTokens_eq_some (hlength : edges.length = tokens.length) (hb : 0 < b) :
    countTokens b prevBinEdge tokensCount (edges.zip tokens) = some total
      ↔ (prevBinEdge :: edges).Pairwise (· < ·) ∧ tokensCount + tokens.sum = total := by
  induction edges generalizing b prevBinEdge tokensCount tokens with
  | nil =>
    obtain rfl := length_eq_zero_iff.mp hlength.symm
    simp [countTokens]
  | cons edge edges ih =>
    cases tokens with
    | nil => simp at hlength
    | cons count tokens =>
      rw [zip_cons_cons, countTokens]
      rcases UInt32.lt_or_le prevBinEdge edge with hlt | hle
      · have hnot : ¬ (prevBinEdge ≥ edge ∧ b > 0) := fun h => UInt32.not_le.mpr hlt h.1
        rw [if_neg hnot, ih (Nat.succ.inj hlength) b.succ_pos, sum_cons, UInt32.add_assoc]
        refine and_congr_left fun _ => ⟨fun hrest => ?_, fun hall => hall.of_cons⟩
        refine pairwise_cons.mpr ⟨fun x hx => ?_, hrest⟩
        rcases mem_cons.mp hx with rfl | hx
        · exact hlt
        · exact UInt32.lt_trans hlt ((pairwise_cons.mp hrest).1 x hx)
      · rw [if_pos ⟨hle, hb⟩]
        refine iff_of_false (by simp) fun h => ?_
        have hlt := (pairwise_cons.mp h.1).1 edge mem_cons_self
        exact UInt32.not_le.mpr hlt hle

lemma isHistogram_of_valid (hvalid : paddingMachineStateIsValid state)
    (hbins : state.histogram ≠ []) : IsHistogram state := by
  have hlength := state.edges_length
  rw [paddingMachineStateIsValid, if_neg (by simpa using hbins)] at hvalid
  split_ifs at hvalid with htwo
  · rw [decide_eq_true_iff] at hvalid
    obtain ⟨edge, edges, hedges⟩ : ∃ edge edges, state.histogramEdges = edge :: edges := by
      refine exists_cons_of_ne_nil fun hnil => hbins ?_
      simpa [hnil] using hlength.symm
    obtain ⟨count, tokens, htokens⟩ := exists_cons_of_ne_nil hbins
    rw [hedges, htokens] at hlength
    rw [hedges, htokens, zip_cons_cons, countTokens,
      if_neg (by simp), countTokens_eq_some (Nat.succ.inj hlength) (by omega)] at hvalid
    refine ⟨by omega, ?_, ?_⟩
    · rw [hedges]
      exact hvalid.1
    · rw [htokens, sum_cons, ← hvalid.2, UInt32.zero_add]

/-- The machine is in a state that has a histogram. -/
structure InHistogram (mi : MachineRuntime) (state : PaddingState) : Prop where
  in_state : machineCurrentState mi = some state
  bins : state.histogram ≠ []

lemma InHistogram.isHistogram (h : InHistogram mi state) : IsHistogram state := by
  have hcurrent := h.in_state
  rw [machineCurrentState] at hcurrent
  split_ifs at hcurrent
  exact isHistogram_of_valid (mi.machine.states_valid state (mem_of_getElem? hcurrent)) h.bins

/-- The shift keeps the edges below infinity. -/
def ShiftFits (mi : MachineRuntime) (state : PaddingState) : Prop :=
  ∀ edge ∈ state.histogramEdges, edge.toNat + (rttAddUsec mi state).toNat < delayInfinite.toNat

/-- A machine in a state with a histogram whose shifted edges are below infinity. -/
structure Shifted (mi : MachineRuntime) (state : PaddingState) : Prop extends
  InHistogram mi state where
  fits : ShiftFits mi state

lemma Shifted.toNat_binToUsec (h : Shifted mi state) (hbin : bin < state.histogramEdges.length) :
    (histogramBinToUsec mi bin).toNat
      = state.histogramEdges[bin].toNat + (rttAddUsec mi state).toNat := by
  have hfits := h.fits _ (getElem_mem hbin)
  simp only [histogramBinToUsec, h.in_state, dif_pos hbin, UInt32.toNat_add]
  exact Nat.mod_eq_of_lt (hfits.trans (by decide))

lemma Shifted.binToUsec_lt (h : Shifted mi state) (hlt : bin < bin')
    (hbin : bin' < state.histogram.length) :
    (histogramBinToUsec mi bin).toNat < (histogramBinToUsec mi bin').toNat := by
  rw [← state.edges_length] at hbin
  rw [h.toNat_binToUsec hbin, h.toNat_binToUsec (hlt.trans hbin)]
  have hedges := pairwise_iff_getElem.mp h.isHistogram.edges_increase bin bin'
    (hlt.trans hbin) hbin hlt
  exact Nat.add_lt_add_right (UInt32.lt_iff_toNat_lt.mp hedges) _

lemma Shifted.binToUsec_le (h : Shifted mi state) (hle : bin ≤ bin')
    (hbin : bin' < state.histogram.length) :
    (histogramBinToUsec mi bin).toNat ≤ (histogramBinToUsec mi bin').toNat := by
  rcases Nat.eq_or_lt_of_le hle with rfl | hlt
  · rfl
  · exact (h.binToUsec_lt hlt hbin).le

lemma Shifted.toNat_upperBound (h : Shifted mi state) (hbin : bin < state.infinityBin) :
    (histogramGetBinUpperBound mi bin).toNat + 1 = (histogramBinToUsec mi (bin + 1)).toNat := by
  rw [PaddingState.infinityBin] at hbin
  have hlt := h.binToUsec_lt (Nat.lt_add_one bin) (by omega)
  have hone : (1 : UInt32) ≤ histogramBinToUsec mi (bin + 1) := by
    exact Nat.one_le_of_lt hlt
  rw [histogramGetBinUpperBound, UInt32.toNat_sub_of_le _ _ hone]
  exact Nat.sub_add_cancel (Nat.one_le_of_lt hlt)

/-! ## The bin of a delay -/

/-- The bin has the delay within its bounds; the first bin is open below, and the last finite bin
above. -/
structure Contains (mi : MachineRuntime) (state : PaddingState) (usec : UInt32) (bin : ℕ) :
    Prop where
  finite : bin < state.infinityBin
  lower : bin = 0 ∨ histogramBinToUsec mi bin ≤ usec
  upper : bin + 1 = state.infinityBin ∨ usec ≤ histogramGetBinUpperBound mi bin

lemma Contains.lt_of_lt (hcontains : Contains mi state usec bin) (h : Shifted mi state)
    (hlt : bin' < bin) : histogramGetBinUpperBound mi bin' < usec := by
  have hfinite := hcontains.finite
  have hupper := h.toNat_upperBound (hlt.trans hfinite)
  rcases hcontains.lower with rfl | hlower
  · omega
  · rw [UInt32.le_iff_toNat_le] at hlower
    rw [UInt32.lt_iff_toNat_lt]
    rw [PaddingState.infinityBin] at hfinite
    have hmono := h.binToUsec_le (show bin' + 1 ≤ bin by omega) (by omega)
    omega

lemma Contains.unique (hcontains : Contains mi state usec bin)
    (hcontains' : Contains mi state usec bin') (h : Shifted mi state) : bin = bin' := by
  rcases lt_trichotomy bin bin' with hlt | heq | hlt
  · have hfinite := hcontains'.finite
    rcases hcontains.upper with hlast | hupper
    · omega
    · exact absurd hupper (UInt32.not_le.mpr (hcontains'.lt_of_lt h hlt))
  · exact heq
  · have hfinite := hcontains.finite
    rcases hcontains'.upper with hlast | hupper
    · omega
    · exact absurd hupper (UInt32.not_le.mpr (hcontains.lt_of_lt h hlt))

lemma exists_contains (h : Shifted mi state) (usec : UInt32) :
    ∃ bin, Contains mi state usec bin := by
  have htwo := h.isHistogram.two_le
  have hlast : state.infinityBin - 1 + 1 = state.infinityBin := by
    rw [PaddingState.infinityBin]
    omega
  -- all bins below lie below the delay
  have habove : ∀ bin, (∀ j, 0 ≤ j → j < bin → ¬ usec ≤ histogramGetBinUpperBound mi j) →
      bin < state.infinityBin → bin = 0 ∨ histogramBinToUsec mi bin ≤ usec := by
    intro bin hbelow hfinite
    cases bin with
    | zero => exact .inl rfl
    | succ bin =>
      have hlt := UInt32.not_le.mp (hbelow bin bin.zero_le bin.lt_succ_self)
      rw [UInt32.lt_iff_toNat_lt] at hlt
      have hupper := h.toNat_upperBound (bin.lt_succ_self.trans hfinite)
      refine .inr ?_
      rw [UInt32.le_iff_toNat_le]
      omega
  cases hsearch : searchUp 0 state.infinityBin fun bin =>
      usec ≤ histogramGetBinUpperBound mi bin with
  | none =>
    rw [searchUp_eq_none] at hsearch
    refine ⟨state.infinityBin - 1, by omega, habove _ ?_ (by omega), .inl hlast⟩
    intro j hzero hlt
    simpa using hsearch j hzero (by omega)
  | some bin =>
    obtain ⟨⟨-, hfinite, hupper⟩, hleast⟩ := searchUp_eq_some.mp hsearch
    refine ⟨bin, hfinite, habove bin ?_ hfinite, .inr (by simpa using hupper)⟩
    intro j hzero hlt hle
    have : bin ≤ j := hleast ⟨hzero, hlt.trans hfinite, by simpa using hle⟩
    omega

/-- Up to the first edge above the delay, a second shift leaves the delay on its side of the
edge. -/
def SecondShiftAgrees (mi : MachineRuntime) (state : PaddingState) (usec : UInt32) : Prop :=
  ∀ bin, bin + 1 < state.infinityBin → bin = 0 ∨ histogramBinToUsec mi bin ≤ usec →
    (usec ≤ histogramGetBinUpperBound mi bin
      ↔ usec ≤ histogramGetBinUpperBound mi bin + rttAddUsec mi state)

lemma histogramUsecToBin_eq (h : machineCurrentState mi = some state) :
    histogramUsecToBin mi usec = (searchUp 0 state.infinityBin fun bin =>
      usec ≤ histogramGetBinUpperBound mi bin + rttAddUsec mi state).getD
        (state.infinityBin - 1) := by
  rw [histogramUsecToBin, h]

lemma usecToBin_eq_of_contains (h : Shifted mi state) (hagrees : SecondShiftAgrees mi state usec)
    (hcontains : Contains mi state usec bin) : histogramUsecToBin mi usec = bin := by
  have hfinite := hcontains.finite
  have hbelow : ∀ j < bin, ¬ usec ≤ histogramGetBinUpperBound mi j + rttAddUsec mi state := by
    intro j hlt hle
    have hupper := hcontains.lt_of_lt h hlt
    refine UInt32.not_le.mpr hupper ((hagrees j (by omega) ?_).mpr hle)
    rcases Nat.eq_zero_or_pos j with hzero | hpos
    · exact .inl hzero
    · rw [PaddingState.infinityBin] at hfinite
      have hmono := h.binToUsec_lt (Nat.lt_add_one j) (by omega)
      have hnext := h.toNat_upperBound (hlt.trans hcontains.finite)
      rw [UInt32.lt_iff_toNat_lt] at hupper
      refine .inr ?_
      rw [UInt32.le_iff_toNat_le]
      omega
  rw [histogramUsecToBin_eq h.in_state]
  cases hsearch : searchUp 0 state.infinityBin fun bin =>
      usec ≤ histogramGetBinUpperBound mi bin + rttAddUsec mi state with
  | none =>
    rw [searchUp_eq_none] at hsearch
    rcases hcontains.upper with hlast | hupper
    · rw [getD_none]
      omega
    · rcases Nat.lt_or_ge (bin + 1) state.infinityBin with hlt | hge
      · exact absurd ((hagrees bin hlt hcontains.lower).mp hupper)
          (by simpa using hsearch bin bin.zero_le hfinite)
      · rw [getD_none]
        omega
  | some found =>
    obtain ⟨⟨-, hfound, hle⟩, hleast⟩ := searchUp_eq_some.mp hsearch
    have hge : bin ≤ found := by
      by_contra hlt
      exact hbelow found (by omega) (by simpa using hle)
    rw [getD_some]
    rcases Nat.lt_or_ge (bin + 1) state.infinityBin with hlt | hlast
    · rcases hcontains.upper with heq | hupper
      · omega
      · have hagree := (hagrees bin hlt hcontains.lower).mp hupper
        exact (hleast ⟨bin.zero_le, hfinite, by simpa using hagree⟩).antisymm hge
    · omega

/-- **The bin of a delay** is found exactly where the second shift agrees. -/
lemma contains_usecToBin (h : Shifted mi state) :
    Contains mi state usec (histogramUsecToBin mi usec) ↔ SecondShiftAgrees mi state usec := by
  constructor
  · intro hcontains bin hinner hlower
    generalize hresult : histogramUsecToBin mi usec = result at hcontains
    rw [histogramUsecToBin_eq h.in_state] at hresult
    have hfinite := hcontains.finite
    have hle : bin ≤ result := by
      by_contra hlt
      rcases hcontains.upper with hlast | hupper
      · omega
      · rcases hlower with hzero | hlower
        · omega
        · have hnext := h.toNat_upperBound hfinite
          rw [UInt32.le_iff_toNat_le] at hlower hupper
          rw [PaddingState.infinityBin] at hinner
          have hmono := h.binToUsec_le (show result + 1 ≤ bin by omega) (by omega)
          omega
    rcases Nat.eq_or_lt_of_le hle with rfl | hlt
    · rcases hcontains.upper with hlast | hupper
      · omega
      · refine iff_of_true hupper ?_
        cases hsearch : searchUp 0 state.infinityBin fun bin =>
            usec ≤ histogramGetBinUpperBound mi bin + rttAddUsec mi state with
        | none =>
          rw [hsearch, getD_none] at hresult
          omega
        | some found =>
          rw [hsearch, getD_some] at hresult
          have hfound := (searchUp_eq_some.mp hsearch).1.2.2
          rw [hresult] at hfound
          simpa using hfound
    · refine iff_of_false (UInt32.not_le.mpr (hcontains.lt_of_lt h hlt)) fun hle' => ?_
      cases hsearch : searchUp 0 state.infinityBin fun bin =>
          usec ≤ histogramGetBinUpperBound mi bin + rttAddUsec mi state with
      | none =>
        exact absurd hle'
          (by simpa using searchUp_eq_none.mp hsearch bin bin.zero_le (by omega))
      | some found =>
        rw [hsearch, getD_some] at hresult
        have hleast : found ≤ bin := (searchUp_eq_some.mp hsearch).2
          ⟨bin.zero_le, by omega, by simpa using hle'⟩
        omega
  · intro hagrees
    obtain ⟨bin, hcontains⟩ := exists_contains h usec
    rwa [usecToBin_eq_of_contains h hagrees hcontains]

end Ator.Circpad
