import AtorProtocol.Circpad.Histogram
import Mathlib.Data.Nat.Dist

/-!
# Token removal

A cell that is sent while padding is scheduled uses up a token of the bin of its delay.  Where that
bin is empty, the strategy of the state says which bin has to do instead.

* `NamedBin` — the bin that the documentation of a strategy names.
* `firstHigherIndex_spec`, `firstLowerIndex_spec` — the two scans that the strategies share.
* `removesNamed` — each strategy takes one token from the bin it names, and none where it names no
  bin.
* `binsRight_iff` — delays are in the right bins, and tokens are taken from the right bins, exactly
  where the second shift agrees.
-/

namespace Ator.Circpad

namespace MachineRuntime

variable (mi : MachineRuntime)

/-- The mutable histogram; `histogram_len` is its length. -/
def tokens : List UInt32 := mi.histogram.getD []

/-- `CIRCPAD_INFINITY_BIN` of a machine -/
def infinityBin : ℕ := mi.tokens.length - 1

/-- `mi->histogram[bin]` -/
def tokensIn (bin : ℕ) : UInt32 := mi.tokens.getD bin 0

/-- `mi->histogram[bin]--` -/
def removeAt (bin : ℕ) : MachineRuntime :=
  { mi with histogram := mi.histogram.map fun tokens => tokens.modify bin (· - 1) }

/-- `mi->histogram[bin]--` behind a check that the bin is not empty -/
def takeToken (bin : ℕ) : MachineRuntime := if mi.tokensIn bin = 0 then mi else mi.removeAt bin

end MachineRuntime

def machineSetupTokens (mi : MachineRuntime) : MachineRuntime :=
  match machineCurrentState mi with
  | none => { mi with histogram := none }
  | some state =>
    if state.tokenRemoval = .none then { mi with histogram := none }
    else { mi with histogram := some state.histogram }

def machineFirstHigherIndex (mi : MachineRuntime) (targetBinUsec : UInt32) : ℕ :=
  (searchUp (histogramUsecToBin mi targetBinUsec) mi.infinityBin fun bin =>
    mi.tokensIn bin ≠ 0 ∧ histogramGetBinUpperBound mi bin ≥ targetBinUsec).getD mi.tokens.length

/-- `circpad_machine_first_lower_index`; `none` is the index -1. -/
def machineFirstLowerIndex (mi : MachineRuntime) (targetBinUsec : UInt32) : Option ℕ :=
  searchDown (histogramUsecToBin mi targetBinUsec) fun bin =>
    mi.tokensIn bin ≠ 0 ∧ histogramBinToUsec mi bin ≤ targetBinUsec

def machineRemoveHigherToken (mi : MachineRuntime) (targetBinUsec : UInt32) : MachineRuntime :=
  let bin := machineFirstHigherIndex mi targetBinUsec
  if bin < mi.infinityBin then mi.takeToken bin else mi

def machineRemoveLowerToken (mi : MachineRuntime) (targetBinUsec : UInt32) : MachineRuntime :=
  match machineFirstLowerIndex mi targetBinUsec with
  | none => mi
  | some bin => if bin < mi.infinityBin then mi.takeToken bin else mi

/-- The last part of `circpad_machine_remove_closest_token`: the closer one of two bins. -/
def closerBin (mi : MachineRuntime) (targetBinUsec : UInt32) (useUsec : Bool)
    (lower current higher : ℕ) : ℕ :=
  if useUsec then
    let lowerUsec := histogramBinMidpoint mi lower
    let higherUsec := histogramBinMidpoint mi higher
    if targetBinUsec < lowerUsec then lower
    else if targetBinUsec > higherUsec then higher
    else if targetBinUsec - lowerUsec > higherUsec - targetBinUsec then higher
    else lower
  else if current - lower > higher - current then higher
  else lower

def machineRemoveClosestToken (mi : MachineRuntime) (targetBinUsec : UInt32) (useUsec : Bool) :
    MachineRuntime :=
  let higher := machineFirstHigherIndex mi targetBinUsec
  let current := histogramUsecToBin mi targetBinUsec
  match machineFirstLowerIndex mi targetBinUsec with
  | none =>
    if higher < current then mi
    else if higher = mi.tokens.length then mi
    else mi.takeToken higher
  | some lower =>
    if lower > current ∨ higher < current then mi
    else if higher = mi.tokens.length then mi.takeToken lower
    else mi.takeToken (closerBin mi targetBinUsec useUsec lower current higher)

def machineRemoveExact (mi : MachineRuntime) (targetBinUsec : UInt32) : MachineRuntime :=
  let bin := histogramUsecToBin mi targetBinUsec
  if mi.tokensIn bin > 0 then mi.removeAt bin else mi

/-- The `switch` of `circpad_machine_remove_token` -/
def removeByStrategy (mi : MachineRuntime) (targetBinUsec : UInt32) :
    TokenRemoval → MachineRuntime
  | .closestUsec => machineRemoveClosestToken mi targetBinUsec true
  | .closest => machineRemoveClosestToken mi targetBinUsec false
  | .lower => machineRemoveLowerToken mi targetBinUsec
  | .higher => machineRemoveHigherToken mi targetBinUsec
  | .exact => machineRemoveExact mi targetBinUsec
  | .none => mi

/-- `circpad_machine_remove_token` at a time -/
def machineRemoveToken (mi : MachineRuntime) (currentTime : UInt64) : MachineRuntime :=
  if mi.paddingScheduledAtUsec = 0 then mi
  else
    match machineCurrentState mi with
    | none => mi
    | some state =>
      if state.tokenRemoval = .none then mi
      else
        let targetBinUsec :=
          (min (currentTime - mi.paddingScheduledAtUsec) (delayInfinite.toUInt64 - 1)).toUInt32
        removeByStrategy { mi with paddingScheduledAtUsec := 0, isPaddingTimerScheduled := false }
          targetBinUsec state.tokenRemoval

/-! ## What the strategies name -/

/-- A finite bin that is not empty. -/
def Stocked (mi : MachineRuntime) (bin : ℕ) : Prop := bin < mi.infinityBin ∧ mi.tokensIn bin ≠ 0

/-- The stocked bin at the least distance, the lower one of two. -/
def Nearest (mi : MachineRuntime) (distance : ℕ → ℕ) (bin : ℕ) : Prop :=
  Stocked mi bin ∧ ∀ bin', Stocked mi bin' →
    distance bin < distance bin' ∨ distance bin = distance bin' ∧ bin ≤ bin'

/-- The bin that a strategy names for a delay. -/
def NamedBin (mi : MachineRuntime) (state : PaddingState) (usec : UInt32) (bin : ℕ) :
    TokenRemoval → Prop
  | .exact => Stocked mi bin ∧ Contains mi state usec bin
  | .higher => IsLeast {b | Stocked mi b ∧ usec ≤ histogramGetBinUpperBound mi b} bin
  | .lower => IsGreatest {b | Stocked mi b ∧ histogramBinToUsec mi b ≤ usec} bin
  | .closest => ∃ current, Contains mi state usec current ∧ Nearest mi (Nat.dist current) bin
  | .closestUsec =>
    -- the bin of the delay comes first, whatever its midpoint is
    ∃ current, Contains mi state usec current ∧ (Stocked mi current ∧ bin = current
        ∨ ¬ Stocked mi current
          ∧ Nearest mi (fun b => Nat.dist (histogramBinMidpoint mi b).toNat usec.toNat) bin)
  | .none => False

/-- The strategy takes one token from the bin that it names, and nothing if there is none. -/
def RemovesNamed (mi : MachineRuntime) (state : PaddingState) (usec : UInt32)
    (removal : TokenRemoval) : Prop :=
  (∃ bin, NamedBin mi state usec bin removal ∧ removeByStrategy mi usec removal = mi.removeAt bin)
    ∨ (∀ bin, ¬ NamedBin mi state usec bin removal) ∧ removeByStrategy mi usec removal = mi

/-- A shifted histogram with tokens to remove. -/
structure HasTokens (mi : MachineRuntime) (state : PaddingState) : Prop extends
  Shifted mi state where
  tokens_length : mi.tokens.length = state.histogram.length

variable {mi : MachineRuntime} {state : PaddingState} {usec : UInt32} {bin bin' lower higher current : ℕ}
  {useUsec : Bool} {removal : TokenRemoval} {tokens : List UInt32}

lemma HasTokens.infinityBin_eq (h : HasTokens mi state) : mi.infinityBin = state.infinityBin := by
  rw [MachineRuntime.infinityBin, h.tokens_length, PaddingState.infinityBin]

lemma takeToken_of_stocked (h : Stocked mi bin) : mi.takeToken bin = mi.removeAt bin := if_neg h.2

/-! ## The two scans -/

/-- The delay's bin, and where it is found. -/
structure Located (mi : MachineRuntime) (state : PaddingState) (usec : UInt32) (current : ℕ) :
    Prop extends HasTokens mi state, Contains mi state usec current where
  found : histogramUsecToBin mi usec = current

lemma Located.le_of_upper (h : Located mi state usec current)
    (hupper : usec ≤ histogramGetBinUpperBound mi bin) : current ≤ bin := by
  by_contra hlt
  have habove := h.toContains.lt_of_lt h.toShifted (Nat.lt_of_not_le hlt)
  exact UInt32.not_le.mpr habove hupper

lemma Located.le_of_lower (h : Located mi state usec current) (hbin : bin < mi.infinityBin)
    (hlower : histogramBinToUsec mi bin ≤ usec) : bin ≤ current := by
  by_contra hlt
  rw [h.infinityBin_eq] at hbin
  rcases h.upper with hlast | hupper
  · omega
  · have hnext := h.toNat_upperBound h.finite
    rw [PaddingState.infinityBin] at hbin
    have hmono := h.binToUsec_le (show current + 1 ≤ bin by omega) (by omega)
    rw [UInt32.le_iff_toNat_le] at hlower hupper
    omega

lemma Located.lt_of_gt (h : Located mi state usec current) (hbin : bin < mi.infinityBin)
    (hlt : current < bin) : usec < histogramBinToUsec mi bin :=
  UInt32.not_le.mp fun hle => absurd (h.le_of_lower hbin hle) (by omega)

lemma HasTokens.lower_le_upper (h : HasTokens mi state) (hbin : bin < mi.infinityBin) :
    histogramBinToUsec mi bin ≤ histogramGetBinUpperBound mi bin := by
  rw [h.infinityBin_eq] at hbin
  have hnext := h.toNat_upperBound hbin
  rw [PaddingState.infinityBin] at hbin
  have hmono := h.binToUsec_lt (Nat.lt_add_one bin) (by omega)
  rw [UInt32.le_iff_toNat_le]
  omega

lemma firstHigherIndex_spec (h : Located mi state usec current) :
    (∃ bin, IsLeast {b | Stocked mi b ∧ usec ≤ histogramGetBinUpperBound mi b} bin
        ∧ machineFirstHigherIndex mi usec = bin)
      ∨ (∀ bin, Stocked mi bin → ¬ usec ≤ histogramGetBinUpperBound mi bin)
        ∧ machineFirstHigherIndex mi usec = mi.tokens.length := by
  rw [machineFirstHigherIndex, h.found]
  cases hsearch : searchUp current mi.infinityBin fun bin =>
      mi.tokensIn bin ≠ 0 ∧ histogramGetBinUpperBound mi bin ≥ usec with
  | none =>
    rw [searchUp_eq_none] at hsearch
    refine .inr ⟨fun bin hstocked hupper => ?_, rfl⟩
    exact absurd (decide_eq_true (And.intro hstocked.2 hupper))
      (hsearch bin (h.le_of_upper hupper) hstocked.1)
  | some bin =>
    obtain ⟨⟨hge, hbin, hfound⟩, hleast⟩ := searchUp_eq_some.mp hsearch
    obtain ⟨htokens, hupper⟩ := of_decide_eq_true hfound
    refine .inl ⟨bin, ⟨⟨⟨hbin, htokens⟩, hupper⟩, ?_⟩, rfl⟩
    rintro b ⟨hstocked, hupper'⟩
    exact hleast ⟨h.le_of_upper hupper', hstocked.1, decide_eq_true (And.intro hstocked.2 hupper')⟩

lemma firstLowerIndex_spec (h : Located mi state usec current) :
    (∃ bin, IsGreatest {b | Stocked mi b ∧ histogramBinToUsec mi b ≤ usec} bin
        ∧ machineFirstLowerIndex mi usec = some bin)
      ∨ (∀ bin, Stocked mi bin → ¬ histogramBinToUsec mi bin ≤ usec)
        ∧ machineFirstLowerIndex mi usec = none := by
  have hfinite := h.finite
  rw [← h.infinityBin_eq] at hfinite
  rw [machineFirstLowerIndex, h.found]
  cases hsearch : searchDown current fun bin =>
      mi.tokensIn bin ≠ 0 ∧ histogramBinToUsec mi bin ≤ usec with
  | none =>
    rw [searchDown_eq_none] at hsearch
    refine .inr ⟨fun bin hstocked hlower => ?_, rfl⟩
    exact absurd (decide_eq_true (And.intro hstocked.2 hlower))
      (hsearch bin (h.le_of_lower hstocked.1 hlower))
  | some bin =>
    obtain ⟨⟨hle, hfound⟩, hgreatest⟩ := searchDown_eq_some.mp hsearch
    obtain ⟨htokens, hlower⟩ := of_decide_eq_true hfound
    refine .inl ⟨bin, ⟨⟨⟨hle.trans_lt hfinite, htokens⟩, hlower⟩, ?_⟩, rfl⟩
    rintro b ⟨hstocked, hlower'⟩
    exact hgreatest ⟨h.le_of_lower hstocked.1 hlower',
      decide_eq_true (And.intro hstocked.2 hlower')⟩

lemma removesNamed_exact (h : Located mi state usec current) :
    RemovesNamed mi state usec .exact := by
  have hfinite := h.finite
  rw [← h.infinityBin_eq] at hfinite
  have hexact : removeByStrategy mi usec .exact
      = if mi.tokensIn current > 0 then mi.removeAt current else mi := by
    rw [removeByStrategy, machineRemoveExact, h.found]
  by_cases hempty : mi.tokensIn current = 0
  · refine .inr ⟨?_, ?_⟩
    · rintro bin ⟨hstocked, hcontains⟩
      rw [hcontains.unique h.toContains h.toShifted] at hstocked
      exact hstocked.2 hempty
    · rw [hexact, hempty, if_neg (by decide)]
  · refine .inl ⟨current, ⟨⟨hfinite, hempty⟩, h.toContains⟩, ?_⟩
    rw [hexact, if_pos (UInt32.pos_iff_ne_zero.mpr hempty)]

lemma removesNamed_higher (h : Located mi state usec current) :
    RemovesNamed mi state usec .higher := by
  rcases firstHigherIndex_spec h with ⟨bin, hleast, hindex⟩ | ⟨hnone, hindex⟩
  · refine .inl ⟨bin, hleast, ?_⟩
    rw [removeByStrategy, machineRemoveHigherToken, hindex, if_pos hleast.1.1.1,
      takeToken_of_stocked hleast.1.1]
  · refine .inr ⟨fun bin hbin => hnone bin hbin.1.1 hbin.1.2, ?_⟩
    refine if_neg ?_
    rw [MachineRuntime.infinityBin]
    omega

lemma removesNamed_lower (h : Located mi state usec current) :
    RemovesNamed mi state usec .lower := by
  rcases firstLowerIndex_spec h with ⟨bin, hgreatest, hindex⟩ | ⟨hnone, hindex⟩
  · refine .inl ⟨bin, hgreatest, ?_⟩
    rw [removeByStrategy, machineRemoveLowerToken, hindex]
    exact (if_pos hgreatest.1.1.1).trans (takeToken_of_stocked hgreatest.1.1)
  · refine .inr ⟨fun bin hbin => hnone bin hbin.1.1 hbin.1.2, ?_⟩
    rw [removeByStrategy, machineRemoveLowerToken, hindex]

/-! ## The closest bin -/

lemma Located.lower_or_upper (h : Located mi state usec current) (hstocked : Stocked mi bin) :
    histogramBinToUsec mi bin ≤ usec ∨ usec ≤ histogramGetBinUpperBound mi bin := by
  rcases UInt32.le_total (histogramBinToUsec mi bin) usec with hle | hge
  · exact .inl hle
  · exact .inr (UInt32.le_trans hge (h.lower_le_upper hstocked.1))

lemma HasTokens.midpoint_bounds (h : HasTokens mi state) (hbin : bin < mi.infinityBin) :
    (histogramBinToUsec mi bin).toNat ≤ (histogramBinMidpoint mi bin).toNat
      ∧ (histogramBinMidpoint mi bin).toNat ≤ (histogramGetBinUpperBound mi bin).toNat := by
  have hle := h.lower_le_upper hbin
  have hlt := (histogramGetBinUpperBound mi bin).toNat_lt
  simp only [histogramBinMidpoint, UInt32.toNat_add, UInt32.toNat_div,
    UInt32.toNat_sub_of_le _ _ hle, show (2 : UInt32).toNat = 2 from rfl]
  rw [UInt32.le_iff_toNat_le] at hle
  omega

lemma HasTokens.midpoint_lt (h : HasTokens mi state) (hlt : bin < bin')
    (hbin : bin' < mi.infinityBin) :
    (histogramBinMidpoint mi bin).toNat < (histogramBinMidpoint mi bin').toNat := by
  have hupper := (h.midpoint_bounds (hlt.trans hbin)).2
  have hlower := (h.midpoint_bounds hbin).1
  rw [h.infinityBin_eq] at hbin
  have hnext := h.toNat_upperBound (hlt.trans hbin)
  rw [PaddingState.infinityBin] at hbin
  have hmono := h.binToUsec_le (show bin + 1 ≤ bin' from hlt) (by omega)
  omega

lemma Located.midpoint_lt_of_lt (h : Located mi state usec current) (hlt : bin < current) :
    (histogramBinMidpoint mi bin).toNat < usec.toNat := by
  have hfinite := h.finite
  rw [← h.infinityBin_eq] at hfinite
  exact (h.midpoint_bounds (hlt.trans hfinite)).2.trans_lt
    (UInt32.lt_iff_toNat_lt.mp (h.toContains.lt_of_lt h.toShifted hlt))

lemma Located.lt_midpoint_of_gt (h : Located mi state usec current) (hbin : bin < mi.infinityBin)
    (hlt : current < bin) : usec.toNat < (histogramBinMidpoint mi bin).toNat :=
  (UInt32.lt_iff_toNat_lt.mp (h.lt_of_gt hbin hlt)).trans_le (h.midpoint_bounds hbin).1

/-- All stocked bins are at a bin or below it, or at another or above that. -/
def Between (mi : MachineRuntime) (lower higher : ℕ) : Prop :=
  ∀ bin, Stocked mi bin → bin ≤ lower ∨ higher ≤ bin

lemma nearest_index (hlower : Stocked mi lower) (hhigher : Stocked mi higher)
    (hle : lower ≤ current) (hge : current ≤ higher) (hbetween : Between mi lower higher) :
    Nearest mi (Nat.dist current) (closerBin mi usec false lower current higher) := by
  rw [closerBin, if_neg (by decide)]
  split_ifs with hcloser
  · refine ⟨hhigher, fun bin hstocked => ?_⟩
    have hside := hbetween bin hstocked
    simp only [Nat.dist]
    omega
  · refine ⟨hlower, fun bin hstocked => ?_⟩
    have hside := hbetween bin hstocked
    simp only [Nat.dist]
    omega

lemma Located.nearest_midpoint (h : Located mi state usec current) (hlower : Stocked mi lower)
    (hhigher : Stocked mi higher) (hlt : lower < current) (hgt : current < higher)
    (hbetween : Between mi lower higher) :
    Nearest mi (fun b => Nat.dist (histogramBinMidpoint mi b).toNat usec.toNat)
      (closerBin mi usec true lower current higher) := by
  have hbelow := h.midpoint_lt_of_lt hlt
  have habove := h.lt_midpoint_of_gt hhigher.1 hgt
  have hsides : ∀ bin, Stocked mi bin →
      (bin = lower ∨ (histogramBinMidpoint mi bin).toNat < (histogramBinMidpoint mi lower).toNat)
        ∨ (bin = higher
          ∨ (histogramBinMidpoint mi higher).toNat < (histogramBinMidpoint mi bin).toNat) := by
    intro bin hstocked
    rcases hbetween bin hstocked with hle | hge
    · exact .inl (hle.eq_or_lt.imp_right fun hlt => h.midpoint_lt hlt hlower.1)
    · exact .inr (hge.eq_or_lt.imp Eq.symm fun hlt => h.midpoint_lt hlt hstocked.1)
  have hsubLower := UInt32.toNat_sub_of_le usec (histogramBinMidpoint mi lower)
    (UInt32.le_iff_toNat_le.mpr hbelow.le)
  have hsubHigher := UInt32.toNat_sub_of_le (histogramBinMidpoint mi higher) usec
    (UInt32.le_iff_toNat_le.mpr habove.le)
  simp only [closerBin, if_true, gt_iff_lt, UInt32.lt_iff_toNat_lt, hsubLower, hsubHigher]
  rw [if_neg (by omega), if_neg (by omega)]
  split_ifs with hcloser
  · refine ⟨hhigher, fun bin hstocked => ?_⟩
    simp only [Nat.dist]
    rcases hsides bin hstocked with (rfl | hlt') | (rfl | hlt') <;> omega
  · refine ⟨hlower, fun bin hstocked => ?_⟩
    simp only [Nat.dist]
    rcases hsides bin hstocked with (rfl | hlt') | (rfl | hlt') <;> omega

@[simp] lemma closerBin_self : closerBin mi usec useUsec bin current bin = bin := by
  simp [closerBin]

lemma removeClosestToken_spec (h : Located mi state usec current) :
    (∃ bin, Stocked mi bin ∧ machineRemoveClosestToken mi usec useUsec = mi.removeAt bin
        ∧ (Stocked mi current → bin = current)
        ∧ ((bin ≤ current ∧ ∀ b, Stocked mi b → b ≤ bin)
          ∨ (current ≤ bin ∧ ∀ b, Stocked mi b → bin ≤ b)
          ∨ ∃ lower higher, Stocked mi lower ∧ Stocked mi higher ∧ lower ≤ current
            ∧ current ≤ higher ∧ Between mi lower higher
            ∧ bin = closerBin mi usec useUsec lower current higher))
      ∨ (∀ bin, ¬ Stocked mi bin) ∧ machineRemoveClosestToken mi usec useUsec = mi := by
  have hlength : mi.infinityBin ≤ mi.tokens.length := Nat.sub_le _ _
  rcases firstLowerIndex_spec h with ⟨lower, hlower, hlowerIndex⟩ | ⟨hnoLower, hlowerIndex⟩
  · have hle := h.le_of_lower hlower.1.1.1 hlower.1.2
    rcases firstHigherIndex_spec h with ⟨higher, hhigher, hhigherIndex⟩ | ⟨hnoHigher, hhigherIndex⟩
    · have hge := h.le_of_upper hhigher.1.2
      have hbetween : Between mi lower higher := fun bin hstocked =>
        (h.lower_or_upper hstocked).imp (fun hbin => hlower.2 ⟨hstocked, hbin⟩)
          fun hbin => hhigher.2 ⟨hstocked, hbin⟩
      have hchosen : closerBin mi usec useUsec lower current higher = lower
          ∨ closerBin mi usec useUsec lower current higher = higher := by
        simp only [closerBin]
        split_ifs <;> simp
      have hstocked : Stocked mi (closerBin mi usec useUsec lower current higher) := by
        rcases hchosen with heq | heq <;> rw [heq]
        · exact hlower.1.1
        · exact hhigher.1.1
      refine .inl ⟨_, hstocked, ?_, ?_, .inr (.inr ⟨lower, higher, hlower.1.1, hhigher.1.1, hle,
        hge, hbetween, rfl⟩)⟩
      · have hsane : ¬ (lower > current ∨ higher < current) := by omega
        have hne : ¬ higher = mi.tokens.length := by
          have hfinite := hhigher.1.1.1
          omega
        simp only [machineRemoveClosestToken, hlowerIndex, hhigherIndex, h.found, if_neg hsane,
          if_neg hne]
        exact takeToken_of_stocked hstocked
      · intro hcurrent
        have hlowerEq : lower = current := by
          refine hle.antisymm ?_
          rcases hbetween current hcurrent with hcle | hcge
          · exact hcle
          · have heq : higher = current := hcge.antisymm hge
            subst heq
            rcases h.lower with hzero | hclower
            · omega
            · exact hlower.2 ⟨hcurrent, hclower⟩
        have hhigherEq : higher = current := by
          refine (hge.antisymm ?_).symm
          rcases h.upper with hlast | hupper
          · rw [← h.infinityBin_eq] at hlast
            have hfinite := hhigher.1.1.1
            omega
          · exact hhigher.2 ⟨hcurrent, hupper⟩
        rw [hlowerEq, hhigherEq, closerBin_self]
    · have hall : ∀ b, Stocked mi b → b ≤ lower := fun b hb =>
        hlower.2 ⟨hb, (h.lower_or_upper hb).resolve_right (hnoHigher b hb)⟩
      refine .inl ⟨lower, hlower.1.1, ?_, fun hcurrent => hle.antisymm (hall _ hcurrent),
        .inl ⟨hle, hall⟩⟩
      have hfinite := h.finite
      rw [← h.infinityBin_eq] at hfinite
      have hsane : ¬ (lower > current ∨ mi.tokens.length < current) := by omega
      simp only [machineRemoveClosestToken, hlowerIndex, hhigherIndex, h.found, if_neg hsane,
        if_true]
      exact takeToken_of_stocked hlower.1.1
  · rcases firstHigherIndex_spec h with ⟨higher, hhigher, hhigherIndex⟩ | ⟨hnoHigher, hhigherIndex⟩
    · have hge := h.le_of_upper hhigher.1.2
      have hall : ∀ b, Stocked mi b → higher ≤ b := fun b hb =>
        hhigher.2 ⟨hb, (h.lower_or_upper hb).resolve_left (hnoLower b hb)⟩
      refine .inl ⟨higher, hhigher.1.1, ?_, fun hcurrent => (hall _ hcurrent).antisymm hge,
        .inr (.inl ⟨hge, hall⟩)⟩
      have hne : ¬ higher = mi.tokens.length := by
        have hfinite := hhigher.1.1.1
        omega
      simp only [machineRemoveClosestToken, hlowerIndex, hhigherIndex, h.found,
        if_neg (Nat.not_lt.mpr hge), if_neg hne]
      exact takeToken_of_stocked hhigher.1.1
    · refine .inr ⟨fun bin hstocked => ?_, ?_⟩
      · rcases h.lower_or_upper hstocked with hbin | hbin
        · exact hnoLower bin hstocked hbin
        · exact hnoHigher bin hstocked hbin
      · simp only [machineRemoveClosestToken, hlowerIndex, hhigherIndex, h.found, if_true, ite_self]

lemma removesNamed_closest (h : Located mi state usec current) :
    RemovesNamed mi state usec .closest := by
  rcases removeClosestToken_spec h with ⟨bin, hstocked, hremove, -, hplace⟩ | ⟨hnone, hremove⟩
  · refine .inl ⟨bin, ⟨current, h.toContains, ?_⟩, hremove⟩
    rcases hplace with ⟨hle, hall⟩ | ⟨hge, hall⟩ | ⟨lower, higher, hl, hh, hle, hge, hbetween, rfl⟩
    · refine ⟨hstocked, fun b hb => ?_⟩
      have hb := hall b hb
      simp only [Nat.dist]
      omega
    · refine ⟨hstocked, fun b hb => ?_⟩
      have hb := hall b hb
      simp only [Nat.dist]
      omega
    · exact nearest_index hl hh hle hge hbetween
  · refine .inr ⟨?_, hremove⟩
    rintro bin ⟨current', -, hnearest⟩
    exact hnone bin hnearest.1

lemma removesNamed_closestUsec (h : Located mi state usec current) :
    RemovesNamed mi state usec .closestUsec := by
  rcases removeClosestToken_spec h with ⟨bin, hstocked, hremove, hcurrent, hplace⟩ | ⟨hnone, hremove⟩
  · refine .inl ⟨bin, ⟨current, h.toContains, ?_⟩, hremove⟩
    by_cases hown : Stocked mi current
    · exact .inl ⟨hown, hcurrent hown⟩
    have hne : bin ≠ current := fun heq => hown (heq ▸ hstocked)
    refine .inr ⟨hown, ?_⟩
    rcases hplace with ⟨hle, hall⟩ | ⟨hge, hall⟩ | ⟨lower, higher, hl, hh, hle, hge, hbetween, rfl⟩
    · refine ⟨hstocked, fun b hb => ?_⟩
      have hbelow := h.midpoint_lt_of_lt (hle.lt_of_ne hne)
      rcases (hall b hb).eq_or_lt with rfl | hlt
      · exact .inr ⟨rfl, le_rfl⟩
      · have hmid := h.midpoint_lt hlt hstocked.1
        simp only [Nat.dist]
        omega
    · refine ⟨hstocked, fun b hb => ?_⟩
      have habove := h.lt_midpoint_of_gt hstocked.1 (hge.lt_of_ne' hne)
      rcases (hall b hb).eq_or_lt with rfl | hlt
      · exact .inr ⟨rfl, le_rfl⟩
      · have hmid := h.midpoint_lt hlt hb.1
        simp only [Nat.dist]
        omega
    · exact h.nearest_midpoint hl hh (hle.lt_of_ne fun heq => hown (heq ▸ hl))
        (hge.lt_of_ne' fun heq => hown (heq ▸ hh)) hbetween
  · refine .inr ⟨?_, hremove⟩
    rintro bin ⟨current', -, (⟨hown, -⟩ | ⟨-, hnearest⟩)⟩
    · exact hnone current' hown
    · exact hnone bin hnearest.1

lemma removesNamed (h : Located mi state usec current) (removal : TokenRemoval) :
    RemovesNamed mi state usec removal := by
  cases removal with
  | none => exact .inr ⟨fun _ => id, rfl⟩
  | higher => exact removesNamed_higher h
  | lower => exact removesNamed_lower h
  | closest => exact removesNamed_closest h
  | closestUsec => exact removesNamed_closestUsec h
  | exact => exact removesNamed_exact h

/-! ## Bins and tokens -/

/-- The machine with other tokens. -/
def MachineRuntime.withTokens (mi : MachineRuntime) (tokens : List UInt32) : MachineRuntime :=
  { mi with histogram := some tokens }

/-- The delay is in its bin, and whatever tokens there are, each strategy takes one from the bin
that it names. -/
structure BinsRight (mi : MachineRuntime) (state : PaddingState) (usec : UInt32) : Prop where
  contains : Contains mi state usec (histogramUsecToBin mi usec)
  removes : ∀ tokens : List UInt32, tokens.length = state.histogram.length →
    ∀ removal, RemovesNamed (mi.withTokens tokens) state usec removal

/-- **Bins and tokens are right** exactly where the second shift agrees. -/
theorem binsRight_iff (h : Shifted mi state) (usec : UInt32) :
    BinsRight mi state usec ↔ SecondShiftAgrees mi state usec := by
  rw [← contains_usecToBin h]
  constructor
  · intro hright
    exact hright.contains
  · intro hcontains
    refine ⟨hcontains, fun tokens hlength removal => ?_⟩
    have htokens : HasTokens (mi.withTokens tokens) state :=
      ⟨⟨⟨h.in_state, h.bins⟩, h.fits⟩, hlength⟩
    exact removesNamed ⟨htokens, ⟨hcontains.finite, hcontains.lower, hcontains.upper⟩, rfl⟩ removal

/-- Three bins, from 0, 100 and 200 microseconds on. -/
def threeBins : PaddingState where
  histogram := [1, 1, 1]
  histogramEdges := [0, 100, 200]
  histogramTotalTokens := 3
  usesIatDist := false
  lengthIncludesNonpadding := false
  useRttEstimate := true
  tokenRemoval := .lower
  edges_length := rfl
  histogram_length_le := by decide

/-- A machine in its first state, with the tokens of that state. -/
def MachineRuntime.ofState (state : PaddingState) (hvalid : paddingMachineStateIsValid state)
    (rttEstimateUsec : UInt32) : MachineRuntime where
  machine :=
    { machineIndex := 0
      allowedPaddingCount := 0
      maxPaddingPercent := 0
      states := [state]
      states_valid := List.forall_mem_singleton.mpr hvalid }
  histogram := some state.histogram
  chosenBin := 0
  stateLength := 0
  paddingSent := 0
  nonpaddingSent := 0
  rttEstimateUsec := rttEstimateUsec
  paddingScheduledAtUsec := 0
  isPaddingTimerScheduled := false
  currentState := 0

lemma shifted_threeBins :
    Shifted (MachineRuntime.ofState threeBins (by decide) 50) threeBins where
  in_state := rfl
  bins := List.cons_ne_nil _ _
  fits := by
    intro edge hedge
    have hmem : edge ∈ [0, 100, 200] := hedge
    simp only [List.mem_cons, List.not_mem_nil, or_false] at hmem
    rcases hmem with rfl | rfl | rfl <;> decide

theorem binsRight_far :
    BinsRight (MachineRuntime.ofState threeBins (by decide) 50) threeBins 210 := by
  refine (binsRight_iff shifted_threeBins 210).mpr ?_
  intro bin hinner _
  obtain rfl : bin = 0 := by
    have hbins : threeBins.infinityBin = 2 := rfl
    omega
  decide

/-- A delay of 160 microseconds is in the bin from 150 to 249, and is found in the one from 50 to
149. -/
theorem not_binsRight_twice :
    ¬ BinsRight (MachineRuntime.ofState threeBins (by decide) 50) threeBins 160 := by
  intro h
  rcases h.contains.upper with hlast | hupper
  · exact absurd hlast (by decide)
  · exact absurd hupper (by decide)

end Ator.Circpad
