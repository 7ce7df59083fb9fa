import Mathlib.Tactic.Linarith
import Mathlib.Tactic.Ring

/-!
# The bandwidth weights of a consensus

`networkstatus_compute_bw_weights_v10` weighs the guards, middles, exits and guard exits for the
three positions of a circuit.  The division truncates, and the products are taken to fit in an
`int64_t`.

* `networkstatusComputeBwWeightsV10` — the cases, by what is scarce.
* `networkstatusCheckWeights_eq_none_iff` — what is checked of the weights.
* `Sound` — the weights are in range, add up to the scale and balance the positions.
* `weights_iff` — when weights are computed.
-/

namespace Ator.Dirauth

/-! ## The weights -/

/-- The weight of each class in each position. -/
structure Weights where
  Wgg : ℤ
  Wgd : ℤ
  Wmg : ℤ
  Wme : ℤ
  Wmd : ℤ
  Wee : ℤ
  Wed : ℤ
deriving DecidableEq

/-- `bw_weights_error_t`, but for `BW_WEIGHTS_NO_ERROR`. -/
inductive BwWeightsError where
  | rangeError
  | sumgError
  | sumeError
  | sumdError
  | balanceMidError
  | balanceEgError
deriving DecidableEq

def checkEq (a b margin : ℤ) : Bool :=
  if a - b ≥ 0 then decide (a - b ≤ margin) else decide (b - a ≤ margin)

def rangeCheck (w : Weights) (mx : ℤ) : Bool :=
  [w.Wgg, w.Wgd, w.Wmg, w.Wme, w.Wmd, w.Wed, w.Wee].all fun x => decide (0 ≤ x ∧ x ≤ mx)

def networkstatusCheckWeights (w : Weights) (scale G M E D T margin : ℤ) (doBalance : Bool) :
    Option BwWeightsError :=
  if ¬ checkEq (w.Wed + w.Wmd + w.Wgd) scale margin then some .sumdError
  else if ¬ checkEq (w.Wmg + w.Wgg) scale margin then some .sumgError
  else if ¬ checkEq (w.Wme + w.Wee) scale margin then some .sumeError
  else if ¬ rangeCheck w scale then some .rangeError
  else if doBalance then
    if ¬ checkEq (w.Wgg * G + w.Wgd * D) (w.Wee * E + w.Wed * D) ((margin * T).tdiv 3) then
      some .balanceEgError
    else if ¬ checkEq (w.Wgg * G + w.Wgd * D) (M * scale + w.Wmd * D + w.Wme * E + w.Wmg * G)
        ((margin * T).tdiv 3) then
      some .balanceMidError
    else none
  else none

/-! ## The cases -/

/-- The cases, by their names. -/
inductive Case where
  | case1
  | case2aE
  | case2aG
  | case2b1
  | case2b2
  | case2b3
  | case3aG
  | case3aE
  | case3bg
  | case3be
deriving DecidableEq

section Formulas

variable (G M E D scale : ℤ)

/-- `Wgd=Wmd=Wed` -/
def weights1 : Weights :=
  let Wee := (scale * (E + G + M)).tdiv (3 * E)
  let Wmg := (scale * (2 * G - E - M)).tdiv (3 * G)
  { Wgd := scale.tdiv 3
    Wed := scale.tdiv 3
    Wmd := scale.tdiv 3
    Wee := Wee
    Wme := scale - Wee
    Wmg := Wmg
    Wgg := scale - Wmg }

/-- `E` or `G` is scarce even with `D`. -/
def weights2a : Weights :=
  { Wgg := scale
    Wee := scale
    Wmg := 0
    Wme := 0
    Wmd := 0
    Wed := if E < G then scale else 0
    Wgd := if E < G then 0 else scale }

/-- `Wgg=weight_scale, Wmd=Wgd` -/
def weights2b1 : Weights :=
  let Wed := (scale * (D - 2 * E + 4 * G - 2 * M)).tdiv (3 * D)
  { Wee := (scale * (E - G + M)).tdiv E
    Wed := Wed
    Wme := (scale * (G - M)).tdiv E
    Wmg := 0
    Wgg := scale
    Wmd := (scale - Wed).tdiv 2
    Wgd := (scale - Wed).tdiv 2 }

/-- `Wmd` of the weights with `Wgg=weight_scale, Wee=weight_scale`. -/
def wmd2b2 : ℤ := (scale * (D - 2 * M + G + E)).tdiv (3 * D)

/-- `Wgg=weight_scale, Wee=weight_scale`, with `Wmd` as it is left. -/
def weights2b2 (Wmd : ℤ) : Weights :=
  let Wed := (scale * (D - 2 * E + G + M)).tdiv (3 * D)
  { Wgg := scale
    Wee := scale
    Wed := Wed
    Wmd := Wmd
    Wme := 0
    Wmg := 0
    Wgd := scale - Wed - Wmd }

/-- `G scarce` -/
def weights3aG : Weights :=
  let Wme := if E < M then 0 else (scale * (E - M)).tdiv (2 * E)
  { Wgg := scale
    Wgd := scale
    Wmd := 0
    Wed := 0
    Wmg := 0
    Wme := Wme
    Wee := scale - Wme }

/-- `E scarce` -/
def weights3aE : Weights :=
  let Wmg := if G < M then 0 else (scale * (G - M)).tdiv (2 * G)
  { Wee := scale
    Wed := scale
    Wmd := 0
    Wgd := 0
    Wme := 0
    Wmg := Wmg
    Wgg := scale - Wmg }

/-- `G scarce, Wgg=weight_scale, Wmd == Wed` -/
def weights3bg : Weights :=
  let Wgd := (scale * (D - 2 * G + E + M)).tdiv (3 * D)
  let Wee := (scale * (E + M)).tdiv (2 * E)
  { Wgg := scale
    Wgd := Wgd
    Wmg := 0
    Wee := Wee
    Wme := scale - Wee
    Wmd := (scale - Wgd).tdiv 2
    Wed := (scale - Wgd).tdiv 2 }

/-- `E scarce, Wee=weight_scale, Wmd == Wgd` -/
def weights3be : Weights :=
  let Wed := (scale * (D - 2 * E + G + M)).tdiv (3 * D)
  let Wgg := (scale * (G + M)).tdiv (2 * G)
  { Wee := scale
    Wed := Wed
    Wme := 0
    Wgg := Wgg
    Wmg := scale - Wgg
    Wmd := (scale - Wed).tdiv 2
    Wgd := (scale - Wed).tdiv 2 }

end Formulas

/-- What `networkstatus_compute_bw_weights_v10` comes to: it returns 0, its assertion fails, or it
writes the weights. -/
inductive BwWeights where
  | failed
  | assertFailed
  | weights (casename : Case) (w : Weights)
deriving DecidableEq

/-- The assertion before the weights are written. -/
def writeWeights (scale : ℤ) (casename : Case) (w : Weights) : BwWeights :=
  if 0 < scale ∧ scale ≤ 2 ^ 31 - 1 then .weights casename w else .assertFailed

/-- Weights that have to pass the checks. -/
def checkAndWrite (scale G M E D T : ℤ) (casename : Case) (w : Weights) : BwWeights :=
  if (networkstatusCheckWeights w scale G M E D T 10 true).isSome then .failed
  else writeWeights scale casename w

/-- Weights that may leave the middles out of balance. -/
def acceptAndWrite (scale G M E D T : ℤ) (casename : Case) (w : Weights) : BwWeights :=
  match networkstatusCheckWeights w scale G M E D T 10 true with
  | none => writeWeights scale casename w
  | some .balanceMidError => writeWeights scale casename w
  | some _ => .failed

/-- Both are scarce, and `R+D >= S`. -/
def computeWeights2b (G M E D T scale : ℤ) : BwWeights :=
  let w := weights2b1 G M E D scale
  match networkstatusCheckWeights w scale G M E D T 10 true with
  | none => writeWeights scale .case2b1 w
  | some _ =>
    let Wmd := wmd2b2 G M E D scale
    acceptAndWrite scale G M E D T (if Wmd < 0 then .case2b3 else .case2b2)
      (weights2b2 G M E D scale (if Wmd < 0 then 0 else Wmd))

def networkstatusComputeBwWeightsV10 (G M E D T scale : ℤ) : BwWeights :=
  if G ≤ 0 ∨ M ≤ 0 ∨ E ≤ 0 ∨ D ≤ 0 then .failed
  else if 3 * E ≥ T ∧ 3 * G ≥ T then
    checkAndWrite scale G M E D T .case1 (weights1 G M E scale)
  else if 3 * E < T ∧ 3 * G < T then
    if min E G + D < max E G then
      writeWeights scale (if E < G then .case2aE else .case2aG) (weights2a G E scale)
    else computeWeights2b G M E D T scale
  else if 3 * (min E G + D) < T then
    if G < E then writeWeights scale .case3aG (weights3aG M E scale)
    else writeWeights scale .case3aE (weights3aE G M scale)
  else if G < E then checkAndWrite scale G M E D T .case3bg (weights3bg G M E D scale)
  else checkAndWrite scale G M E D T .case3be (weights3be G M E D scale)

/-- The line `bandwidth-weights` that is written. -/
def bandwidthWeights (scale : ℤ) (w : Weights) : List (String × ℤ) :=
  [("Wbd", w.Wmd), ("Wbe", w.Wme), ("Wbg", w.Wmg), ("Wbm", scale), ("Wdb", scale),
    ("Web", scale), ("Wed", w.Wed), ("Wee", w.Wee), ("Weg", w.Wed), ("Wem", w.Wee),
    ("Wgb", scale), ("Wgd", w.Wgd), ("Wgg", w.Wgg), ("Wgm", w.Wgg),
    ("Wmb", scale), ("Wmd", w.Wmd), ("Wme", w.Wme), ("Wmg", w.Wmg), ("Wmm", scale)]

example : networkstatusComputeBwWeightsV10 10 60 30 100 200 10000
    = .weights .case2b2 ⟨10000, 5668, 0, 0, 666, 10000, 3666⟩ := by decide

/-! ## Truncating division -/

section Tdiv

variable {a b c : ℤ}

lemma tdiv_spec (hb : 0 < b) :
    (0 ≤ a → 0 ≤ a.tdiv b ∧ a.tdiv b * b ≤ a) ∧ (a ≤ 0 → a.tdiv b ≤ 0 ∧ a ≤ a.tdiv b * b)
      ∧ -b < a - a.tdiv b * b ∧ a - a.tdiv b * b < b := by
  have hmod := Int.tdiv_mul_add_tmod a b
  have hlt := Int.tmod_lt_of_pos a hb
  rcases le_total 0 a with ha | ha
  · have hnonneg := Int.tmod_nonneg b ha
    have hq := Int.tdiv_nonneg ha hb.le
    refine ⟨fun _ => ⟨hq, by omega⟩, fun h => ?_, by omega, by omega⟩
    obtain rfl : a = 0 := le_antisymm h ha
    simp
  · have hneg := Int.tmod_nonneg b (neg_nonneg.mpr ha)
    have hnegLt := Int.tmod_lt_of_pos (-a) hb
    have hq := Int.tdiv_nonneg (neg_nonneg.mpr ha) hb.le
    rw [Int.neg_tmod] at hneg hnegLt
    rw [Int.neg_tdiv] at hq
    refine ⟨fun h => ?_, fun _ => ⟨by omega, by omega⟩, by omega, by omega⟩
    obtain rfl : a = 0 := le_antisymm ha h
    simp

lemma tdiv_nonneg_iff (hb : 0 < b) : 0 ≤ a.tdiv b ↔ -b < a := by
  obtain ⟨hpos, hneg, hlow, -⟩ := tdiv_spec (a := a) hb
  constructor
  · intro hq
    have hmul := mul_nonneg hq hb.le
    omega
  · intro ha
    by_contra hq
    have hmul : a.tdiv b * b ≤ -1 * b := mul_le_mul_of_nonneg_right (by omega) hb.le
    rcases le_total 0 a with h | h
    · exact hq (hpos h).1
    · have hge := (hneg h).2
      omega

lemma tdiv_le_iff (hb : 0 < b) (hc : 0 ≤ c) : a.tdiv b ≤ c ↔ a < (c + 1) * b := by
  obtain ⟨hpos, hneg, -, hhigh⟩ := tdiv_spec (a := a) hb
  constructor
  · intro hq
    have hmul : a.tdiv b * b ≤ c * b := mul_le_mul_of_nonneg_right hq hb.le
    rw [add_mul, one_mul]
    omega
  · intro ha
    by_contra hq
    have hmul : (c + 1) * b ≤ a.tdiv b * b := mul_le_mul_of_nonneg_right (by omega) hb.le
    rcases le_total 0 a with h | h
    · have hle := (hpos h).2
      omega
    · have hle := (hneg h).1
      omega

lemma tdiv_le_of_le (hb : 0 < b) (hc : 0 ≤ c) (h : a ≤ c * b) : a.tdiv b ≤ c :=
  (tdiv_le_iff hb hc).mpr (by rw [add_mul, one_mul]; omega)

lemma tdiv_two_mul (a : ℤ) {b : ℤ} (hb : 0 < b) :
    -b ≤ (a - a.tdiv 2 * 2) * b ∧ (a - a.tdiv 2 * 2) * b ≤ b := by
  have h := tdiv_spec (a := a) (b := 2) (by norm_num)
  constructor <;> nlinarith

end Tdiv

/-! ## The checks -/

/-- Every weight is at most the scale. -/
structure Weights.InRange (w : Weights) (scale : ℤ) : Prop where
  Wgg : 0 ≤ w.Wgg ∧ w.Wgg ≤ scale
  Wgd : 0 ≤ w.Wgd ∧ w.Wgd ≤ scale
  Wmg : 0 ≤ w.Wmg ∧ w.Wmg ≤ scale
  Wme : 0 ≤ w.Wme ∧ w.Wme ≤ scale
  Wmd : 0 ≤ w.Wmd ∧ w.Wmd ≤ scale
  Wed : 0 ≤ w.Wed ∧ w.Wed ≤ scale
  Wee : 0 ≤ w.Wee ∧ w.Wee ≤ scale

/-- The weights of each class add up to the scale, up to rounding. -/
structure Weights.AddUp (w : Weights) (scale : ℤ) : Prop where
  guards : |w.Wmg + w.Wgg - scale| ≤ 1
  exits : |w.Wme + w.Wee - scale| ≤ 1
  both : |w.Wed + w.Wmd + w.Wgd - scale| ≤ 2

/-- The bandwidth in the guard position, scaled. -/
def Weights.guardBw (w : Weights) (G D : ℤ) : ℤ := w.Wgg * G + w.Wgd * D

/-- The bandwidth in the exit position. -/
def Weights.exitBw (w : Weights) (E D : ℤ) : ℤ := w.Wee * E + w.Wed * D

/-- The bandwidth in the middle position. -/
def Weights.middleBw (w : Weights) (scale G M E D : ℤ) : ℤ :=
  M * scale + w.Wmd * D + w.Wme * E + w.Wmg * G

variable {w : Weights} {scale G M E D T a b margin : ℤ}

lemma checkEq_iff : checkEq a b margin = true ↔ |a - b| ≤ margin := by
  rw [checkEq]
  split
  · next h => rw [decide_eq_true_iff, abs_of_nonneg h]
  · next h => rw [decide_eq_true_iff, abs_of_neg (by omega), neg_sub]

lemma rangeCheck_iff : rangeCheck w scale = true ↔ w.InRange scale := by
  simp only [rangeCheck, List.all_cons, List.all_nil, Bool.and_true, Bool.and_eq_true,
    decide_eq_true_eq]
  constructor
  · rintro ⟨hgg, hgd, hmg, hme, hmd, hed, hee⟩
    exact ⟨hgg, hgd, hmg, hme, hmd, hed, hee⟩
  · rintro ⟨hgg, hgd, hmg, hme, hmd, hed, hee⟩
    exact ⟨hgg, hgd, hmg, hme, hmd, hed, hee⟩

/-- **The checks** of weights that add up: the range, and the balance. -/
theorem networkstatusCheckWeights_eq (hsums : w.AddUp scale) :
    networkstatusCheckWeights w scale G M E D T 10 true = if rangeCheck w scale then
          if |w.guardBw G D - w.exitBw E D| ≤ (10 * T).tdiv 3 then
            if |w.guardBw G D - w.middleBw scale G M E D| ≤ (10 * T).tdiv 3 then none
            else some .balanceMidError
          else some .balanceEgError
        else some .rangeError := by
  rw [networkstatusCheckWeights, if_neg (not_not.mpr (checkEq_iff.mpr (hsums.both.trans (by norm_num)))),
    if_neg (not_not.mpr (checkEq_iff.mpr (hsums.guards.trans (by norm_num)))),
    if_neg (not_not.mpr (checkEq_iff.mpr (hsums.exits.trans (by norm_num))))]
  have hexit : checkEq (w.Wgg * G + w.Wgd * D) (w.Wee * E + w.Wed * D) ((10 * T).tdiv 3) = true
      ↔ |w.guardBw G D - w.exitBw E D| ≤ (10 * T).tdiv 3 := checkEq_iff
  have hmiddle : checkEq (w.Wgg * G + w.Wgd * D) (M * scale + w.Wmd * D + w.Wme * E + w.Wmg * G)
      ((10 * T).tdiv 3) = true ↔ |w.guardBw G D - w.middleBw scale G M E D| ≤ (10 * T).tdiv 3 :=
    checkEq_iff
  rw [if_pos rfl, ← ite_not (p := rangeCheck w scale = true)]
  by_cases he : |w.guardBw G D - w.exitBw E D| ≤ (10 * T).tdiv 3
  · rw [if_pos he, if_neg (not_not.mpr (hexit.mpr he))]
    by_cases hm : |w.guardBw G D - w.middleBw scale G M E D| ≤ (10 * T).tdiv 3
    · rw [if_pos hm, if_neg (not_not.mpr (hmiddle.mpr hm))]
    · rw [if_neg hm, if_pos (mt hmiddle.mp hm)]
  · rw [if_neg he, if_pos (mt hexit.mp he)]

lemma networkstatusCheckWeights_eq_none_iff (hsums : w.AddUp scale) :
    networkstatusCheckWeights w scale G M E D T 10 true = none
      ↔ w.InRange scale ∧ |w.guardBw G D - w.exitBw E D| ≤ (10 * T).tdiv 3
        ∧ |w.guardBw G D - w.middleBw scale G M E D| ≤ (10 * T).tdiv 3 := by
  rw [networkstatusCheckWeights_eq hsums, ← rangeCheck_iff]
  split_ifs <;> simp_all

lemma le_margin (hT : 0 ≤ T) (h : |a| ≤ 3 * T) : |a| ≤ (10 * T).tdiv 3 := by
  rw [Int.tdiv_eq_ediv_of_nonneg (by omega)]
  omega

/-! ## The formulas -/

/-- The weights add up, and balance the positions up to rounding. -/
structure Weights.Balanced (w : Weights) (scale G M E D : ℤ) : Prop where
  addUp : w.AddUp scale
  guard_exit : |w.guardBw G D - w.exitBw E D| ≤ 3 * (G + M + E + D)
  guard_middle : |w.guardBw G D - w.middleBw scale G M E D| ≤ 3 * (G + M + E + D)
  exit_middle : |w.exitBw E D - w.middleBw scale G M E D| ≤ 3 * (G + M + E + D)

/-- The roles of the guards and exits are changed. -/
def Weights.swap (w : Weights) : Weights :=
  { Wgg := w.Wee
    Wgd := w.Wed
    Wmg := w.Wme
    Wme := w.Wmg
    Wmd := w.Wmd
    Wee := w.Wgg
    Wed := w.Wgd }

lemma Weights.InRange.swap (h : w.InRange scale) : w.swap.InRange scale :=
  ⟨h.Wee, h.Wed, h.Wme, h.Wmg, h.Wmd, h.Wgd, h.Wgg⟩

lemma Weights.AddUp.swap (h : w.AddUp scale) : w.swap.AddUp scale := by
  refine ⟨h.exits, h.guards, ?_⟩
  have hboth := h.both
  rwa [show w.swap.Wed + w.swap.Wmd + w.swap.Wgd = w.Wed + w.Wmd + w.Wgd by
    simp only [Weights.swap]; ring]

lemma Weights.Balanced.swap (h : w.Balanced scale G M E D) : w.swap.Balanced scale E M G D := by
  have hsum : E + M + G + D = G + M + E + D := by ring
  have hmiddle : w.swap.middleBw scale E M G D = w.middleBw scale G M E D := by
    simp only [Weights.middleBw, Weights.swap]
    ring
  refine ⟨h.addUp.swap, ?_, ?_, ?_⟩ <;> rw [hsum]
  · rw [abs_sub_comm]
    exact h.guard_exit
  · rw [hmiddle]
    exact h.exit_middle
  · rw [hmiddle]
    exact h.guard_middle

section Formulas

variable (hG : 0 < G) (hM : 0 < M) (hE : 0 < E) (hD : 0 < D)

include hG hM hE hD

lemma weights1_balanced : (weights1 G M E scale).Balanced scale G M E D := by
  have hthird := tdiv_spec (a := scale) (b := 3) (by norm_num)
  have hee := tdiv_spec (a := scale * (E + G + M)) (b := 3 * E) (by omega)
  have hmg := tdiv_spec (a := scale * (2 * G - E - M)) (b := 3 * G) (by omega)
  refine ⟨⟨by simp [weights1], by simp [weights1], ?_⟩, ?_, ?_, ?_⟩
    <;> simp only [weights1, Weights.guardBw, Weights.exitBw, Weights.middleBw] <;> rw [abs_le]
  · omega
  all_goals constructor <;> linarith

lemma weights3bg_balanced : (weights3bg G M E D scale).Balanced scale G M E D := by
  have hgd := tdiv_spec (a := scale * (D - 2 * G + E + M)) (b := 3 * D) (by omega)
  have hee := tdiv_spec (a := scale * (E + M)) (b := 2 * E) (by omega)
  have hhalf := tdiv_two_mul (scale - (scale * (D - 2 * G + E + M)).tdiv (3 * D)) hD
  have hsum := tdiv_spec (a := scale - (scale * (D - 2 * G + E + M)).tdiv (3 * D)) (b := 2)
    (by norm_num)
  refine ⟨⟨by simp [weights3bg], by simp [weights3bg], ?_⟩, ?_, ?_, ?_⟩
    <;> simp only [weights3bg, Weights.guardBw, Weights.exitBw, Weights.middleBw] <;> rw [abs_le]
  · omega
  all_goals constructor <;> linarith

lemma weights2b2_balanced : (weights2b2 G M E D scale (wmd2b2 G M E D scale)).Balanced scale G M E D := by
  have hed := tdiv_spec (a := scale * (D - 2 * E + G + M)) (b := 3 * D) (by omega)
  have hmd := tdiv_spec (a := scale * (D - 2 * M + G + E)) (b := 3 * D) (by omega)
  refine ⟨⟨by simp [weights2b2], by simp [weights2b2], by simp [weights2b2]⟩, ?_, ?_, ?_⟩
    <;> simp only [weights2b2, wmd2b2, Weights.guardBw, Weights.exitBw, Weights.middleBw]
    <;> rw [abs_le] <;> constructor <;> linarith

lemma weights2b1_balanced : (weights2b1 G M E D scale).Balanced scale G M E D := by
  have hee := tdiv_spec (a := scale * (E - G + M)) (b := E) (by omega)
  have hme := tdiv_spec (a := scale * (G - M)) (b := E) (by omega)
  have hed := tdiv_spec (a := scale * (D - 2 * E + 4 * G - 2 * M)) (b := 3 * D) (by omega)
  have hhalf := tdiv_two_mul (scale - (scale * (D - 2 * E + 4 * G - 2 * M)).tdiv (3 * D)) hD
  have hsum := tdiv_spec (a := scale - (scale * (D - 2 * E + 4 * G - 2 * M)).tdiv (3 * D)) (b := 2)
    (by norm_num)
  refine ⟨⟨by simp [weights2b1], ?_, ?_⟩, ?_, ?_, ?_⟩
    <;> simp only [weights2b1, Weights.guardBw, Weights.exitBw, Weights.middleBw] <;> rw [abs_le]
  · -- the sum of the two quotients misses by less than 2
    set wee := (scale * (E - G + M)).tdiv E
    set wme := (scale * (G - M)).tdiv E
    have hlow : -2 * E < (wme + wee - scale) * E := by linarith
    have hhigh : (wme + wee - scale) * E < 2 * E := by linarith
    have hlow' := lt_of_mul_lt_mul_right hlow hE.le
    have hhigh' := lt_of_mul_lt_mul_right hhigh hE.le
    omega
  · omega
  all_goals constructor <;> linarith

end Formulas

/-! ## The ranges -/

section Ranges

variable (hG : 0 < G) (hM : 0 < M) (hE : 0 < E) (hD : 0 < D) (hscale : 0 < scale)

include hG hM hE hD hscale

lemma weights1_inRange (hscarceE : G + M + E + D ≤ 3 * E) (hscarceG : G + M + E + D ≤ 3 * G) :
    (weights1 G M E scale).InRange scale := by
  have hthird := tdiv_spec (a := scale) (b := 3) (by norm_num)
  have hee := (tdiv_spec (a := scale * (E + G + M)) (b := 3 * E) (by omega)).1
    (mul_nonneg hscale.le (by omega))
  have hmg := (tdiv_spec (a := scale * (2 * G - E - M)) (b := 3 * G) (by omega)).1
    (mul_nonneg hscale.le (by omega))
  have hee' : (scale * (E + G + M)).tdiv (3 * E) ≤ scale :=
    tdiv_le_of_le (by omega) hscale.le (mul_le_mul_of_nonneg_left (by omega) hscale.le)
  have hmg' : (scale * (2 * G - E - M)).tdiv (3 * G) ≤ scale :=
    tdiv_le_of_le (by omega) hscale.le (mul_le_mul_of_nonneg_left (by omega) hscale.le)
  constructor <;> simp only [weights1] <;> omega

omit hG in
lemma weights3bg_inRange (hscarceG : 3 * G < G + M + E + D) (hE' : G + M + E + D ≤ 3 * E)
    (hS : G + M + E + D ≤ 3 * (G + D)) : (weights3bg G M E D scale).InRange scale := by
  have hgd := (tdiv_spec (a := scale * (D - 2 * G + E + M)) (b := 3 * D) (by omega)).1
    (mul_nonneg hscale.le (by omega))
  have hee := (tdiv_spec (a := scale * (E + M)) (b := 2 * E) (by omega)).1
    (mul_nonneg hscale.le (by omega))
  have hgd' : (scale * (D - 2 * G + E + M)).tdiv (3 * D) ≤ scale :=
    tdiv_le_of_le (by omega) hscale.le (mul_le_mul_of_nonneg_left (by omega) hscale.le)
  have hee' : (scale * (E + M)).tdiv (2 * E) ≤ scale :=
    tdiv_le_of_le (by omega) hscale.le (mul_le_mul_of_nonneg_left (by omega) hscale.le)
  have hhalf := tdiv_spec (a := scale - (scale * (D - 2 * G + E + M)).tdiv (3 * D)) (b := 2)
    (by norm_num)
  constructor <;> simp only [weights3bg] <;> omega

omit hG hD in
lemma weights3aG_spec : (weights3aG M E scale).InRange scale ∧ (weights3aG M E scale).AddUp scale := by
  have hme : 0 ≤ (weights3aG M E scale).Wme ∧ (weights3aG M E scale).Wme ≤ scale := by
    simp only [weights3aG]
    split
    · exact ⟨le_rfl, hscale.le⟩
    · refine ⟨((tdiv_spec (by omega)).1 (mul_nonneg hscale.le (by omega))).1, ?_⟩
      exact tdiv_le_of_le (by omega) hscale.le (mul_le_mul_of_nonneg_left (by omega) hscale.le)
  have hee : (weights3aG M E scale).Wee = scale - (weights3aG M E scale).Wme := rfl
  refine ⟨⟨⟨hscale.le, le_rfl⟩, ⟨hscale.le, le_rfl⟩, ⟨le_rfl, hscale.le⟩, hme, ⟨le_rfl, hscale.le⟩,
    ⟨le_rfl, hscale.le⟩, by omega⟩, ?_⟩
  refine ⟨?_, ?_, ?_⟩
  · simp [weights3aG]
  · rw [hee]
    simp
  · simp [weights3aG]

omit hG hM hE hD in
lemma weights2a_spec : (weights2a G E scale).InRange scale ∧ (weights2a G E scale).AddUp scale := by
  have hle := hscale.le
  by_cases hlt : E < G
  · refine ⟨?_, ?_⟩ <;> constructor <;> simp [weights2a, hlt, hle]
  · refine ⟨?_, ?_⟩ <;> constructor <;> simp [weights2a, hlt, hle]

omit hG hM hE in
/-- With both scarce, and no more middle bandwidth than rounding hides, the second formula is in
range. -/
lemma weights2b2_inRange (hscarceE : 3 * E < G + M + E + D) (hscarceG : 3 * G < G + M + E + D)
    (hGS : G ≤ E + D) (hM' : scale * (3 * M - (G + M + E + D)) < 3 * D) :
    (weights2b2 G M E D scale (wmd2b2 G M E D scale)).InRange scale := by
  have hed := (tdiv_spec (a := scale * (D - 2 * E + G + M)) (b := 3 * D) (by omega)).1
    (mul_nonneg hscale.le (by omega))
  have hmd := tdiv_spec (a := scale * (D - 2 * M + G + E)) (b := 3 * D) (by omega)
  have hed' : (scale * (D - 2 * E + G + M)).tdiv (3 * D) ≤ scale := by
    have hle : scale * (2 * (G + M - 2 * E - 2 * D)) ≤ scale * (3 * M - (G + M + E + D)) :=
      mul_le_mul_of_nonneg_left (by omega) hscale.le
    rw [tdiv_le_iff (by omega) hscale.le]
    linarith
  have hmd' : 0 ≤ (scale * (D - 2 * M + G + E)).tdiv (3 * D) := by
    rw [tdiv_nonneg_iff (by omega)]
    linarith
  have hsum : (scale * (D - 2 * E + G + M)).tdiv (3 * D) + (scale * (D - 2 * M + G + E)).tdiv (3 * D)
      ≤ scale := by
    rcases le_total (scale * (D - 2 * M + G + E)) 0 with hneg | hpos
    · have hzero := (hmd.2.1 hneg).1
      omega
    · have hle : scale * (2 * G - E - M + 2 * D) ≤ scale * (3 * D) :=
        mul_le_mul_of_nonneg_left (by omega) hscale.le
      have hfloor := (hmd.1 hpos).2
      refine le_of_mul_le_mul_right ?_ (show 0 < 3 * D by omega)
      linarith
  constructor <;> simp only [weights2b2, wmd2b2] <;> omega

end Ranges

/-! ## When weights are computed -/

/-- The cases whose formulas balance the positions: with `Wmd=0` there is too much middle bandwidth
for that. -/
def Case.ClaimsBalance : Case → Prop
  | .case1 | .case2b1 | .case2b2 | .case3bg | .case3be => True
  | .case2aE | .case2aG | .case2b3 | .case3aG | .case3aE => False

/-- The weights that are written are in range, those of each class add up to the scale, and they
balance the positions where they are meant to, within the margin that is checked. -/
structure Weights.Sound (w : Weights) (casename : Case) (scale G M E D : ℤ) : Prop where
  range : ∀ x ∈ bandwidthWeights scale w, 0 ≤ x.2 ∧ x.2 ≤ scale
  addUp : w.AddUp scale
  balance : casename.ClaimsBalance → |w.guardBw G D - w.exitBw E D| ≤ (10 * (G + M + E + D)).tdiv 3
      ∧ |w.guardBw G D - w.middleBw scale G M E D| ≤ (10 * (G + M + E + D)).tdiv 3
      ∧ |w.exitBw E D - w.middleBw scale G M E D| ≤ (10 * (G + M + E + D)).tdiv 3

/-- Both guards and exits are scarce, `D` can level them out, and the middles have so much that
`Wmd` is negative. -/
def TooMuchMiddle (scale G M E D : ℤ) : Prop :=
  3 * E < G + M + E + D ∧ 3 * G < G + M + E + D ∧ max E G ≤ min E G + D
    ∧ 3 * D ≤ scale * (3 * M - (G + M + E + D))

/-- The first formula for this is in range all the same, by rounding. -/
def FirstRounds (scale G M E D : ℤ) : Prop :=
  scale * (M - G) < E ∧ -(3 * D) < scale * (D - 2 * E + 4 * G - 2 * M)

/-- The weights with `Wmd=0` are in range and balance guards and exits all the same. -/
def LastRounds (scale G M E D : ℤ) : Prop :=
  scale * (D - 2 * E + G + M) < (scale + 1) * (3 * D)
    ∧ |scale * (G - E + D) - 2 * (scale * (D - 2 * E + G + M) / (3 * D)) * D|
      ≤ 10 * (G + M + E + D) / 3

/-- There are weights for these totals. -/
def Computable (scale G M E D : ℤ) : Prop :=
  TooMuchMiddle scale G M E D → FirstRounds scale G M E D ∨ LastRounds scale G M E D

section Computing

variable (hG : 0 < G) (hM : 0 < M) (hE : 0 < E) (hD : 0 < D) (hscale : 0 < scale)

lemma Weights.InRange.written (h : w.InRange scale) (hscale : 0 < scale) :
    ∀ x ∈ bandwidthWeights scale w, 0 ≤ x.2 ∧ x.2 ≤ scale := by
  have hself : 0 ≤ scale ∧ scale ≤ scale := ⟨hscale.le, le_rfl⟩
  simp only [bandwidthWeights, List.forall_mem_cons, List.not_mem_nil, false_implies, implies_true,
    and_true]
  exact ⟨h.Wmd, h.Wme, h.Wmg, hself, hself, hself, h.Wed, h.Wee, h.Wed, h.Wee, hself, h.Wgd, h.Wgg,
    h.Wgg, hself, h.Wmd, h.Wme, h.Wmg, hself⟩

include hG hM hE hD hscale in
lemma Weights.Balanced.sound (h : w.Balanced scale G M E D) (hrange : w.InRange scale)
    (casename : Case) : w.Sound casename scale G M E D :=
  ⟨hrange.written hscale, h.addUp, fun _ => ⟨le_margin (by omega) h.guard_exit,
    le_margin (by omega) h.guard_middle, le_margin (by omega) h.exit_middle⟩⟩

include hG hM hE hD in
lemma Weights.Balanced.checks (h : w.Balanced scale G M E D) :
    networkstatusCheckWeights w scale G M E D (G + M + E + D) 10 true = none ↔ w.InRange scale := by
  rw [networkstatusCheckWeights_eq_none_iff h.addUp]
  exact and_iff_left ⟨le_margin (by omega) h.guard_exit, le_margin (by omega) h.guard_middle⟩

/-- The function writes sound weights, up to its assertion on the scale. -/
def Writes (G M E D scale : ℤ) (result : BwWeights) : Prop :=
  ∃ casename w, result = writeWeights scale casename w ∧ w.Sound casename scale G M E D

include hG hM hE hD hscale in
lemma Weights.Balanced.writes (h : w.Balanced scale G M E D) (hrange : w.InRange scale)
    (casename : Case) :
    Writes G M E D scale (checkAndWrite scale G M E D (G + M + E + D) casename w) := by
  refine ⟨casename, w, ?_, h.sound hG hM hE hD hscale hrange casename⟩
  rw [checkAndWrite, (h.checks hG hM hE hD).mpr hrange]
  rfl

lemma acceptAndWrite_eq (hsums : w.AddUp scale) {casename : Case} :
    acceptAndWrite scale G M E D T casename w
      = if rangeCheck w scale ∧ |w.guardBw G D - w.exitBw E D| ≤ (10 * T).tdiv 3 then
          writeWeights scale casename w
        else .failed := by
  rw [acceptAndWrite, networkstatusCheckWeights_eq hsums]
  by_cases hrange : rangeCheck w scale = true
  · by_cases he : |w.guardBw G D - w.exitBw E D| ≤ (10 * T).tdiv 3
    · by_cases hm : |w.guardBw G D - w.middleBw scale G M E D| ≤ (10 * T).tdiv 3 <;>
        simp [hrange, he, hm]
    · simp [hrange, he]
  · simp [hrange]

include hG hM hE hD hscale

omit hG hM in
lemma weights2b1_inRange_iff (h : TooMuchMiddle scale G M E D) :
    (weights2b1 G M E D scale).InRange scale ↔ FirstRounds scale G M E D := by
  obtain ⟨hscarceE, hscarceG, hlevel, hmiddle⟩ := h
  have hmg : G < M := by
    have hpos := pos_of_mul_pos_right (lt_of_lt_of_le (by omega) hmiddle) hscale.le
    omega
  constructor
  · intro hrange
    have hme := (tdiv_nonneg_iff hE).mp hrange.Wme.1
    have hed := (tdiv_nonneg_iff (show 0 < 3 * D by omega)).mp hrange.Wed.1
    exact ⟨by linarith, hed⟩
  · rintro ⟨hfirst, hsecond⟩
    have hee : (scale * (E - G + M)).tdiv E = scale := by
      refine le_antisymm ((tdiv_le_iff hE hscale.le).mpr (by linarith)) ?_
      exact Int.le_tdiv_of_mul_le hE (mul_le_mul_of_nonneg_left (by omega) hscale.le)
    have hme : (scale * (G - M)).tdiv E = 0 := by
      refine le_antisymm ?_ ((tdiv_nonneg_iff hE).mpr (by linarith))
      exact ((tdiv_spec hE).2.1 (mul_nonpos_of_nonneg_of_nonpos hscale.le (by omega))).1
    have hed : 0 ≤ (scale * (D - 2 * E + 4 * G - 2 * M)).tdiv (3 * D) :=
      (tdiv_nonneg_iff (by omega)).mpr hsecond
    have hed' : (scale * (D - 2 * E + 4 * G - 2 * M)).tdiv (3 * D) ≤ scale :=
      tdiv_le_of_le (by omega) hscale.le (mul_le_mul_of_nonneg_left (by omega) hscale.le)
    have hhalf := tdiv_spec
      (a := scale - (scale * (D - 2 * E + 4 * G - 2 * M)).tdiv (3 * D)) (b := 2) (by norm_num)
    constructor <;> simp only [weights2b1, hee, hme] <;> omega

omit hM hE in
lemma weights2b3_passes_iff (h : TooMuchMiddle scale G M E D) :
    ((weights2b2 G M E D scale 0).InRange scale
        ∧ |(weights2b2 G M E D scale 0).guardBw G D - (weights2b2 G M E D scale 0).exitBw E D|
          ≤ (10 * (G + M + E + D)).tdiv 3) ↔ LastRounds scale G M E D := by
  obtain ⟨hscarceE, hscarceG, hlevel, -⟩ := h
  have hnum : 0 ≤ scale * (D - 2 * E + G + M) := mul_nonneg hscale.le (by omega)
  have hed : (scale * (D - 2 * E + G + M)).tdiv (3 * D) = scale * (D - 2 * E + G + M) / (3 * D) :=
    Int.tdiv_eq_ediv_of_nonneg hnum
  have hdiff : (weights2b2 G M E D scale 0).guardBw G D - (weights2b2 G M E D scale 0).exitBw E D
      = scale * (G - E + D) - 2 * (scale * (D - 2 * E + G + M) / (3 * D)) * D := by
    simp only [weights2b2, Weights.guardBw, Weights.exitBw, hed]
    ring
  rw [hdiff, LastRounds, Int.tdiv_eq_ediv_of_nonneg (by omega)]
  refine and_congr_left fun _ => ?_
  constructor
  · intro hrange
    exact (tdiv_le_iff (by omega) hscale.le).mp hrange.Wed.2
  · intro hlt
    have hle := (tdiv_le_iff (by omega) hscale.le).mpr hlt
    have hpos := ((tdiv_spec (show 0 < 3 * D by omega)).1 hnum).1
    constructor <;> simp only [weights2b2] <;> omega

/-- **Both are scarce**: sound weights are written exactly when there are some. -/
lemma computeWeights2b_spec (hscarceE : 3 * E < G + M + E + D) (hscarceG : 3 * G < G + M + E + D)
    (hlevel : max E G ≤ min E G + D) :
    (Writes G M E D scale (computeWeights2b G M E D (G + M + E + D) scale)
        ∧ Computable scale G M E D)
      ∨ (computeWeights2b G M E D (G + M + E + D) scale = .failed ∧ ¬ Computable scale G M E D) := by
  have hfirst : (weights2b1 G M E D scale).Balanced scale G M E D := weights2b1_balanced hG hM hE hD
  rw [computeWeights2b]
  by_cases hrange : (weights2b1 G M E D scale).InRange scale
  · left
    simp only [(hfirst.checks hG hM hE hD).mpr hrange]
    exact ⟨⟨_, _, rfl, hfirst.sound hG hM hE hD hscale hrange _⟩, fun h =>
      .inl ((weights2b1_inRange_iff hE hD hscale h).mp hrange)⟩
  · obtain ⟨berr, hberr⟩ := Option.ne_none_iff_exists'.mp (mt (hfirst.checks hG hM hE hD).mp hrange)
    simp only [hberr]
    by_cases hmiddle : 3 * D ≤ scale * (3 * M - (G + M + E + D))
    · have h : TooMuchMiddle scale G M E D := ⟨hscarceE, hscarceG, hlevel, hmiddle⟩
      have hneg : wmd2b2 G M E D scale < 0 := by
        rw [← not_le, wmd2b2, tdiv_nonneg_iff (by omega)]
        linarith
      have hsums : (weights2b2 G M E D scale 0).AddUp scale :=
        ⟨by simp [weights2b2], by simp [weights2b2], by simp [weights2b2]⟩
      have hpass := weights2b3_passes_iff hG hD hscale h
      have hnot : ¬ FirstRounds scale G M E D :=
        mt (weights2b1_inRange_iff hE hD hscale h).mpr hrange
      simp only [if_pos hneg]
      rw [acceptAndWrite_eq hsums]
      split
      · next hok =>
          left
          have hlast := hpass.mp ⟨rangeCheck_iff.mp hok.1, hok.2⟩
          exact ⟨⟨_, _, rfl, ⟨(rangeCheck_iff.mp hok.1).written hscale, hsums, nofun⟩⟩,
            fun _ => .inr hlast⟩
      · next hbad =>
          right
          refine ⟨rfl, fun hcomp => ?_⟩
          have hok := hpass.mpr ((hcomp h).resolve_left hnot)
          exact hbad ⟨rangeCheck_iff.mpr hok.1, hok.2⟩
    · left
      have hsecond : (weights2b2 G M E D scale (wmd2b2 G M E D scale)).Balanced scale G M E D :=
        weights2b2_balanced hG hM hE hD
      have hrange' := weights2b2_inRange hD hscale hscarceE hscarceG (by omega) (not_le.mp hmiddle)
      have hpos : ¬ wmd2b2 G M E D scale < 0 := by
        have h := hrange'.Wmd.1
        simp only [weights2b2] at h
        omega
      refine ⟨⟨.case2b2, weights2b2 G M E D scale (wmd2b2 G M E D scale), ?_,
        hsecond.sound hG hM hE hD hscale hrange' _⟩, fun h => absurd h.2.2.2 hmiddle⟩
      simp only [if_neg hpos]
      rw [acceptAndWrite, (hsecond.checks hG hM hE hD).mpr hrange']

/-- **The cases**: sound weights are written exactly when there are some. -/
theorem compute_spec :
    (Writes G M E D scale (networkstatusComputeBwWeightsV10 G M E D (G + M + E + D) scale)
        ∧ Computable scale G M E D)
      ∨ (networkstatusComputeBwWeightsV10 G M E D (G + M + E + D) scale = .failed
        ∧ ¬ Computable scale G M E D) := by
  have hswap : weights3be G M E D scale = (weights3bg E M G D scale).swap := by
    simp only [weights3be, weights3bg, Weights.swap, add_comm, add_left_comm]
  rw [networkstatusComputeBwWeightsV10, if_neg (by omega)]
  by_cases hneither : 3 * E ≥ G + M + E + D ∧ 3 * G ≥ G + M + E + D
  · rw [if_pos hneither]
    refine .inl ⟨(weights1_balanced hG hM hE hD).writes hG hM hE hD hscale ?_ _, fun h => ?_⟩
    · exact weights1_inRange hG hM hE hD hscale hneither.1 hneither.2
    · exact absurd h.1 (by omega)
  · rw [if_neg hneither]
    by_cases hboth : 3 * E < G + M + E + D ∧ 3 * G < G + M + E + D
    · rw [if_pos hboth]
      by_cases hlevel : min E G + D < max E G
      · rw [if_pos hlevel]
        obtain ⟨hrange, hsums⟩ := weights2a_spec (G := G) (E := E) hscale
        refine .inl ⟨⟨_, _, rfl, hrange.written hscale, hsums, ?_⟩, fun h => absurd h.2.2.1 (by omega)⟩
        split <;> exact nofun
      · rw [if_neg hlevel]
        exact computeWeights2b_spec hG hM hE hD hscale hboth.1 hboth.2 (by omega)
    · rw [if_neg hboth]
      have hcomp : Computable scale G M E D := fun h => absurd ⟨h.1, h.2.1⟩ hboth
      refine .inl ⟨?_, hcomp⟩
      by_cases hfew : 3 * (min E G + D) < G + M + E + D
      · rw [if_pos hfew]
        by_cases hlt : G < E
        · rw [if_pos hlt]
          obtain ⟨hrange, hsums⟩ := weights3aG_spec hM hE hscale
          exact ⟨_, _, rfl, hrange.written hscale, hsums, nofun⟩
        · rw [if_neg hlt]
          obtain ⟨hrange, hsums⟩ := weights3aG_spec hM hG hscale
          exact ⟨_, _, rfl, hrange.swap.written hscale, hsums.swap, nofun⟩
      · rw [if_neg hfew]
        by_cases hlt : G < E
        · rw [if_pos hlt]
          refine (weights3bg_balanced hG hM hE hD).writes hG hM hE hD hscale ?_ _
          exact weights3bg_inRange hM hE hD hscale (by omega) (by omega) (by omega)
        · rw [if_neg hlt, hswap]
          refine (weights3bg_balanced hE hM hG hD).swap.writes hG hM hE hD hscale ?_ _
          exact (weights3bg_inRange hM hG hD hscale (by omega) (by omega) (by omega)).swap

end Computing

/-! ## The scale -/

section Scale

variable {casename casename' : Case} {w' : Weights}

lemma writeWeights_eq_iff : writeWeights scale casename w = .weights casename' w'
    ↔ (0 < scale ∧ scale ≤ 2 ^ 31 - 1) ∧ casename = casename' ∧ w = w' := by
  rw [writeWeights]
  split <;> simp_all

lemma scale_of_checkAndWrite (h : checkAndWrite scale G M E D T casename w = .weights casename' w') :
    0 < scale ∧ scale ≤ 2 ^ 31 - 1 := by
  rw [checkAndWrite] at h
  split at h
  · cases h
  · exact (writeWeights_eq_iff.mp h).1

lemma scale_of_acceptAndWrite (h : acceptAndWrite scale G M E D T casename w = .weights casename' w') :
    0 < scale ∧ scale ≤ 2 ^ 31 - 1 := by
  rw [acceptAndWrite] at h
  split at h
  · exact (writeWeights_eq_iff.mp h).1
  · exact (writeWeights_eq_iff.mp h).1
  · cases h

lemma scale_of_weights (h : networkstatusComputeBwWeightsV10 G M E D T scale = .weights casename w) :
    0 < scale ∧ scale ≤ 2 ^ 31 - 1 := by
  rw [networkstatusComputeBwWeightsV10] at h
  split_ifs at h
  · exact scale_of_checkAndWrite h
  · exact (writeWeights_eq_iff.mp h).1
  · exact (writeWeights_eq_iff.mp h).1
  · rw [computeWeights2b] at h
    split at h
    · exact (writeWeights_eq_iff.mp h).1
    · exact scale_of_acceptAndWrite h
  · exact (writeWeights_eq_iff.mp h).1
  · exact (writeWeights_eq_iff.mp h).1
  · exact scale_of_checkAndWrite h
  · exact scale_of_checkAndWrite h

end Scale

/-- **Weights are computed**, in range, adding up and in balance, exactly when the middles do not have
too much or rounding hides it, for a scale that passes the assertion. -/
theorem weights_iff {G M E D : ℤ} (hG : 0 < G) (hM : 0 < M) (hE : 0 < E) (hD : 0 < D) (scale : ℤ) :
    (∃ casename w,
        networkstatusComputeBwWeightsV10 G M E D (G + M + E + D) scale = .weights casename w
          ∧ w.Sound casename scale G M E D)
      ↔ (0 < scale ∧ scale ≤ 2 ^ 31 - 1) ∧ Computable scale G M E D := by
  constructor
  · rintro ⟨casename, w, hweights, -⟩
    have hscale := scale_of_weights hweights
    refine ⟨hscale, ?_⟩
    rcases compute_spec hG hM hE hD hscale.1 with ⟨-, hcomp⟩ | ⟨hfailed, -⟩
    · exact hcomp
    · rw [hfailed] at hweights
      cases hweights
  · rintro ⟨hscale, hcomp⟩
    rcases compute_spec hG hM hE hD hscale.1 with ⟨⟨casename, w, hwrites, hsound⟩, -⟩ | ⟨-, hnot⟩
    · exact ⟨casename, w, hwrites.trans (writeWeights_eq_iff.mpr ⟨hscale, rfl, rfl⟩), hsound⟩
    · exact absurd hcomp hnot

/-- Guards and exits are both scarce, and the middles have less than a third. -/
theorem weights_iff_bothScarce : ∃ casename w,
    networkstatusComputeBwWeightsV10 52340 61015 30500 47125 190980 10000 = .weights casename w
      ∧ w.Sound casename 10000 52340 61015 30500 47125 :=
  (weights_iff (by decide) (by decide) (by decide) (by decide) 10000).mpr
    ⟨by decide, fun h => absurd h.2.2.2 (by decide)⟩

/-- **Too much middle bandwidth**: there are no weights. -/
theorem weights_fail :
    ¬ ∀ G M E D scale : ℤ, 0 < G → 0 < M → 0 < E → 0 < D → 0 < scale → ∃ casename w,
      networkstatusComputeBwWeightsV10 G M E D (G + M + E + D) scale = .weights casename w
        ∧ w.Sound casename scale G M E D := by
  intro hall
  obtain ⟨casename, w, hweights, -⟩ := hall 30 80 30 30 10000 (by decide) (by decide) (by decide)
    (by decide) (by decide)
  have hfailed : networkstatusComputeBwWeightsV10 30 80 30 30 (30 + 80 + 30 + 30) 10000 = .failed := by
    decide
  rw [hfailed] at hweights
  cases hweights

end Ator.Dirauth
