import Mathlib.Data.Int.CardIntervalMod

/-!
# Choosing an element by its weight

`choose_array_element_by_weight` of `src/feature/nodelist/node_select.c`, with
`select_array_member_cumulative_timei` of `src/lib/ctime/di_ops.c` and `crypto_rand_uint64` of
`src/lib/crypt_ops/crypto_rand_numeric.c`.

* `chooseArrayElementByWeight_unbiased` — each element is chosen by as many draws as its weight, and
  each draw comes from as many random values as any other.
-/

namespace Ator.NodeSelect

open List

def int64Max : ℕ := 2 ^ 63 - 1
def uint64Max : ℕ := 2 ^ 64 - 1

/-! ## The draw -/

/-- `IMPLEMENT_RAND_UNSIGNED`, with the values that `fill_stmt` gives one after another; `none` where
it goes on to ask for more. -/
def implementRandUnsigned (maxval limit : ℕ) : List ℕ → Option ℕ
  | [] => none
  | val :: vals =>
    if val < maxval - maxval % limit then some (val % limit)
    else implementRandUnsigned maxval limit vals

/-- `crypto_rand_uint64`, or `none` where an assertion fails. -/
def cryptoRandUint64 (max : ℕ) (vals : List ℕ) : Option (Option ℕ) :=
  if max < uint64Max ∧ max > 0 then some (implementRandUnsigned uint64Max max vals) else none

/-! ## The choice -/

/-- `gt_i64_timei`; where pointers do not have 8 bytes it is the sign of a difference. -/
def gtI64Timei (wide : Bool) (a b : UInt64) : Bool :=
  if wide then decide (b < a) else (b - a).toBitVec.msb

/-- The loop of `select_array_member_cumulative_timei`: `total_so_far`, `i_chosen` and `n_chosen` at
its end. -/
def selectLoop (wide : Bool) (i : ℕ) (totalSoFar randVal : UInt64) (iChosen : ℤ) (nChosen : ℕ) :
    List UInt64 → UInt64 × ℤ × ℕ
  | [] => (totalSoFar, iChosen, nChosen)
  | entry :: entries =>
    if gtI64Timei wide (totalSoFar + entry) randVal then
      selectLoop wide (i + 1) (totalSoFar + entry) (UInt64.ofNat int64Max) i (nChosen + 1) entries
    else selectLoop wide (i + 1) (totalSoFar + entry) randVal iChosen nChosen entries

/-- `select_array_member_cumulative_timei`, or `none` where an assertion fails. -/
def selectArrayMemberCumulativeTimei (wide : Bool) (entries : List UInt64)
    (total randVal : UInt64) : Option ℤ :=
  match selectLoop wide 0 0 randVal (-1) 0 entries with
  | (totalSoFar, iChosen, nChosen) =>
    if totalSoFar = total ∧ nChosen = 1 ∧ 0 ≤ iChosen ∧ iChosen < entries.length then some iChosen
    else none

/-- `choose_array_element_by_weight`, with what the two random number generators return for a limit;
`none` where an assertion fails. -/
def chooseArrayElementByWeight (wide : Bool) (randUint64 randInt : ℕ → ℕ) (entries : List UInt64) :
    Option ℤ :=
  let total := entries.foldl (· + ·) 0
  if entries.length < 1 then some (-1)
  else if total = 0 then some (randInt entries.length)
  else if total.toNat < int64Max then
    selectArrayMemberCumulativeTimei wide entries total (UInt64.ofNat (randUint64 total.toNat))
  else none

/-- The sum of the weights. -/
def weight (entries : List UInt64) : ℕ := (entries.map UInt64.toNat).sum

/-! ## Each draw chooses one element -/

variable {wide : Bool} {i n draw : ℕ} {t r : UInt64} {c : ℤ} {entry : UInt64} {entries : List UInt64}

lemma weight_cons : weight (entry :: entries) = entry.toNat + weight entries := sum_cons

lemma gtI64Timei_eq {a b : UInt64} (ha : a.toNat ≤ int64Max) (hb : b.toNat ≤ int64Max) :
    gtI64Timei wide a b = decide (b.toNat < a.toNat) := by
  rw [int64Max] at ha hb
  cases wide with
  | true => rfl
  | false =>
    have hsub : (b - a).toBitVec.toNat = (2 ^ 64 - a.toNat + b.toNat) % 2 ^ 64 := UInt64.toNat_sub b a
    rw [gtI64Timei, if_neg Bool.false_ne_true, BitVec.msb_eq_decide, hsub, decide_eq_decide]
    omega

lemma toNat_add_of_lt (h : t.toNat + weight (entry :: entries) < int64Max) :
    (t + entry).toNat = t.toNat + entry.toNat := by
  rw [weight_cons, int64Max] at h
  rw [UInt64.toNat_add]
  omega

lemma toNat_foldl (h : t.toNat + weight entries < int64Max) :
    (entries.foldl (· + ·) t).toNat = t.toNat + weight entries := by
  induction entries generalizing t with
  | nil => rfl
  | cons entry entries ih =>
    have hadd := toNat_add_of_lt h
    rw [weight_cons] at h ⊢
    rw [foldl_cons, ih (by omega), hadd]
    omega

lemma selectLoop_chosen (h : t.toNat + weight entries < int64Max) :
    selectLoop wide i t (UInt64.ofNat int64Max) c n entries = (entries.foldl (· + ·) t, c, n) := by
  induction entries generalizing i t with
  | nil => rfl
  | cons entry entries ih =>
    have hadd := toNat_add_of_lt h
    have hmax : (UInt64.ofNat int64Max).toNat = int64Max := rfl
    rw [weight_cons] at h
    rw [selectLoop, gtI64Timei_eq (by omega) hmax.le, hmax, decide_eq_false (by omega)]
    exact ih (by omega)

/-- **The draw is in the part of the total that belongs to the chosen element.** -/
lemma exists_selectLoop (wide : Bool) (h : t.toNat + weight entries < int64Max) (ht : t.toNat ≤ r.toNat)
    (hr : r.toNat < t.toNat + weight entries) :
    ∃ k, ∃ hk : k < entries.length, t.toNat + weight (entries.take k) ≤ r.toNat
      ∧ r.toNat < t.toNat + weight (entries.take k) + entries[k].toNat
      ∧ selectLoop wide i t r c n entries = (entries.foldl (· + ·) t, ((i + k : ℕ) : ℤ), n + 1) := by
  induction entries generalizing i t with
  | nil => exact absurd hr (not_lt.mpr ht)
  | cons entry entries ih =>
    have hadd := toNat_add_of_lt h
    rw [weight_cons] at h hr
    have hgt : gtI64Timei wide (t + entry) r = decide (r.toNat < (t + entry).toNat) :=
      gtI64Timei_eq (by omega) (by omega)
    by_cases hcross : r.toNat < (t + entry).toNat
    · refine ⟨0, Nat.succ_pos _, ht, ?_, ?_⟩
      · rw [hadd] at hcross
        simpa [weight] using hcross
      · rw [selectLoop, hgt, if_pos (decide_eq_true hcross), selectLoop_chosen (by omega)]
        rfl
    · obtain ⟨k, hk, hle, hlt, heq⟩ := ih (t := t + entry) (i := i + 1) (by omega) (by omega)
        (by omega)
      refine ⟨k + 1, Nat.succ_lt_succ hk, ?_, ?_, ?_⟩
      · rw [take_succ_cons, weight_cons]
        omega
      · rw [take_succ_cons, weight_cons, getElem_cons_succ]
        omega
      · rw [selectLoop, hgt, if_neg (by simpa using hcross), heq, foldl_cons, Nat.add_right_comm i 1 k]
        rfl

lemma weight_take_succ {k : ℕ} (hk : k < entries.length) :
    weight (entries.take (k + 1)) = weight (entries.take k) + entries[k].toNat := by
  rw [weight, take_add_one, getElem?_eq_getElem hk, map_append, sum_append]
  rfl

lemma weight_take_mono (entries : List UInt64) {k m : ℕ} (h : k ≤ m) :
    weight (entries.take k) ≤ weight (entries.take m) := by
  obtain ⟨d, rfl⟩ := Nat.exists_eq_add_of_le h
  rw [weight, weight, take_add, map_append, sum_append]
  exact Nat.le_add_right _ _

lemma chooseArrayElementByWeight_eq_some (wide : Bool) (randUint64 randInt : ℕ → ℕ)
    (hlt : weight entries < int64Max) (hdraw : draw < weight entries)
    (hrand : randUint64 (weight entries) = draw) :
    ∃ k, ∃ hk : k < entries.length, weight (entries.take k) ≤ draw
      ∧ draw < weight (entries.take k) + entries[k].toNat
      ∧ chooseArrayElementByWeight wide randUint64 randInt entries = some (k : ℤ) := by
  have hsum : (entries.foldl (· + ·) 0).toNat = weight entries := by
    rw [toNat_foldl (by simpa using hlt)]
    exact Nat.zero_add _
  have hval : (UInt64.ofNat draw).toNat = draw := by
    rw [UInt64.toNat_ofNat', Nat.mod_eq_of_lt]
    rw [int64Max] at hlt
    omega
  obtain ⟨k, hk, hle, hbelow, heq⟩ := exists_selectLoop wide (i := 0) (t := 0) (c := -1)
    (n := 0) (r := UInt64.ofNat draw) (by simpa using hlt) (Nat.zero_le _) (by simpa [hval] using hdraw)
  rw [hval, UInt64.toNat_zero, Nat.zero_add] at hle hbelow
  refine ⟨k, hk, hle, hbelow, ?_⟩
  have hne : entries.foldl (· + ·) 0 ≠ 0 := by
    intro hzero
    rw [hzero] at hsum
    exact absurd hdraw (by rw [← hsum]; exact Nat.not_lt_zero draw)
  rw [chooseArrayElementByWeight, if_neg (by omega), if_neg hne, hsum, if_pos hlt, hrand,
    selectArrayMemberCumulativeTimei, heq]
  simp [hk]

/-- The draws that choose an element lie behind the weights in front of it. -/
lemma chooses_iff (wide : Bool) (randUint64 randInt : ℕ → ℕ) (hlt : weight entries < int64Max)
    (hdraw : draw < weight entries) (hrand : randUint64 (weight entries) = draw)
    {k : ℕ} (hk : k < entries.length) :
    chooseArrayElementByWeight wide randUint64 randInt entries = some (k : ℤ)
      ↔ weight (entries.take k) ≤ draw ∧ draw < weight (entries.take k) + entries[k].toNat := by
  obtain ⟨m, hm, hle, hbelow, heq⟩ :=
    chooseArrayElementByWeight_eq_some wide randUint64 randInt hlt hdraw hrand
  rw [heq]
  constructor
  · intro hchosen
    obtain rfl : m = k := by simpa using hchosen
    exact ⟨hle, hbelow⟩
  · rintro ⟨hle', hbelow'⟩
    rcases lt_trichotomy m k with h | rfl | h
    · have := weight_take_mono entries (Nat.succ_le_of_lt h)
      rw [weight_take_succ hm] at this
      omega
    · rfl
    · have := weight_take_mono entries (Nat.succ_le_of_lt h)
      rw [weight_take_succ hk] at this
      omega

lemma card_cryptoRandUint64 {limit : ℕ} (hlimit : 0 < limit) (hmax : limit < uint64Max)
    (hdraw : draw < limit) : ((Finset.range (uint64Max + 1)).filter fun val =>
      cryptoRandUint64 limit [val] = some (some draw)).card = uint64Max / limit := by
  have hcut : uint64Max - uint64Max % limit = limit * (uint64Max / limit) := by
    have := Nat.div_add_mod uint64Max limit
    omega
  have hvals : ((Finset.range (uint64Max + 1)).filter fun val =>
      cryptoRandUint64 limit [val] = some (some draw))
        = (Finset.range (limit * (uint64Max / limit))).filter (· ≡ draw [MOD limit]) := by
    ext val
    rw [Finset.mem_filter, Finset.mem_filter, Finset.mem_range, Finset.mem_range,
      cryptoRandUint64, if_pos ⟨hmax, hlimit⟩, implementRandUnsigned, hcut, Nat.ModEq,
      Nat.mod_eq_of_lt hdraw]
    split
    · next hval =>
      rw [Option.some.injEq, Option.some.injEq]
      exact and_congr_left fun _ => iff_of_true (by omega) hval
    · next hval => simp [implementRandUnsigned, hval]
  rw [hvals, ← Nat.count_eq_card_filter_range, Nat.count_modEq_card _ hlimit, Nat.mul_mod_right,
    if_neg (Nat.not_lt_zero _), Nat.mul_div_cancel_left _ hlimit, Nat.add_zero]

/-- **Each element is chosen by as many draws below the sum of the weights as its weight**, and each
draw comes from as many random values as any other. -/
theorem chooseArrayElementByWeight_unbiased (wide : Bool) (randInt : ℕ → ℕ) (entries : List UInt64)
    (hlt : weight entries < int64Max) :
    (∀ randUint64 : ℕ → ℕ, randUint64 (weight entries) < weight entries →
        (chooseArrayElementByWeight wide randUint64 randInt entries).isSome)
      -- Only the draw for this limit is given: the one for another limit may be any.
      ∧ (∀ randUint64 : ℕ → ℕ → ℕ,
          (∀ draw < weight entries, randUint64 draw (weight entries) = draw) →
          ∀ k (h : k < entries.length), ((Finset.range (weight entries)).filter fun draw =>
            chooseArrayElementByWeight wide (randUint64 draw) randInt entries = some (k : ℤ)).card
              = entries[k].toNat)
      ∧ ∀ limit, 0 < limit → limit < uint64Max → ∀ draw < limit,
          ((Finset.range (uint64Max + 1)).filter fun val =>
            cryptoRandUint64 limit [val] = some (some draw)).card = uint64Max / limit := by
  refine ⟨fun randUint64 hdraw => ?_, fun randUint64 hrand k hk => ?_,
    fun limit hlimit hmax draw hdraw => card_cryptoRandUint64 hlimit hmax hdraw⟩
  · obtain ⟨k, -, -, -, heq⟩ :=
      chooseArrayElementByWeight_eq_some wide randUint64 randInt hlt hdraw rfl
    rw [heq]
    rfl
  · have hend : weight (entries.take k) + entries[k].toNat ≤ weight entries := by
      rw [← weight_take_succ hk]
      calc weight (entries.take (k + 1))
          ≤ weight (entries.take entries.length) := weight_take_mono entries hk
        _ = weight entries := by rw [take_length]
    have hdraws : ((Finset.range (weight entries)).filter fun draw =>
        chooseArrayElementByWeight wide (randUint64 draw) randInt entries = some (k : ℤ))
          = Finset.Ico (weight (entries.take k)) (weight (entries.take k) + entries[k].toNat) := by
      ext draw
      rw [Finset.mem_filter, Finset.mem_range, Finset.mem_Ico]
      have hiff := fun hdraw => chooses_iff wide _ randInt hlt hdraw (hrand draw hdraw) hk
      exact ⟨fun h => (hiff h.1).mp h.2, fun h => have hdraw := h.2.trans_le hend
        ⟨hdraw, (hiff hdraw).mpr h⟩⟩
    rw [hdraws, Nat.card_Ico, Nat.add_sub_cancel_left]

theorem chooseArrayElementByWeight_unbiased_zeros :
    (chooseArrayElementByWeight false (fun limit => 7 % limit) id [0, 1, 2, 0]).isSome
      ∧ ((Finset.range 3).filter fun draw =>
        chooseArrayElementByWeight false (fun limit => draw % limit) id [0, 1, 2, 0] = some 2).card
          = 2 :=
  have hunbiased := chooseArrayElementByWeight_unbiased false id [0, 1, 2, 0] (by decide)
  ⟨hunbiased.1 (fun limit => 7 % limit) (by decide),
    hunbiased.2.1 (fun draw limit => draw % limit) (by decide) 2 (by decide)⟩

end Ator.NodeSelect
