import AtorProtocol.Lib.BinarySearch

/-!
# Searching smartlists

`smartlist_bsearch_idx` of `src/lib/container/smartlist.c`.

* `Ranks` — a comparison of keys with members that agrees with a total order.
* `smartlistBsearchIdx_spec` — a member equal to the key is found, or the index to insert it at.
-/

namespace Ator.Smartlist

open List

variable {κ α ω : Type*} [LinearOrder ω]

/-- `smartlist_bsearch_idx`: the index and `*found_out`, or `none` where an assertion fails. -/
def smartlistBsearchIdx (compare : κ → α → ℤ) (key : κ) (sl : List α) : Option (ℕ × Bool) :=
  bsearchIdx (compare key) sl

/-- `compare` orders keys and members by their ranks. -/
structure Ranks (compare : κ → α → ℤ) (keyRank : κ → ω) (rank : α → ω) : Prop where
  neg : ∀ key a, compare key a < 0 ↔ keyRank key < rank a
  zero : ∀ key a, compare key a = 0 ↔ keyRank key = rank a

variable {compare : κ → α → ℤ} {keyRank : κ → ω} {rank : α → ω} {sl : List α}

lemma Ranks.pos (h : Ranks compare keyRank rank) (key : κ) (a : α) :
    0 < compare key a ↔ rank a < keyRank key := by
  have hneg := h.neg key a
  have hzero := h.zero key a
  rcases lt_trichotomy (keyRank key) (rank a) with hlt | heq | hgt
  · exact iff_of_false (hneg.mpr hlt).not_gt hlt.not_gt
  · exact iff_of_false (hzero.mpr heq).not_gt heq.not_gt
  · refine iff_of_true ?_ hgt
    have hnotNeg := mt hneg.mp hgt.not_gt
    have hnotZero := mt hzero.mp hgt.ne'
    omega

lemma Ranks.inOrder (h : Ranks compare keyRank rank) (hsorted : sl.Pairwise (rank · ≤ rank ·))
    (key : κ) : InOrder (compare key) sl := by
  refine hsorted.imp fun {a b} hab => ⟨fun ha => ?_, fun ha => ?_⟩
  · rw [← not_lt, h.pos] at ha ⊢
    exact fun hb => ha (hab.trans_lt hb)
  · rw [h.neg] at ha ⊢
    exact ha.trans_le hab

/-- **The search finds an equal member if there is one, and else where to insert the key**. -/
theorem smartlistBsearchIdx_spec (h : Ranks compare keyRank rank)
    (hsorted : sl.Pairwise (rank · ≤ rank ·)) (key : κ) :
    ∃ idx found, smartlistBsearchIdx compare key sl = some (idx, found)
      ∧ (found = true ↔ ∃ a ∈ sl, rank a = keyRank key)
      ∧ (found = true → ∃ a, sl[idx]? = some a ∧ rank a = keyRank key)
      ∧ (found = false → idx ≤ sl.length ∧
          ((sl.take idx).map rank ++ keyRank key :: (sl.drop idx).map rank).Pairwise (· ≤ ·)) := by
  obtain ⟨⟨idx, found⟩, heq, hpos⟩ := exists_bsearchIdx (h.inOrder hsorted key)
  refine ⟨idx, found, heq, ?_⟩
  cases found with
  | true =>
    obtain ⟨a, hread, hzero⟩ := hpos
    have hrank := ((h.zero key a).mp hzero).symm
    exact ⟨iff_of_true rfl ⟨a, mem_of_getElem? hread, hrank⟩, fun _ => ⟨a, hread, hrank⟩,
      fun h => Bool.noConfusion h⟩
  | false =>
    obtain ⟨hle, hbelow, habove⟩ := hpos
    have hbefore : ∀ a ∈ sl.take idx, rank a < keyRank key := by
      intro a ha
      obtain ⟨i, hi, rfl⟩ := mem_take_iff_getElem.mp ha
      exact (h.pos key _).mp (hbelow i (by omega) (by omega))
    have hbehind : ∀ a ∈ sl.drop idx, keyRank key < rank a := by
      intro a ha
      obtain ⟨i, hi, rfl⟩ := mem_drop_iff_getElem.mp ha
      exact (h.neg key _).mp (habove _ (by omega) (Nat.le_add_right idx i))
    refine ⟨iff_of_false Bool.false_ne_true ?_, fun h => Bool.noConfusion h, fun _ => ⟨hle, ?_⟩⟩
    · rintro ⟨a, ha, hrank⟩
      rw [← take_append_drop idx sl, mem_append] at ha
      rcases ha with ha | ha
      · exact (hbefore a ha).ne hrank
      · exact (hbehind a ha).ne' hrank
    · rw [pairwise_append, pairwise_cons, pairwise_map, pairwise_map]
      refine ⟨hsorted.sublist (take_sublist _ _), ⟨?_, hsorted.sublist (drop_sublist _ _)⟩, ?_⟩
      · intro r hr
        obtain ⟨a, ha, rfl⟩ := mem_map.mp hr
        exact (hbehind a ha).le
      · intro r hr r' hr'
        obtain ⟨a, ha, rfl⟩ := mem_map.mp hr
        rcases mem_cons.mp hr' with rfl | hr'
        · exact (hbefore a ha).le
        · obtain ⟨b, hb, rfl⟩ := mem_map.mp hr'
          exact ((hbefore a ha).trans (hbehind b hb)).le

theorem smartlistBsearchIdx_spec_twice :
    ∃ idx found, smartlistBsearchIdx (fun key a : ℤ => key - a) 2 [1, 2, 2] = some (idx, found)
      ∧ (found = true ↔ ∃ a ∈ [(1 : ℤ), 2, 2], a = 2)
      ∧ (found = true → ∃ a, [(1 : ℤ), 2, 2][idx]? = some a ∧ a = 2)
      ∧ (found = false → idx ≤ [(1 : ℤ), 2, 2].length ∧
          (([(1 : ℤ), 2, 2].take idx).map id ++ 2 :: ([(1 : ℤ), 2, 2].drop idx).map id).Pairwise
            (· ≤ ·)) :=
  @smartlistBsearchIdx_spec ℤ ℤ ℤ _ _ id id _
    ⟨fun _ _ => ⟨Int.lt_of_sub_neg, Int.sub_neg_of_lt⟩, fun _ _ => sub_eq_zero⟩ (by decide) 2

end Ator.Smartlist
