import AtorProtocol.Lib.Comparator
import Mathlib.Data.List.MinMax

/-!
# Pluralities of sorted lists

A list that was sorted by a total preorder is a sequence of runs of elements that compare equal.
One pass over it finds a longest run.

* `runs` — the runs, each by its first element and its length.
* `mem_runs` — in a sorted list, the length of a run is the number of elements equal to it.
* `isPlurality_of_argmax` — the first run of the greatest score is a plurality.
* `IsPlurality.unique` — whose class is decided by the elements alone.
* `mem_foldl_argAux_le` — the last of the greatest.
-/

namespace Ator

open List

variable {α β σ : Type*} {cmp : α → α → Ordering} {l s : List α} {a b c cur m : α} {k n : ℕ}

/-- The runs of a list behind an open one. -/
def runsAfter (cmp : α → α → Ordering) (cur : α) (n : ℕ) : List α → List (α × ℕ)
  | [] => [(cur, n)]
  | next :: rest =>
    if cmp cur next = .eq then runsAfter cmp cur (n + 1) rest
    else (cur, n) :: runsAfter cmp next 1 rest

/-- The runs of elements that compare equal to the first of them, with their lengths. -/
def runs (cmp : α → α → Ordering) : List α → List (α × ℕ)
  | [] => []
  | first :: rest => runsAfter cmp first 1 rest

/-- How many elements of the list compare equal to `a`. -/
def classSize (cmp : α → α → Ordering) (l : List α) (a : α) : ℕ := l.countP fun b => cmp a b = .eq

/-! ## Total preorders -/

/-- Elements compared by what `f` makes of them. -/
def compareBy {γ : Type*} (cmp : α → α → Ordering) (f : γ → α) (x y : γ) : Ordering :=
  cmp (f x) (f y)

section

variable [Std.TransCmp cmp]

variable (cmp) in
/-- A total preorder is one on the members of every list. -/
lemma consistent_of_transCmp (l : List α) : Consistent cmp l where
  swap _ _ _ _ := Std.OrientedCmp.eq_swap
  trans a _ b _ c _ hab hbc := by
    have hab' := Ordering.isLE_iff_ne_gt.mpr hab
    have hbc' := Ordering.isLE_iff_ne_gt.mpr hbc
    exact Ordering.isLE_iff_ne_gt.mp (Std.TransCmp.isLE_trans hab' hbc')

/-- Sorting forgets the order of a list where only equal elements compare equal. -/
lemma eq_of_sortsTo {l' s' : List α} (heq : ∀ a b, cmp a b = .eq ↔ a = b) (h : SortsTo cmp l s)
    (h' : SortsTo cmp l' s') (hperm : l.Perm l') : s = s' := by
  refine Perm.eq_of_pairwise (fun a b _ _ hab hba => (heq a b).mp ?_) h.sorted h'.sorted
    (h.perm.trans (hperm.trans h'.perm.symm))
  rw [@Std.OrientedCmp.eq_swap α cmp] at hba
  cases hcase : cmp a b with
  | lt => simp [hcase] at hba
  | eq => rfl
  | gt => exact absurd hcase hab

variable (cmp) in
lemma eqCongruent_of_transCmp : EqCongruent cmp where
  refl _ := Std.ReflCmp.compare_self
  left _ _ _ h := Std.TransCmp.congr_left h
  right _ _ _ h := Std.TransCmp.congr_right h

/-- What sorts a list sorts its rearrangements. -/
lemma SortsTo.of_perm {l' : List α} (h : SortsTo cmp l s) (hperm : l.Perm l') :
    SortsTo cmp l' s :=
  ⟨consistent_of_transCmp cmp l', h.perm.trans hperm, h.sorted⟩

instance {γ : Type*} (f : γ → α) : Std.TransCmp (compareBy cmp f) where
  eq_swap := by
    intro x y
    rw [compareBy, compareBy]
    exact Std.OrientedCmp.eq_swap
  isLE_trans := by
    intro x y z hxy hyz
    rw [compareBy] at hxy hyz ⊢
    exact Std.TransCmp.isLE_trans hxy hyz

instance transCmp_swap : Std.TransCmp fun x y => cmp y x := Std.TransCmp.opposite

lemma classSize_congr (h : cmp a b = .eq) : classSize cmp l a = classSize cmp l b := by
  refine countP_congr fun x _ => ?_
  rw [(eqCongruent_of_transCmp cmp).left a b x h]

omit [Std.TransCmp cmp] in
lemma classSize_perm (h : s.Perm l) (a : α) : classSize cmp s a = classSize cmp l a := h.countP_eq _

end

/-! ## Runs -/

lemma runsAfter_map_fst (cur : α) (n : ℕ) (l : List α) :
    (runsAfter cmp cur n l).map Prod.fst = uniqAfter cmp cur l := by
  induction l generalizing cur n with
  | nil => rfl
  | cons next rest ih =>
    rw [runsAfter, uniqAfter]
    split
    · exact ih cur (n + 1)
    · rw [map_cons, ih]

lemma runs_map_fst (l : List α) : (runs cmp l).map Prod.fst = uniq cmp l := by
  cases l with
  | nil => rfl
  | cons first rest => exact runsAfter_map_fst first 1 rest

lemma runs_eq_nil_iff : runs cmp l = [] ↔ l = [] := by
  rw [← map_eq_nil_iff (f := Prod.fst), runs_map_fst]
  cases l with
  | nil => simp [uniq]
  | cons first rest =>
    have hmem : first ∈ uniq cmp (first :: rest) := self_mem_uniqAfter first rest
    exact ⟨fun h => by simp [h] at hmem, fun h => by simp at h⟩

/-- An element below all of a list is equal to none of it. -/
lemma classSize_eq_zero (h : ∀ x ∈ l, cmp a x = .lt) : classSize cmp l a = 0 := by
  refine countP_eq_zero.mpr fun x hx => ?_
  simp [h x hx]

variable [Std.TransCmp cmp]

lemma mem_runsAfter (hsort : (cur :: l).Pairwise fun a b => cmp a b ≠ .gt)
    (h : (a, k) ∈ runsAfter cmp cur n l) :
    a = cur ∧ k = n + classSize cmp l cur ∨ cmp cur a = .lt ∧ a ∈ l ∧ k = classSize cmp l a := by
  induction l generalizing cur n with
  | nil =>
    rw [runsAfter, mem_singleton, Prod.mk.injEq] at h
    exact .inl h
  | cons next rest ih =>
    obtain ⟨hcur, hnext⟩ := pairwise_cons.mp hsort
    rw [runsAfter] at h
    split at h
    · next heq =>
        have hsort' : (cur :: rest).Pairwise fun a b => cmp a b ≠ .gt :=
          pairwise_cons.mpr ⟨fun x hx => hcur x (by simp [hx]), hnext.tail⟩
        rcases ih hsort' h with ⟨rfl, rfl⟩ | ⟨hlt, ha, rfl⟩
        · refine .inl ⟨rfl, ?_⟩
          rw [classSize, classSize, countP_cons, if_pos (by simpa using heq)]
          omega
        · refine .inr ⟨hlt, mem_cons_of_mem next ha, ?_⟩
          have hne : cmp a next ≠ .eq := by
            rw [← Std.TransCmp.congr_right heq,
              show cmp a cur = (cmp cur a).swap from Std.OrientedCmp.eq_swap, hlt]
            simp
          rw [classSize, classSize, countP_cons, if_neg (by simpa using hne), Nat.add_zero]
    · next hne =>
        have hlt : cmp cur next = .lt := by
          cases hcase : cmp cur next with
          | lt => rfl
          | eq => exact absurd hcase hne
          | gt => exact absurd hcase (hcur next mem_cons_self)
        have hbelow : ∀ x ∈ next :: rest, cmp cur x = .lt := fun x hx => by
          rcases mem_cons.mp hx with rfl | hx
          · exact hlt
          · exact (consistent_of_transCmp cmp (cur :: next :: rest)).lt_trans_le (by simp)
              (by simp) (by simp [hx]) hlt ((pairwise_cons.mp hnext).1 x hx)
        rcases mem_cons.mp h with h | h
        · rw [Prod.mk.injEq] at h
          refine .inl ⟨h.1, ?_⟩
          rw [h.2, classSize_eq_zero hbelow, Nat.add_zero]
        · rcases ih hnext h with ⟨rfl, rfl⟩ | ⟨hlt', ha, rfl⟩
          · refine .inr ⟨hlt, mem_cons_self, ?_⟩
            rw [classSize, classSize, countP_cons,
              if_pos (by simpa using Std.ReflCmp.compare_self), Nat.add_comm]
          · have ha' := mem_cons_of_mem next ha
            refine .inr ⟨hbelow a ha', ha', ?_⟩
            have hne' : cmp a next ≠ .eq := by
              rw [show cmp a next = (cmp next a).swap from Std.OrientedCmp.eq_swap, hlt']
              simp
            rw [classSize, classSize, countP_cons, if_neg (by simpa using hne'), Nat.add_zero]

/-- **The length of a run** of a sorted list is the number of elements equal to its first. -/
theorem mem_runs (hsort : l.Pairwise fun a b => cmp a b ≠ .gt) (h : (a, k) ∈ runs cmp l) :
    a ∈ l ∧ k = classSize cmp l a := by
  cases l with
  | nil => simp [runs] at h
  | cons first rest =>
    rcases mem_runsAfter hsort h with ⟨rfl, rfl⟩ | ⟨hlt, ha, rfl⟩
    · refine ⟨mem_cons_self, ?_⟩
      rw [classSize, classSize, countP_cons,
        if_pos (by simpa using Std.ReflCmp.compare_self), Nat.add_comm]
    · refine ⟨mem_cons_of_mem first ha, ?_⟩
      have hne : cmp a first ≠ .eq := by
        rw [show cmp a first = (cmp first a).swap from Std.OrientedCmp.eq_swap, hlt]
        simp
      rw [classSize, classSize, countP_cons, if_neg (by simpa using hne), Nat.add_zero]

/-- Each element is in a run. -/
lemma exists_mem_runs (hsort : l.Pairwise fun a b => cmp a b ≠ .gt) (ha : a ∈ l) :
    ∃ b, cmp a b = .eq ∧ (b, classSize cmp l b) ∈ runs cmp l := by
  obtain ⟨b, hb, hab⟩ := exists_mem_uniq (eqCongruent_of_transCmp cmp) ha
  rw [← runs_map_fst] at hb
  obtain ⟨⟨b, k⟩, hmem, rfl⟩ := mem_map.mp hb
  obtain ⟨-, rfl⟩ := mem_runs hsort hmem
  exact ⟨b, hab, hmem⟩

/-- The runs are in ascending order. -/
lemma runs_pairwise (hsort : l.Pairwise fun a b => cmp a b ≠ .gt) :
    (runs cmp l).Pairwise fun p q => cmp p.1 q.1 = .lt := by
  rw [← pairwise_map (R := fun a b => cmp a b = .lt), runs_map_fst]
  exact uniq_pairwise (consistent_of_transCmp cmp l) hsort

/-! ## Greatest scores -/

variable [LinearOrder σ] {score : α × ℕ → σ} {f : β → σ} {p q : β} {ps : List β} {o : Option β}

/-- A member whose class has the greatest score, and is the first of those that have it. -/
structure IsPlurality (cmp : α → α → Ordering) (score : α × ℕ → σ) (l : List α) (m : α) :
    Prop where
  mem : m ∈ l
  best : ∀ a ∈ l, score (a, classSize cmp l a) < score (m, classSize cmp l m)
    ∨ score (a, classSize cmp l a) = score (m, classSize cmp l m) ∧ cmp m a ≠ .gt

/-- **The class of a plurality** is decided by the elements, in whatever order. -/
theorem IsPlurality.unique {m' : α} (h : IsPlurality cmp score l m)
    (h' : IsPlurality cmp score s m') (hperm : s.Perm l) : cmp m m' = .eq := by
  have hbest := h.best m' (hperm.mem_iff.mp h'.mem)
  have hbest' := h'.best m (hperm.mem_iff.mpr h.mem)
  simp only [classSize_perm hperm] at hbest'
  rcases hbest with hlt | ⟨heq, hle⟩
  · rcases hbest' with hlt' | ⟨heq', -⟩
    · exact absurd hlt hlt'.not_gt
    · exact absurd heq' hlt.ne'
  · rcases hbest' with hlt' | ⟨-, hle'⟩
    · exact absurd heq hlt'.ne'
    · rw [show cmp m' m = (cmp m m').swap from Std.OrientedCmp.eq_swap] at hle'
      cases hcase : cmp m m' with
      | lt => simp [hcase] at hle'
      | eq => rfl
      | gt => exact absurd hcase hle

omit [Std.TransCmp cmp] in
/-- Among equals, `List.argmax` finds the first. -/
lemma eq_or_rel_of_argmax {R : β → β → Prop} (h : p ∈ ps.argmax f) (hps : ps.Pairwise R)
    (hq : q ∈ ps) (heq : f p ≤ f q) : q = p ∨ R p q := by
  classical
  obtain ⟨hp, -, hfirst⟩ := mem_argmax_iff.mp h
  have hle := hfirst q hq heq
  have hlt : ps.idxOf q < ps.length := idxOf_lt_length_of_mem hq
  rcases hle.lt_or_eq with hlt' | hidx
  · right
    have := pairwise_iff_getElem.mp hps _ _ (hlt'.trans hlt) hlt hlt'
    simpa using this
  · left
    exact ((idxOf_inj hp).mp hidx).symm

/-- **The first of the runs with the greatest score** is a plurality. -/
theorem isPlurality_of_argmax (hscore : ∀ a b k, cmp a b = .eq → score (a, k) = score (b, k))
    (hsort : SortsTo cmp l s) (h : (m, n) ∈ (runs cmp s).argmax score) :
    IsPlurality cmp score l m := by
  have hmem : (m, n) ∈ runs cmp s := argmax_mem h
  obtain ⟨hm, rfl⟩ := mem_runs hsort.sorted hmem
  refine ⟨hsort.mem_iff.mp hm, fun a ha => ?_⟩
  obtain ⟨b, hab, hb⟩ := exists_mem_runs hsort.sorted (hsort.mem_iff.mpr ha)
  have hle : score (b, classSize cmp s b) ≤ score (m, classSize cmp s m) := le_of_mem_argmax hb h
  rw [← classSize_congr hab, ← hscore a b _ hab] at hle
  simp only [← classSize_perm hsort.perm]
  rcases hle.lt_or_eq with hlt | heq
  · exact .inl hlt
  · refine .inr ⟨heq, ?_⟩
    rw [hscore a b _ hab, classSize_congr hab] at heq
    rw [Std.TransCmp.congr_right hab]
    rcases eq_or_rel_of_argmax h (runs_pairwise hsort.sorted) hb heq.ge with hbm | hlt
    · rw [(Prod.mk.inj hbm).1, (eqCongruent_of_transCmp cmp).refl m]
      simp
    · simp [hlt]

omit [Std.TransCmp cmp] in
/-- **The last of the greatest** is found by a pass that replaces what is not greater. -/
lemma mem_foldl_argAux_le (h : p ∈ ps.foldl (List.argAux fun b c => f c ≤ f b) o) :
    (p ∈ ps ∨ p ∈ o) ∧ (∀ q ∈ ps, f q ≤ f p) ∧ ∀ q ∈ o, f q ≤ f p := by
  induction ps generalizing o with
  | nil =>
    rw [foldl_nil] at h
    refine ⟨.inr h, by simp, fun q hq => ?_⟩
    rw [Option.mem_unique hq h]
  | cons x ps ih =>
    rw [foldl_cons] at h
    obtain ⟨hmem, hps, ho⟩ := ih h
    have hstep : f x ≤ f p ∧ ∀ q ∈ o, f q ≤ f p := by
      cases o with
      | none => exact ⟨ho x rfl, by simp⟩
      | some c =>
        by_cases hc : f c ≤ f x
        · have hx := ho x (by simp [argAux, hc])
          exact ⟨hx, fun q hq => Option.mem_some_iff.mp hq ▸ hc.trans hx⟩
        · have hcp := ho c (by simp [argAux, hc])
          exact ⟨(not_le.mp hc).le.trans hcp, fun q hq => Option.mem_some_iff.mp hq ▸ hcp⟩
    refine ⟨?_, by simpa using ⟨hstep.1, hps⟩, hstep.2⟩
    rcases hmem with hmem | hmem
    · exact .inl (mem_cons_of_mem x hmem)
    · cases o with
      | none => exact .inl (by simp [argAux] at hmem; simp [hmem])
      | some c =>
        simp only [argAux] at hmem
        split at hmem
        · exact .inl (by simp [Option.mem_some_iff.mp hmem])
        · exact .inr hmem

end Ator
