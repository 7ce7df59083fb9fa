import Mathlib.Data.List.Perm.Basic
import Mathlib.Data.List.TakeWhile

/-!
# Sorting by a comparator

C's `qsort` is given a comparator and promises a sorted rearrangement, in any order of the elements
that compare equal.  Where the comparator is not an order on the elements it promises nothing.

* `SortsTo cmp l l'` — `l'` is what `qsort` may make of `l`.
* `SortsTo.exists_arrangement` — the elements equal to a given one may come out in any order.
* `uniq` — the removal of adjacent elements that compare equal.
* `KeepsTo.exists_mem` — any element may be the one that a sort and a removal keep.
-/

namespace Ator

open List

variable {α : Type*}

/-- The comparator is a total preorder on the members of a list. -/
structure Consistent (cmp : α → α → Ordering) (l : List α) : Prop where
  swap : ∀ a ∈ l, ∀ b ∈ l, cmp b a = (cmp a b).swap
  trans : ∀ a ∈ l, ∀ b ∈ l, ∀ c ∈ l, cmp a b ≠ .gt → cmp b c ≠ .gt → cmp a c ≠ .gt

/-- The contract of `qsort`. -/
structure SortsTo (cmp : α → α → Ordering) (l l' : List α) : Prop where
  consistent : Consistent cmp l
  perm : l'.Perm l
  sorted : l'.Pairwise fun a b => cmp a b ≠ .gt

/-- Elements that compare equal are not told apart. -/
structure EqCongruent (cmp : α → α → Ordering) : Prop where
  refl : ∀ a, cmp a a = .eq
  left : ∀ a b c, cmp a b = .eq → cmp a c = cmp b c
  right : ∀ a b c, cmp a b = .eq → cmp c a = cmp c b

variable {cmp : α → α → Ordering} {l l' : List α} {a b c r v : α}

namespace EqCongruent

lemma symm (h : EqCongruent cmp) (hab : cmp a b = .eq) : cmp b a = .eq := by
  rw [← h.left a b a hab]
  exact h.refl a

lemma trans (h : EqCongruent cmp) (hab : cmp a b = .eq) (hbc : cmp b c = .eq) : cmp a c = .eq := by
  rw [h.left a b c hab]
  exact hbc

/-- The elements equal to `a` are those equal to `b`. -/
lemma eq_iff (h : EqCongruent cmp) (hab : cmp a b = .eq) : cmp c a = .eq ↔ cmp c b = .eq := by
  rw [h.right a b c hab]

end EqCongruent

/-! ## Consistent comparators -/

namespace Consistent

lemma mono {s : List α} (h : Consistent cmp l) (hsub : s ⊆ l) : Consistent cmp s where
  swap a ha b hb := h.swap a (hsub ha) b (hsub hb)
  trans a ha b hb c hc := h.trans a (hsub ha) b (hsub hb) c (hsub hc)

lemma lt_of_not_le (h : Consistent cmp l) (ha : a ∈ l) (hb : b ∈ l) (hab : cmp a b ≠ .lt) :
    cmp b a ≠ .gt := by
  intro hba
  rw [h.swap a ha b hb] at hba
  cases hcmp : cmp a b with
  | lt => exact hab hcmp
  | eq => simp [hcmp] at hba
  | gt => simp [hcmp] at hba

lemma lt_trans_le (h : Consistent cmp l) (ha : a ∈ l) (hb : b ∈ l) (hc : c ∈ l)
    (hab : cmp a b = .lt) (hbc : cmp b c ≠ .gt) : cmp a c = .lt := by
  have hle : cmp a c ≠ .gt := h.trans a ha b hb c hc (by simp [hab]) hbc
  cases hac : cmp a c with
  | lt => rfl
  | gt => exact absurd hac hle
  | eq =>
    have hca : cmp c a ≠ .gt := by simp [h.swap a ha c hc, hac]
    have hba : cmp b a ≠ .gt := h.trans b hb c hc a ha hbc hca
    simp [h.swap a ha b hb, hab] at hba

/-- A comparator that sees no more than a key is consistent. -/
lemma of_key {β : Type*} [LinearOrder β] (key : α → β)
    (h : ∀ a ∈ l, ∀ b ∈ l, cmp a b = compare (key a) (key b)) : Consistent cmp l where
  swap a ha b hb := by
    rw [h a ha b hb, h b hb a ha]
    exact Std.OrientedOrd.eq_swap
  trans a ha b hb c hc := by
    rw [h a ha b hb, h b hb c hc, h a ha c hc, compare_le_iff_le, compare_le_iff_le,
      compare_le_iff_le]
    exact le_trans

/-- A comparator that is consistent on a representative of each element is consistent. -/
lemma of_representatives (hcmp : EqCongruent cmp) (h : Consistent cmp l')
    (hrep : ∀ a ∈ l, ∃ b ∈ l', cmp a b = .eq) : Consistent cmp l where
  swap a ha b hb := by
    obtain ⟨a', ha', haa⟩ := hrep a ha
    obtain ⟨b', hb', hbb⟩ := hrep b hb
    rw [hcmp.left b b' a hbb, hcmp.right a a' b' haa, hcmp.left a a' b haa, hcmp.right b b' a' hbb]
    exact h.swap a' ha' b' hb'
  trans a ha b hb c hc := by
    obtain ⟨a', ha', haa⟩ := hrep a ha
    obtain ⟨b', hb', hbb⟩ := hrep b hb
    obtain ⟨c', hc', hcc⟩ := hrep c hc
    rw [hcmp.left a a' b haa, hcmp.right b b' a' hbb, hcmp.left b b' c hbb, hcmp.right c c' b' hcc,
      hcmp.left a a' c haa, hcmp.right c c' a' hcc]
    exact h.trans a' ha' b' hb' c' hc'

end Consistent

/-! ## Sorted rearrangements -/

namespace SortsTo

lemma mem_iff (h : SortsTo cmp l l') : a ∈ l' ↔ a ∈ l := h.perm.mem_iff

lemma consistent' (h : SortsTo cmp l l') : Consistent cmp l' :=
  h.consistent.mono fun _ ha => h.mem_iff.mp ha

/-- A sorted list followed by greater elements. -/
lemma pairwise_append (h : Consistent cmp l) (hl : ∀ x ∈ l', x ∈ l) {s : List α}
    (hs : ∀ x ∈ s, x ∈ l) (hsort : l'.Pairwise fun a b => cmp a b ≠ .gt)
    (hsort' : s.Pairwise fun a b => cmp a b ≠ .gt) (hv : v ∈ l) (hlv : ∀ x ∈ l', cmp x v ≠ .gt)
    (hvs : ∀ x ∈ s, cmp x v ≠ .lt) : (l' ++ s).Pairwise fun a b => cmp a b ≠ .gt := by
  refine List.pairwise_append.mpr ⟨hsort, hsort', fun x hx y hy => ?_⟩
  exact h.trans x (hl x hx) v hv y (hs y hy) (hlv x hx) (h.lt_of_not_le (hs y hy) hv (hvs y hy))

end SortsTo

/-- A consistent comparator sorts. -/
theorem Consistent.exists_sortsTo (h : Consistent cmp l) : ∃ l', SortsTo cmp l l' := by
  induction l with
  | nil => exact ⟨[], h, .nil, .nil⟩
  | cons r l ih =>
    obtain ⟨s, hs⟩ := ih (h.mono (subset_cons_self r l))
    have hsub : ∀ x ∈ s, x ∈ r :: l := fun x hx => mem_cons_of_mem r (hs.mem_iff.mp hx)
    have hcut : s.takeWhile (cmp · r = .lt) ++ s.dropWhile (cmp · r = .lt) = s :=
      takeWhile_append_dropWhile
    have hpair := hs.sorted
    rw [← hcut, List.pairwise_append] at hpair
    refine ⟨s.takeWhile (cmp · r = .lt) ++ r :: s.dropWhile (cmp · r = .lt), h, ?_, ?_⟩
    · refine perm_middle.trans ?_
      rw [hcut]
      exact hs.perm.cons r
    · have hr : ∀ x ∈ s.dropWhile (cmp · r = .lt), cmp r x ≠ .gt := by
        cases hdrop : s.dropWhile (cmp · r = .lt) with
        | nil => simp
        | cons b t =>
          have hb : cmp b r ≠ .lt := by
            have := head_dropWhile_not (fun x => decide (cmp x r = .lt)) (l := s)
              (by simp [hdrop])
            simpa [hdrop] using this
          have hbmem : b ∈ r :: l := hsub b (by rw [← hcut, hdrop]; simp)
          have hrb := h.lt_of_not_le hbmem (mem_cons_self) hb
          intro x hx
          rcases mem_cons.mp hx with rfl | hxt
          · exact hrb
          · rw [hdrop, pairwise_cons] at hpair
            have hxmem : x ∈ r :: l := hsub x (by rw [← hcut, hdrop]; simp [hxt])
            exact h.trans r mem_cons_self b hbmem x hxmem hrb (hpair.2.1.1 x hxt)
      refine List.pairwise_append.mpr ⟨hpair.1, pairwise_cons.mpr ⟨hr, hpair.2.1⟩, ?_⟩
      intro x hx y hy
      rcases mem_cons.mp hy with rfl | hy
      · have := mem_takeWhile_imp hx
        simp only [decide_eq_true_eq] at this
        simp [this]
      · exact hpair.2.2 x hx y hy

/-- **The elements equal to a member come out in any order.** -/
theorem Consistent.exists_arrangement (h : Consistent cmp l) (hv : v ∈ l) {p : List α}
    (hp : p.Perm (l.filter (cmp · v = .eq))) (hcmp : EqCongruent cmp) :
    ∃ s t, SortsTo cmp l (s ++ p ++ t) ∧ (∀ x ∈ s, cmp x v = .lt) ∧ ∀ x ∈ t, cmp x v = .gt := by
  have hsubl : ∀ {q : α → Bool} {x : α}, x ∈ l.filter q → x ∈ l := fun hx => mem_of_mem_filter hx
  obtain ⟨s, hs⟩ := (h.mono (s := l.filter (cmp · v = .lt)) fun _ => hsubl).exists_sortsTo
  obtain ⟨t, ht⟩ := (h.mono (s := l.filter (cmp · v = .gt)) fun _ => hsubl).exists_sortsTo
  have hsv : ∀ x ∈ s, x ∈ l ∧ cmp x v = .lt := fun x hx => by
    simpa using mem_filter.mp (hs.mem_iff.mp hx)
  have htv : ∀ x ∈ t, x ∈ l ∧ cmp x v = .gt := fun x hx => by
    simpa using mem_filter.mp (ht.mem_iff.mp hx)
  have hpv : ∀ x ∈ p, x ∈ l ∧ cmp x v = .eq := fun x hx => by
    simpa using mem_filter.mp (hp.mem_iff.mp hx)
  refine ⟨s, t, ⟨h, ?_, ?_⟩, fun x hx => (hsv x hx).2, fun x hx => (htv x hx).2⟩
  · have hsplit : ∀ m : List α, (m.filter (cmp · v = .lt) ++ m.filter (cmp · v = .eq) ++
        m.filter (cmp · v = .gt)).Perm m := by
      intro m
      induction m with
      | nil => exact .nil
      | cons x m ih =>
        cases hx : cmp x v with
        | lt => simpa [hx] using ih
        | eq =>
          simp only [hx, filter_cons, reduceCtorEq, decide_false, Bool.false_eq_true,
            if_false, decide_true, if_true]
          refine List.Perm.trans ?_ (ih.cons x)
          rw [append_assoc, cons_append, append_assoc]
          exact perm_middle
        | gt =>
          simp only [hx, filter_cons, reduceCtorEq, decide_false, Bool.false_eq_true,
            if_false, decide_true, if_true]
          exact perm_middle.trans (ih.cons x)
    exact ((hs.perm.append hp).append ht.perm).trans (hsplit l)
  · have hps : p.Pairwise fun a b => cmp a b ≠ .gt := by
      refine pairwise_of_forall_mem_list fun x hx y hy => ?_
      simp [hcmp.trans (hpv x hx).2 (hcmp.symm (hpv y hy).2)]
    have hsp := SortsTo.pairwise_append h (fun x hx => (hsv x hx).1) (fun x hx => (hpv x hx).1)
      hs.sorted hps hv (fun x hx => by simp [(hsv x hx).2]) (fun x hx => by simp [(hpv x hx).2])
    refine SortsTo.pairwise_append h ?_ (fun x hx => (htv x hx).1) hsp ht.sorted hv ?_
      (fun x hx => by simp [(htv x hx).2])
    · intro x hx
      rcases mem_append.mp hx with hx | hx
      · exact (hsv x hx).1
      · exact (hpv x hx).1
    · intro x hx
      rcases mem_append.mp hx with hx | hx
      · simp [(hsv x hx).2]
      · simp [(hpv x hx).2]

/-! ## Removal of adjacent duplicates -/

/-- The loop of `smartlist_uniq` behind a kept element. -/
def uniqAfter (cmp : α → α → Ordering) (kept : α) : List α → List α
  | [] => [kept]
  | next :: rest =>
    if cmp kept next = .eq then uniqAfter cmp kept rest else kept :: uniqAfter cmp next rest

/-- `smartlist_uniq`: of adjacent elements that compare equal, the first. -/
def uniq (cmp : α → α → Ordering) : List α → List α
  | [] => []
  | first :: rest => uniqAfter cmp first rest

lemma mem_of_mem_uniqAfter (h : a ∈ uniqAfter cmp r l) : a = r ∨ a ∈ l := by
  induction l generalizing r with
  | nil => simpa [uniqAfter] using h
  | cons b l ih =>
    rw [uniqAfter] at h
    split at h
    · exact (ih h).imp_right (mem_cons_of_mem b)
    · rcases mem_cons.mp h with rfl | h
      · exact .inl rfl
      · rcases ih h with rfl | h
        · exact .inr mem_cons_self
        · exact .inr (mem_cons_of_mem b h)

lemma mem_of_mem_uniq (h : a ∈ uniq cmp l) : a ∈ l := by
  cases l with
  | nil => exact h
  | cons r l => exact mem_cons.mpr (mem_of_mem_uniqAfter h)

lemma self_mem_uniqAfter (r : α) (l : List α) : r ∈ uniqAfter cmp r l := by
  induction l with
  | nil => simp [uniqAfter]
  | cons b l ih =>
    rw [uniqAfter]
    split
    · exact ih
    · exact mem_cons_self

/-- Each element that is removed compares equal to one that stays. -/
lemma exists_mem_uniqAfter (hcmp : EqCongruent cmp) (h : a ∈ l) :
    ∃ b ∈ uniqAfter cmp r l, cmp a b = .eq := by
  induction l generalizing r with
  | nil => simp at h
  | cons c l ih =>
    rw [uniqAfter]
    split
    · next heq =>
        rcases mem_cons.mp h with rfl | h
        · exact ⟨r, self_mem_uniqAfter r l, hcmp.symm heq⟩
        · exact ih h
    · rcases mem_cons.mp h with rfl | h
      · exact ⟨a, mem_cons_of_mem r (self_mem_uniqAfter a l), hcmp.refl a⟩
      · obtain ⟨b, hb, hab⟩ := ih (r := c) h
        exact ⟨b, mem_cons_of_mem r hb, hab⟩

lemma exists_mem_uniq (hcmp : EqCongruent cmp) (h : a ∈ l) : ∃ b ∈ uniq cmp l, cmp a b = .eq := by
  cases l with
  | nil => simp at h
  | cons r l =>
    rcases mem_cons.mp h with rfl | h
    · exact ⟨a, self_mem_uniqAfter a l, hcmp.refl a⟩
    · exact exists_mem_uniqAfter hcmp h

/-- What stays of a sorted list is strictly sorted. -/
lemma uniqAfter_pairwise (h : Consistent cmp (r :: l))
    (hsort : (r :: l).Pairwise fun a b => cmp a b ≠ .gt) :
    (uniqAfter cmp r l).Pairwise fun a b => cmp a b = .lt := by
  induction l generalizing r with
  | nil => simp [uniqAfter]
  | cons b l ih =>
    obtain ⟨hr, hb⟩ := pairwise_cons.mp hsort
    rw [uniqAfter]
    split
    · refine ih (h.mono ?_) (pairwise_cons.mpr ⟨?_, hb.tail⟩)
      · exact cons_subset_cons r (subset_cons_self b l)
      · exact fun x hx => hr x (mem_cons_of_mem b hx)
    · next hne =>
        have hrb : cmp r b = .lt := by
          cases hcase : cmp r b with
          | lt => rfl
          | eq => exact absurd hcase hne
          | gt => exact absurd hcase (hr b mem_cons_self)
        refine pairwise_cons.mpr ⟨fun x hx => ?_, ih (h.mono (subset_cons_self r _)) hb⟩
        rcases mem_of_mem_uniqAfter hx with rfl | hx
        · exact hrb
        · exact h.lt_trans_le mem_cons_self (by simp) (by simp [hx]) hrb
            ((pairwise_cons.mp hb).1 x hx)

lemma uniq_pairwise (h : Consistent cmp l) (hsort : l.Pairwise fun a b => cmp a b ≠ .gt) :
    (uniq cmp l).Pairwise fun a b => cmp a b = .lt := by
  cases l with
  | nil => exact .nil
  | cons r l => exact uniqAfter_pairwise h hsort

/-- An element with no equal one before it stays. -/
lemma mem_uniqAfter_append (hr : cmp r v ≠ .eq) (h : ∀ x ∈ l, cmp x v ≠ .eq) :
    v ∈ uniqAfter cmp r (l ++ v :: l') := by
  induction l generalizing r with
  | nil =>
    rw [nil_append, uniqAfter, if_neg hr]
    exact mem_cons_of_mem r (self_mem_uniqAfter v l')
  | cons b l ih =>
    have hl : ∀ x ∈ l, cmp x v ≠ .eq := fun x hx => h x (mem_cons_of_mem b hx)
    rw [cons_append, uniqAfter]
    split
    · exact ih hr hl
    · exact mem_cons_of_mem r (ih (h b mem_cons_self) hl)

lemma mem_uniq_append (h : ∀ x ∈ l, cmp x v ≠ .eq) : v ∈ uniq cmp (l ++ v :: l') := by
  cases l with
  | nil => exact self_mem_uniqAfter v l'
  | cons r l =>
    exact mem_uniqAfter_append (h r mem_cons_self) fun x hx => h x (mem_cons_of_mem r hx)

/-! ## A sort and a removal -/

/-- What a sort and a removal of duplicates may keep of a list. -/
def KeepsTo (cmp : α → α → Ordering) (l k : List α) : Prop := ∃ s, SortsTo cmp l s ∧ k = uniq cmp s

namespace KeepsTo

variable {k : List α}

lemma mem (h : KeepsTo cmp l k) (ha : a ∈ k) : a ∈ l := by
  obtain ⟨s, hs, rfl⟩ := h
  exact hs.mem_iff.mp (mem_of_mem_uniq ha)

/-- Each element compares equal to one that is kept. -/
lemma exists_eq (hcmp : EqCongruent cmp) (h : KeepsTo cmp l k) (ha : a ∈ l) :
    ∃ b ∈ k, cmp a b = .eq := by
  obtain ⟨s, hs, rfl⟩ := h
  exact exists_mem_uniq hcmp (hs.mem_iff.mpr ha)

lemma pairwise (h : KeepsTo cmp l k) : k.Pairwise fun a b => cmp a b = .lt := by
  obtain ⟨s, hs, rfl⟩ := h
  exact uniq_pairwise hs.consistent' hs.sorted

/-- Of the elements equal to `v`, one is kept if there is one. -/
lemma countP_eq (hcmp : EqCongruent cmp) (h : KeepsTo cmp l k) (v : α) :
    k.countP (cmp · v = .eq) = if ∃ a ∈ l, cmp a v = .eq then 1 else 0 := by
  have hle : ∀ m : List α, m.Pairwise (fun a b => cmp a b = .lt) →
      m.countP (cmp · v = .eq) ≤ 1 := by
    intro m hm
    induction m with
    | nil => simp
    | cons x m ih =>
      obtain ⟨hx, hm⟩ := pairwise_cons.mp hm
      rw [countP_cons]
      split
      · next hxv =>
          have hzero : m.countP (cmp · v = .eq) = 0 := by
            refine countP_eq_zero.mpr fun y hy hyv => ?_
            have hxy := hcmp.trans (of_decide_eq_true hxv) (hcmp.symm (of_decide_eq_true hyv))
            rw [hx y hy] at hxy
            exact absurd hxy (by simp)
          omega
      · exact ih hm
  split
  · next hex =>
      obtain ⟨a, ha, hav⟩ := hex
      obtain ⟨b, hb, hab⟩ := h.exists_eq hcmp ha
      have hpos : 0 < k.countP (cmp · v = .eq) := by
        refine countP_pos_iff.mpr ⟨b, hb, ?_⟩
        simpa using hcmp.trans (hcmp.symm hab) hav
      have := hle k h.pairwise
      omega
  · next hno =>
      refine countP_eq_zero.mpr fun y hy hyv => hno ⟨y, h.mem hy, of_decide_eq_true hyv⟩

/-- **Any element may be the one that is kept.** -/
theorem exists_mem (hcmp : EqCongruent cmp) (h : Consistent cmp l) (hr : r ∈ l) :
    ∃ k, KeepsTo cmp l k ∧ r ∈ k := by
  have hmem : r ∈ l.filter (cmp · r = .eq) := mem_filter.mpr ⟨hr, by simp [hcmp.refl r]⟩
  obtain ⟨p, hp⟩ : ∃ p, (r :: p).Perm (l.filter (cmp · r = .eq)) := by
    obtain ⟨x, y, hxy⟩ := append_of_mem hmem
    exact ⟨x ++ y, by rw [hxy]; exact perm_middle.symm⟩
  obtain ⟨s, t, hsort, hs, -⟩ := h.exists_arrangement hr hp hcmp
  refine ⟨_, ⟨_, hsort, rfl⟩, ?_⟩
  rw [append_assoc]
  exact mem_uniq_append fun x hx => by simp [hs x hx]

end KeepsTo

end Ator
