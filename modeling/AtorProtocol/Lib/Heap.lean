import Mathlib.Data.List.Perm.Basic
import Mathlib.Logic.Equiv.Basic
import Mathlib.Order.WithBot

/-!
# Binary heaps in lists

A priority queue kept in a list: the children of the item at `i` are at `2 * i + 1` and
`2 * i + 2`, and `key` orders the items.

* `Ordered` — no item comes before its parent.
* `pqueueAdd_ordered`, `pqueueAdd_perm` — an added item is sifted up to its place.
* `pqueuePop_ordered`, `pqueuePop_perm`, `pqueuePop_le` — the item popped is a least one, and the
  others stay.
* `ordered_heapify_set_iff` — what a removal from the middle leaves is in order unless the last item
  comes before the parent of the hole.
* `PQueue` — the lists in heap order; `PQueue.pop?_eq_some` is what popping does.
-/

namespace Ator

open List

variable {α β : Type*} {key : α → β} {l : List α} {i : ℕ}

/-! ## Positions -/

/-- The key at a position; past the end it is the greatest of all. -/
def rank (key : α → β) (l : List α) (i : ℕ) : WithTop β :=
  match l[i]? with
  | some a => (key a : WithTop β)
  | none => ⊤

/-- The position above `i`. -/
def parent (i : ℕ) : ℕ := (i - 1) / 2

/-- Exchange the items at two positions. -/
def swap (l : List α) (i j : ℕ) : List α :=
  match l[i]?, l[j]? with
  | some a, some b => (l.set i b).set j a
  | _, _ => l

lemma rank_of_lt (h : i < l.length) : rank key l i = key l[i] := by
  simp [rank, h]

lemma rank_of_le (h : l.length ≤ i) : rank key l i = ⊤ := by
  simp [rank, h]

lemma parent_lt (h : 0 < i) : parent i < i := by
  rw [parent]
  omega

lemma swap_perm (l : List α) (i j : ℕ) : (swap l i j).Perm l := by
  rw [swap]
  split
  · next a b ha hb =>
      obtain ⟨hi, rfl⟩ := List.getElem?_eq_some_iff.mp ha
      obtain ⟨hj, rfl⟩ := List.getElem?_eq_some_iff.mp hb
      exact set_set_perm hi hj
  · rfl

@[simp] lemma length_swap (l : List α) (i j : ℕ) : (swap l i j).length = l.length :=
  (swap_perm l i j).length_eq

lemma rank_swap {j : ℕ} (hi : i < l.length) (hj : j < l.length) (k : ℕ) :
    rank key (swap l i j) k = rank key l (Equiv.swap i j k) := by
  have hswap : swap l i j = (l.set i l[j]).set j l[i] := by
    simp [swap, hi, hj]
  rw [rank, rank, hswap, getElem?_set, getElem?_set, length_set]
  by_cases hjk : j = k
  · simp [← hjk, hi, hj]
  · by_cases hik : i = k
    · subst hik
      rw [if_neg hjk, if_pos rfl, if_pos hi, Equiv.swap_apply_left, getElem?_eq_getElem hj]
    · rw [Equiv.swap_apply_of_ne_of_ne (Ne.symm hik) (Ne.symm hjk), if_neg hjk, if_neg hik]

variable [LinearOrder β]

/-- `compare(list[i], list[j]) < 0`. -/
def before (key : α → β) (l : List α) (i j : ℕ) : Bool :=
  match l[i]?, l[j]? with
  | some a, some b => key a < key b
  | _, _ => false

/-- **Heap order**: no item comes before its parent. -/
def Ordered (key : α → β) (l : List α) : Prop := ∀ i, 0 < i → rank key l (parent i) ≤ rank key l i

lemma before_iff (hj : j < l.length) : before key l i j = true ↔ rank key l i < rank key l j := by
  by_cases hi : i < l.length
  · simp [before, rank, hi, hj]
  · simp [before, rank, hj, not_lt.mp hi]

/-! ## Sifting up -/

/-- The loop of `smartlist_pqueue_add`. -/
def siftUp (key : α → β) (l : List α) (idx : ℕ) : List α :=
  if 0 < idx ∧ before key l idx (parent idx) then
    siftUp key (swap l idx (parent idx)) (parent idx)
  else
    l
termination_by idx
decreasing_by exact parent_lt (by tauto)

/-- `smartlist_pqueue_add`. -/
def pqueueAdd (key : α → β) (l : List α) (item : α) : List α := siftUp key (l ++ [item]) l.length

/-- In order but for `idx`, which may come before its parent. -/
structure UpOrdered {γ : Type*} [LinearOrder γ] (r : ℕ → γ) (idx : ℕ) : Prop where
  others : ∀ i, 0 < i → i ≠ idx → r (parent i) ≤ r i
  children : ∀ i, 0 < i → parent i = idx → 0 < idx → r (parent idx) ≤ r i

variable {idx : ℕ}

lemma UpOrdered.up {γ : Type*} [LinearOrder γ] {r : ℕ → γ} (h : UpOrdered r idx)
    (hpos : 0 < idx) (hlt : r idx < r (parent idx)) :
    UpOrdered (fun k => r (Equiv.swap idx (parent idx) k)) (parent idx) := by
  have hne : parent idx ≠ idx := (parent_lt hpos).ne
  constructor
  · intro i hi hip
    by_cases hidx : i = idx
    · simpa [hidx] using hlt.le
    · rw [Equiv.swap_apply_of_ne_of_ne hidx hip]
      by_cases hchild : parent i = idx
      · rw [hchild, Equiv.swap_apply_left]
        exact h.children i hi hchild hpos
      · by_cases hsib : parent i = parent idx
        · rw [hsib, Equiv.swap_apply_right]
          exact hlt.le.trans (hsib ▸ h.others i hi hidx)
        · rw [Equiv.swap_apply_of_ne_of_ne hchild hsib]
          exact h.others i hi hidx
  · intro i hi hparent hp
    have hup : parent (parent idx) ≠ idx := ((parent_lt hp).trans (parent_lt hpos)).ne
    have hgrand := h.others (parent idx) hp hne
    rw [Equiv.swap_apply_of_ne_of_ne hup (parent_lt hp).ne]
    by_cases hidx : i = idx
    · rwa [hidx, Equiv.swap_apply_left]
    · have hip : i ≠ parent idx := by
        rintro rfl
        exact (parent_lt hi).ne hparent
      rw [Equiv.swap_apply_of_ne_of_ne hidx hip]
      exact hgrand.trans (hparent ▸ h.others i hi hidx)

lemma siftUp_ordered (h : UpOrdered (rank key l) idx) (hidx : idx < l.length) :
    Ordered key (siftUp key l idx) := by
  induction l, idx using siftUp.induct key with
  | case1 l idx hup ih =>
    obtain ⟨hpos, hbefore⟩ := hup
    have hp : parent idx < l.length := (parent_lt hpos).trans hidx
    rw [siftUp, if_pos ⟨hpos, hbefore⟩]
    refine ih ?_ (by rwa [length_swap])
    rw [show rank key (swap l idx (parent idx)) = fun k => rank key l (Equiv.swap idx (parent idx) k)
      from funext (rank_swap hidx hp)]
    exact h.up hpos ((before_iff hp).mp hbefore)
  | case2 l idx hup =>
    rw [siftUp, if_neg hup]
    intro i hi
    by_cases hii : i = idx
    · subst hii
      have hp : parent i < l.length := (parent_lt hi).trans hidx
      exact not_lt.mp fun hlt => hup ⟨hi, (before_iff hp).mpr hlt⟩
    · exact h.others i hi hii

lemma siftUp_perm (l : List α) (idx : ℕ) : (siftUp key l idx).Perm l := by
  induction l, idx using siftUp.induct key with
  | case1 l idx hup ih =>
    rw [siftUp, if_pos hup]
    exact ih.trans (swap_perm l _ _)
  | case2 l idx hup => rw [siftUp, if_neg hup]

lemma pqueueAdd_perm (l : List α) (item : α) : (pqueueAdd key l item).Perm (item :: l) :=
  (siftUp_perm _ _).trans (perm_append_singleton item l)

/-- **The queue stays in heap order** when an item is added. -/
theorem pqueueAdd_ordered (h : Ordered key l) (item : α) : Ordered key (pqueueAdd key l item) := by
  have hold : ∀ i, i < l.length → rank key (l ++ [item]) i = rank key l i := by
    intro i hi
    rw [rank_of_lt hi, rank_of_lt (by simp; omega), getElem_append_left hi]
  have hnew : ∀ i, l.length < i → rank key (l ++ [item]) i = ⊤ := fun i hi =>
    rank_of_le (by simp; omega)
  refine siftUp_ordered ⟨?_, ?_⟩ (by simp)
  · intro i hi hne
    rcases Nat.lt_or_ge i l.length with hlt | hge
    · rw [hold i hlt, hold _ ((parent_lt hi).trans hlt)]
      exact h i hi
    · rw [hnew i (by omega)]
      exact le_top
  · rintro i hi hparent -
    rw [hnew i (hparent ▸ parent_lt hi)]
    exact le_top

/-! ## Sifting down -/

/-- Which of `idx` and its children `smartlist_heapify` takes for the first. -/
def bestOf (key : α → β) (l : List α) (idx : ℕ) : ℕ :=
  let left := 2 * idx + 1
  let best := if before key l idx left then idx else left
  if left + 1 < l.length ∧ before key l (left + 1) best then left + 1 else best

lemma bestOf_cases (key : α → β) (l : List α) (idx : ℕ) :
    bestOf key l idx = idx ∨ bestOf key l idx = 2 * idx + 1
      ∨ bestOf key l idx = 2 * idx + 2 ∧ 2 * idx + 2 < l.length := by
  have hbest : bestOf key l idx = if 2 * idx + 1 + 1 < l.length ∧ before key l (2 * idx + 1 + 1)
      (if before key l idx (2 * idx + 1) then idx else 2 * idx + 1) then 2 * idx + 1 + 1
      else if before key l idx (2 * idx + 1) then idx else 2 * idx + 1 := rfl
  rw [hbest]
  split_ifs <;> tauto

lemma bestOf_lt (h : 2 * idx + 1 < l.length) : bestOf key l idx < l.length := by
  rcases bestOf_cases key l idx with hb | hb | hb <;> omega

/-- `smartlist_heapify`. -/
def heapify (key : α → β) (l : List α) (idx : ℕ) : List α :=
  if _h : 2 * idx + 1 < l.length ∧ bestOf key l idx ≠ idx then
    heapify key (swap l idx (bestOf key l idx)) (bestOf key l idx)
  else
    l
termination_by l.length - idx
decreasing_by
  have hlt : bestOf key l idx < l.length := bestOf_lt _h.1
  rcases bestOf_cases key l idx with hb | hb | hb
  · exact absurd hb _h.2
  all_goals simp only [length_swap]; omega

/-- `smartlist_pqueue_pop`: the item popped and the queue left; `none` is the assertion that the
queue is not empty. -/
def pqueuePop (key : α → β) : List α → Option (α × List α)
  | [] => none
  | [top] => some (top, [])
  | top :: x :: rest =>
    some (top, heapify key ((x :: rest).getLast (cons_ne_nil x rest) :: (x :: rest).dropLast) 0)

/-- In order but for the children of `idx`, which may come before it. -/
structure DownOrdered {γ : Type*} [LinearOrder γ] (r : ℕ → γ) (idx : ℕ) : Prop where
  others : ∀ i, 0 < i → parent i ≠ idx → r (parent i) ≤ r i
  children : ∀ i, 0 < i → parent i = idx → 0 < idx → r (parent idx) ≤ r i

lemma DownOrdered.down {γ : Type*} [LinearOrder γ] {r : ℕ → γ} {idx best : ℕ}
    (h : DownOrdered r idx) (hpos : 0 < best) (hparent : parent best = idx)
    (hidx : r best ≤ r idx) (hmin : ∀ i, 0 < i → parent i = idx → r best ≤ r i) :
    DownOrdered (fun k => r (Equiv.swap idx best k)) best := by
  have hlt : idx < best := hparent ▸ parent_lt hpos
  constructor
  · intro i hi hpb
    by_cases hib : i = best
    · rw [hib, hparent, Equiv.swap_apply_left, Equiv.swap_apply_right]
      exact hidx
    · by_cases hii : i = idx
      · subst hii
        rw [Equiv.swap_apply_left, Equiv.swap_apply_of_ne_of_ne (parent_lt hi).ne hpb]
        exact h.children best hpos hparent hi
      · rw [Equiv.swap_apply_of_ne_of_ne hii hib]
        by_cases hchild : parent i = idx
        · rw [hchild, Equiv.swap_apply_left]
          exact hmin i hi hchild
        · rw [Equiv.swap_apply_of_ne_of_ne hchild hpb]
          exact h.others i hi hchild
  · intro i hi hpb _
    have hbi : best < i := hpb ▸ parent_lt hi
    rw [hparent, Equiv.swap_apply_left, Equiv.swap_apply_of_ne_of_ne (by omega) hbi.ne']
    exact hpb ▸ h.others i hi (by omega)

variable (key) in
/-- What `bestOf` picks is no later than `idx` and its children. -/
lemma rank_bestOf_le (h : 2 * idx + 1 < l.length) :
    rank key l (bestOf key l idx) ≤ rank key l idx
      ∧ ∀ i, 0 < i → parent i = idx → rank key l (bestOf key l idx) ≤ rank key l i := by
  have hidx : idx < l.length := by omega
  obtain ⟨best, hbest, hlt, hself, hleft⟩ : ∃ best,
      best = (if before key l idx (2 * idx + 1) then idx else 2 * idx + 1) ∧ best < l.length
        ∧ rank key l best ≤ rank key l idx ∧ rank key l best ≤ rank key l (2 * idx + 1) := by
    refine ⟨_, rfl, ?_⟩
    by_cases hb : before key l idx (2 * idx + 1) = true
    · rw [if_pos hb]
      exact ⟨hidx, le_rfl, ((before_iff h).mp hb).le⟩
    · rw [if_neg hb]
      exact ⟨h, not_lt.mp (mt (before_iff h).mpr hb), le_rfl⟩
  have hchildren : ∀ i, 0 < i → parent i = idx → i = 2 * idx + 1 ∨ i = 2 * idx + 1 + 1 := by
    intro i hi hp
    rw [parent] at hp
    omega
  rw [bestOf]
  simp only [← hbest]
  by_cases hr : 2 * idx + 1 + 1 < l.length ∧ before key l (2 * idx + 1 + 1) best = true
  · rw [if_pos hr]
    have hright := ((before_iff hlt).mp hr.2).le
    refine ⟨hright.trans hself, fun i hi hp => ?_⟩
    rcases hchildren i hi hp with rfl | rfl
    · exact hright.trans hleft
    · exact le_rfl
  · rw [if_neg hr]
    refine ⟨hself, fun i hi hp => ?_⟩
    rcases hchildren i hi hp with rfl | rfl
    · exact hleft
    · by_cases hlen : 2 * idx + 1 + 1 < l.length
      · exact not_lt.mp fun hlt' => hr ⟨hlen, (before_iff hlt).mpr hlt'⟩
      · rw [rank_of_le (not_lt.mp hlen)]
        exact le_top

lemma heapify_ordered (h : DownOrdered (rank key l) idx) :
    Ordered key (heapify key l idx) := by
  induction l, idx using heapify.induct key with
  | case1 l idx hdown ih =>
    obtain ⟨hlen, hne⟩ := hdown
    obtain ⟨hself, hmin⟩ := rank_bestOf_le key hlen
    rw [heapify, dif_pos ⟨hlen, hne⟩]
    apply ih
    rw [show rank key (swap l idx (bestOf key l idx))
      = fun k => rank key l (Equiv.swap idx (bestOf key l idx) k)
      from funext (rank_swap (by omega) (bestOf_lt hlen))]
    have hchild : 0 < bestOf key l idx ∧ parent (bestOf key l idx) = idx := by
      rw [parent]
      rcases bestOf_cases key l idx with hb | hb | hb <;> omega
    exact h.down hchild.1 hchild.2 hself hmin
  | case2 l idx hdown =>
    rw [heapify, dif_neg hdown]
    intro i hi
    by_cases hchild : parent i = idx
    · by_cases hlen : 2 * idx + 1 < l.length
      · have hbest : bestOf key l idx = idx := not_not.mp fun hne => hdown ⟨hlen, hne⟩
        have hmin := (rank_bestOf_le key hlen).2 i hi hchild
        rwa [hbest, ← hchild] at hmin
      · have hi' : l.length ≤ i := by
          rw [parent] at hchild
          omega
        rw [rank_of_le hi']
        exact le_top
    · exact h.others i hi hchild

lemma heapify_perm (l : List α) (idx : ℕ) : (heapify key l idx).Perm l := by
  induction l, idx using heapify.induct key with
  | case1 l idx hdown ih =>
    rw [heapify, dif_pos hdown]
    exact ih.trans (swap_perm l _ _)
  | case2 l idx hdown => rw [heapify, dif_neg hdown]

/-! ## Popping -/

/-- The first item is a least one. -/
lemma Ordered.rank_zero_le (h : Ordered key l) (i : ℕ) : rank key l 0 ≤ rank key l i := by
  induction i using Nat.strong_induction_on with
  | _ i ih =>
    rcases Nat.eq_zero_or_pos i with rfl | hi
    · exact le_rfl
    · exact (ih _ (parent_lt hi)).trans (h i hi)

variable {top : α} {rest : List α}

lemma pqueuePop_perm (h : pqueuePop key l = some (top, rest)) : l.Perm (top :: rest) := by
  match l with
  | [] => cases h
  | [a] => cases h; rfl
  | a :: x :: xs =>
    cases h
    refine List.Perm.cons top (List.Perm.trans ?_ (heapify_perm _ _).symm)
    have hlast := dropLast_append_getLast (l := x :: xs) (by simp)
    calc x :: xs = (x :: xs).dropLast ++ [(x :: xs).getLast (by simp)] := hlast.symm
      List.Perm _ _ := perm_append_singleton _ _

/-- **What is popped comes first**: no item of the queue is before it. -/
theorem pqueuePop_le (hord : Ordered key l) (h : pqueuePop key l = some (top, rest)) :
    ∀ a ∈ l, key top ≤ key a := by
  intro a ha
  obtain ⟨i, hi, rfl⟩ := getElem_of_mem ha
  have hle := hord.rank_zero_le i
  rw [rank_of_lt hi, rank_of_lt (by omega), WithTop.coe_le_coe] at hle
  match l with
  | [] => cases h
  | [b] => cases h; exact hle
  | b :: x :: xs => cases h; exact hle

/-- **The queue stays in heap order** when its first item is popped. -/
theorem pqueuePop_ordered (hord : Ordered key l) (h : pqueuePop key l = some (top, rest)) :
    Ordered key rest := by
  match l with
  | [] => cases h
  | [a] =>
    cases h
    intro i _
    exact le_top
  | a :: x :: xs =>
    cases h
    refine heapify_ordered ⟨fun i hi hne => ?_, fun i hi hp hpos => absurd hpos (lt_irrefl 0)⟩
    have hlen : ((x :: xs).getLast (by simp) :: (x :: xs).dropLast).length = (x :: xs).length := by
      simp
    rcases Nat.lt_or_ge i (x :: xs).length with hlt | hge
    · have hsame : ∀ k, 0 < k → k < (x :: xs).length →
          rank key ((x :: xs).getLast (by simp) :: (x :: xs).dropLast) k
            = rank key (top :: x :: xs) k := by
        intro k hk hkl
        rw [rank_of_lt (by rwa [hlen]), rank_of_lt (by simp at hkl ⊢; omega)]
        obtain ⟨k, rfl⟩ := Nat.exists_eq_succ_of_ne_zero hk.ne'
        simp
      rw [hsame i hi hlt, hsame _ (Nat.pos_of_ne_zero hne) ((parent_lt hi).trans hlt)]
      exact hord i hi
    · rw [rank_of_le (i := i) (hlen ▸ hge)]
      exact le_top

variable (key) in
lemma pqueuePop_eq_none : pqueuePop key l = none ↔ l = [] := by
  match l with
  | [] => simp [pqueuePop]
  | [a] => simp [pqueuePop]
  | a :: x :: xs => simp [pqueuePop]

/-! ## Removal from the middle -/

variable {d : List α} {last : α}

omit [LinearOrder β] in
lemma rank_set_self (hi : i < d.length) :
    rank key (d.set i last) i = key last := by
  rw [rank_of_lt (by simpa using hi), getElem_set_self]

omit [LinearOrder β] in
lemma rank_set_of_ne {k : ℕ} (hk : k < d.length) (hki : k ≠ i) :
    rank key (d.set i last) k = rank key (d ++ [last]) k := by
  rw [rank_of_lt (by simpa using hk), rank_of_lt (by simp; omega), getElem_append_left hk,
    getElem_set_ne (Ne.symm hki)]

/-- The last item in the place of another, which was not before its parent. -/
lemma downOrdered_set (hord : Ordered key (d ++ [last])) (hi : i < d.length)
    (hlast : 0 < i → rank key (d ++ [last]) (parent i) ≤ key last) :
    DownOrdered (rank key (d.set i last)) i := by
  have hout : ∀ k, d.length ≤ k → rank key (d.set i last) k = ⊤ := fun k hk =>
    rank_of_le (by simpa using hk)
  constructor
  · intro k hk hpk
    rcases Nat.lt_or_ge k d.length with hlt | hge
    · have hplt := (parent_lt hk).trans hlt
      rw [rank_set_of_ne hplt hpk]
      by_cases hki : k = i
      · subst hki
        rw [rank_set_self hlt]
        exact hlast hk
      · rw [rank_set_of_ne hlt hki]
        exact hord k hk
    · rw [hout k hge]
      exact le_top
  · intro k hk hpk hpos
    rcases Nat.lt_or_ge k d.length with hlt | hge
    · have hne : k ≠ i := by
        rintro rfl
        exact (parent_lt hk).ne hpk
      rw [rank_set_of_ne hlt hne, rank_set_of_ne ((parent_lt hpos).trans hi) (parent_lt hpos).ne]
      exact (hord i hpos).trans (hpk ▸ hord k hk)
    · rw [hout k hge]
      exact le_top

/-- An item that comes before all below it stays where it is. -/
lemma heapify_of_lt (hlt : ∀ k, 0 < k → parent k = i → rank key l i < rank key l k)
    (hi : i < l.length) : heapify key l i = l := by
  have hchild : ∀ k, k = 2 * i + 1 ∨ k = 2 * i + 2 → rank key l i < rank key l k := by
    intro k hk
    refine hlt k (by omega) ?_
    rw [parent]
    omega
  rw [heapify, dif_neg]
  rintro ⟨hleft, hne⟩
  have hbefore : before key l i (2 * i + 1) = true := (before_iff hleft).mpr (hchild _ (.inl rfl))
  have hright : before key l (2 * i + 1 + 1) i ≠ true :=
    fun hb => lt_asymm ((before_iff hi).mp hb) (hchild _ (.inr rfl))
  refine hne ?_
  simp only [bestOf, hbefore, if_true]
  exact if_neg fun hboth => hright hboth.2

/-- **After a removal from the middle** the list is in order exactly when its last item does not
come before the parent of the hole. -/
lemma ordered_heapify_set_iff (hord : Ordered key (d ++ [last]))
    (hi : i < d.length) : Ordered key (heapify key (d.set i last) i)
      ↔ (0 < i → rank key (d ++ [last]) (parent i) ≤ key last) := by
  refine ⟨fun h hpos => not_lt.mp fun hlt => ?_,
    fun hlast => heapify_ordered (downOrdered_set hord hi hlast)⟩
  have hstay : heapify key (d.set i last) i = d.set i last := by
    refine heapify_of_lt (fun k hk hpk => ?_) (by simpa using hi)
    rw [rank_set_self hi]
    rcases Nat.lt_or_ge k d.length with hkd | hkd
    · have hne : k ≠ i := by
        rintro rfl
        exact (parent_lt hk).ne hpk
      rw [rank_set_of_ne hkd hne]
      exact hlt.trans_le ((hord i hpos).trans (hpk ▸ hord k hk))
    · rw [rank_of_le (i := k) (by simpa using hkd)]
      exact WithTop.coe_lt_top _
  have hle := h i hpos
  rw [hstay, rank_set_self hi, rank_set_of_ne ((parent_lt hpos).trans hi) (parent_lt hpos).ne] at hle
  exact absurd hle (not_le.mpr hlt)

/-! ## Priority queues -/

/-- A list in heap order. -/
structure PQueue (key : α → β) where
  items : List α
  ordered : Ordered key items

namespace PQueue

/-- The queue with no item. -/
def empty (key : α → β) : PQueue key := ⟨[], fun i _ => by simp [rank]⟩

/-- Add an item. -/
def add (q : PQueue key) (item : α) : PQueue key :=
  ⟨pqueueAdd key q.items item, pqueueAdd_ordered q.ordered item⟩

/-- The first item and the queue without it. -/
def pop? (q : PQueue key) : Option (α × PQueue key) :=
  match h : pqueuePop key q.items with
  | none => none
  | some (top, rest) => some (top, ⟨rest, pqueuePop_ordered q.ordered h⟩)

variable {q q' : PQueue key} {item : α}

lemma items_add_perm : (q.add item).items.Perm (item :: q.items) := pqueueAdd_perm q.items item

lemma pop?_eq_some (h : q.pop? = some (item, q')) :
    q.items.Perm (item :: q'.items) ∧ ∀ a ∈ q.items, key item ≤ key a := by
  rw [pop?] at h
  split at h
  · cases h
  · next top rest hpop =>
      obtain ⟨rfl, rfl⟩ := Prod.mk.inj (Option.some.inj h)
      exact ⟨pqueuePop_perm hpop, pqueuePop_le q.ordered hpop⟩

lemma pop?_eq_none : q.pop? = none ↔ q.items = [] := by
  rw [← pqueuePop_eq_none key, pop?]
  split <;> simp_all

end PQueue

end Ator
