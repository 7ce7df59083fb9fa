import Mathlib.Algebra.Ring.Nat
import Mathlib.Data.Fintype.EquivFin

/-!
# Association maps

A finite map as the list of its bindings, in the order an iteration visits them.  No key is
bound twice.

* `AssocMap.get`, `set`, `modify` — with the usual equations at the key and off it.
* `AssocMap.get_eq_some` — a lookup finds exactly the bindings of the list.
* `AssocMap.total` — the sum of a measure over the values, and what each change does to it.
* `AssocMap.KeyedBy` — each value has the key it is bound to.
* `AssocMap.foldl_invariant` — what a loop over the bindings keeps.
-/

namespace Ator

open Option

variable {κ α : Type*} [DecidableEq κ]

/-- A finite map from `κ` to `α`. -/
structure AssocMap (κ α : Type*) where
  entries : List (κ × α)
  nodup : (entries.map Prod.fst).Nodup

namespace AssocMap

variable (m : AssocMap κ α) (k : κ) (v : α)

instance : EmptyCollection (AssocMap κ α) := ⟨⟨[], by simp⟩⟩

/-- The values, in iteration order. -/
def values : List α := m.entries.map Prod.snd

def size : ℕ := m.entries.length

def get : Option α := (m.entries.find? fun p => p.1 == k).map Prod.snd

lemma map_fst_update (l : List (κ × α)) (k : κ) (f : α → α) :
    (l.map fun p => if p.1 = k then (p.1, f p.2) else p).map Prod.fst = l.map Prod.fst := by
  rw [List.map_map]
  refine List.map_congr_left fun p _ => ?_
  simp only [Function.comp_apply]
  split <;> rfl

/-- Change the value at a key, if the key is bound. -/
def modify (f : α → α) : AssocMap κ α where
  entries := m.entries.map fun p => if p.1 = k then (p.1, f p.2) else p
  nodup := by
    rw [map_fst_update]
    exact m.nodup

variable {m k v}

lemma get_eq_some : m.get k = some v ↔ (k, v) ∈ m.entries := by
  obtain ⟨entries, hnodup⟩ := m
  simp only [get]
  induction entries with
  | nil => simp
  | cons p l ih =>
    obtain ⟨hp, hl⟩ := List.nodup_cons.mp hnodup
    by_cases hpk : p.1 = k
    · rw [List.find?_cons_of_pos (by simpa using hpk), List.mem_cons]
      constructor
      · intro hv
        left
        rw [← hpk, ← some.inj hv]
      · rintro (rfl | hmem)
        · rfl
        · exact absurd (List.mem_map.mpr ⟨(k, v), hmem, rfl⟩) (hpk ▸ hp)
    · rw [List.find?_cons_of_neg (by simpa using hpk), ih hl, List.mem_cons]
      constructor
      · exact Or.inr
      · rintro (rfl | hmem)
        · exact absurd rfl hpk
        · exact hmem

lemma get_eq_none : m.get k = none ↔ k ∉ m.entries.map Prod.fst := by
  constructor
  · intro h hmem
    obtain ⟨⟨k', v⟩, hentry, rfl⟩ := List.mem_map.mp hmem
    rw [get_eq_some.mpr hentry] at h
    cases h
  · intro h
    rcases hv : m.get k with _ | v
    · rfl
    · exact absurd (List.mem_map.mpr ⟨(k, v), get_eq_some.mp hv, rfl⟩) h

lemma mem_values : v ∈ m.values ↔ ∃ k, m.get k = some v := by
  simp only [values, List.mem_map, Prod.exists, exists_eq_right, get_eq_some]

@[simp] lemma get_empty : (∅ : AssocMap κ α).get k = none := rfl

omit [DecidableEq κ] in
lemma eq_empty_of_size (h : m.size = 0) : m = ∅ := by
  obtain ⟨entries, hnodup⟩ := m
  obtain rfl : entries = [] := List.length_eq_zero_iff.mp h
  rfl

lemma size_eq_zero_iff : m.size = 0 ↔ ∀ k, m.get k = none := by
  constructor
  · intro h k
    rw [eq_empty_of_size h, get_empty]
  · intro h
    rw [size, List.length_eq_zero_iff]
    refine List.eq_nil_iff_forall_not_mem.mpr fun ⟨k, v⟩ hmem => ?_
    have := get_eq_some.mpr hmem
    rw [h k] at this
    cases this

lemma get_modify_self (f : α → α) : (m.modify k f).get k = (m.get k).map f := by
  rcases hv : m.get k with _ | v
  · rw [get_eq_none] at hv
    refine get_eq_none.mpr fun hmem => hv ?_
    rwa [modify, map_fst_update] at hmem
  · refine get_eq_some.mpr (List.mem_map.mpr ⟨(k, v), get_eq_some.mp hv, ?_⟩)
    simp

variable {k' : κ}

lemma get_modify_of_ne (f : α → α) (h : k' ≠ k) : (m.modify k f).get k' = m.get k' := by
  refine ext fun v => ?_
  rw [get_eq_some, get_eq_some, modify, List.mem_map]
  constructor
  · rintro ⟨p, hp, heq⟩
    split at heq
    · next hpk => exact absurd (congrArg Prod.fst heq).symm (by rw [hpk]; exact h)
    · rwa [← heq]
  · intro hp
    exact ⟨(k', v), hp, by rw [if_neg h]⟩

/-- Bind a key; a key that is new goes last. -/
def set (m : AssocMap κ α) (k : κ) (v : α) : AssocMap κ α :=
  if h : (m.get k).isSome then m.modify k fun _ => v else
    { entries := m.entries ++ [(k, v)]
      nodup := by
        rw [not_isSome_iff_eq_none, get_eq_none] at h
        rw [List.map_append, List.nodup_append]
        refine ⟨m.nodup, by simp, ?_⟩
        rintro a ha b hb rfl
        rw [List.map_singleton, List.mem_singleton] at hb
        subst hb
        exact h ha }

lemma get_set_self : (m.set k v).get k = some v := by
  rw [set]
  split
  · next h =>
      obtain ⟨w, hw⟩ := isSome_iff_exists.mp h
      rw [get_modify_self, hw, map_some]
  · exact get_eq_some.mpr (by simp)

lemma get_set_of_ne (h : k' ≠ k) : (m.set k v).get k' = m.get k' := by
  rw [set]
  split
  · exact get_modify_of_ne _ h
  · refine ext fun w => ?_
    rw [get_eq_some, get_eq_some, List.mem_append, List.mem_singleton, Prod.mk.injEq]
    exact ⟨fun hmem => hmem.resolve_right fun heq => h heq.1, Or.inl⟩

lemma set_of_get (h : m.get k = some v) : m.set k v = m := by
  have hself : ∀ p ∈ m.entries, (if p.1 = k then (p.1, v) else p) = p := by
    rintro ⟨k', w⟩ hp
    split
    · next hk =>
        subst hk
        rw [get_eq_some.mpr hp] at h
        rw [some.inj h]
    · rfl
  obtain ⟨entries, hnodup⟩ := m
  rw [set, dif_pos (by rw [h]; rfl)]
  simp only [modify, mk.injEq]
  exact (List.map_congr_left hself).trans (List.map_id' entries)

variable {w : α}

/-- The last of two changes of a value counts. -/
lemma set_set (h : m.get k = some v) {v' : α} : (m.set k v').set k w = m.set k w := by
  have hself : ((m.set k v').get k).isSome := by rw [get_set_self, isSome_some]
  rw [set, dif_pos hself, set, dif_pos (by rw [h]; rfl), set, dif_pos (by rw [h]; rfl)]
  simp only [modify, mk.injEq, List.map_map]
  refine List.map_congr_left fun p _ => ?_
  simp only [Function.comp_apply]
  split
  · next hk => simp [hk]
  · rfl

/-- Take a key's binding away. -/
def erase (m : AssocMap κ α) (k : κ) : AssocMap κ α where
  entries := m.entries.filter fun p => p.1 ≠ k
  nodup := (List.filter_sublist.map Prod.fst).nodup m.nodup

lemma get_erase_self : (m.erase k).get k = none := by
  rw [get_eq_none, erase, List.mem_map]
  rintro ⟨p, hp, rfl⟩
  simp at hp

lemma get_erase_of_ne (h : k' ≠ k) : (m.erase k).get k' = m.get k' := by
  refine ext fun w => ?_
  rw [get_eq_some, get_eq_some, erase, List.mem_filter]
  exact and_iff_left (by simpa using h)

/-! ## What is found after a change -/

lemma get_set_eq_some :
    (m.set k v).get k' = some w ↔ k' = k ∧ w = v ∨ k' ≠ k ∧ m.get k' = some w := by
  by_cases hk : k' = k
  · subst hk
    simp [get_set_self, eq_comm]
  · simp [get_set_of_ne hk, hk]

lemma get_erase_eq_some :
    (m.erase k).get k' = some w ↔ k' ≠ k ∧ m.get k' = some w := by
  by_cases hk : k' = k
  · subst hk
    simp [get_erase_self]
  · simp [get_erase_of_ne hk, hk]

lemma get_set : (m.set k v).get k' = if k' = k then some v else m.get k' := by
  split
  · next h => rw [h, get_set_self]
  · next h => exact get_set_of_ne h

lemma get_erase : (m.erase k).get k' = if k' = k then none else m.get k' := by
  split
  · next h => rw [h, get_erase_self]
  · next h => exact get_erase_of_ne h

lemma size_set_of_get (h : m.get k = some w) : (m.set k v).size = m.size := by
  rw [set, dif_pos (by rw [h]; rfl), size, size, modify, List.length_map]

lemma size_set_of_get_eq_none (h : m.get k = none) : (m.set k v).size = m.size + 1 := by
  rw [set, dif_neg (by rw [h]; simp), size, size, List.length_append, List.length_singleton]

lemma size_erase_le : (m.erase k).size ≤ m.size := List.length_filter_le _ _

/-! ## All bindings at once -/

/-- Change every value. -/
def map (f : α → α) (m : AssocMap κ α) : AssocMap κ α where
  entries := m.entries.map fun p => (p.1, f p.2)
  nodup := by
    rw [List.map_map]
    exact m.nodup

/-- The bindings that `p` accepts. -/
def filter (p : κ → α → Bool) (m : AssocMap κ α) : AssocMap κ α where
  entries := m.entries.filter fun b => p b.1 b.2
  nodup := m.nodup.sublist (List.filter_sublist.map Prod.fst)

lemma get_map (f : α → α) : (m.map f).get k = (m.get k).map f := by
  rcases hv : m.get k with _ | v
  · rw [get_eq_none] at hv
    refine get_eq_none.mpr fun hmem => hv ?_
    rw [map, List.map_map] at hmem
    exact hmem
  · exact get_eq_some.mpr (List.mem_map.mpr ⟨(k, v), get_eq_some.mp hv, rfl⟩)

lemma get_filter_eq_some {p : κ → α → Bool} :
    (m.filter p).get k = some v ↔ m.get k = some v ∧ p k v = true := by
  rw [get_eq_some, get_eq_some, filter, List.mem_filter]

omit [DecidableEq κ] in
lemma map_map (f g : α → α) (m : AssocMap κ α) : (m.map f).map g = m.map (g ∘ f) := by
  simp [map, List.map_map, Function.comp_def]

omit [DecidableEq κ] in
lemma filter_filter (p q : κ → α → Bool) (m : AssocMap κ α) :
    (m.filter p).filter q = m.filter fun k v => q k v && p k v := by
  simp [filter, List.filter_filter]

/-! ## Totals -/

/-- The sum of `f` over the values. -/
def total (f : α → ℕ) (m : AssocMap κ α) : ℕ := (m.values.map f).sum

variable {f : α → ℕ}

omit [DecidableEq κ] in
@[simp] lemma total_empty : total f (∅ : AssocMap κ α) = 0 := rfl

lemma exists_perm (h : m.get k = some v) :
    ∃ rest, m.entries.Perm ((k, v) :: rest) ∧ ∀ p ∈ rest, p.1 ≠ k := by
  obtain ⟨before, after, hsplit⟩ := List.append_of_mem (get_eq_some.mp h)
  have hperm : m.entries.Perm ((k, v) :: (before ++ after)) := by
    rw [hsplit]
    exact List.perm_middle
  refine ⟨before ++ after, hperm, fun p hp hpk => ?_⟩
  have hnodup := (hperm.map Prod.fst).nodup_iff.mp m.nodup
  rw [List.map_cons, List.nodup_cons] at hnodup
  exact hnodup.1 (List.mem_map.mpr ⟨p, hp, hpk⟩)

omit [DecidableEq κ] in
lemma total_of_perm {l : List (κ × α)} (h : m.entries.Perm l) :
    total f m = (l.map fun p => f p.2).sum := by
  rw [total, values, List.map_map]
  exact (h.map _).sum_nat

lemma le_total (h : m.get k = some v) : f v ≤ total f m := by
  obtain ⟨rest, hperm, -⟩ := exists_perm h
  rw [total_of_perm hperm, List.map_cons, List.sum_cons]
  exact Nat.le_add_right _ _

lemma total_erase (h : m.get k = some v) : total f (m.erase k) + f v = total f m := by
  obtain ⟨rest, hperm, hrest⟩ := exists_perm h
  have herase : (m.erase k).entries.Perm rest := by
    refine (hperm.filter _).trans (List.Perm.of_eq ?_)
    rw [List.filter_cons_of_neg (by simp), List.filter_eq_self]
    intro p hp
    simpa using hrest p hp
  rw [total_of_perm herase, total_of_perm hperm, List.map_cons, List.sum_cons, Nat.add_comm]

lemma total_modify {g : α → α} (h : m.get k = some v) :
    total f (m.modify k g) + f v = total f m + f (g v) := by
  obtain ⟨rest, hperm, hrest⟩ := exists_perm h
  have hmodify : (m.modify k g).entries.Perm ((k, g v) :: rest) := by
    refine (hperm.map _).trans (List.Perm.of_eq ?_)
    rw [List.map_cons, if_pos rfl]
    congr 1
    exact (List.map_congr_left fun p hp => if_neg (hrest p hp)).trans (List.map_id' rest)
  rw [total_of_perm hmodify, total_of_perm hperm]
  simp only [List.map_cons, List.sum_cons]
  omega

lemma total_set (h : m.get k = some v) :
    total f (m.set k w) + f v = total f m + f w := by
  rw [set, dif_pos (by rw [h]; rfl)]
  exact total_modify h

omit [DecidableEq κ] in
lemma total_map (g : α → α) : total f (m.map g) = total (f ∘ g) m := by
  simp [total, values, map, List.map_map, Function.comp_def]

omit [DecidableEq κ] in
lemma total_le_size (h : ∀ v, f v ≤ 1) : total f m ≤ m.size := by
  rw [total, values, size]
  induction m.entries with
  | nil => rfl
  | cons p l ih =>
    have := h p.2
    simp only [List.map_cons, List.sum_cons, List.length_cons]
    omega

lemma total_congr {g : α → ℕ} (h : ∀ k v, m.get k = some v → f v = g v) :
    total f m = total g m := by
  rw [total, total]
  refine congrArg List.sum (List.map_congr_left fun v hv => ?_)
  obtain ⟨k, hk⟩ := mem_values.mp hv
  exact h k v hk

lemma total_set_new (h : m.get k = none) : total f (m.set k w) = total f m + f w := by
  rw [set, dif_neg (by rw [h]; simp), total, total]
  simp [values]

/-- Values that are told apart by what `g` finds in them are fewer than what it can find, where
there is something that it does not. -/
lemma total_isSome_lt {ι : Type*} [Fintype ι] {g : α → Option ι} (i₀ : ι)
    (h₀ : ∀ k v, m.get k = some v → g v ≠ some i₀)
    (hinj : ∀ k v k' v' i, m.get k = some v → m.get k' = some v' → g v = some i → g v' = some i →
      k = k') :
    total (fun v => if (g v).isSome then 1 else 0) m < Fintype.card ι := by
  have hlength : total (fun v => if (g v).isSome then 1 else 0) m =
      (m.entries.filterMap fun p => g p.2).length := by
    rw [total, values]
    induction m.entries with
    | nil => rfl
    | cons p l ih =>
      simp only [List.map_cons, List.sum_cons, List.filterMap_cons, ih]
      cases g p.2 with
      | none => simp
      | some i => simp [Nat.add_comm]
  have hnodup : (i₀ :: m.entries.filterMap fun p => g p.2).Nodup := by
    refine List.nodup_cons.mpr ⟨fun hmem => ?_, ?_⟩
    · obtain ⟨p, hp, hg⟩ := List.mem_filterMap.mp hmem
      exact h₀ p.1 p.2 (get_eq_some.mpr hp) hg
    · refine List.pairwise_filterMap.mpr ((List.pairwise_map.mp m.nodup).imp_of_mem ?_)
      rintro p q hp hq hne i hi j hj rfl
      exact hne (hinj p.1 p.2 q.1 q.2 i (get_eq_some.mpr hp) (get_eq_some.mpr hq) hi hj)
  rw [hlength]
  exact hnodup.length_le_card

/-! ## Values that have their keys -/

/-- Each value is bound to its own key. -/
def KeyedBy (key : α → κ) (m : AssocMap κ α) : Prop := ∀ k v, m.get k = some v → key v = k

variable {key : α → κ}

lemma KeyedBy.empty : (∅ : AssocMap κ α).KeyedBy key := by
  intro k v h
  cases h

lemma KeyedBy.erase (h : m.KeyedBy key) (k : κ) : (m.erase k).KeyedBy key := by
  intro k' v hget
  by_cases hk : k' = k
  · rw [hk, get_erase_self] at hget
    cases hget
  · rw [get_erase_of_ne hk] at hget
    exact h k' v hget

lemma KeyedBy.set (h : m.KeyedBy key) (v : α) : (m.set (key v) v).KeyedBy key := by
  intro k' w hget
  by_cases hk : k' = key v
  · rw [hk, get_set_self] at hget
    rw [← some.inj hget, hk]
  · rw [get_set_of_ne hk] at hget
    exact h k' w hget

lemma KeyedBy.modify (h : m.KeyedBy key) {g : α → α} (hg : ∀ v, key (g v) = key v) (k : κ) :
    (m.modify k g).KeyedBy key := by
  intro k' w hget
  by_cases hk : k' = k
  · rw [hk, get_modify_self] at hget
    obtain ⟨v, hv, rfl⟩ := map_eq_some_iff.mp hget
    rw [hg, hk]
    exact h k v hv
  · rw [get_modify_of_ne g hk] at hget
    exact h k' w hget

/-! ## Iteration -/

omit [DecidableEq κ] in
/-- A loop over the bindings that changes no other key than the one it is at: what each of its
steps keeps, it keeps. -/
lemma foldl_invariant {σ : Type*} {I : σ → Prop} {g : σ → κ → Option α}
    {f : σ → κ × α → σ} (hkeep : ∀ s p, I s → g s p.1 = some p.2 → I (f s p))
    (hother : ∀ s p k, k ≠ p.1 → g (f s p) k = g s k) {l : List (κ × α)}
    (hnodup : (l.map Prod.fst).Nodup) {s : σ} (hs : I s)
    (hall : ∀ p ∈ l, g s p.1 = some p.2) : I (l.foldl f s) := by
  induction l generalizing s with
  | nil => exact hs
  | cons p l ih =>
    obtain ⟨hp, hl⟩ := List.nodup_cons.mp hnodup
    refine ih hl (hkeep s p hs (hall p List.mem_cons_self)) fun q hq => ?_
    have hne : q.1 ≠ p.1 := fun heq => hp (List.mem_map.mpr ⟨q, hq, heq⟩)
    rw [hother s p q.1 hne]
    exact hall q (List.mem_cons_of_mem p hq)

end AssocMap

end Ator
