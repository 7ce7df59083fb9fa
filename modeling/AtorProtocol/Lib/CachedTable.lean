import AtorProtocol.Lib.AssocMap

/-!
# Tables of allocated entries, with a cached one

A hash table finds the address of an entry by its key.  The entry last found is kept as a bare
pointer, which is right only as long as the entry is allocated.

* `CachedTable` — the memory of the entries, the table and the pointer.
* `CachedTable.WF` — every entry is in the table, and the pointer is at an entry.
* `CachedTable.get` — what the table says of a key.
* `CachedTable.lookup_spec` — a lookup that asks the pointer first answers as the table does.
-/

namespace Ator

open Option

variable {κ α : Type*} [DecidableEq κ]

/-- An allocation returns an address that is not in use. -/
structure Allocator (α : Type*) where
  malloc : AssocMap ℕ α → ℕ
  get_malloc : ∀ heap : AssocMap ℕ α, heap.get (malloc heap) = none

/-- The address after the last one in use. -/
def Allocator.next (α : Type*) : Allocator α where
  malloc heap := (heap.entries.map Prod.fst).foldr max 0 + 1
  get_malloc heap := by
    have hle : ∀ l : List ℕ, ∀ p ∈ l, p ≤ l.foldr max 0 := by
      intro l
      induction l with
      | nil => simp
      | cons q l ih =>
        intro p hp
        rcases List.mem_cons.mp hp with rfl | hp
        · exact Nat.le_max_left p _
        · exact Nat.le_trans (ih p hp) (Nat.le_max_right q _)
    exact AssocMap.get_eq_none.mpr fun hmem => Nat.not_succ_le_self _ (hle _ _ hmem)

/-- Entries with their keys at their addresses, the addresses by key, and the last entry found. -/
structure CachedTable (κ α : Type*) where
  heap : AssocMap ℕ (κ × α)
  index : AssocMap κ ℕ
  last : Option ℕ

namespace CachedTable

variable (t : CachedTable κ α) (k : κ)

instance : EmptyCollection (CachedTable κ α) := ⟨⟨∅, ∅, none⟩⟩

/-- A new entry, where the table has none with the key. -/
def insert (alloc : Allocator (κ × α)) (v : α) : CachedTable κ α :=
  { t with
    heap := t.heap.set (alloc.malloc t.heap) (k, v)
    index := t.index.set k (alloc.malloc t.heap) }

/-- The entry with a key leaves the table and is freed. -/
def remove : CachedTable κ α :=
  match t.index.get k with
  | none => t
  | some p => { t with heap := t.heap.erase p, index := t.index.erase k }

/-- Change the fields of the entry at an address. -/
def update (p : ℕ) (f : α → α) : CachedTable κ α :=
  { t with heap := t.heap.modify p fun e => (e.1, f e.2) }

/-- The address of the entry with a key, asked of the last entry found before the table.  A pointer
at freed memory cannot be asked. -/
def lookup : Option (CachedTable κ α × Option ℕ) :=
  match t.last with
  | none => some ({ t with last := t.index.get k }, t.index.get k)
  | some p => (t.heap.get p).map fun e =>
    if e.1 = k then (t, some p) else ({ t with last := t.index.get k }, t.index.get k)

/-- The last entry found is forgotten, if its key is one of `keys`. -/
def forget (keys : List κ) : Option (CachedTable κ α) :=
  match t.last with
  | none => some t
  | some p => (t.heap.get p).map fun e => if e.1 ∈ keys then { t with last := none } else t

/-- What the table has for a key. -/
def get : Option α := (t.index.get k).bind fun p => (t.heap.get p).map Prod.snd

/-- **Every entry is in the table**, and the last one found is an entry. -/
structure WF : Prop where
  heap_of_index : ∀ k p, t.index.get k = some p → ∃ v, t.heap.get p = some (k, v)
  index_of_heap : ∀ p k v, t.heap.get p = some (k, v) → t.index.get k = some p
  last_live : ∀ p, t.last = some p → ∃ e, t.heap.get p = some e

variable {t k} {k' : κ} {v : α} {p : ℕ}

lemma WF.empty : WF (∅ : CachedTable κ α) where
  heap_of_index := by
    intro k p h
    cases h
  index_of_heap := by
    intro p k v h
    cases h
  last_live := by
    intro p h
    cases h

lemma WF.heap_get (h : t.WF) (hindex : t.index.get k = some p) :
    ∃ v, t.heap.get p = some (k, v) ∧ t.get k = some v := by
  obtain ⟨v, hv⟩ := h.heap_of_index k p hindex
  exact ⟨v, hv, by rw [get, hindex, bind_some, hv, map_some]⟩

lemma get_eq_none (h : t.WF) : t.get k = none ↔ t.index.get k = none := by
  constructor
  · intro hget
    rcases hindex : t.index.get k with _ | p
    · rfl
    · obtain ⟨v, -, hv⟩ := h.heap_get hindex
      rw [hget] at hv
      cases hv
  · intro hindex
    rw [get, hindex, bind_none]

/-! ## Insertion -/

section

variable (alloc : Allocator (κ × α))

lemma get_insert_self : (t.insert k alloc v).get k = some v := by
  rw [get, insert, AssocMap.get_set_self, bind_some, AssocMap.get_set_self, map_some]

lemma get_insert_of_ne (h : t.WF) (hne : k' ≠ k) : (t.insert k alloc v).get k' = t.get k' := by
  rw [get, insert, AssocMap.get_set_of_ne hne, get]
  rcases hindex : t.index.get k' with _ | q
  · rfl
  · obtain ⟨w, hw⟩ := h.heap_of_index k' q hindex
    have hq : q ≠ alloc.malloc t.heap := by
      rintro rfl
      rw [alloc.get_malloc] at hw
      cases hw
    rw [bind_some, AssocMap.get_set_of_ne hq, bind_some]

lemma WF.insert (h : t.WF) (hnew : t.index.get k = none) (v : α) : (t.insert k alloc v).WF where
  heap_of_index := by
    intro k' q hq
    by_cases hk : k' = k
    · subst hk
      rw [CachedTable.insert, AssocMap.get_set_self] at hq
      rw [← some.inj hq]
      exact ⟨v, AssocMap.get_set_self⟩
    · rw [CachedTable.insert, AssocMap.get_set_of_ne hk] at hq
      obtain ⟨w, hw⟩ := h.heap_of_index k' q hq
      refine ⟨w, ?_⟩
      rw [CachedTable.insert, AssocMap.get_set_of_ne, hw]
      rintro rfl
      rw [alloc.get_malloc] at hw
      cases hw
  index_of_heap := by
    intro q k' w hw
    by_cases hq : q = alloc.malloc t.heap
    · subst hq
      rw [CachedTable.insert, AssocMap.get_set_self] at hw
      rw [← (Prod.mk.inj (some.inj hw)).1]
      exact AssocMap.get_set_self
    · rw [CachedTable.insert, AssocMap.get_set_of_ne hq] at hw
      have hindex := h.index_of_heap q k' w hw
      rw [CachedTable.insert, AssocMap.get_set_of_ne, hindex]
      rintro rfl
      rw [hnew] at hindex
      cases hindex
  last_live := by
    intro q hq
    obtain ⟨e, he⟩ := h.last_live q hq
    refine ⟨e, ?_⟩
    rw [CachedTable.insert, AssocMap.get_set_of_ne, he]
    rintro rfl
    rw [alloc.get_malloc] at he
    cases he

end

/-! ## Removal -/

lemma get_remove_self : (t.remove k).get k = none := by
  rw [remove]
  split
  · next h => rw [get, h, bind_none]
  · rw [get, AssocMap.get_erase_self, bind_none]

lemma get_remove_of_ne (h : t.WF) (hne : k' ≠ k) : (t.remove k).get k' = t.get k' := by
  rw [remove]
  split
  · rfl
  · next p hp =>
      rw [get, AssocMap.get_erase_of_ne hne, get]
      rcases hindex : t.index.get k' with _ | q
      · rfl
      · have hq : q ≠ p := by
          rintro rfl
          obtain ⟨v, hv⟩ := h.heap_of_index k q hp
          obtain ⟨w, hw⟩ := h.heap_of_index k' q hindex
          rw [hv] at hw
          exact hne (Prod.mk.inj (some.inj hw)).1.symm
        rw [bind_some, AssocMap.get_erase_of_ne hq, bind_some]

/-- An entry that is not the last one found can be removed. -/
lemma WF.remove (h : t.WF) (hlast : ∀ p v, t.last = some p → t.heap.get p ≠ some (k, v)) :
    (t.remove k).WF := by
  rw [CachedTable.remove]
  split
  · exact h
  · next p hp =>
      obtain ⟨v, hv⟩ := h.heap_of_index k p hp
      refine ⟨?_, ?_, ?_⟩
      · intro k' q hq
        have hk : k' ≠ k := by
          rintro rfl
          rw [AssocMap.get_erase_self] at hq
          cases hq
        rw [AssocMap.get_erase_of_ne hk] at hq
        obtain ⟨w, hw⟩ := h.heap_of_index k' q hq
        refine ⟨w, ?_⟩
        rw [AssocMap.get_erase_of_ne, hw]
        rintro rfl
        rw [hv] at hw
        exact hk (Prod.mk.inj (some.inj hw)).1.symm
      · intro q k' w hw
        have hq : q ≠ p := by
          rintro rfl
          rw [AssocMap.get_erase_self] at hw
          cases hw
        rw [AssocMap.get_erase_of_ne hq] at hw
        rw [AssocMap.get_erase_of_ne, h.index_of_heap q k' w hw]
        rintro rfl
        have := h.index_of_heap q k' w hw
        rw [hp] at this
        exact hq (some.inj this).symm
      · intro q hq
        obtain ⟨e, he⟩ := h.last_live q hq
        refine ⟨e, ?_⟩
        rw [AssocMap.get_erase_of_ne, he]
        rintro rfl
        exact hlast q v hq hv

/-! ## Changes of an entry -/

variable {f : α → α}

lemma get_update_self (h : t.WF) (hindex : t.index.get k = some p) :
    (t.update p f).get k = (t.get k).map f := by
  obtain ⟨v, hv, hget⟩ := h.heap_get hindex
  change (t.index.get k).bind _ = _
  rw [hindex, bind_some, hget, update, AssocMap.get_modify_self, hv]
  rfl

lemma get_update_of_ne (h : t.WF) (hindex : t.index.get k = some p) (hne : k' ≠ k) :
    (t.update p f).get k' = t.get k' := by
  obtain ⟨v, hv⟩ := h.heap_of_index k p hindex
  change (t.index.get k').bind _ = _
  rw [get]
  rcases hk' : t.index.get k' with _ | q
  · rfl
  · have hq : q ≠ p := by
      rintro rfl
      obtain ⟨w, hw⟩ := h.heap_of_index k' q hk'
      rw [hv] at hw
      exact hne (Prod.mk.inj (some.inj hw)).1.symm
    rw [bind_some, update, AssocMap.get_modify_of_ne _ hq, bind_some]

lemma WF.update (h : t.WF) (p : ℕ) (f : α → α) : (t.update p f).WF where
  heap_of_index := by
    intro k q hq
    obtain ⟨v, hv⟩ := h.heap_of_index k q hq
    by_cases hp : q = p
    · subst hp
      rw [CachedTable.update, AssocMap.get_modify_self, hv]
      exact ⟨f v, rfl⟩
    · rw [CachedTable.update, AssocMap.get_modify_of_ne _ hp]
      exact ⟨v, hv⟩
  index_of_heap := by
    intro q k w hw
    by_cases hp : q = p
    · subst hp
      rw [CachedTable.update, AssocMap.get_modify_self] at hw
      obtain ⟨⟨k', v⟩, hv, heq⟩ := map_eq_some_iff.mp hw
      rw [← (Prod.mk.inj heq).1]
      exact h.index_of_heap q k' v hv
    · rw [CachedTable.update, AssocMap.get_modify_of_ne _ hp] at hw
      exact h.index_of_heap q k w hw
  last_live := by
    intro q hq
    obtain ⟨e, he⟩ := h.last_live q hq
    by_cases hp : q = p
    · subst hp
      rw [CachedTable.update, AssocMap.get_modify_self, he]
      exact ⟨(e.1, f e.2), rfl⟩
    · rw [CachedTable.update, AssocMap.get_modify_of_ne _ hp]
      exact ⟨e, he⟩

/-! ## The last entry found -/

lemma get_of_same {u : CachedTable κ α} (hheap : u.heap = t.heap) (hindex : u.index = t.index) :
    u.get = t.get := by
  funext k
  rw [get, get, hheap, hindex]

/-- **A lookup** answers what the table has, and changes nothing but the pointer. -/
lemma lookup_spec (h : t.WF) (k : κ) :
    ∃ u, t.lookup k = some (u, t.index.get k) ∧ u.WF ∧ u.heap = t.heap ∧ u.index = t.index := by
  have hfound : ({ t with last := t.index.get k } : CachedTable κ α).WF := by
    refine ⟨h.heap_of_index, h.index_of_heap, fun p hp => ?_⟩
    obtain ⟨v, hv⟩ := h.heap_of_index k p hp
    exact ⟨(k, v), hv⟩
  rcases hlast : t.last with _ | p
  · exact ⟨_, by rw [lookup, hlast], hfound, rfl, rfl⟩
  · obtain ⟨⟨k', v⟩, he⟩ := h.last_live p hlast
    by_cases hk : k' = k
    · subst hk
      refine ⟨t, ?_, h, rfl, rfl⟩
      rw [lookup, hlast, h.index_of_heap p k' v he]
      simp [he]
    · refine ⟨_, ?_, hfound, rfl, rfl⟩
      rw [lookup, hlast]
      simp [he, hk]

/-- What is forgotten is not there to be freed. -/
lemma forget_spec (h : t.WF) (keys : List κ) :
    ∃ u, t.forget keys = some u ∧ u.WF ∧ u.heap = t.heap ∧ u.index = t.index ∧
      ∀ p k v, k ∈ keys → u.last = some p → u.heap.get p ≠ some (k, v) := by
  rcases hlast : t.last with _ | p
  · refine ⟨t, by rw [forget, hlast], h, rfl, rfl, fun p k v _ hp => ?_⟩
    rw [hlast] at hp
    cases hp
  · obtain ⟨⟨k', v⟩, he⟩ := h.last_live p hlast
    by_cases hk : k' ∈ keys
    · refine ⟨{ t with last := none }, ?_, ⟨h.heap_of_index, h.index_of_heap, ?_⟩, rfl, rfl, ?_⟩
      · rw [forget, hlast]
        simp [he, hk]
      · intro q hq
        cases hq
      · intro q k w _ hq
        cases hq
    · refine ⟨t, ?_, h, rfl, rfl, fun q k w hmem hq hw => hk ?_⟩
      · rw [forget, hlast]
        simp [he, hk]
      · rw [hlast] at hq
        obtain rfl := some.inj hq
        rw [he] at hw
        rwa [(Prod.mk.inj (some.inj hw)).1]

end CachedTable

end Ator
