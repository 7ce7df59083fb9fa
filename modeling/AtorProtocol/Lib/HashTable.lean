import Mathlib.Data.List.Nodup
import Mathlib.Data.List.Perm.Basic

/-!
# Hash tables of elements with a key

The intrusive tables of `ext/ht.h`: an element is found by its key, and insertion does not look
for an element that is already there.  A table is the list of its elements, the newest first.

* `htFind_eq_some` — without two elements of one key, a lookup finds exactly the elements.
* `mem_htRemove` — removal takes out the elements with the key.
-/

namespace Ator

open List

variable {α κ : Type*} [DecidableEq κ] {key : α → κ} {t : List α} {a b : α} {k : κ}

def htFind (key : α → κ) (t : List α) (k : κ) : Option α := t.find? fun a => key a = k

def htInsert (t : List α) (a : α) : List α := a :: t

/-- `HT_REMOVE`: what is left of the table; it returns what `HT_FIND` does. -/
def htRemove (key : α → κ) (t : List α) (k : κ) : List α := t.eraseP fun a => key a = k

lemma key_of_htFind (h : htFind key t k = some a) : key a = k := by
  simpa using find?_some h

lemma mem_of_htFind (h : htFind key t k = some a) : a ∈ t := mem_of_find?_eq_some h

lemma htFind_eq_none : htFind key t k = none ↔ ∀ a ∈ t, key a ≠ k := by
  simp [htFind]

omit [DecidableEq κ] in
lemma eq_of_key_eq (h : (t.map key).Nodup) (ha : a ∈ t) (hb : b ∈ t) (heq : key a = key b) :
    a = b :=
  inj_on_of_nodup_map h ha hb heq

lemma htFind_eq_some (h : (t.map key).Nodup) : htFind key t k = some a ↔ a ∈ t ∧ key a = k := by
  constructor
  · exact fun hfind => ⟨mem_of_htFind hfind, key_of_htFind hfind⟩
  · rintro ⟨ha, rfl⟩
    rcases hfind : htFind key t (key a) with _ | b
    · exact absurd rfl (htFind_eq_none.mp hfind a ha)
    · rw [eq_of_key_eq h (mem_of_htFind hfind) ha (key_of_htFind hfind)]

lemma nodup_htRemove (h : (t.map key).Nodup) (k : κ) : ((htRemove key t k).map key).Nodup :=
  (eraseP_sublist.map key).nodup h

lemma mem_htRemove (h : (t.map key).Nodup) : a ∈ htRemove key t k ↔ a ∈ t ∧ key a ≠ k := by
  induction t with
  | nil => simp [htRemove]
  | cons b t ih =>
    obtain ⟨hb, ht⟩ := nodup_cons.mp h
    by_cases hk : key b = k
    · rw [htRemove, eraseP_cons_of_pos (by simpa using hk), mem_cons]
      constructor
      · intro ha
        refine ⟨.inr ha, fun hak => hb ?_⟩
        rw [hk, ← hak]
        exact List.mem_map_of_mem ha
      · rintro ⟨rfl | ha, hne⟩
        · exact absurd hk hne
        · exact ha
    · rw [htRemove, eraseP_cons_of_neg (by simpa using hk), mem_cons, mem_cons]
      rw [htRemove] at ih
      rw [ih ht]
      constructor
      · rintro (rfl | ⟨ha, hne⟩)
        · exact ⟨.inl rfl, hk⟩
        · exact ⟨.inr ha, hne⟩
      · rintro ⟨rfl | ha, hne⟩
        · exact .inl rfl
        · exact .inr ⟨ha, hne⟩

end Ator
