import AtorProtocol.Circuitlist.ChanCircidMap

/-!
# What is found under a channel and a circuit ID

* `State.entry` — the entry of the map.
-/

namespace Ator.Circuitlist

open Option

variable {alloc : Allocator (Key × Entry)} {s t u : State} {key : Key} {chan : ChanPtr}
  {id : Circid} {c : CircPtr} {now : ℕ}

/-- The entry that the map has for a key. -/
def State.entry (s : State) (key : Key) : Option Entry := s.chanCircidMap.get key

/-- The states that differ in where the entries are, and in what is cached. -/
structure SameEntries (s t : State) : Prop where
  circuits : t.circuits = s.circuits
  channels : t.channels = s.channels
  entry : t.entry = s.entry
  wf : t.chanCircidMap.WF

lemma SameEntries.refl (hwf : s.chanCircidMap.WF) : SameEntries s s := ⟨rfl, rfl, rfl, hwf⟩

lemma SameEntries.trans (h : SameEntries s t) (h' : SameEntries t u) : SameEntries s u :=
  ⟨h'.circuits.trans h.circuits, h'.channels.trans h.channels, h'.entry.trans h.entry, h'.wf⟩

/-! ## Lookups -/

/-- **A lookup** answers what the map has. -/
lemma lookupImpl_spec (hwf : s.chanCircidMap.WF) (id : Circid) (chan : ChanPtr) :
    ∃ t, circuitGetByCircidChannelImpl s id chan =
        some (t, (s.entry (chan, id)).bind Entry.circuit, (s.entry (chan, id)).isSome) ∧
      SameEntries s t := by
  obtain ⟨map, hlookup, hmap, hheap, hindex⟩ := CachedTable.lookup_spec hwf (chan, id)
  refine ⟨{ s with chanCircidMap := map }, ?_, rfl, rfl, CachedTable.get_of_same hheap hindex, hmap⟩
  simp only [circuitGetByCircidChannelImpl, hlookup, bind_eq_bind, bind_some]
  rcases hfound : s.chanCircidMap.index.get (chan, id) with _ | p
  · have hentry : s.entry (chan, id) = none := (CachedTable.get_eq_none hwf).mpr hfound
    rw [hentry]
    rfl
  · obtain ⟨e, he, hget⟩ := hwf.heap_get hfound
    have hentry : s.entry (chan, id) = some e := hget
    rw [hentry]
    simp [hheap, he]

lemma evenIfMarked_spec (hwf : s.chanCircidMap.WF) (id : Circid) (chan : ChanPtr) :
    ∃ t, circuitGetByCircidChannelEvenIfMarked s id chan =
        some (t, (s.entry (chan, id)).bind Entry.circuit) ∧ SameEntries s t := by
  obtain ⟨t, ht, hsame⟩ := lookupImpl_spec hwf id chan
  exact ⟨t, by rw [circuitGetByCircidChannelEvenIfMarked, ht, map_some], hsame⟩

lemma idInUse_spec (hwf : s.chanCircidMap.WF) (id : Circid) (chan : ChanPtr) :
    ∃ t n, circuitIdInUseOnChannel s id chan = some (t, n) ∧
      (n = 0 ↔ s.entry (chan, id) = none) := by
  obtain ⟨t, ht, -⟩ := lookupImpl_spec hwf id chan
  refine ⟨t, _, by rw [circuitIdInUseOnChannel, ht, map_some], ?_⟩
  rcases s.entry (chan, id) with _ | ⟨_ | c, at'⟩ <;> simp

/-! ## Placeholders -/

/-- **An ID that is marked unusable** has an entry, of the circuit it had before. -/
lemma markUnusable_spec (alloc : Allocator (Key × Entry)) (hwf : s.chanCircidMap.WF)
    (chan : ChanPtr) (id : Circid) (now : ℕ) :
    ∃ t, channelMarkCircidUnusable alloc s chan id now = some t ∧ t.circuits = s.circuits ∧
      t.channels = s.channels ∧ t.chanCircidMap.WF ∧
      (∃ e, t.entry (chan, id) = some e ∧ e.circuit = (s.entry (chan, id)).bind Entry.circuit) ∧
      ∀ key, key ≠ (chan, id) → t.entry key = s.entry key := by
  rw [channelMarkCircidUnusable]
  rcases hfound : s.chanCircidMap.index.get (chan, id) with _ | p
  · have hentry : s.entry (chan, id) = none := (CachedTable.get_eq_none hwf).mpr hfound
    refine ⟨_, rfl, rfl, rfl, hwf.insert alloc hfound _, ⟨_, CachedTable.get_insert_self alloc, ?_⟩,
      fun key hne => CachedTable.get_insert_of_ne alloc hwf hne⟩
    rw [hentry, bind_none]
  · obtain ⟨e, he, hget⟩ := hwf.heap_get hfound
    have hentry : s.entry (chan, id) = some e := hget
    simp only [he, map_some]
    by_cases hcirc : e.circuit.isSome
    · rw [if_pos hcirc]
      refine ⟨s, rfl, rfl, rfl, hwf, ⟨e, hentry, ?_⟩, fun key _ => rfl⟩
      rw [hentry, bind_some]
    · rw [if_neg hcirc]
      have hupdate := CachedTable.get_update_self (f := Entry.stamp now) hwf hfound
      rw [hget, map_some] at hupdate
      refine ⟨_, rfl, rfl, rfl, ?_, ⟨_, hupdate, ?_⟩, fun key hne => ?_⟩
      · exact hwf.update p (Entry.stamp now)
      · rw [hentry, bind_some, Entry.stamp]
        split <;> rfl
      · exact CachedTable.get_update_of_ne hwf hfound hne

lemma WF.forgetLast {map : CachedTable Key Entry} (h : map.WF) :
    ({ map with last := none } : CachedTable Key Entry).WF :=
  ⟨h.heap_of_index, h.index_of_heap, fun _ hp => by cases hp⟩

/-- **An ID that no circuit has** and that is marked usable has no entry. -/
lemma markUsable_spec (hwf : s.chanCircidMap.WF)
    (hcirc : (s.entry (chan, id)).bind Entry.circuit = none) :
    ∃ t, channelMarkCircidUsable s chan id = some t ∧ t.circuits = s.circuits ∧
      t.channels = s.channels ∧ t.chanCircidMap.WF ∧ t.entry (chan, id) = none ∧
      ∀ key, key ≠ (chan, id) → t.entry key = s.entry key := by
  simp only [channelMarkCircidUsable]
  rcases hfound : s.chanCircidMap.index.get (chan, id) with _ | p
  · exact ⟨s, rfl, rfl, rfl, hwf, (CachedTable.get_eq_none hwf).mpr hfound, fun key _ => rfl⟩
  · obtain ⟨e, he, hget⟩ := hwf.heap_get hfound
    have hentry : s.entry (chan, id) = some e := hget
    rw [hentry, bind_some] at hcirc
    simp only [he, map_some, hcirc, isSome_none, Bool.false_eq_true, if_false]
    have hcleared : ∃ map : CachedTable Key Entry,
        (if s.chanCircidMap.last = some p then { s.chanCircidMap with last := none }
          else s.chanCircidMap) = map ∧ map.WF ∧ map.get = s.chanCircidMap.get ∧
        ∀ q v, map.last = some q → map.heap.get q ≠ some ((chan, id), v) := by
      by_cases hlast : s.chanCircidMap.last = some p
      · refine ⟨_, if_pos hlast, WF.forgetLast hwf, rfl, fun q v hq => ?_⟩
        cases hq
      · refine ⟨_, if_neg hlast, hwf, rfl, fun q v hq hv => hlast ?_⟩
        have := hwf.index_of_heap q _ v hv
        rw [hfound] at this
        rwa [some.inj this]
    obtain ⟨map, hmap, hwf', hsame, hnot⟩ := hcleared
    rw [hmap]
    refine ⟨_, rfl, rfl, rfl, hwf'.remove hnot, CachedTable.get_remove_self, fun key hne => ?_⟩
    exact (CachedTable.get_remove_of_ne hwf' hne).trans (congrFun hsame key)

end Ator.Circuitlist
