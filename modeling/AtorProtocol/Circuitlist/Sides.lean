import AtorProtocol.Circuitlist.Lookup

/-!
# The sides of the circuits

* `Side.key` — what a side is entered under.
-/

namespace Ator.Circuitlist

open Option

variable {alloc : Allocator (Key × Entry)} {s t u : State} {k : Key} {chan : Option ChanPtr}
  {x : ChanPtr} {id : Circid} {c : CircPtr} {now : ℕ} {circ : Circuit} {old side : Side}
  {d d' : CellDirection}

/-- The key of a side that is attached: one with a channel and an ID that is not zero. -/
def Side.key (side : Side) : Option Key :=
  if side.circId = 0 then none else keyOf side.chan side.circId

namespace Circuit

def key (circ : Circuit) (d : CellDirection) : Option Key := (circ.side d).bind Side.key

lemma side_setSide_self : (circ.setSide side d).side d = some side := by
  cases d <;> rfl

lemma side_setSide_of_ne (h : d' ≠ d) : (circ.setSide side d).side d' = circ.side d' := by
  cases d <;> cases d' <;> first | rfl | exact absurd rfl h

lemma setSide_of_side (h : circ.side d = some side) : circ.setSide side d = circ := by
  obtain ⟨n, p, marked⟩ := circ
  cases d with
  | outward =>
    obtain rfl := some.inj h
    rfl
  | inward =>
    obtain rfl : p = some side := h
    rfl

lemma setSide_setSide {side' : Side} :
    (circ.setSide side d).setSide side' d = circ.setSide side' d := by
  cases d <;> rfl

end Circuit

lemma key_eq_some : old.key = some k ↔ old.chan = some k.1 ∧ old.circId = k.2 ∧ k.2 ≠ 0 := by
  obtain ⟨x, id⟩ := k
  rw [Side.key]
  split
  · next hzero =>
      rw [hzero]
      simp only [reduceCtorEq, false_iff]
      rintro ⟨-, rfl, h⟩
      exact h rfl
  · next hne =>
      rw [keyOf, map_eq_some_iff]
      constructor
      · rintro ⟨y, hy, heq⟩
        obtain ⟨rfl, rfl⟩ := Prod.mk.inj heq
        exact ⟨hy, rfl, hne⟩
      · rintro ⟨hx, rfl, -⟩
        exact ⟨x, hx, rfl⟩

/-- One more or one less, where a channel is counted. -/
def countOf (chan : Option ChanPtr) (x : ChanPtr) : UInt32 := if chan = some x then 1 else 0

lemma num_adjust {f : UInt32 → UInt32} {y : ChanPtr} :
    ((s.adjust y d f).channels x).num d' =
      if x = y ∧ d' = d then f ((s.channels x).num d') else (s.channels x).num d' := by
  by_cases hx : x = y
  · cases d <;> cases d' <;> simp [State.adjust, Channel.num, Channel.adjust, hx]
  · simp [State.adjust, hx]

/-! ## The two halves -/

/-- What a side needs for the change: that it is entered under its key, and that nothing is entered
under a channel without an ID. -/
structure Entered (s : State) (old : Side) : Prop where
  entry : ∀ key, old.key = some key → s.entry key ≠ none
  waiting : ∀ x, old.chan = some x → old.circId = 0 → s.entry (x, 0) = none

/-- **The old entry** is gone, and counted off. -/
lemma removeOldEntry_spec (hwf : s.chanCircidMap.WF) (hentered : Entered s old)
    (hlast : ∀ key p v, keyOf old.chan old.circId = some key → s.chanCircidMap.last = some p →
      s.chanCircidMap.heap.get p ≠ some (key, v)) (d : CellDirection) :
    (removeOldEntry s d old).circuits = s.circuits ∧ (removeOldEntry s d old).chanCircidMap.WF ∧
      (∀ key, (removeOldEntry s d old).entry key =
        if old.key = some key then none else s.entry key) ∧
      ∀ x d', ((removeOldEntry s d old).channels x).num d' =
        (s.channels x).num d' - if d' = d then countOf (old.key.map Prod.fst) x else 0 := by
  have hunchanged : removeOldEntry s d old = s → old.key = none → _ := fun heq hkey =>
    (⟨by rw [heq], by rwa [heq], fun key => by rw [heq, hkey, if_neg (by simp)],
      fun x d' => by simp [heq, hkey, countOf]⟩ :
    (removeOldEntry s d old).circuits = s.circuits ∧ (removeOldEntry s d old).chanCircidMap.WF ∧
      (∀ key, (removeOldEntry s d old).entry key =
        if old.key = some key then none else s.entry key) ∧
      ∀ x d', ((removeOldEntry s d old).channels x).num d' =
        (s.channels x).num d' - if d' = d then countOf (old.key.map Prod.fst) x else 0)
  rcases hchan : old.chan with _ | y
  · refine hunchanged (by rw [removeOldEntry, hchan]) ?_
    rw [Side.key, hchan]
    split <;> rfl
  rcases hindex : s.chanCircidMap.index.get (y, old.circId) with _ | p
  · refine hunchanged (by simp only [removeOldEntry, hchan, hindex]) ?_
    rcases hkey : old.key with _ | ⟨z, id⟩
    · rfl
    · obtain ⟨h1, h2, -⟩ := key_eq_some.mp hkey
      rw [hchan] at h1
      obtain rfl := some.inj h1
      obtain rfl : old.circId = id := h2
      exact absurd ((CachedTable.get_eq_none hwf).mpr hindex) (hentered.entry _ hkey)
  · have hremove : removeOldEntry s d old = State.adjust
        { s with chanCircidMap := s.chanCircidMap.remove (y, old.circId) } y d (· - 1) := by
      simp only [removeOldEntry, hchan, hindex]
    have hkey : old.key = some (y, old.circId) := by
      refine key_eq_some.mpr ⟨hchan, rfl, fun hzero => ?_⟩
      obtain ⟨v, -, hv⟩ := hwf.heap_get hindex
      have hnone := hentered.waiting y hchan hzero
      change old.circId = 0 at hzero
      rw [hzero] at hv
      change s.entry (y, 0) = some v at hv
      rw [hnone] at hv
      cases hv
    rw [hremove, hkey]
    refine ⟨rfl, ?_, fun key => ?_, fun x d' => ?_⟩
    · refine hwf.remove fun q v hq => hlast _ q v ?_ hq
      rw [hchan]
      rfl
    · by_cases hne : key = (y, old.circId)
      · rw [hne, if_pos rfl]
        exact CachedTable.get_remove_self
      · rw [if_neg fun heq => hne (some.inj heq).symm]
        exact CachedTable.get_remove_of_ne hwf hne
    · rw [num_adjust, map_some, countOf]
      by_cases hx : x = y
      · by_cases hd : d' = d <;> simp [hx, hd]
      · simp [hx, Ne.symm hx]

/-- **The new entry** is there, and counted. -/
lemma addNewEntry_spec (alloc : Allocator (Key × Entry)) (hwf : s.chanCircidMap.WF)
    (hnew : s.entry (x, id) = none) (d : CellDirection) (c : CircPtr) :
    (addNewEntry alloc s d c x id).circuits = s.circuits ∧
      (addNewEntry alloc s d c x id).chanCircidMap.WF ∧
      (∀ key, (addNewEntry alloc s d c x id).entry key =
        if (x, id) = key then some ⟨some c, 0⟩ else s.entry key) ∧
      ∀ y d', ((addNewEntry alloc s d c x id).channels y).num d' =
        (s.channels y).num d' + if d' = d then countOf (some x) y else 0 := by
  have hindex : s.chanCircidMap.index.get (x, id) = none := (CachedTable.get_eq_none hwf).mp hnew
  have hadd : addNewEntry alloc s d c x id = State.adjust
      { s with chanCircidMap := s.chanCircidMap.insert (x, id) alloc ⟨some c, 0⟩ } x d (· + 1) := by
    rw [addNewEntry, hindex]
  rw [hadd]
  refine ⟨rfl, hwf.insert alloc hindex _, fun key => ?_, fun y d' => ?_⟩
  · by_cases hne : (x, id) = key
    · rw [← hne, if_pos rfl]
      exact CachedTable.get_insert_self alloc
    · rw [if_neg hne]
      exact CachedTable.get_insert_of_ne alloc hwf (Ne.symm hne)
  · rw [num_adjust, countOf]
    by_cases hx : x = y <;> by_cases hd : d' = d <;> simp [hx, hd, Ne.symm]

/-! ## A change of a side -/

/-- When a side may go to a channel and an ID: the ID is unused there, or there is neither. -/
def Unused (s : State) (chan : Option ChanPtr) (id : Circid) : Prop :=
  match chan with
  | none => id = 0
  | some x => id ≠ 0 ∧ s.entry (x, id) = none

/-- What a circuit, the entries and the counters are after a change of a side. -/
structure Changed (s t : State) (c : CircPtr) (d : CellDirection) (old new : Side)
    (entry : Key → Option Entry) : Prop where
  wf : t.chanCircidMap.WF
  entry : ∀ key, t.entry key =
    if new.key = some key then some ⟨some c, 0⟩
    else if old.key = some key then entry key else s.entry key
  num : ∀ x d', ((t.channels x).num d') = (s.channels x).num d' -
    (if d' = d then countOf (old.key.map Prod.fst) x else 0) +
    if d' = d then countOf (new.key.map Prod.fst) x else 0

lemma Unused.key (h : Unused s chan id) (pending : Bool) :
    (Side.mk chan id pending).key = keyOf chan id := by
  rw [Side.key]
  split
  · next hzero =>
      cases chan with
      | none => rfl
      | some x => exact absurd hzero h.1
  · rfl

/-- **The helper** moves one side of one circuit. -/
lemma helper_spec (alloc : Allocator (Key × Entry)) (hwf : s.chanCircidMap.WF)
    (hget : s.circuits.get c = some circ) (hside : circ.side d = some old)
    (hentered : Entered s old) (hunused : Unused s chan id) :
    ∃ t, circuitSetCircidChanHelper alloc s c d id chan = some t ∧
      t.circuits = s.circuits.set c (circ.setSide { old with chan := chan, circId := id } d) ∧
      Changed s t c d old ⟨chan, id, false⟩ fun _ => none := by
  simp only [circuitSetCircidChanHelper, hget, hside, bind_eq_bind, bind_some]
  by_cases hsame : id = old.circId ∧ chan = old.chan
  · obtain ⟨rfl, rfl⟩ := hsame
    have hkey : old.key = none := by
      rcases hkey : old.key with _ | ⟨y, i⟩
      · rfl
      · obtain ⟨h1, h2, -⟩ := key_eq_some.mp hkey
        rw [h1] at hunused
        obtain rfl : old.circId = i := h2
        exact absurd hunused.2 (hentered.entry _ hkey)
    have hnew : (Side.mk old.chan old.circId false).key = none := hkey
    refine ⟨s, by simp, ?_, hwf, fun key => ?_, fun x d' => ?_⟩
    · rw [Circuit.setSide_of_side hside, AssocMap.set_of_get hget]
    · rw [hnew, hkey]
      simp
    · rw [hnew, hkey]
      simp [countOf]
  · rw [if_neg hsame]
    obtain ⟨map, hforget, hmap, hheap, hindex, hlast⟩ := CachedTable.forget_spec hwf
      ((keyOf old.chan old.circId).toList ++ (keyOf chan id).toList)
    have hentry : ∀ key, ({ s with chanCircidMap := map } : State).entry key = s.entry key :=
      fun key => congrFun (CachedTable.get_of_same hheap hindex) key
    have hentered' : Entered { s with chanCircidMap := map } old := by
      refine ⟨fun key hkey => ?_, fun x hx hzero => ?_⟩
      · rw [hentry]
        exact hentered.entry key hkey
      · rw [hentry]
        exact hentered.waiting x hx hzero
    obtain ⟨hcircuits, hwf', hentry', hnum⟩ := removeOldEntry_spec hmap hentered'
      (fun key p v hkey => hlast p key v (by rw [hkey]; simp)) d
    simp only [hforget, bind_some]
    generalize hu : removeOldEntry { s with chanCircidMap := map } d old = u at *
    have hkey := hunused.key false
    cases chan with
    | none =>
      refine ⟨_, rfl, by rw [State.setCircuit, hcircuits], hwf', fun key => ?_, fun x d' => ?_⟩
      · rw [hkey, keyOf, map_none, if_neg (by simp)]
        change u.entry key = _
        rw [hentry', hentry]
      · rw [hkey]
        change (u.channels x).num d' = _
        rw [hnum]
        simp [keyOf, countOf]
    | some x =>
      have hfree : (u.setCircuit c (circ.setSide { old with chan := some x, circId := id }
          d)).entry (x, id) = none := by
        change u.entry (x, id) = none
        rw [hentry', hentry, hunused.2, ite_self]
      obtain ⟨hcircuits', hwf'', hentry'', hnum'⟩ := addNewEntry_spec alloc
        (s := u.setCircuit c (circ.setSide { old with chan := some x, circId := id } d)) hwf'
        hfree d c
      refine ⟨_, rfl, by rw [hcircuits', State.setCircuit, hcircuits], hwf'', fun key => ?_,
        fun y d' => ?_⟩
      · rw [hentry'', hkey, keyOf, map_some]
        simp only [some.injEq]
        change (if (x, id) = key then _ else u.entry key) = _
        rw [hentry', hentry]
      · rw [hnum', hkey]
        change (u.channels y).num d' + _ = _
        rw [hnum]
        rfl

/-- What holds of a side by itself: no ID without a channel, and nothing pending without an ID. -/
structure Side.Ok (side : Side) : Prop where
  circId : side.chan = none → side.circId = 0
  pending : side.deletePending → side.circId ≠ 0

/-- **A change of a side.**  The old ID is kept back if its DESTROY is pending. -/
lemma setCircidChan_spec (alloc : Allocator (Key × Entry)) (hwf : s.chanCircidMap.WF)
    (hget : s.circuits.get c = some circ) (hside : circ.side d = some old) (hok : old.Ok)
    (hentered : Entered s old) (hunused : Unused s chan id) (now : ℕ) :
    ∃ t e, circuitSetCircidChan alloc s d c id chan now = some t ∧
      t.circuits = s.circuits.set c (circ.setSide ⟨chan, id, false⟩ d) ∧ e.circuit = none ∧
      Changed s t c d old ⟨chan, id, false⟩ fun _ =>
        if old.deletePending then some e else none := by
  obtain ⟨t, hhelper, hcircuits, hchanged⟩ := helper_spec alloc hwf hget hside hentered hunused
  simp only [circuitSetCircidChan, hget, hside, hhelper, hcircuits, AssocMap.get_set_self,
    Circuit.side_setSide_self, bind_eq_bind, bind_some]
  cases hpending : old.deletePending with
  | false =>
    have hold : ({ old with chan := chan, circId := id } : Side) = ⟨chan, id, false⟩ := by
      rw [← hpending]
    refine ⟨t, ⟨none, now⟩, ?_, by rw [hcircuits, hold], rfl, ?_⟩
    · rcases old.chan with _ | y
      · rfl
      · simp
    · simpa using hchanged
  | true =>
    have hne := hok.pending hpending
    obtain ⟨y, hy⟩ := ne_none_iff_exists'.mp fun hnone => hne (hok.circId hnone)
    have hkey : old.key = some (y, old.circId) := key_eq_some.mpr ⟨hy, rfl, hne⟩
    have hnew : (Side.mk chan id false).key ≠ some (y, old.circId) := by
      intro heq
      obtain ⟨h1, h2, -⟩ := key_eq_some.mp heq
      obtain rfl : chan = some y := h1
      obtain rfl : id = old.circId := h2
      exact hentered.entry _ hkey hunused.2
    obtain ⟨u, hmark, hcircuits', hchannels, hwf', ⟨e, hentry, hcirc⟩, hother⟩ :=
      markUnusable_spec alloc hchanged.wf y old.circId now
    simp only [hy, if_true, hmark, bind_some]
    refine ⟨_, e, rfl, ?_, ?_, hwf', fun key => ?_, ?_⟩
    · rw [State.setCircuit, hcircuits', hcircuits, AssocMap.set_set hget, Circuit.setSide_setSide]
    · rw [hcirc, hchanged.entry, if_neg hnew, if_pos hkey, bind_none]
    · change u.entry key = _
      by_cases heq : key = (y, old.circId)
      · rw [heq, hentry, if_neg hnew, if_pos hkey]
      · rw [hother key heq, hchanged.entry, hkey]
        have hkey' : some (y, old.circId) ≠ some key := fun h => heq (some.inj h).symm
        rw [if_neg hkey', if_neg hkey']
    · change ∀ x d', (u.channels x).num d' = _
      rw [hchannels]
      exact hchanged.num

end Ator.Circuitlist
