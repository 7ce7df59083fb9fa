import AtorProtocol.Circuitlist.Sides

/-!
# The invariant of the map

* `Inv` — the entries and the sides of the circuits agree, and an ID that is waiting has an entry.
* `Counted` — the counters are the numbers of attached circuits, but for a drift.
* `Inv.setCircidChan`, `Inv.setCircuit`, `Inv.setEntry` — the changes that keep it.
-/

namespace Ator.Circuitlist

open Option
open AssocMap (get_set_of_ne get_set_self)

variable {s t : State} {k : Key} {chan : Option ChanPtr}
  {x : ChanPtr} {id : Circid} {c c' : CircPtr} {circ circ' : Circuit} {old side : Side}
  {d d' : CellDirection} {queued queued' : Set Key}

/-- The key of a side of a circuit, if it is attached. -/
def State.sideKey (s : State) (c : CircPtr) (d : CellDirection) : Option Key :=
  (s.circuits.get c).bind fun circ => circ.key d

/-- **The invariant.** -/
structure Inv (s : State) (queued : Set Key) : Prop where
  wf : s.chanCircidMap.WF
  ok : ∀ c circ d side, s.circuits.get c = some circ → circ.side d = some side → side.Ok
  waiting : ∀ c circ d side x, s.circuits.get c = some circ → circ.side d = some side →
    side.chan = some x → side.circId = 0 → s.entry (x, 0) = none
  entry_side : ∀ k e c, s.entry k = some e → e.circuit = some c → ∃ d, s.sideKey c d = some k
  side_entry : ∀ c d k, s.sideKey c d = some k → ∃ e, s.entry k = some e ∧ e.circuit = some c
  side_unique : ∀ c d d' k, s.sideKey c d = some k → s.sideKey c d' = some k → d = d'
  queued : ∀ k ∈ queued, ∃ e, s.entry k = some e ∧ ∀ c, e.circuit = some c →
    ∃ circ d side, s.circuits.get c = some circ ∧ circ.side d = some side ∧ side.key = some k ∧
      side.deletePending

lemma sideKey_eq_some : s.sideKey c d = some k ↔
    ∃ circ side, s.circuits.get c = some circ ∧ circ.side d = some side ∧ side.key = some k := by
  simp only [State.sideKey, Circuit.key, bind_eq_some_iff]
  constructor
  · rintro ⟨circ, hget, side, hside, hkey⟩
    exact ⟨circ, side, hget, hside, hkey⟩
  · rintro ⟨circ, side, hget, hside, hkey⟩
    exact ⟨circ, hget, side, hside, hkey⟩

lemma sideKey_of_side (hget : s.circuits.get c = some circ) (hside : circ.side d = some side) :
    s.sideKey c d = side.key := by
  rw [State.sideKey, hget, bind_some, Circuit.key, hside, bind_some]

namespace Inv

lemma sideKey_ne (hinv : Inv s queued) (h : s.entry k = none) (c : CircPtr) (d : CellDirection) :
    s.sideKey c d ≠ some k := by
  intro hkey
  obtain ⟨e, he, -⟩ := hinv.side_entry c d k hkey
  rw [h] at he
  cases he

lemma side_inj (hinv : Inv s queued) (h : s.sideKey c d = some k)
    (h' : s.sideKey c' d' = some k) : c = c' ∧ d = d' := by
  obtain ⟨e, he, hcirc⟩ := hinv.side_entry c d k h
  obtain ⟨e', he', hcirc'⟩ := hinv.side_entry c' d' k h'
  rw [he] at he'
  obtain rfl := some.inj he'
  rw [hcirc] at hcirc'
  obtain rfl := some.inj hcirc'
  exact ⟨rfl, hinv.side_unique c d d' k h h'⟩

lemma entered (hinv : Inv s queued) (hget : s.circuits.get c = some circ)
    (hside : circ.side d = some side) : Entered s side where
  entry := by
    intro k hkey hnone
    exact hinv.sideKey_ne hnone c d ((sideKey_of_side hget hside).trans hkey)
  waiting := fun x hx hzero => hinv.waiting c circ d side x hget hside hx hzero

lemma mono (hinv : Inv s queued) (h : queued' ⊆ queued) : Inv s queued' :=
  { hinv with queued := fun k hk => hinv.queued k (h hk) }

lemma of_sameEntries (hinv : Inv s queued) (h : SameEntries s t) : Inv t queued := by
  have hkey : t.sideKey = s.sideKey := by
    funext c d
    rw [State.sideKey, State.sideKey, h.circuits]
  refine ⟨h.wf, ?_, ?_, ?_, ?_, ?_, ?_⟩
  · rw [h.circuits]
    exact hinv.ok
  · rw [h.circuits, h.entry]
    exact hinv.waiting
  · rw [h.entry, hkey]
    exact hinv.entry_side
  · rw [h.entry, hkey]
    exact hinv.side_entry
  · rw [hkey]
    exact hinv.side_unique
  · rw [h.circuits, h.entry]
    exact hinv.queued

end Inv

/-! ## A change of a side -/

lemma sideKey_setSide (hget : s.circuits.get c = some circ)
    (hcircuits : t.circuits = s.circuits.set c (circ.setSide side d)) :
    t.sideKey c' d' = if c' = c ∧ d' = d then side.key else s.sideKey c' d' := by
  rw [State.sideKey, hcircuits, State.sideKey]
  by_cases hc : c' = c
  · subst hc
    rw [get_set_self, bind_some, hget, bind_some, Circuit.key, Circuit.key]
    by_cases hd : d' = d
    · subst hd
      rw [Circuit.side_setSide_self, bind_some, if_pos ⟨rfl, rfl⟩]
    · rw [Circuit.side_setSide_of_ne hd, if_neg fun h => hd h.2]
  · rw [get_set_of_ne hc, if_neg fun h => hc h.1]

lemma side_of_setSide (hget : s.circuits.get c = some circ) {new : Side}
    (hcircuits : t.circuits = s.circuits.set c (circ.setSide new d))
    (hget' : t.circuits.get c' = some circ') (hside : circ'.side d' = some side) :
    c' = c ∧ d' = d ∧ side = new ∨ ¬ (c' = c ∧ d' = d) ∧
      ∃ circ, s.circuits.get c' = some circ ∧ circ.side d' = some side := by
  rw [hcircuits] at hget'
  by_cases hc : c' = c
  · subst hc
    rw [get_set_self] at hget'
    obtain rfl := some.inj hget'
    by_cases hd : d' = d
    · subst hd
      rw [Circuit.side_setSide_self] at hside
      exact .inl ⟨rfl, rfl, (some.inj hside).symm⟩
    · rw [Circuit.side_setSide_of_ne hd] at hside
      exact .inr ⟨fun h => hd h.2, circ, hget, hside⟩
  · rw [get_set_of_ne hc] at hget'
    exact .inr ⟨fun h => hc h.1, circ', hget', hside⟩

/-- **A change of a side** keeps the invariant. -/
lemma Inv.changed (hinv : Inv s queued) (hget : s.circuits.get c = some circ)
    (hside : circ.side d = some old) (hunused : Unused s chan id)
    (hcircuits : t.circuits = s.circuits.set c (circ.setSide ⟨chan, id, false⟩ d)) {e : Entry}
    (he : e.circuit = none)
    (hchanged : Changed s t c d old ⟨chan, id, false⟩ fun _ =>
      if old.deletePending then some e else none) : Inv t queued := by
  have hold := sideKey_of_side hget hside
  have hnew : ∀ k, (Side.mk chan id false).key = some k → s.entry k = none := by
    intro k hk
    rw [hunused.key, keyOf, map_eq_some_iff] at hk
    obtain ⟨x, rfl, rfl⟩ := hk
    exact hunused.2
  have hkeys : ∀ c' d', t.sideKey c' d' = _ := fun c' d' => sideKey_setSide hget hcircuits
  have hother : ∀ c' d' k, ¬ (c' = c ∧ d' = d) → s.sideKey c' d' = some k →
      t.entry k = s.entry k := by
    intro c' d' k hne hk
    rw [hchanged.entry, if_neg fun h => hinv.sideKey_ne (hnew k h) c' d' hk, if_neg]
    intro h
    exact hne (hinv.side_inj hk (hold.trans h))
  refine ⟨hchanged.wf, ?_, ?_, ?_, ?_, ?_, ?_⟩
  · intro c' circ' d' side hget' hside'
    rcases side_of_setSide hget hcircuits hget' hside' with ⟨-, -, rfl⟩ | ⟨-, circ, hs, hd⟩
    · refine ⟨fun hnone => ?_, fun h => by cases h⟩
      obtain rfl : chan = none := hnone
      exact hunused
    · exact hinv.ok c' circ d' side hs hd
  · intro c' circ' d' side x hget' hside' hx hzero
    rcases side_of_setSide hget hcircuits hget' hside' with ⟨-, -, rfl⟩ | ⟨-, circ, hs, hd⟩
    · obtain rfl : chan = some x := hx
      exact absurd hzero hunused.1
    · have hnone := hinv.waiting c' circ d' side x hs hd hx hzero
      rw [hchanged.entry, if_neg fun h => (key_eq_some.mp h).2.2 rfl,
        if_neg fun h => (key_eq_some.mp h).2.2 rfl, hnone]
  · intro k e' c' hentry hcirc
    rw [hchanged.entry] at hentry
    split at hentry
    · next hk =>
        obtain rfl := some.inj hentry
        obtain rfl := some.inj hcirc
        exact ⟨d, by rw [hkeys, if_pos ⟨rfl, rfl⟩, hk]⟩
    · split at hentry
      · split at hentry
        · obtain rfl := some.inj hentry
          rw [he] at hcirc
          cases hcirc
        · cases hentry
      · next hk =>
          obtain ⟨d', hd'⟩ := hinv.entry_side k e' c' hentry hcirc
          refine ⟨d', ?_⟩
          rw [hkeys, if_neg, hd']
          rintro ⟨rfl, rfl⟩
          exact hk (hold.symm.trans hd')
  · intro c' d' k hk
    rw [hkeys] at hk
    split at hk
    · next h =>
        obtain ⟨rfl, rfl⟩ := h
        exact ⟨⟨some c', 0⟩, by rw [hchanged.entry, if_pos hk], rfl⟩
    · next h =>
        rw [hother c' d' k h hk]
        exact hinv.side_entry c' d' k hk
  · intro c' d₁ d₂ k h₁ h₂
    rw [hkeys] at h₁ h₂
    split at h₁ <;> split at h₂
    · next ha hb => exact ha.2.trans hb.2.symm
    · exact absurd h₂ (hinv.sideKey_ne (hnew k h₁) c' d₂)
    · exact absurd h₁ (hinv.sideKey_ne (hnew k h₂) c' d₁)
    · exact hinv.side_unique c' d₁ d₂ k h₁ h₂
  · intro k hk
    obtain ⟨e', he', hpending⟩ := hinv.queued k hk
    have hne : (Side.mk chan id false).key ≠ some k := by
      intro h
      rw [hnew k h] at he'
      cases he'
    by_cases hkold : old.key = some k
    · obtain ⟨e'', he'', hcirc⟩ := hinv.side_entry c d k (hold.trans hkold)
      rw [he'] at he''
      obtain rfl := some.inj he''
      obtain ⟨circ', d', side, hs, hd, hkey, hdelete⟩ := hpending c hcirc
      obtain ⟨-, rfl⟩ := hinv.side_inj (sideKey_eq_some.mpr ⟨circ', side, hs, hd, hkey⟩)
        (hold.trans hkold)
      rw [hget] at hs
      obtain rfl := some.inj hs
      rw [hside] at hd
      obtain rfl := some.inj hd
      refine ⟨e, ?_, fun c' hc' => ?_⟩
      · rw [hchanged.entry, if_neg hne, if_pos hkold, if_pos hdelete]
      · rw [he] at hc'
        cases hc'
    · refine ⟨e', by rw [hchanged.entry, if_neg hne, if_neg hkold, he'], fun c' hc' => ?_⟩
      obtain ⟨circ', d', side, hs, hd, hkey, hdelete⟩ := hpending c' hc'
      have hkeyd : s.sideKey c' d' = some k := sideKey_eq_some.mpr ⟨circ', side, hs, hd, hkey⟩
      have hpair : ¬ (c' = c ∧ d' = d) := by
        rintro ⟨rfl, rfl⟩
        exact hkold (hold.symm.trans hkeyd)
      by_cases hc : c' = c
      · subst hc
        rw [hget] at hs
        obtain rfl := some.inj hs
        refine ⟨_, d', side, by rw [hcircuits, get_set_self], ?_, hkey, hdelete⟩
        rw [Circuit.side_setSide_of_ne fun h => hpair ⟨rfl, h⟩, hd]
      · exact ⟨circ', d', side, by rw [hcircuits, get_set_of_ne hc, hs], hd, hkey, hdelete⟩

/-! ## Other changes -/

lemma Inv.setCircuit (hinv : Inv s queued) (hget : s.circuits.get c = some circ)
    (hkeys : ∀ d, circ'.key d = circ.key d)
    (hsides : ∀ d side, circ'.side d = some side →
      side.Ok ∧ ∀ x, side.chan = some x → side.circId = 0 → s.entry (x, 0) = none)
    (hpending : ∀ k ∈ queued, ∀ d side, circ.side d = some side → side.key = some k →
      side.deletePending → ∃ side', circ'.side d = some side' ∧ side'.key = some k ∧
        side'.deletePending) : Inv (s.setCircuit c circ') queued := by
  have hself : (s.setCircuit c circ').circuits.get c = some circ' := get_set_self
  have hother : ∀ c', c' ≠ c → (s.setCircuit c circ').circuits.get c' = s.circuits.get c' :=
    fun c' hc => get_set_of_ne hc
  have hkey : (s.setCircuit c circ').sideKey = s.sideKey := by
    funext c' d
    rw [State.sideKey, State.sideKey]
    by_cases hc : c' = c
    · rw [hc, hself, hget, bind_some, bind_some, hkeys]
    · rw [hother c' hc]
  have hback : ∀ c' circ'' d side, (s.setCircuit c circ').circuits.get c' = some circ'' →
      circ''.side d = some side → circ'.side d = some side ∨
        s.circuits.get c' = some circ'' ∧ circ''.side d = some side := by
    intro c' circ'' d side hget' hside
    by_cases hc : c' = c
    · rw [hc, hself] at hget'
      obtain rfl := some.inj hget'
      exact .inl hside
    · rw [hother c' hc] at hget'
      exact .inr ⟨hget', hside⟩
  refine ⟨hinv.wf, ?_, ?_, ?_, ?_, ?_, ?_⟩
  · intro c' circ'' d side hget' hside
    rcases hback c' circ'' d side hget' hside with h | ⟨h, h'⟩
    · exact (hsides d side h).1
    · exact hinv.ok c' circ'' d side h h'
  · intro c' circ'' d side x hget' hside
    rcases hback c' circ'' d side hget' hside with h | ⟨h, h'⟩
    · exact (hsides d side h).2 x
    · exact hinv.waiting c' circ'' d side x h h'
  · rw [hkey]
    exact hinv.entry_side
  · rw [hkey]
    exact hinv.side_entry
  · rw [hkey]
    exact hinv.side_unique
  · intro k hk
    obtain ⟨e, he, hcirc⟩ := hinv.queued k hk
    refine ⟨e, he, fun c' hc' => ?_⟩
    obtain ⟨circ₀, d, side, hs, hd, hkeyd, hdelete⟩ := hcirc c' hc'
    by_cases hc : c' = c
    · rw [hc, hget] at hs
      obtain rfl := some.inj hs
      obtain ⟨side', hside', hkey', hdelete'⟩ := hpending k hk d side hd hkeyd hdelete
      exact ⟨circ', d, side', hc ▸ hself, hside', hkey', hdelete'⟩
    · exact ⟨circ₀, d, side, by rw [hother c' hc, hs], hd, hkeyd, hdelete⟩

lemma Inv.setPlaceholder (hinv : Inv s queued) (hcircuits : t.circuits = s.circuits)
    (hwf : t.chanCircidMap.WF) (hother : ∀ k', k' ≠ k → t.entry k' = s.entry k')
    (hs : (s.entry k).bind Entry.circuit = none) (ht : (t.entry k).bind Entry.circuit = none)
    (hwaiting : k.2 = 0 → t.entry k ≠ none → ∀ c circ d side, s.circuits.get c = some circ →
      circ.side d = some side → side.chan = some k.1 → side.circId ≠ 0)
    (hqueued : ∀ k' ∈ queued', k' ≠ k → k' ∈ queued) (hk : k ∈ queued' → t.entry k ≠ none) :
    Inv t queued' := by
  have hkey : t.sideKey = s.sideKey := by
    funext c d
    rw [State.sideKey, State.sideKey, hcircuits]
  refine ⟨hwf, ?_, ?_, ?_, ?_, ?_, ?_⟩
  · rw [hcircuits]
    exact hinv.ok
  · rw [hcircuits]
    intro c circ d side x hget hside hx hzero
    by_cases hxk : (x, 0) = k
    · subst hxk
      by_contra hne
      exact hwaiting rfl hne c circ d side hget hside hx hzero
    · rw [hother _ hxk]
      exact hinv.waiting c circ d side x hget hside hx hzero
  · intro k' e c he hcirc
    by_cases hk' : k' = k
    · rw [hk'] at he
      rw [he, bind_some, hcirc] at ht
      cases ht
    · rw [hother k' hk'] at he
      rw [hkey]
      exact hinv.entry_side k' e c he hcirc
  · intro c d k' hk'
    rw [hkey] at hk'
    obtain ⟨e, he, hcirc⟩ := hinv.side_entry c d k' hk'
    refine ⟨e, ?_, hcirc⟩
    rw [hother, he]
    rintro rfl
    rw [he, bind_some, hcirc] at hs
    cases hs
  · rw [hkey]
    exact hinv.side_unique
  · intro k' hk'
    by_cases heq : k' = k
    · subst heq
      obtain ⟨e, he⟩ := ne_none_iff_exists'.mp (hk hk')
      refine ⟨e, he, fun c hcirc => ?_⟩
      rw [he, bind_some, hcirc] at ht
      cases ht
    · rw [hother k' heq, hcircuits]
      exact hinv.queued k' (hqueued k' hk' heq)

lemma Inv.setDetached (hinv : Inv s queued) (hmap : t.chanCircidMap = s.chanCircidMap)
    (hs : ∀ d, s.sideKey c d = none)
    (hother : ∀ c', c' ≠ c → t.circuits.get c' = s.circuits.get c')
    (hc : ∀ circ d side, t.circuits.get c = some circ → circ.side d = some side →
      side = .zero) : Inv t queued := by
  have hentry : t.entry = s.entry := by
    funext k
    rw [State.entry, State.entry, hmap]
  have hzero : Side.zero.key = none := rfl
  have hkey : t.sideKey = s.sideKey := by
    funext c' d
    by_cases hcc : c' = c
    · rw [hcc, hs]
      rcases h : t.sideKey c d with _ | k
      · rfl
      · obtain ⟨circ, side, hget, hside, hk⟩ := sideKey_eq_some.mp h
        rw [hc circ d side hget hside, hzero] at hk
        cases hk
    · rw [State.sideKey, State.sideKey, hother c' hcc]
  refine ⟨hmap ▸ hinv.wf, ?_, ?_, ?_, ?_, ?_, ?_⟩
  · intro c' circ d side hget hside
    by_cases hcc : c' = c
    · subst hcc
      rw [hc circ d side hget hside]
      exact ⟨fun _ => rfl, fun h => by cases h⟩
    · rw [hother c' hcc] at hget
      exact hinv.ok c' circ d side hget hside
  · intro c' circ d side x hget hside hx
    by_cases hcc : c' = c
    · subst hcc
      rw [hc circ d side hget hside] at hx
      cases hx
    · rw [hother c' hcc] at hget
      rw [hentry]
      exact hinv.waiting c' circ d side x hget hside hx
  · rw [hentry, hkey]
    exact hinv.entry_side
  · rw [hentry, hkey]
    exact hinv.side_entry
  · rw [hkey]
    exact hinv.side_unique
  · intro k hk
    rw [hentry]
    obtain ⟨e, he, hcirc⟩ := hinv.queued k hk
    refine ⟨e, he, fun c' hc' => ?_⟩
    obtain ⟨circ, d, side, hget, hside, hkeyd, hdelete⟩ := hcirc c' hc'
    refine ⟨circ, d, side, ?_, hside, hkeyd, hdelete⟩
    rw [hother, hget]
    rintro rfl
    have := sideKey_eq_some.mpr ⟨circ, side, hget, hside, hkeyd⟩
    rw [hs] at this
    cases this

/-! ## Counting -/

/-- Whether a side of a circuit is attached to a channel. -/
def Circuit.isOn (circ : Circuit) (x : ChanPtr) (d : CellDirection) : Prop :=
  (circ.key d).map Prod.fst = some x

instance : Decidable (circ.isOn x d) := by
  unfold Circuit.isOn
  infer_instance

/-- The number of circuits that are attached to a channel on one side. -/
def State.attached (s : State) (x : ChanPtr) (d : CellDirection) : ℕ :=
  s.circuits.total fun circ => if circ.isOn x d then 1 else 0

/-- The counters are the numbers of attached circuits, less a drift. -/
def Counted (s : State) (drift : ChanPtr → CellDirection → UInt32) : Prop :=
  ∀ x d, (s.channels x).num d = UInt32.ofNat (s.attached x d) - drift x d

lemma attached_of_circuits (h : t.circuits = s.circuits) : t.attached x d = s.attached x d := by
  rw [State.attached, State.attached, h]

/-- **A channel has fewer circuits than there are IDs.** -/
lemma attached_lt (hinv : Inv s queued) (x : ChanPtr) (d : CellDirection) :
    s.attached x d < UInt32.size := by
  let idOn (circ : Circuit) : Option (Fin UInt32.size) :=
    ((circ.key d).filter fun k => k.1 = x).map fun k => k.2.toFin
  have hidOn : ∀ circ i, idOn circ = some i →
      ∃ k, circ.key d = some k ∧ k.1 = x ∧ k.2.toFin = i := by
    intro circ i hi
    obtain ⟨k, hk, rfl⟩ := map_eq_some_iff.mp hi
    obtain ⟨hk, hx⟩ := filter_eq_some_iff.mp hk
    exact ⟨k, hk, of_decide_eq_true hx, rfl⟩
  have hisOn : ∀ circ : Circuit, circ.isOn x d ↔ (idOn circ).isSome := by
    intro circ
    simp only [Circuit.isOn, idOn, isSome_map]
    cases circ.key d with
    | none => simp
    | some k => by_cases hk : k.1 = x <;> simp [hk, filter_some]
  rw [← Fintype.card_fin UInt32.size, State.attached]
  simp only [hisOn]
  refine AssocMap.total_isSome_lt (0 : UInt32).toFin (fun c circ hget hzero => ?_)
    fun c circ c' circ' i hget hget' hi hi' => ?_
  · obtain ⟨k, hk, -, hfin⟩ := hidOn circ _ hzero
    obtain ⟨side, -, hkey⟩ := bind_eq_some_iff.mp hk
    exact (key_eq_some.mp hkey).2.2 (UInt32.toFin_inj.mp hfin)
  · obtain ⟨k, hk, rfl, rfl⟩ := hidOn circ i hi
    obtain ⟨k', hk', hx, hfin⟩ := hidOn circ' _ hi'
    obtain rfl : k' = k := Prod.ext hx (UInt32.toFin_inj.mp hfin)
    have hc : s.sideKey c d = some k' := by rw [State.sideKey, hget, bind_some, hk]
    have hc' : s.sideKey c' d = some k' := by rw [State.sideKey, hget', bind_some, hk']
    exact (hinv.side_inj hc hc').1

variable {drift : ChanPtr → CellDirection → UInt32}

/-- **A change of a side** keeps the drift. -/
lemma Counted.changed (hcount : Counted s drift) (hget : s.circuits.get c = some circ)
    (hside : circ.side d = some old) {new : Side} {entry : Key → Option Entry}
    (hcircuits : t.circuits = s.circuits.set c (circ.setSide new d))
    (hchanged : Changed s t c d old new entry) : Counted t drift := by
  intro x d'
  have htotal := AssocMap.total_set
    (f := fun circ : Circuit => if circ.isOn x d' then 1 else 0) hget
    (w := circ.setSide new d)
  rw [← hcircuits] at htotal
  change t.attached x d' + _ = s.attached x d' + _ at htotal
  have hmod := congrArg UInt32.ofNat htotal
  rw [UInt32.ofNat_add, UInt32.ofNat_add] at hmod
  rw [hchanged.num, hcount]
  by_cases hd : d' = d
  · subst hd
    have hcount : ∀ circ : Circuit, UInt32.ofNat (if circ.isOn x d' then 1 else 0) =
          countOf ((circ.key d').map Prod.fst) x := by
      intro circ
      by_cases hon : circ.isOn x d'
      · rw [if_pos hon]
        exact (if_pos hon).symm
      · rw [if_neg hon]
        exact (if_neg hon).symm
    have hnew : (circ.setSide new d').key d' = new.key := by
      rw [Circuit.key, Circuit.side_setSide_self, bind_some]
    have hold : circ.key d' = old.key := by
      rw [Circuit.key, hside, bind_some]
    grind
  · have hsame : (circ.setSide new d).isOn x d' ↔ circ.isOn x d' := by
      simp only [Circuit.isOn, Circuit.key, Circuit.side_setSide_of_ne hd]
    grind

end Ator.Circuitlist
