import AtorProtocol.Circuitlist.Invariant
import AtorProtocol.Lib.Run

/-!
# Runs of the map

* `Op.Allowed` — what the callers check.
* `consistent_iff_unlinkEmpty` — the map, the cache, the placeholders and the counters are right
  all along a run exactly when no channel that has circuits is unlinked.
-/

namespace Ator.Circuitlist

open Option
open AssocMap (get_set_of_ne get_set_self)

variable {s t u : State} {k : Key} {chan : Option ChanPtr} {x : ChanPtr} {id : Circid}
  {c c' : CircPtr} {circ circ' : Circuit} {old side : Side} {d d' : CellDirection}
  {queued queued' : Set Key} {drift : ChanPtr → CellDirection → UInt32}

/-- The circuits of `s` are there in `t`. -/
def Live (s t : State) : Prop := ∀ c, (s.circuits.get c).isSome → (t.circuits.get c).isSome

/-! ## Lookups -/

lemma Counted.of_same (hcount : Counted s drift) (hcircuits : t.circuits = s.circuits)
    (hchannels : t.channels = s.channels) : Counted t drift := by
  intro x d
  rw [hchannels, attached_of_circuits hcircuits]
  exact hcount x d

lemma SameEntries.counted (h : SameEntries s t) (hcount : Counted s drift) : Counted t drift :=
  hcount.of_same h.circuits h.channels

/-! ## A change of a side -/

lemma live_set {new : Circuit} (hcircuits : t.circuits = s.circuits.set c new) : Live s t := by
  intro c' hc'
  rw [hcircuits]
  by_cases hc : c' = c
  · rw [hc, get_set_self, isSome_some]
  · rwa [get_set_of_ne hc]

/-- **A change of a side** has a result, and keeps the rest. -/
lemma setCircidChan_keeps (alloc : Allocator (Key × Entry)) (hinv : Inv s queued)
    (hcount : Counted s drift) (hget : s.circuits.get c = some circ)
    (hside : circ.side d = some old) (hunused : Unused s chan id) (now : ℕ) :
    ∃ t, circuitSetCircidChan alloc s d c id chan now = some t ∧ Inv t queued ∧ Counted t drift ∧
      t.circuits = s.circuits.set c (circ.setSide ⟨chan, id, false⟩ d) := by
  obtain ⟨t, e, ht, hcircuits, he, hchanged⟩ := setCircidChan_spec alloc hinv.wf hget hside
    (hinv.ok c circ d old hget hside) (hinv.entered hget hside) hunused now
  exact ⟨t, ht, hinv.changed hget hside hunused hcircuits he hchanged,
    hcount.changed hget hside hcircuits hchanged, hcircuits⟩

/-! ## Circuits -/

lemma Counted.setCircuit (hcount : Counted s drift) (hget : s.circuits.get c = some circ)
    (hkeys : ∀ d, circ'.key d = circ.key d) : Counted (s.setCircuit c circ') drift := by
  intro x d
  have htotal := AssocMap.total_set (f := fun circ : Circuit => if circ.isOn x d then 1 else 0) hget
    (w := circ')
  have hsame : circ'.isOn x d ↔ circ.isOn x d := by
    simp only [Circuit.isOn, hkeys]
  simp only [hsame, Nat.add_right_cancel_iff] at htotal
  change (s.channels x).num d = UInt32.ofNat ((s.circuits.set c circ').total _) - _
  rw [htotal]
  exact hcount x d

lemma markForClose_keeps (hinv : Inv s queued) (hcount : Counted s drift)
    (hlive : (s.circuits.get c).isSome) :
    ∃ t, circuitMarkForClose s c = some t ∧ Inv t queued ∧ Counted t drift ∧ Live s t := by
  obtain ⟨circ, hget⟩ := isSome_iff_exists.mp hlive
  have hkeys : ∀ d, ({ circ with markedForClose := true } : Circuit).key d = circ.key d := by
    intro d
    cases d <;> rfl
  have hsides : ∀ d, ({ circ with markedForClose := true } : Circuit).side d = circ.side d := by
    intro d
    cases d <;> rfl
  refine ⟨_, by rw [circuitMarkForClose, hget, map_some], hinv.setCircuit hget hkeys ?_ ?_,
    hcount.setCircuit hget hkeys, live_set rfl⟩
  · intro d side hside
    rw [hsides] at hside
    exact ⟨hinv.ok c circ d side hget hside, fun x => hinv.waiting c circ d side x hget hside⟩
  · intro k _ d side hside hkey hpending
    exact ⟨side, (hsides d).trans hside, hkey, hpending⟩

lemma Counted.setDetached (hcount : Counted s drift) (hchannels : t.channels = s.channels)
    (hattached : ∀ x d, t.attached x d = s.attached x d) : Counted t drift := by
  intro x d
  rw [hchannels, hattached]
  exact hcount x d

lemma newCircuit_keeps (hinv : Inv s queued) (hcount : Counted s drift)
    (hnew : s.circuits.get c = none) (isOr : Bool) :
    Inv (s.setCircuit c ⟨.zero, if isOr then some .zero else none, false⟩) queued ∧
      Counted (s.setCircuit c ⟨.zero, if isOr then some .zero else none, false⟩) drift := by
  have hsides : ∀ d side, (Circuit.mk .zero (if isOr then some .zero else none) false).side d =
      some side → side = .zero := by
    intro d side hside
    cases d with
    | outward => exact (some.inj hside).symm
    | inward =>
      cases isOr with
      | true => exact (some.inj hside).symm
      | false => cases hside
  constructor
  · refine hinv.setDetached rfl (fun d => ?_) (fun c' hc => get_set_of_ne hc)
      fun circ d side hget hside => ?_
    · rw [State.sideKey, hnew, bind_none]
    · rw [State.setCircuit, get_set_self] at hget
      rw [← some.inj hget] at hside
      exact hsides d side hside
  · refine hcount.setDetached rfl fun x d => ?_
    rw [State.attached, State.setCircuit, AssocMap.total_set_new hnew, if_neg, Nat.add_zero]
    · rfl
    · rw [Circuit.isOn, Circuit.key]
      rcases hside : (Circuit.mk .zero (if isOr then some .zero else none) false).side d with
        _ | side
      · simp
      · rw [hsides d side hside]
        simp [Side.key, Side.zero]

lemma Live.trans (h : Live s t) (h' : Live t u) : Live s u := fun c hc => h' c (h c hc)

/-! ## Pending DESTROYs -/

lemma setDeletePending_spec {side : Side} (hside : circ.side d = some side)
    (hchan : side.chan = some x) (hid : side.circId = id) (pending : Bool) :
    ∃ d side, circ.side d = some side ∧ side.chan = some x ∧ side.circId = id ∧
      setDeletePending circ x id pending =
        some (circ.setSide { side with deletePending := pending } d) := by
  by_cases hn : circ.n.chan = some x ∧ circ.n.circId = id
  · exact ⟨.outward, circ.n, rfl, hn.1, hn.2, by rw [setDeletePending, if_pos hn]; rfl⟩
  · cases d with
    | outward =>
      obtain rfl := some.inj hside
      exact absurd ⟨hchan, hid⟩ hn
    | inward =>
      have hp : circ.p = some side := hside
      refine ⟨.inward, side, hside, hchan, hid, ?_⟩
      rw [setDeletePending, if_neg hn, hp, map_some, if_pos ⟨hchan, hid⟩]
      rfl

lemma key_setPending (hside : circ.side d = some side) (pending : Bool) (d' : CellDirection) :
    (circ.setSide { side with deletePending := pending } d).key d' = circ.key d' := by
  rw [Circuit.key, Circuit.key]
  by_cases hd : d' = d
  · subst hd
    rw [Circuit.side_setSide_self, hside]
    rfl
  · rw [Circuit.side_setSide_of_ne hd]

/-- **A note** on a side that is entered under its key. -/
lemma setPending_keeps (hinv : Inv s queued) (hcount : Counted s drift)
    (hget : s.circuits.get c = some circ) (hside : circ.side d = some side)
    (hkey : side.key = some k) (pending : Bool) (hk : pending = false → k ∉ queued) :
    Inv (s.setCircuit c (circ.setSide { side with deletePending := pending } d)) queued ∧
      Counted (s.setCircuit c (circ.setSide { side with deletePending := pending } d)) drift := by
  refine ⟨hinv.setCircuit hget (key_setPending hside pending) ?_ ?_,
    hcount.setCircuit hget (key_setPending hside pending)⟩
  · intro d' side' hside'
    by_cases hd : d' = d
    · subst hd
      rw [Circuit.side_setSide_self] at hside'
      obtain rfl := some.inj hside'
      have hok := hinv.ok c circ d' side hget hside
      refine ⟨⟨hok.circId, fun _ => ?_⟩, fun x => hinv.waiting c circ d' side x hget hside⟩
      obtain ⟨-, hid, hne⟩ := key_eq_some.mp hkey
      rwa [← hid] at hne
    · rw [Circuit.side_setSide_of_ne hd] at hside'
      exact ⟨hinv.ok c circ d' side' hget hside',
        fun x => hinv.waiting c circ d' side' x hget hside'⟩
  · intro k' hk' d' side' hside' hkey' hdelete
    by_cases hd : d' = d
    · subst hd
      rw [hside] at hside'
      obtain rfl := some.inj hside'
      refine ⟨_, Circuit.side_setSide_self, hkey', ?_⟩
      rw [hkey] at hkey'
      obtain rfl := some.inj hkey'
      cases pending with
      | true => rfl
      | false => exact absurd hk' (hk rfl)
    · exact ⟨side', by rw [Circuit.side_setSide_of_ne hd, hside'], hkey', hdelete⟩

lemma Inv.side_of_found (hinv : Inv s queued)
    (hfound : (s.entry k).bind Entry.circuit = some c) :
    ∃ circ d side, s.circuits.get c = some circ ∧ circ.side d = some side ∧ side.key = some k := by
  obtain ⟨e, he, hcirc⟩ := bind_eq_some_iff.mp hfound
  obtain ⟨d, hd⟩ := hinv.entry_side k e c he hcirc
  obtain ⟨circ, side, hget, hside, hkey⟩ := sideKey_eq_some.mp hd
  exact ⟨circ, d, side, hget, hside, hkey⟩

/-- **A DESTROY that is pending.** -/
lemma noteDestroyPending_keeps (alloc : Allocator (Key × Entry)) (hinv : Inv s queued)
    (hcount : Counted s drift) (now : ℕ)
    (hwaiting : id = 0 → ∀ c circ d side, s.circuits.get c = some circ →
      circ.side d = some side → side.chan = some x → side.circId ≠ 0) :
    ∃ t, channelNoteDestroyPending alloc s x id now = some t ∧
      Inv t (insert (x, id) queued) ∧ Counted t drift := by
  obtain ⟨u, hu, hsame⟩ := evenIfMarked_spec hinv.wf id x
  have hinvu := hinv.of_sameEntries hsame
  have hcountu := hsame.counted hcount
  rw [← hsame.entry] at hu
  simp only [channelNoteDestroyPending, hu, bind_eq_bind, bind_some]
  rcases hfound : (u.entry (x, id)).bind Entry.circuit with _ | c
  · obtain ⟨t, ht, hcircuits, hchannels, hwf, ⟨e, he, hcirc⟩, hother⟩ :=
      markUnusable_spec alloc hinvu.wf x id now
    refine ⟨t, ht, hinvu.setPlaceholder hcircuits hwf hother hfound ?_ ?_ ?_ ?_,
      hcountu.of_same hcircuits hchannels⟩
    · rw [he, bind_some, hcirc, hfound]
    · intro hzero _
      rw [hsame.circuits]
      exact hwaiting hzero
    · intro k hk hne
      exact hk.resolve_left hne
    · intro _
      rw [he]
      simp
  · obtain ⟨circ, d, side, hget, hside, hkey⟩ := hinvu.side_of_found hfound
    obtain ⟨hchan, hid, hne⟩ := key_eq_some.mp hkey
    obtain ⟨d, side, hside, hchan, hid, hset⟩ := setDeletePending_spec hside hchan hid true
    have hkey : side.key = some (x, id) := key_eq_some.mpr ⟨hchan, hid, hne⟩
    obtain ⟨hinvt, hcountt⟩ := setPending_keeps hinvu hcountu hget hside hkey true (by simp)
    simp only [hget, hset, bind_some]
    refine ⟨_, rfl, { hinvt with queued := ?_ }, hcountt⟩
    rintro k (rfl | hk)
    · obtain ⟨e, he, hcirc⟩ := bind_eq_some_iff.mp hfound
      refine ⟨e, he, fun c' hc' => ?_⟩
      rw [hcirc] at hc'
      obtain rfl := some.inj hc'
      exact ⟨_, d, _, get_set_self, Circuit.side_setSide_self, hkey, rfl⟩
    · exact hinvt.queued k hk

/-- **A DESTROY that has been sent.** -/
lemma noteDestroyNotPending_keeps (hinv : Inv s queued) (hcount : Counted s drift) (x : ChanPtr)
    (id : Circid) :
    ∃ t, channelNoteDestroyNotPending s x id = some t ∧
      Inv t (queued \ {(x, id)}) ∧ Counted t drift := by
  obtain ⟨u, hu, hsame⟩ := evenIfMarked_spec hinv.wf id x
  have hinvu := hinv.of_sameEntries hsame
  have hcountu := hsame.counted hcount
  rw [← hsame.entry] at hu
  simp only [channelNoteDestroyNotPending, hu, bind_eq_bind, bind_some]
  rcases hfound : (u.entry (x, id)).bind Entry.circuit with _ | c
  · obtain ⟨t, ht, hcircuits, hchannels, hwf, hnone, hother⟩ := markUsable_spec hinvu.wf hfound
    refine ⟨t, ht, hinvu.setPlaceholder hcircuits hwf hother hfound ?_ ?_ ?_ ?_,
      hcountu.of_same hcircuits hchannels⟩
    · rw [hnone, bind_none]
    · exact fun _ hne => absurd hnone hne
    · exact fun k hk _ => hk.1
    · exact fun hk => absurd rfl hk.2
  · obtain ⟨circ, d, side, hget, hside, hkey⟩ := hinvu.side_of_found hfound
    obtain ⟨hchan, hid, hne⟩ := key_eq_some.mp hkey
    obtain ⟨d, side, hside, hchan, hid, hset⟩ := setDeletePending_spec hside hchan hid false
    have hkey : side.key = some (x, id) := key_eq_some.mpr ⟨hchan, hid, hne⟩
    simp only [hget, hset, bind_some]
    have hmono : Inv u (queued \ {(x, id)}) := hinvu.mono Set.sdiff_subset
    obtain ⟨hinvt, hcountt⟩ := setPending_keeps hmono hcountu hget hside hkey false
      fun _ hk => hk.2 rfl
    exact ⟨_, rfl, hinvt, hcountt⟩

/-! ## The end of a channel -/

lemma detachAll_spec (hinv : Inv s queued) (x : ChanPtr)
    (attached : List (Circid × CellDirection)) :
    ∃ t detached, detachAllCircuits x s attached = some (t, detached) ∧ SameEntries s t ∧
      ∀ c ∈ detached, (t.circuits.get c).isSome := by
  induction attached generalizing s with
  | nil => exact ⟨s, [], rfl, .refl hinv.wf, fun c hc => absurd hc List.not_mem_nil⟩
  | cons p attached ih =>
    obtain ⟨id, d⟩ := p
    obtain ⟨u, hu, hsame⟩ := evenIfMarked_spec hinv.wf id x
    have hinvu := hinv.of_sameEntries hsame
    obtain ⟨t, detached, ht, hsame', hlive⟩ := ih hinvu
    simp only [detachAllCircuits, hu, ht, bind_eq_bind, bind_some]
    rcases hfound : (s.entry (x, id)).bind Entry.circuit with _ | c
    · exact ⟨t, detached, rfl, hsame.trans hsame', hlive⟩
    · rw [← hsame.entry] at hfound
      obtain ⟨circ, -, -, hget, -, -⟩ := hinvu.side_of_found hfound
      simp only [hget, bind_some]
      refine ⟨t, _, rfl, hsame.trans hsame', ?_⟩
      split
      · intro c' hc'
        rcases List.mem_cons.mp hc' with rfl | hc'
        · rw [hsame'.circuits, hget, isSome_some]
        · exact hlive c' hc'
      · exact hlive

/-- What the counters of a channel are off by once they have been set to zero. -/
def unlinkDrift (s : State) (x : ChanPtr) (drift : ChanPtr → CellDirection → UInt32) :
    ChanPtr → CellDirection → UInt32 :=
  fun y d => if y = x then UInt32.ofNat (s.attached y d) else drift y d

lemma unlinkSide_keeps (alloc : Allocator (Key × Entry)) (hinv : Inv s queued)
    (hcount : Counted s drift) (hlive : (s.circuits.get c).isSome) (x : ChanPtr) (now : ℕ)
    (d : CellDirection) :
    ∃ t mark, unlinkSide alloc s x now d c = some (t, mark) ∧ Inv t queued ∧ Counted t drift ∧
      Live s t := by
  obtain ⟨circ, hget⟩ := isSome_iff_exists.mp hlive
  simp only [unlinkSide, hget, bind_eq_bind, bind_some]
  rcases hside : circ.side d with _ | side
  · exact ⟨s, false, rfl, hinv, hcount, fun c hc => hc⟩
  · by_cases hchan : side.chan = some x
    · obtain ⟨t, ht, hinvt, hcountt, hcircuits⟩ :=
        setCircidChan_keeps alloc hinv hcount hget hside (show Unused s none 0 from rfl) now
      exact ⟨t, true, by simp [hchan, ht], hinvt, hcountt, live_set hcircuits⟩
    · exact ⟨s, false, by simp [hchan], hinv, hcount, fun c hc => hc⟩

lemma unlinkCircuit_keeps (alloc : Allocator (Key × Entry)) (hinv : Inv s queued)
    (hcount : Counted s drift) (hlive : (s.circuits.get c).isSome) (x : ChanPtr) (now : ℕ) :
    ∃ t, unlinkCircuit alloc s x now c = some t ∧ Inv t queued ∧ Counted t drift ∧ Live s t := by
  obtain ⟨u, markN, hu, hinvu, hcountu, hliveu⟩ :=
    unlinkSide_keeps alloc hinv hcount hlive x now .outward
  obtain ⟨v, markP, hv, hinvv, hcountv, hlivev⟩ :=
    unlinkSide_keeps alloc hinvu hcountu (hliveu c hlive) x now .inward
  simp only [unlinkCircuit, hu, hv, bind_eq_bind, bind_some]
  by_cases hmark : (markN || markP) = true
  · rw [if_pos hmark]
    obtain ⟨t, ht, hinvt, hcountt, hlivet⟩ :=
      markForClose_keeps hinvv hcountv (hlivev c (hliveu c hlive))
    exact ⟨t, ht, hinvt, hcountt, (hliveu.trans hlivev).trans hlivet⟩
  · rw [if_neg hmark]
    exact ⟨v, rfl, hinvv, hcountv, hliveu.trans hlivev⟩

lemma unlinkCircuits_keeps (alloc : Allocator (Key × Entry)) (x : ChanPtr) (now : ℕ)
    {detached : List CircPtr} (hinv : Inv s queued) (hcount : Counted s drift)
    (hlive : ∀ c ∈ detached, (s.circuits.get c).isSome) :
    ∃ t, detached.foldlM (fun s c => unlinkCircuit alloc s x now c) s = some t ∧ Inv t queued ∧
      Counted t drift := by
  induction detached generalizing s with
  | nil => exact ⟨s, rfl, hinv, hcount⟩
  | cons c detached ih =>
    obtain ⟨u, hu, hinvu, hcountu, hliveu⟩ :=
      unlinkCircuit_keeps alloc hinv hcount (hlive c List.mem_cons_self) x now
    obtain ⟨t, ht, hinvt, hcountt⟩ := ih hinvu hcountu fun c' hc' =>
      hliveu c' (hlive c' (List.mem_cons_of_mem c hc'))
    exact ⟨t, by rw [List.foldlM_cons, hu]; exact ht, hinvt, hcountt⟩

/-- **The end of a channel** keeps the invariant, but the counters drift. -/
lemma unlinkAll_keeps (alloc : Allocator (Key × Entry)) (hinv : Inv s queued)
    (hcount : Counted s drift) (x : ChanPtr) (attached : List (Circid × CellDirection))
    (now : ℕ) :
    ∃ t, circuitUnlinkAllFromChannel alloc s x attached now = some t ∧ Inv t queued ∧
      Counted t (unlinkDrift s x drift) := by
  obtain ⟨u, detached, hdetach, hsame, hlive⟩ := detachAll_spec hinv x attached
  have hinvu := hinv.of_sameEntries hsame
  simp only [circuitUnlinkAllFromChannel, channelUnlinkAllCircuits, hdetach, bind_eq_bind,
    bind_some]
  refine unlinkCircuits_keeps alloc x now ?_ ?_ hlive
  · exact ⟨hinvu.wf, hinvu.ok, hinvu.waiting, hinvu.entry_side, hinvu.side_entry,
      hinvu.side_unique, hinvu.queued⟩
  · intro y d
    have hattached : u.attached y d = s.attached y d := attached_of_circuits hsame.circuits
    change (if y = x then Channel.mk 0 0 else u.channels y).num d =
      UInt32.ofNat (u.attached y d) - unlinkDrift s x drift y d
    rw [hattached, unlinkDrift]
    by_cases hy : y = x
    · rw [if_pos hy, if_pos hy]
      cases d <;> simp [Channel.num]
    · rw [if_neg hy, if_neg hy]
      exact hsame.counted hcount y d ▸ hattached ▸ rfl

/-! ## The end of a circuit -/

lemma eraseCircuit_keeps (hinv : Inv s queued) (hcount : Counted s drift)
    (hget : s.circuits.get c = some circ) (hkeys : ∀ d, circ.key d = none) :
    Inv { s with circuits := s.circuits.erase c } queued ∧
      Counted { s with circuits := s.circuits.erase c } drift := by
  constructor
  · refine hinv.setDetached rfl (fun d => ?_) (fun c' hc => AssocMap.get_erase_of_ne hc) ?_
    · rw [State.sideKey, hget, bind_some, hkeys]
    · intro circ' d side hget'
      rw [AssocMap.get_erase_self] at hget'
      cases hget'
  · refine hcount.setDetached rfl fun x d => ?_
    have htotal := AssocMap.total_erase (f := fun circ : Circuit => if circ.isOn x d then 1 else 0)
      hget
    have hoff : ¬ circ.isOn x d := by
      rw [Circuit.isOn, hkeys]
      simp
    rw [if_neg hoff, Nat.add_zero] at htotal
    exact htotal

/-- **A circuit that is freed** is taken off its channels first. -/
lemma circuitFree_keeps (alloc : Allocator (Key × Entry)) (hinv : Inv s queued)
    (hcount : Counted s drift) (hlive : (s.circuits.get c).isSome) (now : ℕ) :
    ∃ t, circuitFree alloc s c now = some t ∧ Inv t queued ∧ Counted t drift := by
  obtain ⟨circ, hget⟩ := isSome_iff_exists.mp hlive
  have hzero : Side.zero.key = none := rfl
  -- the first half takes an `or_circuit_t` off its previous channel
  obtain ⟨u, hu, hinvu, hcountu, circ', hget', hp⟩ : ∃ u,
      (if circ.p.isSome then circuitSetPCircidChan alloc s c 0 none now else some s) = some u ∧
      Inv u queued ∧ Counted u drift ∧ ∃ circ', u.circuits.get c = some circ' ∧
        circ'.key .inward = none := by
    rcases hp : circ.p with _ | p
    · refine ⟨s, rfl, hinv, hcount, circ, hget, ?_⟩
      rw [Circuit.key, Circuit.side, hp, bind_none]
    · have hside : circ.side .inward = some p := hp
      obtain ⟨u, hu, hinvu, hcountu, hcircuits⟩ :=
        setCircidChan_keeps alloc hinv hcount hget hside (show Unused s none 0 from rfl) now
      refine ⟨u, hu, hinvu, hcountu, _, by rw [hcircuits, get_set_self], ?_⟩
      exact hzero
  have hn : circ'.side .outward = some circ'.n := rfl
  obtain ⟨v, hv, hinvv, hcountv, hcircuits⟩ :=
    setCircidChan_keeps alloc hinvu hcountu hget' hn (show Unused u none 0 from rfl) now
  have hgetv : v.circuits.get c = some (circ'.setSide .zero .outward) := by
    rw [hcircuits, get_set_self]
    rfl
  obtain ⟨hinvt, hcountt⟩ := eraseCircuit_keeps hinvv hcountv hgetv fun d => by
    cases d with
    | outward => rfl
    | inward => exact hp
  have hv' : circuitSetNCircidChan alloc u c 0 none now = some v := hv
  refine ⟨_, ?_, hinvt, hcountt⟩
  simp only [circuitFree, hget, bind_eq_bind, bind_some]
  by_cases hor : circ.p.isSome
  · rw [if_pos hor] at hu ⊢
    simp only [hu, hv', bind_some]
    rfl
  · rw [if_neg hor] at hu ⊢
    obtain rfl := some.inj hu
    simp only [hv', bind_some]
    rfl

/-! ## Operations -/

/-- What the callers check: new circuits are new, IDs are unused where they are set, and what is
assigned without an ID is a channel for which none is kept back. -/
def Op.Allowed (s : State) : Op → Prop
  | .newCircuit c _ => s.circuits.get c = none
  | .freeCircuit c _ => (s.circuits.get c).isSome
  | .assignNChan c x => (∃ circ ∈ s.circuits.get c, circ.n.chan = none) ∧ s.entry (x, 0) = none
  | .setCircidChan d c id chan _ =>
    ((s.circuits.get c).bind fun circ => circ.side d).isSome ∧ Unused s chan id
  | .markForClose c => (s.circuits.get c).isSome
  | .noteDestroyPending x id _ => id = 0 → ∀ circ ∈ s.circuits.values, ∀ d, ∀ side ∈ circ.side d,
      side.chan = some x → side.circId ≠ 0
  | _ => True

instance {p : CellDirection → Prop} [DecidablePred p] : Decidable (∀ d, p d) :=
  decidable_of_iff (p .inward ∧ p .outward) ⟨fun h d => by cases d; exacts [h.1, h.2],
    fun h => ⟨h _, h _⟩⟩

instance : Decidable (Unused s chan id) :=
  match chan with
  | none => inferInstanceAs (Decidable (id = 0))
  | some x => inferInstanceAs (Decidable (id ≠ 0 ∧ s.entry (x, id) = none))

instance : ∀ op : Op, Decidable (op.Allowed s)
  | .newCircuit c _ => inferInstanceAs (Decidable (s.circuits.get c = none))
  | .freeCircuit c _ => inferInstanceAs (Decidable (s.circuits.get c).isSome)
  | .assignNChan c x => inferInstanceAs (Decidable
      ((∃ circ ∈ s.circuits.get c, circ.n.chan = none) ∧ s.entry (x, 0) = none))
  | .setCircidChan d c id chan _ => inferInstanceAs (Decidable
      (((s.circuits.get c).bind fun circ => circ.side d).isSome ∧ Unused s chan id))
  | .markForClose c => inferInstanceAs (Decidable (s.circuits.get c).isSome)
  | .noteDestroyPending x id _ => inferInstanceAs (Decidable (id = 0 →
      ∀ circ ∈ s.circuits.values, ∀ d, ∀ side ∈ circ.side d, side.chan = some x → side.circId ≠ 0))
  | .noteDestroyNotPending _ _ => inferInstanceAs (Decidable True)
  | .unlinkAllFromChannel _ _ _ => inferInstanceAs (Decidable True)
  | .lookup _ _ => inferInstanceAs (Decidable True)

/-- No channel is unlinked that has circuits. -/
def Op.UnlinkEmpty (s : State) : Op → Prop
  | .unlinkAllFromChannel x _ _ => ∀ d, s.attached x d = 0
  | _ => True

/-- What an operation makes of the drift. -/
def Op.driftAfter (s : State) (drift : ChanPtr → CellDirection → UInt32) :
    Op → ChanPtr → CellDirection → UInt32
  | .unlinkAllFromChannel x _ _ => unlinkDrift s x drift
  | _ => drift

lemma assignNChan_keeps (hinv : Inv s queued) (hcount : Counted s drift)
    (hget : s.circuits.get c = some circ) (hn : circ.n.chan = none)
    (hnone : s.entry (x, 0) = none) :
    Inv (s.setCircuit c { circ with n := { circ.n with chan := some x } }) queued ∧
      Counted (s.setCircuit c { circ with n := { circ.n with chan := some x } }) drift := by
  have hzero : circ.n.circId = 0 := (hinv.ok c circ .outward circ.n hget rfl).circId hn
  have hnkey : circ.n.key = none := by rw [Side.key, if_pos hzero]
  have hkeys : ∀ d, ({ circ with n := { circ.n with chan := some x } } : Circuit).key d =
      circ.key d := by
    intro d
    cases d with
    | inward => rfl
    | outward =>
      change (Side.mk (some x) circ.n.circId circ.n.deletePending).key = circ.n.key
      rw [hnkey, Side.key, if_pos hzero]
  refine ⟨hinv.setCircuit hget hkeys ?_ ?_, hcount.setCircuit hget hkeys⟩
  · intro d side hside
    cases d with
    | inward => exact ⟨hinv.ok c circ .inward side hget hside,
        fun y => hinv.waiting c circ .inward side y hget hside⟩
    | outward =>
      obtain rfl := some.inj hside
      refine ⟨⟨fun hchan => ?_, (hinv.ok c circ .outward circ.n hget rfl).pending⟩,
        fun y hy _ => ?_⟩
      · cases hchan
      · obtain rfl := some.inj hy
        exact hnone
  · intro k _ d side hside hkey hdelete
    cases d with
    | inward => exact ⟨side, hside, hkey, hdelete⟩
    | outward =>
      obtain rfl := some.inj hside
      rw [hnkey] at hkey
      cases hkey

/-- **Every operation** keeps the invariant, and only the end of a channel makes the counters
drift. -/
lemma step_keeps (alloc : Allocator (Key × Entry)) (hinv : Inv s queued) (hcount : Counted s drift)
    (op : Op) (hallowed : op.Allowed s) :
    ∃ t, step alloc s op = some t ∧ Inv t (op.queue queued) ∧
      Counted t (op.driftAfter s drift) := by
  cases op with
  | newCircuit c isOr => exact ⟨_, rfl, newCircuit_keeps hinv hcount hallowed isOr⟩
  | freeCircuit c now => exact circuitFree_keeps alloc hinv hcount hallowed now
  | assignNChan c x =>
    obtain ⟨⟨circ, hget, hn⟩, hnone⟩ := hallowed
    exact ⟨_, by rw [step, hget, map_some], assignNChan_keeps hinv hcount hget hn hnone⟩
  | setCircidChan d c id chan now =>
    obtain ⟨hexists, hunused⟩ := hallowed
    obtain ⟨side, hside⟩ := isSome_iff_exists.mp hexists
    obtain ⟨circ, hget, hside⟩ := bind_eq_some_iff.mp hside
    obtain ⟨t, ht, hinvt, hcountt, -⟩ :=
      setCircidChan_keeps alloc hinv hcount hget hside hunused now
    cases d <;> exact ⟨t, ht, hinvt, hcountt⟩
  | markForClose c =>
    obtain ⟨t, ht, hinvt, hcountt, -⟩ := markForClose_keeps hinv hcount hallowed
    exact ⟨t, ht, hinvt, hcountt⟩
  | noteDestroyPending x id now =>
    refine noteDestroyPending_keeps alloc hinv hcount now fun hzero c circ d side hget hside => ?_
    exact hallowed hzero circ (AssocMap.mem_values.mpr ⟨c, hget⟩) d side hside
  | noteDestroyNotPending x id => exact noteDestroyNotPending_keeps hinv hcount x id
  | unlinkAllFromChannel x attached now => exact unlinkAll_keeps alloc hinv hcount x attached now
  | lookup id x =>
    obtain ⟨t, ht, hsame⟩ := lookupImpl_spec hinv.wf id x
    have hinvt := hinv.of_sameEntries hsame
    refine ⟨t, ?_, hinvt, hsame.counted hcount⟩
    rw [← hsame.entry] at ht
    simp only [step, circuitGetByCircidChannel, ht, bind_eq_bind, bind_some]
    rcases hfound : (t.entry (x, id)).bind Entry.circuit with _ | c
    · rfl
    · obtain ⟨circ, -, -, hget, -, -⟩ := hinvt.side_of_found hfound
      simp [hget]

/-! ## Runs -/

/-- **What the claim says of a state**: entries and sides agree, the cache answers what the map has,
the counters count, and an ID whose DESTROY is waiting is in use. -/
structure Consistent (w : Noted) : Prop where
  entry_side : ∀ x id e c, w.state.entry (x, id) = some e → e.circuit = some c →
    ∃ circ d side, w.state.circuits.get c = some circ ∧ circ.side d = some side ∧
      side.chan = some x ∧ side.circId = id
  side_entry : ∀ c circ d side x, w.state.circuits.get c = some circ → circ.side d = some side →
    side.chan = some x → side.circId ≠ 0 →
      ∃ e, w.state.entry (x, side.circId) = some e ∧ e.circuit = some c
  cached : ∀ id x, ∃ t, circuitGetByCircidChannelImpl w.state id x =
    some (t, (w.state.entry (x, id)).bind Entry.circuit, (w.state.entry (x, id)).isSome)
  num : ∀ x d, ((w.state.channels x).num d).toNat = w.state.attached x d
  queued : ∀ x id, (x, id) ∈ w.queued → ∀ t n,
    circuitIdInUseOnChannel w.state id x = some (t, n) → n ≠ 0

lemma toNat_attached (hinv : Inv s queued) (x : ChanPtr) (d : CellDirection) :
    (UInt32.ofNat (s.attached x d)).toNat = s.attached x d :=
  UInt32.toNat_ofNat_of_lt (attached_lt hinv x d)

lemma num_toNat_iff (hinv : Inv s queued) {n off : UInt32}
    (h : n = UInt32.ofNat (s.attached x d) - off) : n.toNat = s.attached x d ↔ off = 0 := by
  have hofNat := toNat_attached hinv x d
  constructor
  · intro hn
    have heq : n = UInt32.ofNat (s.attached x d) := UInt32.toNat_inj.mp (hn.trans hofNat.symm)
    grind
  · rintro rfl
    rw [h, UInt32.sub_zero, hofNat]

lemma Inv.consistent {w : Noted} (hinv : Inv w.state w.queued)
    (hcount : Counted w.state fun _ _ => 0) : Consistent w where
  entry_side := by
    intro x id e c he hcirc
    obtain ⟨d, hd⟩ := hinv.entry_side (x, id) e c he hcirc
    obtain ⟨circ, side, hget, hside, hkey⟩ := sideKey_eq_some.mp hd
    obtain ⟨hchan, hid, -⟩ := key_eq_some.mp hkey
    exact ⟨circ, d, side, hget, hside, hchan, hid⟩
  side_entry := by
    intro c circ d side x hget hside hchan hne
    refine hinv.side_entry c d (x, side.circId) ?_
    exact sideKey_eq_some.mpr ⟨circ, side, hget, hside, key_eq_some.mpr ⟨hchan, rfl, hne⟩⟩
  cached := by
    intro id x
    obtain ⟨t, ht, -⟩ := lookupImpl_spec hinv.wf id x
    exact ⟨t, ht⟩
  num := fun x d => (num_toNat_iff hinv (hcount x d)).mpr rfl
  queued := by
    intro x id hmem t n hn hzero
    obtain ⟨u, m, hm, hiff⟩ := idInUse_spec hinv.wf id x
    rw [hm] at hn
    obtain ⟨rfl, rfl⟩ := Prod.mk.inj (some.inj hn)
    obtain ⟨e, he, -⟩ := hinv.queued (x, id) hmem
    rw [hiff.mp hzero] at he
    cases he

lemma driftAfter_of_unlinkEmpty {op : Op} (h : op.UnlinkEmpty s) :
    op.driftAfter s (fun _ _ => 0) = fun _ _ => 0 := by
  cases op with
  | unlinkAllFromChannel x attached now =>
    funext y d
    rw [Op.driftAfter, unlinkDrift]
    split
    · next hy =>
        subst hy
        rw [h d]
        rfl
    · rfl
  | _ => rfl

lemma unlinkEmpty_of_consistent {op : Op} (hinv : Inv s queued) (hinvt : Inv t queued')
    (hcount : Counted t (op.driftAfter s fun _ _ => 0))
    (hnum : ∀ x d, ((t.channels x).num d).toNat = t.attached x d) : op.UnlinkEmpty s := by
  cases op with
  | unlinkAllFromChannel x attached now =>
    intro d
    have hzero := (num_toNat_iff hinvt (hcount x d)).mp (hnum x d)
    rw [Op.driftAfter, unlinkDrift, if_pos rfl] at hzero
    have htoNat := congrArg UInt32.toNat hzero
    rwa [toNat_attached hinv] at htoNat
  | _ => trivial

lemma init_keeps : Inv State.init ∅ ∧ Counted State.init fun _ _ => 0 := by
  refine ⟨⟨.empty, ?_, ?_, ?_, ?_, ?_, ?_⟩, fun x d => ?_⟩
  · intro c circ d side h
    cases h
  · intro c circ d side x h
    cases h
  · intro k e c h
    cases h
  · intro c d k h
    cases h
  · intro c d d' k h
    cases h
  · intro k h
    cases h
  · have hattached : State.init.attached x d = 0 := rfl
    rw [hattached]
    cases d <;> simp [State.init, Channel.num]

/-- **The map of channels and circuit IDs.**  A run whose callers check what they have to goes
through, and the map, the cache, the counters and the placeholders are right all along it exactly
when no channel is unlinked that has circuits. -/
theorem consistent_iff_unlinkEmpty (alloc : Allocator (Key × Entry)) (ops : List Op)
    (hallowed : Meets (notedStep alloc) (fun w op => op.Allowed w.state) ⟨State.init, ∅⟩ ops) :
    (∃ w, Reaches (notedStep alloc) ⟨State.init, ∅⟩ ops w) ∧
    ((∀ pre, pre <+: ops → ∀ w, Reaches (notedStep alloc) ⟨State.init, ∅⟩ pre w → Consistent w) ↔
      Meets (notedStep alloc) (fun w op => op.UnlinkEmpty w.state) ⟨State.init, ∅⟩ ops) := by
  obtain ⟨hinit, hcount⟩ := init_keeps
  have hstep : ∀ (w : Noted) op drift, Inv w.state w.queued → Counted w.state drift →
      op.Allowed w.state → ∃ v, notedStep alloc w op = some v ∧ Inv v.state v.queued ∧
        Counted v.state (op.driftAfter w.state drift) := by
    intro w op drift hinv hcount hop
    obtain ⟨t, ht, hinvt, hcountt⟩ := step_keeps alloc hinv hcount op hop
    exact ⟨⟨t, op.queue w.queued⟩, by rw [notedStep, ht, map_some], hinvt, hcountt⟩
  constructor
  · obtain ⟨w, hw, -⟩ := exists_reaches_of_meets
      (I := fun w : Noted => Inv w.state w.queued ∧ ∃ drift, Counted w.state drift)
      (fun w op ⟨hinv, drift, hcount⟩ hop => by
        obtain ⟨v, hv, hinvv, hcountv⟩ := hstep w op drift hinv hcount hop
        exact ⟨v, hv, hinvv, _, hcountv⟩) ⟨hinit, _, hcount⟩ hallowed
    exact ⟨w, hw⟩
  · rw [← and_iff_left (a := ∀ pre, _) hallowed,
      ← and_iff_right (b := Meets (notedStep alloc) (fun w op => op.UnlinkEmpty w.state) _ _)
        hallowed,
      ← meets_and]
    refine forall_reached_and_meets_iff
      (I := fun w : Noted => Inv w.state w.queued ∧ Counted w.state fun _ _ => 0)
      (fun w h => h.1.consistent h.2) ?_ ?_ ⟨hinit, hcount⟩
    · rintro w op ⟨hinv, hcount⟩
      constructor
      · rintro ⟨hall, hop⟩
        obtain ⟨v, hv, hinvv, hcountv⟩ := hstep w op _ hinv hcount hop
        exact ⟨hop, unlinkEmpty_of_consistent hinv hinvv hcountv (hall v hv).num⟩
      · rintro ⟨hop, hempty⟩
        obtain ⟨v, hv, hinvv, hcountv⟩ := hstep w op _ hinv hcount hop
        refine ⟨fun t ht => ?_, hop⟩
        rw [hv] at ht
        rw [driftAfter_of_unlinkEmpty hempty] at hcountv
        exact some.inj ht ▸ hinvv.consistent hcountv
    · rintro w op v ⟨hinv, hcount⟩ ⟨hop, hempty⟩ hv
      obtain ⟨v', hv', hinvv, hcountv⟩ := hstep w op _ hinv hcount hop
      rw [hv] at hv'
      rw [driftAfter_of_unlinkEmpty hempty] at hcountv
      exact some.inj hv' ▸ ⟨hinvv, hcountv⟩

/-- A circuit on channel 0 under the ID 1, and the end of the channel. -/
def unlinkRun : List Op :=
  [.newCircuit 0 true, .setCircidChan .inward 0 1 (some 0) 0,
    .unlinkAllFromChannel 0 [(1, .inward)] 0]

/-- **The counter wraps** when the last circuit of a channel is unlinked. -/
theorem consistent_fails :
    ¬ ∀ (alloc : Allocator (Key × Entry)) (ops : List Op),
      Meets (notedStep alloc) (fun w op => op.Allowed w.state) ⟨State.init, ∅⟩ ops →
      ∀ w, Reaches (notedStep alloc) ⟨State.init, ∅⟩ ops w → Consistent w := by
  intro h
  have hrun : (unlinkRun.foldlM (notedStep (.next _)) ⟨State.init, ∅⟩).map (fun w =>
      ((w.state.channels 0).numPCircuits, w.state.attached 0 .inward)) =
      some (4294967295, 0) := by
    decide
  obtain ⟨w, hw, hnum⟩ := map_eq_some_iff.mp hrun
  obtain ⟨hnum, hattached⟩ := Prod.mk.inj hnum
  have hconsistent := (h (.next _) unlinkRun (by decide) w hw).num 0 .inward
  rw [hattached, Channel.num, hnum] at hconsistent
  exact absurd hconsistent (by decide)

/-- A circuit that leaves its channel while its DESTROY is waiting. -/
def placeholderRun : List Op :=
  [.newCircuit 0 true, .setCircidChan .inward 0 1 (some 0) 0, .noteDestroyPending 0 1 0,
    .setCircidChan .inward 0 0 none 0]

/-- **Nothing is wrong with it**, as no channel is unlinked. -/
theorem consistent_placeholderRun :
    Meets (notedStep (.next _)) (fun w op => op.Allowed w.state) ⟨State.init, ∅⟩ placeholderRun ∧
      ∃ w, Reaches (notedStep (.next _)) ⟨State.init, ∅⟩ placeholderRun w := by
  have hallowed : Meets (notedStep (.next _)) (fun w op => op.Allowed w.state)
      ⟨State.init, ∅⟩ placeholderRun := by
    decide
  exact ⟨hallowed, (consistent_iff_unlinkEmpty (.next _) placeholderRun hallowed).1⟩

end Ator.Circuitlist
