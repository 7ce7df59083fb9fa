import AtorProtocol.Nodelist.RouterlistMaps

/-!
# The invariant of the router list

* `AssertOk` — `routerlist_assert_ok`.
* `Sound` — the lists and the maps are as they are to be.
* `Inv` — the same, with the routers that are in no list.
-/

namespace Ator.Nodelist.Routerlist

open List Option

variable {text : Digest → SignedText} {alloc : Allocator Desc} {rl t : Routerlist}
  {p ri sd riOld riNew i : ℕ} {d e dOld dNew : Digest} {purpose purposeOld : RouterPurpose}
  {cachesOld makeOld : Bool}

structure AssertOk (text : Digest → SignedText) (rl : Routerlist) : Prop where
  routers : ∀ (i : ℕ) r, rl.routers[i]? = some r → ∃ d, rl.digestAt r = some d ∧
    rl.identityMap.get (text d).identityDigest = some r ∧ rl.descDigestMap.get d = some r ∧
    rl.routerlistIndex r = i
  oldRouters : ∀ (i : ℕ) sd, rl.oldRouters[i]? = some sd → ∃ d, rl.digestAt sd = some d ∧
    rl.identityMap.get (text d).identityDigest ≠ some sd ∧ rl.descDigestMap.get d = some sd ∧
    rl.routerlistIndex sd = i
  identityMap : ∀ id r, rl.identityMap.get id = some r →
    ∃ d, rl.digestAt r = some d ∧ (text d).identityDigest = id
  descDigestMap : ∀ d sd, rl.descDigestMap.get d = some sd → rl.digestAt sd = some d
  descByEidMap : ∀ e sd, rl.descByEidMap.get e = some sd →
    e ≠ 0 ∧ ∃ d, rl.digestAt sd = some d ∧ (text d).extraInfoDigest = e
  extraInfoMap : ∀ d ei, rl.extraInfoMap.get d = some ei → ei.signedDescriptorDigest = d ∧
    ∀ sd, rl.descByEidMap.get ei.signedDescriptorDigest = some sd →
      ∃ d', rl.digestAt sd = some d' ∧ (text d').extraInfoDigest = ei.signedDescriptorDigest

/-- The lists and the maps are as they are to be. -/
structure Sound (text : Digest → SignedText) (rl : Routerlist) : Prop where
  assertOk : AssertOk text rl
  identity : ∀ id p, rl.identityMap.get id = some p ↔
    p ∈ rl.routers ∧ ∃ d, rl.digestAt p = some d ∧ (text d).identityDigest = id
  digest : ∀ d p, rl.descDigestMap.get d = some p ↔
    (p ∈ rl.routers ∨ p ∈ rl.oldRouters) ∧ rl.digestAt p = some d
  eid_listed : ∀ e p, rl.descByEidMap.get e = some p → p ∈ rl.routers ∨ p ∈ rl.oldRouters
  eid_finds : ∀ e, FindsAt text rl e

/-- The lists and the maps, and the routers that callers hold. -/
structure Inv (text : Digest → SignedText) (rl : Routerlist) : Prop where
  core : Core text none rl
  finds : ∀ e, FindsAt text rl e

lemma Core.eid' (h : Core text none rl) (e : Digest) (p : ℕ)
    (hget : rl.descByEidMap.get e = some p) : (p ∈ rl.routers ∨ p ∈ rl.oldRouters) ∧
      ∃ d, rl.digestAt p = some d ∧ (text d).extraInfoDigest = e :=
  h.eid e p (by simp) hget

lemma Core.digest' (h : Core text none rl) (d : Digest) (p : ℕ) :
    rl.descDigestMap.get d = some p ↔
      (p ∈ rl.routers ∨ p ∈ rl.oldRouters) ∧ rl.digestAt p = some d :=
  h.digest d p (by simp)

lemma Core.assertOk (h : Core text none rl) : AssertOk text rl where
  routers i r hr := by
    have hmem := mem_of_getElem? hr
    obtain ⟨d, hd⟩ := isSome_iff_exists.mp (h.live r hmem).1
    exact ⟨d, hd, (h.identity _ _).mpr ⟨hmem, d, hd, rfl⟩, (h.digest' d r).mpr ⟨.inl hmem, hd⟩,
      h.routers_indexed i r hr⟩
  oldRouters i sd hsd := by
    have hmem := mem_of_getElem? hsd
    obtain ⟨d, hd⟩ := isSome_iff_exists.mp (h.old sd hmem).1
    refine ⟨d, hd, fun hid => ?_, (h.digest' d sd).mpr ⟨.inr hmem, hd⟩, h.old_indexed i sd hsd⟩
    exact h.notMem_routers_of_old hmem ((h.identity _ _).mp hid).1
  identityMap id r hr := ((h.identity id r).mp hr).2
  descDigestMap d sd hsd := ((h.digest' d sd).mp hsd).2
  descByEidMap e sd hsd := by
    refine ⟨?_, (h.eid' e sd hsd).2⟩
    rintro rfl
    rw [h.eid_zero] at hsd
    cases hsd
  extraInfoMap d ei hei := ⟨h.extra d ei hei, fun sd hsd => (h.eid' _ sd hsd).2⟩

lemma Inv.sound (h : Inv text rl) : Sound text rl where
  assertOk := h.core.assertOk
  identity := h.core.identity
  digest := h.core.digest'
  eid_listed e p hp := (h.core.eid' e p hp).1
  eid_finds := h.finds

/-! ## What the operations compute -/

lemma digestAt_malloc : rl.digestAt (alloc.malloc rl.descs) = none := by
  rw [digestAt, alloc.get_malloc, map_none]

lemma routerlistInsert_new (hri : Held rl ri d purpose)
    (hid : rl.identityMap.get (text d).identityDigest = none)
    (hnew : rl.descDigestMap.get d = none) :
    rl.routerlistInsert text ri = some (rl.inserted text ri d) := by
  simp [routerlistInsert, hri.get, hri.index, hid, hnew, noteEid, setIndex,
    nodelistSetRouterinfo, inserted]

lemma routerlistInsert_known (hri : Held rl ri d purpose)
    (hid : rl.identityMap.get (text d).identityDigest = none)
    (hsd : rl.descDigestMap.get d = some sd) (hget : rl.oldRouters[i]? = some sd)
    (hindex : rl.routerlistIndex sd = i) (hd : rl.digestAt sd = some d) :
    rl.routerlistInsert text ri = some ((rl.superseded text sd i d).inserted text ri d) := by
  obtain ⟨r, hr⟩ : ∃ r, rl.descs.get sd = some ⟨d, r⟩ := by
    obtain ⟨⟨d', r⟩, hdesc, rfl⟩ := map_eq_some_iff.mp hd
    exact ⟨r, hdesc⟩
  obtain ⟨hi, helt⟩ := List.getElem?_eq_some_iff.mp hget
  simp [routerlistInsert, hri.get, hri.index, hid, hsd, dropSuperseded, hr, hindex, delOldRouter,
    hi, noteEid, setIndex, nodelistSetRouterinfo, inserted, superseded, unlinkedOld,
    Routerlist.free]

lemma routerlistInsertOld_eq (hri : Held rl ri d purpose) :
    rl.routerlistInsertOld text alloc cachesOld ri = some
      (if cachesOld = true ∧ purpose = .general ∧ rl.descDigestMap.get d = none then
        rl.filedAway text (alloc.malloc rl.descs) ri d
      else rl.free ri) := by
  by_cases hkeep : cachesOld = true ∧ purpose = .general ∧ rl.descDigestMap.get d = none
  · obtain ⟨hcaches, rfl, hnone⟩ := hkeep
    simp [routerlistInsertOld, hri.get, hri.index, hcaches, hnone, signedDescriptorFromRouterinfo,
      addOldRouter, setIndex, noteEid, Routerlist.free, filedAway]
  · simp [routerlistInsertOld, hri.get, hri.index, hkeep]

lemma routerlistRemove_eq (h : Core text none rl) (hget : rl.routers[i]? = some ri)
    (hd : rl.descs.get ri = some ⟨d, some purpose⟩) :
    rl.routerlistRemove text alloc cachesOld ri makeOld = some
      (if makeOld = true ∧ cachesOld = true ∧ purpose = .general then
        (rl.unlinked text ri i d).filedAway text (alloc.malloc rl.descs) ri d
      else (rl.unlinked text ri i d).dropped text ri d True) := by
  obtain ⟨hi, helt⟩ := List.getElem?_eq_some_iff.mp hget
  have hindex := h.routers_indexed i ri hget
  have hri : ri ∈ rl.routers := mem_of_getElem? hget
  have hdigest : rl.digestAt ri = some d := by rw [digestAt, hd, map_some]
  have hid := (h.identity (text d).identityDigest ri).mpr ⟨hri, d, hdigest, rfl⟩
  have hnode := h.node (text d).identityDigest
  rw [hid] at hnode
  have hmap := (h.digest d ri (by simp)).mpr ⟨.inl hri, hdigest⟩
  by_cases hkeep : makeOld = true ∧ cachesOld = true ∧ purpose = .general
  · obtain ⟨hmake, hcaches, rfl⟩ := hkeep
    simp [routerlistRemove, hd, hindex, hi, helt, nodelistRemoveRouterinfo, hnode, delRouter,
      setIndex, hid, hmake, hcaches, signedDescriptorFromRouterinfo, addOldRouter, noteEid,
      Routerlist.free, filedAway, unlinked]
  · simp [routerlistRemove, hd, hindex, hi, helt, nodelistRemoveRouterinfo, hnode, delRouter,
      setIndex, hid, hkeep, hmap, forgetEid, Routerlist.free, dropped, unlinked]

lemma routerlistRemoveOld_eq (h : Core text none rl) (hget : rl.oldRouters[i]? = some sd)
    (hd : rl.digestAt sd = some d) {idx : ℤ} (hidx : idx = -1 ∨ idx = i) :
    rl.routerlistRemoveOld text sd idx = some ((rl.unlinkedOld sd i).dropped text sd d True) := by
  obtain ⟨r, hr⟩ : ∃ r, rl.descs.get sd = some ⟨d, r⟩ := by
    obtain ⟨⟨d', r⟩, hdesc, rfl⟩ := map_eq_some_iff.mp hd
    exact ⟨r, hdesc⟩
  obtain ⟨hi, helt⟩ := List.getElem?_eq_some_iff.mp hget
  have hindex := h.old_indexed i sd hget
  have hsd : sd ∈ rl.oldRouters := mem_of_getElem? hget
  have hmap := (h.digest d sd (by simp)).mpr ⟨.inr hsd, hd⟩
  have hplace : (if idx = -1 then (i : ℤ) else idx) = i := by
    rcases hidx with rfl | rfl
    · exact if_pos rfl
    · exact if_neg (by omega)
  simp [routerlistRemoveOld, hr, hindex, hplace, hi, helt, delOldRouter, setIndex, hmap, forgetEid,
    Routerlist.free, dropped, unlinkedOld]

lemma routerlistReplace_eq (h : Core text none rl) (hget : rl.routers[i]? = some riOld)
    (hOld : rl.descs.get riOld = some ⟨dOld, some purposeOld⟩) (hNew : Held rl riNew dNew purpose)
    (hid : (text dOld).identityDigest = (text dNew).identityDigest) :
    rl.routerlistReplace text alloc cachesOld riOld riNew = some
      (if dOld = dNew then (rl.replaced text riOld riNew i dNew).free riOld
      else if cachesOld = true ∧ purposeOld = .general then
        (rl.replaced text riOld riNew i dNew).filedAway text (alloc.malloc rl.descs) riOld dOld
      else
        (rl.replaced text riOld riNew i dNew).dropped text riOld dOld
          ((text dOld).extraInfoDigest ≠ (text dNew).extraInfoDigest)) := by
  obtain ⟨hi, helt⟩ := List.getElem?_eq_some_iff.mp hget
  have hindex := h.routers_indexed i riOld hget
  have hri : riOld ∈ rl.routers := mem_of_getElem? hget
  have hdigest : rl.digestAt riOld = some dOld := by rw [digestAt, hOld, map_some]
  have hidOld := (h.identity (text dNew).identityDigest riOld).mpr ⟨hri, dOld, hdigest, hid⟩
  have hnode := h.node (text dNew).identityDigest
  rw [hidOld] at hnode
  have hne : riOld ≠ riNew := ne_of_mem_of_not_mem hri hNew.routers
  have hgone : riOld ∉ rl.routers.set i riNew := by
    rw [h.routers_indexed.mem_set hget]
    simp [hne]
  by_cases hsame : dOld = dNew
  · simp [routerlistReplace, hOld, hNew.get, hne, hNew.index, hindex, hi, helt,
      nodelistSetRouterinfo, hnode, setIndex, hgone, hidOld, noteEid, hsame, replaced,
      Routerlist.free]
  · by_cases hkeep : cachesOld = true ∧ purposeOld = .general
    · obtain ⟨hcaches, rfl⟩ := hkeep
      simp [routerlistReplace, hOld, hNew.get, hne, hNew.index, hindex, hi, helt,
        nodelistSetRouterinfo, hnode, setIndex, hgone, hid, hidOld, noteEid, hsame, replaced,
        hcaches, signedDescriptorFromRouterinfo, addOldRouter, Routerlist.free, filedAway]
    · simp [routerlistReplace, hOld, hNew.get, hne, hNew.index, hindex, hi, helt,
        nodelistSetRouterinfo, hnode, setIndex, hgone, hid, hidOld, noteEid, hsame, replaced,
        hkeep, forgetEid, Routerlist.free, dropped]

/-! ## What the operations keep -/

lemma Core.digestAt_ne (h : Core text none rl) (hnone : rl.descDigestMap.get d = none) :
    ∀ p, (p ∈ rl.routers ∨ p ∈ rl.oldRouters) → rl.digestAt p ≠ some d := by
  intro p hp hd
  have hget := (h.digest' d p).mpr ⟨hp, hd⟩
  rw [hnone] at hget
  cases hget

lemma exists_routerinfo_of_isRouter (hsome : (rl.digestAt p).isSome) (hrouter : rl.isRouter p) :
    ∃ d purpose, rl.descs.get p = some ⟨d, some purpose⟩ := by
  obtain ⟨d, hd⟩ := isSome_iff_exists.mp hsome
  obtain ⟨⟨d', r⟩, hdesc, rfl⟩ := map_eq_some_iff.mp hd
  rw [isRouter, hdesc] at hrouter
  obtain ⟨purpose, hpurpose⟩ := isSome_iff_exists.mp hrouter
  exact ⟨d', purpose, by rw [hdesc]; exact congrArg _ (congrArg _ hpurpose)⟩

lemma Core.exists_routerinfo (h : Core text none rl) (hri : ri ∈ rl.routers) :
    ∃ d purpose, rl.descs.get ri = some ⟨d, some purpose⟩ :=
  exists_routerinfo_of_isRouter (h.live ri hri).1 (h.live ri hri).2

lemma Core.weaken (h : Core text none rl) : Core text (some d) rl :=
  { h with
    digest := fun d' p _ => h.digest' d' p
    eid := fun e p _ => h.eid' e p }

lemma Inv.routerlistInsert (h : Inv text rl) (hri : Held rl ri d purpose)
    (hid : rl.identityMap.get (text d).identityDigest = none) :
    ∃ t, rl.routerlistInsert text ri = some t ∧ Inv text t := by
  rcases hsd : rl.descDigestMap.get d with _ | sd
  · exact ⟨_, routerlistInsert_new hri hid hsd,
      ⟨h.core.weaken.inserted hri hid (h.core.digestAt_ne hsd),
        finds_inserted hri fun e _ => h.finds e⟩⟩
  · obtain ⟨hlisted, hd⟩ := (h.core.digest' d sd).mp hsd
    have hold : sd ∈ rl.oldRouters := by
      refine hlisted.resolve_left fun hlive => ?_
      have hget := (h.core.identity (text d).identityDigest sd).mpr ⟨hlive, d, hd, rfl⟩
      rw [hid] at hget
      cases hget
    obtain ⟨i, hindex, hi, hget⟩ := h.core.old_indexed.getElem?_index hold
    have hcore := h.core.superseded hget hd
    have hmem : ∀ p, p ∈ (rl.superseded text sd i d).oldRouters ↔ p ∈ rl.oldRouters ∧ p ≠ sd :=
      fun p => h.core.old_indexed.mem_swapDel hget
    have hne : ri ≠ sd := by
      rintro rfl
      exact hri.old hold
    have hheld : Held (rl.superseded text sd i d) ri d purpose := by
      constructor
      · exact hri.parsed
      · exact hri.routers
      · exact fun hmem' => hri.old ((hmem ri).mp hmem').1
      · exact (h.core.old_indexed.reindex_del_of_notMem hget hri.old (-1)).trans hri.index
      · exact (AssocMap.get_erase_of_ne hne).trans hri.get
    have hnew : ∀ p, (p ∈ (rl.superseded text sd i d).routers ∨
        p ∈ (rl.superseded text sd i d).oldRouters) →
        (rl.superseded text sd i d).digestAt p ≠ some d := by
      intro p hp hpd
      have hdigest : (rl.superseded text sd i d).digestAt p = if p = sd then none
        else rl.digestAt p := digestAt_free
      rw [hdigest] at hpd
      split at hpd
      · cases hpd
      · next hps =>
          have hp' : p ∈ rl.routers ∨ p ∈ rl.oldRouters := hp.imp id fun hp => ((hmem p).mp hp).1
          exact hps (h.core.unique p sd hp' (.inr hold) (hpd.trans hd.symm))
    refine ⟨_, routerlistInsert_known hri hid hsd hget hindex hd,
      ⟨hcore.inserted hheld hid hnew, finds_inserted hheld fun e he => ?_⟩⟩
    refine (findsAt_congr (fun p => carries_superseded h.core hold) ?_).mpr (h.finds e)
    exact AssocMap.get_erase_of_ne he

/-- The descriptor that `routerlist_insert_old` keeps hides no live router. -/
def InsertsOldUnshared (text : Digest → SignedText) (rl : Routerlist) (cachesOld : Bool)
    (purpose : RouterPurpose) (d : Digest) : Prop :=
  cachesOld = true ∧ purpose = .general ∧ rl.descDigestMap.get d = none →
    (text d).extraInfoDigest ≠ 0 → ¬ ∃! p, Carries text rl (text d).extraInfoDigest p

lemma Inv.routerlistInsertOld (h : Inv text rl) (alloc : Allocator Desc) (cachesOld : Bool)
    (hri : Held rl ri d purpose) :
    ∃ t, rl.routerlistInsertOld text alloc cachesOld ri = some t ∧ Core text none t ∧
      ((∀ e, FindsAt text t e) ↔ InsertsOldUnshared text rl cachesOld purpose d) := by
  refine ⟨_, routerlistInsertOld_eq hri, ?_⟩
  rw [InsertsOldUnshared]
  split
  · next hkeep =>
      have hsd : rl.digestAt (alloc.malloc rl.descs) = none := digestAt_malloc
      refine ⟨h.core.weaken.filedAway (alloc.get_malloc _) hri (h.core.digestAt_ne hkeep.2.2), ?_⟩
      rw [finds_filedAway hsd hri.routers h.core.weaken fun e _ => h.finds e]
      exact ⟨fun hcond _ => hcond, fun hcond => hcond hkeep⟩
  · next hdrop =>
      refine ⟨h.core.free hri.parsed hri.routers hri.old, iff_of_true (fun e => ?_)
        fun hkeep => absurd hkeep hdrop⟩
      exact (findsAt_congr (fun p => carries_free hri.routers) rfl).mpr (h.finds e)

/-- `routerlist_remove` leaves no live router alone with the extra-info digest. -/
def RemovesUnshared (text : Digest → SignedText) (rl : Routerlist) (ri : ℕ) : Prop :=
  ∀ d, rl.digestAt ri = some d → (text d).extraInfoDigest ≠ 0 →
    ¬ ∃! p, Carries text rl (text d).extraInfoDigest p ∧ p ≠ ri

lemma Inv.routerlistRemove (h : Inv text rl) (alloc : Allocator Desc) (cachesOld makeOld : Bool)
    (hri : ri ∈ rl.routers) :
    ∃ t, rl.routerlistRemove text alloc cachesOld ri makeOld = some t ∧ Core text none t ∧
      ((∀ e, FindsAt text t e) ↔ RemovesUnshared text rl ri) := by
  obtain ⟨i, hindex, hi, hget⟩ := h.core.routers_indexed.getElem?_index hri
  obtain ⟨d, purpose, hdesc⟩ := h.core.exists_routerinfo hri
  have hd : rl.digestAt ri = some d := by rw [digestAt, hdesc, map_some]
  have hcore := h.core.unlinked hget hd
  have hmem : ∀ p, p ∈ (rl.unlinked text ri i d).routers ↔ p ∈ rl.routers ∧ p ≠ ri :=
    fun p => h.core.routers_indexed.mem_swapDel hget
  have hgone : ri ∉ (rl.unlinked text ri i d).routers := fun hmem' => ((hmem ri).mp hmem').2 rfl
  have hnotOld : ri ∉ rl.oldRouters := fun hold => h.core.notMem_routers_of_old hold hri
  have hparsed : ri ∉ rl.parsed := fun hmem' => (h.core.parsed ri hmem').1 hri
  have hother : ∀ e, e ≠ (text d).extraInfoDigest → FindsAt text (rl.unlinked text ri i d) e := by
    intro e he
    have hcongr : FindsAt text (rl.unlinked text ri i d) e ↔ FindsAt text rl e := by
      refine findsAt_congr (fun p => ?_) rfl
      rw [carries_unlinked h.core hget]
      refine and_iff_left_of_imp ?_
      rintro ⟨-, d', hd', rfl⟩ rfl
      rw [hd] at hd'
      exact he (by rw [some.inj hd'])
    exact hcongr.mpr (h.finds e)
  have hnew : ∀ p, (p ∈ (rl.unlinked text ri i d).routers ∨
      p ∈ (rl.unlinked text ri i d).oldRouters) →
      (rl.unlinked text ri i d).digestAt p ≠ some d := by
    intro p hp hpd
    have hp' : p ∈ rl.routers ∨ p ∈ rl.oldRouters := hp.imp_left fun hp => ((hmem p).mp hp).1
    obtain rfl := h.core.unique p ri hp' (.inl hri) (hpd.trans hd.symm)
    exact hp.elim hgone hnotOld
  have hcond : ((text d).extraInfoDigest ≠ 0 → ¬ ∃! p, Carries text (rl.unlinked text ri i d)
      (text d).extraInfoDigest p) ↔ RemovesUnshared text rl ri := by
    simp only [carries_unlinked h.core hget, RemovesUnshared, hd, some.injEq, forall_eq']
  refine ⟨_, routerlistRemove_eq h.core hget hdesc, ?_⟩
  rw [← hcond]
  split
  · have hheld : Held (rl.unlinked text ri i d) ri d purpose := by
      refine ⟨hparsed, hgone, hnotOld, ?_, hdesc⟩
      exact (Indexed.reindex_of_notMem hgone).trans (Function.update_self _ _ _)
    have hsd : (rl.unlinked text ri i d).digestAt (alloc.malloc rl.descs) = none := digestAt_malloc
    exact ⟨hcore.filedAway (alloc.get_malloc _) hheld hnew, finds_filedAway hsd hgone hcore hother⟩
  · exact ⟨hcore.dropped hparsed hgone hnotOld hnew, finds_dropped hgone hcore.eid_zero hother⟩

/-- `routerlist_remove_old` leaves no live router alone with the extra-info digest. -/
def RemovesOldUnshared (text : Digest → SignedText) (rl : Routerlist) (sd : ℕ) : Prop :=
  ∀ d, rl.digestAt sd = some d → (text d).extraInfoDigest ≠ 0 →
    ¬ ∃! p, Carries text rl (text d).extraInfoDigest p

lemma Inv.routerlistRemoveOld (h : Inv text rl) (hget : rl.oldRouters[i]? = some sd) {idx : ℤ}
    (hidx : idx = -1 ∨ idx = i) :
    ∃ t, rl.routerlistRemoveOld text sd idx = some t ∧ Core text none t ∧
      ((∀ e, FindsAt text t e) ↔ RemovesOldUnshared text rl sd) := by
  have hold := mem_of_getElem? hget
  obtain ⟨d, hd⟩ := isSome_iff_exists.mp (h.core.old sd hold).1
  have hcore := h.core.unlinkedOld hget hd
  have hmem : ∀ p, p ∈ (rl.unlinkedOld sd i).oldRouters ↔ p ∈ rl.oldRouters ∧ p ≠ sd :=
    fun p => h.core.old_indexed.mem_swapDel hget
  have hgone : sd ∉ (rl.unlinkedOld sd i).oldRouters := fun hmem' => ((hmem sd).mp hmem').2 rfl
  have hrouters : sd ∉ rl.routers := h.core.notMem_routers_of_old hold
  have hparsed : sd ∉ rl.parsed := fun hmem' => (h.core.parsed sd hmem').2.1 hold
  have hnew : ∀ p, (p ∈ (rl.unlinkedOld sd i).routers ∨ p ∈ (rl.unlinkedOld sd i).oldRouters) →
      (rl.unlinkedOld sd i).digestAt p ≠ some d := by
    intro p hp hpd
    have hp' : p ∈ rl.routers ∨ p ∈ rl.oldRouters := hp.imp_right fun hp => ((hmem p).mp hp).1
    obtain rfl := h.core.unique p sd hp' (.inr hold) (hpd.trans hd.symm)
    exact hp.elim hrouters hgone
  refine ⟨_, routerlistRemoveOld_eq h.core hget hd hidx,
    hcore.dropped hparsed hrouters hgone hnew, ?_⟩
  have hgoneRouters : sd ∉ (rl.unlinkedOld sd i).routers := hrouters
  rw [finds_dropped hgoneRouters hcore.eid_zero fun e _ => h.finds e]
  simp only [RemovesOldUnshared, hd, some.injEq, forall_eq']
  exact Iff.rfl

/-- `routerlist_replace` puts no descriptor on the list that an old one has the digest of, and
leaves no live router alone with the extra-info digest of the router that goes. -/
def ReplacesUnshared (text : Digest → SignedText) (rl : Routerlist) (riOld riNew : ℕ)
    (dNew : Digest) : Prop :=
  (∀ sd ∈ rl.oldRouters, rl.digestAt sd ≠ some dNew) ∧
    ∀ dOld, rl.digestAt riOld = some dOld → dOld ≠ dNew → (text dOld).extraInfoDigest ≠ 0 →
      ¬ ∃! p, Carries text rl (text dOld).extraInfoDigest p ∧ p ≠ riOld ∨
        p = riNew ∧ (text dNew).extraInfoDigest = (text dOld).extraInfoDigest

lemma carries_replaced (h : Core text none rl) (hget : rl.routers[i]? = some riOld)
    (hNew : Held rl riNew dNew purpose) :
    Carries text (rl.replaced text riOld riNew i dNew) e p ↔
      Carries text rl e p ∧ p ≠ riOld ∨ p = riNew ∧ (text dNew).extraInfoDigest = e := by
  have hdigest : (rl.replaced text riOld riNew i dNew).digestAt p = rl.digestAt p := rfl
  have hmem : p ∈ (rl.replaced text riOld riNew i dNew).routers
      ↔ p = riNew ∨ p ∈ rl.routers ∧ p ≠ riOld := h.routers_indexed.mem_set hget
  have hself := hNew.digestAt
  grind [Carries]

section Replace

lemma replaced_listed (alloc : Allocator Desc) (dOld : Digest) (dropsExtra : Prop)
    [Decidable dropsExtra] (h : Core text none rl) (hget : rl.routers[i]? = some riOld)
    (hNew : Held rl riNew dNew purpose)
    (ht : t = (rl.replaced text riOld riNew i dNew).free riOld ∨
      t = (rl.replaced text riOld riNew i dNew).filedAway text (alloc.malloc rl.descs) riOld dOld ∨
      t = (rl.replaced text riOld riNew i dNew).dropped text riOld dOld dropsExtra) :
    (riNew ∈ t.routers ∧ t.digestAt riNew = some dNew) ∧
      ∀ sd ∈ rl.oldRouters, sd ∈ t.oldRouters ∧ t.digestAt sd = rl.digestAt sd := by
  have hri := mem_of_getElem? hget
  have hne : riNew ≠ riOld := (ne_of_mem_of_not_mem hri hNew.routers).symm
  have hmem : riNew ∈ (rl.replaced text riOld riNew i dNew).routers :=
    (h.routers_indexed.mem_set hget).mpr (.inl rfl)
  have hmalloc : ∀ p, (rl.digestAt p).isSome → p ≠ alloc.malloc rl.descs := by
    rintro p hp rfl
    rw [digestAt_malloc] at hp
    cases hp
  have hself := hNew.digestAt
  have hneOld : ∀ sd ∈ rl.oldRouters, sd ≠ riOld := by
    rintro sd hsd rfl
    exact h.notMem_routers_of_old hsd hri
  have hkeeps : ∀ p, (rl.digestAt p).isSome → p ≠ riOld → t.digestAt p = rl.digestAt p := by
    intro p hp hpne
    rcases ht with rfl | rfl | rfl
    · rw [digestAt_free, if_neg hpne]
      rfl
    · rw [digestAt_filedAway, if_neg hpne, if_neg (hmalloc p hp)]
      rfl
    · exact digestAt_free.trans (if_neg hpne)
  refine ⟨⟨?_, ?_⟩, fun sd hsd => ⟨?_, hkeeps sd (h.old sd hsd).1 (hneOld sd hsd)⟩⟩
  · rcases ht with rfl | rfl | rfl
    · exact hmem
    · exact hmem
    · exact hmem
  · rw [hkeeps riNew (by rw [hself]; rfl) hne, hself]
  · rcases ht with rfl | rfl | rfl
    · exact hsd
    · exact mem_append_left _ hsd
    · exact hsd

lemma Sound.unique (h : Sound text rl) (hp : p ∈ rl.routers ∨ p ∈ rl.oldRouters)
    (hsd : sd ∈ rl.routers ∨ sd ∈ rl.oldRouters) (hd : rl.digestAt p = some d)
    (hd' : rl.digestAt sd = some d) : p = sd := by
  have hget := (h.digest d p).mpr ⟨hp, hd⟩
  rw [(h.digest d sd).mpr ⟨hsd, hd'⟩] at hget
  exact (some.inj hget).symm

lemma Core.strengthen (h : Core text (some d) rl) (hget : rl.descDigestMap.get d = some p)
    (hp : p ∈ rl.routers ∨ p ∈ rl.oldRouters) (hd : rl.digestAt p = some d)
    (heid : ∀ q, rl.descByEidMap.get (text d).extraInfoDigest = some q → q = p) :
    Core text none rl :=
  { h with
    digest := by
      intro d' q _
      by_cases hd' : d = d'
      · subst hd'
        rw [hget, some.injEq]
        constructor
        · rintro rfl
          exact ⟨hp, hd⟩
        · rintro ⟨hq, hdq⟩
          exact h.unique p q hp hq (hd.trans hdq.symm)
      · exact h.digest d' q (by simpa using hd')
    eid := by
      intro e q _ hq
      by_cases he : (text d).extraInfoDigest = e
      · subst he
        obtain rfl := heid q hq
        exact ⟨hp, d, hd, rfl⟩
      · exact h.eid_of_ne e q he hq }

lemma finds_replaced (h : Inv text rl) (hget : rl.routers[i]? = some riOld)
    (hd : rl.digestAt riOld = some dOld) (hNew : Held rl riNew dNew purpose)
    (he : e ≠ (text dOld).extraInfoDigest ∨ e = (text dNew).extraInfoDigest) :
    FindsAt text (rl.replaced text riOld riNew i dNew) e := by
  by_cases heNew : e = (text dNew).extraInfoDigest
  · intro hne
    have hfound : (rl.replaced text riOld riNew i dNew).descByEidMap.get e = some riNew := by
      rw [Routerlist.replaced, if_neg (heNew ▸ hne), heNew, AssocMap.get_set_self]
    exact findsAt_of_get hfound
      ((carries_replaced h.core hget hNew).mpr (.inr ⟨rfl, heNew.symm⟩)) hne
  · have heOld := he.resolve_right heNew
    refine (findsAt_congr (fun p => ?_) ?_).mpr (h.finds e)
    · rw [carries_replaced h.core hget hNew, or_iff_left fun hp => heNew hp.2.symm]
      refine and_iff_left_of_imp ?_
      rintro ⟨-, d', hd', rfl⟩ rfl
      rw [hd] at hd'
      exact heOld (by rw [some.inj hd'])
    · rw [Routerlist.replaced]
      split
      · rfl
      · exact AssocMap.get_set_of_ne heNew

lemma Inv.routerlistReplace (h : Inv text rl) (alloc : Allocator Desc) (cachesOld : Bool)
    (hri : riOld ∈ rl.routers)
    (hNew : Held rl riNew dNew purpose)
    (hid : ∀ dOld, rl.digestAt riOld = some dOld →
      (text dOld).identityDigest = (text dNew).identityDigest) :
    ∃ t, rl.routerlistReplace text alloc cachesOld riOld riNew = some t ∧
      (Sound text t → ReplacesUnshared text rl riOld riNew dNew) ∧
      (ReplacesUnshared text rl riOld riNew dNew → Inv text t) := by
  obtain ⟨i, hindex, hi, hget⟩ := h.core.routers_indexed.getElem?_index hri
  obtain ⟨dOld, purposeOld, hdesc⟩ := h.core.exists_routerinfo hri
  have hd : rl.digestAt riOld = some dOld := by rw [digestAt, hdesc, map_some]
  have hmem : ∀ p, p ∈ (rl.replaced text riOld riNew i dNew).routers
      ↔ p = riNew ∨ p ∈ rl.routers ∧ p ≠ riOld := fun p => h.core.routers_indexed.mem_set hget
  have hne : riOld ≠ riNew := ne_of_mem_of_not_mem hri hNew.routers
  have hgone : riOld ∉ (rl.replaced text riOld riNew i dNew).routers := by
    rw [hmem]
    simp [hne]
  have hparsed : riOld ∉ rl.parsed := fun hmem' => (h.core.parsed riOld hmem').1 hri
  have hnotOld : riOld ∉ rl.oldRouters := fun hold => h.core.notMem_routers_of_old hold hri
  have hcarries : ∀ e p, Carries text (rl.replaced text riOld riNew i dNew) e p ↔
      Carries text rl e p ∧ p ≠ riOld ∨ p = riNew ∧ (text dNew).extraInfoDigest = e :=
    fun e p => carries_replaced h.core hget hNew
  refine ⟨_, routerlistReplace_eq h.core hget hdesc hNew (hid dOld hd), ?_⟩
  generalize ht : (if dOld = dNew then (rl.replaced text riOld riNew i dNew).free riOld
      else if cachesOld = true ∧ purposeOld = .general then
        (rl.replaced text riOld riNew i dNew).filedAway text (alloc.malloc rl.descs) riOld dOld
      else
        (rl.replaced text riOld riNew i dNew).dropped text riOld dOld
          ((text dOld).extraInfoDigest ≠ (text dNew).extraInfoDigest)) = t
  have hcases : (∀ sd ∈ rl.oldRouters, rl.digestAt sd ≠ some dNew) → Core text none t ∧
      ((∀ e, FindsAt text t e) ↔ (dOld ≠ dNew → (text dOld).extraInfoDigest ≠ 0 →
        ¬ ∃! p, Carries text (rl.replaced text riOld riNew i dNew)
          (text dOld).extraInfoDigest p)) := by
    intro hfresh
    have hcore := h.core.replaced hget hd hNew (hid dOld hd) hfresh
    have hnotListed : dOld ≠ dNew → ∀ p, (p ∈ (rl.replaced text riOld riNew i dNew).routers ∨
        p ∈ (rl.replaced text riOld riNew i dNew).oldRouters) →
        (rl.replaced text riOld riNew i dNew).digestAt p ≠ some dOld := by
      intro hdiff p hp hpd
      rcases hp with hp | hp
      · rcases (hmem p).mp hp with rfl | ⟨hp, hpne⟩
        · exact hdiff (some.inj (hpd.symm.trans hNew.digestAt))
        · exact hpne (h.core.unique p riOld (.inl hp) (.inl hri) (hpd.trans hd.symm))
      · obtain rfl := h.core.unique p riOld (.inr hp) (.inl hri) (hpd.trans hd.symm)
        exact hnotOld hp
    have hother : ∀ e, e ≠ (text dOld).extraInfoDigest →
        FindsAt text (rl.replaced text riOld riNew i dNew) e :=
      fun e he => finds_replaced h hget hd hNew (.inl he)
    rw [← ht]
    split
    · next hsame =>
        subst hsame
        have hfull : Core text none (rl.replaced text riOld riNew i dOld) := by
          refine hcore.strengthen (p := riNew) AssocMap.get_set_self (.inl ((hmem riNew).mpr
            (.inl rfl))) hNew.digestAt fun q hq => ?_
          by_cases hzero : (text dOld).extraInfoDigest = 0
          · rw [hzero, hcore.eid_zero] at hq
            cases hq
          · rw [Routerlist.replaced, if_neg hzero, AssocMap.get_set_self] at hq
            exact (some.inj hq).symm
        refine ⟨hfull.free hparsed hgone hnotOld, iff_of_true (fun e => ?_)
          fun hdiff => absurd rfl hdiff⟩
        refine (findsAt_congr (fun p => carries_free hgone) rfl).mpr
          (finds_replaced h hget hd hNew ?_)
        by_cases he : e = (text dOld).extraInfoDigest
        · exact .inr he
        · exact .inl he
    · next hdiff =>
        simp only [ne_eq, hdiff, not_false_eq_true, true_imp_iff]
        split
        · have hheld : Held (rl.replaced text riOld riNew i dNew) riOld dOld purposeOld :=
            ⟨hparsed, hgone, hnotOld, (Function.update_of_ne hne _ _).trans
              (Function.update_self _ _ _), hdesc⟩
          have hmalloc : (rl.replaced text riOld riNew i dNew).digestAt (alloc.malloc rl.descs)
              = none := digestAt_malloc
          exact ⟨hcore.filedAway (alloc.get_malloc _) hheld (hnotListed hdiff),
            finds_filedAway hmalloc hgone hcore hother⟩
        · exact ⟨hcore.dropped hparsed hgone hnotOld (hnotListed hdiff),
            finds_dropped hgone hcore.eid_zero hother⟩
  have hfresh : Sound text t → ∀ sd ∈ rl.oldRouters, rl.digestAt sd ≠ some dNew := by
    intro hsound sd hsd hsdNew
    have hlists : (riNew ∈ t.routers ∧ t.digestAt riNew = some dNew) ∧
        ∀ sd ∈ rl.oldRouters, sd ∈ t.oldRouters ∧ t.digestAt sd = rl.digestAt sd := by
      have hlisted := fun t => replaced_listed (t := t) alloc dOld
        ((text dOld).extraInfoDigest ≠ (text dNew).extraInfoDigest) h.core hget hNew
      rw [← ht]
      split
      · exact hlisted _ (.inl rfl)
      · split
        · exact hlisted _ (.inr (.inl rfl))
        · exact hlisted _ (.inr (.inr rfl))
    obtain ⟨⟨hlive, hself⟩, hold⟩ := hlists
    obtain ⟨hsd', hdigest⟩ := hold sd hsd
    obtain rfl := hsound.unique (.inl hlive) (.inr hsd') hself (hdigest.trans hsdNew)
    exact hNew.old hsd
  have hshared : ReplacesUnshared text rl riOld riNew dNew ↔
      (∀ sd ∈ rl.oldRouters, rl.digestAt sd ≠ some dNew) ∧
        (dOld ≠ dNew → (text dOld).extraInfoDigest ≠ 0 →
          ¬ ∃! p, Carries text (rl.replaced text riOld riNew i dNew)
            (text dOld).extraInfoDigest p) := by
    simp only [ReplacesUnshared, hd, some.injEq, forall_eq', hcarries]
  rw [hshared]
  constructor
  · intro hsound
    exact ⟨hfresh hsound, (hcases (hfresh hsound)).2.mp hsound.eid_finds⟩
  · rintro ⟨hold, hcond⟩
    exact ⟨(hcases hold).1, (hcases hold).2.mpr hcond⟩

end Replace

end Ator.Nodelist.Routerlist
