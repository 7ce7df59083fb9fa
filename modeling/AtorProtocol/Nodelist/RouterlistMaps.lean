import AtorProtocol.Nodelist.Routerlist

/-!
# The lists and maps of the router list

What the parts of an operation do to the lists and the maps.

* `Core` — the lists and the maps agree, but for the entries of a descriptor that an operation is
  taking out.
* `inserted`, `filedAway`, `dropped`, `unlinked`, `unlinkedOld`, `superseded`, `replaced` — the
  states that the operations are made of, each with what it keeps.
* `FindsAt` — `desc_by_eid_map` finds a live router that is the only one with its extra-info digest.
-/

namespace Ator.Nodelist.Routerlist

open Function
open AssocMap (get_erase get_set get_set_of_ne get_set_self)

variable {text : Digest → SignedText} {rl t : Routerlist} {p ri sd : ℕ}
  {d e : Digest} {purpose : RouterPurpose}

/-- Whether the descriptor at an address is in a `routerinfo_t`. -/
def isRouter (rl : Routerlist) (p : ℕ) : Bool := ((rl.descs.get p).bind Desc.routerinfo).isSome

/-- The lists and the maps, but for what `desc_by_eid_map` has to find, and for the entries of a
descriptor `stale` that is being taken out. -/
structure Core (text : Digest → SignedText) (stale : Option Digest) (rl : Routerlist) : Prop where
  parsed_nodup : rl.parsed.Nodup
  parsed : ∀ p ∈ rl.parsed, p ∉ rl.routers ∧ p ∉ rl.oldRouters ∧ rl.routerlistIndex p = -1 ∧
    (rl.digestAt p).isSome ∧ rl.isRouter p
  routers_indexed : Indexed rl.routerlistIndex rl.routers
  old_indexed : Indexed rl.routerlistIndex rl.oldRouters
  live : ∀ p ∈ rl.routers, (rl.digestAt p).isSome ∧ rl.isRouter p
  old : ∀ p ∈ rl.oldRouters, (rl.digestAt p).isSome ∧ rl.isRouter p = false
  identity : ∀ id p, rl.identityMap.get id = some p ↔
    p ∈ rl.routers ∧ ∃ d, rl.digestAt p = some d ∧ (text d).identityDigest = id
  node : ∀ id, rl.nodeRi.get id = rl.identityMap.get id
  digest : ∀ d p, stale ≠ some d → (rl.descDigestMap.get d = some p ↔
    (p ∈ rl.routers ∨ p ∈ rl.oldRouters) ∧ rl.digestAt p = some d)
  unique : ∀ p q, (p ∈ rl.routers ∨ p ∈ rl.oldRouters) → (q ∈ rl.routers ∨ q ∈ rl.oldRouters) →
    rl.digestAt p = rl.digestAt q → p = q
  eid : ∀ e p, (stale.map fun d => (text d).extraInfoDigest) ≠ some e →
    rl.descByEidMap.get e = some p → (p ∈ rl.routers ∨ p ∈ rl.oldRouters) ∧
    ∃ d, rl.digestAt p = some d ∧ (text d).extraInfoDigest = e
  eid_zero : rl.descByEidMap.get 0 = none
  extra : ∀ k ei, rl.extraInfoMap.get k = some ei → ei.signedDescriptorDigest = k

/-- A router that is in no list. -/
structure Held (rl : Routerlist) (ri : ℕ) (d : Digest) (purpose : RouterPurpose) : Prop where
  parsed : ri ∉ rl.parsed
  routers : ri ∉ rl.routers
  old : ri ∉ rl.oldRouters
  index : rl.routerlistIndex ri = -1
  get : rl.descs.get ri = some ⟨d, some purpose⟩

/-- A live router with an extra-info digest. -/
def Carries (text : Digest → SignedText) (rl : Routerlist) (e : Digest) (p : ℕ) : Prop :=
  p ∈ rl.routers ∧ ∃ d, rl.digestAt p = some d ∧ (text d).extraInfoDigest = e

/-- `desc_by_eid_map` finds a router that is the only one with the digest. -/
def FindsAt (text : Digest → SignedText) (rl : Routerlist) (e : Digest) : Prop :=
  e ≠ 0 → ∀ p, Carries text rl e p → (∀ q, Carries text rl e q → q = p) →
    rl.descByEidMap.get e = some p

lemma findsAt_of_get (h : rl.descByEidMap.get e = some p) (hp : Carries text rl e p) :
    FindsAt text rl e := by
  intro _ q _ honly
  rw [h, honly p hp]

lemma findsAt_congr (hcarries : ∀ p, Carries text t e p ↔ Carries text rl e p)
    (hget : t.descByEidMap.get e = rl.descByEidMap.get e) :
    FindsAt text t e ↔ FindsAt text rl e := by
  simp only [FindsAt, hcarries, hget]

lemma findsAt_iff (hcarries : ∀ p, Carries text t e p ↔ Carries text rl e p)
    (hget : ∀ p, t.descByEidMap.get e = some p → ¬ Carries text rl e p) :
    FindsAt text t e ↔ (e ≠ 0 → ¬ ∃! p, Carries text rl e p) := by
  simp only [FindsAt, hcarries]
  constructor
  · rintro hfinds hne ⟨p, hp, honly⟩
    exact hget p (hfinds hne p hp honly) hp
  · intro hnone hne p hp honly
    exact absurd ⟨p, hp, honly⟩ (hnone hne)

lemma forall_findsAt_iff (hother : ∀ e', e' ≠ e → FindsAt text rl e')
    (hcarries : ∀ e p, Carries text t e p ↔ Carries text rl e p)
    (hget : ∀ e', e' ≠ e → t.descByEidMap.get e' = rl.descByEidMap.get e') :
    (∀ e, FindsAt text t e) ↔ FindsAt text t e := by
  refine ⟨fun hall => hall e, fun hself e' => ?_⟩
  by_cases he : e' = e
  · rw [he]
    exact hself
  · exact (findsAt_congr (hcarries e') (hget e' he)).mpr (hother e' he)

lemma Held.digestAt (h : Held rl ri d purpose) : rl.digestAt ri = some d := by
  rw [Routerlist.digestAt, h.get, Option.map_some]

lemma Held.isRouter (h : Held rl ri d purpose) : rl.isRouter ri = true := by
  rw [Routerlist.isRouter, h.get]
  rfl

/-! ## What operations do to a descriptor -/

lemma digestAt_free : (rl.free p).digestAt sd = if sd = p then none else rl.digestAt sd := by
  rw [digestAt, free, get_erase]
  split <;> rfl

lemma isRouter_free : (rl.free p).isRouter sd = if sd = p then false else rl.isRouter sd := by
  rw [isRouter, free, get_erase]
  split <;> rfl

section

variable {stale : Option Digest}

lemma Core.notMem_parsed (h : Core text stale rl) (hp : rl.digestAt p = none) :
    p ∉ rl.parsed := by
  intro hmem
  have hsome := (h.parsed p hmem).2.2.2.1
  rw [hp] at hsome
  cases hsome

lemma Core.notMem_routers (h : Core text stale rl) (hp : rl.digestAt p = none) :
    p ∉ rl.routers := by
  intro hmem
  have hsome := (h.live p hmem).1
  rw [hp] at hsome
  cases hsome

lemma Core.notMem_old (h : Core text stale rl) (hp : rl.digestAt p = none) :
    p ∉ rl.oldRouters := by
  intro hmem
  have hsome := (h.old p hmem).1
  rw [hp] at hsome
  cases hsome

lemma Core.notMem_routers_of_old (h : Core text stale rl) (hp : p ∈ rl.oldRouters) :
    p ∉ rl.routers := by
  intro hp'
  have hlive := (h.live p hp').2
  rw [(h.old p hp).2] at hlive
  cases hlive

end

lemma Core.eid_of_ne (h : Core text (some d) rl) (e : Digest) (p : ℕ)
    (hne : (text d).extraInfoDigest ≠ e) (hget : rl.descByEidMap.get e = some p) :
    (p ∈ rl.routers ∨ p ∈ rl.oldRouters) ∧
      ∃ d, rl.digestAt p = some d ∧ (text d).extraInfoDigest = e :=
  h.eid e p (by simpa using hne) hget

lemma Core.free (h : Core text none rl) (hparsed : p ∉ rl.parsed) (hrouters : p ∉ rl.routers)
    (hold : p ∉ rl.oldRouters) : Core text none (rl.free p) := by
  have hdigest : ∀ q, (rl.free p).digestAt q = if q = p then none else rl.digestAt q :=
    fun q => digestAt_free
  have hrouter : ∀ q, (rl.free p).isRouter q = if q = p then false else rl.isRouter q :=
    fun q => isRouter_free
  constructor
  case parsed_nodup => exact h.parsed_nodup
  case routers_indexed => exact h.routers_indexed
  case old_indexed => exact h.old_indexed
  case node => exact h.node
  case eid_zero => exact h.eid_zero
  case extra => exact h.extra
  case parsed => grind [Routerlist.free, h.parsed]
  case live => grind [Routerlist.free, h.live]
  case old => grind [Routerlist.free, h.old]
  case identity => grind [Routerlist.free, h.identity]
  case digest => grind [Routerlist.free, h.digest]
  case unique => grind [Routerlist.free, h.unique]
  case eid => grind [Routerlist.free, h.eid]

lemma carries_free (hrouters : p ∉ rl.routers) {q : ℕ} :
    Carries text (rl.free p) e q ↔ Carries text rl e q := by
  have hdigest : ∀ q, (rl.free p).digestAt q = if q = p then none else rl.digestAt q :=
    fun q => digestAt_free
  have hlist : (rl.free p).routers = rl.routers := rfl
  grind [Carries]

/-! ## A router goes on the list -/

/-- The state after the insertion of a router with the digest `d`. -/
def inserted (text : Digest → SignedText) (rl : Routerlist) (ri : ℕ) (d : Digest) : Routerlist :=
  { rl with
    identityMap := rl.identityMap.set (text d).identityDigest ri
    descDigestMap := rl.descDigestMap.set d ri
    descByEidMap :=
      if (text d).extraInfoDigest = 0 then rl.descByEidMap
      else rl.descByEidMap.set (text d).extraInfoDigest ri
    routers := rl.routers ++ [ri]
    routerlistIndex := update rl.routerlistIndex ri rl.routers.length
    nodeRi := rl.nodeRi.set (text d).identityDigest ri }

lemma Core.inserted (h : Core text (some d) rl) (hri : Held rl ri d purpose)
    (hid : rl.identityMap.get (text d).identityDigest = none)
    (hnew : ∀ p, (p ∈ rl.routers ∨ p ∈ rl.oldRouters) → rl.digestAt p ≠ some d) :
    Core text none (rl.inserted text ri d) := by
  have hdigest : ∀ p, (rl.inserted text ri d).digestAt p = rl.digestAt p := fun p => rfl
  have hrouter : ∀ p, (rl.inserted text ri d).isRouter p = rl.isRouter p := fun p => rfl
  have hself := hri.digestAt
  have hselfRouter := hri.isRouter
  have hzero := h.eid_zero
  constructor
  case parsed_nodup => exact h.parsed_nodup
  case routers_indexed => exact h.routers_indexed.add hri.routers
  case old_indexed =>
    exact h.old_indexed.congr fun p hp =>
      update_of_ne (ne_of_mem_of_not_mem hp hri.old) _ _
  case extra => exact h.extra
  case parsed =>
    intro p hp
    have hne : p ≠ ri := ne_of_mem_of_not_mem hp hri.parsed
    obtain ⟨hrouters, hold, hindex, hsome⟩ := h.parsed p hp
    exact ⟨by simp [Routerlist.inserted, hrouters, hne], hold,
      (update_of_ne hne _ _).trans hindex, hsome⟩
  case live => grind [Routerlist.inserted, h.live]
  case old => grind [Routerlist.inserted, h.old]
  case identity => grind [Routerlist.inserted, get_set, h.identity]
  case node => grind [Routerlist.inserted, get_set, h.node]
  case digest => grind [Routerlist.inserted, get_set, h.digest]
  case unique => grind [Routerlist.inserted, h.unique]
  case eid => grind [Routerlist.inserted, get_set, h.eid_of_ne]
  case eid_zero => grind [Routerlist.inserted, get_set]

lemma carries_inserted (hri : Held rl ri d purpose) : Carries text (rl.inserted text ri d) e p
    ↔ Carries text rl e p ∨ p = ri ∧ (text d).extraInfoDigest = e := by
  have hself := hri.digestAt
  have hdigest : ∀ p, (rl.inserted text ri d).digestAt p = rl.digestAt p := fun p => rfl
  have hrouters : (rl.inserted text ri d).routers = rl.routers ++ [ri] := rfl
  grind [Carries]

/-! ## A router that is left goes on `old_routers`, or is dropped -/

/-- The state after a router has become the old descriptor `sd`. -/
def filedAway (text : Digest → SignedText) (rl : Routerlist) (sd ri : ℕ) (d : Digest) :
    Routerlist :=
  { rl with
    descs := (rl.descs.set sd ⟨d, none⟩).erase ri
    descDigestMap := rl.descDigestMap.set d sd
    descByEidMap :=
      if (text d).extraInfoDigest = 0 then rl.descByEidMap
      else rl.descByEidMap.set (text d).extraInfoDigest sd
    oldRouters := rl.oldRouters ++ [sd]
    routerlistIndex := update (update rl.routerlistIndex sd (-1)) sd
      rl.oldRouters.length }

lemma digestAt_filedAway : (rl.filedAway text sd ri d).digestAt p =
    if p = ri then none else if p = sd then some d else rl.digestAt p := by
  rw [digestAt, filedAway, get_erase, get_set]
  split
  · rfl
  · split <;> rfl

lemma isRouter_filedAway : (rl.filedAway text sd ri d).isRouter p =
    if p = ri ∨ p = sd then false else rl.isRouter p := by
  rw [isRouter, filedAway, get_erase, get_set]
  split
  · next h => simp [h]
  · split
    · next h => simp [h]
    · next h₁ h₂ => simp [h₁, h₂, isRouter]

lemma Core.filedAway (h : Core text (some d) rl) (hsd : rl.descs.get sd = none)
    (hri : Held rl ri d purpose)
    (hnew : ∀ p, (p ∈ rl.routers ∨ p ∈ rl.oldRouters) → rl.digestAt p ≠ some d) :
    Core text none (rl.filedAway text sd ri d) := by
  have hdigest : ∀ p, (rl.filedAway text sd ri d).digestAt p =
      if p = ri then none else if p = sd then some d else rl.digestAt p :=
    fun p => digestAt_filedAway
  have hrouter : ∀ p, (rl.filedAway text sd ri d).isRouter p =
      if p = ri ∨ p = sd then false else rl.isRouter p :=
    fun p => isRouter_filedAway
  have hsdDigest : rl.digestAt sd = none := by rw [digestAt, hsd, Option.map_none]
  have hself := hri.digestAt
  have hzero := h.eid_zero
  have hsdOld : sd ∉ rl.oldRouters := h.notMem_old hsdDigest
  have hsdRouters : sd ∉ rl.routers := h.notMem_routers hsdDigest
  have hsdParsed : sd ∉ rl.parsed := h.notMem_parsed hsdDigest
  constructor
  case parsed_nodup => exact h.parsed_nodup
  case routers_indexed =>
    refine h.routers_indexed.congr fun p hp => ?_
    have hne : p ≠ sd := ne_of_mem_of_not_mem hp hsdRouters
    simp only [Routerlist.filedAway, update_of_ne hne]
  case old_indexed =>
    have hindexed : Indexed (update rl.routerlistIndex sd (-1)) rl.oldRouters :=
      h.old_indexed.congr fun p hp => update_of_ne (ne_of_mem_of_not_mem hp hsdOld) _ _
    exact hindexed.add hsdOld
  case extra => exact h.extra
  case parsed =>
    intro p hp
    have hne : p ≠ ri := ne_of_mem_of_not_mem hp hri.parsed
    have hneSd : p ≠ sd := ne_of_mem_of_not_mem hp hsdParsed
    obtain ⟨hrouters, hold, hindex, hsome⟩ := h.parsed p hp
    refine ⟨hrouters, by simp [Routerlist.filedAway, hold, hneSd], ?_, ?_⟩
    · simp only [Routerlist.filedAway, update_of_ne hneSd]
      exact hindex
    · rw [hdigest, hrouter, if_neg hne, if_neg hneSd, if_neg (by simp [hne, hneSd])]
      exact hsome
  case live => grind [Routerlist.filedAway, h.live]
  case old => grind [Routerlist.filedAway, h.old]
  case identity => grind [Routerlist.filedAway, h.identity]
  case node => exact h.node
  case digest => grind [Routerlist.filedAway, get_set, h.digest]
  case unique => grind [Routerlist.filedAway, h.unique]
  case eid => grind [Routerlist.filedAway, get_set, h.eid_of_ne]
  case eid_zero => grind [Routerlist.filedAway, get_set]

lemma carries_filedAway (hsd : rl.digestAt sd = none) (hri : ri ∉ rl.routers)
    (h : Core text (some d) rl) :
    Carries text (rl.filedAway text sd ri d) e p ↔ Carries text rl e p := by
  have hdigest : ∀ p, (rl.filedAway text sd ri d).digestAt p =
      if p = ri then none else if p = sd then some d else rl.digestAt p :=
    fun p => digestAt_filedAway
  have hsdRouters := h.notMem_routers hsd
  have hrouters : (rl.filedAway text sd ri d).routers = rl.routers := rfl
  grind [Carries]

/-- The state after a descriptor that is in no list has been dropped, and its extra-info document
if `dropsExtra`. -/
def dropped (text : Digest → SignedText) (rl : Routerlist) (p : ℕ) (d : Digest)
    (dropsExtra : Prop) [Decidable dropsExtra] : Routerlist :=
  { rl with
    descs := rl.descs.erase p
    descDigestMap := rl.descDigestMap.erase d
    descByEidMap :=
      if (text d).extraInfoDigest = 0 then rl.descByEidMap
      else rl.descByEidMap.erase (text d).extraInfoDigest
    extraInfoMap :=
      if dropsExtra then rl.extraInfoMap.erase (text d).extraInfoDigest else rl.extraInfoMap }

variable {dropsExtra : Prop} [Decidable dropsExtra]

lemma Core.dropped (h : Core text (some d) rl) (hparsed : p ∉ rl.parsed) (hrouters : p ∉ rl.routers)
    (hold : p ∉ rl.oldRouters)
    (hnew : ∀ p, (p ∈ rl.routers ∨ p ∈ rl.oldRouters) → rl.digestAt p ≠ some d) :
    Core text none (rl.dropped text p d dropsExtra) := by
  have hdigest : ∀ q, (rl.dropped text p d dropsExtra).digestAt q =
      if q = p then none else rl.digestAt q :=
    fun q => digestAt_free
  have hrouter : ∀ q, (rl.dropped text p d dropsExtra).isRouter q =
      if q = p then false else rl.isRouter q :=
    fun q => isRouter_free
  have hzero := h.eid_zero
  constructor
  case parsed_nodup => exact h.parsed_nodup
  case routers_indexed => exact h.routers_indexed
  case old_indexed => exact h.old_indexed
  case parsed => grind [Routerlist.dropped, h.parsed]
  case live => grind [Routerlist.dropped, h.live]
  case old => grind [Routerlist.dropped, h.old]
  case identity => grind [Routerlist.dropped, h.identity]
  case node => exact h.node
  case digest => grind [Routerlist.dropped, get_erase, h.digest]
  case unique => grind [Routerlist.dropped, h.unique]
  case eid => grind [Routerlist.dropped, get_erase, h.eid_of_ne]
  case eid_zero => grind [Routerlist.dropped, get_erase]
  case extra => grind [Routerlist.dropped, get_erase, h.extra]

lemma carries_dropped (hrouters : p ∉ rl.routers) {q : ℕ} :
    Carries text (rl.dropped text p d dropsExtra) e q ↔ Carries text rl e q := by
  have hdigest : ∀ q, (rl.dropped text p d dropsExtra).digestAt q =
      if q = p then none else rl.digestAt q :=
    fun q => digestAt_free
  have hlist : (rl.dropped text p d dropsExtra).routers = rl.routers := rfl
  grind [Carries]

/-! ## A descriptor leaves its list -/

/-- The state where a router has been taken off the list. -/
def unlinked (text : Digest → SignedText) (rl : Routerlist) (ri i : ℕ) (d : Digest) :
    Routerlist :=
  { rl with
    routers := swapDel rl.routers i
    routerlistIndex := reindex (update rl.routerlistIndex ri (-1)) (swapDel rl.routers i) i
    identityMap := rl.identityMap.erase (text d).identityDigest
    nodeRi := rl.nodeRi.erase (text d).identityDigest }

variable {i : ℕ}

lemma Core.unlinked (h : Core text none rl) (hget : rl.routers[i]? = some ri)
    (hd : rl.digestAt ri = some d) : Core text (some d) (rl.unlinked text ri i d) := by
  have hdigest : ∀ p, (rl.unlinked text ri i d).digestAt p = rl.digestAt p := fun p => rfl
  have hmem : ∀ p, p ∈ (rl.unlinked text ri i d).routers ↔ p ∈ rl.routers ∧ p ≠ ri :=
    fun p => h.routers_indexed.mem_swapDel hget
  have hri : ri ∈ rl.routers := List.mem_of_getElem? hget
  have hindex : ∀ p ∉ rl.routers,
      (rl.unlinked text ri i d).routerlistIndex p = rl.routerlistIndex p :=
    fun p hp => h.routers_indexed.reindex_del_of_notMem hget hp (-1)
  have hself := (h.identity (text d).identityDigest ri).mpr ⟨hri, d, hd, rfl⟩
  have hold : (rl.unlinked text ri i d).oldRouters = rl.oldRouters := rfl
  constructor
  case parsed_nodup => exact h.parsed_nodup
  case parsed =>
    intro p hp
    obtain ⟨hrouters, hold, hidx, hsome⟩ := h.parsed p hp
    exact ⟨fun hp' => hrouters ((hmem p).mp hp').1, hold, (hindex p hrouters).trans hidx, hsome⟩
  case routers_indexed => exact h.routers_indexed.del hget (-1)
  case old_indexed =>
    exact h.old_indexed.congr fun p hp => hindex p (h.notMem_routers_of_old hp)
  case live => exact fun p hp => h.live p ((hmem p).mp hp).1
  case old => exact h.old
  case identity =>
    have hidentity := h.identity
    grind [Routerlist.unlinked, get_erase]
  case node => grind [Routerlist.unlinked, get_erase, h.node]
  case digest =>
    have hold' := h.digest
    grind [Routerlist.unlinked]
  case unique => grind [h.unique]
  case eid => 
    have := h.eid
    grind [Routerlist.unlinked]
  case eid_zero => exact h.eid_zero
  case extra => exact h.extra

lemma carries_unlinked (h : Core text none rl) (hget : rl.routers[i]? = some ri) :
    Carries text (rl.unlinked text ri i d) e p ↔ Carries text rl e p ∧ p ≠ ri := by
  have hdigest : (rl.unlinked text ri i d).digestAt p = rl.digestAt p := rfl
  have hmem : p ∈ (rl.unlinked text ri i d).routers ↔ p ∈ rl.routers ∧ p ≠ ri :=
    h.routers_indexed.mem_swapDel hget
  rw [Carries, hmem, hdigest, Carries, and_right_comm]

/-- The state where an old descriptor has been taken off the list. -/
def unlinkedOld (rl : Routerlist) (sd i : ℕ) : Routerlist :=
  { rl with
    oldRouters := swapDel rl.oldRouters i
    routerlistIndex := reindex (update rl.routerlistIndex sd (-1)) (swapDel rl.oldRouters i) i }

lemma Core.unlinkedOld (h : Core text none rl) (hget : rl.oldRouters[i]? = some sd)
    (hd : rl.digestAt sd = some d) : Core text (some d) (rl.unlinkedOld sd i) := by
  have hdigest : ∀ p, (rl.unlinkedOld sd i).digestAt p = rl.digestAt p := fun p => rfl
  have hmem : ∀ p, p ∈ (rl.unlinkedOld sd i).oldRouters ↔ p ∈ rl.oldRouters ∧ p ≠ sd :=
    fun p => h.old_indexed.mem_swapDel hget
  have hindex : ∀ p ∉ rl.oldRouters,
      (rl.unlinkedOld sd i).routerlistIndex p = rl.routerlistIndex p :=
    fun p hp => h.old_indexed.reindex_del_of_notMem hget hp (-1)
  have hrouters : (rl.unlinkedOld sd i).routers = rl.routers := rfl
  constructor
  case parsed_nodup => exact h.parsed_nodup
  case parsed =>
    intro p hp
    obtain ⟨hrouters, hold, hidx, hsome⟩ := h.parsed p hp
    exact ⟨hrouters, fun hp' => hold ((hmem p).mp hp').1, (hindex p hold).trans hidx, hsome⟩
  case routers_indexed =>
    exact h.routers_indexed.congr fun p hp => hindex p fun hp' => h.notMem_routers_of_old hp' hp
  case old_indexed => exact h.old_indexed.del hget (-1)
  case live => exact h.live
  case old => exact fun p hp => h.old p ((hmem p).mp hp).1
  case identity => exact h.identity
  case node => exact h.node
  case digest =>
    have hold := h.digest
    grind [Routerlist.unlinkedOld]
  case unique => grind [h.unique]
  case eid =>
    have := h.eid
    grind [Routerlist.unlinkedOld]
  case eid_zero => exact h.eid_zero
  case extra => exact h.extra

/-- The state where `dropSuperseded` has dropped an old descriptor. -/
def superseded (text : Digest → SignedText) (rl : Routerlist) (sd i : ℕ) (d : Digest) :
    Routerlist :=
  { rl.unlinkedOld sd i with
    descs := rl.descs.erase sd
    descByEidMap := rl.descByEidMap.erase (text d).extraInfoDigest }

lemma Core.superseded (h : Core text none rl) (hget : rl.oldRouters[i]? = some sd)
    (hd : rl.digestAt sd = some d) : Core text (some d) (rl.superseded text sd i d) := by
  have hcore := h.unlinkedOld hget hd
  have hdigest : ∀ p, (rl.superseded text sd i d).digestAt p
      = if p = sd then none else (rl.unlinkedOld sd i).digestAt p := fun p => digestAt_free
  have hrouter : ∀ p, (rl.superseded text sd i d).isRouter p
      = if p = sd then false else (rl.unlinkedOld sd i).isRouter p := fun p => isRouter_free
  have hmem : ∀ p, p ∈ (rl.unlinkedOld sd i).oldRouters ↔ p ∈ rl.oldRouters ∧ p ≠ sd :=
    fun p => h.old_indexed.mem_swapDel hget
  have hsd : sd ∈ rl.oldRouters := List.mem_of_getElem? hget
  have hsdRouters : sd ∉ (rl.unlinkedOld sd i).routers := h.notMem_routers_of_old hsd
  have hsdParsed : sd ∉ (rl.unlinkedOld sd i).parsed := fun hmem => (h.parsed sd hmem).2.1 hsd
  have hzero := hcore.eid_zero
  have hlists : (rl.superseded text sd i d).routers = (rl.unlinkedOld sd i).routers ∧
      (rl.superseded text sd i d).oldRouters = (rl.unlinkedOld sd i).oldRouters ∧
      (rl.superseded text sd i d).parsed = (rl.unlinkedOld sd i).parsed := ⟨rfl, rfl, rfl⟩
  obtain ⟨hroutersEq, holdEq, hparsedEq⟩ := hlists
  have heid : ∀ e, (rl.superseded text sd i d).descByEidMap.get e
      = if e = (text d).extraInfoDigest then none else (rl.unlinkedOld sd i).descByEidMap.get e :=
    fun e => get_erase
  constructor
  case parsed_nodup => exact hcore.parsed_nodup
  case parsed =>
    intro p hp
    have := hcore.parsed p hp
    have hne : p ≠ sd := ne_of_mem_of_not_mem hp hsdParsed
    rw [hdigest, hrouter, if_neg hne, if_neg hne]
    exact this
  case routers_indexed => exact hcore.routers_indexed
  case old_indexed => exact hcore.old_indexed
  case live => grind [hcore.live]
  case old => grind [hcore.old]
  case identity =>
    have := hcore.identity
    have hmap : (rl.superseded text sd i d).identityMap = (rl.unlinkedOld sd i).identityMap := rfl
    grind
  case node => exact hcore.node
  case digest =>
    have := hcore.digest
    have hmap : (rl.superseded text sd i d).descDigestMap = (rl.unlinkedOld sd i).descDigestMap :=
      rfl
    grind
  case unique => grind [hcore.unique]
  case eid => grind [hcore.eid_of_ne]
  case eid_zero => grind
  case extra => exact hcore.extra

lemma carries_superseded (h : Core text none rl) (hsd : sd ∈ rl.oldRouters) :
    Carries text (rl.superseded text sd i d) e p ↔ Carries text rl e p := by
  have hdigest : (rl.superseded text sd i d).digestAt p = if p = sd then none else rl.digestAt p :=
    digestAt_free
  have hrouters : (rl.superseded text sd i d).routers = rl.routers := rfl
  have h₁ := h.live sd
  have h₂ := (h.old sd hsd).2
  grind [Carries]

/-! ## A router in the place of another -/

/-- The state where a router has taken the place `i` of another. -/
def replaced (text : Digest → SignedText) (rl : Routerlist) (riOld riNew i : ℕ) (dNew : Digest) :
    Routerlist :=
  { rl with
    nodeRi := rl.nodeRi.set (text dNew).identityDigest riNew
    routers := rl.routers.set i riNew
    routerlistIndex := update (update rl.routerlistIndex riOld (-1)) riNew i
    identityMap := rl.identityMap.set (text dNew).identityDigest riNew
    descDigestMap := rl.descDigestMap.set dNew riNew
    descByEidMap :=
      if (text dNew).extraInfoDigest = 0 then rl.descByEidMap
      else rl.descByEidMap.set (text dNew).extraInfoDigest riNew }

variable {riOld riNew i : ℕ} {dOld dNew : Digest}

lemma Core.replaced (h : Core text none rl) (hget : rl.routers[i]? = some riOld)
    (hOld : rl.digestAt riOld = some dOld) (hNew : Held rl riNew dNew purpose)
    (hid : (text dOld).identityDigest = (text dNew).identityDigest)
    (hnew : ∀ p ∈ rl.oldRouters, rl.digestAt p ≠ some dNew) :
    Core text (some dOld) (rl.replaced text riOld riNew i dNew) := by
  have hdigest : ∀ p, (rl.replaced text riOld riNew i dNew).digestAt p = rl.digestAt p :=
    fun p => rfl
  have hrouter : ∀ p, (rl.replaced text riOld riNew i dNew).isRouter p = rl.isRouter p :=
    fun p => rfl
  have hi : i < rl.routers.length := (List.getElem?_eq_some_iff.mp hget).1
  have hmem : ∀ p, p ∈ (rl.replaced text riOld riNew i dNew).routers
      ↔ p = riNew ∨ p ∈ rl.routers ∧ p ≠ riOld := fun p => h.routers_indexed.mem_set hget
  have hriOld : riOld ∈ rl.routers := List.mem_of_getElem? hget
  have hself := hNew.digestAt
  have hselfRouter := hNew.isRouter
  have hindex : ∀ p ∉ rl.routers, p ≠ riNew →
      (rl.replaced text riOld riNew i dNew).routerlistIndex p = rl.routerlistIndex p := by
    intro p hp hne
    have hneOld : p ≠ riOld := (ne_of_mem_of_not_mem hriOld hp).symm
    exact (update_of_ne hne _ _).trans (update_of_ne hneOld _ _)
  have hold : (rl.replaced text riOld riNew i dNew).oldRouters = rl.oldRouters := rfl
  have hother : ∀ p ∈ rl.routers, p ≠ riOld → rl.digestAt p ≠ some dNew := by
    intro p hp hne hpNew
    have hpId := (h.identity (text dNew).identityDigest p).mpr ⟨hp, dNew, hpNew, rfl⟩
    have holdId := (h.identity (text dNew).identityDigest riOld).mpr ⟨hriOld, dOld, hOld, hid⟩
    rw [hpId] at holdId
    exact hne (Option.some.inj holdId)
  have hzero := h.eid_zero
  constructor
  case parsed_nodup => exact h.parsed_nodup
  case parsed =>
    intro p hp
    have hne : p ≠ riNew := ne_of_mem_of_not_mem hp hNew.parsed
    obtain ⟨hrouters, hold, hidx, hsome⟩ := h.parsed p hp
    exact ⟨by rw [hmem]; simp [hne, hrouters], hold, (hindex p hrouters hne).trans hidx, hsome⟩
  case routers_indexed =>
    have hset := h.routers_indexed.set hNew.routers hi
    refine hset.congr fun p hp => ?_
    rcases (hmem p).mp hp with rfl | ⟨-, hne⟩
    · simp only [Routerlist.replaced, update_self]
    · simp only [Routerlist.replaced, update_apply, if_neg hne]
  case old_indexed =>
    exact h.old_indexed.congr fun p hp =>
      hindex p (h.notMem_routers_of_old hp) (ne_of_mem_of_not_mem hp hNew.old)
  case live => grind [h.live]
  case old => grind [h.old]
  case identity =>
    have hidentity := h.identity
    have hidOld := (h.identity (text dOld).identityDigest riOld).mpr ⟨hriOld, dOld, hOld, rfl⟩
    have hmap : ∀ id, (rl.replaced text riOld riNew i dNew).identityMap.get id
        = if id = (text dNew).identityDigest then some riNew else rl.identityMap.get id :=
      fun id => get_set
    grind
  case node =>
    have hnode := h.node
    grind [Routerlist.replaced, get_set]
  case digest =>
    have hold' := h.digest
    have hunique := h.unique
    have hmap : ∀ d, (rl.replaced text riOld riNew i dNew).descDigestMap.get d
        = if d = dNew then some riNew else rl.descDigestMap.get d :=
      fun d => get_set
    grind
  case unique =>
    have hunique := h.unique
    grind
  case eid =>
    have heid := h.eid
    grind [Routerlist.replaced, get_set]
  case eid_zero => grind [Routerlist.replaced, get_set]
  case extra => exact h.extra

/-! ## What desc_by_eid_map finds -/

lemma finds_inserted (hri : Held rl ri d purpose)
    (hother : ∀ e, e ≠ (text d).extraInfoDigest → FindsAt text rl e) (e : Digest) :
    FindsAt text (rl.inserted text ri d) e := by
  by_cases he : e = (text d).extraInfoDigest
  · intro hne
    have hget : (rl.inserted text ri d).descByEidMap.get e = some ri := by
      rw [Routerlist.inserted, if_neg (he ▸ hne), he, get_set_self]
    exact findsAt_of_get hget ((carries_inserted hri).mpr (Or.inr ⟨rfl, he.symm⟩)) hne
  · refine (findsAt_congr (fun p => ?_) ?_).mpr (hother e he)
    · rw [carries_inserted hri]
      simp [Ne.symm he]
    · rw [Routerlist.inserted]
      split
      · rfl
      · exact get_set_of_ne he

lemma finds_filedAway (hsd : rl.digestAt sd = none) (hri : ri ∉ rl.routers)
    (h : Core text (some d) rl)
    (hother : ∀ e, e ≠ (text d).extraInfoDigest → FindsAt text rl e) :
    (∀ e, FindsAt text (rl.filedAway text sd ri d) e) ↔
      ((text d).extraInfoDigest ≠ 0 → ¬ ∃! p, Carries text rl (text d).extraInfoDigest p) := by
  have hcarries : ∀ e p, Carries text (rl.filedAway text sd ri d) e p ↔ Carries text rl e p :=
    fun e p => carries_filedAway hsd hri h
  have hget : ∀ e, e ≠ (text d).extraInfoDigest →
      (rl.filedAway text sd ri d).descByEidMap.get e = rl.descByEidMap.get e := by
    intro e he
    rw [Routerlist.filedAway]
    split
    · rfl
    · exact get_set_of_ne he
  rw [forall_findsAt_iff hother hcarries hget]
  refine findsAt_iff (hcarries _) fun p hp hcarried => ?_
  by_cases hzero : (text d).extraInfoDigest = 0
  · rw [hzero, Routerlist.filedAway, if_pos hzero, h.eid_zero] at hp
    cases hp
  · rw [Routerlist.filedAway, if_neg hzero, get_set_self] at hp
    rw [← Option.some.inj hp] at hcarried
    exact h.notMem_routers hsd hcarried.1

lemma finds_dropped (hp : p ∉ rl.routers) (hzero : rl.descByEidMap.get 0 = none)
    (hother : ∀ e, e ≠ (text d).extraInfoDigest → FindsAt text rl e) :
    (∀ e, FindsAt text (rl.dropped text p d dropsExtra) e) ↔
      ((text d).extraInfoDigest ≠ 0 → ¬ ∃! p, Carries text rl (text d).extraInfoDigest p) := by
  have hcarries : ∀ e q, Carries text (rl.dropped text p d dropsExtra) e q ↔ Carries text rl e q :=
    fun e q => carries_dropped hp
  have hget : ∀ e, e ≠ (text d).extraInfoDigest →
      (rl.dropped text p d dropsExtra).descByEidMap.get e = rl.descByEidMap.get e := by
    intro e he
    rw [Routerlist.dropped]
    split
    · rfl
    · exact AssocMap.get_erase_of_ne he
  have hnone : (rl.dropped text p d dropsExtra).descByEidMap.get (text d).extraInfoDigest
      = none := by
    rw [Routerlist.dropped]
    split
    · next heid => rw [heid, hzero]
    · exact AssocMap.get_erase_self
  rw [forall_findsAt_iff hother hcarries hget]
  refine findsAt_iff (hcarries _) fun q hq => ?_
  rw [hnone] at hq
  cases hq

end Ator.Nodelist.Routerlist
