import AtorProtocol.Nodelist.RouterlistInvariant
import AtorProtocol.Lib.Run

/-!
# Runs of the router list

* `routerAddToRouterlist` — what becomes of a router that has been parsed.
* `Event`, `step` — what happens to the router list.
* `Event.KeepsMaps` — the steps that leave the maps right.
* `sound_iff_keepsMaps` — the lists and maps are right all along a run, and no assertion fails,
  exactly when every step is such.
-/

namespace Ator.Nodelist.Routerlist

open Option

/-! ## router_add_to_routerlist -/

/-- What `router_add_to_routerlist` asks of the options, the consensus and the clock. -/
structure AddContext where
  now : ℤ
  fromCache : Bool
  fromFetch : Bool
  cachesOld : Bool
  authdir : RouterPurpose → Bool
  authdirModeBridge : Bool
  rejects : Option String
  believesValid : Bool
  recognized : Bool
  configuredBridge : Bool
  consensus : Option (Digest → Option Digest)

inductive WasRouterAdded where
  | addedSuccessfully
  | isAlreadyKnown
  | notInConsensus
  | notInConsensusOrNetworkstatus
  | authdirRejects
  | wasNotWanted
  | wasTooOld
  | certsExpired
deriving DecidableEq

/-- The call that a branch ends with. -/
inductive AddAction where
  | drop
  | insertOld
  | replace (oldRouter : ℕ)
  | insert
deriving DecidableEq

def oldRouterDescMaxAge : ℤ := 60 * 60 * 24 * 5

section

variable (text : Digest → SignedText) (alloc : Allocator Desc) (rl : Routerlist)

/-- The branch of `router_add_to_routerlist`, with its return value and message. -/
def addBranch (ctx : AddContext) (d : Digest) (purpose : RouterPurpose) :
    Option (AddAction × WasRouterAdded × Option String) := do
  let t := text d
  let oldRouter ← match rl.identityMap.get t.identityDigest with
    | none => some none
    | some p => (rl.descs.get p).map fun desc => some (p, desc)
  if t.certExpirationTime < ctx.now then
    return (.drop, .certsExpired, some "Some certs on this router are expired.")
  let wasBridge := oldRouter.any fun old => old.2.routerinfo = some .bridge
  if (rl.descDigestMap.get d).isSome ∧
      ¬ (ctx.configuredBridge ∧ purpose = .bridge ∧ ¬ wasBridge) then
    return (.drop, .isAlreadyKnown, some "Router descriptor was not new.")
  let authdir := ctx.authdir purpose
  if authdir ∧ ctx.rejects.isSome then return (.drop, .authdirRejects, ctx.rejects)
  if ¬ authdir ∧ ctx.fromFetch ∧ ¬ ctx.recognized ∧ ¬ ctx.configuredBridge then
    return (.insertOld, .notInConsensusOrNetworkstatus,
      some "Router descriptor is not referenced by any network-status.")
  let inConsensus := ctx.consensus.any fun rs => rs t.identityDigest = some d
  if purpose = .general ∧ ctx.consensus.isSome ∧ ¬ inConsensus ∧ ¬ authdir then
    return (.insertOld, .notInConsensus, some "Skipping router descriptor: not in consensus.")
  if purpose = .bridge ∧ ctx.fromCache ∧ ¬ ctx.authdirModeBridge ∧ ¬ ctx.configuredBridge then
    return (.drop, .wasNotWanted, some "Router descriptor was not a configured bridge.")
  match oldRouter with
  | some (p, old) =>
    if ¬ inConsensus ∧ t.publishedOn ≤ (text old.signedDescriptorDigest).publishedOn then
      return (.insertOld, .isAlreadyKnown, some "Router descriptor was not new.")
    else
      return (.replace p, .addedSuccessfully, some (if ctx.believesValid then
        "Valid server updated" else
        "Invalid server updated. (This dirserver is marking your server as unapproved.)"))
  | none =>
    if ¬ inConsensus ∧ ctx.fromCache ∧ t.publishedOn < ctx.now - oldRouterDescMaxAge then
      return (.drop, .wasTooOld, some "Router descriptor was really old.")
    else return (.insert, .addedSuccessfully, none)

def routerAddToRouterlist (ctx : AddContext) (router : ℕ) :
    Option (Routerlist × WasRouterAdded × Option String) := do
  let desc ← rl.descs.get router
  let purpose ← desc.routerinfo
  let (action, r, msg) ← rl.addBranch text ctx desc.signedDescriptorDigest purpose
  let rl ← match action with
    | .drop => some (rl.free router)
    | .insertOld => rl.routerlistInsertOld text alloc ctx.cachesOld router
    | .replace oldRouter => rl.routerlistReplace text alloc ctx.cachesOld oldRouter router
    | .insert => rl.routerlistInsert text router
  return (rl, r, msg)

end

/-! ## Runs -/

inductive Event where
  | parseRouter (d : Digest) (purpose : RouterPurpose)
  | addToRouterlist (ctx : AddContext) (router : ℕ)
  | remove (cachesOld : Bool) (ri : ℕ) (makeOld : Bool)
  | removeOld (sd : ℕ) (idx : ℤ)
  | reparseOld (parses : Bool) (sd : ℕ)
  | sortOldRouters (sorted : List ℕ)
  | extrainfoInsert (ei : Extrainfo) (compatible : Bool)

/-- The caller does not hold the router any more. -/
def give (rl : Routerlist) (ri : ℕ) : Routerlist := { rl with parsed := rl.parsed.erase ri }

/-- The pointers that the callers have: a router that has been parsed, one of the list, an old
descriptor at its place, and a list with the same elements. -/
def Event.Issued (rl : Routerlist) : Event → Prop
  | .addToRouterlist _ router => router ∈ rl.parsed
  | .remove _ ri _ => ri ∈ rl.routers
  | .removeOld sd idx => sd ∈ rl.oldRouters ∧ (idx = -1 ∨ 0 ≤ idx ∧
      rl.oldRouters[idx.toNat]? = some sd)
  | .reparseOld _ sd => sd ∈ rl.oldRouters
  | .sortOldRouters sorted => sorted.Perm rl.oldRouters
  | _ => True

instance (rl : Routerlist) : ∀ e : Event, Decidable (e.Issued rl)
  | .parseRouter .. => inferInstanceAs (Decidable True)
  | .addToRouterlist _ router => inferInstanceAs (Decidable (router ∈ rl.parsed))
  | .remove _ ri _ => inferInstanceAs (Decidable (ri ∈ rl.routers))
  | .removeOld sd idx => inferInstanceAs (Decidable (sd ∈ rl.oldRouters ∧ (idx = -1 ∨ 0 ≤ idx ∧
      rl.oldRouters[idx.toNat]? = some sd)))
  | .reparseOld _ sd => inferInstanceAs (Decidable (sd ∈ rl.oldRouters))
  | .sortOldRouters sorted => inferInstanceAs (Decidable (sorted.Perm rl.oldRouters))
  | .extrainfoInsert .. => inferInstanceAs (Decidable True)

/-- One event; `none` where an assertion fails or freed memory is read.  Nothing happens that is not
issued. -/
def step (text : Digest → SignedText) (alloc : Allocator Desc) (rl : Routerlist) (e : Event) :
    Option Routerlist :=
  if e.Issued rl then
    match e with
    | .parseRouter d purpose => some (rl.parseRouter alloc d purpose)
    | .addToRouterlist ctx router =>
      ((rl.give router).routerAddToRouterlist text alloc ctx router).map Prod.fst
    | .remove cachesOld ri makeOld => rl.routerlistRemove text alloc cachesOld ri makeOld
    | .removeOld sd idx => rl.routerlistRemoveOld text sd idx
    | .reparseOld parses sd => rl.routerlistReparseOld text alloc parses sd
    | .sortOldRouters sorted => some (rl.sortOldRouters sorted)
    | .extrainfoInsert ei compatible => rl.extrainfoInsert text ei compatible
  else some rl

/-- The calls of `router_add_to_routerlist` that leave the maps right. -/
def AddAction.KeepsMaps (text : Digest → SignedText) (rl : Routerlist) (cachesOld : Bool)
    (router : ℕ) (d : Digest) (purpose : RouterPurpose) : AddAction → Prop
  | .insertOld => InsertsOldUnshared text rl cachesOld purpose d
  | .replace oldRouter => ReplacesUnshared text rl oldRouter router d
  | _ => True

/-- The steps that leave the maps right. -/
def Event.KeepsMaps (text : Digest → SignedText) (rl : Routerlist) (e : Event) : Prop :=
  e.Issued rl → match e with
    | .addToRouterlist ctx router =>
      ∀ d purpose action, rl.descs.get router = some ⟨d, some purpose⟩ →
        (rl.addBranch text ctx d purpose).map Prod.fst = some action →
        action.KeepsMaps text rl ctx.cachesOld router d purpose
    | .remove _ ri _ => RemovesUnshared text rl ri
    | .removeOld sd _ => RemovesOldUnshared text rl sd
    | .reparseOld parses sd => parses = true → RemovesOldUnshared text rl sd
    | _ => True

/-! ## What a step keeps -/

variable {text : Digest → SignedText} {alloc : Allocator Desc} {rl t : Routerlist} {ri sd : ℕ}
  {d : Digest} {purpose : RouterPurpose}

lemma inv_init : Inv text init := by
  constructor
  · constructor <;> simp [init, Indexed]
  · intro e hne p hp
    simp [Carries, init] at hp

lemma digestAt_parseRouter (p : ℕ) : (rl.parseRouter alloc d purpose).digestAt p =
    if p = alloc.malloc rl.descs then some d else rl.digestAt p := by
  rw [digestAt, Routerlist.parseRouter, AssocMap.get_set]
  split <;> rfl

lemma carries_parseRouter (h : Core text none rl) (e : Digest) (p : ℕ) :
    Carries text (rl.parseRouter alloc d purpose) e p ↔ Carries text rl e p := by
  have hnone : rl.digestAt (alloc.malloc rl.descs) = none := digestAt_malloc
  have hdigest : (rl.parseRouter alloc d purpose).digestAt p =
      if p = alloc.malloc rl.descs then some d else rl.digestAt p := digestAt_parseRouter p
  have hrouters := h.notMem_routers hnone
  have hlist : (rl.parseRouter alloc d purpose).routers = rl.routers := rfl
  grind [Carries]

lemma removesOldUnshared_parseRouter (h : Core text none rl) (hsd : sd ∈ rl.oldRouters) :
    RemovesOldUnshared text (rl.parseRouter alloc d purpose) sd ↔
      RemovesOldUnshared text rl sd := by
  have hnone : rl.digestAt (alloc.malloc rl.descs) = none := digestAt_malloc
  have hne : sd ≠ alloc.malloc rl.descs := ne_of_mem_of_not_mem hsd (h.notMem_old hnone)
  simp only [RemovesOldUnshared, digestAt_parseRouter, if_neg hne, carries_parseRouter h]

lemma Inv.parseRouter (h : Inv text rl) (d : Digest) (purpose : RouterPurpose) :
    Inv text (rl.parseRouter alloc d purpose) := by
  have hnone : rl.digestAt (alloc.malloc rl.descs) = none := digestAt_malloc
  have hdigest : ∀ p, (rl.parseRouter alloc d purpose).digestAt p =
      if p = alloc.malloc rl.descs then some d else rl.digestAt p := digestAt_parseRouter
  have hrouter : ∀ p, (rl.parseRouter alloc d purpose).isRouter p =
      if p = alloc.malloc rl.descs then true else rl.isRouter p := by
    intro p
    rw [isRouter, Routerlist.parseRouter, AssocMap.get_set]
    split <;> rfl
  have hparsed := h.core.notMem_parsed hnone
  have hrouters := h.core.notMem_routers hnone
  have hold := h.core.notMem_old hnone
  constructor
  · constructor
    case parsed_nodup => exact List.nodup_cons.mpr ⟨hparsed, h.core.parsed_nodup⟩
    case parsed =>
      intro p hp
      rw [hdigest, hrouter]
      rcases List.mem_cons.mp hp with rfl | hp
      · rw [if_pos rfl, if_pos rfl]
        exact ⟨hrouters, hold, Function.update_self _ _ _, rfl, rfl⟩
      · have hne := ne_of_mem_of_not_mem hp hparsed
        rw [if_neg hne, if_neg hne]
        obtain ⟨hlive, hold, hindex, hsome⟩ := h.core.parsed p hp
        exact ⟨hlive, hold, (Function.update_of_ne hne _ _).trans hindex, hsome⟩
    case routers_indexed =>
      exact h.core.routers_indexed.congr fun p hp =>
        Function.update_of_ne (ne_of_mem_of_not_mem hp hrouters) _ _
    case old_indexed =>
      exact h.core.old_indexed.congr fun p hp =>
        Function.update_of_ne (ne_of_mem_of_not_mem hp hold) _ _
    case live => grind [Routerlist.parseRouter, h.core.live]
    case old => grind [Routerlist.parseRouter, h.core.old]
    case identity => grind [Routerlist.parseRouter, h.core.identity]
    case node => exact h.core.node
    case digest => grind [Routerlist.parseRouter, h.core.digest']
    case unique => grind [Routerlist.parseRouter, h.core.unique]
    case eid => grind [Routerlist.parseRouter, h.core.eid']
    case eid_zero => exact h.core.eid_zero
    case extra => exact h.core.extra
  · intro e
    have hcongr : FindsAt text (rl.parseRouter alloc d purpose) e ↔ FindsAt text rl e :=
      findsAt_congr (carries_parseRouter h.core e) rfl
    exact hcongr.mpr (h.finds e)

lemma Inv.give (h : Inv text rl) (ri : ℕ) : Inv text (rl.give ri) where
  core := { h.core with
    parsed_nodup := h.core.parsed_nodup.erase ri
    parsed := fun p hp => h.core.parsed p (List.mem_of_mem_erase hp) }
  finds := h.finds

lemma Inv.held (h : Inv text rl) (hri : ri ∈ rl.parsed) :
    ∃ d purpose, Held (rl.give ri) ri d purpose := by
  obtain ⟨hrouters, hold, hindex, hsome, hrouter⟩ := h.core.parsed ri hri
  obtain ⟨d, purpose, hdesc⟩ := exists_routerinfo_of_isRouter hsome hrouter
  exact ⟨d, purpose, h.core.parsed_nodup.not_mem_erase, hrouters, hold, hindex, hdesc⟩

lemma Inv.sortOldRouters (h : Inv text rl) {sorted : List ℕ} (hperm : sorted.Perm rl.oldRouters) :
    Inv text (rl.sortOldRouters sorted) := by
  have hmem : ∀ p, p ∈ sorted ↔ p ∈ rl.oldRouters := fun p => hperm.mem_iff
  constructor
  · constructor
    case parsed_nodup => exact h.core.parsed_nodup
    case parsed =>
      intro p hp
      obtain ⟨hlive, hold, hindex, hsome⟩ := h.core.parsed p hp
      have hnotMem : p ∉ sorted := fun hp' => hold ((hmem p).mp hp')
      exact ⟨hlive, hnotMem, (Indexed.fixIndices_of_notMem hnotMem).trans hindex, hsome⟩
    case routers_indexed =>
      refine h.core.routers_indexed.congr fun p hp => Indexed.fixIndices_of_notMem fun hp' => ?_
      exact h.core.notMem_routers_of_old ((hmem p).mp hp') hp
    case old_indexed => exact Indexed.fix (hperm.nodup_iff.mpr h.core.old_indexed.nodup)
    case live => exact h.core.live
    case old => exact fun p hp => h.core.old p ((hmem p).mp hp)
    case identity => exact h.core.identity
    case node => exact h.core.node
    case digest =>
      intro d p hstale
      simp only [Routerlist.sortOldRouters, hmem]
      exact h.core.digest d p hstale
    case unique =>
      simp only [Routerlist.sortOldRouters, hmem]
      exact h.core.unique
    case eid =>
      simp only [Routerlist.sortOldRouters, hmem]
      exact h.core.eid
    case eid_zero => exact h.core.eid_zero
    case extra => exact h.core.extra
  · exact h.finds

lemma Inv.extrainfoInsert (h : Inv text rl) (ei : Extrainfo) (compatible : Bool) :
    ∃ t, rl.extrainfoInsert text ei compatible = some t ∧ Inv text t := by
  rw [Routerlist.extrainfoInsert]
  split
  · exact ⟨rl, rfl, h⟩
  · exact ⟨rl, rfl, h⟩
  · next sd _ hsd =>
      obtain ⟨-, d, hd, -⟩ := h.core.eid' _ sd hsd
      rw [hd, map_some]
      refine ⟨_, rfl, ?_⟩
      split
      · refine ⟨{ h.core with extra := fun k ei' hget => ?_ }, h.finds⟩
        rcases AssocMap.get_set_eq_some.mp hget with ⟨rfl, rfl⟩ | ⟨-, hget⟩
        · rfl
        · exact h.core.extra k ei' hget
      · exact h

lemma Core.addBranch (h : Core text none rl) (ctx : AddContext) (d : Digest)
    (purpose : RouterPurpose) :
    ∃ action r msg, rl.addBranch text ctx d purpose = some (action, r, msg) ∧
      (∀ p, action = .replace p → rl.identityMap.get (text d).identityDigest = some p) ∧
      (action = .insert → rl.identityMap.get (text d).identityDigest = none) := by
  rcases hid : rl.identityMap.get (text d).identityDigest with _ | p
  · simp only [Routerlist.addBranch, hid, bind_eq_bind, bind_some, Option.pure_def]
    split_ifs <;> exact ⟨_, _, _, rfl, fun q hq => (by cases hq), fun _ => trivial⟩
  · obtain ⟨hp, d', hd', -⟩ := (h.identity _ p).mp hid
    obtain ⟨desc, hdesc, -⟩ := map_eq_some_iff.mp hd'
    simp only [Routerlist.addBranch, hid, hdesc, map_some, bind_eq_bind, bind_some, Option.pure_def]
    split_ifs <;> exact ⟨_, _, _, rfl, fun q hq => (by cases hq <;> rfl), fun hq => (by cases hq)⟩

lemma keepsMaps_add_iff {ctx : AddContext} (hri : ri ∈ rl.parsed)
    (hdesc : rl.descs.get ri = some ⟨d, some purpose⟩) {action : AddAction} {r : WasRouterAdded}
    {msg : Option String} (hbranch : rl.addBranch text ctx d purpose = some (action, r, msg)) :
    (Event.addToRouterlist ctx ri).KeepsMaps text rl ↔
      action.KeepsMaps text rl ctx.cachesOld ri d purpose := by
  constructor
  · intro hkeeps
    exact hkeeps hri d purpose action hdesc (by rw [hbranch, map_some])
  · intro hkeeps _ d' purpose' action' hdesc' hbranch'
    rw [hdesc] at hdesc'
    cases hdesc'
    rw [hbranch, map_some] at hbranch'
    exact some.inj hbranch' ▸ hkeeps

lemma Inv.addToRouterlist (h : Inv text rl) (alloc : Allocator Desc) (ctx : AddContext)
    (hri : ri ∈ rl.parsed) :
    ∃ t, ((rl.give ri).routerAddToRouterlist text alloc ctx ri).map Prod.fst = some t ∧
      (Sound text t → (Event.addToRouterlist ctx ri).KeepsMaps text rl) ∧
      ((Event.addToRouterlist ctx ri).KeepsMaps text rl → Inv text t) := by
  obtain ⟨d, purpose, hheld⟩ := h.held hri
  have hgive := h.give ri
  obtain ⟨action, r, msg, hbranch, hreplace, hinsert⟩ := hgive.core.addBranch ctx d purpose
  rw [keepsMaps_add_iff hri hheld.get hbranch]
  simp only [routerAddToRouterlist, hheld.get, bind_eq_bind, bind_some, hbranch]
  cases action with
  | drop =>
    refine ⟨_, rfl, fun _ => trivial, fun _ =>
      ⟨hgive.core.free hheld.parsed hheld.routers hheld.old, fun e => ?_⟩⟩
    exact (findsAt_congr (fun p => carries_free hheld.routers) rfl).mpr (hgive.finds e)
  | insertOld =>
    obtain ⟨t, ht, hcore, hfinds⟩ := hgive.routerlistInsertOld alloc ctx.cachesOld hheld
    simp only [ht]
    exact ⟨t, rfl, fun hsound => hfinds.mp hsound.eid_finds,
      fun hkeeps => ⟨hcore, hfinds.mpr hkeeps⟩⟩
  | replace p =>
    have hget := hreplace p rfl
    obtain ⟨hp, d', hd', hid⟩ := (hgive.core.identity _ p).mp hget
    obtain ⟨t, ht, hsound, hinv⟩ :=
      hgive.routerlistReplace alloc ctx.cachesOld hp hheld
        fun dOld hdOld => by
          rw [hd'] at hdOld
          rw [← some.inj hdOld, hid]
    simp only [ht]
    exact ⟨t, rfl, hsound, hinv⟩
  | insert =>
    obtain ⟨t, ht, hinv⟩ := hgive.routerlistInsert hheld (hinsert rfl)
    simp only [ht]
    exact ⟨t, rfl, fun _ => trivial, fun _ => hinv⟩

lemma Inv.reparseOld (h : Inv text rl) (alloc : Allocator Desc) (parses : Bool)
    (hsd : sd ∈ rl.oldRouters) :
    ∃ t, rl.routerlistReparseOld text alloc parses sd = some t ∧
      (Sound text t → parses = true → RemovesOldUnshared text rl sd) ∧
      ((parses = true → RemovesOldUnshared text rl sd) → Inv text t) := by
  obtain ⟨i, -, -, hget⟩ := h.core.old_indexed.getElem?_index hsd
  obtain ⟨d, hd⟩ := isSome_iff_exists.mp (h.core.old sd hsd).1
  obtain ⟨desc, hdesc, rfl⟩ := map_eq_some_iff.mp hd
  rw [routerlistReparseOld, hdesc]
  cases parses with
  | false => exact ⟨rl, rfl, fun _ hparses => (by cases hparses), fun _ => h⟩
  | true =>
    have hparse : Inv text (rl.parseRouter alloc desc.signedDescriptorDigest .general) :=
      h.parseRouter desc.signedDescriptorDigest .general
    obtain ⟨t, ht, hcore, hfinds⟩ := hparse.routerlistRemoveOld hget (Or.inl rfl)
    rw [removesOldUnshared_parseRouter h.core hsd] at hfinds
    exact ⟨t, ht, fun hsound _ => hfinds.mp hsound.eid_finds,
      fun hkeeps => ⟨hcore, hfinds.mpr (hkeeps rfl)⟩⟩

lemma Inv.step (h : Inv text rl) (alloc : Allocator Desc) (e : Event) :
    ∃ t, step text alloc rl e = some t ∧ (Sound text t → e.KeepsMaps text rl) ∧
      (e.KeepsMaps text rl → Inv text t) := by
  by_cases hissued : e.Issued rl
  · rw [Routerlist.step.eq_def, if_pos hissued]
    cases e with
    | parseRouter d purpose =>
      exact ⟨_, rfl, fun _ _ => trivial, fun _ => h.parseRouter d purpose⟩
    | addToRouterlist ctx router => exact h.addToRouterlist alloc ctx hissued
    | remove cachesOld ri makeOld =>
      obtain ⟨t, ht, hcore, hfinds⟩ := h.routerlistRemove alloc cachesOld makeOld hissued
      exact ⟨t, ht, fun hsound _ => hfinds.mp hsound.eid_finds,
        fun hkeeps => ⟨hcore, hfinds.mpr (hkeeps hissued)⟩⟩
    | removeOld sd idx =>
      obtain ⟨hsd, hidx⟩ := hissued
      obtain ⟨i, hindex, hi, hget⟩ := h.core.old_indexed.getElem?_index hsd
      have hplace : idx = -1 ∨ idx = i := by
        refine hidx.imp_right fun ⟨hnonneg, hget'⟩ => ?_
        have := h.core.old_indexed idx.toNat sd hget'
        omega
      obtain ⟨t, ht, hcore, hfinds⟩ := h.routerlistRemoveOld hget hplace
      exact ⟨t, ht, fun hsound _ => hfinds.mp hsound.eid_finds,
        fun hkeeps => ⟨hcore, hfinds.mpr (hkeeps ⟨hsd, hidx⟩)⟩⟩
    | reparseOld parses sd =>
      obtain ⟨t, ht, hsound, hinv⟩ := h.reparseOld alloc parses hissued
      exact ⟨t, ht, fun hs _ => hsound hs, fun hkeeps => hinv (hkeeps hissued)⟩
    | sortOldRouters sorted =>
      exact ⟨_, rfl, fun _ _ => trivial, fun _ => h.sortOldRouters hissued⟩
    | extrainfoInsert ei compatible =>
      obtain ⟨t, ht, hinv⟩ := h.extrainfoInsert ei compatible
      exact ⟨t, ht, fun _ _ => trivial, fun _ => hinv⟩
  · rw [Routerlist.step.eq_def, if_neg hissued]
    exact ⟨rl, rfl, fun _ hissued' => absurd hissued' hissued, fun _ => h⟩

/-- **The indices of the router list.**  They are right all along a run, and no assertion fails,
exactly when no step files away or drops a descriptor so that one live router is left with its
extra-info digest, and none puts a router in the place of another while an old descriptor has its
digest. -/
theorem sound_iff_keepsMaps (text : Digest → SignedText) (alloc : Allocator Desc)
    (es : List Event) :
    ((∀ pre, pre <+: es → ∀ u, Reaches (step text alloc) init pre u → Sound text u) ∧
        Meets (step text alloc) (fun rl e => (step text alloc rl e).isSome) init es)
      ↔ Meets (step text alloc) (fun rl e => e.KeepsMaps text rl) init es := by
  refine forall_reached_and_meets_iff (I := Inv text) (fun rl h => h.sound) ?_ ?_ inv_init
  · intro rl e h
    obtain ⟨t, ht, hsound, hinv⟩ := h.step alloc e
    simp only [ht, some.injEq, forall_eq', isSome_some, and_true]
    exact ⟨hsound, fun hkeeps => (hinv hkeeps).sound⟩
  · intro rl e u h hkeeps hu
    obtain ⟨t, ht, -, hinv⟩ := h.step alloc e
    rw [ht] at hu
    exact some.inj hu ▸ hinv hkeeps

/-- A relay that lists one extra-info document in all its descriptors. -/
def sharedText (d : Digest) : SignedText := ⟨7, 9, d.toNat, 1⟩

/-- A client without a consensus that reads its cache. -/
def clientContext : AddContext :=
  ⟨0, true, false, false, fun _ => false, false, none, false, true, false, none⟩

/-- A descriptor, and a newer one of the same relay. -/
def replaceRun : List Event :=
  [.parseRouter 1 .general, .addToRouterlist clientContext 1, .parseRouter 2 .general,
    .addToRouterlist clientContext 2]

/-- **The newer descriptor is not found** by the extra-info digest that only it has. -/
theorem sound_fails :
    ¬ ∀ (text : Digest → SignedText) (alloc : Allocator Desc) (es : List Event) (u : Routerlist),
      Reaches (step text alloc) init es u → Sound text u := by
  intro h
  have hrun : (replaceRun.foldlM (step sharedText (.next _)) init).map (fun u =>
      (u.routers, u.digestAt 2, u.descByEidMap.get 9)) = some ([2], some 2, none) := by
    decide +kernel
  obtain ⟨u, hu, hlists⟩ := map_eq_some_iff.mp hrun
  obtain ⟨hrouters, hlists⟩ := Prod.mk.inj hlists
  obtain ⟨hdigest, heid⟩ := Prod.mk.inj hlists
  have hcarries : Carries sharedText u 9 2 := ⟨by rw [hrouters]; simp, 2, hdigest, rfl⟩
  have hfinds := (h sharedText (.next _) replaceRun u hu).eid_finds 9 (by decide) 2 hcarries
    fun q hq => by
      have hmem := hq.1
      rw [hrouters] at hmem
      simpa using hmem
  rw [heid] at hfinds
  cases hfinds

end Ator.Nodelist.Routerlist
