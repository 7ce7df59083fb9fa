import AtorProtocol.Lib.CachedTable
import AtorProtocol.Lib.IndexedList

/-!
# The router list

The lists and maps of `src/feature/nodelist/routerlist.c`: the live routers, the old descriptors
that a cache still serves, and the indices over them.

* `Routerlist` — the descriptors in memory, the two lists and the maps.  A `routerinfo_t` and its
  `cache_info` have one address.
* `SignedText` — what a signed descriptor says, by its digest: two descriptors with one digest are
  the same text.
* `routerlistInsert`, `routerlistInsertOld`, `routerlistRemove`, `routerlistRemoveOld`,
  `routerlistReplace`, `routerlistReparseOld` — the operations; `none` where an assertion fails or
  freed memory is read.
* `routerAddToRouterlist` — what becomes of a router that has been parsed.
-/

namespace Ator.Nodelist

/-- `DIGEST_LEN` bytes. -/
abbrev Digest := BitVec 160

inductive RouterPurpose where
  | general
  | controller
  | bridge
  | unknown
deriving DecidableEq

/-- What the signed part of a descriptor says. -/
structure SignedText where
  identityDigest : Digest
  extraInfoDigest : Digest
  publishedOn : ℤ
  certExpirationTime : ℤ

/-- `signed_descriptor_t`, with the purpose of the `routerinfo_t` that it is in, if it is in one. -/
structure Desc where
  signedDescriptorDigest : Digest
  routerinfo : Option RouterPurpose

structure Extrainfo where
  signedDescriptorDigest : Digest
  identityDigest : Digest

/-- `routerlist_t`, with the memory of its descriptors.  `parsed` are the routers that a caller
holds, and `nodeRi` is the `ri` of each node. -/
structure Routerlist where
  descs : AssocMap ℕ Desc
  routerlistIndex : ℕ → ℤ
  parsed : List ℕ
  routers : List ℕ
  oldRouters : List ℕ
  identityMap : AssocMap Digest ℕ
  descDigestMap : AssocMap Digest ℕ
  descByEidMap : AssocMap Digest ℕ
  extraInfoMap : AssocMap Digest Extrainfo
  nodeRi : AssocMap Digest ℕ

namespace Routerlist

def init : Routerlist := ⟨∅, fun _ => -1, [], [], [], ∅, ∅, ∅, ∅, ∅⟩

variable (text : Digest → SignedText) (alloc : Allocator Desc) (rl : Routerlist)

/-- The digest of the descriptor at an address. -/
def digestAt (p : ℕ) : Option Digest := (rl.descs.get p).map Desc.signedDescriptorDigest

/-! ## Memory -/

def setIndex (p : ℕ) (idx : ℤ) : Routerlist :=
  { rl with routerlistIndex := Function.update rl.routerlistIndex p idx }

/-- `routerinfo_free`, `signed_descriptor_free` -/
def free (p : ℕ) : Routerlist := { rl with descs := rl.descs.erase p }

/-- A router that has been parsed. -/
def parseRouter (d : Digest) (purpose : RouterPurpose) : Routerlist :=
  { rl with
    descs := rl.descs.set (alloc.malloc rl.descs) ⟨d, some purpose⟩
    routerlistIndex := Function.update rl.routerlistIndex (alloc.malloc rl.descs) (-1)
    parsed := alloc.malloc rl.descs :: rl.parsed }

/-- `signed_descriptor_from_routerinfo`, with the address of the new descriptor. -/
def signedDescriptorFromRouterinfo (ri : ℕ) : Option (Routerlist × ℕ) := do
  let d ← rl.descs.get ri
  if d.routerinfo ≠ some .general then none
  let sd := alloc.malloc rl.descs
  let rl := { rl with descs := rl.descs.set sd ⟨d.signedDescriptorDigest, none⟩ }
  return ((rl.setIndex sd (-1)).free ri, sd)

/-! ## Lists -/

/-- `smartlist_del` on `routers`, and the index of the router that moves. -/
def delRouter (idx : ℤ) : Option Routerlist :=
  if 0 ≤ idx ∧ idx < rl.routers.length then
    let l := swapDel rl.routers idx.toNat
    some { rl with
      routers := l
      routerlistIndex := reindex rl.routerlistIndex l idx.toNat }
  else none

/-- `smartlist_del` on `old_routers`, and the index of the descriptor that moves. -/
def delOldRouter (idx : ℤ) : Option Routerlist :=
  if 0 ≤ idx ∧ idx < rl.oldRouters.length then
    let l := swapDel rl.oldRouters idx.toNat
    some { rl with
      oldRouters := l
      routerlistIndex := reindex rl.routerlistIndex l idx.toNat }
  else none

/-- The entry of a descriptor in `desc_by_eid_map`, if it has an extra-info digest. -/
def noteEid (eid : Digest) (p : ℕ) : Routerlist :=
  { rl with
    descByEidMap := if eid = 0 then rl.descByEidMap else rl.descByEidMap.set eid p }

def forgetEid (eid : Digest) : Routerlist :=
  { rl with descByEidMap := if eid = 0 then rl.descByEidMap else rl.descByEidMap.erase eid }

/-- The lines that put a descriptor on `old_routers` and in the maps. -/
def addOldRouter (d : Digest) (sd : ℕ) : Routerlist :=
  let rl := { rl with
    descDigestMap := rl.descDigestMap.set d sd
    oldRouters := rl.oldRouters ++ [sd] }
  (rl.setIndex sd (rl.oldRouters.length - 1)).noteEid (text d).extraInfoDigest sd

/-- What `nodelist_set_routerinfo` does to the node, and the router it had. -/
def nodelistSetRouterinfo (d : Digest) (ri : ℕ) : Routerlist × Option ℕ :=
  ({ rl with nodeRi := rl.nodeRi.set (text d).identityDigest ri },
    rl.nodeRi.get (text d).identityDigest)

/-- What `nodelist_remove_routerinfo` does to the node. -/
def nodelistRemoveRouterinfo (d : Digest) (ri : ℕ) : Routerlist :=
  { rl with
    nodeRi :=
      if rl.nodeRi.get (text d).identityDigest = some ri then
        rl.nodeRi.erase (text d).identityDigest
      else rl.nodeRi }

/-! ## Operations -/

/-- The block of `routerlist_insert` about a descriptor `sdOld` that had the digest. -/
def dropSuperseded (sdOld : ℕ) : Option Routerlist := do
  let d ← rl.descs.get sdOld
  let idx := rl.routerlistIndex sdOld
  let rl ← (rl.setIndex sdOld (-1)).delOldRouter idx
  let rl := { rl with descByEidMap := rl.descByEidMap.erase (text
    d.signedDescriptorDigest).extraInfoDigest }
  return rl.free sdOld

def routerlistInsert (ri : ℕ) : Option Routerlist := do
  let d ← rl.descs.get ri
  let t := text d.signedDescriptorDigest
  if rl.routerlistIndex ri ≠ -1 then none
  if (rl.identityMap.get t.identityDigest).isSome then none
  let sdOld := rl.descDigestMap.get d.signedDescriptorDigest
  let rl := { rl with
    identityMap := rl.identityMap.set t.identityDigest ri
    descDigestMap := rl.descDigestMap.set d.signedDescriptorDigest ri }
  let rl ← match sdOld with
    | none => some rl
    | some sd => rl.dropSuperseded text sd
  let rl := rl.noteEid t.extraInfoDigest ri
  let rl := { rl with routers := rl.routers ++ [ri] }
  let rl := rl.setIndex ri (rl.routers.length - 1)
  return (rl.nodelistSetRouterinfo text d.signedDescriptorDigest ri).1

/-- `routerlist_insert_old`, where `cachesOld` is `should_cache_old_descriptors()`. -/
def routerlistInsertOld (cachesOld : Bool) (ri : ℕ) : Option Routerlist := do
  let d ← rl.descs.get ri
  if rl.routerlistIndex ri ≠ -1 then none
  if cachesOld ∧ d.routerinfo = some .general ∧
      rl.descDigestMap.get d.signedDescriptorDigest = none then
    let (rl, sd) ← rl.signedDescriptorFromRouterinfo alloc ri
    return rl.addOldRouter text d.signedDescriptorDigest sd
  else return rl.free ri

def routerlistRemove (cachesOld : Bool) (ri : ℕ) (makeOld : Bool) : Option Routerlist := do
  let d ← rl.descs.get ri
  let t := text d.signedDescriptorDigest
  let idx := rl.routerlistIndex ri
  if ¬ (0 ≤ idx ∧ idx < rl.routers.length) then none
  if rl.routers[idx.toNat]? ≠ some ri then none
  let rl := rl.nodelistRemoveRouterinfo text d.signedDescriptorDigest ri
  let rl ← (rl.setIndex ri (-1)).delRouter idx
  let riTmp := rl.identityMap.get t.identityDigest
  let rl := { rl with identityMap := rl.identityMap.erase t.identityDigest }
  if riTmp ≠ some ri then none
  if makeOld ∧ cachesOld ∧ d.routerinfo = some .general then
    let (rl, sd) ← rl.signedDescriptorFromRouterinfo alloc ri
    return rl.addOldRouter text d.signedDescriptorDigest sd
  else
    let sdTmp := rl.descDigestMap.get d.signedDescriptorDigest
    let rl := { rl with descDigestMap := rl.descDigestMap.erase d.signedDescriptorDigest }
    if sdTmp ≠ some ri then none
    let rl := { rl with extraInfoMap := rl.extraInfoMap.erase t.extraInfoDigest }
    return (rl.forgetEid t.extraInfoDigest).free ri

def routerlistRemoveOld (sd : ℕ) (idx : ℤ) : Option Routerlist := do
  let d ← rl.descs.get sd
  let t := text d.signedDescriptorDigest
  let idx := if idx = -1 then rl.routerlistIndex sd else idx
  if ¬ (0 ≤ idx ∧ idx < rl.oldRouters.length) then none
  if rl.oldRouters[idx.toNat]? ≠ some sd then none
  if idx ≠ rl.routerlistIndex sd then none
  let rl ← (rl.setIndex sd (-1)).delOldRouter idx
  let sdTmp := rl.descDigestMap.get d.signedDescriptorDigest
  let rl := { rl with descDigestMap := rl.descDigestMap.erase d.signedDescriptorDigest }
  if sdTmp ≠ some sd then none
  let rl := { rl with extraInfoMap := rl.extraInfoMap.erase t.extraInfoDigest }
  return (rl.forgetEid t.extraInfoDigest).free sd

def routerlistReplace (cachesOld : Bool) (riOld riNew : ℕ) : Option Routerlist := do
  let dOld ← rl.descs.get riOld
  let dNew ← rl.descs.get riNew
  let old := text dOld.signedDescriptorDigest
  let new := text dNew.signedDescriptorDigest
  if riOld = riNew then none
  if rl.routerlistIndex riNew ≠ -1 then none
  let idx := rl.routerlistIndex riOld
  if ¬ (0 ≤ idx ∧ idx < rl.routers.length) then none
  if rl.routers[idx.toNat]? ≠ some riOld then none
  let (rl, riOldTmp) := rl.nodelistSetRouterinfo text dNew.signedDescriptorDigest riNew
  if riOldTmp ≠ some riOld then none
  let rl := { rl with routers := rl.routers.set idx.toNat riNew }
  let rl := (rl.setIndex riOld (-1)).setIndex riNew idx
  if riOld ∈ rl.routers then none
  let rl := { rl with
    identityMap :=
      if old.identityDigest ≠ new.identityDigest then rl.identityMap.erase old.identityDigest
      else rl.identityMap }
  let riTmp := rl.identityMap.get new.identityDigest
  let rl := { rl with identityMap := rl.identityMap.set new.identityDigest riNew }
  if riTmp ≠ none ∧ riTmp ≠ some riOld then none
  let rl := { rl with descDigestMap := rl.descDigestMap.set dNew.signedDescriptorDigest riNew }
  let rl := rl.noteEid new.extraInfoDigest riNew
  let sameDescriptors := dOld.signedDescriptorDigest = dNew.signedDescriptorDigest
  if cachesOld ∧ dOld.routerinfo = some .general ∧ ¬ sameDescriptors then
    let (rl, sd) ← rl.signedDescriptorFromRouterinfo alloc riOld
    return rl.addOldRouter text dOld.signedDescriptorDigest sd
  else if ¬ sameDescriptors then
    let rl := { rl with
      descDigestMap := rl.descDigestMap.erase dOld.signedDescriptorDigest
      extraInfoMap :=
        if old.extraInfoDigest ≠ new.extraInfoDigest then
          rl.extraInfoMap.erase old.extraInfoDigest
        else rl.extraInfoMap }
    return (rl.forgetEid old.extraInfoDigest).free riOld
  else return rl.free riOld

/-- `routerlist_reparse_old`; `parses` is whether the descriptor can be parsed again.  What is on
`old_routers` is a general router's. -/
def routerlistReparseOld (parses : Bool) (sd : ℕ) : Option Routerlist := do
  let d ← rl.descs.get sd
  if parses then
    (rl.parseRouter alloc d.signedDescriptorDigest .general).routerlistRemoveOld text sd (-1)
  else return rl

/-- `extrainfo_insert`; `compatible` is what `routerinfo_incompatible_with_extrainfo` denies. -/
def extrainfoInsert (ei : Extrainfo) (compatible : Bool) : Option Routerlist :=
  match rl.identityMap.get ei.identityDigest, rl.descByEidMap.get ei.signedDescriptorDigest with
  | none, _ => some rl
  | some _, none => some rl
  | some _, some sd =>
    (rl.digestAt sd).map fun d =>
      if ei.signedDescriptorDigest = (text d).extraInfoDigest ∧ compatible then
        { rl with extraInfoMap := rl.extraInfoMap.set ei.signedDescriptorDigest ei }
      else rl

/-- The sorting of `old_routers` in `routerlist_remove_old_routers`, with the indices fixed. -/
def sortOldRouters (sorted : List ℕ) : Routerlist :=
  { rl with
    oldRouters := sorted
    routerlistIndex := fixIndices rl.routerlistIndex sorted }

end Routerlist

end Ator.Nodelist
