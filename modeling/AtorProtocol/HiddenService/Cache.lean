import AtorProtocol.Lib.AssocMap

/-!
# The descriptor caches of onion services

`src/feature/hs/hs_cache.c`.  A directory keeps descriptors under their blinded keys, a client
keeps them under the identity keys of the services, and one counter has the bytes of both.

* `hsCacheStoreAsDir`, `cacheCleanV3AsDir`, `hsCacheHandleOom` — the directory's side.
* `hsCacheStoreAsClient`, `hsCacheRemoveAsClient`, `hsCacheCleanAsClient`, `hsCachePurgeAsClient`,
  `hsCacheClientNewAuthParse` — the client's side.

The decoding of descriptors and the sizes of the objects are parameters.
-/

namespace Ator.HiddenService

/-- `sizeof` of the objects; none is empty. -/
structure Sizes where
  dirDescriptor : ℕ
  clientDescriptor : ℕ
  plaintextData : ℕ
  signingKeyCert : ℕ
  encryptedData : ℕ
  introAuthTypes : ℕ
  introPoint : ℕ
  subcredential : ℕ
  clientDescriptor_pos : 0 < clientDescriptor
  plaintextData_pos : 0 < plaintextData

def sizeMax : ℕ := 2 ^ 64 - 1

/-- What the caches read of `hs_desc_plaintext_data_t`. -/
structure HsDescPlaintextData (κ : Type*) where
  blindedPubkey : κ
  lifetimeSec : ℕ
  revisionCounter : ℕ
  superencryptedBlobSize : ℕ
deriving DecidableEq

/-- What the caches read of `hs_descriptor_t`, with the lengths of the lists in its encrypted
data. -/
structure HsDescriptor (κ : Type*) where
  plaintextData : HsDescPlaintextData κ
  introAuthTypes : ℕ
  introPoints : ℕ
deriving DecidableEq

/-- The errors in `hs_desc_decode_status_t`. -/
inductive HsDescDecodeError where
  | genericError | plaintextError | superencError | encryptedError
  | needClientAuth | badClientAuth
deriving DecidableEq

/-- The decoding of descriptors: `hs_desc_decode_plaintext`, `hs_desc_decode_descriptor`, and
`tor_cert_checksig` for the certificate and the blinded key.  `ω` is what else they depend on, the
clock and the client authorizations. -/
structure Decoder (κ ω : Type*) where
  plaintext : List UInt8 → Option (HsDescPlaintextData κ)
  descriptor : ω → κ → List UInt8 → Except HsDescDecodeError (HsDescriptor κ)
  certChecksig : ω → κ → HsDescriptor κ → Bool

structure HsCacheDirDescriptor (κ : Type*) where
  createdTs : ℤ
  plaintextData : HsDescPlaintextData κ
  encodedDesc : List UInt8
deriving DecidableEq

structure HsCacheClientDescriptor (κ : Type*) where
  key : κ
  expirationTs : ℤ
  desc : Option (HsDescriptor κ)
  encodedDesc : List UInt8
deriving DecidableEq

/-- The two caches, `hs_cache_total_allocation`, and `have_underflowed` of
`hs_cache_decrement_allocation`. -/
structure HsCache (κ : Type*) where
  v3Dir : AssocMap κ (HsCacheDirDescriptor κ)
  v3Client : AssocMap κ (HsCacheClientDescriptor κ)
  totalAllocation : ℕ
  haveUnderflowed : Bool

variable {κ ω : Type*}

/-! ## Expiration -/

/-- The entry goes with a cleaning at `now`; without a cutoff its own lifetime gives one. -/
def HsCacheDirDescriptor.expired (entry : HsCacheDirDescriptor κ) (now globalCutoff : ℤ) : Bool :=
  let cutoff := if globalCutoff = 0 then now - entry.plaintextData.lifetimeSec else globalCutoff
  entry.createdTs ≤ cutoff

/-- `cached_client_descriptor_has_expired`, with the `valid_after` of the reasonably live consensus,
if there is one. -/
def HsCacheClientDescriptor.hasExpired (cachedDesc : HsCacheClientDescriptor κ)
    (validAfter : Option ℤ) : Bool :=
  match validAfter with
  | none => true
  | some validAfter => cachedDesc.expirationTs ≤ validAfter

variable [DecidableEq κ] (sz : Sizes) (dec : Decoder κ ω)

/-! ## Sizes -/

def hsDescPlaintextObjSize (data : HsDescPlaintextData κ) : ℕ :=
  sz.plaintextData + sz.signingKeyCert + data.superencryptedBlobSize

def hsDescEncryptedObjSize (desc : HsDescriptor κ) : ℕ :=
  sz.encryptedData + (desc.introAuthTypes * sz.introAuthTypes + desc.introPoints * sz.introPoint)

/-- `hs_desc_obj_size`, with `none` for `NULL`. -/
def hsDescObjSize : Option (HsDescriptor κ) → ℕ
  | none => 0
  | some desc =>
    hsDescPlaintextObjSize sz desc.plaintextData + hsDescEncryptedObjSize sz desc + sz.subcredential

def cacheGetDirEntrySize (entry : HsCacheDirDescriptor κ) : ℕ :=
  sz.dirDescriptor + hsDescPlaintextObjSize sz entry.plaintextData + entry.encodedDesc.length

def cacheGetClientEntrySize (entry : HsCacheClientDescriptor κ) : ℕ :=
  sz.clientDescriptor + entry.encodedDesc.length
    + if entry.desc.isSome then hsDescObjSize sz entry.desc else 0

namespace HsCache

def init : HsCache κ := ⟨∅, ∅, 0, false⟩

variable (s : HsCache κ)

/-- The bytes of the entries in both caches. -/
def entryBytes : ℕ :=
  s.v3Dir.total (cacheGetDirEntrySize sz) + s.v3Client.total (cacheGetClientEntrySize sz)

/-- An entry of `n` bytes fits in memory beside the others; else `tor_malloc` ends the program. -/
def hasRoom (n : ℕ) : Bool := s.entryBytes sz + n ≤ sizeMax

def decrementAllocation (n : ℕ) : HsCache κ :=
  if n ≤ s.totalAllocation then { s with totalAllocation := s.totalAllocation - n }
  else { s with totalAllocation := 0, haveUnderflowed := true }

def incrementAllocation (n : ℕ) : HsCache κ :=
  if s.totalAllocation + n ≤ sizeMax then { s with totalAllocation := s.totalAllocation + n }
  else { s with totalAllocation := sizeMax }

/-! ## The directory's cache -/

/-- `remove_v3_desc_as_dir` and the decrement that goes with it. -/
def removeV3DescAsDir (key : κ) (entry : HsCacheDirDescriptor κ) : HsCache κ :=
  { s with v3Dir := s.v3Dir.erase key }.decrementAllocation (cacheGetDirEntrySize sz entry)

/-- `store_v3_desc_as_dir` and the increment that goes with it. -/
def storeV3DescAsDir (desc : HsCacheDirDescriptor κ) : HsCache κ :=
  { s with v3Dir := s.v3Dir.set desc.plaintextData.blindedPubkey desc }.incrementAllocation
    (cacheGetDirEntrySize sz desc)

/-- `cache_store_v3_as_dir`; `none` where the cache has a newer version. -/
def cacheStoreV3AsDir (desc : HsCacheDirDescriptor κ) : Option (HsCache κ) :=
  match s.v3Dir.get desc.plaintextData.blindedPubkey with
  | none => some (s.storeV3DescAsDir sz desc)
  | some cacheEntry =>
    if desc.plaintextData.revisionCounter ≤ cacheEntry.plaintextData.revisionCounter then none
    else
      some ((s.removeV3DescAsDir sz cacheEntry.plaintextData.blindedPubkey
        cacheEntry).storeV3DescAsDir sz desc)

/-- `hs_cache_store_as_dir`: the caches, and whether it returns 0. -/
def hsCacheStoreAsDir (desc : List UInt8) (now : ℤ) : Option (HsCache κ × Bool) :=
  match dec.plaintext desc with
  | none => some (s, false)
  | some plaintextData =>
    let dirDesc : HsCacheDirDescriptor κ := ⟨now, plaintextData, desc⟩
    if ¬ s.hasRoom sz (cacheGetDirEntrySize sz dirDesc) then none
    else
      match s.cacheStoreV3AsDir sz dirDesc with
      | none => some (s, false)
      | some s => some (s, true)

/-- `cache_clean_v3_as_dir`: the caches and the bytes removed; `none` where it asserts. -/
def cacheCleanV3AsDir (now globalCutoff : ℤ) : Option (HsCache κ × ℕ) :=
  if globalCutoff < 0 then none
  else
    some (s.v3Dir.entries.foldl
      (fun acc entry =>
        if entry.2.expired now globalCutoff then
          (acc.1.removeV3DescAsDir sz entry.1 entry.2, acc.2 + cacheGetDirEntrySize sz entry.2)
        else acc)
      (s, 0))

/-- `hs_cache_max_entry_lifetime`: two days, and a day of skew. -/
def hsCacheMaxEntryLifetime : ℤ := 2 * 24 * 60 * 60 + 24 * 60 * 60

/-- The loop of `hs_cache_handle_oom`, from the age `k` and with the bytes removed so far. -/
def handleOomFrom (now : ℤ) (minRemoveBytes : ℕ) (testingTorNetwork : Bool) (s : HsCache κ) (k : ℤ)
    (bytesRemoved : ℕ) : Option (HsCache κ × ℕ) :=
  if k < 0 then some (s, bytesRemoved)
  else
    match s.cacheCleanV3AsDir sz now (now - k) with
    | none => none
    | some (s, bytes) =>
      if bytesRemoved + bytes < minRemoveBytes then
        handleOomFrom now minRemoveBytes testingTorNetwork s
          (k - if testingTorNetwork then 120 else 3600) (bytesRemoved + bytes)
      else some (s, bytesRemoved + bytes)
termination_by (k + 1).toNat
decreasing_by split <;> omega

def hsCacheHandleOom (now : ℤ) (minRemoveBytes : ℕ) (testingTorNetwork : Bool) :
    Option (HsCache κ × ℕ) :=
  if minRemoveBytes = 0 then none
  else handleOomFrom sz now minRemoveBytes testingTorNetwork s hsCacheMaxEntryLifetime 0

/-! ## The client's cache -/

def lookupV3DescAsClient (key : κ) (validAfter : Option ℤ) :
    Option (HsCacheClientDescriptor κ) :=
  (s.v3Client.get key).filter fun cachedDesc => ¬ cachedDesc.hasExpired validAfter

def removeV3DescAsClient (key : κ) (entry : HsCacheClientDescriptor κ) : HsCache κ :=
  { s with v3Client := s.v3Client.erase key }.decrementAllocation (cacheGetClientEntrySize sz entry)

/-- `store_v3_desc_as_client`.  An entry that is still there under the key is freed. -/
def storeV3DescAsClient (desc : HsCacheClientDescriptor κ) : HsCache κ :=
  { s with v3Client := s.v3Client.set desc.key desc }.incrementAllocation
    (cacheGetClientEntrySize sz desc)

def cacheStoreAsClient (clientDesc : HsCacheClientDescriptor κ) (validAfter : Option ℤ) :
    HsCache κ :=
  match s.lookupV3DescAsClient clientDesc.key validAfter with
  | none => s.storeV3DescAsClient sz clientDesc
  | some cacheEntry =>
    match cacheEntry.desc, clientDesc.desc with
    | some cached, some new =>
      if new.plaintextData.revisionCounter < cached.plaintextData.revisionCounter then s
      else (s.removeV3DescAsClient sz cacheEntry.key cacheEntry).storeV3DescAsClient sz clientDesc
    | _, _ =>
      (s.removeV3DescAsClient sz cacheEntry.key cacheEntry).storeV3DescAsClient sz clientDesc

/-- `hs_client_decode_descriptor`: what it returns, and the descriptor it leaves in `*desc`.  The
check of the certificate fails with the descriptor left there. -/
def hsClientDecodeDescriptor (env : ω) (serviceIdentityPk : κ) (descStr : List UInt8) :
    Except HsDescDecodeError Unit × Option (HsDescriptor κ) :=
  match dec.descriptor env serviceIdentityPk descStr with
  | .error err => (.error err, none)
  | .ok desc =>
    if dec.certChecksig env serviceIdentityPk desc then (.ok (), some desc)
    else (.error .genericError, some desc)

def cacheClientDescNew (env : ω) (serviceIdentityPk : κ) (descStr : List UInt8)
    (nextTimePeriod : ℤ) :
    Except HsDescDecodeError Unit × Option (HsCacheClientDescriptor κ) :=
  let (ret, desc) := hsClientDecodeDescriptor dec env serviceIdentityPk descStr
  match ret with
  | .ok _ => (ret, some ⟨serviceIdentityPk, nextTimePeriod, desc, descStr⟩)
  | .error .needClientAuth | .error .badClientAuth =>
    if desc.isSome then (ret, none)
    else (ret, some ⟨serviceIdentityPk, nextTimePeriod, desc, descStr⟩)
  | .error _ => (ret, none)

def hsCacheStoreAsClient (env : ω) (identityPk : κ) (descStr : List UInt8) (nextTimePeriod : ℤ)
    (validAfter : Option ℤ) : Option (HsCache κ × Except HsDescDecodeError Unit) :=
  match cacheClientDescNew dec env identityPk descStr nextTimePeriod with
  | (ret, none) => some (s, ret)
  | (ret, some clientDesc) =>
    if ¬ s.hasRoom sz (cacheGetClientEntrySize sz clientDesc) then none
    else some (s.cacheStoreAsClient sz clientDesc validAfter, ret)

def hsCacheRemoveAsClient (key : κ) (validAfter : Option ℤ) : HsCache κ :=
  match s.lookupV3DescAsClient key validAfter with
  | none => s
  | some cachedDesc => s.removeV3DescAsClient sz cachedDesc.key cachedDesc

/-- `cache_clean_v3_as_client`, which `hs_cache_clean_as_client` calls: the caches and the bytes
removed. -/
def hsCacheCleanAsClient (validAfter : Option ℤ) : HsCache κ × ℕ :=
  s.v3Client.entries.foldl
    (fun acc entry =>
      if entry.2.hasExpired validAfter then
        (acc.1.removeV3DescAsClient sz entry.1 entry.2, acc.2 + cacheGetClientEntrySize sz entry.2)
      else acc)
    (s, 0)

def hsCachePurgeAsClient : HsCache κ :=
  s.v3Client.entries.foldl (fun s entry => s.removeV3DescAsClient sz entry.1 entry.2) s

/-- `hs_cache_client_new_auth_parse`: the caches, and whether it decoded.  `*desc` is the entry's. -/
def hsCacheClientNewAuthParse (env : ω) (servicePk : κ) (validAfter : Option ℤ) :
    HsCache κ × Bool :=
  match s.lookupV3DescAsClient servicePk validAfter with
  | none => (s, false)
  | some cachedDesc =>
    if cachedDesc.desc.isSome then (s, false)
    else
      let (ret, desc) := hsClientDecodeDescriptor dec env servicePk cachedDesc.encodedDesc
      ({ s with v3Client := s.v3Client.modify servicePk fun cachedDesc => { cachedDesc with desc } },
        ret.isOk)

/-- `hs_cache_free_all`; `have_underflowed` is not reset. -/
def hsCacheFreeAll : HsCache κ := { s with v3Dir := ∅, v3Client := ∅, totalAllocation := 0 }

end HsCache

end Ator.HiddenService
