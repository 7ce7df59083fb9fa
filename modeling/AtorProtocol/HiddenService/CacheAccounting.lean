import AtorProtocol.HiddenService.Cache
import AtorProtocol.Lib.Run

/-!
# The bytes of the descriptor caches

`src/feature/hs/hs_cache.c`.  `hs_cache_total_allocation` is meant to be the size of the entries of
both caches; the OOM handler frees entries by it.

* `HsCache.step` — the calls that change the caches.
* `hsCache_accounted_iff` — the counter agrees all along a run exactly when no descriptor is stored
  over an expired one and none is decoded late.
* `hsCache_accounted_fails` — an entry decoded late.
-/

namespace Ator.HiddenService

open Option
open AssocMap (foldl_invariant get_eq_some get_erase_of_ne get_erase_self total_erase total_set_new)

/-- What can be called.  `env` is what the decoding depends on, `validAfter` the time of the
reasonably live consensus. -/
inductive HsCacheEvent (κ ω : Type*) where
  | storeAsDir (desc : List UInt8) (now : ℤ)
  | cleanAsDir (now globalCutoff : ℤ)
  | handleOom (now : ℤ) (minRemoveBytes : ℕ) (testingTorNetwork : Bool)
  | storeAsClient (env : ω) (identityPk : κ) (descStr : List UInt8) (nextTimePeriod : ℤ)
      (validAfter : Option ℤ)
  | removeAsClient (key : κ) (validAfter : Option ℤ)
  | cleanAsClient (validAfter : Option ℤ)
  | purgeAsClient
  | clientNewAuthParse (env : ω) (servicePk : κ) (validAfter : Option ℤ)
  | freeAll

variable {κ ω : Type*} [DecidableEq κ] (sz : Sizes) (dec : Decoder κ ω)

namespace HsCache

/-- One call; `none` where the program ends. -/
def step (s : HsCache κ) : HsCacheEvent κ ω → Option (HsCache κ)
  | .storeAsDir desc now => (s.hsCacheStoreAsDir sz dec desc now).map Prod.fst
  | .cleanAsDir now globalCutoff => (s.cacheCleanV3AsDir sz now globalCutoff).map Prod.fst
  | .handleOom now minRemoveBytes testingTorNetwork =>
    (s.hsCacheHandleOom sz now minRemoveBytes testingTorNetwork).map Prod.fst
  | .storeAsClient env identityPk descStr nextTimePeriod validAfter =>
    (s.hsCacheStoreAsClient sz dec env identityPk descStr nextTimePeriod validAfter).map Prod.fst
  | .removeAsClient key validAfter => some (s.hsCacheRemoveAsClient sz key validAfter)
  | .cleanAsClient validAfter => some (s.hsCacheCleanAsClient sz validAfter).1
  | .purgeAsClient => some (s.hsCachePurgeAsClient sz)
  | .clientNewAuthParse env servicePk validAfter =>
    some (s.hsCacheClientNewAuthParse dec env servicePk validAfter).1
  | .freeAll => some s.hsCacheFreeAll

/-- The counter is the size of the entries, and no decrement has exceeded it. -/
structure Accounted (s : HsCache κ) : Prop where
  total : s.totalAllocation = s.entryBytes sz
  noUnderflow : s.haveUnderflowed = false

/-- **The condition.**  No descriptor that fits in memory is stored over one that has expired and is
still there, and none is decoded in its entry. -/
def Counted (s : HsCache κ) : HsCacheEvent κ ω → Prop
  | .storeAsClient env identityPk descStr nextTimePeriod validAfter =>
    ∀ clientDesc cachedDesc,
      (cacheClientDescNew dec env identityPk descStr nextTimePeriod).2 = some clientDesc →
      s.hasRoom sz (cacheGetClientEntrySize sz clientDesc) →
      s.v3Client.get identityPk = some cachedDesc → cachedDesc.hasExpired validAfter = false
  | .clientNewAuthParse env servicePk validAfter =>
    ∀ cachedDesc, s.lookupV3DescAsClient servicePk validAfter = some cachedDesc →
      cachedDesc.desc = none →
      (hsClientDecodeDescriptor dec env servicePk cachedDesc.encodedDesc).2 = none
  | _ => True

/-- What a run keeps: an entry is under its own key, and the counter is a `size_t`. -/
structure Inv (s : HsCache κ) : Prop where
  accounted : s.Accounted sz
  fits : s.totalAllocation ≤ sizeMax
  dirKey : s.v3Dir.KeyedBy fun entry => entry.plaintextData.blindedPubkey
  clientKey : s.v3Client.KeyedBy HsCacheClientDescriptor.key

variable {sz dec} {s t : HsCache κ}

/-! ## Entries that come and go -/

lemma inv_init : (init : HsCache κ).Inv sz :=
  ⟨⟨rfl, rfl⟩, Nat.zero_le _, AssocMap.KeyedBy.empty, AssocMap.KeyedBy.empty⟩

variable {n : ℕ}

omit [DecidableEq κ] in
lemma hasRoom_iff : s.hasRoom sz n = true ↔ s.entryBytes sz + n ≤ sizeMax := by
  simp [hasRoom]

omit [DecidableEq κ] in
lemma cacheGetClientEntrySize_pos (entry : HsCacheClientDescriptor κ) :
    0 < cacheGetClientEntrySize sz entry := by
  have hpos := sz.clientDescriptor_pos
  rw [cacheGetClientEntrySize]
  omega

omit [DecidableEq κ] in
lemma cacheGetClientEntrySize_eq (entry : HsCacheClientDescriptor κ) :
    cacheGetClientEntrySize sz entry
      = sz.clientDescriptor + entry.encodedDesc.length + hsDescObjSize sz entry.desc := by
  rw [cacheGetClientEntrySize]
  rcases entry.desc with _ | desc
  · rfl
  · rfl

omit [DecidableEq κ] in
lemma hsDescObjSize_pos (desc : HsDescriptor κ) : 0 < hsDescObjSize sz (some desc) := by
  have hpos := sz.plaintextData_pos
  rw [hsDescObjSize, hsDescPlaintextObjSize]
  omega

lemma inv_decrementAllocation (htotal : s.totalAllocation = s.entryBytes sz + n)
    (hno : s.haveUnderflowed = false) (hfits : s.totalAllocation ≤ sizeMax)
    (hdir : s.v3Dir.KeyedBy fun entry => entry.plaintextData.blindedPubkey)
    (hclient : s.v3Client.KeyedBy HsCacheClientDescriptor.key) :
    (s.decrementAllocation n).Inv sz := by
  rw [decrementAllocation, if_pos (by omega)]
  refine ⟨⟨?_, hno⟩, (Nat.sub_le _ _).trans hfits, hdir, hclient⟩
  change s.totalAllocation - n = s.entryBytes sz
  omega

lemma inv_incrementAllocation (htotal : s.totalAllocation + n = s.entryBytes sz)
    (hno : s.haveUnderflowed = false) (hfits : s.entryBytes sz ≤ sizeMax)
    (hdir : s.v3Dir.KeyedBy fun entry => entry.plaintextData.blindedPubkey)
    (hclient : s.v3Client.KeyedBy HsCacheClientDescriptor.key) :
    (s.incrementAllocation n).Inv sz := by
  rw [incrementAllocation, if_pos (by omega)]
  exact ⟨⟨htotal, hno⟩, htotal.trans_le hfits, hdir, hclient⟩

omit [DecidableEq κ] in
@[simp] lemma v3Dir_decrementAllocation (n : ℕ) : (s.decrementAllocation n).v3Dir = s.v3Dir := by
  rw [decrementAllocation]
  split <;> rfl

omit [DecidableEq κ] in
@[simp] lemma v3Client_decrementAllocation (n : ℕ) :
    (s.decrementAllocation n).v3Client = s.v3Client := by
  rw [decrementAllocation]
  split <;> rfl

omit [DecidableEq κ] in
@[simp] lemma v3Dir_incrementAllocation (n : ℕ) : (s.incrementAllocation n).v3Dir = s.v3Dir := by
  rw [incrementAllocation]
  split <;> rfl

omit [DecidableEq κ] in
@[simp] lemma v3Client_incrementAllocation (n : ℕ) :
    (s.incrementAllocation n).v3Client = s.v3Client := by
  rw [incrementAllocation]
  split <;> rfl

variable {key : κ}

lemma Inv.removeV3DescAsDir {entry : HsCacheDirDescriptor κ} (h : s.Inv sz)
    (hget : s.v3Dir.get key = some entry) : (s.removeV3DescAsDir sz key entry).Inv sz := by
  have htotal := total_erase (f := cacheGetDirEntrySize sz) hget
  have hcounter := h.accounted.total
  refine inv_decrementAllocation ?_ h.accounted.noUnderflow h.fits (h.dirKey.erase key) h.clientKey
  simp only [entryBytes] at hcounter ⊢
  omega

variable {entry : HsCacheClientDescriptor κ}

lemma Inv.removeV3DescAsClient (h : s.Inv sz)
    (hget : s.v3Client.get key = some entry) : (s.removeV3DescAsClient sz key entry).Inv sz := by
  have htotal := total_erase (f := cacheGetClientEntrySize sz) hget
  have hcounter := h.accounted.total
  refine inv_decrementAllocation ?_ h.accounted.noUnderflow h.fits h.dirKey (h.clientKey.erase key)
  simp only [entryBytes] at hcounter ⊢
  omega

lemma Inv.storeV3DescAsDir {desc : HsCacheDirDescriptor κ} (h : s.Inv sz)
    (hnone : s.v3Dir.get desc.plaintextData.blindedPubkey = none)
    (hroom : s.hasRoom sz (cacheGetDirEntrySize sz desc)) : (s.storeV3DescAsDir sz desc).Inv sz := by
  have htotal := total_set_new (f := cacheGetDirEntrySize sz) hnone (w := desc)
  have hcounter := h.accounted.total
  rw [hasRoom_iff] at hroom
  simp only [entryBytes] at hroom hcounter
  refine inv_incrementAllocation ?_ h.accounted.noUnderflow ?_ (h.dirKey.set desc) h.clientKey
  · simp only [entryBytes]
    omega
  · simp only [entryBytes]
    omega

lemma Inv.storeV3DescAsClient {desc : HsCacheClientDescriptor κ} (h : s.Inv sz)
    (hnone : s.v3Client.get desc.key = none)
    (hroom : s.hasRoom sz (cacheGetClientEntrySize sz desc)) :
    (s.storeV3DescAsClient sz desc).Inv sz := by
  have htotal := total_set_new (f := cacheGetClientEntrySize sz) hnone (w := desc)
  have hcounter := h.accounted.total
  rw [hasRoom_iff] at hroom
  simp only [entryBytes] at hroom hcounter
  refine inv_incrementAllocation ?_ h.accounted.noUnderflow ?_ h.dirKey (h.clientKey.set desc)
  · simp only [entryBytes]
    omega
  · simp only [entryBytes]
    omega

lemma Inv.not_accounted_storeV3DescAsClient {desc cachedDesc : HsCacheClientDescriptor κ}
    (h : s.Inv sz) (hget : s.v3Client.get desc.key = some cachedDesc)
    (hroom : s.hasRoom sz (cacheGetClientEntrySize sz desc)) :
    ¬ (s.storeV3DescAsClient sz desc).Accounted sz := by
  intro hbad
  have htotal := AssocMap.total_set (f := cacheGetClientEntrySize sz) hget (w := desc)
  have hpos : 0 < cacheGetClientEntrySize sz cachedDesc := cacheGetClientEntrySize_pos cachedDesc
  have hcounter := h.accounted.total
  have hnew := hbad.total
  rw [hasRoom_iff] at hroom
  simp only [entryBytes] at hroom hcounter
  rw [HsCache.storeV3DescAsClient, entryBytes, v3Dir_incrementAllocation,
    v3Client_incrementAllocation, incrementAllocation, if_pos (by simp only; omega)] at hnew
  simp only at hnew
  omega

/-! ## The calls -/

lemma Inv.get_removeV3DescAsDir {key key' : κ} {entry : HsCacheDirDescriptor κ} (hne : key' ≠ key) :
    (s.removeV3DescAsDir sz key entry).v3Dir.get key' = s.v3Dir.get key' := by
  rw [HsCache.removeV3DescAsDir, v3Dir_decrementAllocation]
  exact get_erase_of_ne hne

lemma Inv.get_removeV3DescAsClient {key key' : κ}
    (hne : key' ≠ key) :
    (s.removeV3DescAsClient sz key entry).v3Client.get key' = s.v3Client.get key' := by
  rw [HsCache.removeV3DescAsClient, v3Client_decrementAllocation]
  exact get_erase_of_ne hne

lemma hasRoom_removeV3DescAsDir {entry : HsCacheDirDescriptor κ}
    (hget : s.v3Dir.get key = some entry) (hroom : s.hasRoom sz n) :
    (s.removeV3DescAsDir sz key entry).hasRoom sz n := by
  have htotal := total_erase (f := cacheGetDirEntrySize sz) hget
  rw [hasRoom_iff] at hroom ⊢
  rw [removeV3DescAsDir]
  simp only [entryBytes, v3Dir_decrementAllocation, v3Client_decrementAllocation] at hroom ⊢
  omega

lemma hasRoom_removeV3DescAsClient
    (hget : s.v3Client.get key = some entry) (hroom : s.hasRoom sz n) :
    (s.removeV3DescAsClient sz key entry).hasRoom sz n := by
  have htotal := total_erase (f := cacheGetClientEntrySize sz) hget
  rw [hasRoom_iff] at hroom ⊢
  rw [removeV3DescAsClient]
  simp only [entryBytes, v3Dir_decrementAllocation, v3Client_decrementAllocation] at hroom ⊢
  omega

lemma Inv.hsCacheStoreAsDir {desc : List UInt8} {now : ℤ} {ret : Bool} (h : s.Inv sz)
    (ht : s.hsCacheStoreAsDir sz dec desc now = some (t, ret)) : t.Inv sz := by
  rw [HsCache.hsCacheStoreAsDir] at ht
  split at ht
  · cases ht
    exact h
  · next plaintextData _ =>
      simp only at ht
      split at ht
      · cases ht
      · next hroom =>
          rw [not_not] at hroom
          split at ht
          · cases ht
            exact h
          · next s' hstore =>
              cases ht
              rw [cacheStoreV3AsDir] at hstore
              split at hstore
              · next hnone =>
                  obtain rfl := some.inj hstore
                  exact h.storeV3DescAsDir hnone hroom
              · next cacheEntry hsome =>
                  split at hstore
                  · cases hstore
                  · obtain rfl := some.inj hstore
                    have hkey := h.dirKey _ _ hsome
                    rw [← hkey] at hsome
                    refine (h.removeV3DescAsDir hsome).storeV3DescAsDir ?_
                      (hasRoom_removeV3DescAsDir hsome hroom)
                    rw [← hkey, HsCache.removeV3DescAsDir, v3Dir_decrementAllocation]
                    exact get_erase_self

lemma Inv.cacheCleanV3AsDir {now globalCutoff : ℤ} {bytes : ℕ} (h : s.Inv sz)
    (ht : s.cacheCleanV3AsDir sz now globalCutoff = some (t, bytes)) : t.Inv sz := by
  rw [HsCache.cacheCleanV3AsDir] at ht
  split at ht
  · cases ht
  · have hinv := foldl_invariant (I := fun acc : HsCache κ × ℕ => acc.1.Inv sz)
      (g := fun acc key => acc.1.v3Dir.get key)
      (f := fun acc entry => if entry.2.expired now globalCutoff then
        (acc.1.removeV3DescAsDir sz entry.1 entry.2, acc.2 + cacheGetDirEntrySize sz entry.2)
        else acc) ?_ ?_ s.v3Dir.nodup (s := (s, 0)) h ?_
    · rw [some.inj ht] at hinv
      exact hinv
    · intro acc entry hacc hget
      split
      · exact hacc.removeV3DescAsDir hget
      · exact hacc
    · intro acc entry key hne
      split
      · exact Inv.get_removeV3DescAsDir hne
      · rfl
    · intro entry hmem
      exact get_eq_some.mpr hmem

/-- The loop of the OOM handler only cleans. -/
lemma Inv.handleOomFrom {now : ℤ} {minRemoveBytes : ℕ} {testingTorNetwork : Bool} {k : ℤ}
    {bytesRemoved bytes : ℕ} (h : s.Inv sz) (ht : HsCache.handleOomFrom sz now minRemoveBytes
      testingTorNetwork s k bytesRemoved = some (t, bytes)) : t.Inv sz := by
  fun_induction HsCache.handleOomFrom sz now minRemoveBytes testingTorNetwork s k bytesRemoved with
  | case1 s k bytesRemoved hk =>
    cases ht
    exact h
  | case2 s k bytesRemoved hk hnone => cases ht
  | case3 s k bytesRemoved hk s' bytes' hclean hlt ih =>
    exact ih (h.cacheCleanV3AsDir hclean) ht
  | case4 s k bytesRemoved hk s' bytes' hclean hlt =>
    cases ht
    exact h.cacheCleanV3AsDir hclean

lemma Inv.hsCacheHandleOom {now : ℤ} {minRemoveBytes : ℕ} {testingTorNetwork : Bool} {bytes : ℕ}
    (h : s.Inv sz)
    (ht : s.hsCacheHandleOom sz now minRemoveBytes testingTorNetwork = some (t, bytes)) :
    t.Inv sz := by
  rw [HsCache.hsCacheHandleOom] at ht
  split at ht
  · cases ht
  · exact h.handleOomFrom ht

variable {validAfter : Option ℤ}

lemma lookupV3DescAsClient_eq_some
 :
    s.lookupV3DescAsClient key validAfter = some entry
      ↔ s.v3Client.get key = some entry ∧ entry.hasExpired validAfter = false := by
  simp [lookupV3DescAsClient, filter_eq_some_iff]

lemma Inv.hsCacheRemoveAsClient (h : s.Inv sz) :
    (s.hsCacheRemoveAsClient sz key validAfter).Inv sz := by
  rw [HsCache.hsCacheRemoveAsClient]
  split
  · exact h
  · next cachedDesc hlookup =>
      obtain ⟨hget, -⟩ := lookupV3DescAsClient_eq_some.mp hlookup
      refine h.removeV3DescAsClient ?_
      rw [h.clientKey key cachedDesc hget]
      exact hget

lemma Inv.hsCacheCleanAsClient (h : s.Inv sz) :
    (s.hsCacheCleanAsClient sz validAfter).1.Inv sz := by
  refine foldl_invariant (I := fun acc : HsCache κ × ℕ => acc.1.Inv sz)
    (g := fun acc key => acc.1.v3Client.get key) ?_ ?_ s.v3Client.nodup h ?_
  · intro acc entry hacc hget
    split
    · exact hacc.removeV3DescAsClient hget
    · exact hacc
  · intro acc entry key hne
    split
    · exact Inv.get_removeV3DescAsClient hne
    · rfl
  · intro entry hmem
    exact get_eq_some.mpr hmem

lemma Inv.hsCachePurgeAsClient (h : s.Inv sz) : (s.hsCachePurgeAsClient sz).Inv sz := by
  refine foldl_invariant (I := HsCache.Inv sz) (g := fun s key => s.v3Client.get key)
    ?_ ?_ s.v3Client.nodup h ?_
  · intro s entry hs hget
    exact hs.removeV3DescAsClient hget
  · intro s entry key hne
    exact Inv.get_removeV3DescAsClient hne
  · intro entry hmem
    exact get_eq_some.mpr hmem

lemma Inv.hsCacheFreeAll (h : s.Inv sz) : s.hsCacheFreeAll.Inv sz :=
  ⟨⟨rfl, h.accounted.noUnderflow⟩, Nat.zero_le _, AssocMap.KeyedBy.empty, AssocMap.KeyedBy.empty⟩

/-! ## The two ways to lose count -/

variable {clientDesc : HsCacheClientDescriptor κ}

lemma Inv.cacheStoreAsClient
    (h : s.Inv sz) (hroom : s.hasRoom sz (cacheGetClientEntrySize sz clientDesc))
    (hlive : ∀ cachedDesc, s.v3Client.get clientDesc.key = some cachedDesc →
      cachedDesc.hasExpired validAfter = false) :
    (s.cacheStoreAsClient sz clientDesc validAfter).Inv sz := by
  have hreplace {cacheEntry : HsCacheClientDescriptor κ}
      (hget : s.v3Client.get clientDesc.key = some cacheEntry) :
      ((s.removeV3DescAsClient sz cacheEntry.key cacheEntry).storeV3DescAsClient sz
        clientDesc).Inv sz := by
    rw [h.clientKey _ _ hget]
    refine (h.removeV3DescAsClient hget).storeV3DescAsClient ?_
      (hasRoom_removeV3DescAsClient hget hroom)
    rw [HsCache.removeV3DescAsClient, v3Client_decrementAllocation]
    exact get_erase_self
  rw [HsCache.cacheStoreAsClient]
  split
  · next hlookup =>
      refine h.storeV3DescAsClient ?_ hroom
      rcases hget : s.v3Client.get clientDesc.key with _ | cachedDesc
      · rfl
      · have hsome := lookupV3DescAsClient_eq_some.mpr ⟨hget, hlive cachedDesc hget⟩
        rw [hlookup] at hsome
        cases hsome
  · next cacheEntry hlookup =>
      obtain ⟨hget, -⟩ := lookupV3DescAsClient_eq_some.mp hlookup
      split
      · split
        · exact h
        · exact hreplace hget
      · exact hreplace hget

lemma Inv.accounted_cacheStoreAsClient_iff
 (h : s.Inv sz)
    (hroom : s.hasRoom sz (cacheGetClientEntrySize sz clientDesc)) :
    (s.cacheStoreAsClient sz clientDesc validAfter).Accounted sz
      ↔ ∀ cachedDesc, s.v3Client.get clientDesc.key = some cachedDesc →
        cachedDesc.hasExpired validAfter = false := by
  constructor
  · intro haccounted cachedDesc hget
    by_contra hexpired
    rw [HsCache.cacheStoreAsClient] at haccounted
    have hlookup : s.lookupV3DescAsClient clientDesc.key validAfter = none := by
      rw [lookupV3DescAsClient, hget, filter_some, if_neg]
      simpa using hexpired
    rw [hlookup] at haccounted
    exact h.not_accounted_storeV3DescAsClient hget hroom haccounted
  · intro hlive
    exact (h.cacheStoreAsClient hroom hlive).accounted

omit [DecidableEq κ] in
lemma key_cacheClientDescNew {env : ω} {identityPk : κ} {descStr : List UInt8} {nextTimePeriod : ℤ}
    (h : (cacheClientDescNew dec env identityPk descStr nextTimePeriod).2 = some clientDesc) :
    clientDesc.key = identityPk := by
  simp only [cacheClientDescNew] at h
  split at h
  · cases h
    rfl
  · split at h
    · cases h
    · cases h
      rfl
  · split at h
    · cases h
    · cases h
      rfl
  · cases h

/-- The entry of a service with what has been decoded for it. -/
def setDesc (s : HsCache κ) (servicePk : κ) (desc : Option (HsDescriptor κ)) : HsCache κ :=
  { s with v3Client := s.v3Client.modify servicePk fun cachedDesc => { cachedDesc with desc } }

variable {cachedDesc : HsCacheClientDescriptor κ} {servicePk : κ}

lemma entryBytes_setDesc
    {desc : Option (HsDescriptor κ)} (hget : s.v3Client.get servicePk = some cachedDesc)
    (hnone : cachedDesc.desc = none) :
    (s.setDesc servicePk desc).entryBytes sz = s.entryBytes sz + hsDescObjSize sz desc := by
  have htotal := AssocMap.total_modify (f := cacheGetClientEntrySize sz)
    (g := fun cachedDesc => { cachedDesc with desc }) hget
  have hsize : hsDescObjSize sz (none : Option (HsDescriptor κ)) = 0 := rfl
  simp only [cacheGetClientEntrySize_eq, hnone, hsize] at htotal
  simp only [entryBytes, setDesc]
  omega

lemma Inv.accounted_setDesc_iff
    {desc : Option (HsDescriptor κ)} (h : s.Inv sz)
    (hget : s.v3Client.get servicePk = some cachedDesc) (hnone : cachedDesc.desc = none) :
    (s.setDesc servicePk desc).Accounted sz ↔ desc = none := by
  have hbytes : (s.setDesc servicePk desc).entryBytes sz
      = s.entryBytes sz + hsDescObjSize sz desc := entryBytes_setDesc hget hnone
  have hcounter := h.accounted.total
  constructor
  · intro haccounted
    have hnew : s.totalAllocation = (s.setDesc servicePk desc).entryBytes sz := haccounted.total
    rcases desc with _ | desc
    · rfl
    · have hpos : 0 < hsDescObjSize sz (some desc) := hsDescObjSize_pos desc
      omega
  · rintro rfl
    refine ⟨?_, h.accounted.noUnderflow⟩
    rw [hbytes]
    exact hcounter

lemma Inv.setDesc_none (h : s.Inv sz)
    (hget : s.v3Client.get servicePk = some cachedDesc) (hnone : cachedDesc.desc = none) :
    (s.setDesc servicePk none).Inv sz :=
  ⟨(h.accounted_setDesc_iff hget hnone).mpr rfl, h.fits, h.dirKey,
    h.clientKey.modify (g := fun cachedDesc => { cachedDesc with desc := none }) (fun _ => rfl)
      servicePk⟩

lemma hsCacheClientNewAuthParse_cases (dec : Decoder κ ω) (env : ω) (servicePk : κ)
    (validAfter : Option ℤ) :
    (∃ cachedDesc, s.lookupV3DescAsClient servicePk validAfter = some cachedDesc
        ∧ cachedDesc.desc = none
        ∧ (s.hsCacheClientNewAuthParse dec env servicePk validAfter).1 = s.setDesc servicePk
          (hsClientDecodeDescriptor dec env servicePk cachedDesc.encodedDesc).2)
      ∨ ((∀ cachedDesc, s.lookupV3DescAsClient servicePk validAfter = some cachedDesc →
          cachedDesc.desc ≠ none)
        ∧ (s.hsCacheClientNewAuthParse dec env servicePk validAfter).1 = s) := by
  rw [hsCacheClientNewAuthParse]
  split
  · next hlookup =>
      right
      refine ⟨fun cachedDesc hsome => ?_, rfl⟩
      rw [hlookup] at hsome
      cases hsome
  · next cachedDesc hlookup =>
      split
      · next hdecoded =>
          right
          refine ⟨fun cachedDesc' hsome hnone => ?_, rfl⟩
          rw [hlookup] at hsome
          cases hsome
          rw [hnone] at hdecoded
          cases hdecoded
      · next hundecoded =>
          left
          exact ⟨cachedDesc, hlookup, not_isSome_iff_eq_none.mp hundecoded, rfl⟩

/-! ## Runs -/

lemma Inv.step (s : HsCache κ) (e : HsCacheEvent κ ω) (t : HsCache κ) (h : s.Inv sz)
    (hcounted : s.Counted sz dec e) (ht : s.step sz dec e = some t) : t.Inv sz := by
  cases e with
  | storeAsDir desc now =>
    obtain ⟨⟨t, ret⟩, hstore, rfl⟩ := map_eq_some_iff.mp ht
    exact h.hsCacheStoreAsDir hstore
  | cleanAsDir now globalCutoff =>
    obtain ⟨⟨t, bytes⟩, hclean, rfl⟩ := map_eq_some_iff.mp ht
    exact h.cacheCleanV3AsDir hclean
  | handleOom now minRemoveBytes testingTorNetwork =>
    obtain ⟨⟨t, bytes⟩, hoom, rfl⟩ := map_eq_some_iff.mp ht
    exact h.hsCacheHandleOom hoom
  | storeAsClient env identityPk descStr nextTimePeriod validAfter =>
    obtain ⟨⟨t, ret⟩, hstore, rfl⟩ := map_eq_some_iff.mp ht
    rw [HsCache.hsCacheStoreAsClient] at hstore
    split at hstore
    · cases hstore
      exact h
    · next ret' clientDesc hnew =>
        have hdesc := congrArg Prod.snd hnew
        split at hstore
        · cases hstore
        · next hroom =>
            rw [not_not] at hroom
            cases hstore
            refine h.cacheStoreAsClient hroom fun cachedDesc hget => ?_
            rw [key_cacheClientDescNew hdesc] at hget
            exact hcounted clientDesc cachedDesc hdesc hroom hget
  | removeAsClient key validAfter =>
    obtain rfl := some.inj ht
    exact h.hsCacheRemoveAsClient
  | cleanAsClient validAfter =>
    obtain rfl := some.inj ht
    exact h.hsCacheCleanAsClient
  | purgeAsClient =>
    obtain rfl := some.inj ht
    exact h.hsCachePurgeAsClient
  | clientNewAuthParse env servicePk validAfter =>
    obtain rfl := some.inj ht
    rcases hsCacheClientNewAuthParse_cases dec env servicePk validAfter with
      ⟨cachedDesc, hlookup, hnone, heq⟩ | ⟨-, heq⟩
    · rw [heq, hcounted cachedDesc hlookup hnone]
      exact h.setDesc_none (lookupV3DescAsClient_eq_some.mp hlookup).1 hnone
    · rw [heq]
      exact h
  | freeAll =>
    obtain rfl := some.inj ht
    exact h.hsCacheFreeAll

lemma Inv.counted (e : HsCacheEvent κ ω) (h : s.Inv sz)
    (hall : ∀ t, s.step sz dec e = some t → t.Accounted sz) : s.Counted sz dec e := by
  cases e with
  | storeAsClient env identityPk descStr nextTimePeriod validAfter =>
    intro clientDesc cachedDesc hdesc hroom hget
    have hkey := key_cacheClientDescNew hdesc
    refine (h.accounted_cacheStoreAsClient_iff hroom).mp (hall _ ?_) cachedDesc (hkey ▸ hget)
    rw [HsCache.step, HsCache.hsCacheStoreAsClient]
    rcases hnew : cacheClientDescNew dec env identityPk descStr nextTimePeriod with ⟨ret, desc⟩
    rw [hnew] at hdesc
    subst hdesc
    simp only [hroom, not_true_eq_false, if_false, map_some]
  | clientNewAuthParse env servicePk validAfter =>
    intro cachedDesc hlookup hnone
    have haccounted := hall _ rfl
    rcases hsCacheClientNewAuthParse_cases dec env servicePk validAfter with
      ⟨cachedDesc', hlookup', hnone', heq⟩ | ⟨hdecoded, -⟩
    · rw [hlookup'] at hlookup
      cases hlookup
      rw [heq] at haccounted
      exact (h.accounted_setDesc_iff (lookupV3DescAsClient_eq_some.mp hlookup').1 hnone).mp
        haccounted
    · exact absurd hnone (hdecoded cachedDesc hlookup)
  | storeAsDir | cleanAsDir | handleOom | removeAsClient | cleanAsClient | purgeAsClient
  | freeAll => trivial

variable (sz dec)

/-- **The counter of the descriptor caches** is the size of their entries, and no decrement exceeds
it, all along a run exactly when every step is counted. -/
theorem hsCache_accounted_iff (es : List (HsCacheEvent κ ω)) :
    (∀ pre, pre <+: es → ∀ s : HsCache κ, Reaches (step sz dec) init pre s → s.Accounted sz)
      ↔ Meets (step sz dec) (Counted sz dec) (init : HsCache κ) es := by
  refine forall_reached_iff_meets (I := HsCache.Inv sz) (fun s h => h.accounted) (fun s e h => ?_)
    Inv.step inv_init
  constructor
  · exact h.counted e
  · exact fun hcounted t ht => (Inv.step s e t h hcounted ht).accounted

/-- Objects of 64 bytes. -/
def sizesOf64 : Sizes where
  dirDescriptor := 64
  clientDescriptor := 64
  plaintextData := 64
  signingKeyCert := 64
  encryptedData := 64
  introAuthTypes := 64
  introPoint := 64
  subcredential := 64
  clientDescriptor_pos := by decide
  plaintextData_pos := by decide

/-- Descriptors that need a client authorization, which is there or not. -/
def authDecoder : Decoder ℕ Bool where
  plaintext := fun _ => none
  descriptor := fun auth servicePk _ =>
    if auth then .ok ⟨⟨servicePk, 10800, 1, 1000⟩, 0, 3⟩ else .error .needClientAuth
  certChecksig := fun _ _ _ => true

/-- A descriptor is stored, and decoded when its authorization comes.  What it has grown by is in no
increment, and the purge takes more than there is. -/
theorem hsCache_accounted_fails : ∃ s : HsCache ℕ, Reaches (step sizesOf64 authDecoder) init
        [.storeAsClient false 1 [104, 115] 3600 (some 0), .clientNewAuthParse true 1 (some 0)] s
      ∧ s.totalAllocation = 66 ∧ s.entryBytes sizesOf64 = 1514 ∧ ¬ s.Accounted sizesOf64
      ∧ (s.hsCachePurgeAsClient sizesOf64).haveUnderflowed = true := by
  refine ⟨_, rfl, rfl, rfl, ?_, rfl⟩
  intro h
  exact absurd h.total (by decide)

end HsCache

end Ator.HiddenService
