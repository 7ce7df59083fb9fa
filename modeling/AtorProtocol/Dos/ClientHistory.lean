import AtorProtocol.Lib.AssocMap
import AtorProtocol.Policies.AddrPolicy

/-!
# The client history

The map of client addresses of `src/feature/stats/geoip_stats.c`, and the count of concurrent
connections that `src/core/or/dos.c` keeps in its entries.  A connection is counted in the entry
of its address and its transport when it opens; when it closes, the entry of its address without a
transport is looked up.

* `DosState` — the history, the OR connections and the options.
* `DosState.openClient`, `DosState.closeClient` — a connection that comes and goes.
* `DosState.removeEntries` — a pass that frees entries.  `geoipClientCacheHandleOom_eq` says that
  the OOM handler is one.
-/

namespace Ator.Dos

open Ator.Policies List

inductive GeoipClientAction where
  | connect
  | networkstatus
deriving DecidableEq

/-- What `clientmap_entry_hash` and `clientmap_entries_eq` read. -/
structure ClientKey where
  action : GeoipClientAction
  addr : TorAddr
  transportName : Option (List Char)
deriving DecidableEq

/-- `clientmap_entry_t`, with the count of `dos_stats.conn_stats`.  `serial` tells the entries apart
that were allocated for one key; the code has no such field. -/
structure ClientmapEntry where
  serial : ℕ
  lastSeenInMinutes : ℤ
  concurrentCount : ℕ
deriving DecidableEq

/-- `or_connection_t`.  `countedIn` is the serial of the entry it was counted in last; the code has
no such field. -/
structure OrConnection where
  addr : TorAddr
  trackedForDosMitigation : Bool
  countedIn : Option ℕ
deriving DecidableEq

/-- The options and consensus parameters that switch the tracking. -/
structure DosOptions where
  dosCcEnabled : Bool
  dosConnEnabled : Bool
  entryStatistics : Bool
  bridgeRelay : Bool
  bridgeRecordUsageByCountry : Bool
  dirReqStatistics : Bool
  bridgeAuthoritativeDir : Bool

/-- `client_history`, the OR connections of the connection array, and the options.  `allocated` is
the number of entries there have been, and `underflowed` whether `conn_update_on_close` has reported
an underflow. -/
structure DosState where
  clientHistory : AssocMap ClientKey ClientmapEntry
  conns : AssocMap ℕ OrConnection
  options : DosOptions
  allocated : ℕ
  underflowed : Bool

def DosOptions.dosIsEnabled (options : DosOptions) : Bool :=
  options.dosCcEnabled || options.dosConnEnabled

/-- The switches that `geoip_note_client_seen` asks. -/
def DosOptions.notesClients (options : DosOptions) : GeoipClientAction → Bool
  | .connect => options.dosIsEnabled || options.entryStatistics ||
      options.bridgeRelay && options.bridgeRecordUsageByCountry
  | .networkstatus => options.dirReqStatistics && !options.bridgeAuthoritativeDir

def maxLastSeenInMinutes : ℤ := 0x3fffffff

/-- What `last_seen_in_minutes` is set to. -/
def lastSeen (now : ℤ) : ℤ :=
  if now.tdiv 60 ≤ maxLastSeenInMinutes ∧ now ≥ 0 then now.tdiv 60 else 0

namespace DosState

variable (s : DosState)

def geoipLookupClient (addr : TorAddr) (transportName : Option (List Char))
    (action : GeoipClientAction) : Option ClientmapEntry :=
  s.clientHistory.get ⟨action, addr, transportName⟩

def geoipNoteClientSeen (action : GeoipClientAction) (addr : TorAddr)
    (transportName : Option (List Char)) (now : ℤ) : DosState :=
  if ¬ s.options.notesClients action then s
  else
    match s.geoipLookupClient addr transportName action with
    | some ent =>
      { s with
        clientHistory := s.clientHistory.set ⟨action, addr, transportName⟩
          { ent with lastSeenInMinutes := lastSeen now } }
    | none =>
      { s with
        clientHistory := s.clientHistory.set ⟨action, addr, transportName⟩
          ⟨s.allocated, lastSeen now, 0⟩
        allocated := s.allocated + 1 }

/-- `dos_new_client_conn` for the connection `id`, with `conn_update_on_connect`: the count is a
`uint32_t`. -/
def dosNewClientConn (id : ℕ) (orConn : OrConnection) (transportName : Option (List Char)) :
    DosState :=
  if ¬ s.options.dosIsEnabled then s
  else
    match s.geoipLookupClient orConn.addr transportName .connect with
    | none => s
    | some entry =>
      { s with
        clientHistory := s.clientHistory.set ⟨.connect, orConn.addr, transportName⟩
          { entry with concurrentCount := (entry.concurrentCount + 1) % 2 ^ 32 }
        conns := s.conns.set id
          { orConn with trackedForDosMitigation := true, countedIn := some entry.serial } }

/-- `dos_close_client_conn`, with `conn_update_on_close`. -/
def dosCloseClientConn (orConn : OrConnection) : DosState :=
  if ¬ orConn.trackedForDosMitigation then s
  else
    match s.geoipLookupClient orConn.addr none .connect with
    | none => s
    | some entry =>
      if entry.concurrentCount = 0 then { s with underflowed := true }
      else
        { s with
          clientHistory := s.clientHistory.set ⟨.connect, orConn.addr, none⟩
            { entry with concurrentCount := entry.concurrentCount - 1 } }

/-- An incoming connection, as `channel_tls_handle_incoming` and `channel_do_open_actions` report
it if it is not tracked yet. -/
def openClient (id : ℕ) (orConn : OrConnection) (transportName : Option (List Char)) (now : ℤ) :
    DosState :=
  if orConn.trackedForDosMitigation then s
  else
    (s.geoipNoteClientSeen .connect orConn.addr transportName now).dosNewClientConn id orConn
      transportName

/-- A connection that is freed. -/
def closeClient (id : ℕ) (orConn : OrConnection) : DosState :=
  { s.dosCloseClientConn orConn with conns := s.conns.erase id }

end DosState

/-! ## Freeing entries -/

/-- `dos_geoip_entry_about_to_free`, on each OR connection of the connection array. -/
def dosGeoipEntryAboutToFree (key : ClientKey) (geoipEnt : ClientmapEntry) (orConn : OrConnection) :
    OrConnection :=
  if geoipEnt.concurrentCount = 0 then orConn
  else if key.addr = orConn.addr then { orConn with trackedForDosMitigation := false }
  else orConn

namespace DosState

variable (s : DosState)

/-- A pass over the history that frees the entries which `p` accepts. -/
def removeEntries (p : ClientKey → ClientmapEntry → Bool) : DosState :=
  { s with
    clientHistory := s.clientHistory.filter fun key ent => !p key ent
    conns := (s.clientHistory.filter p).entries.foldl
      (fun conns b => conns.map (dosGeoipEntryAboutToFree b.1 b.2)) s.conns }

/-- The test of `remove_old_client_helper_` and `oom_clean_client_entries`. -/
def olderThan (cutoff : ℤ) (_ : ClientKey) (ent : ClientmapEntry) : Bool :=
  ent.lastSeenInMinutes < cutoff.tdiv 60

def geoipRemoveOldClients (cutoff : ℤ) : DosState := s.removeEntries (olderThan cutoff)

def clientHistoryClear : DosState := s.removeEntries fun key _ => key.action = .connect

end DosState

/-- `clientmap_entry_size`, where `sizeofEntry` is the size of the structure. -/
def clientmapEntrySize (sizeofEntry : ℕ) (key : ClientKey) : ℕ :=
  sizeofEntry + key.transportName.elim 0 List.length

/-- The size of the entries of a history. -/
def historySize (sizeofEntry : ℕ) (history : AssocMap ClientKey ClientmapEntry) : ℕ :=
  (history.entries.map fun b => clientmapEntrySize sizeofEntry b.1).sum

/-- The values of `k` in the loop of `geoip_client_cache_handle_oom`: it starts at
`WRITE_STATS_INTERVAL` and goes down by `GEOIP_CLIENT_CACHE_OOM_STEP` while it is above
`GEOIP_CLIENT_CACHE_OOM_MIN_CUTOFF`. -/
def oomSteps : List ℤ := (List.range 96).map fun i : ℕ => 24 * 60 * 60 - 15 * 50 * i

namespace DosState

variable (s : DosState)

/-- `oom_clean_client_entries`, with the number of bytes. -/
def oomCleanClientEntries (sizeofEntry : ℕ) (cutoff : ℤ) : DosState × ℕ :=
  (s.removeEntries (olderThan cutoff),
    historySize sizeofEntry (s.clientHistory.filter (olderThan cutoff)))

/-- The loop of `geoip_client_cache_handle_oom`, for the values of `k` that are left. -/
def oomLoop (sizeofEntry : ℕ) (now : ℤ) (minRemoveBytes : ℕ) :
    DosState → ℕ → List ℤ → DosState
  | s, _, [] => s
  | s, bytesRemoved, k :: ks =>
    let cleaned := s.oomCleanClientEntries sizeofEntry (now - k)
    if bytesRemoved + cleaned.2 < minRemoveBytes then
      oomLoop sizeofEntry now minRemoveBytes cleaned.1 (bytesRemoved + cleaned.2) ks
    else cleaned.1

def geoipClientCacheHandleOom (sizeofEntry : ℕ) (now : ℤ) (minRemoveBytes : ℕ) : DosState :=
  oomLoop sizeofEntry now minRemoveBytes s 0 oomSteps

/-- The cutoff at which the OOM handler stops: the first at which enough bytes are older. -/
def oomCutoff (sizeofEntry : ℕ) (now : ℤ) (minRemoveBytes : ℕ)
    (history : AssocMap ClientKey ClientmapEntry) : List ℤ → Option ℤ
  | [] => none
  | k :: ks =>
    if historySize sizeofEntry (history.filter (olderThan (now - k))) < minRemoveBytes then
      some ((oomCutoff sizeofEntry now minRemoveBytes history ks).getD (now - k))
    else some (now - k)

end DosState

/-! ### One pass -/

/-- An entry with connections of the address. -/
def holds (addr : TorAddr) (b : ClientKey × ClientmapEntry) : Bool :=
  b.2.concurrentCount ≠ 0 && b.1.addr = addr

/-- What a pass that frees the entries `l` leaves of a connection. -/
def untrack (l : List (ClientKey × ClientmapEntry)) (orConn : OrConnection) : OrConnection :=
  { orConn with
    trackedForDosMitigation := orConn.trackedForDosMitigation && !l.any (holds orConn.addr) }

lemma dosGeoipEntryAboutToFree_eq (b : ClientKey × ClientmapEntry) (c : OrConnection) :
    dosGeoipEntryAboutToFree b.1 b.2 c = untrack [b] c := by
  rw [dosGeoipEntryAboutToFree, untrack, any_cons, any_nil, holds]
  split
  · next hcount => simp [hcount]
  · next hcount =>
      split
      · next haddr => simp [hcount, haddr]
      · next haddr => simp [haddr]

lemma untrack_untrack (l l' : List (ClientKey × ClientmapEntry)) (c : OrConnection) :
    untrack l' (untrack l c) = untrack (l ++ l') c := by
  simp only [untrack, any_append, Bool.not_or, Bool.and_assoc]

lemma untrack_congr {l l' : List (ClientKey × ClientmapEntry)} (h : ∀ b, b ∈ l ↔ b ∈ l') :
    untrack l = untrack l' := by
  funext c
  have hany : l.any (holds c.addr) = l'.any (holds c.addr) := by
    rw [Bool.eq_iff_iff, List.any_eq_true, List.any_eq_true]
    simp only [h]
  rw [untrack, untrack, hany]

lemma foldl_aboutToFree (l : List (ClientKey × ClientmapEntry)) (conns : AssocMap ℕ OrConnection) :
    l.foldl (fun conns b => conns.map (dosGeoipEntryAboutToFree b.1 b.2)) conns
      = conns.map (untrack l) := by
  induction l generalizing conns with
  | nil => simp [untrack, AssocMap.map]
  | cons b l ih =>
    rw [foldl_cons, ih, AssocMap.map_map]
    congr
    funext c
    rw [Function.comp_apply, dosGeoipEntryAboutToFree_eq, untrack_untrack, singleton_append]

namespace DosState

variable {s : DosState} {p q : ClientKey → ClientmapEntry → Bool} {sizeofEntry : ℕ} {now : ℤ}
  {minRemoveBytes : ℕ} {ks : List ℤ}

lemma removeEntries_conns :
    (s.removeEntries p).conns = s.conns.map (untrack (s.clientHistory.filter p).entries) :=
  foldl_aboutToFree _ _

lemma removeEntries_removeEntries (h : ∀ key ent, p key ent = true → q key ent = true) :
    (s.removeEntries p).removeEntries q = s.removeEntries q := by
  have hhistory : (s.clientHistory.filter fun key ent => !p key ent).filter
      (fun key ent => !q key ent) = s.clientHistory.filter fun key ent => !q key ent := by
    rw [AssocMap.filter_filter]
    congr
    funext key ent
    cases hp : p key ent with
    | false => simp
    | true => simp [h key ent hp]
  have hconns : ((s.removeEntries p).removeEntries q).conns = (s.removeEntries q).conns := by
    rw [removeEntries_conns, removeEntries_conns, removeEntries_conns, AssocMap.map_map]
    congr 1
    funext c
    rw [Function.comp_apply, untrack_untrack]
    refine congrFun (untrack_congr fun b => ?_) c
    simp only [removeEntries, AssocMap.filter, mem_append, mem_filter]
    cases hp : p b.1 b.2 with
    | false => simp
    | true => simp [h b.1 b.2 hp]
  have hmk : ∀ t u : DosState, t.clientHistory = u.clientHistory → t.conns = u.conns →
      t.options = u.options → t.allocated = u.allocated → t.underflowed = u.underflowed →
      t = u := by
    rintro ⟨⟩ ⟨⟩ rfl rfl rfl rfl rfl
    rfl
  exact hmk _ _ hhistory hconns rfl rfl rfl

lemma historySize_filter (h : ∀ key ent, p key ent = true → q key ent = true)
    (m : AssocMap ClientKey ClientmapEntry) :
    historySize sizeofEntry (m.filter p)
        + historySize sizeofEntry ((m.filter fun key ent => !p key ent).filter q)
      = historySize sizeofEntry (m.filter q) := by
  simp only [historySize, AssocMap.filter]
  induction m.entries with
  | nil => rfl
  | cons b l ih =>
    cases hp : p b.1 b.2 with
    | true =>
      simp only [filter_cons, hp, h b.1 b.2 hp, if_true, Bool.not_true, Bool.false_eq_true,
        if_false, map_cons, sum_cons]
      omega
    | false =>
      cases hq : q b.1 b.2 with
      | true =>
        simp only [filter_cons, hp, hq, if_true, Bool.not_false, Bool.false_eq_true,
          if_false, map_cons, sum_cons]
        omega
      | false =>
        simp only [filter_cons, hp, hq, if_true, Bool.not_false, Bool.false_eq_true, if_false]
        omega

lemma olderThan_mono {cutoff cutoff' : ℤ} (h : cutoff ≤ cutoff') (key : ClientKey)
    (ent : ClientmapEntry) (hent : olderThan cutoff key ent = true) :
    olderThan cutoff' key ent = true := by
  simp only [olderThan, decide_eq_true_eq] at hent ⊢
  have htdiv : cutoff.tdiv 60 ≤ cutoff'.tdiv 60 := Int.tdiv_le_tdiv (by norm_num) h
  omega

lemma oomLoop_eq (hks : ks.Pairwise (· ≥ ·))
    (hp : ∀ k ∈ ks, ∀ key ent, p key ent = true → olderThan (now - k) key ent = true) :
    oomLoop sizeofEntry now minRemoveBytes (s.removeEntries p)
        (historySize sizeofEntry (s.clientHistory.filter p)) ks
      = s.removeEntries ((oomCutoff sizeofEntry now minRemoveBytes s.clientHistory ks).elim p
          olderThan) := by
  induction ks generalizing p with
  | nil => rfl
  | cons k ks ih =>
    obtain ⟨hk, hks⟩ := pairwise_cons.mp hks
    have hpk := hp k mem_cons_self
    have hsize : historySize sizeofEntry (s.clientHistory.filter p)
        + historySize sizeofEntry ((s.removeEntries p).clientHistory.filter (olderThan (now - k)))
        = historySize sizeofEntry (s.clientHistory.filter (olderThan (now - k))) :=
      historySize_filter hpk s.clientHistory
    have holder : ∀ k' ∈ ks, ∀ key ent, olderThan (now - k) key ent = true →
        olderThan (now - k') key ent = true := by
      intro k' hk'
      have := hk k' hk'
      exact olderThan_mono (by omega)
    rw [oomLoop, oomCutoff]
    simp only [oomCleanClientEntries, removeEntries_removeEntries hpk, hsize]
    split
    · rw [ih hks holder]
      cases oomCutoff sizeofEntry now minRemoveBytes s.clientHistory ks with
      | none => rfl
      | some cutoff => rfl
    · rfl

lemma removeEntries_false : s.removeEntries (fun _ _ => false) = s := by
  have hconns : s.conns.map (untrack (s.clientHistory.filter fun _ _ => false).entries)
      = s.conns := by
    have huntrack : untrack (s.clientHistory.filter fun _ _ => false).entries = id := by
      funext c
      simp [untrack, AssocMap.filter]
    rw [huntrack]
    simp [AssocMap.map]
  have hhistory : s.clientHistory.filter (fun _ _ => !false) = s.clientHistory := by
    simp [AssocMap.filter]
  rw [← removeEntries_conns] at hconns
  have heta : ∀ t : DosState, t.clientHistory = s.clientHistory → t.conns = s.conns →
      t.options = s.options → t.allocated = s.allocated → t.underflowed = s.underflowed →
      t = s := by
    rintro ⟨⟩ h1 h2 h3 h4 h5
    simp only at h1 h2 h3 h4 h5
    rw [h1, h2, h3, h4, h5]
  exact heta _ hhistory hconns rfl rfl rfl

lemma oomSteps_pairwise : oomSteps.Pairwise (· ≥ ·) := by
  refine pairwise_map.mpr (pairwise_lt_range.imp fun {i j} h => ?_)
  omega

/-- **The OOM handler** is one pass over the history. -/
theorem geoipClientCacheHandleOom_eq (s : DosState) (sizeofEntry : ℕ) (now : ℤ)
    (minRemoveBytes : ℕ) :
    s.geoipClientCacheHandleOom sizeofEntry now minRemoveBytes
      = s.removeEntries ((oomCutoff sizeofEntry now minRemoveBytes s.clientHistory oomSteps).elim
          (fun _ _ => false) olderThan) := by
  rw [← oomLoop_eq oomSteps_pairwise (by simp), removeEntries_false, geoipClientCacheHandleOom]
  simp [historySize, AssocMap.filter]

end DosState

end Ator.Dos
