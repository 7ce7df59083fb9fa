import AtorProtocol.Dos.ClientHistory
import AtorProtocol.Lib.Run

/-!
# Counts and connections

The runs of the client history, and when its counts are those of the connections.

* `Event`, `step` — what happens to the history.
* `CountsConns` — each entry counts the tracked connections that were counted in it, and no
  underflow has been reported.
* `Event.KeepsCount` — the steps that keep it so.
* `countsConns_iff_keepsCount` — a run has right counts exactly as long as its steps are such.
-/

namespace Ator.Dos

open Ator.Policies Option

/-! ## Runs -/

inductive Event where
  | configure (options : DosOptions)
  | connectionAdd (id : ℕ) (addr : TorAddr)
  | noteClientSeen (action : GeoipClientAction) (addr : TorAddr)
      (transportName : Option (List Char)) (now : ℤ)
  | openClient (id : ℕ) (transportName : Option (List Char)) (now : ℤ)
  | closeClient (id : ℕ)
  | removeOldClients (cutoff : ℤ)
  | handleOom (now : ℤ) (minRemoveBytes : ℕ)
  | clear

/-- The longest `smartlist_t`. -/
def intMax : ℕ := 2 ^ 31 - 1

/-- One event; `none` where an assertion fails, or where a connection would have to be added twice
or is not there. -/
def step (sizeofEntry : ℕ) (s : DosState) : Event → Option DosState
  | .configure options => some { s with options }
  | .connectionAdd id addr =>
    if s.conns.size < intMax ∧ s.conns.get id = none then
      some { s with conns := s.conns.set id ⟨addr, false, none⟩ }
    else none
  | .noteClientSeen action addr transportName now =>
    some (s.geoipNoteClientSeen action addr transportName now)
  | .openClient id transportName now =>
    (s.conns.get id).map fun orConn => s.openClient id orConn transportName now
  | .closeClient id => (s.conns.get id).map fun orConn => s.closeClient id orConn
  | .removeOldClients cutoff => some (s.geoipRemoveOldClients cutoff)
  | .handleOom now minRemoveBytes =>
    if minRemoveBytes = 0 then none
    else some (s.geoipClientCacheHandleOom sizeofEntry now minRemoveBytes)
  | .clear => some s.clientHistoryClear

/-- Nothing seen and nobody connected. -/
def DosState.init (options : DosOptions) : DosState := ⟨∅, ∅, options, 0, false⟩

/-- Whether a connection is tracked and was counted in the entry. -/
def inEntry (serial : ℕ) (c : OrConnection) : Bool :=
  c.trackedForDosMitigation && c.countedIn = some serial

/-- The tracked connections that were counted in an entry. -/
def DosState.counted (s : DosState) (serial : ℕ) : ℕ :=
  s.conns.total fun c => if inEntry serial c then 1 else 0

/-- The counts are those of the connections. -/
structure CountsConns (s : DosState) : Prop where
  count : ∀ key ent, s.clientHistory.get key = some ent →
    ent.concurrentCount = s.counted ent.serial
  underflow : s.underflowed = false

/-- The entries that are freed take no connection from one that stays: an entry with connections
goes only with the entries in which the tracked connections of its address were counted. -/
def FreesAllOfAddr (s : DosState) (p : ClientKey → ClientmapEntry → Bool) : Prop :=
  ∀ key ent, s.clientHistory.get key = some ent → p key ent = true → ent.concurrentCount ≠ 0 →
    ∀ id c, s.conns.get id = some c → c.trackedForDosMitigation = true → c.addr = key.addr →
      ∀ key' ent', s.clientHistory.get key' = some ent' → c.countedIn = some ent'.serial →
        p key' ent' = true

/-- The entry that `dos_close_client_conn` finds is the one the connection was counted in. -/
def ClosesOwnEntry (s : DosState) (id : ℕ) : Prop :=
  ∀ c, s.conns.get id = some c → c.trackedForDosMitigation = true →
    ∀ key ent, s.clientHistory.get key = some ent → c.countedIn = some ent.serial →
      key.transportName = none

/-- The steps after which the counts are right. -/
def Event.KeepsCount (sizeofEntry : ℕ) (s : DosState) : Event → Prop
  | .closeClient id => ClosesOwnEntry s id
  | .removeOldClients cutoff => FreesAllOfAddr s (DosState.olderThan cutoff)
  | .handleOom now minRemoveBytes =>
    minRemoveBytes ≠ 0 →
      ∀ cutoff, DosState.oomCutoff sizeofEntry now minRemoveBytes s.clientHistory oomSteps
        = some cutoff → FreesAllOfAddr s (DosState.olderThan cutoff)
  | .clear => FreesAllOfAddr s fun key _ => key.action = .connect
  | _ => True

/-! ## The invariant -/

/-- What holds between the connections and the history of right counts. -/
structure Inv (s : DosState) : Prop extends CountsConns s where
  size : s.conns.size ≤ intMax
  serial_lt : ∀ key ent, s.clientHistory.get key = some ent → ent.serial < s.allocated
  serial_inj : ∀ key ent key' ent', s.clientHistory.get key = some ent →
    s.clientHistory.get key' = some ent' → ent.serial = ent'.serial → key = key'
  entryOf : ∀ id c, s.conns.get id = some c → c.trackedForDosMitigation = true →
    ∃ key ent, s.clientHistory.get key = some ent ∧ c.countedIn = some ent.serial ∧
      key.action = .connect ∧ key.addr = c.addr

variable {serial : ℕ}

lemma inEntry_eq_true {c : OrConnection} : inEntry serial c = true
    ↔ c.trackedForDosMitigation = true ∧ c.countedIn = some serial := by
  rw [inEntry, Bool.and_eq_true, decide_eq_true_eq]

variable {s t : DosState} {id : ℕ} {c : OrConnection} {sizeofEntry : ℕ}

lemma counted_le_size (serial : ℕ) : s.counted serial ≤ s.conns.size := by
  refine AssocMap.total_le_size fun c => ?_
  split <;> omega

lemma counted_pos (hc : s.conns.get id = some c) (h : inEntry serial c = true) :
    0 < s.counted serial := by
  have hle := AssocMap.le_total (f := fun c => if inEntry serial c then 1 else 0) hc
  rw [if_pos h] at hle
  exact hle

lemma exists_of_counted_ne_zero (h : s.counted serial ≠ 0) :
    ∃ id c, s.conns.get id = some c ∧ inEntry serial c = true := by
  by_contra hnone
  have hzero : s.counted serial = s.conns.total fun _ => 0 := by
    refine AssocMap.total_congr fun id c hc => if_neg fun hin => hnone ⟨id, c, hc, hin⟩
  rw [hzero] at h
  simp [AssocMap.total] at h

lemma Inv.counted_allocated (h : Inv s) : s.counted s.allocated = 0 := by
  by_contra hne
  obtain ⟨id, c, hc, hin⟩ := exists_of_counted_ne_zero hne
  obtain ⟨htracked, hcounted⟩ := inEntry_eq_true.mp hin
  obtain ⟨key, ent, hent, hserial, -⟩ := h.entryOf id c hc htracked
  have hlt := h.serial_lt key ent hent
  rw [hserial] at hcounted
  have := some.inj hcounted
  omega

lemma inv_init (options : DosOptions) : Inv (.init options) where
  count key ent h := by cases h
  underflow := rfl
  size := Nat.zero_le _
  serial_lt key ent h := by cases h
  serial_inj key ent key' ent' h := by cases h
  entryOf id c h := by cases h

/-! ## Connections that come -/

lemma Inv.configure (h : Inv s) (options : DosOptions) : Inv { s with options } :=
  ⟨⟨h.count, h.underflow⟩, h.size, h.serial_lt, h.serial_inj, h.entryOf⟩

lemma Inv.connectionAdd (h : Inv s) (addr : TorAddr) (hsize : s.conns.size < intMax)
    (hid : s.conns.get id = none) :
    Inv { s with conns := s.conns.set id ⟨addr, false, none⟩ } where
  count key ent hent := by
    rw [h.count key ent hent]
    exact (AssocMap.total_set_new (f := fun c => if inEntry ent.serial c then 1 else 0) hid
      (w := ⟨addr, false, none⟩)).symm
  underflow := h.underflow
  size := by
    rw [AssocMap.size_set_of_get_eq_none hid]
    exact hsize
  serial_lt := h.serial_lt
  serial_inj := h.serial_inj
  entryOf id' c hc htracked := by
    rcases AssocMap.get_set_eq_some.mp hc with ⟨-, rfl⟩ | ⟨-, hc⟩
    · cases htracked
    · exact h.entryOf id' c hc htracked

variable {key : ClientKey}

lemma map_serial_set {history : AssocMap ClientKey ClientmapEntry}
    {ent ent' : ClientmapEntry} (hent : history.get key = some ent)
    (hserial : ent'.serial = ent.serial) (key' : ClientKey) :
    ((history.set key ent').get key').map ClientmapEntry.serial
      = (history.get key').map ClientmapEntry.serial := by
  by_cases hk : key' = key
  · rw [hk, AssocMap.get_set_self, hent, map_some, map_some, hserial]
  · rw [AssocMap.get_set_of_ne hk]

lemma Inv.of_serials (h : Inv s) (hcounts : CountsConns t)
    (hserials : ∀ key, (t.clientHistory.get key).map ClientmapEntry.serial
      = (s.clientHistory.get key).map ClientmapEntry.serial)
    (hallocated : t.allocated = s.allocated) (hsize : t.conns.size ≤ intMax)
    (hentryOf : ∀ id c, t.conns.get id = some c → c.trackedForDosMitigation = true →
      ∃ key ent, s.clientHistory.get key = some ent ∧ c.countedIn = some ent.serial ∧
        key.action = .connect ∧ key.addr = c.addr) : Inv t := by
  have hold : ∀ key ent, t.clientHistory.get key = some ent →
      ∃ old, s.clientHistory.get key = some old ∧ old.serial = ent.serial := by
    intro key ent hent
    have hserial := hserials key
    rw [hent, map_some] at hserial
    exact map_eq_some_iff.mp hserial.symm
  refine ⟨hcounts, hsize, ?_, ?_, ?_⟩
  · intro key ent hent
    obtain ⟨old, hold, hserial⟩ := hold key ent hent
    rw [← hserial, hallocated]
    exact h.serial_lt key old hold
  · intro key₁ ent₁ key₂ ent₂ h₁ h₂ heq
    obtain ⟨old₁, hold₁, hserial₁⟩ := hold key₁ ent₁ h₁
    obtain ⟨old₂, hold₂, hserial₂⟩ := hold key₂ ent₂ h₂
    exact h.serial_inj key₁ old₁ key₂ old₂ hold₁ hold₂ (by rw [hserial₁, hserial₂, heq])
  · intro id c hc htracked
    obtain ⟨key, ent, hent, hserial, hkey⟩ := hentryOf id c hc htracked
    have hmap := hserials key
    rw [hent, map_some] at hmap
    obtain ⟨ent', hent', hserial'⟩ := map_eq_some_iff.mp hmap
    exact ⟨key, ent', hent', by rw [hserial, hserial'], hkey⟩

variable {ent : ClientmapEntry}

lemma Inv.setLastSeen (h : Inv s)
    (hent : s.clientHistory.get key = some ent) (minutes : ℤ) :
    Inv { s with
      clientHistory := s.clientHistory.set key { ent with lastSeenInMinutes := minutes } } := by
  refine h.of_serials ⟨?_, h.underflow⟩ (map_serial_set hent rfl) rfl h.size h.entryOf
  intro key' ent' hent'
  rcases AssocMap.get_set_eq_some.mp hent' with ⟨-, rfl⟩ | ⟨-, hent'⟩
  · exact h.count key ent hent
  · exact h.count key' ent' hent'

lemma Inv.newEntry (h : Inv s) (hnone : s.clientHistory.get key = none)
    (minutes : ℤ) :
    Inv { s with
      clientHistory := s.clientHistory.set key ⟨s.allocated, minutes, 0⟩
      allocated := s.allocated + 1 } := by
  refine ⟨⟨?_, h.underflow⟩, h.size, ?_, ?_, ?_⟩
  · intro key' ent' hent'
    rcases AssocMap.get_set_eq_some.mp hent' with ⟨-, rfl⟩ | ⟨-, hent'⟩
    · exact h.counted_allocated.symm
    · exact h.count key' ent' hent'
  · intro key' ent' hent'
    rcases AssocMap.get_set_eq_some.mp hent' with ⟨-, rfl⟩ | ⟨-, hent'⟩
    · exact Nat.lt_succ_self _
    · exact Nat.lt_succ_of_lt (h.serial_lt key' ent' hent')
  · intro key₁ ent₁ key₂ ent₂ h₁ h₂ heq
    rcases AssocMap.get_set_eq_some.mp h₁ with ⟨hkey₁, hent₁⟩ | ⟨-, hold₁⟩ <;>
      rcases AssocMap.get_set_eq_some.mp h₂ with ⟨hkey₂, hent₂⟩ | ⟨-, hold₂⟩
    · rw [hkey₁, hkey₂]
    · have hlt := h.serial_lt key₂ ent₂ hold₂
      rw [hent₁] at heq
      exact absurd heq hlt.ne'
    · have hlt := h.serial_lt key₁ ent₁ hold₁
      rw [hent₂] at heq
      exact absurd heq hlt.ne
    · exact h.serial_inj key₁ ent₁ key₂ ent₂ hold₁ hold₂ heq
  · intro id c hc htracked
    obtain ⟨key', ent', hent', hserial, hkey⟩ := h.entryOf id c hc htracked
    have hk : key' ≠ key := by
      rintro rfl
      rw [hnone] at hent'
      cases hent'
    exact ⟨key', ent', by rw [AssocMap.get_set_of_ne hk]; exact hent', hserial, hkey⟩

lemma Inv.geoipNoteClientSeen (h : Inv s) (action : GeoipClientAction) (addr : TorAddr)
    (transportName : Option (List Char)) (now : ℤ) :
    Inv (s.geoipNoteClientSeen action addr transportName now) := by
  rw [DosState.geoipNoteClientSeen]
  split
  · exact h
  · split
    · next ent hent => exact h.setLastSeen hent _
    · next hnone => exact h.newEntry hnone _

lemma geoipNoteClientSeen_conns (action : GeoipClientAction) (addr : TorAddr)
    (transportName : Option (List Char)) (now : ℤ) :
    (s.geoipNoteClientSeen action addr transportName now).conns = s.conns := by
  rw [DosState.geoipNoteClientSeen]
  split
  · rfl
  · split
    · rfl
    · rfl

lemma counted_track (hc : s.conns.get id = some c) (huntracked : c.trackedForDosMitigation = false)
    (serial serial' : ℕ) :
    (s.conns.set id { c with trackedForDosMitigation := true, countedIn := some serial' }).total
        (fun c => if inEntry serial c then 1 else 0)
      = s.counted serial + if serial = serial' then 1 else 0 := by
  have htotal := AssocMap.total_set (f := fun c => if inEntry serial c then 1 else 0) hc
    (w := { c with trackedForDosMitigation := true, countedIn := some serial' })
  have hold : inEntry serial c = false := by rw [inEntry, huntracked, Bool.false_and]
  have hnew : (inEntry serial
      { c with trackedForDosMitigation := true, countedIn := some serial' } = true)
      = (serial = serial') := by
    rw [inEntry_eq_true]
    simp [eq_comm]
  simp only [hold, hnew, Bool.false_eq_true, if_false, Nat.add_zero] at htotal
  exact htotal

lemma Inv.dosNewClientConn (h : Inv s) (hc : s.conns.get id = some c)
    (huntracked : c.trackedForDosMitigation = false) (transportName : Option (List Char)) :
    Inv (s.dosNewClientConn id c transportName) := by
  rw [DosState.dosNewClientConn]
  split
  · exact h
  split
  · exact h
  next entry hentry =>
  have hcount := h.count _ entry hentry
  have hlt : entry.concurrentCount + 1 < 2 ^ 32 := by
    have hle := counted_le_size (s := s) entry.serial
    have hsize := h.size
    rw [intMax] at hsize
    omega
  refine h.of_serials ⟨?_, h.underflow⟩ (map_serial_set hentry rfl) rfl ?_ ?_
  · intro key' ent' hent'
    rw [DosState.counted, counted_track hc huntracked]
    rcases AssocMap.get_set_eq_some.mp hent' with ⟨-, rfl⟩ | ⟨hne, hent'⟩
    · rw [if_pos rfl, Nat.mod_eq_of_lt hlt, hcount]
    · rw [if_neg fun heq => hne (h.serial_inj _ _ _ _ hent' hentry heq), Nat.add_zero]
      exact h.count key' ent' hent'
  · rw [AssocMap.size_set_of_get hc]
    exact h.size
  · intro id' c' hc' htracked
    rcases AssocMap.get_set_eq_some.mp hc' with ⟨-, rfl⟩ | ⟨-, hc'⟩
    · exact ⟨_, entry, hentry, rfl, rfl, rfl⟩
    · exact h.entryOf id' c' hc' htracked

lemma Inv.openClient (h : Inv s) (hc : s.conns.get id = some c)
    (transportName : Option (List Char)) (now : ℤ) : Inv (s.openClient id c transportName now) := by
  rw [DosState.openClient]
  split
  · exact h
  · next huntracked =>
      refine (h.geoipNoteClientSeen .connect c.addr transportName now).dosNewClientConn ?_
        (Bool.eq_false_iff.mpr huntracked) transportName
      rw [geoipNoteClientSeen_conns]
      exact hc

/-! ## Connections that go -/

lemma counted_erase (hc : s.conns.get id = some c) (serial : ℕ) :
    (s.conns.erase id).total (fun c => if inEntry serial c then 1 else 0)
      + (if inEntry serial c then 1 else 0) = s.counted serial :=
  AssocMap.total_erase hc

lemma size_erase_le_intMax (h : Inv s) : (s.conns.erase id).size ≤ intMax :=
  AssocMap.size_erase_le.trans h.size

lemma Inv.entryOf_erase (h : Inv s) (id' : ℕ) (c' : OrConnection)
    (hc' : (s.conns.erase id).get id' = some c') (htracked : c'.trackedForDosMitigation = true) :
    ∃ key ent, s.clientHistory.get key = some ent ∧ c'.countedIn = some ent.serial ∧
      key.action = .connect ∧ key.addr = c'.addr :=
  h.entryOf id' c' (AssocMap.get_erase_eq_some.mp hc').2 htracked

lemma Inv.closeUntracked (h : Inv s) (hc : s.conns.get id = some c)
    (huntracked : c.trackedForDosMitigation = false) :
    Inv { s with conns := s.conns.erase id } := by
  refine h.of_serials ⟨?_, h.underflow⟩ (fun _ => rfl) rfl (size_erase_le_intMax h) h.entryOf_erase
  intro key ent hent
  have hcounted := counted_erase hc ent.serial
  have hin : inEntry ent.serial c = false := by rw [inEntry, huntracked, Bool.false_and]
  rw [hin, if_neg Bool.false_ne_true, Nat.add_zero] at hcounted
  rw [h.count key ent hent]
  exact hcounted.symm

lemma Inv.closeOwnEntry (h : Inv s) (hc : s.conns.get id = some c)
    (htracked : c.trackedForDosMitigation = true)
    (hent : s.clientHistory.get key = some ent) (hserial : c.countedIn = some ent.serial) :
    Inv { s with
      clientHistory := s.clientHistory.set key
        { ent with concurrentCount := ent.concurrentCount - 1 }
      conns := s.conns.erase id } := by
  refine h.of_serials ⟨?_, h.underflow⟩ (map_serial_set hent rfl) rfl (size_erase_le_intMax h)
    h.entryOf_erase
  intro key' ent' hent'
  have hcounted := counted_erase hc ent'.serial
  rcases AssocMap.get_set_eq_some.mp hent' with ⟨-, rfl⟩ | ⟨hne, hold⟩
  · have hin : inEntry ent.serial c = true := inEntry_eq_true.mpr ⟨htracked, hserial⟩
    rw [if_pos hin] at hcounted
    have hcount := h.count key ent hent
    simp only [DosState.counted] at hcount hcounted ⊢
    omega
  · have hin : inEntry ent'.serial c = false := by
      refine Bool.eq_false_iff.mpr fun hin => hne ?_
      have hcountedIn := (inEntry_eq_true.mp hin).2
      rw [hserial] at hcountedIn
      exact h.serial_inj _ _ _ _ hold hent (some.inj hcountedIn).symm
    rw [hin, if_neg Bool.false_ne_true, Nat.add_zero] at hcounted
    rw [h.count key' ent' hold]
    exact hcounted.symm

lemma closeClient_get_of_ne (hne : key ≠ ⟨.connect, c.addr, none⟩) :
    (s.closeClient id c).clientHistory.get key = s.clientHistory.get key := by
  rw [DosState.closeClient, DosState.dosCloseClientConn]
  split
  · rfl
  split
  · rfl
  split
  · rfl
  · exact AssocMap.get_set_of_ne hne

lemma Inv.closeClient_of_entry (h : Inv s) (hc : s.conns.get id = some c)
    (htracked : c.trackedForDosMitigation = true)
    (hent : s.clientHistory.get ⟨.connect, c.addr, none⟩ = some ent)
    (hserial : c.countedIn = some ent.serial) : Inv (s.closeClient id c) := by
  have hpos : ent.concurrentCount ≠ 0 := by
    have := counted_pos hc (inEntry_eq_true.mpr ⟨htracked, hserial⟩)
    rw [h.count _ ent hent]
    omega
  rw [DosState.closeClient, DosState.dosCloseClientConn, if_neg (by simp [htracked]),
    DosState.geoipLookupClient, hent]
  simp only [if_neg hpos]
  exact h.closeOwnEntry hc htracked hent hserial

lemma Inv.closeClient_iff (h : Inv s) (hc : s.conns.get id = some c) :
    (CountsConns (s.closeClient id c) ↔ ClosesOwnEntry s id) ∧
      (ClosesOwnEntry s id → Inv (s.closeClient id c)) := by
  cases htracked : c.trackedForDosMitigation with
  | false =>
    have hinv : Inv (s.closeClient id c) := by
      rw [DosState.closeClient, DosState.dosCloseClientConn, if_pos (by simp [htracked])]
      exact h.closeUntracked hc htracked
    have howns : ClosesOwnEntry s id := by
      intro c' hc' htracked'
      rw [hc] at hc'
      rw [← some.inj hc', htracked] at htracked'
      cases htracked'
    exact ⟨iff_of_true hinv.toCountsConns howns, fun _ => hinv⟩
  | true =>
    obtain ⟨key, ent, hent, hserial, haction, haddr⟩ := h.entryOf id c hc htracked
    have howns : ClosesOwnEntry s id ↔ key.transportName = none := by
      constructor
      · intro howns
        exact howns c hc htracked key ent hent hserial
      · intro hnone c' hc' _ key' ent' hent' hserial'
        rw [hc] at hc'
        rw [← some.inj hc', hserial] at hserial'
        rw [← h.serial_inj _ _ _ _ hent hent' (some.inj hserial'), hnone]
    rw [howns]
    by_cases htransport : key.transportName = none
    · have hkey : key = ⟨.connect, c.addr, none⟩ := by rw [← haction, ← haddr, ← htransport]
      have hinv := h.closeClient_of_entry hc htracked (hkey ▸ hent) hserial
      exact ⟨iff_of_true hinv.toCountsConns htransport, fun _ => hinv⟩
    · have hne : key ≠ ⟨.connect, c.addr, none⟩ := by
        rintro rfl
        exact htransport rfl
      refine ⟨iff_of_false (fun hcounts => ?_) htransport, fun hnone => absurd hnone htransport⟩
      have hcount := hcounts.count key ent (by rw [closeClient_get_of_ne hne, hent])
      have hcounted := counted_erase hc ent.serial
      rw [if_pos (inEntry_eq_true.mpr ⟨htracked, hserial⟩), ← h.count key ent hent] at hcounted
      change ent.concurrentCount = (s.conns.erase id).total _ at hcount
      omega

/-! ## Entries that go -/

section Removal

variable {p : ClientKey → ClientmapEntry → Bool}

lemma get_conns_removeEntries : (s.removeEntries p).conns.get id
    = (s.conns.get id).map (untrack (s.clientHistory.filter p).entries) := by
  rw [DosState.removeEntries_conns, AssocMap.get_map]

lemma untrack_tracked : (untrack (s.clientHistory.filter p).entries c).trackedForDosMitigation
      = true
    ↔ c.trackedForDosMitigation = true ∧ ∀ key ent, s.clientHistory.get key = some ent →
      p key ent = true → ent.concurrentCount ≠ 0 → c.addr ≠ key.addr := by
  rw [untrack, Bool.and_eq_true, Bool.not_eq_true', List.any_eq_false]
  refine and_congr_right fun _ => ?_
  constructor
  · intro h key ent hent hp hcount haddr
    refine h (key, ent) (AssocMap.get_eq_some.mp (AssocMap.get_filter_eq_some.mpr ⟨hent, hp⟩)) ?_
    simp [holds, hcount, haddr]
  · intro h b hb hholds
    obtain ⟨hent, hp⟩ := AssocMap.get_filter_eq_some.mp (AssocMap.get_eq_some.mpr hb)
    simp only [holds, Bool.and_eq_true, decide_eq_true_eq] at hholds
    exact h b.1 b.2 hent hp hholds.1 hholds.2.symm

lemma counted_removeEntries (serial : ℕ) : (s.removeEntries p).counted serial
    = s.conns.total fun c =>
        if inEntry serial (untrack (s.clientHistory.filter p).entries c) then 1 else 0 := by
  rw [DosState.counted, DosState.removeEntries_conns, AssocMap.total_map]
  rfl

lemma Inv.addr_of_inEntry (h : Inv s) (hc : s.conns.get id = some c)
 (hent : s.clientHistory.get key = some ent)
    (hin : inEntry ent.serial c = true) : key.addr = c.addr := by
  obtain ⟨htracked, hserial⟩ := inEntry_eq_true.mp hin
  obtain ⟨key', ent', hent', hserial', -, haddr⟩ := h.entryOf id c hc htracked
  rw [hserial] at hserial'
  rw [h.serial_inj _ _ _ _ hent hent' (some.inj hserial')]
  exact haddr

lemma Inv.freesAllOfAddr (h : Inv s) (hcounts : CountsConns (s.removeEntries p)) :
    FreesAllOfAddr s p := by
  intro key ent hent hp hne id c hc htracked haddr key' ent' hent' hserial'
  by_contra hstays
  have hin := inEntry_eq_true.mpr ⟨htracked, hserial'⟩
  have hcount := hcounts.count key' ent' (AssocMap.get_filter_eq_some.mpr
    ⟨hent', by simpa using hstays⟩)
  have hpos : (s.removeEntries p).counted ent'.serial ≠ 0 := by
    have := counted_pos hc hin
    rw [← h.count key' ent' hent'] at this
    omega
  obtain ⟨id₂, c₂', hc₂', hin₂'⟩ := exists_of_counted_ne_zero hpos
  rw [get_conns_removeEntries] at hc₂'
  obtain ⟨c₂, hc₂, rfl⟩ := map_eq_some_iff.mp hc₂'
  obtain ⟨htracked₂', hserial₂⟩ := inEntry_eq_true.mp hin₂'
  obtain ⟨htracked₂, hkept⟩ := untrack_tracked.mp htracked₂'
  refine hkept key ent hent hp hne ?_
  rw [← h.addr_of_inEntry hc₂ hent' (inEntry_eq_true.mpr ⟨htracked₂, hserial₂⟩),
    h.addr_of_inEntry hc hent' hin, haddr]

lemma Inv.removeEntries (h : Inv s) (hfrees : FreesAllOfAddr s p) : Inv (s.removeEntries p) := by
  have hold : ∀ key ent, (s.removeEntries p).clientHistory.get key = some ent →
      s.clientHistory.get key = some ent ∧ p key ent = false := by
    intro key ent hent
    obtain ⟨hent, hp⟩ := AssocMap.get_filter_eq_some.mp hent
    exact ⟨hent, by simpa using hp⟩
  refine ⟨⟨?_, h.underflow⟩, ?_, ?_, ?_, ?_⟩
  · intro key ent hent
    obtain ⟨hent, hp⟩ := hold key ent hent
    rw [h.count key ent hent, counted_removeEntries]
    refine AssocMap.total_congr fun id c hc => ?_
    have hin : inEntry ent.serial c
        = inEntry ent.serial (untrack (s.clientHistory.filter p).entries c) := by
      rw [Bool.eq_iff_iff, inEntry_eq_true, inEntry_eq_true, untrack_tracked]
      refine ⟨fun ⟨htracked, hserial⟩ => ⟨⟨htracked, ?_⟩, hserial⟩, fun ⟨⟨htracked, _⟩, hserial⟩ =>
        ⟨htracked, hserial⟩⟩
      intro key' ent' hent' hp' hne haddr
      have hgone := hfrees key' ent' hent' hp' hne id c hc htracked haddr key ent hent hserial
      rw [hp] at hgone
      cases hgone
    rw [hin]
  · rw [DosState.removeEntries_conns, AssocMap.size, AssocMap.map, List.length_map]
    exact h.size
  · intro key ent hent
    exact h.serial_lt key ent (hold key ent hent).1
  · intro key₁ ent₁ key₂ ent₂ h₁ h₂ heq
    exact h.serial_inj key₁ ent₁ key₂ ent₂ (hold key₁ ent₁ h₁).1 (hold key₂ ent₂ h₂).1 heq
  · intro id c' hc' htracked'
    rw [get_conns_removeEntries] at hc'
    obtain ⟨c, hc, rfl⟩ := map_eq_some_iff.mp hc'
    obtain ⟨htracked, hkept⟩ := untrack_tracked.mp htracked'
    obtain ⟨key, ent, hent, hserial, haction, haddr⟩ := h.entryOf id c hc htracked
    refine ⟨key, ent, AssocMap.get_filter_eq_some.mpr ⟨hent, ?_⟩, hserial, haction, haddr⟩
    rw [Bool.not_eq_true']
    refine Bool.eq_false_iff.mpr fun hp => hkept key ent hent hp ?_ haddr.symm
    have hpos := counted_pos hc (inEntry_eq_true.mpr ⟨htracked, hserial⟩)
    rw [h.count key ent hent]
    omega

lemma Inv.removeEntries_iff (h : Inv s) :
    (CountsConns (s.removeEntries p) ↔ FreesAllOfAddr s p) ∧
      (FreesAllOfAddr s p → Inv (s.removeEntries p)) :=
  ⟨⟨h.freesAllOfAddr, fun hfrees => (h.removeEntries hfrees).toCountsConns⟩, h.removeEntries⟩

end Removal

/-! ## Every step -/

lemma Inv.step_iff (h : Inv s) (e : Event) :
    ((∀ t, step sizeofEntry s e = some t → CountsConns t) ↔ e.KeepsCount sizeofEntry s) ∧
      (e.KeepsCount sizeofEntry s → ∀ t, step sizeofEntry s e = some t → Inv t) := by
  have hkeeps : (∀ t, step sizeofEntry s e = some t → Inv t) → e.KeepsCount sizeofEntry s →
      ((∀ t, step sizeofEntry s e = some t → CountsConns t) ↔ e.KeepsCount sizeofEntry s) ∧
        (e.KeepsCount sizeofEntry s → ∀ t, step sizeofEntry s e = some t → Inv t) :=
    fun hinv hcond => ⟨iff_of_true (fun t ht => (hinv t ht).toCountsConns) hcond, fun _ => hinv⟩
  have hone : ∀ {t C}, step sizeofEntry s e = some t → (e.KeepsCount sizeofEntry s ↔ C) →
      (CountsConns t ↔ C) ∧ (C → Inv t) →
      ((∀ t, step sizeofEntry s e = some t → CountsConns t) ↔ e.KeepsCount sizeofEntry s) ∧
        (e.KeepsCount sizeofEntry s → ∀ t, step sizeofEntry s e = some t → Inv t) := by
    intro t C ht hC hboth
    rw [ht, hC]
    simp only [some.injEq, forall_eq']
    exact hboth
  cases e with
  | configure options =>
    refine hkeeps (fun t ht => ?_) trivial
    obtain rfl := some.inj ht
    exact h.configure options
  | connectionAdd id addr =>
    refine hkeeps (fun t ht => ?_) trivial
    rw [step] at ht
    split at ht
    · next hguard =>
        obtain rfl := some.inj ht
        exact h.connectionAdd addr hguard.1 hguard.2
    · cases ht
  | noteClientSeen action addr transportName now =>
    refine hkeeps (fun t ht => ?_) trivial
    obtain rfl := some.inj ht
    exact h.geoipNoteClientSeen action addr transportName now
  | openClient id transportName now =>
    refine hkeeps (fun t ht => ?_) trivial
    obtain ⟨c, hc, rfl⟩ := map_eq_some_iff.mp ht
    exact h.openClient hc transportName now
  | closeClient id =>
    cases hc : s.conns.get id with
    | none =>
      refine hkeeps (fun t ht => ?_) fun c hc' => ?_
      · rw [step, hc] at ht
        cases ht
      · rw [hc] at hc'
        cases hc'
    | some c => exact hone (by rw [step, hc, map_some]) Iff.rfl (h.closeClient_iff hc)
  | removeOldClients cutoff => exact hone rfl Iff.rfl h.removeEntries_iff
  | handleOom now minRemoveBytes =>
    by_cases hmin : minRemoveBytes = 0
    · refine hkeeps (fun t ht => ?_) fun hne => absurd hmin hne
      rw [step, if_pos hmin] at ht
      cases ht
    · have hstep := s.geoipClientCacheHandleOom_eq sizeofEntry now minRemoveBytes
      refine hone (by rw [step, if_neg hmin, hstep]) ?_ h.removeEntries_iff
      rw [Event.KeepsCount]
      cases DosState.oomCutoff sizeofEntry now minRemoveBytes s.clientHistory oomSteps with
      | none => simp [FreesAllOfAddr]
      | some cutoff => simp [hmin]
  | clear => exact hone rfl Iff.rfl h.removeEntries_iff

/-- **Counts and connections.**  The counts are those of the connections all along a run, and no
underflow is reported, exactly when no tracked connection goes that was counted in an entry with a
transport, and no entry with connections is freed while one that stays has tracked connections of
the same address. -/
theorem countsConns_iff_keepsCount (sizeofEntry : ℕ) (options : DosOptions) (es : List Event) :
    (∀ pre, pre <+: es → ∀ u, Reaches (step sizeofEntry) (.init options) pre u → CountsConns u)
      ↔ Meets (step sizeofEntry) (fun s e => e.KeepsCount sizeofEntry s) (.init options) es :=
  forall_reached_iff_meets (I := Inv) (fun _ h => h.toCountsConns)
    (fun _ e h => (h.step_iff e).1) (fun _ e t h hcond ht => (h.step_iff e).2 hcond t ht)
    (inv_init options)

/-- The limit on concurrent connections alone is switched on. -/
def dosConnOptions : DosOptions := ⟨false, true, false, false, false, false, false⟩

/-- A client with a pluggable transport that comes and goes. -/
def transportRun : List Event :=
  [.connectionAdd 0 (.inet 16909060), .openClient 0 (some "obfs4".toList) 0, .closeClient 0]

/-- **A count is left behind** when a connection with a transport is closed. -/
theorem countsConns_fails :
    ¬ ∀ (sizeofEntry : ℕ) (options : DosOptions) (es : List Event) (u : DosState),
      Reaches (step sizeofEntry) (.init options) es u → CountsConns u := by
  intro h
  have hrun : (transportRun.foldlM (step 0) (.init dosConnOptions)).map (fun u => (u.conns.size,
      (u.geoipLookupClient (.inet 16909060) (some "obfs4".toList) .connect).map
        ClientmapEntry.concurrentCount)) = some (0, some 1) := by
    decide
  obtain ⟨u, hu, hsize⟩ := map_eq_some_iff.mp hrun
  obtain ⟨hsize, hlookup⟩ := Prod.mk.inj hsize
  obtain ⟨ent, hent, hone⟩ := map_eq_some_iff.mp hlookup
  have hcount := (h 0 dosConnOptions transportRun u hu).count _ ent hent
  rw [hone, DosState.counted, AssocMap.eq_empty_of_size hsize] at hcount
  exact absurd hcount Nat.one_ne_zero

end Ator.Dos
