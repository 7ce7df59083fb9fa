import AtorProtocol.Circuitmux.Circuitmux
import Mathlib.Algebra.Order.BigOperators.Group.List
import Mathlib.Algebra.Order.Group.Nat

/-!
# The invariant of a circuitmux

What the callers of `circuitmux.c` promise, what holds of a mux between calls, and how the parts of
a call change it.

* `Allowed` — what a caller of each function promises.
* `Invariant` — the counters count the entries of the map, and the queue of the policy holds the
  active ones.
-/

namespace Ator.Circuitmux

open List Option

variable {F : Type} {fl : EwmaArith F} {chan : ℕ} {cmux cmux' : Circuitmux F} {env : Env F}
  {entries entries' rest : List Entry} {e : Entry} {pol : EwmaPolicyData} {mem : Memory F}

/-! ## What the callers promise -/

/-- The cells that the circuits have to send. -/
def queuedCells (entries : List Entry) : ℕ := (entries.map fun e => e.muxinfo.cellCount).sum

/-- The mux is that of the channel `chan`; a circuit uses the channel in one direction, and the
entry that has its circuit ID is in that direction. -/
structure OnChannel (chan : ℕ) (cmux : Circuitmux F) (circ : Circuit) : Prop where
  other : ∀ direction id, circ.leg direction = some (chan, id) →
    ∀ id', circ.leg direction.other ≠ some (chan, id')
  direction : ∀ direction id, circ.leg direction = some (chan, id) →
    ∀ e ∈ cmux.chanidCircidMap, e.circId = id → e.muxinfo.direction = direction

/-- A circuit that is attached keeps its channel and ID, and is found by them: it is detached
before they change. -/
def KeepsPlace (chan : ℕ) (cmux : Circuitmux F) (env : Env F) : Prop :=
  ∀ e ∈ cmux.chanidCircidMap, env.channelFindByGlobalId chan = true
    ∧ ∃ circ, env.circuitGetByCircidChannel e.circId chan = some circ
      ∧ (env.circuit circ).leg e.muxinfo.direction = some (chan, e.circId)
      ∧ (∀ id, (env.circuit circ).leg e.muxinfo.direction.other ≠ some (chan, id))
      ∧ ∀ p, e.muxinfo.policyData = some p → (cmux.circData p).circ = circ

/-- The entry of a circuit. -/
def Attached (chan : ℕ) (cmux : Circuitmux F) (circ : Circuit) (e : Entry) : Prop :=
  e ∈ cmux.chanidCircidMap ∧ ∃ direction, circ.leg direction = some (chan, e.circId)

/-- With `cellCount` cells on the circuit `id`, an `unsigned int` holds the number of all cells,
which are in memory. -/
def CellsFit (cmux : Circuitmux F) (id : UInt32) (cellCount : ℕ) : Prop :=
  queuedCells (cmux.chanidCircidMap.filter fun e => e.circId ≠ id) + cellCount < 2 ^ 32

/-- What the caller of a function promises.  A policy is installed wherever there may be an active
circuit; cells are sent on the circuit that was picked. -/
def Allowed (chan : ℕ) (cmux : Circuitmux F) : Env F × Call → Prop
  | (env, .attachCircuit circ direction) =>
    cmux.policy.isSome ∧ OnChannel chan cmux (env.circuit circ) ∧
    ∃ cellCount id, attachFields (env.circuit circ) direction = some (cellCount, some chan, id)
      ∧ id ≠ 0 ∧ CellsFit cmux id cellCount
  | (env, .detachCircuit circ) =>
    OnChannel chan cmux (env.circuit circ)
      ∧ (∃ direction, ((env.circuit circ).leg direction).isSome)
      ∧ (cmux.policy.isSome ∨ ∀ e ∈ cmux.chanidCircidMap, e.muxinfo.cellCount = 0)
  | (env, .detachAllCircuits) =>
    KeepsPlace chan cmux env
      ∧ (cmux.policy.isSome ∨ ∀ e ∈ cmux.chanidCircidMap, e.muxinfo.cellCount = 0)
  | (env, .setNumCells circ nCells) =>
    cmux.policy.isSome ∧ OnChannel chan cmux (env.circuit circ)
      ∧ ∃ e, Attached chan cmux (env.circuit circ) e ∧ CellsFit cmux e.circId nCells
  | (env, .notifyXmitCells circ nCells) =>
    0 < nCells → OnChannel chan cmux (env.circuit circ) ∧ KeepsPlace chan cmux env
      ∧ (∃ e, Attached chan cmux (env.circuit circ) e ∧ nCells ≤ e.muxinfo.cellCount)
      ∧ ∃ pol, cmux.policy = some pol ∧ ewmaPickActiveCircuit pol cmux.circData = some circ
  | (env, .setPolicy _) => KeepsPlace chan cmux env
  | (env, .clearPolicy) => KeepsPlace chan cmux env
  | (_, .getFirstActiveCircuit) => cmux.policy.isSome
  | (_, .appendDestroyCell) => True
  | (_, .popDestroyCell) => 0 < cmux.destroyCellQueueN

/-! ## The invariant -/

/-- A circuit with cells to send. -/
def Entry.active (e : Entry) : Bool := 0 < e.muxinfo.cellCount

/-- The entry with another number of cells. -/
def Entry.withCells (e : Entry) (n : ℕ) : Entry :=
  { e with muxinfo := { e.muxinfo with cellCount := n } }

/-- The policy data of the active circuits. -/
def activeData (entries : List Entry) : List ℕ :=
  (entries.filter Entry.active).filterMap fun e => e.muxinfo.policyData

/-- The counters count the entries. -/
structure Counted (chan : ℕ) (entries : List Entry) (cmux : Circuitmux F) : Prop where
  keys : (entries.map Entry.key).Nodup
  onChannel : ∀ e ∈ entries, e.chanId = chan ∧ e.circId ≠ 0
  nCircuits : cmux.nCircuits = entries.length
  nActiveCircuits : cmux.nActiveCircuits = entries.countP Entry.active
  nCells : cmux.nCells = queuedCells entries
  fits : queuedCells entries < 2 ^ 32

/-- The queue of the policy holds the data of the active circuits, each circuit having its own. -/
structure Queued (entries : List Entry) (pol : EwmaPolicyData) (mem : Memory F) (next : ℕ) :
    Prop where
  ewma : EwmaOk pol mem
  data : ∀ e ∈ entries, ∃ p, e.muxinfo.policyData = some p ∧ p < next
  nodup : (entries.filterMap fun e => e.muxinfo.policyData).Nodup
  queue : pol.activeCircuitPqueue.Perm (activeData entries)

/-- Without a policy there is no data of it. -/
def PolicyOk (entries : List Entry) (policy : Option EwmaPolicyData) (mem : Memory F) (next : ℕ) :
    Prop :=
  match policy with
  | some pol => Queued entries pol mem next
  | none => (∀ e ∈ entries, e.muxinfo.policyData = none) ∧ ∀ p, (mem p).cellEwma.heapIndex = -1

/-- What holds of the mux of the channel `chan` between calls. -/
structure Invariant (chan : ℕ) (cmux : Circuitmux F) : Prop where
  counted : Counted chan cmux.chanidCircidMap cmux
  policy : PolicyOk cmux.chanidCircidMap cmux.policy cmux.circData cmux.nextCircData

/-! ## Entries, in any order -/

lemma queuedCells_perm (h : entries.Perm entries') : queuedCells entries = queuedCells entries' :=
  (h.map _).sum_nat

lemma activeData_perm (h : entries.Perm entries') :
    (activeData entries).Perm (activeData entries') :=
  (h.filter _).filterMap _

lemma Counted.perm (h : Counted chan entries cmux) (hperm : entries.Perm entries') :
    Counted chan entries' cmux where
  keys := (hperm.map _).nodup_iff.mp h.keys
  onChannel e he := h.onChannel e (hperm.mem_iff.mpr he)
  nCircuits := h.nCircuits.trans hperm.length_eq
  nActiveCircuits := h.nActiveCircuits.trans (hperm.countP_eq _)
  nCells := h.nCells.trans (queuedCells_perm hperm)
  fits := queuedCells_perm hperm ▸ h.fits

lemma Queued.perm {next : ℕ} (h : Queued entries pol mem next) (hperm : entries.Perm entries') :
    Queued entries' pol mem next where
  ewma := h.ewma
  data e he := h.data e (hperm.mem_iff.mpr he)
  nodup := (hperm.filterMap _).nodup_iff.mp h.nodup
  queue := h.queue.trans (activeData_perm hperm)

lemma map_split (hkeys : (entries.map Entry.key).Nodup) (he : e ∈ entries) :
    ∃ rest, entries.Perm (e :: rest) ∧ (htRemove Entry.key entries e.key).Perm rest ∧
      ∀ f, (setMuxinfo entries e.key f).Perm ({ e with muxinfo := f e.muxinfo } :: rest) := by
  obtain ⟨l₁, l₂, rfl⟩ := append_of_mem he
  rw [map_append, map_cons, nodup_middle, nodup_cons, ← map_append] at hkeys
  have hne : ∀ a ∈ l₁ ++ l₂, a.key ≠ e.key := by
    intro a ha heq
    exact hkeys.1 (heq ▸ mem_map_of_mem ha)
  refine ⟨l₁ ++ l₂, perm_middle, ?_, fun f => ?_⟩
  · rw [htRemove, eraseP_append_right _ (by simpa using fun a ha => hne a (by simp [ha])),
      eraseP_cons_of_pos (by simp)]
  · have hsame : ∀ l, (∀ a ∈ l, a ∈ l₁ ++ l₂) → setMuxinfo l e.key f = l := by
      intro l hl
      refine (map_congr_left fun a ha => ?_).trans (map_id l)
      exact if_neg (hne a (hl a ha))
    have hsplit : setMuxinfo (l₁ ++ e :: l₂) e.key f
        = setMuxinfo l₁ e.key f ++ { e with muxinfo := f e.muxinfo } :: setMuxinfo l₂ e.key f := by
      simp only [setMuxinfo, map_append, map_cons, if_true]
    rw [hsplit, hsame l₁ fun a ha => mem_append_left l₂ ha,
      hsame l₂ fun a ha => mem_append_right l₁ ha]
    exact perm_middle

/-! ## Counting -/

lemma addUnsigned_eq {x y : ℕ} (h : x + y < 2 ^ 32) : addUnsigned x y = x + y := Nat.mod_eq_of_lt h

lemma subUnsigned_eq {x y : ℕ} (hy : y ≤ x) (hx : x < 2 ^ 32) : subUnsigned x y = x - y := by
  rw [subUnsigned]
  omega

lemma queuedCells_cons (e : Entry) (rest : List Entry) :
    queuedCells (e :: rest) = e.muxinfo.cellCount + queuedCells rest := rfl

lemma length_lt_of_keys (hkeys : (entries.map Entry.key).Nodup)
    (hon : ∀ e ∈ entries, e.chanId = chan ∧ e.circId ≠ 0) : entries.length < 2 ^ 32 := by
  have hnodup : (entries.map fun e => e.circId.toNat).Nodup := by
    refine Nodup.of_map (fun n => (chan, UInt32.ofNat n)) ?_
    rw [List.map_map]
    refine (map_congr_left fun e he => ?_) ▸ hkeys
    simp [Entry.key, (hon e he).1]
  have hsub : (entries.map fun e => e.circId.toNat) ⊆ range' 1 (2 ^ 32 - 1) := by
    intro n hn
    obtain ⟨e, he, rfl⟩ := mem_map.mp hn
    have hne : e.circId.toNat ≠ 0 := fun h0 => (hon e he).2 (UInt32.toNat_inj.mp h0)
    have hlt := e.circId.toNat_lt
    rw [mem_range'_1]
    omega
  have hle := (subperm_of_subset hnodup hsub).length_le
  rw [length_map, length_range'] at hle
  omega

lemma Counted.length_lt (h : Counted chan entries cmux) : entries.length < 2 ^ 32 :=
  length_lt_of_keys h.keys h.onChannel

lemma Counted.circId_ne (h : Counted chan (e :: rest) cmux) : ∀ f ∈ rest, f.circId ≠ e.circId := by
  intro f hf heq
  have hkeys := h.keys
  rw [map_cons, nodup_cons] at hkeys
  have hchan := (h.onChannel e mem_cons_self).1
  have hchan' := (h.onChannel f (mem_cons_of_mem e hf)).1
  refine hkeys.1 (mem_map.mpr ⟨f, hf, ?_⟩)
  rw [Entry.key, Entry.key, heq, hchan, hchan']

variable {n : ℕ}

lemma CellsFit.of_ne {id : UInt32} (hfit : CellsFit cmux id n)
    (hne : ∀ f ∈ cmux.chanidCircidMap, f.circId ≠ id) :
    queuedCells cmux.chanidCircidMap + n < 2 ^ 32 := by
  rwa [CellsFit, filter_eq_self.mpr fun f hf => decide_eq_true (hne f hf)] at hfit

lemma CellsFit.of_perm (hfit : CellsFit cmux e.circId n)
    (hperm : cmux.chanidCircidMap.Perm (e :: rest)) (hne : ∀ f ∈ rest, f.circId ≠ e.circId) :
    queuedCells rest + n < 2 ^ 32 := by
  rwa [CellsFit, queuedCells_perm (hperm.filter _), filter_cons_of_neg (by simp),
    filter_eq_self.mpr fun f hf => decide_eq_true (hne f hf)] at hfit

/-! ## The entry of a circuit -/

variable {circ : Circuit}

variable (chan cmux e) in
lemma findMapEntry_eq (hkeys : (cmux.chanidCircidMap.map Entry.key).Nodup)
    (hchan : ∀ f ∈ cmux.chanidCircidMap, f.chanId = chan)
    (he : e ∈ cmux.chanidCircidMap)
    (hleg : circ.leg e.muxinfo.direction = some (chan, e.circId))
    (hother : ∀ id, circ.leg e.muxinfo.direction.other ≠ some (chan, id)) :
    circuitmuxFindMapEntry cmux circ = some (some e) := by
  have hfind : htFind Entry.key cmux.chanidCircidMap (chan, e.circId) = some e :=
    (htFind_eq_some hkeys).mpr ⟨he, by rw [Entry.key, hchan e he]⟩
  rw [circuitmuxFindMapEntry]
  cases hdir : e.muxinfo.direction with
  | outward =>
    rw [hdir] at hleg
    rw [hleg, bind_some, hfind]
    exact if_pos hdir
  | inward =>
    rw [hdir] at hleg hother
    have hnone : (circ.leg .outward).bind (htFind Entry.key cmux.chanidCircidMap) = none := by
      rw [bind_eq_none_iff]
      rintro ⟨c, id⟩ hc
      rw [htFind_eq_none]
      intro f hf hkey
      rw [Entry.key, Prod.mk.injEq] at hkey
      exact hother id (by rw [CellDirection.other, hc, ← hkey.1, hchan f hf])
    rw [hnone, hleg, bind_some, hfind]
    exact if_pos hdir

lemma findMapEntry_congr (h : cmux'.chanidCircidMap = cmux.chanidCircidMap) (circ : Circuit) :
    circuitmuxFindMapEntry cmux' circ = circuitmuxFindMapEntry cmux circ := by
  rw [circuitmuxFindMapEntry, circuitmuxFindMapEntry, h]

lemma Attached.find (h : Counted chan cmux.chanidCircidMap cmux)
    (hon : OnChannel chan cmux circ) (he : Attached chan cmux circ e) :
    circuitmuxFindMapEntry cmux circ = some (some e) := by
  obtain ⟨hmem, direction, hleg⟩ := he
  have hdir := hon.direction direction e.circId hleg e hmem rfl
  subst hdir
  exact findMapEntry_eq chan cmux e h.keys (fun f hf => (h.onChannel f hf).1) hmem hleg
    (hon.other _ _ hleg)

lemma detachSearch_spec (h : Counted chan cmux.chanidCircidMap cmux)
    (hon : OnChannel chan cmux circ) (hleg : ∃ direction, (circ.leg direction).isSome) :
    (∃ e, detachSearch cmux circ = (some e, some e.muxinfo.direction) ∧ Attached chan cmux circ e)
      ∨ ∃ direction, detachSearch cmux circ = (none, some direction) := by
  have hfound : ∀ direction key, circ.leg direction = some key → ∀ f,
      htFind Entry.key cmux.chanidCircidMap key = some f →
      f.muxinfo.direction = direction ∧ Attached chan cmux circ f := by
    intro direction key hkey f hf
    have hmem := mem_of_htFind hf
    have hchan := (h.onChannel f hmem).1
    have hkey' : circ.leg direction = some (chan, f.circId) := by
      rw [hkey, ← key_of_htFind hf, Entry.key, hchan]
    exact ⟨hon.direction direction f.circId hkey' f hmem rfl, hmem, direction, hkey'⟩
  unfold detachSearch
  cases hout : (circ.leg .outward).bind (htFind Entry.key cmux.chanidCircidMap) with
  | some e =>
    obtain ⟨key, hkey, hf⟩ := bind_eq_some_iff.mp hout
    obtain ⟨hdir, hatt⟩ := hfound .outward key hkey e hf
    refine .inl ⟨e, ?_, hatt⟩
    simp [hkey, hdir]
  | none =>
    cases hin : circ.leg .inward with
    | some key =>
      cases hf : htFind Entry.key cmux.chanidCircidMap key with
      | some e =>
        obtain ⟨hdir, hatt⟩ := hfound .inward key hin e hf
        exact .inl ⟨e, by simp [hf, hdir], hatt⟩
      | none => exact .inr ⟨.inward, by simp [hf]⟩
    | none =>
      refine .inr ⟨.outward, ?_⟩
      obtain ⟨direction, hsome⟩ := hleg
      cases direction with
      | inward => simp [hin] at hsome
      | outward =>
        obtain ⟨key, hkey⟩ := isSome_iff_exists.mp hsome
        simp [hkey]

/-! ## The queue of the policy -/

variable {p next : ℕ} {circ : Circuit}

lemma activeData_cons (hp : e.muxinfo.policyData = some p) (rest : List Entry) :
    activeData (e :: rest)
      = if 0 < e.muxinfo.cellCount then p :: activeData rest else activeData rest := by
  rw [activeData, filter_cons, Entry.active]
  split
  · rename_i hactive
    rw [if_pos (of_decide_eq_true hactive)]
    exact filterMap_cons_some hp
  · rename_i hactive
    rw [if_neg fun h => hactive (decide_eq_true h)]
    rfl

lemma activeData_subset {q : ℕ} (hq : q ∈ activeData entries) :
    q ∈ entries.filterMap fun e => e.muxinfo.policyData :=
  (filter_sublist.filterMap _).subset hq

lemma Queued.notMem_rest (h : Queued (e :: rest) pol mem next)
    (hp : e.muxinfo.policyData = some p) : p ∉ activeData rest := by
  have hdata : (e :: rest).filterMap (fun e => e.muxinfo.policyData)
      = p :: rest.filterMap fun e => e.muxinfo.policyData := filterMap_cons_some hp
  have hnodup := h.nodup
  rw [hdata, nodup_cons] at hnodup
  exact fun hmem => hnodup.1 (activeData_subset hmem)

lemma Queued.tail {pol' : EwmaPolicyData} {mem' : Memory F} (h : Queued (e :: rest) pol mem next)
    (hok : EwmaOk pol' mem') (hqueue : pol'.activeCircuitPqueue.Perm (activeData rest)) :
    Queued rest pol' mem' next where
  ewma := hok
  data f hf := h.data f (mem_cons_of_mem e hf)
  nodup := (List.Sublist.filterMap _ (sublist_cons_self e rest)).nodup h.nodup
  queue := hqueue

lemma Queued.setCells {pol' : EwmaPolicyData} {mem' : Memory F}
    (h : Queued (e :: rest) pol mem next) (hok : EwmaOk pol' mem')
    (hqueue : pol'.activeCircuitPqueue.Perm (activeData (e.withCells n :: rest))) :
    Queued (e.withCells n :: rest) pol' mem' next where
  ewma := hok
  data f hf := by
    rcases mem_cons.mp hf with rfl | hf
    · exact h.data e mem_cons_self
    · exact h.data f (mem_cons_of_mem e hf)
  nodup := h.nodup
  queue := hqueue

variable (fl) in
lemma makeCircuitActive_spec (nActive : ℕ)
    (hfind : circuitmuxFindMapEntry cmux circ = some (some e))
    (hp : e.muxinfo.policyData = some p) (hpol : cmux.policy = some pol)
    (hok : EwmaOk pol cmux.circData) (hnot : p ∉ pol.activeCircuitPqueue) :
    ∃ pol' mem', circuitmuxMakeCircuitActive fl { cmux with nActiveCircuits := nActive } circ
        = some { cmux with nActiveCircuits := nActive, policy := some pol', circData := mem' }
      ∧ EwmaOk pol' mem' ∧ pol'.activeCircuitPqueue.Perm (p :: pol.activeCircuitPqueue)
      ∧ ∀ q, (mem' q).circ = (cmux.circData q).circ := by
  obtain ⟨pol', mem', hadd, hok', hperm, hcirc⟩ := addCellEwma_spec fl hok hnot
  refine ⟨pol', mem', ?_, hok', hperm, hcirc⟩
  have hfind' : circuitmuxFindMapEntry { cmux with nActiveCircuits := nActive, policy := some pol }
      circ = some (some e) := hfind
  simp [circuitmuxMakeCircuitActive, hfind', hp, hpol, hadd]

variable (fl) in
lemma makeCircuitInactive_spec (nActive : ℕ)
    (hfind : circuitmuxFindMapEntry cmux circ = some (some e))
    (hp : e.muxinfo.policyData = some p) (hpol : cmux.policy = some pol)
    (hok : EwmaOk pol cmux.circData) (hmem : p ∈ pol.activeCircuitPqueue) :
    ∃ pol' mem', circuitmuxMakeCircuitInactive fl { cmux with nActiveCircuits := nActive } circ
        = some { cmux with nActiveCircuits := nActive, policy := some pol', circData := mem' }
      ∧ EwmaOk pol' mem' ∧ (p :: pol'.activeCircuitPqueue).Perm pol.activeCircuitPqueue
      ∧ ∀ q, (mem' q).circ = (cmux.circData q).circ := by
  obtain ⟨pol', mem', hremove, hok', hperm, hcirc⟩ := removeCellEwma_spec fl hok hmem
  refine ⟨pol', mem', ?_, hok', hperm, hcirc⟩
  have hfind' : circuitmuxFindMapEntry { cmux with nActiveCircuits := nActive, policy := some pol }
      circ = some (some e) := hfind
  simp [circuitmuxMakeCircuitInactive, hfind', hp, hpol, hremove]

variable (fl e) in
/-- **A circuit gets another number of cells**: the policy hears of it when it becomes active or is
active no more, and the counter follows. -/
lemma updateActive_spec {old : Entry} (n : ℕ)
    (hfind : circuitmuxFindMapEntry cmux circ = some (some old))
    (hold : old.muxinfo.policyData = e.muxinfo.policyData)
    (hpol : cmux.policy = some pol) (h : Queued (e :: rest) pol cmux.circData next)
    (hactive : cmux.nActiveCircuits = (e :: rest).countP Entry.active)
    (hlen : (e :: rest).length < 2 ^ 32) :
    ∃ pol' mem', (
        if e.muxinfo.cellCount > 0 ∧ n = 0 then
          circuitmuxMakeCircuitInactive fl
            { cmux with nActiveCircuits := subUnsigned cmux.nActiveCircuits 1 } circ
        else if e.muxinfo.cellCount = 0 ∧ n > 0 then
          circuitmuxMakeCircuitActive fl
            { cmux with nActiveCircuits := addUnsigned cmux.nActiveCircuits 1 } circ
        else some cmux)
      = some { cmux with
          policy := some pol'
          circData := mem'
          nActiveCircuits := (e.withCells n :: rest).countP Entry.active }
      ∧ Queued (e.withCells n :: rest) pol' mem' next := by
  obtain ⟨p, hp, -⟩ := h.data e mem_cons_self
  have hrest := h.notMem_rest hp
  have hqueue := h.queue
  have hle : rest.countP Entry.active ≤ rest.length := countP_le_length
  rw [activeData_cons hp] at hqueue
  rw [length_cons] at hlen
  rw [countP_cons, Entry.active] at hactive
  have hcons : activeData (e.withCells n :: rest)
      = if 0 < n then p :: activeData rest else activeData rest :=
    activeData_cons (e := e.withCells n) hp rest
  have hcount : (e.withCells n :: rest).countP Entry.active
      = rest.countP Entry.active + if 0 < n then 1 else 0 := by
    simp [countP_cons, Entry.active, Entry.withCells]
  split_ifs with hdown hup
  · obtain ⟨hpos, rfl⟩ := hdown
    rw [if_pos hpos] at hqueue
    obtain ⟨pol', mem', hmake, hok, hperm, -⟩ := makeCircuitInactive_spec fl
      (subUnsigned cmux.nActiveCircuits 1) hfind (hold.trans hp) hpol h.ewma
      (hqueue.mem_iff.mpr mem_cons_self)
    refine ⟨pol', mem', ?_, h.setCells hok ?_⟩
    · rw [if_pos (decide_eq_true hpos)] at hactive
      rw [hmake, hcount, if_neg (lt_irrefl 0), subUnsigned_eq (by omega) (by omega), hactive]
      rfl
    · rw [hcons, if_neg (lt_irrefl 0)]
      exact (hperm.trans hqueue).cons_inv
  · obtain ⟨hzero, hpos⟩ := hup
    rw [if_neg (by omega)] at hqueue
    obtain ⟨pol', mem', hmake, hok, hperm, -⟩ := makeCircuitActive_spec fl
      (addUnsigned cmux.nActiveCircuits 1) hfind (hold.trans hp) hpol h.ewma
      fun hmem => hrest (hqueue.mem_iff.mp hmem)
    refine ⟨pol', mem', ?_, h.setCells hok ?_⟩
    · rw [if_neg (by simp [hzero])] at hactive
      rw [hmake, hcount, if_pos hpos, addUnsigned_eq (by omega), hactive]
    · rw [hcons, if_pos hpos]
      exact hperm.trans (hqueue.cons p)
  · have hsame : 0 < e.muxinfo.cellCount ↔ 0 < n := by omega
    refine ⟨pol, cmux.circData, ?_, h.setCells h.ewma ?_⟩
    · simp only [hsame, decide_eq_true_eq] at hactive
      rw [hcount, ← hactive, ← hpol]
    · rw [hcons]
      simpa only [hsame] using hqueue

/-! ## The parts of a call -/

lemma PolicyOk.perm {policy : Option EwmaPolicyData} (h : PolicyOk entries policy mem next)
    (hperm : entries.Perm entries') : PolicyOk entries' policy mem next := by
  cases policy with
  | some pol => exact Queued.perm h hperm
  | none => exact ⟨fun e he => h.1 e (hperm.mem_iff.mpr he), h.2⟩

lemma PolicyOk.isSome {policy : Option EwmaPolicyData} (h : PolicyOk entries policy mem next)
    (he : e ∈ entries) : ¬ (e.muxinfo.policyData.isSome ∧ policy.isNone) := by
  rintro ⟨hdata, hnone⟩
  obtain rfl := isNone_iff_eq_none.mp hnone
  rw [h.1 e he] at hdata
  exact absurd hdata Bool.false_ne_true

lemma Invariant.of_perm (hperm : cmux.chanidCircidMap.Perm entries)
    (hcounted : Counted chan entries cmux)
    (hpolicy : PolicyOk entries cmux.policy cmux.circData cmux.nextCircData) :
    Invariant chan cmux where
  counted := hcounted.perm hperm.symm
  policy := hpolicy.perm hperm.symm

lemma Invariant.queued (h : Invariant chan cmux) (hpol : cmux.policy = some pol) :
    Queued cmux.chanidCircidMap pol cmux.circData cmux.nextCircData := by
  have hpolicy := h.policy
  rwa [hpol] at hpolicy

lemma Counted.withCells (h : Counted chan (e :: rest) cmux)
    (hfit : queuedCells rest + n < 2 ^ 32) (hnCircuits : cmux'.nCircuits = cmux.nCircuits)
    (hactive : cmux'.nActiveCircuits = (e.withCells n :: rest).countP Entry.active)
    (hnCells : cmux'.nCells = n + queuedCells rest) :
    Counted chan (e.withCells n :: rest) cmux' where
  keys := h.keys
  onChannel f hf := by
    rcases mem_cons.mp hf with rfl | hf
    · exact h.onChannel e mem_cons_self
    · exact h.onChannel f (mem_cons_of_mem e hf)
  nCircuits := hnCircuits.trans h.nCircuits
  nActiveCircuits := hactive
  nCells := hnCells
  fits := by
    show n + queuedCells rest < 2 ^ 32
    omega

lemma Counted.addUnsigned_subUnsigned (h : Counted chan (e :: rest) cmux)
    (hfit : queuedCells rest + n < 2 ^ 32) :
    addUnsigned (subUnsigned cmux.nCells e.muxinfo.cellCount) n = n + queuedCells rest := by
  have hnCells := h.nCells
  have hfits := h.fits
  rw [queuedCells_cons] at hnCells hfits
  rw [subUnsigned_eq (by omega) (by omega), addUnsigned_eq (by omega)]
  omega

lemma find_setMuxinfo (h : Counted chan cmux.chanidCircidMap cmux)
    (hon : OnChannel chan cmux circ) (he : Attached chan cmux circ e) {f : MuxInfo → MuxInfo}
    (hf : ∀ i, (f i).direction = i.direction)
    (hmap : cmux'.chanidCircidMap = setMuxinfo cmux.chanidCircidMap e.key f) :
    circuitmuxFindMapEntry cmux' circ = some (some { e with muxinfo := f e.muxinfo }) := by
  obtain ⟨rest, hperm, -, hset⟩ := map_split h.keys he.1
  have hperm' : cmux'.chanidCircidMap.Perm ({ e with muxinfo := f e.muxinfo } :: rest) :=
    hmap ▸ hset f
  have hcounted := h.perm hperm
  obtain ⟨hmem, direction, hleg⟩ := he
  have hdir := hon.direction direction e.circId hleg e hmem rfl
  subst hdir
  refine findMapEntry_eq chan _ _ ((hperm'.map _).nodup_iff.mpr hcounted.keys) ?_
    (hperm'.mem_iff.mpr mem_cons_self) ?_ ?_
  · intro g hg
    rcases mem_cons.mp (hperm'.mem_iff.mp hg) with rfl | hg
    · exact (hcounted.onChannel e mem_cons_self).1
    · exact (hcounted.onChannel g (mem_cons_of_mem e hg)).1
  · rw [hf]
    exact hleg
  · rw [hf]
    exact hon.other _ _ hleg

lemma Queued.alloc {d : EwmaPolicyCircData F} (h : Queued entries pol mem next)
    (he : e.muxinfo.policyData = some next) (hzero : e.muxinfo.cellCount = 0)
    (hd : d.cellEwma.heapIndex = -1) :
    Queued (e :: entries) pol (Function.update mem next d) (next + 1) := by
  have hlt : ∀ q ∈ entries.filterMap (fun f => f.muxinfo.policyData), q < next := by
    intro q hq
    obtain ⟨f, hf, hfq⟩ := mem_filterMap.mp hq
    obtain ⟨r, hr, hlt⟩ := h.data f hf
    rwa [some.inj (hfq.symm.trans hr)]
  have hqueue : ∀ q ∈ pol.activeCircuitPqueue, q ≠ next := fun q hq =>
    (hlt q (activeData_subset (h.queue.mem_iff.mp hq))).ne
  refine ⟨⟨⟨h.ewma.positions.nodup, fun i q hq _ => ?_, fun q hq => ?_⟩, fun q hq => ?_⟩,
    fun f hf => ?_, ?_, ?_⟩
  · rw [← h.ewma.positions.idx_eq i q hq (Set.notMem_empty i)]
    exact congrArg (fun d => d.cellEwma.heapIndex)
      (Function.update_of_ne (hqueue q (mem_of_getElem? hq)) d mem)
  · show (Function.update mem next d q).cellEwma.heapIndex = -1
    by_cases hnext : q = next
    · rw [hnext, Function.update_self, hd]
    · rw [Function.update_of_ne hnext]
      exact h.ewma.heapIndex_notMem hq
  · rw [Function.update_of_ne (hqueue q hq)]
    exact h.ewma.ticks q hq
  · rcases mem_cons.mp hf with rfl | hf
    · exact ⟨next, he, Nat.lt_succ_self next⟩
    · obtain ⟨q, hq, hlt⟩ := h.data f hf
      exact ⟨q, hq, by omega⟩
  · have hdata : (e :: entries).filterMap (fun f => f.muxinfo.policyData)
        = next :: entries.filterMap fun f => f.muxinfo.policyData := filterMap_cons_some he
    rw [hdata, nodup_cons]
    exact ⟨fun hmem => absurd (hlt next hmem) (lt_irrefl next), h.nodup⟩
  · rw [activeData_cons he, if_neg (by omega)]
    exact h.queue

end Ator.Circuitmux
