import AtorProtocol.Circuitmux.Invariant

/-!
# The calls of a circuitmux

Each function, called as its callers promise, fails no assertion and keeps the invariant.

* `attachCircuit_spec`, `detachCircuit_spec`, `detachAllCircuits_spec`, `setNumCells_spec`,
  `notifyXmitCells_spec`, `setPolicy_spec` — one lemma for each.
* `installLoop_spec`, `clearLoop_spec` — the policy is replaced in mid-run.
-/

namespace Ator.Circuitmux

open List Option

variable {F : Type} {fl : EwmaArith F} {chan p next : ℕ} {cmux cmux' : Circuitmux F} {env : Env F}
  {entries entries' rest : List Entry} {e : Entry} {pol : EwmaPolicyData} {mem : Memory F}
  {circ : Circuit}

/-! ## Cells and circuits -/

lemma setNumCells_spec {n c : ℕ} (h : Invariant chan cmux)
    (hallowed : Allowed chan cmux (env, .setNumCells c n)) :
    ∃ cmux', circuitmuxSetNumCells fl cmux env c n = some cmux' ∧ Invariant chan cmux'
      ∧ cmux'.destroyCellQueueN = cmux.destroyCellQueueN := by
  obtain ⟨hpol, hon, e, he, hfit⟩ := hallowed
  obtain ⟨pol, hpol⟩ := isSome_iff_exists.mp hpol
  obtain ⟨rest, hperm, -, hset⟩ := map_split h.counted.keys he.1
  have hcounted := h.counted.perm hperm
  have hfit' := hfit.of_perm hperm hcounted.circId_ne
  let cmux₁ : Circuitmux F := { cmux with
    nCells := addUnsigned (subUnsigned cmux.nCells e.muxinfo.cellCount) n
    chanidCircidMap := setMuxinfo cmux.chanidCircidMap e.key fun i => { i with cellCount := n } }
  have hfind₁ : circuitmuxFindMapEntry cmux₁ (env.circuit c) = some (some (e.withCells n)) :=
    find_setMuxinfo h.counted hon he (f := fun i => { i with cellCount := n }) (fun _ => rfl) rfl
  obtain ⟨pol', mem', hupdate, hqueued⟩ := updateActive_spec fl e n
    hfind₁ rfl hpol ((h.queued hpol).perm hperm) hcounted.nActiveCircuits hcounted.length_lt
  refine ⟨{ cmux₁ with
      policy := some pol'
      circData := mem'
      nActiveCircuits := (e.withCells n :: rest).countP Entry.active },
    ?_, Invariant.of_perm (hset fun i => { i with cellCount := n })
      (hcounted.withCells hfit' rfl rfl ?_) hqueued, rfl⟩
  · refine bind_eq_some_iff.mpr ⟨some e, he.find h.counted hon, ?_⟩
    exact bind_eq_some_iff.mpr ⟨e, rfl, bind_eq_some_iff.mpr ⟨pol, hpol, hupdate⟩⟩
  · exact hcounted.addUnsigned_subUnsigned hfit'

lemma reattachCircuit_spec {n : ℕ} (h : Invariant chan cmux) (hpol : cmux.policy = some pol)
    (hon : OnChannel chan cmux circ) (he : Attached chan cmux circ e)
    (hfit : CellsFit cmux e.circId n) :
    ∃ cmux', reattachCircuit fl cmux circ e n = some cmux' ∧ Invariant chan cmux'
      ∧ cmux'.destroyCellQueueN = cmux.destroyCellQueueN := by
  obtain ⟨rest, hperm, -, hset⟩ := map_split h.counted.keys he.1
  have hcounted := h.counted.perm hperm
  have hfit' := hfit.of_perm hperm hcounted.circId_ne
  obtain ⟨pol', mem', hupdate, hqueued⟩ := updateActive_spec fl e n
    (he.find h.counted hon) rfl hpol ((h.queued hpol).perm hperm) hcounted.nActiveCircuits
    hcounted.length_lt
  refine ⟨{ cmux with
      policy := some pol'
      circData := mem'
      nActiveCircuits := (e.withCells n :: rest).countP Entry.active
      nCells := addUnsigned (subUnsigned cmux.nCells e.muxinfo.cellCount) n
      chanidCircidMap := setMuxinfo cmux.chanidCircidMap e.key fun i => { i with cellCount := n } },
    ?_, Invariant.of_perm (hset fun i => { i with cellCount := n })
      (hcounted.withCells hfit' rfl rfl ?_) hqueued, rfl⟩
  · rw [reattachCircuit, hupdate]
    rfl
  · exact hcounted.addUnsigned_subUnsigned hfit'

lemma Invariant.alloc (h : Invariant chan cmux) (hpol : cmux.policy = some pol)
    {e : Entry} {d : EwmaPolicyCircData F} (hchan : e.chanId = chan) (hid : e.circId ≠ 0)
    (hnew : ∀ f ∈ cmux.chanidCircidMap, f.circId ≠ e.circId)
    (he : e.muxinfo.policyData = some cmux.nextCircData) (hzero : e.muxinfo.cellCount = 0)
    (hd : d.cellEwma.heapIndex = -1) :
    Invariant chan { cmux with
      chanidCircidMap := e :: cmux.chanidCircidMap
      nCircuits := addUnsigned cmux.nCircuits 1
      circData := Function.update cmux.circData cmux.nextCircData d
      nextCircData := cmux.nextCircData + 1 } := by
  have hc := h.counted
  have hkeys : ((e :: cmux.chanidCircidMap).map Entry.key).Nodup := by
    rw [map_cons, nodup_cons]
    refine ⟨fun hmem => ?_, hc.keys⟩
    obtain ⟨f, hf, hkey⟩ := mem_map.mp hmem
    exact hnew f hf (Prod.mk.inj hkey).2
  have hon : ∀ f ∈ e :: cmux.chanidCircidMap, f.chanId = chan ∧ f.circId ≠ 0 := by
    intro f hf
    rcases mem_cons.mp hf with rfl | hf
    · exact ⟨hchan, hid⟩
    · exact hc.onChannel f hf
  refine ⟨⟨hkeys, hon, ?_, ?_, ?_, ?_⟩, ?_⟩
  · have hlen := length_lt_of_keys hkeys hon
    have hn := hc.nCircuits
    rw [length_cons] at hlen
    show addUnsigned cmux.nCircuits 1 = _
    rw [addUnsigned_eq (by omega), hn, length_cons]
  · rw [countP_cons_of_neg (by simp [Entry.active, hzero])]
    exact hc.nActiveCircuits
  · rw [queuedCells_cons, hzero, Nat.zero_add]
    exact hc.nCells
  · rw [queuedCells_cons, hzero, Nat.zero_add]
    exact hc.fits
  · show PolicyOk _ cmux.policy _ _
    rw [hpol]
    exact (h.queued hpol).alloc he hzero hd

variable {direction : CellDirection}

lemma attachNewCircuit_spec {n c : ℕ} {id : UInt32}
    (h : Invariant chan cmux) (hpol : cmux.policy = some pol)
    (hon : OnChannel chan cmux (env.circuit c))
    (hleg : (env.circuit c).leg direction = some (chan, id)) (hid : id ≠ 0)
    (hnew : ∀ f ∈ cmux.chanidCircidMap, f.circId ≠ id) (hfit : CellsFit cmux id n) :
    ∃ cmux', attachNewCircuit fl cmux env c direction (chan, id) n = some cmux'
      ∧ Invariant chan cmux'
      ∧ cmux'.destroyCellQueueN = cmux.destroyCellQueueN := by
  let e : Entry := ⟨chan, id, ⟨n, direction, some cmux.nextCircData⟩⟩
  let d : EwmaPolicyCircData F := ewmaAllocCircData fl c env.tick (direction = .inward)
  have halloc := h.alloc hpol (e := e.withCells 0) (d := d) rfl hid hnew rfl rfl rfl
  let cmux₁ : Circuitmux F := (allocCircData fl cmux env c direction).2
  let cmux₂ : Circuitmux F := { cmux₁ with
    chanidCircidMap := htInsert cmux₁.chanidCircidMap e
    nCircuits := addUnsigned cmux.nCircuits 1 }
  have hfind : circuitmuxFindMapEntry cmux₂ (env.circuit c) = some (some e) := by
    refine findMapEntry_eq chan cmux₂ e halloc.counted.keys ?_
      mem_cons_self hleg (hon.other direction id hleg)
    intro f hf
    rcases mem_cons.mp hf with rfl | hf
    · rfl
    · exact (h.counted.onChannel f hf).1
  obtain ⟨pol', mem', hupdate, hqueued⟩ := updateActive_spec fl (e.withCells 0) n
    hfind rfl hpol (halloc.queued hpol) halloc.counted.nActiveCircuits
    halloc.counted.length_lt
  have hfit' := hfit.of_ne hnew
  refine ⟨{ cmux₂ with
      policy := some pol'
      circData := mem'
      nActiveCircuits := ((e.withCells 0).withCells n :: cmux.chanidCircidMap).countP Entry.active
      nCells := addUnsigned cmux.nCells n },
    ?_, Invariant.of_perm (List.Perm.refl _)
      (halloc.counted.withCells hfit' rfl rfl ?_) hqueued, rfl⟩
  · rw [if_neg fun h => absurd h.1 (lt_irrefl 0)] at hupdate
    have hactive := (if_congr (and_iff_right rfl) rfl rfl).symm.trans hupdate
    refine bind_eq_some_iff.mpr ⟨pol, hpol, ?_⟩
    exact bind_eq_some_iff.mpr ⟨_, hactive, rfl⟩
  · have hnCells := h.counted.nCells
    show addUnsigned cmux.nCells n = _
    rw [addUnsigned_eq (by omega), hnCells, Nat.add_comm]

lemma leg_of_attachFields {n : ℕ} {id : UInt32}
    (h : attachFields circ direction = some (n, some chan, id)) :
    circ.leg direction = some (chan, id) := by
  cases direction with
  | outward =>
    simp only [attachFields, some.injEq, Prod.mk.injEq] at h
    simp [Circuit.leg, h.2.1, h.2.2]
  | inward =>
    obtain ⟨o, ho, hfields⟩ := map_eq_some_iff.mp h
    simp only [Prod.mk.injEq] at hfields
    simp [Circuit.leg, ho, hfields.2.1, hfields.2.2]

lemma attachCircuit_spec {c : ℕ} (h : Invariant chan cmux)
    (hallowed : Allowed chan cmux (env, .attachCircuit c direction)) :
    ∃ cmux', circuitmuxAttachCircuit fl cmux env c direction = some cmux' ∧ Invariant chan cmux'
      ∧ cmux'.destroyCellQueueN = cmux.destroyCellQueueN := by
  obtain ⟨hpol, hon, n, id, hfields, hid, hfit⟩ := hallowed
  obtain ⟨pol, hpol⟩ := isSome_iff_exists.mp hpol
  have hleg := leg_of_attachFields hfields
  simp only [circuitmuxAttachCircuit, hfields, bind_eq_bind, bind_some, if_neg hid]
  cases hfind : htFind Entry.key cmux.chanidCircidMap (chan, id) with
  | some e =>
    have hmem := mem_of_htFind hfind
    have hcircId : e.circId = id := congrArg Prod.snd (key_of_htFind hfind)
    have hdir := hon.direction direction id hleg e hmem hcircId
    simp only [hdir, ne_eq, not_true_eq_false, if_false]
    subst hcircId
    exact reattachCircuit_spec h hpol hon ⟨hmem, direction, hleg⟩ hfit
  | none =>
    refine attachNewCircuit_spec h hpol hon hleg hid (fun f hf hcircId => ?_) hfit
    refine htFind_eq_none.mp hfind f hf ?_
    rw [Entry.key, (h.counted.onChannel f hf).1, hcircId]

/-! ## Detaching -/

lemma Counted.tail (h : Counted chan (e :: rest) cmux)
    (hnCircuits : cmux'.nCircuits = rest.length)
    (hactive : cmux'.nActiveCircuits = rest.countP Entry.active)
    (hnCells : cmux'.nCells = queuedCells rest) : Counted chan rest cmux' where
  keys := (nodup_cons.mp h.keys).2
  onChannel f hf := h.onChannel f (mem_cons_of_mem e hf)
  nCircuits := hnCircuits
  nActiveCircuits := hactive
  nCells := hnCells
  fits := by
    have hfits := h.fits
    rw [queuedCells_cons] at hfits
    omega

variable (fl) in
lemma removeActive_spec (nActive : ℕ) (hfind : circuitmuxFindMapEntry cmux circ = some (some e))
    (h : PolicyOk (e :: rest) cmux.policy cmux.circData next)
    (hallowed : cmux.policy.isSome ∨ e.muxinfo.cellCount = 0) :
    ∃ policy' mem', (
        if e.muxinfo.cellCount > 0 then
          circuitmuxMakeCircuitInactive fl { cmux with nActiveCircuits := nActive } circ
        else some cmux)
      = some { cmux with
          policy := policy'
          circData := mem'
          nActiveCircuits := if e.muxinfo.cellCount > 0 then nActive else cmux.nActiveCircuits }
      ∧ PolicyOk rest policy' mem' next ∧ policy'.isSome = cmux.policy.isSome
      ∧ ∀ q, (mem' q).circ = (cmux.circData q).circ := by
  cases hpol : cmux.policy with
  | some pol =>
    rw [hpol] at h
    have hq : Queued (e :: rest) pol cmux.circData next := h
    obtain ⟨p, hp, -⟩ := hq.data e mem_cons_self
    have hqueue := hq.queue
    rw [activeData_cons hp] at hqueue
    split
    · rename_i hpos
      rw [if_pos hpos] at hqueue
      obtain ⟨pol', mem', hmake, hok, hperm, hcirc⟩ := makeCircuitInactive_spec fl nActive
        hfind hp hpol hq.ewma (hqueue.mem_iff.mpr mem_cons_self)
      rw [hpol] at hmake
      exact ⟨some pol', mem', hmake, hq.tail hok (hperm.trans hqueue).cons_inv, rfl, hcirc⟩
    · rename_i hzero
      rw [if_neg hzero] at hqueue
      exact ⟨some pol, cmux.circData, by rw [← hpol], hq.tail hq.ewma hqueue, rfl, fun _ => rfl⟩
  | none =>
    have hzero : ¬ e.muxinfo.cellCount > 0 := by
      rw [hpol] at hallowed
      simpa using hallowed
    rw [hpol] at h
    refine ⟨none, cmux.circData, ?_, ⟨fun f hf => h.1 f (mem_cons_of_mem e hf), h.2⟩, rfl,
      fun _ => rfl⟩
    rw [if_neg hzero, if_neg hzero, ← hpol]

lemma detachCircuit_spec {c : ℕ} (h : Invariant chan cmux)
    (hallowed : Allowed chan cmux (env, .detachCircuit c)) :
    ∃ cmux', circuitmuxDetachCircuit fl cmux env c = some cmux' ∧ Invariant chan cmux'
      ∧ cmux'.destroyCellQueueN = cmux.destroyCellQueueN := by
  obtain ⟨hon, hleg, hpol⟩ := hallowed
  rcases detachSearch_spec h.counted hon hleg with ⟨e, hsearch, he⟩ | ⟨direction, hsearch⟩
  · obtain ⟨rest, hperm, hremove, -⟩ := map_split h.counted.keys he.1
    have hcounted := h.counted.perm hperm
    have hpolicy := h.policy.perm hperm
    let cmux₁ : Circuitmux F := { cmux with nCircuits := subUnsigned cmux.nCircuits 1 }
    have hfind : circuitmuxFindMapEntry cmux₁ (env.circuit c) = some (some e) :=
      (findMapEntry_congr (by rfl) _).trans (he.find h.counted hon)
    obtain ⟨policy', mem', hinactive, hrest, hsome, -⟩ := removeActive_spec fl
      (subUnsigned cmux.nActiveCircuits 1) hfind
      hpolicy (hpol.imp_right fun hzero => hzero e he.1)
    let cmux₂ : Circuitmux F := { cmux₁ with
      policy := policy'
      circData := mem'
      nActiveCircuits :=
        if e.muxinfo.cellCount > 0 then subUnsigned cmux.nActiveCircuits 1
        else cmux.nActiveCircuits
      nCells := subUnsigned cmux.nCells e.muxinfo.cellCount
      chanidCircidMap := htRemove Entry.key cmux.chanidCircidMap e.key }
    have hdata : ¬ (e.muxinfo.policyData.isSome ∧ policy'.isNone) := by
      have hdata := hpolicy.isSome mem_cons_self
      rwa [← not_isSome, hsome, not_isSome]
    have hrun : circuitmuxDetachCircuit fl cmux env c = some cmux₂ := by
      rw [circuitmuxDetachCircuit, hsearch]
      refine bind_eq_some_iff.mpr ⟨_, hinactive, ?_⟩
      rw [if_neg hdata, if_neg (not_not.mpr rfl)]
    have hn := hcounted.nCircuits
    have ha := hcounted.nActiveCircuits
    have hc := hcounted.nCells
    have hlen := hcounted.length_lt
    have hfits := hcounted.fits
    have hle : rest.countP Entry.active ≤ rest.length := countP_le_length
    rw [length_cons] at hn hlen
    rw [queuedCells_cons] at hc hfits
    rw [countP_cons, Entry.active] at ha
    refine ⟨cmux₂, hrun, Invariant.of_perm hremove (hcounted.tail ?_ ?_ ?_) hrest, rfl⟩
    · show subUnsigned cmux.nCircuits 1 = rest.length
      rw [subUnsigned_eq (by omega) (by omega)]
      omega
    · show (if e.muxinfo.cellCount > 0 then _ else _) = rest.countP Entry.active
      split
      · rename_i hpos
        rw [if_pos (decide_eq_true hpos)] at ha
        rw [subUnsigned_eq (by omega) (by omega)]
        omega
      · rename_i hzero
        rw [if_neg (by simpa using hzero)] at ha
        exact ha
    · show subUnsigned cmux.nCells e.muxinfo.cellCount = queuedCells rest
      rw [subUnsigned_eq (by omega) (by omega)]
      omega
  · refine ⟨cmux, ?_, h, rfl⟩
    rw [circuitmuxDetachCircuit, hsearch]

/-! ## Sending -/

lemma Queued.mem_queue (h : Queued entries pol mem next) (hp : p ∈ pol.activeCircuitPqueue) :
    ∃ e ∈ entries, e.muxinfo.policyData = some p ∧ 0 < e.muxinfo.cellCount := by
  obtain ⟨e, he, hdata⟩ := mem_filterMap.mp (h.queue.mem_iff.mp hp)
  obtain ⟨hmem, hactive⟩ := mem_filter.mp he
  exact ⟨e, hmem, hdata, of_decide_eq_true hactive⟩

lemma queue_of_picked {c : ℕ} (h : Invariant chan cmux) (hpol : cmux.policy = some pol)
    (hkeeps : KeepsPlace chan cmux env) (hon : OnChannel chan cmux (env.circuit c))
    (he : Attached chan cmux (env.circuit c) e)
    (hpick : ewmaPickActiveCircuit pol cmux.circData = some c) :
    ∃ p queue, pol.activeCircuitPqueue = p :: queue ∧ e.muxinfo.policyData = some p := by
  obtain ⟨p, hhead, hcirc⟩ := map_eq_some_iff.mp hpick
  obtain ⟨queue, hqueue⟩ := head?_eq_some_iff.mp hhead
  obtain ⟨f, hf, hdata, -⟩ := (h.queued hpol).mem_queue (hqueue ▸ mem_cons_self)
  obtain ⟨-, c', -, hleg', -, hcirc'⟩ := hkeeps f hf
  obtain rfl : c = c' := hcirc.symm.trans (hcirc' p hdata)
  obtain ⟨hmem, direction, hleg⟩ := he
  have hdir : f.muxinfo.direction = direction := by
    by_contra hne
    have hother : f.muxinfo.direction = direction.other := by
      cases hd : f.muxinfo.direction <;> cases direction <;> simp_all [CellDirection.other]
    exact hon.other direction e.circId hleg f.circId (hother ▸ hleg')
  rw [hdir, hleg] at hleg'
  have hid : e.circId = f.circId := (Prod.mk.inj (some.inj hleg')).2
  have hef : e = f := by
    refine eq_of_key_eq h.counted.keys hmem hf ?_
    rw [Entry.key, Entry.key, hid, (h.counted.onChannel e hmem).1, (h.counted.onChannel f hf).1]
  exact ⟨p, queue, hqueue, hef ▸ hdata⟩

lemma notifyXmitCells_spec {n c : ℕ} (h : Invariant chan cmux)
    (hallowed : Allowed chan cmux (env, .notifyXmitCells c n)) :
    ∃ cmux', circuitmuxNotifyXmitCells fl cmux env c n = some cmux' ∧ Invariant chan cmux'
      ∧ cmux'.destroyCellQueueN = cmux.destroyCellQueueN := by
  rcases Nat.eq_zero_or_pos n with rfl | hpos
  · exact ⟨cmux, if_pos rfl, h, rfl⟩
  obtain ⟨hon, hkeeps, ⟨e, he, hle⟩, pol, hpol, hpick⟩ := hallowed hpos
  obtain ⟨p, queue, hqueue, hp⟩ := queue_of_picked h hpol hkeeps hon he hpick
  have hq := h.queued hpol
  obtain ⟨pol₁, mem₁, hnotify, hok₁, hperm₁, -⟩ := ewmaNotifyXmitCells_spec fl hq.ewma
    hqueue n env.tick env.fractionalTick
  obtain ⟨rest, hperm, -, hset⟩ := map_split h.counted.keys he.1
  have hcounted := h.counted.perm hperm
  have hq₁ : Queued (e :: rest) pol₁ mem₁ cmux.nextCircData := by
    have hq' := hq.perm hperm
    exact ⟨hok₁, hq'.data, hq'.nodup, hperm₁.trans hq'.queue⟩
  let cmux₁ : Circuitmux F := { cmux with
    chanidCircidMap := setMuxinfo cmux.chanidCircidMap e.key fun i =>
      { i with cellCount := i.cellCount - n }
    nCells := subUnsigned cmux.nCells n
    policy := some pol₁
    circData := mem₁ }
  have hfind₁ : circuitmuxFindMapEntry cmux₁ (env.circuit c)
      = some (some (e.withCells (e.muxinfo.cellCount - n))) :=
    find_setMuxinfo h.counted hon he (f := fun i => { i with cellCount := i.cellCount - n })
      (fun _ => rfl) (by rfl)
  obtain ⟨pol', mem', hupdate, hqueued⟩ := updateActive_spec fl e
    (e.muxinfo.cellCount - n) hfind₁ rfl rfl hq₁ hcounted.nActiveCircuits hcounted.length_lt
  have hc := hcounted.nCells
  have hfits := hcounted.fits
  rw [queuedCells_cons] at hc hfits
  refine ⟨{ cmux₁ with
      policy := some pol'
      circData := mem'
      nActiveCircuits := (e.withCells (e.muxinfo.cellCount - n) :: rest).countP Entry.active },
    ?_, Invariant.of_perm (hset fun i => { i with cellCount := i.cellCount - n })
      (hcounted.withCells (by omega) rfl rfl ?_) hqueued, rfl⟩
  · have hup : ¬ (e.muxinfo.cellCount = 0 ∧ e.muxinfo.cellCount - n > 0) := by omega
    rw [if_neg hup] at hupdate
    have hdown := (if_congr (and_iff_right (hpos.trans_le hle)) rfl rfl).symm.trans hupdate
    rw [circuitmuxNotifyXmitCells, if_neg hpos.ne']
    refine bind_eq_some_iff.mpr ⟨some e, he.find h.counted hon, ?_⟩
    refine bind_eq_some_iff.mpr ⟨e, rfl, ?_⟩
    rw [if_neg (not_not.mpr hle)]
    refine bind_eq_some_iff.mpr ⟨pol, hpol, bind_eq_some_iff.mpr ⟨p, hp, ?_⟩⟩
    exact bind_eq_some_iff.mpr ⟨(pol₁, mem₁), hnotify, hdown⟩
  · show subUnsigned cmux.nCells n = _
    rw [subUnsigned_eq (by omega) (by omega)]
    omega

/-! ## Every circuit -/

lemma KeepsPlace.mono (h : KeepsPlace chan cmux env)
    (hmap : ∀ e ∈ cmux'.chanidCircidMap, e ∈ cmux.chanidCircidMap)
    (hcirc : ∀ q, (cmux'.circData q).circ = (cmux.circData q).circ) :
    KeepsPlace chan cmux' env := by
  intro e he
  obtain ⟨hchan, c, hc, hleg, hother, hdata⟩ := h e (hmap e he)
  exact ⟨hchan, c, hc, hleg, hother, fun p hp => (hcirc p).trans (hdata p hp)⟩

lemma KeepsPlace.entryCircuit (h : KeepsPlace chan cmux env) (hchan : e.chanId = chan)
    (he : e ∈ cmux.chanidCircidMap) : ∃ c, entryCircuit env e = some c
      ∧ (env.circuit c).leg e.muxinfo.direction = some (chan, e.circId)
      ∧ ∀ id, (env.circuit c).leg e.muxinfo.direction.other ≠ some (chan, id) := by
  obtain ⟨hfound, c, hc, hleg, hother, -⟩ := h e he
  refine ⟨c, ?_, hleg, hother⟩
  rw [Circuitmux.entryCircuit, hchan, if_pos hfound, hc]

variable (fl) in
/-- The first entry of the map goes. -/
lemma detachFirst_spec (hmap : cmux.chanidCircidMap = e :: rest)
    (hkeys : ((e :: rest).map Entry.key).Nodup) (hchan : ∀ f ∈ e :: rest, f.chanId = chan)
    (hpolicy : PolicyOk (e :: rest) cmux.policy cmux.circData next)
    (hkeeps : KeepsPlace chan cmux env) (hpol : cmux.policy.isSome ∨ e.muxinfo.cellCount = 0) :
    ∃ policy' mem', detachFirst fl cmux env e
        = some { cmux with policy := policy', circData := mem' }
      ∧ PolicyOk rest policy' mem' next ∧ policy'.isSome = cmux.policy.isSome
      ∧ ∀ q, (mem' q).circ = (cmux.circData q).circ := by
  have he : e ∈ cmux.chanidCircidMap := hmap ▸ mem_cons_self
  obtain ⟨c, hc, hleg, hother⟩ := hkeeps.entryCircuit (hchan e mem_cons_self) he
  have hfind : circuitmuxFindMapEntry cmux (env.circuit c) = some (some e) :=
    findMapEntry_eq chan cmux e (hmap ▸ hkeys) (hmap ▸ hchan) he hleg hother
  obtain ⟨policy', mem', hinactive, hrest, hsome, hcirc⟩ := removeActive_spec fl
    cmux.nActiveCircuits hfind hpolicy hpol
  have hdata : ¬ (e.muxinfo.policyData.isSome ∧ policy'.isNone) := by
    have hdata := hpolicy.isSome mem_cons_self
    rwa [← not_isSome, hsome, not_isSome]
  have hor : e.muxinfo.direction = .outward ∨ (env.circuit c).orCircuit.isSome := by
    cases hdir : e.muxinfo.direction with
    | outward => exact Or.inl rfl
    | inward =>
      rw [hdir] at hleg
      obtain ⟨o, ho, -⟩ := bind_eq_some_iff.mp hleg
      exact Or.inr (ho ▸ rfl)
  refine ⟨policy', mem', ?_, hrest, hsome, hcirc⟩
  rw [ite_self] at hinactive
  have hif := (if_congr (and_iff_right hor) rfl rfl).trans hinactive
  rw [Circuitmux.entryCircuit] at hc
  rw [detachFirst, hc]
  refine bind_eq_some_iff.mpr ⟨_, hif, ?_⟩
  rw [if_neg hdata]

variable (fl) in
lemma detachLoop_spec (hmap : cmux.chanidCircidMap = entries)
    (hkeys : (entries.map Entry.key).Nodup) (hchan : ∀ f ∈ entries, f.chanId = chan)
    (hpolicy : PolicyOk entries cmux.policy cmux.circData next)
    (hkeeps : KeepsPlace chan cmux env)
    (hpol : cmux.policy.isSome ∨ ∀ f ∈ entries, f.muxinfo.cellCount = 0) :
    ∃ policy' mem', detachLoop fl env entries cmux
        = some { cmux with chanidCircidMap := [], policy := policy', circData := mem' }
      ∧ PolicyOk [] policy' mem' next := by
  induction entries generalizing cmux with
  | nil =>
    refine ⟨cmux.policy, cmux.circData, ?_, hpolicy⟩
    rw [detachLoop, ← hmap]
  | cons e rest ih =>
    obtain ⟨policy₁, mem₁, hfirst, hrest, hsome, hcirc⟩ := detachFirst_spec fl hmap hkeys
      hchan hpolicy hkeeps (hpol.imp_right fun h => h e mem_cons_self)
    let cmux₁ : Circuitmux F := { cmux with
      chanidCircidMap := rest, policy := policy₁, circData := mem₁ }
    obtain ⟨policy', mem', hloop, hpolicy'⟩ := @ih cmux₁ rfl
      (nodup_cons.mp hkeys).2 (fun f hf => hchan f (mem_cons_of_mem e hf)) hrest
      (hkeeps.mono (fun f hf => hmap ▸ mem_cons_of_mem e hf) hcirc)
      (hpol.imp hsome.trans fun h f hf => h f (mem_cons_of_mem e hf))
    refine ⟨policy', mem', ?_, hpolicy'⟩
    rw [detachLoop, hfirst]
    exact hloop

lemma detachAllCircuits_spec (h : Invariant chan cmux)
    (hallowed : Allowed chan cmux (env, .detachAllCircuits)) :
    ∃ cmux', circuitmuxDetachAllCircuits fl cmux env = some cmux' ∧ Invariant chan cmux'
      ∧ cmux'.destroyCellQueueN = cmux.destroyCellQueueN := by
  obtain ⟨hkeeps, hpol⟩ := hallowed
  obtain ⟨policy', mem', hloop, hpolicy⟩ := detachLoop_spec fl rfl h.counted.keys
    (fun f hf => (h.counted.onChannel f hf).1) h.policy hkeeps hpol
  refine ⟨_, map_eq_some_iff.mpr ⟨_, hloop, rfl⟩, ⟨⟨?_, ?_, rfl, rfl, rfl, ?_⟩, hpolicy⟩, rfl⟩
  · exact nodup_nil
  · exact fun e he => absurd he not_mem_nil
  · exact Nat.two_pow_pos 32

/-! ## Replacing the policy -/

/-- What is counted of an entry. -/
def Entry.counts (e : Entry) : ℕ × UInt32 × ℕ := (e.chanId, e.circId, e.muxinfo.cellCount)

lemma Counted.congr (h : Counted chan entries cmux)
    (hcounts : entries'.map Entry.counts = entries.map Entry.counts)
    (hnCircuits : cmux'.nCircuits = cmux.nCircuits)
    (hactive : cmux'.nActiveCircuits = cmux.nActiveCircuits)
    (hnCells : cmux'.nCells = cmux.nCells) :
    Counted chan entries' cmux' := by
  have hmap : ∀ {β : Type} (g : ℕ × UInt32 × ℕ → β),
      entries'.map (fun e => g e.counts) = entries.map fun e => g e.counts := by
    intro β g
    have hg := congrArg (List.map g) hcounts
    rwa [List.map_map, List.map_map] at hg
  have hcells : queuedCells entries' = queuedCells entries :=
    congrArg List.sum (hmap fun c => c.2.2)
  refine ⟨?_, ?_, ?_, ?_, ?_, ?_⟩
  · exact (hmap fun c => (c.1, c.2.1)) ▸ h.keys
  · intro e he
    obtain ⟨f, hf, hfe⟩ := mem_map.mp (hcounts ▸ mem_map_of_mem he)
    have hon := h.onChannel f hf
    simp only [Entry.counts, Prod.mk.injEq] at hfe
    rwa [hfe.1, hfe.2.1] at hon
  · have hlen := congrArg length hcounts
    rw [length_map, length_map] at hlen
    rw [hlen]
    exact hnCircuits.trans h.nCircuits
  · have hcount := congrArg (countP fun c => 0 < c.2.2) hcounts
    rw [countP_map, countP_map] at hcount
    exact hactive.trans (h.nActiveCircuits.trans hcount.symm)
  · exact hnCells.trans (h.nCells.trans hcells.symm)
  · exact hcells ▸ h.fits

variable (fl) in
lemma installLoop_spec {done : List Entry} (hpol : cmux.policy = some pol)
    (hkeeps : ∀ e ∈ entries, ∃ c, entryCircuit env e = some c)
    (hnone : ∀ e ∈ entries, e.muxinfo.policyData = none)
    (h : Queued done pol cmux.circData cmux.nextCircData) :
    ∃ out pol' mem' next', installLoop fl env entries cmux = some (out, { cmux with
            policy := some pol', circData := mem', nextCircData := next' })
      ∧ out.map Entry.counts = entries.map Entry.counts
      ∧ Queued (out ++ done) pol' mem' next' := by
  induction entries generalizing cmux pol done with
  | nil =>
    refine ⟨[], pol, cmux.circData, cmux.nextCircData, ?_, rfl, h⟩
    rw [installLoop, ← hpol]
  | cons e rest ih =>
    obtain ⟨c, hc⟩ := hkeeps e mem_cons_self
    have hdata := hnone e mem_cons_self
    let e' : Entry := { e with muxinfo := { e.muxinfo with policyData := some cmux.nextCircData } }
    let cmux₁ := (allocCircData fl cmux env c e.muxinfo.direction).2
    have h₁ : Queued (e'.withCells 0 :: done) pol cmux₁.circData cmux₁.nextCircData :=
      h.alloc rfl rfl rfl
    have hqueue₁ : pol.activeCircuitPqueue.Perm (activeData done) := h.queue
    have hnot : cmux.nextCircData ∉ pol.activeCircuitPqueue := fun hmem =>
      h₁.notMem_rest rfl (hqueue₁.mem_iff.mp hmem)
    obtain ⟨pol₂, mem₂, hstep, h₂⟩ : ∃ pol₂ mem₂, (
        if e.muxinfo.cellCount > 0 then
          cmux₁.policy.bind fun pol =>
            (addCellEwma fl pol cmux₁.circData cmux.nextCircData).bind fun added =>
              some { cmux₁ with policy := some added.1, circData := added.2 }
        else some cmux₁) = some { cmux₁ with policy := some pol₂, circData := mem₂ }
        ∧ Queued (e' :: done) pol₂ mem₂ cmux₁.nextCircData := by
      have hcons : activeData (e' :: done) = if 0 < e.muxinfo.cellCount
          then cmux.nextCircData :: activeData done else activeData done :=
        activeData_cons rfl done
      split
      · rename_i hpos
        obtain ⟨pol₂, mem₂, hadd, hok, hperm, -⟩ := addCellEwma_spec fl h₁.ewma hnot
        refine ⟨pol₂, mem₂, ?_, h₁.setCells (n := e.muxinfo.cellCount) hok ?_⟩
        · refine bind_eq_some_iff.mpr ⟨pol, hpol, ?_⟩
          exact bind_eq_some_iff.mpr ⟨(pol₂, mem₂), hadd, rfl⟩
        · show pol₂.activeCircuitPqueue.Perm (activeData (e' :: done))
          rw [hcons, if_pos hpos]
          exact hperm.trans (hqueue₁.cons _)
      · rename_i hzero
        refine ⟨pol, cmux₁.circData, ?_, h₁.setCells (n := e.muxinfo.cellCount) h₁.ewma ?_⟩
        · rw [← show cmux₁.policy = some pol from hpol]
        · show pol.activeCircuitPqueue.Perm (activeData (e' :: done))
          rw [hcons, if_neg hzero]
          exact hqueue₁
    obtain ⟨out, pol', mem', next', hloop, hcounts, h'⟩ := ih
      (show { cmux₁ with policy := some pol₂, circData := mem₂ }.policy = some pol₂ from rfl)
      (fun f hf => hkeeps f (mem_cons_of_mem e hf))
      (fun f hf => hnone f (mem_cons_of_mem e hf)) h₂
    refine ⟨e' :: out, pol', mem', next', ?_, ?_, h'.perm perm_middle⟩
    · rw [installLoop]
      refine bind_eq_some_iff.mpr ⟨c, hc, ?_⟩
      rw [if_neg (by simp [hdata])]
      refine bind_eq_some_iff.mpr ⟨_, hstep, ?_⟩
      exact bind_eq_some_iff.mpr ⟨_, hloop, rfl⟩
    · rw [map_cons, map_cons, hcounts]
      rfl

variable (fl) in
lemma clearLoop_spec (hkeeps : ∀ e ∈ entries, ∃ c, entryCircuit env e = some c)
    (h : Queued entries pol mem next) :
    ∃ out mem', clearLoop fl env entries pol mem = some (out, mem')
      ∧ out.map Entry.counts = entries.map Entry.counts
      ∧ (∀ e ∈ out, e.muxinfo.policyData = none) ∧ ∀ p, (mem' p).cellEwma.heapIndex = -1 := by
  induction entries generalizing pol mem with
  | nil =>
    refine ⟨[], mem, rfl, rfl, by simp, fun p => h.ewma.heapIndex_notMem ?_⟩
    rw [h.queue.eq_nil]
    exact not_mem_nil
  | cons e rest ih =>
    obtain ⟨c, hc⟩ := hkeeps e mem_cons_self
    obtain ⟨p, hp, -⟩ := h.data e mem_cons_self
    have hqueue := h.queue
    rw [activeData_cons hp] at hqueue
    obtain ⟨pol₁, mem₁, hstep, h₁⟩ : ∃ pol₁ mem₁, (
        if e.muxinfo.cellCount > 0 then do
          let p ← e.muxinfo.policyData
          removeCellEwma fl pol mem p
        else some (pol, mem)) = some (pol₁, mem₁) ∧ Queued rest pol₁ mem₁ next := by
      split
      · rename_i hpos
        rw [if_pos hpos] at hqueue
        obtain ⟨pol₁, mem₁, hremove, hok, hperm, -⟩ := removeCellEwma_spec fl h.ewma
          (hqueue.mem_iff.mpr mem_cons_self)
        exact ⟨pol₁, mem₁, bind_eq_some_iff.mpr ⟨p, hp, hremove⟩,
          h.tail hok (hperm.trans hqueue).cons_inv⟩
      · rename_i hzero
        rw [if_neg hzero] at hqueue
        exact ⟨pol, mem, rfl, h.tail h.ewma hqueue⟩
    obtain ⟨out, mem', hloop, hcounts, hnone, hidx⟩ := ih
      (fun f hf => hkeeps f (mem_cons_of_mem e hf)) h₁
    refine ⟨{ e with muxinfo := { e.muxinfo with policyData := none } } :: out, mem', ?_, ?_, ?_,
      hidx⟩
    · rw [clearLoop]
      refine bind_eq_some_iff.mpr ⟨c, hc, ?_⟩
      refine bind_eq_some_iff.mpr ⟨_, hstep, ?_⟩
      exact bind_eq_some_iff.mpr ⟨_, hloop, rfl⟩
    · rw [map_cons, map_cons, hcounts]
      rfl
    · intro f hf
      rcases mem_cons.mp hf with rfl | hf
      · rfl
      · exact hnone f hf

lemma setPolicy_spec {ewma : Bool} (h : Invariant chan cmux) (hkeeps : KeepsPlace chan cmux env) :
    ∃ cmux', circuitmuxSetPolicy fl cmux env ewma = some cmux' ∧ Invariant chan cmux'
      ∧ cmux'.destroyCellQueueN = cmux.destroyCellQueueN := by
  have hcircuits : ∀ e ∈ cmux.chanidCircidMap, ∃ c, entryCircuit env e = some c := fun e he =>
    (hkeeps.entryCircuit (h.counted.onChannel e he).1 he).imp fun c hc => hc.1
  unfold circuitmuxSetPolicy
  cases hpol : cmux.policy with
  | some pol =>
    cases ewma with
    | true => exact ⟨cmux, rfl, h, rfl⟩
    | false =>
      obtain ⟨out, mem', hloop, hcounts, hnone, hidx⟩ := clearLoop_spec fl hcircuits
        (h.queued hpol)
      refine ⟨_, map_eq_some_iff.mpr ⟨_, hloop, rfl⟩, ⟨?_, hnone, hidx⟩, rfl⟩
      exact h.counted.congr hcounts rfl rfl rfl
  | none =>
    cases ewma with
    | false => exact ⟨cmux, rfl, h, rfl⟩
    | true =>
      have hpolicy := h.policy
      rw [hpol] at hpolicy
      obtain ⟨hnone, hidx⟩ := hpolicy
      have hempty : Queued [] (ewmaAllocCmuxData env.tick) cmux.circData cmux.nextCircData := by
        refine ⟨⟨⟨nodup_nil, ?_, fun p _ => hidx p⟩, ?_⟩, ?_, nodup_nil, ?_⟩
        · intro i p hp
          exact absurd hp (by simp [queueOf, ewmaAllocCmuxData])
        · exact fun p hp => absurd hp not_mem_nil
        · exact fun e he => absurd he not_mem_nil
        · exact List.Perm.refl _
      obtain ⟨out, pol', mem', next', hloop, hcounts, hqueued⟩ := @installLoop_spec _ fl
        { cmux with policy := some (ewmaAllocCmuxData env.tick) } _ _ _ _ rfl hcircuits hnone
        hempty
      refine ⟨_, map_eq_some_iff.mpr ⟨_, hloop, rfl⟩, ⟨?_, ?_⟩, rfl⟩
      · exact h.counted.congr hcounts rfl rfl rfl
      · rwa [append_nil] at hqueued

end Ator.Circuitmux
