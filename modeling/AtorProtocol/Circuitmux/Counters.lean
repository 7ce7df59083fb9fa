import AtorProtocol.Circuitmux.Calls

/-!
# The counters of a circuitmux

* `Invariant.step` — an allowed call succeeds, and keeps the invariant.
* `circuitmux_counters` — every run of allowed calls.
-/

namespace Ator.Circuitmux

open List

variable {F : Type} {fl : EwmaArith F} {chan next : ℕ} {cmux : Circuitmux F} {env : Env F}
  {entries : List Entry} {pol : EwmaPolicyData} {mem : Memory F}

/-! ## The pick -/

lemma Counted.exists_active (h : Counted chan entries cmux) (hpos : 0 < cmux.nActiveCircuits) :
    ∃ e ∈ entries, 0 < e.muxinfo.cellCount := by
  rw [h.nActiveCircuits, countP_pos_iff] at hpos
  exact hpos.imp fun e he => ⟨he.1, of_decide_eq_true he.2⟩

lemma Counted.nCells_pos (h : Counted chan entries cmux) (hpos : 0 < cmux.nActiveCircuits) :
    0 < cmux.nCells := by
  obtain ⟨e, he, hcount⟩ := h.exists_active hpos
  have hle : e.muxinfo.cellCount ≤ queuedCells entries := le_sum_of_mem (List.mem_map_of_mem he)
  rw [h.nCells]
  exact hcount.trans_le hle

lemma Counted.nCells_zero (h : Counted chan entries cmux) (hzero : cmux.nActiveCircuits = 0) :
    cmux.nCells = 0 := by
  rw [h.nActiveCircuits, countP_eq_zero] at hzero
  rw [h.nCells, queuedCells, List.sum_eq_zero_iff_forall_eq_nat]
  intro n hn
  obtain ⟨e, he, rfl⟩ := List.mem_map.mp hn
  simpa [Entry.active] using hzero e he

lemma pickActiveCircuit_spec (h : Invariant chan cmux) (hpol : cmux.policy = some pol)
    (hpos : 0 < cmux.nActiveCircuits) :
    ∃ p e, pol.activeCircuitPqueue.head? = some p ∧ e ∈ cmux.chanidCircidMap
      ∧ e.muxinfo.policyData = some p ∧ 0 < e.muxinfo.cellCount := by
  have hq := h.queued hpol
  obtain ⟨e, he, hcount⟩ := h.counted.exists_active hpos
  obtain ⟨p, hp, -⟩ := hq.data e he
  have hmem : p ∈ pol.activeCircuitPqueue := by
    rw [hq.queue.mem_iff]
    exact mem_filterMap.mpr ⟨e, mem_filter.mpr ⟨he, decide_eq_true hcount⟩, hp⟩
  cases hqueue : pol.activeCircuitPqueue with
  | nil => exact absurd (hqueue ▸ hmem) not_mem_nil
  | cons q queue =>
    obtain ⟨f, hf, hdata, hpos⟩ := hq.mem_queue (p := q) (hqueue ▸ mem_cons_self)
    exact ⟨q, f, rfl, hf, hdata, hpos⟩

lemma picked_spec (h : Invariant chan cmux) (hpol : cmux.policy = some pol)
    (hpos : 0 < cmux.nActiveCircuits) (hkeeps : KeepsPlace chan cmux env) :
    ∃ c n, ewmaPickActiveCircuit pol cmux.circData = some c
      ∧ circuitmuxNumCellsForCircuit cmux (env.circuit c) = some n ∧ 0 < n := by
  obtain ⟨p, e, hhead, he, hp, hcount⟩ := pickActiveCircuit_spec h hpol hpos
  obtain ⟨-, c, -, hleg, hother, hcirc⟩ := hkeeps e he
  refine ⟨c, e.muxinfo.cellCount, ?_, ?_, hcount⟩
  · rw [ewmaPickActiveCircuit, hhead, Option.map_some, hcirc p hp]
  · rw [circuitmuxNumCellsForCircuit, findMapEntry_eq chan cmux _ h.counted.keys
      (fun f hf => (h.counted.onChannel f hf).1) he hleg hother]
    rfl

/-- **The pick asserts nothing**, and gives a circuit with cells to send when one is active, unless
it hands out the destroy queue. -/
lemma getFirstActiveCircuit_spec (h : Invariant chan cmux) (hpol : cmux.policy.isSome) :
    ∃ picked destroy cmux', circuitmuxGetFirstActiveCircuit cmux = some (picked, destroy, cmux')
      ∧ Invariant chan cmux' ∧ cmux'.destroyCellQueueN = cmux.destroyCellQueueN
      ∧ ∀ env, KeepsPlace chan cmux env → 0 < cmux.nActiveCircuits →
          ¬ (cmux.destroyCellQueueN ≠ 0 ∧ cmux.lastCellWasDestroy = false) →
          destroy = false ∧ ∃ c n, picked = some c
            ∧ circuitmuxNumCellsForCircuit cmux (env.circuit c) = some n ∧ 0 < n := by
  obtain ⟨pol, hpol⟩ := Option.isSome_iff_exists.mp hpol
  rw [circuitmuxGetFirstActiveCircuit, hpol]
  split_ifs with hdestroy hactive hcells hcells hqueue
  · refine ⟨none, true, _, rfl, ⟨h.counted.congr rfl rfl rfl rfl, hpol ▸ h.policy⟩, rfl, ?_⟩
    intro _ _ hpos hnot
    have hlast : cmux.lastCellWasDestroy = false := by
      rcases hdestroy.2 with hlast | hzero
      · simpa using hlast
      · omega
    exact absurd ⟨hdestroy.1, hlast⟩ hnot
  · refine ⟨_, false, _, rfl, ⟨h.counted.congr rfl rfl rfl rfl, hpol ▸ h.policy⟩, rfl, ?_⟩
    intro env hkeeps hpos _
    exact ⟨rfl, picked_spec h hpol hpos hkeeps⟩
  · exact absurd (h.counted.nCells_pos hactive) hcells
  · refine ⟨none, false, cmux, rfl, h, rfl, fun _ _ hpos => ?_⟩
    omega
  · exact absurd ⟨hqueue, Or.inr (by omega)⟩ hdestroy
  · exact absurd (h.counted.nCells_zero (by omega)) hcells

/-! ## Runs -/

variable (fl) in
/-- **A call keeps the invariant**, and no assertion fails in it; one of them queues a destroy
cell. -/
theorem Invariant.step {call : Env F × Call} (h : Invariant chan cmux)
    (hallowed : Allowed chan cmux call) :
    ∃ cmux', cmux.step fl call = some cmux' ∧ Invariant chan cmux'
      ∧ (call.2 ≠ .appendDestroyCell → cmux'.destroyCellQueueN ≤ cmux.destroyCellQueueN) := by
  have hspec : ∀ {out : Option (Circuitmux F)}, (∃ cmux', out = some cmux' ∧ Invariant chan cmux'
        ∧ cmux'.destroyCellQueueN = cmux.destroyCellQueueN) →
      ∃ cmux', out = some cmux' ∧ Invariant chan cmux'
        ∧ (call.2 ≠ .appendDestroyCell → cmux'.destroyCellQueueN ≤ cmux.destroyCellQueueN) := by
    rintro out ⟨cmux', hout, hinv, hdestroy⟩
    exact ⟨cmux', hout, hinv, fun _ => hdestroy.le⟩
  obtain ⟨env, call⟩ := call
  cases call with
  | attachCircuit circ direction => exact hspec (attachCircuit_spec h hallowed)
  | detachCircuit circ => exact hspec (detachCircuit_spec h hallowed)
  | detachAllCircuits => exact hspec (detachAllCircuits_spec h hallowed)
  | setNumCells circ nCells => exact hspec (setNumCells_spec h hallowed)
  | notifyXmitCells circ nCells => exact hspec (notifyXmitCells_spec h hallowed)
  | setPolicy ewma | clearPolicy => exact hspec (setPolicy_spec h hallowed)
  | getFirstActiveCircuit =>
    obtain ⟨picked, destroy, cmux', hget, hinv, hdestroy, -⟩ :=
      getFirstActiveCircuit_spec h hallowed
    exact hspec ⟨cmux', Option.map_eq_some_iff.mpr ⟨_, hget, rfl⟩, hinv, hdestroy⟩
  | appendDestroyCell =>
    exact ⟨_, rfl, ⟨h.counted.congr rfl rfl rfl rfl, h.policy⟩, fun hne => absurd rfl hne⟩
  | popDestroyCell =>
    exact ⟨_, rfl, ⟨h.counted.congr rfl rfl rfl rfl, h.policy⟩, fun _ => Nat.sub_le _ 1⟩

lemma invariant_alloc (chan : ℕ) : Invariant chan (circuitmuxAlloc fl) where
  counted := ⟨nodup_nil, fun _ he => absurd he not_mem_nil, rfl, rfl, rfl, Nat.two_pow_pos 32⟩
  policy := ⟨fun _ he => absurd he not_mem_nil, fun _ => rfl⟩

lemma Queued.length_queue (h : Queued entries pol mem next) :
    pol.activeCircuitPqueue.length = entries.countP Entry.active := by
  have hlen : ∀ l : List Entry, (∀ e ∈ l, ∃ p, e.muxinfo.policyData = some p ∧ p < next) →
      (activeData l).length = l.countP Entry.active := by
    intro l hl
    induction l with
    | nil => rfl
    | cons e l ih =>
      obtain ⟨p, hp, -⟩ := hl e mem_cons_self
      have ih := ih fun f hf => hl f (mem_cons_of_mem e hf)
      rw [activeData_cons hp, countP_cons, Entry.active]
      split <;> simp_all
  rw [h.queue.length_eq, hlen entries h.data]

lemma destroyCellQueueN_eq_zero {es : List (Env F × Call)}
    (hmeets : Meets (Circuitmux.step fl) (Allowed chan) (circuitmuxAlloc fl) es)
    (hreaches : Reaches (Circuitmux.step fl) (circuitmuxAlloc fl) es cmux)
    (hcalls : ∀ call ∈ es, call.2 ≠ .appendDestroyCell) : cmux.destroyCellQueueN = 0 := by
  have hstep : ∀ (s : Circuitmux F) call t, Invariant chan s ∧ s.destroyCellQueueN = 0 →
      Allowed chan s call ∧ call.2 ≠ .appendDestroyCell → s.step fl call = some t →
      Invariant chan t ∧ t.destroyCellQueueN = 0 := by
    rintro s call t ⟨hinv, hzero⟩ ⟨hallowed, hcall⟩ ht
    obtain ⟨u, hu, hinv', hdestroy⟩ := hinv.step fl hallowed
    obtain rfl := Option.some.inj (ht.symm.trans hu)
    have hle := hdestroy hcall
    exact ⟨hinv', by omega⟩
  have hmeets' := hmeets.and_forall (D := fun call => call.2 ≠ .appendDestroyCell) hcalls
  exact (invariant_of_meets hstep ⟨invariant_alloc chan, rfl⟩ hmeets' hreaches).2

/-- **The counters count**: after any run of allowed calls, in which no assertion fails, the
counters of the mux are what they count, and the queue of the policy is as long as there are active
circuits.  The pick asserts nothing, and when a circuit is active it gives one with cells to send;
where destroy cells are queued too, it does so after one of them was sent. -/
theorem circuitmux_counters (fl : EwmaArith F) (chan : ℕ) (es : List (Env F × Call))
    (hmeets : Meets (Circuitmux.step fl) (Allowed chan) (circuitmuxAlloc fl) es) :
    ∃ cmux, Reaches (Circuitmux.step fl) (circuitmuxAlloc fl) es cmux
      ∧ cmux.nCells = (cmux.chanidCircidMap.map fun e => e.muxinfo.cellCount).sum
      ∧ cmux.nCircuits = cmux.chanidCircidMap.length
      ∧ cmux.nActiveCircuits = cmux.chanidCircidMap.countP (fun e => 0 < e.muxinfo.cellCount)
      ∧ (∀ pol, cmux.policy = some pol → pol.activeCircuitPqueue.length = cmux.nActiveCircuits)
      ∧ (cmux.policy.isSome → ∃ picked destroy cmux',
          circuitmuxGetFirstActiveCircuit cmux = some (picked, destroy, cmux')
            ∧ ∀ env, KeepsPlace chan cmux env → 0 < cmux.nActiveCircuits →
                (∀ call ∈ es, call.2 ≠ .appendDestroyCell) ∨ cmux.lastCellWasDestroy = true →
                destroy = false ∧ ∃ circ n, picked = some circ
                  ∧ circuitmuxNumCellsForCircuit cmux (env.circuit circ) = some n ∧ 0 < n) := by
  obtain ⟨cmux, hreaches, h⟩ := exists_reaches_of_meets (I := Invariant chan)
    (fun s call h hallowed => (h.step fl hallowed).imp fun _ ht => ⟨ht.1, ht.2.1⟩)
    (invariant_alloc chan) hmeets
  refine ⟨cmux, hreaches, h.counted.nCells, h.counted.nCircuits, h.counted.nActiveCircuits, ?_, ?_⟩
  · intro pol hpol
    rw [(h.queued hpol).length_queue, h.counted.nActiveCircuits]
  · intro hpol
    obtain ⟨picked, destroy, cmux', hget, -, -, hpick⟩ := getFirstActiveCircuit_spec h hpol
    refine ⟨picked, destroy, cmux', hget, fun env hkeeps hpos hcalls => hpick env hkeeps hpos ?_⟩
    rintro ⟨hqueue, hlast⟩
    rcases hcalls with hcalls | hdestroy
    · exact hqueue (destroyCellQueueN_eq_zero hmeets hreaches hcalls)
    · exact absurd (hlast.symm.trans hdestroy) Bool.false_ne_true

/-- An origin circuit with one cell to send, on the channel 0. -/
def oneCircuit : Env ℕ where
  circuit _ := ⟨some 0, 1, 1, none⟩
  channelFindByGlobalId _ := true
  circuitGetByCircidChannel _ _ := some 0
  tick := 0
  fractionalTick := 0

/-- Counts of cells. -/
def natArith : EwmaArith ℕ := ⟨0, fun count _ _ => count, fun count n _ => count + n, (· < ·)⟩

/-- `circuitmux_counters` at a run that installs the policy, and attaches a circuit: it is in the
map, and it is picked. -/
theorem circuitmux_counters_attach :
    ∃ cmux, Reaches (Circuitmux.step natArith) (circuitmuxAlloc natArith)
        [(oneCircuit, .setPolicy true), (oneCircuit, .attachCircuit 0 .outward)] cmux
      ∧ cmux.nCells = (cmux.chanidCircidMap.map fun e => e.muxinfo.cellCount).sum
      ∧ cmux.nCircuits = cmux.chanidCircidMap.length
      ∧ cmux.nActiveCircuits = cmux.chanidCircidMap.countP (fun e => 0 < e.muxinfo.cellCount)
      ∧ (cmux.chanidCircidMap.map fun e => (e.key, e.muxinfo.cellCount)) = [((0, 1), 1)]
      ∧ (circuitmuxGetFirstActiveCircuit cmux).map (fun p => (p.1, p.2.1)) = some (some 0, false) := by
  obtain ⟨cmux, hreaches, hnCells, hnCircuits, hactive, -⟩ := circuitmux_counters natArith 0
    [(oneCircuit, .setPolicy true), (oneCircuit, .attachCircuit 0 .outward)] (by
      refine meets_cons.mpr ⟨fun _ he => absurd he not_mem_nil, fun s hs => ?_⟩
      obtain rfl := Option.some.inj hs
      refine meets_cons.mpr ⟨⟨rfl, ⟨?_, ?_⟩, 1, 1, rfl, by decide, ?_⟩, fun t _ => meets_nil⟩
      · rintro (_ | _) id h id' <;> simp_all [Circuit.leg, oneCircuit, CellDirection.other]
      · exact fun _ _ _ _ he => absurd he not_mem_nil
      · show queuedCells [] + 1 < 2 ^ 32
        decide)
  have hrun : ([(oneCircuit, Call.setPolicy true), (oneCircuit, .attachCircuit 0 .outward)].foldlM
      (Circuitmux.step natArith) (circuitmuxAlloc natArith)).map (fun cmux =>
        (cmux.chanidCircidMap.map fun e => (e.key, e.muxinfo.cellCount),
          (circuitmuxGetFirstActiveCircuit cmux).map fun p => (p.1, p.2.1)))
      = some ([((0, 1), 1)], some (some 0, false)) := by
    decide +kernel
  rw [hreaches, Option.map_some, Option.some.injEq, Prod.mk.injEq] at hrun
  exact ⟨cmux, hreaches, hnCells, hnCircuits, hactive, hrun⟩

end Ator.Circuitmux
