import AtorProtocol.FlowControl.Congestion
import AtorProtocol.Lib.Run
import AtorProtocol.Onion.CreateCell

/-!
# Circuits that wait for a CPU worker

The queues of `src/feature/relay/onion_queue.c`.

* `Right` — the counts are the lengths of the lists, and a circuit has an entry exactly when it is
  in a list, once.
* `right_of_meets` — that holds in every run that adds no circuit that is queued, and the only crash
  is of a call that culls every entry of a list.
-/

namespace Ator.OnionQueue

open List Function Congestion Onion

/-- The indices of `ol_list`. -/
inductive QueueIdx where
  | tap
  | fast
  | ntor
deriving DecidableEq

deriving instance DecidableEq for CreateCell

/-- `onion_queue_t`, with the number of its allocation. -/
structure Entry (κ : Type*) where
  allocation : ℕ
  circ : κ
  queueIdx : QueueIdx
  onionskin : CreateCell
  whenAdded : ℤ
deriving DecidableEq

/-- The static variables, the `onionqueue_entry` of each circuit, and which are marked for close. -/
structure State (κ : Type*) where
  olList : QueueIdx → List (Entry κ)
  olEntries : QueueIdx → ℤ
  nsOnionQueueWaitCutoff : ℤ
  nsOnionQueueMaxDelay : ℤ
  onionqueueEntry : κ → Option (Entry κ)
  markedForClose : κ → Bool
  allocations : ℕ

/-- The option `MaxOnionQueueDelay`, the threads of the pool, and how long handshakes took. -/
structure Workers where
  maxOnionQueueDelay : ℤ
  nThreads : ℕ
  nThreads_pos : 0 < nThreads
  ntorsProcessed : ℕ
  ntorsUsecInternal : ℕ

/-- `estimated_usec_for_onionskins`, for ntor. -/
def Workers.estimatedUsecForNtors (w : Workers) (nRequests : ℕ) : ℕ :=
  if w.ntorsProcessed < 100 then 1000 * nRequests
  else w.ntorsUsecInternal * nRequests % 2 ^ 64 / w.ntorsProcessed

def onionskinTypeToQueue (type : UInt16) : QueueIdx :=
  if type = 0 then .tap else if type = 1 then .fast else .ntor

namespace State

variable {κ : Type*}

def new : State κ := ⟨fun _ => [], fun _ => 0, 5, 1750, fun _ => none, fun _ => false, 0⟩

def getOnionQueueMaxDelay (s : State κ) (w : Workers) : ℤ :=
  if w.maxOnionQueueDelay > 0 then w.maxOnionQueueDelay else s.nsOnionQueueMaxDelay

def haveRoomForOnionskin (s : State κ) (w : Workers) (type : QueueIdx) : Bool :=
  if type = .tap then false
  else if s.olEntries type < 50 then true
  else
    let ntorUsec := w.estimatedUsecForNtors (s.olEntries .ntor % 2 ^ 32).toNat / w.nThreads
    !(type = .ntor ∧ (ntorUsec / 1000 : ℕ) > s.getOnionQueueMaxDelay w)

variable [DecidableEq κ]

/-- `onion_queue_entry_remove`; `none` where the entry is not in a list. -/
def onionQueueEntryRemove (s : State κ) (victim : Entry κ) : Option (State κ) :=
  let idx := victim.queueIdx
  if victim ∈ s.olList idx then
    some { s with
      olList := update s.olList idx ((s.olList idx).erase victim)
      olEntries := update s.olEntries idx (s.olEntries idx - 1)
      onionqueueEntry := update s.onionqueueEntry victim.circ none }
  else none

def circuitMarkForClose (s : State κ) (circ : κ) : State κ :=
  { s with markedForClose := update s.markedForClose circ true }

/-- The loop that culls elderly requests, which ends after as many passes as there are entries.
`none` where it reads the head of an empty list. -/
def cull (now : ℤ) (idx : QueueIdx) : ℕ → State κ → Option (State κ)
  | 0, _ => none
  | passes + 1, s =>
    match s.olList idx with
    | [] => none
    | head :: _ =>
      if now - head.whenAdded < s.nsOnionQueueWaitCutoff then some s
      else (s.onionQueueEntryRemove head).bind fun s => cull now idx passes
        (s.circuitMarkForClose head.circ)

/-- A new entry, counted and at the end of its list. -/
def insertTail (s : State κ) (tmp : Entry κ) : State κ :=
  let idx := tmp.queueIdx
  { s with
    olList := update s.olList idx (s.olList idx ++ [tmp])
    olEntries := update s.olEntries idx (s.olEntries idx + 1)
    onionqueueEntry := update s.onionqueueEntry tmp.circ (some tmp)
    allocations := s.allocations + 1 }

/-- `onion_pending_add`, at the time `now`. -/
def onionPendingAdd (s : State κ) (circ : κ) (onionskin : CreateCell) (w : Workers) (now : ℤ) :
    Option (State κ × ℤ) :=
  if onionskin.handshakeType > 3 then some (s, -1)
  else
    let idx := onionskinTypeToQueue onionskin.handshakeType
    if !s.haveRoomForOnionskin w idx then some (s, -1)
    else
      let added := s.insertTail ⟨s.allocations, circ, idx, onionskin, now⟩
      (added.cull now idx ((added.olList idx).length + 1)).map (·, 0)

/-- `onion_next_task`, which takes the onionskin out of the entry and counts it out. -/
def onionNextTask (s : State κ) : Option (State κ × Option (κ × CreateCell)) :=
  match s.olList .ntor with
  | [] => some (s, none)
  | head :: _ => (s.onionQueueEntryRemove head).map (·, some (head.circ, head.onionskin))

def onionPendingRemove (s : State κ) (circ : κ) : Option (State κ) :=
  match s.onionqueueEntry circ with
  | none => some s
  | some victim => s.onionQueueEntryRemove victim

def onionConsensusHasChanged (s : State κ) (ns : Consensus) : State κ :=
  { s with
    nsOnionQueueMaxDelay := networkstatusGetParam ns "MaxOnionQueueDelay" 1750 1 int32Max
    nsOnionQueueWaitCutoff := networkstatusGetParam ns "onion_queue_wait_cutoff" 5 0 int32Max }

end State

inductive Event (κ : Type*) where
  | add (circ : κ) (onionskin : CreateCell) (w : Workers) (now : ℤ)
  | nextTask
  | remove (circ : κ)
  | consensus (ns : Consensus)

variable {κ : Type*} [DecidableEq κ]

def State.step (s : State κ) : Event κ → Option (State κ)
  | .add circ onionskin w now => (s.onionPendingAdd circ onionskin w now).map Prod.fst
  | .nextTask => s.onionNextTask.map Prod.fst
  | .remove circ => s.onionPendingRemove circ
  | .consensus ns => some (s.onionConsensusHasChanged ns)

/-- No circuit is added that is queued. -/
def State.NotQueued (s : State κ) : Event κ → Prop
  | .add circ .. => s.onionqueueEntry circ = none
  | _ => True

/-- There is room for a request, and with it all of its list is culled. -/
def State.CullsAll (s : State κ) : Event κ → Prop
  | .add _ onionskin w now =>
    let idx := onionskinTypeToQueue onionskin.handshakeType
    ¬ onionskin.handshakeType > 3 ∧ s.haveRoomForOnionskin w idx ∧ s.nsOnionQueueWaitCutoff ≤ 0 ∧
      ∀ e ∈ s.olList idx, s.nsOnionQueueWaitCutoff ≤ now - e.whenAdded
  | _ => False

/-! ## The invariant -/

/-- The counts are the lengths of the lists.  An entry is in the list of its index, once, where it
is the entry of its circuit; and these are all. -/
structure State.Right (s : State κ) : Prop where
  counts : ∀ i, s.olEntries i = (s.olList i).length
  own : ∀ i, ∀ e ∈ s.olList i, e.queueIdx = i ∧ s.onionqueueEntry e.circ = some e
  queued : ∀ c e, s.onionqueueEntry c = some e → e.circ = c ∧ e ∈ s.olList e.queueIdx
  nodup : ∀ i, (s.olList i).Nodup

namespace State.Right

variable {s t : State κ} {e : Entry κ} {i : QueueIdx}

omit [DecidableEq κ] in
lemma new : (State.new : State κ).Right where
  counts _ := rfl
  own _ _ he := absurd he not_mem_nil
  queued _ _ he := by cases he
  nodup _ := nodup_nil

lemma remove (h : s.Right) (he : e ∈ s.olList i) :
    ∃ t, s.onionQueueEntryRemove e = some t ∧ t.Right ∧ t.olList i = (s.olList i).erase e ∧
      t.nsOnionQueueWaitCutoff = s.nsOnionQueueWaitCutoff := by
  obtain ⟨rfl, hown⟩ := h.own i e he
  have hmem : ∀ j e', e' ∈ update s.olList e.queueIdx ((s.olList e.queueIdx).erase e) j ↔
      e' ∈ s.olList j ∧ e' ≠ e := by
    intro j e'
    by_cases hj : j = e.queueIdx
    · rw [hj, update_self, (h.nodup _).mem_erase_iff, and_comm]
    · rw [update_of_ne hj]
      refine (and_iff_left_of_imp fun hin heq => hj ?_).symm
      rw [← (h.own j e' hin).1, heq]
  refine ⟨_, if_pos he, ⟨fun j => ?_, fun j e' he' => ?_, fun c e' hc => ?_, fun j => ?_⟩,
    update_self .., rfl⟩
  · have hpos := length_pos_of_mem he
    by_cases hj : j = e.queueIdx
    · subst hj
      simp only [update_self]
      rw [h.counts, length_erase_of_mem he]
      omega
    · simp only [update_of_ne hj]
      exact h.counts j
  · obtain ⟨hin, hne⟩ := (hmem j e').mp he'
    obtain ⟨hidx, hentry⟩ := h.own j e' hin
    have hcirc : e'.circ ≠ e.circ := fun heq =>
      hne (Option.some.inj (hentry.symm.trans (heq ▸ hown)))
    exact ⟨hidx, (update_of_ne hcirc ..).trans hentry⟩
  · simp only [update_apply] at hc
    split at hc
    · cases hc
    · next hne =>
        obtain ⟨hcirc, hin⟩ := h.queued c e' hc
        exact ⟨hcirc, (hmem _ _).mpr ⟨hin, fun heq => hne (by rw [← hcirc, heq])⟩⟩
  · simp only [update_apply]
    split
    · exact (h.nodup _).erase _
    · exact h.nodup j

lemma insertTail (h : s.Right) (hnone : s.onionqueueEntry e.circ = none) :
    (s.insertTail e).Right := by
  have hcirc : ∀ j, ∀ e' ∈ s.olList j, e'.circ ≠ e.circ := by
    intro j e' he' heq
    rw [← heq, (h.own j e' he').2] at hnone
    cases hnone
  have hmem : ∀ j e', e' ∈ (s.insertTail e).olList j ↔
      e' ∈ s.olList j ∨ j = e.queueIdx ∧ e' = e := by
    intro j e'
    by_cases hj : j = e.queueIdx
    · simp [hj, State.insertTail]
    · simp [hj, State.insertTail]
  refine ⟨fun j => ?_, fun j e' he' => ?_, fun c e' hc => ?_, fun j => ?_⟩
  · by_cases hj : j = e.queueIdx
    · simp [hj, State.insertTail, h.counts]
    · simp [hj, State.insertTail, h.counts]
  · rcases (hmem j e').mp he' with hin | ⟨rfl, rfl⟩
    · obtain ⟨hidx, hentry⟩ := h.own j e' hin
      exact ⟨hidx, (update_of_ne (hcirc j e' hin) ..).trans hentry⟩
    · exact ⟨rfl, update_self ..⟩
  · simp only [State.insertTail, update_apply] at hc
    split at hc
    · next heq =>
        obtain rfl := Option.some.inj hc
        exact ⟨heq.symm, (hmem _ _).mpr (.inr ⟨rfl, rfl⟩)⟩
    · obtain ⟨hc', hin⟩ := h.queued c e' hc
      exact ⟨hc', (hmem _ _).mpr (.inl hin)⟩
  · simp only [State.insertTail, update_apply]
    split
    · exact (h.nodup _).append (nodup_singleton e) (by
        rw [disjoint_singleton]
        exact fun hin => hcirc _ e hin rfl)
    · exact h.nodup j

lemma cull {l : List (Entry κ)} (now : ℤ) (h : s.Right) (hl : s.olList i = l) :
    let young := l.dropWhile fun e => decide (s.nsOnionQueueWaitCutoff ≤ now - e.whenAdded)
    young = [] ∧ s.cull now i (l.length + 1) = none ∨
      young ≠ [] ∧ ∃ t, s.cull now i (l.length + 1) = some t ∧ t.Right ∧ t.olList i = young := by
  induction l generalizing s with
  | nil =>
    refine .inl ⟨rfl, ?_⟩
    rw [length_nil, State.cull]
    simp only [hl]
  | cons head rest ih =>
    rw [length_cons, State.cull]
    simp only [hl]
    by_cases hyoung : now - head.whenAdded < s.nsOnionQueueWaitCutoff
    · rw [dropWhile_cons_of_neg (by simpa using hyoung), if_pos hyoung]
      exact .inr ⟨cons_ne_nil _ _, s, rfl, h, hl⟩
    · obtain ⟨t, ht, hright, hlist, hcutoff⟩ := h.remove (e := head) (i := i) (by simp [hl])
      rw [hl, erase_cons_head] at hlist
      have hmarked : (t.circuitMarkForClose head.circ).Right :=
        ⟨hright.counts, hright.own, hright.queued, hright.nodup⟩
      rw [dropWhile_cons_of_pos (by simpa using hyoung), if_neg hyoung, ht, ← hcutoff]
      exact ih hmarked hlist

lemma cull_insertTail (h : s.Right) (hnone : s.onionqueueEntry e.circ = none) :
    let added := s.insertTail e
    let culled := added.cull e.whenAdded e.queueIdx ((added.olList e.queueIdx).length + 1)
    (culled = none ↔ s.nsOnionQueueWaitCutoff ≤ 0 ∧
      ∀ e' ∈ s.olList e.queueIdx, s.nsOnionQueueWaitCutoff ≤ e.whenAdded - e'.whenAdded) ∧
    ∀ t, culled = some t → t.Right ∧ t.onionqueueEntry e.circ = some e := by
  have hadded : (s.insertTail e).olList e.queueIdx = s.olList e.queueIdx ++ [e] := update_self ..
  simp only [hadded]
  have hculled := (h.insertTail hnone).cull e.whenAdded hadded
  rw [show (s.insertTail e).nsOnionQueueWaitCutoff = s.nsOnionQueueWaitCutoff from rfl] at hculled
  rcases hculled with ⟨hnil, hcull⟩ | ⟨hne, t, hcull, ht, hlist⟩
  · rw [hcull]
    simp only [dropWhile_eq_nil_iff, forall_mem_append, forall_mem_singleton, decide_eq_true_eq,
      sub_self] at hnil
    exact ⟨iff_of_true rfl hnil.symm, nofun⟩
  · rw [hcull]
    refine ⟨iff_of_false nofun fun hall => hne ?_, ?_⟩
    · simp only [dropWhile_eq_nil_iff, forall_mem_append, forall_mem_singleton, decide_eq_true_eq,
        sub_self]
      exact hall.symm
    · rintro _ ⟨⟩
      have hlast := getLast_mem hne
      rw [(dropWhile_suffix _).getLast hne, getLast_concat, ← hlist] at hlast
      exact ⟨ht, (ht.own _ e hlast).2⟩

end State.Right

variable {s : State κ} {circ : κ}

lemma State.Right.add (h : s.Right) (hnone : s.onionqueueEntry circ = none)
    (onionskin : CreateCell) (w : Workers) (now : ℤ) :
    (s.onionPendingAdd circ onionskin w now = none ↔ s.CullsAll (.add circ onionskin w now)) ∧
      ∀ t result, s.onionPendingAdd circ onionskin w now = some (t, result) → t.Right ∧
        (result = 0 → (t.onionqueueEntry circ).isSome) := by
  rw [State.onionPendingAdd]
  simp only [State.CullsAll]
  generalize onionskinTypeToQueue onionskin.handshakeType = idx
  by_cases htype : onionskin.handshakeType > 3
  · rw [if_pos htype]
    refine ⟨iff_of_false nofun fun hculls => hculls.1 htype, ?_⟩
    rintro _ _ ⟨⟩
    exact ⟨h, nofun⟩
  · rw [if_neg htype, and_iff_right htype]
    by_cases hroom : s.haveRoomForOnionskin w idx = true
    · obtain ⟨hcrash, hsome⟩ :=
        h.cull_insertTail (e := ⟨s.allocations, circ, idx, onionskin, now⟩) hnone
      rw [if_neg (by simp [hroom]), and_iff_right hroom]
      refine ⟨Option.map_eq_none_iff.trans hcrash, fun t result hadd => ?_⟩
      obtain ⟨t, ht, ⟨⟩⟩ := Option.map_eq_some_iff.mp hadd
      obtain ⟨hright, hentry⟩ := hsome t ht
      exact ⟨hright, fun _ => Option.isSome_iff_exists.mpr ⟨_, hentry⟩⟩
    · rw [if_pos (by simpa using hroom)]
      refine ⟨iff_of_false nofun fun hculls => hroom hculls.1, ?_⟩
      rintro _ _ ⟨⟩
      exact ⟨h, nofun⟩

lemma State.Right.step {e : Event κ} (h : s.Right) (hfree : s.NotQueued e) :
    (s.step e = none ↔ s.CullsAll e) ∧ ∀ t, s.step e = some t → t.Right := by
  cases e with
  | add circ onionskin w now =>
    obtain ⟨hnone, hsome⟩ := h.add hfree onionskin w now
    refine ⟨Option.map_eq_none_iff.trans hnone, fun t ht => ?_⟩
    obtain ⟨⟨t, result⟩, hadd, rfl⟩ := Option.map_eq_some_iff.mp ht
    exact (hsome t result hadd).1
  | nextTask =>
    rw [State.step, State.onionNextTask]
    cases hlist : s.olList .ntor with
    | nil => exact ⟨iff_of_false nofun nofun, fun t ht => Option.some.inj ht ▸ h⟩
    | cons head rest =>
      obtain ⟨t, ht, hright, -⟩ := h.remove (e := head) (i := .ntor) (by simp [hlist])
      simp only [ht]
      exact ⟨iff_of_false nofun nofun, fun u hu => Option.some.inj hu ▸ hright⟩
  | remove circ =>
    rw [State.step, State.onionPendingRemove]
    cases hentry : s.onionqueueEntry circ with
    | none => exact ⟨iff_of_false nofun nofun, fun t ht => Option.some.inj ht ▸ h⟩
    | some victim =>
      obtain ⟨t, ht, hright, -⟩ := h.remove (h.queued circ victim hentry).2
      simp only [ht]
      exact ⟨iff_of_false nofun nofun, fun u hu => Option.some.inj hu ▸ hright⟩
  | consensus ns =>
    refine ⟨iff_of_false nofun nofun, fun t ht => ?_⟩
    obtain rfl := Option.some.inj ht
    exact ⟨h.counts, h.own, h.queued, h.nodup⟩

/-- **The queue stays right** in every run that adds no queued circuit.  It only crashes where a
call culls every entry of a list, and where it does not, a circuit that is added is queued. -/
theorem right_of_meets {es : List (Event κ)}
    (hfree : Meets State.step State.NotQueued (State.new : State κ) es)
    (h : Reaches State.step State.new es s) :
    s.Right ∧ (∀ e, s.NotQueued e → (s.step e = none ↔ s.CullsAll e)) ∧
      ∀ circ onionskin w now t, s.onionqueueEntry circ = none →
        s.onionPendingAdd circ onionskin w now = some (t, 0) → (t.onionqueueEntry circ).isSome := by
  have hright : s.Right := invariant_of_meets (fun s e t hs hfree => (hs.step hfree).2 t)
    .new hfree h
  exact ⟨hright, fun e he => (hright.step he).1, fun circ onionskin w now t hnone hadd =>
    ((hright.add hnone onionskin w now).2 t 0 hadd).2 rfl⟩

/-- A request for ntor, with an empty onionskin. -/
def ntorCell : CreateCell := ⟨10, 2, ⟨[], by decide⟩⟩

def oneThread : Workers := ⟨0, 1, by decide, 0, 0⟩

instance decidableNotQueued (s : State κ) : ∀ e, Decidable (s.NotQueued e)
  | .add circ .. => inferInstanceAs (Decidable (s.onionqueueEntry circ = none))
  | .nextTask | .remove _ | .consensus _ => .isTrue trivial

/-- Of three requests one is taken and one removed, and then the cutoff becomes 0. -/
def threeRequests : List (Event ℕ) :=
  [.add 0 ntorCell oneThread 1, .add 1 ntorCell oneThread 2, .add 2 ntorCell oneThread 3, .nextTask,
    .remove 1, .consensus fun name => if name = "onion_queue_wait_cutoff" then some 0 else none]

/-- A cutoff of 0 culls the request that waits and the one just added, and then there is no head. -/
theorem right_of_meets_cutoff : ∃ s, Reaches State.step State.new threeRequests s ∧ s.Right ∧
    (s.olList .ntor).map Entry.circ = [2] ∧ s.step (.add 3 ntorCell oneThread 7) = none := by
  have hrun : Reaches State.step State.new threeRequests _ := rfl
  have hfree : Meets State.step State.NotQueued State.new threeRequests := by decide +kernel
  obtain ⟨hright, hnone, -⟩ := right_of_meets hfree hrun
  refine ⟨_, hrun, hright, rfl, (hnone (.add 3 ntorCell oneThread 7) rfl).mpr ?_⟩
  exact ⟨by decide, rfl, by decide, by decide⟩

end Ator.OnionQueue
