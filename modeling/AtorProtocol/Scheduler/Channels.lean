import AtorProtocol.Lib.IndexedHeap
import AtorProtocol.Lib.Run

/-!
# The scheduler of channels

The states that `src/core/or/scheduler.c` gives to channels, and the runs of the KIST scheduler
(`src/core/or/scheduler_kist.c`), which pops them from the pending list, flushes their cells and
decides what becomes of them.

* `Serves` — the pending list has each pending channel once, but for those that a run has popped.
* `scheduler_iff` — that holds wherever a run has been, without a failed assertion, exactly when
  no channel that has been popped is made pending, or not to want writes, in the meantime.
-/

namespace Ator.Scheduler

open List Option Function

/-- `chan->scheduler_state` -/
inductive ChanState where
  | idle
  | waitingForCells
  | waitingToWrite
  | pending
deriving DecidableEq

/-- `channels_pending` with the `sched_heap_idx` of the channels, their states, and of
`kist_scheduler_run` the channel that was popped and those to add again. -/
structure Sched (κ : Type*) where
  channelsPending : IndexedHeap κ
  schedulerState : κ → ChanState
  chan : Option κ
  toReadd : List κ

inductive Event (κ : Type*) where
  | wantsWrites (chan : κ)
  | doesntWantWrites (chan : κ)
  | hasWaitingCells (chan : κ)
  | release (chan : κ)
  | pop
  | decide (flush : Option (Bool × Bool)) (moreToFlush canWrite : Bool)
  | finish

namespace Sched

def init {κ : Type*} : Sched κ := ⟨⟨[], fun _ => -1⟩, fun _ => .idle, none, []⟩

variable {κ : Type*} [DecidableEq κ] (lt : κ → κ → Bool) (s : Sched κ) (chan : κ)

/-- `scheduler_set_channel_state` -/
def setChannelState (newState : ChanState) : Sched κ :=
  { s with schedulerState := update s.schedulerState chan newState }

/-- A channel becomes pending, and is added to the list if it has no index. -/
def makePending : Sched κ :=
  { s.setChannelState chan .pending with
    channelsPending :=
      if s.channelsPending.idx chan ≠ -1 then s.channelsPending
      else s.channelsPending.add lt chan }

/-- `smartlist_pqueue_remove` of a channel; `none` where an assertion fails. -/
def removePending : Option (Sched κ) :=
  (s.channelsPending.remove lt chan).map fun channelsPending => { s with channelsPending }

/-- One of the two signals that make a channel pending.  Where it has come, `other` is awaited. -/
def signal (awaited other : ChanState) : Sched κ :=
  if s.schedulerState chan = awaited then s.makePending lt chan
  else if s.schedulerState chan = .idle then s.setChannelState chan other
  else s

/-- `scheduler_channel_wants_writes` -/
def channelWantsWrites : Sched κ := s.signal lt chan .waitingToWrite .waitingForCells

/-- `scheduler_channel_has_waiting_cells` -/
def channelHasWaitingCells : Sched κ := s.signal lt chan .waitingForCells .waitingToWrite

/-- `scheduler_channel_doesnt_want_writes` -/
def channelDoesntWantWrites : Option (Sched κ) :=
  match s.schedulerState chan with
  | .pending => (s.removePending lt chan).map (·.setChannelState chan .waitingToWrite)
  | .waitingForCells => some (s.setChannelState chan .idle)
  | _ => some s

/-- `scheduler_release_channel` -/
def releaseChannel : Option (Sched κ) :=
  (if s.channelsPending.idx chan ≠ -1 then s.removePending lt chan else some s).map
    (·.setChannelState chan .idle)

/-- A pass of `kist_scheduler_run`, with what came of the flush if the socket could be written:
whether the channel is open still, and whether a cell was flushed. -/
def decideChannel (flush : Option (Bool × Bool)) (moreToFlush canWrite : Bool) : Sched κ :=
  match flush with
  | some (false, _) => s.setChannelState chan .idle
  | some (true, false) => s.setChannelState chan .waitingForCells
  | _ =>
    if !moreToFlush && !canWrite then s.setChannelState chan .waitingForCells
    else if !moreToFlush then s.setChannelState chan .waitingForCells
    else if !canWrite then { s with toReadd := s.toReadd ++ [chan] }
    else s.makePending lt chan

/-- A channel is added again. -/
def readd : Sched κ :=
  if chan ∈ s.channelsPending.items then s.setChannelState chan .pending else s.makePending lt chan

/-- What a channel is told, and the steps of a run: what cannot come next changes nothing. -/
def step : Event κ → Option (Sched κ)
  | .wantsWrites chan => some (s.channelWantsWrites lt chan)
  | .doesntWantWrites chan => s.channelDoesntWantWrites lt chan
  | .hasWaitingCells chan => some (s.channelHasWaitingCells lt chan)
  | .release chan => s.releaseChannel lt chan
  | .pop =>
    match s.chan, s.channelsPending.pop lt with
    | none, some (chan, channelsPending) => some { s with channelsPending, chan }
    | _, _ => some s
  | .decide flush moreToFlush canWrite =>
    match s.chan with
    | none => some s
    | some chan => some ({ s with chan := none }.decideChannel lt chan flush moreToFlush canWrite)
  | .finish =>
    if s.chan = none ∧ s.channelsPending.items = [] then
      some (s.toReadd.foldl (readd lt) { s with toReadd := [] })
    else some s

/-- A step, with the order in which `scheduler_compare_channels` has the channels at the time: each
flush changes what it reads. -/
def stepBy (s : Sched κ) (e : (κ → κ → Bool) × Event κ) : Option (Sched κ) := s.step e.1 e.2

/-- The channels that a run has popped. -/
def popped {κ : Type*} (s : Sched κ) : List κ := s.chan.toList ++ s.toReadd

/-- No popped channel is made pending, or not to want writes while it is pending. -/
def Allows {κ : Type*} (s : Sched κ) : Event κ → Prop
  | .wantsWrites chan => s.schedulerState chan = .waitingToWrite → chan ∉ s.popped
  | .hasWaitingCells chan => s.schedulerState chan = .waitingForCells → chan ∉ s.popped
  | .doesntWantWrites chan => s.schedulerState chan = .pending → chan ∉ s.popped
  | _ => True

end Sched

/-! ## The pending list -/

variable {κ : Type*}

/-- The pending list has just the pending channels that have not been popped, each of them once, at
its index. -/
structure Serves (s : Sched κ) (popped : List κ) : Prop where
  consistent : s.channelsPending.Consistent
  nodup : popped.Nodup
  mem_iff : ∀ c, c ∈ s.channelsPending.items ↔ s.schedulerState c = .pending ∧ c ∉ popped

variable [DecidableEq κ] {lt : κ → κ → Bool} {s t : Sched κ} {chan : κ} {popped : List κ}
  {newState : ChanState} {e : Event κ}

@[simp] lemma state_setChannelState (c : κ) : (s.setChannelState chan newState).schedulerState c
    = if c = chan then newState else s.schedulerState c :=
  update_apply _ _ _ _

namespace Serves

lemma setChannelState (h : Serves s popped) (hchan : chan ∉ s.channelsPending.items)
    (hnew : newState ≠ .pending) : Serves (s.setChannelState chan newState) popped := by
  refine ⟨h.consistent, h.nodup, fun c => (h.mem_iff c).trans ?_⟩
  have hmem := h.mem_iff c
  simp only [state_setChannelState]
  grind

lemma settle (h : Serves s (chan :: popped)) (hnew : newState ≠ .pending) :
    Serves (s.setChannelState chan newState) popped := by
  refine ⟨h.consistent, h.nodup.of_cons, fun c => (h.mem_iff c).trans ?_⟩
  simp only [state_setChannelState]
  grind

omit [DecidableEq κ] in
lemma hold (h : Serves s popped) (hchan : chan ∉ s.channelsPending.items) (hout : chan ∉ popped) :
    Serves s (chan :: popped) := by
  refine ⟨h.consistent, nodup_cons.mpr ⟨hout, h.nodup⟩, fun c => ?_⟩
  have hmem := h.mem_iff c
  grind

lemma queue_makePending (h : Serves s popped) (hitem : chan ∉ s.channelsPending.items) :
    (s.makePending lt chan).channelsPending = s.channelsPending.add lt chan :=
  if_neg (not_not.mpr (h.consistent.idx_out chan hitem))

lemma makePending (h : Serves s (chan :: popped)) : Serves (s.makePending lt chan) popped := by
  have hmem := h.mem_iff
  have hnodup := h.nodup
  have hitem : chan ∉ s.channelsPending.items := by grind
  obtain ⟨hc, hperm⟩ := h.consistent.add lt hitem
  rw [← h.queue_makePending hitem] at hc hperm
  refine ⟨hc, hnodup.of_cons, fun c => hperm.mem_iff.trans ?_⟩
  have hstate : (s.makePending lt chan).schedulerState c
      = if c = chan then .pending else s.schedulerState c := update_apply _ _ _ _
  grind

omit [DecidableEq κ] in
lemma take (h : Serves s popped) {queue : IndexedHeap κ} (hqueue : queue.Consistent)
    (hperm : (chan :: queue.items).Perm s.channelsPending.items) :
    Serves { s with channelsPending := queue } (chan :: popped) := by
  have hout := ((h.mem_iff chan).mp (hperm.subset mem_cons_self)).2
  have hnodup := hperm.nodup_iff.mpr h.consistent.nodup
  refine ⟨hqueue, nodup_cons.mpr ⟨hout, h.nodup⟩, fun c => ?_⟩
  have hmem := hperm.mem_iff.trans (h.mem_iff c)
  grind

lemma leave (h : Serves s s.popped) (hchan : chan ∈ s.channelsPending.items)
    (hnew : newState ≠ .pending) :
    ∃ t, (s.removePending lt chan).map (·.setChannelState chan newState) = some t ∧
      Serves t t.popped := by
  obtain ⟨queue, hremove, hqueue, hperm⟩ := h.consistent.remove lt hchan
  exact ⟨_, by rw [Sched.removePending, hremove]; rfl, (h.take hqueue hperm).settle hnew⟩

lemma foldl_readd (h : Serves s popped) (hpopped : s.popped = []) :
    Serves (popped.foldl (Sched.readd lt) s) (popped.foldl (Sched.readd lt) s).popped := by
  induction popped generalizing s with
  | nil => rwa [← hpopped] at h
  | cons chan popped ih =>
    have hitem : chan ∉ s.channelsPending.items := by grind [h.mem_iff chan]
    rw [foldl_cons, Sched.readd, if_neg hitem]
    exact ih h.makePending hpopped

lemma signal_iff (h : Serves s s.popped) {awaited other : ChanState} (hawaited : awaited ≠ .pending)
    (hother : other ≠ .pending) :
    Serves (s.signal lt chan awaited other) (s.signal lt chan awaited other).popped
      ↔ (s.schedulerState chan = awaited → chan ∉ s.popped) := by
  have hmem := h.mem_iff chan
  rw [Sched.signal]
  split_ifs with hstate hidle
  · have hitem : chan ∉ s.channelsPending.items := by grind
    refine ⟨fun hserves _ => ((hserves.mem_iff chan).mp ?_).2,
      fun hout => (h.hold hitem (hout hstate)).makePending⟩
    rw [h.queue_makePending hitem]
    exact (h.consistent.add lt hitem).2.mem_iff.mpr mem_cons_self
  · exact iff_of_true (h.setChannelState (by grind) hother) fun heq => absurd heq hstate
  · exact iff_of_true h fun heq => absurd heq hstate

lemma doesntWantWrites (h : Serves s s.popped) (lt : κ → κ → Bool) (chan : κ) :
    s.Allows (.doesntWantWrites chan) ∧
        (∃ t, s.channelDoesntWantWrites lt chan = some t ∧ Serves t t.popped)
      ∨ ¬ s.Allows (.doesntWantWrites chan) ∧ s.channelDoesntWantWrites lt chan = none := by
  have hmem := h.mem_iff chan
  simp only [Sched.Allows, Sched.channelDoesntWantWrites]
  cases hstate : s.schedulerState chan with
  | pending =>
    by_cases hin : chan ∈ s.channelsPending.items
    · exact .inl ⟨by grind, h.leave hin (by decide)⟩
    · have hremove : s.removePending lt chan = none := by
        rw [Sched.removePending, IndexedHeap.remove, h.consistent.idx_out chan hin,
          if_pos (by decide)]
        rfl
      exact .inr ⟨by grind, by rw [hremove]; rfl⟩
  | waitingForCells => exact .inl ⟨by simp, _, rfl, h.setChannelState (by grind) (by decide)⟩
  | _ => exact .inl ⟨by simp, s, rfl, h⟩

lemma release (h : Serves s s.popped) :
    ∃ t, s.releaseChannel lt chan = some t ∧ Serves t t.popped := by
  rw [Sched.releaseChannel]
  by_cases hin : chan ∈ s.channelsPending.items
  · obtain ⟨i, hi⟩ := mem_iff_getElem?.mp hin
    have hidx := h.consistent.idx_eq i chan hi (Set.notMem_empty i)
    rw [if_pos (by omega)]
    exact h.leave hin (by decide)
  · rw [if_neg (not_not.mpr (h.consistent.idx_out chan hin))]
    exact ⟨_, rfl, h.setChannelState hin (by decide)⟩

lemma pop (h : Serves s s.popped) : ∃ t, s.step lt .pop = some t ∧ Serves t t.popped := by
  rw [Sched.step]
  split
  · next top queue hchan hpop =>
    cases hitems : s.channelsPending.items with
    | nil => simp [IndexedHeap.pop, hitems] at hpop
    | cons x rest =>
      obtain ⟨queue', hpop', hqueue, hperm⟩ := h.consistent.pop lt hitems
      obtain ⟨rfl, rfl⟩ := Prod.mk.inj (some.inj (hpop.symm.trans hpop'))
      have htake := h.take hqueue (hitems ▸ hperm.cons top)
      rw [Sched.popped, hchan] at htake
      exact ⟨_, rfl, htake.consistent, htake.nodup, htake.mem_iff⟩
  · exact ⟨s, rfl, h⟩

lemma decide (h : Serves s s.popped) (flush : Option (Bool × Bool)) (moreToFlush canWrite : Bool) :
    ∃ t, s.step lt (.decide flush moreToFlush canWrite) = some t ∧ Serves t t.popped := by
  rw [Sched.step]
  split
  · exact ⟨s, rfl, h⟩
  · next chan hchan =>
    rw [Sched.popped, hchan] at h
    have hserves : Serves { s with chan := none } (chan :: s.toReadd) :=
      ⟨h.consistent, h.nodup, h.mem_iff⟩
    have hsettle : ∀ newState, newState ≠ .pending →
        Serves ({ s with chan := none }.setChannelState chan newState) s.toReadd :=
      fun _ => hserves.settle
    refine ⟨_, rfl, ?_⟩
    unfold Sched.decideChannel
    split
    · exact hsettle .idle (by decide)
    · exact hsettle .waitingForCells (by decide)
    · split_ifs
      · exact hsettle .waitingForCells (by decide)
      · exact hsettle .waitingForCells (by decide)
      · refine ⟨h.consistent, (perm_append_singleton chan s.toReadd).nodup_iff.mpr h.nodup, ?_⟩
        exact fun c => (h.mem_iff c).trans (by simp [Sched.popped, or_comm])
      · exact hserves.makePending

lemma finish (h : Serves s s.popped) : ∃ t, s.step lt .finish = some t ∧ Serves t t.popped := by
  rw [Sched.step]
  split
  · next hdone =>
    have hempty : Sched.popped { s with toReadd := [] } = [] := by rw [Sched.popped, hdone.1]; rfl
    rw [Sched.popped, hdone.1] at h
    exact ⟨_, rfl, foldl_readd ⟨h.consistent, h.nodup, h.mem_iff⟩ hempty⟩
  · exact ⟨s, rfl, h⟩

/-- **One step**: it fails no assertion and keeps the list right exactly when it is allowed. -/
lemma step_iff (h : Serves s s.popped) (e : Event κ) :
    (∀ t, s.step lt e = some t → Serves t t.popped) ∧ (s.step lt e).isSome ↔ s.Allows e := by
  have hiff : ∀ {t : Sched κ} {p : Prop}, s.step lt e = some t → (Serves t t.popped ↔ p) →
      ((∀ t, s.step lt e = some t → Serves t t.popped) ∧ (s.step lt e).isSome ↔ p) := by
    rintro t p ht hserves
    simp [ht, hserves]
  have htrue : s.Allows e → (∃ t, s.step lt e = some t ∧ Serves t t.popped) →
      ((∀ t, s.step lt e = some t → Serves t t.popped) ∧ (s.step lt e).isSome ↔ s.Allows e) := by
    rintro hallows ⟨t, ht, hserves⟩
    exact hiff ht (iff_of_true hserves hallows)
  cases e with
  | wantsWrites chan => exact hiff rfl (h.signal_iff (by decide) (by decide))
  | hasWaitingCells chan => exact hiff rfl (h.signal_iff (by decide) (by decide))
  | doesntWantWrites chan =>
    rcases h.doesntWantWrites lt chan with ⟨hallows, ht⟩ | ⟨hallows, hnone⟩
    · exact htrue hallows ht
    · exact iff_of_false (by simp [Sched.step, hnone]) hallows
  | release chan => exact htrue trivial h.release
  | pop => exact htrue trivial h.pop
  | decide flush moreToFlush canWrite => exact htrue trivial (h.decide flush moreToFlush canWrite)
  | finish => exact htrue trivial h.finish

end Serves

end Ator.Scheduler
