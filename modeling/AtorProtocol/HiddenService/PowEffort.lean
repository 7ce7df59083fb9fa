import AtorProtocol.Evloop.TokenBucket
import AtorProtocol.Lib.Heap
import Mathlib.Data.Prod.Lex

/-!
# The queue of introductions and the suggested effort

The proof-of-work defenses of a service: the queue of `src/feature/hs/hs_circuit.c` and the update
of the suggested effort in `src/feature/hs/hs_service.c`.

* `enqueueRendRequest`, `trimRendPqueue` — a request arrives; the queue is cut down when it is full.
* `handleRendPqueueCb` — the callback that launches a rendezvous circuit.
* `updateSuggestedEffort` — what happens at the end of a period.
-/

namespace Ator.HiddenService.PowEffort

open TokenBucket
open Option (some.inj)

structure PendingRend where
  powEffort : UInt32
  enqueuedTs : ℤ
deriving DecidableEq

def compareRendRequestByEffort (a b : PendingRend) : ℤ :=
  if a.powEffort > b.powEffort then -1
  else if a.powEffort = b.powEffort then
    if a.enqueuedTs < b.enqueuedTs then -1
    else if a.enqueuedTs > b.enqueuedTs then 1
    else 0
  else 1

/-- More effort goes first, and then the older one. -/
def PendingRend.key (req : PendingRend) : ℕᵒᵈ ×ₗ ℤ :=
  toLex (OrderDual.toDual req.powEffort.toNat, req.enqueuedTs)

/-- The keys are ordered as the comparison has it. -/
lemma compareRendRequestByEffort_neg_iff (a b : PendingRend) :
    compareRendRequestByEffort a b < 0 ↔ a.key < b.key := by
  rw [PendingRend.key, PendingRend.key, Prod.Lex.toLex_lt_toLex, OrderDual.toDual_lt_toDual,
    OrderDual.toDual_inj, UInt32.toNat_inj, compareRendRequestByEffort]
  have hlt : b.powEffort.toNat < a.powEffort.toNat ↔ b.powEffort < a.powEffort :=
    UInt32.lt_iff_toNat_lt.symm
  split_ifs with hmore hsame hbefore hafter
  · simp [hlt, hmore]
  · simp [hsame, hbefore]
  · simp [hsame, hbefore]
  · simp [hsame, hbefore]
  · simp [hlt, hmore, hsame]

/-- The part of `hs_pow_service_state_t` that the effort depends on. -/
structure HsPowServiceState where
  rendRequestPqueue : PQueue PendingRend.key
  pqueueLowLevel : Int32
  pqueueHighLevel : Int32
  pqueueBucket : TokenBucketCtr
  usingPqueueBucket : Bool
  suggestedEffort : UInt32
  maxTrimmedEffort : UInt32
  rendHandled : UInt32
  totalEffort : UInt64
  hadQueue : Bool
  nextEffortUpdate : ℤ

def maxRendTimeout : ℤ := 30

def hsUpdatePeriod : ℤ := 300

def maxCheapRendCircuitsInProgress : ℤ := 16

/-- `initialize_pow_defenses`, with the products and sums of the source in `uint32_t`. -/
def initializePowDefenses (powQueueRate powQueueBurst absoluteSec : UInt32) (now : ℤ) :
    HsPowServiceState :=
  let limited : Bool := powQueueRate > 0 ∧ powQueueBurst ≥ powQueueRate
  { rendRequestPqueue := PQueue.empty _
    pqueueLowLevel := if limited then (max 8 (powQueueRate / 4)).toInt32 else 16
    pqueueHighLevel := if limited then (powQueueBurst + powQueueRate * 30 * 2).toInt32 else 16384
    pqueueBucket :=
      if limited then tokenBucketCtrInit powQueueRate powQueueBurst absoluteSec
      else ⟨⟨0, 0⟩, 0, 0⟩
    usingPqueueBucket := limited
    suggestedEffort := 0
    maxTrimmedEffort := 0
    rendHandled := 0
    totalEffort := 0
    hadQueue := false
    nextEffortUpdate := now + hsUpdatePeriod }

/-! ## The queue -/

def queuedRendRequestIsTooOld (req : PendingRend) (now : ℤ) : Bool :=
  req.enqueuedTs + maxRendTimeout.tdiv 2 < now

lemma length_of_pop {q q' : PQueue PendingRend.key} {req : PendingRend}
    (h : q.pop? = some (req, q')) : q'.items.length < q.items.length := by
  rw [(PQueue.pop?_eq_some h).1.length_eq, List.length_cons]
  omega

/-- The loop of `trim_rend_pqueue`: the old queue, the new one, and `max_trimmed_effort`. -/
def trimLoop (highLevel : Int32) (now : ℤ) (oldPqueue newPqueue : PQueue PendingRend.key)
    (maxTrimmedEffort : UInt32) : PQueue PendingRend.key × PQueue PendingRend.key × UInt32 :=
  if (newPqueue.items.length : ℤ) < highLevel.toInt.tdiv 2 then
    match _h : oldPqueue.pop? with
    | none => (oldPqueue, newPqueue, maxTrimmedEffort)
    | some (req, rest) =>
      if queuedRendRequestIsTooOld req now then
        trimLoop highLevel now rest newPqueue (max maxTrimmedEffort req.powEffort)
      else trimLoop highLevel now rest (newPqueue.add req) maxTrimmedEffort
  else (oldPqueue, newPqueue, maxTrimmedEffort)
termination_by oldPqueue.items.length
decreasing_by all_goals exact length_of_pop _h

def trimRendPqueue (s : HsPowServiceState) (now : ℤ) : HsPowServiceState :=
  let (oldPqueue, newPqueue, maxTrimmedEffort) :=
    trimLoop s.pqueueHighLevel now s.rendRequestPqueue (PQueue.empty _) s.maxTrimmedEffort
  { s with
    rendRequestPqueue := newPqueue
    maxTrimmedEffort :=
      oldPqueue.items.foldl (fun maxEffort req => max maxEffort req.powEffort) maxTrimmedEffort }

def enqueueRendRequest (s : HsPowServiceState) (powEffort : UInt32) (now : ℤ) :
    HsPowServiceState :=
  let s := { s with rendRequestPqueue := s.rendRequestPqueue.add ⟨powEffort, now⟩ }
  if (s.rendRequestPqueue.items.length : ℤ) ≥ s.pqueueHighLevel.toInt then trimRendPqueue s now
  else s

/-- The end of `hs_circ_handle_introduce2` where the defenses are enabled. -/
def hsCircHandleIntroduce2 (s : HsPowServiceState) (powEffort : UInt32) (now : ℤ) :
    HsPowServiceState :=
  let s := enqueueRendRequest s powEffort now
  { s with totalEffort := s.totalEffort + powEffort.toUInt64 }

/-- `top_of_rend_pqueue_is_worthwhile`, of a queue that is not empty. -/
def topOfRendPqueueIsWorthwhile (s : HsPowServiceState) : Bool :=
  match s.rendRequestPqueue.items with
  | req :: _ => req.powEffort ≥ s.suggestedEffort
  | [] => false

/-- How the loop of `handle_rend_pqueue_cb` ends: it waits for its turn, it finds no more requests,
or it launches a circuit for one. -/
inductive LoopEnd where
  | waits
  | runsOut
  | launches (req : PendingRend)
deriving DecidableEq

/-- The token of a rendezvous circuit; `none` in the place of the state where it has to wait. -/
def takeToken (s : HsPowServiceState) (absoluteSec : UInt32) : Option (HsPowServiceState × Bool) :=
  if s.usingPqueueBucket then
    (tokenBucketCtrRefill s.pqueueBucket absoluteSec).map fun bucket =>
      if tokenBucketCtrGet bucket > 0 then
        ({ s with pqueueBucket := (tokenBucketCtrDec bucket 1).1 }, true)
      else ({ s with pqueueBucket := bucket }, false)
  else some (s, true)

/-- The loop of `handle_rend_pqueue_cb`; `absoluteSec` is the clock at each turn of it. -/
def handleLoop (now inFlight : ℤ) (absoluteSec : ℕ → UInt32) (s : HsPowServiceState) :
    Option (HsPowServiceState × LoopEnd) :=
  match _h : s.rendRequestPqueue.pop? with
  | none => some (s, .runsOut)
  | some (req, rest) =>
    if inFlight ≥ maxCheapRendCircuitsInProgress ∧ ¬ topOfRendPqueueIsWorthwhile s then
      some (s, .waits)
    else
      match takeToken s (absoluteSec 0) with
      | none => none
      | some (s, false) => some (s, .waits)
      | some (s, true) =>
        let s := { s with rendRequestPqueue := rest }
        -- an old request is free: the loop goes on to the next one
        if queuedRendRequestIsTooOld req now then
          handleLoop now inFlight (fun turn => absoluteSec (turn + 1)) s
        else some ({ s with rendHandled := s.rendHandled + 1 }, .launches req)
termination_by s.rendRequestPqueue.items.length
decreasing_by exact length_of_pop _h

/-- What `handle_rend_pqueue_cb` does after its loop. -/
def noteQueue (s : HsPowServiceState) : HsPowServiceState :=
  let pending : ℤ := s.rendRequestPqueue.items.length
  if pending > 0 ∧ pending ≥ s.pqueueLowLevel.toInt then { s with hadQueue := true } else s

/-- `handle_rend_pqueue_cb`, with the request it launches a circuit for. -/
def handleRendPqueueCb (s : HsPowServiceState) (now inFlight : ℤ) (absoluteSec : ℕ → UInt32) :
    Option (HsPowServiceState × Option PendingRend) :=
  (handleLoop now inFlight absoluteSec s).map fun
    | (s, .waits) => (s, none)
    | (s, .runsOut) => (noteQueue s, none)
    | (s, .launches req) => (noteQueue s, some req)

inductive AimdEvent where
  | none
  | increase
  | decrease
deriving DecidableEq

/-- What `update_suggested_effort` decides to do. -/
def aimdEvent (s : HsPowServiceState) : AimdEvent :=
  if s.maxTrimmedEffort > s.suggestedEffort then .increase
  else if s.hadQueue then
    if 0 < s.rendRequestPqueue.items.length ∧ topOfRendPqueueIsWorthwhile s then .increase
    else .none
  else if (s.rendRequestPqueue.items.length : ℤ) < s.pqueueLowLevel.toInt then .decrease
  else .none

/-- The suggested effort after the switch; `none` where a number is divided by zero. -/
def nextEffort (s : HsPowServiceState) : Option UInt32 :=
  match aimdEvent s with
  | .increase =>
    if s.suggestedEffort < UInt32.ofNat (2 ^ 32 - 1) then
      if s.rendHandled = 0 then none
      else some (max (s.suggestedEffort + 1) (s.totalEffort / s.rendHandled.toUInt64).toUInt32)
    else some s.suggestedEffort
  | .decrease => some (2 * s.suggestedEffort / 3)
  | .none => some s.suggestedEffort

def updateSuggestedEffort (s : HsPowServiceState) (now : ℤ) : Option HsPowServiceState :=
  (nextEffort s).map fun suggestedEffort =>
    { s with
      suggestedEffort
      totalEffort := 0
      rendHandled := 0
      maxTrimmedEffort := 0
      hadQueue := false
      nextEffortUpdate := now + hsUpdatePeriod }

/-- The end of `pow_housekeeping`. -/
def powHousekeeping (s : HsPowServiceState) (now : ℤ) : Option HsPowServiceState :=
  if now ≥ s.nextEffortUpdate then updateSuggestedEffort s now else some s

/-! ## Runs -/

/-- A service, and how many requests it has handled since its last update. -/
structure PowRun where
  state : HsPowServiceState
  handledSince : ℕ

inductive Event where
  | introduce2 (powEffort : UInt32) (now : ℤ)
  | handle (now inFlight : ℤ) (absoluteSec : ℕ → UInt32)
  | housekeeping (now : ℤ)

/-- One event; `none` where a number is divided by zero. -/
def step (r : PowRun) : Event → Option PowRun
  | .introduce2 powEffort now =>
    some { r with state := hsCircHandleIntroduce2 r.state powEffort now }
  | .handle now inFlight absoluteSec =>
    (handleRendPqueueCb r.state now inFlight absoluteSec).map fun (s, launched) =>
      ⟨s, r.handledSince + launched.toList.length⟩
  | .housekeeping now =>
    (powHousekeeping r.state now).map fun s =>
      ⟨s, if now ≥ r.state.nextEffortUpdate then 0 else r.handledSince⟩

def PowRun.start (powQueueRate powQueueBurst absoluteSec : UInt32) (now : ℤ) : PowRun :=
  ⟨initializePowDefenses powQueueRate powQueueBurst absoluteSec now, 0⟩

/-- An event that updates the suggested effort. -/
def Event.Updates (s : HsPowServiceState) : Event → Prop
  | .housekeeping now => now ≥ s.nextEffortUpdate
  | _ => False

/-- The effort after an update, over the integers. -/
structure RightEffort (s : HsPowServiceState) (effort : UInt32) : Prop where
  increase : aimdEvent s = .increase → s.suggestedEffort.toNat < 2 ^ 32 - 1 →
    s.suggestedEffort < effort ∧ effort.toNat
      = max (s.suggestedEffort.toNat + 1) (s.totalEffort.toNat / s.rendHandled.toNat)
  decrease : aimdEvent s = .decrease → effort.toNat = 2 * s.suggestedEffort.toNat / 3

/-- An update ends, and its effort is right. -/
def RightUpdate (r : PowRun) (e : Event) : Prop :=
  e.Updates r.state → ∃ t, step r e = some t ∧ RightEffort r.state t.state.suggestedEffort

/-- No request of a high effort is trimmed in a period in which none is handled, and the numbers of
an update fit their types. -/
structure Fits (s : HsPowServiceState) (handledSince : ℕ) : Prop where
  trimmed : s.suggestedEffort < s.maxTrimmedEffort → 0 < handledSince
  quotient : aimdEvent s = .increase → s.suggestedEffort.toNat < 2 ^ 32 - 1 → 0 < handledSince →
    s.totalEffort.toNat < 2 ^ 32 * (handledSince % 2 ^ 32)
  product : aimdEvent s = .decrease → s.suggestedEffort.toNat < 2 ^ 31

/-- An update meets numbers that fit. -/
def FittingUpdate (r : PowRun) (e : Event) : Prop := e.Updates r.state → Fits r.state r.handledSince

/-! ## Handling the queue -/

variable {s t : HsPowServiceState} {r u : PowRun} {e : Event}

/-- What the update reads, apart from the queue and the number of requests handled. -/
structure SamePeriod (s t : HsPowServiceState) : Prop where
  bucket : t.usingPqueueBucket = s.usingPqueueBucket ∧ t.pqueueBucket.cfg = s.pqueueBucket.cfg
  hadQueue : t.hadQueue = s.hadQueue

lemma takeToken_spec (h : s.usingPqueueBucket → s.pqueueBucket.cfg.rate ≠ 0) (absoluteSec : UInt32) :
    ∃ t taken, takeToken s absoluteSec = some (t, taken) ∧ SamePeriod s t
      ∧ t.rendHandled = s.rendHandled ∧ t.rendRequestPqueue = s.rendRequestPqueue := by
  rw [takeToken]
  split_ifs with hbucket
  · obtain ⟨ctr, hctr, hcfg⟩ := tokenBucketCtrRefill_eq (h hbucket) absoluteSec
    rw [hctr, Option.map_some]
    split_ifs
    · exact ⟨_, _, rfl, ⟨⟨rfl, hcfg⟩, rfl⟩, rfl, rfl⟩
    · exact ⟨_, _, rfl, ⟨⟨rfl, hcfg⟩, rfl⟩, rfl, rfl⟩
  · exact ⟨s, true, rfl, ⟨⟨rfl, rfl⟩, rfl⟩, rfl, rfl⟩

lemma handleLoop_spec (now inFlight : ℤ) (absoluteSec : ℕ → UInt32)
    (h : s.usingPqueueBucket → s.pqueueBucket.cfg.rate ≠ 0) :
    ∃ t ending, handleLoop now inFlight absoluteSec s = some (t, ending) ∧ SamePeriod s t
      ∧ match ending with
        | .waits => t.rendHandled = s.rendHandled
        | .runsOut => t.rendHandled = s.rendHandled ∧ t.rendRequestPqueue.items = []
        | .launches _ => t.rendHandled = s.rendHandled + 1 := by
  induction hn : s.rendRequestPqueue.items.length using Nat.strong_induction_on
    generalizing s absoluteSec with
  | _ n ih =>
    rw [handleLoop]
    split
    · rename_i hpop
      exact ⟨s, .runsOut, rfl, ⟨⟨rfl, rfl⟩, rfl⟩, rfl, PQueue.pop?_eq_none.mp hpop⟩
    · rename_i req rest hpop
      split
      · exact ⟨s, .waits, rfl, ⟨⟨rfl, rfl⟩, rfl⟩, rfl⟩
      · obtain ⟨t, taken, htake, hperiod, hhandled, -⟩ := takeToken_spec h (absoluteSec 0)
        rw [htake]
        cases taken with
        | false => exact ⟨t, .waits, rfl, hperiod, hhandled⟩
        | true =>
          split_ifs with hold
          · have hrate : t.usingPqueueBucket → t.pqueueBucket.cfg.rate ≠ 0 := by
              rw [hperiod.bucket.1, hperiod.bucket.2]
              exact h
            obtain ⟨v, ending, hloop, hv, hending⟩ := ih rest.items.length
              (hn ▸ length_of_pop hpop) (s := { t with rendRequestPqueue := rest })
              (fun turn => absoluteSec (turn + 1)) hrate rfl
            refine ⟨v, ending, hloop, ⟨⟨?_, ?_⟩, hv.hadQueue.trans hperiod.hadQueue⟩, ?_⟩
            · exact hv.bucket.1.trans hperiod.bucket.1
            · exact hv.bucket.2.trans hperiod.bucket.2
            · rw [← hhandled]
              exact hending
          · refine ⟨_, .launches req, rfl, ⟨hperiod.bucket, hperiod.hadQueue⟩, ?_⟩
            exact congrArg (· + 1) hhandled

lemma noteQueue_spec (s : HsPowServiceState) :
    (noteQueue s).usingPqueueBucket = s.usingPqueueBucket
      ∧ (noteQueue s).pqueueBucket = s.pqueueBucket
      ∧ (noteQueue s).rendHandled = s.rendHandled
      ∧ ((noteQueue s).hadQueue = true → s.hadQueue = true ∨ s.rendRequestPqueue.items ≠ []) := by
  rw [noteQueue]
  split_ifs with h
  · refine ⟨rfl, rfl, rfl, fun _ => .inr fun hnil => ?_⟩
    rw [hnil] at h
    simp at h
  · exact ⟨rfl, rfl, rfl, fun h => .inl h⟩

/-! ## The invariant -/

/-- A queue was noted only after a request was handled. -/
structure Inv (r : PowRun) : Prop where
  counted : r.state.rendHandled.toNat = r.handledSince % 2 ^ 32
  queued : r.state.hadQueue = true → 0 < r.handledSince
  bucket : r.state.usingPqueueBucket → r.state.pqueueBucket.cfg.rate ≠ 0

lemma inv_start (powQueueRate powQueueBurst absoluteSec : UInt32) (now : ℤ) :
    Inv (.start powQueueRate powQueueBurst absoluteSec now) := by
  refine ⟨rfl, fun h => (nomatch h), fun h => ?_⟩
  simp only [PowRun.start, initializePowDefenses, decide_eq_true_eq] at h
  simp only [PowRun.start, initializePowDefenses, h, and_self, decide_true, if_true]
  exact tokenBucketCtrInit_rate (fun hzero => absurd h.1 (by rw [hzero]; decide)) _ _

lemma hsCircHandleIntroduce2_spec (s : HsPowServiceState) (powEffort : UInt32) (now : ℤ) :
    SamePeriod s (hsCircHandleIntroduce2 s powEffort now)
      ∧ (hsCircHandleIntroduce2 s powEffort now).rendHandled = s.rendHandled := by
  rw [hsCircHandleIntroduce2, enqueueRendRequest]
  split_ifs
  · exact ⟨⟨⟨rfl, rfl⟩, rfl⟩, rfl⟩
  · exact ⟨⟨⟨rfl, rfl⟩, rfl⟩, rfl⟩

lemma Inv.handle (h : Inv r) (now inFlight : ℤ) (absoluteSec : ℕ → UInt32) :
    ∃ u, step r (.handle now inFlight absoluteSec) = some u ∧ Inv u := by
  obtain ⟨t, ending, hloop, hperiod, hending⟩ := handleLoop_spec now inFlight absoluteSec h.bucket
  have hbucket : t.usingPqueueBucket → t.pqueueBucket.cfg.rate ≠ 0 := by
    rw [hperiod.bucket.1, hperiod.bucket.2]
    exact h.bucket
  obtain ⟨husing, hctr, hhandled, hqueue⟩ := noteQueue_spec t
  rw [step, handleRendPqueueCb, hloop]
  cases ending with
  | waits =>
    refine ⟨_, rfl, ?_, fun hq => h.queued (hperiod.hadQueue ▸ hq), hbucket⟩
    exact (congrArg UInt32.toNat hending).trans h.counted
  | runsOut =>
    refine ⟨_, rfl, ?_, fun hq => ?_, fun hu => ?_⟩
    · exact (congrArg UInt32.toNat (hhandled.trans hending.1)).trans h.counted
    · rcases hqueue hq with hq | hne
      · exact h.queued (hperiod.hadQueue ▸ hq)
      · exact absurd hending.2 hne
    · exact hctr ▸ hbucket (husing ▸ hu)
  | launches req =>
    refine ⟨_, rfl, ?_, fun _ => Nat.succ_pos _, fun hu => ?_⟩
    · have hcounted := h.counted
      simp only [hhandled, hending, UInt32.toNat_add, hcounted, Option.toList, List.length_cons,
        List.length_nil]
      exact Nat.mod_add_mod _ _ _
    · exact hctr ▸ hbucket (husing ▸ hu)

lemma Inv.introduce2 (h : Inv r) (powEffort : UInt32) (now : ℤ) :
    ∃ u, step r (.introduce2 powEffort now) = some u ∧ Inv u := by
  obtain ⟨hperiod, hhandled⟩ := hsCircHandleIntroduce2_spec r.state powEffort now
  refine ⟨_, rfl, ?_, fun hq => h.queued (hperiod.hadQueue ▸ hq), ?_⟩
  · exact (congrArg UInt32.toNat hhandled).trans h.counted
  · dsimp only
    rw [hperiod.bucket.1, hperiod.bucket.2]
    exact h.bucket

lemma step_housekeeping {now : ℤ} (hdue : now ≥ r.state.nextEffortUpdate) :
    step r (.housekeeping now) = (nextEffort r.state).map fun suggestedEffort =>
      ⟨{ r.state with
          suggestedEffort
          totalEffort := 0
          rendHandled := 0
          maxTrimmedEffort := 0
          hadQueue := false
          nextEffortUpdate := now + hsUpdatePeriod }, 0⟩ := by
  simp only [step, powHousekeeping, if_pos hdue, updateSuggestedEffort, Option.map_map]
  rfl

lemma Inv.housekeeping (h : Inv r) (now : ℤ)
    (hnext : now ≥ r.state.nextEffortUpdate → ∃ effort, nextEffort r.state = some effort) :
    ∃ u, step r (.housekeeping now) = some u ∧ Inv u := by
  by_cases hdue : now ≥ r.state.nextEffortUpdate
  · obtain ⟨effort, heffort⟩ := hnext hdue
    rw [step_housekeeping hdue, heffort]
    exact ⟨_, rfl, rfl, fun hq => (nomatch hq), h.bucket⟩
  · rw [step, powHousekeeping, if_neg hdue, if_neg hdue]
    exact ⟨r, rfl, h⟩

/-! ## The effort after an update -/

lemma aimdEvent_of_trimmed (h : s.suggestedEffort < s.maxTrimmedEffort) :
    aimdEvent s = .increase := if_pos h

lemma hadQueue_of_increase (h : aimdEvent s = .increase)
    (htrimmed : ¬ s.suggestedEffort < s.maxTrimmedEffort) : s.hadQueue = true := by
  rw [aimdEvent, if_neg htrimmed] at h
  split_ifs at h
  assumption

lemma toNat_twoThirds (effort : UInt32) :
    (2 * effort / 3).toNat = 2 * effort.toNat / 3 ↔ effort.toNat < 2 ^ 31 := by
  rw [UInt32.toNat_div, UInt32.toNat_mul, show (2 : UInt32).toNat = 2 from rfl,
    show (3 : UInt32).toNat = 3 from rfl]
  omega

lemma lt_max_iff (effort : UInt32) :
    effort < UInt32.ofNat (2 ^ 32 - 1) ↔ effort.toNat < 2 ^ 32 - 1 := by
  rfl

lemma toNat_raised {effort : UInt32} (h : effort.toNat < 2 ^ 32 - 1) (quotient : UInt64) :
    effort < max (effort + 1) quotient.toUInt32 ∧
      ((max (effort + 1) quotient.toUInt32).toNat = max (effort.toNat + 1) quotient.toNat
        ↔ quotient.toNat < 2 ^ 32) := by
  have hsucc : (effort + 1).toNat = effort.toNat + 1 := by
    rw [UInt32.toNat_add, show (1 : UInt32).toNat = 1 from rfl]
    omega
  have hmax : (max (effort + 1) quotient.toUInt32).toNat
      = max (effort.toNat + 1) (quotient.toNat % 2 ^ 32) := by
    rw [show max (effort + 1) quotient.toUInt32
        = if effort + 1 ≤ quotient.toUInt32 then quotient.toUInt32 else effort + 1 from rfl]
    split_ifs with hle
    · rw [UInt32.le_iff_toNat_le, hsucc, UInt64.toNat_toUInt32] at hle
      rw [UInt64.toNat_toUInt32, max_eq_right hle]
    · rw [UInt32.le_iff_toNat_le, hsucc, UInt64.toNat_toUInt32] at hle
      rw [hsucc, max_eq_left (by omega)]
  refine ⟨?_, ?_⟩
  · rw [UInt32.lt_iff_toNat_lt, hmax]
    omega
  · rw [hmax]
    omega

lemma Inv.rightEffort_iff (h : Inv r) :
    (∃ effort, nextEffort r.state = some effort ∧ RightEffort r.state effort)
      ↔ Fits r.state r.handledSince := by
  have hzero : r.state.rendHandled = 0 ↔ r.handledSince % 2 ^ 32 = 0 := by
    rw [← h.counted, ← UInt32.toNat_inj]
    rfl
  rw [nextEffort]
  cases haimd : aimdEvent r.state with
  | none =>
    refine ⟨fun _ => ⟨fun htrimmed => ?_, ?_, ?_⟩, fun _ => ⟨_, rfl, ?_, ?_⟩⟩
    · exact absurd (aimdEvent_of_trimmed htrimmed) (by simp [haimd])
    all_goals simp [haimd]
  | decrease =>
    constructor
    · rintro ⟨effort, heffort, hright⟩
      refine ⟨fun htrimmed => ?_, by simp [haimd], fun hdec => ?_⟩
      · exact absurd (aimdEvent_of_trimmed htrimmed) (by simp [haimd])
      · rw [← toNat_twoThirds, some.inj heffort]
        exact hright.decrease hdec
    · intro hfits
      refine ⟨_, rfl, by simp [haimd], fun hdec => ?_⟩
      exact (toNat_twoThirds _).mpr (hfits.product hdec)
  | increase =>
    split_ifs with hlt hhandled
    · -- the division by zero
      rw [lt_max_iff] at hlt
      refine ⟨fun ⟨_, hnone, _⟩ => (nomatch hnone), fun hfits => ?_⟩
      have hpos : 0 < r.handledSince := by
        by_cases htrimmed : r.state.suggestedEffort < r.state.maxTrimmedEffort
        · exact hfits.trimmed htrimmed
        · exact h.queued (hadQueue_of_increase haimd htrimmed)
      have hquotient := hfits.quotient haimd hlt hpos
      rw [hzero.mp hhandled] at hquotient
      omega
    · rw [lt_max_iff] at hlt
      rw [hzero] at hhandled
      have hpos : 0 < r.state.rendHandled.toNat := by
        rw [h.counted]
        omega
      obtain ⟨hraised, hmax⟩ :=
        toNat_raised hlt (r.state.totalEffort / r.state.rendHandled.toUInt64)
      rw [UInt64.toNat_div, UInt32.toNat_toUInt64, Nat.div_lt_iff_lt_mul hpos, h.counted] at hmax
      constructor
      · rintro ⟨effort, heffort, hright⟩
        obtain rfl := some.inj heffort
        refine ⟨fun _ => by omega, fun _ _ _ => hmax.mp ?_, by simp [haimd]⟩
        rw [← h.counted]
        exact (hright.increase haimd hlt).2
      · intro hfits
        refine ⟨_, rfl, fun _ _ => ⟨hraised, ?_⟩, by simp [haimd]⟩
        rw [h.counted]
        exact hmax.mpr (hfits.quotient haimd hlt (by omega))
    · rw [lt_max_iff] at hlt
      refine ⟨fun _ => ⟨fun htrimmed => ?_, fun _ h' => absurd h' hlt, by simp [haimd]⟩,
        fun _ => ⟨_, rfl, fun _ h' => absurd h' hlt, by simp [haimd]⟩⟩
      have := r.state.maxTrimmedEffort.toNat_lt
      rw [UInt32.lt_iff_toNat_lt] at htrimmed
      omega

lemma Inv.rightUpdate_iff (h : Inv r) (e : Event) : RightUpdate r e ↔ FittingUpdate r e := by
  refine forall_congr' fun hupdates => ?_
  cases e with
  | introduce2 powEffort now | handle now inFlight absoluteSec => exact absurd hupdates id
  | housekeeping now =>
    have hdue : now ≥ r.state.nextEffortUpdate := hupdates
    rw [← h.rightEffort_iff, step_housekeeping hdue]
    cases nextEffort r.state <;> simp

/-! ## Whole runs -/

lemma Inv.step (h : Inv r) (hstep : step r e = some u) : Inv u := by
  cases e with
  | introduce2 powEffort now =>
    obtain ⟨v, hv, hInv⟩ := h.introduce2 powEffort now
    exact some.inj (hstep.symm.trans hv) ▸ hInv
  | handle now inFlight absoluteSec =>
    obtain ⟨v, hv, hInv⟩ := h.handle now inFlight absoluteSec
    exact some.inj (hstep.symm.trans hv) ▸ hInv
  | housekeeping now =>
    obtain ⟨v, hv, hInv⟩ := h.housekeeping now fun hdue => by
      rw [step_housekeeping hdue] at hstep
      obtain ⟨effort, heffort, -⟩ := Option.map_eq_some_iff.mp hstep
      exact ⟨effort, heffort⟩
    exact some.inj (hstep.symm.trans hv) ▸ hInv

lemma Inv.exists_step (h : Inv r) (hfits : FittingUpdate r e) :
    ∃ u, PowEffort.step r e = some u ∧ Inv u := by
  cases e with
  | introduce2 powEffort now => exact h.introduce2 powEffort now
  | handle now inFlight absoluteSec => exact h.handle now inFlight absoluteSec
  | housekeeping now =>
    refine h.housekeeping now fun hdue => ?_
    obtain ⟨effort, heffort, -⟩ := h.rightEffort_iff.mpr (hfits hdue)
    exact ⟨effort, heffort⟩

/-- **The suggested effort.**  Every update of a run ends with the right effort exactly when it
meets numbers that fit; and a run with such updates does not stop. -/
theorem rightUpdates_iff (powQueueRate powQueueBurst absoluteSec : UInt32) (now : ℤ)
    (es : List Event) :
    (Meets step RightUpdate (.start powQueueRate powQueueBurst absoluteSec now) es
      ↔ Meets step FittingUpdate (.start powQueueRate powQueueBurst absoluteSec now) es)
    ∧ (Meets step FittingUpdate (.start powQueueRate powQueueBurst absoluteSec now) es →
        ∃ r, Reaches step (.start powQueueRate powQueueBurst absoluteSec now) es r) := by
  have hstart := inv_start powQueueRate powQueueBurst absoluteSec now
  refine ⟨meets_congr (fun r e u h => h.step) hstart fun r e h => h.rightUpdate_iff e, fun h => ?_⟩
  obtain ⟨r, hr, -⟩ := exists_reaches_of_meets (fun r e h => h.exists_step) hstart h
  exact ⟨r, hr⟩

/-- A queue of 61 requests is trimmed at the end of a period in which none is handled. -/
theorem rightUpdates_fails : ¬ (∀ (powQueueRate powQueueBurst absoluteSec : UInt32) (now : ℤ)
    (es : List Event),
    Meets step RightUpdate (.start powQueueRate powQueueBurst absoluteSec now) es) := by
  intro h
  let requests : List Event := List.replicate 61 (.introduce2 1 299)
  have hstop : (requests.foldlM step (.start 1 1 0 0)).elim false (fun r =>
      r.state.nextEffortUpdate = 300 ∧ (step r (.housekeeping 300)).isNone) = true := by
    decide +kernel
  cases hr : requests.foldlM step (.start 1 1 0 0) with
  | none => simp [hr] at hstop
  | some r =>
    rw [hr, Option.elim_some, decide_eq_true_eq, Option.isNone_iff_eq_none] at hstop
    obtain ⟨t, ht, -⟩ := h 1 1 0 0 (requests ++ [.housekeeping 300]) requests
      (.housekeeping 300) [] rfl r hr hstop.1.le
    rw [hstop.2] at ht
    exact nomatch ht

end Ator.HiddenService.PowEffort
