import AtorProtocol.HiddenService.PowEffort

/-!
# Trimming the queue of introductions

What `enqueue_rend_request` and `trim_rend_pqueue` of `src/feature/hs/hs_circuit.c` leave in the
queue, and what they free.

* `trimFreed` — the requests that are freed, in the order of the calls of `free_pending_rend`.
* `Trims` — the best requests that are not too old are kept.
* `trimsRight_iff` — the queue stays below its limit exactly when the limit is positive.
-/

namespace Ator.HiddenService.PowEffort

open TokenBucket List

/-- What the loop of `trim_rend_pqueue` frees, and the rest of the old queue behind it. -/
def trimFreed (highLevel : Int32) (now : ℤ) (oldPqueue newPqueue : PQueue PendingRend.key) :
    List PendingRend :=
  if (newPqueue.items.length : ℤ) < highLevel.toInt.tdiv 2 then
    match _h : oldPqueue.pop? with
    | none => []
    | some (req, rest) =>
      if queuedRendRequestIsTooOld req now then req :: trimFreed highLevel now rest newPqueue
      else trimFreed highLevel now rest (newPqueue.add req)
  else oldPqueue.items
termination_by oldPqueue.items.length
decreasing_by all_goals exact length_of_pop _h

/-- The queue is at its limit with one more request. -/
def IsFull (s : HsPowServiceState) : Prop :=
  (s.rendRequestPqueue.items.length : ℤ) + 1 ≥ s.pqueueHighLevel.toInt

instance (s : HsPowServiceState) : Decidable (IsFull s) := by
  unfold IsFull
  infer_instance

/-- What `enqueue_rend_request` frees. -/
def enqueueFreed (s : HsPowServiceState) (powEffort : UInt32) (now : ℤ) : List PendingRend :=
  if IsFull s then
    trimFreed s.pqueueHighLevel now (s.rendRequestPqueue.add ⟨powEffort, now⟩) (PQueue.empty _)
  else []

/-! ## What the loop keeps -/

variable {highLevel : Int32} {now : ℤ} {oldPqueue newPqueue : PQueue PendingRend.key}
  {maxTrimmedEffort : UInt32} {rest : PQueue PendingRend.key} {req : PendingRend}

lemma trimFreed_of_pop
    (hroom : (newPqueue.items.length : ℤ) < highLevel.toInt.tdiv 2)
    (hpop : oldPqueue.pop? = some (req, rest)) :
    trimFreed highLevel now oldPqueue newPqueue
      = if queuedRendRequestIsTooOld req now then req :: trimFreed highLevel now rest newPqueue
        else trimFreed highLevel now rest (newPqueue.add req) := by
  rw [trimFreed, if_pos hroom]
  split
  · next hnone =>
      rw [hpop] at hnone
      cases hnone
  · next hsome =>
      rw [hpop] at hsome
      cases hsome
      rfl

lemma trimFreed_of_none (hroom : (newPqueue.items.length : ℤ) < highLevel.toInt.tdiv 2)
    (hpop : oldPqueue.pop? = none) : trimFreed highLevel now oldPqueue newPqueue = [] := by
  rw [trimFreed, if_pos hroom]
  split
  · rfl
  · next hsome =>
      rw [hpop] at hsome
      cases hsome

/-- The best requests that are not too old, up to half the limit. -/
structure Trims (highLevel : Int32) (now : ℤ) (kept freed : List PendingRend) : Prop where
  fresh : ∀ req ∈ kept, queuedRendRequestIsTooOld req now = false
  best : ∀ req ∈ kept, ∀ other ∈ freed, queuedRendRequestIsTooOld other now = false →
    req.key ≤ other.key
  half : (kept.length : ℤ) ≤ max 0 (highLevel.toInt.tdiv 2)
  full : (kept.length : ℤ) < highLevel.toInt.tdiv 2 →
    ∀ other ∈ freed, queuedRendRequestIsTooOld other now = true

/-- The new queue has the best of the requests that are not too old so far. -/
structure Trimming (highLevel : Int32) (now : ℤ) (oldPqueue newPqueue : PQueue PendingRend.key) :
    Prop where
  fresh : ∀ req ∈ newPqueue.items, queuedRendRequestIsTooOld req now = false
  best : ∀ req ∈ newPqueue.items, ∀ other ∈ oldPqueue.items, req.key ≤ other.key
  half : (newPqueue.items.length : ℤ) ≤ max 0 (highLevel.toInt.tdiv 2)

lemma Trimming.skip
    (h : Trimming highLevel now oldPqueue newPqueue) (hpop : oldPqueue.pop? = some (req, rest)) :
    Trimming highLevel now rest newPqueue := by
  refine ⟨h.fresh, fun r hr other hother => h.best r hr other ?_, h.half⟩
  exact (PQueue.pop?_eq_some hpop).1.mem_iff.mpr (mem_cons_of_mem req hother)

lemma Trimming.keep
    (h : Trimming highLevel now oldPqueue newPqueue) (hpop : oldPqueue.pop? = some (req, rest))
    (hfresh : queuedRendRequestIsTooOld req now = false)
    (hroom : (newPqueue.items.length : ℤ) < highLevel.toInt.tdiv 2) :
    Trimming highLevel now rest (newPqueue.add req) := by
  obtain ⟨hperm, hleast⟩ := PQueue.pop?_eq_some hpop
  have hadd := @PQueue.items_add_perm _ _ PendingRend.key _ newPqueue req
  refine ⟨fun r hr => ?_, fun r hr other hother => ?_, ?_⟩
  · rcases mem_cons.mp (hadd.mem_iff.mp hr) with rfl | hr
    · exact hfresh
    · exact h.fresh r hr
  · have hother' := hperm.mem_iff.mpr (mem_cons_of_mem req hother)
    rcases mem_cons.mp (hadd.mem_iff.mp hr) with rfl | hr
    · exact hleast other hother'
    · exact h.best r hr other hother'
  · rw [hadd.length_eq, length_cons]
    omega

lemma le_max_effort (a b : UInt32) : a ≤ max a b ∧ b ≤ max a b := by
  rw [show max a b = if a ≤ b then b else a from rfl]
  split_ifs with h
  · exact ⟨h, UInt32.le_refl b⟩
  · exact ⟨UInt32.le_refl a, UInt32.le_of_lt (UInt32.not_le.mp h)⟩

/-- **The loop**: the old queue is divided into what is kept and what is freed, and the effort of
what is freed is noted or can be. -/
lemma trimLoop_spec (h : Trimming highLevel now oldPqueue newPqueue) :
    Trims highLevel now (trimLoop highLevel now oldPqueue newPqueue maxTrimmedEffort).2.1.items
        (trimFreed highLevel now oldPqueue newPqueue)
      ∧ ((trimLoop highLevel now oldPqueue newPqueue maxTrimmedEffort).2.1.items
          ++ trimFreed highLevel now oldPqueue newPqueue).Perm (newPqueue.items ++ oldPqueue.items)
      ∧ maxTrimmedEffort ≤ (trimLoop highLevel now oldPqueue newPqueue maxTrimmedEffort).2.2
      ∧ ∀ req ∈ trimFreed highLevel now oldPqueue newPqueue,
          req ∈ (trimLoop highLevel now oldPqueue newPqueue maxTrimmedEffort).1.items
          ∨ req.powEffort ≤ (trimLoop highLevel now oldPqueue newPqueue maxTrimmedEffort).2.2 := by
  fun_induction trimLoop highLevel now oldPqueue newPqueue maxTrimmedEffort with
  | case1 oldPqueue newPqueue maxTrimmedEffort hroom hpop =>
    rw [trimFreed_of_none hroom hpop, PQueue.pop?_eq_none.mp hpop]
    refine ⟨⟨h.fresh, ?_, h.half, ?_⟩, List.Perm.refl _, UInt32.le_refl _, ?_⟩
    · intro req hreq other hother
      cases hother
    · intro hlt other hother
      cases hother
    · intro req hreq
      cases hreq
  | case2 oldPqueue newPqueue maxTrimmedEffort hroom req rest hpop hold ih =>
    obtain ⟨htrims, hperm, hmax, hfreed⟩ := ih (h.skip hpop)
    rw [trimFreed_of_pop hroom hpop, if_pos hold]
    refine ⟨⟨htrims.fresh, ?_, htrims.half, ?_⟩, ?_, UInt32.le_trans (le_max_effort _ _).1 hmax, ?_⟩
    · intro r hr other hother hfresh
      rcases mem_cons.mp hother with rfl | hother
      · rw [hold] at hfresh
        cases hfresh
      · exact htrims.best r hr other hother hfresh
    · intro hlt other hother
      rcases mem_cons.mp hother with rfl | hother
      · exact hold
      · exact htrims.full hlt other hother
    · have hcons := (hperm.cons req).trans perm_middle.symm
      refine perm_middle.trans (hcons.trans ?_)
      exact ((PQueue.pop?_eq_some hpop).1.symm).append_left newPqueue.items
    · intro r hr
      rcases mem_cons.mp hr with rfl | hr
      · exact Or.inr (UInt32.le_trans (le_max_effort _ _).2 hmax)
      · exact hfreed r hr
  | case3 oldPqueue newPqueue maxTrimmedEffort hroom req rest hpop hold ih =>
    rw [Bool.not_eq_true] at hold
    obtain ⟨htrims, hperm, hmax, hfreed⟩ := ih (h.keep hpop hold hroom)
    rw [trimFreed_of_pop hroom hpop, if_neg (by rw [hold]; exact Bool.false_ne_true)]
    refine ⟨htrims, hperm.trans ?_, hmax, hfreed⟩
    have hadd := @PQueue.items_add_perm _ _ PendingRend.key _ newPqueue req
    refine (hadd.append_right rest.items).trans (perm_middle.symm.trans ?_)
    exact ((PQueue.pop?_eq_some hpop).1.symm).append_left newPqueue.items
  | case4 oldPqueue newPqueue maxTrimmedEffort hroom =>
    rw [trimFreed, if_neg hroom]
    refine ⟨⟨h.fresh, fun r hr other hother _ => h.best r hr other hother, h.half, ?_⟩,
      List.Perm.refl _, UInt32.le_refl _, fun r hr => Or.inl hr⟩
    intro hlt
    exact absurd hlt hroom

/-! ## A whole call -/

lemma le_foldl_max (reqs : List PendingRend) (effort : UInt32) :
    effort ≤ reqs.foldl (fun maxEffort req => max maxEffort req.powEffort) effort ∧ ∀ req ∈ reqs,
        req.powEffort ≤ reqs.foldl (fun maxEffort req => max maxEffort req.powEffort) effort := by
  induction reqs generalizing effort with
  | nil => exact ⟨UInt32.le_refl effort, fun req hreq => (not_mem_nil hreq).elim⟩
  | cons req reqs ih =>
    obtain ⟨hstart, hall⟩ := ih (max effort req.powEffort)
    obtain ⟨hleft, hright⟩ := le_max_effort effort req.powEffort
    refine ⟨UInt32.le_trans hleft hstart, fun r hr => ?_⟩
    rcases mem_cons.mp hr with rfl | hr
    · exact UInt32.le_trans hright hstart
    · exact hall r hr

lemma trimRendPqueue_trims (s : HsPowServiceState) (now : ℤ) :
    Trims s.pqueueHighLevel now (trimRendPqueue s now).rendRequestPqueue.items
        (trimFreed s.pqueueHighLevel now s.rendRequestPqueue (PQueue.empty _))
      ∧ ((trimRendPqueue s now).rendRequestPqueue.items
          ++ trimFreed s.pqueueHighLevel now s.rendRequestPqueue (PQueue.empty _)).Perm
        s.rendRequestPqueue.items
      ∧ ∀ req ∈ trimFreed s.pqueueHighLevel now s.rendRequestPqueue (PQueue.empty _),
          req.powEffort ≤ (trimRendPqueue s now).maxTrimmedEffort := by
  have hstart : Trimming s.pqueueHighLevel now s.rendRequestPqueue
      (PQueue.empty PendingRend.key) := by
    refine ⟨fun req hreq => ?_, fun req hreq => ?_, le_max_left 0 _⟩
    · exact (not_mem_nil hreq).elim
    · exact (not_mem_nil hreq).elim
  obtain ⟨htrims, hperm, -, hfreed⟩ := @trimLoop_spec _ _ _ _ s.maxTrimmedEffort hstart
  refine ⟨htrims, hperm, fun req hreq => ?_⟩
  obtain ⟨hmax, hall⟩ := le_foldl_max
    (trimLoop s.pqueueHighLevel now s.rendRequestPqueue (PQueue.empty _) s.maxTrimmedEffort).1.items
    (trimLoop s.pqueueHighLevel now s.rendRequestPqueue (PQueue.empty _) s.maxTrimmedEffort).2.2
  rcases hfreed req hreq with hold | hle
  · exact hall req hold
  · exact UInt32.le_trans hle hmax

/-- A request is enqueued, and the queue is as it should be. -/
structure TrimsRight (s : HsPowServiceState) (powEffort : UInt32) (now : ℤ) : Prop where
  positive : 0 < s.pqueueHighLevel.toInt
  below : ((enqueueRendRequest s powEffort now).rendRequestPqueue.items.length : ℤ)
    < s.pqueueHighLevel.toInt
  divided : ((enqueueRendRequest s powEffort now).rendRequestPqueue.items
    ++ enqueueFreed s powEffort now).Perm (⟨powEffort, now⟩ :: s.rendRequestPqueue.items)
  trims : IsFull s → Trims s.pqueueHighLevel now
    (enqueueRendRequest s powEffort now).rendRequestPqueue.items (enqueueFreed s powEffort now)
  noted : ∀ req ∈ enqueueFreed s powEffort now,
    req.powEffort ≤ (enqueueRendRequest s powEffort now).maxTrimmedEffort

lemma trimsRight_of_pos {s : HsPowServiceState} (hpos : 0 < s.pqueueHighLevel.toInt)
    (powEffort : UInt32) (now : ℤ) : TrimsRight s powEffort now := by
  have hadd := @PQueue.items_add_perm _ _ PendingRend.key _ s.rendRequestPqueue ⟨powEffort, now⟩
  have hlength : ((s.rendRequestPqueue.add ⟨powEffort, now⟩).items.length : ℤ)
      = s.rendRequestPqueue.items.length + 1 := by
    rw [hadd.length_eq, length_cons]
    rfl
  by_cases hfull : IsFull s
  · have henqueue : enqueueRendRequest s powEffort now = trimRendPqueue
        { s with rendRequestPqueue := s.rendRequestPqueue.add ⟨powEffort, now⟩ } now := by
      rw [enqueueRendRequest]
      exact if_pos (hlength ▸ hfull)
    obtain ⟨htrims, hperm, hnoted⟩ := trimRendPqueue_trims
      { s with rendRequestPqueue := s.rendRequestPqueue.add ⟨powEffort, now⟩ } now
    have hfreed : trimFreed s.pqueueHighLevel now (s.rendRequestPqueue.add ⟨powEffort, now⟩)
        (PQueue.empty _) = enqueueFreed s powEffort now := (if_pos hfull).symm
    simp only [← henqueue, hfreed] at htrims hperm hnoted
    refine ⟨hpos, ?_, hperm.trans hadd, fun _ => htrims, hnoted⟩
    have hhalf := htrims.half
    rw [Int.tdiv_eq_ediv_of_nonneg hpos.le] at hhalf
    omega
  · have henqueue : enqueueRendRequest s powEffort now
        = { s with rendRequestPqueue := s.rendRequestPqueue.add ⟨powEffort, now⟩ } := by
      rw [enqueueRendRequest]
      exact if_neg (hlength ▸ hfull)
    have hfreed : enqueueFreed s powEffort now = [] := if_neg hfull
    rw [IsFull, not_le] at hfull
    refine ⟨hpos, ?_, ?_, fun h => absurd h (not_le.mpr hfull), ?_⟩
    · rw [henqueue]
      exact hlength ▸ hfull
    · rw [henqueue, hfreed, append_nil]
      exact hadd
    · rw [hfreed]
      exact fun req hreq => (not_mem_nil hreq).elim

/-- The limit fits an `int`, where it comes from the configured rate and burst. -/
def LevelFits (powQueueRate powQueueBurst : UInt32) : Prop :=
  0 < powQueueRate → powQueueRate ≤ powQueueBurst →
    0 < (powQueueBurst.toNat + powQueueRate.toNat * 60) % 2 ^ 32
      ∧ (powQueueBurst.toNat + powQueueRate.toNat * 60) % 2 ^ 32 < 2 ^ 31

lemma pqueueHighLevel_pos (powQueueRate powQueueBurst absoluteSec : UInt32) (start : ℤ) :
    0 < (initializePowDefenses powQueueRate powQueueBurst absoluteSec start).pqueueHighLevel.toInt
      ↔ LevelFits powQueueRate powQueueBurst := by
  have hsum : (powQueueBurst + powQueueRate * 30 * 2).toNat
      = (powQueueBurst.toNat + powQueueRate.toNat * 60) % 2 ^ 32 := by
    rw [UInt32.toNat_add, UInt32.toNat_mul, UInt32.toNat_mul, show (30 : UInt32).toNat = 30 from rfl,
      show (2 : UInt32).toNat = 2 from rfl]
    omega
  simp only [initializePowDefenses, LevelFits]
  by_cases hlimited : 0 < powQueueRate ∧ powQueueRate ≤ powQueueBurst
  · rw [if_pos (decide_eq_true hlimited), toInt_toInt32, hsum, Int.bmod_def]
    simp only [hlimited.1, hlimited.2, true_imp_iff]
    split_ifs <;> omega
  · rw [if_neg (by simpa using hlimited)]
    refine iff_of_true (by decide) fun hrate hburst => absurd ⟨hrate, hburst⟩ hlimited

/-- **The queue is trimmed right**, whatever is in it, exactly where the limit fits an `int`. -/
theorem trimsRight_iff (powQueueRate powQueueBurst absoluteSec : UInt32) (start : ℤ)
    (s : HsPowServiceState) (powEffort : UInt32) (now : ℤ) :
    TrimsRight
        { s with
          pqueueHighLevel :=
            (initializePowDefenses powQueueRate powQueueBurst absoluteSec start).pqueueHighLevel }
        powEffort now
      ↔ LevelFits powQueueRate powQueueBurst := by
  rw [← pqueueHighLevel_pos powQueueRate powQueueBurst absoluteSec start]
  constructor
  · intro h
    exact h.positive
  · intro h
    refine trimsRight_of_pos ?_ powEffort now
    exact h

/-- A rate of 40000000 makes the limit negative: no queue is below it. -/
theorem not_trimsRight_fastRate :
    ¬ TrimsRight (initializePowDefenses 40000000 40000000 0 0) 1 0 := by
  intro h
  exact absurd h.positive (by decide)

end Ator.HiddenService.PowEffort
