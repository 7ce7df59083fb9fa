import AtorProtocol.Encoding.Binascii
import AtorProtocol.Lib.AssocMap

/-!
# The replay cache of introductions

`src/feature/hs_common/replaycache.c`.  Times are integers: with a horizon that is not negative and
times that are positive, no difference of two leaves the range of a `time_t`.

* `Replaycache.addAndTestInternal`, `Replaycache.scrubIfNeededInternal` — a call, and the scrubbing
  that is part of it.
* `Remembers` — what the cache has of the calls so far.
* `replay_iff` — which calls are reported as replays.
-/

namespace Ator.HiddenService

open List

/-- `replaycache_t`; `digestsSeen` has the time at which each digest was last seen. -/
structure Replaycache (δ : Type*) where
  scrubInterval : ℤ
  scrubbed : ℤ
  horizon : ℤ
  digestsSeen : AssocMap δ ℤ

namespace Replaycache

variable {δ : Type*} [DecidableEq δ] (digest : Ator.Bytes → δ)

/-- `replaycache_new`; `none` for NULL. -/
def new (horizon interval : ℤ) : Option (Replaycache δ) :=
  if horizon < 0 then none else some ⟨max interval 0, 0, horizon, ∅⟩

def scrubIfNeededInternal (present : ℤ) (r : Replaycache δ) : Replaycache δ :=
  if present - r.scrubbed < r.scrubInterval ∧ r.scrubbed > 0 then r
  else if r.horizon = 0 then r
  else
    { r with
      digestsSeen := r.digestsSeen.filter fun _ accessTime => ¬ accessTime < present - r.horizon
      scrubbed := if present > r.scrubbed then present else r.scrubbed }

/-- The lookup of `replaycache_add_and_test_internal`, and what it leaves in the map: the cache,
whether it is a hit, and what is stored in `*elapsed`. -/
def lookup (present : ℤ) (r : Replaycache δ) (d : δ) : Replaycache δ × Bool × Option ℤ :=
  match r.digestsSeen.get d with
  | some accessTime =>
    let hit : Bool := accessTime ≥ present - r.horizon ∨ r.horizon = 0
    let elapsed := if present ≥ accessTime then present - accessTime else 0
    let r :=
      if accessTime < present then { r with digestsSeen := r.digestsSeen.set d present } else r
    (r, hit, if hit then some elapsed else none)
  | none => ({ r with digestsSeen := r.digestsSeen.set d present }, false, none)

/-- `replaycache_add_and_test_internal`: the cache, the result, and what is stored in
`*elapsed`. -/
def addAndTestInternal (present : ℤ) (r : Option (Replaycache δ)) (data : Ator.Bytes) :
    Option (Replaycache δ) × Bool × Option ℤ :=
  match r with
  | none => (none, false, none)
  | some r =>
    -- the call with "stupid parameters"
    if present ≤ 0 ∨ data = [] then (some r, false, none)
    else
      let (r, rv, elapsed) := r.lookup present (digest data)
      (some (r.scrubIfNeededInternal present), rv, elapsed)

/-- The cache after calls with their times. -/
def after (r : Option (Replaycache δ)) (calls : List (ℤ × Ator.Bytes)) : Option (Replaycache δ) :=
  calls.foldl (fun r call => (addAndTestInternal digest call.1 r call.2).1) r

/-! ## What the cache remembers -/

/-- Every entry is the last of the calls with its data, if that is in `D`; a call whose data has no
entry is out of the horizon of `last`, and so of every later time. -/
structure Remembers (D : Set Ator.Bytes) (r : Replaycache δ) (calls : List (ℤ × Ator.Bytes))
    (last : ℤ) : Prop where
  entry : ∀ data ∈ D, ∀ accessTime, r.digestsSeen.get (digest data) = some accessTime →
    (accessTime, data) ∈ calls ∧ ∀ t, (t, data) ∈ calls → t ≤ accessTime
  forgotten : ∀ data ∈ D, r.digestsSeen.get (digest data) = none →
    ∀ t, (t, data) ∈ calls → r.horizon ≠ 0 ∧ t < last - r.horizon

variable {digest} {D : Set Ator.Bytes} {r : Replaycache δ} {calls : List (ℤ × Ator.Bytes)}
  {last present : ℤ} {data : Ator.Bytes}

lemma Remembers.later (h : Remembers digest D r calls last) (hle : last ≤ present) :
    Remembers digest D r calls present := by
  refine ⟨h.entry, fun d hd hnone t ht => ?_⟩
  obtain ⟨hzero, hlt⟩ := h.forgotten d hd hnone t ht
  exact ⟨hzero, by omega⟩

lemma Remembers.empty (hempty : [] ∉ D) (h : Remembers digest D r calls last) :
    Remembers digest D r (calls ++ [(present, [])]) last := by
  have hmem : ∀ {t : ℤ} {d : Ator.Bytes}, d ∈ D →
      ((t, d) ∈ calls ++ [(present, [])] ↔ (t, d) ∈ calls) := by
    intro t d hd
    simp [ne_of_mem_of_not_mem hd hempty]
  refine ⟨fun d hd a ha => ?_, fun d hd hnone t ht => h.forgotten d hd hnone t ((hmem hd).mp ht)⟩
  obtain ⟨hin, hlast⟩ := h.entry d hd a ha
  exact ⟨(hmem hd).mpr hin, fun t ht => hlast t ((hmem hd).mp ht)⟩

lemma lookup_get (h : Remembers digest D r calls last) (hpast : ∀ c ∈ calls, c.1 ≤ present)
    (hdata : data ∈ D) (d : δ) :
    (r.lookup present (digest data)).1.digestsSeen.get d
      = if d = digest data then some present else r.digestsSeen.get d := by
  rw [lookup]
  split
  · next accessTime ha =>
      have hle : accessTime ≤ present := hpast _ (h.entry data hdata accessTime ha).1
      dsimp only
      split_ifs with hlt hd hd
      · rw [hd, AssocMap.get_set_self]
      · exact AssocMap.get_set_of_ne hd
      · rw [hd, ha, show accessTime = present by omega]
      · rfl
  · exact AssocMap.get_set

lemma horizon_lookup (d : δ) : (r.lookup present d).1.horizon = r.horizon := by
  rw [lookup]
  split
  · dsimp only
    split_ifs <;> rfl
  · rfl

lemma Remembers.lookup (hinj : Set.InjOn digest D) (h : Remembers digest D r calls last)
    (hpast : ∀ c ∈ calls, c.1 ≤ present) (hle : last ≤ present) (hdata : data ∈ D) :
    Remembers digest D (r.lookup present (digest data)).1 (calls ++ [(present, data)]) present := by
  constructor
  · intro d hd a ha
    rw [lookup_get h hpast hdata] at ha
    split_ifs at ha with heq
    · obtain rfl := hinj hd hdata heq
      obtain rfl := Option.some.inj ha
      refine ⟨by simp, fun t ht => ?_⟩
      rcases mem_append.mp ht with ht | ht
      · exact hpast _ ht
      · rw [mem_singleton, Prod.mk.injEq] at ht
        exact ht.1.le
    · have hne : d ≠ data := fun hdd => heq (congrArg digest hdd)
      obtain ⟨hin, hlast⟩ := h.entry d hd a ha
      refine ⟨mem_append_left _ hin, fun t ht => hlast t ?_⟩
      simpa [hne] using ht
  · intro d hd hnone t ht
    rw [lookup_get h hpast hdata] at hnone
    split_ifs at hnone with heq
    have hne : d ≠ data := fun hdd => heq (congrArg digest hdd)
    obtain ⟨hzero, hlt⟩ := h.forgotten d hd hnone t (by simpa [hne] using ht)
    rw [horizon_lookup]
    exact ⟨hzero, by omega⟩

lemma Remembers.scrub (h : Remembers digest D r calls present) :
    Remembers digest D (r.scrubIfNeededInternal present) calls present := by
  rw [scrubIfNeededInternal]
  by_cases hearly : present - r.scrubbed < r.scrubInterval ∧ r.scrubbed > 0
  · rwa [if_pos hearly]
  by_cases hnever : r.horizon = 0
  · rwa [if_neg hearly, if_pos hnever]
  · rw [if_neg hearly, if_neg hnever]
    refine ⟨fun d hd a ha => h.entry d hd a (AssocMap.get_filter_eq_some.mp ha).1, ?_⟩
    intro d hd hnone t ht
    rcases hget : r.digestsSeen.get (digest d) with _ | a
    · exact h.forgotten d hd hget t ht
    · have hold : a < present - r.horizon := by
        by_contra hnew
        have hkept := (AssocMap.get_filter_eq_some
          (p := fun _ accessTime => decide ¬ accessTime < present - r.horizon)).mpr
          ⟨hget, decide_eq_true hnew⟩
        rw [hnone] at hkept
        cases hkept
      exact ⟨hnever, lt_of_le_of_lt ((h.entry d hd a hget).2 t ht) hold⟩

/-! ## Runs -/

omit [DecidableEq δ] in
lemma horizon_scrub : (r.scrubIfNeededInternal present).horizon = r.horizon := by
  rw [scrubIfNeededInternal]
  split_ifs <;> rfl

lemma after_snoc (r : Option (Replaycache δ)) (call : ℤ × Ator.Bytes) : after digest r (calls ++ [call])
    = (addAndTestInternal digest call.1 (after digest r calls) call.2).1 := by
  rw [after, foldl_append]
  rfl

/-- **What a run remembers**, if the times do not decrease. -/
lemma remembers_after (hinj : Set.InjOn digest D) (hempty : [] ∉ D) {horizon : ℤ}
    (hhorizon : 0 ≤ horizon) (interval : ℤ) (hpos : ∀ c ∈ calls, 0 < c.1)
    (hcalls : ∀ c ∈ calls, c.2 ≠ [] → c.2 ∈ D)
    (hsorted : calls.Pairwise fun c c' => c.1 ≤ c'.1) (hlast : ∀ c ∈ calls, c.1 ≤ last) :
    ∃ r, after digest (new horizon interval) calls = some r ∧ r.horizon = horizon
      ∧ Remembers digest D r calls last := by
  induction calls using List.reverseRecOn generalizing last with
  | nil =>
    refine ⟨_, if_neg (not_lt.mpr hhorizon), rfl, ?_, ?_⟩
    · intro d _ a ha
      cases ha
    · intro d _ _ t ht
      cases ht
  | append_singleton calls call ih =>
    obtain ⟨present, data⟩ := call
    rw [List.pairwise_append] at hsorted
    have hpast : ∀ c ∈ calls, c.1 ≤ present := fun c hc =>
      hsorted.2.2 c hc (present, data) (mem_singleton_self _)
    have hpresent : present ≤ last := hlast (present, data) (by simp)
    have hnow : 0 < present := hpos (present, data) (by simp)
    obtain ⟨r, hr, hrhorizon, hrem⟩ := ih (fun c hc => hpos c (mem_append_left _ hc))
      (fun c hc => hcalls c (mem_append_left _ hc)) hsorted.1 hpast
    rw [after_snoc, hr, addAndTestInternal]
    by_cases hdata : data = []
    · subst hdata
      rw [if_pos (.inr rfl)]
      exact ⟨r, rfl, hrhorizon, (hrem.empty hempty).later hpresent⟩
    · rw [if_neg (by simp [hdata, hnow])]
      have hmem := hcalls (present, data) (by simp) hdata
      refine ⟨_, rfl, ?_, ((hrem.lookup hinj hpast le_rfl hmem).scrub).later hpresent⟩
      rw [horizon_scrub, horizon_lookup, hrhorizon]

lemma Remembers.hit_iff (h : Remembers digest D r calls present) (hdata : data ∈ D) :
    (r.lookup present (digest data)).2.1 = true
      ↔ ∃ t, (t, data) ∈ calls ∧ (r.horizon = 0 ∨ present - t ≤ r.horizon) := by
  rw [Replaycache.lookup]
  rcases hget : r.digestsSeen.get (digest data) with _ | a
  · simp only [Bool.false_eq_true, false_iff, not_exists, not_and]
    intro t ht
    have := h.forgotten data hdata hget t ht
    omega
  · obtain ⟨hin, hlast⟩ := h.entry data hdata a hget
    simp only [decide_eq_true_eq]
    constructor
    · intro hhit
      exact ⟨a, hin, by omega⟩
    · rintro ⟨t, ht, hhit⟩
      have := hlast t ht
      omega

/-- **Replay cache.**  After calls with positive times that do not decrease, a call is reported as a
replay exactly when its data is not empty and the same data was presented by an earlier call, at a
time no more than the horizon before (at any time if the horizon is zero). -/
theorem replay_iff (horizon interval : ℤ) (calls : List (ℤ × Ator.Bytes)) (present : ℤ)
    (data : Ator.Bytes) (hinj : Set.InjOn digest {d | ∃ t, (t, d) ∈ calls ++ [(present, data)]})
    (hpos : ∀ c ∈ calls ++ [(present, data)], 0 < c.1)
    (hsorted : (calls ++ [(present, data)]).Pairwise fun c c' => c.1 ≤ c'.1) :
    (addAndTestInternal digest present (after digest (new horizon interval) calls) data).2.1 = true
      ↔ data ≠ [] ∧ ∃ t, (t, data) ∈ calls ∧ (horizon = 0 ∨ present - t ≤ horizon) := by
  rw [List.pairwise_append] at hsorted
  have hpast : ∀ c ∈ calls, c.1 ≤ present := fun c hc =>
    hsorted.2.2 c hc (present, data) (mem_singleton_self _)
  have hnow : 0 < present := hpos (present, data) (by simp)
  by_cases hhorizon : 0 ≤ horizon
  · obtain ⟨r, hr, hrhorizon, hrem⟩ := remembers_after
      (D := {d | d ≠ [] ∧ ∃ t, (t, d) ∈ calls ++ [(present, data)]}) (hinj.mono fun d hd => hd.2)
      (fun hempty => hempty.1 rfl) hhorizon interval (fun c hc => hpos c (mem_append_left _ hc))
      (fun c hc hne => ⟨hne, c.1, mem_append_left _ hc⟩) hsorted.1 hpast
    rw [hr, addAndTestInternal, ← hrhorizon]
    by_cases hdata : data = []
    · rw [if_pos (.inr hdata)]
      simp [hdata]
    · rw [if_neg (by simp [hdata, hnow]), ← hrem.hit_iff ⟨hdata, present, by simp⟩]
      simp [hdata]
  · -- there is no cache, and no time within a negative horizon
    have hnull : ∀ calls, after digest (new horizon interval) calls = none := by
      intro calls
      induction calls using List.reverseRecOn with
      | nil => exact if_pos (not_le.mp hhorizon)
      | append_singleton calls call ih => rw [after_snoc, ih, addAndTestInternal]
    rw [hnull, addAndTestInternal]
    simp only [Bool.false_eq_true, false_iff, not_and, not_exists]
    intro _ t ht
    have := hpast _ ht
    omega

/-- The bytes folded to 32 bits. -/
def fold32 (data : Ator.Bytes) : UInt32 := data.foldl (fun h b => h * 257 + b.toUInt32 + 1) 7

/-- A hit within the horizon, through a scrub. -/
theorem replay_iff_again : (addAndTestInternal fold32 160
    (after fold32 (new 100 50) [(10, [1]), (70, [1]), (130, [2])]) [1]).2.1 = true := by
  have hinj : Set.InjOn fold32 {[1], [2]} := Set.injOn_pair.mpr fun heq => absurd heq (by decide)
  refine (replay_iff 100 50 _ 160 [1] (hinj.mono ?_) (by decide) (by decide)).mpr
    ⟨by decide, 70, by decide⟩
  rintro d ⟨t, hd⟩
  simp only [mem_append, mem_cons, Prod.mk.injEq, not_mem_nil, or_false] at hd
  rcases hd with (⟨-, rfl⟩ | ⟨-, rfl⟩ | ⟨-, rfl⟩) | ⟨-, rfl⟩ <;> simp

/-- Empty data is never a replay. -/
theorem replay_fails : ¬ (∀ (horizon interval : ℤ) (calls : List (ℤ × Ator.Bytes)) (present : ℤ)
    (data : Ator.Bytes), (∀ c ∈ calls ++ [(present, data)], 0 < c.1) →
      (calls ++ [(present, data)]).Pairwise (fun c c' => c.1 ≤ c'.1) →
      ((addAndTestInternal id present (after id (new horizon interval) calls) data).2.1 = true
        ↔ ∃ t, (t, data) ∈ calls ∧ (horizon = 0 ∨ present - t ≤ horizon))) := by
  intro h
  have hempty := (h 10 10 [(1, [])] 2 [] (by decide) (by decide)).mpr
    ⟨1, by decide, .inr (by decide)⟩
  revert hempty
  decide

end Replaycache

end Ator.HiddenService
