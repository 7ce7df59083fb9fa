import AtorProtocol.Conflux.PoolLinking

/-!
# The events of a pool

What cells, closes, frees and launches do between two calls of the main loop, and that a step
keeps the invariant.

* `NoStaleFree` — what freeing a circuit needs.
* `Inv.exec` — a step keeps the invariant, or the assertion on the nonce fails.
-/

namespace Ator.Conflux.Pool

open List Option Function
open Bool (not_eq_false not_eq_true)

variable {α : Type} {s t : Pool α} {c p : ℕ} {n : Nonce} {circ circ' : PoolCircuit}
  {set : ConfluxSet α} {u : UnlinkedCircuits} {call : Call} {calls : List Call}

/-! ## Between two events -/

/-- The pools when no call is to be made: no set that has legs is in full teardown. -/
structure Quiet (s : Pool α) : Prop where
  sets : Sets s
  full : s.shuttingDown = false → ∀ p set, s.cfx p = some set → set.cfx.inFullTeardown = true →
    set.Empty
  own : ∀ n u set, s.unlinkedPool n = some u → u.isForLinkedSet = false →
    s.cfx u.cfx = some set → set.cfx.inFullTeardown = false

/-- A call that closes what is there. -/
def Closes (s : Pool α) (call : Call) : Prop :=
  (∃ n, call = .closeLinked n) ∨ ∃ c circ, call = .markForClose c ∧ s.circ c = some circ

lemma Inv.quiet (h : Inv s) (hcalls : s.calls = []) : Quiet s := by
  refine ⟨h.sets, fun hshut p set hset hfull c hleg => ?_, h.calls.own⟩
  have hmem := h.calls.teardown hshut p set c hset hfull hleg
  rw [hcalls] at hmem
  exact absurd hmem not_mem_nil

lemma Quiet.inv (h : Quiet s) (hshut : s.shuttingDown = true → s.calls = [])
    (hcloses : ∀ call ∈ s.calls, Closes s call)
    (hrelay : s.isClient = false → ∀ n u, s.unlinkedPool n = some u →
      ∃ c, s.calls.head? = some (.markForClose c) ∧ u.legs.map PendingLeg.circ = [some c]) :
    Inv s := by
  have hlaunches : ∀ call ∈ s.calls, call.launches = none := by
    intro call hmem
    rcases hcloses call hmem with ⟨n, rfl⟩ | ⟨c, circ, rfl, -⟩
    · rfl
    · rfl
  refine ⟨h.sets, hshut, fun c hmem => ?_, fun call hmem => ?_, fun call hmem n hn => ?_, hrelay,
    fun hopen p set c hset hfull hleg => absurd hleg (h.full hopen p set hset hfull c), h.own⟩
  · rcases hcloses _ hmem with ⟨n, heq⟩ | ⟨d, circ, heq, hd⟩
    · cases heq
    · obtain rfl := Call.markForClose.inj heq
      exact ⟨circ, hd⟩
  · exact hlaunches call (mem_of_mem_tail hmem)
  · rw [hlaunches call (mem_of_mem_head? hmem)] at hn
    cases hn

lemma Quiet.inv_nil (h : Quiet s) (hcalls : s.calls = [])
    (hrelay : s.isClient = false → ∀ n, s.unlinkedPool n = none) : Inv s := by
  refine h.inv (fun _ => hcalls) (fun call hmem => ?_) fun hr n u hu => ?_
  · rw [hcalls] at hmem
    exact absurd hmem not_mem_nil
  · rw [hrelay hr n] at hu
    cases hu

lemma Nonces.of_nil (h : Nonces s) (hclient : t.isClient = s.isClient) (hcalls : s.calls = [])
    (hlegs : ∀ n u leg, t.unlinkedPool n = some u → leg ∈ u.legs → leg.link.nonce = n
      ∨ ∃ u₀ leg₀, s.unlinkedPool n = some u₀ ∧ leg₀ ∈ u₀.legs ∧ leg.link = leg₀.link) :
    Nonces t := by
  refine ⟨hclient.trans h.isClient, fun n u leg hu hleg => ?_⟩
  rcases hlegs n u leg hu hleg with hn | ⟨u₀, leg₀, hu₀, hleg₀, heq⟩
  · exact .inl hn
  · rcases h.nonces n u₀ leg₀ hu₀ hleg₀ with hn | ⟨c, -, hmem⟩
    · exact .inl (heq ▸ hn)
    · rw [hcalls] at hmem
      exact absurd hmem not_mem_nil

lemma Nonces.of_same (h : Nonces s) (hclient : t.isClient = s.isClient) (hcalls : s.calls = [])
    (hsame : t.unlinkedPool = s.unlinkedPool) : Nonces t :=
  h.of_nil hclient hcalls fun _ u leg hu hleg => .inr ⟨u, leg, hsame ▸ hu, hleg, rfl⟩

/-! ## The simple events -/

lemma Quiet.setCirc_none (h : Quiet s) (hfree : ∀ p set, s.cfx p = some set → ¬ set.HasLeg c)
    (hwaits : s.shuttingDown = false → ∀ n u leg, s.unlinkedPool n = some u → leg ∈ u.legs →
      leg.circ ≠ some c) : Quiet (s.setCirc c none) :=
  ⟨h.sets.setCirc_free (o := none) hfree hwaits (fun _ ho => absurd ho (by simp)) le_rfl
    fun ho => absurd ho (by simp), h.full, h.own⟩

lemma Inv.createCircuit (h : Inv s) (hcalls : s.calls = []) :
    ∃ t, s.event .createCircuit = .ok t ∧ Inv t ∧ (Nonces s → Nonces t) := by
  refine ⟨_, rfl, ?_⟩
  split
  · exact ⟨h, id⟩
  · have hquiet := h.quiet hcalls
    refine ⟨Quiet.inv_nil ⟨h.sets.newCirc none, hquiet.full, hquiet.own⟩ hcalls fun hr n =>
      h.calls.relay_nil hr hcalls, fun hn => hn.of_same rfl hcalls rfl⟩

lemma nonce_ne_of_not_used (h : Sets s) (hunused : s.nonceUsed n = false) (hset : s.cfx p = some set) :
    set.nonce ≠ n := by
  intro hn
  have hlt : p < s.nextCfx := by
    by_contra hle
    exact absurd ((h.cfx_fresh p (Nat.not_lt.mp hle)).symm.trans hset) (by simp)
  rw [nonceUsed, List.any_eq_false] at hunused
  refine hunused p (mem_range.mpr hlt) ?_
  rw [hset, any_some, decide_eq_true hn]

lemma Inv.launchNewSet (h : Inv s) (hcalls : s.calls = []) :
    ∃ t, s.event (.launchNewSet n) = .ok t ∧ Inv t ∧ (Nonces s → Nonces t) := by
  refine ⟨_, rfl, ?_⟩
  split
  · exact ⟨h, id⟩
  · next hno =>
      obtain ⟨hclient, hshut, hunused⟩ : s.isClient = true ∧ s.shuttingDown = false
          ∧ s.nonceUsed n = false := by simpa using hno
      refine ⟨⟨h.sets.setCalls _, fun hs => absurd (hshut.symm.trans hs) (by simp),
        fun c hmem => ?_, fun call hmem => ?_, fun call hmem n' hn' => ?_,
        fun hr => absurd (hclient.symm.trans hr) (by simp), fun _ p set c hset hfull hleg => ?_,
        h.calls.own⟩, fun hn => hn.of_same rfl hcalls rfl⟩
      · exact h.calls.there c ((mem_cons.mp hmem).resolve_left (by simp))
      · rw [show (s.call [.launchMore n s.numLegsSet]).calls = [.launchMore n s.numLegsSet] by
          rw [Pool.call, hcalls, append_nil]] at hmem
        exact absurd hmem not_mem_nil
      · obtain rfl : call = .launchMore n s.numLegsSet := (some.inj hmem).symm
        obtain rfl : n = n' := some.inj hn'
        exact ⟨hclient, fun _ p set hset => nonce_ne_of_not_used h.sets hunused hset⟩
      · exact absurd hleg ((h.quiet hcalls).full hshut p set hset hfull c)

lemma Quiet.close (h : Quiet s) (hshut : s.shuttingDown = false)
    (hc : s.circ c = some circ)
    (hrelay : s.isClient = false → ∀ n u, s.unlinkedPool n = some u →
      u.legs.map PendingLeg.circ = [some c]) : Inv { s with calls := [.markForClose c] } := by
  refine Quiet.inv ⟨h.sets.setCalls _, h.full, h.own⟩
    (fun hs => absurd (hshut.symm.trans hs) (by simp)) (fun call hmem => ?_)
    fun hr n u hu => ⟨c, rfl, hrelay hr n u hu⟩
  rw [mem_singleton.mp hmem]
  exact .inr ⟨c, circ, rfl, hc⟩

lemma Inv.close (h : Inv s) (hcalls : s.calls = []) :
    ∃ t, s.event (.close c) = .ok t ∧ Inv t ∧ (Nonces s → Nonces t) := by
  refine ⟨_, rfl, ?_⟩
  split
  · exact ⟨h, id⟩
  · next hno =>
      simp only [not_or, not_eq_true, not_eq_false] at hno
      obtain ⟨hshut, hopen⟩ := hno
      obtain ⟨circ, hc, -⟩ := any_eq_true _ _ |>.mp hopen
      rw [Pool.call, hcalls]
      refine ⟨(h.quiet hcalls).close hshut hc fun hr n u hu => ?_,
        fun hn => hn.of_same rfl hcalls rfl⟩
      rw [h.calls.relay_nil hr hcalls] at hu
      cases hu

lemma Inv.traffic {cfx : Cfx ℕ α} (h : Inv s) (hcalls : s.calls = []) :
    ∃ t, s.event (.traffic p cfx) = .ok t ∧ Inv t ∧ (Nonces s → Nonces t) := by
  refine ⟨_, rfl, ?_⟩
  split
  · next set hset =>
      split
      · next hsame =>
          have hlegs : ∀ c, ConfluxSet.HasLeg { set with cfx } c ↔ set.HasLeg c := by
            intro c
            rw [hasLeg_iff, hasLeg_iff, hsame.1]
          have hold : ∀ q set₁, (s.setCfx p (some { set with cfx })).cfx q = some set₁ →
              ∃ set₀, s.cfx q = some set₀ ∧ set₁.cfx.inFullTeardown = set₀.cfx.inFullTeardown
                ∧ ∀ c, set₁.HasLeg c ↔ set₀.HasLeg c := by
            intro q set₁ hq
            rcases update_some_eq_some.mp hq with ⟨rfl, rfl⟩ | ⟨-, hq⟩
            · exact ⟨set, hset, hsame.2, hlegs⟩
            · exact ⟨set₁, hq, rfl, fun _ => Iff.rfl⟩
          refine ⟨Quiet.inv_nil ⟨h.sets.setCfx _ hset rfl hlegs, fun hshut q set₁ hq hfull c hleg => ?_,
            fun n u set₁ hu hown hq => ?_⟩ hcalls fun hr n => h.calls.relay_nil hr hcalls,
            fun hn => hn.of_same rfl hcalls rfl⟩
          · obtain ⟨set₀, hq₀, hfull₀, hlegs₀⟩ := hold q set₁ hq
            exact (h.quiet hcalls).full hshut q set₀ hq₀ (hfull₀ ▸ hfull) c ((hlegs₀ c).mp hleg)
          · obtain ⟨set₀, hq₀, hfull₀, -⟩ := hold _ set₁ hq
            rw [hfull₀]
            exact h.calls.own n u set₀ hu hown hq₀
      · exact ⟨h, id⟩
  · exact ⟨h, id⟩

lemma Inv.inflight {inflight : Bool} (h : Inv s) (hcalls : s.calls = []) :
    ∃ t, s.event (.inflight c inflight) = .ok t ∧ Inv t ∧ (Nonces s → Nonces t) := by
  refine ⟨_, rfl, ?_⟩
  split
  · next circ hc =>
      have hsets := h.sets.setCirc_same { circ with inflight } hc rfl rfl rfl rfl
      exact ⟨Quiet.inv_nil ⟨hsets, (h.quiet hcalls).full, h.calls.own⟩ hcalls
        fun hr n => h.calls.relay_nil hr hcalls,
        fun hn => hn.of_same rfl hcalls rfl⟩
  · exact ⟨h, id⟩

lemma Inv.newParams {maxLegsSet numLegsSet maxUnlinkedLegRetry : ℕ} (h : Inv s)
    (hcalls : s.calls = []) :
    ∃ t, s.event (.newParams maxLegsSet numLegsSet maxUnlinkedLegRetry) = .ok t ∧ Inv t
      ∧ (Nonces s → Nonces t) := by
  have hsets : Sets { s with maxLegsSet, numLegsSet, maxUnlinkedLegRetry } :=
    ⟨h.sets.cfx_fresh, h.sets.circ_fresh, h.sets.linked, h.sets.registered, h.sets.legs,
      h.sets.holds, h.sets.unlinked, h.sets.waits, h.sets.purpose⟩
  exact ⟨_, rfl, Quiet.inv_nil ⟨hsets, (h.quiet hcalls).full, h.calls.own⟩ hcalls
    fun hr n => h.calls.relay_nil hr hcalls,
    fun hn => hn.of_same rfl hcalls rfl⟩

lemma Inv.notifyShutdown (h : Inv s) (hcalls : s.calls = []) :
    ∃ t, s.event .notifyShutdown = .ok t ∧ Inv t ∧ (Nonces s → Nonces t) := by
  have hsets : Sets { s with shuttingDown := true } :=
    ⟨h.sets.cfx_fresh, h.sets.circ_fresh, h.sets.linked, h.sets.registered, h.sets.legs,
      h.sets.holds, h.sets.unlinked, fun hshut => absurd hshut (by simp), h.sets.purpose⟩
  exact ⟨_, rfl, Quiet.inv_nil ⟨hsets, fun hshut => absurd hshut (by simp), h.calls.own⟩ hcalls
    fun hr n => h.calls.relay_nil hr hcalls,
    fun hn => hn.of_same rfl hcalls rfl⟩

/-! ## Freeing -/

/-- A circuit is freed only where no other set than its own is linked under the nonce of the set
that it holds. -/
def NoStaleFree (s : Pool α) : PoolEvent α → Prop
  | .free c => ∀ circ p set q, s.calls = [] → s.circ c = some circ →
      (s.shuttingDown = true ∨ circ.markedForClose = true) → circ.conflux = some p →
      s.cfx p = some set → s.linkedPool set.nonce = some q → q = p
  | _ => True

variable {f : PendingLeg → PendingLeg}

lemma modifyLeg_eq_self {legs : List PendingLeg}
    (h : ∀ leg ∈ legs, leg.circ ≠ some c) : modifyLeg c f legs = legs := by
  induction legs with
  | nil => rfl
  | cons leg legs ih =>
    rw [modifyLeg, if_neg (h leg mem_cons_self),
      ih fun leg' hleg => h leg' (mem_cons_of_mem _ hleg)]

lemma mem_modifyLeg {legs : List PendingLeg} {leg : PendingLeg}
    (h : leg ∈ modifyLeg c f legs) : leg ∈ legs ∨ ∃ leg₀ ∈ legs, leg₀.circ = some c ∧ leg = f leg₀ := by
  induction legs with
  | nil => exact .inl h
  | cons leg' legs ih =>
    rw [modifyLeg] at h
    split at h
    · next hc =>
        rcases mem_cons.mp h with rfl | h
        · exact .inr ⟨leg', mem_cons_self, hc, rfl⟩
        · exact .inl (mem_cons_of_mem _ h)
    · rcases mem_cons.mp h with rfl | h
      · exact .inl mem_cons_self
      · exact (ih h).imp (mem_cons_of_mem _)
          fun ⟨leg₀, hleg₀, hrest⟩ => ⟨leg₀, mem_cons_of_mem _ hleg₀, hrest⟩

lemma Quiet.own_setCfx (h : Quiet s) (hc : s.circ c = some circ) (hconflux : circ.conflux = some p)
    {o : Option (ConfluxSet α)} :
    ∀ n u set, s.unlinkedPool n = some u → u.isForLinkedSet = false →
      update s.cfx p o u.cfx = some set → set.cfx.inFullTeardown = false := by
  intro n u set hu hown hq
  have hne : u.cfx ≠ p := fun heq => h.sets.not_held hu hown hc (heq ▸ hconflux)
  rw [update_of_ne hne] at hq
  exact h.own n u set hu hown hq

lemma linkedCircuitFree_eq (hset : s.cfx p = some set) (hnone : s.unlinkedPool set.nonce = none)
    (hpurpose : s.isClient = true → circ.linkedPurpose = true) :
    ∃ cfx : Cfx ℕ α, (cfx.numLegs = 0 ↔ ConfluxSet.Empty { set with cfx })
      ∧ (∀ d, ConfluxSet.HasLeg { set with cfx } d ↔ set.HasLeg d ∧ d ≠ c)
      ∧ s.linkedCircuitFree c circ p
        = if cfx.numLegs > 0 then .ok (s.setCfx p (some { set with cfx }))
          else .ok (((s.setCfx p (some { set with cfx })).setLinked set.nonce none).setCfx p
            none) := by
  have hassert : ¬ (s.isClient = true ∧ ¬ circ.linkedPurpose = true) := by
    rintro ⟨hclient, hno⟩
    exact hno (hpurpose hclient)
  refine ⟨if (cfxDelLeg set.cfx c circ.inflight).2 = true then
      { (cfxDelLeg set.cfx c circ.inflight).1 with inFullTeardown := true }
    else (cfxDelLeg set.cfx c circ.inflight).1, @numLegs_eq_zero_iff _ { set with cfx := _ },
    fun d => ?_, ?_⟩
  · refine Iff.trans ?_ (confluxGetLeg_cfxDelLeg set.cfx c d circ.inflight)
    rw [ConfluxSet.HasLeg]
    split <;> rfl
  · rw [linkedCircuitFree, hset]
    simp only [deref, bind, Except.bind]
    rw [if_neg hassert, show ((s.setCfx p _).setLinked set.nonce none).unlinkedPool set.nonce
      = none from hnone]
    rfl

/-- **A leg of a set, or the circuit that keeps it, is freed.** -/
lemma Inv.freeLinked (h : Inv s) (hcalls : s.calls = []) (hc : s.circ c = some circ)
    (hguard : s.shuttingDown = true ∨ circ.markedForClose = true)
    (hconflux : circ.conflux = some p) (hcond : NoStaleFree s (.free c)) :
    ∃ t, s.linkedCircuitFree c circ p = .ok t ∧ t.isClient = s.isClient
      ∧ t.unlinkedPool = s.unlinkedPool ∧ Inv (t.setCirc c none) := by
  obtain ⟨hpend, set, hset, hleg⟩ := h.sets.holds c circ p hc hconflux
  have hquiet := h.quiet hcalls
  have hrelay : ∀ {t : Pool α}, t.isClient = s.isClient → t.unlinkedPool = s.unlinkedPool →
      t.isClient = false → ∀ n, t.unlinkedPool n = none := by
    intro t hclient hunlinked hr n
    rw [hunlinked]
    exact h.calls.relay_nil (hclient.symm.trans hr) hcalls
  have hnone : s.unlinkedPool set.nonce = none := by
    cases hclient : s.isClient with
    | false => exact h.calls.relay_nil hclient hcalls
    | true =>
      rcases hleg with hleg | hkept
      · cases hu : s.unlinkedPool set.nonce with
        | none => rfl
        | some u =>
          have hlinked := (h.sets.own_of_client hclient hu).2
          rw [h.sets.registered p set hset fun he => he c hleg] at hlinked
          cases hlinked
      · exact (hkept.2.2.2.2 hclient).1
  obtain ⟨cfx, hcfx, hlegs, hstart⟩ := linkedCircuitFree_eq hset hnone
    fun hclient => (h.sets.purpose hclient c circ hc).1 (by simp [hconflux])
  rw [hstart]
  split
  · next hpos =>
      have hne : ¬ ConfluxSet.Empty { set with cfx } := fun he =>
        absurd (hcfx.mpr he) (Nat.pos_iff_ne_zero.mp hpos)
      have hhas : set.HasLeg c := hleg.resolve_right fun hkept =>
        hne fun d hd => hkept.1 d ((hlegs d).mp hd).1
      have hshut : s.shuttingDown = true := by
        refine hguard.resolve_right fun hmarked => ?_
        obtain ⟨circ', hc', -, hmarked'⟩ := h.sets.legs p set c hset hhas
        obtain rfl := some.inj (hc.symm.trans hc')
        exact absurd (hmarked.symm.trans hmarked') (by simp)
      refine ⟨_, rfl, rfl, rfl, Quiet.inv_nil ⟨?_, fun hopen => ?_, hquiet.own_setCfx hc hconflux⟩ hcalls
        (hrelay rfl rfl)⟩
      · exact h.sets.delLeg { set with cfx } (o := none) hset hc hconflux rfl hlegs hne
          fun _ ho => absurd ho (by simp)
      · exact absurd (hshut.symm.trans hopen) (by simp)
  · next hzero =>
      have hempty : ConfluxSet.Empty { set with cfx } := hcfx.mp (by omega)
      have hsets : Sets ((((s.setCfx p (some { set with cfx })).setLinked set.nonce none).setCfx p
          none).setCirc c none) := by
        rcases hleg with hhas | hkept
        · -- the leg closes, and then its circuit is the one that keeps the object
          have hlast := h.sets.delLastLeg { set with cfx } hset hc hconflux rfl hhas
            (fun d hd => by_contra fun hdc => hempty d ((hlegs d).mpr ⟨hd, hdc⟩)) hempty hnone
          obtain ⟨-, set₁, hset₁, hkept⟩ := hlast.holds c { circ with markedForClose := true } p
            (update_self _ _ _) hconflux
          have heq : update s.cfx p (some { set with cfx }) p = some set₁ := hset₁
          rw [update_self] at heq
          obtain rfl := some.inj heq
          have hfree := hlast.freeKept hset₁ (update_self _ _ _) hconflux
            (hkept.resolve_left (hempty c))
          simpa only [setCirc, setCfx, setLinked, update_idem] using hfree
        · have hlinked : s.linkedPool set.nonce = none := by
            cases hq : s.linkedPool set.nonce with
            | none => rfl
            | some q =>
              obtain rfl := hcond circ p set q hcalls hc hguard hconflux hset hq
              obtain ⟨set₁, hset₁, -, hne⟩ := h.sets.linked _ q hq
              obtain rfl := some.inj (hset.symm.trans hset₁)
              exact absurd hkept.1 hne
          have hfree := h.sets.freeKept hset hc hconflux hkept
          have hsame : update s.linkedPool set.nonce none = s.linkedPool := by
            rw [← hlinked, update_eq_self]
          simpa only [setCirc, setCfx, setLinked, update_idem, hsame] using hfree
      refine ⟨_, rfl, rfl, rfl, Quiet.inv_nil ⟨hsets, fun hopen q set₁ hq => ?_, ?_⟩ hcalls
        (hrelay rfl rfl)⟩
      · obtain ⟨hqp, hq⟩ := update_none_eq_some.mp hq
        exact hquiet.full hopen q set₁ ((update_of_ne hqp _ _).symm.trans hq)
      · intro n u set₁ hu hown hq
        have hq' : update (update s.cfx p (some { set with cfx })) p none u.cfx = some set₁ := hq
        rw [update_idem] at hq'
        exact hquiet.own_setCfx hc hconflux n u set₁ hu hown hq'

/-- **A circuit that waits, or waited, is freed.** -/
lemma Inv.freeUnlinked (h : Inv s) (hcalls : s.calls = []) (hc : s.circ c = some circ)
    (hguard : s.shuttingDown = true ∨ circ.markedForClose = true)
    (hconflux : circ.conflux = none) (hpend : circ.confluxPendingNonce = some n) :
    ∃ t, s.unlinkedCircuitFree c circ n = .ok t ∧ Inv (t.setCirc c none)
      ∧ (Nonces s → Nonces (t.setCirc c none)) := by
  have hquiet := h.quiet hcalls
  have hpurpose : ¬ (s.isClient = true ∧ circ.linkedPurpose = true) := by
    rintro ⟨hclient, hlinked⟩
    rw [(h.sets.purpose hclient c circ hc).2 (by simp [hpend])] at hlinked
    cases hlinked
  have hmarked : s.shuttingDown = false → circ.markedForClose = true := fun hopen =>
    hguard.resolve_left (by simp [hopen])
  have hwaits : s.shuttingDown = false → ∀ n u leg, s.unlinkedPool n = some u → leg ∈ u.legs →
      leg.circ ≠ some c := fun hopen n u leg hu hleg =>
    h.sets.not_waiting hopen hc (.inr (hmarked hopen)) hu hleg
  have hfree := h.sets.not_leg fun circ' hc' =>
    some.inj (hc.symm.trans hc') ▸ hconflux
  rw [unlinkedCircuitFree, if_neg hpurpose]
  cases hu : s.unlinkedPool n with
  | none =>
    refine ⟨s, rfl, ?_⟩
    exact ⟨(hquiet.setCirc_none hfree hwaits).inv_nil hcalls fun hr n => h.calls.relay_nil hr hcalls,
      fun hn => hn.of_same rfl hcalls rfl⟩
  | some u =>
    have hsets : Sets (s.setUnlinked n (some { u with
        legs := modifyLeg c (fun leg => { leg with circ := none }) u.legs })) := by
      refine h.sets.setLegs hu fun hopen => ?_
      rw [modifyLeg_eq_self fun leg hleg => hwaits hopen n u leg hu hleg]
      exact h.sets.waits hopen n u hu
    have hold : ∀ n' u', update s.unlinkedPool n (some { u with
        legs := modifyLeg c (fun leg => { leg with circ := none }) u.legs }) n' = some u' →
        ∃ u₀, s.unlinkedPool n' = some u₀ ∧ u'.cfx = u₀.cfx ∧ u'.isForLinkedSet = u₀.isForLinkedSet
          ∧ ∀ leg ∈ u'.legs, ∃ leg₀ ∈ u₀.legs, leg.link = leg₀.link
            ∧ (leg.circ = some c → leg = leg₀) := by
      intro n' u' hu'
      rcases update_some_eq_some.mp hu' with ⟨rfl, rfl⟩ | ⟨-, hu'⟩
      · refine ⟨u, hu, rfl, rfl, fun leg hleg => ?_⟩
        rcases mem_modifyLeg hleg with hleg | ⟨leg₀, hleg₀, -, rfl⟩
        · exact ⟨leg, hleg, rfl, fun _ => rfl⟩
        · exact ⟨leg₀, hleg₀, rfl, fun hno => absurd hno (by simp)⟩
      · exact ⟨u', hu', rfl, rfl, fun leg hleg => ⟨leg, hleg, rfl, fun _ => rfl⟩⟩
    have hset : Quiet (s.setUnlinked n (some { u with
        legs := modifyLeg c (fun leg => { leg with circ := none }) u.legs })) := by
      refine ⟨hsets, hquiet.full, fun n' u' set hu' hown hq => ?_⟩
      obtain ⟨u₀, hu₀, hcfx, hfor, -⟩ := hold n' u' hu'
      exact hquiet.own n' u₀ set hu₀ (hfor ▸ hown) (hcfx ▸ hq)
    have hfreed := hset.setCirc_none (c := c) hfree fun hopen n' u' leg hu' hleg hlegc => ?_
    · refine ⟨_, rfl, hfreed.inv_nil hcalls fun hr n' => ?_, fun hn => hn.of_nil rfl hcalls
        fun n' u' leg hu' hleg => .inr ?_⟩
      · exact absurd ((h.calls.relay_nil (n := n) hr hcalls).symm.trans hu) (by simp)
      · obtain ⟨u₀, hu₀, -, -, hlegs⟩ := hold n' u' hu'
        obtain ⟨leg₀, hleg₀, hlink, -⟩ := hlegs leg hleg
        exact ⟨u₀, leg₀, hu₀, hleg₀, hlink⟩
    · obtain ⟨u₀, hu₀, -, -, hlegs⟩ := hold n' u' hu'
      obtain ⟨leg₀, hleg₀, -, hsame⟩ := hlegs leg hleg
      exact hwaits hopen n' u₀ leg₀ hu₀ hleg₀ (hsame hlegc ▸ hlegc)

lemma confluxCircuitAboutToFree_eq (hc : s.circ c = some circ) :
    s.confluxCircuitAboutToFree c = Except.map (fun t : Pool α => t.setCirc c none)
        (match circ.conflux, circ.confluxPendingNonce with
        | some p, _ => s.linkedCircuitFree c circ p
        | none, some nonce => s.unlinkedCircuitFree c circ nonce
        | none, none => .ok s) := by
  rw [confluxCircuitAboutToFree, hc]
  simp only [deref, bind, Except.bind]
  cases circ.conflux with
  | some p => cases s.linkedCircuitFree c circ p <;> rfl
  | none =>
    cases circ.confluxPendingNonce with
    | some n => cases s.unlinkedCircuitFree c circ n <;> rfl
    | none => rfl

/-- **Freeing a circuit** keeps the invariant, where no other set is linked under its nonce. -/
lemma Inv.free (h : Inv s) (hcalls : s.calls = []) (hcond : NoStaleFree s (.free c)) :
    ∃ t, s.event (.free c) = .ok t ∧ Inv t ∧ (Nonces s → Nonces t) := by
  rw [event]
  split
  · next hguard =>
      obtain ⟨circ, hc, hguard⟩ := any_eq_true _ _ |>.mp hguard
      replace hguard : s.shuttingDown = true ∨ circ.markedForClose = true := by simpa using hguard
      rw [confluxCircuitAboutToFree_eq hc]
      split
      · next p _ hconflux =>
          obtain ⟨t, ht, hclient, hunlinked, hinv⟩ := h.freeLinked hcalls hc hguard hconflux hcond
          rw [ht]
          exact ⟨_, rfl, hinv, fun hn => hn.of_same hclient hcalls hunlinked⟩
      · next n hconflux hpend =>
          obtain ⟨t, ht, hrest⟩ := h.freeUnlinked hcalls hc hguard hconflux hpend
          rw [ht]
          exact ⟨_, rfl, hrest⟩
      · next hconflux hpend =>
          refine ⟨_, rfl, ((h.quiet hcalls).setCirc_none
            (h.sets.not_leg fun circ' hc' => some.inj (hc.symm.trans hc') ▸ hconflux)
            fun hopen n u leg hu hleg hlegc => ?_).inv_nil hcalls
            fun hr n => h.calls.relay_nil hr hcalls, fun hn => hn.of_same rfl hcalls rfl⟩
          obtain ⟨circ', hc', hpend', -⟩ := h.sets.waiting_circ hopen hu hleg hlegc
          obtain rfl := some.inj (hc.symm.trans hc')
          rw [hpend] at hpend'
          cases hpend'
  · exact ⟨s, rfl, h, id⟩

/-! ## Linking -/

lemma Quiet.not_full (h : Quiet s) (hshut : s.shuttingDown = false)
    (hu : s.unlinkedPool n = some u) (hset : s.cfx u.cfx = some set) :
    set.cfx.inFullTeardown = false := by
  cases hfor : u.isForLinkedSet with
  | false => exact h.own n u set hu hfor hset
  | true =>
    obtain ⟨set₁, hset₁, -, href⟩ := h.sets.unlinked n u hu
    rw [RefersTo, if_pos hfor] at href
    obtain ⟨set₂, hset₂, -, hne⟩ := h.sets.linked n u.cfx href.2
    obtain rfl := some.inj (hset.symm.trans hset₂)
    rw [Bool.eq_false_iff]
    exact fun hfull => hne (h.full hshut u.cfx set hset hfull)

/-- **The legs of an unlinked set have joined.** -/
lemma Quiet.joined (h : Quiet s) (hshut : s.shuttingDown = false)
    (hu : s.unlinkedPool n = some u) (hset : s.cfx u.cfx = some set) (hne : u.waiting ≠ []) :
    Quiet (s.joined n u.cfx
      { set with cfx := u.waiting.foldl cfxAddLeg set.cfx, numLegLaunch := 0 }
      (u.waiting.map Leg.circ)) := by
  have hfull : (u.waiting.foldl cfxAddLeg set.cfx).inFullTeardown = false := by
    rw [inFullTeardown_foldl]
    exact h.not_full hshut hu hset
  refine ⟨h.sets.joinSet hshut hu hset ?_ (fun hnil => hne (map_eq_nil_iff.mp hnil)) rfl
    (confluxGetLeg_foldl set.cfx u.waiting), fun _ q set₁ hq hfull₁ => ?_,
    fun n' u' set₁ hu' hown hq => ?_⟩
  · rw [circ_waiting]
    exact map_circ_waiting (waits_isSome h.sets hshut hu)
  · rcases update_some_eq_some.mp hq with ⟨-, rfl⟩ | ⟨-, hq⟩
    · exact absurd (hfull.symm.trans hfull₁) (by simp)
    · exact h.full hshut q set₁ hq hfull₁
  · obtain ⟨-, hu'⟩ := update_none_eq_some.mp hu'
    rcases update_eq_some.mp hq with ⟨-, heq⟩ | ⟨-, hq⟩
    · obtain rfl := some.inj heq
      exact hfull
    · exact h.own n' u' set₁ hu' hown hq

/-- What `try_finalize_set` leaves. -/
inductive Finalizes (s : Pool α) (n : Nonce) (u : UnlinkedCircuits) : LinkErr → Pool α → Prop where
  | same (err : LinkErr) (h : err = .ok → ¬ u.waiting.all Leg.linked = true) : Finalizes s n u err s
  | invalid : Finalizes s n u .invalidLeg
      (s.call ((u.waiting.map Leg.circ).map .markForClose ++ [.closeLinked n]))
  | joined (set : ConfluxSet α) (hset : s.cfx u.cfx = some set) (hne : u.waiting ≠ []) :
      Finalizes s n u .ok (s.joined n u.cfx
        { set with cfx := u.waiting.foldl cfxAddLeg set.cfx, numLegLaunch := 0 }
        (u.waiting.map Leg.circ))

lemma finalizes (h : Sets s) (hshut : s.shuttingDown = false) (hu : s.unlinkedPool n = some u) :
    s.tryFinalizeSet u = .error .wrongSet ∧ (∃ leg ∈ u.waiting, n ≠ leg.link.nonce)
      ∨ ∃ err t, s.tryFinalizeSet u = .ok (err, t) ∧ Finalizes s n u err t := by
  obtain ⟨set, hset, hn, -⟩ := h.unlinked n u hu
  rw [tryFinalizeSet_eq (h.leg_circs hshut hu) hu hset hn]
  cases hresult : Conflux.tryFinalizeSet s.maxLegsSet set.cfx u.waiting with
  | missingLeg | tooManyLegs => exact .inr ⟨_, _, rfl, .same _ fun hok => by cases hok⟩
  | invalidLegs => exact .inr ⟨_, _, rfl, .invalid⟩
  | waiting =>
    refine .inr ⟨_, _, rfl, .same _ fun _ hall => ?_⟩
    rw [Conflux.tryFinalizeSet] at hresult
    split_ifs at hresult
  | linked cfx =>
    obtain ⟨hne, -, -, -, rfl⟩ := tryFinalizeSet_linked hresult
    simp only
    split
    · next hany =>
        obtain ⟨leg, hleg, hno⟩ := any_eq_true.mp hany
        exact .inl ⟨rfl, leg, hleg, of_decide_eq_true hno⟩
    · exact .inr ⟨_, _, rfl, .joined set hset hne⟩

lemma Quiet.finalizes {err : LinkErr} {later : List Call} (h : Quiet s)
    (hshut : s.shuttingDown = false) (hcalls : s.calls = []) (hu : s.unlinkedPool n = some u)
    (hfin : Finalizes s n u err t) (hc : s.circ c = some circ)
    (hlater : later = [] ∨ later = [.markForClose c])
    (hrelay : s.isClient = false → (∀ n', n' ≠ n → s.unlinkedPool n' = none)
      ∧ u.legs.map PendingLeg.circ = [some c] ∧ u.waiting.all Leg.linked = true
      ∧ (err ≠ .ok → later = [.markForClose c])) :
    Inv { t with calls := t.calls ++ later } := by
  have hhere : ∀ n' u', s.isClient = false → s.unlinkedPool n' = some u' → u' = u := by
    intro n' u' hr hu'
    by_cases hn : n' = n
    · subst hn
      exact some.inj (hu'.symm.trans hu)
    · rw [(hrelay hr).1 n' hn] at hu'
      cases hu'
  have hcloses : ∀ {x : Pool α} call, (∃ circ, x.circ c = some circ) → call ∈ later →
      Closes x call := by
    rintro x call ⟨circ', hc'⟩ hmem
    rcases hlater with rfl | rfl
    · exact absurd hmem not_mem_nil
    · exact .inr ⟨c, circ', mem_singleton.mp hmem, hc'⟩
  cases hfin with
  | same err hno =>
    refine Quiet.inv ⟨h.sets.setCalls _, h.full, h.own⟩
      (fun hs => absurd (hshut.symm.trans hs) (by simp)) (fun call hmem => ?_)
      fun hr n' u' hu' => ?_
    · rw [hcalls] at hmem
      exact hcloses call ⟨circ, hc⟩ hmem
    · obtain ⟨-, hlegs, hall, hlate⟩ := hrelay hr
      obtain rfl := hhere n' u' hr hu'
      refine ⟨c, ?_, hlegs⟩
      rw [hcalls, hlate fun hok => hno hok hall]
      rfl
  | invalid =>
    have hlegcs : ∀ d ∈ u.waiting.map Leg.circ, ∃ circ, s.circ d = some circ := by
      intro d hd
      rw [circ_waiting] at hd
      obtain ⟨leg, hleg, hlegd⟩ := mem_filterMap.mp hd
      obtain ⟨d', circ', hd', hcirc', -⟩ := (h.sets.waits hshut n u hu).2 leg hleg
      obtain rfl : d' = d := some.inj (hd'.symm.trans hlegd)
      exact ⟨circ', hcirc'⟩
    refine Quiet.inv ⟨h.sets.setCalls _, h.full, h.own⟩
      (fun hs => absurd (hshut.symm.trans hs) (by simp)) (fun call hmem => ?_)
      fun hr n' u' hu' => ?_
    · rcases mem_append.mp hmem with hmem | hmem
      · rw [Pool.call, hcalls, append_nil] at hmem
        rcases mem_append.mp hmem with hmem | hmem
        · obtain ⟨d, hd, rfl⟩ := mem_map.mp hmem
          obtain ⟨circ', hcirc'⟩ := hlegcs d hd
          exact .inr ⟨d, circ', rfl, hcirc'⟩
        · exact .inl ⟨n, mem_singleton.mp hmem⟩
      · exact hcloses call ⟨circ, hc⟩ hmem
    · obtain ⟨-, hlegs, -⟩ := hrelay hr
      obtain rfl := hhere n' u' hr hu'
      refine ⟨c, ?_, hlegs⟩
      have hwaiting : u'.waiting.map Leg.circ = [c] := by
        rw [circ_waiting]
        have hsome := map_circ_waiting (waits_isSome h.sets hshut hu)
        rw [hlegs] at hsome
        exact map_injective_iff.mpr (some_injective ℕ) hsome.symm
      rw [Pool.call, hcalls, hwaiting]
      rfl
  | joined set hset hne =>
    have hquiet := h.joined hshut hu hset hne
    refine Quiet.inv ⟨hquiet.sets.setCalls _, hquiet.full, hquiet.own⟩
      (fun hs => absurd (hshut.symm.trans hs) (by simp)) (fun call hmem => ?_)
      fun hr n' u' hu' => ?_
    · have hmem' : call ∈ s.calls ++ later := hmem
      rw [hcalls] at hmem'
      refine hcloses call ?_ hmem'
      show ∃ circ', (if c ∈ u.waiting.map Leg.circ then (s.circ c).map _ else s.circ c) = some circ'
      rw [hc]
      split
      · exact ⟨_, rfl⟩
      · exact ⟨circ, rfl⟩
    · obtain ⟨hn, hu'⟩ := update_none_eq_some.mp hu'
      rw [(hrelay hr).1 n' hn] at hu'
      cases hu'

lemma waiting_of_one (hu : u.legs = []) (link : LinkCell Nonce) (linked : Bool) :
    UnlinkedCircuits.waiting { u with legs := u.legs ++ [⟨some c, link, linked⟩] }
      = [⟨c, link, linked⟩] := by
  rw [UnlinkedCircuits.waiting, hu]
  rfl

lemma Quiet.addLinkLeg (h : Quiet s) (hclient : s.isClient = false)
    (hnone : ∀ n, s.unlinkedPool n = none) (hc : s.circ c = some circ)
    (hpend : circ.confluxPendingNonce = none) (hconflux : circ.conflux = none)
    (hmarked : circ.markedForClose = false) (link : LinkCell Nonce) :
    ∃ u y, s.unlinkedGetOrCreate link.nonce = (u, y)
      ∧ y.calls = s.calls ∧ y.shuttingDown = s.shuttingDown ∧ y.isClient = false
      ∧ u.legs = [] ∧ (∃ set, y.cfx u.cfx = some set)
      ∧ (∀ n, n ≠ link.nonce → y.unlinkedPool n = none)
      ∧ ∀ linked, Quiet ((y.setCirc c (some { circ with
          confluxPendingNonce := some link.nonce })).setUnlinked link.nonce
          (some { u with legs := u.legs ++ [⟨some c, link, linked⟩] })) := by
  obtain ⟨hu, hsets⟩ := h.sets.unlinkedGetOrCreate (n := link.nonce) fun _ hc =>
    absurd (hclient.symm.trans hc) (by simp)
  have hcreated := created s link.nonce
  obtain ⟨u, y, hy⟩ : ∃ u y, s.unlinkedGetOrCreate link.nonce = (u, y) := ⟨_, _, rfl⟩
  rw [hy] at hu hsets hcreated
  obtain ⟨set, hset, -, -⟩ := hsets.unlinked _ u hu
  obtain ⟨-, hnil, hnew⟩ := hcreated.here.resolve_left fun hno =>
    absurd ((hnone link.nonce).symm.trans hno) (by simp)
  have hothers : ∀ n, n ≠ link.nonce → y.unlinkedPool n = none := fun n hn =>
    (hcreated.others n hn).trans (hnone n)
  have hyclient : y.isClient = false := hcreated.isClient.trans hclient
  have hyc : y.circ c = some circ := hcreated.circ ▸ hc
  refine ⟨u, y, hy, hcreated.calls, hcreated.shuttingDown, hyclient, hnil, ⟨set, hset⟩, hothers,
    fun linked => ?_⟩
  have hwait : Sets (y.setCirc c (some { circ with confluxPendingNonce := some link.nonce })) := by
    refine hsets.setCirc_free (o := some _) (m := y.nextCirc)
      (hsets.not_leg fun circ' hc' => some.inj (hyc.symm.trans hc') ▸ hconflux)
      (fun hshut n u' leg hu' hleg hlegc => ?_) (fun circ' ho => ?_) le_rfl fun _ => hsets.circ_lt hyc
    · obtain ⟨circ', hc', hpend', -⟩ := hsets.waiting_circ hshut hu' hleg hlegc
      obtain rfl := some.inj (hyc.symm.trans hc')
      rw [hpend] at hpend'
      cases hpend'
    · obtain rfl := some.inj ho
      exact ⟨hconflux, fun hno => absurd (hyclient.symm.trans hno) (by simp)⟩
  refine ⟨hwait.addLeg (c := c) ⟨some c, link, linked⟩ hu rfl (update_self _ _ _)
    rfl hconflux hmarked fun leg hleg => ?_, fun hshut q set₁ hq hfull => ?_,
    fun n u' set₁ hu' hown hq => ?_⟩
  · rw [hnil] at hleg
    exact absurd hleg not_mem_nil
  · rcases hcreated.cfx q set₁ hq with hq | rfl
    · exact h.full (hcreated.shuttingDown.symm.trans hshut) q set₁ hq hfull
    · cases hfull
  · rcases update_some_eq_some.mp hu' with ⟨rfl, rfl⟩ | ⟨hn, hu'⟩
    · obtain rfl := some.inj ((hnew hown).symm.trans hq)
      rfl
    · exact absurd ((hothers n hn).symm.trans hu') (by simp)

lemma linkCircuit_eq (hc : s.circ c = some circ) (hpend : circ.confluxPendingNonce = some n)
    (hu : s.unlinkedPool n = some u) (hfind : (legFind u c).isSome = true) :
    s.linkCircuit c = tryFinalizeSet (s.setUnlinked n (some { u with
          legs := modifyLeg c (fun leg => { leg with linked := true }) u.legs }))
        { u with legs := modifyLeg c (fun leg => { leg with linked := true }) u.legs } := by
  have hfind' : ¬ (legFind u c).isNone = true := by
    rw [isNone_eq_false_iff.mpr hfind]
    exact Bool.false_ne_true
  rw [linkCircuit, hc]
  simp only [deref, bind, Except.bind, hpend, hu, if_neg hfind']

/-- What `conflux_process_link` does: it closes the circuit, or links a circuit that was in no set,
as the one leg of the unlinked set `u`. -/
lemma confluxProcessLink_cases (cell : Option (LinkCell Nonce)) (enabled validHop sent : Bool)
    (hc : s.circ c = some circ) :
    s.confluxProcessLink c cell enabled validHop sent = .ok (s.callLater (.markForClose c))
      ∨ s.isClient = false ∧ circ.confluxPendingNonce = none ∧ circ.conflux = none
        ∧ ∃ link, cell = some link ∧ ∀ u y set, s.unlinkedGetOrCreate link.nonce = (u, y) →
          u.legs = [] → y.cfx u.cfx = some set →
          s.confluxProcessLink c cell enabled validHop sent
            = Except.map (fun r : LinkErr × Pool α =>
                if r.1 ≠ .ok ∨ sent = false then r.2.callLater (.markForClose c) else r.2)
              (((y.setCirc c (some { circ with
                  confluxPendingNonce := some link.nonce })).setUnlinked link.nonce
                (some { u with legs := u.legs ++ [⟨some c, link, true⟩] })).tryFinalizeSet
                  { u with legs := u.legs ++ [⟨some c, link, true⟩] }) := by
  rw [confluxProcessLink, hc]
  simp only [deref, bind, Except.bind]
  split
  · exact .inl rfl
  next hno =>
  simp only [not_or, not_eq_true, isSome_eq_false_iff, isNone_iff_eq_none] at hno
  cases cell with
  | none => exact .inl rfl
  | some link =>
    refine .inr ⟨hno.2.1, hno.2.2.2.1, hno.2.2.2.2, link, rfl, fun u y set hy hnil hset => ?_⟩
    have hlink : linkCircuit ((y.setUnlinked link.nonce (some { u with
          legs := u.legs ++ [⟨some c, link, false⟩] })).setCirc c (some { circ with
          confluxPendingNonce := some link.nonce })) c
        = ((y.setCirc c (some { circ with
            confluxPendingNonce := some link.nonce })).setUnlinked link.nonce
            (some { u with legs := u.legs ++ [⟨some c, link, true⟩] })).tryFinalizeSet
            { u with legs := u.legs ++ [⟨some c, link, true⟩] } := by
      rw [linkCircuit_eq (n := link.nonce) (u := { u with
          legs := u.legs ++ [⟨some c, link, false⟩] }) (update_self _ _ _) rfl
        (update_self _ _ _) (by simp [legFind, hnil]), setUnlinked, setUnlinked,
        setCirc, setUnlinked, setCirc, update_idem, hnil]
      simp only [nil_append, modifyLeg, if_pos]
    have hset' : ((y.setUnlinked link.nonce (some { u with
          legs := u.legs ++ [⟨some c, link, false⟩] })).setCirc c (some { circ with
          confluxPendingNonce := some link.nonce })).cfx u.cfx = some set := hset
    simp only
    rw [hy]
    rw [hset']
    rw [hlink]
    cases Pool.tryFinalizeSet _ _ with
    | error fault => rfl
    | ok r =>
      simp only [Except.map, not_eq_true]
      rfl

/-- **`conflux_process_link`** keeps the invariant. -/
lemma Inv.link (c : ℕ) (cell : Option (LinkCell Nonce)) (enabled validHop sent : Bool) (h : Inv s)
    (hcalls : s.calls = []) :
    ∃ t, s.event (.link c cell enabled validHop sent) = .ok t ∧ Inv t ∧ (Nonces s → Nonces t) := by
  rw [event]
  split
  · exact ⟨s, rfl, h, id⟩
  next hno =>
  simp only [not_or, not_eq_true, not_eq_false] at hno
  obtain ⟨hshut, hopen⟩ := hno
  obtain ⟨circ, hc, hmarked⟩ := any_eq_true _ _ |>.mp hopen
  replace hmarked : circ.markedForClose = false := by simpa using hmarked
  have hquiet := h.quiet hcalls
  rcases confluxProcessLink_cases cell enabled validHop sent hc with
    heq | ⟨hclient, hpend, hconflux, link, -, heq⟩
  · rw [heq, callLater, hcalls]
    refine ⟨_, rfl, hquiet.close hshut hc fun hr n u hu => ?_, fun hn => hn.of_same rfl hcalls rfl⟩
    rw [h.calls.relay_nil hr hcalls] at hu
    cases hu
  · obtain ⟨u, y, hy, hycalls, hyshut, hyclient, hnil, ⟨set, hset⟩, hothers, hyquiet⟩ :=
      hquiet.addLinkLeg hclient (fun n => h.calls.relay_nil hclient hcalls) hc hpend hconflux
        hmarked link
    rw [heq u y set hy hnil hset]
    set z : Pool α := (y.setCirc c (some { circ with
      confluxPendingNonce := some link.nonce })).setUnlinked link.nonce
        (some { u with legs := u.legs ++ [⟨some c, link, true⟩] }) with hz
    have hzu : z.unlinkedPool link.nonce = some { u with
      legs := u.legs ++ [⟨some c, link, true⟩] } := update_self _ _ _
    have hzshut : z.shuttingDown = false := hyshut.trans hshut
    rcases finalizes (hyquiet true).sets hzshut hzu with ⟨-, leg, hleg, hno⟩ | ⟨err, t, ht, hfin⟩
    · rw [waiting_of_one hnil, mem_singleton] at hleg
      rw [hleg] at hno
      exact absurd rfl hno
    · rw [ht]
      refine ⟨_, rfl, ?_, fun hn => absurd (hclient.symm.trans hn.isClient) (by simp)⟩
      have hinv : ∀ later, later = [] ∨ later = [.markForClose c] →
          (err ≠ .ok → later = [.markForClose c]) → Inv { t with calls := t.calls ++ later } := by
        intro later hlater hlate
        refine (hyquiet true).finalizes hzshut (hycalls.trans hcalls) hzu hfin
          (update_self _ _ _) hlater fun _ => ⟨fun n hn => ?_, ?_, ?_, hlate⟩
        · exact (update_of_ne hn _ _).trans (hothers n hn)
        · rw [hnil]
          rfl
        · rw [waiting_of_one hnil]
          rfl
      simp only
      split
      · exact hinv _ (.inr rfl) fun _ => rfl
      · next hno =>
          have hsame := hinv [] (.inl rfl) fun herr => absurd (.inl herr) hno
          rwa [append_nil] at hsame

/-- A LINKED cell passes what `conflux_process_linked` checks before it looks at the time that the
leg took: `n` is the nonce of the circuit, and `u` its unlinked set. -/
structure Receives (s : Pool α) (c : ℕ) (link : LinkCell Nonce) (enabled validHop : Bool)
    (n : Nonce) (u : UnlinkedCircuits) : Prop where
  enabled : enabled = true
  validHop : validHop = true
  isClient : s.isClient = true
  circ : ∃ circ, s.circ c = some circ ∧ circ.confluxPendingNonce = some n ∧ circ.conflux = none
  nonce : torMemneq link.nonce n sizeofNonceElement = false
  unlinked : s.unlinkedPool n = some u
  leg : (legFind u c).isSome = true

/-- The set with the cell stored in the leg of the circuit. -/
def storeLink (u : UnlinkedCircuits) (c : ℕ) (link : LinkCell Nonce) : UnlinkedCircuits :=
  { u with legs := modifyLeg c (fun leg => { leg with link }) u.legs }

/-- The set with the leg of the circuit linked, as the cell says. -/
def acceptLink (u : UnlinkedCircuits) (c : ℕ) (link : LinkCell Nonce) : UnlinkedCircuits :=
  { u with legs := modifyLeg c (fun leg => { leg with link, linked := true }) u.legs }

lemma map_circ_modifyLeg (hf : ∀ leg, (f leg).circ = leg.circ)
    (c : ℕ) (legs : List PendingLeg) :
    (modifyLeg c f legs).map PendingLeg.circ = legs.map PendingLeg.circ := by
  induction legs with
  | nil => rfl
  | cons leg legs ih =>
    rw [modifyLeg]
    split
    · rw [map_cons, map_cons, hf]
    · rw [map_cons, map_cons, ih]

lemma modifyLeg_modifyLeg {f g : PendingLeg → PendingLeg} (hf : ∀ leg, (f leg).circ = leg.circ)
    (c : ℕ) (legs : List PendingLeg) :
    modifyLeg c g (modifyLeg c f legs) = modifyLeg c (fun leg => g (f leg)) legs := by
  induction legs with
  | nil => rfl
  | cons leg legs ih =>
    rw [modifyLeg, modifyLeg]
    by_cases hc : leg.circ = some c
    · rw [if_pos hc, if_pos hc, modifyLeg, if_pos ((hf leg).trans hc)]
    · rw [if_neg hc, if_neg hc, modifyLeg, if_neg hc, ih]

lemma map_circ_storeLink (u : UnlinkedCircuits) (c : ℕ) (link : LinkCell Nonce) :
    (storeLink u c link).legs.map PendingLeg.circ = u.legs.map PendingLeg.circ :=
  map_circ_modifyLeg (f := fun leg => { leg with link }) (fun _ => rfl) c u.legs

lemma map_circ_acceptLink (u : UnlinkedCircuits) (c : ℕ) (link : LinkCell Nonce) :
    (acceptLink u c link).legs.map PendingLeg.circ = u.legs.map PendingLeg.circ :=
  map_circ_modifyLeg (f := fun leg => { leg with link, linked := true }) (fun _ => rfl) c u.legs

lemma linked_storeLink (u : UnlinkedCircuits) (c : ℕ) (link : LinkCell Nonce) :
    { storeLink u c link with
      legs := modifyLeg c (fun leg => { leg with linked := true }) (storeLink u c link).legs }
      = acceptLink u c link :=
  congrArg (UnlinkedCircuits.mk u.isForLinkedSet u.cfx)
    (modifyLeg_modifyLeg (f := fun leg => { leg with link }) (fun _ => rfl) c u.legs)

lemma legFind_isSome : (legFind u c).isSome = true ↔ some c ∈ u.legs.map PendingLeg.circ := by
  rw [legFind, find?_isSome, List.mem_map]
  simp

lemma Quiet.setLegs (u' : UnlinkedCircuits) (h : Quiet s) (hu : s.unlinkedPool n = some u)
    (hcfx : u'.cfx = u.cfx) (hfor : u'.isForLinkedSet = u.isForLinkedSet)
    (hcircs : u'.legs.map PendingLeg.circ = u.legs.map PendingLeg.circ) :
    Quiet (s.setUnlinked n (some u')) := by
  have heq : u' = { u with legs := u'.legs } := by
    rw [← hcfx, ← hfor]
  have hsets : Sets (s.setUnlinked n (some u')) := by
    rw [heq]
    refine h.sets.setLegs hu fun hshut => ?_
    obtain ⟨hnodup, hlegs⟩ := h.sets.waits hshut n u hu
    refine ⟨hcircs ▸ hnodup, fun leg hleg => ?_⟩
    have hmem : leg.circ ∈ u.legs.map PendingLeg.circ := hcircs ▸ mem_map_of_mem hleg
    obtain ⟨leg₀, hleg₀, hlegc⟩ := mem_map.mp hmem
    rw [Waits, ← hlegc]
    exact hlegs leg₀ hleg₀
  refine ⟨hsets, h.full, fun n' u₁ set hu₁ hown hq => ?_⟩
  rcases update_eq_some.mp hu₁ with ⟨rfl, heq₁⟩ | ⟨-, hu₁⟩
  · obtain rfl := some.inj heq₁
    exact h.own n' u set hu (hfor ▸ hown) (hcfx ▸ hq)
  · exact h.own n' u₁ set hu₁ hown hq

lemma Receives.confluxProcessLinked {link : LinkCell Nonce} {enabled validHop : Bool}
    (h : s.Receives c link enabled validHop n u) (rttOk sent : Bool) :
    s.confluxProcessLinked c (some link) enabled validHop rttOk sent = if rttOk = false then
          .ok ((s.setUnlinked n (some (storeLink u c link))).callLater (.markForClose c))
        else Except.map (fun r : LinkErr × Pool α =>
            if r.1 = .missingLeg ∨ sent = false then r.2.callLater (.markForClose c) else r.2)
          (tryFinalizeSet (s.setUnlinked n (some (acceptLink u c link)))
            (acceptLink u c link)) := by
  obtain ⟨circ, hc, hpend, hconflux⟩ := h.circ
  have hguard : ¬ (¬ enabled = true ∨ ¬ s.isClient = true ∨ circ.conflux.isSome = true
      ∨ ¬ validHop = true ∨ torMemneq link.nonce n sizeofNonceElement = true) := by
    rw [h.enabled, h.isClient, h.validHop, hconflux, h.nonce]
    simp
  have hfind : ¬ (legFind u c).isNone = true := by
    rw [isNone_eq_false_iff.mpr h.leg]
    exact Bool.false_ne_true
  rw [Pool.confluxProcessLinked, hc]
  simp only [deref, bind, Except.bind, hpend, h.unlinked]
  rw [if_neg hguard, if_neg hfind]
  cases rttOk with
  | false => rfl
  | true =>
    have hlink : linkCircuit (s.setUnlinked n (some (storeLink u c link))) c
        = tryFinalizeSet (s.setUnlinked n (some (acceptLink u c link)))
          (acceptLink u c link) := by
      have hstored : (legFind (storeLink u c link) c).isSome = true := by
        rw [legFind_isSome, map_circ_storeLink, ← legFind_isSome]
        exact h.leg
      rw [linkCircuit_eq (s := s.setUnlinked n (some (storeLink u c link))) hc hpend
        (update_self _ _ _) hstored, linked_storeLink, setUnlinked, setUnlinked,
        update_idem]
      rfl
    rw [← storeLink, hlink]
    cases tryFinalizeSet (s.setUnlinked n (some (acceptLink u c link)))
      (acceptLink u c link) with
    | error e => rfl
    | ok r =>
      simp only [Except.map, not_eq_true]
      rfl

lemma confluxProcessLinked_cases (s : Pool α) (c : ℕ) (cell : Option (LinkCell Nonce))
    (enabled validHop rttOk sent : Bool) (hc : s.circ c = some circ) :
    s.confluxProcessLinked c cell enabled validHop rttOk sent = .ok (s.callLater (.markForClose c))
      ∨ ∃ link n u, cell = some link ∧ s.Receives c link enabled validHop n u := by
  rw [confluxProcessLinked, hc]
  simp only [deref, bind, Except.bind]
  split
  · next n link hpend =>
      split
      · exact .inl rfl
      next hguard =>
      simp only [not_or, not_eq_true, not_eq_false, isSome_eq_false_iff,
        isNone_iff_eq_none] at hguard
      obtain ⟨henabled, hclient, hconflux, hhop, hnonce⟩ := hguard
      split
      · exact .inl rfl
      next u hu =>
      split
      · exact .inl rfl
      next hfind =>
      rw [not_eq_true, isNone_eq_false_iff] at hfind
      exact .inr ⟨link, n, u, rfl, henabled, hhop, hclient, ⟨circ, hc, hpend, hconflux⟩,
        hnonce, hu, hfind⟩
  · exact .inl rfl

/-- **`conflux_process_linked`** keeps the invariant, or the assertion on the nonce fails. -/
lemma Inv.linked (c : ℕ) (cell : Option (LinkCell Nonce))
    (enabled validHop rttOk sent : Bool) (h : Inv s) (hcalls : s.calls = []) :
    s.event (.linked c cell enabled validHop rttOk sent) = .error .wrongSet
      ∨ ∃ t, s.event (.linked c cell enabled validHop rttOk sent) = .ok t ∧ Inv t := by
  rw [event]
  split
  · exact .inr ⟨s, rfl, h⟩
  next hno =>
  simp only [not_or, not_eq_true, not_eq_false] at hno
  obtain ⟨hshut, hopen⟩ := hno
  obtain ⟨circ, hc, -⟩ := any_eq_true _ _ |>.mp hopen
  have hquiet := h.quiet hcalls
  rcases confluxProcessLinked_cases s c cell enabled validHop rttOk sent hc with
    heq | ⟨link, n, u, rfl, hreceives⟩
  · rw [heq, callLater, hcalls]
    refine .inr ⟨_, rfl, hquiet.close hshut hc fun hr n u hu => ?_⟩
    rw [h.calls.relay_nil hr hcalls] at hu
    cases hu
  · have hu := hreceives.unlinked
    have hclient := hreceives.isClient
    have hnorelay : s.isClient = false → False := fun hr =>
      absurd (hclient.symm.trans hr) (by simp)
    rw [hreceives.confluxProcessLinked]
    split
    · have hstored := hquiet.setLegs (storeLink u c link) hu rfl rfl
        (map_circ_storeLink u c link)
      refine .inr ⟨_, rfl, ?_⟩
      rw [callLater, show (s.setUnlinked n (some (storeLink u c link))).calls = [] from hcalls]
      exact hstored.close hshut hc fun hr => absurd hr hnorelay
    · have haccepted := hquiet.setLegs (acceptLink u c link) hu rfl rfl
        (map_circ_acceptLink u c link)
      have hz : (s.setUnlinked n (some (acceptLink u c link))).unlinkedPool n
        = some (acceptLink u c link) := update_self _ _ _
      rcases finalizes haccepted.sets hshut hz with ⟨hfault, -⟩ | ⟨err, t, ht, hfin⟩
      · rw [hfault]
        exact .inl rfl
      · rw [ht]
        have hinv : ∀ later, later = [] ∨ later = [.markForClose c] →
            Inv { t with calls := t.calls ++ later } := fun later hlater =>
          haccepted.finalizes hshut hcalls hz hfin hc hlater fun hr => absurd hr hnorelay
        refine .inr ⟨_, rfl, ?_⟩
        simp only
        split
        · exact hinv _ (.inr rfl)
        · have hsame := hinv [] (.inl rfl)
          rwa [append_nil] at hsame

/-! ## A step -/

variable {e : PoolEvent α}

lemma exec_nil (hcalls : s.calls = []) : s.exec e = s.event e := by
  unfold Pool.exec
  rw [hcalls]

lemma exec_runCall {established : Bool} (hcalls : s.calls = call :: calls) :
    s.exec (.runCall established) = runCall { s with calls } established call := by
  unfold Pool.exec
  rw [hcalls]

lemma exec_busy (hcalls : s.calls = call :: calls)
    (hne : ∀ established, e ≠ .runCall established) : s.exec e = .ok s := by
  unfold Pool.exec
  rw [hcalls]
  cases e with
  | runCall established => exact absurd rfl (hne established)
  | _ => rfl

/-- **A step keeps the invariant**, where no set of the nonce of a circuit that is freed is lost;
or it is a LINKED cell, and the assertion on its nonce fails. -/
theorem Inv.exec (h : Inv s) (hcond : NoStaleFree s e) :
    (∃ t, s.exec e = .ok t ∧ Inv t ∧ ((∀ c cell enabled validHop rttOk sent,
        e ≠ .linked c cell enabled validHop rttOk sent) → Nonces s → Nonces t))
      ∨ s.exec e = .error .wrongSet ∧ s.calls = [] ∧ ∃ c cell enabled validHop rttOk sent,
        e = .linked c cell enabled validHop rttOk sent := by
  have hweaken : ∀ {r : Except Fault (Pool α)}, (∃ t, r = .ok t ∧ Inv t ∧ (Nonces s → Nonces t)) →
      ∃ t, r = .ok t ∧ Inv t ∧ ((∀ c cell enabled validHop rttOk sent,
        e ≠ .linked c cell enabled validHop rttOk sent) → Nonces s → Nonces t) :=
    fun ⟨t, ht, hinv, hn⟩ => ⟨t, ht, hinv, fun _ => hn⟩
  cases hcalls : s.calls with
  | nil =>
    rw [exec_nil hcalls]
    cases e with
    | createCircuit => exact .inl (hweaken (h.createCircuit hcalls))
    | launchNewSet nonce => exact .inl (hweaken (h.launchNewSet hcalls))
    | link c cell enabled validHop sent =>
      obtain ⟨t, ht, hinv, hn⟩ := h.link c cell enabled validHop sent hcalls
      exact .inl ⟨t, ht, hinv, fun _ => hn⟩
    | linked c cell enabled validHop rttOk sent =>
      rcases h.linked c cell enabled validHop rttOk sent hcalls with hfault | ⟨t, ht, hinv⟩
      · exact .inr ⟨hfault, rfl, c, cell, enabled, validHop, rttOk, sent, rfl⟩
      · exact .inl ⟨t, ht, hinv, fun hno => absurd rfl (hno _ _ _ _ _ _)⟩
    | close c => exact .inl (hweaken (h.close hcalls))
    | free c => exact .inl (hweaken (h.free hcalls hcond))
    | traffic p cfx => exact .inl (hweaken (h.traffic hcalls))
    | inflight c inflight => exact .inl (hweaken (h.inflight hcalls))
    | newParams maxLegsSet numLegsSet maxUnlinkedLegRetry =>
      exact .inl (hweaken (h.newParams hcalls))
    | notifyShutdown => exact .inl (hweaken (h.notifyShutdown hcalls))
    | runCall established => exact .inl ⟨s, rfl, h, fun _ => id⟩
  | cons call calls =>
    by_cases hrun : ∃ established, e = .runCall established
    · obtain ⟨established, rfl⟩ := hrun
      rw [exec_runCall hcalls]
      cases call with
      | markForClose c => exact .inl (hweaken (h.markForClose hcalls))
      | closeLinked nonce => exact .inl (hweaken (h.closeLinked hcalls))
      | launchLeg nonce =>
        obtain ⟨launched, t, ht, hinv, hn, -⟩ := h.launchLeg hcalls rfl established
        refine .inl (hweaken ⟨t, ?_, hinv, hn⟩)
        rw [runCall, ht]
        rfl
      | launchMore nonce numLegs => exact .inl (hweaken (h.launchMore hcalls established))
    · refine .inl ⟨s, exec_busy hcalls fun established heq => ?_, h, fun _ => id⟩
      exact hrun ⟨established, heq⟩

end Ator.Conflux.Pool
