import AtorProtocol.Conflux.PoolEvents

/-!
# What is registered in the pools

Whether the sets that have legs are in the linked pool, in the runs of one side.

* `Registered`, `TeardownReaches`, `NeverStops` — what the pools are for.
* `registered_iff` — the runs in which that holds all along.
* `noStaleFree_of_client` — a client's runs are among them.
-/

namespace Ator.Conflux.Pool

open Option

variable {α : Type} {s t : Pool α} {c p q : ℕ} {circ : PoolCircuit} {set : ConfluxSet α}
  {e : PoolEvent α} {es : List (PoolEvent α)}

/-- Every set that has a leg is what the linked pool has under its own nonce. -/
def Registered (s : Pool α) : Prop :=
  ∀ p set, s.cfx p = some set → ¬ set.Empty → s.linkedPool set.nonce = some p

/-- A full teardown of the nonce of a set closes every leg of it, unless that is under way. -/
def TeardownReaches (s : Pool α) : Prop :=
  s.shuttingDown = false → ∀ p set c, s.cfx p = some set → set.HasLeg c →
    .markForClose c ∈ s.calls
      ∨ ∃ t, s.closeLinked set.nonce = .ok t ∧ .markForClose c ∈ t.calls

/-- No event stops the program, a LINKED cell apart. -/
def NeverStops (s : Pool α) : Prop :=
  ∀ e fault, s.exec e = .error fault → ∃ c cell enabled validHop rttOk sent,
    e = .linked c cell enabled validHop rttOk sent

/-! ## The invariant says so -/

lemma Inv.teardownReaches (h : Inv s) : TeardownReaches s := by
  intro hshut p set c hset hleg
  cases hfull : set.cfx.inFullTeardown with
  | true => exact Or.inl (h.calls.teardown hshut p set c hset hfull hleg)
  | false =>
    refine Or.inr ⟨(s.setCfx p (some { set with
      cfx := { set.cfx with inFullTeardown := true } })).call
        ((set.cfx.legs.entries.map Prod.fst).map .markForClose), ?_, ?_⟩
    · rw [Pool.closeLinked, h.sets.registered p set hset fun he => he c hleg]
      simp only [deref, hset, bind, Except.bind, hfull, Bool.false_eq_true, if_false]
      rfl
    · exact List.mem_append_left _ (List.mem_map_of_mem (hasLeg_iff.mp hleg))

/-- **An old circuit is freed** while another set is linked under the nonce: that set is lost. -/
lemma Inv.staleFree (h : Inv s) (hcond : ¬ NoStaleFree s e) :
    ∃ t, s.exec e = .ok t ∧ ¬ Registered t := by
  cases e with
  | free c =>
    simp only [NoStaleFree, not_forall] at hcond
    obtain ⟨circ, p, set, q, hcalls, hc, hguard, hconflux, hset, hq, hne⟩ := hcond
    obtain ⟨-, set₁, hset₁, hleg⟩ := h.sets.holds c circ p hc hconflux
    obtain rfl := some.inj (hset.symm.trans hset₁)
    have hkept : s.Kept p set c := by
      refine hleg.resolve_left fun hleg => hne ?_
      have hreg := h.sets.registered p set hset fun he => he c hleg
      exact some.inj (hq.symm.trans hreg)
    have hrelay : s.isClient = false := by
      rw [Bool.eq_false_iff]
      intro hclient
      rw [(hkept.2.2.2.2 hclient).2] at hq
      cases hq
    have hnone : s.unlinkedPool set.nonce = none := h.calls.relay_nil hrelay hcalls
    obtain ⟨cfx, hcfx, hlegs, hfree⟩ := linkedCircuitFree_eq hset hnone
      fun hclient => absurd (hrelay.symm.trans hclient) (by simp)
    have hzero : cfx.numLegs = 0 := hcfx.mpr fun d hd => hkept.1 d ((hlegs d).mp hd).1
    have hany : (s.circ c).any (fun circ => s.shuttingDown ∨ circ.markedForClose) = true := by
      rw [hc, Option.any_some]
      exact decide_eq_true hguard
    rw [exec_nil hcalls, event, if_pos hany, confluxCircuitAboutToFree_eq hc, hconflux]
    simp only
    rw [hfree, if_neg (by omega)]
    refine ⟨_, rfl, fun hreg => ?_⟩
    obtain ⟨set₂, hset₂, hn, hempty⟩ := h.sets.linked set.nonce q hq
    have hlost := hreg q set₂ ?_ hempty
    · rw [hn] at hlost
      have hnil : Function.update s.linkedPool set.nonce none set.nonce = some q := hlost
      rw [Function.update_self] at hnil
      cases hnil
    · show Function.update (Function.update s.cfx p _) p none q = some set₂
      rw [Function.update_of_ne hne, Function.update_of_ne hne]
      exact hset₂
  | _ => exact absurd trivial hcond

lemma Inv.neverStops (h : Inv s) : NeverStops s := by
  intro e fault hfault
  by_cases hcond : NoStaleFree s e
  · rcases h.exec hcond with ⟨t, ht, -⟩ | ⟨-, -, hlinked⟩
    · rw [ht] at hfault
      cases hfault
    · exact hlinked
  · obtain ⟨t, ht, -⟩ := h.staleFree hcond
    rw [ht] at hfault
    cases hfault

lemma inv_init (isClient : Bool) (maxLegsSet numLegsSet maxUnlinkedLegRetry : ℕ) :
    Inv (init isClient maxLegsSet numLegsSet maxUnlinkedLegRetry : Pool α) := by
  refine ⟨⟨fun _ _ => rfl, fun _ _ => rfl, ?_, ?_, ?_, ?_, ?_, ?_, ?_⟩, ⟨?_, ?_, ?_, ?_, ?_, ?_, ?_⟩⟩
  all_goals simp [init]

lemma Inv.of_step (h : Inv s) (hcond : NoStaleFree s e) (hstep : step s e = some t) : Inv t := by
  rcases h.exec hcond with ⟨t', ht, hinv, -⟩ | ⟨hfault, -⟩
  · rw [step, ht] at hstep
    exact some.inj hstep ▸ hinv
  · rw [step, hfault] at hstep
    cases hstep

/-- A client launches a set with a new nonce, so no other set is linked under the nonce of a circuit
that is freed. -/
theorem noStaleFree_of_client (h : Inv s) (hclient : s.isClient = true) : NoStaleFree s e := by
  cases e with
  | free c =>
    intro circ p set q _ hc _ hconflux hset hq
    obtain ⟨-, set₁, hset₁, hleg⟩ := h.sets.holds c circ p hc hconflux
    obtain rfl := some.inj (hset.symm.trans hset₁)
    rcases hleg with hleg | hkept
    · exact some.inj (hq.symm.trans (h.sets.registered p set hset fun he => he c hleg))
    · rw [(hkept.2.2.2.2 hclient).2] at hq
      cases hq
  | _ => trivial

end Ator.Conflux.Pool
