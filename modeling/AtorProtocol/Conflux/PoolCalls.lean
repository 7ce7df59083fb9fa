import AtorProtocol.Conflux.PoolClosing

/-!
# The calls of a pool

The stack of calls that are to be made, and that making one keeps the invariant of the pools.

* `Calls` — what holds of the stack.
* `Inv` — the invariant; `Nonces` — the nonces of the legs that are not being closed.
-/

namespace Ator.Conflux

open List Function Option

variable {α : Type}

/-- The nonce that a call launches legs for. -/
def Call.launches : Call → Option Nonce
  | .launchLeg nonce => some nonce
  | .launchMore nonce _ => some nonce
  | _ => none

namespace Pool

/-- **The stack of calls.**  Only the next call launches; a relay's unlinked set is there until its
one leg is closed, which is next; and the legs of a set in full teardown are being closed. -/
structure Calls (s : Pool α) : Prop where
  shut : s.shuttingDown = true → s.calls = []
  there : ∀ c, .markForClose c ∈ s.calls → ∃ circ, s.circ c = some circ
  tail : ∀ call ∈ s.calls.tail, call.launches = none
  head : ∀ call ∈ s.calls.head?, ∀ n, call.launches = some n → s.isClient = true
    ∧ (s.unlinkedPool n = none → ∀ p set, s.cfx p = some set → set.nonce ≠ n)
  relay : s.isClient = false → ∀ n u, s.unlinkedPool n = some u →
    ∃ c, s.calls.head? = some (.markForClose c) ∧ u.legs.map PendingLeg.circ = [some c]
  teardown : s.shuttingDown = false → ∀ p set c, s.cfx p = some set →
    set.cfx.inFullTeardown = true → set.HasLeg c → .markForClose c ∈ s.calls
  own : ∀ n u set, s.unlinkedPool n = some u → u.isForLinkedSet = false →
    s.cfx u.cfx = some set → set.cfx.inFullTeardown = false

/-- The invariant of the pools. -/
structure Inv (s : Pool α) : Prop where
  sets : Sets s
  calls : Calls s

/-- A client, whose legs that are not being closed have the nonce of their set. -/
structure Nonces (s : Pool α) : Prop where
  isClient : s.isClient = true
  nonces : ∀ n u leg, s.unlinkedPool n = some u → leg ∈ u.legs →
    leg.link.nonce = n ∨ ∃ c, leg.circ = some c ∧ .markForClose c ∈ s.calls

variable {s t : Pool α} {c p : ℕ} {n : Nonce} {circ circ' : PoolCircuit}
  {set set' : ConfluxSet α} {u : UnlinkedCircuits} {call : Call} {calls pushed : List Call}

lemma Sets.setCalls (h : Sets s) (calls : List Call) : Sets { s with calls } :=
  ⟨h.cfx_fresh, h.circ_fresh, h.linked, h.registered, h.legs, h.holds, h.unlinked, h.waits,
    h.purpose⟩

lemma Calls.not_shut (h : Calls s) (hcalls : s.calls = call :: calls) :
    s.shuttingDown = false := by
  rw [Bool.eq_false_iff]
  intro hshut
  rw [h.shut hshut] at hcalls
  cases hcalls

lemma Calls.relay_nil (h : Calls s) (hrelay : s.isClient = false) (hcalls : s.calls = []) :
    s.unlinkedPool n = none := by
  cases hu : s.unlinkedPool n with
  | none => rfl
  | some u =>
    obtain ⟨c, hhead, -⟩ := h.relay hrelay n u hu
    rw [hcalls] at hhead
    cases hhead

lemma Inv.relay_none (h : Inv s) (hrelay : s.isClient = false)
    (hcalls : s.calls = call :: calls) (hno : ∀ c circ, call = .markForClose c →
      s.circ c = some circ → circ.conflux ≠ none ∨ circ.markedForClose = true) :
    s.unlinkedPool n = none := by
  cases hu : s.unlinkedPool n with
  | none => rfl
  | some u =>
    obtain ⟨c, hhead, hlegs⟩ := h.calls.relay hrelay n u hu
    rw [hcalls] at hhead
    obtain rfl : call = .markForClose c := some.inj hhead
    obtain ⟨circ, hc⟩ := h.calls.there c (hcalls ▸ mem_cons_self)
    have hmem : some c ∈ u.legs.map PendingLeg.circ := by
      rw [hlegs]
      exact mem_singleton_self _
    obtain ⟨leg, hleg, hlegc⟩ := mem_map.mp hmem
    exact absurd hlegc (h.sets.not_waiting (h.calls.not_shut hcalls) hc (hno c circ rfl hc)
      hu hleg)

variable (pushed) in
/-- **A call is made**, and others are to be made before the rest. -/
lemma Calls.run (h : Calls s) (hcalls : s.calls = call :: calls)
    (hshut : t.shuttingDown = s.shuttingDown) (hpushed : t.calls = pushed ++ calls)
    (hthere : ∀ c, .markForClose c ∈ pushed → ∃ circ, t.circ c = some circ)
    (hkeep : ∀ c circ, s.circ c = some circ → ∃ circ', t.circ c = some circ')
    (htail : ∀ call ∈ pushed.tail, call.launches = none)
    (hhead : ∀ call ∈ pushed.head?, ∀ n, call.launches = some n → t.isClient = true
      ∧ ∃ u, t.unlinkedPool n = some u)
    (hrelay : t.isClient = false → ∀ n, t.unlinkedPool n = none)
    (hteardown : ∀ p set c, t.cfx p = some set → set.cfx.inFullTeardown = true → set.HasLeg c →
      .markForClose c ∈ t.calls)
    (hown : ∀ n u set, t.unlinkedPool n = some u → u.isForLinkedSet = false →
      t.cfx u.cfx = some set → set.cfx.inFullTeardown = false) : Calls t := by
  have hopen : t.shuttingDown = false := hshut.trans (h.not_shut hcalls)
  have hrest : ∀ call ∈ calls, call.launches = none := by
    intro call' hmem
    refine h.tail call' ?_
    rw [hcalls]
    exact hmem
  refine ⟨fun hs => ?_, fun c hmem => ?_, fun call' hmem => ?_, fun call' hmem n hn => ?_,
    fun hr n u hu => ?_, fun _ => hteardown, hown⟩
  · rw [hopen] at hs
    cases hs
  · rw [hpushed] at hmem
    rcases mem_append.mp hmem with hmem | hmem
    · exact hthere c hmem
    · obtain ⟨circ, hc⟩ := h.there c (hcalls ▸ mem_cons_of_mem _ hmem)
      exact hkeep c circ hc
  · rw [hpushed] at hmem
    cases pushed with
    | nil => exact hrest call' (mem_of_mem_tail hmem)
    | cons first rest =>
      rcases mem_append.mp hmem with hmem | hmem
      · exact htail call' hmem
      · exact hrest call' hmem
  · rw [hpushed] at hmem
    cases pushed with
    | nil =>
      rw [hrest call' (mem_of_mem_head? hmem)] at hn
      cases hn
    | cons first rest =>
      obtain ⟨hclient, u, hu⟩ := hhead call' hmem n hn
      exact ⟨hclient, fun hnone => absurd (hnone.symm.trans hu) (by simp)⟩
  · rw [hrelay hr n] at hu
    cases hu

variable (pushed) in
lemma Nonces.run (h : Nonces s) (hclient : t.isClient = s.isClient)
    (hcalls : s.calls = call :: calls)
    (hpushed : t.calls = pushed ++ calls)
    (hlegs : ∀ n u leg, t.unlinkedPool n = some u → leg ∈ u.legs → leg.link.nonce = n
      ∨ ∃ u₀, s.unlinkedPool n = some u₀ ∧ leg ∈ u₀.legs
        ∧ ∀ c, call = .markForClose c → leg.circ ≠ some c) : Nonces t := by
  refine ⟨hclient.trans h.isClient, fun n u leg hu hleg => ?_⟩
  rcases hlegs n u leg hu hleg with hn | ⟨u₀, hu₀, hleg₀, hne⟩
  · exact .inl hn
  · refine (h.nonces n u₀ leg hu₀ hleg₀).imp_right fun ⟨c, hc, hmem⟩ => ⟨c, hc, ?_⟩
    rw [hcalls] at hmem
    rw [hpushed]
    refine mem_append_right _ ((mem_cons.mp hmem).resolve_left fun heq => ?_)
    exact hne c heq.symm hc

/-! ## Closing a circuit that waits -/

lemma unlinkedPoolDelAndFree_eq (hset : s.cfx u.cfx = some set) :
    s.unlinkedPoolDelAndFree u = .ok (if u.isForLinkedSet then s.setUnlinked set.nonce none
      else (s.setUnlinked set.nonce none).setCfx u.cfx none) := by
  rw [unlinkedPoolDelAndFree, hset]
  rfl

lemma exists_closed (s : Pool α) (c : ℕ) (circ : PoolCircuit) (b : Prop) [Decidable b] :
    ∃ circ', (if b then (s.setCirc c (some circ)).setCirc c
        (some { circ with confluxPendingNonce := none }) else s.setCirc c (some circ))
        = s.setCirc c (some circ')
      ∧ circ'.conflux = circ.conflux ∧ circ'.markedForClose = circ.markedForClose
      ∧ circ'.linkedPurpose = circ.linkedPurpose
      ∧ (circ'.confluxPendingNonce ≠ none → circ.confluxPendingNonce ≠ none) := by
  split
  · refine ⟨{ circ with confluxPendingNonce := none }, ?_, rfl, rfl, rfl, fun h => absurd rfl h⟩
    rw [setCirc, setCirc, setCirc, update_idem]
  · exact ⟨circ, rfl, rfl, rfl, rfl, id⟩

lemma Inv.closeFree (pushed : List Call) (x : Pool α) (h : Inv s)
    (hcalls : s.calls = .markForClose c :: calls)
    (hc : s.circ c = some circ) (hconflux : circ.conflux = none) (hx : Sets x)
    (hclient : x.isClient = s.isClient) (hshut : x.shuttingDown = s.shuttingDown)
    (hcirc : x.circ = s.circ)
    (hcfx : ∀ p set, x.cfx p = some set → s.cfx p = some set)
    (hunlinked : ∀ n u, x.unlinkedPool n = some u → ∃ u₀, s.unlinkedPool n = some u₀
      ∧ u.cfx = u₀.cfx ∧ u.isForLinkedSet = u₀.isForLinkedSet
      ∧ ∀ leg ∈ u.legs, leg ∈ u₀.legs ∧ leg.circ ≠ some c)
    (hrelay : x.isClient = false → ∀ n, x.unlinkedPool n = none)
    (hconflux' : circ'.conflux = none)
    (hpurpose : circ'.confluxPendingNonce ≠ none → circ.confluxPendingNonce ≠ none
      ∧ circ'.linkedPurpose = circ.linkedPurpose)
    (hpushed : ∀ call ∈ pushed, ∃ n u, pushed = [.launchLeg n] ∧ call = .launchLeg n
      ∧ x.isClient = true ∧ x.unlinkedPool n = some u) :
    Inv { x.setCirc c (some circ') with calls := pushed ++ calls }
      ∧ (Nonces s → Nonces { x.setCirc c (some circ') with calls := pushed ++ calls }) := by
  have hsets : Sets (x.setCirc c (some circ')) := by
    refine hx.closeWaiting (hcirc ▸ hc) hconflux hconflux' hpurpose fun _ n u leg hu hleg => ?_
    obtain ⟨u₀, -, -, -, hlegs⟩ := hunlinked n u hu
    exact (hlegs leg hleg).2
  refine ⟨⟨hsets.setCalls _, h.calls.run _ hcalls hshut rfl (fun d hd => ?_) (fun d circ₁ hd => ?_)
    (fun call hmem => ?_) (fun call hmem n hn => ?_) hrelay (fun q set d hq hfull hleg => ?_)
    fun n u set hu hown hset => ?_⟩,
    fun hn => hn.run _ hclient hcalls rfl fun n u leg hu hleg => .inr ?_⟩
  · obtain ⟨n, u, -, heq, -⟩ := hpushed _ hd
    cases heq
  · show ∃ circ', update x.circ c _ d = some circ'
    by_cases hdc : d = c
    · rw [hdc, update_self]
      exact ⟨_, rfl⟩
    · rw [update_of_ne hdc, hcirc]
      exact ⟨circ₁, hd⟩
  · obtain ⟨n, u, hp, -⟩ := hpushed call (mem_of_mem_tail hmem)
    rw [hp] at hmem
    exact absurd hmem not_mem_nil
  · obtain ⟨n', u, -, rfl, hclient, hu⟩ := hpushed call (mem_of_mem_head? hmem)
    obtain rfl : n' = n := some.inj hn
    exact ⟨hclient, u, hu⟩
  · have hmem := h.calls.teardown (h.calls.not_shut hcalls) q set d (hcfx q set hq) hfull hleg
    rw [hcalls] at hmem
    refine mem_append_right _ ((mem_cons.mp hmem).resolve_left fun heq => ?_)
    obtain rfl : d = c := Call.markForClose.inj heq
    obtain ⟨circ₁, hc₁, hconflux₁, -⟩ := h.sets.legs q set d (hcfx q set hq) hleg
    obtain rfl := some.inj (hc.symm.trans hc₁)
    rw [hconflux] at hconflux₁
    cases hconflux₁
  · obtain ⟨u₀, hu₀, hcfx₀, hfor₀, -⟩ := hunlinked n u hu
    exact h.calls.own n u₀ set hu₀ (hfor₀ ▸ hown) (hcfx₀ ▸ hcfx u.cfx set hset)
  · obtain ⟨u₀, hu₀, -, -, hlegs⟩ := hunlinked n u hu
    refine ⟨u₀, hu₀, (hlegs leg hleg).1, fun d hd => ?_⟩
    obtain rfl : c = d := Call.markForClose.inj hd
    exact (hlegs leg hleg).2

lemma unlinkedCircuitClosed_none (hu : s.unlinkedPool n = none) :
    s.unlinkedCircuitClosed c circ n = .ok s := by
  rw [unlinkedCircuitClosed, hu]

variable (c circ) in
lemma unlinkedCircuitClosed_some (hu : s.unlinkedPool n = some u) (hset : s.cfx u.cfx = some set)
    (hn : set.nonce = n) : ∃ circ', circ'.conflux = circ.conflux
      ∧ circ'.linkedPurpose = circ.linkedPurpose
      ∧ (circ'.confluxPendingNonce ≠ none → circ.confluxPendingNonce ≠ none)
      ∧ (setCirc s c (some circ)).unlinkedCircuitClosed c circ n = .ok
        (if (u.legs.eraseP fun leg => leg.circ = some c) = [] then
          (if u.isForLinkedSet then s.setUnlinked n none
            else (s.setUnlinked n none).setCfx u.cfx none).setCirc c (some circ')
        else
          let t := setCirc (s.setUnlinked n (some { u with
            legs := u.legs.eraseP fun leg => leg.circ = some c })) c (some circ')
          if ¬ s.shuttingDown ∧ s.isClient then t.call [.launchLeg n] else t) := by
  obtain ⟨circ', heq, hconflux, -, hpurpose, hpend⟩ :=
    exists_closed s c circ ((legFind u c).isSome = true)
  refine ⟨circ', hconflux, hpurpose, hpend, ?_⟩
  have hu' : (s.setCirc c (some circ)).unlinkedPool n = some u := hu
  rw [unlinkedCircuitClosed, hu']
  simp only [heq]
  split
  · rw [unlinkedPoolDelAndFree_eq (s := s.setCirc c (some circ')) hset, hn]
    split <;> rfl
  · rfl

/-- **A circuit that waits is closed**: its leg goes, and with the last one the set; a client
launches another leg. -/
lemma Inv.closeWaiting (h : Inv s) (hcalls : s.calls = .markForClose c :: calls)
    (hc : s.circ c = some circ) (hpend : circ.confluxPendingNonce = some n) :
    ∃ t, unlinkedCircuitClosed
        (setCirc { s with calls } c (some { circ with markedForClose := true })) c
        { circ with markedForClose := true } n = .ok t
      ∧ Inv t ∧ (Nonces s → Nonces t) := by
  have hshut : s.shuttingDown = false := h.calls.not_shut hcalls
  have hsets : Sets { s with calls } := h.sets.setCalls calls
  have hconflux : circ.conflux = none := by
    cases hq : circ.conflux with
    | none => rfl
    | some q => exact absurd ((h.sets.holds c circ q hc hq).1.symm.trans hpend) (by simp)
  have hnonce : ∀ n' u leg, s.unlinkedPool n' = some u → leg ∈ u.legs → leg.circ = some c →
      n' = n := fun n' u leg hu hleg hlegc => h.sets.waits_nonce hshut hc hpend hu hleg hlegc
  have hother : ∀ n' u leg, n' ≠ n → s.unlinkedPool n' = some u → leg ∈ u.legs →
      leg.circ ≠ some c := fun n' u leg hne hu hleg hlegc => hne (hnonce n' u leg hu hleg hlegc)
  have hrelay : s.isClient = false → ∀ n' u, s.unlinkedPool n' = some u →
      n' = n ∧ u.legs.map PendingLeg.circ = [some c] := by
    intro hrelay n' u hu
    obtain ⟨d, hhead, hlegs⟩ := h.calls.relay hrelay n' u hu
    rw [hcalls] at hhead
    obtain rfl : c = d := Call.markForClose.inj (some.inj hhead)
    have hmem : some c ∈ u.legs.map PendingLeg.circ := hlegs ▸ mem_singleton_self _
    obtain ⟨leg, hleg, hlegc⟩ := mem_map.mp hmem
    exact ⟨hnonce n' u leg hu hleg hlegc, hlegs⟩
  have hsame : ∀ n' u, n' ≠ n → s.unlinkedPool n' = some u → ∃ u₀, s.unlinkedPool n' = some u₀
      ∧ u.cfx = u₀.cfx ∧ u.isForLinkedSet = u₀.isForLinkedSet
      ∧ ∀ leg ∈ u.legs, leg ∈ u₀.legs ∧ leg.circ ≠ some c := fun n' u hne hu =>
    ⟨u, hu, rfl, rfl, fun leg hleg => ⟨hleg, hother n' u leg hne hu hleg⟩⟩
  have hnorelay : s.isClient = false → ∀ n', n' ≠ n → s.unlinkedPool n' = none := by
    intro hr n' hne
    cases hu : s.unlinkedPool n' with
    | none => rfl
    | some u => exact absurd (hrelay hr n' u hu).1 hne
  cases hu : s.unlinkedPool n with
  | none =>
    refine ⟨_, unlinkedCircuitClosed_none hu, ?_⟩
    have hne : ∀ n' u, s.unlinkedPool n' = some u → n' ≠ n := by
      rintro n' u hu' rfl
      rw [hu] at hu'
      cases hu'
    refine h.closeFree [] { s with calls } hcalls hc hconflux hsets rfl rfl rfl
      (fun _ _ => id) (fun n' u hu' => hsame n' u (hne n' u hu') hu') (fun hr n' => ?_) hconflux
      (fun hno => ⟨hno, rfl⟩) fun _ hmem => absurd hmem not_mem_nil
    by_cases hn : n' = n
    · exact hn ▸ hu
    · exact hnorelay hr n' hn
  | some u =>
    obtain ⟨set, hset, hn, -⟩ := h.sets.unlinked n u hu
    obtain ⟨circ', hconflux', hpurpose, hpend', hclosed⟩ := unlinkedCircuitClosed_some
      (s := { s with calls }) c { circ with markedForClose := true } hu hset hn
    refine ⟨_, hclosed, ?_⟩
    have hdel : ∀ n' u', update s.unlinkedPool n none n' = some u' →
        n' ≠ n ∧ s.unlinkedPool n' = some u' := by
      intro n' u' hu'
      rcases update_eq_some.mp hu' with ⟨-, heq⟩ | hu'
      · cases heq
      · exact hu'
    have hdelNone : s.isClient = false → ∀ n', update s.unlinkedPool n none n' = none := by
      intro hr n'
      by_cases hn : n' = n
      · rw [hn, update_self]
      · rw [update_of_ne hn]
        exact hnorelay hr n' hn
    split
    · have hdelSet := hsets.delSet hu
      split
      · next hfor =>
          rw [if_pos hfor] at hdelSet
          refine h.closeFree [] (setUnlinked { s with calls } n none) hcalls hc
            hconflux hdelSet rfl rfl rfl (fun _ _ => id) (fun n' u' hu' => ?_) hdelNone
            (hconflux'.trans hconflux) (fun hno => ⟨hpend' hno, hpurpose⟩)
            fun _ hmem => absurd hmem not_mem_nil
          obtain ⟨hne, hu'⟩ := hdel n' u' hu'
          exact hsame n' u' hne hu'
      · next hown =>
          rw [if_neg hown] at hdelSet
          refine h.closeFree []
            ((setUnlinked { s with calls } n none).setCfx u.cfx none) hcalls hc
            hconflux hdelSet rfl rfl rfl (fun q set hq => ?_) (fun n' u' hu' => ?_) hdelNone
            (hconflux'.trans hconflux) (fun hno => ⟨hpend' hno, hpurpose⟩)
            fun _ hmem => absurd hmem not_mem_nil
          · obtain ⟨-, hq⟩ := update_none_eq_some.mp hq
            exact hq
          · obtain ⟨hne, hu'⟩ := hdel n' u' hu'
            exact hsame n' u' hne hu'
    · next hlegs =>
        have hclient : s.isClient = true := by
          rw [← Bool.not_eq_false]
          intro hr
          obtain ⟨leg, hleg⟩ := map_eq_singleton_iff.mp (hrelay hr n u hu).2
          rw [hleg.1, eraseP_cons_of_pos (by simp [hleg.2])] at hlegs
          exact hlegs rfl
        rw [if_pos ⟨by simp [hshut], hclient⟩]
        refine h.closeFree [.launchLeg n] (setUnlinked { s with calls } n _)
          hcalls hc hconflux (hsets.eraseLeg (c := c) hshut hu) rfl rfl rfl (fun _ _ => id)
          (fun n' u' hu' => ?_) (fun hr => absurd (hr.symm.trans hclient) Bool.false_ne_true)
          (hconflux'.trans hconflux) (fun hno => ⟨hpend' hno, hpurpose⟩) fun call hmem => ?_
        · rcases update_some_eq_some.mp hu' with ⟨rfl, rfl⟩ | ⟨hne, hu'⟩
          · refine ⟨u, hu, rfl, rfl, fun leg hleg => ⟨mem_of_mem_eraseP hleg, ?_⟩⟩
            exact circ_of_mem_eraseP (h.sets.waits hshut n' u hu).1 hleg
          · exact hsame n' u' hne hu'
        · exact ⟨n, _, rfl, mem_singleton.mp hmem, hclient, update_self _ _ _⟩

/-! ## Closing a leg -/

lemma numLegs_eq_zero_iff : set.cfx.numLegs = 0 ↔ set.Empty := by
  rw [Cfx.numLegs, AssocMap.size_eq_zero_iff]
  refine forall_congr' fun d => ?_
  rw [ConfluxSet.HasLeg, confluxGetLeg, Bool.not_eq_true, isSome_eq_false_iff, isNone_iff_eq_none]

lemma hasLeg_iff : set.HasLeg c ↔ c ∈ set.cfx.legs.entries.map Prod.fst := by
  rw [ConfluxSet.HasLeg, confluxGetLeg, ← not_iff_not, ← AssocMap.get_eq_none, Bool.not_eq_true,
    isSome_eq_false_iff, isNone_iff_eq_none]

lemma confluxGetLeg_cfxDelLeg (cfx : Cfx ℕ α) (c d : ℕ) (inflight : Bool) :
    (confluxGetLeg (cfxDelLeg cfx c inflight).1 d).isSome = true
      ↔ (confluxGetLeg cfx d).isSome = true ∧ d ≠ c := by
  rw [cfxDelLeg]
  by_cases hdc : d = c
  · rw [hdc]
    cases hleg : confluxGetLeg cfx c with
    | none => simp [hleg]
    | some leg =>
      simp only [confluxGetLeg, AssocMap.get_erase_self]
      simp
  · cases hleg : confluxGetLeg cfx c with
    | none => simp [hdc]
    | some leg =>
      simp only [confluxGetLeg, AssocMap.get_erase_of_ne hdc]
      simp [hdc]

lemma inFullTeardown_cfxDelLeg (cfx : Cfx ℕ α) (c : ℕ) (inflight : Bool) :
    (cfxDelLeg cfx c inflight).1.inFullTeardown = cfx.inFullTeardown := by
  rw [cfxDelLeg]
  split <;> rfl

lemma Inv.unlinked_none (h : Inv s) (hcalls : s.calls = .markForClose c :: calls)
    (hc : s.circ c = some circ) (hconflux : circ.conflux = some p) (hset : s.cfx p = some set)
    (hleg : set.HasLeg c) : s.unlinkedPool set.nonce = none := by
  cases hclient : s.isClient with
  | false =>
    refine h.relay_none hclient hcalls fun d circ₁ hd hcirc => .inl ?_
    obtain rfl : c = d := Call.markForClose.inj hd
    obtain rfl := some.inj (hc.symm.trans hcirc)
    simp [hconflux]
  | true =>
    cases hu : s.unlinkedPool set.nonce with
    | none => rfl
    | some u =>
      obtain ⟨set₁, -, -, href⟩ := h.sets.unlinked _ u hu
      rw [RefersTo, hclient, h.sets.registered p set hset fun he => he c hleg] at href
      split at href
      · exact absurd href.1 (by simp)
      · exact absurd href.2 (by simp)

lemma confluxMarkAllForClose_none (hu : s.unlinkedPool n = none) :
    s.confluxMarkAllForClose n = .ok (s.call [.closeLinked n]) := by
  rw [confluxMarkAllForClose, hu]

lemma linkedCircuitClosed_eq (hset : s.cfx p = some set) (hnone : s.unlinkedPool set.nonce = none) :
    s.linkedCircuitClosed c circ p
      = .ok (Pool.call (if (cfxDelLeg set.cfx c circ.inflight).1.numLegs = 0 then
            (s.setCfx p (some { set with
              cfx := (cfxDelLeg set.cfx c circ.inflight).1 })).setLinked set.nonce none
          else
            (s.setCfx p (some { set with cfx := (cfxDelLeg set.cfx c circ.inflight).1 })).setCirc c
              (some { circ with conflux := none }))
          (if (cfxDelLeg set.cfx c circ.inflight).2 then [.closeLinked set.nonce] else [])) := by
  rw [linkedCircuitClosed, hset]
  simp only [deref, bind, Except.bind]
  split
  · rw [confluxMarkAllForClose_none]
    split
    · exact hnone
    · exact hnone
  · rfl

lemma closeLinked_cases (ht : s.closeLinked n = .ok t) :
    t = s ∨ ∃ p set, s.cfx p = some set
      ∧ t = (s.setCfx p (some { set with cfx := { set.cfx with inFullTeardown := true } })).call
          ((set.cfx.legs.entries.map Prod.fst).map .markForClose) := by
  rw [closeLinked] at ht
  split at ht
  · exact .inl (Except.ok.inj ht).symm
  · next p hp =>
      cases hset : s.cfx p with
      | none =>
        rw [hset] at ht
        cases ht
      | some set =>
        rw [hset] at ht
        simp only [deref, bind, Except.bind] at ht
        split at ht
        · exact .inl (Except.ok.inj ht).symm
        · exact .inr ⟨p, set, hset, (Except.ok.inj ht).symm⟩

/-- **A leg is closed**, and in a full teardown the others are to be closed. -/
lemma Inv.closeLeg (h : Inv s) (hcalls : s.calls = .markForClose c :: calls)
    (hc : s.circ c = some circ) (hconflux : circ.conflux = some p)
    (hmarked : circ.markedForClose = false) :
    ∃ t, linkedCircuitClosed
        (setCirc { s with calls } c (some { circ with markedForClose := true })) c
        { circ with markedForClose := true } p = .ok t
      ∧ Inv t ∧ (Nonces s → Nonces t) := by
  have hshut : s.shuttingDown = false := h.calls.not_shut hcalls
  have hsets : Sets { s with calls } := h.sets.setCalls calls
  obtain ⟨hpend, set, hset, hleg⟩ := h.sets.holds c circ p hc hconflux
  replace hleg : set.HasLeg c := by
    refine hleg.resolve_right fun hkept => ?_
    rw [hkept.2.1 circ hc] at hmarked
    cases hmarked
  have hnone : s.unlinkedPool set.nonce = none := h.unlinked_none hcalls hc hconflux hset hleg
  set set' : ConfluxSet α := { set with cfx := (cfxDelLeg set.cfx c circ.inflight).1 } with hset'
  have hlegs : ∀ d, set'.HasLeg d ↔ set.HasLeg d ∧ d ≠ c := fun d =>
    confluxGetLeg_cfxDelLeg set.cfx c d circ.inflight
  have hclose : ∃ y : Pool α, (if (cfxDelLeg set.cfx c circ.inflight).1.numLegs = 0 then
        ((setCirc { s with calls } c (some { circ with markedForClose := true })).setCfx p
          (some set')).setLinked set.nonce none
        else ((setCirc { s with calls } c (some { circ with markedForClose := true })).setCfx p
          (some set')).setCirc c (some { circ with markedForClose := true, conflux := none })) = y
      ∧ Sets y ∧ y.shuttingDown = s.shuttingDown ∧ y.isClient = s.isClient ∧ y.calls = calls
      ∧ y.unlinkedPool = s.unlinkedPool ∧ y.cfx = update s.cfx p (some set')
      ∧ ∃ circ', y.circ = update s.circ c (some circ') := by
    refine ⟨_, rfl, ?_⟩
    split
    · next hempty =>
        refine ⟨?_, rfl, rfl, rfl, rfl, rfl, _, rfl⟩
        have hempty' : set'.Empty := numLegs_eq_zero_iff.mp hempty
        refine hsets.delLastLeg set' hset hc hconflux rfl hleg (fun d hd => ?_) hempty'
          hnone
        by_contra hdc
        exact hempty' d ((hlegs d).mpr ⟨hd, hdc⟩)
    · next hne =>
        refine ⟨?_, rfl, rfl, rfl, rfl, rfl, _, update_idem _ _ _⟩
        have hdel := hsets.delLeg set'
          (o := some { circ with markedForClose := true, conflux := none }) hset hc hconflux rfl
          hlegs (fun he => hne (numLegs_eq_zero_iff.mpr he)) (fun circ₁ ho => ?_)
        · rw [setCirc, setCfx, setCirc, update_idem]
          exact hdel
        · obtain rfl := some.inj ho
          exact ⟨rfl, hpend⟩
  obtain ⟨y, hy, hysets, hyshut, hyclient, hycalls, hyunlinked, hycfx, circ', hycirc⟩ := hclose
  have hclosed : linkedCircuitClosed
      (setCirc { s with calls } c (some { circ with markedForClose := true })) c
      { circ with markedForClose := true } p
      = .ok (y.call (if (cfxDelLeg set.cfx c circ.inflight).2 then [.closeLinked set.nonce]
          else [])) := by
    rw [← hy]
    exact linkedCircuitClosed_eq (s := setCirc { s with calls } c
      (some { circ with markedForClose := true })) hset hnone
  have hrest : ∀ pushed, (∀ call ∈ pushed, call = .closeLinked set.nonce) →
      (∀ call ∈ pushed.tail, call.launches = none) →
      Inv { y with calls := pushed ++ calls }
        ∧ (Nonces s → Nonces { y with calls := pushed ++ calls }) := by
    intro pushed hpushed htail
    refine ⟨⟨hysets.setCalls _, h.calls.run _ hcalls hyshut rfl (fun d hd => ?_)
      (fun d circ₁ hd => ?_) htail (fun call hmem n hn => ?_) (fun hr n => ?_)
      (fun q set₁ d hq hfull hd => ?_) fun n u set₁ hu hown hq => ?_⟩,
      fun hn => hn.run _ hyclient hcalls rfl fun n u leg hu hmem => .inr ⟨u, hyunlinked ▸ hu, hmem, ?_⟩⟩
    · cases hpushed _ hd
    · show ∃ circ', y.circ d = some circ'
      rw [hycirc]
      by_cases hdc : d = c
      · exact ⟨circ', by rw [hdc, update_self]⟩
      · exact ⟨circ₁, (update_of_ne hdc _ _).trans hd⟩
    · rw [hpushed call (mem_of_mem_head? hmem)] at hn
      cases hn
    · show y.unlinkedPool n = none
      rw [hyunlinked]
      refine h.relay_none (hyclient.symm.trans hr) hcalls fun d circ₁ hd hcirc => .inl ?_
      obtain rfl : c = d := Call.markForClose.inj hd
      obtain rfl := some.inj (hc.symm.trans hcirc)
      simp [hconflux]
    · have hold : ∃ set₀, s.cfx q = some set₀ ∧ set₀.cfx.inFullTeardown = true ∧ set₀.HasLeg d
          ∧ d ≠ c := by
        have hq' : y.cfx q = some set₁ := hq
        rw [hycfx] at hq'
        rcases update_some_eq_some.mp hq' with ⟨rfl, rfl⟩ | ⟨hqp, hq'⟩
        · refine ⟨set, hset, ?_, (hlegs d).mp hd⟩
          rw [← inFullTeardown_cfxDelLeg set.cfx c circ.inflight]
          exact hfull
        · refine ⟨set₁, hq', hfull, hd, fun hdc => ?_⟩
          rw [hdc] at hd
          obtain ⟨circ₁, hc₁, hconflux₁, -⟩ := h.sets.legs q set₁ c hq' hd
          obtain rfl := some.inj (hc.symm.trans hc₁)
          exact hqp (some.inj (hconflux₁.symm.trans hconflux))
      obtain ⟨set₀, hq₀, hfull₀, hd₀, hdc⟩ := hold
      have hmem := h.calls.teardown hshut q set₀ d hq₀ hfull₀ hd₀
      rw [hcalls] at hmem
      refine mem_append_right _ ((mem_cons.mp hmem).resolve_left fun heq => ?_)
      exact hdc (Call.markForClose.inj heq)
    · have hu' : s.unlinkedPool n = some u := hyunlinked ▸ hu
      have hq' : y.cfx u.cfx = some set₁ := hq
      rw [hycfx] at hq'
      rcases update_some_eq_some.mp hq' with ⟨heq', rfl⟩ | ⟨-, hq'⟩
      · rw [inFullTeardown_cfxDelLeg]
        exact h.calls.own n u set hu' hown (heq' ▸ hset)
      · exact h.calls.own n u set₁ hu' hown hq'
    · intro d hd
      obtain rfl : c = d := Call.markForClose.inj hd
      exact h.sets.not_waiting hshut hc (.inl (by simp [hconflux])) (hyunlinked ▸ hu) hmem
  rw [hclosed, call, hycalls]
  refine ⟨_, rfl, hrest _ (fun call hmem => ?_) ?_⟩
  · split at hmem
    · exact mem_singleton.mp hmem
    · exact absurd hmem not_mem_nil
  · split
    · exact fun call hmem => absurd hmem not_mem_nil
    · exact fun call hmem => absurd hmem not_mem_nil

lemma Inv.skip (h : Inv s) (hcalls : s.calls = call :: calls) (hno : ∀ c circ,
      call = .markForClose c → s.circ c = some circ → circ.markedForClose = true)
    (hr : ∀ n, s.isClient = false → s.unlinkedPool n = none) :
    Inv { s with calls } ∧ (Nonces s → Nonces { s with calls }) := by
  have hshut : s.shuttingDown = false := h.calls.not_shut hcalls
  have hnot : ∀ c, call = .markForClose c → ∀ circ, s.circ c = some circ →
      circ.markedForClose = true := fun c hc circ => hno c circ hc
  refine ⟨⟨h.sets.setCalls calls, h.calls.run [] hcalls rfl rfl
    (fun _ hmem => absurd hmem not_mem_nil) (fun _ circ₁ hc₁ => ⟨circ₁, hc₁⟩)
    (fun _ hmem => absurd hmem not_mem_nil) (fun _ hmem => absurd hmem (by simp))
    (fun hrelay n => hr n hrelay) (fun q set d hq hfull hd => ?_) h.calls.own⟩,
    fun hn => hn.run [] rfl hcalls rfl fun n u leg hu hleg =>
      .inr ⟨u, hu, hleg, fun d hd hlegd => ?_⟩⟩
  · have hmem := h.calls.teardown hshut q set d hq hfull hd
    rw [hcalls] at hmem
    refine (mem_cons.mp hmem).resolve_left fun heq => ?_
    obtain ⟨circ₁, hc₁, -, hmarked⟩ := h.sets.legs q set d hq hd
    rw [hnot d heq.symm circ₁ hc₁] at hmarked
    cases hmarked
  · obtain ⟨circ₁, hc₁, -, -, hmarked⟩ := h.sets.waiting_circ hshut hu hleg hlegd
    rw [hnot d hd circ₁ hc₁] at hmarked
    cases hmarked

lemma circuitMarkForClose_cases (hc : s.circ c = some circ) :
    (circ.markedForClose = true ∧ circuitMarkForClose s c = .ok s)
      ∨ (∃ n, circ.confluxPendingNonce = some n ∧ circuitMarkForClose s c
          = unlinkedCircuitClosed (setCirc s c (some { circ with markedForClose := true })) c
              { circ with markedForClose := true } n)
      ∨ (∃ p, circ.markedForClose = false ∧ circ.confluxPendingNonce = none
          ∧ circ.conflux = some p ∧ circuitMarkForClose s c
          = linkedCircuitClosed (setCirc s c (some { circ with markedForClose := true })) c
              { circ with markedForClose := true } p)
      ∨ circ.confluxPendingNonce = none ∧ circ.conflux = none ∧ circuitMarkForClose s c
          = .ok (setCirc s c (some { circ with markedForClose := true })) := by
  by_cases hmarked : circ.markedForClose = true
  · refine .inl ⟨hmarked, ?_⟩
    rw [circuitMarkForClose, hc]
    exact if_pos hmarked
  · rcases hpend : circ.confluxPendingNonce with _ | n
    · rcases hconflux : circ.conflux with _ | p
      · refine .inr (.inr (.inr ⟨rfl, rfl, ?_⟩))
        rw [circuitMarkForClose, hc]
        refine (if_neg hmarked).trans ?_
        simp only [hpend, hconflux]
        rfl
      · refine .inr (.inr (.inl ⟨p, Bool.not_eq_true _ ▸ hmarked, rfl, rfl, ?_⟩))
        rw [circuitMarkForClose, hc]
        refine (if_neg hmarked).trans ?_
        simp only [hpend, hconflux]
    · refine .inr (.inl ⟨n, rfl, ?_⟩)
      rw [circuitMarkForClose, hc]
      refine (if_neg hmarked).trans ?_
      simp only [hpend]

/-- **`circuit_mark_for_close`** keeps the invariant. -/
lemma Inv.markForClose (h : Inv s) (hcalls : s.calls = .markForClose c :: calls) :
    ∃ t, circuitMarkForClose { s with calls } c = .ok t ∧ Inv t ∧ (Nonces s → Nonces t) := by
  have hshut : s.shuttingDown = false := h.calls.not_shut hcalls
  obtain ⟨circ, hc⟩ := h.calls.there c (hcalls ▸ mem_cons_self)
  have hthis : ∀ d circ₁, Call.markForClose c = .markForClose d → s.circ d = some circ₁ →
      circ₁ = circ := by
    intro d circ₁ hd hc₁
    obtain rfl : c = d := Call.markForClose.inj hd
    exact (some.inj (hc.symm.trans hc₁)).symm
  obtain ⟨hmarked, hstart⟩ | ⟨n, hpend, hstart⟩ | ⟨p, hmarked, -, hconflux, hstart⟩ |
    ⟨hpend, hconflux, hstart⟩ := circuitMarkForClose_cases (s := { s with calls }) hc
  all_goals rw [hstart]
  · refine ⟨_, rfl, h.skip hcalls (fun d circ₁ hd hc₁ => ?_) fun n hr => ?_⟩
    · rw [hthis d circ₁ hd hc₁]
      exact hmarked
    · refine h.relay_none hr hcalls fun d circ₁ hd hc₁ => .inr ?_
      rw [hthis d circ₁ hd hc₁]
      exact hmarked
  · exact h.closeWaiting hcalls hc hpend
  · exact h.closeLeg hcalls hc hconflux hmarked
  · have hwait : ∀ n u, s.unlinkedPool n = some u → ∀ leg ∈ u.legs, leg.circ ≠ some c := by
      intro n u hu leg hleg hlegc
      obtain ⟨circ₁, hc₁, hpend₁, -⟩ := h.sets.waiting_circ hshut hu hleg hlegc
      obtain rfl := some.inj (hc.symm.trans hc₁)
      rw [hpend] at hpend₁
      cases hpend₁
    refine ⟨_, rfl, h.closeFree [] { s with calls } hcalls hc hconflux
      (h.sets.setCalls calls) rfl rfl rfl (fun _ _ => id) (fun n u hu => ⟨u, hu, rfl, rfl,
        fun leg hleg => ⟨hleg, hwait n u hu leg hleg⟩⟩) (fun hr n => ?_) hconflux
      (fun hno => absurd hpend hno) fun _ hmem => absurd hmem not_mem_nil⟩
    by_contra hne
    obtain ⟨u, hu⟩ := ne_none_iff_exists'.mp hne
    obtain ⟨d, hhead, hlegs⟩ := h.calls.relay hr n u hu
    rw [hcalls] at hhead
    obtain rfl : c = d := Call.markForClose.inj (some.inj hhead)
    have hmem : some c ∈ u.legs.map PendingLeg.circ := hlegs ▸ mem_singleton_self _
    obtain ⟨leg, hleg, hlegc⟩ := mem_map.mp hmem
    exact hwait n u hu leg hleg hlegc

/-- **The second half of `conflux_mark_all_for_close`** keeps the invariant. -/
lemma Inv.closeLinked (h : Inv s) (hcalls : s.calls = .closeLinked n :: calls) :
    ∃ t, Pool.closeLinked { s with calls } n = .ok t ∧ Inv t ∧ (Nonces s → Nonces t) := by
  have hr : ∀ n', s.isClient = false → s.unlinkedPool n' = none := fun n' hr =>
    h.relay_none hr hcalls fun d circ hd => absurd hd (by simp)
  have hskip := h.skip hcalls (fun d circ hd => absurd hd (by simp)) hr
  cases hp : s.linkedPool n with
  | none =>
    refine ⟨{ s with calls }, ?_, hskip⟩
    simp only [Pool.closeLinked, hp]
  | some p =>
    obtain ⟨set, hset, hn, -⟩ := h.sets.linked n p hp
    have hstart : Pool.closeLinked { s with calls } n
        = if set.cfx.inFullTeardown then .ok { s with calls } else
          .ok ((setCfx { s with calls } p
            (some { set with cfx := { set.cfx with inFullTeardown := true } })).call
            ((set.cfx.legs.entries.map Prod.fst).map .markForClose)) := by
      simp only [Pool.closeLinked, hp]
      show (deref (s.cfx p) >>= _) = _
      rw [hset]
      rfl
    rw [hstart]
    split
    · exact ⟨_, rfl, hskip⟩
    · refine ⟨_, rfl, ?_⟩
      have hsets := ((h.sets.setCalls calls).setCfx { set with
        cfx := { set.cfx with inFullTeardown := true } } hset rfl fun _ => Iff.rfl).setCalls
          ((set.cfx.legs.entries.map Prod.fst).map .markForClose ++ calls)
      have hcloses : ∀ call ∈ (set.cfx.legs.entries.map Prod.fst).map Call.markForClose,
          ∃ d, set.HasLeg d ∧ call = .markForClose d := by
        intro call hmem
        obtain ⟨d, hd, rfl⟩ := mem_map.mp hmem
        exact ⟨d, hasLeg_iff.mpr hd, rfl⟩
      refine ⟨⟨hsets, h.calls.run _ hcalls rfl rfl (fun d hd => ?_)
        (fun _ circ₁ hc₁ => ⟨circ₁, hc₁⟩) (fun call hmem => ?_) (fun call hmem n' hn' => ?_)
        (fun hrelay n' => hr n' hrelay) (fun q set₁ d hq hfull hd => ?_)
        fun n' u set₁ hu hown hq => ?_⟩, fun hn => hn.run _ rfl hcalls rfl fun n' u leg hu hleg =>
          .inr ⟨u, hu, hleg, fun d hd => absurd hd (by simp)⟩⟩
      · obtain ⟨d', hd', heq⟩ := hcloses _ hd
        obtain rfl := Call.markForClose.inj heq
        obtain ⟨circ, hc, -⟩ := h.sets.legs p set d hset hd'
        exact ⟨circ, hc⟩
      · obtain ⟨d, -, rfl⟩ := hcloses call (mem_of_mem_tail hmem)
        rfl
      · obtain ⟨d, -, rfl⟩ := hcloses call (mem_of_mem_head? hmem)
        cases hn'
      · rcases update_some_eq_some.mp hq with ⟨-, rfl⟩ | ⟨-, hq⟩
        · exact mem_append_left _ (mem_map_of_mem (hasLeg_iff.mp hd))
        · have hmem := h.calls.teardown (h.calls.not_shut hcalls) q set₁ d hq hfull hd
          rw [hcalls] at hmem
          exact mem_append_right _ ((mem_cons.mp hmem).resolve_left (by simp))
      · rcases update_eq_some.mp hq with ⟨heq, -⟩ | ⟨-, hq⟩
        · obtain ⟨set₂, hset₂, hn₂, href⟩ := h.sets.unlinked n' u hu
          rw [heq] at hset₂
          obtain rfl := some.inj (hset.symm.trans hset₂)
          rw [RefersTo, if_neg (by simp [hown]), ← hn₂, hn, hp] at href
          cases href.2
        · exact h.calls.own n' u set₁ hu hown hq

end Pool

end Ator.Conflux
