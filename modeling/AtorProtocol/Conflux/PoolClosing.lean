import AtorProtocol.Conflux.PoolSets

/-!
# Legs that close

What closing or freeing a circuit does to the sets of a pool, and what linking and launching do.

* `Sets.delLeg`, `Sets.delLastLeg`, `Sets.freeKept` — the three ways in which a leg goes.
-/

namespace Ator.Conflux.Pool

open List Function Option

variable {α : Type} {s : Pool α} {c p : ℕ} {n : Nonce} {circ : PoolCircuit}
  {set set' : ConfluxSet α} {u : UnlinkedCircuits}

/-! ## Legs of linked sets -/

variable {leg : PendingLeg}

lemma Sets.not_waiting (h : Sets s) (hshut : s.shuttingDown = false) (hc : s.circ c = some circ)
    (hno : circ.conflux ≠ none ∨ circ.markedForClose = true) (hu : s.unlinkedPool n = some u)
 (hleg : leg ∈ u.legs) : leg.circ ≠ some c := by
  intro heq
  obtain ⟨circ', hcirc', -, hconflux, hmarked⟩ := h.waiting_circ hshut hu hleg heq
  obtain rfl := some.inj (hc.symm.trans hcirc')
  rcases hno with hno | hno
  · exact hno hconflux
  · rw [hmarked] at hno
    cases hno

variable (set') in
/-- **A leg goes**, and others are left. -/
lemma Sets.delLeg {o : Option PoolCircuit} (h : Sets s) (hset : s.cfx p = some set)
    (hc : s.circ c = some circ) (hconflux : circ.conflux = some p)
    (hnonce : set'.nonce = set.nonce) (hlegs : ∀ d, set'.HasLeg d ↔ set.HasLeg d ∧ d ≠ c)
    (hne : ¬ set'.Empty)
    (ho : ∀ circ', o = some circ' → circ'.conflux = none ∧ circ'.confluxPendingNonce = none) :
    Sets ((s.setCfx p (some set')).setCirc c o) := by
  have hne₀ : ¬ set.Empty := fun he => hne fun d hd => he d ((hlegs d).mp hd).1
  have hleg : set.HasLeg c := by
    obtain ⟨-, set₀, hset₀, hleg⟩ := h.holds c circ p hc hconflux
    obtain rfl := some.inj (hset.symm.trans hset₀)
    exact hleg.resolve_right fun hkept => hne₀ hkept.1
  refine ⟨update_fresh h.cfx_fresh hset, update_fresh h.circ_fresh hc, fun n q hq => ?_,
    fun q set₁ hq he => ?_, fun q set₁ d hq hd => ?_, fun d circ₁ q hd hq => ?_, fun n u hu => ?_,
    fun hshut n u hu => h.waits_setCirc hshut hu fun leg hleg => ?_, fun hclient d circ₁ hd => ?_⟩
  · obtain ⟨set₁, h₁, hn, he⟩ := h.linked n q hq
    by_cases hqp : q = p
    · subst hqp
      obtain rfl := some.inj (hset.symm.trans h₁)
      exact ⟨set', update_self _ _ _, hnonce.trans hn, hne⟩
    · exact ⟨set₁, (update_of_ne hqp _ _).trans h₁, hn, he⟩
  · rcases update_some_eq_some.mp hq with ⟨rfl, rfl⟩ | ⟨-, hq⟩
    · rw [hnonce]
      exact h.registered q set hset hne₀
    · exact h.registered q set₁ hq he
  · have hold : ∃ set₀, s.cfx q = some set₀ ∧ set₀.HasLeg d ∧ d ≠ c := by
      rcases update_some_eq_some.mp hq with ⟨rfl, rfl⟩ | ⟨hqp, hq⟩
      · exact ⟨set, hset, (hlegs d).mp hd⟩
      · refine ⟨set₁, hq, hd, fun heq => ?_⟩
        rw [heq] at hd
        obtain ⟨circ₁, hc₁, hconflux₁, -⟩ := h.legs q set₁ c hq hd
        obtain rfl := some.inj (hc.symm.trans hc₁)
        exact hqp (some.inj (hconflux₁.symm.trans hconflux))
    obtain ⟨set₀, hset₀, hd₀, hdc⟩ := hold
    obtain ⟨circ₁, hc₁, hrest⟩ := h.legs q set₀ d hset₀ hd₀
    exact ⟨circ₁, (update_of_ne hdc _ _).trans hc₁, hrest⟩
  · rcases update_eq_some.mp hd with ⟨-, heq⟩ | ⟨hdc, hd⟩
    · rw [(ho circ₁ heq).1] at hq
      cases hq
    · obtain ⟨hnone, set₁, h₁, hleg₁⟩ := h.holds d circ₁ q hd hq
      refine ⟨hnone, ?_⟩
      by_cases hqp : q = p
      · subst hqp
        obtain rfl := some.inj (hset.symm.trans h₁)
        refine ⟨set', update_self _ _ _, .inl ((hlegs d).mpr ⟨?_, hdc⟩)⟩
        exact hleg₁.resolve_right fun hkept => hne₀ hkept.1
      · exact ⟨set₁, (update_of_ne hqp _ _).trans h₁, hleg₁.imp_right fun hkept =>
          hkept.setCirc hdc fun circ' heq => by simp [(ho circ' heq).1]⟩
  · obtain ⟨set₁, h₁, hn, href⟩ := h.unlinked n u hu
    rw [RefersTo] at href
    by_cases hup : u.cfx = p
    · rw [hup] at h₁ href ⊢
      obtain rfl := some.inj (hset.symm.trans h₁)
      refine ⟨set', update_self _ _ _, hnonce.trans hn, ?_⟩
      split at href
      · next hfor =>
          rw [RefersTo, if_pos hfor, hup]
          exact href
      · exact absurd href.1 hne₀
    · exact ⟨set₁, (update_of_ne hup _ _).trans h₁, hn, href⟩
  · exact h.not_waiting hshut hc (.inl (by simp [hconflux])) hu hleg
  · rcases update_eq_some.mp hd with ⟨-, heq⟩ | ⟨-, hd⟩
    · obtain ⟨hconflux₁, hpend₁⟩ := ho circ₁ heq
      exact ⟨fun hno => absurd hconflux₁ hno, fun hno => absurd hpend₁ hno⟩
    · exact h.purpose hclient d circ₁ hd

variable (set') in
/-- **The last leg goes**: its circuit keeps the object, which is in no pool any more. -/
lemma Sets.delLastLeg (h : Sets s) (hset : s.cfx p = some set) (hc : s.circ c = some circ)
    (hconflux : circ.conflux = some p) (hnonce : set'.nonce = set.nonce) (hleg : set.HasLeg c)
    (hlegs : ∀ d, set.HasLeg d → d = c) (hempty : set'.Empty)
    (hnone : s.unlinkedPool set.nonce = none) :
    Sets (((s.setCfx p (some set')).setLinked set.nonce none).setCirc c
      (some { circ with markedForClose := true })) := by
  have hreg : s.linkedPool set.nonce = some p := h.registered p set hset fun he => he c hleg
  have hother : ∀ n q, s.linkedPool n = some q → n ≠ set.nonce → q ≠ p := by
    rintro n q hq hn rfl
    obtain ⟨set₁, h₁, hn₁, -⟩ := h.linked n q hq
    obtain rfl := some.inj (hset.symm.trans h₁)
    exact hn hn₁.symm
  have hunlinked : ∀ n u, s.unlinkedPool n = some u → u.cfx ≠ p := by
    rintro n u hu rfl
    obtain ⟨set₁, h₁, hn₁, -⟩ := h.unlinked n u hu
    obtain rfl := some.inj (hset.symm.trans h₁)
    rw [hn₁, hu] at hnone
    cases hnone
  have hpend : circ.confluxPendingNonce = none := (h.holds c circ p hc hconflux).1
  refine ⟨update_fresh h.cfx_fresh hset, update_fresh h.circ_fresh hc, fun n q hq => ?_,
    fun q set₁ hq he => ?_, fun q set₁ d hq hd => ?_, fun d circ₁ q hd hq => ?_, fun n u hu => ?_,
    fun hshut n u hu => h.waits_setCirc hshut hu fun leg hleg => ?_, fun hclient d circ₁ hd => ?_⟩
  · obtain ⟨hn, hq⟩ := update_none_eq_some.mp hq
    obtain ⟨set₁, h₁, hrest⟩ := h.linked n q hq
    exact ⟨set₁, (update_of_ne (hother n q hq hn) _ _).trans h₁, hrest⟩
  · rcases update_some_eq_some.mp hq with ⟨-, rfl⟩ | ⟨hqp, hq⟩
    · exact absurd hempty he
    · have hreg₁ := h.registered q set₁ hq he
      refine (update_of_ne ?_ _ _).trans hreg₁
      intro heq
      rw [heq, hreg] at hreg₁
      exact hqp (some.inj hreg₁).symm
  · rcases update_some_eq_some.mp hq with ⟨-, rfl⟩ | ⟨hqp, hq⟩
    · exact absurd hd (hempty d)
    · obtain ⟨circ₁, hc₁, hconflux₁, hmarked₁⟩ := h.legs q set₁ d hq hd
      refine ⟨circ₁, (update_of_ne (fun hdc => ?_) _ _).trans hc₁, hconflux₁, hmarked₁⟩
      rw [hdc] at hc₁
      obtain rfl := some.inj (hc.symm.trans hc₁)
      exact hqp (some.inj (hconflux₁.symm.trans hconflux))
  · rcases update_some_eq_some.mp hd with ⟨rfl, rfl⟩ | ⟨hdc, hd⟩
    · obtain rfl : p = q := some.inj (hconflux.symm.trans hq)
      refine ⟨hpend, set', update_self _ _ _, .inr ?_⟩
      refine ⟨hempty, fun circ₂ h₂ => ?_, fun d' circ₂ h₂ hq₂ => ?_, hunlinked, fun _ => ?_⟩
      · rcases update_some_eq_some.mp h₂ with ⟨-, rfl⟩ | ⟨hne, -⟩
        · rfl
        · exact absurd rfl hne
      · rcases update_eq_some.mp h₂ with ⟨heq, -⟩ | ⟨-, h₂⟩
        · exact heq
        · obtain ⟨-, set₁, h₁, hleg₁⟩ := h.holds d' circ₂ p h₂ hq₂
          obtain rfl := some.inj (hset.symm.trans h₁)
          exact hlegs d' (hleg₁.resolve_right fun hkept => hkept.1 d hleg)
      · rw [hnonce]
        exact ⟨hnone, update_self _ _ _⟩
    · obtain ⟨hnone₁, set₁, h₁, hleg₁⟩ := h.holds d circ₁ q hd hq
      have hqp : q ≠ p := by
        rintro rfl
        obtain rfl := some.inj (hset.symm.trans h₁)
        exact hdc (hlegs d (hleg₁.resolve_right fun hkept => hkept.1 c hleg))
      refine ⟨hnone₁, set₁, (update_of_ne hqp _ _).trans h₁, hleg₁.imp_right fun hkept => ?_⟩
      have hkept' := hkept.setCirc (o := some { circ with markedForClose := true }) hdc (by
        rintro _ ⟨⟩ hq₂
        exact hqp (some.inj (hconflux.symm.trans hq₂)).symm)
      refine ⟨hkept.1, hkept'.2.1, hkept'.2.2.1, hkept.2.2.2.1,
        fun hclient => ⟨(hkept.2.2.2.2 hclient).1, ?_⟩⟩
      show update s.linkedPool set.nonce none set₁.nonce = none
      by_cases hn : set₁.nonce = set.nonce
      · rw [hn, update_self]
      · rw [update_of_ne hn]
        exact (hkept.2.2.2.2 hclient).2
  · obtain ⟨set₁, h₁, hn, href⟩ := h.unlinked n u hu
    refine ⟨set₁, (update_of_ne (hunlinked n u hu) _ _).trans h₁, hn, ?_⟩
    have hsame : update s.linkedPool set.nonce none n = s.linkedPool n := by
      refine update_of_ne ?_ _ _
      rintro rfl
      exact absurd (hnone.symm.trans hu) (by simp)
    rw [RefersTo] at href ⊢
    rw [← hsame] at href
    exact href
  · exact h.not_waiting hshut hc (.inl (by simp [hconflux])) hu hleg
  · rcases update_some_eq_some.mp hd with ⟨-, rfl⟩ | ⟨-, hd⟩
    · exact h.purpose hclient c circ hc
    · exact h.purpose hclient d circ₁ hd

/-- **The circuit that keeps an object** is freed with it. -/
lemma Sets.freeKept (h : Sets s) (hset : s.cfx p = some set) (hc : s.circ c = some circ)
    (hconflux : circ.conflux = some p) (hkept : s.Kept p set c) :
    Sets ((s.setCirc c none).setCfx p none) := by
  have hfree : Sets (s.setCirc c none) := by
    refine h.setCirc_free (o := none) (m := s.nextCirc) (fun q set₁ hq hleg => ?_)
      (fun hshut n u leg hu hleg => ?_) (fun _ ho => absurd ho (by simp)) le_rfl (by simp)
    · obtain ⟨circ₁, hc₁, hconflux₁, -⟩ := h.legs q set₁ c hq hleg
      obtain rfl := some.inj (hc.symm.trans hc₁)
      obtain rfl : p = q := some.inj (hconflux.symm.trans hconflux₁)
      obtain rfl := some.inj (hset.symm.trans hq)
      exact hkept.1 c hleg
    · exact h.not_waiting hshut hc (.inl (by simp [hconflux])) hu hleg
  refine hfree.freeCfx hset hkept.1 (fun d circ₁ hd hq => ?_) hkept.2.2.2.1
  obtain ⟨hdc, hd⟩ := update_none_eq_some.mp hd
  exact hdc (hkept.2.2.1 d circ₁ hd hq)

/-! ## Unlinked legs -/

lemma circ_of_mem_eraseP {legs : List PendingLeg} (h : (legs.map PendingLeg.circ).Nodup)
 (hleg : leg ∈ legs.eraseP fun leg => leg.circ = some c) :
    leg.circ ≠ some c := by
  induction legs with
  | nil => exact absurd hleg not_mem_nil
  | cons leg' legs ih =>
    rw [map_cons, nodup_cons] at h
    by_cases hc : leg'.circ = some c
    · rw [eraseP_cons_of_pos (by simp [hc])] at hleg
      intro heq
      rw [hc, ← heq] at h
      exact h.1 (List.mem_map_of_mem hleg)
    · rw [eraseP_cons_of_neg (by simp [hc])] at hleg
      rcases mem_cons.mp hleg with rfl | hleg
      · exact hc
      · exact ih h.2 hleg

lemma Sets.waits_nonce (h : Sets s) (hshut : s.shuttingDown = false) (hc : s.circ c = some circ)
    (hpend : circ.confluxPendingNonce = some n) {n' : Nonce} (hu : s.unlinkedPool n' = some u)
 (hleg : leg ∈ u.legs) (hlegc : leg.circ = some c) : n' = n := by
  obtain ⟨d, circ', hd, hcirc', hpend', -⟩ := (h.waits hshut n' u hu).2 leg hleg
  obtain rfl : d = c := some.inj (hd.symm.trans hlegc)
  obtain rfl := some.inj (hc.symm.trans hcirc')
  exact some.inj (hpend'.symm.trans hpend)

lemma Sets.eraseLeg (h : Sets s) (hshut : s.shuttingDown = false)
    (hu : s.unlinkedPool n = some u) :
    Sets (s.setUnlinked n (some { u with
      legs := u.legs.eraseP fun leg => leg.circ = some c })) := by
  refine h.setLegs hu fun _ => ?_
  obtain ⟨hnodup, hlegs⟩ := h.waits hshut n u hu
  refine ⟨hnodup.sublist (eraseP_sublist.map _), fun leg hleg => ?_⟩
  exact hlegs leg (mem_of_mem_eraseP hleg)

lemma Sets.closeWaiting {circ' : PoolCircuit} (h : Sets s) (hc : s.circ c = some circ)
    (hconflux : circ.conflux = none) (hconflux' : circ'.conflux = none)
    (hpurpose : circ'.confluxPendingNonce ≠ none → circ.confluxPendingNonce ≠ none
      ∧ circ'.linkedPurpose = circ.linkedPurpose)
    (hwaits : s.shuttingDown = false → ∀ n u leg, s.unlinkedPool n = some u → leg ∈ u.legs →
      leg.circ ≠ some c) : Sets (s.setCirc c (some circ')) := by
  refine h.setCirc_free (o := some circ') (m := s.nextCirc)
    (h.not_leg fun circ₁ hc₁ => some.inj (hc.symm.trans hc₁) ▸ hconflux) hwaits
    (fun circ₁ ho => ?_) le_rfl fun _ => h.circ_lt hc
  obtain rfl := some.inj ho
  refine ⟨hconflux', fun hclient hpend => ?_⟩
  obtain ⟨hpend₀, hpurpose₀⟩ := hpurpose hpend
  rw [hpurpose₀]
  exact (h.purpose hclient c circ hc).2 hpend₀

end Ator.Conflux.Pool
