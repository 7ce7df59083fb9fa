import AtorProtocol.Conflux.Pool

/-!
# The sets of a pool

What holds of the objects, circuits and maps of one side while calls are being made, and what each
part of a call does to it.

* `Sets` — the invariant, without the calls.
-/

namespace Ator.Conflux

open Function Option

variable {α : Type}

/-- The circuit is a leg of the set. -/
def ConfluxSet.HasLeg (set : ConfluxSet α) (c : ℕ) : Prop := (confluxGetLeg set.cfx c).isSome

/-- A circuit that joins a set. -/
def PoolCircuit.join (circ : PoolCircuit) (p : ℕ) (isClient : Bool) : PoolCircuit :=
  { circ with conflux := some p, confluxPendingNonce := none, linkedPurpose := isClient }

/-- No leg is left, or none was there yet. -/
def ConfluxSet.Empty (set : ConfluxSet α) : Prop := ∀ c, ¬ set.HasLeg c

namespace Pool

/-- A set whose last leg has closed: only the circuit of that leg still holds it. -/
def Kept (s : Pool α) (p : ℕ) (set : ConfluxSet α) (c : ℕ) : Prop :=
  set.Empty ∧ (∀ circ, s.circ c = some circ → circ.markedForClose = true)
    ∧ (∀ c' circ', s.circ c' = some circ' → circ'.conflux = some p → c' = c)
    ∧ (∀ n u, s.unlinkedPool n = some u → u.cfx ≠ p)
    ∧ (s.isClient = true → s.unlinkedPool set.nonce = none ∧ s.linkedPool set.nonce = none)

/-- What an unlinked set refers to: the object of a linked set, on a relay, or one of its own. -/
def RefersTo (s : Pool α) (n : Nonce) (u : UnlinkedCircuits) (set : ConfluxSet α) : Prop :=
  if u.isForLinkedSet then s.isClient = false ∧ s.linkedPool n = some u.cfx
  else set.Empty ∧ s.linkedPool n = none

/-- A leg that waits to be linked has an open circuit of its own. -/
def Waits (s : Pool α) (n : Nonce) (leg : PendingLeg) : Prop :=
  ∃ c circ, leg.circ = some c ∧ s.circ c = some circ ∧ circ.confluxPendingNonce = some n
    ∧ circ.conflux = none ∧ circ.markedForClose = false

/-- **The objects, circuits and maps** agree: a set is in the linked pool exactly when it has legs,
and what a circuit holds is there. -/
structure Sets (s : Pool α) : Prop where
  cfx_fresh : ∀ p, s.nextCfx ≤ p → s.cfx p = none
  circ_fresh : ∀ c, s.nextCirc ≤ c → s.circ c = none
  linked : ∀ n p, s.linkedPool n = some p → ∃ set, s.cfx p = some set ∧ set.nonce = n ∧ ¬ set.Empty
  registered : ∀ p set, s.cfx p = some set → ¬ set.Empty → s.linkedPool set.nonce = some p
  legs : ∀ p set c, s.cfx p = some set → set.HasLeg c →
    ∃ circ, s.circ c = some circ ∧ circ.conflux = some p ∧ circ.markedForClose = false
  holds : ∀ c circ p, s.circ c = some circ → circ.conflux = some p → circ.confluxPendingNonce = none
      ∧ ∃ set, s.cfx p = some set ∧ (set.HasLeg c ∨ s.Kept p set c)
  unlinked : ∀ n u, s.unlinkedPool n = some u →
    ∃ set, s.cfx u.cfx = some set ∧ set.nonce = n ∧ s.RefersTo n u set
  waits : s.shuttingDown = false → ∀ n u, s.unlinkedPool n = some u →
    (u.legs.map PendingLeg.circ).Nodup ∧ ∀ leg ∈ u.legs, s.Waits n leg
  purpose : s.isClient = true → ∀ c circ, s.circ c = some circ →
    (circ.conflux ≠ none → circ.linkedPurpose = true)
      ∧ (circ.confluxPendingNonce ≠ none → circ.linkedPurpose = false)

variable {s : Pool α} {c p : ℕ} {n : Nonce} {circ : PoolCircuit} {set : ConfluxSet α}
  {u : UnlinkedCircuits}

lemma Sets.not_held (h : Sets s) (hu : s.unlinkedPool n = some u)
    (hown : u.isForLinkedSet = false) (hc : s.circ c = some circ) : circ.conflux ≠ some u.cfx := by
  intro hconflux
  obtain ⟨set, hset, -, href⟩ := h.unlinked n u hu
  obtain ⟨-, set', hset', hleg⟩ := h.holds c circ u.cfx hc hconflux
  obtain rfl : set = set' := some.inj (hset.symm.trans hset')
  rw [RefersTo, if_neg (by simp [hown])] at href
  rcases hleg with hleg | hkept
  · exact href.1 c hleg
  · exact hkept.2.2.2.1 n u hu rfl

lemma Sets.unlinked_inj {n' : Nonce} {u' : UnlinkedCircuits} (h : Sets s)
    (hu : s.unlinkedPool n = some u) (hu' : s.unlinkedPool n' = some u') (heq : u.cfx = u'.cfx) :
    n = n' := by
  obtain ⟨set, hset, hnonce, -⟩ := h.unlinked n u hu
  obtain ⟨set', hset', hnonce', -⟩ := h.unlinked n' u' hu'
  obtain rfl : set = set' := by
    rw [heq, hset'] at hset
    exact (some.inj hset).symm
  exact hnonce.symm.trans hnonce'

lemma Sets.not_leg (h : Sets s) (hfree : ∀ circ, s.circ c = some circ → circ.conflux = none)
    (p : ℕ) (set : ConfluxSet α) (hset : s.cfx p = some set) : ¬ set.HasLeg c := by
  intro hleg
  obtain ⟨circ, hc, hconflux, -⟩ := h.legs p set c hset hleg
  exact absurd ((hfree circ hc).symm.trans hconflux) (by simp)

lemma Sets.circ_lt (h : Sets s) (hc : s.circ c = some circ) : c < s.nextCirc := by
  by_contra hle
  exact absurd ((h.circ_fresh c (Nat.not_lt.mp hle)).symm.trans hc) (by simp)

lemma Sets.waiting_circ (h : Sets s) (hshut : s.shuttingDown = false)
    (hu : s.unlinkedPool n = some u) {leg : PendingLeg} (hleg : leg ∈ u.legs)
    (hlegc : leg.circ = some c) : ∃ circ, s.circ c = some circ
      ∧ circ.confluxPendingNonce = some n ∧ circ.conflux = none ∧ circ.markedForClose = false := by
  obtain ⟨d, circ, hd, hrest⟩ := (h.waits hshut n u hu).2 leg hleg
  obtain rfl : d = c := some.inj (hd.symm.trans hlegc)
  exact ⟨circ, hrest⟩

/-! ## Changes that the sets do not see -/

lemma update_eq_some {ι β : Type} [DecidableEq ι] {f : ι → Option β} {i j : ι} {o : Option β}
    {b : β} : update f i o j = some b ↔ j = i ∧ o = some b ∨ j ≠ i ∧ f j = some b := by
  by_cases hj : j = i
  · rw [hj, update_self]
    simp
  · rw [update_of_ne hj]
    simp [hj]

lemma update_some_eq_some {ι β : Type} [DecidableEq ι] {f : ι → Option β} {i j : ι} {a b : β} :
    update f i (some a) j = some b ↔ j = i ∧ a = b ∨ j ≠ i ∧ f j = some b := by
  rw [update_eq_some, some.injEq]

lemma update_none_eq_some {ι β : Type} [DecidableEq ι] {f : ι → Option β} {i j : ι} {b : β} :
    update f i none j = some b ↔ j ≠ i ∧ f j = some b := by
  rw [update_eq_some]
  simp

lemma update_fresh {β : Type} {f : ℕ → Option β} {m i : ℕ} {o : Option β} {b : β}
    (h : ∀ j, m ≤ j → f j = none) (hi : f i = some b) (j : ℕ) (hj : m ≤ j) :
    update f i o j = none := by
  refine (update_of_ne ?_ _ _).trans (h j hj)
  rintro rfl
  rw [h j hj] at hi
  cases hi

lemma Sets.setCfx (set' : ConfluxSet α) (h : Sets s) (hset : s.cfx p = some set)
    (hnonce : set'.nonce = set.nonce) (hlegs : ∀ c, set'.HasLeg c ↔ set.HasLeg c) :
    Sets (s.setCfx p (some set')) := by
  have hempty : set'.Empty ↔ set.Empty := forall_congr' fun c => not_congr (hlegs c)
  have hp : (s.setCfx p (some set')).cfx p = some set' := update_self _ _ _
  have hne : ∀ q, q ≠ p → (s.setCfx p (some set')).cfx q = s.cfx q := fun q hq =>
    update_of_ne hq _ _
  have hold : ∀ q set₁, (s.setCfx p (some set')).cfx q = some set₁ →
      ∃ set₀, s.cfx q = some set₀ ∧ set₁.nonce = set₀.nonce
        ∧ (∀ c, set₁.HasLeg c ↔ set₀.HasLeg c) ∧ (set₁.Empty ↔ set₀.Empty) := by
    intro q set₁ h₁
    rcases update_some_eq_some.mp h₁ with ⟨rfl, rfl⟩ | ⟨-, heq⟩
    · exact ⟨set, hset, hnonce, hlegs, hempty⟩
    · exact ⟨set₁, heq, rfl, fun _ => Iff.rfl, Iff.rfl⟩
  have hnew : ∀ q set₀, s.cfx q = some set₀ → ∃ set₁, (s.setCfx p (some set')).cfx q = some set₁
      ∧ set₁.nonce = set₀.nonce ∧ (∀ c, set₁.HasLeg c ↔ set₀.HasLeg c)
      ∧ (set₁.Empty ↔ set₀.Empty) := by
    intro q set₀ h₀
    by_cases hq : q = p
    · subst hq
      obtain rfl := some.inj (hset.symm.trans h₀)
      exact ⟨set', hp, hnonce, hlegs, hempty⟩
    · exact ⟨set₀, (hne q hq).trans h₀, rfl, fun _ => Iff.rfl, Iff.rfl⟩
  refine ⟨update_fresh h.cfx_fresh hset, h.circ_fresh, fun n q hq => ?_, fun q set₁ h₁ he => ?_,
    fun q set₁ c h₁ hleg => ?_, fun c circ q hc hq => ?_, fun n u hu => ?_, h.waits, h.purpose⟩
  · obtain ⟨set₀, h₀, hn, he⟩ := h.linked n q hq
    obtain ⟨set₁, h₁, hnonce₁, -, hempty₁⟩ := hnew q set₀ h₀
    exact ⟨set₁, h₁, hnonce₁.trans hn, fun he₁ => he (hempty₁.mp he₁)⟩
  · obtain ⟨set₀, h₀, hnonce₀, -, hempty₀⟩ := hold q set₁ h₁
    rw [hnonce₀]
    exact h.registered q set₀ h₀ fun he₀ => he (hempty₀.mpr he₀)
  · obtain ⟨set₀, h₀, -, hlegs₀, -⟩ := hold q set₁ h₁
    exact h.legs q set₀ c h₀ ((hlegs₀ c).mp hleg)
  · obtain ⟨hpend, set₀, h₀, hleg⟩ := h.holds c circ q hc hq
    obtain ⟨set₁, h₁, hnonce₁, hlegs₁, hempty₁⟩ := hnew q set₀ h₀
    refine ⟨hpend, set₁, h₁, hleg.imp (hlegs₁ c).mpr fun hkept => ?_⟩
    refine ⟨hempty₁.mpr hkept.1, hkept.2.1, hkept.2.2.1, hkept.2.2.2.1, fun hclient => ?_⟩
    rw [hnonce₁]
    exact hkept.2.2.2.2 hclient
  · obtain ⟨set₀, h₀, hn, href⟩ := h.unlinked n u hu
    obtain ⟨set₁, h₁, hnonce₁, -, hempty₁⟩ := hnew u.cfx set₀ h₀
    refine ⟨set₁, h₁, hnonce₁.trans hn, ?_⟩
    rw [RefersTo] at href ⊢
    split at href
    · rw [if_pos ‹_›]
      exact href
    · rw [if_neg ‹_›]
      exact ⟨hempty₁.mpr href.1, href.2⟩

lemma Sets.setCirc_same (circ' : PoolCircuit) (h : Sets s) (hc : s.circ c = some circ)
    (hpend : circ'.confluxPendingNonce = circ.confluxPendingNonce)
    (hconflux : circ'.conflux = circ.conflux) (hmarked : circ'.markedForClose = circ.markedForClose)
    (hpurpose : circ'.linkedPurpose = circ.linkedPurpose) :
    Sets (s.setCirc c (some circ')) := by
  have hold : ∀ d circ₁, (s.setCirc c (some circ')).circ d = some circ₁ →
      ∃ circ₀, s.circ d = some circ₀ ∧ circ₁.confluxPendingNonce = circ₀.confluxPendingNonce
        ∧ circ₁.conflux = circ₀.conflux ∧ circ₁.markedForClose = circ₀.markedForClose
        ∧ circ₁.linkedPurpose = circ₀.linkedPurpose := by
    intro d circ₁ h₁
    rcases update_some_eq_some.mp h₁ with ⟨rfl, rfl⟩ | ⟨-, heq⟩
    · exact ⟨circ, hc, hpend, hconflux, hmarked, hpurpose⟩
    · exact ⟨circ₁, heq, rfl, rfl, rfl, rfl⟩
  have hnew : ∀ d circ₀, s.circ d = some circ₀ → ∃ circ₁,
      (s.setCirc c (some circ')).circ d = some circ₁
        ∧ circ₁.confluxPendingNonce = circ₀.confluxPendingNonce
        ∧ circ₁.conflux = circ₀.conflux ∧ circ₁.markedForClose = circ₀.markedForClose := by
    intro d circ₀ h₀
    by_cases hd : d = c
    · subst hd
      obtain rfl := some.inj (hc.symm.trans h₀)
      exact ⟨circ', update_self _ _ _, hpend, hconflux, hmarked⟩
    · exact ⟨circ₀, (update_of_ne hd _ _).trans h₀, rfl, rfl, rfl⟩
  refine ⟨h.cfx_fresh, update_fresh h.circ_fresh hc, h.linked, h.registered,
    fun q set d hq hleg => ?_, fun d circ₁ q hd hq => ?_, h.unlinked, fun hshut n u hu => ?_,
    fun hclient d circ₁ hd => ?_⟩
  · obtain ⟨circ₀, h₀, hq₀, hm₀⟩ := h.legs q set d hq hleg
    obtain ⟨circ₁, h₁, -, hq₁, hm₁⟩ := hnew d circ₀ h₀
    exact ⟨circ₁, h₁, hq₁.trans hq₀, hm₁.trans hm₀⟩
  · obtain ⟨circ₀, h₀, hpend₀, hq₀, hm₀, -⟩ := hold d circ₁ hd
    obtain ⟨hnone, set, hset, hleg⟩ := h.holds d circ₀ q h₀ (hq₀.symm.trans hq)
    refine ⟨hpend₀.trans hnone, set, hset, hleg.imp_right fun hkept => ?_⟩
    refine ⟨hkept.1, fun circ₂ h₂ => ?_, fun d' circ₂ h₂ hq₂ => ?_, hkept.2.2.2⟩
    · obtain ⟨circ₃, h₃, -, -, hm₃, -⟩ := hold d circ₂ h₂
      exact hm₃.trans (hkept.2.1 circ₃ h₃)
    · obtain ⟨circ₃, h₃, -, hq₃, -⟩ := hold d' circ₂ h₂
      exact hkept.2.2.1 d' circ₃ h₃ (hq₃.symm.trans hq₂)
  · obtain ⟨hnodup, hlegs⟩ := h.waits hshut n u hu
    refine ⟨hnodup, fun leg hleg => ?_⟩
    obtain ⟨d, circ₀, hd, h₀, hpend₀, hconf₀, hm₀⟩ := hlegs leg hleg
    obtain ⟨circ₁, h₁, hpend₁, hconf₁, hm₁⟩ := hnew d circ₀ h₀
    exact ⟨d, circ₁, hd, h₁, hpend₁.trans hpend₀, hconf₁.trans hconf₀, hm₁.trans hm₀⟩
  · obtain ⟨circ₀, h₀, hpend₀, hq₀, -, hpurpose₀⟩ := hold d circ₁ hd
    rw [hq₀, hpend₀, hpurpose₀]
    exact h.purpose hclient d circ₀ h₀

/-! ## Circuits that no set has -/

variable {o : Option PoolCircuit}

lemma Sets.waits_setCirc (h : Sets s) (hshut : s.shuttingDown = false)
    (hu : s.unlinkedPool n = some u) (hne : ∀ leg ∈ u.legs, leg.circ ≠ some c) :
    (u.legs.map PendingLeg.circ).Nodup ∧ ∀ leg ∈ u.legs, (s.setCirc c o).Waits n leg := by
  obtain ⟨hnodup, hlegs⟩ := h.waits hshut n u hu
  refine ⟨hnodup, fun leg hleg => ?_⟩
  obtain ⟨d, circ₀, hd, h₀, hrest⟩ := hlegs leg hleg
  refine ⟨d, circ₀, hd, (update_of_ne ?_ _ _).trans h₀, hrest⟩
  rintro rfl
  exact hne leg hleg hd

lemma Kept.setCirc {d : ℕ} (hkept : s.Kept p set d) (hdc : d ≠ c)
    (ho : ∀ circ', o = some circ' → circ'.conflux ≠ some p) : (s.setCirc c o).Kept p set d := by
  refine ⟨hkept.1, fun circ₂ h₂ => ?_, fun d' circ₂ h₂ hq₂ => ?_, hkept.2.2.2⟩
  · exact hkept.2.1 circ₂ ((update_of_ne hdc _ _).symm.trans h₂)
  · rcases update_eq_some.mp h₂ with ⟨-, heq⟩ | ⟨-, h₂⟩
    · exact absurd hq₂ (ho circ₂ heq)
    · exact hkept.2.2.1 d' circ₂ h₂ hq₂

lemma Sets.setCirc_free {m : ℕ} (h : Sets s)
    (hfree : ∀ p set, s.cfx p = some set → ¬ set.HasLeg c)
    (hwaits : s.shuttingDown = false → ∀ n u leg, s.unlinkedPool n = some u → leg ∈ u.legs →
      leg.circ ≠ some c)
    (ho : ∀ circ', o = some circ' → circ'.conflux = none
      ∧ (s.isClient = true → circ'.confluxPendingNonce ≠ none → circ'.linkedPurpose = false))
    (hm : s.nextCirc ≤ m) (hcm : o.isSome → c < m) :
    Sets { s.setCirc c o with nextCirc := m } := by
  have hold : ∀ d circ₁, (s.setCirc c o).circ d = some circ₁ → circ₁.conflux ≠ none →
      d ≠ c ∧ s.circ d = some circ₁ := by
    intro d circ₁ h₁ hconflux
    rcases update_eq_some.mp h₁ with ⟨-, heq⟩ | ⟨hne, heq⟩
    · exact absurd (ho circ₁ heq).1 hconflux
    · exact ⟨hne, heq⟩
  have hnew : ∀ d circ₀, s.circ d = some circ₀ → d ≠ c → (s.setCirc c o).circ d = some circ₀ :=
    fun d circ₀ h₀ hd => (update_of_ne hd _ _).trans h₀
  refine ⟨h.cfx_fresh, fun d hd => ?_, h.linked, h.registered, fun q set d hq hleg => ?_,
    fun d circ₁ q hd hq => ?_, h.unlinked,
    fun hshut n u hu => h.waits_setCirc hshut hu fun leg => hwaits hshut n u leg hu,
    fun hclient d circ₁ hd => ?_⟩
  · show update s.circ c o d = none
    by_cases hdc : d = c
    · subst hdc
      rw [update_self]
      cases o with
      | none => rfl
      | some circ' => exact absurd (hcm rfl) (Nat.not_lt.mpr hd)
    · rw [update_of_ne hdc]
      exact h.circ_fresh d (hm.trans hd)
  · obtain ⟨circ₀, h₀, hq₀, hm₀⟩ := h.legs q set d hq hleg
    refine ⟨circ₀, hnew d circ₀ h₀ ?_, hq₀, hm₀⟩
    rintro rfl
    exact hfree q set hq hleg
  · obtain ⟨hdc, h₀⟩ := hold d circ₁ hd (by simp [hq])
    obtain ⟨hnone, set, hset, hleg⟩ := h.holds d circ₁ q h₀ hq
    exact ⟨hnone, set, hset, hleg.imp_right fun hkept => hkept.setCirc hdc fun circ' heq => by
      simp [(ho circ' heq).1]⟩
  · rcases update_eq_some.mp hd with ⟨-, heq⟩ | ⟨-, h₀⟩
    · exact ⟨fun hne => absurd (ho circ₁ heq).1 hne, (ho circ₁ heq).2 hclient⟩
    · exact h.purpose hclient d circ₁ h₀

/-! ## Unlinked sets -/

lemma Sets.setLegs {legs : List PendingLeg} (h : Sets s) (hu : s.unlinkedPool n = some u)
    (hlegs : s.shuttingDown = false → (legs.map PendingLeg.circ).Nodup
      ∧ ∀ leg ∈ legs, s.Waits n leg) :
    Sets (s.setUnlinked n (some { u with legs })) := by
  have hold : ∀ n' u', (s.setUnlinked n (some { u with legs })).unlinkedPool n' = some u' →
      ∃ u₀, s.unlinkedPool n' = some u₀ ∧ u'.cfx = u₀.cfx
        ∧ u'.isForLinkedSet = u₀.isForLinkedSet := by
    intro n' u' h'
    rcases update_some_eq_some.mp h' with ⟨rfl, rfl⟩ | ⟨-, heq⟩
    · exact ⟨u, hu, rfl, rfl⟩
    · exact ⟨u', heq, rfl, rfl⟩
  refine ⟨h.cfx_fresh, h.circ_fresh, h.linked, h.registered, h.legs, fun d circ₁ q hd hq => ?_,
    fun n' u' hu' => ?_, fun hshut n' u' hu' => ?_, h.purpose⟩
  · obtain ⟨hnone, set, hset, hleg⟩ := h.holds d circ₁ q hd hq
    refine ⟨hnone, set, hset, hleg.imp_right fun hkept => ?_⟩
    refine ⟨hkept.1, hkept.2.1, hkept.2.2.1, fun n' u' hu' => ?_, fun hclient => ?_⟩
    · obtain ⟨u₀, hu₀, hcfx, -⟩ := hold n' u' hu'
      rw [hcfx]
      exact hkept.2.2.2.1 n' u₀ hu₀
    · obtain ⟨hnone, hlinked⟩ := hkept.2.2.2.2 hclient
      refine ⟨(update_of_ne ?_ _ _).trans hnone, hlinked⟩
      rintro rfl
      rw [hu] at hnone
      cases hnone
  · obtain ⟨u₀, hu₀, hcfx, hfor⟩ := hold n' u' hu'
    obtain ⟨set, hset, hn, href⟩ := h.unlinked n' u₀ hu₀
    refine ⟨set, hcfx ▸ hset, hn, ?_⟩
    rw [RefersTo, hfor, hcfx]
    exact href
  · rcases update_some_eq_some.mp hu' with ⟨rfl, rfl⟩ | ⟨-, heq⟩
    · exact hlegs hshut
    · exact h.waits hshut n' u' heq

lemma Sets.delUnlinked (h : Sets s) (n : Nonce) : Sets (s.setUnlinked n none) := by
  have hold : ∀ n' u', (s.setUnlinked n none).unlinkedPool n' = some u' →
      s.unlinkedPool n' = some u' := by
    intro n' u' h'
    obtain ⟨-, heq⟩ := update_none_eq_some.mp h'
    exact heq
  refine ⟨h.cfx_fresh, h.circ_fresh, h.linked, h.registered, h.legs, fun d circ₁ q hd hq => ?_,
    fun n' u' hu' => h.unlinked n' u' (hold n' u' hu'),
    fun hshut n' u' hu' => h.waits hshut n' u' (hold n' u' hu'), h.purpose⟩
  obtain ⟨hnone, set, hset, hleg⟩ := h.holds d circ₁ q hd hq
  refine ⟨hnone, set, hset, hleg.imp_right fun hkept => ?_⟩
  refine ⟨hkept.1, hkept.2.1, hkept.2.2.1, fun n' u' hu' => ?_, fun hclient => ?_⟩
  · exact hkept.2.2.2.1 n' u' (hold n' u' hu')
  · refine ⟨?_, (hkept.2.2.2.2 hclient).2⟩
    cases hn : (s.setUnlinked n none).unlinkedPool set.nonce with
    | none => rfl
    | some u' => exact absurd ((hkept.2.2.2.2 hclient).1.symm.trans (hold _ u' hn)) (by simp)

lemma Sets.freeCfx (h : Sets s) (hp : s.cfx p = some set) (hempty : set.Empty)
    (hheld : ∀ c circ, s.circ c = some circ → circ.conflux ≠ some p)
    (hunlinked : ∀ n u, s.unlinkedPool n = some u → u.cfx ≠ p) : Sets (s.setCfx p none) := by
  have hold : ∀ q set₁, (s.setCfx p none).cfx q = some set₁ → s.cfx q = some set₁ := by
    intro q set₁ h₁
    obtain ⟨-, heq⟩ := update_none_eq_some.mp h₁
    exact heq
  have hnew : ∀ q set₀, s.cfx q = some set₀ → q ≠ p → (s.setCfx p none).cfx q = some set₀ :=
    fun q set₀ h₀ hq => (update_of_ne hq _ _).trans h₀
  refine ⟨update_fresh h.cfx_fresh hp, h.circ_fresh, fun n q hq => ?_, fun q set₁ h₁ he => ?_,
    fun q set₁ c h₁ hleg => ?_, fun c circ q hc hq => ?_, fun n u hu => ?_, h.waits, h.purpose⟩
  · obtain ⟨set₀, h₀, hn, he⟩ := h.linked n q hq
    refine ⟨set₀, hnew q set₀ h₀ ?_, hn, he⟩
    rintro rfl
    obtain rfl := some.inj (hp.symm.trans h₀)
    exact he hempty
  · exact h.registered q set₁ (hold q set₁ h₁) he
  · exact h.legs q set₁ c (hold q set₁ h₁) hleg
  · obtain ⟨hnone, set₀, h₀, hleg⟩ := h.holds c circ q hc hq
    refine ⟨hnone, set₀, hnew q set₀ h₀ ?_, hleg⟩
    rintro rfl
    exact hheld c circ hc hq
  · obtain ⟨set₀, h₀, hn, href⟩ := h.unlinked n u hu
    exact ⟨set₀, hnew u.cfx set₀ h₀ (hunlinked n u hu), hn, href⟩

lemma Sets.delSet (h : Sets s) (hu : s.unlinkedPool n = some u) :
    Sets (if u.isForLinkedSet then s.setUnlinked n none
      else (s.setUnlinked n none).setCfx u.cfx none) := by
  split
  · exact h.delUnlinked n
  · rename_i hown
    obtain ⟨set, hset, -, href⟩ := h.unlinked n u hu
    rw [RefersTo, if_neg hown] at href
    refine (h.delUnlinked n).freeCfx hset href.1 (fun c circ hc => ?_) fun n' u' hu' heq => ?_
    · exact h.not_held hu (by simpa using hown) hc
    · rcases update_eq_some.mp hu' with ⟨-, h'⟩ | ⟨hne, h'⟩
      · cases h'
      · exact hne (h.unlinked_inj h' hu heq)

lemma empty_new (n : Nonce) : (ConfluxSet.new (α := α) n).Empty := by
  intro c hleg
  cases hleg

lemma Sets.newSet_linked (h : Sets s) (hp : s.linkedPool n = some p)
    (hrelay : s.isClient = false) :
    Sets { s.setUnlinked n (some ⟨true, p, []⟩) with nextCfx := s.nextCfx + 1 } := by
  obtain ⟨set, hset, hn, hempty⟩ := h.linked n p hp
  refine ⟨fun q hq => h.cfx_fresh q (Nat.le_of_succ_le hq), h.circ_fresh, h.linked, h.registered,
    h.legs, fun d circ₁ q hd hq => ?_, fun n' u' hu' => ?_, fun hshut n' u' hu' => ?_, h.purpose⟩
  · obtain ⟨hnone, set', hset', hleg⟩ := h.holds d circ₁ q hd hq
    refine ⟨hnone, set', hset', hleg.imp_right fun hkept => ?_⟩
    refine ⟨hkept.1, hkept.2.1, hkept.2.2.1, fun n' u' hu' => ?_, fun hclient => ?_⟩
    · rcases update_some_eq_some.mp hu' with ⟨-, rfl⟩ | ⟨-, hu'⟩
      · rintro rfl
        obtain rfl := some.inj (hset.symm.trans hset')
        exact hempty hkept.1
      · exact hkept.2.2.2.1 n' u' hu'
    · exact absurd (hrelay.symm.trans hclient) Bool.false_ne_true
  · rcases update_some_eq_some.mp hu' with ⟨rfl, rfl⟩ | ⟨-, hu'⟩
    · exact ⟨set, hset, hn, hrelay, hp⟩
    · exact h.unlinked n' u' hu'
  · rcases update_some_eq_some.mp hu' with ⟨-, rfl⟩ | ⟨-, hu'⟩
    · exact ⟨List.nodup_nil, fun leg hleg => absurd hleg List.not_mem_nil⟩
    · exact h.waits hshut n' u' hu'

lemma Sets.newSet_own (h : Sets s) (hp : s.linkedPool n = none)
    (hclient : s.isClient = true → ∀ p set, s.cfx p = some set → set.nonce ≠ n) :
    Sets { (s.setCfx s.nextCfx (some (ConfluxSet.new n))).setUnlinked n
      (some ⟨false, s.nextCfx, []⟩) with nextCfx := s.nextCfx + 1 } := by
  have hfresh : s.cfx s.nextCfx = none := h.cfx_fresh _ le_rfl
  have hne : ∀ q set, s.cfx q = some set → q ≠ s.nextCfx := by
    rintro q set hq rfl
    rw [hfresh] at hq
    cases hq
  have hnew : ∀ q set, s.cfx q = some set →
      update s.cfx s.nextCfx (some (ConfluxSet.new n)) q = some set := fun q set hq =>
    (update_of_ne (hne q set hq) _ _).trans hq
  refine ⟨fun q hq => ?_, h.circ_fresh, fun n' q hq => ?_, fun q set hq he => ?_,
    fun q set c hq hleg => ?_, fun d circ₁ q hd hq => ?_, fun n' u' hu' => ?_,
    fun hshut n' u' hu' => ?_, h.purpose⟩
  · have hq' : s.nextCfx + 1 ≤ q := hq
    exact (update_of_ne (by omega) _ _).trans (h.cfx_fresh q (by omega))
  · obtain ⟨set, hset, hrest⟩ := h.linked n' q hq
    exact ⟨set, hnew q set hset, hrest⟩
  · rcases update_some_eq_some.mp hq with ⟨-, rfl⟩ | ⟨-, hq⟩
    · exact absurd (empty_new n) he
    · exact h.registered q set hq he
  · rcases update_some_eq_some.mp hq with ⟨-, rfl⟩ | ⟨-, hq⟩
    · exact absurd hleg (empty_new n c)
    · exact h.legs q set c hq hleg
  · obtain ⟨hnone, set, hset, hleg⟩ := h.holds d circ₁ q hd hq
    refine ⟨hnone, set, hnew q set hset, hleg.imp_right fun hkept => ?_⟩
    refine ⟨hkept.1, hkept.2.1, hkept.2.2.1, fun n' u' hu' => ?_, fun hc => ?_⟩
    · rcases update_some_eq_some.mp hu' with ⟨-, rfl⟩ | ⟨-, hu'⟩
      · exact (hne q set hset).symm
      · exact hkept.2.2.2.1 n' u' hu'
    · refine ⟨(update_of_ne (hclient hc q set hset) _ _).trans (hkept.2.2.2.2 hc).1, ?_⟩
      exact (hkept.2.2.2.2 hc).2
  · rcases update_some_eq_some.mp hu' with ⟨rfl, rfl⟩ | ⟨-, hu'⟩
    · exact ⟨ConfluxSet.new n', update_self _ _ _, rfl, empty_new n', hp⟩
    · obtain ⟨set, hset, hrest⟩ := h.unlinked n' u' hu'
      exact ⟨set, hnew _ set hset, hrest⟩
  · rcases update_some_eq_some.mp hu' with ⟨-, rfl⟩ | ⟨-, hu'⟩
    · exact ⟨List.nodup_nil, fun leg hleg => absurd hleg List.not_mem_nil⟩
    · exact h.waits hshut n' u' hu'

/-- **The unlinked set of a nonce** is there, or is created; a client that creates one has no
object with the nonce. -/
lemma Sets.unlinkedGetOrCreate (h : Sets s)
    (hclient : s.unlinkedPool n = none → s.isClient = true →
      ∀ p set, s.cfx p = some set → set.nonce ≠ n) :
    (s.unlinkedGetOrCreate n).2.unlinkedPool n = some (s.unlinkedGetOrCreate n).1
      ∧ Sets (s.unlinkedGetOrCreate n).2 := by
  rw [Pool.unlinkedGetOrCreate]
  cases hu : s.unlinkedPool n with
  | some u => exact ⟨hu, h⟩
  | none =>
    cases hp : s.linkedPool n with
    | some p =>
      refine ⟨update_self _ _ _, h.newSet_linked hp ?_⟩
      obtain ⟨set, hset, hn, -⟩ := h.linked n p hp
      exact Bool.eq_false_iff.mpr fun hc => hclient hu hc p set hset hn
    | none => exact ⟨update_self _ _ _, h.newSet_own hp (hclient hu)⟩

/-! ## Linked sets -/

/-- The circuits `cs` have joined the set at `p`. -/
def joined (s : Pool α) (n : Nonce) (p : ℕ) (set : ConfluxSet α) (cs : List ℕ) : Pool α :=
  { s with
    cfx := update s.cfx p (some set)
    circ := fun c => if c ∈ cs then (s.circ c).map fun circ => circ.join p s.isClient
      else s.circ c
    linkedPool := update s.linkedPool n (some p)
    unlinkedPool := update s.unlinkedPool n none }

lemma Sets.waiting {cs : List ℕ} (h : Sets s) (hshut : s.shuttingDown = false)
    (hu : s.unlinkedPool n = some u) (hcs : u.legs.map PendingLeg.circ = cs.map some)
    (hc : c ∈ cs) : ∃ circ, s.circ c = some circ ∧ circ.confluxPendingNonce = some n
      ∧ circ.conflux = none ∧ circ.markedForClose = false := by
  have hmem : some c ∈ u.legs.map PendingLeg.circ := hcs ▸ List.mem_map_of_mem hc
  obtain ⟨leg, hleg, hlegc⟩ := List.mem_map.mp hmem
  exact h.waiting_circ hshut hu hleg hlegc

/-- **The legs of an unlinked set join its object**, which goes to the linked pool. -/
lemma Sets.joinSet {set' : ConfluxSet α} {cs : List ℕ} (h : Sets s)
    (hshut : s.shuttingDown = false) (hu : s.unlinkedPool n = some u)
    (hset : s.cfx u.cfx = some set) (hcs : u.legs.map PendingLeg.circ = cs.map some)
    (hne : cs ≠ []) (hnonce : set'.nonce = set.nonce)
    (hlegs : ∀ c, set'.HasLeg c ↔ set.HasLeg c ∨ c ∈ cs) :
    Sets (s.joined n u.cfx set' cs) := by
  obtain ⟨set₀, hset₀, hn, href⟩ := h.unlinked n u hu
  obtain rfl : set = set₀ := some.inj (hset.symm.trans hset₀)
  have hwaiting : ∀ c ∈ cs, _ := fun c => h.waiting hshut hu hcs (c := c)
  have hnonempty : ¬ set'.Empty := by
    obtain ⟨c, hc⟩ := List.exists_mem_of_ne_nil cs hne
    exact fun hempty => hempty c ((hlegs c).mpr (.inr hc))
  have hother : ∀ q, s.linkedPool n = some q → q = u.cfx := by
    intro q hq
    rw [RefersTo] at href
    split at href
    · exact some.inj (hq.symm.trans href.2)
    · rw [href.2] at hq
      cases hq
  have hnotcs : ∀ c circ, s.circ c = some circ → circ.conflux ≠ none → c ∉ cs := by
    intro c circ hc hconflux hmem
    obtain ⟨circ', hc', -, hnone, -⟩ := hwaiting c hmem
    obtain rfl := some.inj (hc.symm.trans hc')
    exact hconflux hnone
  refine ⟨update_fresh h.cfx_fresh hset, fun c hc => ?_, fun n' q hq => ?_,
    fun q set₁ hq he => ?_, fun q set₁ c hq hleg => ?_, fun c circ q hc hq => ?_,
    fun n' u' hu' => ?_, fun _ n' u' hu' => ?_, fun hclient c circ hc => ?_⟩
  · show (if c ∈ cs then _ else _) = none
    rw [h.circ_fresh c hc]
    split <;> rfl
  · rcases update_some_eq_some.mp hq with ⟨rfl, rfl⟩ | ⟨hne', hq⟩
    · exact ⟨set', update_self _ _ _, hnonce.trans hn, hnonempty⟩
    · obtain ⟨set₁, h₁, hn₁, he₁⟩ := h.linked n' q hq
      refine ⟨set₁, (update_of_ne ?_ _ _).trans h₁, hn₁, he₁⟩
      rintro rfl
      obtain rfl := some.inj (hset.symm.trans h₁)
      exact hne' (hn₁.symm.trans hn)
  · rcases update_some_eq_some.mp hq with ⟨rfl, rfl⟩ | ⟨hqp, hq⟩
    · rw [hnonce, hn]
      exact update_self _ _ _
    · have hreg := h.registered q set₁ hq he
      refine (update_of_ne ?_ _ _).trans hreg
      intro heq
      rw [heq] at hreg
      exact hqp (hother q hreg)
  · show ∃ circ, (if c ∈ cs then _ else _) = some circ ∧ _
    by_cases hc : c ∈ cs
    · obtain ⟨circ, hcirc, -, -, hmarked⟩ := hwaiting c hc
      rw [if_pos hc, hcirc]
      rcases update_eq_some.mp hq with ⟨rfl, -⟩ | ⟨-, hq⟩
      · exact ⟨circ.join u.cfx s.isClient, rfl, rfl, hmarked⟩
      · obtain ⟨circ', hcirc', hconflux, -⟩ := h.legs q set₁ c hq hleg
        exact absurd hc (hnotcs c circ' hcirc' (by simp [hconflux]))
    · rw [if_neg hc]
      rcases update_some_eq_some.mp hq with ⟨rfl, rfl⟩ | ⟨-, hq⟩
      · exact h.legs _ set c hset (((hlegs c).mp hleg).resolve_right hc)
      · exact h.legs q set₁ c hq hleg
  · have hc' : (if c ∈ cs then (s.circ c).map fun circ => circ.join u.cfx s.isClient
        else s.circ c) = some circ := hc
    by_cases hmem : c ∈ cs
    · rw [if_pos hmem] at hc'
      obtain ⟨circ₀, -, rfl⟩ := Option.map_eq_some_iff.mp hc'
      obtain rfl : u.cfx = q := some.inj hq
      exact ⟨rfl, set', update_self _ _ _, .inl ((hlegs c).mpr (.inr hmem))⟩
    · rw [if_neg hmem] at hc'
      obtain ⟨hnone, set₁, h₁, hleg⟩ := h.holds c circ q hc' hq
      refine ⟨hnone, ?_⟩
      by_cases hqp : q = u.cfx
      · subst hqp
        obtain rfl := some.inj (hset.symm.trans h₁)
        refine ⟨set', update_self _ _ _, .inl ((hlegs c).mpr (.inl ?_))⟩
        exact hleg.resolve_right fun hkept => hkept.2.2.2.1 n u hu rfl
      · refine ⟨set₁, (update_of_ne hqp _ _).trans h₁, hleg.imp_right fun hkept => ?_⟩
        refine ⟨hkept.1, fun circ₁ hc₁ => ?_, fun c' circ₁ hc₁ hq₁ => ?_, fun n' u' hu' => ?_,
          fun hclient => ⟨?_, ?_⟩⟩
        · have hc₁' : (if c ∈ cs then _ else s.circ c) = some circ₁ := hc₁
          rw [if_neg hmem] at hc₁'
          exact hkept.2.1 circ₁ hc₁'
        · have hc₁' : (if c' ∈ cs then (s.circ c').map fun circ => circ.join u.cfx s.isClient
              else s.circ c') = some circ₁ := hc₁
          split at hc₁'
          · obtain ⟨circ₀, -, rfl⟩ := Option.map_eq_some_iff.mp hc₁'
            exact absurd (some.inj hq₁).symm hqp
          · exact hkept.2.2.1 c' circ₁ hc₁' hq₁
        · obtain ⟨-, hu'⟩ := update_none_eq_some.mp hu'
          exact hkept.2.2.2.1 n' u' hu'
        · cases hu' : update s.unlinkedPool n none set₁.nonce with
          | none => exact hu'
          | some u' =>
            obtain ⟨-, hu'⟩ := update_none_eq_some.mp hu'
            rw [(hkept.2.2.2.2 hclient).1] at hu'
            cases hu'
        · refine (update_of_ne ?_ _ _).trans (hkept.2.2.2.2 hclient).2
          intro heq
          have hnone' := (hkept.2.2.2.2 hclient).1
          rw [heq, hu] at hnone'
          cases hnone'
  · obtain ⟨hne', hu'⟩ := update_none_eq_some.mp hu'
    obtain ⟨set₁, h₁, hn₁, href₁⟩ := h.unlinked n' u' hu'
    refine ⟨set₁, (update_of_ne ?_ _ _).trans h₁, hn₁, ?_⟩
    · exact fun heq => hne' (h.unlinked_inj hu' hu heq)
    · have hsame : update s.linkedPool n (some u.cfx) n' = s.linkedPool n' :=
        update_of_ne hne' _ _
      rw [RefersTo] at href₁ ⊢
      rw [← hsame] at href₁
      exact href₁
  · obtain ⟨hne', hu'⟩ := update_none_eq_some.mp hu'
    obtain ⟨hnodup, hlegs'⟩ := h.waits hshut n' u' hu'
    refine ⟨hnodup, fun leg hleg => ?_⟩
    obtain ⟨c, circ, hc, hcirc, hpend, hrest⟩ := hlegs' leg hleg
    refine ⟨c, circ, hc, (if_neg fun hmem => ?_).trans hcirc, hpend, hrest⟩
    obtain ⟨circ', hcirc', hpend', -⟩ := hwaiting c hmem
    obtain rfl := some.inj (hcirc.symm.trans hcirc')
    exact hne' (some.inj (hpend.symm.trans hpend'))
  · have hc' : (if c ∈ cs then (s.circ c).map fun circ => circ.join u.cfx s.isClient
        else s.circ c) = some circ := hc
    split at hc'
    · obtain ⟨circ₀, -, rfl⟩ := Option.map_eq_some_iff.mp hc'
      exact ⟨fun _ => hclient, fun hne' => absurd rfl hne'⟩
    · exact h.purpose hclient c circ hc'

end Pool

end Ator.Conflux
