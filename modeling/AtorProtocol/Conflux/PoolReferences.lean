import AtorProtocol.Conflux.PoolRegistration

/-!
# What the circuits of a side refer to

A relay may lose a set that has legs from its linked pool, and with it the invariant of the pools.
The objects themselves it does not lose.

* `Refs` — what a circuit refers to is there.
* `RelayInv` — the invariant of every run of a relay.
* `Sound` — that of every run of a client or a relay; `Sound.of_step`.
-/

namespace Ator.Conflux.Pool

open List Function Option
open Except (ok.inj)

variable {α : Type} {s t : Pool α} {c d p q : ℕ} {n : Nonce} {circ : PoolCircuit}
  {set set' : ConfluxSet α} {u : UnlinkedCircuits} {e : PoolEvent α} {call : Call}
  {calls : List Call} {o : Option (ConfluxSet α)}

/-- `circ->conflux` is the object at `p`. -/
def Holds (s : Pool α) (c p : ℕ) : Prop := ∃ circ, s.circ c = some circ ∧ circ.conflux = some p

/-- **What a circuit refers to is there**, and the circuit is a leg of it, or nothing else refers
to it. -/
structure Refs (s : Pool α) : Prop where
  cfx_fresh : ∀ p, s.nextCfx ≤ p → s.cfx p = none
  circ_fresh : ∀ c, s.nextCirc ≤ c → s.circ c = none
  linked : ∀ n p, s.linkedPool n = some p → ∃ set, s.cfx p = some set ∧ set.nonce = n ∧ ¬ set.Empty
  legs : ∀ p set c, s.cfx p = some set → set.HasLeg c → s.Holds c p
  holds : ∀ c p, s.Holds c p →
    ∃ set, s.cfx p = some set ∧ (set.HasLeg c ∨ ∀ d, s.Holds d p → d = c)

lemma holds_setCirc {o : Option PoolCircuit} : (s.setCirc c o).Holds d q
    ↔ d = c ∧ (∃ circ, o = some circ ∧ circ.conflux = some q) ∨ d ≠ c ∧ s.Holds d q := by
  rw [Holds, Holds]
  simp only [setCirc, update_eq_some]
  constructor
  · rintro ⟨circ, ⟨hd, ho⟩ | ⟨hd, hcirc⟩, hq⟩
    · exact .inl ⟨hd, circ, ho, hq⟩
    · exact .inr ⟨hd, circ, hcirc, hq⟩
  · rintro (⟨hd, circ, ho, hq⟩ | ⟨hd, circ, hcirc, hq⟩)
    · exact ⟨circ, .inl ⟨hd, ho⟩, hq⟩
    · exact ⟨circ, .inr ⟨hd, hcirc⟩, hq⟩

lemma holds_iff (hc : s.circ c = some circ) : s.Holds c p ↔ circ.conflux = some p := by
  rw [Holds, hc]
  simp

lemma holds_setCirc_same {circ' : PoolCircuit} (hc : s.circ c = some circ)
    (hconflux : circ'.conflux = circ.conflux) : (s.setCirc c (some circ')).Holds d q ↔ s.Holds d q := by
  rw [holds_setCirc]
  by_cases hd : d = c
  · rw [hd, holds_iff hc]
    simp [hconflux]
  · simp [hd]

lemma Refs.hasLeg (h : Refs s) (hset : s.cfx p = some set) (hne : ¬ set.Empty)
    (hc : s.Holds c p) : set.HasLeg c := by
  obtain ⟨set₁, hset₁, hleg⟩ := h.holds c p hc
  obtain rfl := some.inj (hset.symm.trans hset₁)
  refine hleg.elim id fun honly => ?_
  obtain ⟨d, hd⟩ := not_forall_not.mp hne
  rwa [← honly d (h.legs p set d hset hd)]

lemma Refs.lt_nextCfx (h : Refs s) (hset : s.cfx p = some set) : p < s.nextCfx := by
  by_contra hle
  rw [h.cfx_fresh p (Nat.not_lt.mp hle)] at hset
  cases hset

lemma Refs.fresh_setCirc (h : Refs s) (hc : s.circ c = some circ) (o : Option PoolCircuit) (d : ℕ)
    (hd : s.nextCirc ≤ d) : update s.circ c o d = none := by
  have hfresh := h.circ_fresh d hd
  refine (update_of_ne ?_ _ _).trans hfresh
  rintro rfl
  rw [hc] at hfresh
  cases hfresh

lemma Refs.of_holds (h : Refs s) (hcfx : t.cfx = s.cfx) (hnext : t.nextCfx = s.nextCfx)
    (hlinked : t.linkedPool = s.linkedPool) (hfresh : ∀ c, t.nextCirc ≤ c → t.circ c = none)
    (hholds : ∀ c p, t.Holds c p ↔ s.Holds c p) : Refs t := by
  refine ⟨fun p hp => ?_, hfresh, fun n p hp => ?_, fun p set c hset hleg => ?_, fun c p hc => ?_⟩
  · rw [hcfx]
    exact h.cfx_fresh p (hnext ▸ hp)
  · rw [hcfx]
    exact h.linked n p (hlinked ▸ hp)
  · rw [hholds]
    exact h.legs p set c (hcfx ▸ hset) hleg
  · obtain ⟨set, hset, hleg⟩ := h.holds c p ((hholds c p).mp hc)
    exact ⟨set, hcfx ▸ hset, hleg.imp_right fun honly d hd => honly d ((hholds d p).mp hd)⟩

/-- **One object changes**, with the circuits that refer to it. -/
lemma Refs.setObject (h : Refs s) (hcfx : t.cfx = update s.cfx p o)
    (hnext : s.nextCfx ≤ t.nextCfx) (hp : p < t.nextCfx)
    (hfresh : ∀ c, t.nextCirc ≤ c → t.circ c = none)
    (hlinked : ∀ n q, t.linkedPool n = some q → q ≠ p ∧ s.linkedPool n = some q
      ∨ q = p ∧ ∃ set', o = some set' ∧ set'.nonce = n ∧ ¬ set'.Empty)
    (hholds : ∀ d q, q ≠ p → (t.Holds d q ↔ s.Holds d q))
    (hlegs : ∀ set' d, o = some set' → set'.HasLeg d → t.Holds d p)
    (hkeep : ∀ d, t.Holds d p →
      ∃ set', o = some set' ∧ (set'.HasLeg d ∨ ∀ d', t.Holds d' p → d' = d)) : Refs t := by
  refine ⟨fun q hq => ?_, hfresh, fun n q hq => ?_, fun q set₁ d hset hleg => ?_, fun d q hd => ?_⟩
  · rw [hcfx, update_of_ne (by omega)]
    exact h.cfx_fresh q (by omega)
  · rw [hcfx]
    rcases hlinked n q hq with ⟨hqp, hq⟩ | ⟨rfl, set', rfl, hrest⟩
    · rw [update_of_ne hqp]
      exact h.linked n q hq
    · exact ⟨set', update_self _ _ _, hrest⟩
  · rw [hcfx] at hset
    rcases update_eq_some.mp hset with ⟨rfl, ho⟩ | ⟨hqp, hset⟩
    · exact hlegs set₁ d ho hleg
    · exact (hholds d q hqp).mpr (h.legs q set₁ d hset hleg)
  · rw [hcfx]
    by_cases hqp : q = p
    · subst hqp
      obtain ⟨set', rfl, hrest⟩ := hkeep d hd
      exact ⟨set', update_self _ _ _, hrest⟩
    · obtain ⟨set₁, hset₁, hleg⟩ := h.holds d q ((hholds d q hqp).mp hd)
      refine ⟨set₁, (update_of_ne hqp _ _).trans hset₁, hleg.imp_right ?_⟩
      exact fun honly d' hd' => honly d' ((hholds d' q hqp).mp hd')

lemma Refs.setCfx_same (set' : ConfluxSet α) (h : Refs s) (hset : s.cfx p = some set)
    (hnonce : set'.nonce = set.nonce) (hlegs : ∀ c, set'.HasLeg c ↔ set.HasLeg c) :
    Refs (s.setCfx p (some set')) := by
  refine h.setObject rfl le_rfl (h.lt_nextCfx hset) h.circ_fresh (fun n q hq => ?_)
    (fun _ _ _ => Iff.rfl) (fun set₁ d ho hleg => ?_) fun d hd => ⟨set', rfl, ?_⟩
  · by_cases hqp : q = p
    · subst hqp
      obtain ⟨set₁, hset₁, hn, hne⟩ := h.linked n q hq
      obtain rfl := some.inj (hset.symm.trans hset₁)
      refine .inr ⟨rfl, set', rfl, hnonce.trans hn, fun hempty => hne fun c hc => ?_⟩
      exact hempty c ((hlegs c).mpr hc)
    · exact .inl ⟨hqp, hq⟩
  · obtain rfl := some.inj ho
    exact h.legs p set d hset ((hlegs d).mp hleg)
  · obtain ⟨set₁, hset₁, hleg⟩ := h.holds d p hd
    obtain rfl := some.inj (hset.symm.trans hset₁)
    exact hleg.imp_left (hlegs d).mpr

lemma Refs.linked_without (h : Refs s) (hset : s.cfx p = some set)
    (hq : update s.linkedPool set.nonce none n = some q) :
    q ≠ p ∧ s.linkedPool n = some q := by
  rcases update_eq_some.mp hq with ⟨-, hnone⟩ | ⟨hn, hq⟩
  · cases hnone
  · refine ⟨?_, hq⟩
    rintro rfl
    obtain ⟨set₁, hset₁, hn₁, -⟩ := h.linked n q hq
    obtain rfl := some.inj (hset.symm.trans hset₁)
    exact hn hn₁.symm

/-- **A leg goes**, and others are left: its circuit does not refer to the set any more. -/
lemma Refs.delLeg (h : Refs s) (set' : ConfluxSet α) (hset : s.cfx p = some set) (hc : s.Holds c p)
    (hnonce : set'.nonce = set.nonce) (hlegs : ∀ d, set'.HasLeg d ↔ set.HasLeg d ∧ d ≠ c)
    (hne : ¬ set'.Empty) (hcfx : t.cfx = update s.cfx p (some set'))
    (hnext : t.nextCfx = s.nextCfx) (hlinked : t.linkedPool = s.linkedPool)
    (hfresh : ∀ c, t.nextCirc ≤ c → t.circ c = none)
    (hholds : ∀ d q, t.Holds d q ↔ s.Holds d q ∧ d ≠ c) : Refs t := by
  have hset_ne : ¬ set.Empty := fun hempty => hne fun d hd => hempty d ((hlegs d).mp hd).1
  refine h.setObject hcfx hnext.ge (hnext ▸ h.lt_nextCfx hset) hfresh (fun n q hq => ?_)
    (fun d q hqp => ?_) (fun set₁ d ho hleg => ?_) fun d hd => ⟨set', rfl, .inl ?_⟩
  · rw [hlinked] at hq
    by_cases hqp : q = p
    · subst hqp
      obtain ⟨set₁, hset₁, hn, -⟩ := h.linked n q hq
      obtain rfl := some.inj (hset.symm.trans hset₁)
      exact .inr ⟨rfl, set', rfl, hnonce.trans hn, hne⟩
    · exact .inl ⟨hqp, hq⟩
  · rw [hholds, and_iff_left_iff_imp]
    rintro hd rfl
    obtain ⟨circ, hcirc, hconflux⟩ := hc
    rw [holds_iff hcirc, hconflux] at hd
    exact hqp (some.inj hd).symm
  · obtain rfl := some.inj ho
    obtain ⟨hleg, hdc⟩ := (hlegs d).mp hleg
    exact (hholds d p).mpr ⟨h.legs p set d hset hleg, hdc⟩
  · obtain ⟨hd, hdc⟩ := (hholds d p).mp hd
    exact (hlegs d).mpr ⟨h.hasLeg hset hset_ne hd, hdc⟩

lemma Refs.only (h : Refs s) (hset : s.cfx p = some set) (hc : s.Holds c p)
    (hlegs : ∀ d, set.HasLeg d → d = c) (hd : s.Holds d p) : d = c := by
  obtain ⟨set₁, hset₁, hleg⟩ := h.holds d p hd
  obtain rfl := some.inj (hset.symm.trans hset₁)
  exact hleg.elim (hlegs d) fun honly => (honly c hc).symm

/-! ## Relays -/

/-- A leg that a relay did not link: its circuit is closed next. -/
structure Refused (s : Pool α) (n : Nonce) (u : UnlinkedCircuits) (c : ℕ) : Prop where
  next : s.calls.head? = some (.markForClose c)
  legs : u.legs.map PendingLeg.circ = [some c]
  circ : ∃ circ, s.circ c = some circ ∧ circ.confluxPendingNonce = some n
    ∧ circ.conflux = none ∧ circ.markedForClose = false
  object : ∃ set, s.cfx u.cfx = some set ∧ set.nonce = n
    ∧ (u.isForLinkedSet = false → set.Empty ∧ ∀ d, ¬ s.Holds d u.cfx)

/-- **The invariant of a relay**, whether or not sets are lost from its pool. -/
structure RelayInv (s : Pool α) : Prop where
  isClient : s.isClient = false
  refs : Refs s
  refused : ∀ n u, s.unlinkedPool n = some u → ∃ c, s.Refused n u c
  launches : ∀ call ∈ s.calls, call.launches = none

lemma RelayInv.unlinked_none (h : RelayInv s)
    (hno : ∀ c circ, s.calls.head? = some (.markForClose c) → s.circ c = some circ →
      circ.confluxPendingNonce = none ∨ circ.conflux ≠ none ∨ circ.markedForClose = true) (n : Nonce) :
    s.unlinkedPool n = none := by
  cases hu : s.unlinkedPool n with
  | none => rfl
  | some u =>
    obtain ⟨c, hrefused⟩ := h.refused n u hu
    obtain ⟨circ, hc, hpend, hconflux, hmarked⟩ := hrefused.circ
    have hthis := hno c circ hrefused.next hc
    rw [hpend, hmarked] at hthis
    simp [hconflux] at hthis

lemma RelayInv.unlinked_nil (h : RelayInv s) (hcalls : s.calls = []) (n : Nonce) :
    s.unlinkedPool n = none :=
  h.unlinked_none (fun c circ hhead => by rw [hcalls] at hhead; cases hhead) n

lemma RelayInv.of_none (hclient : t.isClient = false) (hrefs : Refs t)
    (hnone : ∀ n, t.unlinkedPool n = none) (hlaunches : ∀ call ∈ t.calls, call.launches = none) :
    RelayInv t := by
  refine ⟨hclient, hrefs, fun n u hu => ?_, hlaunches⟩
  rw [hnone n] at hu
  cases hu

lemma Refs.setCalls (h : Refs s) (calls : List Call) : Refs { s with calls } :=
  ⟨h.cfx_fresh, h.circ_fresh, h.linked, h.legs, h.holds⟩

/-! ## Linking on a relay -/

/-- **The unlinked set of a nonce** is a new one: its object is one that has legs, or that no
circuit refers to. -/
lemma RelayInv.unlinkedGetOrCreate (h : RelayInv s) (hcalls : s.calls = []) (n : Nonce) :
    ∃ u y set, s.unlinkedGetOrCreate n = (u, y) ∧ u.legs = [] ∧ y.circ = s.circ ∧ y.calls = []
      ∧ y.isClient = false ∧ (∀ n', n' ≠ n → y.unlinkedPool n' = none) ∧ Refs y
      ∧ y.cfx u.cfx = some set ∧ set.nonce = n
      ∧ (u.isForLinkedSet = false → set.Empty ∧ ∀ d, ¬ y.Holds d u.cfx)
      ∧ (u.isForLinkedSet = true → ¬ set.Empty) := by
  have hnone := h.unlinked_nil hcalls
  have hothers : ∀ u n', n' ≠ n → update s.unlinkedPool n (some u) n' = none :=
    fun u n' hn => (update_of_ne hn _ _).trans (hnone n')
  rw [Pool.unlinkedGetOrCreate, hnone n]
  cases hp : s.linkedPool n with
  | some p =>
    obtain ⟨set, hset, hn, hne⟩ := h.refs.linked n p hp
    refine ⟨_, _, set, rfl, rfl, rfl, hcalls, h.isClient, hothers _, ?_, hset, hn,
      fun hown => absurd hown (by simp), fun _ => hne⟩
    exact ⟨fun q hq => h.refs.cfx_fresh q (Nat.le_of_succ_le hq), h.refs.circ_fresh,
      h.refs.linked, h.refs.legs, h.refs.holds⟩
  | none =>
    have hfresh : s.cfx s.nextCfx = none := h.refs.cfx_fresh _ le_rfl
    have hnot : ∀ d, ¬ s.Holds d s.nextCfx := by
      intro d hd
      obtain ⟨set, hset, -⟩ := h.refs.holds d _ hd
      rw [hfresh] at hset
      cases hset
    refine ⟨_, _, ConfluxSet.new n, rfl, rfl, rfl, hcalls, h.isClient, hothers _, ?_,
      update_self _ _ _, rfl, fun _ => ⟨empty_new n, hnot⟩, fun hfor => absurd hfor (by simp)⟩
    refine h.refs.setObject rfl (Nat.le_succ _) (Nat.lt_succ_self _) h.refs.circ_fresh
      (fun n' q hq => .inl ⟨?_, hq⟩) (fun _ _ _ => Iff.rfl) (fun set' d ho hleg => ?_)
      fun d hd => absurd hd (hnot d)
    · rintro rfl
      obtain ⟨set, hset, -⟩ := h.refs.linked n' _ hq
      rw [hfresh] at hset
      cases hset
    · obtain rfl := some.inj ho
      exact absurd hleg (empty_new n d)

lemma holds_joined {z : Pool α} (set' : ConfluxSet α) (hz : z.circ c = some circ) :
    (z.joined n p set' [c]).Holds d q ↔ d = c ∧ q = p ∨ d ≠ c ∧ z.Holds d q := by
  rw [Holds, Holds]
  show (∃ circ', (if d ∈ [c] then _ else _) = some circ' ∧ _) ↔ _
  by_cases hd : d = c
  · rw [if_pos (by simp [hd]), hd, hz]
    simp [PoolCircuit.join, eq_comm]
  · rw [if_neg (by simp [hd])]
    simp [hd]

lemma Refs.join {z : Pool α} (set' : ConfluxSet α) (h : Refs z) (hz : z.circ c = some circ)
    (hconflux : circ.conflux = none) (hset : z.cfx p = some set) (hn : set.nonce = n)
    (hnonce : set'.nonce = n) (hlegs : ∀ d, set'.HasLeg d ↔ set.HasLeg d ∨ d = c)
    (hheld : ¬ set.Empty ∨ ∀ d, ¬ z.Holds d p) : Refs (z.joined n p set' [c]) := by
  have hnot : ∀ q, ¬ z.Holds c q := by
    intro q hq
    rw [holds_iff hz, hconflux] at hq
    cases hq
  refine h.setObject rfl le_rfl (h.lt_nextCfx hset) (fun d hd => ?_) (fun n' q hq => ?_)
    (fun d q hqp => ?_) (fun set₁ d ho hleg => ?_) fun d hd => ⟨set', rfl, .inl ?_⟩
  · show (if d ∈ [c] then _ else _) = none
    rw [h.circ_fresh d hd]
    split <;> rfl
  · rcases update_eq_some.mp hq with ⟨rfl, heq⟩ | ⟨hn', hold⟩
    · refine .inr ⟨(some.inj heq).symm, set', rfl, hnonce, fun hempty => ?_⟩
      exact hempty c ((hlegs c).mpr (.inr rfl))
    · refine .inl ⟨?_, hold⟩
      rintro rfl
      obtain ⟨set₁, hset₁, hn₁, -⟩ := h.linked n' q hold
      obtain rfl := some.inj (hset.symm.trans hset₁)
      exact hn' (hn₁.symm.trans hn)
  · rw [holds_joined set' hz]
    by_cases hd : d = c
    · simp [hd, hqp, hnot]
    · simp [hd]
  · obtain rfl := some.inj ho
    rw [holds_joined set' hz]
    by_cases hd : d = c
    · exact .inl ⟨hd, rfl⟩
    · exact .inr ⟨hd, h.legs p set d hset (((hlegs d).mp hleg).resolve_right hd)⟩
  · rcases (holds_joined set' hz).mp hd with ⟨hd, -⟩ | ⟨-, hd⟩
    · exact (hlegs d).mpr (.inr hd)
    · rcases hheld with hne | hnone
      · exact (hlegs d).mpr (.inl (h.hasLeg hset hne hd))
      · exact absurd hd (hnone d)

lemma tryFinalizeSet_not_waiting {maxLegsSet : ℕ} {cfx : Cfx ℕ α} {legs : List (Leg ℕ Nonce)}
    (hall : legs.all Leg.linked = true) :
    Conflux.tryFinalizeSet maxLegsSet cfx legs ≠ .waiting := by
  intro hresult
  rw [Conflux.tryFinalizeSet] at hresult
  split_ifs at hresult

/-- **`conflux_process_link`** keeps the invariant. -/
lemma RelayInv.link {cell : Option (LinkCell Nonce)} {enabled validHop sent : Bool}
    (h : RelayInv s) (hcalls : s.calls = []) (hc : s.circ c = some circ)
    (hmarked : circ.markedForClose = false)
    (ht : s.confluxProcessLink c cell enabled validHop sent = .ok t) : RelayInv t := by
  rcases confluxProcessLink_cases cell enabled validHop sent hc with
    heq | ⟨hclient, hpend, hconflux, link, -, heq⟩
  · obtain rfl := ok.inj (heq.symm.trans ht)
    refine RelayInv.of_none h.isClient (h.refs.setCalls _) (h.unlinked_nil hcalls) fun call hmem => ?_
    rw [callLater, hcalls] at hmem
    rw [mem_singleton.mp hmem]
    rfl
  obtain ⟨u, y, set, hy, hnil, hycirc, hycalls, hyclient, hothers, hyrefs, hset, hn, hown, hfor⟩ :=
    h.unlinkedGetOrCreate hcalls link.nonce
  rw [heq u y set hy hnil hset] at ht
  set u' : UnlinkedCircuits := { u with legs := u.legs ++ [⟨some c, link, true⟩] } with hu'
  set circ' : PoolCircuit := { circ with confluxPendingNonce := some link.nonce } with hcirc'
  set z : Pool α := (y.setCirc c (some circ')).setUnlinked link.nonce (some u') with hz
  have hzu : z.unlinkedPool link.nonce = some u' := update_self _ _ _
  have hzc : z.circ c = some circ' := update_self _ _ _
  have hyc : y.circ c = some circ := hycirc ▸ hc
  have hzholds : ∀ d q, z.Holds d q ↔ y.Holds d q := fun d q => holds_setCirc_same hyc rfl
  have hzrefs : Refs z := by
    exact hyrefs.of_holds rfl rfl rfl (hyrefs.fresh_setCirc hyc _) hzholds
  have hlegs : u'.waiting = [⟨c, link, true⟩] := waiting_of_one hnil link true
  -- the leg is not linked, and its circuit is closed
  have hrefused : ∀ calls, calls.head? = some (.markForClose c) →
      (∀ call ∈ calls, call.launches = none) → RelayInv { z with calls } := by
    intro calls hhead hlaunches
    refine ⟨hyclient, hzrefs.setCalls calls, fun n u₁ hu₁ => ⟨c, hhead, ?_, ?_, ?_⟩, hlaunches⟩
    all_goals
      rcases update_eq_some.mp hu₁ with ⟨rfl, heq₁⟩ | ⟨hne, hu₁⟩
      swap
      · rw [show (y.setCirc c (some circ')).unlinkedPool n = none from hothers n hne] at hu₁
        cases hu₁
      obtain rfl := some.inj heq₁
    · rw [hu', hnil]
      rfl
    · exact ⟨circ', hzc, rfl, hconflux, hmarked⟩
    · refine ⟨set, hset, hn, fun hfor' => ⟨(hown hfor').1, fun d hd => ?_⟩⟩
      exact (hown hfor').2 d ((hzholds d _).mp hd)
  have hclosed : RelayInv (z.callLater (.markForClose c)) := by
    have hzcalls : z.calls = [] := hycalls
    refine hrefused _ (by rw [hzcalls]; rfl) fun call hmem => ?_
    rw [hzcalls] at hmem
    rw [mem_singleton.mp hmem]
    rfl
  rw [tryFinalizeSet_eq (fun leg hleg => ?_) hzu hset hn, hlegs] at ht
  · cases hresult : Conflux.tryFinalizeSet z.maxLegsSet set.cfx [⟨c, link, true⟩] with
    | waiting => exact absurd hresult (tryFinalizeSet_not_waiting rfl)
    | missingLeg | tooManyLegs =>
      rw [hresult] at ht
      obtain rfl := ok.inj ht
      exact hclosed
    | invalidLegs =>
      rw [hresult] at ht
      obtain rfl := ok.inj ht
      refine hrefused _ rfl fun call hmem => ?_
      rw [Pool.call, show z.calls = [] from hycalls] at hmem
      simp at hmem
      rcases hmem with rfl | rfl | rfl <;> rfl
    | linked cfx =>
      obtain ⟨-, -, -, -, rfl⟩ := tryFinalizeSet_linked hresult
      rw [hresult] at ht
      set set' : ConfluxSet α := { set with
        cfx := [⟨c, link, true⟩].foldl cfxAddLeg set.cfx, numLegLaunch := 0 } with hset'
      have hset'legs : ∀ d, set'.HasLeg d ↔ set.HasLeg d ∨ d = c := by
        intro d
        refine (confluxGetLeg_foldl set.cfx [⟨c, link, true⟩] d).trans ?_
        rw [map_singleton, mem_singleton]
        rfl
      have hjoined : ∀ calls, (∀ call ∈ calls, call.launches = none) →
          RelayInv { z.joined link.nonce u'.cfx set' [c] with calls } := by
        intro calls hlaunches
        refine RelayInv.of_none hyclient ((hzrefs.join set' hzc hconflux hset hn hn hset'legs
          ?_).setCalls calls) (fun n => ?_) hlaunches
        · cases hcase : u.isForLinkedSet with
          | true => exact .inl (hfor hcase)
          | false => exact .inr fun d hd => (hown hcase).2 d ((hzholds d _).mp hd)
        · by_cases hn' : n = link.nonce
          · rw [hn']
            exact update_self _ _ _
          · refine (update_of_ne hn' _ _).trans ?_
            exact (update_of_ne hn' _ _).trans (hothers n hn')
      simp only at ht
      split at ht
      · cases ht
      · obtain rfl := ok.inj ht
        have hzcalls : z.calls = [] := hycalls
        simp only
        split
        · refine hjoined _ fun call hmem => ?_
          have hmem' : call ∈ z.calls ++ [.markForClose c] := hmem
          rw [hzcalls] at hmem'
          rw [mem_singleton.mp hmem']
          rfl
        · refine hjoined z.calls fun call hmem => ?_
          rw [hzcalls] at hmem
          exact absurd hmem not_mem_nil
  · rw [hu', hnil] at hleg
    obtain rfl := mem_singleton.mp hleg
    exact ⟨c, circ', rfl, hzc⟩

/-! ## Freeing and closing on a relay -/

/-- **A circuit is freed**, with the object that nothing else refers to. -/
lemma RelayInv.free (h : RelayInv s) (hcalls : s.calls = []) (hc : s.circ c = some circ)
    (ht : s.confluxCircuitAboutToFree c = .ok t) : RelayInv t := by
  have hnone := h.unlinked_nil hcalls
  have hlaunches : ∀ call ∈ s.calls, call.launches = none := h.launches
  have hfresh := h.refs.fresh_setCirc hc none
  have hholds : ∀ {x : Pool α}, x.circ = s.circ →
      ∀ d q, (x.setCirc c none).Holds d q ↔ s.Holds d q ∧ d ≠ c := by
    intro x hx d q
    rw [holds_setCirc, Holds, Holds, hx]
    simp [and_comm]
  rw [confluxCircuitAboutToFree_eq hc] at ht
  cases hconflux : circ.conflux with
  | none =>
    have hnot : ∀ q, ¬ s.Holds c q := by
      intro q hq
      rw [holds_iff hc, hconflux] at hq
      cases hq
    have hkept : RelayInv (s.setCirc c none) := by
      refine RelayInv.of_none h.isClient (h.refs.of_holds rfl rfl rfl hfresh fun d q => ?_) hnone
        hlaunches
      rw [hholds rfl, and_iff_left_iff_imp]
      rintro hd rfl
      exact hnot q hd
    rw [hconflux] at ht
    cases hpend : circ.confluxPendingNonce with
    | none =>
      rw [hpend] at ht
      obtain rfl := ok.inj ht
      exact hkept
    | some n =>
      rw [hpend] at ht
      simp only at ht
      rw [unlinkedCircuitFree, h.isClient, if_neg (by simp), hnone n] at ht
      obtain rfl := ok.inj ht
      exact hkept
  | some p =>
    have hp : s.Holds c p := (holds_iff hc).mpr hconflux
    obtain ⟨set, hset, -⟩ := h.refs.holds c p hp
    rw [hconflux] at ht
    simp only at ht
    obtain ⟨cfx, hcfx, hlegs, hfree⟩ := linkedCircuitFree_eq (s := s) (c := c) hset (hnone _)
      (fun hclient => absurd (h.isClient.symm.trans hclient) (by simp))
    rw [hfree] at ht
    split at ht
    · next hpos =>
        obtain rfl := ok.inj ht
        refine RelayInv.of_none h.isClient ?_ hnone hlaunches
        refine h.refs.delLeg { set with cfx } hset hp rfl hlegs (fun hempty => ?_) rfl rfl
          rfl hfresh (hholds rfl)
        exact absurd (hcfx.mpr hempty) (Nat.pos_iff_ne_zero.mp hpos)
    · next hzero =>
        obtain rfl := ok.inj ht
        have hempty := hcfx.mp (Nat.eq_zero_of_not_pos hzero)
        have honly : ∀ d, s.Holds d p → d = c := fun d => h.refs.only hset hp fun d hd => by
          by_contra hdc
          exact hempty d ((hlegs d).mpr ⟨hd, hdc⟩)
        refine RelayInv.of_none h.isClient ?_ hnone hlaunches
        refine h.refs.setObject (p := p) (o := none) (update_idem _ _ _) le_rfl
          (h.refs.lt_nextCfx hset) hfresh
          (fun n q hq => .inl (h.refs.linked_without hset hq)) (fun d q hqp => ?_)
          (fun _ _ ho => absurd ho (by simp)) fun d hd => ?_
        · refine (hholds rfl d q).trans (and_iff_left_of_imp ?_)
          rintro hd rfl
          rw [holds_iff hc, hconflux] at hd
          exact hqp (some.inj hd).symm
        · obtain ⟨hd, hdc⟩ := (hholds rfl d p).mp hd
          exact absurd (honly d hd) hdc

lemma RelayInv.unlinked_cons (h : RelayInv s) (hcalls : s.calls = call :: calls)
    (hno : ∀ c circ, call = .markForClose c → s.circ c = some circ →
      circ.confluxPendingNonce = none ∨ circ.conflux ≠ none ∨ circ.markedForClose = true) (n : Nonce) :
    s.unlinkedPool n = none := by
  refine h.unlinked_none (fun c circ hhead hc => hno c circ ?_ hc) n
  rw [hcalls] at hhead
  exact some.inj hhead

/-- **A circuit that waited is closed**, with the unlinked set that it is the one leg of. -/
lemma RelayInv.closeWaiting (h : RelayInv s) (hcalls : s.calls = .markForClose c :: calls)
    (hc : s.circ c = some circ) (hpend : circ.confluxPendingNonce = some n)
    (ht : unlinkedCircuitClosed
      (setCirc { s with calls } c (some { circ with markedForClose := true })) c
      { circ with markedForClose := true } n = .ok t) : RelayInv t := by
  have hlaunches : ∀ call ∈ calls, call.launches = none := fun call hmem =>
    h.launches call (hcalls ▸ mem_cons_of_mem _ hmem)
  have hothers : ∀ n', n' ≠ n → s.unlinkedPool n' = none := by
    intro n' hn'
    cases hu : s.unlinkedPool n' with
    | none => rfl
    | some u =>
      obtain ⟨d, hrefused⟩ := h.refused n' u hu
      have hhead := hrefused.next
      rw [hcalls] at hhead
      obtain rfl : c = d := Call.markForClose.inj (some.inj hhead)
      obtain ⟨circ', hc', hpend', -⟩ := hrefused.circ
      obtain rfl := some.inj (hc.symm.trans hc')
      exact absurd (some.inj (hpend'.symm.trans hpend)) hn'
  have hfresh := h.refs.fresh_setCirc hc
  cases hu : s.unlinkedPool n with
  | none =>
    rw [unlinkedCircuitClosed_none (s := setCirc { s with calls } c
      (some { circ with markedForClose := true })) hu] at ht
    obtain rfl := ok.inj ht
    refine RelayInv.of_none h.isClient (h.refs.of_holds rfl rfl rfl (hfresh _) fun d q =>
      holds_setCirc_same hc rfl) (fun n' => ?_) hlaunches
    by_cases hn' : n' = n
    · rw [hn']
      exact hu
    · exact hothers n' hn'
  | some u =>
    obtain ⟨d, hrefused⟩ := h.refused n u hu
    have hhead := hrefused.next
    rw [hcalls] at hhead
    obtain rfl : c = d := Call.markForClose.inj (some.inj hhead)
    obtain ⟨set, hset, hn, hown⟩ := hrefused.object
    obtain ⟨circ', hconflux, -, -, heq⟩ := unlinkedCircuitClosed_some (s := { s with calls }) c
      { circ with markedForClose := true } hu hset hn
    obtain ⟨leg, hlegs, hleg⟩ : ∃ leg, u.legs = [leg] ∧ leg.circ = some c :=
      map_eq_singleton_iff.mp hrefused.legs
    have hholds : ∀ {x : Pool α}, x.circ = s.circ → ∀ d q,
        (x.setCirc c (some circ')).Holds d q ↔ s.Holds d q := by
      intro x hx d q
      have hxc : x.circ c = some circ := (congrFun hx c).trans hc
      exact (holds_setCirc_same hxc hconflux).trans (by rw [Holds, Holds, hx])
    have hnone : ∀ n', update s.unlinkedPool n none n' = none := by
      intro n'
      by_cases hn' : n' = n
      · rw [hn', update_self]
      · exact (update_of_ne hn' _ _).trans (hothers n' hn')
    rw [heq, if_pos (by rw [hlegs, eraseP_cons_of_pos (by simpa using hleg)])] at ht
    obtain rfl := ok.inj ht
    split
    · exact RelayInv.of_none h.isClient (h.refs.of_holds rfl rfl rfl (hfresh _) (hholds rfl)) hnone
        hlaunches
    · next hfor =>
        obtain ⟨hempty, hheld⟩ := hown (Bool.not_eq_true _ ▸ hfor)
        refine RelayInv.of_none h.isClient (h.refs.setObject (p := u.cfx) (o := none) rfl le_rfl
          (h.refs.lt_nextCfx hset) (hfresh _) (fun n' q hq => .inl ⟨?_, hq⟩)
          (fun d q _ => hholds rfl d q) (fun _ _ ho => absurd ho (by simp)) fun d hd => ?_) hnone
          hlaunches
        · rintro rfl
          obtain ⟨set₁, hset₁, -, hne⟩ := h.refs.linked n' _ hq
          obtain rfl := some.inj (hset.symm.trans hset₁)
          exact hne hempty
        · exact absurd ((hholds rfl d _).mp hd) (hheld d)

/-- **A leg is closed**: its circuit refers to the set no more, unless it was the last. -/
lemma RelayInv.closeLeg (h : RelayInv s) (hcalls : s.calls = .markForClose c :: calls)
    (hc : s.circ c = some circ) (hconflux : circ.conflux = some p)
    (ht : linkedCircuitClosed
      (setCirc { s with calls } c (some { circ with markedForClose := true })) c
      { circ with markedForClose := true } p = .ok t) : RelayInv t := by
  have hp : s.Holds c p := (holds_iff hc).mpr hconflux
  obtain ⟨set, hset, -⟩ := h.refs.holds c p hp
  have hnone : ∀ n, s.unlinkedPool n = none := h.unlinked_cons hcalls fun d circ₁ hd hc₁ => by
    obtain rfl : c = d := Call.markForClose.inj hd
    obtain rfl := some.inj (hc.symm.trans hc₁)
    exact .inr (.inl (by simp [hconflux]))
  have hfresh := h.refs.fresh_setCirc hc
  have hlegs := fun d => confluxGetLeg_cfxDelLeg set.cfx c d circ.inflight
  rw [linkedCircuitClosed_eq (s := setCirc { s with calls } c
    (some { circ with markedForClose := true })) hset (hnone _)] at ht
  obtain rfl := ok.inj ht
  have hrest : ∀ y : Pool α, y.isClient = s.isClient → Refs y → y.unlinkedPool = s.unlinkedPool →
      y.calls = calls → RelayInv (y.call (if (cfxDelLeg set.cfx c circ.inflight).2 then
        [.closeLinked set.nonce] else [])) := by
    intro y hclient hrefs hunlinked hycalls
    refine RelayInv.of_none (hclient.trans h.isClient) (hrefs.setCalls _)
      (fun n => (congrFun hunlinked n).trans (hnone n)) fun call hmem => ?_
    rcases mem_append.mp hmem with hmem | hmem
    · split at hmem
      · rw [mem_singleton.mp hmem]
        rfl
      · exact absurd hmem not_mem_nil
    · exact h.launches call (by rw [hcalls]; exact mem_cons_of_mem _ (hycalls ▸ hmem))
  split
  · next hzero =>
      have hempty : ConfluxSet.Empty { set with cfx := (cfxDelLeg set.cfx c circ.inflight).1 } :=
        numLegs_eq_zero_iff.mp hzero
      have honly : ∀ d, s.Holds d p → d = c := fun d => h.refs.only hset hp fun d hd => by
        by_contra hdc
        exact hempty d ((hlegs d).mpr ⟨hd, hdc⟩)
      have hholds : ∀ d q, (setCirc { s with calls } c
          (some { circ with markedForClose := true })).Holds d q ↔ s.Holds d q :=
        fun d q => holds_setCirc_same (s := { s with calls }) hc rfl
      refine hrest _ rfl (h.refs.setObject rfl le_rfl (h.refs.lt_nextCfx hset) (hfresh _)
        (fun n q hq => .inl (h.refs.linked_without hset hq)) (fun d q _ => hholds d q)
        (fun set₁ d ho hd => ?_) fun d hd => ⟨_, rfl, .inr fun d' hd' => ?_⟩) rfl rfl
      · obtain rfl := some.inj ho
        exact absurd hd (hempty d)
      · rw [honly d ((hholds d p).mp hd), honly d' ((hholds d' p).mp hd')]
  · next hpos =>
      have hholds : ∀ d q, (setCirc { s with calls } c (some { circ with
          markedForClose := true, conflux := none })).Holds d q ↔ s.Holds d q ∧ d ≠ c := by
        intro d q
        rw [holds_setCirc]
        simp [Holds, and_comm]
      have hidem : ∀ {o o' : Option PoolCircuit},
          update (update s.circ c o) c o' = update s.circ c o' :=
        fun {o o'} => update_idem _ _ _
      refine hrest _ rfl (h.refs.delLeg { set with
        cfx := (cfxDelLeg set.cfx c circ.inflight).1 } hset hp rfl hlegs
        (fun hempty => hpos (numLegs_eq_zero_iff.mpr hempty)) rfl rfl rfl (fun d hd => ?_)
        fun d q => ?_) rfl rfl
      · exact (congrFun hidem d).trans (hfresh _ d hd)
      · refine Iff.trans ?_ (hholds d q)
        rw [Holds, Holds]
        show (∃ circ', update (update s.circ c _) c _ d = _ ∧ _) ↔ _
        rw [hidem]
        rfl

/-- **`circuit_mark_for_close`** keeps the invariant. -/
lemma RelayInv.markForClose (h : RelayInv s) (hcalls : s.calls = .markForClose c :: calls)
    (ht : circuitMarkForClose { s with calls } c = .ok t) : RelayInv t := by
  have hlaunches : ∀ call ∈ calls, call.launches = none := fun call hmem =>
    h.launches call (hcalls ▸ mem_cons_of_mem _ hmem)
  cases hc : s.circ c with
  | none =>
    have hfault : circuitMarkForClose { s with calls } c = .error .badPointer := by
      rw [circuitMarkForClose, show ({ s with calls } : Pool α).circ c = none from hc]
      rfl
    rw [hfault] at ht
    cases ht
  | some circ =>
    have hthis : ∀ {d circ₁}, Call.markForClose c = .markForClose d → s.circ d = some circ₁ →
        circ₁ = circ := by
      intro d circ₁ hd hc₁
      obtain rfl : c = d := Call.markForClose.inj hd
      exact (some.inj (hc.symm.trans hc₁)).symm
    obtain ⟨hmarked, heq⟩ | ⟨n, hpend, heq⟩ | ⟨p, -, -, hconflux, heq⟩ |
      ⟨hpend, -, heq⟩ := circuitMarkForClose_cases (s := { s with calls }) hc
    all_goals rw [heq] at ht
    · obtain rfl := ok.inj ht
      refine RelayInv.of_none h.isClient (h.refs.setCalls calls)
        (h.unlinked_cons hcalls fun d circ₁ hd hc₁ => .inr (.inr ?_)) hlaunches
      rw [hthis hd hc₁]
      exact hmarked
    · exact h.closeWaiting hcalls hc hpend ht
    · exact h.closeLeg hcalls hc hconflux ht
    · obtain rfl := ok.inj ht
      refine RelayInv.of_none h.isClient (h.refs.of_holds rfl rfl rfl
        (h.refs.fresh_setCirc hc _) fun d q => holds_setCirc_same hc rfl)
        (h.unlinked_cons hcalls fun d circ₁ hd hc₁ => .inl ?_) hlaunches
      rw [hthis hd hc₁]
      exact hpend

/-- **The second half of `conflux_mark_all_for_close`** keeps the invariant. -/
lemma RelayInv.closeLinked (h : RelayInv s) (hcalls : s.calls = .closeLinked n :: calls)
    (ht : Pool.closeLinked { s with calls } n = .ok t) : RelayInv t := by
  have hlaunches : ∀ call ∈ calls, call.launches = none := fun call hmem =>
    h.launches call (hcalls ▸ mem_cons_of_mem _ hmem)
  have hnone := h.unlinked_cons hcalls fun d circ hd => by cases hd
  rcases closeLinked_cases (s := { s with calls }) ht with rfl | ⟨p, set, hset, rfl⟩
  · exact RelayInv.of_none h.isClient (h.refs.setCalls calls) hnone hlaunches
  · refine RelayInv.of_none h.isClient ((h.refs.setCfx_same { set with
      cfx := { set.cfx with inFullTeardown := true } } hset rfl fun _ => Iff.rfl).setCalls _) hnone
      fun call hmem => ?_
    rcases mem_append.mp hmem with hmem | hmem
    · obtain ⟨d, -, rfl⟩ := mem_map.mp hmem
      rfl
    · exact hlaunches call hmem

/-! ## A step -/

lemma RelayInv.of_event (h : RelayInv s) (hcalls : s.calls = []) (ht : s.event e = .ok t) :
    RelayInv t := by
  have hnone := h.unlinked_nil hcalls
  have hclose : ∀ c, RelayInv { s with calls := [.markForClose c] } := by
    intro c
    refine RelayInv.of_none h.isClient (h.refs.setCalls _) hnone fun call hmem => ?_
    rw [mem_singleton.mp hmem]
    rfl
  cases e with
  | createCircuit =>
    obtain rfl := ok.inj ht
    split
    · exact h
    · refine RelayInv.of_none h.isClient (h.refs.of_holds rfl rfl rfl (fun d hd => ?_)
        fun d q => ?_) hnone h.launches
      · refine (update_of_ne ?_ _ _).trans (h.refs.circ_fresh d (Nat.le_of_succ_le hd))
        exact Nat.ne_of_gt hd
      · refine (holds_setCirc (s := s)).trans ?_
        by_cases hd : d = s.nextCirc
        · rw [hd, Holds, h.refs.circ_fresh _ le_rfl]
          simp [PoolCircuit.new]
        · simp [hd]
  | launchNewSet nonce =>
    rw [event, if_pos (by simp [h.isClient])] at ht
    exact ok.inj ht ▸ h
  | link c cell enabled validHop sent =>
    rw [event] at ht
    split at ht
    · exact ok.inj ht ▸ h
    · next hno =>
        simp only [not_or, Bool.not_eq_true, Bool.not_eq_false] at hno
        obtain ⟨circ, hc, hmarked⟩ := any_eq_true _ _ |>.mp hno.2
        exact h.link hcalls hc (by simpa using hmarked) ht
  | linked c cell enabled validHop rttOk sent =>
    rw [event] at ht
    split at ht
    · exact ok.inj ht ▸ h
    · next hno =>
        simp only [not_or, Bool.not_eq_true, Bool.not_eq_false] at hno
        obtain ⟨circ, hc, -⟩ := any_eq_true _ _ |>.mp hno.2
        rcases confluxProcessLinked_cases s c cell enabled validHop rttOk sent hc with
          heq | ⟨link, n, u, -, hreceives⟩
        · obtain rfl := ok.inj (heq.symm.trans ht)
          rw [callLater, hcalls]
          exact hclose c
        · exact absurd (hreceives.isClient.symm.trans h.isClient) (by simp)
  | close c =>
    obtain rfl := ok.inj ht
    split
    · exact h
    · rw [Pool.call, hcalls]
      exact hclose c
  | free c =>
    rw [event] at ht
    split at ht
    · next hguard =>
        obtain ⟨circ, hc, -⟩ := any_eq_true _ _ |>.mp hguard
        exact h.free hcalls hc ht
    · exact ok.inj ht ▸ h
  | traffic p cfx =>
    obtain rfl := ok.inj ht
    split
    · next set hset =>
        split
        · next hsame =>
            refine RelayInv.of_none h.isClient (h.refs.setCfx_same _ hset rfl fun c => ?_) hnone
              h.launches
            rw [hasLeg_iff, hasLeg_iff, hsame.1]
        · exact h
    · exact h
  | inflight c inflight =>
    obtain rfl := ok.inj ht
    split
    · next circ hc =>
        exact RelayInv.of_none h.isClient (h.refs.of_holds rfl rfl rfl
          (h.refs.fresh_setCirc hc _) fun d q => holds_setCirc_same hc rfl) hnone h.launches
    · exact h
  | newParams maxLegsSet numLegsSet maxUnlinkedLegRetry | notifyShutdown =>
    obtain rfl := ok.inj ht
    exact RelayInv.of_none h.isClient (h.refs.of_holds rfl rfl rfl h.refs.circ_fresh fun _ _ =>
      Iff.rfl) hnone h.launches
  | runCall established => exact ok.inj ht ▸ h

/-- **A step of a relay** keeps its invariant. -/
lemma RelayInv.of_exec (h : RelayInv s) (ht : s.exec e = .ok t) : RelayInv t := by
  cases hcalls : s.calls with
  | nil => exact h.of_event hcalls (exec_nil hcalls ▸ ht)
  | cons call calls =>
    have hlaunches := h.launches call (hcalls ▸ mem_cons_self)
    by_cases hrun : ∃ established, e = .runCall established
    · obtain ⟨established, rfl⟩ := hrun
      rw [exec_runCall hcalls] at ht
      cases call with
      | markForClose c => exact h.markForClose hcalls ht
      | closeLinked nonce => exact h.closeLinked hcalls ht
      | launchLeg nonce => cases hlaunches
      | launchMore nonce numLegs => cases hlaunches
    · rw [exec_busy hcalls fun established heq => hrun ⟨established, heq⟩] at ht
      exact ok.inj ht ▸ h

lemma Inv.relayInv (h : Inv s) (hrelay : s.isClient = false) : RelayInv s := by
  refine ⟨hrelay, ⟨h.sets.cfx_fresh, h.sets.circ_fresh, h.sets.linked, fun p set c hset hleg => ?_,
    fun c p hc => ?_⟩, fun n u hu => ?_, fun call hmem => ?_⟩
  · obtain ⟨circ, hc, hconflux, -⟩ := h.sets.legs p set c hset hleg
    exact ⟨circ, hc, hconflux⟩
  · obtain ⟨circ, hcirc, hconflux⟩ := hc
    obtain ⟨-, set, hset, hleg⟩ := h.sets.holds c circ p hcirc hconflux
    refine ⟨set, hset, hleg.imp_right fun hkept d hholds => ?_⟩
    obtain ⟨circ', hd, hd'⟩ := hholds
    exact hkept.2.2.1 d circ' hd hd'
  · obtain ⟨c, hhead, hlegs⟩ := h.calls.relay hrelay n u hu
    obtain ⟨call, calls, hcalls⟩ : ∃ call calls, s.calls = call :: calls := by
      cases hcalls : s.calls with
      | nil => rw [hcalls] at hhead; cases hhead
      | cons call calls => exact ⟨call, calls, rfl⟩
    obtain ⟨leg, hleg, hlegc⟩ := mem_map.mp (hlegs ▸ mem_singleton_self (some c))
    obtain ⟨d, circ, hd, hcirc, hpend, hconflux, hmarked⟩ :=
      (h.sets.waits (h.calls.not_shut hcalls) n u hu).2 leg hleg
    obtain rfl : d = c := some.inj (hd.symm.trans hlegc)
    obtain ⟨set, hset, hn, href⟩ := h.sets.unlinked n u hu
    refine ⟨d, hhead, hlegs, ⟨circ, hcirc, hpend, hconflux, hmarked⟩, set, hset, hn, fun hown => ?_⟩
    rw [RefersTo, if_neg (by simp [hown])] at href
    refine ⟨href.1, ?_⟩
    rintro d' ⟨circ', hd', hd''⟩
    exact h.sets.not_held hu hown hd' hd''
  · cases hlaunches : call.launches with
    | none => rfl
    | some n =>
      cases hcalls : s.calls with
      | nil => rw [hcalls] at hmem; cases hmem
      | cons call' calls =>
        rw [hcalls] at hmem
        rcases mem_cons.mp hmem with rfl | hmem
        · have hhead := (h.calls.head call (by rw [hcalls]; rfl) n hlaunches).1
          rw [hrelay] at hhead
          cases hhead
        · rw [h.calls.tail call (by rw [hcalls]; exact hmem)] at hlaunches
          cases hlaunches

/-- **The invariant of every run**: that of the pools, or what a relay keeps of it. -/
def Sound (s : Pool α) : Prop := Inv s ∨ RelayInv s

lemma exec_of_step (hstep : step s e = some t) : s.exec e = .ok t := by
  rw [step] at hstep
  cases hr : s.exec e with
  | error fault => rw [hr] at hstep; cases hstep
  | ok t' => rw [hr] at hstep; exact congrArg Except.ok (some.inj hstep)

lemma Sound.of_step (h : Sound s) (hstep : step s e = some t) : Sound t := by
  have hexec : s.exec e = .ok t := exec_of_step hstep
  cases hclient : s.isClient with
  | true =>
    have hinv : Inv s := h.resolve_right fun hrelay =>
      absurd (hrelay.isClient.symm.trans hclient) (by simp)
    exact .inl (hinv.of_step (noStaleFree_of_client hinv hclient) hstep)
  | false => exact .inr ((h.elim (fun h => h.relayInv hclient) id).of_exec hexec)

/-- **No circuit refers to an object that was freed.** -/
lemma Sound.held (h : Sound s) (hc : s.Holds c p) : ∃ set, s.cfx p = some set := by
  rcases h with h | h
  · obtain ⟨circ, hcirc, hconflux⟩ := hc
    obtain ⟨-, set, hset, -⟩ := h.sets.holds c circ p hcirc hconflux
    exact ⟨set, hset⟩
  · obtain ⟨set, hset, -⟩ := h.refs.holds c p hc
    exact ⟨set, hset⟩

lemma Sound.circ_fresh (h : Sound s) : ∀ c, s.nextCirc ≤ c → s.circ c = none :=
  h.elim (fun h => h.sets.circ_fresh) fun h => h.refs.circ_fresh

end Ator.Conflux.Pool
