import AtorProtocol.Conflux.PoolCalls

/-!
# Launching and linking legs

What the functions that add legs to the sets of a pool do.

* `tryFinalizeSet_eq` — linking an unlinked set, on the circuits that wait.
-/

namespace Ator.Conflux

open List Function
open Option (some.inj)

variable {α : Type}

/-- The legs of an unlinked set whose circuits are there. -/
def UnlinkedCircuits.waiting (unlinked : UnlinkedCircuits) : List (Leg ℕ Nonce) :=
  unlinked.legs.filterMap fun leg => leg.circ.map fun c => ⟨c, leg.link, leg.linked⟩

namespace Pool

variable {s t : Pool α} {c p : ℕ} {n : Nonce} {circ circ' : PoolCircuit}
  {set : ConfluxSet α} {u : UnlinkedCircuits} {call : Call} {calls : List Call}

/-! ## Joining -/

variable {legs : List PendingLeg}

lemma mapM_deref (h : ∀ leg ∈ legs, leg.circ.isSome = true) :
    (legs.mapM fun leg => (deref leg.circ).map fun c =>
      (⟨c, leg.link, leg.linked⟩ : Leg ℕ Nonce))
      = .ok (legs.filterMap fun leg => leg.circ.map fun c => ⟨c, leg.link, leg.linked⟩) := by
  induction legs with
  | nil => rfl
  | cons leg legs ih =>
    obtain ⟨c, hc⟩ := Option.isSome_iff_exists.mp (h leg mem_cons_self)
    rw [mapM_cons, ih fun leg' hleg => h leg' (mem_cons_of_mem _ hleg), hc]
    rw [filterMap_cons_some (b := ⟨c, leg.link, leg.linked⟩) (by rw [hc]; rfl)]
    rfl

lemma mapM_deref_circ (h : ∀ leg ∈ legs, leg.circ.isSome = true) :
    (legs.mapM fun leg => deref leg.circ) = .ok (legs.filterMap PendingLeg.circ) := by
  induction legs with
  | nil => rfl
  | cons leg legs ih =>
    obtain ⟨c, hc⟩ := Option.isSome_iff_exists.mp (h leg mem_cons_self)
    rw [mapM_cons, ih fun leg' hleg => h leg' (mem_cons_of_mem _ hleg), hc]
    rw [filterMap_cons_some hc]
    rfl

lemma map_circ_waiting (h : ∀ leg ∈ legs, leg.circ.isSome = true) :
    legs.map PendingLeg.circ = (legs.filterMap PendingLeg.circ).map some := by
  induction legs with
  | nil => rfl
  | cons leg legs ih =>
    obtain ⟨c, hc⟩ := Option.isSome_iff_exists.mp (h leg mem_cons_self)
    rw [filterMap_cons_some hc, map_cons, map_cons, hc,
      ih fun leg' hleg => h leg' (mem_cons_of_mem _ hleg)]

lemma circ_waiting (u : UnlinkedCircuits) :
    u.waiting.map Leg.circ = u.legs.filterMap PendingLeg.circ := by
  rw [UnlinkedCircuits.waiting, map_filterMap]
  refine congrArg (u.legs.filterMap ·) (funext fun leg => ?_)
  rw [Option.map_map]
  exact Option.map_id'

lemma waits_isSome (h : Sets s) (hshut : s.shuttingDown = false)
    (hu : s.unlinkedPool n = some u) : ∀ leg ∈ u.legs, leg.circ.isSome = true := by
  intro leg hleg
  obtain ⟨c, circ, hc, -⟩ := (h.waits hshut n u hu).2 leg hleg
  rw [hc]
  rfl

lemma foldlM_linkLeg {cs : List ℕ} (s : Pool α) (p : ℕ)
    (h : ∀ c ∈ cs, ∃ circ, s.circ c = some circ) :
    cs.foldlM (fun s c => linkLeg s p c) s
      = .ok { s with circ := fun c => if c ∈ cs then
          (s.circ c).map fun circ => circ.join p s.isClient else s.circ c } := by
  induction cs generalizing s with
  | nil => rfl
  | cons c cs ih =>
    obtain ⟨circ, hc⟩ := h c mem_cons_self
    have hlink : linkLeg s p c = .ok (s.setCirc c (some (circ.join p s.isClient))) := by
      rw [linkLeg, hc]
      rfl
    rw [foldlM_cons, hlink]
    refine (ih (s.setCirc c (some (circ.join p s.isClient))) fun d hd => ?_).trans ?_
    · by_cases hdc : d = c
      · exact ⟨circ.join p s.isClient, hdc ▸ update_self _ _ _⟩
      · obtain ⟨circ', hd'⟩ := h d (mem_cons_of_mem _ hd)
        exact ⟨circ', (update_of_ne hdc _ _).trans hd'⟩
    · refine congrArg Except.ok ?_
      rw [setCirc]
      congr 1
      funext d
      show (if d ∈ cs then (update s.circ c _ d).map fun circ => circ.join p s.isClient
        else update s.circ c _ d) = _
      by_cases hdc : d = c
      · rw [hdc, update_self, if_pos mem_cons_self, hc]
        split <;> rfl
      · rw [update_of_ne hdc]
        simp only [mem_cons, hdc, false_or]

lemma confluxGetLeg_cfxAddLeg (cfx : Cfx ℕ α) (leg : Leg ℕ Nonce) (c : ℕ) :
    (confluxGetLeg (cfxAddLeg cfx leg) c).isSome = true
      ↔ (confluxGetLeg cfx c).isSome = true ∨ c = leg.circ := by
  rw [confluxGetLeg, confluxGetLeg, cfxAddLeg]
  by_cases hc : c = leg.circ
  · rw [hc, AssocMap.get_set_self]
    simp
  · rw [AssocMap.get_set_of_ne hc]
    simp [hc]

lemma confluxGetLeg_foldl (cfx : Cfx ℕ α) (legs : List (Leg ℕ Nonce)) (c : ℕ) :
    (confluxGetLeg (legs.foldl cfxAddLeg cfx) c).isSome = true
      ↔ (confluxGetLeg cfx c).isSome = true ∨ c ∈ legs.map Leg.circ := by
  induction legs generalizing cfx with
  | nil => simp
  | cons leg legs ih =>
    rw [foldl_cons, ih, confluxGetLeg_cfxAddLeg, map_cons, mem_cons, or_assoc]

lemma inFullTeardown_foldl (cfx : Cfx ℕ α) (legs : List (Leg ℕ Nonce)) :
    (legs.foldl cfxAddLeg cfx).inFullTeardown = cfx.inFullTeardown := by
  induction legs generalizing cfx with
  | nil => rfl
  | cons leg legs ih => exact ih (cfxAddLeg cfx leg)

lemma legs_ne_nil_of_invalid {maxLegsSet : ℕ} {cfx : Cfx ℕ α} {legs : List (Leg ℕ Nonce)}
    (h : Conflux.tryFinalizeSet maxLegsSet cfx legs = .invalidLegs) : legs ≠ [] := by
  rintro rfl
  cases h

lemma tryFinalizeSet_linked {maxLegsSet : ℕ} {cfx cfx' : Cfx ℕ α} {legs : List (Leg ℕ Nonce)}
    (h : Conflux.tryFinalizeSet maxLegsSet cfx legs = .linked cfx') :
    legs ≠ [] ∧ legs.length + cfx.numLegs ≤ maxLegsSet ∧ validateUnlinkedLegs cfx legs = true
      ∧ legs.all Leg.linked = true ∧ cfx' = legs.foldl cfxAddLeg cfx := by
  rw [Conflux.tryFinalizeSet] at h
  split_ifs at h with hlen hmax hvalid hlinked
  refine ⟨fun hnil => hlen (by rw [hnil]; rfl), Nat.not_lt.mp hmax, hvalid, hlinked, ?_⟩
  injection h with h
  exact h.symm

/-- **Linking an unlinked set**, whose legs have circuits. -/
lemma tryFinalizeSet_eq
    (hlegs : ∀ leg ∈ u.legs, ∃ c circ, leg.circ = some c ∧ s.circ c = some circ)
    (hu : s.unlinkedPool n = some u) (hset : s.cfx u.cfx = some set) (hn : set.nonce = n) :
    s.tryFinalizeSet u
      = match Conflux.tryFinalizeSet s.maxLegsSet set.cfx u.waiting with
        | .missingLeg => .ok (.missingLeg, s)
        | .tooManyLegs => .ok (.invalidLeg, s)
        | .invalidLegs => .ok (.invalidLeg, s.call
            ((u.waiting.map Leg.circ).map .markForClose ++ [.closeLinked n]))
        | .waiting => .ok (.ok, s)
        | .linked cfx =>
          if u.waiting.any fun leg => n ≠ leg.link.nonce then .error .wrongSet
          else .ok (.ok, s.joined n u.cfx { set with cfx, numLegLaunch := 0 }
            (u.waiting.map Leg.circ)) := by
  have hsome : ∀ leg ∈ u.legs, leg.circ.isSome = true := by
    intro leg hleg
    obtain ⟨c, -, hc, -⟩ := hlegs leg hleg
    rw [hc]
    rfl
  have hcircs : ∀ c ∈ u.waiting.map Leg.circ, ∃ circ, s.circ c = some circ := by
    intro c hc
    rw [circ_waiting] at hc
    obtain ⟨leg, hleg, hlegc⟩ := mem_filterMap.mp hc
    obtain ⟨d, circ, hd, hcirc⟩ := hlegs leg hleg
    obtain rfl : d = c := some.inj (hd.symm.trans hlegc)
    exact ⟨circ, hcirc⟩
  have hbind : ∀ {β γ : Type} (b : β) (f : β → Except Fault γ), (Except.ok b >>= f) = f b :=
    fun _ _ => rfl
  have hne : Conflux.tryFinalizeSet s.maxLegsSet set.cfx u.waiting = .invalidLegs →
      u.legs ≠ [] := by
    intro hresult hnil
    refine legs_ne_nil_of_invalid hresult ?_
    rw [UnlinkedCircuits.waiting, hnil]
    rfl
  rw [Pool.tryFinalizeSet, hset, deref, hbind, mapM_deref hsome, hbind, ← UnlinkedCircuits.waiting]
  cases hresult : Conflux.tryFinalizeSet s.maxLegsSet set.cfx u.waiting with
  | missingLeg => rfl
  | tooManyLegs => rfl
  | waiting => rfl
  | invalidLegs =>
    rw [confluxMarkAllForClose, hn, hu]
    simp only
    rw [if_neg (hne hresult), mapM_deref_circ hsome, circ_waiting]
    rfl
  | linked cfx =>
    simp only [hn]
    split
    · rfl
    · rw [foldlM_linkLeg (s.setCfx u.cfx (some ⟨n, cfx, 0⟩)) u.cfx hcircs]
      rfl

lemma Sets.leg_circs (h : Sets s) (hshut : s.shuttingDown = false)
    (hu : s.unlinkedPool n = some u) :
    ∀ leg ∈ u.legs, ∃ c circ, leg.circ = some c ∧ s.circ c = some circ := by
  intro leg hleg
  obtain ⟨c, circ, hc, hcirc, -⟩ := (h.waits hshut n u hu).2 leg hleg
  exact ⟨c, circ, hc, hcirc⟩

/-! ## Launching -/

/-- What `unlinked_get_or_create` leaves: the object that it creates is new. -/
structure Created (s t : Pool α) (n : Nonce) (u : UnlinkedCircuits) : Prop where
  isClient : t.isClient = s.isClient
  shuttingDown : t.shuttingDown = s.shuttingDown
  calls : t.calls = s.calls
  circ : t.circ = s.circ
  nextCirc : t.nextCirc = s.nextCirc
  maxLegsSet : t.maxLegsSet = s.maxLegsSet
  cfx : ∀ p set, t.cfx p = some set → s.cfx p = some set ∨ set = ConfluxSet.new n
  others : ∀ n', n' ≠ n → t.unlinkedPool n' = s.unlinkedPool n'
  here : s.unlinkedPool n = some u ∨ s.unlinkedPool n = none ∧ u.legs = []
    ∧ (u.isForLinkedSet = false → t.cfx u.cfx = some (ConfluxSet.new n))

lemma created (s : Pool α) (n : Nonce) :
    Created s (s.unlinkedGetOrCreate n).2 n (s.unlinkedGetOrCreate n).1 := by
  rw [unlinkedGetOrCreate]
  cases hu : s.unlinkedPool n with
  | some u => exact ⟨rfl, rfl, rfl, rfl, rfl, rfl, fun _ _ h => .inl h, fun _ _ => rfl, .inl hu⟩
  | none =>
    cases hp : s.linkedPool n with
    | some p =>
      refine ⟨rfl, rfl, rfl, rfl, rfl, rfl, fun _ _ h => .inl h,
        fun n' hn => update_of_ne hn _ _, .inr ⟨hu, rfl, fun hown => ?_⟩⟩
      cases hown
    | none =>
      refine ⟨rfl, rfl, rfl, rfl, rfl, rfl, fun q set hq => ?_,
        fun n' hn => update_of_ne hn _ _,
        .inr ⟨hu, rfl, fun _ => update_self _ _ _⟩⟩
      rcases update_eq_some.mp hq with ⟨-, heq⟩ | ⟨-, hq⟩
      · exact .inr (some.inj heq).symm
      · exact .inl hq

lemma Sets.own_of_client (h : Sets s) (hclient : s.isClient = true)
    (hu : s.unlinkedPool n = some u) :
    u.isForLinkedSet = false ∧ s.linkedPool n = none := by
  obtain ⟨set, -, -, href⟩ := h.unlinked n u hu
  rw [RefersTo, hclient] at href
  split at href
  · exact absurd href.1 (by simp)
  · next hown => exact ⟨Bool.eq_false_iff.mpr hown, href.2⟩

lemma getExitForNonce_ok (h : Sets s) (hshut : s.shuttingDown = false)
    (hclient : s.isClient = true) (hu : s.unlinkedPool n = some u) :
    s.getExitForNonce n = .ok () := by
  rw [getExitForNonce, (h.own_of_client hclient hu).2, hu]
  simp only
  cases hlegs : u.legs with
  | nil => rfl
  | cons leg legs =>
    obtain ⟨c, circ, hc, hcirc, -⟩ := (h.waits hshut n u hu).2 leg (hlegs ▸ mem_cons_self)
    simp only [hc, deref]
    show (deref (s.circ c)).map _ = _
    rw [hcirc]
    rfl

lemma Sets.newCirc (h : Sets s) (o : Option Nonce) :
    Sets { s.setCirc s.nextCirc (some { PoolCircuit.new with confluxPendingNonce := o }) with
      nextCirc := s.nextCirc + 1 } := by
  refine h.setCirc_free (o := some _)
    (h.not_leg fun circ hc => absurd (h.circ_lt hc) (lt_irrefl _))
    (fun hshut n' u leg hu hleg hlegc => ?_) (fun circ' ho => ?_) (Nat.le_succ _) fun _ =>
      Nat.lt_succ_self _
  · obtain ⟨circ, hc, -⟩ := h.waiting_circ hshut hu hleg hlegc
    exact lt_irrefl _ (h.circ_lt hc)
  · obtain rfl := some.inj ho
    exact ⟨rfl, fun _ _ => rfl⟩

lemma Sets.addLeg (leg : PendingLeg) (h : Sets s) (hu : s.unlinkedPool n = some u)
    (hleg : leg.circ = some c) (hc : s.circ c = some circ)
    (hpend : circ.confluxPendingNonce = some n) (hconflux : circ.conflux = none)
    (hmarked : circ.markedForClose = false)
    (hnew : ∀ leg ∈ u.legs, leg.circ ≠ some c) :
    Sets (s.setUnlinked n (some { u with legs := u.legs ++ [leg] })) := by
  refine h.setLegs hu fun hshut => ?_
  obtain ⟨hnodup, hlegs⟩ := h.waits hshut n u hu
  refine ⟨?_, fun leg' hleg' => ?_⟩
  · rw [map_append, nodup_append]
    refine ⟨hnodup, nodup_singleton _, fun o ho o' ho' heq => ?_⟩
    obtain ⟨leg', hleg', rfl⟩ := List.mem_map.mp ho
    rw [map_singleton, mem_singleton, hleg] at ho'
    exact hnew leg' hleg' (heq.trans ho')
  · rcases mem_append.mp hleg' with hleg' | hleg'
    · exact hlegs leg' hleg'
    · rw [mem_singleton.mp hleg']
      exact ⟨c, circ, hleg, hc, hpend, hconflux, hmarked⟩

/-- **`conflux_launch_leg`** keeps the invariant. -/
lemma Inv.launchLeg (h : Inv s) (hcalls : s.calls = call :: calls)
    (hlaunch : call.launches = some n) (established : Bool) :
    ∃ launched t, confluxLaunchLeg { s with calls } n established = .ok (launched, t)
      ∧ Inv t ∧ (Nonces s → Nonces t)
      ∧ (launched = true → t.calls = calls ∧ t.isClient = true ∧ t.shuttingDown = false
        ∧ ∃ u, t.unlinkedPool n = some u) := by
  have hshut : s.shuttingDown = false := h.calls.not_shut hcalls
  obtain ⟨hclient, hfresh⟩ := h.calls.head call (hcalls ▸ Option.mem_some_self call) n hlaunch
  obtain ⟨hu, hsets⟩ := (h.sets.setCalls calls).unlinkedGetOrCreate fun hnone _ => hfresh hnone
  have hcreated := created { s with calls } n
  obtain ⟨u, y, hy⟩ : ∃ u y, unlinkedGetOrCreate { s with calls } n = (u, y) := ⟨_, _, rfl⟩
  rw [hy] at hu hsets hcreated
  obtain ⟨set, hset, hn, -⟩ := hsets.unlinked n u hu
  have hyshut : y.shuttingDown = false := hcreated.shuttingDown.trans hshut
  have hyclient : y.isClient = true := hcreated.isClient.trans hclient
  obtain ⟨link, hlink, hstart⟩ : ∃ link : LinkCell Nonce, link.nonce = n
      ∧ confluxLaunchLeg { s with calls } n established
        = if set.numLegLaunch ≥ y.numLegsSet + y.maxUnlinkedLegRetry then .ok (false, y) else
          let z := y.setCfx u.cfx (some { set with numLegLaunch := set.numLegLaunch + 1 })
          let z := { z.setCirc z.nextCirc
            (some { PoolCircuit.new with confluxPendingNonce := some n }) with
              nextCirc := z.nextCirc + 1 }
          if established then .ok (true, z.setUnlinked n (some { u with
            legs := u.legs ++ [⟨some y.nextCirc, link, false⟩] }))
          else .ok (false, z.call [.markForClose y.nextCirc]) := by
    refine ⟨⟨1, n, UInt64.ofNat (confluxGetMaxSeqSent set.cfx),
      UInt64.ofNat set.cfx.lastSeqDelivered⟩, rfl, ?_⟩
    rw [confluxLaunchLeg, hy]
    show (deref (y.cfx u.cfx) >>= _) = _
    rw [hset]
    show (if _ then _ else (y.getExitForNonce n >>= _)) = _
    rw [getExitForNonce_ok hsets hyshut hyclient hu]
    rfl
  have hold : ∀ n' u', y.unlinkedPool n' = some u' →
      (s.unlinkedPool n' = some u' ∨ u'.legs = [] ∧ (u'.isForLinkedSet = false →
        y.cfx u'.cfx = some (ConfluxSet.new n))) := by
    intro n' u' hu'
    by_cases hn' : n' = n
    · subst hn'
      obtain rfl := some.inj (hu.symm.trans hu')
      exact hcreated.here.imp_right And.right
    · rw [hcreated.others n' hn'] at hu'
      exact .inl hu'
  have hteardown : ∀ q set d, y.cfx q = some set → set.cfx.inFullTeardown = true →
      set.HasLeg d → .markForClose d ∈ calls := by
    intro q set₁ d hq hfull hd
    rcases hcreated.cfx q set₁ hq with hq | rfl
    · have hmem := h.calls.teardown hshut q set₁ d hq hfull hd
      rw [hcalls] at hmem
      refine (mem_cons.mp hmem).resolve_left fun heq => ?_
      rw [← heq] at hlaunch
      cases hlaunch
    · cases hfull
  have hown : ∀ n' u' set, y.unlinkedPool n' = some u' → u'.isForLinkedSet = false →
      y.cfx u'.cfx = some set → set.cfx.inFullTeardown = false := by
    intro n' u' set₁ hu' hown hq
    rcases hcreated.cfx _ set₁ hq with hq' | rfl
    · rcases hold n' u' hu' with hu' | ⟨-, hnew⟩
      · exact h.calls.own n' u' set₁ hu' hown hq'
      · obtain rfl := some.inj ((hnew hown).symm.trans hq)
        rfl
    · rfl
  have hnonces : ∀ n' u' leg, y.unlinkedPool n' = some u' → leg ∈ u'.legs →
      ∃ u₀, s.unlinkedPool n' = some u₀ ∧ leg ∈ u₀.legs
        ∧ ∀ c, call = .markForClose c → leg.circ ≠ some c := by
    intro n' u' leg hu' hleg
    rcases hold n' u' hu' with hu' | ⟨hnil, -⟩
    · refine ⟨u', hu', hleg, fun c hc => ?_⟩
      rw [hc] at hlaunch
      cases hlaunch
    · rw [hnil] at hleg
      exact absurd hleg not_mem_nil
  have hrelay : ∀ {x : Pool α}, x.isClient = true → x.isClient = false → ∀ n,
      x.unlinkedPool n = none := fun hx hx' => absurd (hx.symm.trans hx') (by simp)
  have hkeep : ∀ d circ, s.circ d = some circ → ∃ circ', y.circ d = some circ' := fun d circ hd =>
    ⟨circ, hcreated.circ ▸ hd⟩
  rw [hstart]
  split
  · refine ⟨false, y, rfl, ⟨hsets, h.calls.run [] hcalls hcreated.shuttingDown
      hcreated.calls (fun _ hmem => absurd hmem not_mem_nil) hkeep
      (fun _ hmem => absurd hmem not_mem_nil) (fun _ hmem => absurd hmem (by simp))
      (hrelay hyclient) (fun q set₁ d hq hfull hd => ?_) hown⟩,
      fun hn => hn.run [] hcreated.isClient hcalls hcreated.calls fun n' u' leg hu' hleg =>
        .inr (hnonces n' u' leg hu' hleg), fun hno => absurd hno (by simp)⟩
    rw [hcreated.calls]
    exact hteardown q set₁ d hq hfull hd
  · set z₁ := y.setCfx u.cfx (some { set with numLegLaunch := set.numLegLaunch + 1 }) with hz₁
    set z : Pool α := { z₁.setCirc z₁.nextCirc
      (some { PoolCircuit.new with confluxPendingNonce := some n }) with
        nextCirc := z₁.nextCirc + 1 } with hz
    have hzsets : Sets z := (hsets.setCfx { set with
      numLegLaunch := set.numLegLaunch + 1 } hset rfl fun _ => Iff.rfl).newCirc n
    have hzcirc : z.circ y.nextCirc
        = some { PoolCircuit.new with confluxPendingNonce := some n } := update_self _ _ _
    have hzcfx : ∀ q set₁, z.cfx q = some set₁ → ∃ set₀, y.cfx q = some set₀
        ∧ set₁.cfx = set₀.cfx := by
      intro q set₁ hq
      rcases update_some_eq_some.mp hq with ⟨rfl, rfl⟩ | ⟨-, hq⟩
      · exact ⟨set, hset, rfl⟩
      · exact ⟨set₁, hq, rfl⟩
    have hzteardown : ∀ q set d, z.cfx q = some set → set.cfx.inFullTeardown = true →
        set.HasLeg d → .markForClose d ∈ calls := by
      intro q set₁ d hq hfull hd
      obtain ⟨set₀, hq₀, heq⟩ := hzcfx q set₁ hq
      rw [ConfluxSet.HasLeg, heq] at hd
      exact hteardown q set₀ d hq₀ (heq ▸ hfull) hd
    have hzown : ∀ n' u' set, y.unlinkedPool n' = some u' → u'.isForLinkedSet = false →
        z.cfx u'.cfx = some set → set.cfx.inFullTeardown = false := by
      intro n' u' set₁ hu' hfor hq
      obtain ⟨set₀, hq₀, heq⟩ := hzcfx _ set₁ hq
      rw [heq]
      exact hown n' u' set₀ hu' hfor hq₀
    have hzkeep : ∀ d circ, s.circ d = some circ → ∃ circ', z.circ d = some circ' := by
      intro d circ hd
      obtain ⟨circ', hd'⟩ := hkeep d circ hd
      show ∃ circ', update y.circ y.nextCirc _ d = some circ'
      by_cases heq : d = y.nextCirc
      · exact ⟨_, heq ▸ hzcirc⟩
      · exact ⟨circ', (update_of_ne heq _ _).trans hd'⟩
    split
    · refine ⟨true, _, rfl, ⟨hzsets.addLeg (c := y.nextCirc) _ hu rfl hzcirc rfl rfl rfl
        fun leg hleg hlegc => ?_, h.calls.run [] hcalls hcreated.shuttingDown
        hcreated.calls (fun _ hmem => absurd hmem not_mem_nil) hzkeep
        (fun _ hmem => absurd hmem not_mem_nil) (fun _ hmem => absurd hmem (by simp))
        (hrelay hyclient) (fun q set₁ d hq hfull hd => ?_) fun n' u' set₁ hu' hfor hq => ?_⟩,
        fun hn => hn.run [] hcreated.isClient hcalls hcreated.calls fun n' u' leg hu' hleg => ?_,
        fun _ => ⟨hcreated.calls, hyclient, hyshut, _, update_self _ _ _⟩⟩
      · obtain ⟨d, circ, hd, hc, -⟩ := (hsets.waits hyshut n u hu).2 leg hleg
        obtain rfl : d = y.nextCirc := some.inj (hd.symm.trans hlegc)
        rw [hsets.circ_fresh _ le_rfl] at hc
        cases hc
      · show Call.markForClose d ∈ y.calls
        rw [hcreated.calls]
        exact hzteardown q set₁ d hq hfull hd
      · rcases update_some_eq_some.mp hu' with ⟨-, rfl⟩ | ⟨-, hu'⟩
        · exact hzown n u set₁ hu hfor hq
        · exact hzown n' u' set₁ hu' hfor hq
      · rcases update_some_eq_some.mp hu' with ⟨rfl, rfl⟩ | ⟨-, hu'⟩
        · rcases mem_append.mp hleg with hleg | hleg
          · exact .inr (hnonces n' u leg hu hleg)
          · rw [mem_singleton.mp hleg]
            exact .inl hlink
        · exact .inr (hnonces n' u' leg hu' hleg)
    · have hzcalls : (z.call [.markForClose y.nextCirc]).calls
          = [.markForClose y.nextCirc] ++ calls := by
        show [Call.markForClose y.nextCirc] ++ y.calls = _
        rw [hcreated.calls]
      refine ⟨false, _, rfl, ⟨hzsets.setCalls _, h.calls.run _ hcalls hcreated.shuttingDown hzcalls
        (fun d hd => ?_) hzkeep (fun _ hmem => absurd hmem not_mem_nil)
        (fun call' hmem n' hn' => ?_) (hrelay hyclient) (fun q set₁ d hq hfull hd => ?_) hzown⟩,
        fun hn => hn.run _ hcreated.isClient hcalls hzcalls fun n' u' leg hu' hleg =>
          .inr (hnonces n' u' leg hu' hleg), fun hno => absurd hno (by simp)⟩
      · obtain rfl := Call.markForClose.inj (mem_singleton.mp hd)
        exact ⟨_, hzcirc⟩
      · obtain rfl := mem_singleton.mp (mem_of_mem_head? hmem)
        cases hn'
      · rw [hzcalls]
        exact mem_append_right _ (hzteardown q set₁ d hq hfull hd)

/-- **What is left of `launch_new_set`** keeps the invariant. -/
lemma Inv.launchMore {numLegs : ℕ} (h : Inv s) (hcalls : s.calls = .launchMore n numLegs :: calls)
    (established : Bool) :
    ∃ t, Pool.launchMore { s with calls } n established numLegs = .ok t ∧ Inv t
      ∧ (Nonces s → Nonces t) := by
  have hhead : Call.launchMore n numLegs ∈ s.calls.head? := by
    rw [hcalls]
    rfl
  have hclient : s.isClient = true := (h.calls.head _ hhead n rfl).1
  cases numLegs with
  | zero =>
    refine ⟨{ s with calls }, rfl, h.skip hcalls (fun _ _ hno => by cases hno) fun n' hr => ?_⟩
    exact absurd (hclient.symm.trans hr) (by simp)
  | succ numLegs =>
    obtain ⟨launched, t, ht, hinv, hn, hlaunched⟩ := h.launchLeg hcalls rfl established
    rw [Pool.launchMore, ht]
    cases launched with
    | false => exact ⟨t, rfl, hinv, hn⟩
    | true =>
      obtain ⟨htcalls, htclient, htshut, u, hu⟩ := hlaunched rfl
      refine ⟨t.call [.launchMore n numLegs], rfl, ⟨hinv.sets.setCalls _, ?_⟩, fun hns => ?_⟩
      · refine ⟨fun hs => absurd (htshut.symm.trans hs) (by simp), fun d hmem => ?_,
          fun call hmem => ?_, fun call hmem n' hn' => ?_,
          fun hr => absurd (htclient.symm.trans hr) (by simp),
          fun _ q set d hq hfull hd => ?_, hinv.calls.own⟩
        · exact hinv.calls.there d ((mem_cons.mp hmem).resolve_left (by simp))
        · refine h.calls.tail call ?_
          rw [hcalls]
          exact htcalls ▸ hmem
        · obtain rfl : call = .launchMore n numLegs := (some.inj hmem).symm
          obtain rfl : n = n' := some.inj hn'
          exact ⟨htclient, fun hnone => absurd (hnone.symm.trans hu) (by simp)⟩
        · exact mem_cons_of_mem _ (hinv.calls.teardown htshut q set d hq hfull hd)
      · refine ⟨htclient, fun n' u' leg hu' hleg => ?_⟩
        exact ((hn hns).nonces n' u' leg hu' hleg).imp_right fun ⟨d, hd, hmem⟩ =>
          ⟨d, hd, mem_cons_of_mem _ hmem⟩

end Pool

end Ator.Conflux
