import AtorProtocol.Conflux.PoolRegistration

/-!
# The nonce of a LINKED cell

Which LINKED cells a client accepts, and when the assertion of `cfx_add_leg` on the nonce fails.

* `LinkedNonces`, `AcceptsOwn` — only the nonce that the client sent is accepted.
* `Forged` — the cells that the first byte lets through, and nothing stops later.
* `linkedNonces_iff` — the runs of a client in which that holds all along.
-/

namespace Ator.Conflux.Pool

open Option
open List (length_map map_cons mem_append_left mem_cons mem_cons_of_mem mem_cons_self not_mem_nil)

variable {α : Type} {s t : Pool α} {c : ℕ} {n : Nonce} {circ : PoolCircuit} {set : ConfluxSet α}
  {u : UnlinkedCircuits} {link : LinkCell Nonce} {enabled validHop rttOk sent : Bool}
  {e : PoolEvent α} {es : List (PoolEvent α)}

/-- A cell that arrives on the circuit is processed. -/
def Arrives (s : Pool α) (c : ℕ) : Prop := s.calls = [] ∧ s.shuttingDown = false ∧ s.isOpen c = true

/-- A leg that is linked has the nonce that was sent on its circuit, or is being closed. -/
def LinkedNonces (s : Pool α) : Prop :=
  ∀ n u leg, s.unlinkedPool n = some u → leg ∈ u.legs → leg.linked = true →
    leg.link.nonce = n ∨ ∃ c, leg.circ = some c ∧ .markForClose c ∈ s.calls

/-- `link_circuit` accepts the leg of a LINKED cell only with the nonce that was sent. -/
def AcceptsOwn (s : Pool α) : PoolEvent α → Prop
  | .linked c (some link) enabled validHop _ _ => ∀ n u t, Arrives s c →
      s.Receives c link enabled validHop n u →
      tryFinalizeSet (s.setUnlinked n (some (acceptLink u c link))) (acceptLink u c link)
        = .ok (.ok, t) → link.nonce = n
  | _ => True

/-- **A LINKED cell with another nonce** that no check stops: its first byte is that of the nonce
that was sent, and its leg is the only one of the unlinked set, or there are too many legs. -/
def Forged (s : Pool α) : PoolEvent α → Prop
  | .linked c (some link) enabled validHop rttOk sent => Arrives s c ∧ rttOk = true
      ∧ ∃ n u set, s.Receives c link enabled validHop n u ∧ s.cfx u.cfx = some set ∧ link.nonce ≠ n
        ∧ if u.legs.length + set.cfx.numLegs > s.maxLegsSet then sent = true
          else u.legs.length = 1 ∧ link.lastSeqnoSent.toNat ≤ set.cfx.lastSeqDelivered
  | _ => False

/-! ## The legs that wait -/

lemma mem_waiting {leg : Leg ℕ Nonce} :
    leg ∈ u.waiting ↔ ⟨some leg.circ, leg.link, leg.linked⟩ ∈ u.legs := by
  rw [UnlinkedCircuits.waiting, List.mem_filterMap]
  constructor
  · rintro ⟨leg₀, hleg₀, hmap⟩
    obtain ⟨c, hc, rfl⟩ := map_eq_some_iff.mp hmap
    rw [← hc]
    exact hleg₀
  · exact fun h => ⟨_, h, rfl⟩

variable {legs : List PendingLeg}

lemma length_waiting (h : ∀ leg ∈ legs, leg.circ.isSome = true) :
    (legs.filterMap fun leg => leg.circ.map fun c => (⟨c, leg.link, leg.linked⟩ : Leg ℕ Nonce)).length
      = legs.length := by
  induction legs with
  | nil => rfl
  | cons leg legs ih =>
    obtain ⟨c, hc⟩ := isSome_iff_exists.mp (h leg mem_cons_self)
    rw [List.filterMap_cons_some (b := ⟨c, leg.link, leg.linked⟩) (by rw [hc]; rfl),
      List.length_cons, List.length_cons, ih fun leg' hleg => h leg' (mem_cons_of_mem _ hleg)]

variable {f : PendingLeg → PendingLeg} {leg : PendingLeg}

lemma mem_modifyLeg_of_nodup
 (hnodup : (legs.map PendingLeg.circ).Nodup)
    (h : leg ∈ modifyLeg c f legs) :
    leg ∈ legs ∧ leg.circ ≠ some c ∨ ∃ leg₀ ∈ legs, leg₀.circ = some c ∧ leg = f leg₀ := by
  induction legs with
  | nil => exact absurd h not_mem_nil
  | cons leg' legs ih =>
    rw [map_cons, List.nodup_cons] at hnodup
    rw [modifyLeg] at h
    split at h
    · next hc =>
        rcases mem_cons.mp h with rfl | h
        · exact .inr ⟨leg', mem_cons_self, hc, rfl⟩
        · refine .inl ⟨mem_cons_of_mem _ h, fun heq => hnodup.1 ?_⟩
          rw [hc, ← heq]
          exact List.mem_map_of_mem h
    · next hc =>
        rcases mem_cons.mp h with rfl | h
        · exact .inl ⟨mem_cons_self, hc⟩
        · refine (ih hnodup.2 h).imp (And.imp_left (mem_cons_of_mem _)) ?_
          rintro ⟨leg₀, hleg₀, hrest⟩
          exact ⟨leg₀, mem_cons_of_mem _ hleg₀, hrest⟩

lemma exists_modifyLeg
    (h : some c ∈ legs.map PendingLeg.circ) :
    ∃ leg ∈ legs, leg.circ = some c ∧ f leg ∈ modifyLeg c f legs := by
  induction legs with
  | nil => exact absurd h not_mem_nil
  | cons leg legs ih =>
    by_cases hc : leg.circ = some c
    · exact ⟨leg, mem_cons_self, hc, by rw [modifyLeg, if_pos hc]; exact mem_cons_self⟩
    · rw [map_cons, mem_cons] at h
      obtain ⟨leg₀, hleg₀, hc₀, hmem⟩ := ih (h.resolve_left fun heq => hc heq.symm)
      refine ⟨leg₀, mem_cons_of_mem _ hleg₀, hc₀, ?_⟩
      rw [modifyLeg, if_neg hc]
      exact mem_cons_of_mem _ hmem

lemma nonce_eq_of_validate {cfx : Cfx ℕ α} {legs : List (Leg ℕ Nonce)}
    (h : validateUnlinkedLegs cfx legs = true) {a b : Leg ℕ Nonce} (ha : a ∈ legs) (hb : b ∈ legs) :
    a.link.nonce = b.link.nonce := by
  rw [validateUnlinkedLegs, List.all_eq_true] at h
  obtain ⟨first, hfirst⟩ : ∃ first, legs.head? = some first := by
    cases legs with
    | nil => exact absurd ha not_mem_nil
    | cons first legs => exact ⟨first, rfl⟩
  have hall : ∀ leg ∈ legs, leg.link.nonce = first.link.nonce := by
    intro leg hleg
    have hvalid := h leg hleg
    rw [hfirst] at hvalid
    simp only [all_some, decide_eq_true_eq] at hvalid
    exact hvalid.1.2
  exact (hall a ha).trans (hall b hb).symm

lemma mem_modifyLeg_of_ne
 (h : leg ∈ legs) (hne : leg.circ ≠ some c) : leg ∈ modifyLeg c f legs := by
  induction legs with
  | nil => exact absurd h not_mem_nil
  | cons leg' legs ih =>
    rw [modifyLeg]
    rcases mem_cons.mp h with rfl | h
    · rw [if_neg hne]
      exact mem_cons_self
    · split
      · exact mem_cons_of_mem _ h
      · exact mem_cons_of_mem _ (ih h)

/-! ## A cell with another nonce -/

section Cell

variable (h : Inv s) (hn : Nonces s) (hshut : s.shuttingDown = false) (hcalls : s.calls = [])
  (hr : s.Receives c link enabled validHop n u)

include hn hcalls in
lemma nonce_of_quiet {n : Nonce} {u : UnlinkedCircuits} (hu : s.unlinkedPool n = some u)
 (hleg : leg ∈ u.legs) : leg.link.nonce = n := by
  refine (hn.nonces n u leg hu hleg).resolve_right fun ⟨c, _, hmem⟩ => ?_
  rw [hcalls] at hmem
  exact absurd hmem not_mem_nil

include h hshut hr in
lemma acceptLink_legs (hleg : leg ∈ (acceptLink u c link).legs) :
    leg ∈ u.legs ∧ leg.circ ≠ some c ∨ leg.circ = some c ∧ leg.link = link ∧ leg.linked = true := by
  refine (mem_modifyLeg_of_nodup (h.sets.waits hshut n u hr.unlinked).1 hleg).imp_right ?_
  rintro ⟨leg₀, -, hc, rfl⟩
  exact ⟨hc, rfl, rfl⟩

include hr in
lemma exists_acceptLink :
    (⟨c, link, true⟩ : Leg ℕ Nonce) ∈ (acceptLink u c link).waiting := by
  obtain ⟨leg, -, hc, hmem⟩ := exists_modifyLeg (f := fun leg => { leg with link, linked := true })
    (legFind_isSome.mp hr.leg)
  rw [hc] at hmem
  exact mem_waiting.mpr hmem

include h hshut hr in
lemma length_waiting_acceptLink : (acceptLink u c link).waiting.length = u.legs.length := by
  have hsome : ∀ leg ∈ (acceptLink u c link).legs, leg.circ.isSome = true := by
    intro leg hleg
    rcases acceptLink_legs h hshut hr hleg with ⟨hmem, -⟩ | ⟨hc, -⟩
    · exact waits_isSome h.sets hshut hr.unlinked leg hmem
    · rw [hc]
      rfl
  rw [UnlinkedCircuits.waiting, length_waiting hsome, ← length_map (f := PendingLeg.circ),
    map_circ_acceptLink, length_map]

include h hshut hr in
lemma acceptLink_one (hone : u.legs.length = 1) :
    (acceptLink u c link).waiting = [⟨c, link, true⟩] := by
  have hlen := (length_waiting_acceptLink h hshut hr).trans hone
  obtain ⟨leg, hleg⟩ := List.length_eq_one_iff.mp hlen
  have hmem := exists_acceptLink hr
  rw [hleg, List.mem_singleton] at hmem
  rw [hleg, hmem]

include h hn hshut hcalls hr in
lemma length_of_validate {cfx : Cfx ℕ α} (hne : link.nonce ≠ n)
    (hvalid : validateUnlinkedLegs cfx (acceptLink u c link).waiting = true) :
    u.legs.length = 1 := by
  have hall : ∀ leg ∈ u.legs, leg.circ = some c := by
    intro leg hleg
    by_contra hc
    obtain ⟨d, circ, hd, -⟩ := (h.sets.waits hshut n u hr.unlinked).2 leg hleg
    have hmem : (⟨d, leg.link, leg.linked⟩ : Leg ℕ Nonce) ∈ (acceptLink u c link).waiting := by
      rw [mem_waiting, ← hd]
      exact mem_modifyLeg_of_ne hleg hc
    have heq := nonce_eq_of_validate hvalid (exists_acceptLink hr) hmem
    exact hne (heq.trans (nonce_of_quiet hn hcalls hr.unlinked hleg))
  have hnodup := (h.sets.waits hshut n u hr.unlinked).1
  have hfind := legFind_isSome.mp hr.leg
  rw [List.eq_replicate_of_mem (l := u.legs.map PendingLeg.circ) (a := some c) fun o ho => by
    obtain ⟨leg, hleg, rfl⟩ := List.mem_map.mp ho
    exact hall leg hleg, List.nodup_replicate, length_map] at hnodup
  have hpos : 0 < u.legs.length := by
    rw [← length_map (f := PendingLeg.circ)]
    exact List.length_pos_of_mem hfind
  omega

include h hn hshut hcalls hr in
lemma tryFinalizeSet_forged (hne : link.nonce ≠ n) (set : ConfluxSet α) :
    Conflux.tryFinalizeSet s.maxLegsSet set.cfx (acceptLink u c link).waiting
      = if u.legs.length + set.cfx.numLegs > s.maxLegsSet then .tooManyLegs
        else if u.legs.length = 1 ∧ link.lastSeqnoSent.toNat ≤ set.cfx.lastSeqDelivered then
          .linked ((acceptLink u c link).waiting.foldl cfxAddLeg set.cfx)
        else .invalidLegs := by
  have hlen := length_waiting_acceptLink h hshut hr
  have hpos : ¬ u.legs.length = 0 := by
    rw [← length_map (f := PendingLeg.circ)]
    exact (List.length_pos_of_mem (legFind_isSome.mp hr.leg)).ne'
  rw [Conflux.tryFinalizeSet, hlen, if_neg hpos]
  split
  · rfl
  · by_cases hone : u.legs.length = 1
    · rw [acceptLink_one h hshut hr hone]
      by_cases hseq : link.lastSeqnoSent.toNat ≤ set.cfx.lastSeqDelivered
      · rw [if_neg (by simp [validateUnlinkedLegs, hseq]), if_neg (by simp), if_pos ⟨hone, hseq⟩]
      · rw [if_pos (by simp [validateUnlinkedLegs, hseq]), if_neg fun hno => hseq hno.2]
    · rw [if_pos fun hvalid => hone (length_of_validate h hn hshut hcalls hr hne hvalid),
        if_neg fun hno => hone hno.1]

include hn hcalls in
lemma Nonces.setUnlinked {v : UnlinkedCircuits} {later : List Call}
    (hv : ∀ leg ∈ v.legs, leg.link.nonce = n ∨ ∃ c, leg.circ = some c ∧ .markForClose c ∈ later) :
    Nonces { s.setUnlinked n (some v) with calls := later } := by
  refine ⟨hn.isClient, fun n' u' leg hu' hleg => ?_⟩
  rcases update_some_eq_some.mp hu' with ⟨rfl, rfl⟩ | ⟨-, hu'⟩
  · exact hv leg hleg
  · exact .inl (nonce_of_quiet hn hcalls hu' hleg)

include h hn hshut hcalls hr in
lemma acceptLink_nonces (heq : link.nonce = n) :
    ∀ leg ∈ (acceptLink u c link).legs, leg.link.nonce = n := by
  intro leg hleg
  rcases acceptLink_legs h hshut hr hleg with ⟨hmem, -⟩ | ⟨-, hlink, -⟩
  · exact nonce_of_quiet hn hcalls hr.unlinked hmem
  · rw [hlink, heq]

include h hn hshut hcalls hr in
lemma acceptLink_closing {later : List Call} (hmem : .markForClose c ∈ later) :
    ∀ leg ∈ (acceptLink u c link).legs,
      leg.link.nonce = n ∨ ∃ c, leg.circ = some c ∧ .markForClose c ∈ later := by
  intro leg hleg
  rcases acceptLink_legs h hshut hr hleg with ⟨hleg, -⟩ | ⟨hc, -⟩
  · exact .inl (nonce_of_quiet hn hcalls hr.unlinked hleg)
  · exact .inr ⟨c, hc, hmem⟩

include h hn hshut hcalls hr in
/-- **A cell with the nonce** is accepted, or closes what it comes to. -/
lemma finalizes_own (heq : link.nonce = n) :
    ∃ err t, tryFinalizeSet (s.setUnlinked n (some (acceptLink u c link))) (acceptLink u c link)
        = .ok (err, t)
      ∧ ∀ later, Nonces { t with calls := t.calls ++ later } := by
  have hlegs := acceptLink_nonces h hn hshut hcalls hr heq
  have haccepted := (h.quiet hcalls).setLegs (acceptLink u c link) hr.unlinked rfl rfl
    (map_circ_acceptLink u c link)
  have hz : (s.setUnlinked n (some (acceptLink u c link))).unlinkedPool n
    = some (acceptLink u c link) := Function.update_self _ _ _
  rcases finalizes haccepted.sets hshut hz with ⟨-, leg, hleg, hno⟩ | ⟨err, t, ht, hfin⟩
  · exact absurd (hlegs _ (mem_waiting.mp hleg)).symm hno
  · refine ⟨err, t, ht, fun later => ?_⟩
    cases hfin with
    | same err herr | invalid => exact hn.setUnlinked hcalls fun leg hleg => .inl (hlegs leg hleg)
    | joined set hset hne =>
      refine ⟨hn.isClient, fun n' u' leg hu' hleg => .inl ?_⟩
      rcases update_eq_some.mp hu' with ⟨-, hnil⟩ | ⟨hne, hu'⟩
      · cases hnil
      · rcases update_eq_some.mp hu' with ⟨heq, -⟩ | ⟨-, hu'⟩
        · exact absurd heq hne
        · exact nonce_of_quiet hn hcalls hu' hleg

include h hn hshut hcalls hr in
/-- **A cell with another nonce** stops the program, leaves its leg linked, or closes it. -/
lemma finalizes_other (hset : s.cfx u.cfx = some set) (hne : link.nonce ≠ n) :
    tryFinalizeSet (s.setUnlinked n (some (acceptLink u c link))) (acceptLink u c link)
      = if u.legs.length + set.cfx.numLegs > s.maxLegsSet then
          .ok (.invalidLeg, s.setUnlinked n (some (acceptLink u c link)))
        else if u.legs.length = 1 ∧ link.lastSeqnoSent.toNat ≤ set.cfx.lastSeqDelivered then
          .error .wrongSet
        else .ok (.invalidLeg, (s.setUnlinked n (some (acceptLink u c link))).call
          (((acceptLink u c link).waiting.map Leg.circ).map .markForClose ++ [.closeLinked n])) := by
  obtain ⟨set₁, hset₁, hsn, -⟩ := h.sets.unlinked n u hr.unlinked
  obtain rfl := some.inj (hset.symm.trans hset₁)
  have haccepted := (h.quiet hcalls).setLegs (acceptLink u c link) hr.unlinked rfl rfl
    (map_circ_acceptLink u c link)
  rw [tryFinalizeSet_eq (haccepted.sets.leg_circs hshut (Function.update_self _ _ _))
    (Function.update_self _ _ _) hset hsn]
  simp only [show (s.setUnlinked n (some (acceptLink u c link))).maxLegsSet = s.maxLegsSet from rfl,
    tryFinalizeSet_forged h hn hshut hcalls hr hne set]
  by_cases hmany : u.legs.length + set.cfx.numLegs > s.maxLegsSet
  · rw [if_pos hmany, if_pos hmany]
  · rw [if_neg hmany, if_neg hmany]
    by_cases hone : u.legs.length = 1 ∧ link.lastSeqnoSent.toNat ≤ set.cfx.lastSeqDelivered
    · have hany : ((acceptLink u c link).waiting.any fun leg => n ≠ leg.link.nonce) = true := by
        rw [acceptLink_one h hshut hr hone.1, List.any_cons, decide_eq_true (Ne.symm hne)]
        rfl
      rw [if_pos hone, if_pos hone]
      simp only
      rw [if_pos hany]
    · rw [if_neg hone, if_neg hone]

end Cell

/-! ## A step -/

lemma event_linked (harr : Arrives s c) (cell : Option (LinkCell Nonce)) :
    s.exec (.linked c cell enabled validHop rttOk sent)
      = s.confluxProcessLinked c cell enabled validHop rttOk sent := by
  rw [exec_nil harr.1, event, if_neg]
  rw [harr.2.1, harr.2.2]
  simp

lemma exec_received (h : Inv s) (hn : Nonces s) (harr : Arrives s c)
    (hr : s.Receives c link enabled validHop n u)
    (hunforged : ¬ Forged s (.linked c (some link) enabled validHop rttOk sent)) :
    ∃ t, s.exec (.linked c (some link) enabled validHop rttOk sent) = .ok t ∧ Nonces t := by
  have hcalls := harr.1
  have hshut := harr.2.1
  obtain ⟨set, hset, -⟩ := h.sets.unlinked n u hr.unlinked
  rw [event_linked harr, hr.confluxProcessLinked]
  split
  · refine ⟨_, rfl, hn.setUnlinked hcalls fun leg hleg => ?_⟩
    rcases mem_modifyLeg_of_nodup (h.sets.waits hshut n u hr.unlinked).1 hleg with
      ⟨hmem, -⟩ | ⟨leg₀, -, hc, rfl⟩
    · exact .inl (nonce_of_quiet hn hcalls hr.unlinked hmem)
    · exact .inr ⟨c, hc, List.mem_append_right _ (List.mem_singleton_self _)⟩
  next hrtt =>
  rw [Bool.not_eq_false] at hrtt
  by_cases heq : link.nonce = n
  · obtain ⟨err, t, ht, hnonces⟩ := finalizes_own h hn hshut hcalls hr heq
    rw [ht]
    refine ⟨_, rfl, ?_⟩
    simp only
    split
    · exact hnonces _
    · have hsame := hnonces []
      rwa [List.append_nil] at hsame
  · rw [finalizes_other h hn hshut hcalls hr hset heq]
    by_cases hmany : u.legs.length + set.cfx.numLegs > s.maxLegsSet
    · cases hsent : sent with
      | true =>
        refine absurd ⟨harr, hrtt, n, u, set, hr, hset, heq, ?_⟩ hunforged
        rw [if_pos hmany]
        exact hsent
      | false =>
        rw [if_pos hmany]
        refine ⟨_, rfl, ?_⟩
        beta_reduce
        exact hn.setUnlinked hcalls (acceptLink_closing h hn hshut hcalls hr
          (List.mem_append_right _ (List.mem_singleton_self _)))
    · rw [if_neg hmany, if_neg fun hone => hunforged ⟨harr, hrtt, n, u, set, hr, hset, heq, by
        rw [if_neg hmany]
        exact hone⟩]
      have hmem : Call.markForClose c ∈ ((acceptLink u c link).waiting.map Leg.circ).map
          Call.markForClose ++ [.closeLinked n] := by
        refine mem_append_left _ (List.mem_map_of_mem ?_)
        exact List.mem_map_of_mem (f := Leg.circ) (exists_acceptLink hr)
      refine ⟨_, rfl, ?_⟩
      simp only
      split
      · exact hn.setUnlinked hcalls (acceptLink_closing h hn hshut hcalls hr
          (mem_append_left _ (mem_append_left _ hmem)))
      · exact hn.setUnlinked hcalls (acceptLink_closing h hn hshut hcalls hr
          (mem_append_left _ hmem))

/-- **A step that is not forged** keeps the nonces. -/
lemma exec_unforged (h : Inv s) (hn : Nonces s) (hunforged : ¬ Forged s e) :
    ∃ t, s.exec e = .ok t ∧ Nonces t := by
  by_cases hlinked : ∃ c cell enabled validHop rttOk sent,
      e = .linked c cell enabled validHop rttOk sent
  · obtain ⟨c, cell, enabled, validHop, rttOk, sent, rfl⟩ := hlinked
    by_cases harr : Arrives s c
    · obtain ⟨hcalls, hshut, hopen⟩ := harr
      obtain ⟨circ, hc, -⟩ := any_eq_true _ _ |>.mp hopen
      rcases confluxProcessLinked_cases s c cell enabled validHop rttOk sent hc with
        heq | ⟨link, n, u, rfl, hr⟩
      · rw [event_linked ⟨hcalls, hshut, hopen⟩, heq]
        refine ⟨_, rfl, hn.isClient, fun n u leg hu hleg => .inl ?_⟩
        exact nonce_of_quiet hn hcalls hu hleg
      · exact exec_received h hn ⟨hcalls, hshut, hopen⟩ hr hunforged
    · refine ⟨s, ?_, hn⟩
      cases hcalls : s.calls with
      | cons call calls => exact exec_busy hcalls fun established => by simp
      | nil =>
        rw [exec_nil hcalls, event, if_pos]
        by_contra hno
        simp only [not_or, Bool.not_eq_true, Bool.not_eq_false] at hno
        exact harr ⟨hcalls, hno⟩
  · rcases h.exec (noStaleFree_of_client h hn.isClient) with ⟨t, ht, -, hkeep⟩ | ⟨-, -, hno⟩
    · refine ⟨t, ht, hkeep (fun c cell enabled validHop rttOk sent heq => ?_) hn⟩
      exact hlinked ⟨c, cell, enabled, validHop, rttOk, sent, heq⟩
    · exact absurd hno hlinked

/-- **A forged cell** fails the assertion, or leaves its leg linked. -/
lemma exec_forged (h : Inv s) (hn : Nonces s) (hforged : Forged s e) :
    s.exec e = .error .wrongSet ∨ ∃ t, s.exec e = .ok t ∧ ¬ LinkedNonces t := by
  cases e with
  | linked c cell enabled validHop rttOk sent =>
    cases cell with
    | none => exact absurd hforged id
    | some link =>
      obtain ⟨harr, hrtt, n, u, set, hr, hset, hne, hcond⟩ := hforged
      have hcalls := harr.1
      have hshut := harr.2.1
      rw [event_linked harr, hr.confluxProcessLinked, if_neg (by simp [hrtt]),
        finalizes_other h hn hshut hcalls hr hset hne]
      by_cases hmany : u.legs.length + set.cfx.numLegs > s.maxLegsSet
      · rw [if_pos hmany] at hcond ⊢
        refine .inr ⟨_, rfl, fun hlinked => ?_⟩
        beta_reduce at hlinked
        rw [if_neg (by simp [hcond])] at hlinked
        have hmem := mem_waiting.mp (exists_acceptLink hr)
        rcases hlinked n _ _ (Function.update_self _ _ _) hmem rfl with heq | ⟨d, -, hd⟩
        · exact hne heq
        · have hd' : Call.markForClose d ∈ s.calls := hd
          rw [hcalls] at hd'
          exact absurd hd' not_mem_nil
      · rw [if_neg hmany] at hcond ⊢
        rw [if_pos hcond]
        exact .inl rfl
  | _ => exact absurd hforged id

/-- `link_circuit` accepts no other nonce. -/
lemma acceptsOwn (h : Inv s) (hn : Nonces s) : AcceptsOwn s e := by
  cases e with
  | linked c cell enabled validHop rttOk sent =>
    cases cell with
    | none => trivial
    | some link =>
      intro n u t harr hr hok
      obtain ⟨hcalls, hshut, -⟩ := harr
      obtain ⟨set, hset, -⟩ := h.sets.unlinked n u hr.unlinked
      by_contra hne
      rw [finalizes_other h hn hshut hcalls hr hset hne] at hok
      split_ifs at hok
      · cases hok
      · cases hok
  | _ => trivial

lemma Nonces.linkedNonces (hn : Nonces s) : LinkedNonces s := fun n u leg hu hleg _ =>
  hn.nonces n u leg hu hleg

lemma nonces_init (maxLegsSet numLegsSet maxUnlinkedLegRetry : ℕ) :
    Nonces (init true maxLegsSet numLegsSet maxUnlinkedLegRetry : Pool α) :=
  ⟨rfl, fun _ _ _ hu => by cases hu⟩

/-- **A client links a leg only with the nonce that it sent on it**, and the assertion on the nonce
does not fail, in the runs in which no cell is forged, and in no others. -/
theorem linkedNonces_iff (maxLegsSet numLegsSet maxUnlinkedLegRetry : ℕ)
    (es : List (PoolEvent α)) :
    (∀ pre, pre <+: es → ∀ s,
        Reaches step (init true maxLegsSet numLegsSet maxUnlinkedLegRetry) pre s → LinkedNonces s)
      ∧ Meets step (fun s e => s.exec e ≠ .error .wrongSet ∧ AcceptsOwn s e)
        (init true maxLegsSet numLegsSet maxUnlinkedLegRetry) es
    ↔ Meets step (fun s e => ¬ Forged s e)
        (init true maxLegsSet numLegsSet maxUnlinkedLegRetry) es := by
  have hof : ∀ (s : Pool α) e t, s.exec e = .ok t → step s e = some t := fun s e t ht => by
    rw [step, ht]
    rfl
  refine forall_reached_and_meets_iff (I := fun s => Inv s ∧ Nonces s)
    (fun s h => h.2.linkedNonces) (fun s e h => ⟨?_, fun hunforged => ?_⟩)
    (fun s e t h hunforged ht => ?_) ⟨inv_init _ _ _ _, nonces_init _ _ _⟩
  · rintro ⟨hP, hD, -⟩ hforged
    rcases exec_forged h.1 h.2 hforged with hfault | ⟨t, ht, hno⟩
    · exact hD hfault
    · exact hno (hP t (hof s e t ht))
  · obtain ⟨t, ht, hnonces⟩ := exec_unforged h.1 h.2 hunforged
    refine ⟨fun t' ht' => ?_, by simp [ht], acceptsOwn h.1 h.2⟩
    obtain rfl := some.inj ((hof s e t ht).symm.trans ht')
    exact hnonces.linkedNonces
  · obtain ⟨t', ht', hnonces⟩ := exec_unforged h.1 h.2 hunforged
    obtain rfl := some.inj ((hof s e t' ht').symm.trans ht)
    exact ⟨h.1.of_step (noStaleFree_of_client h.1 h.2.isClient) ht, hnonces⟩

/-- The exit answers on the one leg that is left with a nonce that has the first byte of the one
that was sent. -/
theorem assert_reached : ¬ ∀ (es : List (PoolEvent Unit)) (s : Pool Unit) (e : PoolEvent Unit),
    Reaches step (init true 8 2 3) es s → s.exec e ≠ .error .wrongSet := by
  intro h
  exact h [.launchNewSet (Vector.replicate 32 0), .runCall true, .runCall true, .runCall true,
    .close 1, .runCall true, .runCall false, .runCall true, .runCall false, .runCall true,
    .runCall false, .runCall true, .runCall false] _
    (.linked 0 (some ⟨1, (Vector.replicate 32 0).set 31 1, 0, 0⟩) true true true true) rfl rfl

end Ator.Conflux.Pool
