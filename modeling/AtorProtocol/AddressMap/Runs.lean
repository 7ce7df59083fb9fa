import AtorProtocol.AddressMap.Virtaddress

/-!
# Runs of the address maps

* `Op.Keeps`, `Op.Removes` — the operations that keep the reverse map right, and what they remove.
* `reverseMap_of_meets` — runs of such operations: the reverse map is right, and the same virtual
  address is given again.
-/

namespace Ator.Addressmap

open List Option
open AssocMap (get_modify_of_ne get_modify_self get_set_of_ne get_set_self)

variable {text : AddrText} {s t : State} {ν : Type*} {address b target : Address} {ent : Entry}
  {type : ResolvedType} {draws : Draws} {sweep : Sweep ν} {op : Op ν} {order : List Address}

/-! ## Virtual addresses -/

/-- A drawn address that is not the target itself, or none, where the reverse map has nothing for
the target. -/
def DrawKeeps (s : State) (newAddress : Address) : Option (Option Address) → Prop
  | none => False
  | some none => s.virtaddressReversemap.get newAddress = none
  | some (some addr) => ¬ sameCase addr newAddress

instance : ∀ draw, Decidable (DrawKeeps s target draw)
  | none => inferInstanceAs (Decidable False)
  | some none => inferInstanceAs (Decidable (s.virtaddressReversemap.get target = none))
  | some (some addr) => inferInstanceAs (Decidable (¬ sameCase addr target))

/-- When a request leaves the reverse map right: the address is known, or the draw is right. -/
def RegisterVirtualKeeps (text : AddrText) (s : State) (type : ResolvedType) (newAddress : Address)
    (draws : Draws) : Prop :=
  (∃ b ∈ s.given newAddress type, s.standsFor b = some newAddress) ∨
    DrawKeeps s newAddress (addressmapGetVirtualAddress text s type draws)

lemma sameCase_refl (address : Address) : sameCase address address := decide_eq_true rfl

lemma known_of_given {vent : VirtaddressEntry}
    (hvent : s.virtaddressReversemap.get target = some (some vent)) (hinv : Inv s)
    (hgiven : s.given target type = some b) :
    addressmapKnownVirtualAddress s vent type target = some b := by
  have hstands := hinv.reverseIndex target type b hgiven
  rw [State.given, hvent] at hgiven
  have hget : vent.get type = some b := hgiven
  rw [State.standsFor] at hstands
  rw [addressmapKnownVirtualAddress, hget, filter_some, hstands]
  exact if_pos (sameCase_refl target)

/-- **The same virtual address again.** -/
lemma registerVirtual_of_given (hinv : Inv s) (hgiven : s.given target type = some b) :
    addressmapRegisterVirtualAddress text s type target draws = some (s, some b) := by
  obtain ⟨vent, hvent, -⟩ := given_eq_some.mp hgiven
  rw [addressmapRegisterVirtualAddress, hvent]
  simp [known_of_given hvent hinv hgiven]

lemma get_of_drawn (h : addressmapGetVirtualAddress text s type draws = some (some b)) :
    s.addressmap.get b = none := by
  cases type with
  | hostname =>
    simp only [addressmapGetVirtualAddress, map_eq_some_iff, some.injEq] at h
    obtain ⟨buf, hfind, rfl⟩ := h
    have hunused := find?_some hfind
    exact isNone_iff_eq_none.mp hunused
  | ipv4 | ipv6 =>
    simp only [addressmapGetVirtualAddress, some.injEq, map_eq_some_iff] at h
    obtain ⟨addr, hfind, rfl⟩ := h
    have husable := find?_some hfind
    simp only [Bool.and_eq_true] at husable
    exact isNone_iff_eq_none.mp husable.1.2

lemma registerNew_spec (text : AddrText) (type : ResolvedType) {vent : VirtaddressEntry}
    (hinv : Inv s)
    (hvent : ∀ type, vent.get type = s.given target type)
    (hnew : s.addressmap.get b = none) (hcase : ¬ sameCase b target) :
    ∃ t, addressmapRegister text (s.setVirtaddress target (some (vent.set type b)))
        b (some target) 2 .automap false false = some t ∧ Inv t ∧ t.given target type = some b ∧
      ∀ x i c, s.given x i = some c → (x = target → i ≠ type) → t.given x i = some c := by
  let u := s.setVirtaddress target (some (vent.set type b))
  have hself : ∀ i, u.given target i = (vent.set type b).get i := fun i => given_setVirtaddress_self
  have hother : ∀ x i, x ≠ target → u.given x i = s.given x i := fun x i =>
    given_setVirtaddress_of_ne
  refine ⟨u.setEntry b (.registered target 2 .automap false false), ?_, ⟨?_, ?_, ?_⟩, ?_, ?_⟩
  · have htarget : registrationTarget b (some target) false false = some target := by
      rw [registrationTarget, filter_some]
      simp [hcase]
    simp [addressmapRegister, htarget, hnew, State.setVirtaddress, u]
  · refine hinv.reverseIndex.insert (a := target) (b := b) ?_ ?_ ?_ ?_
    · refine hinv.given_ne ?_
      rw [State.standsFor, hnew, bind_none]
    · rw [State.standsFor, State.setEntry, get_set_self]
      rfl
    · intro c hc
      rw [State.standsFor, State.setEntry, get_set_of_ne hc]
      rfl
    · intro x i c hc
      change u.given x i = some c at hc
      by_cases hx : x = target
      · rw [hx, hself] at hc
        by_cases hi : i = type
        · rw [hi, VirtaddressEntry.get_set_self] at hc
          exact .inr ⟨hx, (some.inj hc).symm⟩
        · rw [VirtaddressEntry.get_set_of_ne vent hi, hvent] at hc
          exact .inl (hx ▸ hc)
      · rw [hother x i hx] at hc
        exact .inl hc
  · exact hinv.notFreed_setVirtaddress _
  · exact fun _ _ => hinv.resolving_setEntry (by simp [Entry.registered])
  · change u.given target type = some b
    rw [hself, VirtaddressEntry.get_set_self]
  · intro x i c hc hne
    change u.given x i = some c
    by_cases hx : x = target
    · rw [hx, hself, VirtaddressEntry.get_set_of_ne vent (hne hx), hvent, ← hx, hc]
    · rw [hother x i hx, hc]

/-- **What a request for a virtual address keeps**, and that it keeps what it returns. -/
lemma registerVirtual_spec (hinv : Inv s)
    (hkeeps : RegisterVirtualKeeps text s type target draws) :
    ∃ t answer, addressmapRegisterVirtualAddress text s type target draws = some (t, answer) ∧
      Inv t ∧ (∀ b ∈ answer, t.given target type = some b) ∧
      ∀ x i c, s.given x i = some c → t.given x i = some c := by
  rcases hgiven : s.given target type with _ | b
  · have hdrawn := hkeeps.resolve_left (by rw [hgiven]; rintro ⟨b, hb, -⟩; cases hb)
    obtain ⟨vent, hfound, hvent⟩ : ∃ vent,
        (s.virtaddressReversemap.get target).getD (some VirtaddressEntry.zero) = some vent ∧
        ∀ type, vent.get type = s.given target type := by
      cases hget : s.virtaddressReversemap.get target with
      | none => exact ⟨.zero, rfl, fun type => by simp [State.given, hget]⟩
      | some ve =>
        obtain ⟨ve, rfl⟩ : ∃ v, ve = some v := by
          refine ne_none_iff_exists'.mp fun hnone => hinv.notFreed target ?_
          rw [hget, hnone]
        exact ⟨ve, rfl, fun type => by simp [State.given, hget]⟩
    have hknown : addressmapKnownVirtualAddress s vent type target = none := by
      rw [addressmapKnownVirtualAddress, hvent, hgiven]
      rfl
    have hother : ∀ x i c, s.given x i = some c → x = target → i ≠ type := by
      rintro x i c hc rfl rfl
      rw [hgiven] at hc
      cases hc
    rcases hget : addressmapGetVirtualAddress text s type draws with _ | _ | b
    · rw [hget] at hdrawn
      exact hdrawn.elim
    · rw [hget] at hdrawn
      have hnotFound : (s.virtaddressReversemap.get target).isSome = false := by
        rw [hdrawn, isSome_none]
      refine ⟨s, none, ?_, hinv, ?_, fun x i c h => h⟩
      · simp only [addressmapRegisterVirtualAddress, hfound]
        simp [hknown, hget, hnotFound]
      · intro b hb
        cases hb
    · rw [hget] at hdrawn
      obtain ⟨t, hregister, hinv', hself, hkept⟩ := registerNew_spec text type hinv hvent
        (get_of_drawn hget) hdrawn
      refine ⟨t, some b, ?_, hinv', ?_, fun x i c hc => hkept x i c hc (hother x i c hc)⟩
      · simp only [addressmapRegisterVirtualAddress, hfound]
        simp [hknown, hget, hregister]
      · intro c hc
        rwa [← some.inj hc]
  · exact ⟨s, some b, registerVirtual_of_given hinv hgiven, hinv,
      fun c hc => by rw [← some.inj hc, hgiven], fun x i c h => h⟩

/-! ## Sweeps -/

/-- Whether a sweep takes the mapping of an address away when it comes to it. -/
def Sweep.Removes (text : AddrText) (s : State) (sweep : Sweep ν) (address : Address) : Prop :=
  ∃ ent ∈ s.addressmap.get address, sweep.drops text s address ent = some true

/-- When a turn of a loop leaves the reverse map right. -/
def Sweep.VisitKeeps (text : AddrText) (sweep : Sweep ν) (s : State) (address : Address) : Prop :=
  ∀ ent ∈ s.addressmap.get address, sweep.drops text s address ent = some true →
    ∀ target ∈ ent.newAddress, CleanRemoval text s sweep.keyFreed address target

lemma SameNetworks.drops (h : SameNetworks s t) (sweep : Sweep ν) (address : Address)
    (ent : Entry) : sweep.drops text t address ent = sweep.drops text s address ent := by
  cases sweep with
  | getMappings => rfl
  | clearTrackexithostMappings => rfl
  | clearExcludedTrackexithosts => rfl
  | clearInvalidAutomaps options =>
    simp only [Sweep.drops, h.inVirtualRange]

lemma exists_drops (text : AddrText) (sweep : Sweep ν) (hinv : Inv s)
    (hget : s.addressmap.get address = some ent) :
    ∃ d, sweep.drops text s address ent = some d := by
  have hsource : ent.source ≠ .controller → ∃ target, ent.newAddress = some target := by
    intro hne
    refine ne_none_iff_exists'.mp fun hnone => hne ?_
    exact hinv.resolving address ent hget hnone
  cases sweep with
  | getMappings => exact ⟨_, rfl⟩
  | clearTrackexithostMappings exitname =>
    simp only [Sweep.drops]
    split
    · next htrack =>
        obtain ⟨target, htarget⟩ := hsource (by rw [htrack]; decide)
        exact ⟨_, by rw [htarget, map_some]⟩
    · exact ⟨_, rfl⟩
  | clearExcludedTrackexithosts options =>
    simp only [Sweep.drops]
    repeat' split
    all_goals exact ⟨_, rfl⟩
  | clearInvalidAutomaps options =>
    simp only [Sweep.drops]
    split
    · exact ⟨_, rfl⟩
    · next hauto =>
        obtain ⟨target, htarget⟩ := hsource (by rw [not_not.mp hauto]; decide)
        rw [htarget]
        repeat' split
        all_goals exact ⟨_, rfl⟩

/-- **A turn of a loop** leaves the maps as they are, or takes one address out of both. -/
lemma visit_spec (hinv : Inv s) (hkeeps : sweep.VisitKeeps text s address) :
    ∃ t, sweep.visit text s address = some t ∧ Inv t ∧
      (t = s ∨ sweep.Removes text s address ∧ SameNetworks s t ∧
        t.addressmap = s.addressmap.erase address ∧
        ∀ x i b, t.given x i = some b ↔ s.given x i = some b ∧ b ≠ address) := by
  cases hget : s.addressmap.get address with
  | none => exact ⟨s, by simp [Sweep.visit, hget], hinv, .inl rfl⟩
  | some ent =>
    obtain ⟨d, hdrops⟩ := exists_drops text sweep hinv hget
    cases d with
    | false => exact ⟨s, by simp [Sweep.visit, hget, hdrops], hinv, .inl rfl⟩
    | true =>
      obtain ⟨t, hremove, hinv', hnet, hmap, hgiven⟩ :=
        entRemove_spec hinv hget (hkeeps ent hget hdrops)
      exact ⟨t, by simp [Sweep.visit, hget, hdrops, hremove], hinv',
        .inr ⟨⟨ent, hget, hdrops⟩, hnet, hmap, hgiven⟩⟩

lemma Sweep.Removes.of_visit (hne : b ≠ address) (hnet : SameNetworks s t)
    (hmap : t.addressmap = s.addressmap.erase address) (h : sweep.Removes text t b) :
    sweep.Removes text s b := by
  obtain ⟨ent, hent, hdrops⟩ := h
  rw [hmap, AssocMap.get_erase_of_ne hne] at hent
  rw [hnet.drops] at hdrops
  exact ⟨ent, hent, hdrops⟩

/-- **What a loop over the map keeps.** -/
lemma sweep_spec (hinv : Inv s)
    (hmeets : Meets (sweep.visit text) (sweep.VisitKeeps text) s order) :
    ∃ t, order.foldlM (sweep.visit text) s = some t ∧ Inv t ∧
      ∀ x i b, s.given x i = some b → ¬ (b ∈ order ∧ sweep.Removes text s b) →
        t.given x i = some b := by
  induction order generalizing s with
  | nil => exact ⟨s, rfl, hinv, fun x i b h _ => h⟩
  | cons a order ih =>
    obtain ⟨hkeeps, hrest⟩ := meets_cons.mp hmeets
    obtain ⟨u, hu, hinvu, hcases⟩ := visit_spec hinv hkeeps
    obtain ⟨t, ht, hinvt, hgiven⟩ := ih hinvu (hrest u hu)
    refine ⟨t, by rw [foldlM_cons, hu]; exact ht, hinvt, fun x i b h hnot => ?_⟩
    rcases hcases with rfl | ⟨hremoves, hnet, hmap, hgivenu⟩
    · exact hgiven x i b h fun hb => hnot ⟨mem_cons_of_mem a hb.1, hb.2⟩
    · have hne : b ≠ a := by
        rintro rfl
        exact hnot ⟨mem_cons_self, hremoves⟩
      refine hgiven x i b ((hgivenu x i b).mpr ⟨h, hne⟩) fun hb => hnot ?_
      exact ⟨mem_cons_of_mem a hb.1, hb.2.of_visit hne hnet hmap⟩

/-! ## Operations -/

/-- When an operation leaves the reverse map right. -/
def Op.Keeps (text : AddrText) (s : State) : Op ν → Prop
  | .register address newAddress expires _ wildcardAddr wildcardNewAddr =>
    RegisterKeeps text s address newAddress expires wildcardAddr wildcardNewAddr
  | .registerVirtualAddress type newAddress draws =>
    RegisterVirtualKeeps text s type newAddress draws
  | .sweep sweep order => Meets (sweep.visit text) (sweep.VisitKeeps text) s order
  | _ => True

/-- Whether an operation takes the mapping of an address away, or puts another in its place. -/
def Op.Removes (text : AddrText) (address : Address) (s : State) : Op ν → Prop
  | .register address' newAddress expires _ wildcardAddr wildcardNewAddr =>
    address = address' ∧ RegisterRemoves address' newAddress expires wildcardAddr wildcardNewAddr
  | .sweep sweep order => address ∈ order ∧ sweep.Removes text s address
  | _ => False

instance : Decidable (RegisterVirtualKeeps text s type target draws) := by
  unfold RegisterVirtualKeeps
  infer_instance

instance : Decidable (sweep.VisitKeeps text s address) := by
  unfold Sweep.VisitKeeps
  infer_instance

instance {newAddress : Option Address} {expires : ℤ} {wildcardAddr wildcardNewAddr : Bool} :
    Decidable (RegisterKeeps text s address newAddress expires wildcardAddr wildcardNewAddr) := by
  unfold RegisterKeeps
  infer_instance

instance : ∀ op : Op ν, Decidable (op.Keeps text s)
  | .register address newAddress expires _ wildcardAddr wildcardNewAddr =>
    inferInstanceAs (Decidable
      (RegisterKeeps text s address newAddress expires wildcardAddr wildcardNewAddr))
  | .registerVirtualAddress type newAddress draws =>
    inferInstanceAs (Decidable (RegisterVirtualKeeps text s type newAddress draws))
  | .sweep sweep order =>
    inferInstanceAs (Decidable (Meets (sweep.visit text) (sweep.VisitKeeps text) s order))
  | .haveMapping _ _ _ => inferInstanceAs (Decidable True)
  | .dnsIncrFailures _ _ => inferInstanceAs (Decidable True)
  | .dnsClearFailures _ => inferInstanceAs (Decidable True)
  | .setVirtualAddrNetwork _ _ => inferInstanceAs (Decidable True)

lemma Inv.update (hinv : Inv s) {e : Entry} (hget : t.addressmap.get address = some e)
    (hnew : e.newAddress = s.standsFor address) (hsource : e.newAddress = none →
      e.source = .controller)
    (hother : ∀ other, other ≠ address → t.addressmap.get other = s.addressmap.get other)
    (hreverse : t.virtaddressReversemap = s.virtaddressReversemap) : Inv t where
  reverseIndex := by
    refine hinv.reverseIndex.restrict fun x i b hb => ⟨?_, ?_⟩
    · rwa [State.given, ← hreverse]
    · by_cases h : b = address
      · rw [h, ← hnew, State.standsFor, hget, bind_some]
      · rw [State.standsFor, hother b h, State.standsFor]
  notFreed := by
    rw [hreverse]
    exact hinv.notFreed
  resolving := by
    intro other ent hent
    by_cases h : other = address
    · rw [h, hget] at hent
      rwa [← some.inj hent]
    · rw [hother other h] at hent
      exact hinv.resolving other ent hent

lemma inv_haveMapping (hinv : Inv s) (updateExpiry now : ℤ) :
    Inv (addressmapHaveMapping s address updateExpiry now).1 := by
  rw [addressmapHaveMapping]
  split
  · exact hinv
  · next ent hget =>
      split
      · refine hinv.update get_set_self ?_ ?_ (fun _ => get_set_of_ne) rfl
        · rw [State.standsFor, hget, bind_some]
        · exact hinv.resolving _ ent hget
      · exact hinv

lemma inv_dnsIncrFailures (hinv : Inv s) (now : ℤ) :
    Inv (clientDnsIncrFailures s address now).1 := by
  refine hinv.update get_set_self ?_ ?_ (fun _ => get_set_of_ne) rfl
  · rw [State.standsFor]
    cases s.addressmap.get address <;> rfl
  · cases hget : s.addressmap.get address with
    | none => exact fun _ => rfl
    | some ent => exact hinv.resolving address ent hget

lemma inv_dnsClearFailures (hinv : Inv s) : Inv (clientDnsClearFailures s address) := by
  cases hget : s.addressmap.get address with
  | none =>
    have hsame : ∀ other, (clientDnsClearFailures s address).addressmap.get other =
        s.addressmap.get other := by
      intro other
      by_cases h : other = address
      · rw [h, clientDnsClearFailures, get_modify_self, hget, map_none]
      · exact get_modify_of_ne _ h
    refine ⟨hinv.reverseIndex.restrict fun x i b hb => ⟨hb, ?_⟩, hinv.notFreed, ?_⟩
    · rw [State.standsFor, hsame, State.standsFor]
    · intro other ent hent
      rw [hsame] at hent
      exact hinv.resolving other ent hent
  | some ent =>
    have hself : (clientDnsClearFailures s address).addressmap.get address =
        some { ent with numResolveFailures := 0 } := by
      rw [clientDnsClearFailures, get_modify_self, hget, map_some]
    refine hinv.update hself ?_ ?_ (fun _ => get_modify_of_ne _) rfl
    · rw [State.standsFor, hget, bind_some]
    · exact hinv.resolving address ent hget

/-- **What an operation keeps**: the invariant, and what was given out that it does not remove. -/
lemma step_spec (hinv : Inv s) (hkeeps : op.Keeps text s) :
    ∃ t, step text s op = some t ∧ Inv t ∧
      ∀ x i b, s.given x i = some b → ¬ op.Removes text b s → t.given x i = some b := by
  cases op with
  | register => exact register_spec hinv hkeeps
  | registerVirtualAddress =>
    obtain ⟨t, answer, hstep, hinv', -, hgiven⟩ := registerVirtual_spec hinv hkeeps
    exact ⟨t, by rw [step, hstep, map_some], hinv', fun x i b h _ => hgiven x i b h⟩
  | sweep => exact sweep_spec hinv hkeeps
  | haveMapping address updateExpiry now =>
    refine ⟨_, rfl, inv_haveMapping hinv updateExpiry now, fun x i b h _ => ?_⟩
    rw [addressmapHaveMapping]
    repeat' split
    all_goals exact h
  | dnsIncrFailures address now =>
    exact ⟨_, rfl, inv_dnsIncrFailures hinv now, fun x i b h _ => h⟩
  | dnsClearFailures => exact ⟨_, rfl, inv_dnsClearFailures hinv, fun x i b h _ => h⟩
  | setVirtualAddrNetwork =>
    exact ⟨_, rfl, ⟨hinv.reverseIndex, hinv.notFreed, hinv.resolving⟩, fun x i b h _ => h⟩

/-! ## Runs -/

lemma given_of_reaches {ops : List (Op ν)} (hinv : Inv s)
    (hkeeps : Meets (step text) (Op.Keeps text) s ops)
    (hremoves : Meets (step text) (fun u op => ¬ op.Removes text b u) s ops)
    (hgiven : s.given target type = some b) (h : Reaches (step text) s ops t) :
    Inv t ∧ t.given target type = some b := by
  induction ops generalizing s with
  | nil => exact reaches_nil.mp h ▸ ⟨hinv, hgiven⟩
  | cons op ops ih =>
    obtain ⟨hop, hops⟩ := meets_cons.mp hkeeps
    obtain ⟨hnot, hnots⟩ := meets_cons.mp hremoves
    obtain ⟨u, hu, htail⟩ := reaches_cons.mp h
    obtain ⟨v, hv, hinv', hkept⟩ := step_spec hinv hop
    obtain rfl := some.inj (hu.symm.trans hv)
    exact ih hinv' (hops u hu) (hnots u hu) (hkept target type b hgiven hnot) htail

/-- **The reverse map.**  In a run of operations that each leave it right, every operation has a
result, a virtual address that it has is mapped back, and one that was returned is returned again
as long as its mapping is not removed. -/
theorem reverseMap_of_meets (text : AddrText) (ipv4 ipv6 : VirtualAddrConf) (ops : List (Op ν))
    (hmeets : Meets (step text) (Op.Keeps text) (addressmapInit ipv4 ipv6) ops) :
    (∃ t, Reaches (step text) (addressmapInit ipv4 ipv6) ops t) ∧
    (∀ pre, pre <+: ops → ∀ t, Reaches (step text) (addressmapInit ipv4 ipv6) pre t →
      ReverseIndex t.standsFor t.given) ∧
    ∀ pre mid type target draws draws' s t u b,
      pre ++ .registerVirtualAddress type target draws :: mid <+: ops →
      Reaches (step text) (addressmapInit ipv4 ipv6) pre s →
      addressmapRegisterVirtualAddress text s type target draws = some (t, some b) →
      Reaches (step text) t mid u →
      Meets (step text) (fun s op => ¬ op.Removes text b s) t mid →
      addressmapRegisterVirtualAddress text u type target draws' = some (u, some b) := by
  have hinit := inv_addressmapInit ipv4 ipv6
  have hinv : ∀ pre, pre <+: ops → ∀ t, Reaches (step text) (addressmapInit ipv4 ipv6) pre t →
      Inv t := by
    rintro pre ⟨post, rfl⟩ t ht
    refine invariant_of_meets (fun s op u hs hop hu => ?_) hinit (meets_append.mp hmeets).1 ht
    obtain ⟨v, hv, hinv, -⟩ := step_spec hs hop
    rwa [some.inj (hu.symm.trans hv)]
  refine ⟨?_, fun pre hpre t ht => (hinv pre hpre t ht).reverseIndex, ?_⟩
  · obtain ⟨t, ht, -⟩ := exists_reaches_of_meets (fun s op hs hop => by
      obtain ⟨t, ht, hinv, -⟩ := step_spec hs hop
      exact ⟨t, ht, hinv⟩) hinit hmeets
    exact ⟨t, ht⟩
  · rintro pre mid type target draws draws' s t u b ⟨post, rfl⟩ hs hask hu hremoves
    have hinvs := hinv pre (by simp) s hs
    rw [append_assoc, meets_append] at hmeets
    obtain ⟨hop, hmid⟩ := meets_cons.mp (hmeets.2 s hs)
    obtain ⟨v, answer, hv, hinvt, hanswer, -⟩ := registerVirtual_spec hinvs hop
    rw [hv] at hask
    obtain ⟨rfl, rfl⟩ := Prod.mk.inj (some.inj hask)
    have hmid := (meets_append.mp (hmid v (by rw [step, hv, map_some]))).1
    obtain ⟨hinvu, hgivenu⟩ := given_of_reaches hinvt hmid hremoves (hanswer b rfl) hu
    exact registerVirtual_of_given hinvu hgivenu

/-! ## Examples -/

/-- `127.192.0.0/10` and `[FE80::]/10` -/
def defaultIpv4 : VirtualAddrConf := ⟨.inet 0x7fc00000, 10⟩

def defaultIpv6 : VirtualAddrConf := ⟨.inet6 ⟨0xfe :: 0x80 :: List.replicate 14 0, by decide⟩, 10⟩

/-- `MAPADDRESS .=target`, with the first name drawn. -/
def askHostname (newAddress : Address) (randByte : UInt8) : Op Unit :=
  .registerVirtualAddress .hostname newAddress ⟨[], [List.replicate 10 randByte]⟩

/-- `MAPADDRESS address=address`, which removes a mapping. -/
def unmap (address : Address) : Op Unit :=
  .register address (some address) 1 .controller false false

/-- The name of ten zero bytes. -/
def zeroName : Address := "aaaaaaaaaaaaaaaa.virtual".toList

/-- A name that is mapped stays found once it is mapped no longer, and taking a mapping to a virtual
name away reads a missing string. -/
theorem reverseMap_fails :
    ¬ (∀ ops t, Reaches (step namesOnly (ν := Unit)) (addressmapInit defaultIpv4 defaultIpv6)
      ops t → ReverseIndex t.standsFor t.given) ∧
    ¬ ∀ ops, ∃ t, Reaches (step namesOnly (ν := Unit)) (addressmapInit defaultIpv4 defaultIpv6)
      ops t := by
  constructor
  · intro h
    have hrun : ([askHostname "torproject.org".toList 0, unmap zeroName].foldlM (step namesOnly)
        (addressmapInit defaultIpv4 defaultIpv6)).map (fun t =>
          (t.given "torproject.org".toList .hostname, t.standsFor zeroName)) =
        some (some zeroName, none) := by
      decide
    obtain ⟨t, ht, hmaps⟩ := map_eq_some_iff.mp hrun
    obtain ⟨hgiven, hstands⟩ := Prod.mk.inj hmaps
    have hreverse := h _ t ht _ _ _ hgiven
    rw [hstands] at hreverse
    cases hreverse
  · intro h
    have hrun : ([askHostname "x.virtual".toList 0, unmap zeroName].foldlM (step namesOnly)
        (addressmapInit defaultIpv4 defaultIpv6)).isSome = false := by
      decide
    obtain ⟨t, ht⟩ := h [askHostname "x.virtual".toList 0, unmap zeroName]
    rw [Reaches] at ht
    rw [ht] at hrun
    cases hrun

/-- Two requests for a name, with a failed resolve between them. -/
def askTwice : List (Op Unit) :=
  [askHostname "torproject.org".toList 0, .dnsIncrFailures "torproject.org".toList 0,
    askHostname "torproject.org".toList 1]

/-- **The second is answered as the first**, whatever is drawn. -/
theorem reverseMap_askTwice : ∃ t u, addressmapRegisterVirtualAddress namesOnly
      (addressmapInit defaultIpv4 defaultIpv6) .hostname "torproject.org".toList
      ⟨[], [List.replicate 10 0]⟩ = some (t, some zeroName) ∧
    Reaches (step (ν := Unit) namesOnly) t [.dnsIncrFailures "torproject.org".toList 0] u ∧
    addressmapRegisterVirtualAddress namesOnly u .hostname "torproject.org".toList
      ⟨[], [List.replicate 10 1]⟩ = some (u, some zeroName) := by
  have hmeets : Meets (step namesOnly) (Op.Keeps namesOnly)
      (addressmapInit defaultIpv4 defaultIpv6) askTwice := by
    decide
  obtain ⟨-, -, hagain⟩ := reverseMap_of_meets namesOnly defaultIpv4 defaultIpv6 askTwice hmeets
  have hfirst : (addressmapRegisterVirtualAddress namesOnly (addressmapInit defaultIpv4 defaultIpv6)
      .hostname "torproject.org".toList ⟨[], [List.replicate 10 0]⟩).map Prod.snd
      = some (some zeroName) := by
    decide
  obtain ⟨⟨t, _⟩, ht, rfl⟩ := map_eq_some_iff.mp hfirst
  have hfailed : Reaches (step (ν := Unit) namesOnly) t
      [.dnsIncrFailures "torproject.org".toList 0] _ := rfl
  refine ⟨t, _, ht, hfailed, hagain [] _ .hostname _ _ _ _ t _ zeroName ⟨[_], rfl⟩ rfl ht hfailed ?_⟩
  exact meets_cons.mpr ⟨id, fun _ _ => meets_nil⟩

end Ator.Addressmap
