import AtorProtocol.AddressMap.Addressmap
import AtorProtocol.Lib.ReverseIndex
import AtorProtocol.Lib.Run

/-!
# The virtual addresses given out

`virtaddress_reversemap` is a reverse index of `addressmap`, and what each operation does to the two
as maps of addresses.

* `CleanRemoval` — a removal that takes its address out of both maps.
* `Op.Keeps` — the operations that remove cleanly.
* `step_spec` — such an operation has a result, and gives up only what it removes.
-/

namespace Ator.Addressmap

open Option
open AssocMap (get_erase_of_ne get_erase_self get_set_of_ne get_set_self)

variable {text : AddrText} {s t : State} {ν : Type*} {address b target : Address} {ent : Entry}
  {type : ResolvedType}

/-- What `addressmap` maps an address to. -/
def State.standsFor (s : State) (address : Address) : Option Address :=
  (s.addressmap.get address).bind Entry.newAddress

/-- The virtual address of a type that `virtaddress_reversemap` has for an address. -/
def State.given (s : State) (newAddress : Address) (type : ResolvedType) : Option Address :=
  (s.virtaddressReversemap.get newAddress).bind fun ve => ve.bind fun ve => ve.get type

/-- **The invariant of the file**, and what its operations rely on besides. -/
structure Inv (s : State) : Prop where
  reverseIndex : ReverseIndex s.standsFor s.given
  notFreed : ∀ newAddress, s.virtaddressReversemap.get newAddress ≠ some none
  resolving : ∀ address ent, s.addressmap.get address = some ent → ent.newAddress = none →
    ent.source = .controller

/-- The parts of the state that say what the virtual networks are. -/
def SameNetworks (s t : State) : Prop :=
  t.virtaddrConfIpv4 = s.virtaddrConfIpv4 ∧ t.virtaddrConfIpv6 = s.virtaddrConfIpv6

lemma inv_addressmapInit (ipv4 ipv6 : VirtualAddrConf) : Inv (addressmapInit ipv4 ipv6) where
  reverseIndex := by
    intro newAddress type address h
    cases h
  notFreed := by
    intro newAddress h
    cases h
  resolving := by
    intro address ent h
    cases h

lemma SameNetworks.inVirtualRange (h : SameNetworks s t) (address : Address) :
    addressIsInVirtualRange text t address = addressIsInVirtualRange text s address := by
  rw [addressIsInVirtualRange, addressIsInVirtualRange, h.1, h.2]

/-! ## The entries of the reverse map -/

lemma given_eq_some : s.given target type = some b ↔
    ∃ ve, s.virtaddressReversemap.get target = some (some ve) ∧ ve.get type = some b := by
  rw [State.given]
  rcases s.virtaddressReversemap.get target with _ | _ | ve <;> simp

lemma given_setVirtaddress_self {ve : VirtaddressEntry} :
    (s.setVirtaddress target (some ve)).given target type = ve.get type := by
  rw [State.given, State.setVirtaddress, get_set_self]
  rfl

lemma given_setVirtaddress_of_ne {ve : Option VirtaddressEntry} (h : address ≠ target) :
    (s.setVirtaddress target ve).given address type = s.given address type := by
  rw [State.given, State.setVirtaddress, get_set_of_ne h]
  rfl

lemma Inv.notFreed_setVirtaddress (hinv : Inv s) (ve : VirtaddressEntry) (newAddress : Address) :
    (s.setVirtaddress target (some ve)).virtaddressReversemap.get newAddress ≠ some none := by
  rw [State.setVirtaddress]
  by_cases h : newAddress = target
  · rw [h, get_set_self]
    simp
  · rw [get_set_of_ne h]
    exact hinv.notFreed newAddress

namespace VirtaddressEntry

@[simp] lemma get_zero : zero.get type = none := by
  cases type <;> rfl

lemma get_set_self (ve : VirtaddressEntry) : (ve.set type b).get type = some b := by
  cases type <;> rfl

lemma get_set_of_ne {other : ResolvedType} (ve : VirtaddressEntry) (h : other ≠ type) :
    (ve.set type b).get other = ve.get other := by
  cases type <;> cases other <;> first | rfl | exact absurd rfl h

end VirtaddressEntry

lemma virtaddressEntryRemove_spec (address : Address) {ve : VirtaddressEntry}
    (h : ∀ type, (ve.get type).isSome) :
    ∃ ve', virtaddressEntryRemove address ve = some ve' ∧
      ∀ type b, ve'.get type = some b ↔ ve.get type = some b ∧ b ≠ address := by
  obtain ⟨ipv4Address, h4⟩ := isSome_iff_exists.mp (h .ipv4)
  obtain ⟨ipv6Address, h6⟩ := isSome_iff_exists.mp (h .ipv6)
  obtain ⟨hostnameAddress, hname⟩ := isSome_iff_exists.mp (h .hostname)
  obtain ⟨_, _, _⟩ := ve
  subst h4 h6 hname
  refine ⟨_, rfl, fun type b => ?_⟩
  have hfield : ∀ string : Address, (if address = string then none else some string) = some b ↔
      some string = some b ∧ b ≠ address := by
    intro string
    split
    · next heq =>
        subst heq
        simp [eq_comm]
    · next hne =>
        rw [some.injEq]
        exact ⟨fun hb => ⟨hb, hb ▸ Ne.symm hne⟩, And.left⟩
  cases type
  · exact hfield hostnameAddress
  · exact hfield ipv4Address
  · exact hfield ipv6Address

/-! ## Removal -/

/-- When taking the mapping of `address` to `target` out of `addressmap` leaves the reverse map
right: it has nothing for `target`, or `target` is in a virtual network and there is a virtual
address of every type, and a key to compare them with; or, elsewhere, none of them is `address`. -/
def CleanRemoval (text : AddrText) (s : State) (keyFreed : Bool) (address target : Address) :
    Prop :=
  s.virtaddressReversemap.get target = none ∨
    if addressIsInVirtualRange text s target then
      keyFreed = false ∧ ∀ type, (s.given target type).isSome
    else ∀ type, s.given target type ≠ some address

lemma ResolvedType.forall {p : ResolvedType → Prop} :
    (∀ type, p type) ↔ p .hostname ∧ p .ipv4 ∧ p .ipv6 := by
  refine ⟨fun h => ⟨h _, h _, h _⟩, fun ⟨hname, h4, h6⟩ type => ?_⟩
  cases type
  · exact hname
  · exact h4
  · exact h6

instance {p : ResolvedType → Prop} [DecidablePred p] : Decidable (∀ type, p type) :=
  decidable_of_iff _ ResolvedType.forall.symm

instance (keyFreed : Bool) : Decidable (CleanRemoval text s keyFreed address target) := by
  unfold CleanRemoval
  infer_instance

/-- **A clean removal** takes its address out of the entry for its target, and changes nothing
else. -/
lemma virtaddressRemove_spec {keyFreed : Bool} (hinv : Inv s) (hent : ent.newAddress = some target)
    (hclean : CleanRemoval text s keyFreed address target) :
    ∃ t, addressmapVirtaddressRemove text s (if keyFreed then none else some address) ent =
        some t ∧
      t.addressmap = s.addressmap ∧ SameNetworks s t ∧
      (∀ newAddress, t.virtaddressReversemap.get newAddress ≠ some none) ∧
      ∀ x type b, t.given x type = some b ↔
        s.given x type = some b ∧ ¬ (x = target ∧ b = address) := by
  simp only [addressmapVirtaddressRemove, hent]
  cases hve : s.virtaddressReversemap.get target with
  | none =>
    refine ⟨s, by simp, rfl, ⟨rfl, rfl⟩, hinv.notFreed, fun x type b => ?_⟩
    refine ⟨fun h => ⟨h, ?_⟩, And.left⟩
    rintro ⟨rfl, rfl⟩
    rw [State.given, hve] at h
    cases h
  | some ve =>
    obtain ⟨ve, rfl⟩ : ∃ v, ve = some v := by
      refine ne_none_iff_exists'.mp fun hnone => hinv.notFreed target ?_
      rw [hve, hnone]
    have hgiven : ∀ type, s.given target type = ve.get type := fun type => by
      rw [State.given, hve]
      rfl
    have hcases := hclean.resolve_left (by rw [hve]; simp)
    by_cases hrange : addressIsInVirtualRange text s target
    · rw [if_pos hrange] at hcases
      obtain ⟨rfl, hall⟩ := hcases
      obtain ⟨ve', hremove, hget⟩ := virtaddressEntryRemove_spec address
        fun type => hgiven type ▸ hall type
      have hiff : ∀ x type b (v : Option Address), (x = target → v = ve'.get type) →
          (x ≠ target → v = s.given x type) →
          (v = some b ↔ s.given x type = some b ∧ ¬ (x = target ∧ b = address)) := by
        intro x type b v hself hother
        by_cases hx : x = target
        · rw [hself hx, hget, hx, hgiven]
          simp
        · rw [hother hx]
          simp [hx]
      by_cases hzero : ve' = .zero
      · refine ⟨{ s with virtaddressReversemap := s.virtaddressReversemap.erase target }, ?_, rfl,
          ⟨rfl, rfl⟩, fun newAddress => ?_, fun x type b => hiff x type b _ ?_ ?_⟩
        · simp [hrange, hremove, hzero]
        · by_cases hx : newAddress = target
          · rw [hx, get_erase_self]
            simp
          · rw [get_erase_of_ne hx]
            exact hinv.notFreed newAddress
        · rintro rfl
          rw [State.given, get_erase_self, hzero]
          simp
        · intro hx
          rw [State.given, get_erase_of_ne hx]
          rfl
      · refine ⟨s.setVirtaddress target (some ve'), ?_, rfl, ⟨rfl, rfl⟩,
          hinv.notFreed_setVirtaddress ve', fun x type b => hiff x type b _ ?_ ?_⟩
        · simp [hrange, hremove, hzero]
        · rintro rfl
          exact given_setVirtaddress_self
        · exact given_setVirtaddress_of_ne
    · rw [if_neg hrange] at hcases
      refine ⟨s, by simp [hrange], rfl, ⟨rfl, rfl⟩, hinv.notFreed, fun x type b => ?_⟩
      refine ⟨fun h => ⟨h, ?_⟩, And.left⟩
      rintro ⟨rfl, rfl⟩
      exact hcases type h

lemma Inv.newAddress_of_given {x : Address} (hinv : Inv s)
    (hget : s.addressmap.get address = some ent) (hgiven : s.given x type = some address) :
    ent.newAddress = some x := by
  have h := hinv.reverseIndex x type address hgiven
  rwa [State.standsFor, hget] at h

/-- **An entry that leaves the map** cleanly is all that either map loses. -/
lemma entRemove_spec {keyFreed : Bool} (hinv : Inv s) (hget : s.addressmap.get address = some ent)
    (hclean : ∀ target, ent.newAddress = some target →
      CleanRemoval text s keyFreed address target) :
    ∃ t, entRemove text s keyFreed address ent = some t ∧ Inv t ∧ SameNetworks s t ∧
      t.addressmap = s.addressmap.erase address ∧
      ∀ x type b, t.given x type = some b ↔ s.given x type = some b ∧ b ≠ address := by
  obtain ⟨u, hremove, hmap, hnet, hfreed, hgiven⟩ : ∃ u,
      addressmapVirtaddressRemove text s (if keyFreed then none else some address) ent = some u ∧
      u.addressmap = s.addressmap ∧ SameNetworks s u ∧
      (∀ newAddress, u.virtaddressReversemap.get newAddress ≠ some none) ∧
      ∀ x type b, u.given x type = some b ↔ s.given x type = some b ∧ b ≠ address := by
    cases hnew : ent.newAddress with
    | none =>
      refine ⟨s, by rw [addressmapVirtaddressRemove, hnew], rfl, ⟨rfl, rfl⟩, hinv.notFreed,
        fun x type b => ⟨fun h => ⟨h, ?_⟩, And.left⟩⟩
      rintro rfl
      rw [hinv.newAddress_of_given hget h] at hnew
      cases hnew
    | some target =>
      obtain ⟨u, hremove, hmap, hnet, hfreed, hgiven⟩ :=
        virtaddressRemove_spec hinv hnew (hclean target hnew)
      refine ⟨u, hremove, hmap, hnet, hfreed, fun x type b => ?_⟩
      rw [hgiven]
      refine and_congr_right fun h => not_congr (and_iff_right_of_imp ?_)
      rintro rfl
      rw [hinv.newAddress_of_given hget h] at hnew
      exact some.inj hnew
  refine ⟨{ u with addressmap := u.addressmap.erase address }, by rw [entRemove, hremove]; rfl,
    ⟨?_, hfreed, ?_⟩, hnet, by rw [hmap], hgiven⟩
  · refine hinv.reverseIndex.restrict fun x type b hb => ?_
    obtain ⟨hold, hne⟩ := (hgiven x type b).mp hb
    refine ⟨hold, ?_⟩
    rw [State.standsFor, get_erase_of_ne hne, hmap, State.standsFor]
  · intro other e he
    by_cases hother : other = address
    · rw [hother, get_erase_self] at he
      cases he
    · rw [get_erase_of_ne hother, hmap] at he
      exact hinv.resolving other e he

/-! ## Registration -/

lemma Inv.resolving_setEntry {other : Address} {e : Entry} (hinv : Inv s)
    (hnew : ent.newAddress ≠ none) (he : (s.setEntry address ent).addressmap.get other = some e)
    (hnone : e.newAddress = none) : e.source = .controller := by
  by_cases h : other = address
  · rw [h, State.setEntry, get_set_self] at he
    rw [← some.inj he] at hnone
    exact absurd hnone hnew
  · rw [State.setEntry, get_set_of_ne h] at he
    exact hinv.resolving other e he hnone

lemma Inv.setEntry (hinv : Inv s) (hnew : ent.newAddress ≠ none)
    (hgiven : ∀ x type, s.given x type = some address → ent.newAddress = some x) :
    Inv (s.setEntry address ent) where
  reverseIndex := by
    intro x type b hb
    by_cases h : b = address
    · subst h
      rw [State.standsFor, State.setEntry, get_set_self]
      exact hgiven x type hb
    · rw [State.standsFor, State.setEntry, get_set_of_ne h]
      exact hinv.reverseIndex x type b hb
  notFreed := hinv.notFreed
  resolving := fun _ _ => hinv.resolving_setEntry hnew

/-- When a registration leaves the reverse map right: it removes or replaces nothing, or does so
cleanly, or maps to the same address again where the code does not remove. -/
def RegisterKeeps (text : AddrText) (s : State) (address : Address) (newAddress : Option Address)
    (expires : ℤ) (wildcardAddr wildcardNewAddr : Bool) : Prop :=
  (wildcardNewAddr → wildcardAddr) ∧ ∀ target ∈ s.standsFor address,
    CleanRemoval text s false address target ∨
      ∃ new ∈ registrationTarget address newAddress wildcardAddr wildcardNewAddr,
        expires > 1 ∨ new = target ∧ ¬ addressIsInVirtualRange text s target

/-- Whether a registration takes the mapping of its address away. -/
def RegisterRemoves (address : Address) (newAddress : Option Address) (expires : ℤ)
    (wildcardAddr wildcardNewAddr : Bool) : Prop :=
  registrationTarget address newAddress wildcardAddr wildcardNewAddr = none ∨ expires ≤ 1

variable {newAddress : Option Address} {expires : ℤ} {source : EntrySource}
  {wildcardAddr wildcardNewAddr : Bool}

lemma Inv.register {new : Address} (hinv : Inv s)
    (hgiven : ∀ x type, s.given x type = some address → x = new) :
    Inv (s.setEntry address
      (.registered new expires source wildcardAddr wildcardNewAddr)) := by
  refine hinv.setEntry (by simp [Entry.registered]) fun x type h => ?_
  rw [Entry.registered, hgiven x type h]

lemma Inv.given_ne (hinv : Inv s) (h : s.standsFor address = none) (x : Address)
    (type : ResolvedType) : s.given x type ≠ some address := by
  intro hgiven
  rw [hinv.reverseIndex x type address hgiven] at h
  cases h

lemma replace_spec (new : Address) (expires : ℤ) (source : EntrySource)
    (wildcardAddr wildcardNewAddr : Bool) (hinv : Inv s)
    (hent : s.addressmap.get address = some ent)
    (hold : ent.newAddress = some target) (hclean : CleanRemoval text s false address target) :
    ∃ u, addressmapVirtaddressRemove text s (some address) ent = some u ∧
      Inv (u.setEntry address (.registered new expires source wildcardAddr wildcardNewAddr)) ∧
      ∀ x type b, s.given x type = some b → b ≠ address → u.given x type = some b := by
  obtain ⟨u, hremove, hmap, -, hfreed, hgiven⟩ := virtaddressRemove_spec hinv hold hclean
  have hinv' : Inv u := by
    refine ⟨hinv.reverseIndex.restrict fun x type b hb => ?_, hfreed, ?_⟩
    · refine ⟨((hgiven x type b).mp hb).1, ?_⟩
      rw [State.standsFor, State.standsFor, hmap]
    · rw [hmap]
      exact hinv.resolving
  refine ⟨u, hremove, hinv'.register fun x type h => ?_, fun x type b h hb =>
    (hgiven x type b).mpr ⟨h, fun heq => hb heq.2⟩⟩
  obtain ⟨hgiven', hnot⟩ := (hgiven x type address).mp h
  have hx := hinv.newAddress_of_given hent hgiven'
  rw [hold] at hx
  exact absurd ⟨(some.inj hx).symm, rfl⟩ hnot

lemma overwrite_spec {new : Address} (hinv : Inv s) (hent : s.addressmap.get address = some ent)
    (hold : ent.newAddress = some target) (hrange : ¬ addressIsInVirtualRange text s target)
    (hkeeps : CleanRemoval text s false address target ∨ new = target) :
    Inv (s.setEntry address
      (.registered new expires source wildcardAddr wildcardNewAddr)) := by
  refine hinv.register fun x type h => ?_
  have hx := hinv.newAddress_of_given hent h
  rw [hold] at hx
  obtain rfl := some.inj hx
  rcases hkeeps with (hnone | hother) | hsame
  · rw [State.given, hnone] at h
    cases h
  · rw [if_neg hrange] at hother
    exact absurd h (hother type)
  · exact hsame.symm

/-- **What a registration keeps.** -/
lemma register_spec (hinv : Inv s)
    (hkeeps : RegisterKeeps text s address newAddress expires wildcardAddr wildcardNewAddr) :
    ∃ t, addressmapRegister text s address newAddress expires source wildcardAddr wildcardNewAddr =
        some t ∧ Inv t ∧ ∀ x type b, s.given x type = some b →
      ¬ (b = address ∧ RegisterRemoves address newAddress expires wildcardAddr wildcardNewAddr) →
      t.given x type = some b := by
  obtain ⟨hwild, hkeeps⟩ := hkeeps
  have hassert : ¬ (wildcardNewAddr && !wildcardAddr) = true := by
    cases wildcardNewAddr <;> cases wildcardAddr <;> simp at hwild ⊢
  simp only [addressmapRegister, if_neg hassert]
  cases hent : s.addressmap.get address with
  | none =>
    have hnone : s.standsFor address = none := by rw [State.standsFor, hent, bind_none]
    cases registrationTarget address newAddress wildcardAddr wildcardNewAddr with
    | none => exact ⟨s, rfl, hinv, fun x type b h _ => h⟩
    | some new =>
      exact ⟨_, rfl, hinv.register fun x type h => absurd h (hinv.given_ne hnone x type),
        fun x type b h _ => h⟩
  | some ent =>
    have hstands : s.standsFor address = ent.newAddress := by
      rw [State.standsFor, hent, bind_some]
    cases hreg : registrationTarget address newAddress wildcardAddr wildcardNewAddr with
    | none =>
      have hclean : ∀ target, ent.newAddress = some target →
          CleanRemoval text s false address target := by
        intro target htarget
        refine (hkeeps target (hstands.trans htarget)).resolve_right ?_
        rintro ⟨new, hnew, -⟩
        rw [hreg] at hnew
        cases hnew
      obtain ⟨t, hremove, hinv', -, -, hgiven⟩ := entRemove_spec hinv hent hclean
      refine ⟨t, hremove, hinv', fun x type b h hnot => (hgiven x type b).mpr ⟨h, ?_⟩⟩
      exact fun hb => hnot ⟨hb, .inl hreg⟩
    | some new =>
      cases hold : ent.newAddress with
      | none =>
        rw [hold] at hstands
        simp only [hold]
        exact ⟨_, rfl, hinv.register fun x type h => absurd h (hinv.given_ne hstands x type),
          fun x type b h _ => h⟩
      | some target =>
        rw [hold] at hstands
        simp only [hold]
        by_cases hexpires : expires > 1
        · exact ⟨s, if_pos hexpires, hinv, fun x type b h _ => h⟩
        simp only [if_neg hexpires]
        have hcase : CleanRemoval text s false address target ∨
            new = target ∧ ¬ addressIsInVirtualRange text s target := by
          refine (hkeeps target hstands).imp_right ?_
          rintro ⟨new', hnew', h⟩
          obtain rfl := some.inj (hreg.symm.trans hnew')
          exact h.resolve_left hexpires
        by_cases hrange : addressIsInVirtualRange text s target
        · obtain ⟨u, hremove, hinv', hgiven⟩ := replace_spec new expires source wildcardAddr
            wildcardNewAddr hinv hent hold (hcase.resolve_right fun h => h.2 hrange)
          rw [if_pos ⟨hrange, by omega⟩, hremove]
          refine ⟨_, rfl, hinv', fun x type b h hnot => hgiven x type b h fun hb => ?_⟩
          exact hnot ⟨hb, .inr (by omega)⟩
        · rw [if_neg fun h => hrange h.1]
          exact ⟨_, rfl, overwrite_spec hinv hent hold hrange (hcase.imp_right And.left),
            fun x type b h _ => h⟩

end Ator.Addressmap
