import AtorProtocol.Nodelist.NodefamilyArray
import AtorProtocol.Lib.Run

/-!
# Runs of the table of node families

Families are parsed, canonicalised and freed in any order.  The state has, with the table, the
references that callers hold.

* `Interned` — what holds of the table, given the number of references to each family.
* `interned_of_reaches` — it holds all along a run with fewer than 2³² references to one family.
* `nodefamily_canonical` — families in reachable states.
-/

namespace Ator.Nodefamily

open Text List Option

variable {t t' : NodefamilyMap} {nf a b : NodefamilyT} {refs : ℕ → ℕ} {p tmp : ℕ}
  {l : List Bytes}

/-! ## The table -/

/-- `the_node_families`, when there are `refs p` references to the family at `p`. -/
structure Interned (t : NodefamilyMap) (refs : ℕ → ℕ) : Prop where
  arrays : (t.map NodefamilyT.familyMembers).Nodup
  addrs : (t.map NodefamilyT.addr).Nodup
  canonical : ∀ nf ∈ t, Canonical nf.familyMembers
  refcnt : ∀ nf ∈ t, nf.refcnt = UInt32.ofNat (refs nf.addr) ∧ 0 < refs nf.addr
  live : ∀ p, 0 < refs p → ∃ nf ∈ t, nf.addr = p

/-- The allocator returns an address at which no family lies. -/
def Fresh (t : NodefamilyMap) (tmp : ℕ) : Prop := ∀ nf ∈ t, nf.addr ≠ tmp

instance : Decidable (Fresh t tmp) := inferInstanceAs (Decidable (∀ nf ∈ t, _))

/-- One reference more to the family at `p`. -/
def acquire (refs : ℕ → ℕ) (p : ℕ) : ℕ → ℕ := fun q => if q = p then refs q + 1 else refs q

/-- One reference less to the family at `p`. -/
def release (refs : ℕ → ℕ) (p : ℕ) : ℕ → ℕ := fun q => if q = p then refs q - 1 else refs q

lemma release_acquire (refs : ℕ → ℕ) (p : ℕ) : release (acquire refs p) p = refs := by
  funext q
  simp only [release, acquire]
  split_ifs <;> rfl

lemma update_counter (t : NodefamilyMap) (p : ℕ) (c : UInt32 → UInt32) :
    NodefamilyMap.update t p (fun nf => { nf with refcnt := c nf.refcnt })
      = List.map (fun nf => { nf with refcnt := if nf.addr = p then c nf.refcnt else nf.refcnt }) t := by
  refine map_congr_left fun nf _ => ?_
  split_ifs <;> rfl

lemma Interned.update {refs' : ℕ → ℕ} {c : UInt32 → UInt32} (h : Interned t refs)
    (hother : ∀ q, q ≠ p → refs' q = refs q) (hpos : 0 < refs p) (hpos' : 0 < refs' p)
    (hc : c (UInt32.ofNat (refs p)) = UInt32.ofNat (refs' p)) :
    Interned (NodefamilyMap.update t p fun nf => { nf with refcnt := c nf.refcnt }) refs' := by
  rw [update_counter]
  refine ⟨?_, ?_, ?_, ?_, ?_⟩
  · rw [List.map_map]
    exact h.arrays
  · rw [List.map_map]
    exact h.addrs
  · intro nf hnf
    obtain ⟨nf, hmem, rfl⟩ := mem_map.mp hnf
    exact h.canonical nf hmem
  · intro nf hnf
    obtain ⟨nf, hmem, rfl⟩ := mem_map.mp hnf
    obtain ⟨hrefcnt, hrefs⟩ := h.refcnt nf hmem
    by_cases hp : nf.addr = p
    · subst hp
      simp only [if_true]
      rw [hrefcnt]
      exact ⟨hc, hpos'⟩
    · simp only [if_neg hp, hother _ hp]
      exact ⟨hrefcnt, hrefs⟩
  · intro q hq
    have hrefs : 0 < refs q := by
      by_cases hqp : q = p
      · rwa [hqp]
      · rwa [← hother q hqp]
    obtain ⟨nf, hmem, rfl⟩ := h.live q hrefs
    exact ⟨_, mem_map_of_mem hmem, rfl⟩

lemma ofNat_succ (n : ℕ) : UInt32.ofNat n + 1 = UInt32.ofNat (n + 1) := by
  rw [UInt32.ofNat_add]
  rfl

lemma findOrInsert_mem (t : NodefamilyMap) (tmp : ℕ) (l : List Bytes) :
    (findOrInsert t tmp l).2 ∈ (findOrInsert t tmp l).1
      ∧ (findOrInsert t tmp l).2.familyMembers = l := by
  rw [findOrInsert]
  cases hfind : htFind NodefamilyT.familyMembers t l with
  | some found =>
    have hkey : found.familyMembers = l := key_of_htFind hfind
    refine ⟨mem_map.mpr ⟨found, mem_of_htFind hfind, ?_⟩, hkey⟩
    simp
  | none => exact ⟨mem_cons_self, rfl⟩

/-- Looking an array up takes a reference to the family that is found or inserted. -/
theorem Interned.findOrInsert (h : Interned t refs) (hl : Canonical l) (hfresh : Fresh t tmp) :
    Interned (findOrInsert t tmp l).1 (acquire refs (findOrInsert t tmp l).2.addr) := by
  rw [Nodefamily.findOrInsert]
  cases hfind : htFind NodefamilyT.familyMembers t l with
  | some found =>
    have hmem := mem_of_htFind hfind
    refine h.update (c := (· + 1)) (fun q hq => if_neg hq) (h.refcnt found hmem).2 ?_ ?_
    · simp [acquire]
    · rw [ofNat_succ, acquire, if_pos rfl]
  | none =>
    have hnone := htFind_eq_none.mp hfind
    have hzero : refs tmp = 0 := by
      by_contra hne
      obtain ⟨nf, hnf, haddr⟩ := h.live tmp (Nat.pos_of_ne_zero hne)
      exact hfresh nf hnf haddr
    refine ⟨?_, ?_, ?_, ?_, ?_⟩
    · refine nodup_cons.mpr ⟨fun hmem => ?_, h.arrays⟩
      obtain ⟨nf, hnf, heq⟩ := mem_map.mp hmem
      exact hnone nf hnf heq
    · refine nodup_cons.mpr ⟨fun hmem => ?_, h.addrs⟩
      obtain ⟨nf, hnf, heq⟩ := mem_map.mp hmem
      exact hfresh nf hnf heq
    · intro nf hnf
      rcases mem_cons.mp hnf with rfl | hnf
      · exact hl
      · exact h.canonical nf hnf
    · intro nf hnf
      rcases mem_cons.mp hnf with rfl | hnf
      · simp [acquire, hzero]
      · simp only [acquire, if_neg (hfresh nf hnf)]
        exact h.refcnt nf hnf
    · intro q hq
      by_cases hqt : q = tmp
      · exact ⟨_, mem_cons_self, hqt.symm⟩
      · simp only [acquire, if_neg hqt] at hq
        obtain ⟨nf, hnf, haddr⟩ := h.live q hq
        exact ⟨nf, mem_cons_of_mem _ hnf, haddr⟩

/-- `nodefamily_free_` gives up a reference, and drops the family with the last one. -/
theorem Interned.nodefamilyFree (h : Interned t refs) (hpos : 0 < refs p) (hbound : refs p ≤ 2 ^ 32) :
    ∃ t', nodefamilyFree t (some p) = some t' ∧ Interned t' (release refs p) := by
  obtain ⟨nf, hmem, rfl⟩ := h.live p hpos
  have hfind : t.find? (fun a => a.addr = nf.addr) = some nf :=
    (htFind_eq_some h.addrs).mpr ⟨hmem, rfl⟩
  obtain ⟨hrefcnt, -⟩ := h.refcnt nf hmem
  have hpred : nf.refcnt - 1 = UInt32.ofNat (refs nf.addr - 1) := by
    rw [hrefcnt, UInt32.sub_eq_iff_eq_add, ofNat_succ, Nat.sub_add_cancel hpos]
  have hlast : nf.refcnt - 1 = 0 ↔ refs nf.addr = 1 := by
    rw [hpred, ← UInt32.toNat_inj, UInt32.toNat_ofNat']
    rw [Nat.mod_eq_of_lt (by omega)]
    change refs nf.addr - 1 = 0 ↔ _
    omega
  rw [Nodefamily.nodefamilyFree]
  simp only [hfind, bind_eq_bind, bind_some]
  by_cases hone : refs nf.addr = 1
  · rw [if_pos (hlast.mpr hone)]
    refine ⟨_, rfl, ?_⟩
    have hrest : ∀ a, a ∈ htRemove NodefamilyT.familyMembers t nf.familyMembers
        ↔ a ∈ t ∧ a.addr ≠ nf.addr := by
      intro a
      rw [mem_htRemove h.arrays]
      refine and_congr_right fun ha => not_congr ⟨fun heq => ?_, fun heq => ?_⟩
      · rw [eq_of_key_eq h.arrays ha hmem heq]
      · rw [eq_of_key_eq h.addrs ha hmem heq]
    refine ⟨nodup_htRemove h.arrays _, (eraseP_sublist.map _).nodup h.addrs, ?_, ?_, ?_⟩
    · exact fun a ha => h.canonical a ((hrest a).mp ha).1
    · intro a ha
      obtain ⟨ha, hne⟩ := (hrest a).mp ha
      simp only [release, if_neg hne]
      exact h.refcnt a ha
    · intro q hq
      by_cases hqp : q = nf.addr
      · simp [release, hqp, hone] at hq
      · simp only [release, if_neg hqp] at hq
        obtain ⟨a, ha, rfl⟩ := h.live q hq
        exact ⟨a, (hrest a).mpr ⟨ha, hqp⟩, rfl⟩
  · rw [if_neg fun heq => hone (hlast.mp heq)]
    refine ⟨_, rfl, ?_⟩
    rw [hpred]
    refine h.update (c := fun _ => UInt32.ofNat (refs nf.addr - 1)) (fun q hq => if_neg hq) hpos ?_ ?_
    · simp only [release, if_true]
      omega
    · simp [release]

/-! ## Runs -/

/-- The table, and the references that callers hold. -/
structure State where
  theNodeFamilies : NodefamilyMap
  held : List ℕ
deriving DecidableEq

def State.init : State := ⟨[], []⟩

inductive Event
  | parse (s : List Char) (rsaIdSelf : Option RsaId) (flags : UInt32) (tmp : ℕ)
  | canonicalize (s : List Char) (rsaIdSelf : Option RsaId) (flags : UInt32) (tmp : ℕ)
  | free (family : Option ℕ)

/-- A caller frees what it holds. -/
def step (s : State) : Event → Option State
  | .parse str rsaIdSelf flags tmp =>
    if Fresh s.theNodeFamilies tmp then
      let (t, result) := nodefamilyParse s.theNodeFamilies tmp str rsaIdSelf flags
      some ⟨t, (result.map NodefamilyT.addr).toList ++ s.held⟩
    else none
  | .canonicalize str rsaIdSelf flags tmp =>
    if Fresh s.theNodeFamilies tmp then do
      let (t, _) ← nodefamilyCanonicalize s.theNodeFamilies tmp str rsaIdSelf flags
      some ⟨t, s.held⟩
    else none
  | .free none => (nodefamilyFree s.theNodeFamilies none).map fun t => ⟨t, s.held⟩
  | .free (some p) =>
    if p ∈ s.held then
      (nodefamilyFree s.theNodeFamilies (some p)).map fun t => ⟨t, s.held.erase p⟩
    else none

/-- No family has more references than its counter counts. -/
def State.Bounded (s : State) : Prop := ∀ p, s.held.count p < 2 ^ 32

variable {s u : State} {e : Event} {es : List Event} {held : List ℕ}

lemma acquire_count (held : List ℕ) (p : ℕ) :
    acquire (held.count ·) p = ((p :: held).count ·) := by
  funext q
  simp only [acquire, count_cons, beq_iff_eq]
  by_cases h : q = p
  · rw [if_pos h, if_pos h.symm]
  · rw [if_neg h, if_neg fun heq => h heq.symm, Nat.add_zero]

lemma release_count (held : List ℕ) (p : ℕ) :
    release (held.count ·) p = ((held.erase p).count ·) := by
  funext q
  simp only [release, count_erase, beq_iff_eq]
  by_cases h : q = p
  · rw [if_pos h, if_pos h.symm]
  · rw [if_neg h, if_neg fun heq => h heq.symm, Nat.sub_zero]

lemma nodefamilyCanonicalize_eq (t : NodefamilyMap) (tmp : ℕ) (str : List Char)
    (rsaIdSelf : Option RsaId) (flags : UInt32) :
    nodefamilyCanonicalize t tmp str rsaIdSelf flags
      = (nodefamilyFree (nodefamilyFromMembers t tmp (splitHorizontal str) rsaIdSelf
            flags).theNodeFamilies ((nodefamilyFromMembers t tmp (splitHorizontal str) rsaIdSelf
            flags).result.map NodefamilyT.addr)).map
          fun t' => (t', canonicalString (splitHorizontal str) rsaIdSelf flags) := by
  have hformatted : (nodefamilyFromMembers t tmp (splitHorizontal str) rsaIdSelf flags).unrecognizedOut
      ++ splitHorizontal (nodefamilyFormat
          (nodefamilyFromMembers t tmp (splitHorizontal str) rsaIdSelf flags).result)
      = canonicalElements (splitHorizontal str) rsaIdSelf flags := by
    rw [nodefamilyFromMembers_eq, canonicalElements]
    split_ifs
    · exact congrArg _ (@splitHorizontal_join [] (by simp))
    · simp only [nodefamilyFormat]
      rw [(findOrInsert_mem t tmp _).2, splitHorizontal_format (canonical_canonicalMembers _ _)]
  rw [nodefamilyCanonicalize]
  simp only [hformatted, bind_eq_bind, canonicalString]
  exact map_eq_bind.symm

/-- It always returns one. -/
theorem nodefamilyCanonicalize_snd (t : NodefamilyMap) (tmp : ℕ) (str : List Char)
    (rsaIdSelf : Option RsaId) (flags : UInt32) :
    (nodefamilyCanonicalize t tmp str rsaIdSelf flags).map Prod.snd
      = some (canonicalString (splitHorizontal str) rsaIdSelf flags) := by
  have hfree : ∃ t', nodefamilyFree (nodefamilyFromMembers t tmp (splitHorizontal str) rsaIdSelf
      flags).theNodeFamilies ((nodefamilyFromMembers t tmp (splitHorizontal str) rsaIdSelf
      flags).result.map NodefamilyT.addr) = some t' := by
    rw [nodefamilyFromMembers_eq]
    split_ifs
    · exact ⟨t, rfl⟩
    · have hmem := (findOrInsert_mem t tmp (canonicalMembers (splitHorizontal str) rsaIdSelf)).1
      generalize findOrInsert t tmp (canonicalMembers (splitHorizontal str) rsaIdSelf) = r at hmem
      have hfound : (r.1.find? fun nf => nf.addr = r.2.addr).isSome := by
        rw [find?_isSome]
        exact ⟨r.2, hmem, decide_eq_true rfl⟩
      obtain ⟨nf, hnf⟩ := isSome_iff_exists.mp hfound
      simp only [nodefamilyFree, map_some, hnf, bind_eq_bind, bind_some]
      split_ifs
      · exact ⟨_, rfl⟩
      · exact ⟨_, rfl⟩
  obtain ⟨t', ht'⟩ := hfree
  rw [nodefamilyCanonicalize_eq, ht']
  rfl

/-- Every step keeps the table. -/
theorem interned_of_step (h : Interned s.theNodeFamilies (s.held.count ·)) (hbound : s.Bounded)
    (hstep : step s e = some u) : Interned u.theNodeFamilies (u.held.count ·) := by
  cases e with
  | parse str rsaIdSelf flags tmp =>
    simp only [step, nodefamilyParse] at hstep
    split_ifs at hstep with hfresh
    rw [some.injEq, nodefamilyFromMembers_eq] at hstep
    subst hstep
    split_ifs
    · exact h
    · have := h.findOrInsert (canonical_canonicalMembers (splitHorizontal str) rsaIdSelf) hfresh
      rw [acquire_count] at this
      exact this
  | canonicalize str rsaIdSelf flags tmp =>
    simp only [step] at hstep
    split_ifs at hstep with hfresh
    rw [nodefamilyCanonicalize_eq, nodefamilyFromMembers_eq] at hstep
    split_ifs at hstep
    · obtain rfl := some.inj hstep
      exact h
    · have hinterned := h.findOrInsert
        (canonical_canonicalMembers (splitHorizontal str) rsaIdSelf) hfresh
      generalize findOrInsert s.theNodeFamilies tmp
        (canonicalMembers (splitHorizontal str) rsaIdSelf) = r at hinterned hstep
      have hp := hbound r.2.addr
      obtain ⟨t', hfree, ht'⟩ := hinterned.nodefamilyFree (p := r.2.addr) (by simp [acquire])
        (by simp only [acquire, if_true]; omega)
      simp only [map_some, hfree, bind_eq_bind, bind_some, some.injEq] at hstep
      subst hstep
      rwa [release_acquire] at ht'
  | free family =>
    cases family with
    | none =>
      obtain rfl := some.inj hstep
      exact h
    | some p =>
      simp only [step] at hstep
      split_ifs at hstep with hheld
      obtain ⟨t', hfree, ht'⟩ := h.nodefamilyFree (p := p) (count_pos_iff.mpr hheld)
        (hbound p).le
      rw [hfree, map_some, some.injEq] at hstep
      subst hstep
      rwa [release_count] at ht'

/-- The run `es` has, at each of its states, fewer than 2³² references to each family. -/
def BoundedRun (es : List Event) : Prop :=
  ∀ pre post t, es = pre ++ post → Reaches step State.init pre t → t.Bounded

lemma length_held_of_step (hstep : step s e = some u) : u.held.length ≤ s.held.length + 1 := by
  cases e with
  | parse str rsaIdSelf flags tmp =>
    simp only [step] at hstep
    split_ifs at hstep
    obtain rfl := some.inj hstep
    cases (nodefamilyParse s.theNodeFamilies tmp str rsaIdSelf flags).2 <;> simp
  | canonicalize str rsaIdSelf flags tmp =>
    simp only [step] at hstep
    split_ifs at hstep
    obtain ⟨r, -, hr⟩ := bind_eq_some_iff.mp hstep
    obtain rfl := some.inj hr
    exact Nat.le_succ _
  | free family =>
    cases family with
    | none =>
      obtain rfl := some.inj hstep
      exact Nat.le_succ _
    | some p =>
      simp only [step] at hstep
      split_ifs at hstep
      obtain ⟨t', -, rfl⟩ := map_eq_some_iff.mp hstep
      exact (erase_sublist.length_le).trans (Nat.le_succ _)

lemma boundedRun_of_length (h : es.length < 2 ^ 32) : BoundedRun es := by
  have hheld : ∀ {pre : List Event} {t : State}, Reaches step State.init pre t →
      t.held.length ≤ pre.length := by
    intro pre t ht
    induction pre using reverseRecOn generalizing t with
    | nil => rw [← reaches_nil.mp ht]; exact le_rfl
    | append_singleton pre e ih =>
      obtain ⟨v, hv, hlast⟩ := reaches_snoc.mp ht
      have := length_held_of_step hlast
      have := ih hv
      rw [length_append, length_singleton]
      omega
  intro pre post t hes ht p
  have hlen : pre.length ≤ es.length := by
    rw [hes, length_append]
    omega
  exact lt_of_le_of_lt (count_le_length.trans ((hheld ht).trans hlen)) h

theorem interned_of_reaches (h : Reaches step State.init es s) (hbound : BoundedRun es) :
    Interned s.theNodeFamilies (s.held.count ·) := by
  have hinit : Interned State.init.theNodeFamilies (State.init.held.count ·) :=
    ⟨nodup_nil, nodup_nil, fun nf hnf => (nomatch hnf), fun nf hnf => (nomatch hnf),
      fun p hp => by simp [State.init] at hp⟩
  have hmeets : Meets step (fun s _ => s.Bounded) State.init es :=
    fun pre e post hes t ht => hbound pre (e :: post) t hes ht
  exact invariant_of_meets (I := fun s => Interned s.theNodeFamilies (s.held.count ·))
    (fun s e t hs hC hstep => interned_of_step hs hC hstep) hinit hmeets h

/-! ## Families in reachable states -/

/-- The elements have one that is malformed, and that is an error. -/
def RejectsMalformed (members : List (List Char)) (flags : UInt32) : Prop :=
  flags &&& nfRejectMalformed ≠ 0 ∧ ∃ cp ∈ members, ∀ m, ¬ Denotes cp m

lemma rejects_iff (members : List (List Char)) (flags : UInt32) :
    Rejects members flags ↔ RejectsMalformed members flags := by
  rw [Rejects, RejectsMalformed, and_comm, malformed, Ne, Ne, filter_eq_nil_iff]
  simp only [not_forall, isNone_iff_eq_none, not_not, exists_prop,
    eq_none_iff_forall_ne_some, Ne, memberOf_eq_some, not_exists]

/-- **In every run families are canonical and shared.**  A list of elements gives the sorted array
of the members that they stand for, the string of a family gives the family, canonicalisation is
idempotent and sees neither order nor case, and each array lies at one address with as many
references as callers hold. -/
theorem nodefamily_canonical (h : Reaches step State.init es s) (hbound : BoundedRun es) :
    (∀ tmp members rsaIdSelf flags,
      (RejectsMalformed members flags → (nodefamilyFromMembers s.theNodeFamilies tmp members
        rsaIdSelf flags).result = none)
      ∧ (¬ RejectsMalformed members flags → ∃ nf, (nodefamilyFromMembers s.theNodeFamilies tmp
          members rsaIdSelf flags).result = some nf
        ∧ nf.familyMembers.Pairwise MemberLt
        ∧ ∀ m, m ∈ nf.familyMembers
          ↔ (∃ cp ∈ members, Denotes cp m) ∨ ∃ id ∈ rsaIdSelf, m = byRsaId :: id.val))
    ∧ (∀ nf ∈ s.theNodeFamilies, ∀ tmp flags,
        (nodefamilyParse s.theNodeFamilies tmp (nodefamilyFormat (some nf)) none flags).2.map
          NodefamilyT.addr = some nf.addr)
    ∧ (∀ t tmp str rsaIdSelf flags, ∃ out,
        (nodefamilyCanonicalize s.theNodeFamilies tmp str rsaIdSelf flags).map Prod.snd = some out
        ∧ (nodefamilyCanonicalize t tmp out rsaIdSelf flags).map Prod.snd = some out
        ∧ ∀ str' recased, (splitHorizontal str).Perm recased →
          List.Forall₂ Recased recased (splitHorizontal str') →
          (nodefamilyCanonicalize t tmp str' rsaIdSelf flags).map Prod.snd = some out)
    ∧ (∀ a ∈ s.theNodeFamilies, ∀ b ∈ s.theNodeFamilies, a.addr = b.addr
        ↔ ∀ m, m ∈ a.familyMembers ↔ m ∈ b.familyMembers)
    ∧ (∀ nf ∈ s.theNodeFamilies, nf.refcnt.toNat = s.held.count nf.addr ∧ nf.addr ∈ s.held)
    ∧ ∀ p ∈ s.held, ∃ nf ∈ s.theNodeFamilies, nf.addr = p := by
  have hinterned := interned_of_reaches h hbound
  refine ⟨fun tmp members rsaIdSelf flags => ⟨fun hreject => ?_, fun hreject => ?_⟩,
    fun nf hnf tmp flags => ?_, fun t tmp str rsaIdSelf flags => ?_, fun a ha b hb => ?_,
    fun nf hnf => ?_, fun p hp => hinterned.live p (count_pos_iff.mpr hp)⟩
  · rw [nodefamilyFromMembers_eq, if_pos ((rejects_iff members flags).mpr hreject)]
  · rw [nodefamilyFromMembers_eq, if_neg fun hr => hreject ((rejects_iff members flags).mp hr)]
    have hfamily := (findOrInsert_mem s.theNodeFamilies tmp (canonicalMembers members rsaIdSelf)).2
    refine ⟨_, rfl, ?_, fun m => ?_⟩
    · rw [hfamily]
      exact (pairwise_canonicalMembers members rsaIdSelf).1
    · rw [hfamily, mem_canonicalMembers]
  · have hcanonical := hinterned.canonical nf hnf
    have hwell : ¬ Rejects (splitHorizontal (nodefamilyFormat (some nf))) flags := by
      rintro ⟨hbad, -⟩
      rw [nodefamilyFormat, splitHorizontal_format hcanonical] at hbad
      exact hbad (malformed_formatted hcanonical)
    have hfind : htFind NodefamilyT.familyMembers s.theNodeFamilies nf.familyMembers = some nf :=
      (htFind_eq_some hinterned.arrays).mpr ⟨hnf, rfl⟩
    rw [nodefamilyParse, nodefamilyFromMembers_eq, if_neg hwell, nodefamilyFormat,
      canonicalMembers_formatted hcanonical, findOrInsert, hfind]
    rfl
  · refine ⟨_, nodefamilyCanonicalize_snd _ _ _ _ _, ?_, fun str' recased hperm hcase => ?_⟩
    · rw [nodefamilyCanonicalize_snd, canonicalString_split]
      exact fun piece => isPiece_of_mem_split
    · rw [nodefamilyCanonicalize_snd, canonicalString_congr hperm hcase]
  · constructor
    · intro haddr m
      rw [eq_of_key_eq hinterned.addrs ha hb haddr]
    · intro hmem
      have harray := eq_of_pairwise_memberLt (hinterned.canonical a ha).sorted
        (hinterned.canonical b hb).sorted hmem
      rw [eq_of_key_eq hinterned.arrays ha hb harray]
  · obtain ⟨hrefcnt, hpos⟩ := hinterned.refcnt nf hnf
    have hlt := hbound es [] s (append_nil es).symm h nf.addr
    refine ⟨?_, count_pos_iff.mp hpos⟩
    rw [hrefcnt, UInt32.toNat_ofNat', Nat.mod_eq_of_lt hlt]

/-- Two spellings of one family, and a canonicalisation between them. -/
def twoSpellings : List Event :=
  [.parse "b A! zed B".toList none 0 7, .canonicalize "zed  c".toList none 0 8,
    .parse "ZED b".toList none nfRejectMalformed 9]

def twoSpellingsEnd : State where
  theNodeFamilies :=
    [⟨7, 2, [1 :: 98 :: List.replicate 19 0, 1 :: 122 :: 101 :: 100 :: List.replicate 17 0]⟩]
  held := [7, 7]

lemma twoSpellings_reaches : Reaches step State.init twoSpellings twoSpellingsEnd := by
  rw [Reaches]
  decide +kernel

theorem nodefamily_canonical_twoSpellings : Reaches step State.init twoSpellings twoSpellingsEnd
    ∧ ∀ nf ∈ twoSpellingsEnd.theNodeFamilies,
      nf.refcnt.toNat = twoSpellingsEnd.held.count nf.addr ∧ nf.addr ∈ twoSpellingsEnd.held :=
  ⟨twoSpellings_reaches,
    (nodefamily_canonical twoSpellings_reaches (boundedRun_of_length (by decide))).2.2.2.2.1⟩

/-! ## Rejected lists, and too many references -/

lemma reaches_parse_again (str : List Char) (c : UInt32) (held : List ℕ) (n : ℕ) :
    Reaches step ⟨[⟨7, c, canonicalMembers (splitHorizontal str) none⟩], held⟩
      (List.replicate n (.parse str none 0 8))
      ⟨[⟨7, c + UInt32.ofNat n, canonicalMembers (splitHorizontal str) none⟩],
        List.replicate n 7 ++ held⟩ := by
  induction n generalizing c held with
  | zero => simp
  | succ n ih =>
    have hkept : ¬ Rejects (splitHorizontal str) 0 := fun h => h.2 (UInt32.zero_and)
    have hfresh : Fresh [⟨7, c, canonicalMembers (splitHorizontal str) none⟩] 8 := by
      simp [Fresh]
    rw [replicate_succ, reaches_cons]
    refine ⟨⟨[⟨7, c + 1, canonicalMembers (splitHorizontal str) none⟩], 7 :: held⟩, ?_, ?_⟩
    · rw [step, if_pos hfresh, nodefamilyParse, nodefamilyFromMembers_eq, if_neg hkept]
      simp [findOrInsert, htFind, NodefamilyMap.update]
    · have := ih (c + 1) (7 :: held)
      rwa [UInt32.add_assoc, UInt32.add_comm 1, ofNat_succ,
        append_cons (replicate n 7), ← replicate_succ'] at this

/-- A list with a malformed element gives no family where that is an error, and 2³² references are
counted as none. -/
theorem rejected_and_overflown :
    (Denotes ['b'] (byNickname :: 98 :: List.replicate 19 0)
      ∧ (nodefamilyFromMembers [] 7 [['b'], ['!']] none nfRejectMalformed).result = none)
    ∧ ∃ s, Reaches step State.init
          (.parse ['b'] none 0 7 :: List.replicate (2 ^ 32 - 1) (.parse ['b'] none 0 8)) s
        ∧ ∃ nf ∈ s.theNodeFamilies, nf.refcnt = 0 ∧ s.held.count nf.addr = 2 ^ 32 := by
  refine ⟨⟨?_, by decide +kernel⟩, ?_⟩
  · exact memberOf_eq_some.mp (by decide +kernel)
  · have hrest := reaches_parse_again ['b'] 1 [7] (2 ^ 32 - 1)
    have hfirst : step State.init (.parse ['b'] none 0 7)
        = some ⟨[⟨7, 1, canonicalMembers (splitHorizontal ['b']) none⟩], [7]⟩ := by decide +kernel
    refine ⟨_, reaches_cons.mpr ⟨_, hfirst, hrest⟩, _, mem_singleton_self _, by decide, ?_⟩
    simp only [count_append, count_replicate_self, count_singleton_self]
    rfl

end Ator.Nodefamily
