import AtorProtocol.Keypin.Keypin

/-!
# The key pinning tables stay consistent

Live calls and journal loads change the two tables with `keypinAddOrReplaceEntryInMap` only, so
that what it preserves holds after any sequence of them.

* `Consistent` — the tables have the same entries, and no key has two.
* `keypin_bijection` — no assertion fails in any run, and `keypinCheck` tells which pairs are
  stored.
-/

namespace Ator.Keypin

open Text List Option

variable {kp kp' : KeypinTables} {st st' : KeypinState} {ent e : KeypinEnt} {rsaId : RsaId}
  {ed25519Key : Ed25519Key}

/-- Both tables have the same entries, and no key is in two of them. -/
structure Consistent (kp : KeypinTables) : Prop where
  mem_iff : ∀ e, e ∈ kp.rsaMap ↔ e ∈ kp.edMap
  nodupRsa : (kp.rsaMap.map KeypinEnt.rsaId).Nodup
  nodupEd : (kp.edMap.map KeypinEnt.ed25519Key).Nodup

lemma consistent_empty : Consistent KeypinTables.empty := ⟨fun _ => Iff.rfl, nodup_nil, nodup_nil⟩

/-! ## The operations -/

/-- After `ent` the tables have it, and what does not contradict it. -/
def Supersedes (ent : KeypinEnt) (kp kp' : KeypinTables) : Prop :=
  ∀ e, e ∈ kp'.rsaMap ↔
    e = ent ∨ e ∈ kp.rsaMap ∧ e.rsaId ≠ ent.rsaId ∧ e.ed25519Key ≠ ent.ed25519Key

namespace Consistent

lemma findRsa (h : Consistent kp) :
    htFind KeypinEnt.rsaId kp.rsaMap rsaId = some e ↔ e ∈ kp.rsaMap ∧ e.rsaId = rsaId :=
  htFind_eq_some h.nodupRsa

lemma findEd (h : Consistent kp) : htFind KeypinEnt.ed25519Key kp.edMap ed25519Key = some e
    ↔ e ∈ kp.rsaMap ∧ e.ed25519Key = ed25519Key := by
  rw [htFind_eq_some h.nodupEd, h.mem_iff]

lemma remove (h : Consistent kp) (he : e ∈ kp.rsaMap) :
    ∃ kp', keypinRemoveEntry kp e = some kp' ∧ Consistent kp' ∧
      (∀ e', e' ∈ kp'.rsaMap ↔ e' ∈ kp.rsaMap ∧ e' ≠ e) ∧ kp'.allocated = kp.allocated := by
  have hrsa : ∀ e', e' ∈ htRemove KeypinEnt.rsaId kp.rsaMap e.rsaId ↔ e' ∈ kp.rsaMap ∧ e' ≠ e := by
    intro e'
    rw [mem_htRemove h.nodupRsa]
    exact and_congr_right fun he' =>
      not_congr ⟨fun heq => eq_of_key_eq h.nodupRsa he' he heq, fun heq => heq ▸ rfl⟩
  have hed : ∀ e', e' ∈ htRemove KeypinEnt.ed25519Key kp.edMap e.ed25519Key
      ↔ e' ∈ kp.rsaMap ∧ e' ≠ e := by
    intro e'
    rw [mem_htRemove h.nodupEd, ← h.mem_iff]
    exact and_congr_right fun he' => not_congr ⟨fun heq =>
      eq_of_key_eq h.nodupEd ((h.mem_iff _).mp he') ((h.mem_iff _).mp he) heq, fun heq => heq ▸ rfl⟩
  refine ⟨_, if_pos ⟨h.findRsa.mpr ⟨he, rfl⟩, h.findEd.mpr ⟨he, rfl⟩⟩, ?_, hrsa, rfl⟩
  exact ⟨fun e' => (hrsa e').trans (hed e').symm, nodup_htRemove h.nodupRsa _,
    nodup_htRemove h.nodupEd _⟩

lemma add (h : Consistent kp) (hrsa : ∀ e ∈ kp.rsaMap, e.rsaId ≠ ent.rsaId)
    (hed : ∀ e ∈ kp.rsaMap, e.ed25519Key ≠ ent.ed25519Key) :
    Consistent (keypinAddEntryToMap kp ent) where
  mem_iff e := by
    rw [keypinAddEntryToMap, htInsert, htInsert, mem_cons, mem_cons, h.mem_iff]
  nodupRsa := by
    change ((ent :: kp.rsaMap).map KeypinEnt.rsaId).Nodup
    rw [map_cons, nodup_cons]
    refine ⟨fun hmem => ?_, h.nodupRsa⟩
    obtain ⟨e, he, heq⟩ := mem_map.mp hmem
    exact hrsa e he heq
  nodupEd := by
    change ((ent :: kp.edMap).map KeypinEnt.ed25519Key).Nodup
    rw [map_cons, nodup_cons]
    refine ⟨fun hmem => ?_, h.nodupEd⟩
    obtain ⟨e, he, heq⟩ := mem_map.mp hmem
    exact hed e ((h.mem_iff e).mpr he) heq

lemma removeFound (e? : Option KeypinEnt) (P : KeypinEnt → Prop) (h : Consistent kp)
    (hmem : ∀ e, e? = some e → e ∈ kp.rsaMap) (hP : ∀ e ∈ kp.rsaMap, P e ↔ e? = some e) :
    ∃ kp', keypinRemoveFound kp e? = some kp' ∧ Consistent kp' ∧
      (∀ e, e ∈ kp'.rsaMap ↔ e ∈ kp.rsaMap ∧ ¬ P e) ∧ kp'.allocated = kp.allocated := by
  cases e? with
  | none =>
    refine ⟨kp, rfl, h, fun e => ?_, rfl⟩
    exact ⟨fun he => ⟨he, fun hp => by simpa using (hP e he).mp hp⟩, And.left⟩
  | some x =>
    obtain ⟨kp', hrem, hcons, hmem', halloc⟩ := h.remove (hmem x rfl)
    refine ⟨kp', hrem, hcons, fun e => ?_, halloc⟩
    rw [hmem']
    exact and_congr_right fun he => not_congr (by rw [hP e he, some_inj, eq_comm])

/-- **Replacement.**  The entries that `ent` contradicts are taken out, and it is added. -/
lemma replace {ent2 ent3 : Option KeypinEnt} (h : Consistent kp)
    (h2 : ent2 = htFind KeypinEnt.rsaId kp.rsaMap ent.rsaId)
    (h3 : ent3 = htFind KeypinEnt.ed25519Key kp.edMap ent.ed25519Key)
    (hne : ∀ e, ent2 = some e → e.ed25519Key ≠ ent.ed25519Key) (hfound : ent2.isSome || ent3.isSome) :
    ∃ kp₁ kp₂, keypinRemoveFound kp ent2 = some kp₁ ∧
      (if ent2 = ent3 then some kp₁ else keypinRemoveFound kp₁ ent3) = some kp₂ ∧
      Consistent (keypinAddEntryToMap kp₂ ent) ∧
      Supersedes ent kp (keypinAddEntryToMap kp₂ ent) ∧ kp₂.allocated = kp.allocated := by
  have hfind2 : ∀ e, ent2 = some e ↔ e ∈ kp.rsaMap ∧ e.rsaId = ent.rsaId := fun e => by
    rw [h2, h.findRsa]
  have hfind3 : ∀ e, ent3 = some e ↔ e ∈ kp.rsaMap ∧ e.ed25519Key = ent.ed25519Key := fun e => by
    rw [h3, h.findEd]
  obtain ⟨kp₁, hrem₁, hcons₁, hmem₁, halloc₁⟩ :=
    h.removeFound ent2 (fun e => e.rsaId = ent.rsaId)
      (fun e he => ((hfind2 e).mp he).1) fun e he => by rw [hfind2, and_iff_right he]
  -- the entry found by the other key is not the one removed, which has another such key
  have hother : ∀ e, ent3 = some e → ent2 ≠ some e := fun e he he2 =>
    hne e he2 ((hfind3 e).mp he).2
  obtain ⟨kp₂, hrem₂, hcons₂, hmem₂, halloc₂⟩ :=
    hcons₁.removeFound ent3 (fun e => e.ed25519Key = ent.ed25519Key)
      (fun e he => by
        rw [hmem₁]
        refine ⟨((hfind3 e).mp he).1, fun hrsa => hother e he ?_⟩
        exact (hfind2 e).mpr ⟨((hfind3 e).mp he).1, hrsa⟩)
      fun e he => by rw [hfind3, and_iff_right ((hmem₁ e).mp he).1]
  refine ⟨kp₁, kp₂, hrem₁, ?_, ?_, fun e => ?_, halloc₂.trans halloc₁⟩
  · rw [← hrem₂]
    refine if_neg fun heq => ?_
    rw [heq, Bool.or_self, isSome_iff_exists] at hfound
    obtain ⟨e, he⟩ := hfound
    exact hother e he (heq.trans he)
  · refine hcons₂.add (fun e he => ?_) fun e he => ((hmem₂ e).mp he).2
    exact ((hmem₁ e).mp ((hmem₂ e).mp he).1).2
  · rw [keypinAddEntryToMap, htInsert, mem_cons, hmem₂, hmem₁, and_assoc]

/-- **One entry.**  Adding an entry never fails an assertion: a pair that is stored stays as it
is, and any other one supersedes the entries it contradicts. -/
lemma addOrReplace (h : Consistent kp) (ent : KeypinEnt) :
    ∃ r kp', keypinAddOrReplaceEntryInMap kp ent = some (r, kp') ∧ Consistent kp' ∧
      kp'.allocated = kp.allocated ∧
      (r = 0 ∧ kp' = kp ∧ (∃ e ∈ kp.rsaMap, e.rsaId = ent.rsaId ∧ e.ed25519Key = ent.ed25519Key) ∨
        r = -1 ∧ Supersedes ent kp kp' ∧
          (∃ e ∈ kp.rsaMap, e.rsaId = ent.rsaId ∨ e.ed25519Key = ent.ed25519Key) ∨
        r = 1 ∧ Supersedes ent kp kp' ∧
          ∀ e ∈ kp.rsaMap, e.rsaId ≠ ent.rsaId ∧ e.ed25519Key ≠ ent.ed25519Key) := by
  rw [keypinAddOrReplaceEntryInMap]
  generalize h2 : htFind KeypinEnt.rsaId kp.rsaMap ent.rsaId = ent2
  generalize h3 : htFind KeypinEnt.ed25519Key kp.edMap ent.ed25519Key = ent3
  have hfind2 : ∀ e, ent2 = some e ↔ e ∈ kp.rsaMap ∧ e.rsaId = ent.rsaId := fun e => by
    rw [← h2, h.findRsa]
  have hfind3 : ∀ e, ent3 = some e ↔ e ∈ kp.rsaMap ∧ e.ed25519Key = ent.ed25519Key := fun e => by
    rw [← h3, h.findEd]
  by_cases hsame : ent2.any fun e => e.ed25519Key = ent.ed25519Key
  · rw [if_pos hsame]
    obtain ⟨e, he, hed⟩ := (any_eq_true _ _).mp hsame
    obtain ⟨hmem, hrsa⟩ := (hfind2 e).mp he
    exact ⟨0, kp, rfl, h, rfl, .inl ⟨rfl, rfl, e, hmem, hrsa, of_decide_eq_true hed⟩⟩
  rw [if_neg hsame]
  have hne : ∀ e, ent2 = some e → e.ed25519Key ≠ ent.ed25519Key := fun e he hed =>
    hsame ((any_eq_true _ _).mpr ⟨e, he, decide_eq_true hed⟩)
  by_cases hfound : ent2.isSome || ent3.isSome
  · rw [if_pos hfound]
    obtain ⟨kp₁, kp₂, hrem₁, hrem₂, hcons, hsup, halloc⟩ := h.replace h2.symm h3.symm hne hfound
    refine ⟨-1, _, ?_, hcons, halloc, .inr (.inl ⟨rfl, hsup, ?_⟩)⟩
    · simp only [hrem₁, hrem₂, bind_eq_bind, bind_some]
    · rcases Bool.or_eq_true_iff.mp hfound with hsome | hsome
      · obtain ⟨e, he⟩ := isSome_iff_exists.mp hsome
        exact ⟨e, ((hfind2 e).mp he).1, .inl ((hfind2 e).mp he).2⟩
      · obtain ⟨e, he⟩ := isSome_iff_exists.mp hsome
        exact ⟨e, ((hfind3 e).mp he).1, .inr ((hfind3 e).mp he).2⟩
  · rw [if_neg hfound]
    obtain ⟨hnone2, hnone3⟩ : ent2 = none ∧ ent3 = none := by simpa using hfound
    have hnew : ∀ e ∈ kp.rsaMap, e.rsaId ≠ ent.rsaId ∧ e.ed25519Key ≠ ent.ed25519Key := by
      refine fun e he => ⟨fun hrsa => ?_, fun hed => ?_⟩
      · exact absurd ((hfind2 e).mpr ⟨he, hrsa⟩) (by simp [hnone2])
      · exact absurd ((hfind3 e).mpr ⟨he, hed⟩) (by simp [hnone3])
    refine ⟨1, _, rfl, h.add (fun e he => (hnew e he).1) fun e he => (hnew e he).2, rfl, ?_⟩
    refine .inr (.inr ⟨rfl, fun e => ?_, hnew⟩)
    rw [keypinAddEntryToMap, htInsert, mem_cons]
    exact or_congr_right ⟨fun he => ⟨he, hnew e he⟩, And.left⟩

lemma entNew (h : Consistent kp) (rsaId : RsaId) (ed25519Key : Ed25519Key) :
    Consistent (keypinEntNew kp rsaId ed25519Key).2 :=
  ⟨h.mem_iff, h.nodupRsa, h.nodupEd⟩

/-! ## Journal loads -/

lemma loadLine (h : Consistent kp) (line : List Char) :
    ∃ kp', keypinLoadLine kp line = some kp' ∧ Consistent kp' := by
  rw [keypinLoadLine]
  by_cases hskip : line.length = 0 ∨ line.head? = some '@' ∨ line.head? = some '#' ∨
      line.length ≠ journalLineLen - 1
  · refine ⟨kp, ?_, h⟩
    rcases hskip with h1 | h1 | h1 | h1 <;> simp [h1]
  simp only [not_or] at hskip
  rw [if_neg hskip.1, if_neg hskip.2.1, if_neg hskip.2.2.1, if_neg hskip.2.2.2]
  rcases keypinParseJournalLine line with _ | ⟨rsaId, ed25519Key⟩
  · exact ⟨kp, rfl, h⟩
  · obtain ⟨r, kp', hadd, hcons, -⟩ := (h.entNew rsaId ed25519Key).addOrReplace
      (keypinEntNew kp rsaId ed25519Key).1
    exact ⟨kp', congrArg (Option.map Prod.snd) hadd, hcons⟩

/-- **Loading.**  A journal of any text can be loaded over any tables. -/
lemma loadJournal (h : Consistent kp) (data : List Char) :
    ∃ kp', keypinLoadJournalImpl kp data = some kp' ∧ Consistent kp' := by
  induction kp, data using keypinLoadJournalImpl.induct with
  | case1 kp => exact ⟨kp, by rw [keypinLoadJournalImpl, dif_pos rfl], h⟩
  | case2 kp data hne ih =>
    obtain ⟨kp₁, hline, h₁⟩ := h.loadLine (beforeDelim '\n' data)
    obtain ⟨kp₂, hload, h₂⟩ := ih kp₁ h₁
    refine ⟨kp₂, ?_, h₂⟩
    rw [keypinLoadJournalImpl, dif_neg hne, hline, bind_some, hload]

end Consistent

/-! ## Calls -/

/-- The pair is in the tables. -/
def Stored (kp : KeypinTables) (rsaId : RsaId) (ed25519Key : Ed25519Key) : Prop :=
  ∃ e ∈ kp.rsaMap, e.rsaId = rsaId ∧ e.ed25519Key = ed25519Key

/-- One of the keys is in the tables with another partner. -/
def BoundElsewhere (kp : KeypinTables) (rsaId : RsaId) (ed25519Key : Ed25519Key) : Prop :=
  ∃ e ∈ kp.rsaMap, (e.rsaId = rsaId ∧ e.ed25519Key ≠ ed25519Key) ∨
    (e.ed25519Key = ed25519Key ∧ e.rsaId ≠ rsaId)

@[simp] lemma keypinJournalAppendEntry_tables (written : ℕ) :
    (keypinJournalAppendEntry st rsaId ed25519Key written).tables = st.tables := by
  rw [keypinJournalAppendEntry]
  split <;> rfl

namespace Consistent

lemma not_boundElsewhere (h : Consistent kp) (hs : Stored kp rsaId ed25519Key) :
    ¬ BoundElsewhere kp rsaId ed25519Key := by
  rintro ⟨e, he, ⟨hrsa, hed⟩ | ⟨hed, hrsa⟩⟩
  · obtain ⟨e', he', hrsa', hed'⟩ := hs
    rw [eq_of_key_eq h.nodupRsa he he' (hrsa.trans hrsa'.symm)] at hed
    exact hed hed'
  · obtain ⟨e', he', hrsa', hed'⟩ := hs
    rw [eq_of_key_eq h.nodupEd ((h.mem_iff e).mp he) ((h.mem_iff e').mp he')
      (hed.trans hed'.symm)] at hrsa
    exact hrsa hrsa'

lemma any_findRsa (h : Consistent kp) :
    ((htFind KeypinEnt.rsaId kp.rsaMap rsaId).any fun ent => ent.ed25519Key = ed25519Key)
      ↔ Stored kp rsaId ed25519Key := by
  rw [Option.any_eq_true]
  constructor
  · rintro ⟨e, he, hed⟩
    exact ⟨e, (h.findRsa.mp he).1, (h.findRsa.mp he).2, of_decide_eq_true hed⟩
  · rintro ⟨e, he, hrsa, hed⟩
    exact ⟨e, h.findRsa.mpr ⟨he, hrsa⟩, decide_eq_true hed⟩

lemma isSome_find (h : Consistent kp) (hs : ¬ Stored kp rsaId ed25519Key) :
    ((htFind KeypinEnt.rsaId kp.rsaMap rsaId).isSome ∨
      (htFind KeypinEnt.ed25519Key kp.edMap ed25519Key).isSome)
      ↔ BoundElsewhere kp rsaId ed25519Key := by
  rw [isSome_iff_exists, isSome_iff_exists]
  constructor
  · rintro (⟨e, he⟩ | ⟨e, he⟩)
    · obtain ⟨hmem, hrsa⟩ := h.findRsa.mp he
      exact ⟨e, hmem, .inl ⟨hrsa, fun hed => hs ⟨e, hmem, hrsa, hed⟩⟩⟩
    · obtain ⟨hmem, hed⟩ := h.findEd.mp he
      exact ⟨e, hmem, .inr ⟨hed, fun hrsa => hs ⟨e, hmem, hrsa, hed⟩⟩⟩
  · rintro ⟨e, hmem, ⟨hrsa, -⟩ | ⟨hed, -⟩⟩
    · exact .inl ⟨e, h.findRsa.mpr ⟨hmem, hrsa⟩⟩
    · exact .inr ⟨e, h.findEd.mpr ⟨hmem, hed⟩⟩

lemma any_findEd (h : Consistent kp) (hs : ¬ Stored kp rsaId ed25519Key) :
    ((htFind KeypinEnt.ed25519Key kp.edMap ed25519Key).any fun ent => ent.rsaId = rsaId)
      = false := by
  refine Bool.eq_false_iff.mpr fun hany => hs ?_
  obtain ⟨e, he, hrsa⟩ := (any_eq_true _ _).mp hany
  exact ⟨e, (h.findEd.mp he).1, of_decide_eq_true hrsa, (h.findEd.mp he).2⟩

/-- **Checking.**  A check changes nothing; it finds exactly the pairs that are stored, and
mismatches exactly those with a key that is bound to another partner. -/
lemma check (h : Consistent st.tables) (rsaId : RsaId) (ed25519Key : Ed25519Key) :
    ∃ r, keypinCheck st rsaId ed25519Key = some (r, st) ∧
      (r = .found ↔ Stored st.tables rsaId ed25519Key) ∧
      (r = .mismatch ↔ BoundElsewhere st.tables rsaId ed25519Key) := by
  rw [keypinCheck, keypinCheckAndAddImpl]
  by_cases hs : Stored st.tables rsaId ed25519Key
  · refine ⟨.found, if_pos (h.any_findRsa.mpr hs), by simp [hs], ?_⟩
    simp [h.not_boundElsewhere hs]
  have hfind := h.isSome_find hs
  rw [if_neg (mt h.any_findRsa.mp hs)]
  by_cases hrsa : (htFind KeypinEnt.rsaId st.tables.rsaMap rsaId).isSome
  · refine ⟨.mismatch, if_pos (by simp [hrsa]), by simp [hs], ?_⟩
    simp [← hfind, hrsa]
  by_cases hed : (htFind KeypinEnt.ed25519Key st.tables.edMap ed25519Key).isSome
  · refine ⟨.mismatch, ?_, by simp [hs], ?_⟩
    · simp [hrsa, hed, h.any_findEd hs]
    · simp [← hfind, hed]
  · refine ⟨.notFound, ?_, by simp [hs], ?_⟩
    · simp [hrsa, hed]
    · simp [← hfind, hrsa, hed]

/-- **Adding.**  A call never fails an assertion, and keeps the tables consistent. -/
lemma checkAndAdd (h : Consistent st.tables) (rsaId : RsaId) (ed25519Key : Ed25519Key)
    (replace : Bool) (written : ℕ) :
    ∃ r st', keypinCheckAndAdd st rsaId ed25519Key replace written = some (r, st') ∧
      Consistent st'.tables := by
  rw [keypinCheckAndAdd, keypinCheckAndAddImpl]
  by_cases hs : Stored st.tables rsaId ed25519Key
  · exact ⟨.found, st, if_pos (h.any_findRsa.mpr hs), h⟩
  have hfind := h.isSome_find hs
  rw [if_neg (mt h.any_findRsa.mp hs)]
  by_cases hmis : BoundElsewhere st.tables rsaId ed25519Key ∧ replace = false
  · refine ⟨.mismatch, st, ?_, h⟩
    rcases hfind.mpr hmis.1 with hrsa | hed
    · simp [hrsa, hmis.2]
    · simp [hed, hmis.2, h.any_findEd hs]
  obtain ⟨r, kp', hadd, hcons, -, hr⟩ := (h.entNew rsaId ed25519Key).addOrReplace
    (keypinEntNew st.tables rsaId ed25519Key).1
  refine ⟨.added, keypinJournalAppendEntry { st with tables := kp' } rsaId ed25519Key written,
    ?_, by simpa using hcons⟩
  have hr0 : r ≠ 0 := by
    rintro rfl
    rcases hr with ⟨-, -, hmem⟩ | ⟨hr, -⟩ | ⟨hr, -⟩
    · exact hs hmem
    · exact absurd hr (by decide)
    · exact absurd hr (by decide)
  cases replace with
  | true => simp [hadd, hr0]
  | false =>
    have hmis : ¬ BoundElsewhere st.tables rsaId ed25519Key := fun hb => hmis ⟨hb, rfl⟩
    obtain ⟨hrsa, hed⟩ := not_or.mp (mt hfind.mp hmis)
    have hr1 : r = 1 := by
      rcases hr with ⟨hr, -⟩ | ⟨-, -, e, he, heq⟩ | ⟨hr, -⟩
      · exact absurd hr hr0
      · rcases heq with heq | heq
        · exact absurd (isSome_iff_exists.mpr ⟨e, h.findRsa.mpr ⟨he, heq⟩⟩) hrsa
        · exact absurd (isSome_iff_exists.mpr ⟨e, h.findEd.mpr ⟨he, heq⟩⟩) hed
      · exact hr
    simp [hrsa, hed, hadd, hr1]

end Consistent

/-! ## Runs -/

/-- What changes the tables or the journal. -/
inductive KeypinEvent where
  | checkAndAdd (rsaId : RsaId) (ed25519Key : Ed25519Key) (replace : Bool) (written : ℕ)
  | loadJournal (data : List Char)
  | openJournal (tbuf : IsoTime)
  | closeJournal

/-- `none` is a failed assertion. -/
def keypinStep (st : KeypinState) : KeypinEvent → Option KeypinState
  | .checkAndAdd rsaId ed25519Key replace written =>
    (keypinCheckAndAdd st rsaId ed25519Key replace written).map Prod.snd
  | .loadJournal data => (keypinLoadJournalImpl st.tables data).map fun kp => { st with tables := kp }
  | .openJournal tbuf => some (keypinOpenJournal st tbuf)
  | .closeJournal => some { st with journalOpen := false }

/-- At start-up there are no entries, and the journal is whatever was left. -/
def KeypinState.init (journal : List Char) : KeypinState := ⟨KeypinTables.empty, journal, false⟩

lemma consistent_keypinStep (h : Consistent st.tables) (ev : KeypinEvent) :
    ∃ st', keypinStep st ev = some st' ∧ Consistent st'.tables := by
  cases ev with
  | checkAndAdd rsaId ed25519Key replace written =>
    obtain ⟨r, st', hadd, hcons⟩ := h.checkAndAdd rsaId ed25519Key replace written
    exact ⟨st', congrArg (Option.map Prod.snd) hadd, hcons⟩
  | loadJournal data =>
    obtain ⟨kp, hload, hcons⟩ := h.loadJournal data
    exact ⟨{ st with tables := kp }, by rw [keypinStep, hload, map_some], hcons⟩
  | openJournal tbuf => exact ⟨_, rfl, h⟩
  | closeJournal => exact ⟨_, rfl, h⟩

variable (st) in
lemma consistent_keypinRun (h : Consistent st.tables) (evs : List KeypinEvent) :
    ∃ st', Reaches keypinStep st evs st' ∧ Consistent st'.tables := by
  induction evs generalizing st with
  | nil => exact ⟨st, reaches_nil.mpr rfl, h⟩
  | cons ev evs ih =>
    obtain ⟨st₁, hstep, h₁⟩ := consistent_keypinStep h ev
    obtain ⟨st₂, hrun, h₂⟩ := ih st₁ h₁
    exact ⟨st₂, reaches_cons.mpr ⟨st₁, hstep, hrun⟩, h₂⟩

/-- **Key pinning is a bijection.**  Over any sequence of calls and journal loads no assertion
fails, the two tables have the same entries and no key is in two of them; a check then finds
exactly the stored pairs, and mismatches exactly when a key is bound to another partner. -/
theorem keypin_bijection (journal : List Char) (evs : List KeypinEvent) :
    ∃ st, Reaches keypinStep (KeypinState.init journal) evs st ∧
      (∀ e, e ∈ st.tables.rsaMap ↔ e ∈ st.tables.edMap) ∧
      (st.tables.rsaMap.map KeypinEnt.rsaId).Nodup ∧
      (st.tables.edMap.map KeypinEnt.ed25519Key).Nodup ∧
      ∀ rsaId ed25519Key, ∃ r, keypinCheck st rsaId ed25519Key = some (r, st) ∧
        (r = .found ↔ Stored st.tables rsaId ed25519Key) ∧
        (r = .mismatch ↔ BoundElsewhere st.tables rsaId ed25519Key) := by
  obtain ⟨st, hrun, h⟩ := consistent_keypinRun (.init journal) consistent_empty evs
  exact ⟨st, hrun, h.mem_iff, h.nodupRsa, h.nodupEd, h.check⟩

end Ator.Keypin
