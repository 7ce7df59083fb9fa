import AtorProtocol.Keypin.Consistent

/-!
# Replaying the key pinning journal

A live call answers found or mismatch, or it adds an entry and writes a line; a journal load
adds an entry for every line.  The replay of the journal goes through the same tables as the
live calls, entry by entry.

* `loadLine_journalPair` — the line of a pair adds the pair.
* `keypin_replay` — the journal of a run replays to the tables of the run.
-/

namespace Ator.Keypin

open Text List Option

variable {kp kp' : KeypinTables} {st st' : KeypinState} {rsaId : RsaId}
  {ed25519Key : Ed25519Key}

/-! ## Loads -/

@[simp] lemma loadJournal_nil : keypinLoadJournalImpl kp [] = some kp := by
  rw [keypinLoadJournalImpl, dif_pos rfl]

lemma loadJournal_of_ne_nil {data : List Char} (h : data ≠ []) :
    keypinLoadJournalImpl kp data = (keypinLoadLine kp (beforeDelim '\n' data)).bind fun kp =>
      keypinLoadJournalImpl kp (fromDelim '\n' data).tail := by
  rw [keypinLoadJournalImpl, dif_neg h]

lemma loadJournal_line {line : List Char} (h : '\n' ∉ line) (data : List Char) :
    keypinLoadJournalImpl kp (line ++ '\n' :: data)
      = (keypinLoadLine kp line).bind fun kp => keypinLoadJournalImpl kp data := by
  rw [loadJournal_of_ne_nil (by simp), beforeDelim_append h, fromDelim_append h, tail_cons]

/-- **Line by line.**  What follows the end of a line is loaded over what precedes it. -/
lemma loadJournal_append (kp : KeypinTables) (data rest : List Char) :
    keypinLoadJournalImpl kp (data ++ '\n' :: rest)
      = (keypinLoadJournalImpl kp data).bind fun kp => keypinLoadJournalImpl kp rest := by
  induction kp, data using keypinLoadJournalImpl.induct with
  | case1 kp =>
    rw [loadJournal_line (by simp), loadJournal_nil]
    rfl
  | case2 kp data hne ih =>
    rw [loadJournal_of_ne_nil hne, bind_assoc]
    by_cases hmem : '\n' ∈ data
    · obtain ⟨line, tail, hdata, hline⟩ := eq_append_cons_of_mem hmem
      simp only [hdata, beforeDelim_append hline, fromDelim_append hline, tail_cons] at ih ⊢
      rw [append_assoc, cons_append, loadJournal_line hline]
      exact Option.bind_congr fun kp' _ => ih kp'
    · rw [loadJournal_line hmem, beforeDelim_of_notMem hmem, fromDelim_of_notMem hmem]
      simp

lemma loadJournal_newline (kp : KeypinTables) (data : List Char) :
    keypinLoadJournalImpl kp (data ++ ['\n']) = keypinLoadJournalImpl kp data := by
  rw [loadJournal_append]
  simp only [loadJournal_nil, bind_fun_some]

/-! ## The lines that are written -/

lemma base64_mark (src : Bytes) {c : Char} (hc : c ∈ base64EncodeNopad src) :
    c ≠ '\n' ∧ c ≠ '@' ∧ c ≠ '#' ∧ c ≠ ' ' := by
  have htable : ∀ v : Fin 64, base64EncodeTable v ≠ '\n' ∧ base64EncodeTable v ≠ '@' ∧
      base64EncodeTable v ≠ '#' ∧ base64EncodeTable v ≠ ' ' := by decide +kernel
  obtain ⟨v, rfl⟩ := exists_of_mem_base64EncodeNopad hc
  exact htable v

/-- The line of a pair, without its end. -/
def journalPair (rsaId : RsaId) (ed25519Key : Ed25519Key) : List Char :=
  base64EncodeNopad rsaId.1 ++ ' ' :: base64EncodeNopad ed25519Key.1

lemma keypinJournalLine_eq (rsaId : RsaId) (ed25519Key : Ed25519Key) :
    keypinJournalLine rsaId ed25519Key = journalPair rsaId ed25519Key ++ '\n' :: [] := rfl

lemma base64_rsaId_length (rsaId : RsaId) :
    (base64EncodeNopad rsaId.1).length = base64DigestLen := by
  rw [base64EncodeNopad_length, rsaId.2]
  rfl

lemma base64_ed25519Key_length (ed25519Key : Ed25519Key) :
    (base64EncodeNopad ed25519Key.1).length = base64Digest256Len := by
  rw [base64EncodeNopad_length, ed25519Key.2]
  rfl

lemma journalPair_length (rsaId : RsaId) (ed25519Key : Ed25519Key) :
    (journalPair rsaId ed25519Key).length = journalLineLen - 1 := by
  rw [journalPair, length_append, length_cons, base64_rsaId_length, base64_ed25519Key_length]
  rfl

lemma newline_notMem_journalPair : '\n' ∉ journalPair rsaId ed25519Key := by
  intro h
  rcases mem_append.mp h with h | h
  · exact (base64_mark _ h).1 rfl
  · rcases mem_cons.mp h with h | h
    · exact absurd h (by decide)
    · exact (base64_mark _ h).1 rfl

lemma keypinParseJournalLine_journalPair (rsaId : RsaId) (ed25519Key : Ed25519Key) :
    keypinParseJournalLine (journalPair rsaId ed25519Key) = some (rsaId, ed25519Key) := by
  have hrsa := base64_rsaId_length rsaId
  have hed := base64_ed25519Key_length ed25519Key
  have hfirst : (journalPair rsaId ed25519Key).take base64DigestLen
      = base64EncodeNopad rsaId.1 := take_left' hrsa
  have hblank : (journalPair rsaId ed25519Key)[base64DigestLen]? = some ' ' := by
    rw [journalPair, ← hrsa, getElem?_append_right le_rfl, Nat.sub_self]
    rfl
  have hsecond : ((journalPair rsaId ed25519Key).drop (base64DigestLen + 1)).take
      base64Digest256Len = base64EncodeNopad ed25519Key.1 := by
    rw [journalPair, append_cons, drop_left' (by simp [hrsa]), ← hed, take_length]
  rw [keypinParseJournalLine, hfirst, hblank, hsecond,
    base64Decode_encodeNopad rsaId.2.le, base64Decode_encodeNopad ed25519Key.2.le]
  simp [rsaId.2, ed25519Key.2]

/-- **The line of a pair** adds the pair. -/
lemma loadLine_journalPair (kp : KeypinTables) (rsaId : RsaId) (ed25519Key : Ed25519Key) :
    keypinLoadLine kp (journalPair rsaId ed25519Key)
      = (keypinAddOrReplaceEntryInMap (keypinEntNew kp rsaId ed25519Key).2
          (keypinEntNew kp rsaId ed25519Key).1).map Prod.snd := by
  have hlen := journalPair_length rsaId ed25519Key
  have hpos : (journalPair rsaId ed25519Key).length ≠ 0 := by
    rw [hlen]
    decide
  have hmark : ∀ c, (journalPair rsaId ed25519Key).head? = some c → c ≠ '@' ∧ c ≠ '#' := by
    intro c hc
    have hne : base64EncodeNopad rsaId.1 ≠ [] := by
      rw [← length_pos_iff, base64_rsaId_length]
      decide
    rw [journalPair, head?_append_of_ne_nil _ hne] at hc
    obtain ⟨-, hat, hhash, -⟩ := base64_mark _ (mem_of_mem_head? hc)
    exact ⟨hat, hhash⟩
  rw [keypinLoadLine, if_neg hpos, if_neg fun h => (hmark _ h).1 rfl,
    if_neg fun h => (hmark _ h).2 rfl, if_neg (not_not.mpr hlen),
    keypinParseJournalLine_journalPair]

/-! ## The journal of a run -/

lemma keypinCheckAndAdd_cases {r : KeypinResult} {replace : Bool} {written : ℕ}
    (h : keypinCheckAndAdd st rsaId ed25519Key replace written = some (r, st')) :
    st' = st ∨ ∃ i kp', keypinAddOrReplaceEntryInMap (keypinEntNew st.tables rsaId ed25519Key).2
        (keypinEntNew st.tables rsaId ed25519Key).1 = some (i, kp') ∧
      st' = keypinJournalAppendEntry { st with tables := kp' } rsaId ed25519Key written := by
  rw [keypinCheckAndAdd, keypinCheckAndAddImpl] at h
  split at h
  · exact .inl (Prod.mk.inj (some.inj h)).2.symm
  split at h
  · exact .inl (Prod.mk.inj (some.inj h)).2.symm
  split at h
  · split at h
    · cases h
    · exact .inl (Prod.mk.inj (some.inj h)).2.symm
  rw [if_neg Bool.false_ne_true] at h
  obtain ⟨⟨i, kp'⟩, hent, h⟩ := bind_eq_some_iff.mp h
  obtain ⟨-, h⟩ := ite_none_right_eq_some.mp h
  exact .inr ⟨i, kp', hent, (Prod.mk.inj (some.inj h)).2.symm⟩

/-- The open journal ends with an end of line, and replays to the tables. -/
structure Replays (st : KeypinState) : Prop where
  journalOpen : st.journalOpen
  ends : ∃ data, st.journal = data ++ ['\n']
  load : keypinLoadJournalImpl KeypinTables.empty st.journal = some st.tables

namespace Replays

lemma checkAndAdd {r : KeypinResult} {replace : Bool} {written : ℕ} (h : Replays st)
    (hwritten : journalLineLen ≤ written)
    (hadd : keypinCheckAndAdd st rsaId ed25519Key replace written = some (r, st')) :
    Replays st' := by
  rcases keypinCheckAndAdd_cases hadd with rfl | ⟨i, kp', hent, rfl⟩
  · exact h
  have htake : (keypinJournalLine rsaId ed25519Key).take written
      = keypinJournalLine rsaId ed25519Key := by
    refine take_of_length_le (le_trans ?_ hwritten)
    rw [keypinJournalLine_eq, length_append, journalPair_length]
    exact Nat.le_refl journalLineLen
  rw [keypinJournalAppendEntry, if_pos h.journalOpen, htake]
  obtain ⟨data, hdata⟩ := h.ends
  refine ⟨decide_eq_true hwritten, ⟨st.journal ++ journalPair rsaId ed25519Key, ?_⟩, ?_⟩
  · rw [keypinJournalLine_eq, append_assoc]
  · have hload := h.load
    rw [hdata, loadJournal_newline] at hload
    rw [hdata, append_assoc, singleton_append, loadJournal_append, hload, bind_some,
      keypinJournalLine_eq, loadJournal_line newline_notMem_journalPair, loadLine_journalPair, hent]
    exact loadJournal_nil

end Replays

lemma replays_openJournal {journal : List Char} {tbuf : IsoTime}
    (h : keypinLoadJournalImpl KeypinTables.empty journal = some kp) :
    Replays (keypinOpenJournal { tables := kp, journal, journalOpen := false } tbuf) := by
  refine ⟨rfl, ⟨journal ++ '\n' :: ("@opened-at ".toList ++ tbuf), by simp [keypinOpenJournal]⟩, ?_⟩
  have hline : '\n' ∉ "@opened-at ".toList ++ tbuf := by
    intro hmem
    rcases mem_append.mp hmem with hmem | hmem
    · exact absurd hmem (by decide)
    · exact absurd (tbuf.2 _ hmem) (by decide)
  have hskip : keypinLoadLine kp ("@opened-at ".toList ++ tbuf) = some kp := by
    have hat : ("@opened-at ".toList ++ tbuf.1).head? = some '@' := by
      rw [head?_append_of_ne_nil _ (by decide)]
      rfl
    rw [keypinLoadLine, if_neg (by simp), if_pos hat]
  change keypinLoadJournalImpl _ (journal ++ '\n' :: (("@opened-at ".toList ++ tbuf) ++ '\n' :: []))
    = some kp
  rw [loadJournal_append, h, bind_some, loadJournal_line hline, hskip]
  exact loadJournal_nil

/-- A call, and how much of a line the file would take. -/
structure KeypinCall where
  rsaId : RsaId
  ed25519Key : Ed25519Key
  replace : Bool
  written : ℕ

def KeypinCall.event (c : KeypinCall) : KeypinEvent :=
  .checkAndAdd c.rsaId c.ed25519Key c.replace c.written

/-- The run of an authority: it loads its journal, opens it, and is called. -/
def authorityRun (journal : List Char) (tbuf : IsoTime) (calls : List KeypinCall) :
    List KeypinEvent :=
  .loadJournal journal :: .openJournal tbuf :: calls.map KeypinCall.event

lemma Replays.calls {calls : List KeypinCall} (h : Replays st)
    (hwritten : ∀ c ∈ calls, journalLineLen ≤ c.written)
    (hrun : Reaches keypinStep st (calls.map KeypinCall.event) st') : Replays st' := by
  induction calls generalizing st with
  | nil => rwa [← reaches_nil.mp hrun]
  | cons c calls ih =>
    obtain ⟨st₁, hstep, hrun⟩ := reaches_cons.mp hrun
    obtain ⟨⟨r, st₂⟩, hadd, rfl⟩ := map_eq_some_iff.mp hstep
    exact ih (h.checkAndAdd (hwritten c mem_cons_self) hadd)
      (fun c hc => hwritten c (mem_cons_of_mem _ hc)) hrun

/-- **Replay.**  Whatever journal the tables were loaded from, and after any calls with and
without replacement whose lines the file takes, loading the extended journal into empty tables
gives the live tables. -/
theorem keypin_replay (journal : List Char) (tbuf : IsoTime) {calls : List KeypinCall}
    (hwritten : ∀ c ∈ calls, journalLineLen ≤ c.written) :
    ∃ st, Reaches keypinStep (KeypinState.init journal) (authorityRun journal tbuf calls) st ∧
      keypinLoadJournalImpl KeypinTables.empty st.journal = some st.tables := by
  obtain ⟨st, hrun, -⟩ := consistent_keypinRun (.init journal) consistent_empty
    (authorityRun journal tbuf calls)
  refine ⟨st, hrun, ?_⟩
  obtain ⟨st₁, hload, hrun⟩ := reaches_cons.mp hrun
  obtain ⟨st₂, hopen, hrun⟩ := reaches_cons.mp hrun
  obtain ⟨kp, hkp, rfl⟩ := map_eq_some_iff.mp hload
  obtain rfl := some.inj hopen
  exact ((replays_openJournal hkp).calls hwritten hrun).load

/-- Two calls for one RSA identity, the second of which replaces the first. -/
def rekeyedCalls : List KeypinCall :=
  [⟨⟨List.replicate 20 7, by simp⟩, ⟨List.replicate 32 1, by simp⟩, false, journalLineLen⟩,
    ⟨⟨List.replicate 20 7, by simp⟩, ⟨List.replicate 32 2, by simp⟩, true, journalLineLen⟩]

theorem keypin_replay_rekeyed :
    ∃ st, Reaches keypinStep (KeypinState.init [])
        (authorityRun [] ⟨"2026-01-01 00:00:00".toList, by simp⟩ rekeyedCalls) st ∧
      keypinLoadJournalImpl KeypinTables.empty st.journal = some st.tables :=
  keypin_replay [] _ (by simp [rekeyedCalls])

/-- A call whose line the file does not take. -/
def unwrittenCall : KeypinCall :=
  ⟨⟨List.replicate 20 7, by simp⟩, ⟨List.replicate 32 1, by simp⟩, false, 0⟩

/-- **A line that is not written** is not replayed: the live tables keep its entry, and the
journal is closed. -/
theorem keypin_replay_fails_unwritten :
    ∃ st, Reaches keypinStep (KeypinState.init [])
        (authorityRun [] ⟨[], by simp⟩ [unwrittenCall]) st ∧
      keypinLoadJournalImpl KeypinTables.empty st.journal ≠ some st.tables := by
  let opened := keypinOpenJournal (KeypinState.init []) ⟨[], by simp⟩
  have hopened : Replays opened := replays_openJournal loadJournal_nil
  let ent : KeypinEnt := ⟨0, unwrittenCall.rsaId, unwrittenCall.ed25519Key⟩
  refine ⟨⟨⟨[ent], [ent], 1⟩, opened.journal, false⟩, ?_, ?_⟩
  · refine reaches_cons.mpr ⟨KeypinState.init [], ?_, reaches_cons.mpr ⟨opened, rfl, ?_⟩⟩
    · exact congrArg (Option.map _) loadJournal_nil
    · refine reaches_cons.mpr ⟨_, ?_, reaches_nil.mpr rfl⟩
      rfl
  · change keypinLoadJournalImpl KeypinTables.empty opened.journal ≠ _
    rw [hopened.load]
    exact fun h => by cases h

end Ator.Keypin
