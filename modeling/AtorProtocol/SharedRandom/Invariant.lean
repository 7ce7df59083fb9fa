import AtorProtocol.SharedRandom.ComputeSrv

/-!
# What holds of the shared-random state over a run

A run is a sequence of votes and clock updates.  Which commits are stored is decided by
`shouldKeepCommit` on one side and by the phase transitions of `sr_state_update` on the other:
only a change from the reveal to the commit phase drops the commits of a protocol run.

* `handleReceivedCommit_cases`, `srStateUpdate_cases` — all that one step can do to the commits.
* `SrOk` — each commit is keyed by its owner and verified if revealed.
* `commitment_eq_of_sameRun` — a commitment does not change while the run is the same.
* `SrTrace` — the state together with the run in which each stored commit was accepted.
* `srProtocol_iff_meets` — the stored commits all belong to the current run exactly in those runs
  in which the clock never enters another protocol run past the change of phase.
-/

namespace Ator.SharedRandom

open List Option
open AssocMap (get_modify_of_ne get_set_of_ne get_set_self size_eq_zero_iff)

variable {env : SrEnv} {trusted : Bytes → Bool} {st st' : SrState}

/-! ## One commit of a vote -/

variable {c : SrCommit} {voterKey : Bytes}

lemma shouldKeepCommit_cases {phase : SrPhase}
    (h : shouldKeepCommit env trusted st c voterKey phase = true) :
    c.rsaIdentity = voterKey ∧ trusted c.rsaIdentity = true
      ∧ ((phase = .commit ∧ st.commits.get c.rsaIdentity = none ∧ commitHasRevealValue c = false)
        ∨ (phase = .reveal ∧ ∃ saved, st.commits.get c.rsaIdentity = some saved
          ∧ c.encodedCommit = saved.encodedCommit ∧ commitHasRevealValue saved = false
          ∧ commitHasRevealValue c = true ∧ verifyCommitAndReveal env.digest256 c = true)) := by
  unfold shouldKeepCommit at h
  by_cases hauth : commitIsAuthoritative c voterKey = true
  case neg => simp [hauth] at h
  by_cases htrust : trusted c.rsaIdentity = true
  case neg => simp [htrust] at h
  rw [if_neg (by simp [hauth]), if_neg (by simp [htrust])] at h
  refine ⟨by simpa [commitIsAuthoritative] using hauth, htrust, ?_⟩
  cases phase with
  | commit =>
    rcases hget : st.commits.get c.rsaIdentity with _ | saved
    · simp only [hget] at h
      exact .inl ⟨rfl, rfl, by simpa using h⟩
    · simp [hget] at h
  | reveal =>
    rcases hget : st.commits.get c.rsaIdentity with _ | saved
    · simp [hget] at h
    · simp only [hget] at h
      split_ifs at h with hsame hsaved hc hverify
      rw [commitmentsAreTheSame, beq_iff_eq] at hsame
      exact .inr ⟨rfl, saved, rfl, hsame, by simpa using hsaved, hc, hverify⟩

/-- A received commit is ignored, is stored as the first one of its authority, or brings the
reveal of the one that is stored.  No assertion fails. -/
lemma handleReceivedCommit_cases (env : SrEnv) (trusted : Bytes → Bool) (voterKey : Bytes)
    (st : SrState) (c : SrCommit) :
    ∃ st', handleReceivedCommit env trusted voterKey st c = some st' ∧ (st' = st
      ∨ (st.phase = .commit ∧ st.commits.get c.rsaIdentity = none ∧ commitHasRevealValue c = false
          ∧ st' = srStateAddCommit st { c with valid := true })
      ∨ (st.phase = .reveal ∧ ∃ saved, st.commits.get c.rsaIdentity = some saved
          ∧ c.encodedCommit = saved.encodedCommit ∧ commitHasRevealValue saved = false
          ∧ verifyCommitAndReveal env.digest256 c = true
          ∧ st' = { st with
              commits := st.commits.modify c.rsaIdentity (srStateCopyRevealInfo c) })) := by
  by_cases hkeep : shouldKeepCommit env trusted st c voterKey st.phase = true
  · rcases (shouldKeepCommit_cases hkeep).2.2 with ⟨hphase, hget, hc⟩ | ⟨hphase, saved, hget, hsame,
      hsaved, -, hverify⟩
    · refine ⟨srStateAddCommit st { c with valid := true }, ?_, .inr (.inl
        ⟨hphase, hget, hc, rfl⟩)⟩
      rw [hphase] at hkeep
      simp [handleReceivedCommit, hkeep, saveCommitToState, hphase]
    · refine ⟨_, ?_, .inr (.inr ⟨hphase, saved, hget, hsame, hsaved, hverify, rfl⟩)⟩
      rw [hphase] at hkeep
      simp only [handleReceivedCommit, hkeep, saveCommitToState, hphase,
        saveCommitDuringRevealPhase, hget, commitmentsAreTheSame, hsame]
      simp
      rfl
  · exact ⟨st, by rw [handleReceivedCommit, if_pos hkeep], .inl rfl⟩

/-! ## One update of the clock -/

/-- The commits after our own has been added. -/
def withOurCommit (env : SrEnv) (validAfter : ℕ) (randomNumber : Bytes)
    (commits : AssocMap Bytes SrCommit) : AssocMap Bytes SrCommit :=
  match srGenerateOurCommit env.digest256 env.ourIdentity validAfter randomNumber with
  | none => commits
  | some c => commits.set c.rsaIdentity c

lemma addOurCommit_eq (st : SrState) (v : ℕ) (rn : Bytes) :
    addOurCommit env st v rn = { st with commits := withOurCommit env v rn st.commits } := by
  rw [addOurCommit, withOurCommit]
  rcases srGenerateOurCommit env.digest256 env.ourIdentity v rn with _ | c <;> rfl

lemma countRound_eq (st : SrState) : (countRound st).commits = st.commits
    ∧ (countRound st).phase = st.phase ∧ (countRound st).validAfter = st.validAfter
    ∧ (countRound st).nProtocolRuns = st.nProtocolRuns := by
  rw [countRound]
  split_ifs <;> exact ⟨rfl, rfl, rfl, rfl⟩

lemma srComputeSrv_eq (h : srComputeSrv env trusted st = some st') :
    st'.commits = st.commits ∧ st'.phase = st.phase ∧ st'.validAfter = st.validAfter
      ∧ st'.nProtocolRuns = st.nProtocolRuns := by
  rw [srComputeSrv] at h
  split_ifs at h
  · obtain rfl := some.inj h
    exact ⟨rfl, rfl, rfl, rfl⟩
  · obtain rfl := some.inj h
    exact ⟨rfl, rfl, rfl, rfl⟩

/-- The clock enters the commit phase out of the reveal phase. -/
def StartsRun (env : SrEnv) (st : SrState) (validAfter : ℕ) : Prop :=
  st.phase = .reveal ∧ getSrProtocolPhase env validAfter = .commit

/-- What a step of the clock may do to the commits: a protocol run that starts drops them, and
with none stored our own may come in. -/
def CommitsAfter (env : SrEnv) (v : ℕ) (rn : Bytes) (st st' : SrState) : Prop :=
  (StartsRun env st v ∧ st'.commits = withOurCommit env v rn ∅
      ∧ st'.nProtocolRuns = st.nProtocolRuns + 1)
  ∨ (¬ StartsRun env st v ∧ st'.nProtocolRuns = st.nProtocolRuns
      ∧ (st'.commits = st.commits ∨ (st.commits.size = 0 ∧ getSrProtocolPhase env v = .commit
        ∧ st'.commits = withOurCommit env v rn ∅)))

variable {rn : Bytes} {v : ℕ}

lemma newProtocolRun_eq (hreveal : st.phase = .reveal)
    (h : newProtocolRun env trusted st v rn = some st') :
    st'.commits = withOurCommit env v rn ∅ ∧ st'.nProtocolRuns = st.nProtocolRuns + 1 := by
  rw [newProtocolRun, if_pos hreveal] at h
  obtain ⟨computed, hcomputed, rfl⟩ := map_eq_some_iff.mp h
  obtain ⟨-, -, -, hruns⟩ := srComputeSrv_eq hcomputed
  rw [addOurCommit_eq]
  exact ⟨rfl, by simp only [resetStateForNewProtocolRun, hruns, stateRotateSrv]⟩

lemma enterPhase_cases (h : enterPhase env trusted st v rn = some st') :
    st'.phase = getSrProtocolPhase env v ∧ CommitsAfter env v rn st st' := by
  rw [enterPhase] at h
  by_cases htrans : st.phase = getSrProtocolPhase env v
  · have hno : ¬ StartsRun env st v := fun hs => by
      rw [hs.1, hs.2] at htrans
      cases htrans
    rw [if_neg (by simp [isPhaseTransition, htrans])] at h
    split_ifs at h with hboot
    · obtain rfl := some.inj h
      rw [addOurCommit_eq]
      refine ⟨htrans, .inr ⟨hno, rfl, .inr ⟨hboot.2, htrans ▸ hboot.1, ?_⟩⟩⟩
      rw [AssocMap.eq_empty_of_size hboot.2]
    · obtain rfl := some.inj h
      exact ⟨htrans, .inr ⟨hno, rfl, .inl rfl⟩⟩
  · rw [if_pos (by simp [isPhaseTransition, htrans])] at h
    obtain ⟨started, hstarted, rfl⟩ := map_eq_some_iff.mp h
    refine ⟨rfl, ?_⟩
    split_ifs at hstarted with hnext
    · have hreveal : st.phase = .reveal := by
        rw [hnext] at htrans
        cases hp : st.phase with
        | commit => exact absurd hp htrans
        | reveal => rfl
      obtain ⟨hcommits, hruns⟩ := newProtocolRun_eq hreveal hstarted
      exact .inl ⟨⟨hreveal, hnext⟩, hcommits, hruns⟩
    · obtain rfl := some.inj hstarted
      exact .inr ⟨fun hs => hnext hs.2, rfl, .inl rfl⟩

lemma srStateUpdate_cases (h : srStateUpdate env trusted st v rn = some st') :
    (v ≤ st.validAfter ∧ st' = st)
    ∨ (st.validAfter < v ∧ st'.validAfter = v ∧ st'.phase = getSrProtocolPhase env v
        ∧ CommitsAfter env v rn st st') := by
  rw [srStateUpdate] at h
  split_ifs at h with hv
  · exact .inl ⟨hv, (some.inj h).symm⟩
  · right
    obtain ⟨mid, hmid, rfl⟩ := map_eq_some_iff.mp h
    obtain ⟨hcommits, hphase, hvalid, hruns⟩ := countRound_eq { mid with validAfter := v }
    obtain ⟨hmidphase, hafter⟩ := enterPhase_cases hmid
    refine ⟨by omega, hvalid, hphase.trans hmidphase, ?_⟩
    rw [CommitsAfter, hcommits, hruns]
    exact hafter

/-! ## The commits that are stored -/

/-- What is known of the commit stored under `k`. -/
structure StoredOk (env : SrEnv) (k : Bytes) (c : SrCommit) : Prop where
  keyed : c.rsaIdentity = k
  fingerprint : FingerprintOk c
  valid : c.valid = true
  alg : c.alg = srDigestAlg
  /-- Until its reveal comes, a commit says what its encoded commitment says. -/
  decoded : commitHasRevealValue c = false → Decoded c
  verified : commitHasRevealValue c = true → verifyCommitAndReveal env.digest256 c = true

/-- **The invariant of the stored commits**, and of the phase. -/
structure SrOk (env : SrEnv) (st : SrState) : Prop where
  phase : st.phase = getSrProtocolPhase env st.validAfter
  stored : ∀ k c, st.commits.get k = some c → StoredOk env k c

variable {args : List (List Char)}

lemma storedOk_parsed (h : srParseCommit args = some c)
    (hc : commitHasRevealValue c = false) :
    StoredOk env c.rsaIdentity { c with valid := true } := by
  obtain ⟨hdec, hfpr, halg⟩ := srParseCommit_decoded h
  refine ⟨rfl, hfpr, rfl, halg, fun _ => hdec, fun hr => ?_⟩
  change commitHasRevealValue c = true at hr
  rw [hc] at hr
  cases hr

lemma storedOk_revealed {c saved : SrCommit} {k : Bytes}
    (h : srParseCommit args = some c) (hsaved : StoredOk env k saved)
    (hnone : commitHasRevealValue saved = false) (hsame : c.encodedCommit = saved.encodedCommit)
    (hverify : verifyCommitAndReveal env.digest256 c = true) :
    StoredOk env k (srStateCopyRevealInfo c saved) := by
  obtain ⟨hts, hhash⟩ := (srParseCommit_decoded h).1.congr (hsaved.decoded hnone) hsame
  refine ⟨hsaved.keyed, hsaved.fingerprint, hsaved.valid, hsaved.alg,
    fun _ => hsaved.decoded hnone, fun _ => ?_⟩
  unfold verifyCommitAndReveal at hverify ⊢
  split_ifs at hverify with hcts hcalg
  rw [if_neg (by simpa [srStateCopyRevealInfo, ← hts] using hcts),
    if_neg (by simp [srStateCopyRevealInfo, hsaved.alg])]
  simpa [srStateCopyRevealInfo, encodedRevealBuf, ← hhash] using hverify

lemma storedOk_withOurCommit {k : Bytes}
    (h : (withOurCommit env v rn ∅).get k = some c) : StoredOk env k c := by
  rw [withOurCommit] at h
  rcases hours : srGenerateOurCommit env.digest256 env.ourIdentity v rn with _ | ours
  · rw [hours] at h
    cases h
  · simp only [hours] at h
    obtain ⟨hid, hhex, hvalid, hverify, hreveal⟩ := srGenerateOurCommit_spec hours
    by_cases hk : k = ours.rsaIdentity
    · rw [hk, get_set_self] at h
      obtain rfl := some.inj h
      refine ⟨hk.symm, ⟨hhex, env.ourIdentity_length _ hid⟩, hvalid, ?_, fun hno => ?_,
        fun _ => hverify⟩
      · unfold verifyCommitAndReveal at hverify
        split_ifs at hverify with _ halg
        exact Decidable.not_not.mp halg
      · rw [hreveal] at hno
        cases hno
    · rw [get_set_of_ne hk] at h
      cases h

/-! ## What one step keeps -/

/-- The protocol run of a valid-after time: two phases of twelve rounds. -/
def protocolRun (env : SrEnv) (t : ℕ) : ℕ :=
  (t / env.interval) / (sharedRandomNRounds * sharedRandomNPhases)

/-- Commits are never dropped or changed from `s` to `t`, and come in only outside of the reveal
phase. -/
structure Keeps (s t : SrState) : Prop where
  kept : ∀ k c, s.commits.get k = some c →
    ∃ d, t.commits.get k = some d ∧ d.encodedCommit = c.encodedCommit
  entered : t.phase = .reveal → ∀ k d, t.commits.get k = some d →
    ∃ c, s.commits.get k = some c ∧ c.encodedCommit = d.encodedCommit

lemma Keeps.refl (s : SrState) : Keeps s s :=
  ⟨fun _ c hc => ⟨c, hc, rfl⟩, fun _ _ d hd => ⟨d, hd, rfl⟩⟩

variable {s t : SrState}

lemma Keeps.of_commits (h : t.commits = s.commits) : Keeps s t :=
  ⟨fun _ c hc => ⟨c, by rwa [h], rfl⟩, fun _ _ d hd => ⟨d, by rwa [← h], rfl⟩⟩

/-- What a vote leaves alone. -/
structure SameRound (s t : SrState) : Prop where
  validAfter : t.validAfter = s.validAfter
  phase : t.phase = s.phase
  nProtocolRuns : t.nProtocolRuns = s.nProtocolRuns

lemma handleReceivedCommit_spec
    (hparse : srParseCommit args = some c) (hst : SrOk env st)
    (h : handleReceivedCommit env trusted voterKey st c = some st') :
    SrOk env st' ∧ Keeps st st' ∧ SameRound st st' := by
  obtain ⟨st'', hst'', hcases⟩ := handleReceivedCommit_cases env trusted voterKey st c
  obtain rfl := some.inj (hst''.symm.trans h)
  rcases hcases with rfl | ⟨hphase, hget, hc, rfl⟩ | ⟨hphase, saved, hget, hsame, hnone, hverify,
    rfl⟩
  · exact ⟨hst, Keeps.refl _, ⟨rfl, rfl, rfl⟩⟩
  · refine ⟨⟨hst.phase, fun k d hd => ?_⟩, ⟨fun k d hd => ⟨d, ?_, rfl⟩, fun hr => ?_⟩,
      ⟨rfl, rfl, rfl⟩⟩
    · rcases eq_or_ne k c.rsaIdentity with rfl | hk
      · rw [srStateAddCommit, get_set_self] at hd
        rw [← some.inj hd]
        exact storedOk_parsed hparse hc
      · rw [srStateAddCommit, get_set_of_ne hk] at hd
        exact hst.stored k d hd
    · have hk : k ≠ c.rsaIdentity := by
        rintro rfl
        rw [hget] at hd
        cases hd
      rwa [srStateAddCommit, get_set_of_ne hk]
    · change st.phase = .reveal at hr
      rw [hphase] at hr
      cases hr
  · have hnew : (st.commits.modify c.rsaIdentity (srStateCopyRevealInfo c)).get c.rsaIdentity
        = some (srStateCopyRevealInfo c saved) := by
      rw [AssocMap.get_modify_self, hget, map_some]
    refine ⟨⟨hst.phase, fun k d hd => ?_⟩, ⟨fun k d hd => ?_, fun _ k d hd => ?_⟩, ⟨rfl, rfl, rfl⟩⟩
    · rcases eq_or_ne k c.rsaIdentity with rfl | hk
      · rw [← some.inj (hnew.symm.trans hd)]
        exact storedOk_revealed hparse (hst.stored _ _ hget) hnone hsame hverify
      · rw [get_modify_of_ne _ hk] at hd
        exact hst.stored k d hd
    · rcases eq_or_ne k c.rsaIdentity with rfl | hk
      · refine ⟨_, hnew, ?_⟩
        rw [← some.inj (hget.symm.trans hd)]
        rfl
      · exact ⟨d, by rwa [get_modify_of_ne _ hk], rfl⟩
    · rcases eq_or_ne k c.rsaIdentity with rfl | hk
      · refine ⟨saved, hget, ?_⟩
        rw [← some.inj (hnew.symm.trans hd)]
        rfl
      · exact ⟨d, by rwa [get_modify_of_ne _ hk] at hd, rfl⟩

lemma Keeps.trans {s t u : SrState} (hst : Keeps s t) (htu : Keeps t u)
    (hphase : u.phase = .reveal → t.phase = .reveal) : Keeps s u := by
  refine ⟨fun k c hc => ?_, fun hr k d hd => ?_⟩
  · obtain ⟨d, hd, hdc⟩ := hst.kept k c hc
    obtain ⟨e, he, hed⟩ := htu.kept k d hd
    exact ⟨e, he, hed.trans hdc⟩
  · obtain ⟨c, hc, hcd⟩ := htu.entered hr k d hd
    obtain ⟨b, hb, hbc⟩ := hst.entered (hphase hr) k c hc
    exact ⟨b, hb, hbc.trans hcd⟩

lemma foldlM_handleReceivedCommit_spec : ∀ (commits : List SrCommit)
    {st st' : SrState}, (∀ c ∈ commits, ∃ args, srParseCommit args = some c) → SrOk env st →
      commits.foldlM (handleReceivedCommit env trusted voterKey) st = some st' →
      SrOk env st' ∧ Keeps st st' ∧ SameRound st st'
  | [], st, st', _, hst, h => by
      obtain rfl := some.inj h
      exact ⟨hst, Keeps.refl _, ⟨rfl, rfl, rfl⟩⟩
  | c :: commits, st, st', hparse, hst, h => by
      rw [foldlM_cons, bind_eq_bind, bind_eq_some_iff] at h
      obtain ⟨mid, hmid, hrest⟩ := h
      obtain ⟨args, hargs⟩ := hparse c (by simp)
      obtain ⟨hmidok, hkeep, hround⟩ := handleReceivedCommit_spec hargs hst hmid
      obtain ⟨hok, hkeep', hround'⟩ := foldlM_handleReceivedCommit_spec commits
        (fun c hc => hparse c (mem_cons_of_mem _ hc)) hmidok hrest
      refine ⟨hok, hkeep.trans hkeep' fun hr => ?_, ⟨hround'.validAfter.trans hround.validAfter,
        hround'.phase.trans hround.phase, hround'.nProtocolRuns.trans hround.nProtocolRuns⟩⟩
      rw [← hround'.phase, hr]

lemma mem_delCurrentOrder : ∀ {commits : List SrCommit}, c ∈ delCurrentOrder commits → c ∈ commits
  | [], h => h
  | b :: commits, h => by
      rcases mem_cons.mp h with rfl | h
      · simp
      · exact mem_cons_of_mem _ (mem_reverse.mp h)
variable (env) in
lemma protocolRun_mono {s t : ℕ} (h : s ≤ t) : protocolRun env s ≤ protocolRun env t :=
  Nat.div_le_div_right (Nat.div_le_div_right h)

lemma getSrProtocolPhase_eq_commit {t : ℕ} :
    getSrProtocolPhase env t = .commit ↔ t / env.interval % 24 < 12 := by
  have hphase : getSrProtocolPhase env t
      = if t / env.interval % 24 < 12 then .commit else .reveal := rfl
  rw [hphase]
  by_cases h : t / env.interval % 24 < 12 <;> simp [h]

lemma protocolRun_lt_of_startsRun (hst : SrOk env st) (hv : st.validAfter < v)
    (h : StartsRun env st v) : protocolRun env st.validAfter < protocolRun env v := by
  obtain ⟨hreveal, hcommit⟩ := h
  have hslot : ¬ st.validAfter / env.interval % 24 < 12 := by
    rw [← getSrProtocolPhase_eq_commit, ← hst.phase, hreveal]
    exact SrPhase.noConfusion
  have hslot' := getSrProtocolPhase_eq_commit.mp hcommit
  have hle : st.validAfter / env.interval ≤ v / env.interval := Nat.div_le_div_right hv.le
  simp only [protocolRun, sharedRandomNRounds, sharedRandomNPhases]
  omega

lemma keeps_of_empty (hs : s.commits.size = 0)
    (ht : t.phase = .commit) : Keeps s t := by
  refine ⟨fun k c hc => ?_, fun hr => ?_⟩
  · rw [size_eq_zero_iff.mp hs k] at hc
    cases hc
  · rw [ht] at hr
    cases hr

lemma srStep_vote_spec {voterKey : Option Bytes} {commitLines : List (List (List Char))}
    (hst : SrOk env st) (h : srStep env st (.vote trusted voterKey commitLines) = some st') :
    SrOk env st' ∧ Keeps st st' ∧ SameRound st st' := by
  cases voterKey with
  | none =>
    obtain rfl := some.inj h
    exact ⟨hst, Keeps.refl _, ⟨rfl, rfl, rfl⟩⟩
  | some id =>
    refine foldlM_handleReceivedCommit_spec _ (fun c hc => ?_) hst h
    obtain ⟨args, -, hargs⟩ := mem_filterMap.mp (mem_delCurrentOrder hc)
    exact ⟨args, hargs⟩

variable {e : SrEvent}

/-- **One step.**  The commits stay good; in the reveal phase none comes in; and unless the clock
starts a protocol run, none goes. -/
lemma srStep_spec (hst : SrOk env st) (h : srStep env st e = some st') :
    SrOk env st' ∧ st.validAfter ≤ st'.validAfter
      ∧ ((Keeps st st' ∧ st'.nProtocolRuns = st.nProtocolRuns)
        ∨ (protocolRun env st.validAfter < protocolRun env st'.validAfter
          ∧ st'.phase = .commit ∧ st'.nProtocolRuns = st.nProtocolRuns + 1)) := by
  cases e with
  | vote trusted voterKey commitLines =>
    obtain ⟨hok, hkeep, hround⟩ := srStep_vote_spec hst h
    exact ⟨hok, hround.validAfter.ge, .inl ⟨hkeep, hround.nProtocolRuns⟩⟩
  | update trusted v rn =>
    rw [srStep] at h
    rcases srStateUpdate_cases h with ⟨-, rfl⟩ | ⟨hv, hvalid, hphase, hafter⟩
    · exact ⟨hst, le_refl _, .inl ⟨Keeps.refl _, rfl⟩⟩
    · have hphase' : st'.phase = getSrProtocolPhase env st'.validAfter := by rw [hphase, hvalid]
      rcases hafter with ⟨hstarts, hcommits, hruns⟩ | ⟨-, hruns, hcommits | ⟨hempty, hcommit,
        hcommits⟩⟩
      · refine ⟨⟨hphase', fun k c hc => ?_⟩, by omega, .inr ⟨?_, ?_, hruns⟩⟩
        · rw [hcommits] at hc
          exact storedOk_withOurCommit hc
        · rw [hvalid]
          exact protocolRun_lt_of_startsRun hst hv hstarts
        · rw [hphase, hstarts.2]
      · refine ⟨⟨hphase', fun k c hc => ?_⟩, by omega, .inl ⟨Keeps.of_commits hcommits, hruns⟩⟩
        rw [hcommits] at hc
        exact hst.stored k c hc
      · refine ⟨⟨hphase', fun k c hc => ?_⟩, by omega, .inl
          ⟨keeps_of_empty hempty (by rw [hphase, hcommit]), hruns⟩⟩
        rw [hcommits] at hc
        exact storedOk_withOurCommit hc

lemma foldlM_handleReceivedCommit_isSome (voterKey : Bytes) : ∀ (commits : List SrCommit)
    (st : SrState), (commits.foldlM (handleReceivedCommit env trusted voterKey) st).isSome = true
  | [], _ => rfl
  | c :: commits, st => by
      obtain ⟨mid, hmid, -⟩ := handleReceivedCommit_cases env trusted voterKey st c
      rw [foldlM_cons, hmid]
      exact foldlM_handleReceivedCommit_isSome voterKey commits mid

lemma srComputeSrv_isSome (hst : SrOk env st) : (srComputeSrv env trusted st).isSome = true := by
  rw [srComputeSrv]
  split_ifs with _ hvalid
  · rfl
  · rfl
  · refine absurd (List.all_eq_true.mpr fun c hc => ?_) hvalid
    obtain ⟨k, hk⟩ := AssocMap.mem_values.mp hc
    exact (hst.stored k c hk).valid

/-- **No assertion fails** on a good state. -/
lemma srStep_isSome (hst : SrOk env st) (e : SrEvent) : (srStep env st e).isSome = true := by
  cases e with
  | vote trusted voterKey commitLines =>
    cases voterKey with
    | none => rfl
    | some id => exact foldlM_handleReceivedCommit_isSome id _ st
  | update trusted v rn =>
    have hrotated : SrOk env (stateRotateSrv st) := ⟨hst.phase, hst.stored⟩
    rw [srStep, srStateUpdate]
    split_ifs
    · rfl
    · rw [isSome_map, enterPhase]
      split_ifs
      · rw [isSome_map, newProtocolRun, isSome_map]
        split_ifs
        · exact srComputeSrv_isSome hrotated
        · rfl
      · rfl
      · rfl
      · rfl

/-! ## A commitment within a run -/

variable {es : List SrEvent}

lemma srOk_of_reaches (hs : SrOk env s)
    (h : Reaches (srStep env) s es t) : SrOk env t :=
  invariant_of_reaches (fun _ _ _ hI hstep => (srStep_spec hI hstep).1) hs h

lemma validAfter_mono (hs : SrOk env s)
    (h : Reaches (srStep env) s es t) : s.validAfter ≤ t.validAfter := by
  induction es generalizing s with
  | nil => rw [reaches_nil.mp h]
  | cons e es ih =>
    obtain ⟨u, hu, htail⟩ := reaches_cons.mp h
    obtain ⟨huok, hle, -⟩ := srStep_spec hs hu
    exact hle.trans (ih huok htail)

/-- **A commitment does not change within a protocol run.** -/
theorem commitment_eq_of_sameRun (hs : SrOk env s)
    (h : Reaches (srStep env) s es t)
    (hrun : protocolRun env t.validAfter = protocolRun env s.validAfter) :
    ∀ k c, s.commits.get k = some c →
      ∃ d, t.commits.get k = some d ∧ d.encodedCommit = c.encodedCommit := by
  induction es generalizing s with
  | nil =>
    obtain rfl := reaches_nil.mp h
    exact fun k c hc => ⟨c, hc, rfl⟩
  | cons e es ih =>
    obtain ⟨u, hu, htail⟩ := reaches_cons.mp h
    obtain ⟨huok, hle, hcases⟩ := srStep_spec hs hu
    have hut := protocolRun_mono env (validAfter_mono huok htail)
    have hsu := protocolRun_mono env hle
    rcases hcases with ⟨hkeep, -⟩ | ⟨hlt, -⟩
    · intro k c hc
      obtain ⟨d, hd, hdc⟩ := hkeep.kept k c hc
      obtain ⟨b, hb, hbd⟩ := ih huok htail (by omega) k d hd
      exact ⟨b, hb, hbd.trans hdc⟩
    · omega

/-! ## The run in which a commit was accepted -/

/-- The state, and for each stored commit the protocol run in which it was accepted. -/
structure SrTrace where
  st : SrState
  run : Bytes → ℕ

/-- A commit is new when none was stored for its authority, or when the step has dropped the
commits and counted a protocol run. -/
def SrTrace.step (env : SrEnv) (tr : SrTrace) (e : SrEvent) : Option SrTrace :=
  (srStep env tr.st e).map fun st' =>
    { st := st'
      run := fun k =>
        if st'.nProtocolRuns = tr.st.nProtocolRuns ∧ (tr.st.commits.get k).isSome then tr.run k
        else protocolRun env st'.validAfter }

def SrTrace.start (env : SrEnv) (st : SrState) : SrTrace where
  st := st
  run _ := protocolRun env st.validAfter

/-- The stored commits all belong to the protocol run of the current valid-after time. -/
def InRun (env : SrEnv) (tr : SrTrace) : Prop :=
  ∀ k c, tr.st.commits.get k = some c → tr.run k = protocolRun env tr.st.validAfter

/-- An update enters another protocol run only from its reveal phase into a commit phase, or when
no commit is stored. -/
def StaysInRun (env : SrEnv) (tr : SrTrace) : SrEvent → Prop
  | .vote _ _ _ => True
  | .update _ v _ =>
    v ≤ tr.st.validAfter ∨ protocolRun env v = protocolRun env tr.st.validAfter
      ∨ StartsRun env tr.st v ∨ tr.st.commits.size = 0

variable {tr tr' : SrTrace}

lemma srTrace_step_eq_some (h : tr.step env e = some tr') :
    srStep env tr.st e = some tr'.st ∧ ∀ k, tr'.run k
      = if tr'.st.nProtocolRuns = tr.st.nProtocolRuns ∧ (tr.st.commits.get k).isSome then tr.run k
        else protocolRun env tr'.st.validAfter := by
  obtain ⟨st', hst', rfl⟩ := map_eq_some_iff.mp h
  exact ⟨hst', fun _ => rfl⟩

/-- Commits that were stored before belong to the current run afterwards iff the run is the same,
or there are none. -/
lemma inRun_iff_of_commits_eq (hin : InRun env tr)
    (h : tr.step env e = some tr') (hruns : tr'.st.nProtocolRuns = tr.st.nProtocolRuns)
    (hcommits : tr'.st.commits = tr.st.commits) :
    InRun env tr' ↔ protocolRun env tr'.st.validAfter = protocolRun env tr.st.validAfter
      ∨ tr.st.commits.size = 0 := by
  have hrun : ∀ k c, tr.st.commits.get k = some c →
      tr'.run k = protocolRun env tr.st.validAfter := fun k c hc => by
    rw [(srTrace_step_eq_some h).2 k, if_pos ⟨hruns, by rw [hc]; rfl⟩, hin k c hc]
  constructor
  · intro hin'
    by_cases hsize : tr.st.commits.size = 0
    · exact .inr hsize
    · rw [size_eq_zero_iff, not_forall] at hsize
      obtain ⟨k, hk⟩ := hsize
      obtain ⟨c, hc⟩ := ne_none_iff_exists'.mp hk
      left
      rw [← hin' k c (by rwa [hcommits]), hrun k c hc]
  · rintro (hsame | hempty) k c hc <;> rw [hcommits] at hc
    · rw [hrun k c hc, hsame]
    · rw [size_eq_zero_iff.mp hempty k] at hc
      cases hc

/-- **One step, exactly.**  From commits of the current run a step leads to commits of the current
run if and only if the clock does not slip past the change of phase. -/
lemma inRun_step_iff (hok : SrOk env tr.st) (hin : InRun env tr)
    (h : tr.step env e = some tr') : InRun env tr' ↔ StaysInRun env tr e := by
  obtain ⟨hst', hrun⟩ := srTrace_step_eq_some h
  cases e with
  | vote trusted voterKey commitLines =>
    obtain ⟨-, -, hround⟩ := srStep_vote_spec hok hst'
    refine iff_of_true (fun k d _ => ?_) trivial
    rw [hrun k, hround.validAfter]
    split_ifs with hk
    · obtain ⟨c, hc⟩ := isSome_iff_exists.mp hk.2
      exact hin k c hc
    · rfl
  | update trusted v rn =>
    rcases srStateUpdate_cases hst' with ⟨hv, hsame⟩ | ⟨hv, hvalid, -, hafter⟩
    · rw [inRun_iff_of_commits_eq hin h (by rw [hsame]) (by rw [hsame]), hsame]
      exact iff_of_true (.inl rfl) (.inl hv)
    · rcases hafter with ⟨hstarts, -, hruns⟩ | ⟨hno, hruns, hcommits | ⟨hempty, -, -⟩⟩
      · refine iff_of_true (fun k d _ => ?_) (.inr (.inr (.inl hstarts)))
        rw [hrun k, if_neg fun hk => by omega]
      · rw [inRun_iff_of_commits_eq hin h hruns hcommits, hvalid, StaysInRun]
        constructor
        · rintro (hsame | hempty)
          · exact .inr (.inl hsame)
          · exact .inr (.inr (.inr hempty))
        · rintro (hle | hsame | hstarts | hempty)
          · omega
          · exact .inl hsame
          · exact absurd hstarts hno
          · exact .inr hempty
      · refine iff_of_true (fun k d _ => ?_) (.inr (.inr (.inr hempty)))
        rw [hrun k, if_neg fun hk => ?_]
        have hsome := hk.2
        rw [size_eq_zero_iff.mp hempty k] at hsome
        cases hsome

/-! ## Whole runs -/

lemma SrTrace.reaches_st
    (h : Reaches (SrTrace.step env) tr es tr') : Reaches (srStep env) tr.st es tr'.st := by
  induction es generalizing tr with
  | nil =>
    rw [reaches_nil] at h ⊢
    rw [h]
  | cons e es ih =>
    obtain ⟨mid, hmid, htail⟩ := reaches_cons.mp h
    exact reaches_cons.mpr ⟨mid.st, (srTrace_step_eq_some hmid).1, ih htail⟩

lemma SrTrace.exists_reaches {tr : SrTrace} (hok : SrOk env tr.st) (es : List SrEvent) :
    ∃ tr', Reaches (SrTrace.step env) tr es tr' := by
  induction es generalizing tr with
  | nil => exact ⟨tr, rfl⟩
  | cons e es ih =>
    obtain ⟨st', hst'⟩ := isSome_iff_exists.mp (srStep_isSome hok e)
    obtain ⟨mid, hmid⟩ : ∃ mid, tr.step env e = some mid :=
      ⟨_, map_eq_some_iff.mpr ⟨st', hst', rfl⟩⟩
    have hmidok : SrOk env mid.st := (srStep_spec hok (srTrace_step_eq_some hmid).1).1
    obtain ⟨tr', htr'⟩ := ih hmidok
    exact ⟨tr', reaches_cons.mpr ⟨mid, hmid, htr'⟩⟩

lemma srOk_of_srStateInit {now v : ℕ} (hv : 0 < v)
    (h : srStateInit env trusted now v rn = some st) : SrOk env st := by
  rcases srStateUpdate_cases h with ⟨hle, -⟩ | ⟨-, hvalid, hphase, hafter⟩
  · change v ≤ 0 at hle
    omega
  · refine ⟨by rw [hphase, hvalid], fun k c hc => ?_⟩
    rcases hafter with ⟨-, hcommits, -⟩ | ⟨-, -, hcommits | ⟨-, -, hcommits⟩⟩
    · rw [hcommits] at hc
      exact storedOk_withOurCommit hc
    · rw [hcommits] at hc
      cases hc
    · rw [hcommits] at hc
      exact storedOk_withOurCommit hc

/-- The protocol over a run: in every state that is reached, the stored commits all belong to the
current protocol run, are keyed by their owners and verified if revealed; between two states of
one protocol run no commitment changes; and no step that ends in the reveal phase brings one in. -/
structure SrProtocol (env : SrEnv) (start : SrTrace) (es : List SrEvent) : Prop where
  inRun : ∀ pre, pre <+: es → ∀ tr, Reaches (SrTrace.step env) start pre tr → InRun env tr
  keyed : ∀ pre, pre <+: es → ∀ tr, Reaches (SrTrace.step env) start pre tr →
    ∀ k c, tr.st.commits.get k = some c → c.rsaIdentity = k
  verified : ∀ pre, pre <+: es → ∀ tr, Reaches (SrTrace.step env) start pre tr →
    ∀ k c, tr.st.commits.get k = some c → commitHasRevealValue c = true →
      verifyCommitAndReveal env.digest256 c = true
  constant : ∀ pre mid, pre ++ mid <+: es → ∀ tr tr', Reaches (SrTrace.step env) start pre tr →
    Reaches (SrTrace.step env) tr mid tr' →
      protocolRun env tr'.st.validAfter = protocolRun env tr.st.validAfter →
        ∀ k c d, tr.st.commits.get k = some c → tr'.st.commits.get k = some d →
          c.encodedCommit = d.encodedCommit
  closed : ∀ pre e, pre ++ [e] <+: es → ∀ tr tr', Reaches (SrTrace.step env) start pre tr →
    tr.step env e = some tr' → tr'.st.phase = .reveal → ∀ k d, tr'.st.commits.get k = some d →
        ∃ c, tr.st.commits.get k = some c ∧ c.encodedCommit = d.encodedCommit

/-- **The protocol invariant, exactly**: it holds over the runs whose clock never leaves a protocol
run with commits in the state other than from its reveal phase into a commit phase. -/
theorem srProtocol_iff_meets (env : SrEnv) (trusted : Bytes → Bool) (now v : ℕ) (rn : Bytes)
    (st : SrState) (hv : 0 < v) (hinit : srStateInit env trusted now v rn = some st)
    (es : List SrEvent) :
    SrProtocol env (SrTrace.start env st) es
      ↔ Meets (SrTrace.step env) (StaysInRun env) (SrTrace.start env st) es := by
  have hok : SrOk env (SrTrace.start env st).st := srOk_of_srStateInit hv hinit
  have hstart : SrOk env (SrTrace.start env st).st ∧ InRun env (SrTrace.start env st) :=
    ⟨hok, fun _ _ _ => rfl⟩
  obtain ⟨tr, htr⟩ := SrTrace.exists_reaches hok es
  have hreached : ∀ pre tr, Reaches (SrTrace.step env) (SrTrace.start env st) pre tr →
      SrOk env tr.st := fun pre tr h => srOk_of_reaches hok (SrTrace.reaches_st h)
  rw [← forall_prefix_iff_meets (I := fun tr => SrOk env tr.st ∧ InRun env tr)
    (P := InRun env) (fun _ h => h.2) (fun s e t hI hstep => inRun_step_iff hI.1 hI.2 hstep)
    (fun s e t hI hC hstep => ⟨(srStep_spec hI.1 (srTrace_step_eq_some hstep).1).1,
      (inRun_step_iff hI.1 hI.2 hstep).mpr hC⟩) hstart htr]
  refine ⟨fun h => h.inRun, fun h => ⟨h, ?_, ?_, ?_, ?_⟩⟩
  · exact fun pre _ tr hpre k c hc => ((hreached pre tr hpre).stored k c hc).keyed
  · exact fun pre _ tr hpre k c hc => ((hreached pre tr hpre).stored k c hc).verified
  · intro pre mid _ tr tr' hpre hmid hsame k c d hc hd
    obtain ⟨d', hd', heq⟩ := commitment_eq_of_sameRun (hreached pre tr hpre)
      (SrTrace.reaches_st hmid) hsame k c hc
    rw [hd, some.injEq] at hd'
    rw [hd', heq]
  · intro pre e _ tr tr' hpre hstep hreveal
    obtain ⟨-, -, hkeep | ⟨-, hcommit, -⟩⟩ :=
      srStep_spec (hreached pre tr hpre) (srTrace_step_eq_some hstep).1
    · exact hkeep.1.entered hreveal
    · rw [hreveal] at hcommit
      cases hcommit

/-- A commit in one protocol run, then a clock that is next asked for the same phase of the next
run. -/
def slippedRun : List SrEvent :=
  [ .vote (fun _ => true) (some aliceId) [commitLine aliceId [sampleCommit]],
    .update (fun _ => true) (2 * 86400) [] ]

theorem srProtocol_iff_meets_slipped :
    ∃ st, srStateInit sampleEnv (fun _ => true) 86000 86400 [] = some st
      ∧ (SrProtocol sampleEnv (SrTrace.start sampleEnv st) slippedRun
        ↔ Meets (SrTrace.step sampleEnv) (StaysInRun sampleEnv) (SrTrace.start sampleEnv st)
            slippedRun) := by
  have hsome : (srStateInit sampleEnv (fun _ => true) 86000 86400 []).isSome = true := by
    decide +kernel
  obtain ⟨st, hst⟩ := isSome_iff_exists.mp hsome
  exact ⟨st, hst, srProtocol_iff_meets sampleEnv (fun _ => true) 86000 86400 [] st (by omega) hst
    slippedRun⟩

theorem srProtocol_slipped_fails :
    ∃ st, srStateInit sampleEnv (fun _ => true) 86000 86400 [] = some st
      ∧ ¬ SrProtocol sampleEnv (SrTrace.start sampleEnv st) slippedRun := by
  have hend : ((srStateInit sampleEnv (fun _ => true) 86000 86400 []).bind fun st =>
      (slippedRun.foldlM (SrTrace.step sampleEnv) (SrTrace.start sampleEnv st)).map fun tr =>
        ((tr.st.commits.get aliceId).isSome, tr.run aliceId,
          protocolRun sampleEnv tr.st.validAfter)) = some (true, 1, 2) := by
    decide +kernel
  obtain ⟨st, hst, hrest⟩ := bind_eq_some_iff.mp hend
  obtain ⟨tr, htr, hrun⟩ := map_eq_some_iff.mp hrest
  refine ⟨st, hst, fun h => ?_⟩
  simp only [Prod.mk.injEq] at hrun
  obtain ⟨hstored, hold, hnow⟩ := hrun
  obtain ⟨c, hc⟩ := isSome_iff_exists.mp hstored
  have hsame := h.inRun slippedRun (prefix_refl _) tr htr aliceId c hc
  omega

end Ator.SharedRandom
