import AtorProtocol.Lib.Run
import AtorProtocol.SharedRandom.State

/-!
# The shared random value and the order of the commits

`sr_compute_srv` sorts the commits by their hashed reveal alone.  Commits that share one are left
in whatever order the iteration of the map brought them in.

* `srvChunks_eq_of_noSharedReveal` — without such commits the elements come in one order.
* `srvChunks_swap_ne` — two such commits change places when the map is iterated another way, and
  the hashed text changes with them.
* `srComputeSrv_reordered_iff` — so the value is a function of the set of commits exactly when no
  two of them share a hashed reveal.
-/

namespace Ator.SharedRandom

open List
open AssocMap (get_eq_some mem_values)

/-- The state with the bindings of its commits visited in another order. -/
def Reordered (st st' : SrState) : Prop :=
  st' = { st with commits := st'.commits } ∧ st'.commits.entries.Perm st.commits.entries

/-- What `save_commit_to_state` makes sure of: one valid commit for each authority, under its own
identity. -/
structure CommitsOk (st : SrState) : Prop where
  keyed : ∀ k c, st.commits.get k = some c → c.rsaIdentity = k
  fingerprint : ∀ k c, st.commits.get k = some c → FingerprintOk c
  valid : ∀ k c, st.commits.get k = some c → c.valid = true

/-- No two commits that go into the computation have the same hashed reveal. -/
def NoSharedReveal (trusted : Bytes → Bool) (st : SrState) : Prop :=
  ∀ c ∈ consideredCommits trusted st, ∀ d ∈ consideredCommits trusted st,
    commitHasRevealValue c = true → commitHasRevealValue d = true →
      c.hashedReveal = d.hashedReveal → c = d

variable {env : SrEnv} {trusted : Bytes → Bool} {st st' : SrState}

/-- The value that `sr_compute_srv` leaves in the state. -/
def computedSrv (env : SrEnv) (trusted : Bytes → Bool) (st : SrState) : Option (Option SrSrv) :=
  (srComputeSrv env trusted st).map (·.currentSrv)

/-- The texts that `sr_compute_srv` can hash, over every order of the commits. -/
def srvInputs (env : SrEnv) (trusted : Bytes → Bool) (st : SrState) : Set Bytes :=
  { m | ∃ st', Reordered st st' ∧ (m = bytesOf (srvChunks env trusted st').flatten
      ∨ m = srvMsg (env.digest256 (bytesOf (srvChunks env trusted st').flatten))
          (srvChunks env trusted st').length st'.previousSrv) }

lemma computedSrv_of_valid (hphase : st.phase = .reveal)
    (hvalid : ∀ k c, st.commits.get k = some c → c.valid = true) :
    computedSrv env trusted st = some (some (generateSrv env
      (env.digest256 (bytesOf (srvChunks env trusted st).flatten))
      (srvChunks env trusted st).length st.previousSrv)) := by
  have hall : st.commits.values.all (·.valid) = true := by
    rw [all_eq_true]
    intro c hc
    obtain ⟨k, hk⟩ := mem_values.mp hc
    exact hvalid k c hk
  simp [computedSrv, srComputeSrv, hphase, hall]

/-! ## One order without ties -/

lemma consideredCommits_perm (h : Reordered st st') :
    (consideredCommits trusted st').Perm (consideredCommits trusted st) :=
  (h.2.map Prod.snd).filter _

lemma filterMap_getSrvElement (l : List SrCommit) :
    l.filterMap getSrvElementFromCommit
      = (l.filter commitHasRevealValue).map fun c => c.rsaIdentityHex ++ c.encodedReveal := by
  induction l with
  | nil => rfl
  | cons c l ih =>
    by_cases hc : commitHasRevealValue c = true
    · simp [getSrvElementFromCommit, hc, ih]
    · simp [getSrvElementFromCommit, hc, ih]

/-- **Without shared reveals the elements come in one order.** -/
theorem srvChunks_eq_of_noSharedReveal (h : Reordered st st') (hno : NoSharedReveal trusted st) :
    srvChunks env trusted st' = srvChunks env trusted st := by
  rw [srvChunks, srvChunks, filterMap_getSrvElement, filterMap_getSrvElement]
  congr 1
  refine env.smartlistSort.filter_eq_of_perm _ (consideredCommits_perm h) ?_
  intro c hc d hd hcr hdr hcd hdc
  refine hno c hc d hd hcr hdr ?_
  simp only [compareReveal, decide_eq_true_eq] at hcd hdc
  exact List.le_antisymm hcd hdc

lemma get_reordered (h : Reordered st st') (k : Bytes) :
    st'.commits.get k = st.commits.get k := by
  refine Option.ext fun c => ?_
  rw [get_eq_some, get_eq_some, h.2.mem_iff]

/-- The agreement needs nothing of the hash function. -/
theorem computedSrv_eq_of_noSharedReveal (hst : CommitsOk st) (h : Reordered st st')
    (hno : st.phase = .reveal → NoSharedReveal trusted st) :
    computedSrv env trusted st' = computedSrv env trusted st := by
  have hphase : st'.phase = st.phase := by rw [h.1]
  have hprev : st'.previousSrv = st.previousSrv := by rw [h.1]
  by_cases hr : st.phase = .reveal
  · rw [computedSrv_of_valid hr hst.valid, computedSrv_of_valid (hphase.trans hr)
      fun k c hk => hst.valid k c (by rwa [← get_reordered h]),
      srvChunks_eq_of_noSharedReveal h (hno hr), hprev]
  · have hr' : st'.phase ≠ .reveal := by rwa [hphase]
    have hcur : st'.currentSrv = st.currentSrv := by rw [h.1]
    simp [computedSrv, srComputeSrv, hr, hr', hcur]

/-! ## Two orders with a tie -/

lemma mem_considered {c : SrCommit} (hst : CommitsOk st) (hc : c ∈ consideredCommits trusted st) :
    (c.rsaIdentity, c) ∈ st.commits.entries ∧ trusted c.rsaIdentity = true := by
  rw [consideredCommits, mem_filter] at hc
  obtain ⟨k, hk⟩ := mem_values.mp hc.1
  refine ⟨?_, hc.2⟩
  rw [← get_eq_some, hst.keyed k c hk, hk]

variable {c d : SrCommit}

lemma eq_of_identity (hst : CommitsOk st) (hc : c ∈ consideredCommits trusted st)
    (hd : d ∈ consideredCommits trusted st) (h : c.rsaIdentity = d.rsaIdentity) : c = d := by
  have hcget := get_eq_some.mpr (mem_considered hst hc).1
  have hdget := get_eq_some.mpr (mem_considered hst hd).1
  rw [h, hdget] at hcget
  exact (Option.some.inj hcget).symm

lemma exists_swapped (hst : CommitsOk st) (hc : c ∈ consideredCommits trusted st)
    (hd : d ∈ consideredCommits trusted st) :
    ∃ st', Reordered st st'
      ∧ consideredCommits trusted st' = (consideredCommits trusted st).map (Equiv.swap c d) := by
  obtain ⟨hcmem, hctrust⟩ := mem_considered hst hc
  obtain ⟨hdmem, hdtrust⟩ := mem_considered hst hd
  let σ := Equiv.swap (c.rsaIdentity, c) (d.rsaIdentity, d)
  have hperm : (st.commits.entries.map σ).Perm st.commits.entries :=
    ComparisonSort.map_swap_perm (Nodup.of_map _ st.commits.nodup) hcmem hdmem
  refine ⟨{ st with commits := ⟨st.commits.entries.map σ,
    (hperm.map Prod.fst).nodup_iff.mpr st.commits.nodup⟩ }, ⟨rfl, hperm⟩, ?_⟩
  have hvalues : (st.commits.entries.map σ).map Prod.snd
      = st.commits.values.map (Equiv.swap c d) := by
    rw [AssocMap.values, map_map, map_map]
    refine map_congr_left fun p hmem => ?_
    obtain ⟨k, v⟩ := p
    obtain rfl := hst.keyed k v (get_eq_some.mpr hmem)
    simp only [Function.comp_apply, σ, Equiv.swap_apply_def, Prod.mk.injEq]
    by_cases hvc : v = c
    · simp [hvc]
    · by_cases hvd : v = d
      · subst hvd
        simp [hvc]
      · simp [hvc, hvd]
  rw [consideredCommits, AssocMap.values, hvalues, filter_map, consideredCommits]
  congr 1
  refine filter_congr fun v _ => ?_
  rw [Function.comp_apply, Equiv.swap_apply_def]
  split
  · next hv => rw [hv, hdtrust, hctrust]
  · split
    · next hv => rw [hv, hdtrust, hctrust]
    · rfl

/-- What a commit adds to the text that is hashed first. -/
def srvElement (c : SrCommit) : Bytes := bytesOf ((getSrvElementFromCommit c).getD [])

lemma bytesOf_chunks (l : List SrCommit) :
    bytesOf (l.filterMap getSrvElementFromCommit).flatten = l.flatMap srvElement := by
  induction l with
  | nil => rfl
  | cons c l ih =>
    rw [flatMap_cons, ← ih, srvElement]
    rcases hc : getSrvElementFromCommit c with _ | element
    · rw [filterMap_cons_none hc]
      rfl
    · rw [filterMap_cons_some hc, flatten_cons, bytesOf_append]
      rfl

lemma srvElement_take {c : SrCommit} (hfpr : FingerprintOk c) (hc : commitHasRevealValue c = true) :
    (srvElement c).take (2 * digestLen) = bytesOf (base16Encode c.rsaIdentity)
      ∧ 2 * digestLen ≤ (srvElement c).length := by
  have hlen : (bytesOf (base16Encode c.rsaIdentity)).length = 2 * digestLen := by
    rw [bytesOf_length, base16Encode_length, hfpr.2]
  have helem : srvElement c = bytesOf (base16Encode c.rsaIdentity) ++ bytesOf c.encodedReveal := by
    simp [srvElement, getSrvElementFromCommit, hc, hfpr.1, bytesOf_append]
  rw [helem]
  refine ⟨take_left' hlen, ?_⟩
  rw [length_append]
  omega

variable (env) in
/-- **A shared reveal shows**: some order of the commits gives another text. -/
theorem srvChunks_swap_ne (hst : CommitsOk st)
    (hc : c ∈ consideredCommits trusted st) (hd : d ∈ consideredCommits trusted st)
    (hcr : commitHasRevealValue c = true) (hdr : commitHasRevealValue d = true)
    (heq : c.hashedReveal = d.hashedReveal) (hne : c ≠ d) :
    ∃ st', Reordered st st' ∧ bytesOf (srvChunks env trusted st').flatten
      ≠ bytesOf (srvChunks env trusted st).flatten := by
  obtain ⟨st', hre, hswap⟩ := exists_swapped hst hc hd
  refine ⟨st', hre, ?_⟩
  have htied : ComparisonSort.Tied compareReveal c d := fun x => by
    simp only [compareReveal, heq, and_self]
  rw [srvChunks, srvChunks, hswap, env.smartlistSort.sort_swap htied, bytesOf_chunks,
    bytesOf_chunks]
  have hfpr : ∀ x ∈ consideredCommits trusted st, FingerprintOk x := fun x hx =>
    hst.fingerprint _ x (get_eq_some.mpr (mem_considered hst hx).1)
  obtain ⟨hctake, hclen⟩ := srvElement_take (hfpr c hc) hcr
  obtain ⟨hdtake, hdlen⟩ := srvElement_take (hfpr d hd) hdr
  refine flatMap_swap_ne hclen hdlen ?_ _ (.inl (env.smartlistSort.mem_sort.mpr hc))
  rw [hctake, hdtake]
  exact fun h => hne (eq_of_identity hst hc hd (bytesOf_base16Encode_injective h))

/-! ## Agreement -/

lemma reordered_refl (st : SrState) : Reordered st st := ⟨rfl, List.Perm.refl _⟩

lemma srvMsg_inj {h h' : Bytes} {n : ℕ} {prev : Option SrSrv}
    (heq : srvMsg h n prev = srvMsg h' n prev) : h = h' := by
  unfold srvMsg at heq
  exact append_cancel_left (append_cancel_right heq)

/-- **Agreement on the shared random value.**  If the hash function separates the texts that the
commits of this state can give, every iteration order leads to one value exactly when no two
commits in the computation share a hashed reveal. -/
theorem srComputeSrv_reordered_iff (env : SrEnv) (trusted : Bytes → Bool) (st : SrState)
    (hst : CommitsOk st) (hdigest : Set.InjOn env.digest256 (srvInputs env trusted st)) :
    (∀ st', Reordered st st' → computedSrv env trusted st' = computedSrv env trusted st)
      ↔ (st.phase = .reveal → NoSharedReveal trusted st) := by
  constructor
  · intro hall hphase c hc d hd hcr hdr heq
    by_contra hne
    obtain ⟨st', hre, htext⟩ := srvChunks_swap_ne env hst hc hd hcr hdr heq hne
    have hprev : st'.previousSrv = st.previousSrv := by rw [hre.1]
    have hphase' : st'.phase = .reveal := by rw [hre.1]; exact hphase
    have hsrv := hall st' hre
    rw [computedSrv_of_valid hphase hst.valid, computedSrv_of_valid hphase'
      fun k c hk => hst.valid k c (by rwa [← get_reordered hre])] at hsrv
    simp only [generateSrv, Option.some.injEq, SrSrv.mk.injEq] at hsrv
    obtain ⟨hnum, hvalue⟩ := hsrv
    have hmsg := hdigest ⟨st', hre, .inr rfl⟩ ⟨st, reordered_refl st, .inr rfl⟩ hvalue
    rw [hnum, hprev] at hmsg
    exact htext (hdigest ⟨st', hre, .inl rfl⟩ ⟨st, reordered_refl st, .inl rfl⟩
      (srvMsg_inj hmsg))
  · intro hno st' hre
    exact computedSrv_eq_of_noSharedReveal hst hre hno

/-! ## A run that ends in a shared reveal -/

/-- A hash of 32 bytes that can be computed here. -/
def sampleDigest (bs : Bytes) : Bytes :=
  setUint digest256Len (bs.foldl (fun h b => h * 257 + b.toNat + 1) 7 % 2 ^ 256)

lemma hour_pos : 0 < 3600 := by decide

def sampleEnv : SrEnv where
  digest256 := sampleDigest
  interval := 3600
  interval_pos := hour_pos
  ourIdentity := none
  ourIdentity_length := by simp
  smartlistSort := .insertion compareReveal
    (fun a b c hab hbc => by
      simp only [compareReveal, decide_eq_true_eq] at *
      exact List.le_trans hab hbc)
    (fun a b => by
      simp only [compareReveal, decide_eq_true_eq]
      exact List.le_total _ _)

def aliceId : Bytes := List.replicate 20 1
def bobId : Bytes := List.replicate 20 2

/-- Two authorities with reveals of their own. -/
def ownRevealsState : SrState where
  validAfter := 86400 + 12 * 3600
  phase := .reveal
  nProtocolRuns := 0
  nCommitRounds := 12
  nRevealRounds := 1
  commits :=
    { entries :=
        [(aliceId, { commitNew aliceId with
            valid := true, hashedReveal := [1], encodedReveal := ['A'] }),
          (bobId, { commitNew bobId with
            valid := true, hashedReveal := [2], encodedReveal := ['B'] })]
      nodup := by decide }
  previousSrv := none
  currentSrv := none
  isSrvFresh := false

theorem srComputeSrv_reordered_iff_ownReveals :
    CommitsOk ownRevealsState ∧ ∀ st', Reordered ownRevealsState st' →
      computedSrv sampleEnv (fun _ => true) st'
        = computedSrv sampleEnv (fun _ => true) ownRevealsState := by
  have hok : CommitsOk ownRevealsState := by
    constructor
    all_goals
      intro k c hc
      rw [get_eq_some] at hc
      simp only [ownRevealsState, mem_cons, Prod.mk.injEq, not_mem_nil, or_false] at hc
      rcases hc with ⟨rfl, rfl⟩ | ⟨rfl, rfl⟩
    all_goals first | rfl | exact ⟨rfl, rfl⟩
  have hno : NoSharedReveal (fun _ => true) ownRevealsState := by
    unfold NoSharedReveal
    decide +kernel
  -- every order of the commits has the same two texts
  have hdigest : Set.InjOn sampleEnv.digest256
      (srvInputs sampleEnv (fun _ => true) ownRevealsState) := by
    rintro m ⟨st', hre, hm⟩ m' ⟨st'', hre', hm'⟩ heq
    rw [srvChunks_eq_of_noSharedReveal hre hno, show st'.previousSrv = none by rw [hre.1]; rfl] at hm
    rw [srvChunks_eq_of_noSharedReveal hre' hno, show st''.previousSrv = none by rw [hre'.1]; rfl]
      at hm'
    rcases hm with rfl | rfl <;> rcases hm' with rfl | rfl
    · rfl
    · exact absurd heq (by decide +kernel)
    · exact absurd heq (by decide +kernel)
    · rfl
  exact ⟨hok, (srComputeSrv_reordered_iff _ _ _ hok hdigest).mpr fun _ => hno⟩

/-- The reveal, and the commitment to it, that both authorities send. -/
def sampleReveal : List Char := base64Encode (setUint 8 86400 ++ List.replicate 32 5)
def sampleCommit : List Char :=
  base64Encode (setUint 8 86400 ++ sampleDigest (bytesOf sampleReveal))

def commitLine (id : Bytes) (values : List (List Char)) : List (List Char) :=
  ["1".toList, "sha3-256".toList, base16Encode id] ++ values

/-- Both authorities commit to one value in the commit phase, and reveal it in the reveal phase. -/
def sharedRevealRun : List SrEvent :=
  [ .vote (fun _ => true) (some aliceId) [commitLine aliceId [sampleCommit]],
    .vote (fun _ => true) (some bobId) [commitLine bobId [sampleCommit]],
    .update (fun _ => true) (86400 + 12 * 3600) [],
    .vote (fun _ => true) (some aliceId) [commitLine aliceId [sampleCommit, sampleReveal]],
    .vote (fun _ => true) (some bobId) [commitLine bobId [sampleCommit, sampleReveal]] ]

/-- The end of that run. -/
def sharedRevealState : Option SrState :=
  (srStateInit sampleEnv (fun _ => true) 86000 86400 []).bind fun st =>
    sharedRevealRun.foldlM (srStep sampleEnv) st

/-- The same bindings, last first. -/
def reverseCommits (st : SrState) : SrState :=
  { st with commits :=
      { entries := st.commits.entries.reverse
        nodup := by
          rw [map_reverse, nodup_reverse]
          exact st.commits.nodup } }

theorem sharedReveal_disagree :
    ∃ st, sharedRevealState = some st ∧ Reordered st (reverseCommits st)
      ∧ computedSrv sampleEnv (fun _ => true) (reverseCommits st)
        ≠ computedSrv sampleEnv (fun _ => true) st := by
  have hsome : sharedRevealState.isSome = true := by decide +kernel
  obtain ⟨st, hst⟩ := Option.isSome_iff_exists.mp hsome
  refine ⟨st, hst, ⟨rfl, reverse_perm _⟩, ?_⟩
  have hne : sharedRevealState.map (fun st => computedSrv sampleEnv (fun _ => true)
      (reverseCommits st)) ≠ sharedRevealState.map (computedSrv sampleEnv (fun _ => true)) := by
    decide +kernel
  rw [hst] at hne
  simpa using hne

end Ator.SharedRandom
