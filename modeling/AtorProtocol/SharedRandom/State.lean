import AtorProtocol.Lib.AssocMap
import AtorProtocol.Lib.Sort
import AtorProtocol.SharedRandom.Commit

/-!
# The shared-random state

`src/feature/dirauth/shared_random_state.c` and the parts of `shared_random.c` that change the
state: votes bring commits and reveals, and `sr_state_update` moves the state to the next voting
round, which now and then starts a new protocol run and computes a shared random value.

`none` is a failed `tor_assert`.

* `shouldKeepCommit`, `saveCommitToState`, `srHandleReceivedCommits` — what a vote does.
* `srComputeSrv` — the shared random value of the stored commits.
* `newProtocolRun`, `srStateUpdate` — what the clock does.
-/

namespace Ator.SharedRandom

structure SrSrv where
  numReveals : ℕ
  value : Bytes
deriving DecidableEq

structure SrState where
  validAfter : ℕ
  phase : SrPhase
  nProtocolRuns : ℕ
  nCommitRounds : ℕ
  nRevealRounds : ℕ
  commits : AssocMap Bytes SrCommit
  previousSrv : Option SrSrv
  currentSrv : Option SrSrv
  isSrvFresh : Bool

/-- `compare_reveal_`: not greater, byte by byte. -/
def compareReveal (a b : SrCommit) : Bool := decide (a.hashedReveal ≤ b.hashedReveal)

/-- What the state machine takes from outside: the hash function, `get_voting_interval()`, the
digest of our identity key, and the sort of the C library. -/
structure SrEnv where
  digest256 : Bytes → Bytes
  interval : ℕ
  interval_pos : 0 < interval
  ourIdentity : Option Bytes
  ourIdentity_length : ∀ digest ∈ ourIdentity, digest.length = digestLen
  smartlistSort : ComparisonSort compareReveal

/-! ## Phases -/

def sharedRandomNRounds : ℕ := 12

def sharedRandomNPhases : ℕ := 2

def getSrProtocolPhase (env : SrEnv) (validAfter : ℕ) : SrPhase :=
  let totalPeriods := sharedRandomNRounds * sharedRandomNPhases
  let currentSlot := (validAfter / env.interval) % totalPeriods
  if currentSlot < sharedRandomNRounds then .commit else .reveal

def stateNew (env : SrEnv) (now : ℕ) : SrState where
  validAfter := 0
  phase := getSrProtocolPhase env now
  nProtocolRuns := 0
  nCommitRounds := 0
  nRevealRounds := 0
  commits := ∅
  previousSrv := none
  currentSrv := none
  isSrvFresh := false

/-! ## Votes -/

variable (env : SrEnv) (trusted : Bytes → Bool)

/-- `trusted` is `trusteddirserver_get_by_v3_auth_digest(..) != NULL`. -/
def shouldKeepCommit (st : SrState) (commit : SrCommit) (voterKey : Bytes) (phase : SrPhase) :
    Bool :=
  if ¬ commitIsAuthoritative commit voterKey then false else
  if ¬ trusted commit.rsaIdentity then false else
  match phase with
  | .commit =>
    match st.commits.get commit.rsaIdentity with
    | some _ => false
    | none => if commitHasRevealValue commit then false else true
  | .reveal =>
    match st.commits.get commit.rsaIdentity with
    | none => false
    | some savedCommit =>
      if ¬ commitmentsAreTheSame commit savedCommit then false else
      if commitHasRevealValue savedCommit then false else
      if ¬ commitHasRevealValue commit then false else
      if ¬ verifyCommitAndReveal env.digest256 commit then false else true

def srStateAddCommit (st : SrState) (commit : SrCommit) : SrState :=
  { st with commits := st.commits.set commit.rsaIdentity commit }

/-- `sr_state_copy_reveal_info`, on the commit in the state. -/
def srStateCopyRevealInfo (commit savedCommit : SrCommit) : SrCommit :=
  { savedCommit with
    revealTs := commit.revealTs
    randomNumber := commit.randomNumber
    encodedReveal := commit.encodedReveal }

def saveCommitDuringRevealPhase (st : SrState) (commit : SrCommit) : Option SrState :=
  match st.commits.get commit.rsaIdentity with
  | none => none
  | some savedCommit =>
    if ¬ commitmentsAreTheSame commit savedCommit then none else
    some { st with
      commits := st.commits.modify commit.rsaIdentity (srStateCopyRevealInfo commit) }

def saveCommitToState (st : SrState) (commit : SrCommit) : Option SrState :=
  if ¬ commit.valid then none else
  match st.phase with
  | .commit => some (srStateAddCommit st commit)
  | .reveal => saveCommitDuringRevealPhase st commit

/-- The body of the loop of `sr_handle_received_commits`. -/
def handleReceivedCommit (voterKey : Bytes) (st : SrState) (commit : SrCommit) : Option SrState :=
  if ¬ shouldKeepCommit env trusted st commit voterKey st.phase then some st else
  saveCommitToState st { commit with valid := true }

/-- The order of a loop that starts with `SMARTLIST_DEL_CURRENT`: `smartlist_del` moves the last
element into the slot it frees, and the loop reads that slot next. -/
def delCurrentOrder : List SrCommit → List SrCommit
  | [] => []
  | commit :: commits => commit :: commits.reverse

/-- `voterKey` is the digest of the voter's key, `none` if it has none. -/
def srHandleReceivedCommits (st : SrState) (commits : List SrCommit) (voterKey : Option Bytes) :
    Option SrState :=
  match voterKey with
  | none => some st
  | some rsaIdentity =>
    (delCurrentOrder commits).foldlM (handleReceivedCommit env trusted rsaIdentity) st

/-! ## The shared random value -/

def getSrvElementFromCommit (commit : SrCommit) : Option (List Char) :=
  if ¬ commitHasRevealValue commit then none
  else some (commit.rsaIdentityHex ++ commit.encodedReveal)

/-- The message that `generate_srv` hashes. -/
def srvMsg (hashedReveals : Bytes) (revealNum : ℕ) (previousSrv : Option SrSrv) : Bytes :=
  bytesOf "shared-random".toList ++ setUint 8 revealNum ++ setUint 4 srProtoVersion
    ++ hashedReveals ++ (match previousSrv with
      | none => List.replicate digest256Len 0
      | some srv => srv.value)

def generateSrv (hashedReveals : Bytes) (revealNum : ℕ) (previousSrv : Option SrSrv) : SrSrv where
  numReveals := revealNum
  value := env.digest256 (srvMsg hashedReveals revealNum previousSrv)

/-- The commits of recognized authorities, in iteration order. -/
def consideredCommits (st : SrState) : List SrCommit :=
  st.commits.values.filter fun c => trusted c.rsaIdentity

/-- The elements that go into the computation, in the order of the sorted commits. -/
def srvChunks (st : SrState) : List (List Char) :=
  (env.smartlistSort.sort (consideredCommits trusted st)).filterMap getSrvElementFromCommit

def srComputeSrv (st : SrState) : Option SrState :=
  if st.phase ≠ .reveal then some st else
  if ¬ st.commits.values.all (·.valid) then none else
  let chunks := srvChunks env trusted st
  let hashedReveals := env.digest256 (bytesOf chunks.flatten)
  some { st with
    currentSrv := some (generateSrv env hashedReveals chunks.length st.previousSrv)
    isSrvFresh := true }

/-! ## The clock -/

def stateRotateSrv (st : SrState) : SrState :=
  { st with previousSrv := st.currentSrv, currentSrv := none }

def resetStateForNewProtocolRun (st : SrState) (validAfter : ℕ) : SrState :=
  { st with
    nRevealRounds := 0
    nCommitRounds := 0
    nProtocolRuns := st.nProtocolRuns + 1
    validAfter := validAfter
    commits := ∅ }

/-- The end of `new_protocol_run`, and the boot case of `sr_state_update`. -/
def addOurCommit (st : SrState) (validAfter : ℕ) (randomNumber : Bytes) : SrState :=
  match srGenerateOurCommit env.digest256 env.ourIdentity validAfter randomNumber with
  | none => st
  | some ourCommitment => srStateAddCommit st ourCommitment

def newProtocolRun (st : SrState) (validAfter : ℕ) (randomNumber : Bytes) : Option SrState :=
  let computed := if st.phase = .reveal then srComputeSrv env trusted (stateRotateSrv st)
    else some st
  computed.map fun st =>
    addOurCommit env (resetStateForNewProtocolRun st validAfter) validAfter randomNumber

def isPhaseTransition (st : SrState) (nextPhase : SrPhase) : Bool := st.phase ≠ nextPhase

/-- The middle of `sr_state_update`: enter the phase of the upcoming round. -/
def enterPhase (st : SrState) (validAfter : ℕ) (randomNumber : Bytes) : Option SrState :=
  let nextPhase := getSrProtocolPhase env validAfter
  if isPhaseTransition st nextPhase then
    let started := if nextPhase = .commit then newProtocolRun env trusted st validAfter randomNumber
      else some st
    started.map fun st => { st with phase := nextPhase }
  else if st.phase = .commit ∧ st.commits.size = 0 then
    some (addOurCommit env st validAfter randomNumber)
  else some st

/-- The end of `sr_state_update`: count the round. -/
def countRound (st : SrState) : SrState :=
  if st.phase = .commit then
    -- `BUG`: a reveal round has been counted in this run
    if st.nRevealRounds ≠ 0 then st else { st with nCommitRounds := st.nCommitRounds + 1 }
  else { st with nRevealRounds := st.nRevealRounds + 1 }

def srStateUpdate (st : SrState) (validAfter : ℕ) (randomNumber : Bytes) : Option SrState :=
  if validAfter ≤ st.validAfter then some st else
  (enterPhase env trusted st validAfter randomNumber).map fun st =>
    countRound { st with validAfter := validAfter }

/-! ## Events -/

/-- What happens to the state: a vote comes in, with the arguments of its commit lines, or the
next voting round is prepared. -/
inductive SrEvent where
  | vote (trusted : Bytes → Bool) (voterKey : Option Bytes) (commitLines : List (List (List Char)))
  | update (trusted : Bytes → Bool) (validAfter : ℕ) (randomNumber : Bytes)

def srStep (st : SrState) : SrEvent → Option SrState
  | .vote trusted voterKey commitLines =>
    srHandleReceivedCommits env trusted st (commitLines.filterMap srParseCommit) voterKey
  | .update trusted validAfter randomNumber => srStateUpdate env trusted st validAfter randomNumber

/-- `sr_state_init` without a state on disk. -/
def srStateInit (now validAfter : ℕ) (randomNumber : Bytes) : Option SrState :=
  srStateUpdate env trusted (stateNew env now) validAfter randomNumber

end Ator.SharedRandom
