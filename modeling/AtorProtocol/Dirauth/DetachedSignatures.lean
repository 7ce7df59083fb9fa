import AtorProtocol.SharedRandom.Commit

/-!
# Detached signatures

`networkstatus_add_detached_signatures` of `src/feature/dirauth/dirvote.c`, with the check of a
signature of `src/feature/nodelist/networkstatus.c` and the certificates of
`src/feature/nodelist/authcert.c`.

* `networkstatusCheckDocumentSignature` — a signature is marked good or bad.
* `addSignature` — what one signature does to its voter.
* `networkstatusAddDetachedSignatures` — what a document does to a consensus.
* `ParsedConsensus` — a consensus as the parser leaves it.
-/

namespace Ator.Dirauth

open Ator.SharedRandom
open scoped Text

structure DocumentSignature where
  identityDigest : Bytes
  signingKeyDigest : Bytes
  alg : DigestAlgorithm
  signature : Bytes
  badSignature : Bool
  goodSignature : Bool
  deriving DecidableEq

/-- `networkstatus_voter_info_t` -/
structure VoterInfo where
  identityDigest : Bytes
  sigs : List DocumentSignature
  deriving DecidableEq

inductive ConsensusFlavor where
  | ns
  | microdesc
  deriving DecidableEq

def networkstatusGetFlavorName : ConsensusFlavor → List Char
  | .ns => "ns".toList
  | .microdesc => "microdesc".toList

/-- A `networkstatus_t` of a consensus.  `digests.d` has entries for SHA1 and SHA256; for another
algorithm a signature is compared with what lies behind them. -/
structure NetworkStatus where
  flavor : ConsensusFlavor
  validAfter : ℤ
  freshUntil : ℤ
  validUntil : ℤ
  digests : DigestAlgorithm → Bytes
  voters : List VoterInfo

/-- `ns_detached_signatures_t`; the maps are by the name of a flavor. -/
structure NsDetachedSignatures where
  validAfter : ℤ
  freshUntil : ℤ
  validUntil : ℤ
  digests : List Char → Option (DigestAlgorithm → Bytes)
  signatures : List Char → Option (List DocumentSignature)

structure AuthorityCert (Key : Type*) where
  identityDigest : Bytes
  signingKeyDigest : Bytes
  signingKey : Key

/-- `crypto_pk_get_digest`, and the digest that `crypto_pk_public_checksig` finds in a signature. -/
structure PublicKeys (Key : Type*) where
  getDigest : Key → Option Bytes
  publicChecksig : Key → Bytes → Option Bytes

/-- The algorithms below `N_COMMON_DIGEST_ALGORITHMS`. -/
def commonDigestAlgorithms : List DigestAlgorithm := [.sha1, .sha256]

def badSigningKeys : List (List Char) :=
  ["09CD84F751FD6E955E0F8ADB497D5401470D697E".toList,
   "0E7E9C07F0969D0468AD741E172A6109DC289F3C".toList,
   "57B85409891D3FB32137F642FDEDF8B7F8CDFDCD".toList,
   "87326329007AF781F587AF5B594E540B2B6C7630".toList,
   "98CC82342DE8D298CF99D3F1A396475901E0D38E".toList,
   "9904B52336713A5ADCB13E4FB14DC919E0D45571".toList,
   "9DCD8E3F1DD1597E2AD476BBA28A1A89F3095227".toList,
   "A61682F34B9BB9694AC98491FE1ABBFE61923941".toList,
   "B59F6E99C575113650C99F1C425BA7B20A8C071D".toList,
   "D27178388FA75B96D37FA36E0B015227DDDBDA51".toList]

section

variable {Key : Type*}

def authorityCertIsDenylisted (cert : AuthorityCert Key) : Bool :=
  base16Encode cert.signingKeyDigest ∈ badSigningKeys

def authorityCertGetByDigests (certs : List (AuthorityCert Key)) (idDigest skDigest : Bytes) :
    Option (AuthorityCert Key) :=
  certs.find? fun cert => cert.identityDigest = idDigest ∧ cert.signingKeyDigest = skDigest

/-- `networkstatus_check_document_signature`: the signature with its flags. -/
def networkstatusCheckDocumentSignature (pk : PublicKeys Key) (digests : DigestAlgorithm → Bytes)
    (sig : DocumentSignature) (cert : AuthorityCert Key) : DocumentSignature :=
  let dlen := if sig.alg = .sha1 then digestLen else digest256Len
  match pk.getDigest cert.signingKey with
  | none => sig
  | some keyDigest =>
    if sig.signingKeyDigest ≠ keyDigest ∨ sig.identityDigest ≠ cert.identityDigest then sig
    else if authorityCertIsDenylisted cert then { sig with badSignature := true }
    else
      match pk.publicChecksig cert.signingKey sig.signature with
      | none => { sig with badSignature := true }
      | some signedDigest =>
        if signedDigest.length < dlen ∨ signedDigest.take dlen ≠ (digests sig.alg).take dlen then
          { sig with badSignature := true }
        else { sig with goodSignature := true }

/-- What signatures are checked with: the cryptography, and the certificates that we have. -/
structure Verifier (Key : Type*) where
  pk : PublicKeys Key
  certs : List (AuthorityCert Key)

/-- A signature that was not checked is checked if we have the certificate. -/
def Verifier.checked (V : Verifier Key) (digests : DigestAlgorithm → Bytes)
    (sig : DocumentSignature) : DocumentSignature :=
  if ¬ sig.goodSignature ∧ ¬ sig.badSignature then
    match authorityCertGetByDigests V.certs sig.identityDigest sig.signingKeyDigest with
    | none => sig
    | some cert => networkstatusCheckDocumentSignature V.pk digests sig cert
  else sig

def networkstatusGetVoterSigByAlg (voter : VoterInfo) (alg : DigestAlgorithm) :
    Option DocumentSignature :=
  voter.sigs.find? (·.alg = alg)

/-- `smartlist_remove` of the first signature with an algorithm: the last one takes its place. -/
def removeSig (alg : DigestAlgorithm) : List DocumentSignature → List DocumentSignature
  | [] => []
  | sig :: rest =>
    if sig.alg = alg then
      match rest.getLast? with
      | none => []
      | some last => last :: rest.dropLast
    else sig :: removeSig alg rest

/-- What the loop of `networkstatus_add_detached_signatures` does with a signature of a voter;
`none` where it is not added. -/
def addSignature (V : Verifier Key) (digests : DigestAlgorithm → Bytes) (voter : VoterInfo)
    (sig : DocumentSignature) : Option VoterInfo :=
  let checked := V.checked digests sig
  match networkstatusGetVoterSigByAlg voter sig.alg with
  | none => some { voter with sigs := voter.sigs ++ [checked] }
  | some oldSig =>
    if oldSig.goodSignature then none
    else if checked.goodSignature ∨ oldSig.badSignature then
      some { voter with sigs := removeSig sig.alg voter.sigs ++ [checked] }
    else none

/-- The voter of a signature, as `networkstatus_get_voter_by_id` finds it, gets the signature;
`none` where nothing is added. -/
def addToVoters (V : Verifier Key) (digests : DigestAlgorithm → Bytes) (sig : DocumentSignature) :
    List VoterInfo → Option (List VoterInfo)
  | [] => none
  | voter :: rest =>
    if voter.identityDigest = sig.identityDigest then
      (addSignature V digests voter sig).map (· :: rest)
    else (addToVoters V digests sig rest).map (voter :: ·)

/-- The loop of `networkstatus_add_detached_signatures`, which counts what it adds. -/
def addSignatures (V : Verifier Key) (digests : DigestAlgorithm → Bytes) :
    List DocumentSignature → ℕ → List VoterInfo → ℕ × List VoterInfo
  | [], r, voters => (r, voters)
  | sig :: siglist, r, voters =>
    match addToVoters V digests sig voters with
    | none => addSignatures V digests siglist r voters
    | some voters => addSignatures V digests siglist (r + 1) voters

/-- `!fast_mem_is_zero(digests->d[alg], DIGEST256_LEN)` -/
def hasDigest (digests : DigestAlgorithm → Bytes) (alg : DigestAlgorithm) : Bool :=
  (digests alg).any (· ≠ 0)

/-- The result of `networkstatus_add_detached_signatures`. -/
structure AddResult where
  r : ℤ
  msgOut : Option (List Char)
  target : NetworkStatus

/-- `networkstatus_add_detached_signatures`.  Where no digest is recognized a message is set, and
the loop is run. -/
def networkstatusAddDetachedSignatures (V : Verifier Key) (target : NetworkStatus)
    (sigs : NsDetachedSignatures) : AddResult :=
  let flavor := networkstatusGetFlavorName target.flavor
  if target.validAfter ≠ sigs.validAfter then
    ⟨-1, some ("Valid-After times do not match ".toList ++
      "when adding detached signatures to consensus".toList), target⟩
  else if target.freshUntil ≠ sigs.freshUntil then
    ⟨-1, some ("Fresh-until times do not match ".toList ++
      "when adding detached signatures to consensus".toList), target⟩
  else if target.validUntil ≠ sigs.validUntil then
    ⟨-1, some ("Valid-until times do not match ".toList ++
      "when adding detached signatures to consensus".toList), target⟩
  else
    match sigs.signatures flavor with
    | none => ⟨-1, some "No signatures for given consensus flavor".toList, target⟩
    | some siglist =>
      match sigs.digests flavor with
      | none => ⟨-1, some "No digests for given consensus flavor".toList, target⟩
      | some digests =>
        let known := commonDigestAlgorithms.filter (hasDigest digests)
        if known.any fun alg => target.digests alg ≠ digests alg then
          ⟨-1, some "Mismatched digest.".toList, target⟩
        else
          let result := addSignatures V target.digests siglist 0 target.voters
          ⟨result.1,
            if known = [] then some "No recognized digests for given consensus flavor".toList
            else none,
            { target with voters := result.2 }⟩

/-- A consensus as the parser leaves it: of two signatures of one voter with one algorithm it
keeps the first. -/
structure ParsedConsensus extends NetworkStatus where
  sigsUnique : ∀ voter ∈ voters, (voter.sigs.map (·.alg)).Nodup

/-- The documents are applied one after the other. -/
def applyDocuments (V : Verifier Key) (target : NetworkStatus)
    (documents : List NsDetachedSignatures) : NetworkStatus :=
  documents.foldl
    (fun target sigs => (networkstatusAddDetachedSignatures V target sigs).target) target

end

end Ator.Dirauth
