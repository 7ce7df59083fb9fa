import AtorProtocol.Encoding.Binascii

/-!
# Shared-random commits

The commit objects of `src/feature/dirauth/shared_random.c`: how one is parsed from the arguments
of a `shared-rand-commit` line, how ours is generated, and how a reveal is checked against its
commitment.

`digest256` stands for `crypto_digest256` with SHA3-256, whose code is vendored.

* `srParseCommit`, `srGenerateOurCommit` — the two sources of commits.
* `verifyCommitAndReveal`, `commitHasRevealValue`, `commitmentsAreTheSame`.
* `srParseCommit_decoded` — the timestamp and the hashed reveal of a parsed commit are functions
  of its encoded commitment.
-/

namespace Ator.SharedRandom

open Option

inductive SrPhase where
  | commit
  | reveal
deriving DecidableEq

inductive DigestAlgorithm where
  | sha1
  | sha256
  | sha512
  | sha3_256
  | sha3_512
deriving DecidableEq

def srDigestAlg : DigestAlgorithm := .sha3_256

def srProtoVersion : ℕ := 1
def digestLen : ℕ := 20
def digest256Len : ℕ := 32
def srCommitLen : ℕ := 40
def srRevealLen : ℕ := 40
def srCommitBase64Len : ℕ := 56
def srRevealBase64Len : ℕ := 56

/-- `sr_commit_t`.  The encoded strings are without the NULs that fill up their buffers. -/
structure SrCommit where
  alg : DigestAlgorithm
  valid : Bool
  rsaIdentity : Bytes
  rsaIdentityHex : List Char
  revealTs : ℕ
  hashedReveal : Bytes
  encodedCommit : List Char
  randomNumber : Bytes
  commitTs : ℕ
  encodedReveal : List Char
deriving DecidableEq

/-- `crypto_digest_algorithm_parse_name` -/
def digestAlgorithmParseName (name : List Char) : Option DigestAlgorithm :=
  if name = "sha1".toList then some .sha1
  else if name = "sha256".toList then some .sha256
  else if name = "sha512".toList then some .sha512
  else if name = "sha3-256".toList then some .sha3_256
  else if name = "sha3-512".toList then some .sha3_512
  else none

def commitNew (rsaIdentity : Bytes) : SrCommit where
  alg := srDigestAlg
  valid := false
  rsaIdentity := rsaIdentity
  rsaIdentityHex := base16Encode rsaIdentity
  revealTs := 0
  hashedReveal := List.replicate digest256Len 0
  encodedCommit := []
  randomNumber := List.replicate 32 0
  commitTs := 0
  encodedReveal := []

/-! ## Encoded values -/

/-- `base64-encode( TIMESTAMP || H(REVEAL) )` -/
def commitDecode (encoded : List Char) (commit : SrCommit) : Option SrCommit :=
  if encoded.length > srCommitBase64Len then none else
  match base64Decode srCommitLen encoded with
  | none => none
  | some decoded =>
    if decoded.length ≠ srCommitLen then none else
    some { commit with
      commitTs := getUint (decoded.take 8)
      hashedReveal := decoded.drop 8
      encodedCommit := encoded }

def revealDecode (encoded : List Char) (commit : SrCommit) : Option SrCommit :=
  if encoded.length > srRevealBase64Len then none else
  match base64Decode srRevealLen encoded with
  | none => none
  | some decoded =>
    if decoded.length ≠ srRevealLen then none else
    some { commit with
      revealTs := getUint (decoded.take 8)
      randomNumber := decoded.drop 8
      encodedReveal := encoded }

def revealEncode (commit : SrCommit) : List Char :=
  base64Encode (setUint 8 commit.revealTs ++ commit.randomNumber)

def commitEncode (commit : SrCommit) : List Char :=
  base64Encode (setUint 8 commit.commitTs ++ commit.hashedReveal)

/-- The first `SR_REVEAL_BASE64_LEN` bytes of the `encoded_reveal` buffer. -/
def encodedRevealBuf (commit : SrCommit) : Bytes :=
  (bytesOf commit.encodedReveal ++ List.replicate srRevealBase64Len 0).take srRevealBase64Len

/-- `!fast_mem_is_zero(commit->encoded_reveal, ...)` -/
def commitHasRevealValue (commit : SrCommit) : Bool := !(bytesOf commit.encodedReveal).all (· == 0)

/-- `verify_commit_and_reveal(commit) == 0` -/
def verifyCommitAndReveal (digest256 : Bytes → Bytes) (commit : SrCommit) : Bool :=
  if commit.commitTs ≠ commit.revealTs then false else
  if commit.alg ≠ srDigestAlg then false else
  digest256 (encodedRevealBuf commit) == commit.hashedReveal

def commitmentsAreTheSame (commitOne commitTwo : SrCommit) : Bool :=
  commitOne.encodedCommit == commitTwo.encodedCommit

def commitIsAuthoritative (commit : SrCommit) (voterKey : Bytes) : Bool :=
  commit.rsaIdentity == voterKey

/-- The arguments are version, algname, RSA fingerprint, commit value[, reveal value]. -/
def srParseCommit : List (List Char) → Option SrCommit
  | version :: algname :: rsaIdentityFpr :: value :: rest =>
    if torParseUlongAll version 1 (2 ^ 32 - 1) % 2 ^ 32 > srProtoVersion then none else
    if digestAlgorithmParseName algname ≠ some srDigestAlg then none else
    match base16Decode digestLen rsaIdentityFpr (2 * digestLen) with
    | none => none
    | some digest =>
      match commitDecode value (commitNew digest) with
      | none => none
      | some commit =>
        match rest with
        | [] => some commit
        | reveal :: _ => revealDecode reveal commit
  | _ => none

/-- `identity` is what `crypto_pk_get_digest` makes of our identity key, `none` when it fails. -/
def srGenerateOurCommit (digest256 : Bytes → Bytes) (identity : Option Bytes) (timestamp : ℕ)
    (randomNumber : Bytes) : Option SrCommit :=
  match identity with
  | none => none
  | some digest =>
    let commit := { commitNew digest with
      randomNumber := randomNumber, commitTs := timestamp, revealTs := timestamp }
    let commit := { commit with encodedReveal := revealEncode commit }
    let commit := { commit with hashedReveal := digest256 (encodedRevealBuf commit) }
    some { commit with encodedCommit := commitEncode commit, valid := true }

/-! ## What the parser fixes -/

/-- `commit` says what its encoded commitment says. -/
def Decoded (commit : SrCommit) : Prop :=
  ∃ decoded, base64Decode srCommitLen commit.encodedCommit = some decoded
    ∧ commit.commitTs = getUint (decoded.take 8) ∧ commit.hashedReveal = decoded.drop 8

/-- The fingerprint is that of the identity. -/
def FingerprintOk (commit : SrCommit) : Prop :=
  commit.rsaIdentityHex = base16Encode commit.rsaIdentity ∧ commit.rsaIdentity.length = digestLen

lemma commitDecode_eq_some {encoded : List Char} {commit commit' : SrCommit}
    (h : commitDecode encoded commit = some commit') :
    ∃ decoded, base64Decode srCommitLen encoded = some decoded ∧ commit' = { commit with
          commitTs := getUint (decoded.take 8)
          hashedReveal := decoded.drop 8
          encodedCommit := encoded } := by
  rw [commitDecode] at h
  split_ifs at h
  split at h
  · cases h
  · next decoded hdec =>
      split_ifs at h
      exact ⟨decoded, hdec, (some.inj h).symm⟩

lemma revealDecode_eq_some {encoded : List Char} {commit commit' : SrCommit}
    (h : revealDecode encoded commit = some commit') :
    ∃ ts rn, commit' = { commit with
      revealTs := ts, randomNumber := rn, encodedReveal := encoded } := by
  rw [revealDecode] at h
  split_ifs at h
  split at h
  · cases h
  · next decoded _ =>
      split_ifs at h
      exact ⟨_, _, (some.inj h).symm⟩

lemma srParseCommit_decoded {args : List (List Char)} {commit : SrCommit}
    (h : srParseCommit args = some commit) :
    Decoded commit ∧ FingerprintOk commit ∧ commit.alg = srDigestAlg := by
  rw [srParseCommit.eq_def] at h
  split at h
  · split_ifs at h
    split at h
    · cases h
    · next digest hdigest =>
        have hlen : digest.length = digestLen := base16Decode_length hdigest
        split at h
        · cases h
        · next c hc =>
            obtain ⟨decoded, hdec, rfl⟩ := commitDecode_eq_some hc
            split at h
            · obtain rfl := some.inj h
              exact ⟨⟨decoded, hdec, rfl, rfl⟩, ⟨rfl, hlen⟩, rfl⟩
            · obtain ⟨ts, rn, rfl⟩ := revealDecode_eq_some h
              exact ⟨⟨decoded, hdec, rfl, rfl⟩, ⟨rfl, hlen⟩, rfl⟩
  · cases h

lemma Decoded.congr {c d : SrCommit} (hc : Decoded c) (hd : Decoded d)
    (h : c.encodedCommit = d.encodedCommit) :
    c.commitTs = d.commitTs ∧ c.hashedReveal = d.hashedReveal := by
  obtain ⟨x, hx, hxts, hxh⟩ := hc
  obtain ⟨y, hy, hyts, hyh⟩ := hd
  rw [h, hy, some.injEq] at hx
  subst hx
  exact ⟨hxts.trans hyts.symm, hxh.trans hyh.symm⟩

lemma srGenerateOurCommit_spec {digest256 : Bytes → Bytes} {identity : Option Bytes} {timestamp : ℕ}
    {randomNumber : Bytes} {commit : SrCommit}
    (h : srGenerateOurCommit digest256 identity timestamp randomNumber = some commit) :
    identity = some commit.rsaIdentity ∧ commit.rsaIdentityHex = base16Encode commit.rsaIdentity
      ∧ commit.valid = true ∧ verifyCommitAndReveal digest256 commit = true
      ∧ commitHasRevealValue commit = true := by
  cases identity with
  | none => cases h
  | some digest =>
    obtain rfl := some.inj h
    refine ⟨rfl, rfl, rfl, ?_, ?_⟩
    · simp [verifyCommitAndReveal, commitNew, encodedRevealBuf]
    · simp [commitHasRevealValue, revealEncode, base64Encode, setUint, bytesOf,
        base64EncodeLoop, List.range_succ, encodeN_ne_zero]

end Ator.SharedRandom
