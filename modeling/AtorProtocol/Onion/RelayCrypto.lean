import AtorProtocol.Encoding.Binascii
import AtorProtocol.Onion.RelayCell

/-!
# Relay crypto

The stream ciphers and the running digests of a hop, and the functions of
`src/core/crypto/relay_crypto.c` that apply them to a cell.

* `Primitives` — the keystream and the hash.  Of these only that they are functions is used.
* `decryptLayer` — a layer is removed, and the result is checked; `decryptLayer_of_not_matches`
  and `decryptLayer_of_setDigest` are all that the check can do.
* `relayEncryptCellOutbound`, `relayDecryptCellIn` — the loops of the client over its hops.
-/

namespace Ator.Onion

open Function

/-- `digest_algorithm_t`, as far as the hops use it. -/
inductive DigestAlgorithm where
  | sha1
  | sha3_256
deriving DecidableEq

/-- The crypto library: the byte of the keystream of a key at a position, and the first four bytes
of a hash. -/
structure Primitives where
  keystream : Bytes → ℕ → UInt8
  hash : DigestAlgorithm → Bytes → Integrity

/-- `crypto_cipher_t`: the key, and how many bytes of keystream have been used. -/
structure CryptoCipher where
  key : Bytes
  pos : ℕ
deriving DecidableEq

/-- `crypto_digest_t`: what has been added to the digest. -/
structure CryptoDigest where
  algorithm : DigestAlgorithm
  added : Bytes
deriving DecidableEq

structure RelayCrypto where
  fCrypto : CryptoCipher
  bCrypto : CryptoCipher
  fDigest : CryptoDigest
  bDigest : CryptoDigest
deriving DecidableEq

/-! ## Key material -/

/-- The key material of a hop, of the size that `relay_crypto_init` asks for: two digest seeds and
two keys. -/
structure KeyMaterial where
  keyData : Bytes
  isHsV3 : Bool
  length_eq : keyData.length = if isHsV3 then 2 * 32 + 2 * 32 else 2 * 20 + 2 * 16

/-- `relay_crypto_init` with `reverse` off. -/
def relayCryptoInit (keys : KeyMaterial) : RelayCrypto :=
  let algorithm : DigestAlgorithm := if keys.isHsV3 then .sha3_256 else .sha1
  let digestLen := if keys.isHsV3 then 32 else 20
  let cipherKeyLen := if keys.isHsV3 then 32 else 16
  { fDigest := ⟨algorithm, keys.keyData.take digestLen⟩
    bDigest := ⟨algorithm, (keys.keyData.drop digestLen).take digestLen⟩
    fCrypto := ⟨(keys.keyData.drop (2 * digestLen)).take cipherKeyLen, 0⟩
    bCrypto := ⟨(keys.keyData.drop (2 * digestLen + cipherKeyLen)).take cipherKeyLen, 0⟩ }

/-! ## One cipher, one digest -/

/-- The bytes that a cell adds to a digest. -/
def Payload.bytes (p : Payload) : Bytes := List.ofFn p

/-- `crypto_digest_add_bytes(digest, cell->payload, CELL_PAYLOAD_SIZE)` -/
def CryptoDigest.add (digest : CryptoDigest) (p : Payload) : CryptoDigest :=
  { digest with added := digest.added ++ p.bytes }

/-- The cipher after a payload. -/
def CryptoCipher.advance (cipher : CryptoCipher) : CryptoCipher :=
  { cipher with pos := cipher.pos + 509 }

variable (prim : Primitives)

/-- `crypto_digest_get_digest(digest, out, 4)` -/
def CryptoDigest.get (digest : CryptoDigest) : Integrity := prim.hash digest.algorithm digest.added

/-- What `relay_crypt_one_payload` makes of a payload. -/
def CryptoCipher.crypt (cipher : CryptoCipher) (p : Payload) : Payload := fun i =>
  p i ^^^ prim.keystream cipher.key (cipher.pos + i)

def relayCryptOnePayload (cipher : CryptoCipher) (p : Payload) : CryptoCipher × Payload :=
  (cipher.advance, cipher.crypt prim p)

/-- The same keystream undoes itself. -/
@[simp] lemma crypt_crypt (cipher : CryptoCipher) (p : Payload) :
    cipher.crypt prim (cipher.crypt prim p) = p := by
  funext i
  simp only [CryptoCipher.crypt, UInt8.xor_assoc, UInt8.xor_self, UInt8.xor_zero]

def relaySetDigest (digest : CryptoDigest) (cell : Payload) : CryptoDigest × Payload :=
  let digest := digest.add cell
  (digest, cell.setIntegrity (digest.get prim))

/-- `relay_digest_matches`; the digest and the cell are as before when they do not match. -/
def relayDigestMatches (digest : CryptoDigest) (cell : Payload) : Bool × CryptoDigest × Payload :=
  let backupDigest := digest
  let rh := relayHeaderUnpack cell
  let receivedIntegrity := rh.integrity
  let cell := relayHeaderPack cell { rh with integrity := 0 }
  let digest := digest.add cell
  let calculatedIntegrity := digest.get prim
  if calculatedIntegrity ≠ receivedIntegrity then
    (false, backupDigest, relayHeaderPack cell { rh with integrity := receivedIntegrity })
  else (true, digest, cell)

/-- The zero field and the digest of a cell that is for us. -/
def Matches (digest : CryptoDigest) (cell : Payload) : Prop :=
  (relayHeaderUnpack cell).recognized = 0
    ∧ (digest.add (cell.setIntegrity 0)).get prim = (relayHeaderUnpack cell).integrity

/-- Decrypt one layer, and check whether the cell is recognized. -/
def decryptLayer (cipher : CryptoCipher) (digest : CryptoDigest) (cell : Payload) :
    Bool × CryptoCipher × CryptoDigest × Payload :=
  let crypted := relayCryptOnePayload prim cipher cell
  if (relayHeaderUnpack crypted.2).recognized = 0 then
    let result := relayDigestMatches prim digest crypted.2
    (result.1, crypted.1, result.2)
  else (false, crypted.1, digest, crypted.2)

lemma decryptLayer_eq (cipher : CryptoCipher) (digest : CryptoDigest) (cell : Payload) :
    decryptLayer prim cipher digest cell
      = if (relayHeaderUnpack (cipher.crypt prim cell)).recognized = 0 then
          ((relayDigestMatches prim digest (cipher.crypt prim cell)).1, cipher.advance,
            (relayDigestMatches prim digest (cipher.crypt prim cell)).2)
        else (false, cipher.advance, digest, cipher.crypt prim cell) := rfl

variable {prim} {cell : Payload} {digest : CryptoDigest}

lemma relayDigestMatches_of_ne
    (h : (digest.add (cell.setIntegrity 0)).get prim ≠ (relayHeaderUnpack cell).integrity) :
    relayDigestMatches prim digest cell = (false, digest, cell) := by
  rw [Payload.setIntegrity] at h
  simp only [relayDigestMatches]
  rw [if_pos h, relayHeaderPack_pack, relayHeaderPack_unpack]

lemma relayDigestMatches_of_eq
    (h : (digest.add (cell.setIntegrity 0)).get prim = (relayHeaderUnpack cell).integrity) :
    relayDigestMatches prim digest cell
      = (true, digest.add (cell.setIntegrity 0), cell.setIntegrity 0) := by
  rw [Payload.setIntegrity] at h
  simp only [relayDigestMatches]
  rw [if_neg (not_not.mpr h)]
  rfl

/-- **A cell for another hop** only loses its layer. -/
lemma decryptLayer_of_not_matches {cipher : CryptoCipher}
    (h : ¬ Matches prim digest (cipher.crypt prim cell)) :
    decryptLayer prim cipher digest cell
      = (false, cipher.advance, digest, cipher.crypt prim cell) := by
  rw [decryptLayer_eq]
  split_ifs with hrec
  · rw [relayDigestMatches_of_ne fun heq => h ⟨hrec, heq⟩]
  · rfl

/-- **A cell whose digest was set with the same history** is recognized, and its payload is the
one that was packed. -/
lemma decryptLayer_of_setDigest {cipher : CryptoCipher}
    {p : FreshPayload} (h : cipher.crypt prim cell = (relaySetDigest prim digest p.payload).2) :
    decryptLayer prim cipher digest cell
      = (true, cipher.advance, digest.add p.payload, p.payload) := by
  have hrec : (relayHeaderUnpack (cipher.crypt prim cell)).recognized = 0 := by
    rw [h, relaySetDigest, recognized_setIntegrity, p.recognized_eq]
  have hzero : (cipher.crypt prim cell).setIntegrity 0 = p.payload := by
    rw [h, relaySetDigest, p.setIntegrity_zero]
  have hmatch : (digest.add ((cipher.crypt prim cell).setIntegrity 0)).get prim
      = (relayHeaderUnpack (cipher.crypt prim cell)).integrity := by
    rw [hzero, h, relaySetDigest, integrity_setIntegrity]
  rw [decryptLayer_eq, if_pos hrec, relayDigestMatches_of_eq hmatch, hzero]

/-! ## The client and the relays -/

/-- `circ->cpath`, by the number of the hop. -/
abbrev Cpath := ℕ → RelayCrypto

variable (prim)

/-- `cpath_crypt_cell(thishop, cell->payload, false)` -/
def cpathEncrypt (cpath : Cpath) (thishop : ℕ) (cell : Payload) : Cpath × Payload :=
  let crypted := relayCryptOnePayload prim (cpath thishop).fCrypto cell
  (update cpath thishop { cpath thishop with fCrypto := crypted.1 }, crypted.2)

/-- The loop of `relay_encrypt_cell_outbound`, moving from the farthest to the nearest hop. -/
def encryptLayers : ℕ → Cpath → Payload → Cpath × Payload
  | 0, cpath, cell => cpathEncrypt prim cpath 0 cell
  | thishop + 1, cpath, cell =>
    let crypted := cpathEncrypt prim cpath (thishop + 1) cell
    encryptLayers thishop crypted.1 crypted.2

def relayEncryptCellOutbound (cpath : Cpath) (layerHint : ℕ) (cell : Payload) : Cpath × Payload :=
  let digested := relaySetDigest prim (cpath layerHint).fDigest cell
  encryptLayers prim layerHint
    (update cpath layerHint { cpath layerHint with fDigest := digested.1 }) digested.2

def relayEncryptCellInbound (crypto : RelayCrypto) (cell : Payload) : RelayCrypto × Payload :=
  let digested := relaySetDigest prim crypto.bDigest cell
  let crypted := relayCryptOnePayload prim crypto.bCrypto digested.2
  ({ crypto with bDigest := digested.1, bCrypto := crypted.1 }, crypted.2)

/-- `relay_decrypt_cell` of a cell that leaves the client, at a relay. -/
def relayDecryptCellOut (crypto : RelayCrypto) (cell : Payload) : Bool × RelayCrypto × Payload :=
  let result := decryptLayer prim crypto.fCrypto crypto.fDigest cell
  (result.1, { crypto with fCrypto := result.2.1, fDigest := result.2.2.1 }, result.2.2.2)

/-- `relay_decrypt_cell` of a cell on the way to the client, at a relay: one more layer. -/
def relayDecryptCellMiddle (crypto : RelayCrypto) (cell : Payload) : RelayCrypto × Payload :=
  let crypted := relayCryptOnePayload prim crypto.bCrypto cell
  ({ crypto with bCrypto := crypted.1 }, crypted.2)

/-- The loop of `relay_decrypt_cell` at the client, with `left` hops to go: the hop that the cell
was recognized with, or `none` for -1. -/
def decryptLayers : ℕ → ℕ → Cpath → Payload → Option (ℕ × Cpath × Payload)
  | 0, _, _, _ => none
  | left + 1, thishop, cpath, cell =>
    let result := decryptLayer prim (cpath thishop).bCrypto (cpath thishop).bDigest cell
    let cpath := update cpath thishop
      { cpath thishop with bCrypto := result.2.1, bDigest := result.2.2.1 }
    if result.1 then some (thishop, cpath, result.2.2.2)
    else decryptLayers left (thishop + 1) cpath result.2.2.2

/-- `relay_decrypt_cell` at the client. -/
def relayDecryptCellIn (hops : ℕ) (cpath : Cpath) (cell : Payload) :
    Option (ℕ × Cpath × Payload) :=
  decryptLayers prim hops 0 cpath cell

/-! ## Layers -/

/-- A cell without its first `n` layers. -/
def removeLayers (cipher : ℕ → CryptoCipher) : ℕ → Payload → Payload
  | 0, cell => cell
  | n + 1, cell => (cipher n).crypt prim (removeLayers cipher n cell)

variable {prim}

lemma removeLayers_congr {cipher : ℕ → CryptoCipher} (cipher' : ℕ → CryptoCipher) :
    ∀ {n : ℕ}, (∀ i < n, cipher i = cipher' i) →
      removeLayers prim cipher n cell = removeLayers prim cipher' n cell
  | 0, _ => rfl
  | n + 1, h => by
      rw [removeLayers, removeLayers, h n n.lt_succ_self,
        removeLayers_congr cipher' fun i hi => h i (hi.trans n.lt_succ_self)]
lemma removeLayers_encryptLayers : ∀ (hop : ℕ) (cpath : Cpath) (cell : Payload),
    removeLayers prim (fun i => (cpath i).fCrypto) (hop + 1) (encryptLayers prim hop cpath cell).2
      = cell
  | 0, cpath, cell => crypt_crypt prim _ cell
  | hop + 1, cpath, cell => by
      have ih := removeLayers_encryptLayers hop (cpathEncrypt prim cpath (hop + 1) cell).1
        (cpathEncrypt prim cpath (hop + 1) cell).2
      rw [removeLayers, encryptLayers, removeLayers_congr (fun i =>
        ((cpathEncrypt prim cpath (hop + 1) cell).1 i).fCrypto), ih]
      · exact crypt_crypt prim _ cell
      · intro i hi
        simp only [cpathEncrypt]
        rw [update_of_ne hi.ne]

/-- A hop of the client after a cell has been encrypted for it. -/
def RelayCrypto.advanceF (crypto : RelayCrypto) : RelayCrypto :=
  { crypto with fCrypto := crypto.fCrypto.advance }

lemma encryptLayers_cpath : ∀ (hop : ℕ) (cpath : Cpath) (cell : Payload) (i : ℕ),
    (encryptLayers prim hop cpath cell).1 i = if i ≤ hop then (cpath i).advanceF else cpath i
  | 0, cpath, cell, i => by
      simp only [encryptLayers, cpathEncrypt, Nat.le_zero]
      split_ifs with h
      · subst h
        rw [update_self]
        rfl
      · rw [update_of_ne h]
  | hop + 1, cpath, cell, i => by
      rw [encryptLayers, encryptLayers_cpath hop]
      simp only [cpathEncrypt]
      by_cases hi : i = hop + 1
      · subst hi
        rw [if_neg (by omega), if_pos le_rfl, update_self]
        rfl
      · rw [update_of_ne hi]
        exact if_congr (by omega) rfl rfl

/-- **The client's loop stops at the hop whose digest matches**, if no hop before it does. -/
lemma decryptLayers_of_setDigest {p : FreshPayload} {hop : ℕ} {cpath : Cpath}
    (hno : ∀ i < hop, ¬ Matches prim (cpath i).bDigest
      (removeLayers prim (fun i => (cpath i).bCrypto) (i + 1) cell))
    (hmatch : removeLayers prim (fun i => (cpath i).bCrypto) (hop + 1) cell
      = (relaySetDigest prim (cpath hop).bDigest p.payload).2) :
    ∀ (left thishop : ℕ) (now : Cpath), thishop ≤ hop → hop < thishop + left →
      (∀ i, thishop ≤ i → now i = cpath i) →
      ∃ cpath', decryptLayers prim left thishop now
          (removeLayers prim (fun i => (cpath i).bCrypto) thishop cell)
            = some (hop, cpath', p.payload)
        ∧ ∀ i, cpath' i = if thishop ≤ i ∧ i ≤ hop then
            { now i with bCrypto := (now i).bCrypto.advance
                         bDigest := if i = hop then (now i).bDigest.add p.payload
                                    else (now i).bDigest }
          else now i
  | 0, thishop, now, hle, hlt, _ => by omega
  | left + 1, thishop, now, hle, hlt, hnow => by
      rw [decryptLayers, hnow thishop le_rfl]
      rcases hle.eq_or_lt with rfl | hlt'
      · rw [decryptLayer_of_setDigest hmatch, if_pos rfl]
        refine ⟨_, rfl, fun i => ?_⟩
        by_cases hi : i = thishop
        · subst hi
          simp [hnow i le_rfl]
        · rw [update_of_ne hi, if_neg (by omega)]
      · rw [decryptLayer_of_not_matches (hno thishop hlt')]
        obtain ⟨cpath', hdec, hpath⟩ := decryptLayers_of_setDigest hno hmatch left (thishop + 1)
          (update now thishop
            { cpath thishop with bCrypto := (cpath thishop).bCrypto.advance })
          (by omega) (by omega) (fun i hi => by
            rw [update_of_ne (by omega), hnow i (by omega)])
        refine ⟨cpath', hdec, fun i => ?_⟩
        rw [hpath]
        by_cases hi : i = thishop
        · subst hi
          rw [if_neg (by omega), if_pos ⟨le_rfl, hlt'.le⟩, update_self,
            if_neg hlt'.ne, hnow i le_rfl]
        · rw [update_of_ne hi]
          exact if_congr (by omega) rfl rfl

end Ator.Onion
