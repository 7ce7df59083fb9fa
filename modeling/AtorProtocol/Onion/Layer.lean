import AtorProtocol.Onion.Circuit

/-!
# One layer of the onion

Each hop shares two layers with the client, one for each direction.  A layer has a sender and a
receiver, and the cells between them: all that the sender has put the layer on, and the receiver
has not yet taken it off.

* `Layer` — sender and receiver differ by the cells between them.
* `Layer.send_through`, `Layer.send_from`, `Layer.receive` — what one cell does to a layer.
* `toRelay`, `toClient` — the cells between the ends of each layer, as they will look when the
  receiver has taken off the layers before; `toRelay_send`, `toRelay_receive`, `toClient_push` and
  `toClient_receive` say that a cell which moves along changes this for the layers it passes only.
-/

namespace Ator.Onion

open List

variable {prim : Primitives}

/-! ## Cells between the ends -/

@[simp] lemma advanceBy_zero (cipher : CryptoCipher) : cipher.advanceBy 0 = cipher := rfl

lemma advance_advanceBy (cipher : CryptoCipher) (n : ℕ) :
    cipher.advance.advanceBy n = cipher.advanceBy (n + 1) := by
  simp only [CryptoCipher.advance, CryptoCipher.advanceBy, CryptoCipher.mk.injEq, true_and]
  omega

lemma advanceBy_advance (cipher : CryptoCipher) (n : ℕ) :
    (cipher.advanceBy n).advance = cipher.advanceBy (n + 1) := by
  simp only [CryptoCipher.advance, CryptoCipher.advanceBy, CryptoCipher.mk.injEq, true_and]
  omega

/-- The cipher applied to a cell on a link. -/
def InFlight.crypt (prim : Primitives) (cipher : CryptoCipher) (c : InFlight) : InFlight :=
  { c with payload := cipher.crypt prim c.payload }

@[simp] lemma InFlight.crypt_packed (cipher : CryptoCipher) (c : InFlight) :
    (c.crypt prim cipher).packed = c.packed := rfl

@[simp] lemma InFlight.crypt_crypt (cipher : CryptoCipher) (c : InFlight) :
    (c.crypt prim cipher).crypt prim cipher = c := by
  simp [InFlight.crypt]

/-- Take a layer off a sequence of cells. -/
def peel (prim : Primitives) : CryptoCipher → List InFlight → List InFlight
  | _, [] => []
  | cipher, c :: cells => c.crypt prim cipher :: peel prim cipher.advance cells

variable (prim) in
lemma peel_map_packed : ∀ (cipher : CryptoCipher) (cells : List InFlight),
    (peel prim cipher cells).map InFlight.packed = cells.map InFlight.packed
  | _, [] => rfl
  | cipher, c :: cells => by
      rw [peel, map_cons, map_cons, peel_map_packed]
      rfl

lemma filter_peel_map_packed (q : ℕ → Bool) (cipher : CryptoCipher) (cells : List InFlight) :
    ((peel prim cipher cells).filter fun c => q c.packed.hop).map InFlight.packed
      = (cells.map InFlight.packed).filter fun c => q c.hop := by
  rw [← peel_map_packed prim cipher cells, List.filter_map]
  rfl

lemma peel_concat : ∀ (cipher : CryptoCipher) (cells : List InFlight) (c : InFlight),
    peel prim cipher (cells ++ [c])
      = peel prim cipher cells ++ [c.crypt prim (cipher.advanceBy cells.length)]
  | _, [], c => rfl
  | cipher, d :: cells, c => by
      rw [cons_append, peel, peel_concat, peel, advance_advanceBy, cons_append, length_cons]

/-- A sequence of cells whose digests were set one after the other, from one state of the digest
to another. -/
def Digested (prim : Primitives) : CryptoDigest → List InFlight → CryptoDigest → Prop
  | digest, [], digest' => digest' = digest
  | digest, c :: cells, digest' =>
    c.payload = (relaySetDigest prim digest c.packed.cell.payload).2
      ∧ Digested prim (digest.add c.packed.cell.payload) cells digest'

lemma Digested.concat {c : InFlight} : ∀ {digest digest' : CryptoDigest} {cells : List InFlight},
    Digested prim digest cells digest' →
    c.payload = (relaySetDigest prim digest' c.packed.cell.payload).2 →
    Digested prim digest (cells ++ [c]) (digest'.add c.packed.cell.payload)
  | _, _, [], h, hc => by
      obtain rfl := h
      exact ⟨hc, rfl⟩
  | _, _, _ :: _, h, hc => ⟨h.1, h.2.concat hc⟩

lemma Digested.eq_addAll : ∀ {digest digest' : CryptoDigest} {cells : List InFlight},
    Digested prim digest cells digest' → digest' = digest.addAll (cells.map InFlight.packed)
  | _, _, [], h => h
  | _, _, _ :: _, h => h.2.eq_addAll

/-! ## The ends -/

/-- A cipher and a digest of the same direction. -/
structure LayerEnd where
  cipher : CryptoCipher
  digest : CryptoDigest

def RelayCrypto.forward (crypto : RelayCrypto) : LayerEnd := ⟨crypto.fCrypto, crypto.fDigest⟩

def RelayCrypto.backward (crypto : RelayCrypto) : LayerEnd := ⟨crypto.bCrypto, crypto.bDigest⟩

/-- An end that a cell of another hop has passed. -/
def LayerEnd.pass (e : LayerEnd) : LayerEnd := { e with cipher := e.cipher.advance }

/-- An end at which a cell was packed, or recognized. -/
def LayerEnd.take (e : LayerEnd) (p : FreshPayload) : LayerEnd :=
  { cipher := e.cipher.advance, digest := e.digest.add p.payload }

@[simp] lemma LayerEnd.pass_cipher (e : LayerEnd) : e.pass.cipher = e.cipher.advance := rfl

@[simp] lemma LayerEnd.pass_digest (e : LayerEnd) : e.pass.digest = e.digest := rfl

@[simp] lemma LayerEnd.take_cipher (e : LayerEnd) (p : FreshPayload) :
    (e.take p).cipher = e.cipher.advance := rfl

@[simp] lemma LayerEnd.take_digest (e : LayerEnd) (p : FreshPayload) :
    (e.take p).digest = e.digest.add p.payload := rfl

/-- The layer of hop `i`, with `cells` between its ends. -/
structure Layer (prim : Primitives) (i : ℕ) (sender receiver : LayerEnd)
    (cells : List InFlight) : Prop where
  cipher : sender.cipher = receiver.cipher.advanceBy cells.length
  digest : Digested prim receiver.digest
    ((peel prim receiver.cipher cells).filter (·.packed.hop = i)) sender.digest

variable {i : ℕ} {sender receiver : LayerEnd} {cells : List InFlight} {c : InFlight}

lemma Layer.init (i : ℕ) (e : LayerEnd) : Layer prim i e e [] := ⟨rfl, rfl⟩

lemma Layer.peel_concat (h : Layer prim i sender receiver cells) (c : InFlight) :
    peel prim receiver.cipher (cells ++ [c])
      = peel prim receiver.cipher cells ++ [c.crypt prim sender.cipher] := by
  rw [Onion.peel_concat, h.cipher]

lemma Layer.send_through (h : Layer prim i sender receiver cells) (hc : c.packed.hop ≠ i) :
    Layer prim i sender.pass receiver (cells ++ [c]) := by
  refine ⟨?_, ?_⟩
  · rw [LayerEnd.pass_cipher, h.cipher, advanceBy_advance, length_append, length_singleton]
  · rw [h.peel_concat, filter_append, filter_singleton]
    simpa [hc] using h.digest

lemma Layer.send_from (h : Layer prim i sender receiver cells) (hc : c.packed.hop = i)
    (hset : sender.cipher.crypt prim c.payload
      = (relaySetDigest prim sender.digest c.packed.cell.payload).2) :
    Layer prim i (sender.take c.packed.cell) receiver (cells ++ [c]) := by
  refine ⟨?_, ?_⟩
  · rw [LayerEnd.take_cipher, h.cipher, advanceBy_advance, length_append, length_singleton]
  · rw [h.peel_concat, filter_append, filter_singleton]
    simpa [hc] using h.digest.concat (c := c.crypt prim sender.cipher) hset

lemma Layer.receive_through (h : Layer prim i sender receiver (c :: cells))
    (hc : c.packed.hop ≠ i) : Layer prim i sender receiver.pass cells := by
  refine ⟨?_, ?_⟩
  · rw [h.cipher, LayerEnd.pass_cipher, advance_advanceBy, length_cons]
  · have hdig := h.digest
    rw [peel, filter_cons_of_neg (by simp [hc])] at hdig
    exact hdig

lemma Layer.receive (h : Layer prim i sender receiver (c :: cells)) (hc : c.packed.hop = i) :
    receiver.cipher.crypt prim c.payload
        = (relaySetDigest prim receiver.digest c.packed.cell.payload).2
      ∧ Layer prim i sender (receiver.take c.packed.cell) cells := by
  have hdig := h.digest
  rw [peel, filter_cons_of_pos (by simp [hc])] at hdig
  refine ⟨hdig.1, ?_, hdig.2⟩
  rw [h.cipher, LayerEnd.take_cipher, advance_advanceBy, length_cons]

/-! ## Away from the client -/

/-- The cells that hop `i` has yet to receive, as they will look when the hops before it have
taken their layers off. -/
def toRelay (prim : Primitives) (cipher : ℕ → CryptoCipher) (queue : ℕ → List InFlight) :
    ℕ → List InFlight
  | 0 => queue 0
  | i + 1 => queue (i + 1)
      ++ (peel prim (cipher i) (toRelay prim cipher queue i)).filter (i < ·.packed.hop)

variable {cipher cipher' : ℕ → CryptoCipher} {queue queue' : ℕ → List InFlight} {j : ℕ}

lemma toRelay_congr : ∀ {i : ℕ}, (∀ k < i, cipher k = cipher' k) → (∀ k ≤ i, queue k = queue' k) →
    toRelay prim cipher queue i = toRelay prim cipher' queue' i
  | 0, _, hq => hq 0 le_rfl
  | i + 1, hc, hq => by
      rw [toRelay, toRelay, hq (i + 1) le_rfl, hc i i.lt_succ_self,
        toRelay_congr (fun k hk => hc k (hk.trans i.lt_succ_self)) fun k hk => hq k (by omega)]

lemma toRelay_congr_above (hj : toRelay prim cipher queue j = toRelay prim cipher' queue' j)
    (hc : ∀ k, j ≤ k → cipher k = cipher' k) (hq : ∀ k, j < k → queue k = queue' k) {i : ℕ}
    (hi : j ≤ i) : toRelay prim cipher queue i = toRelay prim cipher' queue' i := by
  induction i, hi using Nat.le_induction with
  | base => exact hj
  | succ i hi ih => rw [toRelay, toRelay, hq (i + 1) (by omega), hc i hi, ih]

lemma toRelay_send {sender receiver : ℕ → LayerEnd}
    (hlayer : ∀ i, Layer prim i (sender i) (receiver i)
      (toRelay prim (fun i => (receiver i).cipher) queue i)) (c : InFlight) :
    ∀ i, toRelay prim (fun i => (receiver i).cipher) (push queue 0 c) i
      = toRelay prim (fun i => (receiver i).cipher) queue i ++ if i ≤ c.packed.hop then
          [{ c with payload := removeLayers prim (fun i => (sender i).cipher) i c.payload }] else []
  | 0 => by
      simp [toRelay, push, removeLayers]
  | i + 1 => by
      have hne : push queue 0 c (i + 1) = queue (i + 1) := Function.update_of_ne (by omega) _ _
      rw [toRelay, toRelay_send hlayer c i, hne]
      by_cases hi : i ≤ c.packed.hop
      · rw [if_pos hi, (hlayer i).peel_concat, filter_append, filter_singleton,
          toRelay, append_assoc, InFlight.crypt_packed, Bool.cond_decide]
        rfl
      · rw [if_neg hi, append_nil, if_neg (by omega), append_nil, toRelay]

variable (prim cipher cipher') in
/-- **A relay receives a cell**: it is no longer on its way to this relay, and if the relay passes
on a cell for a later hop without its own layer, the later hops see what they saw before. -/
lemma toRelay_receive {rest : List InFlight} (h : queue j = c :: rest) (hj : queue' j = rest)
    (hnext : queue' (j + 1)
      = queue (j + 1) ++ if j < c.packed.hop then [c.crypt prim (cipher j)] else [])
    (hq : ∀ k, k ≠ j → k ≠ j + 1 → queue' k = queue k) (hcj : cipher' j = (cipher j).advance)
    (hc : ∀ k, k ≠ j → cipher' k = cipher k) :
    ∃ tail, toRelay prim cipher queue j = c :: tail
      ∧ ∀ i, toRelay prim cipher' queue' i = if i = j then tail else toRelay prim cipher queue i := by
  have hbelow : ∀ i < j, toRelay prim cipher' queue' i = toRelay prim cipher queue i :=
    fun i hi => toRelay_congr (fun k hk => hc k (by omega)) fun k hk => hq k (by omega) (by omega)
  obtain ⟨tail, htail, hat⟩ : ∃ tail, toRelay prim cipher queue j = c :: tail
      ∧ toRelay prim cipher' queue' j = tail := by
    cases j with
    | zero => exact ⟨rest, h, hj⟩
    | succ j =>
      refine ⟨_, by rw [toRelay, h, cons_append], ?_⟩
      rw [toRelay, hj, hc j (by omega), hbelow j j.lt_succ_self]
  have hsucc : toRelay prim cipher' queue' (j + 1) = toRelay prim cipher queue (j + 1) := by
    rw [toRelay, toRelay, hat, htail, hcj, hnext, peel, filter_cons, InFlight.crypt_packed]
    by_cases hlt : j < c.packed.hop
    · simp [hlt]
    · simp [hlt]
  refine ⟨tail, htail, fun i => ?_⟩
  rcases lt_trichotomy i j with hi | rfl | hi
  · rw [if_neg hi.ne, hbelow i hi]
  · rw [if_pos rfl, hat]
  · rw [if_neg hi.ne']
    exact toRelay_congr_above hsucc (fun k hk => hc k (by omega))
      (fun k hk => hq k (by omega) (by omega)) hi

/-! ## Towards the client -/

/-- The cells that the client has yet to receive and that hop `i` has put a layer on, as they will
look when the client has taken off the layers of the hops before. -/
def toClient (prim : Primitives) (cipher : ℕ → CryptoCipher) (queue : ℕ → List InFlight) :
    ℕ → List InFlight
  | 0 => queue 0
  | i + 1 => (peel prim (cipher i) (toClient prim cipher queue i)).filter (i < ·.packed.hop)
      ++ queue (i + 1)

lemma toClient_congr : ∀ {i : ℕ}, (∀ k ≤ i, queue k = queue' k) →
    toClient prim cipher queue i = toClient prim cipher queue' i
  | 0, hq => hq 0 le_rfl
  | i + 1, hq => by
      rw [toClient, toClient, hq (i + 1) le_rfl, toClient_congr fun k hk => hq k (by omega)]

lemma toClient_congr_above (hj : toClient prim cipher queue j = toClient prim cipher queue' j)
    (hq : ∀ k, j < k → queue k = queue' k) {i : ℕ} (hi : j ≤ i) :
    toClient prim cipher queue i = toClient prim cipher queue' i := by
  induction i, hi using Nat.le_induction with
  | base => exact hj
  | succ i hi ih => rw [toClient, toClient, hq (i + 1) (by omega), ih]

/-- **A relay puts a cell on the link towards the client**: it is on its way from this relay, and
if the relay had it from the next one, the later layers see what they saw before. -/
lemma toClient_push (sender receiver : ℕ → LayerEnd)
    (hlayer : Layer prim j (sender j) (receiver j)
      (toClient prim (fun i => (receiver i).cipher) queue j))
    (hj : queue' j = queue j ++ [c])
    (hnext : queue (j + 1)
      = (if j < c.packed.hop then [c.crypt prim (sender j).cipher] else []) ++ queue' (j + 1))
    (hq : ∀ k, k ≠ j → k ≠ j + 1 → queue' k = queue k) (i : ℕ) :
    toClient prim (fun i => (receiver i).cipher) queue' i
      = toClient prim (fun i => (receiver i).cipher) queue i ++ if i = j then [c] else [] := by
  have hbelow : ∀ i < j, toClient prim (fun i => (receiver i).cipher) queue' i
      = toClient prim (fun i => (receiver i).cipher) queue i :=
    fun i hi => toClient_congr fun k hk => hq k (by omega) (by omega)
  have hat : toClient prim (fun i => (receiver i).cipher) queue' j
      = toClient prim (fun i => (receiver i).cipher) queue j ++ [c] := by
    cases j with
    | zero => exact hj
    | succ j => rw [toClient, hj, hbelow j j.lt_succ_self, toClient, append_assoc]
  have hsucc : toClient prim (fun i => (receiver i).cipher) queue' (j + 1)
      = toClient prim (fun i => (receiver i).cipher) queue (j + 1) := by
    rw [toClient, toClient, hat, hnext, hlayer.peel_concat, filter_append,
      filter_singleton, InFlight.crypt_packed, Bool.cond_decide, append_assoc]
  rcases lt_trichotomy i j with hi | rfl | hi
  · rw [if_neg hi.ne, hbelow i hi, append_nil]
  · rw [if_pos rfl, hat]
  · rw [if_neg hi.ne', append_nil]
    exact toClient_congr_above hsucc (fun k hk => hq k (by omega) (by omega)) hi

variable (prim cipher) in
lemma toClient_receive (receiver' : ℕ → CryptoCipher) {rest : List InFlight} {hop : ℕ}
    (h : queue 0 = c :: rest) (hhop : c.packed.hop = hop)
    (hc : ∀ i, receiver' i = if i ≤ hop then (cipher i).advance else cipher i) :
    ∀ i, toClient prim cipher queue i
      = (if i ≤ hop then [{ c with payload := removeLayers prim cipher i c.payload }] else [])
          ++ toClient prim receiver' (Function.update queue 0 rest) i
  | 0 => by
      simp [toClient, h, removeLayers]
  | i + 1 => by
      have hne : Function.update queue 0 rest (i + 1) = queue (i + 1) :=
        Function.update_of_ne (by omega) _ _
      rw [toClient, toClient_receive _ h hhop hc i, toClient, hne, hc i]
      by_cases hi : i ≤ hop
      · rw [if_pos hi, if_pos hi, singleton_append, peel, filter_cons]
        simp only [InFlight.crypt_packed, hhop]
        by_cases hlt : i < hop
        · rw [if_pos (by simpa using hlt), if_pos (by omega)]
          rfl
        · rw [if_neg (by simpa using hlt), if_neg (by omega)]
          rfl
      · rw [if_neg hi, if_neg hi, if_neg (by omega)]
        rfl

end Ator.Onion
