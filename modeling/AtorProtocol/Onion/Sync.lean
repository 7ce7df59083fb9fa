import AtorProtocol.Onion.Layer

/-!
# The layers stay in step

* `Synced` — the invariant: both layers of every hop, and every cell on a link that still leads to
  its hop, or from it.
* `Synced.step` — every event keeps it, and does to the circuit what it does to addressed mail.
* `circuit_refines_post` — so in every run without accidents each cell is recognized by the hop it
  is for, with the payload that was packed, and the ciphers and digests differ by what is on the
  links.
-/

namespace Ator.Onion

open List Option Function

variable {prim : Primitives} {hops : ℕ}

/-- **The invariant.** -/
structure Synced (prim : Primitives) (hops : ℕ) (s : Circuit) : Prop where
  out : ∀ i, Layer prim i (s.cpath i).forward (s.relay i).forward
    (toRelay prim (fun i => (s.relay i).forward.cipher) s.outQueue i)
  back : ∀ i, Layer prim i (s.relay i).backward (s.cpath i).backward
    (toClient prim (fun i => (s.cpath i).backward.cipher) s.inQueue i)
  outHop : ∀ i, ∀ c ∈ s.outQueue i, i ≤ c.packed.hop ∧ c.packed.hop < hops
  inHop : ∀ i, ∀ c ∈ s.inQueue i, i ≤ c.packed.hop ∧ c.packed.hop < hops

lemma Synced.init (keys : ℕ → KeyMaterial) : Synced prim hops (Circuit.init keys) := by
  have hout : ∀ i, toRelay prim (fun i => (relayCryptoInit (keys i)).forward.cipher)
      (fun _ => []) i = [] := by
    intro i
    induction i with
    | zero => rfl
    | succ i ih => simp [toRelay, ih, peel]
  have hback : ∀ i, toClient prim (fun i => (relayCryptoInit (keys i)).backward.cipher)
      (fun _ => []) i = [] := by
    intro i
    induction i with
    | zero => rfl
    | succ i ih => simp [toClient, ih, peel]
  refine ⟨fun i => ?_, fun i => ?_, fun i c hc => ?_, fun i c hc => ?_⟩
  · simp only [Circuit.init]
    rw [hout]
    exact Layer.init _ _
  · simp only [Circuit.init]
    rw [hback]
    exact Layer.init _ _
  · cases hc
  · cases hc

/-! ## What the functions do to the ends of the layers -/

lemma relayEncryptCellOutbound_forward (cpath : Cpath) (hop : ℕ) (p : FreshPayload) (i : ℕ) :
    ((relayEncryptCellOutbound prim cpath hop p.payload).1 i).forward
      = if i < hop then (cpath i).forward.pass
        else if i = hop then (cpath i).forward.take p else (cpath i).forward := by
  rw [relayEncryptCellOutbound, encryptLayers_cpath]
  rcases lt_trichotomy i hop with hi | rfl | hi
  · rw [if_pos hi.le, if_pos hi, update_of_ne hi.ne]
    rfl
  · rw [if_pos le_rfl, if_neg (lt_irrefl _), if_pos rfl, update_self]
    rfl
  · rw [if_neg hi.not_ge, if_neg hi.not_gt, if_neg hi.ne', update_of_ne hi.ne']

lemma relayEncryptCellOutbound_backward (cpath : Cpath) (hop : ℕ) (cell : Payload) (i : ℕ) :
    ((relayEncryptCellOutbound prim cpath hop cell).1 i).backward = (cpath i).backward := by
  rw [relayEncryptCellOutbound, encryptLayers_cpath]
  by_cases hi : i = hop
  · subst hi
    rw [if_pos le_rfl, update_self]
    rfl
  · rw [update_of_ne hi]
    split <;> rfl

variable (prim) in
lemma removeLayers_relayEncryptCellOutbound (cpath : Cpath) (hop : ℕ) (cell : Payload) :
    removeLayers prim (fun i => (cpath i).forward.cipher) (hop + 1)
        (relayEncryptCellOutbound prim cpath hop cell).2
      = (relaySetDigest prim (cpath hop).forward.digest cell).2 := by
  rw [relayEncryptCellOutbound, removeLayers_congr (fun i => (update cpath hop
    { cpath hop with fDigest := (relaySetDigest prim (cpath hop).fDigest cell).1 } i).fCrypto),
    removeLayers_encryptLayers]
  · rfl
  · intro i _
    by_cases hi : i = hop
    · subst hi
      rw [update_self]
      rfl
    · rw [update_of_ne hi]
      rfl

/-! ## One event -/

variable {s t : Circuit} {hop : ℕ} {p : FreshPayload} {c : InFlight} {queue : List InFlight}

lemma mem_push {α : Type*} {q : ℕ → List α} {i j : ℕ} {a b : α} (h : b ∈ push q j a i) :
    b ∈ q i ∨ i = j ∧ b = a := by
  by_cases hi : i = j
  · subst hi
    rw [push, update_self, mem_append, mem_singleton] at h
    exact h.imp_right fun hb => ⟨rfl, hb⟩
  · rw [push, update_of_ne hi] at h
    exact Or.inl h

lemma mem_update_tail {α : Type*} {q : ℕ → List α} {i j : ℕ} {a b : α} {l : List α}
    (hq : q j = a :: l) (h : b ∈ update q j l i) : b ∈ q i := by
  by_cases hi : i = j
  · subst hi
    rw [update_self] at h
    rw [hq]
    exact mem_cons_of_mem a h
  · rwa [update_of_ne hi] at h

lemma map_push {α β : Type*} (f : α → β) (q : ℕ → List α) (j : ℕ) (a : α) :
    (fun i => (push q j a i).map f) = push (fun i => (q i).map f) j (f a) := by
  funext i
  by_cases hi : i = j
  · subst hi
    simp [push]
  · simp [push, update_of_ne hi]

lemma map_update {α β : Type*} (f : α → β) (q : ℕ → List α) (j : ℕ) (l : List α) :
    (fun i => (update q j l i).map f)
      = update (fun i => (q i).map f) j (l.map f) := by
  funext i
  by_cases hi : i = j
  · subst hi
    simp
  · simp [update_of_ne hi]

lemma Synced.packageOut (h : Synced prim hops s) (hhop : hop < hops) :
    Synced prim hops { s with
      cpath := (relayEncryptCellOutbound prim s.cpath hop p.payload).1
      outQueue := push s.outQueue 0
        ⟨(relayEncryptCellOutbound prim s.cpath hop p.payload).2, hop, p⟩ } := by
  refine ⟨fun i => ?_, fun i => ?_, fun i c hc => ?_, h.inHop⟩
  · simp only
    rw [relayEncryptCellOutbound_forward, toRelay_send h.out]
    rcases lt_trichotomy i hop with hi | rfl | hi
    · rw [if_pos hi, if_pos hi.le]
      exact (h.out i).send_through hi.ne'
    · rw [if_neg (lt_irrefl _), if_pos rfl, if_pos le_rfl]
      have hset := removeLayers_relayEncryptCellOutbound prim s.cpath i p.payload
      exact (h.out i).send_from (c := ⟨_, i, p⟩) rfl hset
    · rw [if_neg hi.not_gt, if_neg hi.ne', if_neg hi.not_ge, append_nil]
      exact h.out i
  · simp only [relayEncryptCellOutbound_backward]
    exact h.back i
  · rcases mem_push hc with hc | ⟨rfl, rfl⟩
    · exact h.outHop i c hc
    · exact ⟨Nat.zero_le _, hhop⟩

variable {crypto : RelayCrypto}

lemma update_forward {relay : ℕ → RelayCrypto}
    (h : crypto.forward = (relay hop).forward) (i : ℕ) :
    (update relay hop crypto i).forward = (relay i).forward := by
  by_cases hi : i = hop
  · subst hi
    rw [update_self, h]
  · rw [update_of_ne hi]

lemma update_backward {relay : ℕ → RelayCrypto}
    (h : crypto.backward = (relay hop).backward) (i : ℕ) :
    (update relay hop crypto i).backward = (relay i).backward := by
  by_cases hi : i = hop
  · subst hi
    rw [update_self, h]
  · rw [update_of_ne hi]

/-- A relay puts a cell on the link towards the client; `queue` is then what is left on the link
behind it. -/
lemma Synced.push_in (h : Synced prim hops s) {inQueue : ℕ → List InFlight}
    (hforward : crypto.forward = (s.relay hop).forward)
    (hc : hop ≤ c.packed.hop ∧ c.packed.hop < hops)
    (hhop : inQueue hop = s.inQueue hop ++ [c])
    (hnext : s.inQueue (hop + 1)
      = (if hop < c.packed.hop then [c.crypt prim (s.relay hop).backward.cipher] else [])
        ++ inQueue (hop + 1))
    (hq : ∀ k, k ≠ hop → k ≠ hop + 1 → inQueue k = s.inQueue k)
    (hlayer : Layer prim hop crypto.backward (s.cpath hop).backward
      (toClient prim (fun i => (s.cpath i).backward.cipher) s.inQueue hop ++ [c])) :
    Synced prim hops { s with relay := update s.relay hop crypto, inQueue := inQueue } := by
  refine ⟨fun i => ?_, fun i => ?_, h.outHop, fun i d hd => ?_⟩
  · simp only [update_forward hforward]
    exact h.out i
  · simp only
    rw [toClient_push (fun i => (s.relay i).backward)
      (fun i => (s.cpath i).backward) (h.back hop) hhop hnext hq]
    by_cases hi : i = hop
    · subst hi
      rw [if_pos rfl, update_self]
      exact hlayer
    · rw [if_neg hi, update_of_ne hi, append_nil]
      exact h.back i
  · by_cases hi : i = hop
    · subst hi
      simp only [hhop, mem_append, mem_singleton] at hd
      rcases hd with hd | rfl
      · exact h.inHop i d hd
      · exact hc
    · by_cases hi' : i = hop + 1
      · subst hi'
        refine h.inHop (hop + 1) d ?_
        rw [hnext]
        exact mem_append_right _ hd
      · simp only [hq i hi hi'] at hd
        exact h.inHop i d hd

lemma Synced.packageIn (h : Synced prim hops s) (hhop : hop < hops) :
    Synced prim hops { s with
      relay := update s.relay hop
        (relayEncryptCellInbound prim (s.relay hop) p.payload).1
      inQueue := push s.inQueue hop
        ⟨(relayEncryptCellInbound prim (s.relay hop) p.payload).2, hop, p⟩ } := by
  refine h.push_in (c := ⟨_, hop, p⟩) rfl ⟨le_rfl, hhop⟩ (update_self ..) ?_
    (fun k hk _ => update_of_ne hk _ _) ?_
  · rw [if_neg (lt_irrefl _), nil_append, push, update_of_ne (by omega)]
  · exact (h.back hop).send_from (c := ⟨_, hop, p⟩) rfl (crypt_crypt prim _ _)

lemma Synced.receiveIn (h : Synced prim hops s) (hqueue : s.inQueue (hop + 1) = c :: queue) :
    Synced prim hops { s with
      relay := update s.relay hop
        (relayDecryptCellMiddle prim (s.relay hop) c.payload).1
      inQueue := push (update s.inQueue (hop + 1) queue) hop
        { c with payload := (relayDecryptCellMiddle prim (s.relay hop) c.payload).2 } } := by
  have hhop := h.inHop (hop + 1) c (by rw [hqueue]; exact mem_cons_self)
  refine h.push_in (c := c.crypt prim (s.relay hop).backward.cipher) rfl
    ⟨(Nat.le_succ hop).trans hhop.1, hhop.2⟩ ?_ ?_ ?_ ?_
  · rw [push, update_self, update_of_ne (by omega)]
    rfl
  · rw [push, update_of_ne (by omega), update_self, hqueue,
      InFlight.crypt_packed, if_pos (show hop < c.packed.hop from hhop.1), InFlight.crypt_crypt,
      singleton_append]
  · intro k hk hk'
    rw [push, update_of_ne hk, update_of_ne hk']
  · refine (h.back hop).send_through ?_
    rw [InFlight.crypt_packed]
    omega

lemma Synced.pop_out (h : Synced prim hops s) (hqueue : s.outQueue hop = c :: queue)
 {outQueue : ℕ → List InFlight}
    (hbackward : crypto.backward = (s.relay hop).backward)
    (hcipher : crypto.forward.cipher = (s.relay hop).forward.cipher.advance)
    (hhop : outQueue hop = queue)
    (hnext : outQueue (hop + 1) = s.outQueue (hop + 1)
      ++ if hop < c.packed.hop then [c.crypt prim (s.relay hop).forward.cipher] else [])
    (hq : ∀ k, k ≠ hop → k ≠ hop + 1 → outQueue k = s.outQueue k)
    (hlayer : ∀ tail, Layer prim hop (s.cpath hop).forward (s.relay hop).forward (c :: tail) →
      Layer prim hop (s.cpath hop).forward crypto.forward tail) :
    Synced prim hops
      { s with relay := update s.relay hop crypto, outQueue := outQueue } := by
  obtain ⟨tail, htail, hrest⟩ := toRelay_receive prim
    (fun i => (s.relay i).forward.cipher)
    (fun i => (update s.relay hop crypto i).forward.cipher)
    hqueue hhop hnext hq (by simp only [update_self, hcipher])
    (fun k hk => by simp only [update_of_ne hk])
  refine ⟨fun i => ?_, fun i => ?_, fun i d hd => ?_, h.inHop⟩
  · simp only
    rw [hrest]
    by_cases hi : i = hop
    · subst hi
      rw [if_pos rfl, update_self]
      exact hlayer tail (htail ▸ h.out i)
    · rw [if_neg hi, update_of_ne hi]
      exact h.out i
  · simp only [update_backward hbackward]
    exact h.back i
  · by_cases hi : i = hop
    · subst hi
      simp only [hhop] at hd
      exact h.outHop i d (by rw [hqueue]; exact mem_cons_of_mem c hd)
    · by_cases hi' : i = hop + 1
      · subst hi'
        simp only [hnext, mem_append] at hd
        rcases hd with hd | hd
        · exact h.outHop (hop + 1) d hd
        · by_cases hlt : hop < c.packed.hop
          · rw [if_pos hlt, mem_singleton] at hd
            rw [hd, InFlight.crypt_packed]
            exact ⟨hlt, (h.outHop hop c (by rw [hqueue]; exact mem_cons_self)).2⟩
          · rw [if_neg hlt] at hd
            cases hd
      · simp only [hq i hi hi'] at hd
        exact h.outHop i d hd

lemma relayDecryptCellOut_of_setDigest {cell : Payload}
    (h : crypto.fCrypto.crypt prim cell = (relaySetDigest prim crypto.fDigest p.payload).2) :
    relayDecryptCellOut prim crypto cell
      = (true, { crypto with fCrypto := crypto.fCrypto.advance
                             fDigest := crypto.fDigest.add p.payload }, p.payload) := by
  rw [relayDecryptCellOut, decryptLayer_of_setDigest h]

lemma relayDecryptCellOut_of_not_matches {cell : Payload}
    (h : ¬ Matches prim crypto.fDigest (crypto.fCrypto.crypt prim cell)) :
    relayDecryptCellOut prim crypto cell
      = (false, { crypto with fCrypto := crypto.fCrypto.advance },
          crypto.fCrypto.crypt prim cell) := by
  rw [relayDecryptCellOut, decryptLayer_of_not_matches h]

lemma Synced.head_out (h : Synced prim hops s) (hqueue : s.outQueue hop = c :: queue)
    (hc : c.packed.hop = hop) :
    (s.relay hop).fCrypto.crypt prim c.payload
      = (relaySetDigest prim (s.relay hop).fDigest c.packed.cell.payload).2 := by
  have hlayer := h.out hop
  cases hop with
  | zero =>
    rw [toRelay, hqueue] at hlayer
    exact (hlayer.receive hc).1
  | succ hop =>
    rw [toRelay, hqueue, cons_append] at hlayer
    exact (hlayer.receive hc).1

lemma Synced.receiveOut_recognized (h : Synced prim hops s)
    (hqueue : s.outQueue hop = c :: queue) (hc : c.packed.hop = hop) :
    Synced prim hops { s with
      relay := update s.relay hop { s.relay hop with
        fCrypto := (s.relay hop).fCrypto.advance
        fDigest := (s.relay hop).fDigest.add c.packed.cell.payload }
      outQueue := update s.outQueue hop queue } := by
  refine h.pop_out hqueue rfl rfl (update_self ..) ?_
    (fun k hk _ => update_of_ne hk _ _) fun tail htail => (htail.receive hc).2
  rw [if_neg (by omega), append_nil, update_of_ne (by omega)]

lemma Synced.receiveOut_forwarded (h : Synced prim hops s)
    (hqueue : s.outQueue hop = c :: queue) (hc : c.packed.hop ≠ hop) :
    Synced prim hops { s with
      relay := update s.relay hop { s.relay hop with
        fCrypto := (s.relay hop).fCrypto.advance }
      outQueue := push (update s.outQueue hop queue) (hop + 1)
        { c with payload := (s.relay hop).fCrypto.crypt prim c.payload } } := by
  have hlt : hop < c.packed.hop :=
    lt_of_le_of_ne (h.outHop hop c (by rw [hqueue]; exact mem_cons_self)).1 hc.symm
  refine h.pop_out hqueue rfl rfl ?_ ?_ ?_ fun tail htail => htail.receive_through hc
  · rw [push, update_of_ne (by omega), update_self]
  · rw [push, update_self, update_of_ne (by omega), if_pos hlt]
    rfl
  · intro k hk hk'
    rw [push, update_of_ne hk', update_of_ne hk]

lemma Synced.receiveAtClient (h : Synced prim hops s) (hqueue : s.inQueue 0 = c :: queue)
    (hno : NoAccident prim s .receiveAtClient) :
    ∃ cpath, relayDecryptCellIn prim hops s.cpath c.payload
        = some (c.packed.hop, cpath, c.packed.cell.payload)
      ∧ Synced prim hops { s with
          cpath := cpath, inQueue := update s.inQueue 0 queue } := by
  have hhop := (h.inHop 0 c (by rw [hqueue]; exact mem_cons_self)).2
  have hclient := fun cipher' hc' => toClient_receive prim
    (fun i => (s.cpath i).backward.cipher) cipher' hqueue rfl hc'
  have hmatch : removeLayers prim (fun i => (s.cpath i).bCrypto) (c.packed.hop + 1) c.payload
      = (relaySetDigest prim (s.cpath c.packed.hop).bDigest c.packed.cell.payload).2 := by
    have hlayer := h.back c.packed.hop
    rw [hclient _ fun i => rfl, if_pos le_rfl, singleton_append] at hlayer
    exact (hlayer.receive rfl).1
  obtain ⟨cpath, hdec, hpath⟩ := decryptLayers_of_setDigest (hno c queue hqueue) hmatch hops 0
    s.cpath (Nat.zero_le _) (by omega) fun _ _ => rfl
  have hforward : ∀ i, (cpath i).forward = (s.cpath i).forward := by
    intro i
    rw [hpath]
    split <;> rfl
  have hcipher : ∀ i, (cpath i).backward.cipher = if i ≤ c.packed.hop then
      (s.cpath i).backward.cipher.advance else (s.cpath i).backward.cipher := by
    intro i
    rw [hpath]
    by_cases hi : i ≤ c.packed.hop
    · rw [if_pos ⟨Nat.zero_le i, hi⟩, if_pos hi]
      rfl
    · rw [if_neg (fun hle => hi hle.2), if_neg hi]
  refine ⟨cpath, hdec, fun i => ?_, fun i => ?_, h.outHop, fun i d hd => ?_⟩
  · simp only [hforward]
    exact h.out i
  · simp only
    have hlayer := h.back i
    rw [hclient _ hcipher] at hlayer
    rcases lt_trichotomy i c.packed.hop with hi | hi | hi
    · rw [if_pos hi.le, singleton_append] at hlayer
      have hback : (cpath i).backward = (s.cpath i).backward.pass := by
        rw [hpath, if_pos ⟨Nat.zero_le i, hi.le⟩, if_neg hi.ne]
        rfl
      rw [hback]
      exact hlayer.receive_through hi.ne'
    · rw [if_pos hi.le, singleton_append] at hlayer
      have hback : (cpath i).backward = (s.cpath i).backward.take c.packed.cell := by
        rw [hpath, if_pos ⟨Nat.zero_le i, hi.le⟩, if_pos hi]
        rfl
      rw [hback]
      exact (hlayer.receive hi.symm).2
    · rw [if_neg hi.not_ge, nil_append] at hlayer
      have hback : (cpath i).backward = (s.cpath i).backward := by
        rw [hpath, if_neg (fun hle => hi.not_ge hle.2)]
      rw [hback]
      exact hlayer
  · exact h.inHop i d (mem_update_tail hqueue hd)

/-! ## Every run -/

lemma post_outQueue (s : Circuit) (i : ℕ) :
    s.post.outQueue i = (s.outQueue i).map InFlight.packed := rfl

lemma post_inQueue (s : Circuit) (i : ℕ) :
    s.post.inQueue i = (s.inQueue i).map InFlight.packed := rfl

/-- **Every event without an accident** keeps the invariant, and does to the circuit what it does
to addressed mail. -/
theorem Synced.step (h : Synced prim hops s) (e : Event) (hno : NoAccident prim s e) :
    (Circuit.step prim hops s e).map Circuit.post = Post.step hops s.post e
      ∧ ∀ t, Circuit.step prim hops s e = some t → Synced prim hops t := by
  cases e with
  | packageOut hop p =>
    simp only [Circuit.step, Post.step]
    split_ifs with hhop
    · refine ⟨?_, fun t ht => ?_⟩
      · simp only [map_some, Circuit.post, map_push]
      · obtain rfl := some.inj ht
        exact h.packageOut hhop
    · exact ⟨rfl, fun t ht => by cases ht⟩
  | packageIn hop p =>
    simp only [Circuit.step, Post.step]
    split_ifs with hhop
    · refine ⟨?_, fun t ht => ?_⟩
      · simp only [map_some, Circuit.post, map_push]
      · obtain rfl := some.inj ht
        exact h.packageIn hhop
    · exact ⟨rfl, fun t ht => by cases ht⟩
  | receiveOut hop =>
    simp only [Circuit.step, Post.step, post_outQueue]
    cases hqueue : s.outQueue hop with
    | nil => exact ⟨rfl, fun t ht => by cases ht⟩
    | cons c queue =>
      simp only [map_cons]
      by_cases hc : c.packed.hop = hop
      · rw [relayDecryptCellOut_of_setDigest (h.head_out hqueue hc), if_pos rfl, if_pos hc]
        refine ⟨?_, fun t ht => ?_⟩
        · simp only [map_some, Circuit.post, map_update]
        · obtain rfl := some.inj ht
          have hs := h.receiveOut_recognized hqueue hc
          exact ⟨hs.out, hs.back, hs.outHop, hs.inHop⟩
      · have hhop := h.outHop hop c (by rw [hqueue]; exact mem_cons_self)
        rw [relayDecryptCellOut_of_not_matches (hno c queue hqueue hc), if_neg (by simp),
          if_pos (by omega), if_neg hc]
        refine ⟨?_, fun t ht => ?_⟩
        · simp only [map_some, Circuit.post, map_push, map_update]
        · obtain rfl := some.inj ht
          exact h.receiveOut_forwarded hqueue hc
  | receiveIn hop =>
    simp only [Circuit.step, Post.step, post_inQueue]
    cases hqueue : s.inQueue (hop + 1) with
    | nil => exact ⟨rfl, fun t ht => by cases ht⟩
    | cons c queue =>
      simp only [map_cons]
      refine ⟨?_, fun t ht => ?_⟩
      · simp only [map_some, Circuit.post, map_push, map_update]
      · obtain rfl := some.inj ht
        exact h.receiveIn hqueue
  | receiveAtClient =>
    simp only [Circuit.step, Post.step, post_inQueue]
    cases hqueue : s.inQueue 0 with
    | nil => exact ⟨rfl, fun t ht => by cases ht⟩
    | cons c queue =>
      obtain ⟨cpath, hdec, hs⟩ := h.receiveAtClient hqueue hno
      simp only [map_cons, hdec]
      refine ⟨?_, fun t ht => ?_⟩
      · simp only [map_some, Circuit.post, map_update]
      · obtain rfl := some.inj ht
        exact ⟨hs.out, hs.back, hs.outHop, hs.inHop⟩

variable (prim) in
lemma toRelay_map_packed (s : Circuit) (cipher : ℕ → CryptoCipher) (i : ℕ) :
    (toRelay prim cipher s.outQueue i).map InFlight.packed = s.post.toRelay i := by
  induction i with
  | zero => rfl
  | succ i ih =>
    rw [toRelay, Post.toRelay, map_append, ← ih,
      filter_peel_map_packed (fun hop => decide (i < hop))]
    rfl

variable (prim) in
lemma toClient_map_packed (s : Circuit) (cipher : ℕ → CryptoCipher) (i : ℕ) :
    (toClient prim cipher s.inQueue i).map InFlight.packed = s.post.toClient i := by
  induction i with
  | zero => rfl
  | succ i ih =>
    rw [toClient, Post.toClient, map_append, ← ih,
      filter_peel_map_packed (fun hop => decide (i < hop))]
    rfl

lemma Layer.digest_eq {i : ℕ} {sender receiver : LayerEnd} {cells : List InFlight}
    (h : Layer prim i sender receiver cells) : sender.digest
      = receiver.digest.addAll ((cells.map InFlight.packed).filter (·.hop = i)) := by
  rw [h.digest.eq_addAll, filter_peel_map_packed (fun hop => decide (hop = i))]

lemma Synced.inStep (h : Synced prim hops s) : s.InStep where
  fCrypto i := by
    rw [← toRelay_map_packed prim s fun i => (s.relay i).forward.cipher, length_map]
    exact (h.out i).cipher
  fDigest i := by
    rw [← toRelay_map_packed prim s fun i => (s.relay i).forward.cipher]
    exact (h.out i).digest_eq
  bCrypto i := by
    rw [← toClient_map_packed prim s fun i => (s.cpath i).backward.cipher, length_map]
    exact (h.back i).cipher
  bDigest i := by
    rw [← toClient_map_packed prim s fun i => (s.cpath i).backward.cipher]
    exact (h.back i).digest_eq

lemma Synced.of_run {keys : ℕ → KeyMaterial} {es : List Event}
    (hno : Meets (Circuit.step prim hops) (NoAccident prim) (Circuit.init keys) es)
    (h : Reaches (Circuit.step prim hops) (Circuit.init keys) es t) : Synced prim hops t :=
  invariant_of_meets (fun _ e t hs hC ht => (hs.step e hC).2 t ht) (Synced.init keys) hno h

/-- **Onion routing is addressed mail.**  In every run of a circuit in which no hop takes a cell of
another hop for its own, the circuit does what the post does with the same events: it is in no
state that the post does not allow, it never stops where the post goes on, and the ciphers and
digests of the client and the relays stay in step. -/
theorem circuit_refines_post (prim : Primitives) (hops : ℕ) (keys : ℕ → KeyMaterial)
    (es : List Event)
    (hno : Meets (Circuit.step prim hops) (NoAccident prim) (Circuit.init keys) es) :
    (∀ t, Reaches (Circuit.step prim hops) (Circuit.init keys) es t →
        Reaches (Post.step hops) Post.init es t.post ∧ t.InStep)
      ∧ ∀ u, Reaches (Post.step hops) Post.init es u →
        ∃ t, Reaches (Circuit.step prim hops) (Circuit.init keys) es t ∧ t.post = u := by
  have hinStep : ∀ t, Reaches (Circuit.step prim hops) (Circuit.init keys) es t → t.InStep :=
    fun t ht => (Synced.of_run hno ht).inStep
  suffices hsim : (es.foldlM (Circuit.step prim hops) (Circuit.init keys)).map Circuit.post
      = es.foldlM (Post.step hops) Post.init by
    refine ⟨fun t ht => ⟨?_, hinStep t ht⟩, fun u hu => ?_⟩
    · rw [Reaches, ← hsim, ht]
      rfl
    · rw [Reaches, ← hsim] at hu
      exact map_eq_some_iff.mp hu
  clear hinStep
  induction es using List.reverseRecOn with
  | nil => rfl
  | append_singleton es e ih =>
    obtain ⟨hes, hlast⟩ := meets_snoc.mp hno
    rw [foldlM_append, foldlM_append, ← ih hes]
    cases hrun : es.foldlM (Circuit.step prim hops) (Circuit.init keys) with
    | none => rfl
    | some t => simpa using ((Synced.of_run hes hrun).step e (hlast t hrun)).1

/-- A counter for a keystream, and a checksum for a hash. -/
def plainPrimitives : Primitives where
  keystream key pos := key.headD 0 + UInt8.ofNat pos
  hash _ bytes _ := bytes.sum

/-- The hops of a small circuit: each has one byte as its key material. -/
def plainKeys (i : ℕ) : KeyMaterial where
  keyData := List.replicate 72 (UInt8.ofNat (i + 6))
  isHsV3 := false
  length_eq := rfl

def blankPayload : FreshPayload where
  payload := fun _ => 0
  recognized_eq := rfl
  integrity_eq := by decide

/-- The first hop of two forwards a cell for the second one. -/
theorem circuit_refines_post_forwards :
    ∃ t, Reaches (Circuit.step plainPrimitives 2) (Circuit.init plainKeys)
        [.packageOut 1 blankPayload, .receiveOut 0] t
      ∧ t.post.outQueue 1 = [⟨1, blankPayload⟩] ∧ t.InStep := by
  have hno : Meets (Circuit.step plainPrimitives 2) (NoAccident plainPrimitives)
      (Circuit.init plainKeys) [.packageOut 1 blankPayload, .receiveOut 0] := by
    rw [meets_cons]
    refine ⟨trivial, fun s hs => meets_cons.mpr ⟨?_, fun _ _ => meets_nil⟩⟩
    obtain rfl := some.inj hs
    rintro c queue hqueue - ⟨hrec, -⟩
    obtain ⟨rfl, -⟩ := List.cons.inj hqueue
    exact absurd hrec (by decide +kernel)
  obtain ⟨hpost, hback⟩ := circuit_refines_post plainPrimitives 2 plainKeys _ hno
  obtain ⟨t, ht, htpost⟩ := hback _ rfl
  exact ⟨t, ht, by rw [htpost]; rfl, (hpost t ht).2⟩

end Ator.Onion
