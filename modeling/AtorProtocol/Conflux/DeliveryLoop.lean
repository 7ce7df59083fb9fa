import AtorProtocol.Conflux.PoolReferences

/-!
# The delivery loop of a linked circuit

`connection_edge_process_relay_cell` in `src/core/or/relay.c`, for the commands that are
multiplexed.  When a cell is in order it is processed, and then the cells that `conflux_dequeue_cell`
gives are, one after the other.  What processing a cell does to the pools is an argument: it may
close circuits, send cells and launch sets.

* `Delivering` — one side, and the circuit whose cell is being processed.
* `Delivering.exec` — an event of the main loop, a cell that arrives, or the end of the processing
  of a cell, with the call of `conflux_dequeue_cell` that follows it.
* `dequeuesLive_iff` — the runs in which the call is made with a set that is there.
-/

namespace Ator.Conflux

open Function Option
open Except (ok.inj)

variable {α : Type}

/-- One side, with the circuit `circ` of `connection_edge_process_relay_cell` while
`connection_edge_process_ordered_relay_cell` is called. -/
structure Delivering (α : Type) where
  pool : Pool α
  handling : Option ℕ

/-- What happens.  `relayCell` is a cell of a command that is multiplexed, and `sourceHop` the answer
of `conflux_validate_source_hop`; `processed` is what
`connection_edge_process_ordered_relay_cell` has done, and what it returns. -/
inductive DeliveryEvent (α : Type) where
  | main (e : PoolEvent α)
  | relayCell (circ : ℕ) (sourceHop : Bool) (cell : α)
  | processed (effects : List (PoolEvent α)) (ret : ℤ)

/-- What stops the program: something in the pools, or `conflux_dequeue_cell` on a null pointer or
on a set that was freed. -/
inductive DeliveryFault where
  | pool (fault : Fault)
  | nullConflux
  | freedConflux
deriving DecidableEq

/-- What the processing of a cell can do: circuits are freed in the main loop, and a LINK or LINKED
is a cell of its own. -/
def isEffect : PoolEvent α → Bool
  | .free _ | .notifyShutdown | .link _ _ _ _ _ | .linked _ _ _ _ _ _ => false
  | _ => true

namespace Delivering

def init (isClient : Bool) (maxLegsSet numLegsSet maxUnlinkedLegRetry : ℕ) : Delivering α :=
  ⟨Pool.init isClient maxLegsSet numLegsSet maxUnlinkedLegRetry, none⟩

/-- Back in the main loop. -/
def mainLoop : Except Fault (Pool α) → Except DeliveryFault (Delivering α)
  | .ok pool => .ok ⟨pool, none⟩
  | .error fault => .error (.pool fault)

/-- `conflux_process_cell(circ->conflux, …)`, where the circuit has a set. -/
def relayCell (s : Pool α) (c : ℕ) (sourceHop : Bool) (cell : α) :
    Except DeliveryFault (Delivering α) :=
  match s.circ c with
  | none => .ok ⟨s, none⟩
  | some circ =>
    match circ.conflux with
    | none => .ok ⟨s, none⟩
    | some p =>
      match s.cfx p with
      | none => .error (.pool .badPointer)
      | some set =>
        let processed := confluxProcessCell set.cfx c sourceHop cell
        let s := s.setCfx p (some { set with cfx := processed.cfx })
        if processed.close then mainLoop (s.exec (.close c))
        else .ok ⟨s, if processed.inOrder then some c else none⟩

/-- `conflux_dequeue_cell(circ->conflux)`: when it gives a cell, that is processed next. -/
def dequeueCell (s : Pool α) (c : ℕ) : Except DeliveryFault (Delivering α) :=
  match s.circ c with
  | none => .error (.pool .badPointer)
  | some circ =>
    match circ.conflux with
    | none => .error .nullConflux
    | some p =>
      match s.cfx p with
      | none => .error .freedConflux
      | some set =>
        match confluxDequeueCell set.cfx with
        | none => .ok ⟨s, none⟩
        | some (_, cfx) => .ok ⟨s.setCfx p (some { set with cfx }), some c⟩

/-- What follows the processing of a cell: the caller closes the circuit, or the loop goes on. -/
def returned (s : Pool α) (c : ℕ) (ret : ℤ) : Except DeliveryFault (Delivering α) :=
  if ret < 0 then mainLoop (s.exec (.close c)) else dequeueCell s c

/-- An event; one that cannot happen changes nothing.  The processing of a cell has made all its
calls when it returns. -/
def exec (s : Delivering α) : DeliveryEvent α → Except DeliveryFault (Delivering α)
  | .main e =>
    match s.handling with
    | some _ => .ok s
    | none => mainLoop (s.pool.exec e)
  | .relayCell c sourceHop cell =>
    if s.handling = none ∧ s.pool.calls = [] ∧ s.pool.shuttingDown = false then
      relayCell s.pool c sourceHop cell
    else .ok s
  | .processed effects ret =>
    match s.handling with
    | none => .ok s
    | some c =>
      if effects.all isEffect then
        match effects.foldlM Pool.exec s.pool with
        | .error fault => .error (.pool fault)
        | .ok pool => if pool.calls = [] then returned pool c ret else .ok s
      else .ok s

/-- The state after an event, unless the program stops. -/
def step (s : Delivering α) (e : DeliveryEvent α) : Option (Delivering α) := (s.exec e).toOption

/-- The fault that an event ends in. -/
def fault (s : Delivering α) (e : DeliveryEvent α) : Option DeliveryFault :=
  match s.exec e with
  | .ok _ => none
  | .error fault => some fault

/-- `conflux_dequeue_cell` is not called with a null pointer, and not with a set that was freed. -/
def DequeuesLive (s : Delivering α) (e : DeliveryEvent α) : Prop :=
  s.fault e ≠ some .nullConflux ∧ s.fault e ≠ some .freedConflux

instance decidableDequeuesLive (s : Delivering α) (e : DeliveryEvent α) :
    Decidable (s.DequeuesLive e) :=
  inferInstanceAs (Decidable (_ ∧ _))

end Delivering

/-- An open circuit that is linked, and whose set has another leg. -/
def HasOtherLeg (s : Pool α) (c : ℕ) : Prop :=
  ∃ circ p set, s.circ c = some circ ∧ circ.markedForClose = false
    ∧ circ.confluxPendingNonce = none ∧ circ.conflux = some p ∧ s.cfx p = some set
    ∧ ∃ d, d ≠ c ∧ set.HasLeg d

/-- The circuit is marked for close, while its set has another leg. -/
def ClosesLeg (c : ℕ) (s : Pool α) (e : PoolEvent α) : Prop :=
  (∃ established calls, e = .runCall established ∧ s.calls = .markForClose c :: calls)
    ∧ HasOtherLeg s c

/-- A cell whose processing returns success has not closed its own circuit, while another leg was
left. -/
def Delivering.KeepsLeg (s : Delivering α) : DeliveryEvent α → Prop
  | .processed effects ret => ∀ c t, s.handling = some c → effects.all isEffect = true →
      Reaches Pool.step s.pool effects t → t.calls = [] → 0 ≤ ret →
      Meets Pool.step (fun s e => ¬ ClosesLeg c s e) s.pool effects
  | _ => True

/-! ## What becomes of `circ->conflux` -/

namespace Pool

variable {s t u : Pool α} {c d p : ℕ} {n : Nonce} {circ circ' : PoolCircuit} {set : ConfluxSet α}
  {e : PoolEvent α} {es : List (PoolEvent α)} {calls : List Call}

/-- The circuit is there, and refers to the same set. -/
def Keeps (c : ℕ) (s t : Pool α) : Prop :=
  ∀ circ, s.circ c = some circ → ∃ circ', t.circ c = some circ' ∧ circ'.conflux = circ.conflux

lemma Keeps.of_circ (h : t.circ = s.circ) : Keeps c s t := fun circ hc => ⟨circ, h ▸ hc, rfl⟩

lemma Keeps.trans (h : Keeps c s t) (h' : Keeps c t u) : Keeps c s u := by
  intro circ hc
  obtain ⟨circ₁, hc₁, hconflux₁⟩ := h circ hc
  obtain ⟨circ₂, hc₂, hconflux₂⟩ := h' circ₁ hc₁
  exact ⟨circ₂, hc₂, hconflux₂.trans hconflux₁⟩

/-- The circuit is there, and refers to its set no more exactly if `P`. -/
def Clears (c : ℕ) (P : Prop) (s t : Pool α) : Prop :=
  ∀ circ, s.circ c = some circ → ∃ circ', t.circ c = some circ'
    ∧ (P → circ'.conflux = none) ∧ (¬ P → circ'.conflux = circ.conflux)

lemma Keeps.clears {P : Prop} (h : Keeps c s t) (hP : ¬ P) : Clears c P s t := by
  intro circ hc
  obtain ⟨circ', hc', hconflux⟩ := h circ hc
  exact ⟨circ', hc', fun hp => absurd hp hP, fun _ => hconflux⟩

lemma keeps_setCirc (hd : s.circ d = some circ) (hconflux : circ'.conflux = circ.conflux) :
    Keeps c s (s.setCirc d (some circ')) := by
  intro circ₁ hc
  by_cases hcd : c = d
  · subst hcd
    obtain rfl := some.inj (hd.symm.trans hc)
    exact ⟨circ', update_self _ _ _, hconflux⟩
  · exact ⟨circ₁, (update_of_ne hcd _ _).trans hc, rfl⟩

lemma keeps_setCirc_of_ne {o : Option PoolCircuit} (hcd : c ≠ d) : Keeps c s (s.setCirc d o) :=
  fun circ hc => ⟨circ, (update_of_ne hcd _ _).trans hc, rfl⟩

lemma circ_unlinkedPoolDelAndFree {unlinked : UnlinkedCircuits}
    (ht : s.unlinkedPoolDelAndFree unlinked = .ok t) : t.circ = s.circ := by
  cases hset : s.cfx unlinked.cfx with
  | none =>
    rw [unlinkedPoolDelAndFree, hset] at ht
    cases ht
  | some set =>
    rw [unlinkedPoolDelAndFree_eq hset] at ht
    obtain rfl := ok.inj ht
    split <;> rfl

lemma circ_confluxMarkAllForClose (ht : s.confluxMarkAllForClose n = .ok t) :
    t.circ = s.circ := by
  rw [confluxMarkAllForClose] at ht
  split at ht
  · exact ok.inj ht ▸ rfl
  · next unlinked _ =>
      split at ht
      · cases hfree : s.unlinkedPoolDelAndFree unlinked with
        | error fault => rw [hfree] at ht; cases ht
        | ok s' =>
          rw [hfree] at ht
          obtain rfl := ok.inj ht
          have hcirc : s'.circ = s.circ := circ_unlinkedPoolDelAndFree hfree
          exact hcirc
      · cases hcircs : unlinked.legs.mapM (fun leg => deref leg.circ) with
        | error fault => rw [hcircs] at ht; cases ht
        | ok circs =>
          rw [hcircs] at ht
          exact ok.inj ht ▸ rfl

lemma keeps_unlinkedCircuitClosed (hd : s.circ d = some circ)
    (ht : unlinkedCircuitClosed (s.setCirc d (some circ')) d circ' n = .ok t)
    (hconflux : circ'.conflux = circ.conflux) : Keeps c s t := by
  rw [unlinkedCircuitClosed] at ht
  split at ht
  · exact ok.inj ht ▸ keeps_setCirc hd hconflux
  · next unlinked _ =>
      obtain ⟨circ₁, heq, hconflux₁, -⟩ :=
        exists_closed s d circ' ((legFind unlinked d).isSome = true)
      have hkeeps : Keeps c s (s.setCirc d (some circ₁)) :=
        keeps_setCirc hd (hconflux₁.trans hconflux)
      simp only [heq] at ht
      split at ht
      · exact hkeeps.trans (Keeps.of_circ (circ_unlinkedPoolDelAndFree ht))
      · obtain rfl := ok.inj ht
        refine hkeeps.trans (Keeps.of_circ ?_)
        split <;> rfl

/-- **A leg that closes** refers to its set no more, if another leg is left. -/
lemma conflux_linkedCircuitClosed (hset : s.cfx p = some set)
    (ht : s.linkedCircuitClosed c circ p = .ok t) :
    (∀ d, d ≠ c → Keeps d s t) ∧ Clears c (∃ d, d ≠ c ∧ set.HasLeg d) s t := by
  have hzero : (cfxDelLeg set.cfx c circ.inflight).1.numLegs = 0 ↔ ¬ ∃ d, d ≠ c ∧ set.HasLeg d := by
    rw [@numLegs_eq_zero_iff _ { set with cfx := (cfxDelLeg set.cfx c circ.inflight).1 }, not_exists]
    refine forall_congr' fun d => not_congr ?_
    rw [ConfluxSet.HasLeg, confluxGetLeg_cfxDelLeg, and_comm]
    rfl
  rw [linkedCircuitClosed, hset] at ht
  simp only [deref, bind, Except.bind] at ht
  have hcirc : t.circ = (if (cfxDelLeg set.cfx c circ.inflight).1.numLegs = 0 then s.circ
      else update s.circ c (some { circ with conflux := none })) := by
    split at ht
    · rw [circ_confluxMarkAllForClose ht]
      split <;> rfl
    · obtain rfl := ok.inj ht
      split <;> rfl
  split at hcirc
  · next hnone =>
      exact ⟨fun d _ => Keeps.of_circ hcirc,
        (Keeps.of_circ hcirc).clears fun hlegs => absurd hlegs (hzero.mp hnone)⟩
  · next hsome =>
      refine ⟨fun d hd circ₁ hc₁ => ⟨circ₁, ?_, rfl⟩, fun circ₁ _ => ⟨{ circ with conflux := none }, ?_,
        fun _ => rfl, fun hno => absurd (hzero.mpr hno) hsome⟩⟩
      · rw [hcirc, update_of_ne hd]
        exact hc₁
      · rw [hcirc]
        exact update_self _ _ _

lemma keeps_confluxLaunchLeg {established launched : Bool} (hc : c < s.nextCirc)
    (ht : s.confluxLaunchLeg n established = .ok (launched, t)) : Keeps c s t := by
  have hcreated := created s n
  rw [confluxLaunchLeg] at ht
  generalize s.unlinkedGetOrCreate n = r at hcreated ht
  obtain ⟨unlinked, y⟩ := r
  have hkeeps : Keeps c s (y.setCirc y.nextCirc (some
      { PoolCircuit.new with confluxPendingNonce := some n })) :=
    (Keeps.of_circ hcreated.circ).trans
      (keeps_setCirc_of_ne (Nat.ne_of_lt (hcreated.nextCirc ▸ hc)))
  simp only [bind, Except.bind] at ht
  cases hset : y.cfx unlinked.cfx with
  | none => rw [hset] at ht; cases ht
  | some set =>
    rw [hset] at ht
    simp only [deref] at ht
    split at ht
    · obtain ⟨-, rfl⟩ := Prod.mk.inj (ok.inj ht)
      exact Keeps.of_circ hcreated.circ
    · cases hexit : y.getExitForNonce n with
      | error fault => rw [hexit] at ht; cases ht
      | ok _ =>
        rw [hexit] at ht
        simp only at ht
        split at ht
        all_goals
          obtain ⟨-, rfl⟩ := Prod.mk.inj (ok.inj ht)
          exact hkeeps.trans (Keeps.of_circ rfl)

lemma keeps_launchMore {established : Bool} {numLegs : ℕ} (hc : c < s.nextCirc)
    (ht : s.launchMore n established numLegs = .ok t) : Keeps c s t := by
  cases numLegs with
  | zero => exact ok.inj ht ▸ Keeps.of_circ rfl
  | succ numLegs =>
    rw [launchMore] at ht
    cases hlaunch : s.confluxLaunchLeg n established with
    | error fault => rw [hlaunch] at ht; cases ht
    | ok r =>
      obtain ⟨launched, y⟩ := r
      rw [hlaunch] at ht
      obtain rfl := ok.inj ht
      refine (keeps_confluxLaunchLeg hc hlaunch).trans (Keeps.of_circ ?_)
      split <;> rfl

/-- **`circuit_mark_for_close`**, and what the circuits refer to. -/
lemma clears_circuitMarkForClose (ht : s.circuitMarkForClose d = .ok t) :
    Clears c (c = d ∧ HasOtherLeg s c) s t := by
  cases hd : s.circ d with
  | none =>
    rw [circuitMarkForClose, hd] at ht
    cases ht
  | some circ =>
    have hthis : ∀ {circ₁}, s.circ d = some circ₁ → circ₁ = circ := fun h =>
      some.inj (h.symm.trans hd)
    have hmark : Keeps c s (s.setCirc d (some { circ with markedForClose := true })) :=
      keeps_setCirc hd rfl
    obtain ⟨hmarked, heq⟩ | ⟨n, hpend, heq⟩ | ⟨p, hmarked, hpend, hconflux, heq⟩ |
      ⟨-, hconflux, heq⟩ := circuitMarkForClose_cases hd
    all_goals rw [heq] at ht
    · obtain rfl := ok.inj ht
      refine (Keeps.of_circ rfl).clears ?_
      rintro ⟨rfl, circ₁, p, set, hc₁, hmarked₁, -⟩
      rw [hthis hc₁, hmarked] at hmarked₁
      cases hmarked₁
    · refine (keeps_unlinkedCircuitClosed hd ht rfl).clears ?_
      rintro ⟨rfl, circ₁, p, set, hc₁, -, hpend₁, -⟩
      rw [hthis hc₁, hpend] at hpend₁
      cases hpend₁
    · cases hset : s.cfx p with
      | none =>
        rw [linkedCircuitClosed, show (s.setCirc d _).cfx p = none from hset] at ht
        cases ht
      | some set =>
        obtain ⟨hothers, hthis'⟩ := conflux_linkedCircuitClosed (c := d)
          (s := s.setCirc d (some { circ with markedForClose := true })) hset ht
        by_cases hcd : c = d
        · subst hcd
          intro circ₁ hc₁
          obtain rfl := hthis hc₁
          obtain ⟨circ', hc', hcleared, hkept⟩ := hthis' _ (update_self _ _ _)
          refine ⟨circ', hc', ?_, fun hno => hkept fun hlegs => hno ?_⟩
          · rintro ⟨-, circ₂, q, set₂, hc₂, -, -, hconflux₂, hset₂, hlegs⟩
            obtain rfl := hthis hc₂
            obtain rfl : p = q := some.inj (hconflux.symm.trans hconflux₂)
            obtain rfl := some.inj (hset.symm.trans hset₂)
            exact hcleared hlegs
          · exact ⟨rfl, circ₁, p, set, hd, hmarked, hpend, hconflux, hset, hlegs⟩
        · exact (hmark.trans (hothers c hcd)).clears fun h => hcd h.1
    · obtain rfl := ok.inj ht
      refine hmark.clears ?_
      rintro ⟨rfl, circ₁, p, set, hc₁, -, -, hconflux₁, -⟩
      rw [hthis hc₁, hconflux] at hconflux₁
      cases hconflux₁

lemma not_closesLeg_of_idle (hcalls : s.calls = []) : ¬ ClosesLeg c s e := by
  rintro ⟨⟨established, calls, -, hcalls'⟩, -⟩
  rw [hcalls] at hcalls'
  cases hcalls'

lemma keeps_of_effect (hlt : ∀ circ, s.circ c = some circ → c < s.nextCirc) (hcalls : s.calls = [])
    (he : isEffect e = true) (hexec : s.exec e = .ok t) : Keeps c s t := by
  rw [exec_nil hcalls] at hexec
  cases e with
  | createCircuit =>
    obtain rfl := ok.inj hexec
    split
    · exact Keeps.of_circ rfl
    · intro circ hc
      exact keeps_setCirc_of_ne (Nat.ne_of_lt (hlt circ hc)) circ hc
  | launchNewSet nonce | close d =>
    obtain rfl := ok.inj hexec
    exact Keeps.of_circ (by split <;> rfl)
  | traffic p cfx =>
    obtain rfl := ok.inj hexec
    refine Keeps.of_circ ?_
    split
    · split <;> rfl
    · rfl
  | inflight d inflight =>
    obtain rfl := ok.inj hexec
    split
    · next circ hd => exact keeps_setCirc hd rfl
    · exact Keeps.of_circ rfl
  | newParams maxLegsSet numLegsSet maxUnlinkedLegRetry =>
    obtain rfl := ok.inj hexec
    exact Keeps.of_circ rfl
  | runCall established => exact ok.inj hexec ▸ Keeps.of_circ rfl
  | _ => cases he

lemma clears_of_runCall {call : Call} {calls : List Call} {established : Bool}
    (hlt : ∀ circ, s.circ c = some circ → c < s.nextCirc) (hcalls : s.calls = call :: calls)
    (hexec : runCall { s with calls } established call = .ok t) :
    Clears c (ClosesLeg c s (.runCall established)) s t := by
  have hno : (∀ d, call ≠ .markForClose d) → ¬ ClosesLeg c s (.runCall established) := by
    rintro hcall ⟨⟨_, _, -, hcalls'⟩, -⟩
    rw [hcalls] at hcalls'
    exact hcall c (List.cons.inj hcalls').1
  cases call with
  | markForClose d =>
    intro circ hc
    obtain ⟨circ', hc', hcleared, hkept⟩ :=
      clears_circuitMarkForClose (s := { s with calls }) (c := c) hexec circ hc
    refine ⟨circ', hc', fun hcloses => hcleared ?_, fun hopen => hkept fun hcloses => hopen ?_⟩
    · obtain ⟨⟨_, _, -, hcalls'⟩, hother⟩ := hcloses
      rw [hcalls] at hcalls'
      exact ⟨(Call.markForClose.inj (List.cons.inj hcalls').1).symm, hother⟩
    · obtain ⟨rfl, hother⟩ := hcloses
      exact ⟨⟨established, calls, rfl, hcalls⟩, hother⟩
  | closeLinked nonce =>
    refine Keeps.clears ?_ (hno fun d hd => by cases hd)
    rcases closeLinked_cases (s := { s with calls }) hexec with rfl | ⟨p, set, -, rfl⟩
    · exact Keeps.of_circ rfl
    · exact Keeps.of_circ rfl
  | launchLeg nonce =>
    refine Keeps.clears ?_ (hno fun d hd => by cases hd)
    intro circ hc
    rw [runCall] at hexec
    cases hlaunch : confluxLaunchLeg { s with calls } nonce established with
    | error fault => rw [hlaunch] at hexec; cases hexec
    | ok r =>
      rw [hlaunch] at hexec
      obtain rfl := ok.inj hexec
      exact keeps_confluxLaunchLeg (s := { s with calls }) (hlt circ hc) hlaunch circ hc
  | launchMore nonce numLegs =>
    refine Keeps.clears ?_ (hno fun d hd => by cases hd)
    intro circ hc
    exact keeps_launchMore (s := { s with calls }) (hlt circ hc) hexec circ hc

/-- **An effect of processing a cell**, and what the circuits refer to. -/
lemma clears_of_step (hfresh : ∀ c, s.nextCirc ≤ c → s.circ c = none)
    (he : isEffect e = true) (hstep : step s e = some t) : Clears c (ClosesLeg c s e) s t := by
  have hexec : s.exec e = .ok t := exec_of_step hstep
  have hlt : ∀ circ, s.circ c = some circ → c < s.nextCirc := by
    intro circ hc
    by_contra hle
    rw [hfresh c (Nat.not_lt.mp hle)] at hc
    cases hc
  cases hcalls : s.calls with
  | nil => exact (keeps_of_effect hlt hcalls he hexec).clears (not_closesLeg_of_idle hcalls)
  | cons call calls =>
    by_cases hrun : ∃ established, e = .runCall established
    · obtain ⟨established, rfl⟩ := hrun
      rw [exec_runCall hcalls] at hexec
      exact clears_of_runCall hlt hcalls hexec
    · rw [exec_busy hcalls fun established heq => hrun ⟨established, heq⟩] at hexec
      refine Keeps.clears (ok.inj hexec ▸ Keeps.of_circ rfl) ?_
      rintro ⟨⟨established, -, heq, -⟩, -⟩
      exact hrun ⟨established, heq⟩

/-- **What processing a cell does** to the pointer of its circuit: it is null exactly if the
circuit was closed while another leg was left. -/
lemma clears_of_reaches (h : Sound s) (hes : es.all isEffect = true) (hrun : Reaches step s es t) :
    Clears c (¬ Meets step (fun s e => ¬ ClosesLeg c s e) s es) s t := by
  induction es generalizing s with
  | nil =>
    obtain rfl := reaches_nil.mp hrun
    exact (Keeps.of_circ rfl).clears fun hno => hno meets_nil
  | cons e es ih =>
    obtain ⟨u, hu, htail⟩ := reaches_cons.mp hrun
    rw [List.all_cons, Bool.and_eq_true] at hes
    intro circ hc
    obtain ⟨circ₁, hc₁, hcleared₁, hkept₁⟩ := clears_of_step h.circ_fresh hes.1 hu circ hc
    obtain ⟨circ₂, hc₂, hcleared₂, hkept₂⟩ := ih (h.of_step hu) hes.2 htail circ₁ hc₁
    refine ⟨circ₂, hc₂, fun hno => ?_, fun hmeets => ?_⟩
    · by_cases hmeets : Meets step (fun s e => ¬ ClosesLeg c s e) u es
      · refine (hkept₂ (not_not.mpr hmeets)).trans (hcleared₁ ?_)
        by_contra hopen
        refine hno (meets_cons.mpr ⟨hopen, fun u' hu' => ?_⟩)
        obtain rfl := some.inj (hu.symm.trans hu')
        exact hmeets
      · exact hcleared₂ hmeets
    · obtain ⟨hopen, hrest⟩ := meets_cons.mp (not_not.mp hmeets)
      exact (hkept₂ (not_not.mpr (hrest u hu))).trans (hkept₁ hopen)

end Pool

/-! ## The loop -/

namespace Delivering

variable {s t : Delivering α} {e : DeliveryEvent α} {c : ℕ} {pool pool' : Pool α}

/-- **The invariant of the loop**: the circuit whose cell is being processed has a set. -/
structure Inv (s : Delivering α) : Prop where
  sound : s.pool.Sound
  linked : ∀ c, s.handling = some c → ∃ p, s.pool.Holds c p

lemma foldlM_exec {es : List (PoolEvent α)} :
    es.foldlM Pool.exec pool = .ok pool' ↔ Reaches Pool.step pool es pool' := by
  induction es generalizing pool with
  | nil => exact ⟨fun h => reaches_nil.mpr (ok.inj h),
      fun h => congrArg Except.ok (reaches_nil.mp h)⟩
  | cons e es ih =>
    rw [List.foldlM_cons, reaches_cons]
    constructor
    · intro h
      cases hexec : pool.exec e with
      | error fault => rw [hexec] at h; cases h
      | ok next =>
        rw [hexec] at h
        exact ⟨next, by rw [Pool.step, hexec]; rfl, ih.mp h⟩
    · rintro ⟨next, hnext, htail⟩
      rw [Pool.exec_of_step hnext]
      exact ih.mpr htail

lemma sound_setCfx {p : ℕ} {set : ConfluxSet α} {cfx : Cfx ℕ α} (h : pool.Sound)
    (hcalls : pool.calls = []) (hset : pool.cfx p = some set)
    (hlegs : cfx.legs.entries.map Prod.fst = set.cfx.legs.entries.map Prod.fst)
    (hfull : cfx.inFullTeardown = set.cfx.inFullTeardown) :
    (pool.setCfx p (some { set with cfx })).Sound := by
  refine h.of_step (e := .traffic p cfx) ?_
  rw [Pool.step, Pool.exec_nil hcalls, Pool.event, hset]
  simp only
  rw [if_pos ⟨hlegs, hfull⟩]
  rfl

lemma Inv.mainLoop {e : PoolEvent α} (h : pool.Sound)
    (ht : Delivering.mainLoop (pool.exec e) = .ok t) : Inv t := by
  cases hexec : pool.exec e with
  | error fault => rw [hexec] at ht; cases ht
  | ok next =>
    rw [hexec] at ht
    obtain rfl := ok.inj ht
    refine ⟨h.of_step (e := e) ?_, fun c hc => by cases hc⟩
    rw [Pool.step, hexec]
    rfl

lemma confluxProcessCell_same (cfx : Cfx ℕ α) (c : ℕ) (sourceHop : Bool) (cell : α) :
    (confluxProcessCell cfx c sourceHop cell).cfx.legs.entries.map Prod.fst
        = cfx.legs.entries.map Prod.fst
      ∧ (confluxProcessCell cfx c sourceHop cell).cfx.inFullTeardown = cfx.inFullTeardown := by
  rcases cfx_confluxProcessCell cfx c sourceHop cell with heq | ⟨f, oooQ, lastSeqDelivered, heq⟩
  · rw [heq]
    exact ⟨rfl, rfl⟩
  · rw [heq]
    exact ⟨AssocMap.map_fst_update _ c f, rfl⟩

lemma Inv.relayCell {sourceHop : Bool} {cell : α} (h : pool.Sound) (hcalls : pool.calls = [])
    (ht : Delivering.relayCell pool c sourceHop cell = .ok t) : Inv t := by
  rw [Delivering.relayCell] at ht
  split at ht
  · obtain rfl := ok.inj ht
    exact ⟨h, fun c hc => by cases hc⟩
  next circ hcirc =>
  split at ht
  · obtain rfl := ok.inj ht
    exact ⟨h, fun c hc => by cases hc⟩
  next p hconflux =>
  split at ht
  · cases ht
  next set hset =>
  obtain ⟨hlegs, hfull⟩ := confluxProcessCell_same set.cfx c sourceHop cell
  have hsound := sound_setCfx h hcalls hset hlegs hfull
  simp only at ht
  split at ht
  · exact Inv.mainLoop hsound ht
  · obtain rfl := ok.inj ht
    refine ⟨hsound, fun d hd => ⟨p, ?_⟩⟩
    split at hd
    · obtain rfl := some.inj hd
      exact ⟨circ, hcirc, hconflux⟩
    · cases hd

lemma confluxDequeueCell_same {cfx cfx' : Cfx ℕ α} {cell : α}
    (h : confluxDequeueCell cfx = some (cell, cfx')) :
    cfx'.legs = cfx.legs ∧ cfx'.inFullTeardown = cfx.inFullTeardown := by
  obtain ⟨top, oooQ, -, -, -, rfl⟩ := confluxDequeueCell_eq_some h
  exact ⟨rfl, rfl⟩

lemma Inv.dequeueCell (h : pool.Sound) (hcalls : pool.calls = [])
    (ht : Delivering.dequeueCell pool c = .ok t) : Inv t := by
  rw [Delivering.dequeueCell] at ht
  split at ht
  · cases ht
  next circ hcirc =>
  split at ht
  · cases ht
  next p hconflux =>
  split at ht
  · cases ht
  next set hset =>
  split at ht
  · obtain rfl := ok.inj ht
    exact ⟨h, fun c hc => by cases hc⟩
  · next cell cfx hcell =>
      obtain rfl := ok.inj ht
      obtain ⟨hlegs, hfull⟩ := confluxDequeueCell_same hcell
      refine ⟨sound_setCfx h hcalls hset (by rw [hlegs]) hfull, fun d hd => ⟨p, ?_⟩⟩
      obtain rfl := some.inj hd
      exact ⟨circ, hcirc, hconflux⟩

/-- **A step keeps the invariant.** -/
lemma Inv.of_step (s : Delivering α) (e : DeliveryEvent α) (t : Delivering α) (h : Inv s)
    (hstep : step s e = some t) : Inv t := by
  have hexec : s.exec e = .ok t := by
    rw [step] at hstep
    cases hr : s.exec e with
    | error fault => rw [hr] at hstep; cases hstep
    | ok t' => rw [hr] at hstep; exact congrArg Except.ok (some.inj hstep)
  cases e with
  | main e =>
    rw [exec] at hexec
    split at hexec
    · exact ok.inj hexec ▸ h
    · exact Inv.mainLoop h.sound hexec
  | relayCell c sourceHop cell =>
    rw [exec] at hexec
    split at hexec
    · next hguard => exact Inv.relayCell h.sound hguard.2.1 hexec
    · exact ok.inj hexec ▸ h
  | processed effects ret =>
    rw [exec] at hexec
    split at hexec
    · exact ok.inj hexec ▸ h
    next c hc =>
    split at hexec
    · split at hexec
      · cases hexec
      next pool hpool =>
      split at hexec
      · next hcalls =>
          have hsound : pool.Sound := invariant_of_reaches (fun s e t hs ht => hs.of_step ht)
            h.sound (foldlM_exec.mp hpool)
          rw [returned] at hexec
          split at hexec
          · exact Inv.mainLoop hsound hexec
          · exact Inv.dequeueCell hsound hcalls hexec
      · exact ok.inj hexec ▸ h
    · exact ok.inj hexec ▸ h

variable {fault : DeliveryFault}

lemma fault_eq : s.fault e = some fault ↔ s.exec e = .error fault := by
  rw [Delivering.fault]
  split
  · next hexec => simp [hexec]
  · next hexec => simp [hexec]

lemma mainLoop_ne {r : Except Fault (Pool α)}
    (h : Delivering.mainLoop r = .error fault) : ∃ f, fault = .pool f := by
  cases r with
  | ok pool => cases h
  | error f => exact ⟨f, (Except.error.inj h).symm⟩

lemma dequeueCell_error (h : pool.Sound) (hc : ∃ circ, pool.circ c = some circ) :
    Delivering.dequeueCell pool c = .error fault
      ↔ fault = .nullConflux ∧ ∀ circ, pool.circ c = some circ → circ.conflux = none := by
  obtain ⟨circ, hcirc⟩ := hc
  rw [Delivering.dequeueCell, hcirc]
  cases hconflux : circ.conflux with
  | none => simp [hconflux, eq_comm]
  | some p =>
    obtain ⟨set, hset⟩ := h.held ⟨circ, hcirc, hconflux⟩
    simp only [hconflux]
    rw [hset]
    simp only
    cases confluxDequeueCell set.cfx with
    | none => simp [hconflux]
    | some r => simp [hconflux]

lemma Inv.conflux_none_iff {effects : List (PoolEvent α)} (h : Inv s) (hp : s.pool.Holds c p)
    (heffects : effects.all isEffect = true) (hreach : Reaches Pool.step s.pool effects pool) :
    ∃ circ, pool.circ c = some circ ∧ ((∀ circ, pool.circ c = some circ → circ.conflux = none)
      ↔ ¬ Meets Pool.step (fun s e => ¬ ClosesLeg c s e) s.pool effects) := by
  obtain ⟨circ, hcirc, hconflux⟩ := hp
  obtain ⟨circ', hcirc', hcleared, hkept⟩ :=
    Pool.clears_of_reaches h.sound heffects hreach circ hcirc
  refine ⟨circ', hcirc', fun hall hmeets => ?_, fun hno circ₁ hcirc₁ => ?_⟩
  · have hsome := hkept (not_not.mpr hmeets)
    rw [hall circ' hcirc', hconflux] at hsome
    cases hsome
  · obtain rfl := some.inj (hcirc'.symm.trans hcirc₁)
    exact hcleared hno

/-- **One cell.**  The call after it is made with a set that is there, exactly if its processing
kept the leg, or failed. -/
lemma Inv.dequeuesLive (h : Inv s) : s.DequeuesLive e ↔ s.KeepsLeg e := by
  rw [DequeuesLive, Ne, Ne, fault_eq, fault_eq]
  have hmain : ∀ r : Except Fault (Pool α), (¬ Delivering.mainLoop r = .error .nullConflux)
      ∧ ¬ Delivering.mainLoop r = .error .freedConflux := by
    intro r
    refine ⟨fun hr => ?_, fun hr => ?_⟩
    all_goals
      obtain ⟨f, hf⟩ := mainLoop_ne hr
      cases hf
  cases e with
  | main e =>
    rw [exec]
    refine iff_of_true ?_ trivial
    split
    · simp
    · exact hmain _
  | relayCell c sourceHop cell =>
    rw [exec]
    refine iff_of_true ?_ trivial
    split
    · rw [Delivering.relayCell]
      split
      · simp
      split
      · simp
      split
      · simp
      simp only
      split
      · exact hmain _
      · simp
    · simp
  | processed effects ret =>
    rw [exec, KeepsLeg]
    split
    · next hnone => simp [hnone]
    next c hc =>
    obtain ⟨p, hp⟩ := h.linked c hc
    split
    · next heffects =>
        split
        · next fault hfault =>
            refine iff_of_true (by simp) fun c' t hc' _ ht => ?_
            rw [foldlM_exec.mpr ht] at hfault
            cases hfault
        next pool hpool =>
        have hreach := foldlM_exec.mp hpool
        have hsound : pool.Sound := invariant_of_reaches (fun s e t hs ht => hs.of_step ht)
          h.sound hreach
        have hthis : ∀ t, Reaches Pool.step s.pool effects t → t = pool := fun t ht =>
          ht.unique hreach
        split
        · next hcalls =>
            rw [returned]
            split
            · next hret =>
                refine iff_of_true (hmain _) fun c' t _ _ _ _ hnonneg => ?_
                omega
            · next hret =>
                obtain ⟨circ', hcirc', hlive⟩ := h.conflux_none_iff hp heffects hreach
                rw [dequeueCell_error hsound ⟨circ', hcirc'⟩, dequeueCell_error hsound ⟨circ', hcirc'⟩,
                  hlive]
                simp only [reduceCtorEq, true_and, false_and, not_false_eq_true, and_true, not_not]
                constructor
                · intro hmeets c' t hc' _ _ _ _
                  obtain rfl := some.inj (hc.symm.trans hc')
                  exact hmeets
                · intro hkeeps
                  exact hkeeps c pool hc heffects hreach hcalls (by omega)
        · next hcalls =>
            refine iff_of_true (by simp) fun c' t _ _ ht htcalls => ?_
            rw [hthis t ht] at htcalls
            exact absurd htcalls hcalls
    · next heffects =>
        refine iff_of_true (by simp) fun c' t _ hall => ?_
        exact absurd hall heffects

lemma inv_init (isClient : Bool) (maxLegsSet numLegsSet maxUnlinkedLegRetry : ℕ) :
    Inv (init isClient maxLegsSet numLegsSet maxUnlinkedLegRetry : Delivering α) :=
  ⟨Or.inl (Pool.inv_init _ _ _ _), fun c hc => by cases hc⟩

/-- **`conflux_dequeue_cell` is called with a set that is there**, all along a run, exactly if no
cell whose processing returns success closes its own circuit while another leg of the set is left. -/
theorem dequeuesLive_iff (isClient : Bool) (maxLegsSet numLegsSet maxUnlinkedLegRetry : ℕ)
    (es : List (DeliveryEvent α)) :
    Meets step DequeuesLive (init isClient maxLegsSet numLegsSet maxUnlinkedLegRetry) es
      ↔ Meets step KeepsLeg (init isClient maxLegsSet numLegsSet maxUnlinkedLegRetry) es :=
  meets_congr Inv.of_step (inv_init _ _ _ _) fun _ _ h => h.dequeuesLive

/-- A relay with two legs: processing a cell of one of them closes it, and returns success. -/
theorem dequeuesLive_fails : ¬ ∀ es : List (DeliveryEvent Unit),
    Meets step DequeuesLive (init false 8 2 3) es := by
  intro h
  have hrun : Meets step DequeuesLive (init false 8 2 3 : Delivering Unit)
      [.main .createCircuit, .main .createCircuit,
        .main (.link 0 (some ⟨1, Vector.replicate 32 0, 0, 0⟩) true true true),
        .main (.link 1 (some ⟨1, Vector.replicate 32 0, 0, 0⟩) true true true),
        .relayCell 0 true (),
        .processed [.close 0, .runCall true, .runCall true, .runCall true] 0] := h _
  revert hrun
  decide

end Delivering

end Ator.Conflux
