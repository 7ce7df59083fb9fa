import AtorProtocol.Circpad.Negotiate
import Mathlib.Data.List.Basic

/-!
# One slot of a circuit, seen from both ends

What the negotiation of padding machines comes to for one slot: the client starts and stops one
machine after the other, and the relay follows.  Each machine that the client starts is a `Tag`.

* `Slot.Step` — what can happen to a slot; a cell on its way is in `up` or in `down`.
* `Slot.Inv` — what holds in between.
* `Slot.Inv.step` — each step keeps it.
-/

namespace Ator.Circpad

open List

/-- A machine that the client has started: its number, its counter, and how many machines the client
has started with it. -/
structure Tag where
  num : UInt8
  ctr : UInt32
  inst : ℕ
  deriving DecidableEq

/-- What a cell to the client says of a machine. -/
inductive Answer where
  | started
  | stopped
  | padding
  deriving DecidableEq

/-- The client has a machine that runs, or a placeholder for one that it has stopped.  Cells arrive
in the order of the lists. -/
structure Slot where
  client : Option (Tag × Bool)
  relay : Option Tag
  up : List (Command × Tag)
  down : List (Answer × Tag)

/-- The machines that a relay slot goes through with the commands of a list; it starts none where one
runs, and stops no other than the one that runs. -/
def Runs : Option Tag → List (Command × Tag) → Option Tag → Prop
  | relay, [], last => relay = last
  | relay, (.start, t) :: up, last => relay = none ∧ Runs (some t) up last
  | relay, (.stop, t) :: up, last => (∀ u, relay = some u → u = t) ∧ Runs none up last

lemma runs_append {up up' : List (Command × Tag)} {relay last : Option Tag} :
    Runs relay (up ++ up') last ↔ ∃ mid, Runs relay up mid ∧ Runs mid up' last := by
  induction up generalizing relay with
  | nil => simp [Runs]
  | cons x up ih =>
    obtain ⟨command, t⟩ := x
    cases command with
    | start | stop => simp [Runs, ih, and_assoc]

variable {up : List (Command × Tag)} {t : Tag}

lemma Runs.ended {last : Option Tag}
    (h : Runs (some t) up last) : ∃ last', Runs none up last' ∧ (last' = none ∨ last' = last) := by
  cases up with
  | nil => exact ⟨none, rfl, .inl rfl⟩
  | cons x up =>
    obtain ⟨command, u⟩ := x
    cases command with
    | start => cases h.1
    | stop =>
      refine ⟨last, ⟨?_, h.2⟩, .inr rfl⟩
      intro v hv
      cases hv

lemma runs_none (h : ∀ x ∈ up, x.1 ≠ .start) : Runs none up none := by
  induction up with
  | nil => rfl
  | cons x up ih =>
    obtain ⟨command, t⟩ := x
    cases command with
    | start => exact absurd rfl (h _ mem_cons_self)
    | stop =>
      refine ⟨?_, ih fun x hx => h x (mem_cons_of_mem _ hx)⟩
      intro u hu
      cases hu

namespace Slot

variable {s s' : Slot}

/-- The machines of which the client can still hear, in the order of the cells.  A mark is true where
the client has yet to hear that the machine is stopped. -/
def track (s : Slot) : List (Bool × Tag) :=
  s.down.map (fun x => (decide (x.1 = .stopped), x.2)) ++ (s.relay.toList.map fun t => (true, t))
    ++ (s.up.filter fun x => x.1 = .start).map fun x => (true, x.2)

/-- The later machines come later. -/
def Before (x y : Bool × Tag) : Prop := x.1 = true → x.2.inst < y.2.inst

/-- `circpad_handle_padding_negotiated` takes an answer to a STOP of `u` for one of `t`. -/
def Takes (u t : Tag) (running : Bool) : Prop := u.num = t.num ∧ (running = true → u.ctr = t.ctr)

/-- What can happen to a slot.  A relay that ends a machine says so after all it has said of it, and
padding comes before what the relay is still to send. -/
inductive Step (s : Slot) : Slot → Prop
  | start (t : Tag) (hrest : ∀ u running, s.client = some (u, running) →
        running = false ∧ u.inst < t.inst)
      (hfresh : ∀ x ∈ s.track, x.1 = true → x.2.num = t.num → x.2.ctr ≠ t.ctr) :
      Step s { s with client := some (t, true), up := s.up ++ [(.start, t)] }
  | stop (t : Tag) (hclient : s.client = some (t, true))
      (hsettled : ∀ x ∈ s.track, x.1 = true → x.2.num = t.num → x.2.inst = t.inst) :
      Step s { s with client := some (t, false), up := s.up ++ [(.stop, t)] }
  | relayStart (t : Tag) (up : List (Command × Tag)) (hup : s.up = (.start, t) :: up) :
      Step s { s with relay := some t, up := up, down := s.down ++ [(.started, t)] }
  | relayStop (t : Tag) (up : List (Command × Tag)) (hup : s.up = (.stop, t) :: up)
      (hrelay : s.relay = some t) :
      Step s { s with relay := none, up := up, down := s.down ++ [(.stopped, t)] }
  | relayIgnores (t : Tag) (up : List (Command × Tag)) (hup : s.up = (.stop, t) :: up)
      (hrelay : s.relay = none) : Step s { s with up := up }
  | relayEnds (t : Tag) (hrelay : s.relay = some t) :
      Step s { s with relay := none, down := s.down ++ [(.stopped, t)] }
  | relayPads (t : Tag) (before after : List (Answer × Tag)) (hrelay : s.relay = some t)
      (hdown : s.down = before ++ after) :
      Step s { s with down := before ++ (.padding, t) :: after }
  | receive (x : Answer × Tag) (down : List (Answer × Tag)) (hdown : s.down = x :: down) :
      Step s { s with down := down }
  | free (u t : Tag) (running : Bool) (down : List (Answer × Tag))
      (hdown : s.down = (.stopped, u) :: down) (hclient : s.client = some (t, running))
      (htakes : Takes u t running) : Step s { s with client := none, down := down }

/-- What holds between the steps: the relay can follow the commands on their way, the later machines
come later, the client has a slot for what it hears, and takes no answer for another's. -/
structure Inv (s : Slot) : Prop where
  runs : ∃ last, Runs s.relay s.up last ∧ ∀ t, last = some t → s.client = some (t, true)
  ordered : s.track.Pairwise Before
  current : ∀ x ∈ s.track, ∃ t running, s.client = some (t, running) ∧ x.2.inst ≤ t.inst
  own : ∀ t running, s.client = some (t, running) →
    ∀ x ∈ s.track, x.1 = true → Takes x.2 t running → x.2.inst = t.inst

/-! ## What each side knows -/

lemma Inv.client_of_up_nil (h : s.Inv) (hup : s.up = []) (hrelay : s.relay = some t) :
    s.client = some (t, true) := by
  obtain ⟨last, hruns, hlast⟩ := h.runs
  rw [hup, hrelay] at hruns
  exact hlast t hruns.symm

lemma Inv.relay_of_start (h : s.Inv)
    (hup : s.up = (.start, t) :: up) : s.relay = none := by
  obtain ⟨last, hruns, -⟩ := h.runs
  rw [hup] at hruns
  exact hruns.1

lemma Inv.relay_of_stop {t u : Tag} (h : s.Inv)
    (hup : s.up = (.stop, t) :: up) (hrelay : s.relay = some u) : u = t := by
  obtain ⟨last, hruns, -⟩ := h.runs
  rw [hup] at hruns
  exact hruns.1 u hrelay

variable {x : Answer × Tag}

lemma mem_track_of_down (hx : x ∈ s.down) :
    (decide (x.1 = .stopped), x.2) ∈ s.track := by
  simp only [track, append_assoc, mem_append]
  exact .inl (List.mem_map.mpr ⟨x, hx, rfl⟩)

lemma Inv.client_of_down (h : s.Inv) (hx : x ∈ s.down) : s.client ≠ none := by
  obtain ⟨t, running, hclient, -⟩ := h.current _ (mem_track_of_down hx)
  rw [hclient]
  exact Option.some_ne_none _

lemma Inv.own_of_down {u t : Tag} {running : Bool} (h : s.Inv) (hu : (Answer.stopped, u) ∈ s.down)
    (hclient : s.client = some (t, running)) (htakes : Takes u t running) : u.inst = t.inst :=
  h.own t running hclient (true, u) (mem_track_of_down hu) rfl htakes

/-! ## Steps -/

lemma Inv.of_sublist (h : s.Inv) (hclient : s'.client = s.client)
    (hsub : s'.track.Sublist s.track)
    (hruns : ∃ last, Runs s'.relay s'.up last ∧ ∀ t, last = some t → s.client = some (t, true)) :
    s'.Inv := by
  refine ⟨by rwa [hclient], h.ordered.sublist hsub, fun x hx => ?_, fun t running ht x hx => ?_⟩
  · rw [hclient]
    exact h.current x (hsub.subset hx)
  · rw [hclient] at ht
    exact h.own t running ht x (hsub.subset hx)

lemma Inv.of_insert {xs ys : List (Bool × Tag)} (h : s.Inv)
    (hclient : s'.client = s.client) (htrack : s.track = xs ++ ys)
    (htrack' : s'.track = xs ++ (false, t) :: ys) (hmem : (true, t) ∈ ys)
    (hruns : ∃ last, Runs s'.relay s'.up last ∧ ∀ t, last = some t → s.client = some (t, true)) :
    s'.Inv := by
  have hordered := h.ordered
  rw [htrack, List.pairwise_append] at hordered
  obtain ⟨hxs, hys, hcross⟩ := hordered
  refine ⟨by rwa [hclient], ?_, fun x hx => ?_, fun u running hu x hx htrue => ?_⟩
  · rw [htrack', List.pairwise_append]
    refine ⟨hxs, pairwise_cons.mpr ⟨?_, hys⟩, fun x hx y hy => ?_⟩
    · intro y _ hfalse
      cases hfalse
    · rcases mem_cons.mp hy with rfl | hy
      · exact hcross x hx (true, t) hmem
      · exact hcross x hx y hy
  · rw [hclient]
    rw [htrack', mem_append, mem_cons] at hx
    rcases hx with hx | rfl | hx
    · exact h.current x (htrack ▸ mem_append_left ys hx)
    · exact h.current (true, t) (htrack ▸ mem_append_right xs hmem)
    · exact h.current x (htrack ▸ mem_append_right xs hx)
  · rw [hclient] at hu
    rw [htrack', mem_append, mem_cons] at hx
    rcases hx with hx | rfl | hx
    · exact h.own u running hu x (htrack ▸ mem_append_left ys hx) htrue
    · cases htrue
    · exact h.own u running hu x (htrack ▸ mem_append_right xs hx) htrue

lemma Inv.start (h : s.Inv)
    (hrest : ∀ u running, s.client = some (u, running) → running = false ∧ u.inst < t.inst)
    (hfresh : ∀ x ∈ s.track, x.1 = true → x.2.num = t.num → x.2.ctr ≠ t.ctr) :
    Inv { s with client := some (t, true), up := s.up ++ [(.start, t)] } := by
  have htrack : track { s with client := some (t, true), up := s.up ++ [(.start, t)] }
      = s.track ++ [(true, t)] := by
    simp [track]
  have hlt : ∀ x ∈ s.track, x.2.inst < t.inst := by
    intro x hx
    obtain ⟨u, running, hclient, hle⟩ := h.current x hx
    exact Nat.lt_of_le_of_lt hle (hrest u running hclient).2
  refine ⟨⟨some t, ?_, fun u hu => ?_⟩, ?_, fun x hx => ?_, fun u running hu x hx htrue htakes => ?_⟩
  · obtain ⟨last, hruns, hlast⟩ := h.runs
    refine runs_append.mpr ⟨none, ?_, rfl, rfl⟩
    cases last with
    | none => exact hruns
    | some u => cases (hrest u true (hlast u rfl)).1
  · cases hu
    rfl
  · rw [htrack, List.pairwise_append]
    refine ⟨h.ordered, pairwise_singleton _ _, fun x hx y hy _ => ?_⟩
    rw [mem_singleton.mp hy]
    exact hlt x hx
  · rw [htrack, mem_append, mem_singleton] at hx
    refine ⟨t, true, rfl, ?_⟩
    rcases hx with hx | rfl
    · exact Nat.le_of_lt (hlt x hx)
    · exact Nat.le_refl _
  · cases hu
    rw [htrack, mem_append, mem_singleton] at hx
    rcases hx with hx | rfl
    · exact absurd (htakes.2 rfl) (hfresh x hx htrue htakes.1)
    · rfl

lemma Inv.stop (h : s.Inv) (hclient : s.client = some (t, true))
    (hsettled : ∀ x ∈ s.track, x.1 = true → x.2.num = t.num → x.2.inst = t.inst) :
    Inv { s with client := some (t, false), up := s.up ++ [(.stop, t)] } := by
  have htrack : track { s with client := some (t, false), up := s.up ++ [(.stop, t)] }
      = s.track := by
    simp [track]
  refine ⟨⟨none, ?_, fun u hu => ?_⟩, ?_, fun x hx => ?_, fun u running hu x hx htrue htakes => ?_⟩
  · obtain ⟨last, hruns, hlast⟩ := h.runs
    refine runs_append.mpr ⟨last, hruns, fun u hu => ?_, rfl⟩
    have heq := hlast u hu
    rw [hclient] at heq
    cases heq
    rfl
  · cases hu
  · rw [htrack]
    exact h.ordered
  · rw [htrack] at hx
    obtain ⟨u, running, hu, hle⟩ := h.current x hx
    rw [hclient] at hu
    cases hu
    exact ⟨t, false, rfl, hle⟩
  · cases hu
    rw [htrack] at hx
    exact hsettled x hx htrue htakes.1

lemma Inv.relayStart (h : s.Inv)
    (hup : s.up = (.start, t) :: up) :
    Inv { s with relay := some t, up := up, down := s.down ++ [(.started, t)] } := by
  obtain ⟨last, hruns, hlast⟩ := h.runs
  have hrelay := h.relay_of_start hup
  rw [hup] at hruns
  have htrack : s.track = s.down.map (fun x => (decide (x.1 = .stopped), x.2))
      ++ (true, t) :: (up.filter fun x => x.1 = .start).map fun x => (true, x.2) := by
    simp [track, hup, hrelay]
  refine h.of_insert rfl htrack ?_ mem_cons_self ⟨last, hruns.2, hlast⟩
  simp [track]

lemma Inv.relayStop (h : s.Inv)
    (hup : s.up = (.stop, t) :: up) (hrelay : s.relay = some t) :
    Inv { s with relay := none, up := up, down := s.down ++ [(.stopped, t)] } := by
  obtain ⟨last, hruns, hlast⟩ := h.runs
  rw [hup] at hruns
  refine h.of_sublist rfl ?_ ⟨last, hruns.2, hlast⟩
  simp [track, hup, hrelay]

lemma Inv.relayIgnores (h : s.Inv)
    (hup : s.up = (.stop, t) :: up) (hrelay : s.relay = none) : Inv { s with up := up } := by
  obtain ⟨last, hruns, hlast⟩ := h.runs
  rw [hup] at hruns
  refine h.of_sublist rfl ?_ ⟨last, hrelay ▸ hruns.2, hlast⟩
  simp [track, hup]

lemma Inv.relayEnds (h : s.Inv) (hrelay : s.relay = some t) :
    Inv { s with relay := none, down := s.down ++ [(.stopped, t)] } := by
  obtain ⟨last, hruns, hlast⟩ := h.runs
  rw [hrelay] at hruns
  obtain ⟨last', hruns', hlast'⟩ := hruns.ended
  refine h.of_sublist rfl ?_ ⟨last', hruns', fun u hu => ?_⟩
  · simp [track, hrelay]
  · rcases hlast' with rfl | rfl
    · cases hu
    · exact hlast u hu

lemma Inv.relayPads {before after : List (Answer × Tag)} (h : s.Inv)
    (hrelay : s.relay = some t) (hdown : s.down = before ++ after) :
    Inv { s with down := before ++ (.padding, t) :: after } := by
  have htrack : s.track = before.map (fun x => (decide (x.1 = .stopped), x.2))
      ++ (after.map (fun x => (decide (x.1 = .stopped), x.2))
        ++ (true, t) :: (s.up.filter fun x => x.1 = .start).map fun x => (true, x.2)) := by
    simp [track, hrelay, hdown]
  refine h.of_insert rfl htrack ?_ (mem_append_right _ mem_cons_self) h.runs
  simp [track, hrelay]

lemma Inv.receive {down : List (Answer × Tag)} (h : s.Inv)
    (hdown : s.down = x :: down) : Inv { s with down := down } := by
  refine h.of_sublist rfl ?_ h.runs
  simp [track, hdown]

lemma Inv.free {u t : Tag} {running : Bool} {down : List (Answer × Tag)} (h : s.Inv)
    (hdown : s.down = (.stopped, u) :: down) (hclient : s.client = some (t, running))
    (htakes : Takes u t running) : Inv { s with client := none, down := down } := by
  have hu : u.inst = t.inst := by
    refine h.own_of_down ?_ hclient htakes
    rw [hdown]
    exact mem_cons_self
  have hhead : s.track = (true, u) :: track { s with client := none, down := down } := by
    simp [track, hdown]
  have hnil : track { s with client := none, down := down } = [] := by
    refine eq_nil_iff_forall_not_mem.mpr fun x hx => ?_
    have hordered := h.ordered
    rw [hhead, pairwise_cons] at hordered
    have hlt : u.inst < x.2.inst := hordered.1 x hx rfl
    obtain ⟨t', running', hclient', hle⟩ := h.current x (hhead ▸ mem_cons_of_mem _ hx)
    rw [hclient] at hclient'
    cases hclient'
    omega
  have hempty := hnil
  simp only [track, append_eq_nil_iff, map_eq_nil_iff, Option.toList_eq_nil_iff,
    filter_eq_nil_iff] at hempty
  obtain ⟨⟨-, hrelay⟩, hup⟩ := hempty
  refine ⟨⟨none, ?_, fun t ht => ?_⟩, ?_, fun x hx => ?_, fun t running ht => ?_⟩
  · simp only [hrelay]
    exact runs_none fun x hx => by simpa using hup x hx
  · cases ht
  · rw [hnil]
    exact List.Pairwise.nil
  · rw [hnil] at hx
    cases hx
  · cases ht

/-- **Each step keeps the invariant.** -/
theorem Inv.step (h : s.Inv) (hstep : Step s s') : s'.Inv := by
  cases hstep with
  | start t hrest hfresh => exact h.start hrest hfresh
  | stop t hclient hsettled => exact h.stop hclient hsettled
  | relayStart t up hup => exact h.relayStart hup
  | relayStop t up hup hrelay => exact h.relayStop hup hrelay
  | relayIgnores t up hup hrelay => exact h.relayIgnores hup hrelay
  | relayEnds t hrelay => exact h.relayEnds hrelay
  | relayPads t before after hrelay hdown => exact h.relayPads hrelay hdown
  | receive x down hdown => exact h.receive hdown
  | free u t running down hdown hclient htakes => exact h.free hdown hclient htakes

end Slot

end Ator.Circpad
