import AtorProtocol.Lib.HeapOrder
import AtorProtocol.Lib.Run
import Mathlib.Data.List.Nodup

/-!
# Priority queues

The runs of a smartlist priority queue (`src/lib/container/smartlist.c`), from a queue without
items.

* `Queue.Right` — the heap order, the index of every member, and the members.
* `Queue.Answers` — the item that is popped is a least one, and no member is refused.
* `pqueueRight_iff` — all of that holds all along a run exactly when no item is added twice, and no
  removal puts the last item below one that it comes before.
* `popsInOrder_of_meets` — and then popping everything sorts.
-/

namespace Ator.Pqueue

open List Option

variable {α : Type*} [DecidableEq α]

/-- A queue, and the items that have been added to it and taken out of it so far. -/
structure Queue (α : Type*) where
  heap : IndexedHeap α
  added : List α
  taken : List α

inductive Event (α : Type*) where
  | add (item : α)
  | pop
  | remove (item : α)

/-- An item that is in no queue has index -1. -/
def Queue.empty : Queue α := ⟨⟨[], fun _ => -1⟩, [], []⟩

def step (lt : α → α → Bool) (q : Queue α) : Event α → Option (Queue α)
  | .add item => some { q with heap := q.heap.add lt item, added := item :: q.added }
  | .pop =>
    match q.heap.pop lt with
    | none => none
    | some (top, heap) => some { q with heap, taken := top :: q.taken }
  | .remove item =>
    match q.heap.remove lt item with
    | none => none
    | some heap => some { q with heap, taken := item :: q.taken }

/-! ## What a queue promises -/

/-- The members are in heap order, each has its index, and they are what was added and not taken
out. -/
structure Queue.Right (lt : α → α → Bool) (q : Queue α) : Prop where
  ordered : IndexedHeap.HeapOrdered lt q.heap.items
  indexed : ∀ (i : ℕ) p, q.heap.items[i]? = some p → q.heap.idx p = i
  members : (q.taken ++ q.heap.items).Perm q.added

/-- Of a queue that is not empty the item popped is a member that no member comes before, and a
member is taken out without a failed assertion. -/
def Queue.Answers (lt : α → α → Bool) (q : Queue α) : Event α → Prop
  | .add _ => True
  | .pop => q.heap.items = [] ∨ ∃ top heap, q.heap.pop lt = some (top, heap) ∧ top ∈ q.heap.items
      ∧ ∀ a ∈ q.heap.items, lt a top = false
  | .remove item => item ∈ q.heap.items → ∃ heap, q.heap.remove lt item = some heap

/-- The item added is no member, and the last item does not come before the parent of the one that
is taken out. -/
def Queue.Allows (lt : α → α → Bool) (q : Queue α) : Event α → Prop
  | .add item => item ∉ q.heap.items
  | .pop => True
  | .remove item =>
    IndexedHeap.before lt q.heap.items (q.heap.items.length - 1)
      (parent (q.heap.idx item).toNat) = false

instance Queue.decidableAllows (lt : α → α → Bool) (q : Queue α) (e : Event α) :
    Decidable (q.Allows lt e) :=
  match e with
  | .add item => inferInstanceAs (Decidable (item ∉ q.heap.items))
  | .pop => inferInstanceAs (Decidable True)
  | .remove _ => inferInstanceAs (Decidable (_ = false))

/-- A queue does what it promises, all along the run `es`. -/
def RightAlong (lt : α → α → Bool) (es : List (Event α)) : Prop :=
  (∀ pre, pre <+: es → ∀ q, Reaches (step lt) .empty pre q → q.Right lt)
    ∧ Meets (step lt) (Queue.Answers lt) .empty es

/-! ## One operation -/

/-- What holds of the queue as long as the order does. -/
structure Queue.Inv (lt : α → α → Bool) (q : Queue α) : Prop where
  consistent : IndexedHeap.Consistent q.heap
  ordered : IndexedHeap.HeapOrdered lt q.heap.items
  members : (q.taken ++ q.heap.items).Perm q.added

variable {lt : α → α → Bool} {q q' : Queue α} {e : Event α} {item top : α} {heap : IndexedHeap α}

omit [DecidableEq α] in
lemma Queue.Inv.right (h : q.Inv lt) : q.Right lt :=
  ⟨h.ordered, fun i p hi => h.consistent.idx_eq i p hi (Set.notMem_empty i), h.members⟩

omit [DecidableEq α] in
lemma Queue.Inv.empty : (Queue.empty : Queue α).Inv lt := by
  refine ⟨⟨nodup_nil, fun i p hi _ => ?_, fun p _ => rfl⟩, fun i _ => rfl, List.Perm.refl _⟩
  cases hi

omit [DecidableEq α] in
lemma Queue.Right.nodup (h : q.Right lt) : q.heap.items.Nodup := by
  refine nodup_iff_getElem?_ne_getElem?.mpr fun i j hij hj heq => ?_
  obtain ⟨p, hp⟩ : ∃ p, q.heap.items[j]? = some p := ⟨_, getElem?_eq_getElem hj⟩
  have hji := (h.indexed i p (heq.trans hp)).symm.trans (h.indexed j p hp)
  exact hij.ne (Int.ofNat_inj.mp hji)

variable [IsStrictWeakOrder α fun a b => lt a b = true]

lemma Queue.Inv.add (h : q.Inv lt) (hitem : item ∉ q.heap.items)
    (hstep : step lt q (.add item) = some q') : q'.Inv lt := by
  obtain rfl := some.inj hstep
  obtain ⟨hc, hperm⟩ := h.consistent.add lt hitem
  refine ⟨hc, h.ordered.add item, ?_⟩
  calc List.Perm (q.taken ++ (q.heap.add lt item).items) (q.taken ++ item :: q.heap.items) :=
        hperm.append_left q.taken
    List.Perm _ (item :: (q.taken ++ q.heap.items)) := perm_middle
    List.Perm _ (item :: q.added) := h.members.cons item

lemma Queue.Inv.pop (h : q.Inv lt) :
    q.heap.items = [] ∧ step lt q .pop = none
      ∨ ∃ top heap, q.heap.pop lt = some (top, heap) ∧ top ∈ q.heap.items
        ∧ (∀ a ∈ q.heap.items, lt a top = false)
        ∧ Queue.Inv lt { q with heap, taken := top :: q.taken } := by
  cases hitems : q.heap.items with
  | nil =>
    refine .inl ⟨rfl, ?_⟩
    rw [step, IndexedHeap.pop, hitems]
  | cons top rest =>
    obtain ⟨heap, hpop, hc, hperm⟩ := h.consistent.pop lt hitems
    obtain ⟨hord, hmin⟩ := h.ordered.pop hpop
    refine .inr ⟨top, heap, hpop, mem_cons_self, fun a ha => hmin a (hitems ▸ ha), hc, hord, ?_⟩
    calc List.Perm (top :: q.taken ++ heap.items) (top :: q.taken ++ rest) :=
          hperm.append_left (top :: q.taken)
      List.Perm _ (q.taken ++ top :: rest) := perm_middle.symm
      List.Perm _ q.added := hitems ▸ h.members

omit [IsStrictWeakOrder α fun a b => lt a b = true] in
variable (lt) in
lemma Queue.Inv.remove_eq_none (h : q.Inv lt) (hitem : item ∉ q.heap.items) :
    q.heap.remove lt item = none := by
  rw [IndexedHeap.remove, h.consistent.idx_out item hitem, if_pos (by decide)]

lemma Queue.Inv.remove (h : q.Inv lt) (hitem : item ∈ q.heap.items) :
    ∃ heap, q.heap.remove lt item = some heap ∧ heap.Consistent
      ∧ (item :: q.taken ++ heap.items).Perm q.added
      ∧ (IndexedHeap.HeapOrdered lt heap.items ↔ q.Allows lt (.remove item)) := by
  obtain ⟨heap, hremove, hc, hperm⟩ := h.consistent.remove lt hitem
  obtain ⟨i, hi⟩ := mem_iff_getElem?.mp hitem
  have hidx := h.consistent.idx_eq i item hi (Set.notMem_empty i)
  refine ⟨heap, hremove, hc, ?_, ?_⟩
  · calc List.Perm (item :: q.taken ++ heap.items) (q.taken ++ item :: heap.items) :=
          perm_middle.symm
      List.Perm _ (q.taken ++ q.heap.items) := hperm.append_left q.taken
      List.Perm _ q.added := h.members
  · rw [Queue.Allows, hidx, Int.toNat_natCast]
    exact h.ordered.remove_iff h.consistent hi hremove

/-- **One operation**: the queue is right after it, and answers, exactly when it allows it. -/
lemma Queue.Inv.right_and_answers_iff (h : q.Inv lt) (e : Event α) :
    (∀ q', step lt q e = some q' → q'.Right lt) ∧ q.Answers lt e ↔ q.Allows lt e := by
  cases e with
  | add item =>
    constructor
    · rintro ⟨hright, -⟩ hmem
      have hnodup := (hright _ rfl).nodup
      exact (nodup_cons.mp ((IndexedHeap.add_perm lt q.heap item).nodup_iff.mp hnodup)).1 hmem
    · intro hitem
      exact ⟨fun q' hstep => (h.add hitem hstep).right, trivial⟩
  | pop =>
    refine iff_of_true ?_ trivial
    rcases h.pop with ⟨hnil, hnone⟩ | ⟨top, heap, hpop, htop, hmin, hinv⟩
    · rw [hnone]
      exact ⟨fun q' hstep => absurd hstep (by simp), .inl hnil⟩
    · refine ⟨fun q' hstep => ?_, .inr ⟨top, heap, hpop, htop, hmin⟩⟩
      rw [step, hpop] at hstep
      exact some.inj hstep ▸ hinv.right
  | remove item =>
    by_cases hitem : item ∈ q.heap.items
    · obtain ⟨heap, hremove, hc, hperm, hiff⟩ := h.remove hitem
      rw [← hiff]
      constructor
      · rintro ⟨hright, -⟩
        exact (hright { q with heap, taken := item :: q.taken } (by rw [step, hremove])).ordered
      · intro hord
        refine ⟨fun q' hstep => ?_, fun _ => ⟨heap, hremove⟩⟩
        rw [step, hremove] at hstep
        exact some.inj hstep ▸ Queue.Inv.right ⟨hc, hord, hperm⟩
    · have hnone := h.remove_eq_none lt hitem
      refine iff_of_true ⟨fun q' hstep => ?_, fun hmem => absurd hmem hitem⟩ ?_
      · rw [step, hnone] at hstep
        cases hstep
      · rw [Queue.Allows, h.consistent.idx_out item hitem]
        exact h.ordered.before_zero _

lemma Queue.Inv.step (h : q.Inv lt) (hallows : q.Allows lt e) (hstep : step lt q e = some q') :
    q'.Inv lt := by
  cases e with
  | add item => exact h.add hallows hstep
  | pop =>
    rcases h.pop with ⟨-, hnone⟩ | ⟨top, heap, hpop, -, -, hinv⟩
    · rw [hnone] at hstep
      cases hstep
    · rw [Pqueue.step, hpop] at hstep
      exact some.inj hstep ▸ hinv
  | remove item =>
    by_cases hitem : item ∈ q.heap.items
    · obtain ⟨heap, hremove, hc, hperm, hiff⟩ := h.remove hitem
      rw [Pqueue.step, hremove] at hstep
      exact some.inj hstep ▸ ⟨hc, hiff.mpr hallows, hperm⟩
    · rw [Pqueue.step, h.remove_eq_none lt hitem] at hstep
      cases hstep

/-- **The queue does what it promises** all along a run exactly when every operation is allowed: no
item is added that is a member already, and no removal moves the last item below an item that it
comes before. -/
theorem pqueueRight_iff (lt : α → α → Bool) [IsStrictWeakOrder α fun a b => lt a b = true]
    (es : List (Event α)) :
    RightAlong lt es ↔ Meets (step lt) (Queue.Allows lt) .empty es :=
  forall_reached_and_meets_iff (fun _ h => Queue.Inv.right h)
    (fun _ e h => Queue.Inv.right_and_answers_iff h e) (fun _ _ _ h => Queue.Inv.step h)
    Queue.Inv.empty

lemma isStrictWeakOrder_lt : IsStrictWeakOrder ℕ fun a b => decide (a < b) = true where
  irrefl a := by simp
  trans a b c hab hbc := by
    simp only [decide_eq_true_eq] at hab hbc ⊢
    omega
  incomp_trans a b c hab hbc := by
    simp only [decide_eq_true_eq] at hab hbc ⊢
    omega

/-- 9 takes the place of 8 behind the root, and is taken out from there. -/
theorem pqueueRight_inOrder :
    RightAlong (fun a b : ℕ => decide (a < b))
      [.add 5, .add 3, .add 8, .add 1, .add 9, .remove 8, .pop, .remove 9, .pop] := by
  have := isStrictWeakOrder_lt
  refine (pqueueRight_iff (fun a b : ℕ => decide (a < b)) _).mpr ?_
  decide +kernel

/-- 2 takes the place of 11, below 10, and 10 is popped in front of it. -/
theorem pqueueRight_fails :
    ¬ RightAlong (fun a b : ℕ => decide (a < b))
      [.add 0, .add 10, .add 1, .add 11, .add 12, .add 20, .add 2, .remove 11, .pop, .pop, .pop] := by
  rintro ⟨-, hanswers⟩
  have hrun : (List.foldlM (step fun a b : ℕ => decide (a < b)) Queue.empty
      [.add 0, .add 10, .add 1, .add 11, .add 12, .add 20, .add 2, .remove 11, .pop, .pop]).map
        (fun q => q.heap.items) = some [10, 2, 20, 12] := by
    decide +kernel
  obtain ⟨q, hq, hitems⟩ := Option.map_eq_some_iff.mp hrun
  rcases hanswers _ .pop [] rfl q hq with hnil | ⟨top, heap, hpop, -, hmin⟩
  · rw [hitems] at hnil
    cases hnil
  · simp only [IndexedHeap.pop, hitems] at hpop
    obtain ⟨rfl, -⟩ := Prod.mk.inj (some.inj hpop)
    have hbefore := hmin 2 (by simp [hitems])
    exact absurd hbefore (by decide)

/-! ## Popping everything -/

section

variable {lt : α → α → Bool} {q : Queue α} [IsStrictWeakOrder α fun a b => lt a b = true]

/-- All members are popped, none before one that comes before it. -/
def Queue.PopsInOrder (lt : α → α → Bool) (q : Queue α) : Prop :=
  ∃ q' popped, Reaches (Pqueue.step lt) q (replicate q.heap.items.length .pop) q' ∧
    q'.taken = popped ++ q.taken ∧ popped.Perm q.heap.items ∧
    popped.Pairwise fun later earlier => lt later earlier = false

lemma Queue.Inv.popsInOrder (h : q.Inv lt) : q.PopsInOrder lt := by
  rw [PopsInOrder]
  induction hn : q.heap.items.length generalizing q with
  | zero =>
    rw [length_eq_zero_iff.mp hn]
    exact ⟨q, [], reaches_nil.mpr rfl, rfl, .nil, .nil⟩
  | succ n ih =>
    rcases h.pop with ⟨hnil, -⟩ | ⟨top, heap, hpop, -, hmin, hinv⟩
    · rw [hnil] at hn
      cases hn
    · have hperm : (top :: heap.items).Perm q.heap.items :=
        (perm_append_left_iff q.taken).mp
          (perm_middle.trans (hinv.members.trans h.members.symm))
      obtain ⟨q', popped, hrun, htaken, hpopped, hsorted⟩ := ih hinv (by
        have hlen := hperm.length_eq
        rw [length_cons, hn] at hlen
        exact Nat.succ.inj hlen)
      refine ⟨q', popped ++ [top], reaches_cons.mpr ⟨_, ?_, hrun⟩, ?_, ?_, ?_⟩
      · rw [Pqueue.step, hpop]
      · rw [htaken, append_assoc, singleton_append]
      · exact (perm_append_singleton top popped).trans ((hpopped.cons top).trans hperm)
      · refine pairwise_append.mpr ⟨hsorted, pairwise_singleton _ _, fun a ha b hb => ?_⟩
        obtain rfl := mem_singleton.mp hb
        exact hmin a (hperm.subset (mem_cons_of_mem b (hpopped.subset ha)))

/-- **A queue sorts**: after any run that is allowed, its members are popped in their order. -/
theorem popsInOrder_of_meets {es : List (Event α)}
    (hallows : Meets (step lt) (Queue.Allows lt) .empty es) (h : Reaches (step lt) .empty es q) :
    q.PopsInOrder lt :=
  (invariant_of_meets (fun _ _ _ => Queue.Inv.step) Queue.Inv.empty hallows h).popsInOrder

end

theorem popsInOrder_three : ∃ q, Reaches (step fun a b : ℕ => decide (a < b)) .empty
    [.add 5, .add 3, .add 8, .remove 5] q ∧ q.PopsInOrder fun a b => decide (a < b) := by
  have := isStrictWeakOrder_lt
  have hrun : (List.foldlM (step fun a b : ℕ => decide (a < b)) Queue.empty
      [.add 5, .add 3, .add 8, .remove 5]).isSome := by
    decide +kernel
  obtain ⟨q, hq⟩ := isSome_iff_exists.mp hrun
  exact ⟨q, hq, popsInOrder_of_meets (by decide +kernel) hq⟩

end Ator.Pqueue
