import AtorProtocol.Lib.Comparator
import Mathlib.Data.List.Count
import Mathlib.Data.List.Infix
import Mathlib.Data.List.Nodup

/-!
# Majorities of sorted lists

`get_frequent_members` of `src/feature/dirauth/dirvote.c` counts adjacent equal strings, of a list
that was sorted by a comparator which may hold different strings equal.

* `getFrequentMembers` — the loop.  `mem_getFrequentMembers` says when a string comes out.
* `TallyTo` — each voter's list is sorted and freed of duplicates, and the members are counted.
* `TallyTo.mem_of_unique` — a string that no other compares equal to is counted right.
* `TallyTo.exists_none` — the others may be lost.
-/

namespace Ator.Dirauth

open List
open Nat (succ_pos)

variable {α : Type*}

/-- The loop of `get_frequent_members`, after the first member. -/
def frequentLoop [DecidableEq α] (min : ℕ) : α → ℕ → List α → List α
  | cur, count, [] => if min < count then [cur] else []
  | cur, count, cp :: rest =>
    if cp = cur then frequentLoop min cur (count + 1) rest
    else (if min < count then [cur] else []) ++ frequentLoop min cp 1 rest

def getFrequentMembers [DecidableEq α] (min : ℕ) : List α → List α
  | [] => []
  | first :: rest => frequentLoop min first 1 rest

variable {min n : ℕ} {v w u cur : α} {l s t : List α}

/-! ## Runs of equal members -/

lemma replicate_infix_append_cons (hw : w ≠ v) :
    List.replicate n v <:+: s ++ w :: t ↔ List.replicate n v <:+: s ∨ List.replicate n v <:+: t := by
  constructor
  · rintro ⟨x, y, h⟩
    rw [append_assoc, append_eq_append_iff] at h
    rcases h with ⟨r, hx, hr⟩ | ⟨r, hx, hr⟩
    · rw [append_eq_append_iff] at hr
      rcases hr with ⟨q, hq, -⟩ | ⟨q, hq, hy⟩
      · exact .inl ⟨x, q, by rw [hx, hq, append_assoc]⟩
      · cases q with
        | nil => exact .inl ⟨x, [], by rw [hx, hq]; simp⟩
        | cons c q =>
          obtain rfl : w = c := by simpa using (cons.inj hy).1
          have hmem : w ∈ replicate n v := by rw [hq]; simp
          exact absurd (eq_of_mem_replicate hmem) hw
    · cases r with
      | nil =>
        cases n with
        | zero => exact .inl nil_infix
        | succ n =>
          exact absurd (cons.inj hr).1 hw
      | cons c r =>
        obtain ⟨-, rfl⟩ := cons.inj (cons_append ▸ hr)
        exact .inr ⟨r, y, by rw [append_assoc]⟩
  · rintro (h | h)
    · exact h.trans (prefix_append s (w :: t)).isInfix
    · exact h.trans ((suffix_cons w t).trans (suffix_append s (w :: t))).isInfix

lemma replicate_infix_replicate (hn : 0 < n) {c : ℕ} :
    List.replicate n v <:+: List.replicate c w ↔ n ≤ c ∧ v = w := by
  constructor
  · intro h
    have hlen := h.length_le
    have hmem : v ∈ replicate c w := h.subset (by simp [Nat.pos_iff_ne_zero.mp hn])
    simp only [length_replicate] at hlen
    exact ⟨hlen, eq_of_mem_replicate hmem⟩
  · rintro ⟨hle, rfl⟩
    exact ⟨[], replicate (c - n) v, by simp [hle]⟩

lemma replicate_infix_of_notMem (hn : 0 < n) (h : v ∉ l) : ¬ List.replicate n v <:+: l :=
  fun hin => h (hin.subset (by simp [Nat.pos_iff_ne_zero.mp hn]))

lemma replicate_infix_replicate_append (hn : 0 < n) (hw : w ≠ v) (c : ℕ) :
    List.replicate n v <:+: List.replicate c w ++ t ↔ List.replicate n v <:+: t := by
  induction c with
  | zero => simp
  | succ c ih =>
    have hskip := replicate_infix_append_cons (n := n) (s := []) hw
      (t := replicate c w ++ t)
    rw [nil_append, ih] at hskip
    rw [replicate_succ, cons_append, hskip]
    exact or_iff_right (replicate_infix_of_notMem hn not_mem_nil)

/-! ## Frequent members -/

variable [DecidableEq α]

lemma mem_frequentLoop {count : ℕ} (hc : 0 < count) :
    v ∈ frequentLoop min cur count l ↔
      List.replicate (min + 1) v <:+: List.replicate count cur ++ l := by
  induction l generalizing cur count with
  | nil =>
    rw [frequentLoop, append_nil, replicate_infix_replicate (succ_pos min)]
    split
    · next h => simp [Nat.succ_le_of_lt h]
    · next h => simp [show ¬ min + 1 ≤ count from h]
  | cons cp rest ih =>
    rw [frequentLoop]
    split
    · next heq =>
        subst heq
        rw [ih (succ_pos count), replicate_succ' (n := count), append_assoc, singleton_append]
    · next hne =>
        rw [mem_append, ih Nat.one_pos, replicate_one, singleton_append]
        have hhead : v ∈ (if min < count then [cur] else []) ↔
            replicate (min + 1) v <:+: replicate count cur := by
          rw [replicate_infix_replicate (succ_pos min)]
          split
          · next h => simp [Nat.succ_le_of_lt h]
          · next h => simp [show ¬ min + 1 ≤ count from h]
        rw [hhead]
        by_cases hv : cur = v
        · subst hv
          have hskip := replicate_infix_append_cons (n := min + 1) (s := []) (t := rest) hne
          rw [nil_append, or_iff_right (replicate_infix_of_notMem (succ_pos min)
            not_mem_nil)] at hskip
          rw [hskip, replicate_infix_append_cons hne]
        · rw [replicate_infix_replicate_append (succ_pos min) hv]
          refine or_iff_right fun h => hv ?_
          exact ((replicate_infix_replicate (succ_pos min)).mp h).2.symm

/-- **A string comes out where it stands more than `min` times in a row.** -/
theorem mem_getFrequentMembers :
    v ∈ getFrequentMembers min l ↔ List.replicate (min + 1) v <:+: l := by
  cases l with
  | nil =>
    simp only [getFrequentMembers, not_mem_nil, false_iff]
    exact replicate_infix_of_notMem (succ_pos min) not_mem_nil
  | cons first rest =>
    rw [getFrequentMembers, mem_frequentLoop Nat.one_pos, replicate_one, singleton_append]

lemma frequentLoop_sublist (min : ℕ) (cur : α) {count : ℕ} (hc : 0 < count) :
    (frequentLoop min cur count l).Sublist (List.replicate count cur ++ l) := by
  induction l generalizing cur count with
  | nil =>
    rw [frequentLoop, append_nil]
    split
    · simp [Nat.pos_iff_ne_zero.mp hc]
    · exact nil_sublist _
  | cons cp rest ih =>
    rw [frequentLoop]
    split
    · next heq =>
        subst heq
        have := ih cp (succ_pos count)
        rwa [replicate_succ' (n := count), append_assoc, singleton_append] at this
    · refine Sublist.append ?_ (by simpa using ih cp Nat.one_pos)
      split
      · simp [Nat.pos_iff_ne_zero.mp hc]
      · exact nil_sublist _

lemma getFrequentMembers_sublist : (getFrequentMembers min l).Sublist l := by
  cases l with
  | nil => exact .slnil
  | cons first rest =>
    have := frequentLoop_sublist (l := rest) min first Nat.one_pos
    rwa [replicate_one, singleton_append] at this

lemma lt_count_of_mem (h : v ∈ getFrequentMembers min l) : min < l.count v := by
  have := (mem_getFrequentMembers.mp h).sublist.count_le v
  rw [count_replicate_self] at this
  omega

lemma count_frequentLoop (min : ℕ) (cur : α) (count : ℕ) (l : List α) :
    (frequentLoop min cur count l).count v * (min + 1) ≤ (List.replicate count cur ++ l).count v := by
  induction l generalizing cur count with
  | nil =>
    rw [frequentLoop, append_nil]
    split
    · by_cases hv : cur = v
      · subst hv
        simp
        omega
      · simp [hv]
    · simp
  | cons cp rest ih =>
    rw [frequentLoop]
    split
    · next heq =>
        subst heq
        refine (ih _ _).trans (le_of_eq ?_)
        rw [replicate_succ', append_assoc, singleton_append]
    · have hrest := ih cp 1
      rw [count_append, count_append, Nat.add_mul]
      refine Nat.add_le_add ?_ hrest
      split
      · by_cases hv : cur = v
        · subst hv
          simp
          omega
        · simp [hv]
      · simp

lemma getFrequentMembers_nodup (h : ∀ v, l.count v < 2 * (min + 1)) :
    (getFrequentMembers min l).Nodup := by
  refine nodup_iff_count_le_one.mpr fun v => ?_
  have hcount : (getFrequentMembers min l).count v * (min + 1) ≤ l.count v := by
    cases l with
    | nil => simp [getFrequentMembers]
    | cons first rest =>
      have := count_frequentLoop (v := v) min first 1 rest
      rwa [replicate_one, singleton_append] at this
  by_contra hlt
  have := Nat.mul_le_mul_right (min + 1) (Nat.lt_of_not_le hlt : 2 ≤ _)
  have := h v
  omega

lemma notMem_getFrequentMembers_of_split {a b : ℕ} {mid : List α} (ha : a ≤ min) (hb : b ≤ min)
    (hs : v ∉ s) (ht : v ∉ t) (hmid : v ∉ mid) (hne : mid ≠ []) :
    v ∉ getFrequentMembers min
      (s ++ (List.replicate a v ++ (mid ++ List.replicate b v)) ++ t) := by
  have hrun : ∀ {c : ℕ} {r : List α}, c ≤ min → v ∉ r →
      ¬ replicate (min + 1) v <:+: r ++ replicate c v := by
    intro c r hc hr hin
    have := hin.sublist.count_le v
    rw [count_replicate_self, count_append, count_eq_zero_of_not_mem hr,
      count_replicate_self] at this
    omega
  obtain ⟨m, mid, rfl⟩ := exists_cons_of_ne_nil hne
  simp only [mem_cons, not_or] at hmid
  rw [mem_getFrequentMembers]
  have hassoc : s ++ (replicate a v ++ (m :: mid ++ replicate b v)) ++ t =
      (s ++ replicate a v) ++ m :: (mid ++ (replicate b v ++ t)) := by simp
  rw [hassoc, replicate_infix_append_cons (Ne.symm hmid.1)]
  rintro (hin | hin)
  · exact hrun ha hs hin
  · have hcount := hin.sublist.count_le v
    rw [count_replicate_self, count_append, count_append, count_eq_zero_of_not_mem hmid.2,
      count_eq_zero_of_not_mem ht, count_replicate_self] at hcount
    omega

/-- What a tally of the voters' lists may find: each list is sorted and freed of duplicates, the
lists are joined and sorted, and the frequent members come out. -/
def TallyTo (cmp : α → α → Ordering) (min : ℕ) (voters : List (List α)) (good : List α) : Prop :=
  ∃ kept sorted, List.Forall₂ (KeepsTo cmp) voters kept ∧ SortsTo cmp kept.flatten sorted ∧
    good = getFrequentMembers min sorted

/-- The number of voters that list a string. -/
def listing (voters : List (List α)) (v : α) : ℕ := voters.countP (v ∈ ·)

/-- The number of voters that list a string which compares equal. -/
def listingEq (cmp : α → α → Ordering) (voters : List (List α)) (v : α) : ℕ :=
  voters.countP fun l => ∃ a ∈ l, cmp a v = .eq

variable {cmp : α → α → Ordering} {voters kept : List (List α)} {good : List α}

lemma listing_le_length (voters : List (List α)) (v : α) : listing voters v ≤ voters.length :=
  countP_le_length

omit [DecidableEq α] in
lemma listingEq_le_length (voters : List (List α)) (v : α) :
    listingEq cmp voters v ≤ voters.length :=
  countP_le_length

lemma listing_le_listingEq (hcmp : EqCongruent cmp) (voters : List (List α)) (v : α) :
    listing voters v ≤ listingEq cmp voters v := by
  refine countP_mono_left fun l _ hl => ?_
  simpa using ⟨v, of_decide_eq_true hl, hcmp.refl v⟩

lemma mem_flatten_of_listing (h : 0 < listing voters v) : v ∈ voters.flatten := by
  obtain ⟨l, hl, hv⟩ := countP_pos_iff.mp h
  exact mem_flatten.mpr ⟨l, hl, of_decide_eq_true hv⟩

/-! ### What is kept of the lists -/

omit [DecidableEq α] in
lemma mem_of_mem_kept (h : List.Forall₂ (KeepsTo cmp) voters kept) (ha : u ∈ kept.flatten) :
    u ∈ voters.flatten := by
  induction h with
  | nil => exact ha
  | cons hk _ ih =>
    rw [flatten_cons, mem_append] at ha ⊢
    exact ha.imp hk.mem ih

omit [DecidableEq α] in
lemma exists_eq_kept (hcmp : EqCongruent cmp) (h : List.Forall₂ (KeepsTo cmp) voters kept)
    (ha : u ∈ voters.flatten) : ∃ b ∈ kept.flatten, cmp u b = .eq := by
  induction h with
  | nil => simp at ha
  | cons hk _ ih =>
    rw [flatten_cons, mem_append] at ha
    rcases ha with ha | ha
    · obtain ⟨b, hb, hub⟩ := hk.exists_eq hcmp ha
      exact ⟨b, mem_append_left _ hb, hub⟩
    · obtain ⟨b, hb, hub⟩ := ih ha
      exact ⟨b, mem_append_right _ hb, hub⟩

omit [DecidableEq α] in
lemma countP_kept (hcmp : EqCongruent cmp) (h : List.Forall₂ (KeepsTo cmp) voters kept) (v : α) :
    kept.flatten.countP (cmp · v = .eq) = listingEq cmp voters v := by
  induction h with
  | nil => rfl
  | cons hk _ ih =>
    rw [flatten_cons, countP_append, ih, hk.countP_eq hcmp v, listingEq, listingEq,
      countP_cons, Nat.add_comm]
    simp only [decide_eq_true_eq]

lemma count_kept_le (hcmp : EqCongruent cmp) (h : List.Forall₂ (KeepsTo cmp) voters kept) (v : α) :
    kept.flatten.count v ≤ listing voters v := by
  induction h with
  | nil => exact Nat.le_refl 0
  | @cons l k _ _ hk _ ih =>
    have hclass : k.count v ≤ k.countP (cmp · v = .eq) := by
      refine countP_mono_left fun x _ hx => ?_
      rw [eq_of_beq hx]
      simp [hcmp.refl v]
    have hone : k.count v ≤ if v ∈ l then 1 else 0 := by
      split
      · rw [hk.countP_eq hcmp v] at hclass
        split at hclass <;> omega
      · next hno =>
          rw [count_eq_zero_of_not_mem fun hv => hno (hk.mem hv)]
    rw [flatten_cons, count_append, listing, countP_cons, Nat.add_comm]
    simp only [decide_eq_true_eq]
    exact Nat.add_le_add ih hone

lemma count_kept_of_unique (hcmp : EqCongruent cmp) (h : List.Forall₂ (KeepsTo cmp) voters kept)
    (hv : ∀ w ∈ voters.flatten, cmp w v = .eq → w = v) :
    kept.flatten.count v = listing voters v := by
  have hclass : kept.flatten.countP (cmp · v = .eq) = kept.flatten.count v := by
    refine countP_congr fun w hw => ?_
    rw [decide_eq_true_eq, beq_iff_eq]
    refine ⟨hv w (mem_of_mem_kept h hw), ?_⟩
    rintro rfl
    exact hcmp.refl w
  rw [← hclass, countP_kept hcmp h, listingEq, listing]
  refine countP_congr fun l hl => ?_
  simp only [decide_eq_true_eq]
  constructor
  · rintro ⟨w, hw, hwv⟩
    exact hv w (mem_flatten.mpr ⟨l, hl, hw⟩) hwv ▸ hw
  · intro hvl
    exact ⟨v, hvl, hcmp.refl v⟩

/-! ### What a tally finds -/

lemma replicate_prefix_of_sorted {L : List α} (h : Consistent cmp L) (hl : ∀ x ∈ l, x ∈ L)
    (hvL : v ∈ L) (hle : ∀ x ∈ l, cmp v x ≠ .gt) (hsort : l.Pairwise fun a b => cmp a b ≠ .gt)
    (hv : ∀ w ∈ L, cmp w v = .eq → w = v) : List.replicate (l.count v) v <+: l := by
  induction l with
  | nil => simp
  | cons x l ih =>
    obtain ⟨hx, hsort⟩ := pairwise_cons.mp hsort
    have hxL : x ∈ L := hl x mem_cons_self
    have hlL : ∀ y ∈ l, y ∈ L := fun y hy => hl y (mem_cons_of_mem x hy)
    by_cases hxv : x = v
    · subst hxv
      rw [count_cons_self, replicate_succ, cons_prefix_cons]
      exact ⟨rfl, ih hlL hx hsort⟩
    · have hlt : cmp v x = .lt := by
        cases hcase : cmp v x with
        | lt => rfl
        | eq => exact absurd (hv x hxL (by simp [h.swap v hvL x hxL, hcase])) hxv
        | gt => exact absurd hcase (hle x mem_cons_self)
      have hnone : v ∉ x :: l := by
        intro hmem
        rcases mem_cons.mp hmem with rfl | hmem
        · exact hxv rfl
        · have hvv := h.lt_trans_le hvL hxL hvL hlt (hx v hmem)
          have := h.swap v hvL v hvL
          simp [hvv] at this
      rw [count_eq_zero_of_not_mem hnone]
      exact nil_prefix

lemma replicate_infix_of_sorted {L : List α} (h : Consistent cmp L) (hl : ∀ x ∈ l, x ∈ L)
    (hsort : l.Pairwise fun a b => cmp a b ≠ .gt) (hv : ∀ w ∈ L, cmp w v = .eq → w = v) :
    List.replicate (l.count v) v <:+: l := by
  induction l with
  | nil => simp
  | cons x l ih =>
    obtain ⟨hx, hsort'⟩ := pairwise_cons.mp hsort
    have hlL : ∀ y ∈ l, y ∈ L := fun y hy => hl y (mem_cons_of_mem x hy)
    by_cases hxv : x = v
    · subst hxv
      rw [count_cons_self, replicate_succ]
      refine (cons_prefix_cons.mpr ⟨rfl, ?_⟩).isInfix
      exact replicate_prefix_of_sorted h hlL (hl x mem_cons_self) hx hsort' hv
    · rw [count_cons_of_ne hxv]
      exact (ih hlL hsort').trans (suffix_cons x l).isInfix

namespace TallyTo

lemma consistent (hcmp : EqCongruent cmp) (h : TallyTo cmp min voters good) :
    Consistent cmp voters.flatten := by
  obtain ⟨kept, sorted, hkept, hsort, -⟩ := h
  exact hsort.consistent.of_representatives hcmp fun a ha => exists_eq_kept hcmp hkept ha

/-- **No string is found that is not listed often enough.** -/
theorem lt_listing (hcmp : EqCongruent cmp) (h : TallyTo cmp min voters good) (hv : v ∈ good) :
    min < listing voters v := by
  obtain ⟨kept, sorted, hkept, hsort, rfl⟩ := h
  have := lt_count_of_mem hv
  rw [hsort.perm.count_eq] at this
  exact this.trans_le (count_kept_le hcmp hkept v)

/-- No string is found twice. -/
theorem nodup (hcmp : EqCongruent cmp) (h : TallyTo cmp min voters good)
    (hmin : voters.length < 2 * (min + 1)) : good.Nodup := by
  obtain ⟨kept, sorted, hkept, hsort, rfl⟩ := h
  refine getFrequentMembers_nodup fun v => ?_
  rw [hsort.perm.count_eq]
  have := count_kept_le hcmp hkept v
  have := listing_le_length voters v
  omega

lemma pairwise (h : TallyTo cmp min voters good) : good.Pairwise fun a b => cmp a b ≠ .gt := by
  obtain ⟨kept, s, -, hsort, rfl⟩ := h
  exact hsort.sorted.sublist getFrequentMembers_sublist

/-- **A string that no other compares equal to is found if it is listed often enough.** -/
theorem mem_of_unique (hcmp : EqCongruent cmp) (h : TallyTo cmp min voters good)
    (hv : ∀ w ∈ voters.flatten, cmp w v = .eq → w = v) (hlist : min < listing voters v) :
    v ∈ good := by
  have hcons := h.consistent hcmp
  obtain ⟨kept, s, hkept, hsort, rfl⟩ := h
  have hcount : min + 1 ≤ s.count v := by
    rwa [hsort.perm.count_eq, count_kept_of_unique hcmp hkept hv]
  have hmem : ∀ x ∈ s, x ∈ voters.flatten := fun x hx =>
    mem_of_mem_kept hkept (hsort.mem_iff.mp hx)
  have hrun : replicate (min + 1) v <+: replicate (s.count v) v :=
    prefix_replicate_iff.mpr ⟨by simpa using hcount, by simp⟩
  exact mem_getFrequentMembers.mpr
    (hrun.isInfix.trans (replicate_infix_of_sorted hcons hmem hsort.sorted hv))

end TallyTo

/-! ### Tallies that lose a string -/

omit [DecidableEq α] in
lemma exists_kept (h : Consistent cmp voters.flatten) :
    ∃ kept, List.Forall₂ (KeepsTo cmp) voters kept := by
  induction voters with
  | nil => exact ⟨[], .nil⟩
  | cons l voters ih =>
    obtain ⟨kept, hkept⟩ := ih (h.mono (subset_append_right l _))
    obtain ⟨s, hs⟩ := (h.mono (s := l) (subset_append_left l _)).exists_sortsTo
    exact ⟨uniq cmp s :: kept, .cons ⟨s, hs, rfl⟩ hkept⟩

omit [DecidableEq α] in
lemma exists_kept_mem (hcmp : EqCongruent cmp) (h : Consistent cmp voters.flatten)
    (hw : w ∈ voters.flatten) :
    ∃ kept, List.Forall₂ (KeepsTo cmp) voters kept ∧ w ∈ kept.flatten := by
  induction voters with
  | nil => simp at hw
  | cons l voters ih =>
    have hl : Consistent cmp l := h.mono (subset_append_left l _)
    have hrest : Consistent cmp voters.flatten := h.mono (subset_append_right l _)
    rw [flatten_cons, mem_append] at hw
    rcases hw with hw | hw
    · obtain ⟨k, hk, hwk⟩ := KeepsTo.exists_mem hcmp hl hw
      obtain ⟨kept, hkept⟩ := exists_kept hrest
      exact ⟨k :: kept, .cons hk hkept, by simp [hwk]⟩
    · obtain ⟨kept, hkept, hwk⟩ := ih hrest hw
      obtain ⟨s, hs⟩ := hl.exists_sortsTo
      exact ⟨uniq cmp s :: kept, .cons ⟨s, hs, rfl⟩ hkept, by simp [hwk]⟩

omit [DecidableEq α] in
lemma exists_kept_two (hcmp : EqCongruent cmp) (h : Consistent cmp voters.flatten)
    (hv : v ∈ voters.flatten) (hw : w ∈ voters.flatten) (hwv : cmp w v = .eq) (hne : w ≠ v)
    (htwo : 2 ≤ listingEq cmp voters v) :
    ∃ kept, List.Forall₂ (KeepsTo cmp) voters kept ∧ ∃ x ∈ kept.flatten, ∃ y ∈ kept.flatten,
      x ≠ y ∧ cmp x v = .eq ∧ cmp y v = .eq := by
  induction voters with
  | nil => simp at hv
  | cons l voters ih =>
    have hl : Consistent cmp l := h.mono (subset_append_left l _)
    have hrest : Consistent cmp voters.flatten := h.mono (subset_append_right l _)
    by_cases hex : ∃ x ∈ l, cmp x v = .eq
    · obtain ⟨x, hx, hxv⟩ := hex
      have hother : 0 < listingEq cmp voters v := by
        rw [listingEq, countP_cons] at htwo
        split at htwo <;> rw [listingEq] <;> omega
      obtain ⟨l', hl', hy⟩ := countP_pos_iff.mp hother
      obtain ⟨y, hy, hyv⟩ := of_decide_eq_true hy
      have hy : y ∈ voters.flatten := mem_flatten.mpr ⟨l', hl', hy⟩
      -- One of the two strings, kept of the first list, differs from one kept of the others.
      obtain ⟨p, hp, q, hq, hpq, hpv, hqv⟩ : ∃ p ∈ l, ∃ q ∈ voters.flatten, p ≠ q ∧
          cmp p v = .eq ∧ cmp q v = .eq := by
        by_cases hxy : x = y
        · subst hxy
          obtain ⟨u, hu, hux, huv⟩ : ∃ u ∈ (l :: voters).flatten, u ≠ x ∧ cmp u v = .eq := by
            by_cases hvx : v = x
            · exact ⟨w, hw, hvx ▸ hne, hwv⟩
            · exact ⟨v, hv, hvx, hcmp.refl v⟩
          rw [flatten_cons, mem_append] at hu
          rcases hu with hu | hu
          · exact ⟨u, hu, x, hy, hux, huv, hxv⟩
          · exact ⟨x, hx, u, hu, Ne.symm hux, hxv, huv⟩
        · exact ⟨x, hx, y, hy, hxy, hxv, hyv⟩
      obtain ⟨k, hk, hpk⟩ := KeepsTo.exists_mem hcmp hl hp
      obtain ⟨kept, hkept, hqk⟩ := exists_kept_mem hcmp hrest hq
      exact ⟨k :: kept, .cons hk hkept, p, by simp [hpk], q, by simp [hqk], hpq, hpv, hqv⟩
    · have hno : ∀ {x : α}, x ∈ (l :: voters).flatten → cmp x v = .eq → x ∈ voters.flatten := by
        intro x hx hxv
        rw [flatten_cons, mem_append] at hx
        exact hx.resolve_left fun hxl => hex ⟨x, hxl, hxv⟩
      have hcount : listingEq cmp (l :: voters) v = listingEq cmp voters v := by
        rw [listingEq, countP_cons, if_neg (by simpa using hex), Nat.add_zero, listingEq]
      rw [hcount] at htwo
      obtain ⟨kept, hkept, x, hx, y, hy, hxy, hxv, hyv⟩ :=
        ih hrest (hno hv (hcmp.refl v)) (hno hw hwv) htwo
      obtain ⟨s, hs⟩ := hl.exists_sortsTo
      exact ⟨uniq cmp s :: kept, .cons ⟨s, hs, rfl⟩ hkept, x, by simp [hx], y, by simp [hy], hxy,
        hxv, hyv⟩

lemma perm_replicate_append (x : α) (m : List α) :
    (List.replicate (m.count x) x ++ m.filter (· ≠ x)).Perm m := by
  have h := filter_append_perm (· == x) m
  rw [filter_beq] at h
  refine List.Perm.trans (Perm.append_left _ ?_) h
  refine Perm.of_eq (filter_congr fun y _ => ?_)
  rw [Bool.eq_iff_iff]
  simp

lemma exists_sort_split (hcmp : EqCongruent cmp) {l : List α} (h : Consistent cmp l) (hw : w ∈ l)
    (hu : u ∈ l) (hwv : cmp w v = .eq) (huv : cmp u v = .eq) (hne : w ≠ u)
    (hcount : l.countP (cmp · v = .eq) ≤ 2 * min + 1) :
    ∃ s, SortsTo cmp l s ∧ ∀ x, cmp x v = .eq → x ∉ getFrequentMembers min s := by
  by_cases hmax : ∃ x, cmp x v = .eq ∧ min < l.count x
  · obtain ⟨x, hxv, hx⟩ := hmax
    have hxl : x ∈ l := count_pos_iff.mp (by omega)
    have hclass : ∀ y, cmp y x = .eq ↔ cmp y v = .eq := fun y => hcmp.eq_iff hxv
    obtain ⟨m, hm⟩ : ∃ m, m = l.filter (cmp · x = .eq) := ⟨_, rfl⟩
    have hmcount : m.count x = l.count x := by
      rw [hm, count_filter (by simp [hcmp.refl x])]
    have hmlen : m.length = l.countP (cmp · v = .eq) := by
      rw [hm, ← countP_eq_length_filter]
      exact countP_congr fun y _ => by simp [hclass y]
    have hperm := perm_replicate_append x m
    have hlen := hperm.length_eq
    rw [length_append, length_replicate, hmcount, hmlen] at hlen
    have hpos : m.filter (· ≠ x) ≠ [] := by
      have hin : ∀ {y : α}, y ∈ l → cmp y v = .eq → y ≠ x → y ∈ m.filter (· ≠ x) := by
        intro y hy hyv hyx
        rw [hm]
        simp [hy, (hclass y).mpr hyv, hyx]
      by_cases hwx : w = x
      · exact ne_nil_of_mem (hin hu huv fun hux => hne (hwx.trans hux.symm))
      · exact ne_nil_of_mem (hin hw hwv hwx)
    have hothers := length_pos_iff.mpr hpos
    have hp : (replicate (l.count x / 2) x ++ (m.filter (· ≠ x) ++
        replicate (l.count x - l.count x / 2) x)).Perm (l.filter (cmp · x = .eq)) := by
      rw [← hm]
      refine ((perm_append_comm.append_left _).trans ?_).trans hperm
      rw [← append_assoc, replicate_append_replicate, hmcount,
        Nat.add_sub_cancel' (Nat.div_le_self _ 2)]
    obtain ⟨s, t, hsort, hs, ht⟩ := h.exists_arrangement hxl hp hcmp
    refine ⟨_, hsort, fun y hyv => ?_⟩
    by_cases hyx : y = x
    · subst hyx
      refine notMem_getFrequentMembers_of_split (by omega) (by omega) ?_ ?_ (by simp) hpos
      · intro hys
        simpa [hcmp.refl y] using hs y hys
      · intro hyt
        simpa [hcmp.refl y] using ht y hyt
    · intro hmem
      have hcounty := lt_count_of_mem hmem
      have hle : (m.filter (· ≠ x)).count y ≤ (m.filter (· ≠ x)).length := count_le_length
      rw [hsort.perm.count_eq] at hcounty
      rw [count_filter (by simp [hyx]), hm,
        count_filter (by simp [(hclass y).mpr hyv]), ← hm] at hle
      omega
  · obtain ⟨s, hs⟩ := h.exists_sortsTo
    refine ⟨s, hs, fun x hxv hmem => hmax ⟨x, hxv, ?_⟩⟩
    have := lt_count_of_mem hmem
    rwa [hs.perm.count_eq] at this

namespace TallyTo

/-- **Of strings that compare equal, each may be lost.** -/
theorem exists_notMem (min : ℕ) (hcmp : EqCongruent cmp) (h : Consistent cmp voters.flatten)
    (hw : w ∈ voters.flatten) (hwv : cmp w v = .eq) (hne : w ≠ v)
    (hlen : voters.length ≤ 2 * min + 1) : ∃ good, TallyTo cmp min voters good ∧ v ∉ good := by
  obtain ⟨kept, hkept, hwk⟩ := exists_kept_mem hcmp h hw
  have hcons : Consistent cmp kept.flatten := h.mono fun _ hx => mem_of_mem_kept hkept hx
  have hcount : kept.flatten.countP (cmp · v = .eq) ≤ 2 * min + 1 := by
    rw [countP_kept hcmp hkept v]
    exact (listingEq_le_length voters v).trans hlen
  by_cases hvk : v ∈ kept.flatten
  · obtain ⟨s, hs, hnone⟩ := exists_sort_split hcmp hcons hwk hvk hwv (hcmp.refl v) hne hcount
    exact ⟨_, ⟨kept, s, hkept, hs, rfl⟩, hnone v (hcmp.refl v)⟩
  · obtain ⟨s, hs⟩ := hcons.exists_sortsTo
    refine ⟨_, ⟨kept, s, hkept, hs, rfl⟩, fun hmem => hvk ?_⟩
    have := lt_count_of_mem hmem
    exact hs.mem_iff.mp (count_pos_iff.mp (by omega))

/-- **Of strings that compare equal and are not all the same, all may be lost.** -/
theorem exists_none (min : ℕ) (hcmp : EqCongruent cmp) (h : Consistent cmp voters.flatten)
    (hv : v ∈ voters.flatten) (hw : w ∈ voters.flatten) (hwv : cmp w v = .eq) (hne : w ≠ v)
    (htwo : 2 ≤ listingEq cmp voters v) (hlen : voters.length ≤ 2 * min + 1) :
    ∃ good, TallyTo cmp min voters good ∧ ∀ x, cmp x v = .eq → x ∉ good := by
  obtain ⟨kept, hkept, x, hx, y, hy, hxy, hxv, hyv⟩ := exists_kept_two hcmp h hv hw hwv hne htwo
  have hcons : Consistent cmp kept.flatten := h.mono fun _ hx => mem_of_mem_kept hkept hx
  have hcount : kept.flatten.countP (cmp · v = .eq) ≤ 2 * min + 1 := by
    rw [countP_kept hcmp hkept v]
    exact (listingEq_le_length voters v).trans hlen
  obtain ⟨s, hs, hnone⟩ := exists_sort_split hcmp hcons hx hy hxv hyv hxy hcount
  exact ⟨_, ⟨kept, s, hkept, hs, rfl⟩, hnone⟩

/-- A tally of a consistent comparator has an outcome. -/
theorem exists_good (min : ℕ) (h : Consistent cmp voters.flatten) :
    ∃ good, TallyTo cmp min voters good := by
  obtain ⟨kept, hkept⟩ := exists_kept h
  obtain ⟨s, hs⟩ := (h.mono fun _ hx => mem_of_mem_kept hkept hx).exists_sortsTo
  exact ⟨_, kept, s, hkept, hs, rfl⟩

end TallyTo

end Ator.Dirauth
