import Mathlib.Data.List.Induction

/-!
# Runs of a machine

A machine is a partial step function: `step s e` is the state after event `e`, or `none` where
the program stops (a failed assertion, undefined behaviour).  A run is a list of events.

* `Reaches` — the state a run ends in.
* `invariant_of_reaches`, `invariant_of_meets` — what every step preserves, or every step that
  meets a condition, holds at the end of the run.
* `exists_reaches_of_meets` — the run has an end.
* `forall_prefix_iff_meets` — a property whose only way to fail is a step that breaks the
  condition holds all along a run exactly when every step meets it.
* `forall_reached_and_meets_iff` — the same for runs that may stop, with a property of the steps.
-/

namespace Ator

open List

variable {σ ε : Type*} {step : σ → ε → Option σ} {I : σ → Prop} {C : σ → ε → Prop}
  {s t u : σ} {e : ε} {es fs : List ε}

/-- The run `es` takes `s` to `t`. -/
def Reaches (step : σ → ε → Option σ) (s : σ) (es : List ε) (t : σ) : Prop :=
  es.foldlM step s = some t

@[simp] lemma reaches_nil : Reaches step s [] t ↔ s = t := by
  simp [Reaches]

lemma reaches_cons : Reaches step s (e :: es) t ↔ ∃ u, step s e = some u ∧ Reaches step u es t := by
  simp [Reaches, Option.bind_eq_some_iff]

lemma reaches_append :
    Reaches step s (es ++ fs) t ↔ ∃ u, Reaches step s es u ∧ Reaches step u fs t := by
  simp [Reaches, Option.bind_eq_some_iff]

lemma reaches_snoc :
    Reaches step s (es ++ [e]) t ↔ ∃ u, Reaches step s es u ∧ step u e = some t := by
  rw [reaches_append]
  simp only [reaches_cons, reaches_nil, exists_eq_right]

lemma Reaches.unique (h : Reaches step s es t) (h' : Reaches step s es u) : t = u :=
  Option.some.inj (h.symm.trans h')

/-- What every step preserves holds at the end of every run. -/
theorem invariant_of_reaches (hstep : ∀ s e t, I s → step s e = some t → I t) (hs : I s)
    (h : Reaches step s es t) : I t := by
  induction es generalizing s with
  | nil => rwa [← reaches_nil.mp h]
  | cons e es ih =>
    obtain ⟨u, hu, htail⟩ := reaches_cons.mp h
    exact ih (hstep s e u hs hu) htail

/-- Every step of the run `es` starts where `C` allows its event. -/
def Meets (step : σ → ε → Option σ) (C : σ → ε → Prop) (s : σ) (es : List ε) : Prop :=
  ∀ pre e post, es = pre ++ e :: post → ∀ t, Reaches step s pre t → C t e

lemma meets_nil : Meets step C s [] := by
  intro pre e post h
  simp at h

lemma meets_cons : Meets step C s (e :: es)
    ↔ C s e ∧ ∀ t, step s e = some t → Meets step C t es := by
  constructor
  · intro h
    refine ⟨h [] e es rfl s (reaches_nil.mpr rfl), fun t ht pre e' post hes u hu => ?_⟩
    exact h (e :: pre) e' post (by rw [hes, cons_append]) u (reaches_cons.mpr ⟨t, ht, hu⟩)
  · rintro ⟨he, hes⟩ pre e' post heq u hu
    cases pre with
    | nil =>
      obtain ⟨rfl, -⟩ := List.cons.inj heq
      rwa [← reaches_nil.mp hu]
    | cons x pre =>
      obtain ⟨rfl, htail⟩ := List.cons.inj heq
      obtain ⟨t, ht, hu⟩ := reaches_cons.mp hu
      exact hes t ht pre e' post htail u hu

instance decidableMeets [∀ s e, Decidable (C s e)] :
    ∀ s es, Decidable (Meets step C s es)
  | _, [] => isTrue meets_nil
  | s, e :: es =>
    match he : step s e with
    | none => decidable_of_iff (C s e) (by simp [meets_cons, he])
    | some t =>
      have := decidableMeets t es
      decidable_of_iff (C s e ∧ Meets step C t es) (by simp [meets_cons, he])

lemma meets_snoc : Meets step C s (es ++ [e])
    ↔ Meets step C s es ∧ ∀ t, Reaches step s es t → C t e := by
  constructor
  · intro h
    refine ⟨fun pre e' post hes t ht => h pre e' (post ++ [e]) (by simp [hes]) t ht, fun t ht => ?_⟩
    exact h es e [] rfl t ht
  · rintro ⟨hes, hlast⟩ pre e' post heq t ht
    rcases eq_nil_or_concat post with rfl | ⟨post, x, rfl⟩
    · obtain ⟨rfl, heq'⟩ := append_inj' heq rfl
      rw [← singleton_inj.mp heq']
      exact hlast t ht
    · rw [concat_eq_append, ← cons_append, ← append_assoc] at heq
      obtain ⟨hpre, -⟩ := append_inj' heq rfl
      exact hes pre e' post hpre t ht

lemma meets_append : Meets step C s (es ++ fs)
    ↔ Meets step C s es ∧ ∀ t, Reaches step s es t → Meets step C t fs := by
  induction es generalizing s with
  | nil =>
    simp only [nil_append, reaches_nil, forall_eq', iff_and_self]
    exact fun _ => meets_nil
  | cons e es ih =>
    rw [cons_append, meets_cons, meets_cons, and_assoc]
    refine and_congr_right fun _ => ⟨fun h => ⟨fun t ht => (ih.mp (h t ht)).1, ?_⟩, ?_⟩
    · intro u hu
      obtain ⟨t, ht, htail⟩ := reaches_cons.mp hu
      exact (ih.mp (h t ht)).2 u htail
    · rintro ⟨hes, hfs⟩ t ht
      exact ih.mpr ⟨hes t ht, fun u hu => hfs u (reaches_cons.mpr ⟨t, ht, hu⟩)⟩

variable {D : σ → ε → Prop}

lemma meets_and :
    Meets step (fun s e => C s e ∧ D s e) s es ↔ Meets step C s es ∧ Meets step D s es := by
  constructor
  · intro h
    exact ⟨fun pre e post hes t ht => (h pre e post hes t ht).1,
      fun pre e post hes t ht => (h pre e post hes t ht).2⟩
  · rintro ⟨hC, hD⟩ pre e post hes t ht
    exact ⟨hC pre e post hes t ht, hD pre e post hes t ht⟩

/-- A condition on the events alone. -/
lemma Meets.and_forall {D : ε → Prop} (h : Meets step C s es) (hD : ∀ e ∈ es, D e) :
    Meets step (fun s e => C s e ∧ D e) s es := by
  intro pre e post hes t ht
  refine ⟨h pre e post hes t ht, hD e ?_⟩
  rw [hes]
  exact mem_append_right pre mem_cons_self

/-- What every step that meets `C` preserves holds at the end of a run that meets it. -/
theorem invariant_of_meets (hstep : ∀ s e t, I s → C s e → step s e = some t → I t) (hs : I s)
    (hmeets : Meets step C s es) (h : Reaches step s es t) : I t := by
  induction es using List.reverseRecOn generalizing t with
  | nil => rwa [← reaches_nil.mp h]
  | append_singleton es e ih =>
    obtain ⟨u, hu, hlast⟩ := reaches_snoc.mp h
    obtain ⟨hes, hC⟩ := meets_snoc.mp hmeets
    exact hstep u e t (ih hes hu) (hC u hu) hlast

/-- Where a step that meets `C` never stops the program, neither does a run that meets it. -/
theorem exists_reaches_of_meets (hstep : ∀ s e, I s → C s e → ∃ t, step s e = some t ∧ I t)
    (hs : I s) (hmeets : Meets step C s es) : ∃ t, Reaches step s es t ∧ I t := by
  induction es generalizing s with
  | nil => exact ⟨s, reaches_nil.mpr rfl, hs⟩
  | cons e es ih =>
    obtain ⟨hC, hes⟩ := meets_cons.mp hmeets
    obtain ⟨u, hu, hI⟩ := hstep s e hs hC
    obtain ⟨t, ht, hIt⟩ := ih hI (hes u hu)
    exact ⟨t, reaches_cons.mpr ⟨u, hu, ht⟩, hIt⟩

/-- A condition that follows where an invariant holds. -/
lemma Meets.imp (hstep : ∀ s e t, I s → step s e = some t → I t) (hs : I s)
    (h : ∀ s e, I s → C s e → D s e) (hmeets : Meets step C s es) : Meets step D s es := by
  intro pre e post hes t ht
  exact h t e (invariant_of_reaches hstep hs ht) (hmeets pre e post hes t ht)

/-- Conditions that agree where an invariant holds are met by the same runs. -/
lemma meets_congr (hstep : ∀ s e t, I s → step s e = some t → I t) (hs : I s)
    (h : ∀ s e, I s → (C s e ↔ D s e)) : Meets step C s es ↔ Meets step D s es :=
  ⟨Meets.imp hstep hs fun s e hI => (h s e hI).mp, Meets.imp hstep hs fun s e hI => (h s e hI).mpr⟩

variable {P : σ → Prop}

/-- **Exact conditions.**  If from a state with `I` a step keeps `P` exactly when it meets `C`,
and then keeps `I`, then `P` holds all along a run exactly when every step of it meets `C`. -/
theorem forall_prefix_iff_meets (hIP : ∀ s, I s → P s)
    (hstep : ∀ s e t, I s → step s e = some t → (P t ↔ C s e))
    (hkeep : ∀ s e t, I s → C s e → step s e = some t → I t) (hs : I s) (h : Reaches step s es t) :
    (∀ pre, pre <+: es → ∀ u, Reaches step s pre u → P u) ↔ Meets step C s es := by
  induction es using List.reverseRecOn generalizing t with
  | nil =>
    refine ⟨fun _ => meets_nil, fun _ pre hpre u hu => ?_⟩
    rw [prefix_nil] at hpre
    rw [hpre, reaches_nil] at hu
    exact hu ▸ hIP s hs
  | append_singleton es e ih =>
    obtain ⟨u, hu, hlast⟩ := reaches_snoc.mp h
    rw [meets_snoc, ← ih hu]
    constructor
    · intro hall
      have hes : ∀ pre, pre <+: es → ∀ u, Reaches step s pre u → P u := fun pre hpre =>
        hall pre (hpre.trans (prefix_append es [e]))
      refine ⟨hes, fun v hv => ?_⟩
      rw [← hu.unique hv]
      have hI := invariant_of_meets hkeep hs ((ih hu).mp hes) hu
      exact (hstep u e t hI hlast).mp (hall _ (prefix_refl _) t h)
    · rintro ⟨hes, hC⟩ pre hpre v hv
      rcases prefix_concat_iff.mp (by simpa using hpre) with rfl | hpre
      · have hI := invariant_of_meets hkeep hs ((ih hu).mp hes) hu
        have hend : v = t := hv.unique (by simpa using h)
        rw [hend]
        exact (hstep u e t hI hlast).mpr (hC u hu)
      · exact hes pre hpre v hv

lemma meets_true : Meets step (fun _ _ => True) s es := by
  intro pre e post hes t ht
  trivial

/-- **Exact conditions**, where the program can stop.  If from a state with `I` a step has `D`, and
what it leaves has `P`, exactly when it meets `C`, and then what it leaves has `I`, then `P` holds
wherever a run has been and `D` of every step of it exactly when every step meets `C`. -/
theorem forall_reached_and_meets_iff (hIP : ∀ s, I s → P s)
    (hstep : ∀ s e, I s → ((∀ t, step s e = some t → P t) ∧ D s e ↔ C s e))
    (hkeep : ∀ s e t, I s → C s e → step s e = some t → I t) (hs : I s) :
    (∀ pre, pre <+: es → ∀ u, Reaches step s pre u → P u) ∧ Meets step D s es
      ↔ Meets step C s es := by
  induction es generalizing s with
  | nil =>
    refine ⟨fun _ => meets_nil, fun _ => ⟨fun pre hpre u hu => ?_, meets_nil⟩⟩
    rw [prefix_nil] at hpre
    rw [hpre, reaches_nil] at hu
    exact hu ▸ hIP s hs
  | cons e es ih =>
    rw [meets_cons, meets_cons]
    constructor
    · rintro ⟨hall, hD, hDs⟩
      have hC : C s e := by
        refine (hstep s e hs).mp ⟨fun t ht => hall [e] ?_ t ?_, hD⟩
        · exact prefix_append [e] es
        · exact reaches_cons.mpr ⟨t, ht, reaches_nil.mpr rfl⟩
      refine ⟨hC, fun t ht => ?_⟩
      refine (ih (hkeep s e t hs hC ht)).mp ⟨fun pre hpre u hu => ?_, hDs t ht⟩
      exact hall (e :: pre) (cons_prefix_cons.mpr ⟨rfl, hpre⟩) u
        (reaches_cons.mpr ⟨t, ht, hu⟩)
    · rintro ⟨hC, hes⟩
      have htail : ∀ t, step s e = some t →
          (∀ pre, pre <+: es → ∀ u, Reaches step t pre u → P u) ∧ Meets step D t es :=
        fun t ht => (ih (hkeep s e t hs hC ht)).mpr (hes t ht)
      refine ⟨fun pre hpre u hu => ?_, ((hstep s e hs).mpr hC).2, fun t ht => (htail t ht).2⟩
      cases pre with
      | nil => exact reaches_nil.mp hu ▸ hIP s hs
      | cons x pre =>
        obtain ⟨rfl, hrest⟩ := cons_prefix_cons.mp hpre
        obtain ⟨t, ht, hu⟩ := reaches_cons.mp hu
        exact (htail t ht).1 pre hrest u hu

/-- The same, of the steps alone. -/
theorem meets_iff_meets (hstep : ∀ s e, I s → (D s e ↔ C s e))
    (hkeep : ∀ s e t, I s → C s e → step s e = some t → I t) (hs : I s) :
    Meets step D s es ↔ Meets step C s es := by
  rw [← forall_reached_and_meets_iff (P := fun _ => True) (D := D) (fun _ _ => trivial)
    (fun s e h => by rw [hstep s e h]; exact and_iff_right fun _ _ => trivial) hkeep hs]
  exact (and_iff_right fun _ _ _ _ => trivial).symm

/-- The same, of the states alone. -/
theorem forall_reached_iff_meets (hIP : ∀ s, I s → P s)
    (hstep : ∀ s e, I s → ((∀ t, step s e = some t → P t) ↔ C s e))
    (hkeep : ∀ s e t, I s → C s e → step s e = some t → I t) (hs : I s) :
    (∀ pre, pre <+: es → ∀ u, Reaches step s pre u → P u) ↔ Meets step C s es := by
  rw [← forall_reached_and_meets_iff (D := fun _ _ => True) hIP
    (fun s e h => by rw [and_true]; exact hstep s e h) hkeep hs]
  exact (and_iff_left meets_true).symm

end Ator
