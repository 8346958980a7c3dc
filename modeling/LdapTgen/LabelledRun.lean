import Mathlib

/-! Runs of a partial step function along a list of labels. A label that cannot occur in a
state has no successor there. Guards are conditions on a label in the state where it occurs. -/
namespace LdapTgen.LabelledRun
variable {σ ε : Type*}

def run (step : σ → ε → Option σ) : σ → List ε → Option σ
  | s, [] => some s
  | s, e :: es => (step s e).bind fun t => run step t es

/-- Every label satisfies `guard` in the state where it is taken. -/
def Guarded (step : σ → ε → Option σ) (guard : σ → ε → Prop) : σ → List ε → Prop
  | _, [] => True
  | s, e :: es => guard s e ∧ ∀ t, step s e = some t → Guarded step guard t es

/-- Every state of the run, the first and the last included, satisfies `P`. -/
def Always (step : σ → ε → Option σ) (P : σ → Prop) : σ → List ε → Prop
  | s, [] => P s
  | s, e :: es => P s ∧ ∀ t, step s e = some t → Always step P t es

variable {step : σ → ε → Option σ}

@[simp] lemma run_nil (s : σ) : run step s [] = some s := rfl

lemma run_cons_eq_some {s u : σ} {e : ε} {es : List ε} :
    run step s (e :: es) = some u ↔ ∃ t, step s e = some t ∧ run step t es = some u := by
  simp [run, Option.bind_eq_some_iff]

lemma run_append {s : σ} {es fs : List ε} :
    run step s (es ++ fs) = (run step s es).bind fun t => run step t fs := by
  induction es generalizing s with
  | nil => rfl
  | cons e es ih => simp [run, Option.bind_assoc, ih]

/-- Invariant rule: what every guarded step preserves holds at the end of a guarded run. -/
theorem run_invariant {I : σ → Prop} {G : σ → ε → Prop}
    (hstep : ∀ s e t, I s → G s e → step s e = some t → I t)
    {s u : σ} {es : List ε} (hs : I s) (hg : Guarded step G s es)
    (hr : run step s es = some u) : I u := by
  induction es generalizing s with
  | nil => simp only [run_nil, Option.some.injEq] at hr; exact hr ▸ hs
  | cons e es ih =>
    obtain ⟨t, ht, htail⟩ := run_cons_eq_some.mp hr
    exact ih (hstep s e t hs hg.1 ht) (hg.2 t ht) htail

/-- Safety rule: along a guarded run, what follows from an invariant holds in every state. -/
theorem always_of_invariant {I P : σ → Prop} {G : σ → ε → Prop} (hP : ∀ s, I s → P s)
    (hstep : ∀ s e t, I s → G s e → step s e = some t → I t)
    {s : σ} {es : List ε} (hs : I s) (hg : Guarded step G s es) : Always step P s es := by
  induction es generalizing s with
  | nil => exact hP s hs
  | cons e es ih => exact ⟨hP s hs, fun t ht => ih (hstep s e t hs hg.1 ht) (hg.2 t ht)⟩

/-- The invariant rule when no guard is needed. -/
theorem run_preserves {I : σ → Prop} (hstep : ∀ s e t, I s → step s e = some t → I t)
    {s u : σ} {es : List ε} (hs : I s) (hr : run step s es = some u) : I u := by
  induction es generalizing s with
  | nil => simp only [run_nil, Option.some.injEq] at hr; exact hr ▸ hs
  | cons e es ih =>
    obtain ⟨t, ht, htail⟩ := run_cons_eq_some.mp hr
    exact ih (hstep s e t hs ht) htail

lemma run_concat {s : σ} {es : List ε} {e : ε} :
    run step s (es ++ [e]) = (run step s es).bind fun t => step t e := by
  simp [run_append, run]

/-- The same with an invariant that speaks of the labels taken so far. -/
theorem run_total_along {I : List ε → σ → Prop} {s : σ} (hs : I [] s)
    (hstep : ∀ es t e, run step s es = some t → I es t → ∃ u, step t e = some u ∧ I (es ++ [e]) u)
    (es : List ε) : ∃ u, run step s es = some u ∧ I es u := by
  induction es using List.reverseRecOn with
  | nil => exact ⟨s, run_nil s, hs⟩
  | append_singleton es e ih =>
    obtain ⟨t, ht, hIt⟩ := ih
    obtain ⟨u, hu, hIu⟩ := hstep es t e ht hIt
    exact ⟨u, by rw [run_concat, ht, Option.bind_some, hu], hIu⟩

/-- What holds at the end of a run, and did not hold at its start, was brought about by one of its steps
and kept by those behind it. -/
theorem exists_cause {P : σ → Prop} {Q : σ → ε → Prop} {R : ε → Prop} {s : σ} (hs : ¬ P s)
    (hstep : ∀ es t e u, run step s es = some t → step t e = some u → P u → Q t e ∨ P t ∧ R e)
    {es : List ε} {u : σ} (hr : run step s es = some u) (hu : P u) :
    ∃ before e after t, es = before ++ e :: after ∧ run step s before = some t ∧ Q t e ∧
      ∀ f ∈ after, R f := by
  induction es using List.reverseRecOn generalizing u with
  | nil =>
    obtain rfl := Option.some.inj hr
    exact absurd hu hs
  | append_singleton es e ih =>
    rw [run_concat] at hr
    obtain ⟨t, ht, he⟩ := Option.bind_eq_some_iff.mp hr
    rcases hstep es t e u ht he hu with hQ | ⟨hPt, hR⟩
    · exact ⟨es, e, [], t, rfl, ht, hQ, by simp⟩
    · obtain ⟨before, e', after, t', rfl, ht', hQ, hafter⟩ := ih ht hPt
      refine ⟨before, e', after ++ [e], t', by simp, ht', hQ, fun f hf => ?_⟩
      rcases List.mem_append.mp hf with hf | hf
      · exact hafter f hf
      · exact List.mem_singleton.mp hf ▸ hR

/-- Some label was taken behind labels for which `P` says so. -/
def Happened (P : List ε → ε → Prop) (es : List ε) : Prop :=
  ∃ before e after, es = before ++ e :: after ∧ P before e

lemma happened_nil {P : List ε → ε → Prop} : ¬ Happened P [] := by
  rintro ⟨before, e, after, heq, -⟩
  simp at heq

lemma happened_concat {P : List ε → ε → Prop} {es : List ε} {e : ε} :
    Happened P (es ++ [e]) ↔ Happened P es ∨ P es e := by
  constructor
  · rintro ⟨before, f, after, heq, hP⟩
    rcases List.eq_nil_or_concat after with rfl | ⟨after, g, rfl⟩
    · obtain ⟨rfl, hf⟩ := List.append_inj' heq rfl
      cases hf
      exact .inr hP
    · have hsplit : es ++ [e] = (before ++ f :: after) ++ [g] := by simpa using heq
      exact .inl ⟨before, f, after, (List.append_inj' hsplit rfl).1, hP⟩
  · rintro (⟨before, f, after, rfl, hP⟩ | hP)
    · exact ⟨before, f, after ++ [e], by simp, hP⟩
    · exact ⟨es, e, [], rfl, hP⟩

/-- The safety rule when no guard is needed. -/
theorem always_of_step {I P : σ → Prop} (hP : ∀ s, I s → P s)
    (hstep : ∀ s e t, I s → step s e = some t → I t) {s : σ} (hs : I s) (es : List ε) :
    Always step P s es := by
  induction es generalizing s with
  | nil => exact hP s hs
  | cons e es ih => exact ⟨hP s hs, fun t ht => ih (hstep s e t hs ht)⟩

def Leads (step : σ → ε → Option σ) (s t : σ) : Prop := ∃ es, run step s es = some t

lemma Leads.refl (step : σ → ε → Option σ) (s : σ) : Leads step s s := ⟨[], rfl⟩

lemma Leads.cons {s t u : σ} {e : ε} (he : step s e = some t) (h : Leads step t u) :
    Leads step s u := by
  obtain ⟨es, hr⟩ := h
  exact ⟨e :: es, run_cons_eq_some.mpr ⟨t, he, hr⟩⟩

lemma Leads.trans {s t u : σ} (hst : Leads step s t) (htu : Leads step t u) : Leads step s u := by
  obtain ⟨es, hs⟩ := hst
  obtain ⟨fs, ht⟩ := htu
  exact ⟨es ++ fs, by rw [run_append, hs, Option.bind_some, ht]⟩

lemma guarded_cons_some {guard : σ → ε → Prop} {s t : σ} {e : ε} {es : List ε}
    (ht : step s e = some t) :
    guard s e ∧ Guarded step guard t es ↔ Guarded step guard s (e :: es) := by
  constructor
  · rintro ⟨hg, h⟩
    refine ⟨hg, fun t' ht' => ?_⟩
    cases Option.some.inj (ht.symm.trans ht')
    exact h
  · rintro ⟨hg, h⟩
    exact ⟨hg, h t ht⟩

lemma guarded_cons_none {guard : σ → ε → Prop} {s : σ} {e : ε} {es : List ε}
    (hs : step s e = none) : guard s e ↔ Guarded step guard s (e :: es) := by
  refine ⟨fun hg => ⟨hg, fun t ht => ?_⟩, fun h => h.1⟩
  rw [hs] at ht
  cases ht

instance decidableGuarded {guard : σ → ε → Prop} [∀ s e, Decidable (guard s e)] :
    ∀ s es, Decidable (Guarded step guard s es)
  | _, [] => .isTrue trivial
  | s, e :: es =>
      match h : step s e with
      | none => decidable_of_iff _ (guarded_cons_none h)
      | some t =>
          have : Decidable (Guarded step guard t es) := decidableGuarded t es
          decidable_of_iff _ (guarded_cons_some h)

/-- Guard rule: labels of a kind that keep an invariant under which they are guarded. -/
theorem guarded_of_invariant {I : σ → Prop} {E : ε → Prop} {G : σ → ε → Prop}
    (hG : ∀ s e, I s → E e → G s e) (hstep : ∀ s e t, I s → E e → step s e = some t → I t)
    {s : σ} {es : List ε} (hs : I s) (he : ∀ e ∈ es, E e) : Guarded step G s es := by
  induction es generalizing s with
  | nil => trivial
  | cons e es ih =>
    have hE : E e := he e (by simp)
    exact ⟨hG s e hs hE, fun t ht => ih (hstep s e t hs hE ht) fun f hf => he f (by simp [hf])⟩

/-- Guard rule for guards on the labels alone. -/
theorem guarded_of_forall {G : σ → ε → Prop} {es : List ε} (he : ∀ e ∈ es, ∀ s, G s e) (s : σ) :
    Guarded step G s es :=
  guarded_of_invariant (I := fun _ => True) (fun s _ _ hG => hG s) (fun _ _ _ _ _ _ => trivial)
    trivial he

/-- Two guards that agree wherever an invariant of the guarded steps holds. -/
theorem guarded_congr {I : σ → Prop} {G H : σ → ε → Prop}
    (hstep : ∀ s e t, I s → G s e → step s e = some t → I t)
    (hGH : ∀ s e, I s → (G s e ↔ H s e)) {s : σ} (hs : I s) (es : List ε) :
    Guarded step G s es ↔ Guarded step H s es := by
  induction es generalizing s with
  | nil => exact Iff.rfl
  | cons e es ih =>
    constructor
    · rintro ⟨hg, ht⟩
      exact ⟨(hGH s e hs).mp hg, fun t h => (ih (hstep s e t hs hg h)).mp (ht t h)⟩
    · rintro ⟨hh, ht⟩
      have hg := (hGH s e hs).mpr hh
      exact ⟨hg, fun t h => (ih (hstep s e t hs hg h)).mpr (ht t h)⟩

lemma Always.head {P : σ → Prop} {s : σ} {es : List ε} (h : Always step P s es) : P s := by
  cases es with
  | nil => exact h
  | cons e es => exact h.1

/-- `Always` speaks of the states reached by the prefixes of the run. -/
theorem always_iff_reached {P : σ → Prop} {s : σ} {es : List ε} :
    Always step P s es ↔ ∀ fs, fs <+: es → ∀ t, run step s fs = some t → P t := by
  induction es generalizing s with
  | nil =>
    simp only [Always, List.prefix_nil]
    constructor
    · rintro h fs rfl t ht
      simp only [run_nil, Option.some.injEq] at ht
      exact ht ▸ h
    · intro h
      exact h [] rfl s rfl
  | cons e es ih =>
    constructor
    · rintro ⟨hs, hrest⟩ fs hfs t ht
      rcases List.prefix_cons_iff.mp hfs with rfl | ⟨gs, rfl, hgs⟩
      · simp only [run_nil, Option.some.injEq] at ht
        exact ht ▸ hs
      · obtain ⟨u, hu, hr⟩ := run_cons_eq_some.mp ht
        exact ih.mp (hrest u hu) gs hgs t hr
    · intro h
      refine ⟨h [] List.nil_prefix s rfl, fun t ht => ih.mpr fun gs hgs u hu => ?_⟩
      exact h (e :: gs) (List.prefix_cons_iff.mpr (.inr ⟨gs, rfl, hgs⟩)) u
        (run_cons_eq_some.mpr ⟨t, ht, hu⟩)

/-- When, under an invariant, a state property survives a step exactly if the step is guarded, it
holds all along a run exactly if the whole run is guarded. -/
theorem always_iff_guarded_of_invariant {I P : σ → Prop} {G : σ → ε → Prop}
    (hI : ∀ s e t, I s → step s e = some t → I t)
    (hdef : ∀ s e, I s → P s → ¬ G s e → ∃ t, step s e = some t)
    (hstep : ∀ s e t, I s → P s → step s e = some t → (P t ↔ G s e))
    {s : σ} (hinv : I s) (hs : P s) (es : List ε) :
    Always step P s es ↔ Guarded step G s es := by
  induction es generalizing s with
  | nil => exact ⟨fun _ => trivial, fun _ => hs⟩
  | cons e es ih =>
    constructor
    · rintro ⟨_, hrest⟩
      have hg : G s e := by
        by_contra hn
        obtain ⟨t, ht⟩ := hdef s e hinv hs hn
        exact hn ((hstep s e t hinv hs ht).mp (hrest t ht).head)
      refine ⟨hg, fun t ht => ?_⟩
      exact (ih (hI s e t hinv ht) ((hstep s e t hinv hs ht).mpr hg)).mp (hrest t ht)
    · rintro ⟨hg, hrest⟩
      refine ⟨hs, fun t ht => ?_⟩
      exact (ih (hI s e t hinv ht) ((hstep s e t hinv hs ht).mpr hg)).mpr (hrest t ht)

theorem always_iff_guarded {P : σ → Prop} {G : σ → ε → Prop}
    (hdef : ∀ s e, P s → ¬ G s e → ∃ t, step s e = some t)
    (hstep : ∀ s e t, P s → step s e = some t → (P t ↔ G s e)) {s : σ} (hs : P s) (es : List ε) :
    Always step P s es ↔ Guarded step G s es :=
  always_iff_guarded_of_invariant (I := fun _ => True) (fun _ _ _ _ _ => trivial)
    (fun s e _ => hdef s e) (fun s e t _ => hstep s e t) trivial hs es

/-- When a step is defined and keeps a property exactly if it is guarded, every part of a run is
defined and ends with the property exactly if the whole run is guarded. -/
theorem defined_iff_guarded {I P : σ → Prop} {G : σ → ε → Prop} (hP : ∀ s, I s → P s)
    (hkeep : ∀ s e t, I s → step s e = some t → P t → I t)
    (hstep : ∀ s e, I s → (G s e ↔ ∃ t, step s e = some t ∧ P t)) {s : σ} (hs : I s) (es : List ε) :
    (∀ fs, fs <+: es → ∃ t, run step s fs = some t ∧ P t) ↔ Guarded step G s es := by
  induction es generalizing s with
  | nil =>
    refine ⟨fun _ => trivial, fun _ fs hfs => ⟨s, ?_, hP s hs⟩⟩
    rw [List.prefix_nil.mp hfs, run_nil]
  | cons e es ih =>
    constructor
    · intro h
      obtain ⟨t, ht, hPt⟩ : ∃ t, step s e = some t ∧ P t := by
        obtain ⟨u, hu, hPu⟩ := h [e] (List.prefix_cons_iff.mpr (.inr ⟨[], rfl, List.nil_prefix⟩))
        obtain ⟨t, ht, hrest⟩ := run_cons_eq_some.mp hu
        rw [run_nil, Option.some.injEq] at hrest
        exact ⟨t, ht, hrest ▸ hPu⟩
      rw [← guarded_cons_some ht]
      refine ⟨(hstep s e hs).mpr ⟨t, ht, hPt⟩, (ih (hkeep s e t hs ht hPt)).mp fun fs hfs => ?_⟩
      obtain ⟨u, hu, hPu⟩ := h (e :: fs) (List.prefix_cons_iff.mpr (.inr ⟨fs, rfl, hfs⟩))
      obtain ⟨t', ht', hrest⟩ := run_cons_eq_some.mp hu
      obtain rfl : t = t' := Option.some.inj (ht.symm.trans ht')
      exact ⟨u, hrest, hPu⟩
    · rintro ⟨hg, hrest⟩ fs hfs
      rcases List.prefix_cons_iff.mp hfs with rfl | ⟨gs, rfl, hgs⟩
      · exact ⟨s, run_nil s, hP s hs⟩
      · obtain ⟨t, ht, hPt⟩ := (hstep s e hs).mp hg
        obtain ⟨u, hu, hPu⟩ := (ih (hkeep s e t hs ht hPt)).mpr (hrest t ht) gs hgs
        exact ⟨u, run_cons_eq_some.mpr ⟨t, ht, hu⟩, hPu⟩

/-- Once a guard has been missed, what no step repairs is still there at the end. -/
theorem guarded_or_persistent {I B : σ → Prop} {G : σ → ε → Prop}
    (hI : ∀ s e t, I s → step s e = some t → I t)
    (hB : ∀ s e t, I s → B s → step s e = some t → B t)
    (hmiss : ∀ s e t, I s → ¬ G s e → step s e = some t → B t)
    {s u : σ} {es : List ε} (hs : I s) (hr : run step s es = some u) :
    Guarded step G s es ∨ B u := by
  have hboth : ∀ s e t, I s ∧ B s → step s e = some t → I t ∧ B t := fun s e t h ht =>
    ⟨hI s e t h.1 ht, hB s e t h.1 h.2 ht⟩
  induction es generalizing s with
  | nil => exact .inl trivial
  | cons e es ih =>
    obtain ⟨t, ht, hrest⟩ := run_cons_eq_some.mp hr
    by_cases hg : G s e
    · rcases ih (hI s e t hs ht) hrest with htail | hb
      · left
        refine ⟨hg, fun t' ht' => ?_⟩
        obtain rfl : t = t' := Option.some_inj.mp (ht.symm.trans ht')
        exact htail
      · exact .inr hb
    · have hmissed : I t ∧ B t := ⟨hI s e t hs ht, hmiss s e t hs hg ht⟩
      exact .inr (run_preserves hboth hmissed hrest).2

end LdapTgen.LabelledRun
