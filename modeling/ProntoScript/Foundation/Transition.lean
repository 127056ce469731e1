/-
# Runs of labelled transition systems

A system is a relation `step s e t`: the label `e` carries whatever the
outside answers during the step, so a run is a list of labels.  An invariant
of every step is an invariant of every run (`Run.invariant`).  Two ways of
cutting a system down to its good runs are compared: `Guarded G step` takes
only the steps whose label satisfies `G` in the state before, `Keeping P step`
only the steps that end in a state satisfying `P`.  Where a step from a state
with `P` keeps `P` exactly when it meets `G`, the two have the same runs
(`run_guarded_iff_keeping`), which is how an exact condition on steps is turned
into one on whole runs.  `Obeying R step` takes the steps that `R` allows by what they
do; `run_guarded_iff_obeying` is the same for these.

What a property of whole histories needs beyond the state is a record kept along
(`Recorded note step`), and a system with more in its states runs as one with less
(`Run.simulates`).
-/

import Mathlib.Logic.Basic

namespace Transition

variable {S E : Type*} {step step' : S → E → S → Prop}

/-- The finite runs of `step`, with the labels in the order they were taken. -/
inductive Run (step : S → E → S → Prop) : S → List E → S → Prop
  | nil (s : S) : Run step s [] s
  | cons {s t u : S} {e : E} {es : List E} :
      step s e t → Run step t es u → Run step s (e :: es) u

/-- The steps whose label satisfies `G` in the state before. -/
def Guarded (G : S → E → Prop) (step : S → E → S → Prop) (s : S) (e : E) (t : S) : Prop :=
  G s e ∧ step s e t

/-- The steps that end in a state satisfying `P`. -/
def Keeping (P : S → Prop) (step : S → E → S → Prop) (s : S) (e : E) (t : S) : Prop :=
  step s e t ∧ P t

/-- A run of one step. -/
theorem Run.single {s t : S} {e : E} (h : step s e t) : Run step s [e] t :=
  .cons h (.nil t)

/-- One run and then another. -/
theorem Run.append {s t u : S} {es fs : List E} (h₁ : Run step s es t) (h₂ : Run step t fs u) :
    Run step s (es ++ fs) u := by
  induction h₁ with
  | nil => exact h₂
  | cons hs _ ih => exact .cons hs (ih h₂)

/-- A run whose steps are steps of another system is a run of that. -/
theorem Run.mono (hle : ∀ s e t, step s e t → step' s e t) {s t : S} {es : List E}
    (h : Run step s es t) : Run step' s es t := by
  induction h with
  | nil => exact .nil _
  | cons hs _ ih => exact .cons (hle _ _ _ hs) ih

/-- **An invariant of the steps is an invariant of the runs.** -/
theorem Run.invariant {P : S → Prop} (hP : ∀ s e t, P s → step s e t → P t) {s t : S}
    {es : List E} (h : Run step s es t) (hs : P s) : P t := by
  induction h with
  | nil => exact hs
  | cons hst _ ih => exact ih (hP _ _ _ hs hst)

/-- Where the steps are computed, computing them one after the other gives a run. -/
theorem Run.of_foldlM {next : S → E → Option S} {s t : S} {es : List E}
    (h : es.foldlM next s = some t) : Run (fun s e t => next s e = some t) s es t := by
  induction es generalizing s with
  | nil =>
      obtain rfl := Option.some.inj h
      exact .nil _
  | cons e es ih =>
      rw [List.foldlM_cons, Option.bind_eq_bind, Option.bind_eq_some_iff] at h
      obtain ⟨u, hstep, hrest⟩ := h
      exact .cons hstep (ih hrest)

/-- A guarded run, one step at a time. -/
theorem Run.guarded_cons {G : S → E → Prop} {s t u : S} {e : E} {es : List E} (hg : G s e)
    (hs : step s e t) (h : Run (Guarded G step) t es u) : Run (Guarded G step) s (e :: es) u :=
  .cons ⟨hg, hs⟩ h

/-- A run of the guarded system is a run of the system. -/
theorem Run.of_guarded {G : S → E → Prop} {s t : S} {es : List E}
    (h : Run (Guarded G step) s es t) : Run step s es t :=
  h.mono fun _ _ _ hst => hst.2

/-- Where a label fits at most one step, a guarded run meets `G` wherever its first labels
lead. -/
theorem Run.guard_of_append {G : S → E → Prop}
    (hstep : ∀ s e t t', step s e t → step s e t' → t = t') {s t u : S} {e : E} {es fs : List E}
    (h : Run (Guarded G step) s (es ++ e :: fs) u) (hrun : Run step s es t) : G t e := by
  induction hrun with
  | nil =>
      obtain _ | ⟨hst, -⟩ := h
      exact hst.1
  | cons hs _ ih =>
      obtain _ | ⟨hst, hrest⟩ := h
      obtain rfl := hstep _ _ _ _ hs hst.2
      exact ih hrest

/-- **Guarded invariants.**  `J` is kept by every step, `P` by the steps that
meet `G` from a state with `J`: then `P` holds after every guarded run. -/
theorem Run.guarded_invariant {G : S → E → Prop} {J P : S → Prop}
    (hJ : ∀ s e t, J s → step s e t → J t)
    (hP : ∀ s e t, J s → P s → G s e → step s e t → P t) {s t : S} {es : List E}
    (h : Run (Guarded G step) s es t) (hj : J s) (hp : P s) : P t :=
  (h.invariant (P := fun s => J s ∧ P s)
    (fun s e t hs hst => ⟨hJ s e t hs.1 hst.2, hP s e t hs.1 hs.2 hst.1 hst.2⟩) ⟨hj, hp⟩).2

/-- **An exact condition on steps is exact on runs.**  If, from a state with
`J` and `P`, a step ends in `P` exactly when it meets `G`, the runs all of whose
steps meet `G` are the runs all of whose states satisfy `P`. -/
theorem run_guarded_iff_keeping {G : S → E → Prop} {J P : S → Prop}
    (hJ : ∀ s e t, J s → step s e t → J t)
    (hP : ∀ s e t, J s → P s → step s e t → (P t ↔ G s e)) {s t : S} {es : List E}
    (hj : J s) (hp : P s) :
    Run (Guarded G step) s es t ↔ Run (Keeping P step) s es t := by
  induction es generalizing s with
  | nil =>
      constructor <;> intro h <;> cases h <;> exact .nil _
  | cons e es ih =>
      constructor
      · rintro (_ | ⟨⟨hg, hst⟩, hrun⟩)
        have hpt := (hP _ _ _ hj hp hst).2 hg
        exact .cons ⟨hst, hpt⟩ ((ih (hJ _ _ _ hj hst) hpt).1 hrun)
      · rintro (_ | ⟨⟨hst, hpt⟩, hrun⟩)
        exact .cons ⟨(hP _ _ _ hj hp hst).1 hpt, hst⟩ ((ih (hJ _ _ _ hj hst) hpt).2 hrun)

/-- The same, where what is known of the states is kept by the steps that meet `G`. -/
theorem run_guarded_iff_keeping_of {G : S → E → Prop} {I P : S → Prop}
    (hP : ∀ s e t, I s → step s e t → (P t ↔ G s e))
    (hI : ∀ s e t, I s → step s e t → G s e → I t) {s t : S} {es : List E} (hs : I s) :
    Run (Guarded G step) s es t ↔ Run (Keeping P step) s es t := by
  constructor
  · intro h
    induction h with
    | nil => exact .nil _
    | cons hst _ ih =>
        exact .cons ⟨hst.2, (hP _ _ _ hs hst.2).2 hst.1⟩ (ih (hI _ _ _ hs hst.2 hst.1))
  · intro h
    induction h with
    | nil => exact .nil _
    | cons hst _ ih =>
        have hg := (hP _ _ _ hs hst.1).1 hst.2
        exact .cons ⟨hg, hst.1⟩ (ih (hI _ _ _ hs hst.1 hg))

/-! ### What steps do -/

/-- The steps that `R` allows, by the states before and after. -/
def Obeying (R : S → E → S → Prop) (step : S → E → S → Prop) (s : S) (e : E) (t : S) : Prop :=
  step s e t ∧ R s e t

/-- **Guarded steps obey.**  `I` is kept by the steps that meet `G`, and with it they
obey `R`. -/
theorem Run.obeying {G : S → E → Prop} {R : S → E → S → Prop} {I : S → Prop}
    (hI : ∀ s e t, I s → G s e → step s e t → R s e t ∧ I t) {s t : S} {es : List E}
    (h : Run (Guarded G step) s es t) (hs : I s) : Run (Obeying R step) s es t := by
  induction h with
  | nil => exact .nil _
  | cons hst _ ih =>
      obtain ⟨hR, ht⟩ := hI _ _ _ hs hst.1 hst.2
      exact .cons ⟨hst.2, hR⟩ (ih ht)

/-- If, from a state with `J`, a step obeys `R` exactly when it meets `G`, the runs all
of whose steps meet `G` are those all of whose steps obey `R`. -/
theorem run_guarded_iff_obeying {G : S → E → Prop} {R : S → E → S → Prop} {J : S → Prop}
    (hJ : ∀ s e t, J s → step s e t → J t)
    (hR : ∀ s e t, J s → step s e t → (R s e t ↔ G s e)) {s t : S} {es : List E} (hj : J s) :
    Run (Guarded G step) s es t ↔ Run (Obeying R step) s es t := by
  constructor
  · intro h
    exact h.obeying (fun s e t hs hg hst => ⟨(hR s e t hs hst).2 hg, hJ s e t hs hst⟩) hj
  · intro h
    induction h with
    | nil => exact .nil _
    | cons hst _ ih => exact .cons ⟨(hR _ _ _ hj hst.1).1 hst.2, hst.1⟩ (ih (hJ _ _ _ hj hst.1))

/-! ### Records and simulations -/

/-- The system with a record that every step brings up to date. -/
def Recorded {A : Type*} (note : S → E → S → A → A) (step : S → E → S → Prop) (s : S × A) (e : E)
    (t : S × A) : Prop :=
  step s.1 e t.1 ∧ t.2 = note s.1 e t.1 s.2

/-- A guarded run with a record, one step at a time. -/
theorem Run.recorded_cons {A : Type*} {note : S → E → S → A → A} {G : S × A → E → Prop} {s t : S}
    {a : A} {u : S × A} {e : E} {es : List E} (hg : G (s, a) e) (hs : step s e t)
    (h : Run (Guarded G (Recorded note step)) (t, note s e t a) es u) :
    Run (Guarded G (Recorded note step)) (s, a) (e :: es) u :=
  .cons ⟨hg, hs, rfl⟩ h

/-- **Simulation.**  Where every step is a run of another system, seen through `f`, so
is every run. -/
theorem Run.simulates {T F : Type*} {abstract : T → F → T → Prop} {f : S → T} {J : S → Prop}
    (h : ∀ s e t, J s → step s e t → J t ∧ ∃ fs, Run abstract (f s) fs (f t)) {s t : S}
    {es : List E} (hrun : Run step s es t) (hs : J s) : ∃ fs, Run abstract (f s) fs (f t) := by
  induction hrun with
  | nil => exact ⟨[], .nil _⟩
  | cons hst _ ih =>
      obtain ⟨ht, fs, hfs⟩ := h _ _ _ hs hst
      obtain ⟨gs, hgs⟩ := ih ht
      exact ⟨fs ++ gs, hfs.append hgs⟩

/-- Where every step is one step of the other system, so is each step of a run. -/
theorem Run.map {T F : Type*} {abstract : T → F → T → Prop} {f : S → T} {g : E → F} {J : S → Prop}
    (h : ∀ s e t, J s → step s e t → J t ∧ abstract (f s) (g e) (f t)) {s t : S} {es : List E}
    (hrun : Run step s es t) (hs : J s) : J t ∧ Run abstract (f s) (es.map g) (f t) := by
  induction hrun with
  | nil => exact ⟨hs, .nil _⟩
  | cons hst _ ih =>
      obtain ⟨ht, hst'⟩ := h _ _ _ hs hst
      obtain ⟨hu, hrun'⟩ := ih ht
      exact ⟨hu, .cons hst' hrun'⟩

/-- The same for a relation between the states. -/
theorem Run.follows {T F : Type*} {abstract : T → F → T → Prop} {R : S → T → Prop}
    (h : ∀ s e s' t, R s t → step s e s' → ∃ fs t', Run abstract t fs t' ∧ R s' t') {s s' : S}
    {t : T} {es : List E} (hrun : Run step s es s') (hR : R s t) :
    ∃ fs t', Run abstract t fs t' ∧ R s' t' := by
  induction hrun generalizing t with
  | nil => exact ⟨[], t, .nil _, hR⟩
  | cons hst _ ih =>
      obtain ⟨fs, u, hfs, hu⟩ := h _ _ _ t hR hst
      obtain ⟨gs, t', hgs, ht'⟩ := ih hu
      exact ⟨fs ++ gs, t', hfs.append hgs, ht'⟩

end Transition
