import Mathlib.Data.List.Basic

/-!
# Runs of a system

A system takes steps `step s op s'` from state to state, each for an operation.  `Run step s ops s'`
is a run, with the state each of its steps starts in beside its operation.

* `Run.inv`: what every step preserves holds in every state of a run; `Run.inv_when`: so does what
  the steps on some operations preserve, in a run of these operations.
* `Run.of_steps`: a run can be computed when the steps can.
* `Run.forall_steps_iff`: what a step does right exactly under a condition is done right by each
  step of a run exactly when each of them meets the condition.
* `Run.simulation`: a step-by-step simulation is one of whole runs.
* `Run.good_iff`: a property of states that a step keeps exactly under a condition holds at the end
  of a run exactly when each of its steps meets the condition.
-/

namespace IotDeviceSdk

variable {σ ω : Type} {step : σ → ω → σ → Prop}

/-- A run from one state to another, with its steps. -/
inductive Run (step : σ → ω → σ → Prop) (s : σ) : List (σ × ω) → σ → Prop where
  | nil : Run step s [] s
  | snoc {s' s'' : σ} {steps : List (σ × ω)} {op : ω} :
    Run step s steps s' → step s' op s'' → Run step s (steps ++ [(s', op)]) s''

namespace Run

variable {Inv : σ → Prop} {s s' : σ} {steps : List (σ × ω)}

/-- **Invariants** of a run of certain operations. -/
theorem inv_when {Allowed : ω → Prop}
    (hstep : ∀ s op s', Allowed op → Inv s → step s op s' → Inv s') (hs : Inv s)
    (h : Run step s steps s') (hsteps : ∀ x ∈ steps, Allowed x.2) : Inv s' := by
  induction h with
  | nil => exact hs
  | @snoc s₁ s₂ steps op hrun hlast ih =>
    have hop : Allowed op := hsteps (s₁, op) (by simp)
    exact hstep _ _ _ hop (ih fun x hx => hsteps x (by simp [hx])) hlast

/-- **Invariants.** -/
theorem inv (hstep : ∀ s op s', Inv s → step s op s' → Inv s') (hs : Inv s)
    (h : Run step s steps s') : Inv s' := by
  have hwhen : ∀ s op s', True → Inv s → step s op s' → Inv s' := fun s op s' _ => hstep s op s'
  exact inv_when hwhen hs h fun _ _ => trivial

/-- **Properties kept under a condition.** -/
theorem good_iff {Good : σ → Prop} {Cond : σ → ω → Prop}
    (hinv : ∀ s op s', Inv s → step s op s' → Inv s')
    (hgood : ∀ s op s', Inv s → step s op s' → (Good s' ↔ Good s ∧ Cond s op))
    (hs : Inv s) (hs' : Good s) (h : Run step s steps s') :
    Good s' ↔ ∀ x ∈ steps, Cond x.1 x.2 := by
  induction h with
  | nil => simp [hs']
  | snoc hrun hlast ih =>
    rw [hgood _ _ _ (inv hinv hs hrun) hlast, ih]
    simp only [List.mem_append, List.mem_singleton, or_imp, forall_and, forall_eq]

/-- **Properties of single steps** that hold exactly under a condition. -/
theorem forall_steps_iff {P : σ → ω → σ → Prop} {Cond : σ → ω → Prop}
    (hP : ∀ s op s', step s op s' → (P s op s' ↔ Cond s op)) (h : Run step s steps s') :
    (∀ x ∈ steps, ∀ s'', step x.1 x.2 s'' → P x.1 x.2 s'') ↔ ∀ x ∈ steps, Cond x.1 x.2 := by
  induction h with
  | nil => simp
  | @snoc s₁ s₂ steps op _ hlast ih =>
    simp only [List.mem_append, List.mem_singleton, or_imp, forall_and, forall_eq, ih]
    have hop : (∀ s'', step s₁ op s'' → P s₁ op s'') ↔ Cond s₁ op := by
      constructor
      · exact fun hall => (hP _ _ _ hlast).mp (hall _ hlast)
      · exact fun hcond s'' hstep => (hP _ _ _ hstep).mpr hcond
    rw [hop]

/-- **Simulation**: when each step has one of another system that keeps the states related, each run
has a run of that system on the same operations. -/
theorem simulation {τ : Type} {step' : τ → ω → τ → Prop} {R : σ → τ → Prop} {t : τ}
    (hstep : ∀ s op s' t, R s t → step s op s' → ∃ t', step' t op t' ∧ R s' t') (hs : R s t)
    (h : Run step s steps s') :
    ∃ steps' t', Run step' t steps' t' ∧ R s' t' ∧ steps'.map Prod.snd = steps.map Prod.snd := by
  induction h with
  | nil => exact ⟨[], t, .nil, hs, rfl⟩
  | @snoc s₁ s₂ steps op hrun hlast ih =>
    obtain ⟨steps', t₁, hrun', hR, hops⟩ := ih
    obtain ⟨t₂, hlast', hR'⟩ := hstep _ _ _ _ hR hlast
    refine ⟨steps' ++ [(t₁, op)], t₂, .snoc hrun' hlast', hR', ?_⟩
    rw [List.map_append, List.map_append, hops]
    rfl

/-- A run with one more step in front. -/
theorem cons {s₁ s₂ s₃ : σ} {steps : List (σ × ω)} {op : ω} (hstep : step s₁ op s₂)
    (h : Run step s₂ steps s₃) : Run step s₁ ((s₁, op) :: steps) s₃ := by
  induction h with
  | nil => exact .snoc .nil hstep
  | snoc _ hlast ih => exact .snoc ih hlast

/-- The steps from a state on, `none` when one of them cannot be taken. -/
def steps? (next : ω → σ → Option σ) : σ → List ω → Option (List (σ × ω) × σ)
  | s, [] => some ([], s)
  | s, op :: ops => do
    let s' ← next op s
    let (steps, s'') ← steps? next s' ops
    return ((s, op) :: steps, s'')

theorem steps?_ops {next : ω → σ → Option σ} {ops : List ω}
    (h : steps? next s ops = some (steps, s')) : steps.map Prod.snd = ops := by
  induction ops generalizing s steps with
  | nil =>
    obtain ⟨rfl, rfl⟩ := Prod.mk.inj (Option.some.inj h)
    rfl
  | cons op ops ih =>
    obtain ⟨s₁, -, h⟩ := Option.bind_eq_some_iff.mp h
    obtain ⟨⟨steps₁, s₂⟩, hsteps, h⟩ := Option.bind_eq_some_iff.mp h
    obtain ⟨rfl, rfl⟩ := Prod.mk.inj (Option.some.inj h)
    rw [List.map_cons, ih hsteps]

theorem of_steps {next : ω → σ → Option σ} {ops : List ω}
    (h : steps? next s ops = some (steps, s')) :
    Run (fun s op s' => next op s = some s') s steps s' := by
  induction ops generalizing s steps with
  | nil =>
    obtain ⟨rfl, rfl⟩ := Prod.mk.inj (Option.some.inj h)
    exact .nil
  | cons op ops ih =>
    obtain ⟨s₁, hnext, h⟩ := Option.bind_eq_some_iff.mp h
    obtain ⟨⟨steps₁, s₂⟩, hsteps, h⟩ := Option.bind_eq_some_iff.mp h
    obtain ⟨rfl, rfl⟩ := Prod.mk.inj (Option.some.inj h)
    exact cons hnext (ih hsteps)

end Run

end IotDeviceSdk
