import IotDeviceSdk.Prog.ForEach

/-!
# Simulation of programs

`Simulates env R p q` says that `p` does what `q` does, on other data: it is undefined where `q` is,
and otherwise has a result that `R` relates to the one of `q`, in the same state.  The rules follow
a `do` block; `Simulates.forEach` and `Simulates.foldlM` are for loops.
-/

namespace IotDeviceSdk.Prog

variable {ε σ α β α' β' ι : Type} {env : ε}

/-- `p` does what `q` does, with results that `R` relates. -/
def Simulates (env : ε) (R : α → β → Prop) (p : Prog ε σ α) (q : Prog ε σ β) : Prop :=
  ∀ s, (q env s = none → p env s = none) ∧
    ∀ b s', q env s = some (b, s') → ∃ a, p env s = some (a, s') ∧ R a b

namespace Simulates

variable {R S : α → β → Prop} {R' : α' → β' → Prop}

theorem pure {a : α} {b : β} (h : R a b) :
    Simulates env R (Pure.pure a : Prog ε σ α) (Pure.pure b) := by
  intro s
  constructor
  · intro hnone
    cases hnone
  · intro b' s' hb
    obtain ⟨rfl, rfl⟩ := Prod.mk.inj (Option.some.inj hb)
    exact ⟨a, rfl, h⟩

theorem undefined : Simulates env R (Prog.undefined : Prog ε σ α) Prog.undefined := by
  intro s
  refine ⟨fun _ => rfl, ?_⟩
  intro b s' hb
  cases hb

/-- A program simulates itself. -/
theorem refl (p : Prog ε σ α) : Simulates env Eq p p :=
  fun _ => ⟨id, fun a _ ha => ⟨a, ha, rfl⟩⟩

theorem mono {p : Prog ε σ α} {q : Prog ε σ β} (h : Simulates env R p q)
    (hRS : ∀ a b, R a b → S a b) : Simulates env S p q := by
  intro s
  refine ⟨(h s).1, fun b s' hb => ?_⟩
  obtain ⟨a, ha, hab⟩ := (h s).2 b s' hb
  exact ⟨a, ha, hRS a b hab⟩

theorem bind {p : Prog ε σ α} {q : Prog ε σ β} {f : α → Prog ε σ α'} {g : β → Prog ε σ β'}
    (h : Simulates env R p q) (hfg : ∀ a b, R a b → Simulates env R' (f a) (g b)) :
    Simulates env R' (p >>= f) (q >>= g) := by
  intro s
  constructor
  · intro hnone
    rw [bind_apply] at hnone ⊢
    cases hq : q env s with
    | none => rw [(h s).1 hq, Option.bind_none]
    | some r =>
      obtain ⟨b, s'⟩ := r
      obtain ⟨a, ha, hab⟩ := (h s).2 b s' hq
      rw [hq, Option.bind_some] at hnone
      rw [ha, Option.bind_some]
      exact (hfg a b hab s').1 hnone
  · intro b' s'' hb'
    obtain ⟨b, s', hq, hg⟩ := bind_eq_some.mp hb'
    obtain ⟨a, ha, hab⟩ := (h s).2 b s' hq
    obtain ⟨a', ha', hab'⟩ := (hfg a b hab s').2 b' s'' hg
    exact ⟨a', bind_eq_some.mpr ⟨a, s', ha, ha'⟩, hab'⟩

/-- Programs that start with the same step. -/
theorem bind_same {p : Prog ε σ ι} {f : ι → Prog ε σ α} {g : ι → Prog ε σ β}
    (hfg : ∀ i, Simulates env R (f i) (g i)) : Simulates env R (p >>= f) (p >>= g) :=
  (refl p).bind fun i _ hi => hi ▸ hfg i

/-- What a relation says of the accumulators of a step. -/
def OnStep (R : α → β → Prop) : ForInStep α → ForInStep β → Prop
  | .yield a, .yield b => R a b
  | .done a, .done b => R a b
  | _, _ => False

theorem onStep_stepValue {a : ForInStep α} {b : ForInStep β} (h : OnStep R a b) :
    R (stepValue a) (stepValue b) := by
  cases a <;> cases b
  · exact h
  · cases h
  · cases h
  · exact h

/-- **Loops with early exit.** -/
theorem forEach {f : ι → α → Prog ε σ (ForInStep α)} {g : ι → β → Prog ε σ (ForInStep β)}
    (xs : List ι) {a : α} {b : β} (hab : R a b)
    (hfg : ∀ i a b, R a b → Simulates env (OnStep R) (f i a) (g i b)) :
    Simulates env (OnStep R) (Prog.forEach f xs a) (Prog.forEach g xs b) := by
  induction xs generalizing a b with
  | nil => exact pure hab
  | cons x xs ih =>
    refine (hfg x a b hab).bind fun a' b' h => ?_
    cases a' <;> cases b'
    · exact pure h
    · cases h
    · cases h
    · exact ih h

/-- **Loops.** -/
theorem foldlM {f : α → ι → Prog ε σ α} {g : β → ι → Prog ε σ β} (xs : List ι) {a : α} {b : β}
    (hab : R a b) (hfg : ∀ i a b, R a b → Simulates env R (f a i) (g b i)) :
    Simulates env R (xs.foldlM f a) (xs.foldlM g b) := by
  induction xs generalizing a b with
  | nil => exact pure hab
  | cons x xs ih =>
    rw [List.foldlM_cons, List.foldlM_cons]
    exact (hfg x a b hab).bind fun a' b' h => ih h

end Simulates

end IotDeviceSdk.Prog
