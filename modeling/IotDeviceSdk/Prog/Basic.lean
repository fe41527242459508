import Mathlib.Data.List.Basic

/-!
# Programs with an environment, a state and undefined behaviour

`Prog ε σ α` is a computation that reads a fixed environment `ε` (what the outside world does
during the run), threads a state `σ` and may get stuck: `none` is undefined behaviour, so a
statement about the results of a program says nothing about a run that is stuck.

The program logic is free of the state: `Returns env p Q` says that `p` is defined from every
state and that every result satisfies `Q` (total correctness), `Yields env p Q` says the same of
the runs that are defined (partial correctness), and `Outcome env p a` that `a` is the result
of some run.  The bind rules `Returns.bind` and `Yields.bind` compose them along a `do` block.
-/

namespace IotDeviceSdk

/-- Computations over an environment `ε` and a state `σ`; a run without a result is undefined
behaviour. -/
abbrev Prog (ε σ α : Type) : Type := ReaderT ε (StateT σ Option) α

namespace Prog

variable {ε σ α β : Type} {env : ε}

/-- Undefined behaviour. -/
def undefined : Prog ε σ α := fun _ _ => none

/-- The value of `o`, undefined behaviour when there is none. -/
def ofOption : Option α → Prog ε σ α
  | some a => pure a
  | none => undefined

@[simp] theorem pure_apply (a : α) (env : ε) (s : σ) :
    (pure a : Prog ε σ α) env s = some (a, s) := rfl

@[simp] theorem undefined_apply (env : ε) (s : σ) :
    (undefined : Prog ε σ α) env s = none := rfl

theorem bind_apply (p : Prog ε σ α) (f : α → Prog ε σ β) (env : ε) (s : σ) :
    (p >>= f) env s = (p env s).bind fun r => f r.1 env r.2 := rfl

/-- Inversion of one step of a `do` block. -/
theorem bind_eq_some {p : Prog ε σ α} {f : α → Prog ε σ β} {s : σ} {r : β × σ} :
    (p >>= f) env s = some r ↔ ∃ a s', p env s = some (a, s') ∧ f a env s' = some r := by
  rw [bind_apply, Option.bind_eq_some_iff]
  constructor
  · rintro ⟨⟨a, s'⟩, hp, hf⟩
    exact ⟨a, s', hp, hf⟩
  · rintro ⟨a, s', hp, hf⟩
    exact ⟨(a, s'), hp, hf⟩

/-! ### Results -/

/-- `a` is the result of `p` from some state. -/
def Outcome (env : ε) (p : Prog ε σ α) (a : α) : Prop :=
  ∃ s s', p env s = some (a, s')

/-- **Total correctness**: from every state `p` has a result, and the result satisfies `Q`. -/
def Returns (env : ε) (p : Prog ε σ α) (Q : α → Prop) : Prop :=
  ∀ s, ∃ a s', p env s = some (a, s') ∧ Q a

/-- **Partial correctness**: every result of `p` satisfies `Q`. -/
def Yields (env : ε) (p : Prog ε σ α) (Q : α → Prop) : Prop :=
  ∀ a, Outcome env p a → Q a

theorem Returns.yields {p : Prog ε σ α} {Q : α → Prop} (h : Returns env p Q) :
    Yields env p Q := by
  rintro a ⟨s, s', hp⟩
  obtain ⟨b, s'', hp', hb⟩ := h s
  rw [hp] at hp'
  obtain ⟨rfl, -⟩ := Prod.mk.inj (Option.some.inj hp')
  exact hb

theorem Returns.mono {p : Prog ε σ α} {P Q : α → Prop} (h : Returns env p P)
    (hPQ : ∀ a, P a → Q a) : Returns env p Q := by
  intro s
  obtain ⟨a, s', hp, ha⟩ := h s
  exact ⟨a, s', hp, hPQ a ha⟩

theorem Yields.mono {p : Prog ε σ α} {P Q : α → Prop} (h : Yields env p P)
    (hPQ : ∀ a, P a → Q a) : Yields env p Q :=
  fun a ha => hPQ a (h a ha)

/-- A result of `p` may be assumed to be one in the postcondition. -/
theorem Returns.outcome {p : Prog ε σ α} {Q : α → Prop} (h : Returns env p Q) :
    Returns env p fun a => Q a ∧ Outcome env p a := by
  intro s
  obtain ⟨a, s', hp, ha⟩ := h s
  exact ⟨a, s', hp, ha, s, s', hp⟩

/-- A defined program has an outcome that satisfies the postcondition. -/
theorem Returns.exists_outcome [Inhabited σ] {p : Prog ε σ α} {Q : α → Prop}
    (h : Returns env p Q) : ∃ a, Outcome env p a ∧ Q a := by
  obtain ⟨a, s', hp, ha⟩ := h default
  exact ⟨a, ⟨_, _, hp⟩, ha⟩

/-! ### Rules -/

theorem returns_pure {a : α} {Q : α → Prop} (h : Q a) :
    Returns env (pure a : Prog ε σ α) Q :=
  fun s => ⟨a, s, rfl, h⟩

theorem Returns.bind {p : Prog ε σ α} {f : α → Prog ε σ β} {P : α → Prop} {Q : β → Prop}
    (hp : Returns env p P) (hf : ∀ a, P a → Returns env (f a) Q) :
    Returns env (p >>= f) Q := by
  intro s
  obtain ⟨a, s', hpa, ha⟩ := hp s
  obtain ⟨b, s'', hfb, hb⟩ := hf a ha s'
  exact ⟨b, s'', bind_eq_some.mpr ⟨a, s', hpa, hfb⟩, hb⟩

theorem yields_pure {a : α} {Q : α → Prop} (h : Q a) :
    Yields env (pure a : Prog ε σ α) Q := by
  rintro b ⟨s, s', hb⟩
  obtain ⟨rfl, -⟩ := Prod.mk.inj (Option.some.inj hb)
  exact h

theorem yields_trivial {p : Prog ε σ α} : Yields env p fun _ => True :=
  fun _ _ => trivial

theorem yields_undefined {Q : α → Prop} : Yields env (undefined : Prog ε σ α) Q := by
  rintro a ⟨s, s', h⟩
  cases h

theorem ofOption_yields (o : Option α) :
    Yields env (ofOption o : Prog ε σ α) fun a => o = some a := by
  cases o with
  | none => exact yields_undefined
  | some a => exact yields_pure rfl

theorem ofOption_returns {o : Option α} (h : o ≠ none) :
    Returns env (ofOption o : Prog ε σ α) fun a => o = some a := by
  cases o with
  | none => exact absurd rfl h
  | some a => exact returns_pure rfl

theorem Yields.bind {p : Prog ε σ α} {f : α → Prog ε σ β} {P : α → Prop} {Q : β → Prop}
    (hp : Yields env p P) (hf : ∀ a, P a → Yields env (f a) Q) :
    Yields env (p >>= f) Q := by
  rintro b ⟨s, s', h⟩
  obtain ⟨a, s₁, hpa, hfb⟩ := bind_eq_some.mp h
  exact hf a (hp a ⟨s, s₁, hpa⟩) b ⟨s₁, s', hfb⟩

/-- A result of a sequence comes from a result of its first part. -/
theorem outcome_bind {p : Prog ε σ α} {f : α → Prog ε σ β} {b : β}
    (h : Outcome env (p >>= f) b) : ∃ a, Outcome env p a ∧ Outcome env (f a) b := by
  obtain ⟨s, s', h⟩ := h
  obtain ⟨a, s₁, hp, hf⟩ := bind_eq_some.mp h
  exact ⟨a, ⟨s, s₁, hp⟩, s₁, s', hf⟩

/-- What a program yields, it returns where it is defined. -/
theorem Returns.and_yields {p : Prog ε σ α} {P Q : α → Prop} (hp : Returns env p P)
    (hq : Yields env p Q) : Returns env p fun a => P a ∧ Q a := by
  intro s
  obtain ⟨a, s', hpa, ha⟩ := hp s
  exact ⟨a, s', hpa, ha, hq a ⟨s, s', hpa⟩⟩

@[simp] theorem outcome_pure [Nonempty σ] {a b : α} :
    Outcome env (pure a : Prog ε σ α) b ↔ b = a := by
  constructor
  · rintro ⟨s, s', h⟩
    exact (Prod.mk.inj (Option.some.inj h)).1.symm
  · rintro rfl
    obtain ⟨s⟩ := ‹Nonempty σ›
    exact ⟨s, s, rfl⟩

/-! ### Constants -/

/-- The program neither reads its environment nor moves its state. -/
def Constant (p : Prog ε σ α) : Prop := ∃ o : Option α, p = ofOption o

theorem constant_pure (a : α) : Constant (pure a : Prog ε σ α) := ⟨some a, rfl⟩

theorem constant_undefined : Constant (undefined : Prog ε σ α) := ⟨none, rfl⟩

theorem constant_ofOption (o : Option α) : Constant (ofOption o : Prog ε σ α) := ⟨o, rfl⟩

theorem Constant.bind {p : Prog ε σ α} {f : α → Prog ε σ β} (hp : Constant p)
    (hf : ∀ a, Constant (f a)) : Constant (p >>= f) := by
  obtain ⟨o, rfl⟩ := hp
  cases o with
  | none => exact constant_undefined
  | some a =>
    show Constant (pure a >>= f)
    rw [pure_bind]
    exact hf a

theorem Constant.foldlM {f : β → α → Prog ε σ β} (hf : ∀ b a, Constant (f b a)) (xs : List α)
    (b : β) : Constant (xs.foldlM f b) := by
  induction xs generalizing b with
  | nil => exact constant_pure b
  | cons x xs ih =>
    rw [List.foldlM_cons]
    exact (hf b x).bind ih

/-- The value of a constant is the same in every environment and every state. -/
theorem Constant.value_eq {p : Prog ε σ α} (hp : Constant p) (env env' : ε) (s s' : σ) :
    (p env s).map Prod.fst = (p env' s').map Prod.fst := by
  obtain ⟨o, rfl⟩ := hp
  cases o <;> rfl

/-- A constant that has an outcome returns it. -/
theorem Constant.returns {p : Prog ε σ α} (hp : Constant p) {a : α} (ha : Outcome env p a) :
    Returns env p fun b => b = a := by
  obtain ⟨o, rfl⟩ := hp
  obtain ⟨s, s', h⟩ := ha
  cases o with
  | none => cases h
  | some b =>
    obtain ⟨rfl, -⟩ := Prod.mk.inj (Option.some.inj h)
    exact returns_pure rfl

end Prog

end IotDeviceSdk
