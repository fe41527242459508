import IotDeviceSdk.Prog.ForEach

/-!
# Programs with one success

A program may end in several ways and depend on its environment in how it fails.  `Settled mk p`
says that its successes, the results `mk d`, are one and the same in every environment.  A sequence
of settled parts is settled when it fails with its first part (`Settled.bind`), and so is a loop
that runs to its end (`settled_forEach`).
-/

namespace IotDeviceSdk.Prog

variable {ε σ α β γ γ' δ δ' : Type}

/-- Whatever the environment, the successes `mk d` of the program are one and the same. -/
def Settled (mk : δ → γ) (p : Prog ε σ γ) : Prop :=
  ∃ v : Option δ, ∀ env, Yields env p fun r => ∀ d, r = mk d → v = some d

theorem settled_pure {mk : δ → γ} (hmk : Function.Injective mk) (r : γ) :
    Settled mk (pure r : Prog ε σ γ) := by
  by_cases h : ∃ d, r = mk d
  · obtain ⟨d, rfl⟩ := h
    exact ⟨some d, fun env => yields_pure fun d' heq => congrArg some (hmk heq)⟩
  · exact ⟨none, fun env => yields_pure fun d heq => absurd ⟨d, heq⟩ h⟩

/-- A sequence that fails when its first part does. -/
theorem Settled.bind {mk : δ → γ} {mk' : δ' → γ'} {p : Prog ε σ γ} {f : γ → Prog ε σ γ'}
    (hp : Settled mk p)
    (hfail : ∀ r, (∀ d, r ≠ mk d) → ∀ env, Yields env (f r) fun r' => ∀ d', r' ≠ mk' d')
    (hok : ∀ d, Settled mk' (f (mk d))) : Settled mk' (p >>= f) := by
  have hno : ∀ (v : Option δ') (r : γ), (∀ d, r ≠ mk d) → ∀ env,
      Yields env (f r) fun r' => ∀ d', r' = mk' d' → v = some d' :=
    fun v r hr env => (hfail r hr env).mono fun r' hr' d' heq => absurd heq (hr' d')
  obtain ⟨v, hv⟩ := hp
  cases v with
  | none =>
    -- the first part never succeeds
    refine ⟨none, fun env => (hv env).bind fun r hr => hno none r (fun d heq => ?_) env⟩
    cases hr d heq
  | some d =>
    obtain ⟨v', hv'⟩ := hok d
    refine ⟨v', fun env => (hv env).bind fun r hr => ?_⟩
    by_cases h : ∃ d', r = mk d'
    · obtain ⟨d', rfl⟩ := h
      obtain rfl : d = d' := Option.some.inj (hr d' rfl)
      exact hv' env
    · exact hno v' r (fun d' heq => h ⟨d', heq⟩) env

/-- Two successes of a settled program are equal. -/
theorem Settled.eq {mk : δ → γ} {p : Prog ε σ γ} (hp : Settled mk p) {env env' : ε} {d d' : δ}
    (hd : Outcome env p (mk d)) (hd' : Outcome env' p (mk d')) : d = d' := by
  obtain ⟨v, hv⟩ := hp
  have h : v = some d := hv env _ hd d rfl
  have h' : v = some d' := hv env' _ hd' d' rfl
  exact Option.some.inj (h.symm.trans h')

/-- A loop that succeeds when it runs to its end. -/
theorem settled_forEach {body : α → δ → Prog ε σ (ForInStep δ)} {xs : List α}
    (hbody : ∀ x ∈ xs, ∀ b, Settled ForInStep.yield (body x b)) (b : δ) :
    Settled ForInStep.yield (Prog.forEach body xs b) := by
  have hyield : Function.Injective (ForInStep.yield : δ → ForInStep δ) :=
    fun _ _ h => ForInStep.yield.inj h
  induction xs generalizing b with
  | nil => exact settled_pure hyield _
  | cons x xs ih =>
    refine Settled.bind (hbody x (by simp) b) (fun r hr env => ?_) fun b' => ?_
    · cases r with
      | done b' => exact yields_pure (by simp)
      | yield b' => exact absurd rfl (hr b')
    · exact ih (fun y hy => hbody y (by simp [hy])) b'

end IotDeviceSdk.Prog
