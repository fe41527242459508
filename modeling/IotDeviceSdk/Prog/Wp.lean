import IotDeviceSdk.Prog.Wlp

/-!
# Weakest preconditions

`Wp env p Q s` says that `p` is defined when it is started in `s`, and that `Q` holds of its result
and of the state it leaves.  It is the total counterpart of `Wlp`: the simp set computes it along a
`do` block, where every primitive step that can be stuck leaves the condition under which it is not.
-/

namespace IotDeviceSdk.Prog

variable {ε σ α β : Type} {env : ε} {s : σ} {Q R : α → σ → Prop}

/-- What `p` has to be started in to be defined and to end in `Q`. -/
def Wp (env : ε) (p : Prog ε σ α) (Q : α → σ → Prop) (s : σ) : Prop :=
  ∃ a s', p env s = some (a, s') ∧ Q a s'

theorem Wp.mono {p : Prog ε σ α} (h : Wp env p Q s) (hQR : ∀ a s', Q a s' → R a s') :
    Wp env p R s := by
  obtain ⟨a, s', hp, ha⟩ := h
  exact ⟨a, s', hp, hQR a s' ha⟩

/-- What holds of every result holds of the one there is. -/
theorem Wp.wlp {p : Prog ε σ α} (h : Wp env p Q s) : Wlp env p Q s := by
  obtain ⟨a, s', hp, ha⟩ := h
  intro b s'' hb
  rw [hp] at hb
  obtain ⟨rfl, rfl⟩ := Prod.mk.inj (Option.some.inj hb)
  exact ha

@[simp] theorem wp_pure {a : α} : Wp env (pure a : Prog ε σ α) Q s ↔ Q a s := by
  constructor
  · rintro ⟨b, s', hb, h⟩
    obtain ⟨rfl, rfl⟩ := Prod.mk.inj (Option.some.inj hb)
    exact h
  · exact fun h => ⟨a, s, rfl, h⟩

@[simp] theorem wp_undefined : ¬Wp env (undefined : Prog ε σ α) Q s := by
  rintro ⟨a, s', h, -⟩
  cases h

@[simp] theorem wp_bind {p : Prog ε σ α} {f : α → Prog ε σ β} {Q : β → σ → Prop} :
    Wp env (p >>= f) Q s ↔ Wp env p (fun a s' => Wp env (f a) Q s') s := by
  constructor
  · rintro ⟨b, s'', hpf, hb⟩
    obtain ⟨a, s', hp, hf⟩ := bind_eq_some.mp hpf
    exact ⟨a, s', hp, b, s'', hf, hb⟩
  · rintro ⟨a, s', hp, b, s'', hf, hb⟩
    exact ⟨b, s'', bind_eq_some.mpr ⟨a, s', hp, hf⟩, hb⟩

@[simp] theorem wp_ite {c : Prop} [Decidable c] {p q : Prog ε σ α} :
    Wp env (if c then p else q) Q s ↔ (c → Wp env p Q s) ∧ (¬c → Wp env q Q s) := by
  split
  · rename_i h
    simp only [h, true_implies, not_true_eq_false, false_implies, and_true]
  · rename_i h
    simp only [h, false_implies, not_false_eq_true, true_implies, true_and]

@[simp] theorem wp_ofOption {o : Option α} :
    Wp env (ofOption o : Prog ε σ α) Q s ↔ ∃ a, o = some a ∧ Q a s := by
  cases o with
  | none => simp [ofOption]
  | some a => simp [ofOption]

@[simp] theorem wp_get {Q : σ → σ → Prop} : Wp env (get : Prog ε σ σ) Q s ↔ Q s s :=
  @wp_pure ε σ σ env s Q s

@[simp] theorem wp_read {Q : ε → σ → Prop} : Wp env (read : Prog ε σ ε) Q s ↔ Q env s :=
  @wp_pure ε σ ε env s Q env

@[simp] theorem wp_modify {f : σ → σ} {Q : PUnit → σ → Prop} :
    Wp env (modify f : Prog ε σ PUnit) Q s ↔ Q ⟨⟩ (f s) := by
  constructor
  · rintro ⟨a, s', hs', h⟩
    obtain ⟨rfl, rfl⟩ := Prod.mk.inj (Option.some.inj hs')
    exact h
  · exact fun h => ⟨⟨⟩, f s, rfl, h⟩

end IotDeviceSdk.Prog
