import IotDeviceSdk.Prog.Basic

/-!
# Weakest liberal preconditions

`Wlp env p Q s` says that `Q` holds of the result and of the state `p` leaves when it is started in
`s`, if it is defined there.  The lemmas of the simp set compute it along a `do` block, so that a
statement about a program becomes one about its primitive steps.
-/

namespace IotDeviceSdk.Prog

variable {ε σ α β : Type} {env : ε} {s : σ} {Q R : α → σ → Prop}

/-- What `p` has to be started in to end in `Q`, unless it is stuck. -/
def Wlp (env : ε) (p : Prog ε σ α) (Q : α → σ → Prop) (s : σ) : Prop :=
  ∀ a s', p env s = some (a, s') → Q a s'

theorem Wlp.mono {p : Prog ε σ α} (h : Wlp env p Q s) (hQR : ∀ a s', Q a s' → R a s') :
    Wlp env p R s :=
  fun a s' hp => hQR a s' (h a s' hp)

/-- What holds of every result and every state. -/
theorem wlp_true {p : Prog ε σ α} (h : ∀ a s', Q a s') : Wlp env p Q s :=
  fun a s' _ => h a s'

theorem Yields.wlp {p : Prog ε σ α} {P : α → Prop} (h : Yields env p P) :
    Wlp env p (fun a _ => P a) s :=
  fun a s' hp => h a ⟨s, s', hp⟩

@[simp] theorem wlp_pure {a : α} : Wlp env (pure a : Prog ε σ α) Q s ↔ Q a s := by
  constructor
  · exact fun h => h a s rfl
  · rintro h b s' hb
    obtain ⟨rfl, rfl⟩ := Prod.mk.inj (Option.some.inj hb)
    exact h

@[simp] theorem wlp_undefined : Wlp env (undefined : Prog ε σ α) Q s :=
  fun _ _ h => nomatch h

@[simp] theorem wlp_bind {p : Prog ε σ α} {f : α → Prog ε σ β} {Q : β → σ → Prop} :
    Wlp env (p >>= f) Q s ↔ Wlp env p (fun a s' => Wlp env (f a) Q s') s := by
  constructor
  · exact fun h a s' hp b s'' hf => h b s'' (bind_eq_some.mpr ⟨a, s', hp, hf⟩)
  · intro h b s'' hpf
    obtain ⟨a, s', hp, hf⟩ := bind_eq_some.mp hpf
    exact h a s' hp b s'' hf

@[simp] theorem wlp_ite {c : Prop} [Decidable c] {p q : Prog ε σ α} :
    Wlp env (if c then p else q) Q s ↔ (c → Wlp env p Q s) ∧ (¬c → Wlp env q Q s) := by
  split
  · rename_i h
    simp only [h, true_implies, not_true_eq_false, false_implies, and_true]
  · rename_i h
    simp only [h, false_implies, not_false_eq_true, true_implies, true_and]

@[simp] theorem wlp_ofOption {o : Option α} :
    Wlp env (ofOption o : Prog ε σ α) Q s ↔ ∀ a, o = some a → Q a s := by
  cases o with
  | none => simp [ofOption]
  | some a => simp [ofOption]

@[simp] theorem wlp_get {Q : σ → σ → Prop} : Wlp env (get : Prog ε σ σ) Q s ↔ Q s s :=
  @wlp_pure ε σ σ env s Q s

@[simp] theorem wlp_read {Q : ε → σ → Prop} : Wlp env (read : Prog ε σ ε) Q s ↔ Q env s :=
  @wlp_pure ε σ ε env s Q env

@[simp] theorem wlp_modify {f : σ → σ} {Q : PUnit → σ → Prop} :
    Wlp env (modify f : Prog ε σ PUnit) Q s ↔ Q ⟨⟩ (f s) := by
  constructor
  · exact fun h => h ⟨⟩ (f s) rfl
  · rintro h a s' hs'
    obtain ⟨rfl, rfl⟩ := Prod.mk.inj (Option.some.inj hs')
    exact h

end IotDeviceSdk.Prog
