import IotDeviceSdk.Prog.Basic

/-!
# Loops over a list with early exit

`forEach body xs b` runs `body` over the items of `xs` with an accumulator.  The body answers
`.yield` to go on with the next item and `.done` to leave the loop (a `break`, or a `return` of
the enclosing function); the loop answers `.done` exactly when it was left.

`Returns.forEach` and `Yields.forEach` are the invariant rules: an invariant for going on, a
postcondition for leaving.
-/

namespace IotDeviceSdk.Prog

variable {ε σ α β : Type} {env : ε}

/-- Run `body` over the items of a list until it answers `.done`. -/
def forEach (body : α → β → Prog ε σ (ForInStep β)) :
    List α → β → Prog ε σ (ForInStep β)
  | [], b => pure (.yield b)
  | x :: xs, b => do
    match ← body x b with
    | .done b => pure (.done b)
    | .yield b => forEach body xs b

/-- What a step says about the accumulator: `I` when the loop goes on, `J` when it is left. -/
def OnStep (I J : β → Prop) : ForInStep β → Prop
  | .yield b => I b
  | .done b => J b

@[simp] theorem onStep_yield {I J : β → Prop} {b : β} : OnStep I J (.yield b) ↔ I b := Iff.rfl

@[simp] theorem onStep_done {I J : β → Prop} {b : β} : OnStep I J (.done b) ↔ J b := Iff.rfl

/-- The accumulator of a step, however the loop goes on. -/
def stepValue : ForInStep β → β
  | .yield b => b
  | .done b => b

@[simp] theorem stepValue_yield (b : β) : stepValue (.yield b) = b := rfl

@[simp] theorem stepValue_done (b : β) : stepValue (.done b) = b := rfl

/-- Whether a loop goes on after a step. -/
def goesOn : ForInStep β → Bool
  | .yield _ => true
  | .done _ => false

@[simp] theorem goesOn_yield (b : β) : goesOn (.yield b) = true := rfl

@[simp] theorem goesOn_done (b : β) : goesOn (.done b) = false := rfl

/-- **Invariant rule, total correctness.** -/
theorem Returns.forEach {body : α → β → Prog ε σ (ForInStep β)} {I J : β → Prop}
    {xs : List α} {b : β} (hb : I b)
    (hbody : ∀ x ∈ xs, ∀ b, I b → Returns env (body x b) (OnStep I J)) :
    Returns env (forEach body xs b) (OnStep I J) := by
  induction xs generalizing b with
  | nil => exact returns_pure hb
  | cons x xs ih =>
    refine (hbody x (by simp) b hb).bind fun r hr => ?_
    cases r with
    | done b' => exact returns_pure hr
    | yield b' => exact ih hr fun y hy => hbody y (by simp [hy])

/-- When each step goes on exactly on the accepted items (under an assumption `A`), the loop runs to
its end exactly when all items are accepted. -/
theorem Returns.forEach_all {body : α → β → Prog ε σ (ForInStep β)} {I J : β → Prop} {A : Prop}
    {accepted : α → Bool} {xs : List α} {b : β} (hb : I b)
    (hbody : ∀ x ∈ xs, ∀ b, I b →
      Returns env (body x b) fun r => OnStep I J r ∧ (A → goesOn r = accepted x)) :
    Returns env (Prog.forEach body xs b) fun r =>
      OnStep I J r ∧ (A → goesOn r = xs.all accepted) := by
  induction xs generalizing b with
  | nil => exact returns_pure ⟨hb, fun _ => rfl⟩
  | cons x xs ih =>
    refine (hbody x (by simp) b hb).bind fun r hr => ?_
    obtain ⟨hstep, hacc⟩ := hr
    cases r with
    | done b' =>
      -- the item was not accepted, so the rest does not matter
      refine returns_pure ⟨hstep, fun hA => ?_⟩
      rw [List.all_cons, ← hacc hA]
      rfl
    | yield b' =>
      refine (ih hstep fun y hy => hbody y (by simp [hy])).mono fun r hr => ⟨hr.1, fun hA => ?_⟩
      rw [List.all_cons, ← hacc hA, hr.2 hA]
      rfl

/-- **Invariant rule, partial correctness.** -/
theorem Yields.forEach {body : α → β → Prog ε σ (ForInStep β)} {I J : β → Prop}
    {xs : List α} {b : β} (hb : I b)
    (hbody : ∀ x ∈ xs, ∀ b, I b → Yields env (body x b) (OnStep I J)) :
    Yields env (forEach body xs b) (OnStep I J) := by
  induction xs generalizing b with
  | nil => exact yields_pure hb
  | cons x xs ih =>
    refine (hbody x (by simp) b hb).bind fun r hr => ?_
    cases r with
    | done b' => exact yields_pure hr
    | yield b' => exact ih hr fun y hy => hbody y (by simp [hy])

/-! Loops and the items gone through so far. -/

section Split

variable {body : α → β → Prog ε σ (ForInStep β)} {I : List α → β → Prop} {J : β → Prop}
  {xs : List α} {b : β}

/-- Invariant rule, total correctness, with the items before and after the one of a step. -/
theorem Returns.forEach_split (hb : I [] b)
    (hbody : ∀ seen x rest, xs = seen ++ x :: rest → ∀ b, I seen b →
      Returns env (body x b) (OnStep (I (seen ++ [x])) J)) :
    Returns env (Prog.forEach body xs b) (OnStep (I xs) J) := by
  -- the induction is on the items that are left
  have hfrom : ∀ (rest seen : List α) (b : β), xs = seen ++ rest → I seen b →
      Returns env (Prog.forEach body rest b) (OnStep (I xs) J) := by
    intro rest
    induction rest with
    | nil =>
      intro seen b hsplit hb
      rw [hsplit, List.append_nil]
      exact returns_pure hb
    | cons x rest ih =>
      intro seen b hsplit hb
      refine (hbody seen x rest hsplit b hb).bind fun r hr => ?_
      cases r with
      | done b' => exact returns_pure hr
      | yield b' => exact ih (seen ++ [x]) b' (by rw [hsplit, List.append_cons]) hr
  exact hfrom xs [] b rfl hb

/-- Invariant rule, partial correctness, with the items before and after the one of a step. -/
theorem Yields.forEach_split (hb : I [] b)
    (hbody : ∀ seen x rest, xs = seen ++ x :: rest → ∀ b, I seen b →
      Yields env (body x b) (OnStep (I (seen ++ [x])) J)) :
    Yields env (Prog.forEach body xs b) (OnStep (I xs) J) := by
  have hfrom : ∀ (rest seen : List α) (b : β), xs = seen ++ rest → I seen b →
      Yields env (Prog.forEach body rest b) (OnStep (I xs) J) := by
    intro rest
    induction rest with
    | nil =>
      intro seen b hsplit hb
      rw [hsplit, List.append_nil]
      exact yields_pure hb
    | cons x rest ih =>
      intro seen b hsplit hb
      refine (hbody seen x rest hsplit b hb).bind fun r hr => ?_
      cases r with
      | done b' => exact yields_pure hr
      | yield b' => exact ih (seen ++ [x]) b' (by rw [hsplit, List.append_cons]) hr
  exact hfrom xs [] b rfl hb

/-- Invariant rule, partial correctness, with the items gone through so far. -/
theorem Yields.forEach_seen (hb : I [] b)
    (hbody : ∀ seen, ∀ x ∈ xs, ∀ b, I seen b →
      Yields env (body x b) (OnStep (I (seen ++ [x])) J)) :
    Yields env (Prog.forEach body xs b) (OnStep (I xs) J) := by
  refine Yields.forEach_split hb fun seen x rest hsplit => hbody seen x ?_
  rw [hsplit]
  exact List.mem_append_right _ (List.mem_cons_self ..)

end Split

/-- Invariant rule for a fold that is never left. -/
theorem Returns.foldlM {f : β → α → Prog ε σ β} {I : β → Prop} {xs : List α} {b : β}
    (hb : I b) (hf : ∀ x ∈ xs, ∀ b, I b → Returns env (f b x) I) :
    Returns env (xs.foldlM f b) I := by
  induction xs generalizing b with
  | nil => exact returns_pure hb
  | cons x xs ih =>
    rw [List.foldlM_cons]
    exact (hf x (by simp) b hb).bind fun b' hb' => ih hb' fun y hy => hf y (by simp [hy])

theorem Yields.foldlM {f : β → α → Prog ε σ β} {I : β → Prop} {xs : List α} {b : β}
    (hb : I b) (hf : ∀ x ∈ xs, ∀ b, I b → Yields env (f b x) I) :
    Yields env (xs.foldlM f b) I := by
  induction xs generalizing b with
  | nil => exact yields_pure hb
  | cons x xs ih =>
    rw [List.foldlM_cons]
    exact (hf x (by simp) b hb).bind fun b' hb' => ih hb' fun y hy => hf y (by simp [hy])

/-- A fold of steps that compute `g` on the values with the invariant computes the fold of `g`. -/
theorem Returns.foldlM_eq {f : β → α → Prog ε σ β} {g : β → α → β} {I : β → Prop} {xs : List α}
    {b : β} (hb : I b)
    (hf : ∀ x ∈ xs, ∀ b, I b → I (g b x) ∧ Returns env (f b x) fun b' => b' = g b x) :
    Returns env (xs.foldlM f b) fun b' => b' = xs.foldl g b := by
  induction xs generalizing b with
  | nil => exact returns_pure rfl
  | cons x xs ih =>
    rw [List.foldlM_cons, List.foldl_cons]
    obtain ⟨hnext, hstep⟩ := hf x (by simp) b hb
    refine hstep.bind fun b' hb' => ?_
    subst hb'
    exact ih hnext fun y hy => hf y (by simp [hy])

/-- A fold of steps that compute `g` under an assumption `A` computes the fold of `g` under it. -/
theorem Returns.foldlM_when {f : β → α → Prog ε σ β} {g : β → α → β} {I : β → Prop} {A : Prop}
    {xs : List α} {b : β} (hb : I b)
    (hf : ∀ x ∈ xs, ∀ b, I b → Returns env (f b x) fun b' => I b' ∧ (A → b' = g b x)) :
    Returns env (xs.foldlM f b) fun b' => I b' ∧ (A → b' = xs.foldl g b) := by
  induction xs generalizing b with
  | nil => exact returns_pure ⟨hb, fun _ => rfl⟩
  | cons x xs ih =>
    rw [List.foldlM_cons]
    refine (hf x (by simp) b hb).bind fun b' hb' => ?_
    obtain ⟨hnext, hstep⟩ := hb'
    refine (ih hnext fun y hy => hf y (by simp [hy])).mono fun r hr => ⟨hr.1, fun hA => ?_⟩
    rw [hr.2 hA, hstep hA, List.foldl_cons]

theorem Yields.foldlM_eq {f : β → α → Prog ε σ β} {g : β → α → β} {I : β → Prop} {xs : List α}
    {b : β} (hb : I b)
    (hf : ∀ x ∈ xs, ∀ b, I b → I (g b x) ∧ Yields env (f b x) fun b' => b' = g b x) :
    Yields env (xs.foldlM f b) fun b' => b' = xs.foldl g b := by
  induction xs generalizing b with
  | nil => exact yields_pure rfl
  | cons x xs ih =>
    rw [List.foldlM_cons, List.foldl_cons]
    obtain ⟨hnext, hstep⟩ := hf x (by simp) b hb
    refine hstep.bind fun b' hb' => ?_
    subst hb'
    exact ih hnext fun y hy => hf y (by simp [hy])

/-- The results of a program run on each item are results on the items. -/
theorem outcome_mapM [Nonempty σ] {f : α → Prog ε σ β} {xs : List α} {ys : List β}
    (h : Outcome env (xs.mapM f) ys) : List.Forall₂ (fun x y => Outcome env (f x) y) xs ys := by
  induction xs generalizing ys with
  | nil =>
    rw [List.mapM_nil, outcome_pure] at h
    rw [h]
    exact List.Forall₂.nil
  | cons x xs ih =>
    rw [List.mapM_cons] at h
    obtain ⟨y, hy, h⟩ := outcome_bind h
    obtain ⟨ys', hys', h⟩ := outcome_bind h
    rw [outcome_pure] at h
    rw [h]
    exact List.Forall₂.cons hy (ih hys')

end IotDeviceSdk.Prog
