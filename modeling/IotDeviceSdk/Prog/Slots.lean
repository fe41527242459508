import IotDeviceSdk.Prog.ForEach
import Mathlib.Data.Int.Basic
import Mathlib.Data.List.Basic

/-!
# Arrays with a checked index

A block of memory with a number of slots.  Reading or writing a slot outside the block is undefined.
`forEach_readSlot`: a loop that counts up to a number of slots goes over these slots.
`Returns.forEach_fill`: a loop that writes one slot after the other fills them with its items.
-/

namespace IotDeviceSdk.Prog

variable {ε σ α : Type} {env : ε} {before after : List α} {a : α}

/-- Change the slot at an index. -/
def modifySlot (slots : List α) (i : ℤ) (f : α → α) : Prog ε σ (List α) :=
  if 0 ≤ i ∧ i < slots.length then pure (slots.modify i.toNat f) else undefined

/-- Read the slot at an index. -/
def readSlot (slots : List α) (i : ℤ) : Prog ε σ α :=
  if 0 ≤ i then ofOption slots[i.toNat]? else undefined

theorem modify_append_length (f : α → α) :
    (before ++ after).modify before.length f = before ++ after.modify 0 f := by
  induction before with
  | nil => rfl
  | cons b before ih => exact congrArg (List.cons b) ih

theorem modify_append_cons (f : α → α) :
    (before ++ a :: after).modify before.length f = before ++ f a :: after := by
  rw [modify_append_length, List.modify_zero_cons]

theorem modifySlot_eq {i : ℤ} (hi : i = before.length) (f : α → α) :
    (modifySlot (before ++ a :: after) i f : Prog ε σ (List α)) =
      pure (before ++ f a :: after) := by
  have hinside : 0 ≤ i ∧ i < (before ++ a :: after).length := by
    rw [List.length_append, List.length_cons]
    omega
  have hindex : i.toNat = before.length := by omega
  rw [modifySlot, if_pos hinside, hindex, modify_append_cons]

theorem readSlot_eq {i : ℤ} (hi : i = before.length) :
    (readSlot (before ++ a :: after) i : Prog ε σ α) = pure a := by
  have hindex : i.toNat = before.length := by omega
  rw [readSlot, if_pos (by omega), hindex, List.getElem?_append_right (le_refl _), Nat.sub_self]
  rfl

/-- A slot that could be changed is one of the block. -/
theorem modifySlot_yields (slots : List α) (i : ℤ) (f : α → α) :
    Yields env (modifySlot slots i f : Prog ε σ (List α)) fun slots' =>
      0 ≤ i ∧ i < slots.length ∧ slots' = slots.modify i.toNat f := by
  unfold modifySlot
  split
  · rename_i hinside
    exact yields_pure ⟨hinside.1, hinside.2, rfl⟩
  · exact yields_undefined

theorem readSlot_yields (slots : List α) (i : ℕ) :
    Yields env (readSlot slots i : Prog ε σ α) fun a => slots[i]? = some a := by
  unfold readSlot
  rw [if_pos (Int.natCast_nonneg i), Int.toNat_natCast]
  exact ofOption_yields _

/-- **A loop that counts** and reads the slot at its counter goes over the first slots. -/
theorem forEach_readSlot {β : Type} (body : α → β → Prog ε σ (ForInStep β)) {slots : List α} {n : ℕ}
    (hn : n ≤ slots.length) (b : β) :
    forEach (fun (i : ℕ) b => do
      let a ← readSlot slots i
      body a b) (List.range n) b = forEach body (slots.take n) b := by
  -- the induction is on the slots that are left
  have hfrom : ∀ (rest before : List α) (b : β), slots.take n = before ++ rest →
      forEach (fun (i : ℕ) b => do
        let a ← readSlot slots i
        body a b) (List.range' before.length rest.length) b = forEach body rest b := by
    intro rest
    induction rest with
    | nil => exact fun _ _ _ => rfl
    | cons a rest ih =>
      intro before b hslots
      have hread : (readSlot slots (before.length : ℤ) : Prog ε σ α) = pure a := by
        rw [← List.take_append_drop n slots, hslots, List.append_assoc]
        exact readSlot_eq rfl
      show ((readSlot slots (before.length : ℤ) >>= fun a => body a b) >>= _ : Prog ε σ _) =
        (body a b >>= _)
      rw [hread, pure_bind]
      congr 1
      funext step
      cases step with
      | done b => rfl
      | yield b =>
        have hnext := ih (before ++ [a]) b (by rw [hslots, List.append_assoc]; rfl)
        rw [List.length_append] at hnext
        exact hnext
  have hall := hfrom (slots.take n) [] b rfl
  rw [List.length_take, Nat.min_eq_left hn] at hall
  rw [List.range_eq_range']
  exact hall

/-! ### Filling slots -/

/-- **A loop that fills slots**: each round writes the slot at the index and moves the index on, and
only the round at the last slot may leave the loop.  `D` says what the slots from an index on
hold. -/
theorem Returns.forEach_fill {ι κ : Type}
    {body : ι → List α × ℕ → Prog ε σ (ForInStep (List α × ℕ))}
    {P : ι → κ → Prop} {Q : ℕ → α → Prop} {D : ℕ → List α → List κ → Prop} {capacity : ℕ}
    (hnil : ∀ i, D i [] [])
    (hbody : ∀ {item value} (written : List α) (old : α) (rest : List α), P item value →
      Q written.length old →
        Returns env (body item (written ++ old :: rest, written.length)) fun step =>
          ∃ a, stepValue step = (written ++ a :: rest, written.length + 1) ∧
            (∀ {slots values}, D (written.length + 1) slots values →
              D written.length (a :: slots) (value :: values)) ∧
            (goesOn step = false → capacity ≤ written.length + 1))
    {items : List ι} {values : List κ} (hitems : List.Forall₂ P items values)
    (written rest : List α) (hslots : written.length + rest.length = capacity)
    (hrest : ∀ k old, rest[k]? = some old → Q (written.length + k) old)
    (hroom : values.length ≤ rest.length) :
    Returns env (Prog.forEach body items (written ++ rest, written.length)) fun loop =>
      ∃ stored, stepValue loop =
          (written ++ stored ++ rest.drop values.length, written.length + values.length) ∧
        D written.length stored values := by
  induction hitems generalizing written rest with
  | nil => exact returns_pure ⟨[], by simp, hnil _⟩
  | @cons item value items values hitem _ ih =>
    cases rest with
    | nil => exact absurd hroom (by simp)
    | cons old rest =>
      simp only [List.length_cons] at hslots hroom
      refine (hbody written old rest hitem (hrest 0 old rfl)).bind ?_
      rintro step ⟨a, hstep, ha, hleft⟩
      cases step with
      | done loop =>
        -- the last slot is written, so there is no value left
        have hfull := hleft rfl
        have hnone : values = [] := List.length_eq_zero_iff.mp (by omega)
        subst hnone
        refine returns_pure ⟨[a], ?_, ha (hnil _)⟩
        exact hstep.trans (by simp)
      | yield loop =>
        have hnext : (written ++ [a]).length = written.length + 1 := List.length_append ..
        have hloop : loop = ((written ++ [a]) ++ rest, (written ++ [a]).length) := by
          rw [List.append_assoc, hnext]
          exact hstep
        show Returns env (Prog.forEach body items loop) _
        rw [hloop]
        have hlater : ∀ k old, rest[k]? = some old → Q ((written ++ [a]).length + k) old := by
          intro k later hlater
          rw [hnext, Nat.add_right_comm]
          exact hrest (k + 1) later hlater
        refine (ih (written ++ [a]) rest (by omega) hlater (by omega)).mono ?_
        rintro result ⟨stored, hresult, hstored⟩
        rw [hnext] at hresult hstored
        refine ⟨a :: stored, ?_, ha hstored⟩
        rw [hresult]
        simp
        omega

end IotDeviceSdk.Prog
