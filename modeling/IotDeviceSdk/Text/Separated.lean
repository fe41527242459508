import Mathlib.Data.List.Basic

/-!
# Members between separators

`Separated` reads one or more members off a text, with a separator between two of them and blanks
around each, `Bracketed` a list of them in brackets, which may be empty.  A member is a relation
between the text in front of it, what it stands for and the text behind it.
-/

namespace IotDeviceSdk.Text

variable {α β : Type}

/-- One or more members with blanks around them and separators between them: the text, what the
members stand for, and what is left behind the last one and its blanks. -/
inductive Separated (Blank : α → Prop) (separator : α) (Member : List α → β → List α → Prop) :
    List α → List β → List α → Prop where
  | last {before input after rest : List α} {b : β} : (∀ c ∈ before, Blank c) →
    Member input b (after ++ rest) → (∀ c ∈ after, Blank c) →
    Separated Blank separator Member (before ++ input) [b] rest
  | more {before input after next rest : List α} {b : β} {bs : List β} : (∀ c ∈ before, Blank c) →
    Member input b (after ++ separator :: next) → (∀ c ∈ after, Blank c) →
    Separated Blank separator Member next bs rest →
    Separated Blank separator Member (before ++ input) (b :: bs) rest

/-- Members in brackets, or blanks only. -/
inductive Bracketed (opening closing : α) (Blank : α → Prop) (separator : α)
    (Member : List α → β → List α → Prop) : List α → List β → List α → Prop where
  | empty {ws rest : List α} : (∀ c ∈ ws, Blank c) →
    Bracketed opening closing Blank separator Member (opening :: (ws ++ closing :: rest)) [] rest
  | filled {input rest : List α} {bs : List β} :
    Separated Blank separator Member input bs (closing :: rest) →
    Bracketed opening closing Blank separator Member (opening :: input) bs rest

variable {opening closing : α} {Blank : α → Prop} {separator : α}
  {Member : List α → β → List α → Prop}

/-- Further blanks in front. -/
theorem Separated.prepend {ws input rest : List α} {bs : List β}
    (h : Separated Blank separator Member input bs rest) (hws : ∀ c ∈ ws, Blank c) :
    Separated Blank separator Member (ws ++ input) bs rest := by
  have happend : ∀ before : List α, (∀ c ∈ before, Blank c) → ∀ c ∈ ws ++ before, Blank c := by
    intro before hbefore c hc
    exact (List.mem_append.mp hc).elim (hws c) (hbefore c)
  cases h with
  | last hbefore hmember hafter =>
    rw [← List.append_assoc]
    exact .last (happend _ hbefore) hmember hafter
  | more hbefore hmember hafter hrest =>
    rw [← List.append_assoc]
    exact .more (happend _ hbefore) hmember hafter hrest

/-- The blanks in front, and the first member behind them. -/
theorem Separated.split {input rest : List α} {bs : List β}
    (h : Separated Blank separator Member input bs rest) :
    ∃ before input', input = before ++ input' ∧ (∀ c ∈ before, Blank c) ∧
      Separated Blank separator Member input' bs rest ∧ ∃ b rest', Member input' b rest' := by
  have hnil : ∀ c ∈ ([] : List α), Blank c := by
    intro c hc
    cases hc
  cases h with
  | last hbefore hmember hafter =>
    exact ⟨_, _, rfl, hbefore, .last hnil hmember hafter, _, _, hmember⟩
  | more hbefore hmember hafter hrest =>
    exact ⟨_, _, rfl, hbefore, .more hnil hmember hafter hrest, _, _, hmember⟩

/-- There are no more members than the text is long, when none is empty. -/
theorem Separated.length_le {input rest : List α} {bs : List β}
    (h : Separated Blank separator Member input bs rest)
    (hmember : ∀ input b rest, Member input b rest → rest.length < input.length) :
    bs.length + rest.length ≤ input.length := by
  induction h with
  | last _ hb _ =>
    have hlt := hmember _ _ _ hb
    simp only [List.length_append, List.length_singleton] at hlt ⊢
    omega
  | more _ hb _ _ ih =>
    have hlt := hmember _ _ _ hb
    simp only [List.length_append, List.length_cons] at hlt ⊢
    omega

/-- What holds of each member holds of all. -/
theorem Separated.forall {P : β → Prop} {input rest : List α} {bs : List β}
    (h : Separated Blank separator Member input bs rest)
    (hmember : ∀ input b rest, Member input b rest → P b) : ∀ b ∈ bs, P b := by
  induction h with
  | last _ hb _ =>
    intro b' hb'
    obtain rfl := List.mem_singleton.mp hb'
    exact hmember _ _ _ hb
  | more _ hb _ _ ih =>
    intro b' hb'
    rcases List.mem_cons.mp hb' with rfl | hb'
    · exact hmember _ _ _ hb
    · exact ih b' hb'

theorem Bracketed.forall {P : β → Prop} {input rest : List α} {bs : List β}
    (h : Bracketed opening closing Blank separator Member input bs rest)
    (hmember : ∀ input b rest, Member input b rest → P b) : ∀ b ∈ bs, P b := by
  cases h with
  | empty =>
    intro b hb
    cases hb
  | filled h => exact h.forall hmember

/-- Brackets without members. -/
theorem Bracketed.eq_of_nil {input rest : List α}
    (h : Bracketed opening closing Blank separator Member input [] rest) :
    ∃ ws, (∀ c ∈ ws, Blank c) ∧ input = opening :: (ws ++ closing :: rest) := by
  generalize hbs : ([] : List β) = bs at h
  cases h with
  | empty hws => exact ⟨_, hws, rfl⟩
  | filled h => cases h <;> cases hbs

end IotDeviceSdk.Text
