import Mathlib.Data.List.Basic
import Mathlib.Data.List.Infix

/-!
# Searching a text

`findFirst pat text` is the part of the text from the first occurrence of a pattern on.

* `findFirst_isSome`: there is one exactly when the pattern is an infix of the text.
* `findFirst_occursAt`: it is at the least index at which the pattern stands (`OccursAt`).
* `findFirst_append_right`: it stays the first occurrence when the text goes on.
* `findFirst_append`: a part without the first character of the pattern is passed over.
* `findFirst_singleton`: the search for one character.

The other lemmas are about texts that are cut into segments at a separator: a pattern that starts
with the separator is met at the separators only (`infix_append_of_not_mem`,
`segment_prefix_iff`), and one that ends with it in the segments only (`findFirst_segment`).
-/

namespace IotDeviceSdk.Text

variable {α : Type}

/-! ### Separators -/

/-- Two texts are cut alike at the first separator. -/
theorem append_cons_inj {c : α} {w w' v v' : List α} (hw : c ∉ w) (hw' : c ∉ w')
    (h : w ++ c :: v = w' ++ c :: v') : w = w' ∧ v = v' := by
  induction w generalizing w' with
  | nil =>
    cases w' with
    | nil => exact ⟨rfl, (List.cons.inj h).2⟩
    | cons d w' => exact absurd (List.cons.inj h).1 fun hd => hw' (by simp [hd])
  | cons d w ih =>
    cases w' with
    | nil => exact absurd (List.cons.inj h).1 fun hd => hw (by simp [hd])
    | cons d' w' =>
      obtain ⟨rfl, htail⟩ := List.cons.inj h
      obtain ⟨rfl, rfl⟩ := ih (fun hc => hw (by simp [hc])) (fun hc => hw' (by simp [hc])) htail
      exact ⟨rfl, rfl⟩

/-- A pattern whose first character is not in a part of the text does not start there. -/
theorem infix_append_of_not_mem {c : α} {pat before text : List α} (hc : c ∉ before) :
    c :: pat <:+: before ++ text ↔ c :: pat <:+: text := by
  induction before with
  | nil => rfl
  | cons d before ih =>
    have hd : ¬c :: pat <+: d :: (before ++ text) := by
      intro h
      exact hc (by simp [(List.cons_prefix_cons.mp h).1])
    rw [List.cons_append, List.infix_cons_iff, or_iff_right hd]
    exact ih fun h => hc (by simp [h])

/-- A segment of a pattern and its separator against a segment of a text. -/
theorem segment_prefix_iff {c : α} {seg seg' pat text : List α} (hseg : c ∉ seg)
    (hseg' : c ∉ seg') :
    seg ++ c :: pat <+: seg' ++ c :: text ↔ seg = seg' ∧ pat <+: text := by
  constructor
  · rintro ⟨rest, h⟩
    rw [List.append_assoc, List.cons_append] at h
    obtain ⟨rfl, rfl⟩ := append_cons_inj hseg hseg' h
    exact ⟨rfl, List.prefix_append _ _⟩
  · rintro ⟨rfl, rest, rfl⟩
    exact ⟨rest, by simp⟩

/-- A pattern of two segments against a text that starts with a segment. -/
theorem segment_infix_iff {c : α} {seg seg' pat text : List α} (hseg : c ∉ seg)
    (hseg' : c ∉ seg') :
    c :: (seg ++ c :: pat) <:+: c :: (seg' ++ c :: text) ↔
      (seg = seg' ∧ pat <+: text) ∨ c :: (seg ++ c :: pat) <:+: c :: text := by
  rw [List.infix_cons_iff, List.cons_prefix_cons, segment_prefix_iff hseg hseg',
    infix_append_of_not_mem hseg', eq_self, true_and]

/-! ### The first occurrence -/

/-- The pattern stands in the text at an index. -/
def OccursAt (pat text : List α) (i : ℕ) : Prop :=
  ∃ before rest, text = before ++ rest ∧ before.length = i ∧ pat <+: rest

variable [DecidableEq α]

/-- The text from the first occurrence of the pattern on. -/
def findFirst (pat : List α) : List α → Option (List α)
  | [] => if pat.isPrefixOf [] then some [] else none
  | c :: text => if pat.isPrefixOf (c :: text) then some (c :: text) else findFirst pat text

variable {pat text before rest : List α} {c : α}

theorem findFirst_of_start (h : pat <+: text) : findFirst pat text = some text := by
  have hstart : pat.isPrefixOf text = true := List.isPrefixOf_iff_prefix.mpr h
  cases text with
  | nil => exact if_pos hstart
  | cons c text => exact if_pos hstart

theorem findFirst_cons_of_not_start (h : ¬pat <+: c :: text) :
    findFirst pat (c :: text) = findFirst pat text :=
  if_neg fun hstart => h (List.isPrefixOf_iff_prefix.mp hstart)

/-- **The first occurrence**, by the recursion of the search. -/
theorem findFirst_eq_some_iff :
    findFirst pat text = some rest ↔
      ∃ before, text = before ++ rest ∧ pat <+: rest ∧
        ∀ before' rest', text = before' ++ rest' → pat <+: rest' →
          before.length ≤ before'.length := by
  induction text with
  | nil =>
    unfold findFirst
    constructor
    · intro h
      obtain ⟨hstart, heq⟩ := Option.ite_none_right_eq_some.mp h
      obtain rfl := Option.some.inj heq
      exact ⟨[], rfl, List.isPrefixOf_iff_prefix.mp hstart, by simp⟩
    · rintro ⟨before, hsplit, hstart, -⟩
      obtain ⟨-, rfl⟩ := List.append_eq_nil_iff.mp hsplit.symm
      rw [if_pos (List.isPrefixOf_iff_prefix.mpr hstart)]
  | cons c text ih =>
    by_cases hhere : pat <+: c :: text
    · rw [findFirst_of_start hhere]
      constructor
      · intro h
        obtain rfl := Option.some.inj h
        exact ⟨[], rfl, hhere, by simp⟩
      · rintro ⟨before, hsplit, -, hfirst⟩
        have hlength := hfirst [] _ rfl hhere
        obtain rfl := List.length_eq_zero_iff.mp (Nat.le_zero.mp hlength)
        rw [hsplit]
        rfl
    · rw [findFirst_cons_of_not_start hhere, ih]
      constructor
      · rintro ⟨before, rfl, hstart, hfirst⟩
        refine ⟨c :: before, rfl, hstart, fun before' rest' hsplit hstart' => ?_⟩
        cases before' with
        | nil =>
          -- the pattern does not occur at the start
          rw [List.nil_append] at hsplit
          rw [← hsplit] at hstart'
          exact absurd hstart' hhere
        | cons d before' =>
          have := hfirst before' rest' (List.cons.inj hsplit).2 hstart'
          simpa using this
      · rintro ⟨before, hsplit, hstart, hfirst⟩
        cases before with
        | nil =>
          rw [List.nil_append] at hsplit
          rw [← hsplit] at hstart
          exact absurd hstart hhere
        | cons d before =>
          obtain ⟨rfl, rfl⟩ := List.cons.inj hsplit
          refine ⟨before, rfl, hstart, fun before' rest' hsplit' hstart' => ?_⟩
          have := hfirst (c :: before') rest' (by rw [hsplit']; rfl) hstart'
          simpa using this

/-- The first occurrence depends on the text up to its end. -/
theorem findFirst_of_same_start {after after' : List α}
    (h : findFirst pat (before ++ (pat ++ after)) = some (pat ++ after)) :
    findFirst pat (before ++ (pat ++ after')) = some (pat ++ after') := by
  obtain ⟨before₀, hbefore₀, -, hfirst⟩ := findFirst_eq_some_iff.mp h
  obtain rfl := List.append_cancel_right hbefore₀
  refine findFirst_eq_some_iff.mpr ⟨before, rfl, List.prefix_append _ _, ?_⟩
  intro before' rest' hsplit hstart
  by_contra hlt
  -- an earlier occurrence ends before the first one does
  have hbefore : before' <+: before :=
    List.prefix_of_prefix_length_le ⟨_, hsplit.symm⟩ (List.prefix_append _ _) (by omega)
  obtain ⟨gap, rfl⟩ := hbefore
  rw [List.append_assoc] at hsplit
  obtain rfl := List.append_cancel_left hsplit
  rw [← List.append_assoc] at hstart
  have hinside : pat <+: gap ++ pat :=
    List.prefix_of_prefix_length_le hstart (List.prefix_append _ _) (by simp)
  have hle := hfirst before' (gap ++ (pat ++ after)) (by simp)
    (by rw [← List.append_assoc]; exact hinside.trans (List.prefix_append _ _))
  omega

theorem findFirst_append_right {more : List α} (h : findFirst pat text = some rest) :
    findFirst pat (text ++ more) = some (rest ++ more) := by
  obtain ⟨before, rfl, ⟨after, rfl⟩, -⟩ := findFirst_eq_some_iff.mp h
  rw [List.append_assoc, List.append_assoc]
  exact findFirst_of_same_start h

theorem findFirst_isSome : (findFirst pat text).isSome = true ↔ pat <:+: text := by
  induction text with
  | nil =>
    unfold findFirst
    split
    · rename_i hstart
      exact iff_of_true rfl (List.isPrefixOf_iff_prefix.mp hstart).isInfix
    · rename_i hstart
      refine iff_of_false (by simp) fun hinfix => hstart ?_
      rw [List.eq_nil_of_infix_nil hinfix]
      rfl
  | cons c text ih =>
    rw [List.infix_cons_iff]
    by_cases hhere : pat <+: c :: text
    · rw [findFirst_of_start hhere]
      exact iff_of_true rfl (Or.inl hhere)
    · rw [findFirst_cons_of_not_start hhere, ih, or_iff_right hhere]

theorem findFirst_eq_none : findFirst pat text = none ↔ ¬pat <:+: text := by
  rw [← findFirst_isSome, Bool.not_eq_true, Option.isSome_eq_false_iff, Option.isNone_iff_eq_none]

/-- No index before the first occurrence is one. -/
theorem findFirst_occursAt (h : findFirst pat text = some rest) :
    OccursAt pat text (text.length - rest.length) ∧
      ∀ j < text.length - rest.length, ¬OccursAt pat text j := by
  obtain ⟨before, rfl, hstart, hfirst⟩ := findFirst_eq_some_iff.mp h
  rw [List.length_append, Nat.add_sub_cancel]
  refine ⟨⟨before, rest, rfl, rfl, hstart⟩, ?_⟩
  rintro j hj ⟨before', rest', hsplit, rfl, hstart'⟩
  have hle := hfirst before' rest' hsplit hstart'
  omega

theorem not_occursAt_of_findFirst (h : findFirst pat text = none) (i : ℕ) :
    ¬OccursAt pat text i := by
  rintro ⟨before, rest, rfl, -, hstart⟩
  exact findFirst_eq_none.mp h (hstart.isInfix.trans (List.suffix_append _ _).isInfix)

/-- A part without the first character of the pattern is passed over. -/
theorem findFirst_append (hc : c ∉ before) :
    findFirst (c :: pat) (before ++ text) = findFirst (c :: pat) text := by
  induction before with
  | nil => rfl
  | cons d before ih =>
    have hd : ¬c :: pat <+: d :: (before ++ text) := by
      intro h
      exact hc (by simp [(List.cons_prefix_cons.mp h).1])
    rw [List.cons_append, findFirst_cons_of_not_start hd]
    exact ih fun h => hc (by simp [h])

/-- A segment between two separators is met first at an equal segment. -/
theorem findFirst_separated {seg seg' : List α} (hseg : c ∉ seg) (hseg' : c ∉ seg') :
    findFirst (c :: (seg ++ [c])) (c :: (seg' ++ c :: text)) =
      if seg = seg' then some (c :: (seg' ++ c :: text))
      else findFirst (c :: (seg ++ [c])) (c :: text) := by
  have hsplit := @segment_prefix_iff α c seg seg' [] text hseg hseg'
  split
  · rename_i heq
    have hstart := hsplit.mpr ⟨heq, List.nil_prefix⟩
    exact findFirst_of_start (List.cons_prefix_cons.mpr ⟨rfl, hstart⟩)
  · rename_i hne
    have hstart : ¬c :: (seg ++ [c]) <+: c :: (seg' ++ c :: text) := by
      rw [List.cons_prefix_cons, hsplit]
      exact fun h => hne h.2.1
    rw [findFirst_cons_of_not_start hstart, findFirst_append hseg']

/-- The search for one character. -/
theorem findFirst_singleton (hc : c ∉ before) :
    findFirst [c] (before ++ c :: rest) = some (c :: rest) := by
  rw [findFirst_append hc]
  exact findFirst_of_start ⟨rest, rfl⟩

/-- A pattern that ends with the separator is met first at the end of a segment, or after it. -/
theorem findFirst_segment {w : List α} (hne : w ≠ []) (hw : c ∉ w) (hbefore : c ∉ before) :
    findFirst (w ++ [c]) (before ++ c :: text) =
      if w <:+ before then some (w ++ c :: text) else findFirst (w ++ [c]) text := by
  induction before with
  | nil =>
    have hstart : ¬w ++ [c] <+: c :: text := by
      obtain ⟨d, w', rfl⟩ := List.exists_cons_of_ne_nil hne
      intro h
      exact hw (by simp [(List.cons_prefix_cons.mp h).1])
    rw [if_neg (fun h => hne (List.suffix_nil.mp h)), List.nil_append,
      findFirst_cons_of_not_start hstart]
  | cons d before ih =>
    have hsplit := @segment_prefix_iff α c w (d :: before) [] text hw hbefore
    have hih := ih fun h => hbefore (by simp [h])
    by_cases heq : w = d :: before
    · rw [findFirst_of_start (hsplit.mpr ⟨heq, List.nil_prefix⟩), heq,
        if_pos (List.suffix_refl _)]
    · have hstart : ¬w ++ [c] <+: d :: (before ++ c :: text) := fun h => heq (hsplit.mp h).1
      rw [List.cons_append, findFirst_cons_of_not_start hstart, hih]
      simp only [List.suffix_cons_iff, heq, false_or]

end IotDeviceSdk.Text
