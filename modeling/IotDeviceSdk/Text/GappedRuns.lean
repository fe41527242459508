import Mathlib.Data.List.TakeWhile

/-!
# Runs of characters with gaps between them

A text in which runs of one kind of characters follow gaps of another kind; only the first gap may
be empty.

* `GappedRuns.cut_gap`, `GappedRuns.cut_run`: a reader that skips the gap and takes the run finds
  the first run.
* `GappedRuns.unique`: a text is cut into runs and gaps in one way only.
-/

namespace IotDeviceSdk.Text

variable {α : Type} {isGap isRun : α → Bool}

/-! ### The characters a text starts with -/

theorem dropWhile_run {p : α → Bool} {run after : List α} (hrun : ∀ c ∈ run, p c = true)
    (hafter : ∀ c ∈ after.head?, p c = false) : (run ++ after).dropWhile p = after := by
  rw [List.dropWhile_append_of_pos hrun]
  cases after with
  | nil => rfl
  | cons c after => exact List.dropWhile_cons_of_neg (by simp [hafter c rfl])

theorem takeWhile_run {p : α → Bool} {run after : List α} (hrun : ∀ c ∈ run, p c = true)
    (hafter : ∀ c ∈ after.head?, p c = false) : (run ++ after).takeWhile p = run := by
  have hsplit := List.takeWhile_append_dropWhile (p := p) (l := run ++ after)
  rw [dropWhile_run hrun hafter] at hsplit
  exact List.append_cancel_right hsplit

/-! ### Lists of runs -/

/-- A run of characters with the gap before it. -/
structure GappedRun (α : Type) where
  gap : List α
  run : List α

/-- The text of a list of runs with their gaps. -/
def runsText (rs : List (GappedRun α)) : List α := rs.flatMap fun r => r.gap ++ r.run

theorem runsText_cons (r : GappedRun α) (rs : List (GappedRun α)) :
    runsText (r :: rs) = r.gap ++ (r.run ++ runsText rs) := by
  rw [runsText, List.flatMap_cons, List.append_assoc]
  rfl

/-- Runs of characters separated by gaps. -/
structure GappedRuns (isGap isRun : α → Bool) (rs : List (GappedRun α)) : Prop where
  gaps : ∀ r ∈ rs, ∀ c ∈ r.gap, isGap c = true
  runs : ∀ r ∈ rs, ∀ c ∈ r.run, isRun c = true
  nonempty : ∀ r ∈ rs, r.run ≠ []
  separated : ∀ r ∈ rs.tail, r.gap ≠ []

namespace GappedRuns

variable {r : GappedRun α} {rs : List (GappedRun α)}

theorem nil : GappedRuns isGap isRun ([] : List (GappedRun α)) :=
  ⟨by simp, by simp, by simp, by simp⟩

theorem tail (h : GappedRuns isGap isRun (r :: rs)) : GappedRuns isGap isRun rs :=
  ⟨fun q hg => h.gaps q (by simp [hg]), fun q hg => h.runs q (by simp [hg]),
    fun q hg => h.nonempty q (by simp [hg]), fun q hg => h.separated q (List.mem_of_mem_tail hg)⟩

/-- The first character of a run. -/
theorem run_eq_cons (h : GappedRuns isGap isRun (r :: rs)) :
    ∃ c rest, r.run = c :: rest ∧ isRun c = true := by
  obtain ⟨c, rest, hrun⟩ := List.exists_cons_of_ne_nil (h.nonempty r (by simp))
  exact ⟨c, rest, hrun, h.runs r (by simp) c (by simp [hrun])⟩

/-- A run is followed by a gap. -/
theorem ended (hdisjoint : ∀ c, isGap c = true → isRun c = false)
    (h : GappedRuns isGap isRun (r :: rs)) : ∀ c ∈ (runsText rs).head?, isRun c = false := by
  intro c hc
  cases rs with
  | nil => cases hc
  | cons q rs =>
    obtain ⟨d, gap, hgap⟩ := List.exists_cons_of_ne_nil (h.separated q (by simp))
    rw [runsText_cons, hgap] at hc
    obtain rfl := Option.some.inj hc
    exact hdisjoint _ (h.gaps q (by simp) _ (by simp [hgap]))

/-- A run is put in front of a text that does not go on with it. -/
theorem cons (h : GappedRuns isGap isRun rs) (hgap : ∀ c ∈ r.gap, isGap c = true)
    (hrun : ∀ c ∈ r.run, isRun c = true) (hne : r.run ≠ [])
    (hended : ∀ c ∈ (runsText rs).head?, isRun c = false) :
    GappedRuns isGap isRun (r :: rs) := by
  refine ⟨?_, ?_, ?_, ?_⟩
  · intro q hg
    rcases List.mem_cons.mp hg with rfl | hg
    · exact hgap
    · exact h.gaps q hg
  · intro q hg
    rcases List.mem_cons.mp hg with rfl | hg
    · exact hrun
    · exact h.runs q hg
  · intro q hg
    rcases List.mem_cons.mp hg with rfl | hg
    · exact hne
    · exact h.nonempty q hg
  · -- without a gap the next run would go on with the run
    intro q hg hempty
    cases rs with
    | nil => cases hg
    | cons q' rs =>
      rcases List.mem_cons.mp hg with rfl | hg
      · obtain ⟨c, rest, hcons, hc⟩ := h.run_eq_cons
        have hfalse := hended c (by rw [runsText_cons, hempty, hcons]; rfl)
        rw [hc] at hfalse
        cases hfalse
      · exact h.separated q hg hempty

/-- **Skipping the gap** of a list. -/
theorem cut_gap (hdisjoint : ∀ c, isGap c = true → isRun c = false)
    (h : GappedRuns isGap isRun (r :: rs)) :
    (runsText (r :: rs)).dropWhile isGap = r.run ++ runsText rs ∧
      (runsText (r :: rs)).takeWhile isGap = r.gap := by
  obtain ⟨c, rest, hrun, hc⟩ := h.run_eq_cons
  have hstart : ∀ d ∈ (r.run ++ runsText rs).head?, isGap d = false := by
    intro d hd
    rw [hrun] at hd
    obtain rfl := Option.some.inj hd
    by_contra hgap
    rw [hdisjoint _ (by simpa using hgap)] at hc
    cases hc
  have hgap := h.gaps r (by simp)
  rw [runsText_cons]
  exact ⟨dropWhile_run hgap hstart, takeWhile_run hgap hstart⟩

/-- **Taking the run** at the head. -/
theorem cut_run (hdisjoint : ∀ c, isGap c = true → isRun c = false)
    (h : GappedRuns isGap isRun (r :: rs)) :
    (r.run ++ runsText rs).dropWhile isRun = runsText rs ∧
      (r.run ++ runsText rs).takeWhile isRun = r.run := by
  have hrun := h.runs r (by simp)
  have hended := h.ended hdisjoint
  exact ⟨dropWhile_run hrun hended, takeWhile_run hrun hended⟩

/-- **Unique readability.** -/
theorem unique (hdisjoint : ∀ c, isGap c = true → isRun c = false) {rs' : List (GappedRun α)}
    (h : GappedRuns isGap isRun rs) (h' : GappedRuns isGap isRun rs')
    (heq : runsText rs = runsText rs') : rs = rs' := by
  induction rs generalizing rs' with
  | nil =>
    cases rs' with
    | nil => rfl
    | cons r' rs' =>
      obtain ⟨c, rest, hrun, -⟩ := h'.run_eq_cons
      rw [runsText_cons, hrun] at heq
      exact absurd heq.symm (by simp [runsText])
  | cons r rs ih =>
    cases rs' with
    | nil =>
      obtain ⟨c, rest, hrun, -⟩ := h.run_eq_cons
      rw [runsText_cons, hrun] at heq
      exact absurd heq (by simp [runsText])
    | cons r' rs' =>
      obtain ⟨hdrop, hgap⟩ := h.cut_gap hdisjoint
      obtain ⟨hdrop', hgap'⟩ := h'.cut_gap hdisjoint
      rw [heq] at hdrop hgap
      have hafter := hdrop.symm.trans hdrop'
      obtain ⟨hrest, hrun⟩ := h.cut_run hdisjoint
      obtain ⟨hrest', hrun'⟩ := h'.cut_run hdisjoint
      rw [hafter] at hrest hrun
      have hf : r = r' := by
        cases r
        cases r'
        exact congrArg₂ GappedRun.mk (hgap.symm.trans hgap') (hrun.symm.trans hrun')
      rw [hf, ih h.tail h'.tail (hrest.symm.trans hrest')]

end GappedRuns

end IotDeviceSdk.Text
