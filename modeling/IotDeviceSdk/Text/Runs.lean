import Mathlib.Data.List.TakeWhile

/-!
# The first run of characters of a kind

A reader of numbers passes over a text up to the first digit and takes the digits from there on.
`FirstRun` says how it cuts the text, `FirstRun.eq` that `dropWhile` and `takeWhile` find the run,
and `exists_firstRun` that every text is cut in this way.
-/

namespace IotDeviceSdk.Text

variable {α : Type}

/-- The first run of characters with a property is these, after a gap and before the rest. -/
structure FirstRun (p : α → Bool) (gap run after : List α) : Prop where
  skipped : ∀ c ∈ gap, p c = false
  taken : ∀ c ∈ run, p c = true
  /-- There is no run only in a text without such characters. -/
  empty : run = [] → after = []
  ended : ∀ c ∈ after.head?, p c = false

theorem FirstRun.eq {p : α → Bool} {gap run after : List α} (h : FirstRun p gap run after) :
    ((gap ++ (run ++ after)).dropWhile fun c => !p c).takeWhile p = run := by
  have hgap : ∀ c ∈ gap, (!p c) = true := by
    intro c hc
    rw [h.skipped c hc]
    rfl
  rw [List.dropWhile_append_of_pos hgap]
  have hafter : after.takeWhile p = [] := by
    cases after with
    | nil => rfl
    | cons c after => exact List.takeWhile_cons_of_neg (by simp [h.ended c rfl])
  cases run with
  | nil =>
    rw [h.empty rfl]
    rfl
  | cons c run =>
    have hc : p c = true := h.taken c (by simp)
    have hstart : ¬(!p c) = true := by simp [hc]
    rw [List.cons_append, List.dropWhile_cons_of_neg (p := fun c => !p c) hstart,
      ← List.cons_append,
      List.takeWhile_append_of_pos h.taken, hafter, List.append_nil]

theorem exists_firstRun (p : α → Bool) (text : List α) :
    ∃ gap run after, text = gap ++ (run ++ after) ∧ FirstRun p gap run after := by
  let start := text.dropWhile fun c => !p c
  refine ⟨text.takeWhile fun c => !p c, start.takeWhile p, start.dropWhile p, ?_, ?_, ?_, ?_, ?_⟩
  · rw [List.takeWhile_append_dropWhile, List.takeWhile_append_dropWhile]
  · intro c hc
    simpa using List.mem_takeWhile_imp hc
  · exact fun c hc => List.mem_takeWhile_imp hc
  · intro hrun
    cases hstart : start with
    | nil => rfl
    | cons c rest =>
      -- the gap ends at a character with the property
      have hc : p c = true := by
        have hhead := List.head?_dropWhile_not (fun c => !p c) text
        rw [show text.dropWhile (fun c => !p c) = c :: rest from hstart] at hhead
        simpa using hhead
      rw [hstart, List.takeWhile_cons_of_pos hc] at hrun
      cases hrun
  · intro c hc
    have hhead := List.head?_dropWhile_not p start
    rw [Option.mem_def.mp hc] at hhead
    simpa using hhead

end IotDeviceSdk.Text
