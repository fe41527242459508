import IotDeviceSdk.DeviceRule.Equiv.RuleScheduling
import IotDeviceSdk.Windows.Basic

/-!
# The windows of timers and time ranges

A weekday set lists days, counted from 1970-01-01 (`DaysOfWeekRecord.Listed`).

* `timeRangeAdmits_iff`: a time range admits the seconds between its ends on the listed days, and
  one that ends before it starts admits the windows that open on the day before.
* `dailyTimer_once_in_window`: over a run of evaluations a daily timer fires once in each of its
  windows.  Its marks are those of `Schedule`, with a slot for each weekday
  (`DailyTimerCondition.schedule`).
-/

namespace IotDeviceSdk.DeviceRule

open Prog

variable {env : Env} {callback : GetPropertyValueCallBack} {epochTime : ℤ}

/-! ### The calendar -/

theorem secondOfDay_eq (epochTime : ℤ) : secondOfDay epochTime = epochTime % secondsPerDay := by
  have hlow : 0 ≤ epochTime % 86400 := Int.emod_nonneg _ (by decide)
  have hhigh : epochTime % 86400 < 86400 := Int.emod_lt_of_pos _ (by decide)
  show cInt ((epochTime % 86400 / 3600 * 60 + epochTime % 86400 % 3600 / 60) * 60 +
    epochTime % 86400 % 60) = epochTime % 86400
  generalize epochTime % 86400 = second at hlow hhigh ⊢
  have hsum : (second / 3600 * 60 + second % 3600 / 60) * 60 + second % 60 = second := by omega
  rw [hsum]
  exact cInt_eq (by omega) (by omega)

/-- The weekday of a day, counted from 1970-01-01. -/
def dayOfWeek (day : ℤ) : Fin 7 := weekday (day * secondsPerDay)

theorem weekday_eq (epochTime : ℤ) : weekday epochTime = dayOfWeek (epochTime / secondsPerDay) := by
  have hday : epochTime / secondsPerDay * secondsPerDay / secondsPerDay =
      epochTime / secondsPerDay := Int.mul_ediv_cancel _ (by decide)
  rw [dayOfWeek, weekday, weekday, hday]

theorem dayOfWeek_val (day : ℤ) : ((dayOfWeek day).val : ℤ) = (day + 4) % 7 := by
  have hday : day * secondsPerDay / secondsPerDay = day := Int.mul_ediv_cancel _ (by decide)
  rw [dayOfWeek, weekday, hday, Fin.val_ofNat]
  omega

theorem dayOfWeek_eq_iff {a b : ℤ} : dayOfWeek a = dayOfWeek b ↔ a % 7 = b % 7 := by
  have ha := dayOfWeek_val a
  have hb := dayOfWeek_val b
  rw [Fin.ext_iff]
  omega

theorem dayOfWeek_succ (day : ℤ) : dayOfWeek (day + 1) = dayOfWeek day + 1 := by
  have hday := dayOfWeek_val day
  have hnext := dayOfWeek_val (day + 1)
  have hone : ((1 : Fin 7) : ℕ) = 1 := rfl
  rw [Fin.ext_iff, Fin.val_add, hone]
  omega

/-- The weekday of the day is in the set. -/
def DaysOfWeekRecord.Listed (daysOfWeek : DaysOfWeekRecord) (day : ℤ) : Prop :=
  daysOfWeek.hasDay (dayOfWeek day) = true

instance (daysOfWeek : DaysOfWeekRecord) (day : ℤ) : Decidable (daysOfWeek.Listed day) :=
  inferInstanceAs (Decidable (_ = true))

theorem hasDay_iff (daysOfWeek : DaysOfWeekRecord) (epochTime : ℤ) :
    daysOfWeek.hasDay (gmtime epochTime).tm_wday = true ↔
      daysOfWeek.Listed (epochTime / secondsPerDay) := by
  show daysOfWeek.hasDay (weekday epochTime) = true ↔ _
  rw [weekday_eq]
  exact Iff.rfl

/-! ### Time ranges -/

/-- The weekdays before those of a set without the unused bit; the shift takes Sunday to that bit,
and Saturday is put in for it. -/
theorem hasDay_yesterday {daysOfWeek : DaysOfWeekRecord}
    (hunused : daysOfWeek.getLsbD 0 = false) (tm_wday : Fin 7) :
    DaysOfWeekRecord.hasDay
        (if daysOfWeek >>> 1 &&& 1 ≠ 0 then daysOfWeek >>> 1 ||| daysOfWeekSaturday
          else daysOfWeek >>> 1) tm_wday =
      daysOfWeek.hasDay (tm_wday + 1) := by
  revert daysOfWeek tm_wday
  decide +kernel

/-- **The time range of a rule.** -/
theorem timeRangeAdmits_iff {timeRange : TimeRange} (hdays : timeRange.daysOfWeek ≠ 0)
    (hunused : timeRange.daysOfWeek.getLsbD 0 = false)
    (hstart : 0 ≤ timeRange.startTime ∧ timeRange.startTime < secondsPerDay)
    (hend : 0 ≤ timeRange.endTime ∧ timeRange.endTime < secondsPerDay) (epochTime : ℤ) :
    timeRangeAdmits timeRange epochTime = true ↔
      if timeRange.startTime < timeRange.endTime then
        timeRange.daysOfWeek.Listed (epochTime / secondsPerDay) ∧
          timeRange.startTime ≤ epochTime % secondsPerDay ∧
          epochTime % secondsPerDay ≤ timeRange.endTime
      else
        ∃ day, timeRange.daysOfWeek.Listed day ∧
          (day - 1) * secondsPerDay + timeRange.startTime ≤ epochTime ∧
          epochTime ≤ day * secondsPerDay + timeRange.endTime := by
  have hnotNull : timeRangeIsNull timeRange = false := by simpa [timeRangeIsNull] using hdays
  rw [timeRangeAdmits, if_neg (by rw [hnotNull]; decide)]
  dsimp only
  rw [secondOfDay_eq]
  split
  · rw [Bool.and_eq_true, hasDay_iff, decide_eq_true_eq]
  · -- the windows that open yesterday, split at midnight
    have hwindows : epochTime ∈ windows secondsPerDay timeRange.daysOfWeek.Listed
        (timeRange.startTime - secondsPerDay) timeRange.endTime ↔ _ :=
      mem_windows_iff_overnight (by decide) hstart.1 hstart.2 hend.1 hend.2
    have hyesterday : timeRange.daysOfWeek.hasDay ((gmtime epochTime).tm_wday + 1) = true ↔
        timeRange.daysOfWeek.Listed (epochTime / secondsPerDay + 1) := by
      show timeRange.daysOfWeek.hasDay (weekday epochTime + 1) = true ↔ _
      rw [weekday_eq, ← dayOfWeek_succ]
      exact Iff.rfl
    have hopens : ∀ day : ℤ, (day - 1) * secondsPerDay + timeRange.startTime =
        day * secondsPerDay + (timeRange.startTime - secondsPerDay) := by
      intro day
      rw [Int.sub_mul]
      omega
    simp only [hopens]
    refine Iff.trans ?_ hwindows.symm
    rw [hasDay_yesterday hunused, Bool.or_eq_true, Bool.and_eq_true, Bool.and_eq_true, hasDay_iff,
      hyesterday, decide_eq_true_eq, decide_eq_true_eq]

/-- Thursday, 1970-01-01, from 22:00 to 06:00. -/
def thursdayNight : TimeRange := { startTime := 79200, endTime := 21600, daysOfWeek := 1 <<< 5 }

theorem timeRangeAdmits_iff_thursdayNight :
    timeRangeAdmits thursdayNight 3600 = true ↔
      ∃ day, thursdayNight.daysOfWeek.Listed day ∧
        (day - 1) * secondsPerDay + thursdayNight.startTime ≤ 3600 ∧
        3600 ≤ day * secondsPerDay + thursdayNight.endTime :=
  @timeRangeAdmits_iff thursdayNight (by decide) (by decide) (by decide) (by decide) 3600

/-! ### Daily timers -/

namespace DailyTimerCondition

/-- The minute of a timer on a listed day, counted from 1970-01-01; the end of the day cuts it
off. -/
structure Window (condition : DailyTimerCondition) (day epochTime : ℤ) : Prop where
  listed : condition.daysOfWeek.Listed day
  day_eq : epochTime / secondsPerDay = day
  from_time : condition.time ≤ epochTime % secondsPerDay
  until_end : epochTime % secondsPerDay < condition.time + 60

theorem window_iff {condition : DailyTimerCondition} {day epochTime : ℤ} :
    condition.Window day epochTime ↔ condition.daysOfWeek.Listed day ∧
      epochTime / secondsPerDay = day ∧ condition.time ≤ epochTime % secondsPerDay ∧
        epochTime % secondsPerDay < condition.time + 60 :=
  ⟨fun h => ⟨h.1, h.2, h.3, h.4⟩, fun ⟨h1, h2, h3, h4⟩ => ⟨h1, h2, h3, h4⟩⟩

instance (condition : DailyTimerCondition) (day epochTime : ℤ) :
    Decidable (condition.Window day epochTime) :=
  decidable_of_iff _ window_iff.symm

/-- The day in whose window an instant lies. -/
def windowAt (condition : DailyTimerCondition) (epochTime : ℤ) : Option ℤ :=
  if condition.inWindow epochTime then some (epochTime / secondsPerDay) else none

theorem windowAt_eq_some {condition : DailyTimerCondition} {day : ℤ} :
    condition.windowAt epochTime = some day ↔ condition.Window day epochTime := by
  have hin : condition.inWindow epochTime = true ↔
      condition.daysOfWeek.Listed (epochTime / secondsPerDay) ∧
        condition.time ≤ epochTime % secondsPerDay ∧
          epochTime % secondsPerDay < condition.time + 60 := by
    rw [inWindow, secondOfDay_eq, Bool.and_eq_true, hasDay_iff, decide_eq_true_eq]
  unfold windowAt
  rw [Option.ite_none_right_eq_some, hin, Option.some.injEq]
  constructor
  · rintro ⟨⟨hlisted, hfrom, huntil⟩, rfl⟩
    exact ⟨hlisted, rfl, hfrom, huntil⟩
  · rintro ⟨hlisted, rfl, hfrom, huntil⟩
    exact ⟨⟨hlisted, hfrom, huntil⟩, rfl⟩

/-- The windows of a timer; each weekday has a slot for the last run. -/
def schedule (condition : DailyTimerCondition) : Schedule ℤ (Fin 7) where
  window := condition.windowAt
  slot := dayOfWeek
  width := 60
  close := by
    intro e t day he ht
    have he := windowAt_eq_some.mp he
    have ht := windowAt_eq_some.mp ht
    have hsplit_e := Int.ediv_mul_add_emod e secondsPerDay
    have hsplit_t := Int.ediv_mul_add_emod t secondsPerDay
    rw [he.day_eq] at hsplit_e
    rw [ht.day_eq] at hsplit_t
    have hfrom := he.from_time
    have huntil := ht.until_end
    omega
  apart := by
    intro e t a b he ht hslot hne hle
    have he := windowAt_eq_some.mp he
    have ht := windowAt_eq_some.mp ht
    -- different days with one weekday are a week apart
    have hslot := dayOfWeek_eq_iff.mp hslot
    have hday_e : e / 86400 = a := he.day_eq
    have hday_t : t / 86400 = b := ht.day_eq
    omega

end DailyTimerCondition

theorem calculateDailyTimerCondition_iff (condition : DailyTimerCondition) (epochTime : ℤ) :
    calculateDailyTimerCondition condition epochTime = true ↔
      condition.schedule.Fires condition.lastExecutedTime epochTime := by
  have hslot : condition.schedule.slot (epochTime / secondsPerDay) = (gmtime epochTime).tm_wday :=
    (weekday_eq epochTime).symm
  rw [calculateDailyTimerCondition, Bool.and_eq_true, decide_eq_true_eq]
  constructor
  · rintro ⟨hin, hlast⟩
    refine ⟨epochTime / secondsPerDay, if_pos hin, ?_⟩
    rw [hslot]
    exact hlast
  · rintro ⟨day, hwindow, hlast⟩
    have hwindow : condition.windowAt epochTime = some day := hwindow
    obtain ⟨hin, hday⟩ := Option.ite_none_right_eq_some.mp hwindow
    rw [← Option.some.inj hday, hslot] at hlast
    exact ⟨hin, hlast⟩

theorem dailyTimerConditionMarkDayIsExecuted_eq (condition : DailyTimerCondition)
    (epochTime : ℤ) :
    dailyTimerConditionMarkDayIsExecuted condition epochTime =
      { condition with
        lastExecutedTime := condition.schedule.mark condition.lastExecutedTime epochTime } := by
  have hslot : condition.schedule.slot (epochTime / secondsPerDay) = (gmtime epochTime).tm_wday :=
    (weekday_eq epochTime).symm
  unfold dailyTimerConditionMarkDayIsExecuted Schedule.mark
  split
  · rename_i hin
    have hwindow : condition.schedule.window epochTime = some (epochTime / secondsPerDay) :=
      if_pos hin
    rw [hwindow, ← hslot]
  · rename_i hout
    have hwindow : condition.schedule.window epochTime = none := if_neg hout
    rw [hwindow]

/-- The marks of a timer after it was marked at some instants. -/
theorem foldl_markDayIsExecuted (condition : DailyTimerCondition) (es : List ℤ) :
    es.foldl dailyTimerConditionMarkDayIsExecuted condition =
      { condition with
        lastExecutedTime := es.foldl condition.schedule.mark condition.lastExecutedTime } := by
  induction es generalizing condition with
  | nil => rfl
  | cons e es ih =>
    rw [List.foldl_cons, List.foldl_cons, ih, dailyTimerConditionMarkDayIsExecuted_eq]
    rfl

/-- **A daily timer that was marked at some instants** fires in the windows none of them lies in. -/
theorem calculateDailyTimerCondition_foldl_iff {condition : DailyTimerCondition} {es : List ℤ}
    (hunexecuted : ∀ day, condition.lastExecutedTime day = 0) (hsorted : es.Pairwise (· ≤ ·))
    (hle : ∀ e ∈ es, e ≤ epochTime) (hepoch : 60 ≤ epochTime) :
    calculateDailyTimerCondition (es.foldl dailyTimerConditionMarkDayIsExecuted condition)
        epochTime = true ↔
      ∃ day, condition.Window day epochTime ∧ ∀ e ∈ es, ¬condition.Window day e := by
  have hzero : condition.lastExecutedTime = fun _ => 0 := funext hunexecuted
  rw [foldl_markDayIsExecuted, calculateDailyTimerCondition_iff, hzero]
  have hfires := condition.schedule.fires_iff hsorted hle hepoch
  refine hfires.trans (exists_congr fun day => ?_)
  have hwindow : ∀ t, condition.schedule.window t = some day ↔ condition.Window day t :=
    fun t => DailyTimerCondition.windowAt_eq_some
  simp only [ne_eq, hwindow]

/-! ### Runs of evaluations -/

/-- An evaluation of a rule in one of the two passes: when and with which readings, the rule it
found and what it did. -/
structure Evaluation where
  isTimerRule : Bool
  epochTime : ℤ
  callback : GetPropertyValueCallBack
  found : RuleInfo
  run : RuleRun

/-- The evaluation executed the rule. -/
def Evaluation.Executed (evaluation : Evaluation) : Prop :=
  evaluation.run.executed.isSome = true

instance (evaluation : Evaluation) : Decidable evaluation.Executed :=
  inferInstanceAs (Decidable (_ = true))

/-- The value of the `i`-th condition, a daily timer, in the evaluation. -/
def Evaluation.sees (evaluation : Evaluation) (i : ℕ) : Bool :=
  match evaluation.found.conditions[i]? with
  | some (.dailyTimer data) => calculateDailyTimerCondition data evaluation.epochTime
  | _ => false

/-- Evaluations of a rule from an instant on, each of the rule as the one before left it. -/
inductive EvaluationRun (env : Env) : ℤ → RuleInfo → List Evaluation → Prop
  | nil {clock : ℤ} {rule : RuleInfo} : EvaluationRun env clock rule []
  | cons {clock epochTime : ℤ} {isTimerRule : Bool} {callback : GetPropertyValueCallBack}
    {rule : RuleInfo} {run : RuleRun} {evaluations : List Evaluation} (hclock : clock ≤ epochTime)
    (hrun : Outcome env (checkRuleInfoAndExecute callback isTimerRule epochTime rule) run)
    (hrest : EvaluationRun env epochTime run.ruleItem evaluations) :
    EvaluationRun env clock rule (⟨isTimerRule, epochTime, callback, rule, run⟩ :: evaluations)

/-- A rule after it was executed at an instant. -/
def RuleInfo.markExecuted (rule : RuleInfo) (epochTime : ℤ) : RuleInfo :=
  { rule with conditions := rule.conditions.map (markIsExecuted epochTime) }

/-- Conditions are marked when they hold and left alone when they do not. -/
theorem calculateConditions_marks (rule : RuleInfo) :
    Yields env (calculateConditions rule.conditions rule.logic callback epochTime) fun r =>
      ∀ result conditions, r = some (result, conditions) →
        conditions = if result then rule.conditions.map (markIsExecuted epochTime)
          else rule.conditions := by
  refine yields_trivial.bind fun _ _ => yields_trivial.bind fun step _ => ?_
  cases step with
  | done _ => exact yields_pure (by simp)
  | yield result =>
    refine yields_pure fun _ _ heq => ?_
    obtain ⟨rfl, rfl⟩ := Prod.mk.inj (Option.some.inj heq)
    rfl

/-- **What an evaluation leaves of a rule**: only an execution marks the conditions. -/
theorem checkRuleInfoAndExecute_leaves (isTimerRule : Bool) (rule : RuleInfo) :
    Yields env (checkRuleInfoAndExecute callback isTimerRule epochTime rule) fun run =>
      run.ruleItem = if run.executed.isSome then rule.markExecuted epochTime else rule := by
  have hskip : Yields env (pure { ruleItem := rule } : Sdk RuleRun) fun run =>
      run.ruleItem = if run.executed.isSome then rule.markExecuted epochTime else rule :=
    yields_pure rfl
  refine yields_trivial.bind fun _ _ => ?_
  split
  · exact hskip
  split
  · exact hskip
  split
  · exact hskip
  split
  · exact hskip
  refine yields_trivial.bind fun _ _ => ?_
  refine (calculateConditions_marks rule).bind fun r hr => ?_
  cases r with
  | none => exact hskip
  | some r =>
    obtain ⟨result, conditions⟩ := r
    have hleft := hr result conditions rfl
    subst hleft
    cases result with
    | false => exact hskip
    | true =>
      refine yields_trivial.bind fun calls _ => yields_pure ?_
      rfl

/-- The instants at which the rule was executed. -/
def executedTimes (evaluations : List Evaluation) : List ℤ :=
  (evaluations.filter fun evaluation => decide evaluation.Executed).map Evaluation.epochTime

theorem mem_executedTimes {evaluations : List Evaluation} {t : ℤ} :
    t ∈ executedTimes evaluations ↔
      ∃ evaluation ∈ evaluations, evaluation.Executed ∧ evaluation.epochTime = t := by
  simp [executedTimes, and_assoc]

theorem executedTimes_sorted {evaluations : List Evaluation}
    (hsorted : evaluations.Pairwise fun x y => x.epochTime ≤ y.epochTime) :
    (executedTimes evaluations).Pairwise (· ≤ ·) := by
  unfold executedTimes
  rw [List.pairwise_map]
  exact hsorted.filter _

namespace EvaluationRun

variable {clock : ℤ} {rule : RuleInfo} {before evaluations after : List Evaluation}
  {evaluation : Evaluation}

theorem clock_le (hrun : EvaluationRun env clock rule evaluations) :
    ∀ x ∈ evaluations, clock ≤ x.epochTime := by
  induction hrun with
  | nil => simp
  | cons hclock _ _ ih =>
    intro x hx
    rcases List.mem_cons.mp hx with rfl | hx
    · exact hclock
    · exact le_trans hclock (ih x hx)

/-- The clock never goes back. -/
theorem sorted (hrun : EvaluationRun env clock rule evaluations) :
    evaluations.Pairwise fun x y => x.epochTime ≤ y.epochTime := by
  induction hrun with
  | nil => exact List.Pairwise.nil
  | cons _ _ hrest ih => exact List.pairwise_cons.mpr ⟨hrest.clock_le, ih⟩

/-- Each evaluation finds the rule marked at the executions before it. -/
theorem found_eq (hrun : EvaluationRun env clock rule (before ++ evaluation :: after)) :
    evaluation.found = (executedTimes before).foldl RuleInfo.markExecuted rule := by
  induction before generalizing clock rule with
  | nil =>
    cases hrun
    rfl
  | cons first before ih =>
    cases hrun with
    | @cons _ epochTime isTimerRule callback _ run _ hclock hout hrest =>
      have hleft := checkRuleInfoAndExecute_leaves isTimerRule rule run hout
      rw [ih hrest, hleft]
      unfold executedTimes
      rw [List.filter_cons]
      show _ = List.foldl _ rule (List.map _ (if decide (run.executed.isSome = true) then _ else _))
      cases run.executed.isSome with
      | true => rfl
      | false => rfl

/-- An evaluation that does not execute the rule leaves it as it found it. -/
theorem unexecuted_leaves (hrun : EvaluationRun env clock rule evaluations) :
    ∀ x ∈ evaluations, ¬x.Executed → x.run.ruleItem = x.found := by
  induction hrun with
  | nil => simp
  | @cons _ _ isTimerRule _ rule run _ _ hout _ ih =>
    intro x hx hnot
    rcases List.mem_cons.mp hx with rfl | hx
    · have hleft := checkRuleInfoAndExecute_leaves isTimerRule rule run hout
      exact hleft.trans (if_neg hnot)
    · exact ih x hx hnot

end EvaluationRun

theorem foldl_markExecuted_getElem? (es : List ℤ) (rule : RuleInfo) (i : ℕ) :
    (es.foldl RuleInfo.markExecuted rule).conditions[i]? =
      rule.conditions[i]?.map fun c => es.foldl (fun c e => markIsExecuted e c) c := by
  induction es generalizing rule with
  | nil => simp
  | cons e es ih =>
    rw [List.foldl_cons, ih, RuleInfo.markExecuted, List.getElem?_map, Option.map_map]
    rfl

theorem foldl_markIsExecuted (es : List ℤ) (data : DailyTimerCondition) :
    es.foldl (fun c e => markIsExecuted e c) (.dailyTimer data) =
      .dailyTimer (es.foldl dailyTimerConditionMarkDayIsExecuted data) := by
  induction es generalizing data with
  | nil => rfl
  | cons e es ih => exact ih _

/-- **One evaluation of a run**: the timer fires in the windows without an execution before. -/
theorem EvaluationRun.sees_iff {rule : RuleInfo} {before after : List Evaluation}
    {evaluation : Evaluation} {i : ℕ} {data : DailyTimerCondition}
    (hunexecuted : ∀ c ∈ rule.conditions, c.Unexecuted)
    (hrun : EvaluationRun env 60 rule (before ++ evaluation :: after))
    (hdata : rule.conditions[i]? = some (.dailyTimer data)) :
    evaluation.sees i = true ↔
      ∃ day, data.Window day evaluation.epochTime ∧
        ∀ x ∈ before, x.Executed → ¬data.Window day x.epochTime := by
  obtain ⟨hsorted, -, hle⟩ := List.pairwise_append.mp hrun.sorted
  have hearlier : ∀ e ∈ executedTimes before, e ≤ evaluation.epochTime := by
    intro e he
    obtain ⟨x, hx, -, rfl⟩ := mem_executedTimes.mp he
    exact hle x hx evaluation (by simp)
  have hcondition : evaluation.found.conditions[i]? =
      some (.dailyTimer
        ((executedTimes before).foldl dailyTimerConditionMarkDayIsExecuted data)) := by
    rw [hrun.found_eq, foldl_markExecuted_getElem?, hdata, Option.map_some, foldl_markIsExecuted]
  have hmem : Condition.dailyTimer data ∈ rule.conditions := List.mem_of_getElem? hdata
  unfold Evaluation.sees
  rw [hcondition]
  dsimp only
  rw [calculateDailyTimerCondition_foldl_iff (hunexecuted _ hmem) (executedTimes_sorted hsorted)
    hearlier (hrun.clock_le evaluation (by simp))]
  refine exists_congr fun day => and_congr_right fun _ => ?_
  constructor
  · intro hnone x hx hexecuted
    exact hnone _ (mem_executedTimes.mpr ⟨x, hx, hexecuted, rfl⟩)
  · intro hnone e he
    obtain ⟨x, hx, hexecuted, rfl⟩ := mem_executedTimes.mp he
    exact hnone x hx hexecuted

/-- At most one item has the property when none before an item that has it does. -/
theorem countP_le_one {α : Type} {p : α → Bool} {xs : List α}
    (h : ∀ before x after, xs = before ++ x :: after → p x = true → ∀ y ∈ before, p y = false) :
    xs.countP p ≤ 1 := by
  induction xs with
  | nil => simp
  | cons x xs ih =>
    have hrest : xs.countP p ≤ 1 := by
      refine ih fun before y after heq hy z hz => ?_
      exact h (x :: before) y after (by rw [heq]; rfl) hy z (by simp [hz])
    cases hx : p x with
    | false => rwa [List.countP_cons_of_neg (by simp [hx])]
    | true =>
      -- an item further on that has the property would come after `x`
      have hnone : xs.countP p = 0 := by
        rw [List.countP_eq_zero]
        intro y hy hpy
        obtain ⟨before, after, rfl⟩ := List.append_of_mem hy
        have hfalse := h (x :: before) y after rfl hpy x (by simp)
        rw [hx] at hfalse
        cases hfalse
      rw [List.countP_cons_of_pos hx, hnone]

/-- **A daily timer fires once in each of its windows**, over every run of evaluations of a rule
that starts without marks. -/
theorem dailyTimer_once_in_window {rule : RuleInfo} {evaluations : List Evaluation}
    (hunexecuted : ∀ c ∈ rule.conditions, c.Unexecuted)
    (hrun : EvaluationRun env 60 rule evaluations) :
    (∀ i data, rule.conditions[i]? = some (.dailyTimer data) →
      (∀ before evaluation after, evaluations = before ++ evaluation :: after →
        (evaluation.sees i = true ↔
          ∃ day, data.Window day evaluation.epochTime ∧
            ∀ x ∈ before, x.Executed → ¬data.Window day x.epochTime)) ∧
      ∀ day, evaluations.countP (fun x => decide (data.Window day x.epochTime) &&
        decide x.Executed && x.sees i) ≤ 1) ∧
    ∀ evaluation ∈ evaluations, ¬evaluation.Executed →
      evaluation.run.ruleItem = evaluation.found := by
  refine ⟨fun i data hdata => ?_, hrun.unexecuted_leaves⟩
  have hsees : ∀ before evaluation after, evaluations = before ++ evaluation :: after →
      (evaluation.sees i = true ↔
        ∃ day, data.Window day evaluation.epochTime ∧
          ∀ x ∈ before, x.Executed → ¬data.Window day x.epochTime) := by
    rintro before evaluation after rfl
    exact hrun.sees_iff hunexecuted hdata
  refine ⟨hsees, fun day => countP_le_one ?_⟩
  intro before evaluation after heq hevaluation x hx
  simp only [Bool.and_eq_true, decide_eq_true_eq] at hevaluation
  obtain ⟨⟨hwindow, -⟩, hfires⟩ := hevaluation
  obtain ⟨day', hwindow', hnone⟩ := (hsees before evaluation after heq).mp hfires
  -- the instant lies in one window only
  have hday : day' = day := hwindow'.day_eq.symm.trans hwindow.day_eq
  subst hday
  by_contra htrue
  simp only [Bool.not_eq_false, Bool.and_eq_true, decide_eq_true_eq] at htrue
  exact hnone x hx htrue.1.2 htrue.1.1

/-- A timer for the second minute of every Thursday. -/
def thursdayMinute : DailyTimerCondition := { time := 60, daysOfWeek := 1 <<< 5 }

/-- The rule is executed in the minute of its timer, and not again half a minute later. -/
theorem dailyTimer_once_in_window_thursdayMinute :
    ∃ evaluations, EvaluationRun Env.plentiful 60 (bareRule "or" [.dailyTimer thursdayMinute])
        evaluations ∧
      evaluations.map (fun x => (x.epochTime, x.sees 0, decide x.Executed)) =
        [(60, true, true), (90, false, false)] ∧
      evaluations.countP (fun x => decide (thursdayMinute.Window 0 x.epochTime) &&
        decide x.Executed && x.sees 0) ≤ 1 := by
  let rule := bareRule "or" [.dailyTimer thursdayMinute]
  let twice : Sdk (RuleRun × RuleRun) := do
    let first ← checkRuleInfoAndExecute (everywhere 0) true 60 rule
    let second ← checkRuleInfoAndExecute (everywhere 0) true 90 first.ruleItem
    return (first, second)
  let evaluations (runs : RuleRun × RuleRun) : List Evaluation :=
    [⟨true, 60, everywhere 0, rule, runs.1⟩, ⟨true, 90, everywhere 0, runs.1.ruleItem, runs.2⟩]
  have hruns : (twice Env.plentiful default).map (fun r =>
      (evaluations r.1).map fun x => (x.epochTime, x.sees 0, decide x.Executed)) =
        some [(60, true, true), (90, false, false)] := by
    decide +kernel
  obtain ⟨⟨runs, c⟩, htwice, hsees⟩ := Option.map_eq_some_iff.mp hruns
  obtain ⟨first, hfirst, hrest⟩ := outcome_bind ⟨_, _, htwice⟩
  obtain ⟨second, hsecond, hpair⟩ := outcome_bind hrest
  have hpair : runs = (first, second) := outcome_pure.mp hpair
  subst hpair
  have hrun : EvaluationRun Env.plentiful 60 rule (evaluations (first, second)) :=
    .cons (by decide) hfirst (.cons (by decide) hsecond .nil)
  have hunexecuted : ∀ c ∈ rule.conditions, c.Unexecuted := by
    intro c hc
    rw [List.mem_singleton.mp hc]
    exact fun _ => rfl
  exact ⟨_, hrun, hsees,
    ((dailyTimer_once_in_window hunexecuted hrun).1 0 thursdayMinute rfl).2 0⟩

end IotDeviceSdk.DeviceRule
