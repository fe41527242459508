import IotDeviceSdk.DeviceRule.Equiv.RuleScheduling
import IotDeviceSdk.DeviceRule.SimpleTimer

/-!
# When simple timers fire

The instants of a simple timer are its start and the ends of its intervals
(`SimpleTimerCondition.Due`).

* `simpleTimer_safe_iff`: the evaluation traps on an interval of zero and from `2^31` seconds after
  the start on.
* `simpleTimer_executes_when_due`: over successive passes, a rule of which a simple timer is the
  only condition is executed at the instants of the timer.
-/

namespace IotDeviceSdk.DeviceRule

open Prog

variable {env : Env} {callback : GetPropertyValueCallBack} {epochTime : ℤ}

/-! ### Traps -/

section Traps

variable {condition : SimpleTimerCondition}

theorem calculateSimpleTimerConditionChecked_before (h : epochTime < condition.startTime) :
    calculateSimpleTimerConditionChecked condition epochTime = .ok false := by
  unfold calculateSimpleTimerConditionChecked
  rw [if_pos h]
  rfl

theorem calculateSimpleTimerConditionChecked_late (h : 2 ^ 31 ≤ epochTime - condition.startTime) :
    calculateSimpleTimerConditionChecked condition epochTime = .error .conversion := by
  unfold calculateSimpleTimerConditionChecked
  rw [if_neg (by omega), intOfDifftime_of_le h]
  rfl

theorem calculateSimpleTimerConditionChecked_zero (hle : condition.startTime ≤ epochTime)
    (hlt : epochTime - condition.startTime < 2 ^ 31) (hzero : condition.repeatInterval = 0) :
    calculateSimpleTimerConditionChecked condition epochTime = .error .divisionByZero := by
  unfold calculateSimpleTimerConditionChecked intRem
  rw [if_neg (by omega), intOfDifftime_of_lt hle hlt, hzero]
  rfl

/-- Where nothing traps, the timer tests the quotient at the ends of its intervals. -/
theorem calculateSimpleTimerConditionChecked_ok (hle : condition.startTime ≤ epochTime)
    (hlt : epochTime - condition.startTime < 2 ^ 31) (hzero : condition.repeatInterval ≠ 0) :
    calculateSimpleTimerConditionChecked condition epochTime =
      .ok (decide ((epochTime - condition.startTime).tmod condition.repeatInterval = 0 ∧
        (epochTime - condition.startTime).tdiv condition.repeatInterval <
          condition.repeatCount)) := by
  have hdiff : 0 ≤ epochTime - condition.startTime := by omega
  unfold calculateSimpleTimerConditionChecked intRem intDiv
  rw [if_neg (by omega), intOfDifftime_of_lt hle hlt]
  simp only [bind, Except.bind, intDivide_of_nonneg _ hdiff hzero]
  by_cases hrem : (epochTime - condition.startTime).tmod condition.repeatInterval = 0
  · rw [if_neg (not_not_intro hrem)]
    by_cases hcount : condition.repeatCount ≤
        (epochTime - condition.startTime).tdiv condition.repeatInterval
    · rw [if_pos hcount, decide_eq_false (fun h => by omega)]
      rfl
    · rw [if_neg hcount, decide_eq_true ⟨hrem, by omega⟩]
      rfl
  · rw [if_pos hrem, decide_eq_false (fun h => hrem h.1)]
    rfl

/-- **The traps, forgotten**: the evaluation has a value where nothing traps. -/
theorem calculateSimpleTimerConditionChecked_toOption (condition : SimpleTimerCondition)
    (epochTime : ℤ) :
    (calculateSimpleTimerConditionChecked condition epochTime).toOption =
      calculateSimpleTimerCondition condition epochTime := by
  unfold calculateSimpleTimerCondition
  split
  · rename_i hbefore
    rw [calculateSimpleTimerConditionChecked_before hbefore]
    rfl
  rename_i hstarted
  have hmax : INT_MAX = 2 ^ 31 - 1 := rfl
  dsimp only
  split
  · rename_i htrap
    by_cases hlate : 2 ^ 31 ≤ epochTime - condition.startTime
    · rw [calculateSimpleTimerConditionChecked_late hlate]
      rfl
    · have hzero : condition.repeatInterval = 0 := htrap.resolve_left (by omega)
      rw [calculateSimpleTimerConditionChecked_zero (by omega) (by omega) hzero]
      rfl
  · rename_i hsafe
    obtain ⟨hmax, hzero⟩ := not_or.mp hsafe
    rw [calculateSimpleTimerConditionChecked_ok (by omega) (by omega) hzero]
    split
    · rename_i hrem
      rw [decide_eq_false (fun h => hrem h.1)]
      rfl
    · rename_i hrem
      simp only [ne_eq, Decidable.not_not] at hrem
      simp only [hrem, true_and]
      rfl

theorem calculateSimpleTimerConditionChecked_safe
    (h : epochTime < condition.startTime ∨
      condition.repeatInterval ≠ 0 ∧ epochTime - condition.startTime < 2 ^ 31) :
    ∃ result, calculateSimpleTimerConditionChecked condition epochTime = .ok result := by
  by_cases hbefore : epochTime < condition.startTime
  · exact ⟨_, calculateSimpleTimerConditionChecked_before hbefore⟩
  · obtain ⟨hzero, hlt⟩ := h.resolve_left hbefore
    exact ⟨_, calculateSimpleTimerConditionChecked_ok (by omega) hlt hzero⟩

theorem calculateSimpleTimerConditionChecked_traps
    (h : ¬(epochTime < condition.startTime ∨
      condition.repeatInterval ≠ 0 ∧ epochTime - condition.startTime < 2 ^ 31)) :
    ∃ trap, calculateSimpleTimerConditionChecked condition epochTime = .error trap ∧
      trap ≠ .divisionOverflow := by
  by_cases hlate : 2 ^ 31 ≤ epochTime - condition.startTime
  · exact ⟨_, calculateSimpleTimerConditionChecked_late hlate, by decide⟩
  · have hzero : condition.repeatInterval = 0 := by omega
    exact ⟨_, calculateSimpleTimerConditionChecked_zero (by omega) (by omega) hzero, by decide⟩

/-- **Simple timers are safe** before they start, and less than `2^31` seconds later when their
interval is not zero; a quotient never overflows. -/
theorem simpleTimer_safe_iff (condition : SimpleTimerCondition) (epochTime : ℤ) :
    ((∃ result, calculateSimpleTimerConditionChecked condition epochTime = .ok result) ↔
      epochTime < condition.startTime ∨
        condition.repeatInterval ≠ 0 ∧ epochTime - condition.startTime < 2 ^ 31) ∧
    calculateSimpleTimerConditionChecked condition epochTime ≠ .error .divisionOverflow := by
  by_cases hsafe : epochTime < condition.startTime ∨
      condition.repeatInterval ≠ 0 ∧ epochTime - condition.startTime < 2 ^ 31
  · obtain ⟨result, hresult⟩ := calculateSimpleTimerConditionChecked_safe hsafe
    rw [hresult]
    exact ⟨iff_of_true ⟨_, rfl⟩ hsafe, by simp⟩
  · obtain ⟨trap, htrap, hne⟩ := calculateSimpleTimerConditionChecked_traps hsafe
    rw [htrap]
    exact ⟨iff_of_false (by simp) hsafe, by simpa using hne⟩

/-- A condition for every second from the epoch on, without an interval. -/
def noInterval : CJson :=
  .object [("startTime", .string "1970-01-01 00:00:00"), ("repeatInterval", .number 0),
    ("repeatCount", .number 1)]

/-- The parser accepts an interval of zero, by which the evaluation divides. -/
theorem noInterval_traps :
    ¬∀ (env : Env) (json : CJson) (condition : SimpleTimerCondition) (epochTime : ℤ),
      Outcome env (parseSimpleTimerCondition {} json) (condition, 0) →
        ∃ result, calculateSimpleTimerConditionChecked condition epochTime = .ok result := by
  intro hclaim
  have hparse : (parseSimpleTimerCondition {} noInterval Env.plentiful default).map (fun r =>
      (r.1.1.startTime, r.1.1.repeatInterval, r.1.1.repeatCount, r.1.2)) = some (0, 0, 1, 0) := by
    decide +kernel
  obtain ⟨⟨⟨condition, answer⟩, c⟩, hout, hfields⟩ := Option.map_eq_some_iff.mp hparse
  obtain ⟨hstart, hinterval, -, hzero⟩ := by simpa only [Prod.mk.injEq] using hfields
  subst hzero
  obtain ⟨result, hresult⟩ := hclaim Env.plentiful noInterval condition 0 ⟨_, _, hout⟩
  rw [calculateSimpleTimerConditionChecked_zero (by omega) (by omega) hinterval] at hresult
  cases hresult

end Traps

/-! ### The instants of a timer -/

namespace SimpleTimerCondition

/-- The start of the timer or the end of one of its intervals, as long as it repeats. -/
def Due (condition : SimpleTimerCondition) (epochTime : ℤ) : Prop :=
  ∃ k, 0 ≤ k ∧ k < condition.repeatCount ∧
    epochTime = condition.startTime + k * condition.repeatInterval

/-- The instants of the timer. -/
def dueTimes (condition : SimpleTimerCondition) : List ℤ :=
  (List.range condition.repeatCount.toNat).map fun (k : ℕ) =>
    condition.startTime + k * condition.repeatInterval

variable {condition : SimpleTimerCondition}

theorem mem_dueTimes : epochTime ∈ condition.dueTimes ↔ condition.Due epochTime := by
  unfold dueTimes Due
  rw [List.mem_map]
  constructor
  · rintro ⟨k, hk, rfl⟩
    have hlt := List.mem_range.mp hk
    exact ⟨k, by omega, by omega, rfl⟩
  · rintro ⟨k, hk, hlt, rfl⟩
    refine ⟨k.toNat, List.mem_range.mpr (by omega), ?_⟩
    rw [Int.toNat_of_nonneg hk]

instance (condition : SimpleTimerCondition) (epochTime : ℤ) :
    Decidable (condition.Due epochTime) :=
  decidable_of_iff _ mem_dueTimes

theorem length_dueTimes : condition.dueTimes.length = condition.repeatCount.toNat := by
  rw [dueTimes, List.length_map, List.length_range]

theorem nodup_dueTimes (hinterval : 0 < condition.repeatInterval) : condition.dueTimes.Nodup := by
  refine List.Nodup.map (fun j k heq => ?_) List.nodup_range
  have hmul := Int.add_left_cancel heq
  exact_mod_cast Int.eq_of_mul_eq_mul_right (by omega) hmul

end SimpleTimerCondition

/-- **The value of a simple timer**: it holds at its instants. -/
theorem calculateSimpleTimerCondition_eq {condition : SimpleTimerCondition}
    (hinterval : 0 < condition.repeatInterval)
    (hlt : epochTime < condition.startTime + 2 ^ 31) :
    ∃ result, calculateSimpleTimerCondition condition epochTime = some result ∧
      (result = true ↔ condition.Due epochTime) := by
  rw [← calculateSimpleTimerConditionChecked_toOption]
  unfold SimpleTimerCondition.Due
  by_cases hbefore : epochTime < condition.startTime
  · rw [calculateSimpleTimerConditionChecked_before hbefore]
    refine ⟨false, rfl, iff_of_false (by decide) ?_⟩
    rintro ⟨k, hk, -, rfl⟩
    have hmul := Int.mul_nonneg hk hinterval.le
    omega
  · have hle : condition.startTime ≤ epochTime := by omega
    rw [calculateSimpleTimerConditionChecked_ok hle (by omega) (by omega)]
    refine ⟨_, rfl, ?_⟩
    rw [decide_eq_true_eq, Int.tmod_eq_emod_of_nonneg (by omega),
      Int.tdiv_eq_ediv_of_nonneg (by omega)]
    constructor
    · rintro ⟨hrem, hcount⟩
      have hmul := Int.mul_ediv_cancel' (Int.dvd_of_emod_eq_zero hrem)
      refine ⟨_, Int.ediv_nonneg (by omega) hinterval.le, hcount, ?_⟩
      rw [Int.mul_comm, hmul]
      omega
    · rintro ⟨k, hk, hcount, rfl⟩
      have hdiff : condition.startTime + k * condition.repeatInterval - condition.startTime =
          k * condition.repeatInterval := by omega
      rw [hdiff]
      exact ⟨Int.mul_emod_left _ _, by rwa [Int.mul_ediv_cancel _ hinterval.ne']⟩

/-! ### Passes over a rule with a simple timer -/

/-- An active rule without time range of which a simple timer is the only condition. -/
structure SimpleTimerRule (rule : RuleInfo) (data : SimpleTimerCondition) : Prop where
  active : rule.status = some "active"
  always : timeRangeIsNull rule.timeRange = true
  conditions : rule.conditions = [.simpleTimer data]
  interval : 0 < data.repeatInterval

namespace SimpleTimerRule

variable {rule : RuleInfo} {data : SimpleTimerCondition}

theorem due_eq (h : SimpleTimerRule rule data) (epochTime : ℤ) :
    due true epochTime rule = true := by
  unfold due considered timeRangeAdmits ruleInfoHasTimer
  rw [h.active, h.conditions, if_pos h.always]
  rfl

/-- The conditions of the rule have the value of the timer. -/
theorem calculateConditions_eq (h : SimpleTimerRule rule data) {logic : String} {result : Bool}
    (hlogic : rule.logic = some logic)
    (hresult : calculateSimpleTimerCondition data epochTime = some result) :
    calculateConditions rule.conditions rule.logic callback epochTime =
      pure (some (result, rule.conditions)) := by
  have hcompare : strcmpEq (some logic) (some "and") = pure (logic == "and") := rfl
  unfold calculateConditions
  rw [h.conditions, hlogic, hcompare, pure_bind]
  unfold Prog.forEach calculateConditionsStep
  dsimp only
  rw [hresult]
  cases logic == "and" <;> cases result <;> rfl

/-- The calls of a pass over the rule: at the instants of the timer, and only then, those of the
enabled commands of the rule. -/
def callsAt (rule : RuleInfo) (data : SimpleTimerCondition) (epochTime : ℤ) :
    Option (List (Option String × Command)) :=
  if data.Due epochTime then some (enabledCommands rule.actions) else none

/-- **One pass over the rule**: it executes the rule at the instants of the timer and leaves it as
it was. -/
theorem check_yields (h : SimpleTimerRule rule data) (hlt : epochTime < data.startTime + 2 ^ 31) :
    Yields env (checkRuleInfoAndExecute callback true epochTime rule) fun run =>
      run.ruleItem = rule ∧ run.executed = callsAt rule data epochTime := by
  obtain ⟨result, hresult, hdue⟩ := calculateSimpleTimerCondition_eq h.interval hlt
  rw [checkRuleInfoAndExecute_eq (by rw [h.active]; rfl), if_pos (h.due_eq epochTime)]
  refine yields_trivial.bind fun _ _ => ?_
  unfold evaluateAndExecute
  cases hlogic : rule.logic with
  | none => exact (yields_undefined (Q := fun _ => False)).bind fun _ hfalse => hfalse.elim
  | some logic =>
    rw [← hlogic, h.calculateConditions_eq hlogic hresult, pure_bind]
    cases result with
    | true =>
      refine (executeActionList_yields rule.actions).bind fun calls hcalls => yields_pure ⟨rfl, ?_⟩
      rw [callsAt, if_pos (hdue.mp rfl), ← hcalls]
    | false =>
      refine yields_pure ⟨rfl, ?_⟩
      rw [callsAt, if_neg fun h => Bool.false_ne_true (hdue.mpr h)]

theorem check_returns (h : SimpleTimerRule rule data) (hcomplete : rule.Complete)
    (hlt : epochTime < data.startTime + 2 ^ 31) :
    Returns env (checkRuleInfoAndExecute callback true epochTime rule) fun run =>
      run.ruleItem = rule := by
  obtain ⟨result, hresult, -⟩ := calculateSimpleTimerCondition_eq h.interval hlt
  have hdefined : ∀ c ∈ rule.conditions, conditionVerdict callback epochTime c ≠ none := by
    intro c hc
    rw [h.conditions] at hc
    rw [List.mem_singleton.mp hc, conditionVerdict, hresult]
    simp
  have hreturns :
      Returns env (checkRuleInfoAndExecute callback true epochTime rule) fun _ => True :=
    checkRuleInfoAndExecute_returns hcomplete.status hcomplete.logic hdefined
      (executeActionList_returns hcomplete.actions)
  exact (hreturns.and_yields (h.check_yields hlt)).mono fun run hrun => hrun.2.1

end SimpleTimerRule

/-- The calls with which a pass executed the rule at an index. -/
def ruleCalls (i : ℕ) (runs : List RuleRun) : Option (List (Option String × Command)) :=
  runs[i]?.bind RuleRun.executed

/-- Whether a pass executed the rule at an index. -/
def ruleExecuted (i : ℕ) (runs : List RuleRun) : Bool := (ruleCalls i runs).isSome

theorem forall₂_getElem? {α β : Type} {R : α → β → Prop} {xs : List α} {ys : List β}
    (h : List.Forall₂ R xs ys) {i : ℕ} {x : α} (hx : xs[i]? = some x) :
    ∃ y, ys[i]? = some y ∧ R x y := by
  induction h generalizing i with
  | nil => simp at hx
  | cons hxy _ ih =>
    cases i with
    | zero =>
      obtain rfl := Option.some.inj hx
      exact ⟨_, rfl, hxy⟩
    | succ i => exact ih hx

/-- **The passes over a list** in which the rule stands at an index. -/
theorem timerPasses_yields {rule : RuleInfo} {data : SimpleTimerCondition}
    (h : SimpleTimerRule rule data) {passes : List (GetPropertyValueCallBack × ℤ)}
    (hlt : ∀ pass ∈ passes, pass.2 < data.startTime + 2 ^ 31) {list : List RuleInfo} {i : ℕ}
    (hrule : list[i]? = some rule) :
    Yields env (timerPasses passes list) fun runs =>
      List.Forall₂ (fun pass run => ruleCalls i run = SimpleTimerRule.callsAt rule data pass.2)
        passes runs := by
  induction passes generalizing list with
  | nil => exact yields_pure List.Forall₂.nil
  | cons pass passes ih =>
    obtain ⟨callback, epochTime⟩ := pass
    have hnow : epochTime < data.startTime + 2 ^ 31 := hlt (callback, epochTime) (by simp)
    have hpass : Yields env (checkRuleInfoListAndExecute list callback true epochTime) fun runs =>
        ∃ run, runs[i]? = some run ∧ run.ruleItem = rule ∧
          run.executed = SimpleTimerRule.callsAt rule data epochTime := by
      intro runs hruns
      obtain ⟨run, hrun, hout⟩ := forall₂_getElem? (outcome_mapM hruns) hrule
      exact ⟨run, hrun, h.check_yields hnow run hout⟩
    refine hpass.bind fun runs hruns => ?_
    obtain ⟨run, hrun, hleft, hdue⟩ := hruns
    have hnext : (runs.map RuleRun.ruleItem)[i]? = some rule := by
      rw [List.getElem?_map, hrun, Option.map_some, hleft]
    refine (ih (fun x hx => hlt x (by simp [hx])) hnext).bind fun rest hrest => yields_pure ?_
    refine List.Forall₂.cons ?_ hrest
    rw [ruleCalls, hrun]
    exact hdue

/-- A store of which the rule is the only one gets through its passes. -/
theorem timerPasses_returns {rule : RuleInfo} {data : SimpleTimerCondition}
    (h : SimpleTimerRule rule data) (hcomplete : rule.Complete)
    {passes : List (GetPropertyValueCallBack × ℤ)}
    (hlt : ∀ pass ∈ passes, pass.2 < data.startTime + 2 ^ 31) :
    Returns env (timerPasses passes [rule]) fun _ => True := by
  induction passes with
  | nil => exact returns_pure trivial
  | cons pass passes ih =>
    obtain ⟨callback, epochTime⟩ := pass
    have hnow : epochTime < data.startTime + 2 ^ 31 := hlt (callback, epochTime) (by simp)
    have hpass :
        Returns env (checkRuleInfoListAndExecute [rule] callback true epochTime) fun runs =>
        runs.map RuleRun.ruleItem = [rule] := by
      unfold checkRuleInfoListAndExecute
      rw [List.mapM_cons]
      refine (h.check_returns hcomplete hnow).bind fun run hrun => ?_
      rw [List.mapM_nil, pure_bind]
      refine returns_pure ?_
      rw [List.map_cons, List.map_nil, hrun]
    refine hpass.bind fun runs hruns => ?_
    rw [hruns]
    exact (ih fun x hx => hlt x (by simp [hx])).bind fun _ _ => returns_pure trivial

/-! ### Counting -/

section Counting

variable {condition : SimpleTimerCondition} {times : List ℤ}

/-- Among different instants, at most as many are due as the timer repeats. -/
theorem countP_due_le (hnodup : times.Nodup) :
    times.countP (fun t => decide (condition.Due t)) ≤ condition.repeatCount.toNat := by
  rw [List.countP_eq_length_filter, ← SimpleTimerCondition.length_dueTimes]
  refine (List.subperm_of_subset (hnodup.filter _) fun t ht => ?_).length_le
  exact SimpleTimerCondition.mem_dueTimes.mpr (of_decide_eq_true (List.mem_filter.mp ht).2)

/-- When all its instants are among them, that many are due. -/
theorem le_countP_due (hinterval : 0 < condition.repeatInterval)
    (hall : ∀ t, condition.Due t → t ∈ times) :
    condition.repeatCount.toNat ≤ times.countP (fun t => decide (condition.Due t)) := by
  rw [List.countP_eq_length_filter, ← SimpleTimerCondition.length_dueTimes]
  have hnodup := SimpleTimerCondition.nodup_dueTimes hinterval
  refine (List.subperm_of_subset hnodup fun t ht => ?_).length_le
  have hdue := SimpleTimerCondition.mem_dueTimes.mp ht
  exact List.mem_filter.mpr ⟨hall t hdue, decide_eq_true hdue⟩

theorem countP_eq_of_forall₂ {α β : Type} {p : α → Bool} {q : β → Bool} {xs : List α} {ys : List β}
    (h : List.Forall₂ (fun x y => q y = true ↔ p x = true) xs ys) : ys.countP q = xs.countP p := by
  induction h with
  | nil => rfl
  | cons hxy _ ih => rw [List.countP_cons, List.countP_cons, ih, Bool.eq_iff_iff.mpr hxy]

end Counting

theorem map_eq_of_forall₂ {α β γ : Type} {f : β → γ} {g : α → γ} {xs : List α} {ys : List β}
    (h : List.Forall₂ (fun x y => f y = g x) xs ys) : ys.map f = xs.map g := by
  induction h with
  | nil => rfl
  | cons hxy _ ih => rw [List.map_cons, List.map_cons, hxy, ih]

/-- **A simple timer executes its rule at its instants**, over every run of passes at increasing
seconds, with the calls of the enabled commands of the rule, and therefore at most as often as it
repeats; just as often when the run visits all the seconds from the start of the timer to its
end. -/
theorem simpleTimer_executes_when_due {rule : RuleInfo} {data : SimpleTimerCondition}
    {passes : List (GetPropertyValueCallBack × ℤ)} (h : SimpleTimerRule rule data)
    (hsorted : (passes.map Prod.snd).Pairwise (· < ·))
    (hlt : ∀ pass ∈ passes, pass.2 < data.startTime + 2 ^ 31) :
    (∀ list i, list[i]? = some rule → Yields env (timerPasses passes list) fun runs =>
      List.Forall₂ (fun pass run => ruleCalls i run =
        if data.Due pass.2 then some (enabledCommands rule.actions) else none) passes runs ∧
      (runs.countP (ruleExecuted i) : ℤ) ≤ max 0 data.repeatCount ∧
      ((∀ t, data.startTime ≤ t → t ≤ data.startTime + data.repeatCount * data.repeatInterval →
          t ∈ passes.map Prod.snd) →
        (runs.countP (ruleExecuted i) : ℤ) = max 0 data.repeatCount)) ∧
    (rule.Complete → Returns env (timerPasses passes [rule]) fun _ => True) := by
  refine ⟨fun list i hrule => ?_, fun hcomplete => timerPasses_returns h hcomplete hlt⟩
  refine (timerPasses_yields h hlt hrule).mono fun runs hruns => ?_
  have hcount : runs.countP (ruleExecuted i) =
      (passes.map Prod.snd).countP fun t => decide (data.Due t) := by
    rw [List.countP_map]
    refine countP_eq_of_forall₂ (hruns.imp fun pass run hrun => ?_)
    show (ruleCalls i run).isSome = true ↔ decide (data.Due pass.2) = true
    rw [hrun, SimpleTimerRule.callsAt, decide_eq_true_iff]
    split_ifs with hdue
    · exact iff_of_true rfl hdue
    · exact iff_of_false Bool.false_ne_true hdue
  have hle : (passes.map Prod.snd).countP (fun t => decide (data.Due t)) ≤
      data.repeatCount.toNat := countP_due_le (hsorted.imp fun hlt => hlt.ne)
  refine ⟨hruns, by omega, fun hvisits => ?_⟩
  have hge : data.repeatCount.toNat ≤
      (passes.map Prod.snd).countP fun t => decide (data.Due t) := by
    refine le_countP_due h.interval fun t ht => ?_
    obtain ⟨k, hk, hcount, rfl⟩ := ht
    have hlow := Int.mul_nonneg hk h.interval.le
    have hhigh := Int.mul_le_mul_of_nonneg_right hcount.le h.interval.le
    exact hvisits _ (by omega) (by omega)
  omega

/-- A timer that fires twice, at the seconds 2 and 5. -/
def everyThree : SimpleTimerCondition := { startTime := 2, repeatInterval := 3, repeatCount := 2 }

/-- Passes at the seconds from 1 to 8. -/
def eightPasses : List (GetPropertyValueCallBack × ℤ) :=
  [1, 2, 3, 4, 5, 6, 7, 8].map fun epochTime => (everywhere 0, epochTime)

/-- A command to the fan. -/
def fanCommand (commandName : String) : Command where
  commandName := some commandName
  commandBody := some .null
  serviceId := some "fan"

/-- An action that is a command to the fan. -/
def fanAction (status commandName : String) : Action where
  type := some "DEVICE_CMD"
  status := some status
  deviceId := some "d"
  command := fanCommand commandName

/-- A rule with the timer and two commands, one of them disabled. -/
def fanRule : RuleInfo :=
  { bareRule "or" [.simpleTimer everyThree] with
    actions := [fanAction "disable" "off", fanAction "enable" "on"] }

theorem fanRule_complete : fanRule.Complete := by
  refine ⟨rfl, rfl, fun c hc => ?_, fun a ha => ?_⟩
  · rw [List.mem_singleton.mp hc]
    trivial
  · rcases List.mem_cons.mp ha with rfl | ha
    · exact ⟨rfl, rfl, rfl, rfl, rfl, rfl⟩
    · rw [List.mem_singleton.mp ha]
      exact ⟨rfl, rfl, rfl, rfl, rfl, rfl⟩

theorem simpleTimer_executes_when_due_everyThree :
    ∃ runs, Outcome Env.plentiful (timerPasses eightPasses [fanRule]) runs ∧
      runs.map (ruleCalls 0) = [none, some [(some "d", fanCommand "on")], none, none,
        some [(some "d", fanCommand "on")], none, none, none] ∧
      (runs.countP (ruleExecuted 0) : ℤ) = max 0 everyThree.repeatCount := by
  have hrule : SimpleTimerRule fanRule everyThree := ⟨rfl, rfl, rfl, by decide⟩
  have hsorted : (eightPasses.map Prod.snd).Pairwise (· < ·) := by decide
  have hlt : ∀ pass ∈ eightPasses, pass.2 < everyThree.startTime + 2 ^ 31 := by decide
  have hreturns : Returns Env.plentiful (timerPasses eightPasses [fanRule]) fun _ => True :=
    (simpleTimer_executes_when_due hrule hsorted hlt).2 fanRule_complete
  obtain ⟨runs, hout, -⟩ := hreturns.exists_outcome
  obtain ⟨hcalls, -, hcount⟩ :=
    (simpleTimer_executes_when_due hrule hsorted hlt).1 [fanRule] 0 rfl runs hout
  refine ⟨runs, hout, ?_, hcount ?_⟩
  · exact map_eq_of_forall₂ hcalls
  · intro t hlow hhigh
    have hlow : 2 ≤ t := hlow
    have hhigh : t ≤ 8 := hhigh
    have hseconds : eightPasses.map Prod.snd = [1, 2, 3, 4, 5, 6, 7, 8] := rfl
    rw [hseconds]
    simp only [List.mem_cons, List.not_mem_nil]
    omega

end IotDeviceSdk.DeviceRule
