import IotDeviceSdk.DeviceRule.Equiv.RuleExecution

/-!
# Which rules the timer pass and the report pass execute

The timer pass computes whether a timer of the rule fires and then overwrites the answer with the
value of all the conditions, so a data condition alone can make an `or` rule with a timer execute
second after second (`LevelTriggered`).  `RuleInfoHasTimer` looks at the first condition only, so a
rule with timers and data conditions belongs to the one pass or the other by their order.

* `timerPasses_edgeTriggered_iff`: a pass executes only rules of which a timer fires exactly when it
  meets no level-triggered rule.
* `orderIrrelevant_iff`: the order of the conditions does not matter exactly when the rule is not
  active, or has timers only, or none.
-/

namespace IotDeviceSdk.DeviceRule

open CJson Prog

variable {env : Env} {callback : GetPropertyValueCallBack} {epochTime : ℤ}

/-! ### The timer pass -/

/-- A rule the timer pass executes although none of its timers fires: its logic is not `and`, its
conditions can be evaluated and a data condition holds. -/
structure LevelTriggered (callback : GetPropertyValueCallBack) (epochTime : ℤ) (rule : RuleInfo) :
    Prop where
  due : due true epochTime rule = true
  quiet : ¬TimerFires epochTime rule
  logic : rule.logic ≠ some "and"
  evaluable : ∀ c ∈ rule.conditions, c ≠ .empty → Evaluable callback epochTime c
  holds : ∃ data, .deviceData data ∈ rule.conditions ∧
    dataVerdict callback data = some (some true)

/-- A rule that is due in the timer pass starts with a timer. -/
theorem exists_timer_of_due {rule : RuleInfo} (hdue : due true epochTime rule = true) :
    ∃ c ∈ rule.conditions, c.isTimer = true := by
  have hconsidered : considered true rule = true := (Bool.and_eq_true_iff.mp hdue).1
  have htimer : ruleInfoHasTimer rule = true := by
    simpa using (Bool.and_eq_true_iff.mp hconsidered).2
  unfold ruleInfoHasTimer at htimer
  cases hconditions : rule.conditions with
  | nil =>
    rw [hconditions] at htimer
    cases htimer
  | cons c conditions =>
    rw [hconditions] at htimer
    exact ⟨c, by simp, htimer⟩

theorem levelTriggered_iff {rule : RuleInfo} :
    LevelTriggered callback epochTime rule ↔
      due true epochTime rule = true ∧ Fulfilled callback epochTime rule ∧
        ¬TimerFires epochTime rule := by
  constructor
  · intro h
    refine ⟨h.due, ⟨h.evaluable, ?_⟩, h.quiet⟩
    rw [if_neg h.logic]
    obtain ⟨data, hdata, hholds⟩ := h.holds
    exact ⟨_, hdata, hholds⟩
  · rintro ⟨hdue, hfulfilled, hquiet⟩
    have hnot : ∀ c ∈ rule.conditions, Holds callback epochTime c → c.isTimer = false := by
      intro c hc hholds
      by_contra htimer
      exact hquiet ⟨c, hc, (firesAt_iff callback).mpr ⟨by simpa using htimer, hholds⟩⟩
    have hlogic : rule.logic ≠ some "and" := by
      intro hand
      -- the first condition is a timer that would have to hold
      have hall := hfulfilled.logic
      rw [if_pos hand] at hall
      obtain ⟨c, hc, htimer⟩ := exists_timer_of_due hdue
      have hknown : c ≠ .empty := by
        rintro rfl
        cases htimer
      rw [hnot c hc (hall c hc hknown)] at htimer
      cases htimer
    have hsome := hfulfilled.logic
    rw [if_neg hlogic] at hsome
    obtain ⟨c, hc, hholds⟩ := hsome
    refine ⟨hdue, hquiet, hlogic, hfulfilled.evaluable, ?_⟩
    have htimer := hnot c hc hholds
    cases c with
    | deviceData data => exact ⟨data, hc, hholds⟩
    | empty => cases hholds
    | simpleTimer data => cases htimer
    | dailyTimer data => cases htimer

/-- A timer pass: when it ran, what it read the properties with, the rules it found and what it did
to each of them. -/
structure TimerPass where
  epochTime : ℤ
  callback : GetPropertyValueCallBack
  found : List RuleInfo
  runs : List RuleRun

/-- The pass executes only rules of which a timer fires. -/
def TimerPass.EdgeTriggered (pass : TimerPass) : Prop :=
  List.Forall₂ (fun rule run => run.executed.isSome = true → TimerFires pass.epochTime rule)
    pass.found pass.runs

/-- Once-a-second passes from an instant and a list of rules on. -/
inductive TimerRun (env : Env) : ℤ → List RuleInfo → List TimerPass → Prop
  | nil {epochTime : ℤ} {list : List RuleInfo} : TimerRun env epochTime list []
  | cons {epochTime : ℤ} {callback : GetPropertyValueCallBack} {list : List RuleInfo}
    {runs : List RuleRun} {passes : List TimerPass}
    (hpass : Outcome env (checkRuleInfoListAndExecute list callback true epochTime) runs)
    (hrest : TimerRun env (epochTime + 1) (runs.map RuleRun.ruleItem) passes) :
    TimerRun env epochTime list (⟨epochTime, callback, list, runs⟩ :: passes)

/-- **One timer pass.** -/
theorem timerPass_edgeTriggered_iff {list : List RuleInfo} {runs : List RuleRun}
    (hpass : Outcome env (checkRuleInfoListAndExecute list callback true epochTime) runs) :
    ((∀ rule ∈ list, ¬LevelTriggered callback epochTime rule) →
      TimerPass.EdgeTriggered ⟨epochTime, callback, list, runs⟩) ∧
    (env.AllocsSucceed → TimerPass.EdgeTriggered ⟨epochTime, callback, list, runs⟩ →
      ∀ rule ∈ list, ¬LevelTriggered callback epochTime rule) := by
  -- the rules are independent of each other, so the pass is judged rule by rule
  have hrules := outcome_mapM hpass
  have hfollows : List.Forall₂ (RunFollows env callback true epochTime) list runs :=
    hrules.imp fun rule run h => checkRuleInfoAndExecute_follows true rule run h
  unfold TimerPass.EdgeTriggered
  dsimp only
  clear hpass hrules
  induction hfollows with
  | nil => exact ⟨fun _ => List.Forall₂.nil, by simp⟩
  | @cons rule run list runs hrule _ ih =>
    constructor
    · intro hnone
      refine List.Forall₂.cons (fun hexecuted => ?_) (ih.1 fun x hx => hnone x (by simp [hx]))
      by_contra hquiet
      exact hnone rule (by simp) (levelTriggered_iff.mpr
        ⟨hrule.due hexecuted, hrule.fulfilled hexecuted, hquiet⟩)
    · -- a level-triggered rule is due and fulfilled, so the pass does execute it
      intro hA hedge x hx hlevel
      rw [List.forall₂_cons] at hedge
      rcases List.mem_cons.mp hx with rfl | hx
      · obtain ⟨hdue, hfulfilled, hquiet⟩ := levelTriggered_iff.mp hlevel
        exact hquiet (hedge.1 (hrule.executed hA hdue hfulfilled))
      · exact ih.2 hA hedge.2 x hx hlevel

/-- **The timer pass is edge triggered** exactly when it meets no level-triggered rule: without one
it executes only rules of which a timer fires, and when no allocation fails, only then. -/
theorem timerPasses_edgeTriggered_iff {start : ℤ} {list : List RuleInfo} {passes : List TimerPass}
    (hrun : TimerRun env start list passes) :
    ∀ pass ∈ passes,
      ((∀ rule ∈ pass.found, ¬LevelTriggered pass.callback pass.epochTime rule) →
        pass.EdgeTriggered) ∧
      (env.AllocsSucceed → (pass.EdgeTriggered ↔
        ∀ rule ∈ pass.found, ¬LevelTriggered pass.callback pass.epochTime rule)) := by
  induction hrun with
  | nil => simp
  | cons hpass _ ih =>
    intro pass hmem
    rcases List.mem_cons.mp hmem with rfl | hmem
    · have hiff := timerPass_edgeTriggered_iff hpass
      exact ⟨hiff.1, fun hA => ⟨hiff.2 hA, hiff.1⟩⟩
    · exact ih pass hmem

/-- A timer that fires once, at second 0. -/
def fireOnce : Condition := .simpleTimer { startTime := 0, repeatInterval := 1, repeatCount := 1 }

/-- The temperature of the room is above 20. -/
def tooWarm : Condition :=
  .deviceData
    { operator := some ">"
      value := some "20"
      deviceInfo := { deviceId := some "d", path := some "room/temperature" } }

/-- An active rule without actions. -/
def bareRule (logic : String) (conditions : List Condition) : RuleInfo :=
  { ruleId := some "a"
    ruleName := some "fan"
    status := some "active"
    logic := some logic
    conditions := conditions }

/-- A cache in which every property is the same number. -/
def everywhere (i : ℤ) : GetPropertyValueCallBack := fun _ _ => some (.value (.int i))

/-- A rule whose conditions must all hold, or that has timers only, is not level triggered. -/
theorem not_levelTriggered {rule : RuleInfo}
    (h : (decide (rule.logic = some "and") || rule.conditions.all Condition.isTimer) = true) :
    ¬LevelTriggered callback epochTime rule := by
  intro hlevel
  rcases Bool.or_eq_true_iff.mp h with hand | htimers
  · exact hlevel.logic (of_decide_eq_true hand)
  · obtain ⟨data, hdata, -⟩ := hlevel.holds
    exact absurd (List.all_eq_true.mp htimers _ hdata) (by simp [Condition.isTimer])

/-- A rule with a timer and a data condition, and one with a timer only. -/
def mixedRules : List RuleInfo :=
  [bareRule "and" [fireOnce, tooWarm], bareRule "or" [fireOnce]]

/-- Two passes: the timer of both rules fires in the first one only. -/
theorem timerPasses_edgeTriggered_iff_twoPasses :
    ∃ passes, TimerRun Env.plentiful 0 mixedRules passes ∧
      passes.map (fun pass => pass.runs.map fun run => run.executed.isSome) =
        [[true, true], [false, false]] ∧
      ∀ pass ∈ passes, pass.EdgeTriggered := by
  have hruns : ((checkRuleInfoListAndExecute mixedRules (everywhere 25) true 0) Env.plentiful
      default).bind (fun r => ((checkRuleInfoListAndExecute (r.1.map RuleRun.ruleItem)
        (everywhere 25) true 1) Env.plentiful r.2).map fun r' =>
          decide (r.1.map (fun run => run.executed.isSome) = [true, true]) &&
            decide (r'.1.map (fun run => run.executed.isSome) = [false, false]) &&
            (r.1.map RuleRun.ruleItem).all fun rule =>
              decide (rule.logic = some "and") || rule.conditions.all Condition.isTimer) =
      some true := by
    decide +kernel
  obtain ⟨⟨runs, c⟩, hfirst, hrest⟩ := Option.bind_eq_some_iff.mp hruns
  obtain ⟨⟨runs', c'⟩, hsecond, hall⟩ := Option.map_eq_some_iff.mp hrest
  simp only [Bool.and_eq_true, decide_eq_true_eq] at hall
  obtain ⟨⟨hfired, hquiet⟩, hfound⟩ := hall
  have hpasses : TimerRun Env.plentiful 0 mixedRules
      [⟨0, everywhere 25, mixedRules, runs⟩,
        ⟨0 + 1, everywhere 25, runs.map RuleRun.ruleItem, runs'⟩] :=
    .cons ⟨_, _, hfirst⟩ (.cons ⟨_, _, hsecond⟩ .nil)
  refine ⟨_, hpasses, ?_, fun pass hmem => ?_⟩
  · rw [List.map_cons, List.map_cons, List.map_nil, hfired, hquiet]
  · refine (timerPasses_edgeTriggered_iff hpasses pass hmem).1 fun rule hrule => ?_
    rcases List.mem_cons.mp hmem with rfl | hmem
    · have hmixed : ∀ rule ∈ mixedRules, (decide (rule.logic = some "and") ||
          rule.conditions.all Condition.isTimer) = true := by decide
      exact not_levelTriggered (hmixed rule hrule)
    · obtain rfl := List.mem_singleton.mp hmem
      exact not_levelTriggered (List.all_eq_true.mp hfound rule hrule)

/-- A data condition alone executes a rule with a timer, seven seconds after the timer fired. -/
theorem warmRoom_executes_timer_rule :
    ¬∀ (env : Env) (list : List RuleInfo) (callback : GetPropertyValueCallBack) (epochTime : ℤ)
      (runs : List RuleRun), env.AllocsSucceed →
        Outcome env (checkRuleInfoListAndExecute list callback true epochTime) runs →
          List.Forall₂ (fun rule run => run.executed.isSome = true → TimerFires epochTime rule)
            list runs := by
  intro hclaim
  have hrun : ((checkRuleInfoListAndExecute [bareRule "or" [fireOnce, tooWarm]] (everywhere 25) true
      7) Env.plentiful default).map (fun r => r.1.map fun run => run.executed.isSome) =
        some [true] := by
    decide +kernel
  obtain ⟨⟨runs, c⟩, hpass, hexecuted⟩ := Option.map_eq_some_iff.mp hrun
  have hedge := hclaim Env.plentiful _ (everywhere 25) 7 runs Env.plentiful_allocsSucceed
    ⟨_, _, hpass⟩
  cases hedge with
  | @cons _ run _ runs hfires _ =>
    have hrule : run.executed.isSome = true := (List.cons.inj hexecuted).1
    obtain ⟨c, hc, hfires⟩ := hfires hrule
    -- the timer fired at second 0 and never again
    have hnone : ∀ c ∈ (bareRule "or" [fireOnce, tooWarm]).conditions, c.firesAt 7 = false := by
      intro c hc
      rcases List.mem_cons.mp hc with rfl | hc
      · decide +kernel
      · rw [List.mem_singleton.mp hc]
        rfl
    rw [hnone c hc] at hfires
    exact absurd hfires (by decide)

/-! ### The order of the conditions -/

/-- A pass over the rule executes it. -/
def ExecutedBy (env : Env) (callback : GetPropertyValueCallBack) (isTimerRule : Bool)
    (epochTime : ℤ) (rule : RuleInfo) : Prop :=
  ∃ run, Outcome env (checkRuleInfoAndExecute callback isTimerRule epochTime rule) run ∧
    run.executed.isSome = true

theorem constant_executeActionList (list : List Action) : Constant (executeActionList list) := by
  apply Constant.foldlM
  intro calls one
  apply (constant_strcmpEq _ _).bind
  intro isEnabled
  cases isEnabled with
  | false => exact constant_pure _
  | true =>
    apply (constant_strcmpEq _ _).bind
    intro isCommand
    cases isCommand with
    | false => exact constant_pure _
    | true => exact constant_pure _

/-- When no allocation fails, a rule with conditions of the known types is executed exactly when it
is due and fulfilled, and its logic and its actions can be read. -/
theorem executedBy_iff {isTimerRule : Bool} {rule : RuleInfo} (hA : env.AllocsSucceed)
    (hknown : ∀ c ∈ rule.conditions, c ≠ .empty) :
    ExecutedBy env callback isTimerRule epochTime rule ↔
      due isTimerRule epochTime rule = true ∧ Fulfilled callback epochTime rule ∧
        rule.logic.isSome ∧ ∃ calls, Outcome env (executeActionList rule.actions) calls := by
  constructor
  · rintro ⟨run, hout, hexecuted⟩
    have hfollows := checkRuleInfoAndExecute_follows isTimerRule rule run hout
    exact ⟨hfollows.due hexecuted, hfollows.fulfilled hexecuted, hfollows.logic hexecuted,
      hfollows.calls hexecuted⟩
  · -- conversely the pass has to be shown to return before its outcome can be looked at
    rintro ⟨hdue, hfulfilled, hlogic, calls, hcalls⟩
    have hstatus : rule.status.isSome := by
      have hconsidered : considered isTimerRule rule = true := (Bool.and_eq_true_iff.mp hdue).1
      have hactive := (Bool.and_eq_true_iff.mp hconsidered).1
      rw [of_decide_eq_true hactive]
      rfl
    have hdefined : ∀ c ∈ rule.conditions, conditionVerdict callback epochTime c ≠ none := by
      intro c hc
      obtain ⟨b, hb⟩ := hfulfilled.evaluable c hc (hknown c hc)
      rw [hb]
      simp
    have hactions : Returns env (executeActionList rule.actions) fun _ => True :=
      ((constant_executeActionList _).returns hcalls).mono fun _ _ => trivial
    have hreturns : Returns env (checkRuleInfoAndExecute callback isTimerRule epochTime rule)
        fun _ => True := checkRuleInfoAndExecute_returns hstatus hlogic hdefined hactions
    obtain ⟨run, hout, -⟩ := hreturns.exists_outcome
    have hfollows := checkRuleInfoAndExecute_follows isTimerRule rule run hout
    exact ⟨run, hout, hfollows.executed hA hdue hfulfilled⟩

/-- Permuting the conditions of a rule changes neither which pass executes it, nor that it belongs
to the timer pass when it has a timer and to the report pass when it has none. -/
def OrderIrrelevant (env : Env) (callback : GetPropertyValueCallBack) (epochTime : ℤ)
    (rule : RuleInfo) : Prop :=
  ∀ conditions : List Condition, conditions.Perm rule.conditions →
    (∀ isTimerRule, ExecutedBy env callback isTimerRule epochTime
        { rule with conditions := conditions } ↔
      ExecutedBy env callback isTimerRule epochTime rule) ∧
    (rule.status = some "active" →
      (considered true { rule with conditions := conditions } = true ↔
        ∃ c ∈ rule.conditions, c.isTimer = true) ∧
      (considered false { rule with conditions := conditions } = true ↔
        ∀ c ∈ rule.conditions, c.isTimer = false))

theorem Fulfilled.perm {rule : RuleInfo} {conditions : List Condition}
    (hperm : conditions.Perm rule.conditions) :
    Fulfilled callback epochTime { rule with conditions := conditions } ↔
      Fulfilled callback epochTime rule := by
  have hmem : ∀ c, c ∈ conditions ↔ c ∈ rule.conditions := fun c => hperm.mem_iff
  constructor
  · intro h
    refine ⟨fun c hc => h.evaluable c ((hmem c).mpr hc), ?_⟩
    have hlogic := h.logic
    simpa only [hmem] using hlogic
  · intro h
    refine ⟨fun c hc => h.evaluable c ((hmem c).mp hc), ?_⟩
    have hlogic := h.logic
    simpa only [hmem] using hlogic

/-- The conditions are all timers, or none of them is. -/
def Uniform (conditions : List Condition) : Prop :=
  (∀ c ∈ conditions, c.isTimer = true) ∨ ∀ c ∈ conditions, c.isTimer = false

/-- On a uniform rule the first condition tells whether there is a timer. -/
theorem ruleInfoHasTimer_iff {rule : RuleInfo} (huniform : Uniform rule.conditions) :
    ruleInfoHasTimer rule = true ↔ ∃ c ∈ rule.conditions, c.isTimer = true := by
  unfold ruleInfoHasTimer
  cases hconditions : rule.conditions with
  | nil => simp
  | cons c conditions =>
    rw [hconditions] at huniform
    dsimp only
    constructor
    · intro htimer
      exact ⟨c, by simp, htimer⟩
    · rintro ⟨x, hx, htimer⟩
      rcases huniform with hall | hnone
      · exact hall c (by simp)
      · rw [hnone x hx] at htimer
        cases htimer

/-- On a uniform rule both passes consider every order alike. -/
theorem considered_perm {rule : RuleInfo} {conditions : List Condition}
    (hperm : conditions.Perm rule.conditions)
    (h : rule.status ≠ some "active" ∨ Uniform rule.conditions) (isTimerRule : Bool) :
    considered isTimerRule { rule with conditions := conditions } =
      considered isTimerRule rule := by
  rcases h with hinactive | huniform
  · simp [considered, hinactive]
  · have huniform' : Uniform ({ rule with conditions := conditions } : RuleInfo).conditions :=
      huniform.imp (fun hall c hc => hall c (hperm.mem_iff.mp hc))
        fun hnone c hc => hnone c (hperm.mem_iff.mp hc)
    have hsame : ruleInfoHasTimer { rule with conditions := conditions } =
        ruleInfoHasTimer rule := by
      rw [Bool.eq_iff_iff, ruleInfoHasTimer_iff huniform, ruleInfoHasTimer_iff huniform']
      simp only [hperm.mem_iff]
    unfold considered
    rw [hsame]

/-- A rule that is active and not uniform is considered by the wrong pass in some order. -/
theorem OrderIrrelevant.uniform {rule : RuleInfo}
    (h : OrderIrrelevant env callback epochTime rule) (hactive : rule.status = some "active") :
    Uniform rule.conditions := by
  by_contra hmixed
  unfold Uniform at hmixed
  push Not at hmixed
  obtain ⟨⟨c, hc, hdata⟩, d, hd, htimer⟩ := hmixed
  obtain ⟨before, after, hsplit⟩ := List.append_of_mem hc
  -- the condition that is no timer goes first
  have hperm : (c :: (before ++ after)).Perm rule.conditions := by
    rw [hsplit]
    exact List.perm_middle.symm
  have hiff := ((h _ hperm).2 hactive).1
  have hconsidered := hiff.mpr ⟨d, hd, by simpa using htimer⟩
  have hfirst : c.isTimer = true := by
    simpa [considered, ruleInfoHasTimer] using (Bool.and_eq_true_iff.mp hconsidered).2
  exact hdata hfirst

/-- **Condition order does not matter** exactly when the rule is not active, or all its conditions
are timers, or none is. -/
theorem orderIrrelevant_iff {rule : RuleInfo} (hA : env.AllocsSucceed)
    (hknown : ∀ c ∈ rule.conditions, c ≠ .empty) :
    OrderIrrelevant env callback epochTime rule ↔
      rule.status ≠ some "active" ∨ (∀ c ∈ rule.conditions, c.isTimer = true) ∨
        ∀ c ∈ rule.conditions, c.isTimer = false := by
  constructor
  · intro h
    by_cases hactive : rule.status = some "active"
    · exact Or.inr (h.uniform hactive)
    · exact Or.inl hactive
  · intro h conditions hperm
    have hconsidered := considered_perm hperm h
    refine ⟨fun isTimerRule => ?_, fun hactive => ?_⟩
    · have hknown' : ∀ c ∈ ({ rule with conditions := conditions } : RuleInfo).conditions,
          c ≠ .empty := fun c hc => hknown c (hperm.mem_iff.mp hc)
      have hdue : due isTimerRule epochTime { rule with conditions := conditions } =
          due isTimerRule epochTime rule := by
        unfold due
        rw [hconsidered]
      rw [executedBy_iff hA hknown, executedBy_iff hA hknown', hdue, Fulfilled.perm hperm]
    · -- an active rule is uniform, so its first condition speaks for all of them
      have huniform : Uniform rule.conditions := h.resolve_left (not_not_intro hactive)
      have htimer := ruleInfoHasTimer_iff huniform
      have hpass : ∀ isTimerRule, considered isTimerRule rule = true ↔
          ruleInfoHasTimer rule = isTimerRule := by
        intro isTimerRule
        simp [considered, hactive]
      rw [hconsidered, hconsidered, hpass, hpass]
      refine ⟨htimer, ?_⟩
      rw [← Bool.not_eq_true, htimer]
      push Not
      simp only [ne_eq, Bool.not_eq_true]

/-- A timer that fires in every second from 10 to 12. -/
def fireLater : Condition := .simpleTimer { startTime := 10, repeatInterval := 1, repeatCount := 3 }

theorem orderIrrelevant_iff_twoTimers :
    OrderIrrelevant Env.plentiful (everywhere 25) 0 (bareRule "or" [fireOnce, fireLater]) := by
  have htimers : ∀ c ∈ [fireOnce, fireLater], c.isTimer = true := by decide
  have hknown : ∀ c ∈ (bareRule "or" [fireOnce, fireLater]).conditions, c ≠ .empty := by
    rintro c hc rfl
    exact absurd (htimers _ hc) (by decide)
  exact (orderIrrelevant_iff Env.plentiful_allocsSucceed hknown).mpr (Or.inr (Or.inl htimers))

/-- With the timer first the timer pass executes the rule, with the data condition first it does
not. -/
theorem dataFirst_not_executed_by_timer_pass :
    ¬∀ (env : Env) (rule : RuleInfo) (conditions : List Condition)
      (callback : GetPropertyValueCallBack) (epochTime : ℤ), env.AllocsSucceed →
        conditions.Perm rule.conditions →
          (∀ c ∈ rule.conditions, Evaluable callback epochTime c) →
            (ExecutedBy env callback true epochTime { rule with conditions := conditions } ↔
              ExecutedBy env callback true epochTime rule) := by
  intro hclaim
  have hfires : conditionVerdict (everywhere 25) 0 fireOnce = some (some true) := by decide +kernel
  have hwarm : conditionVerdict (everywhere 25) 0 tooWarm = some (some true) := by decide +kernel
  have hevaluable : ∀ c ∈ (bareRule "or" [fireOnce, tooWarm]).conditions,
      Evaluable (everywhere 25) 0 c := by
    intro c hc
    rcases List.mem_cons.mp hc with rfl | hc
    · exact ⟨true, hfires⟩
    · rw [List.mem_singleton.mp hc]
      exact ⟨true, hwarm⟩
  have hrun : ((checkRuleInfoAndExecute (everywhere 25) true 0 (bareRule "or" [fireOnce, tooWarm]))
      Env.plentiful default).map (fun r => r.1.executed.isSome) = some true := by
    decide +kernel
  obtain ⟨⟨run, c⟩, hout, hexecuted⟩ := Option.map_eq_some_iff.mp hrun
  -- by `hclaim` the permuted rule is executed too, but the timer pass does not consider it
  have hiff := hclaim Env.plentiful (bareRule "or" [fireOnce, tooWarm]) [tooWarm, fireOnce]
    (everywhere 25) 0 Env.plentiful_allocsSucceed (List.Perm.swap _ _ _) hevaluable
  obtain ⟨run', hout', hexecuted'⟩ := hiff.mpr ⟨run, ⟨_, _, hout⟩, hexecuted⟩
  have hdue := (checkRuleInfoAndExecute_follows true _ run' hout').due hexecuted'
  have hnot : due true 0 (bareRule "or" [tooWarm, fireOnce]) = false := by decide +kernel
  exact absurd (hdue.symm.trans hnot) (by decide)

/-! ### Complete rules -/

/-- Everything the passes read of a rule is there. -/
structure RuleInfo.Complete (rule : RuleInfo) : Prop where
  status : rule.status.isSome
  logic : rule.logic.isSome
  conditions : ∀ c ∈ rule.conditions, c.Complete
  actions : ∀ a ∈ rule.actions, a.Complete

/-- The rules of the store are complete. -/
theorem RuleInfo.WellFormed.complete {rule : RuleInfo} (h : rule.WellFormed) : rule.Complete :=
  ⟨h.status, h.logic, fun c hc => (h.conditions c hc).1, fun a ha => (h.actions a ha).1⟩

theorem executeActionList_returns {list : List Action} (hlist : ∀ a ∈ list, a.Complete) :
    Returns env (executeActionList list) fun _ => True := by
  apply Returns.foldlM trivial
  intro one hone calls _
  obtain ⟨status, hstatus⟩ := Option.isSome_iff_exists.mp (hlist one hone).status
  obtain ⟨type, htype⟩ := Option.isSome_iff_exists.mp (hlist one hone).type
  rw [hstatus, htype]
  -- with both strings there, a comparison is defined
  have hcompare : ∀ s t : String, Returns env (strcmpEq (some s) (some t)) fun _ => True :=
    fun s t => returns_pure trivial
  apply (hcompare status "enable").bind
  intro isEnabled _
  cases isEnabled with
  | false => exact returns_pure trivial
  | true =>
    apply (hcompare type "DEVICE_CMD").bind
    intro isCommand _
    cases isCommand with
    | false => exact returns_pure trivial
    | true => exact returns_pure trivial

end IotDeviceSdk.DeviceRule
