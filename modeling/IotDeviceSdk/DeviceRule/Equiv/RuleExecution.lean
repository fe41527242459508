import IotDeviceSdk.DeviceRule.Equiv.RuleParser
import IotDeviceSdk.DeviceRule.RuleExecution

/-!
# When a pass executes a rule

`conditionVerdict` is what a condition says on its own: undefined, cannot be evaluated, or a truth
value.  The loop over the conditions combines the verdicts (`conditionsLoop_yields`, with `Combined`
of the conditions seen so far as its invariant).

`checkRuleInfoAndExecute_follows` puts a pass over a rule together: the rule is executed when it is
due and its conditions are fulfilled, and an allocation that fails can only keep it from being
executed.
-/

namespace IotDeviceSdk.DeviceRule

open CJson Prog

variable {env : Env} {callback : GetPropertyValueCallBack} {epochTime : ℤ}

/-! ### Data conditions -/

/-- The program has the value it has when no allocation fails, or it failed for want of memory. -/
def SameUnlessStarved {β : Type} (p : Sdk (Option β)) : Prop :=
  ∀ (env : Env) (c : Cursor), (p env c).map Prod.fst = (p Env.plentiful default).map Prod.fst ∨
    ¬env.AllocsSucceed ∧ (p env c).map Prod.fst = some none

theorem constant_strcmpEq (s t : Option String) : Constant (strcmpEq s t) := by
  cases s with
  | none => exact constant_undefined
  | some s =>
    cases t with
    | none => exact constant_undefined
    | some t => exact constant_pure _

theorem constant_strToPropertyValue (value : Option String) (type : PropertyValueDataType) :
    Constant (strToPropertyValue value type) := by
  cases value with
  | none => exact constant_undefined
  | some value =>
    unfold strToPropertyValue
    cases type with
    | int =>
      dsimp only
      split
      · exact constant_pure _
      · split
        · exact constant_undefined
        · exact constant_pure _
    | double =>
      dsimp only
      split
      · exact constant_pure _
      · exact constant_pure _
    | cstr => exact constant_pure _

/-- With a slash in the path, the callback is asked when there is memory for the service name. -/
theorem getPropertyValueByPath_apply {path : String} {c : Cursor}
    (hslash : path.toList.length ≠ (path.toList.takeWhile (· ≠ '/')).length) :
    getPropertyValueByPath (some path) callback env c =
      (if env.mallocs c.malloc then
        ofOption (callback (String.ofList (path.toList.takeWhile (· ≠ '/')))
          (String.ofList (path.toList.drop ((path.toList.takeWhile (· ≠ '/')).length + 1))))
      else pure .failed : Sdk PropertyRead) env { c with malloc := c.malloc + 1 } := by
  unfold getPropertyValueByPath
  dsimp only
  rw [if_neg hslash, bind_apply, malloc, Option.bind_some]
  dsimp only
  cases env.mallocs c.malloc <;> rfl

/-- Reading a property and going on with it: only the copy of the service name needs memory. -/
theorem sameUnlessStarved_read {β : Type} {path : Option String}
    {f : PropertyRead → Sdk (Option β)} (hfailed : f .failed = pure none)
    (hf : ∀ read, Constant (f read)) :
    SameUnlessStarved (getPropertyValueByPath path callback >>= f) := by
  intro env c
  cases path with
  | none => exact Or.inl rfl
  | some path =>
    by_cases hslash : path.toList.length = (path.toList.takeWhile (· ≠ '/')).length
    · -- without a slash the path is refused before memory is asked for
      have hread : getPropertyValueByPath (some path) callback = pure .failed := if_pos hslash
      rw [hread, pure_bind]
      exact Or.inl ((hf .failed).value_eq _ _ _ _)
    · rw [bind_apply, bind_apply, getPropertyValueByPath_apply hslash,
        getPropertyValueByPath_apply hslash]
      cases hmalloc : env.mallocs c.malloc with
      | false =>
        right
        constructor
        · intro hA
          rw [hA] at hmalloc
          exact absurd hmalloc (by decide)
        · rw [if_neg (by decide), pure_apply, Option.bind_some, hfailed]
          rfl
      | true =>
        -- from here on the cursors differ, but nothing reads them any more
        left
        exact ((constant_ofOption _).bind hf).value_eq _ _ _ _

theorem sameUnlessStarved_range (condition : DeviceDataCondition) :
    SameUnlessStarved (calculateDeviceDataRangeCodition condition callback) := by
  apply sameUnlessStarved_read
  · rfl
  · intro read
    cases read with
    | failed => exact constant_pure _
    | unwritten =>
      -- the boundaries are parsed before the property is looked at
      dsimp only
      split
      · exact constant_undefined
      · split
        · exact constant_pure _
        · exact constant_undefined
    | value v =>
      dsimp only
      split
      · exact constant_undefined
      · split
        · exact constant_pure _
        · cases v with
          | int i => exact constant_pure _
          | double d => exact constant_pure _
          | cstr cstr => exact constant_pure _

theorem sameUnlessStarved_compare (condition : DeviceDataCondition) :
    SameUnlessStarved (calculateDeviceDataCompareCodition condition callback) := by
  apply sameUnlessStarved_read
  · rfl
  · intro read
    cases read with
    | failed => exact constant_pure _
    | unwritten => exact constant_undefined
    | value valRead =>
      apply (constant_strToPropertyValue _ _).bind
      intro valExpected
      cases valExpected with
      | none => exact constant_pure _
      | some valExpected =>
        -- the types are compared before the operator is read
        dsimp only
        split
        · exact constant_pure _
        · split
          · exact constant_undefined
          · exact constant_pure _

/-- **`CalculateDeviceDataCondition`** depends on its environment for memory only. -/
theorem sameUnlessStarved_data (condition : DeviceDataCondition) :
    SameUnlessStarved (calculateDeviceDataCondition condition callback) := by
  intro env c
  unfold calculateDeviceDataCondition
  obtain ⟨o, ho⟩ := constant_strcmpEq condition.operator "between"
  rw [ho]
  cases o with
  | none => exact Or.inl rfl
  | some isBetween =>
    cases isBetween with
    | true => exact sameUnlessStarved_range condition env c
    | false => exact sameUnlessStarved_compare condition env c

/-- What a data condition says: `none` is undefined, `some none` that it cannot be evaluated. -/
def dataVerdict (callback : GetPropertyValueCallBack) (condition : DeviceDataCondition) :
    Option (Option Bool) :=
  ((calculateDeviceDataCondition condition callback) Env.plentiful default).map Prod.fst

theorem calculateDeviceDataCondition_yields (condition : DeviceDataCondition) :
    Yields env (calculateDeviceDataCondition condition callback) fun r =>
      dataVerdict callback condition = some r ∨ ¬env.AllocsSucceed ∧ r = none := by
  rintro r ⟨c, c', hrun⟩
  rcases sameUnlessStarved_data condition env c with hsame | ⟨hA, hnone⟩
  · rw [hrun] at hsame
    exact Or.inl hsame.symm
  · rw [hrun] at hnone
    exact Or.inr ⟨hA, Option.some.inj hnone⟩

theorem calculateDeviceDataCondition_returns {condition : DeviceDataCondition}
    (hdefined : dataVerdict callback condition ≠ none) :
    Returns env (calculateDeviceDataCondition condition callback) fun _ => True := by
  intro c
  have hsome : ((calculateDeviceDataCondition condition callback) env c).map Prod.fst ≠ none := by
    rcases sameUnlessStarved_data condition env c with hsame | ⟨-, hnone⟩
    · rw [hsame]
      exact hdefined
    · rw [hnone]
      simp
  obtain ⟨r, hr⟩ := Option.ne_none_iff_exists'.mp hsome
  obtain ⟨⟨a, c'⟩, hrun, -⟩ := Option.map_eq_some_iff.mp hr
  exact ⟨a, c', hrun, trivial⟩

/-! ### The conditions of a rule -/

/-- What a condition says at an instant: `none` is undefined, `some none` that it cannot be
evaluated. -/
def conditionVerdict (callback : GetPropertyValueCallBack) (epochTime : ℤ) :
    Condition → Option (Option Bool)
  | .deviceData data => dataVerdict callback data
  | .simpleTimer data => (calculateSimpleTimerCondition data epochTime).map some
  | .dailyTimer data => some (some (calculateDailyTimerCondition data epochTime))
  | .empty => none

/-- The condition can be evaluated. -/
abbrev Evaluable (callback : GetPropertyValueCallBack) (epochTime : ℤ) (c : Condition) : Prop :=
  ∃ b, conditionVerdict callback epochTime c = some (some b)

/-- The condition holds; one that cannot be evaluated does not. -/
abbrev Holds (callback : GetPropertyValueCallBack) (epochTime : ℤ) (c : Condition) : Prop :=
  conditionVerdict callback epochTime c = some (some true)

/-- What one round of `CalculateConditions` does to the result: it takes the truth value of the
condition in, ignores an unknown condition, or gives up on a data condition. -/
inductive ConditionOutcome (env : Env) (callback : GetPropertyValueCallBack) (epochTime : ℤ)
    (isLogicAnd : Bool) (c : Condition) (result : Bool) : ForInStep Bool → Prop
  | evaluated {b : Bool} (h : conditionVerdict callback epochTime c = some (some b)) :
    ConditionOutcome env callback epochTime isLogicAnd c result
      (.yield (combine isLogicAnd result b))
  | ignored (h : c = .empty) :
    ConditionOutcome env callback epochTime isLogicAnd c result (.yield result)
  | failed {data : DeviceDataCondition} (hc : c = .deviceData data)
    (h : env.AllocsSucceed → dataVerdict callback data = some none) :
    ConditionOutcome env callback epochTime isLogicAnd c result (.done result)

/-- **One round of `CalculateConditions`.** -/
theorem calculateConditionsStep_yields (isLogicAnd : Bool) (c : Condition) (result : Bool) :
    Yields env (calculateConditionsStep isLogicAnd callback epochTime c result)
      (ConditionOutcome env callback epochTime isLogicAnd c result) := by
  cases c with
  | empty =>
    unfold calculateConditionsStep
    dsimp only
    split
    · exact yields_undefined
    · exact yields_pure (.ignored rfl)
  | deviceData data =>
    refine (calculateDeviceDataCondition_yields data).bind fun r hr => ?_
    cases r with
    | none =>
      -- given up: by the verdict, or for want of memory
      refine yields_pure (.failed rfl fun hA => ?_)
      rcases hr with hverdict | ⟨hstarved, -⟩
      · exact hverdict
      · exact absurd hA hstarved
    | some b =>
      rcases hr with hverdict | ⟨-, hnone⟩
      · exact yields_pure (.evaluated hverdict)
      · cases hnone
  | simpleTimer data =>
    refine (ofOption_yields _).bind fun b hb => yields_pure (.evaluated ?_)
    rw [conditionVerdict, hb, Option.map_some]
  | dailyTimer data => exact yields_pure (.evaluated rfl)

theorem calculateConditionsStep_returns {isLogicAnd : Bool} {c : Condition} {result : Bool}
    (hdefined : conditionVerdict callback epochTime c ≠ none) :
    Returns env (calculateConditionsStep isLogicAnd callback epochTime c result)
      fun _ => True := by
  cases c with
  | empty => exact absurd rfl hdefined
  | deviceData data =>
    apply (calculateDeviceDataCondition_returns hdefined).bind
    intro r _
    cases r with
    | none => exact returns_pure trivial
    | some b => exact returns_pure trivial
  | simpleTimer data =>
    have htimer : calculateSimpleTimerCondition data epochTime ≠ none := by
      simpa [conditionVerdict] using hdefined
    exact (ofOption_returns htimer).bind fun _ _ => returns_pure trivial
  | dailyTimer data => exact returns_pure trivial

/-- The conditions are combined to the result: every known one has a truth value, and the result is
their conjunction or their disjunction. -/
structure Combined (callback : GetPropertyValueCallBack) (epochTime : ℤ) (isLogicAnd : Bool)
    (conditions : List Condition) (result : Bool) : Prop where
  evaluable : ∀ c ∈ conditions, c ≠ .empty → Evaluable callback epochTime c
  result_iff : result = true ↔ if isLogicAnd then
      ∀ c ∈ conditions, c ≠ .empty → Holds callback epochTime c
    else ∃ c ∈ conditions, Holds callback epochTime c

theorem combined_nil (isLogicAnd : Bool) :
    Combined callback epochTime isLogicAnd [] isLogicAnd := by
  constructor
  · simp
  · cases isLogicAnd <;> simp

theorem Combined.ignore {isLogicAnd result : Bool} {seen : List Condition}
    (h : Combined callback epochTime isLogicAnd seen result) :
    Combined callback epochTime isLogicAnd (seen ++ [.empty]) result := by
  constructor
  · intro c hc hne
    rcases List.mem_append.mp hc with hc | hc
    · exact h.evaluable c hc hne
    · exact absurd (List.mem_singleton.mp hc) hne
  · rw [h.result_iff]
    cases isLogicAnd with
    | true => simp [or_imp, forall_and]
    | false => simp [or_and_right, exists_or, Holds, conditionVerdict]

theorem Combined.take {isLogicAnd result b : Bool} {seen : List Condition} {c : Condition}
    (h : Combined callback epochTime isLogicAnd seen result)
    (hb : conditionVerdict callback epochTime c = some (some b)) :
    Combined callback epochTime isLogicAnd (seen ++ [c]) (combine isLogicAnd result b) := by
  have hholds : Holds callback epochTime c ↔ b = true := by simp [Holds, hb]
  have hknown : c ≠ .empty := by
    rintro rfl
    cases hb
  constructor
  · intro x hx hne
    rcases List.mem_append.mp hx with hx | hx
    · exact h.evaluable x hx hne
    · rw [List.mem_singleton.mp hx]
      exact ⟨b, hb⟩
  · -- the last condition splits off the quantifier, as `combine` splits off its truth value
    have hresult := h.result_iff
    cases isLogicAnd with
    | true =>
      simp only [if_true] at hresult ⊢
      rw [combine, if_pos rfl, Bool.and_eq_true, hresult, ← hholds]
      simp [or_imp, forall_and, hknown]
    | false =>
      simp only [Bool.false_eq_true, if_false] at hresult ⊢
      rw [combine, if_neg (by decide), Bool.or_eq_true, hresult, ← hholds]
      simp [or_and_right, exists_or]

/-- **The loop of `CalculateConditions`**, by induction on the conditions seen so far. -/
theorem conditionsLoop_yields (isLogicAnd : Bool) (conditions : List Condition) :
    Yields env
      (Prog.forEach (calculateConditionsStep isLogicAnd callback epochTime) conditions isLogicAnd)
      (OnStep (Combined callback epochTime isLogicAnd conditions) fun _ =>
        ∃ data, .deviceData data ∈ conditions ∧
          (env.AllocsSucceed → dataVerdict callback data = some none)) := by
  refine Yields.forEach_seen (combined_nil isLogicAnd) fun seen c hc result hseen => ?_
  refine (calculateConditionsStep_yields isLogicAnd c result).mono fun r hr => ?_
  cases hr with
  | evaluated h => exact hseen.take h
  | ignored h =>
    subst h
    exact hseen.ignore
  | failed hdata h =>
    subst hdata
    exact ⟨_, hc, h⟩

theorem conditionsLoop_returns {isLogicAnd : Bool} {conditions : List Condition}
    (hdefined : ∀ c ∈ conditions, conditionVerdict callback epochTime c ≠ none) :
    Returns env
      (Prog.forEach (calculateConditionsStep isLogicAnd callback epochTime) conditions isLogicAnd)
      fun _ => True := by
  have hloop : Returns env
      (Prog.forEach (calculateConditionsStep isLogicAnd callback epochTime) conditions isLogicAnd)
      (OnStep (fun _ => True) fun _ => True) := by
    apply Returns.forEach trivial
    intro c hc result _
    apply (calculateConditionsStep_returns (hdefined c hc)).mono
    intro r _
    cases r <;> trivial
  exact hloop.mono fun _ _ => trivial

/-! ### The timers of a rule -/

/-- The condition is a timer that fires at the instant. -/
def Condition.firesAt (epochTime : ℤ) : Condition → Bool
  | .simpleTimer data => calculateSimpleTimerCondition data epochTime == some true
  | .dailyTimer data => calculateDailyTimerCondition data epochTime
  | _ => false

/-- A timer of the rule fires at the instant. -/
def TimerFires (epochTime : ℤ) (rule : RuleInfo) : Prop :=
  ∃ c ∈ rule.conditions, c.firesAt epochTime = true

theorem firesAt_iff (callback : GetPropertyValueCallBack) {c : Condition} :
    c.firesAt epochTime = true ↔ c.isTimer = true ∧ Holds callback epochTime c := by
  cases c with
  | simpleTimer data => simp [Condition.firesAt, Condition.isTimer, Holds, conditionVerdict]
  | dailyTimer data => simp [Condition.firesAt, Condition.isTimer, Holds, conditionVerdict]
  | deviceData data => simp [Condition.firesAt, Condition.isTimer]
  | empty => simp [Condition.firesAt, Condition.isTimer]

/-- **`IsTriggeredByTimer`** tells whether a timer fires. -/
theorem isTriggeredByTimer_yields (rule : RuleInfo) :
    Yields env (isTriggeredByTimer rule epochTime) fun result =>
      result = true ↔ TimerFires epochTime rule := by
  have hloop : Yields env
      (Prog.forEach (isTriggeredByTimerStep epochTime) rule.conditions false)
      (OnStep (fun result => result = false ∧ ∀ c ∈ rule.conditions, c.firesAt epochTime = false)
        fun result => result = true ∧ TimerFires epochTime rule) := by
    have hnone : false = false ∧ ∀ c ∈ ([] : List Condition), c.firesAt epochTime = false := by simp
    refine Yields.forEach_seen (I := fun (seen : List Condition) result =>
      result = false ∧ ∀ c ∈ seen, c.firesAt epochTime = false) hnone
      fun seen c hc result hseen => ?_
    -- a timer that does not fire, and every other condition
    have hnext : c.firesAt epochTime = false →
        false = false ∧ ∀ x ∈ seen ++ [c], x.firesAt epochTime = false := by
      intro hquiet
      refine ⟨rfl, fun x hx => ?_⟩
      rcases List.mem_append.mp hx with hx | hx
      · exact hseen.2 x hx
      · rw [List.mem_singleton.mp hx]
        exact hquiet
    obtain ⟨rfl, -⟩ := hseen
    cases c with
    | empty => exact yields_pure (hnext rfl)
    | deviceData data => exact yields_pure (hnext rfl)
    | simpleTimer data =>
      refine (ofOption_yields _).bind fun fires hfires => ?_
      cases fires with
      | true =>
        refine yields_pure ⟨rfl, _, hc, ?_⟩
        simp [Condition.firesAt, hfires]
      | false =>
        refine yields_pure (hnext ?_)
        simp [Condition.firesAt, hfires]
    | dailyTimer data =>
      unfold isTriggeredByTimerStep
      dsimp only
      cases hfires : calculateDailyTimerCondition data epochTime with
      | true => exact yields_pure ⟨rfl, _, hc, hfires⟩
      | false => exact yields_pure (hnext hfires)
  refine hloop.bind fun step hstep => yields_pure ?_
  cases step with
  | done result => exact ⟨fun _ => hstep.2, fun _ => hstep.1⟩
  | yield result =>
    obtain ⟨rfl, hquiet⟩ := hstep
    refine ⟨fun h => absurd h (by decide), ?_⟩
    rintro ⟨c, hc, hfires⟩
    rw [hquiet c hc] at hfires
    exact absurd hfires (by decide)

theorem isTriggeredByTimer_returns {rule : RuleInfo}
    (hdefined : ∀ c ∈ rule.conditions, conditionVerdict callback epochTime c ≠ none) :
    Returns env (isTriggeredByTimer rule epochTime) fun _ => True := by
  have hloop : Returns env
      (Prog.forEach (isTriggeredByTimerStep epochTime) rule.conditions false)
      (OnStep (fun _ => True) fun _ => True) := by
    apply Returns.forEach trivial
    intro c hc result _
    -- both kinds of timer end in the same choice
    have hstep : ∀ b : Bool, Returns env
        (if b then pure (.done b) else pure (.yield b) : Sdk (ForInStep Bool))
        (OnStep (fun _ => True) fun _ => True) := by
      intro b
      cases b with
      | true => exact returns_pure trivial
      | false => exact returns_pure trivial
    cases c with
    | empty => exact returns_pure trivial
    | deviceData data => exact returns_pure trivial
    | simpleTimer data =>
      have htimer : calculateSimpleTimerCondition data epochTime ≠ none := by
        simpa [conditionVerdict] using hdefined _ hc
      exact (ofOption_returns htimer).bind fun fires _ => hstep fires
    | dailyTimer data => exact hstep _
  exact hloop.bind fun _ _ => returns_pure trivial

/-! ### The actions of a rule -/

/-- The action is an enabled command. -/
def Action.isEnabledCommand (one : Action) : Bool :=
  one.status = some "enable" && one.type = some "DEVICE_CMD"

/-- The commands of the enabled actions, in their order. -/
def enabledCommands (list : List Action) : List (Option String × Command) :=
  (list.filter Action.isEnabledCommand).map fun one => (one.deviceId, one.command)

theorem foldl_enabledCommands (list : List Action) (calls : List (Option String × Command)) :
    list.foldl (fun calls one => if one.isEnabledCommand then
      calls ++ [(one.deviceId, one.command)] else calls) calls = calls ++ enabledCommands list := by
  induction list generalizing calls with
  | nil => exact (List.append_nil _).symm
  | cons one list ih =>
    rw [List.foldl_cons, ih]
    unfold enabledCommands
    rw [List.filter_cons]
    split
    · rw [List.map_cons, List.append_assoc, List.singleton_append]
    · rfl

/-- **`ExecuteActionList`** calls the callback with the enabled commands. -/
theorem executeActionList_yields (list : List Action) :
    Yields env (executeActionList list) fun calls => calls = enabledCommands list := by
  refine (Yields.foldlM_eq (I := fun _ => True) trivial fun one _ calls _ => ⟨trivial, ?_⟩).mono
    fun calls hcalls => hcalls.trans (foldl_enabledCommands list [])
  refine (strcmpEq_yields one.status "enable").bind fun isEnabled henabled => ?_
  obtain ⟨status, _, hstatus, ⟨⟩, rfl⟩ := henabled
  rw [Action.isEnabledCommand, hstatus]
  by_cases henable : status = "enable"
  · subst henable
    simp only [beq_self_eq_true, Bool.not_true, Bool.false_eq_true, if_false]
    refine (strcmpEq_yields one.type "DEVICE_CMD").bind fun isCommand hcommand => ?_
    obtain ⟨type, _, htype, ⟨⟩, rfl⟩ := hcommand
    rw [htype]
    by_cases hcmd : type = "DEVICE_CMD"
    · subst hcmd
      exact yields_pure (by simp)
    · simp only [beq_eq_false_iff_ne.mpr hcmd, Bool.false_eq_true, if_false]
      exact yields_pure (by simp [hcmd])
  · simp only [beq_eq_false_iff_ne.mpr henable, Bool.not_false, if_true]
    exact yields_pure (by simp [henable])

/-! ### One rule in a pass -/

/-- The pass considers the rule: it is active, and the timer pass is asked for exactly when
`RuleInfoHasTimer` says so. -/
def considered (isTimerRule : Bool) (rule : RuleInfo) : Bool :=
  decide (rule.status = some "active") && ruleInfoHasTimer rule == isTimerRule

/-- `CalculateConditions` evaluates the rule. -/
def due (isTimerRule : Bool) (epochTime : ℤ) (rule : RuleInfo) : Bool :=
  considered isTimerRule rule && timeRangeAdmits rule.timeRange epochTime

/-- Every known condition can be evaluated, and they hold as the logic of the rule asks. -/
structure Fulfilled (callback : GetPropertyValueCallBack) (epochTime : ℤ) (rule : RuleInfo) :
    Prop where
  evaluable : ∀ c ∈ rule.conditions, c ≠ .empty → Evaluable callback epochTime c
  logic : if rule.logic = some "and" then
      ∀ c ∈ rule.conditions, c ≠ .empty → Holds callback epochTime c
    else ∃ c ∈ rule.conditions, Holds callback epochTime c

/-- What a pass does to a rule. -/
structure RunFollows (env : Env) (callback : GetPropertyValueCallBack) (isTimerRule : Bool)
    (epochTime : ℤ) (rule : RuleInfo) (run : RuleRun) : Prop where
  due : run.executed.isSome = true → due isTimerRule epochTime rule = true
  fulfilled : run.executed.isSome = true → Fulfilled callback epochTime rule
  calls : run.executed.isSome = true →
    ∃ calls, Outcome env (executeActionList rule.actions) calls
  commands : ∀ calls ∈ run.executed, calls = enabledCommands rule.actions
  logic : run.executed.isSome = true → rule.logic.isSome
  executed : env.AllocsSucceed → DeviceRule.due isTimerRule epochTime rule = true →
    Fulfilled callback epochTime rule → run.executed.isSome = true

/-- A rule that is not due is skipped. -/
theorem runFollows_skipped {isTimerRule : Bool} {rule : RuleInfo}
    (hskip : due isTimerRule epochTime rule = false) :
    RunFollows env callback isTimerRule epochTime rule { ruleItem := rule } :=
  ⟨by simp, by simp, by simp, by simp, by simp, fun _ hdue => by rw [hskip] at hdue; cases hdue⟩

theorem combined_iff_fulfilled {rule : RuleInfo} {logic : String} {result : Bool}
    (hlogic : rule.logic = some logic)
    (h : Combined callback epochTime (logic == "and") rule.conditions result) :
    result = true ↔ Fulfilled callback epochTime rule := by
  have hand : (rule.logic = some "and") ↔ (logic == "and") = true := by simp [hlogic]
  rw [h.result_iff]
  constructor
  · intro hresult
    refine ⟨h.evaluable, ?_⟩
    simpa only [hand] using hresult
  · intro hfulfilled
    have hresult := hfulfilled.logic
    simpa only [hand] using hresult

/-- The evaluation of a rule that is due. -/
theorem evaluateAndExecute_yields {isTimerRule : Bool} {rule : RuleInfo}
    (hdue : due isTimerRule epochTime rule = true) :
    Yields env (evaluateAndExecute callback epochTime rule)
      (RunFollows env callback isTimerRule epochTime rule) := by
  have hconditions : Yields env (calculateConditions rule.conditions rule.logic callback epochTime)
      fun r => ∃ logic, rule.logic = some logic ∧
        ((∃ result conditions, r = some (result, conditions) ∧
            Combined callback epochTime (logic == "and") rule.conditions result) ∨
          r = none ∧ ∃ data, .deviceData data ∈ rule.conditions ∧
            (env.AllocsSucceed → dataVerdict callback data = some none)) := by
    refine (strcmpEq_yields rule.logic "and").bind fun isLogicAnd hand => ?_
    obtain ⟨logic, _, hlogic, ⟨⟩, rfl⟩ := hand
    refine (conditionsLoop_yields (logic == "and") rule.conditions).bind fun step hstep => ?_
    cases step with
    | done _ => exact yields_pure ⟨logic, hlogic, Or.inr ⟨rfl, hstep⟩⟩
    | yield result => exact yields_pure ⟨logic, hlogic, Or.inl ⟨_, _, rfl, hstep⟩⟩
  refine hconditions.bind fun r hr => ?_
  obtain ⟨logic, hlogic, ⟨result, conditions, rfl, hcombined⟩ | ⟨rfl, data, hdata, hfail⟩⟩ := hr
  · have hiff := combined_iff_fulfilled hlogic hcombined
    have hsome : rule.logic.isSome := by
      rw [hlogic]
      rfl
    cases result with
    | true =>
      -- only here the actions are executed
      have hcalls : Yields env (executeActionList rule.actions) fun calls =>
          Outcome env (executeActionList rule.actions) calls := fun _ h => h
      refine hcalls.bind fun calls hout => yields_pure ?_
      refine ⟨fun _ => hdue, fun _ => hiff.mp rfl, fun _ => ⟨calls, hout⟩, fun calls' hmem => ?_,
        fun _ => hsome, fun _ _ _ => rfl⟩
      obtain rfl : calls = calls' := Option.some.inj hmem
      exact executeActionList_yields rule.actions calls hout
    | false =>
      refine yields_pure ⟨by simp, by simp, by simp, by simp, by simp, fun _ _ hfulfilled => ?_⟩
      exact absurd (hiff.mpr hfulfilled) (by decide)
  · -- the evaluation was given up
    refine yields_pure ⟨by simp, by simp, by simp, by simp, by simp, fun hA _ hfulfilled => ?_⟩
    obtain ⟨b, hb⟩ := hfulfilled.evaluable _ hdata (by simp)
    rw [conditionVerdict, hfail hA] at hb
    cases hb

/-- A rule with a status is evaluated when it is due, and skipped otherwise. -/
theorem checkRuleInfoAndExecute_eq {isTimerRule : Bool} {rule : RuleInfo}
    (hstatus : rule.status.isSome) :
    checkRuleInfoAndExecute callback isTimerRule epochTime rule =
      if due isTimerRule epochTime rule then
        isTriggeredByTimer rule epochTime >>= fun _ => evaluateAndExecute callback epochTime rule
      else pure { ruleItem := rule } := by
  obtain ⟨status, hsome⟩ := Option.isSome_iff_exists.mp hstatus
  have hcompare : strcmpEq rule.status (some "active") = pure (status == "active") := by
    rw [hsome]
    rfl
  have hactive : decide (rule.status = some "active") = (status == "active") := by
    rw [hsome, Bool.eq_iff_iff]
    simp
  unfold checkRuleInfoAndExecute due considered
  rw [hcompare, pure_bind, hactive]
  -- each of the four checks decides alone
  cases status == "active" with
  | false => rfl
  | true =>
    cases ruleInfoHasTimer rule <;> cases isTimerRule <;>
      cases timeRangeAdmits rule.timeRange epochTime <;> rfl

/-- **One rule of `CheckRuleInfoListAndExecute`.** -/
theorem checkRuleInfoAndExecute_follows (isTimerRule : Bool) (rule : RuleInfo) :
    Yields env (checkRuleInfoAndExecute callback isTimerRule epochTime rule)
      (RunFollows env callback isTimerRule epochTime rule) := by
  cases hstatus : rule.status with
  | none =>
    refine (strcmpEq_yields rule.status "active").bind fun b hb => ?_
    obtain ⟨_, _, hsome, -⟩ := hb
    rw [hstatus] at hsome
    cases hsome
  | some status =>
    rw [checkRuleInfoAndExecute_eq (by rw [hstatus]; rfl)]
    split
    · rename_i hdue
      exact (isTriggeredByTimer_yields rule).bind fun _ _ => evaluateAndExecute_yields hdue
    · rename_i hskip
      exact yields_pure (runFollows_skipped (by simpa using hskip))

/-- A pass over a rule is defined when the evaluation of its conditions and the execution of its
actions are. -/
theorem checkRuleInfoAndExecute_returns {isTimerRule : Bool} {rule : RuleInfo}
    (hstatus : rule.status.isSome) (hlogic : rule.logic.isSome)
    (hdefined : ∀ c ∈ rule.conditions, conditionVerdict callback epochTime c ≠ none)
    (hactions : Returns env (executeActionList rule.actions) fun _ => True) :
    Returns env (checkRuleInfoAndExecute callback isTimerRule epochTime rule) fun _ => True := by
  have hconditions : Returns env (calculateConditions rule.conditions rule.logic callback epochTime)
      fun _ => True := by
    obtain ⟨logic, hsome⟩ := Option.isSome_iff_exists.mp hlogic
    have hcompare : strcmpEq rule.logic (some "and") = pure (logic == "and") := by
      rw [hsome]
      rfl
    unfold calculateConditions
    rw [hcompare, pure_bind]
    apply (conditionsLoop_returns hdefined).bind
    intro step _
    -- given up, or combined to a result
    cases step with
    | done _ => exact returns_pure trivial
    | yield _ => exact returns_pure trivial
  have hevaluate : Returns env (evaluateAndExecute callback epochTime rule) fun _ => True := by
    apply hconditions.bind
    intro r _
    cases r with
    | none => exact returns_pure trivial
    | some r =>
      obtain ⟨result, conditions⟩ := r
      cases result with
      | true => exact hactions.bind fun _ _ => returns_pure trivial
      | false => exact returns_pure trivial
  rw [checkRuleInfoAndExecute_eq hstatus]
  split
  · exact (isTriggeredByTimer_returns hdefined).bind fun _ _ => hevaluate
  · exact returns_pure trivial

end IotDeviceSdk.DeviceRule
