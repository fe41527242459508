import IotDeviceSdk.DeviceRule.RuleParser

/-!
# What `ParseSingleRule` accepts and what it leaves behind

`parseSingleRule_returns`: from an empty rule the parser always returns; when it answers `0` the
rule is well formed (`RuleInfo.WellFormed`: ids, names and texts present, every condition and
every action completely parsed), has the id and the version of the entry, and none of its daily
timers has been executed.  When no allocation fails, it answers `0` exactly on the entries
`ruleAccepted` accepts.

Every function below it is specified the same way by `Answers`: its answer is `0` or `ERRVAL`, the
record satisfies a property when it is `0`, and a predicate on the JSON item decides which.
-/

namespace IotDeviceSdk.DeviceRule

open CJson Prog

variable {env : Env} {α β : Type}

/-- The answer of a function that fills a record: `0` with a property of the record, or `ERRVAL`;
when no allocation fails, `0` exactly when the input is accepted. -/
def Answers (env : Env) (accepted : Bool) (P : α → Prop) (result : α × ℤ) : Prop :=
  (result.2 = 0 ∧ P result.1 ∨ result.2 = ERRVAL) ∧
    (env.AllocsSucceed → (result.2 = 0 ↔ accepted = true))

theorem answers_zero {P : α → Prop} {a : α} (h : P a) : Answers env true P (a, 0) :=
  ⟨Or.inl ⟨rfl, h⟩, fun _ => by simp⟩

theorem answers_errval {P : α → Prop} {a : α} : Answers env false P (a, ERRVAL) :=
  ⟨Or.inr rfl, fun _ => by simp [ERRVAL]⟩

theorem Answers.of_zero {accepted : Bool} {P : α → Prop} {result : α × ℤ}
    (h : Answers env accepted P result) (h0 : result.2 = 0) : P result.1 := by
  rcases h.1 with h | h
  · exact h.2
  · rw [h0] at h
    exact absurd h (by decide)

theorem Answers.ne_zero_iff {accepted : Bool} {P : α → Prop} {result : α × ℤ}
    (h : Answers env accepted P result) : result.2 ≠ 0 ↔ result.2 = ERRVAL := by
  rcases h.1 with h | h
  · rw [h.1]
    decide
  · rw [h]
    decide

theorem Answers.map {accepted : Bool} {P : α → Prop} {Q : β → Prop} {result : α × ℤ} {f : α → β}
    (h : Answers env accepted P result) (hf : P result.1 → Q (f result.1)) :
    Answers env accepted Q (f result.1, result.2) :=
  ⟨h.1.imp (fun h0 => ⟨h0.1, hf h0.2⟩) id, h.2⟩

/-- What a fallible step contributes to a function that fills a record: a value with a property,
available exactly on accepted inputs when no allocation fails. -/
def Supplies (env : Env) (p : Sdk (Option β)) (accepted : Bool) (R : β → Prop) : Prop :=
  Returns env p fun r =>
    (∀ v, r = some v → R v) ∧ (env.AllocsSucceed → r.isSome = accepted)

/-- One `CHECK_FALSE_RETURN_ERRVAL`: the function goes on with the value or answers `ERRVAL`. -/
theorem Supplies.check {p : Sdk (Option β)} {f : Option β → Sdk (α × ℤ)} {a : α}
    {accepted accepted' : Bool} {R : β → Prop} {P : α → Prop} (hp : Supplies env p accepted R)
    (hnone : f none = pure (a, ERRVAL))
    (hsome : ∀ v, R v → Returns env (f (some v)) (Answers env accepted' P)) :
    Returns env (p >>= f) (Answers env (accepted && accepted') P) := by
  refine Returns.bind hp fun r hr => ?_
  cases r with
  | none =>
    -- the function answers `ERRVAL`, which is not 0
    rw [hnone]
    refine returns_pure ⟨Or.inr rfl, fun h => ?_⟩
    have hacc := hr.2 h
    simp only [Option.isSome_none] at hacc
    simp [← hacc, ERRVAL]
  | some v =>
    refine (hsome v (hr.1 v rfl)).mono fun result hres => ⟨hres.1, fun h => ?_⟩
    have hacc := hr.2 h
    simp only [Option.isSome_some] at hacc
    rw [hres.2 h, ← hacc, Bool.true_and]

/-! ### Texts -/

/-- The texts `CStrDuplicateNotNULL` copies. -/
def copyable : Option String → Bool
  | some s => s.length + 1 < INT32_MAX
  | none => false

theorem cStrDuplicate_returns (s : String) :
    Returns env (cStrDuplicate (some s)) fun r =>
      (r = none ∨ r = some (some s)) ∧
        (env.AllocsSucceed → (r = some (some s) ↔ s.length + 1 < INT32_MAX)) := by
  rw [cStrDuplicate]
  by_cases hlen : s.length + 1 ≥ INT32_MAX
  · rw [if_pos hlen]
    exact returns_pure ⟨Or.inl rfl, fun _ => by simp [hlen]⟩
  · rw [if_neg hlen]
    apply malloc_returns.bind
    intro b hb
    cases b with
    | false => exact returns_pure ⟨Or.inl rfl, fun h => absurd (hb h) (by decide)⟩
    | true => exact returns_pure ⟨Or.inr rfl, fun _ => by simpa using hlen⟩

theorem cStrDuplicateNotNULL_supplies (s : Option String) :
    Supplies env (cStrDuplicateNotNULL s) (copyable s) fun v => s = some v := by
  cases s with
  | none => exact returns_pure ⟨by simp, fun _ => rfl⟩
  | some s =>
    apply (cStrDuplicate_returns s).bind
    intro r hr
    obtain ⟨rfl | rfl, hacc⟩ := hr
    · refine returns_pure ⟨by simp, fun h => ?_⟩
      have := hacc h
      simp only [reduceCtorEq, false_iff] at this
      simp [copyable, this]
    · refine returns_pure ⟨fun v hv => hv, fun h => ?_⟩
      have := (hacc h).mp rfl
      simp [copyable, this]

theorem cJsonDuplicate_supplies (item : Option CJson) :
    Supplies env (cJsonDuplicate item) item.isSome fun v => item = some v := by
  cases item with
  | none => exact returns_pure ⟨by simp, fun _ => rfl⟩
  | some item =>
    apply malloc_returns.bind
    intro b hb
    cases b with
    | false => exact returns_pure ⟨by simp, fun h => absurd (hb h) (by decide)⟩
    | true => exact returns_pure ⟨fun v hv => hv, fun _ => rfl⟩

/-! ### Actions -/

/-- The entries `ParseCmdAction` accepts. -/
def actionAccepted (actionCJSON : CJson) : Bool :=
  let command := getObjectItem actionCJSON "command"
  copyable (getString actionCJSON "type") &&
    (copyable (getString actionCJSON "status") &&
      (copyable (getString actionCJSON "deviceId") &&
        (copyable (getString command "commandName") &&
          (copyable (getString command "serviceId") &&
            ((getObjectItem command "commandBody").isSome && true)))))

/-- Every field of the action is set. -/
structure Action.Complete (action : Action) : Prop where
  type : action.type.isSome
  status : action.status.isSome
  deviceId : action.deviceId.isSome
  commandName : action.command.commandName.isSome
  serviceId : action.command.serviceId.isSome
  commandBody : action.command.commandBody.isSome

theorem parseCmdAction_returns (action : Action) (json : CJson) :
    Returns env (parseCmdAction action json)
      (Answers env (actionAccepted json) Action.Complete) := by
  unfold parseCmdAction actionAccepted
  refine (cStrDuplicateNotNULL_supplies _).check rfl fun type _ => ?_
  refine (cStrDuplicateNotNULL_supplies _).check rfl fun status _ => ?_
  refine (cStrDuplicateNotNULL_supplies _).check rfl fun deviceId _ => ?_
  refine (cStrDuplicateNotNULL_supplies _).check rfl fun commandName _ => ?_
  refine (cStrDuplicateNotNULL_supplies _).check rfl fun serviceId _ => ?_
  refine (cJsonDuplicate_supplies _).check rfl fun commandBody _ => ?_
  exact returns_pure (answers_zero ⟨rfl, rfl, rfl, rfl, rfl, rfl⟩)

/-! ### Conditions -/

/-- Every field of the data condition is set. -/
structure DeviceDataCondition.Complete (condition : DeviceDataCondition) : Prop where
  operator : condition.operator.isSome
  value : condition.value.isSome
  deviceId : condition.deviceInfo.deviceId.isSome
  path : condition.deviceInfo.path.isSome

/-- A condition of one of the three known types, with every field set. -/
def Condition.Complete : Condition → Prop
  | .empty => False
  | .deviceData data => data.Complete
  | .dailyTimer _ => True
  | .simpleTimer _ => True

/-- A condition whose daily timer, if it is one, has not been executed on any day. -/
def Condition.Unexecuted : Condition → Prop
  | .dailyTimer data => ∀ day, data.lastExecutedTime day = 0
  | _ => True

/-- The texts `GMTTimestampFromStr` accepts. -/
def timestampAccepted : Option String → Bool
  | none => false
  | some s => (sscanf [.int, .lit '-', .int, .lit '-', .int, .blank, .int, .lit ':', .int,
      .lit ':', .int] s.toList).isSome

/-- The items `GetIntValueFromJson` accepts. -/
def intAccepted (item : Option CJson) : Bool := (getIntValueFromJson item).isSome

def deviceInfoAccepted (json : CJson) : Bool :=
  copyable (getString json "deviceId") && (copyable (getString json "path") && true)

/-- The entries `ParseSingleCondition` accepts. -/
def conditionAccepted (json : CJson) : Bool :=
  match (getString json "type").map conditionTypeFromStr with
  | some .deviceData =>
    copyable (getString json "operator") &&
      (copyable (getString json "value") &&
        ((getObjectItem json "deviceInfo").map deviceInfoAccepted).getD false)
  | some .simpleTimer =>
    timestampAccepted (getString json "startTime") &&
      (intAccepted (getObjectItem json "repeatInterval") &&
        intAccepted (getObjectItem json "repeatCount"))
  | some .dailyTimer =>
    (convertTimeStrToSeconds (getString json "time")).isSome &&
      (saveDaysOfWeek (getString json "daysOfWeek")).isSome
  | _ => false

theorem parseDeviceInfo_returns (deviceInfo : DeviceInfo) (json : CJson) :
    Returns env (parseDeviceInfo deviceInfo json)
      (Answers env (deviceInfoAccepted json) fun d => d.deviceId.isSome ∧ d.path.isSome) := by
  unfold parseDeviceInfo deviceInfoAccepted
  refine (cStrDuplicateNotNULL_supplies _).check rfl fun deviceId _ => ?_
  refine (cStrDuplicateNotNULL_supplies _).check rfl fun path _ => ?_
  exact returns_pure (answers_zero ⟨rfl, rfl⟩)

theorem parsePropCondition_returns (condition : DeviceDataCondition) (json : CJson) :
    Returns env (parsePropCondition condition json)
      (Answers env
        (copyable (getString json "operator") &&
          (copyable (getString json "value") &&
            ((getObjectItem json "deviceInfo").map deviceInfoAccepted).getD false))
        DeviceDataCondition.Complete) := by
  unfold parsePropCondition
  refine (cStrDuplicateNotNULL_supplies _).check rfl fun operator _ => ?_
  refine (cStrDuplicateNotNULL_supplies _).check rfl fun value _ => ?_
  cases getObjectItem json "deviceInfo" with
  | none => exact returns_pure answers_errval
  | some jsonObj =>
    apply (parseDeviceInfo_returns _ jsonObj).bind
    intro result hres
    exact returns_pure (hres.map fun h => ⟨rfl, rfl, h.1, h.2⟩)

theorem gmtTimestampFromStr_supplies (s : Option String) :
    Supplies env (gmtTimestampFromStr s) (timestampAccepted s) fun _ => True := by
  apply uninitialisedTm_returns.bind
  intro timeStruct _
  cases s with
  | none => exact returns_pure ⟨by simp, fun _ => rfl⟩
  | some s =>
    dsimp only [timestampAccepted]
    cases sscanf [.int, .lit '-', .int, .lit '-', .int, .blank, .int, .lit ':', .int, .lit ':',
        .int] s.toList with
    | none => exact returns_pure ⟨by simp, fun _ => rfl⟩
    | some values => exact returns_pure ⟨fun _ _ => trivial, fun _ => rfl⟩

theorem parseSimpleTimerCondition_returns (condition : SimpleTimerCondition) (json : CJson) :
    Returns env (parseSimpleTimerCondition condition json)
      (Answers env
        (timestampAccepted (getString json "startTime") &&
          (intAccepted (getObjectItem json "repeatInterval") &&
            intAccepted (getObjectItem json "repeatCount")))
        fun _ => True) := by
  unfold parseSimpleTimerCondition intAccepted
  refine (gmtTimestampFromStr_supplies _).check rfl fun startTime _ => ?_
  cases getIntValueFromJson (getObjectItem json "repeatInterval") with
  | none => exact returns_pure answers_errval
  | some repeatInterval =>
    cases getIntValueFromJson (getObjectItem json "repeatCount") with
    | none => exact returns_pure answers_errval
    | some repeatCount => exact returns_pure (answers_zero trivial)

theorem parseDailyTimerCondition_answers (json : CJson) :
    Answers env
      ((convertTimeStrToSeconds (getString json "time")).isSome &&
        (saveDaysOfWeek (getString json "daysOfWeek")).isSome)
      (fun data => ∀ day, data.lastExecutedTime day = 0)
      (parseDailyTimerCondition {} json) := by
  unfold parseDailyTimerCondition
  cases convertTimeStrToSeconds (getString json "time") with
  | none => exact answers_errval
  | some time =>
    cases saveDaysOfWeek (getString json "daysOfWeek") with
    | none => exact answers_errval
    | some daysOfWeek => exact answers_zero fun _ => rfl

theorem parseSingleCondition_returns (json : CJson) :
    Returns env (parseSingleCondition .empty json)
      (Answers env (conditionAccepted json) fun c => c.Complete ∧ c.Unexecuted) := by
  unfold parseSingleCondition conditionAccepted
  cases getString json "type" with
  | none => exact returns_pure answers_errval
  | some type =>
    simp only [Option.map_some]
    cases conditionTypeFromStr type with
    | deviceData =>
      apply (parsePropCondition_returns {} json).bind
      intro result hres
      exact returns_pure (hres.map fun h => ⟨h, trivial⟩)
    | simpleTimer =>
      apply (parseSimpleTimerCondition_returns {} json).bind
      intro result hres
      exact returns_pure (hres.map fun _ => ⟨trivial, trivial⟩)
    | dailyTimer =>
      exact returns_pure ((parseDailyTimerCondition_answers json).map fun h => ⟨trivial, h⟩)
    | empty => exact returns_pure answers_errval

/-- The condition is the result of a successful `ParseSingleCondition`. -/
def Condition.ParsedFrom (condition : Condition) (json : CJson) : Prop :=
  ∃ env : Env, Outcome env (parseSingleCondition .empty json) (condition, 0)

/-- The action is the result of a successful `ParseCmdAction`. -/
def Action.ParsedFrom (action : Action) (json : CJson) : Prop :=
  ∃ env : Env, Outcome env (parseCmdAction {} json) (action, 0)

/-! ### The loops of a rule -/

/-- Pushing an item of a type whose constructor cannot fail. -/
theorem dynamicArrayPush_returns {items : List α} {item : α} :
    Returns env (dynamicArrayPush items (pure (some item))) fun r =>
      (r = none ∨ r = some (items ++ [item], item)) ∧
        (env.AllocsSucceed → r = some (items ++ [item], item)) := by
  refine returns_allocated (Or.inl rfl) ?_
  exact returns_pure ⟨Or.inr rfl, fun _ => rfl⟩

/-- A parsed condition, as the store may hold it. -/
def Condition.Parsed (condition : Condition) : Prop :=
  condition.Complete ∧ ∃ json, condition.ParsedFrom json

/-- A parsed action, as the store may hold it. -/
def Action.Parsed (action : Action) : Prop :=
  action.Complete ∧ ∃ json, action.ParsedFrom json

theorem parseConditionsStep_returns (json : CJson) {conditions : List Condition}
    (h : ∀ c ∈ conditions, c.Parsed ∧ c.Unexecuted) :
    Returns env (parseConditionsStep json conditions) fun r =>
      OnStep (fun cs => ∀ c ∈ cs, c.Parsed ∧ c.Unexecuted) (fun _ => True) r ∧
        (env.AllocsSucceed → goesOn r = conditionAccepted json) := by
  unfold parseConditionsStep conditionListPush conditionCtor
  apply dynamicArrayPush_returns.bind
  intro r hr
  obtain ⟨rfl | rfl, halloc⟩ := hr
  · exact returns_pure ⟨trivial, fun hA => absurd (halloc hA) (by simp)⟩
  · apply (parseSingleCondition_returns json).outcome.bind
    intro result hres
    obtain ⟨hans, hout⟩ := hres
    dsimp only
    rw [dynamicArrayWriteLast_append]
    by_cases h0 : result.2 = 0
    · -- the condition replaces the pushed one
      rw [if_neg (by simpa using h0)]
      have hP := hans.of_zero h0
      refine returns_pure ⟨fun c hc => ?_, fun hA => ((hans.2 hA).mp h0).symm⟩
      rcases List.mem_append.mp hc with hc | hc
      · exact h c hc
      · obtain rfl : c = result.1 := by simpa using hc
        exact ⟨⟨hP.1, json, env, h0 ▸ hout⟩, hP.2⟩
    · rw [if_pos h0, dynamicArrayPop_append]
      refine returns_pure ⟨trivial, fun hA => ?_⟩
      have hacc := mt (hans.2 hA).mpr h0
      simpa using hacc

theorem parseActionsStep_returns (json : CJson) {actions : List Action}
    (h : ∀ a ∈ actions, a.Parsed) :
    Returns env (parseActionsStep json actions) fun r =>
      OnStep (fun as => ∀ a ∈ as, a.Parsed) (fun _ => True) r ∧
        (env.AllocsSucceed → goesOn r = actionAccepted json) := by
  unfold parseActionsStep actionListPush actionCtor
  apply dynamicArrayPush_returns.bind
  intro r hr
  obtain ⟨rfl | rfl, halloc⟩ := hr
  · exact returns_pure ⟨trivial, fun hA => absurd (halloc hA) (by simp)⟩
  · apply (parseCmdAction_returns {} json).outcome.bind
    intro result hres
    obtain ⟨hans, hout⟩ := hres
    dsimp only
    rw [dynamicArrayWriteLast_append]
    by_cases h0 : result.2 = 0
    · -- the action replaces the pushed one
      rw [if_neg (by simpa using h0)]
      refine returns_pure ⟨fun a ha => ?_, fun hA => ((hans.2 hA).mp h0).symm⟩
      rcases List.mem_append.mp ha with ha | ha
      · exact h a ha
      · obtain rfl : a = result.1 := by simpa using ha
        exact ⟨hans.of_zero h0, json, env, h0 ▸ hout⟩
    · rw [if_pos h0, dynamicArrayPop_append]
      refine returns_pure ⟨trivial, fun hA => ?_⟩
      have hacc := mt (hans.2 hA).mpr h0
      simpa using hacc

/-! ### A whole rule -/

/-- The time ranges `ParseSingleRule` accepts. -/
def timeRangeItemAccepted (json : CJson) : Bool :=
  (convertTimeStrToSeconds (getString json "startTime")).isSome &&
    ((convertTimeStrToSeconds (getString json "endTime")).isSome &&
      (saveDaysOfWeek (getString json "daysOfWeek")).isSome)

/-- The optional time ranges `ParseSingleRule` accepts. -/
def timeRangeAccepted (rule : CJson) : Bool :=
  match getObjectItem rule "timeRange" with
  | none => true
  | some .null => true
  | some json => timeRangeItemAccepted json

/-- The conditions and actions `ParseSingleRule` accepts: a list of conditions is required, a list
of actions is not. -/
def conditionsAndActionsAccepted (rule : CJson) : Bool :=
  match getObjectItem rule "conditions" with
  | none => false
  | some conditions =>
    conditions.children.all conditionAccepted &&
      (forEachItems (getObjectItem rule "actions")).all actionAccepted

/-- The entries `ParseSingleRule` accepts. -/
def ruleAccepted (rule : CJson) : Bool :=
  copyable (getString rule "ruleId") &&
    (copyable (getString rule "ruleName") &&
      (copyable (getString rule "status") &&
        (copyable (getString rule "logic") &&
          (intAccepted (getObjectItem rule "ruleVersionInShadow") &&
            (timeRangeAccepted rule && conditionsAndActionsAccepted rule)))))

/-- **A rule as the store may hold it**: the texts are present, every condition and every action is
completely parsed. -/
structure RuleInfo.WellFormed (info : RuleInfo) : Prop where
  ruleId : info.ruleId.isSome
  ruleName : info.ruleName.isSome
  status : info.status.isSome
  logic : info.logic.isSome
  conditions : ∀ c ∈ info.conditions, c.Parsed
  actions : ∀ a ∈ info.actions, a.Parsed

/-- What a successful `ParseSingleRule` guarantees of the rule. -/
structure RuleInfo.ReadFrom (info : RuleInfo) (rule : CJson) : Prop where
  wellFormed : info.WellFormed
  ruleId : info.ruleId = getString rule "ruleId"
  version : getIntValueFromJson (getObjectItem rule "ruleVersionInShadow") =
    some info.ruleVersionInShadow
  unexecuted : ∀ c ∈ info.conditions, c.Unexecuted

theorem parseTimeRangeItem_answers (timeRange : TimeRange) (json : CJson) :
    Answers env (timeRangeItemAccepted json) (fun _ => True)
      (parseTimeRangeItem timeRange json) := by
  unfold parseTimeRangeItem timeRangeItemAccepted
  cases convertTimeStrToSeconds (getString json "startTime") with
  | none => exact answers_errval
  | some startTime =>
    cases convertTimeStrToSeconds (getString json "endTime") with
    | none => exact answers_errval
    | some endTime =>
      dsimp only
      cases saveDaysOfWeek (getString json "daysOfWeek") with
      | none => exact answers_errval
      | some daysOfWeek => exact answers_zero trivial

theorem parseTimeRange_answers (timeRange : TimeRange) (rule : CJson) :
    Answers env (timeRangeAccepted rule) (fun _ => True) (parseTimeRange timeRange rule) := by
  unfold parseTimeRange timeRangeAccepted
  cases getObjectItem rule "timeRange" with
  | none => exact answers_zero trivial
  | some json =>
    cases json with
    | null => exact answers_zero trivial
    | _ => exact parseTimeRangeItem_answers timeRange _

theorem parseConditionsAndActions_returns {info : RuleInfo} (rule : CJson)
    (hc : info.conditions = []) (ha : info.actions = []) :
    Returns env (parseConditionsAndActions info rule)
      (Answers env (conditionsAndActionsAccepted rule) fun r =>
        (∀ c ∈ r.conditions, c.Parsed ∧ c.Unexecuted) ∧ (∀ a ∈ r.actions, a.Parsed) ∧
          r = { info with conditions := r.conditions, actions := r.actions }) := by
  unfold parseConditionsAndActions conditionsAndActionsAccepted
  cases getObjectItem rule "conditions" with
  | none => exact returns_pure answers_errval
  | some conditions =>
    dsimp only
    -- both loops start with the empty lists of the rule
    have hcs : ∀ c ∈ info.conditions, c.Parsed ∧ c.Unexecuted := by simp [hc]
    have has : ∀ a ∈ info.actions, a.Parsed := by simp [ha]
    have hloop : Returns env (forEach parseConditionsStep conditions.children info.conditions) _ :=
      Returns.forEach_all hcs fun json _ cs h => parseConditionsStep_returns json h
    apply hloop.bind
    intro r hr
    cases r with
    | done cs =>
      refine returns_pure ⟨Or.inr rfl, fun hA => ?_⟩
      have hacc := hr.2 hA
      rw [goesOn_done] at hacc
      simp [← hacc, ERRVAL]
    | yield cs =>
      dsimp only
      have hloop' : Returns env (forEach parseActionsStep
          (forEachItems (getObjectItem rule "actions")) info.actions) _ :=
        Returns.forEach_all has fun json _ as h => parseActionsStep_returns json h
      apply hloop'.bind
      intro r' hr'
      cases r' with
      | done as =>
        refine returns_pure ⟨Or.inr rfl, fun hA => ?_⟩
        have hacc := hr'.2 hA
        rw [goesOn_done] at hacc
        simp [← hacc, ERRVAL]
      | yield as =>
        refine returns_pure ⟨Or.inl ⟨rfl, hr.1, hr'.1, rfl⟩, fun hA => ?_⟩
        rw [← hr.2 hA, ← hr'.2 hA]
        simp

/-- **`ParseSingleRule`** on an empty rule. -/
theorem parseSingleRule_returns (rule : CJson) :
    Returns env (parseSingleRule {} rule)
      (Answers env (ruleAccepted rule) fun info => info.ReadFrom rule) := by
  unfold parseSingleRule ruleAccepted
  refine (cStrDuplicateNotNULL_supplies _).check rfl fun ruleId hruleId => ?_
  refine (cStrDuplicateNotNULL_supplies _).check rfl fun ruleName _ => ?_
  refine (cStrDuplicateNotNULL_supplies _).check rfl fun status _ => ?_
  refine (cStrDuplicateNotNULL_supplies _).check rfl fun logic _ => ?_
  unfold intAccepted
  cases hversion : getIntValueFromJson (getObjectItem rule "ruleVersionInShadow") with
  | none => exact returns_pure answers_errval
  | some version =>
    have htime : Answers env _ _ (parseTimeRange {} rule) := parseTimeRange_answers {} rule
    dsimp only
    generalize parseTimeRange {} rule = result at htime ⊢
    obtain ⟨timeRange, result⟩ := result
    by_cases h : result = ERRVAL
    · -- the time range is rejected
      rw [if_pos h]
      refine returns_pure ⟨Or.inr rfl, fun hA => ?_⟩
      have hacc := htime.2 hA
      rw [h] at hacc
      have hfalse : timeRangeAccepted rule = false := by
        rw [← Bool.not_eq_true, ← hacc]
        show ERRVAL ≠ 0
        decide
      simp [hfalse, ERRVAL]
    · rw [if_neg h]
      have h0 : result = 0 := by
        by_contra hne
        exact h (htime.ne_zero_iff.mp hne)
      refine (parseConditionsAndActions_returns rule rfl rfl).mono fun r hr => ⟨?_, fun hA => ?_⟩
      · refine hr.1.imp (fun ⟨hz, hcs, has, heq⟩ => ⟨hz, ?_⟩) id
        rw [heq]
        exact
          { wellFormed := ⟨rfl, rfl, rfl, rfl, fun c hc => (hcs c hc).1, has⟩
            ruleId := hruleId.symm
            version := hversion
            unexecuted := fun c hc => (hcs c hc).2 }
      · have hacc : timeRangeAccepted rule = true := (htime.2 hA).mp h0
        rw [hr.2 hA, hacc]
        simp

/-- `info` is the rule a successful `ParseSingleRule` makes of the entry. -/
def RuleInfo.ParsedFrom (info : RuleInfo) (rule : CJson) : Prop :=
  ∃ env : Env, Outcome env (parseSingleRule {} rule) (info, 0)

theorem RuleInfo.ParsedFrom.readFrom {info : RuleInfo} {rule : CJson} (h : info.ParsedFrom rule) :
    info.ReadFrom rule := by
  obtain ⟨env, hout⟩ := h
  have hans := (parseSingleRule_returns rule).yields (info, 0) hout
  exact hans.of_zero rfl

end IotDeviceSdk.DeviceRule
