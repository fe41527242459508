import IotDeviceSdk.DeviceRule.RuleInfo
import IotDeviceSdk.Prog.ForEach

/-!
# `rule_parser.c`

The reader of rule messages.  `ParseSingleRule` and the functions below it fill a record in place
and answer `0` or `ERRVAL`; here each returns the record as it is left together with the answer,
so that what a failure leaves behind is visible and has to be taken back by the caller.

`ParseDeviceRuleWithHook` goes through the entries of a message, removes the stored rule an entry
replaces, tells the hook, pushes an empty rule and fills it.  `GetRuleInfoList` compares the
store with the shadow's properties, `DeletRulesFromList` deletes.
-/

namespace IotDeviceSdk.DeviceRule

open CJson Prog

/-! ### One rule -/

/-- `ParseCmdAction`. -/
def parseCmdAction (actionObj : Action) (actionCJSON : CJson) : Sdk (Action × ℤ) := do
  let some type ← cStrDuplicateNotNULL (getString actionCJSON "type")
    | return (actionObj, ERRVAL)
  let actionObj := { actionObj with type := some type }
  let some status ← cStrDuplicateNotNULL (getString actionCJSON "status")
    | return (actionObj, ERRVAL)
  let actionObj := { actionObj with status := some status }
  let some deviceId ← cStrDuplicateNotNULL (getString actionCJSON "deviceId")
    | return (actionObj, ERRVAL)
  let actionObj := { actionObj with deviceId := some deviceId }
  let command := getObjectItem actionCJSON "command"
  let some commandName ← cStrDuplicateNotNULL (getString command "commandName")
    | return (actionObj, ERRVAL)
  let actionObj := { actionObj with command.commandName := some commandName }
  let some serviceId ← cStrDuplicateNotNULL (getString command "serviceId")
    | return (actionObj, ERRVAL)
  let actionObj := { actionObj with command.serviceId := some serviceId }
  let some commandBody ← cJsonDuplicate (getObjectItem command "commandBody")
    | return (actionObj, ERRVAL)
  return ({ actionObj with command.commandBody := some commandBody }, 0)

/-- `ParseDeviceInfo`. -/
def parseDeviceInfo (deviceInfo : DeviceInfo) (jsonObj : CJson) : Sdk (DeviceInfo × ℤ) := do
  let some deviceId ← cStrDuplicateNotNULL (getString jsonObj "deviceId")
    | return (deviceInfo, ERRVAL)
  let deviceInfo := { deviceInfo with deviceId := some deviceId }
  let some path ← cStrDuplicateNotNULL (getString jsonObj "path")
    | return (deviceInfo, ERRVAL)
  return ({ deviceInfo with path := some path }, 0)

/-- `ParsePropCondition`. -/
def parsePropCondition (condition : DeviceDataCondition) (contentInJson : CJson) :
    Sdk (DeviceDataCondition × ℤ) := do
  let some operator ← cStrDuplicateNotNULL (getString contentInJson "operator")
    | return (condition, ERRVAL)
  let condition := { condition with operator := some operator }
  let some value ← cStrDuplicateNotNULL (getString contentInJson "value")
    | return (condition, ERRVAL)
  let condition := { condition with value := some value }
  match getObjectItem contentInJson "deviceInfo" with
  | none => return (condition, ERRVAL)
  | some jsonObj =>
    let (deviceInfo, result) ← parseDeviceInfo condition.deviceInfo jsonObj
    return ({ condition with deviceInfo := deviceInfo }, result)

/-- `ParseSimpleTimerCondition`. -/
def parseSimpleTimerCondition (condition : SimpleTimerCondition) (contentInJson : CJson) :
    Sdk (SimpleTimerCondition × ℤ) := do
  let some startTime ← gmtTimestampFromStr (getString contentInJson "startTime")
    | return (condition, ERRVAL)
  let condition := { condition with startTime := startTime }
  match getIntValueFromJson (getObjectItem contentInJson "repeatInterval") with
  | none => return (condition, ERRVAL)
  | some repeatInterval =>
    let condition := { condition with repeatInterval := repeatInterval }
    match getIntValueFromJson (getObjectItem contentInJson "repeatCount") with
    | none => return (condition, ERRVAL)
    | some repeatCount => return ({ condition with repeatCount := repeatCount }, 0)

/-- `ParseDailyTimerCondition`; a weekday list that is not accepted leaves the bits read before
the fault, which the caller discards with the condition. -/
def parseDailyTimerCondition (condition : DailyTimerCondition) (contentInJson : CJson) :
    DailyTimerCondition × ℤ :=
  match convertTimeStrToSeconds (getString contentInJson "time") with
  | none => (condition, ERRVAL)
  | some time =>
    match saveDaysOfWeek (getString contentInJson "daysOfWeek") with
    | none => ({ condition with time := time }, ERRVAL)
    | some daysOfWeek => ({ condition with time := time, daysOfWeek := daysOfWeek }, 0)

/-- `ParseSingleCondition` on the condition `ConditionListPush` appended. -/
def parseSingleCondition (condition : Condition) (contentInJson : CJson) :
    Sdk (Condition × ℤ) := do
  match getString contentInJson "type" with
  | none => return (condition, ERRVAL)
  | some type =>
    match conditionTypeFromStr type with
    | .deviceData =>
      let (data, result) ← parsePropCondition {} contentInJson
      return (.deviceData data, result)
    | .simpleTimer =>
      let (data, result) ← parseSimpleTimerCondition {} contentInJson
      return (.simpleTimer data, result)
    | .dailyTimer =>
      let (data, result) := parseDailyTimerCondition {} contentInJson
      return (.dailyTimer data, result)
    | .empty => return (condition, ERRVAL)

/-- One round of the loop over the conditions of a rule. -/
def parseConditionsStep (oneCondition : CJson) (conditions : List Condition) :
    Sdk (ForInStep (List Condition)) := do
  match ← conditionListPush conditions with
  | none => return .done conditions
  | some (conditions, toBeOperatedCondition) =>
    let (condition, result) ← parseSingleCondition toBeOperatedCondition oneCondition
    let conditions := dynamicArrayWriteLast conditions condition
    if result ≠ 0 then
      let conditions ← dynamicArrayPop conditions
      return .done conditions
    else return .yield conditions

/-- One round of the loop over the actions of a rule. -/
def parseActionsStep (oneAction : CJson) (actions : List Action) :
    Sdk (ForInStep (List Action)) := do
  match ← actionListPush actions with
  | none => return .done actions
  | some (actions, toBeOperatedAction) =>
    let (action, result) ← parseCmdAction toBeOperatedAction oneAction
    let actions := dynamicArrayWriteLast actions action
    if result ≠ 0 then
      let actions ← dynamicArrayPop actions
      return .done actions
    else return .yield actions

/-- The part of `ParseSingleRule` that reads a time range. -/
def parseTimeRangeItem (timeRange : TimeRange) (json : CJson) : TimeRange × ℤ :=
  match convertTimeStrToSeconds (getString json "startTime") with
  | none => (timeRange, ERRVAL)
  | some startTime =>
    match convertTimeStrToSeconds (getString json "endTime") with
    | none => ({ timeRange with startTime := startTime }, ERRVAL)
    | some endTime =>
      let timeRange := { timeRange with startTime := startTime, endTime := cInt (endTime + 59) }
      match saveDaysOfWeek (getString json "daysOfWeek") with
      | none => (timeRange, ERRVAL)
      | some daysOfWeek => ({ timeRange with daysOfWeek := daysOfWeek }, 0)

/-- The time range of a rule is optional: it may be missing or `null`. -/
def parseTimeRange (timeRange : TimeRange) (rule : CJson) : TimeRange × ℤ :=
  match getObjectItem rule "timeRange" with
  | none => (timeRange, 0)
  | some .null => (timeRange, 0)
  | some json => parseTimeRangeItem timeRange json

/-- The part of `ParseSingleRule` that reads the conditions and the actions. -/
def parseConditionsAndActions (ruleInfo : RuleInfo) (rule : CJson) : Sdk (RuleInfo × ℤ) := do
  match getObjectItem rule "conditions" with
  | none => return (ruleInfo, ERRVAL)
  | some conditions =>
    match ← forEach parseConditionsStep conditions.children ruleInfo.conditions with
    | .done conditions => return ({ ruleInfo with conditions := conditions }, ERRVAL)
    | .yield conditions =>
      let ruleInfo := { ruleInfo with conditions := conditions }
      match ← forEach parseActionsStep (forEachItems (getObjectItem rule "actions"))
          ruleInfo.actions with
      | .done actions => return ({ ruleInfo with actions := actions }, ERRVAL)
      | .yield actions => return ({ ruleInfo with actions := actions }, 0)

/-- `ParseSingleRule` on the rule `RuleInfoListPush` appended. -/
def parseSingleRule (ruleInfo : RuleInfo) (rule : CJson) : Sdk (RuleInfo × ℤ) := do
  let some ruleId ← cStrDuplicateNotNULL (getString rule "ruleId")
    | return (ruleInfo, ERRVAL)
  let ruleInfo := { ruleInfo with ruleId := some ruleId }
  let some ruleName ← cStrDuplicateNotNULL (getString rule "ruleName")
    | return (ruleInfo, ERRVAL)
  let ruleInfo := { ruleInfo with ruleName := some ruleName }
  let some status ← cStrDuplicateNotNULL (getString rule "status")
    | return (ruleInfo, ERRVAL)
  let ruleInfo := { ruleInfo with status := some status }
  let some logic ← cStrDuplicateNotNULL (getString rule "logic")
    | return (ruleInfo, ERRVAL)
  let ruleInfo := { ruleInfo with logic := some logic }
  match getIntValueFromJson (getObjectItem rule "ruleVersionInShadow") with
  | none => return (ruleInfo, ERRVAL)
  | some version =>
    let ruleInfo := { ruleInfo with ruleVersionInShadow := version }
    let (timeRange, result) := parseTimeRange ruleInfo.timeRange rule
    let ruleInfo := { ruleInfo with timeRange := timeRange }
    if result = ERRVAL then return (ruleInfo, ERRVAL)
    else parseConditionsAndActions ruleInfo rule

/-! ### The rule store -/

/-- `RuleListCheckExistence`: the first rule with the id, as its index and its content. -/
def ruleListCheckExistence (list : List RuleInfo) (ruleId : Option String) :
    Sdk (Option (ℕ × RuleInfo)) :=
  go list 0
where
  /-- The search from index `i` on. -/
  go : List RuleInfo → ℕ → Sdk (Option (ℕ × RuleInfo))
    | [], _ => pure none
    | pOneInfo :: rest, i => do
      if ← strcmpEq pOneInfo.ruleId ruleId then return some (i, pOneInfo)
      else go rest (i + 1)

/-- `ParseDeviceRuleHook`: `isRemove` tells a removal from an addition. -/
abbrev ParseDeviceRuleHook (τ : Type) := τ → Bool → CJson → Sdk τ

variable {τ : Type}

/-- The hook is called when it and its target are given. -/
def callHook (hook : Option (ParseDeviceRuleHook τ)) (hookTarget : Option τ) (isRemove : Bool)
    (rule : CJson) : Sdk (Option τ) :=
  match hookTarget, hook with
  | some target, some hook => do
    let target ← hook target isRemove rule
    return some target
  | hookTarget, _ => pure hookTarget

/-- The end of one round of `ParseDeviceRuleWithHook`: tell the hook, push a rule and fill it. -/
def insertRule (hook : Option (ParseDeviceRuleHook τ)) (rule : CJson)
    (state : List RuleInfo × Option τ) : Sdk (ForInStep (List RuleInfo × Option τ)) := do
  let target ← callHook hook state.2 false rule
  match ← ruleInfoListPush state.1 with
  | none => return .done (state.1, target)
  | some (ruleInfos, toBeOperatedInfo) =>
    let (info, result) ← parseSingleRule toBeOperatedInfo rule
    let ruleInfos := dynamicArrayWriteLast ruleInfos info
    if result = ERRVAL then
      let ruleInfos ← dynamicArrayPop ruleInfos
      return .done (ruleInfos, target)
    else return .yield (ruleInfos, target)

/-- One round of the loop of `ParseDeviceRuleWithHook`; the state is the store and the hook's
target. -/
def parseDeviceRuleStep (hook : Option (ParseDeviceRuleHook τ)) (rule : CJson)
    (state : List RuleInfo × Option τ) : Sdk (ForInStep (List RuleInfo × Option τ)) := do
  match getString rule "ruleId" with
  | none => return .done state
  | some ruleId =>
    match getIntValueFromJson (getObjectItem rule "ruleVersionInShadow") with
    | none => return .done state
    | some version =>
      match ← ruleListCheckExistence state.1 ruleId with
      | some (i, toBeOperatedInfo) =>
        if version > toBeOperatedInfo.ruleVersionInShadow then
          let ruleInfos := dynamicArrayRemoveItem state.1 i
          let target ← callHook hook state.2 true rule
          insertRule hook rule (ruleInfos, target)
        else return .yield state
      | none => insertRule hook rule state

/-- The entries of a rule message. -/
def rulesInfos (paras : Option CJson) : List CJson :=
  forEachItems (getObjectItem paras "rulesInfos")

/-- `ParseDeviceRuleWithHook`. -/
def parseDeviceRuleWithHook (hook : Option (ParseDeviceRuleHook τ)) (paras : Option CJson)
    (state : List RuleInfo × Option τ) : Sdk (List RuleInfo × Option τ) := do
  let step ← forEach (parseDeviceRuleStep hook) (rulesInfos paras) state
  return stepValue step

/-- `ParseDeviceRule`. -/
def parseDeviceRule (ruleInfos : List RuleInfo) (paras : Option CJson) : Sdk (List RuleInfo) := do
  let state ← parseDeviceRuleWithHook (none : Option (ParseDeviceRuleHook Unit)) paras
    (ruleInfos, none)
  return state.1

/-- The three lists `GetRuleInfoList` works on. -/
structure RuleLists where
  list : List RuleInfo
  delList : List RuleInfo := []
  addList : List RuleInfo := []

/-- Appending an id and a version to one of the result lists of `GetRuleInfoList`.  A failed copy
of the id takes the pushed rule back; a failed push takes back whatever is last. -/
def pushRuleId (list : List RuleInfo) (ruleId : Option String) (version : ℤ) :
    Sdk (ForInStep (List RuleInfo)) := do
  match ← ruleInfoListPush list with
  | none =>
    let list ← dynamicArrayPop list
    return .done list
  | some (list, p) =>
    match ← cStrDuplicate ruleId with
    | none =>
      let list ← dynamicArrayPop list
      return .done list
    | some ruleId =>
      return .yield (dynamicArrayWriteLast list
        { p with ruleId := ruleId, ruleVersionInShadow := version })

/-- One round of the loop of `GetRuleInfoList`. -/
def getRuleInfoListStep (oneProperty : Option String × CJson) (lists : RuleLists) :
    Sdk (ForInStep RuleLists) := do
  let ruleId := oneProperty.1
  match getIntValueFromJson (getObjectItem oneProperty.2 "version") with
  | none => return .done lists
  | some version =>
    let oneRule ← ruleListCheckExistence lists.list ruleId
    if version = -1 then
      match ← pushRuleId lists.delList ruleId version with
      | .done delList => return .done { lists with delList := delList }
      | .yield delList => return .yield { lists with delList := delList }
    else if oneRule.all fun found => version > found.2.ruleVersionInShadow then
      match ← pushRuleId lists.addList ruleId version with
      | .done addList => return .done { lists with addList := addList }
      | .yield addList => return .yield { lists with addList := addList }
    else return .yield lists

/-- `GetRuleInfoList`: `.yield` for `HW_TRUE`, `.done` for `HW_FALSE`, with the lists as they are
left. -/
def getRuleInfoList (propertiesCJSON : Option CJson) (lists : RuleLists) :
    Sdk (ForInStep RuleLists) :=
  forEach getRuleInfoListStep ((propertiesCJSON.map members).getD []) lists

/-- One round of the outer loop of `DeletRulesFromList`; the search is the one of
`RuleListCheckExistence`. -/
def deletRulesStep (list : List RuleInfo) (delItem : RuleInfo) : Sdk (List RuleInfo) := do
  match ← ruleListCheckExistence list delItem.ruleId with
  | some (i, _) => return dynamicArrayRemoveItem list i
  | none => return list

/-- `DeletRulesFromList`. -/
def deletRulesFromList (list delList : List RuleInfo) : Sdk (List RuleInfo) :=
  delList.foldlM deletRulesStep list

end IotDeviceSdk.DeviceRule
