import IotDeviceSdk.DeviceRule.RuleInfo
import IotDeviceSdk.Libc.Strtod
import IotDeviceSdk.Prog.ForEach

/-!
# `rule_execution.c`

The evaluation of the conditions of a rule and the pass over the rules.

A property is read through a callback; `PropertyRead` tells apart that it answers `HW_FALSE`, that
it answers `HW_TRUE` and writes the value, and that it answers `HW_TRUE` without writing one, after
which reading the value is undefined.  A function that answers `HW_FALSE` returns `none`, one that
writes `*result` and answers `HW_TRUE` returns `some result`.
-/

namespace IotDeviceSdk.DeviceRule

open Prog

/-! ### Property values -/

/-- `PropertyValueDataType`. -/
inductive PropertyValueDataType where
  | int | double | cstr
  deriving DecidableEq

/-- `PropertyValue`: the tag and the union in one. -/
inductive PropertyValue where
  | int (i : ℤ)
  | double (d : CDouble)
  | cstr (cstr : String)

/-- The tag of a property value. -/
def PropertyValue.type : PropertyValue → PropertyValueDataType
  | .int _ => .int
  | .double _ => .double
  | .cstr _ => .cstr

/-- What a property callback answers. -/
inductive PropertyRead where
  | failed
  | unwritten
  | value (v : PropertyValue)

/-- `GetPropertyValueCallBack` on a service and a property; `none` is undefined behaviour. -/
abbrev GetPropertyValueCallBack := String → String → Option PropertyRead

/-- `strcmp`. -/
def strcmp (s t : String) : ℤ := if s = t then 0 else if s < t then -1 else 1

/-- The three-way result of `PropertyValueCompare`. -/
def threeWay {α : Type} [LT α] [DecidableLT α] (left right : α) : ℤ :=
  if left < right then -1 else if right < left then 1 else 0

/-- `PropertyValueCompare`. -/
def propertyValueCompare : PropertyValue → PropertyValue → Option ℤ
  | .int left, .int right => some (threeWay left right)
  | .double left, .double right => some (threeWay left right)
  | .cstr left, .cstr right => some (strcmp left right)
  | _, _ => none

/-- `StrToPropertyValue`; undefined is the conversion of `NAN` to `int`. -/
def strToPropertyValue (value : Option String) (type : PropertyValueDataType) :
    Sdk (Option PropertyValue) :=
  match value with
  | none => undefined
  | some value =>
    let (number, afterEnd) := strtod value.toList
    match type with
    | .int =>
      if afterEnd.length = value.toList.length then pure none
      else
        match number with
        | .nan => undefined
        | .num number => pure (some (.int (doubleToInt number)))
    | .double =>
      if afterEnd.length = value.toList.length then pure none else pure (some (.double number))
    | .cstr => pure (some (.cstr value))

/-! ### Timers -/

/-- `HHMMSStoSecond` of the time of day. -/
def secondOfDay (epochTime : ℤ) : ℤ :=
  let time := gmtime epochTime
  hhmmssToSecond time.tm_hour time.tm_min time.tm_sec

/-- Whether an instant lies in the minute of a daily timer, on one of its weekdays. -/
def DailyTimerCondition.inWindow (condition : DailyTimerCondition) (epochTime : ℤ) : Bool :=
  condition.daysOfWeek.hasDay (gmtime epochTime).tm_wday &&
    decide (condition.time ≤ secondOfDay epochTime ∧ secondOfDay epochTime < condition.time + 60)

/-- `CalculateDailyTimerCondition`. -/
def calculateDailyTimerCondition (condition : DailyTimerCondition) (epochTime : ℤ) : Bool :=
  condition.inWindow epochTime &&
    decide (epochTime - condition.lastExecutedTime (gmtime epochTime).tm_wday ≥ 60)

/-- `DailyTimerConditionMarkDayIsExecuted`. -/
def dailyTimerConditionMarkDayIsExecuted (condition : DailyTimerCondition) (epochTime : ℤ) :
    DailyTimerCondition :=
  if condition.inWindow epochTime then
    { condition with
      lastExecutedTime :=
        Function.update condition.lastExecutedTime (gmtime epochTime).tm_wday epochTime }
  else condition

/-- `CalculateSimpleTimerCondition`; undefined are a conversion of a `double` to `int` out of range
and a division by zero. -/
def calculateSimpleTimerCondition (condition : SimpleTimerCondition) (epochTime : ℤ) :
    Option Bool :=
  if epochTime < condition.startTime then some false
  else
    let diff := epochTime - condition.startTime
    if INT_MAX < diff ∨ condition.repeatInterval = 0 then none
    else if diff.tmod condition.repeatInterval ≠ 0 then some false
    else some (decide (diff.tdiv condition.repeatInterval < condition.repeatCount))

/-! ### Data conditions -/

/-- `GetPropertyValueByPath`. -/
def getPropertyValueByPath (path : Option String) (callback : GetPropertyValueCallBack) :
    Sdk PropertyRead :=
  match path with
  | none => undefined
  | some path => do
    let service := path.toList.takeWhile (· ≠ '/')
    if path.toList.length = service.length then return .failed
    if !(← malloc) then return .failed
    let property := path.toList.drop (service.length + 1)
    ofOption (callback (String.ofList service) (String.ofList property))

/-- `CalculateDeviceDataRangeCodition`. -/
def calculateDeviceDataRangeCodition (condition : DeviceDataCondition)
    (callback : GetPropertyValueCallBack) : Sdk (Option Bool) := do
  match ← getPropertyValueByPath condition.deviceInfo.path callback with
  | .failed => return none
  | readProperty =>
    match condition.value with
    | none => undefined
    | some rangeStr =>
      let (valueLeftBoundry, numberEnd) := strtod rangeStr.toList
      match numberEnd with
      | [] => return none
      | _ :: rangeStr =>
        let (valueRightBoundry, _) := strtod rangeStr
        match readProperty with
        | .value (.int i) =>
          return some (decide (valueLeftBoundry ≤ .num i ∧ .num i ≤ valueRightBoundry))
        | .value (.double d) => return some (decide (valueLeftBoundry ≤ d ∧ d ≤ valueRightBoundry))
        | .value (.cstr _) => return none
        | _ => undefined

/-- The comparison operators of `CalculateDeviceDataCompareCodition`. -/
def compareByOperator (operator : String) (comparisonResult : ℤ) : Option Bool :=
  if operator = "<" then some (decide (comparisonResult < 0))
  else if operator = "=" ∨ operator = "==" then some (decide (comparisonResult = 0))
  else if operator = ">" then some (decide (comparisonResult > 0))
  else if operator = "<=" then some (decide (comparisonResult ≤ 0))
  else if operator = ">=" then some (decide (comparisonResult ≥ 0))
  else none

/-- `CalculateDeviceDataCompareCodition`. -/
def calculateDeviceDataCompareCodition (condition : DeviceDataCondition)
    (callback : GetPropertyValueCallBack) : Sdk (Option Bool) := do
  match ← getPropertyValueByPath condition.deviceInfo.path callback with
  | .failed => return none
  | .unwritten => undefined
  | .value valRead =>
    let some valExpected ← strToPropertyValue condition.value valRead.type
      | return none
    match propertyValueCompare valRead valExpected with
    | none => return none
    | some comparisonResult =>
      match condition.operator with
      | none => undefined
      | some operator => return compareByOperator operator comparisonResult

/-- `CalculateDeviceDataCondition`. -/
def calculateDeviceDataCondition (condition : DeviceDataCondition)
    (callback : GetPropertyValueCallBack) : Sdk (Option Bool) := do
  if ← strcmpEq condition.operator "between" then
    calculateDeviceDataRangeCodition condition callback
  else calculateDeviceDataCompareCodition condition callback

/-! ### A rule -/

/-- `*result && currentResult` or `*result || currentResult`. -/
def combine (isLogicAnd result currentResult : Bool) : Bool :=
  if isLogicAnd then result && currentResult else result || currentResult

/-- One round of the loop of `CalculateConditions`.  For an unknown condition `currentResult` is not
set, which is undefined unless the logic does not read it. -/
def calculateConditionsStep (isLogicAnd : Bool) (callback : GetPropertyValueCallBack)
    (epochTime : ℤ) (conditionItem : Condition) (result : Bool) : Sdk (ForInStep Bool) := do
  match conditionItem with
  | .deviceData data =>
    match ← calculateDeviceDataCondition data callback with
    | none => return .done result
    | some currentResult => return .yield (combine isLogicAnd result currentResult)
  | .simpleTimer data =>
    let currentResult ← ofOption (calculateSimpleTimerCondition data epochTime)
    return .yield (combine isLogicAnd result currentResult)
  | .dailyTimer data =>
    return .yield (combine isLogicAnd result (calculateDailyTimerCondition data epochTime))
  | .empty => if isLogicAnd = result then undefined else return .yield result

/-- Marking a condition of a rule that is about to be executed. -/
def markIsExecuted (epochTime : ℤ) : Condition → Condition
  | .dailyTimer data => .dailyTimer (dailyTimerConditionMarkDayIsExecuted data epochTime)
  | conditionItem => conditionItem

/-- `CalculateConditions`: the result and the conditions as they are left. -/
def calculateConditions (list : List Condition) (logic : Option String)
    (callback : GetPropertyValueCallBack) (epochTime : ℤ) :
    Sdk (Option (Bool × List Condition)) := do
  let isLogicAnd ← strcmpEq logic "and"
  match ← forEach (calculateConditionsStep isLogicAnd callback epochTime) list isLogicAnd with
  | .done _ => return none
  | .yield result =>
    return some (result, if result then list.map (markIsExecuted epochTime) else list)

/-- `ExecuteActionList`: the calls of the command callback. -/
def executeActionList (list : List Action) : Sdk (List (Option String × Command)) :=
  list.foldlM (fun calls one => do
    if !(← strcmpEq one.status "enable") then return calls
    if ← strcmpEq one.type "DEVICE_CMD" then return calls ++ [(one.deviceId, one.command)]
    else return calls) []

/-- Whether a condition is a timer. -/
def Condition.isTimer : Condition → Bool
  | .dailyTimer _ => true
  | .simpleTimer _ => true
  | _ => false

/-- `RuleInfoHasTimer`; its loop answers in the first round. -/
def ruleInfoHasTimer (self : RuleInfo) : Bool :=
  match self.conditions with
  | [] => false
  | condition :: _ => condition.isTimer

/-- One round of the loop of `IsTriggeredByTimer`, left with `HW_TRUE` on the first timer that
fires. -/
def isTriggeredByTimerStep (epochTime : ℤ) (conditionItem : Condition) (result : Bool) :
    Sdk (ForInStep Bool) := do
  match conditionItem with
  | .simpleTimer data =>
    let result ← ofOption (calculateSimpleTimerCondition data epochTime)
    if result then return .done result else return .yield result
  | .dailyTimer data =>
    let result := calculateDailyTimerCondition data epochTime
    if result then return .done result else return .yield result
  | _ => return .yield result

/-- `IsTriggeredByTimer`; it never answers `HW_FALSE`. -/
def isTriggeredByTimer (ruleInfo : RuleInfo) (epochTime : ℤ) : Sdk Bool := do
  let step ← forEach (isTriggeredByTimerStep epochTime) ruleInfo.conditions false
  return stepValue step

/-- The check of the time range in `CheckRuleInfoListAndExecute`. -/
def timeRangeAdmits (timeRange : TimeRange) (epochTime : ℤ) : Bool :=
  if timeRangeIsNull timeRange then true
  else
    let today := (gmtime epochTime).tm_wday
    let sec := secondOfDay epochTime
    if timeRange.startTime < timeRange.endTime then
      timeRange.daysOfWeek.hasDay today &&
        decide (timeRange.startTime ≤ sec ∧ sec ≤ timeRange.endTime)
    else
      let yesterdayInWeek : DaysOfWeekRecord := timeRange.daysOfWeek >>> 1
      let yesterdayInWeek :=
        if yesterdayInWeek &&& 1 ≠ 0 then yesterdayInWeek ||| daysOfWeekSaturday
        else yesterdayInWeek
      (timeRange.daysOfWeek.hasDay today && decide (sec ≤ timeRange.endTime)) ||
        (yesterdayInWeek.hasDay today && decide (timeRange.startTime ≤ sec))

/-- What a pass leaves of a rule, and the calls of the command callback when its actions were
executed. -/
structure RuleRun where
  ruleItem : RuleInfo
  executed : Option (List (Option String × Command)) := none

/-- The part of `CheckRuleInfoListAndExecute` that evaluates the conditions of a rule and executes
its actions. -/
def evaluateAndExecute (propertyCallback : GetPropertyValueCallBack) (epochTime : ℤ)
    (ruleItem : RuleInfo) : Sdk RuleRun := do
  match ← calculateConditions ruleItem.conditions ruleItem.logic propertyCallback epochTime with
  | none => return { ruleItem := ruleItem }
  | some (result, conditions) =>
    let ruleItem := { ruleItem with conditions := conditions }
    if result then
      let calls ← executeActionList ruleItem.actions
      return { ruleItem := ruleItem, executed := some calls }
    else return { ruleItem := ruleItem }

/-- One round of the loop of `CheckRuleInfoListAndExecute`; the result of `IsTriggeredByTimer` is
overwritten by the one of `CalculateConditions`. -/
def checkRuleInfoAndExecute (propertyCallback : GetPropertyValueCallBack) (isTimerRule : Bool)
    (epochTime : ℤ) (ruleItem : RuleInfo) : Sdk RuleRun := do
  if !(← strcmpEq ruleItem.status "active") then return { ruleItem := ruleItem }
  if ruleInfoHasTimer ruleItem && !isTimerRule then return { ruleItem := ruleItem }
  if !ruleInfoHasTimer ruleItem && isTimerRule then return { ruleItem := ruleItem }
  if !timeRangeAdmits ruleItem.timeRange epochTime then return { ruleItem := ruleItem }
  let _ ← isTriggeredByTimer ruleItem epochTime
  evaluateAndExecute propertyCallback epochTime ruleItem

/-- `CheckRuleInfoListAndExecute`, rule by rule. -/
def checkRuleInfoListAndExecute (list : List RuleInfo)
    (propertyCallback : GetPropertyValueCallBack) (isTimerRule : Bool) (epochTime : ℤ) :
    Sdk (List RuleRun) :=
  list.mapM (checkRuleInfoAndExecute propertyCallback isTimerRule epochTime)

end IotDeviceSdk.DeviceRule
