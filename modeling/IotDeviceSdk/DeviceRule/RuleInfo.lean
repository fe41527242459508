import IotDeviceSdk.DeviceRule.RuleUtil
import IotDeviceSdk.Libc.Scan
import Mathlib.Data.BitVec

/-!
# `rule_condition.c`, `rule_action.c`, `rule_info.c`

The records of a rule: its conditions, its actions, its time range, and the readers of weekday
lists, times of day and timestamps.

A `char *` field is an `Option String`, `none` for `NULL`.  A weekday set is the bit mask
`DaysOfWeekRecord`: bit 1 is Sunday, bit 7 is Saturday, bit 0 is unused.
-/

namespace IotDeviceSdk.DeviceRule

/-! ### Conditions -/

/-- `DaysOfWeekRecord`, an `unsigned char`. -/
abbrev DaysOfWeekRecord := BitVec 8

/-- `DaysOfWeekSaturday`. -/
def daysOfWeekSaturday : DaysOfWeekRecord := 1 <<< 7

/-- Whether a mask has the bit of a `tm_wday`, `daysOfWeek & (1 << (tm_wday + 1))`. -/
def DaysOfWeekRecord.hasDay (daysOfWeek : DaysOfWeekRecord) (tm_wday : Fin 7) : Bool :=
  daysOfWeek &&& (1 <<< (tm_wday.val + 1)) != 0

structure DeviceInfo where
  deviceId : Option String := none
  path : Option String := none

structure DailyTimerCondition where
  time : ℤ := 0
  daysOfWeek : DaysOfWeekRecord := 0
  lastExecutedTime : Fin 7 → ℤ := fun _ => 0

structure DeviceDataCondition where
  operator : Option String := none
  value : Option String := none
  deviceInfo : DeviceInfo := {}

structure SimpleTimerCondition where
  startTime : ℤ := 0
  repeatInterval : ℤ := 0
  repeatCount : ℤ := 0

/-- `ConditionType`. -/
inductive ConditionType where
  | empty | dailyTimer | deviceData | simpleTimer
  deriving DecidableEq

/-- `Condition`: the tag and the union in one. -/
inductive Condition where
  | empty
  | dailyTimer (data : DailyTimerCondition)
  | deviceData (data : DeviceDataCondition)
  | simpleTimer (data : SimpleTimerCondition)

/-- The tag of a condition. -/
def Condition.type : Condition → ConditionType
  | .empty => .empty
  | .dailyTimer _ => .dailyTimer
  | .deviceData _ => .deviceData
  | .simpleTimer _ => .simpleTimer

/-- `ConditionTypeFromStr`. -/
def conditionTypeFromStr (type : String) : ConditionType :=
  if type = "DEVICE_DATA" then .deviceData
  else if type = "SIMPLE_TIMER" then .simpleTimer
  else if type = "DAILY_TIMER" then .dailyTimer
  else .empty

/-- `ConditionCtor`. -/
def conditionCtor : Sdk (Option Condition) := pure (some .empty)

/-- `ConditionListPush`. -/
def conditionListPush (conditions : List Condition) : Sdk (Option (List Condition × Condition)) :=
  dynamicArrayPush conditions conditionCtor

/-- The body of `SaveDaysOfWeek`'s loop needs at most one round for each character. -/
def saveDaysOfWeek.go : ℕ → List Char → DaysOfWeekRecord → Option DaysOfWeekRecord
  | 0, _, daysOfWeek => some daysOfWeek
  | _ + 1, [], daysOfWeek => some daysOfWeek
  | fuel + 1, startOfNumber, daysOfWeek =>
    match startOfNumber.dropWhile fun c => c = ' ' || c = ',' with
    | [] => none
    | c :: rest =>
      if '1' ≤ c ∧ c ≤ '7' then
        let day := c.toNat - '0'.toNat
        go fuel ((c :: rest).dropWhile Char.isDigit) (daysOfWeek ||| (1 <<< day))
      else none

/-- `SaveDaysOfWeek`: the mask, or `none` for `HW_FALSE`. -/
def saveDaysOfWeek (s : Option String) : Option DaysOfWeekRecord :=
  match s with
  | none => none
  | some s => saveDaysOfWeek.go s.length s.toList 0

/-- `HHMMSStoSecond`. -/
def hhmmssToSecond (hour minute second : ℤ) : ℤ := cInt ((hour * 60 + minute) * 60 + second)

/-- `ConvertTimeStrToSeconds`: components that are not read stay zero.  The second attempt, with
the format `%d:%d`, is made when the first one meets the end of the input. -/
def convertTimeStrToSeconds (s : Option String) : Option ℤ :=
  match s with
  | none => none
  | some s =>
    let assigned :=
      match sscanf [.int, .lit ':', .int, .lit ':', .int] s.toList with
      | some values => some values
      | none => sscanf [.int, .lit ':', .int] s.toList
    assigned.map fun values =>
      hhmmssToSecond (values[0]?.getD 0) (values[1]?.getD 0) (values[2]?.getD 0)

/-- `GMTTimestampFromStr`: components that are not read keep what the stack held. -/
def gmtTimestampFromStr (s : Option String) : Sdk (Option ℤ) := do
  let timeStruct ← uninitialisedTm
  match s with
  | none => return none
  | some s =>
    match sscanf [.int, .lit '-', .int, .lit '-', .int, .blank, .int, .lit ':', .int, .lit ':',
        .int] s.toList with
    | none => return none
    | some values =>
      return some <| timegm
        { tm_year := cInt (values[0]?.getD timeStruct.tm_year - 1900)
          tm_mon := cInt (values[1]?.getD timeStruct.tm_mon - 1)
          tm_mday := values[2]?.getD timeStruct.tm_mday
          tm_hour := values[3]?.getD timeStruct.tm_hour
          tm_min := values[4]?.getD timeStruct.tm_min
          tm_sec := values[5]?.getD timeStruct.tm_sec }

/-! ### Actions -/

structure Command where
  commandName : Option String := none
  commandBody : Option CJson := none
  serviceId : Option String := none

structure Action where
  type : Option String := none
  status : Option String := none
  deviceId : Option String := none
  command : Command := {}

/-- `ActionCtor`. -/
def actionCtor : Sdk (Option Action) := pure (some {})

/-- `ActionListPush`. -/
def actionListPush (actions : List Action) : Sdk (Option (List Action × Action)) :=
  dynamicArrayPush actions actionCtor

/-! ### Rules -/

structure TimeRange where
  startTime : ℤ := 0
  endTime : ℤ := 0
  daysOfWeek : DaysOfWeekRecord := 0

/-- `TimeRangeIsNuLL`. -/
def timeRangeIsNull (self : TimeRange) : Bool := self.daysOfWeek == 0

structure RuleInfo where
  ruleId : Option String := none
  ruleName : Option String := none
  logic : Option String := none
  timeRange : TimeRange := {}
  status : Option String := none
  conditions : List Condition := []
  actions : List Action := []
  ruleVersionInShadow : ℤ := 0

/-- `RuleInfoCtor`: the lists of conditions and of actions each get a block. -/
def ruleInfoCtor : Sdk (Option RuleInfo) := do
  if !(← malloc) then return none
  if !(← malloc) then return none
  return some {}

/-- `RuleInfoListPush`. -/
def ruleInfoListPush (ruleInfos : List RuleInfo) : Sdk (Option (List RuleInfo × RuleInfo)) :=
  dynamicArrayPush ruleInfos ruleInfoCtor

end IotDeviceSdk.DeviceRule
