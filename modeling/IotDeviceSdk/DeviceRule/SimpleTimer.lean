import IotDeviceSdk.DeviceRule.RuleManager
import IotDeviceSdk.Libc.Arith

/-!
# Simple timers

`CalculateSimpleTimerCondition` once more, with the fault it commits where it is undefined, and
successive passes of `CheckRuleInfoListAndExecute` for the timers.
-/

namespace IotDeviceSdk.DeviceRule

open Prog

/-- `CalculateSimpleTimerCondition`, or the trap it runs into. -/
def calculateSimpleTimerConditionChecked (condition : SimpleTimerCondition) (epochTime : ℤ) :
    Except IntTrap Bool := do
  if epochTime < condition.startTime then return false
  let diff ← intOfDifftime epochTime condition.startTime
  if (← intRem diff condition.repeatInterval) ≠ 0 then return false
  let count ← intDiv diff condition.repeatInterval
  if count ≥ condition.repeatCount then return false
  return true

/-- Passes for the timers over a list of rules, at given instants and with given properties: each
finds the rules as the pass before left them. -/
def timerPasses :
    List (GetPropertyValueCallBack × ℤ) → List RuleInfo → Sdk (List (List RuleRun))
  | [], _ => pure []
  | (callback, epochTime) :: passes, list => do
    let runs ← checkRuleInfoListAndExecute list callback true epochTime
    let rest ← timerPasses passes (runs.map RuleRun.ruleItem)
    return runs :: rest

end IotDeviceSdk.DeviceRule
