import IotDeviceSdk.DeviceRule.RuleManager

/-!
# The timer thread of `rule_manager.c`

`RuleMgr_CheckAndExecute` reads the clock at the head of an iteration, for the second it evaluates,
and once more after the pass, for the time it asks to sleep.  Both readings are inputs of the
iteration, as are the states of the manager under the two locks it takes: other threads may change
the rules in between.
-/

namespace IotDeviceSdk.DeviceRule

open Prog

/-- `struct timeval`, as `gettimeofday` fills it. -/
structure Timeval where
  tv_sec : ℤ
  tv_usec : ℕ
  deriving DecidableEq

/-- `GeySysTmeInMs`, an `unsigned long long`. -/
def geySysTmeInMs (tv : Timeval) : ℕ := ((tv.tv_sec * 1000 + tv.tv_usec / 1000) % 2 ^ 64).toNat

/-- An iteration of the timer thread: its two clock readings, the second it evaluates, what the pass
did and the time it asks to sleep. -/
structure TimerIteration where
  first : Timeval
  second : Timeval
  epochTime : ℤ
  runs : List RuleRun
  sleepMs : ℤ

/-- The body of the loop of `RuleMgr_CheckAndExecute`, up to the call of `usleep`. -/
def ruleMgrCheckAndExecuteIteration (first second : Timeval) (tested mgr : RuleMgr) :
    Sdk TimerIteration := do
  let epochTime : ℤ := geySysTmeInMs first / 1000
  let isEmptyRule := tested.ruleInfosList.isEmpty
  let runs ← if !isEmptyRule then ruleMgrCheckAndExecute epochTime mgr else pure []
  let sleepMs := 1000 - cInt (geySysTmeInMs second % 1000)
  return ⟨first, second, epochTime, runs, sleepMs⟩

/-- Iterations of the timer thread from a clock reading on.  The clock does not go back, a pass
takes any time, and `usleep` sleeps at least as long as it is asked to. -/
inductive TimerLoop (env : Env) : ℤ → List TimerIteration → Prop
  | nil {wakeMs : ℤ} : TimerLoop env wakeMs []
  | cons {wakeMs : ℤ} {first second : Timeval} {tested mgr : RuleMgr} {iteration : TimerIteration}
    {rest : List TimerIteration} (hwake : wakeMs ≤ geySysTmeInMs first)
    (hclock : geySysTmeInMs first ≤ geySysTmeInMs second)
    (hiteration : Outcome env (ruleMgrCheckAndExecuteIteration first second tested mgr) iteration)
    (hrest : TimerLoop env (geySysTmeInMs second + iteration.sleepMs) rest) :
    TimerLoop env wakeMs (iteration :: rest)

end IotDeviceSdk.DeviceRule
