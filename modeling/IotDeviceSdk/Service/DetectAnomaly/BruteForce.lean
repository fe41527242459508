import IotDeviceSdk.DeviceRule.TimerLoop
import IotDeviceSdk.Util.StringUtil

/-!
# `detect_anomaly.c`: brute-force logins

The times of the last five failed logins stand in an array that is written round and round.  A
report reads the new lines of the log, records the failed logins among them and checks after each
line whether the five lie close together.  Times are exact: the code compares them as `double`.
-/

namespace IotDeviceSdk.Service

open DeviceRule (Timeval)

/-- `LOGIN_BRUTE_FORCE_LOGIN_CNT`. -/
def LOGIN_BRUTE_FORCE_LOGIN_CNT : ℕ := 5

/-- `LOGIN_BRUTE_FORCE_LOGIN_INTERVAL`. -/
def LOGIN_BRUTE_FORCE_LOGIN_INTERVAL : ℚ := 10

/-- `DetectLoginBruteForceCheckArgs`. -/
structure DetectLoginBruteForceCheckArgs where
  loginFailedTimeRecords : List Timeval := List.replicate LOGIN_BRUTE_FORCE_LOGIN_CNT ⟨0, 0⟩
  oldestRecordIndex : ℕ := 0
  fileOffset : ℤ := 0
  deriving DecidableEq

/-- The seconds of a time. -/
def timevalSeconds (tv : Timeval) : ℚ := tv.tv_sec + tv.tv_usec / (1000 * 1000)

/-- `LoginBruteForceProcessCheckCriticalFreq`; reading outside the array is undefined. -/
def loginBruteForceProcessCheckCriticalFreq (oldestRecordIndex : ℕ)
    (loginFailedTimeRecords : List Timeval) : Option Bool := do
  let lastRecordIndex :=
    if oldestRecordIndex = 0 then LOGIN_BRUTE_FORCE_LOGIN_CNT - 1
    else (oldestRecordIndex - 1) % LOGIN_BRUTE_FORCE_LOGIN_CNT
  let oldestRecord ← loginFailedTimeRecords[oldestRecordIndex]?
  let lastRecord ← loginFailedTimeRecords[lastRecordIndex]?
  return timevalSeconds lastRecord - timevalSeconds oldestRecord < LOGIN_BRUTE_FORCE_LOGIN_INTERVAL

/-- `LoginBruteForceCheckInit`, on the size of the log, `none` when it cannot be opened. -/
def loginBruteForceCheckInit (size : Option ℤ) (args : DetectLoginBruteForceCheckArgs) :
    Bool × DetectLoginBruteForceCheckArgs :=
  let args := { args with oldestRecordIndex := 0 }
  match size with
  | none => (false, args)
  | some size =>
    (true,
      { args with
        fileOffset := size
        loginFailedTimeRecords := List.replicate LOGIN_BRUTE_FORCE_LOGIN_CNT ⟨0, 0⟩ })

/-- The format `"message repeated %d times"`. -/
def repeatedFormat : List ScanDirective :=
  "message".toList.map .lit ++ [.blank] ++ "repeated".toList.map .lit ++ [.blank, .int, .blank] ++
    "times".toList.map .lit

/-- `msgCount`. -/
def msgCount (logLine : String) : ℤ :=
  match strstr logLine "message repeated " with
  | none => 1
  | some repeatedTimeMessage =>
    match sscanf repeatedFormat repeatedTimeMessage.toList with
    | some (count :: _) => count
    | _ => 1

/-- Whether a line is about a failed login that counts. -/
def isLoginFailure (logLine : String) : Bool :=
  (strstr logLine "authentication failure").isSome && !(strstr logLine "sudo").isSome

/-- The loop that writes a time, with the rounds that are left. -/
def recordTimes (tv : Timeval) :
    ℕ → DetectLoginBruteForceCheckArgs → Option DetectLoginBruteForceCheckArgs
  | 0, args => some args
  | n + 1, args =>
    if args.oldestRecordIndex < args.loginFailedTimeRecords.length then
      recordTimes tv n
        { args with
          loginFailedTimeRecords := args.loginFailedTimeRecords.set args.oldestRecordIndex tv
          oldestRecordIndex := (args.oldestRecordIndex + 1) % LOGIN_BRUTE_FORCE_LOGIN_CNT }
    else none

/-- A line of the log, with the time of day when it is read. -/
structure LogLine where
  text : String
  tv : Timeval
  deriving DecidableEq

/-- The body of the loop of `LoginBruteForceReport`: the result of the check, `none` for a line that
is passed over, and the state. -/
def loginBruteForceLine (args : DetectLoginBruteForceCheckArgs) (line : LogLine) :
    Option (Option Bool × DetectLoginBruteForceCheckArgs) := do
  if !isLoginFailure line.text then return (none, args)
  let args ← recordTimes line.tv (msgCount line.text).toNat args
  let detected ← loginBruteForceProcessCheckCriticalFreq args.oldestRecordIndex
    args.loginFailedTimeRecords
  return (some detected, args)

/-- The loop of `LoginBruteForceReport`: `hasBruteForceLogin` and the state. -/
def loginBruteForceLines (hasBruteForceLogin : Bool) (args : DetectLoginBruteForceCheckArgs) :
    List LogLine → Option (Bool × DetectLoginBruteForceCheckArgs)
  | [] => some (hasBruteForceLogin, args)
  | line :: lines => do
    let (detected, args) ← loginBruteForceLine args line
    loginBruteForceLines (hasBruteForceLogin || detected.getD false) args lines

/-- What a report finds of the log. -/
structure AuthLog where
  /-- Whether `fopen` succeeds. -/
  opened : Bool
  /-- The size `fstat` gives, `none` when it fails. -/
  st_size : Option ℤ
  /-- Whether `fseek` succeeds. -/
  sought : Bool
  /-- What `fgets` reads from the offset on. -/
  lines : List LogLine
  /-- `ftello` at the end. -/
  currentFileSize : ℤ

/-- `LoginBruteForceReport`: the value of `login_brute_force_alarm`, and the state. -/
def loginBruteForceReport (log : AuthLog) (args : DetectLoginBruteForceCheckArgs) :
    Option (Bool × DetectLoginBruteForceCheckArgs) :=
  match log.opened, log.st_size with
  | true, some st_size =>
    if st_size = args.fileOffset then some (false, args)
    else do
      let (hasBruteForceLogin, args) ←
        loginBruteForceLines false args (if log.sought then log.lines else [])
      return (hasBruteForceLogin,
        { args with
          fileOffset :=
            if log.currentFileSize ≠ -1 ∧ log.currentFileSize ≠ args.fileOffset then
              log.currentFileSize
            else st_size })
  | _, _ => some (false, args)

end IotDeviceSdk.Service
