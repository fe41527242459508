import IotDeviceSdk.CJson.Basic
import IotDeviceSdk.Prog.Alternates

/-!
# `detect_anomaly.c`: the detection tasks

A configuration message gives settings of the tasks in `g_mTasks`.  `Detect_LoadJsonData` stores
them as `newCheck`; `Detect_ReportDetectionInfo` makes `check` equal to them, calls the functions
of the tasks it turns on and off, and starts or stops the thread that reports.  The build is the one
without `SECURITY_AWARENESS_ENABLE`, which reads no file and has no further tasks.

The calls a message makes are the events of the state.
-/

namespace IotDeviceSdk.Service

open CJson

/-- The functions `init` and `destroy` of a task can point to. -/
inductive TaskFunction where
  | localLoginCheckInit
  | fileTamperCheckInit
  | fileTamperCheckDestroy
  | loginBruteForceCheckInit
  deriving DecidableEq

/-- `SituationAwarenessTasks`; the functions are `none` for `NULL`. -/
structure SituationAwarenessTasks where
  check : Bool := false
  newCheck : Bool := false
  checkName : String
  init : Option TaskFunction := none
  destroy : Option TaskFunction := none
  deriving DecidableEq

/-- `g_mTasks`. -/
def gMTasks : List SituationAwarenessTasks :=
  [{ checkName := "memoryCheck" },
   { checkName := "portCheck" },
   { checkName := "cpuUsageCheck" },
   { checkName := "diskSpaceCheck" },
   { checkName := "batteryPercentageCheck" },
   { checkName := "loginLocalCheck", init := some .localLoginCheckInit },
   { checkName := "fileTamperCheck"
     init := some .fileTamperCheckInit
     destroy := some .fileTamperCheckDestroy },
   { checkName := "loginBruteForceCheck", init := some .loginBruteForceCheckInit },
   { checkName := "maliciousIPCheck" }]

/-- `SecurityDetection`. -/
structure SecurityDetection where
  memoryThreshold : ℤ := 0
  cpuUsageThreshold : ℤ := 0
  diskSpaceThreshold : ℤ := 0
  batteryPercentageThreshold : ℤ := 0
  deriving DecidableEq

/-- What a message makes the code call: `init` and `destroy` of the `i`-th task, `pthread_create`,
`pthread_cancel` with `pthread_join`, and `IOTA_PropertiesReport` with the numbers of the
properties. -/
inductive DetectEvent where
  | init (i : ℕ)
  | destroy (i : ℕ)
  | pthreadCreate
  | pthreadCancel
  | propertiesReport (properties : List (String × ℤ))
  deriving DecidableEq

/-- The static data of `detect_anomaly.c`, whether the reporting thread exists, and the calls so
far. -/
structure DetectState where
  tasks : List SituationAwarenessTasks := gMTasks
  securityDetection : SecurityDetection := {}
  reportMemoryTaskRunning : Bool := false
  threadExists : Bool := false
  events : List DetectEvent := []
  deriving DecidableEq

/-- What handling a message finds outside itself. -/
structure DetectOutside where
  /-- `cJSON_Parse`, `none` for `NULL`. -/
  parseJson : String → Option CJson
  /-- The `int` a `double` outside its range is converted to, `none` for `NAN`. -/
  outOfRange : Option ℚ → ℤ
  /-- Whether `pthread_create` creates a thread. -/
  created : Bool

/-- `cJSON_GetNumberValue`, `none` for `NAN`. -/
def getNumberValue : CJson → Option ℚ
  | .number valuedouble => some valuedouble
  | _ => none

/-- The conversion of a `double` to `int`. -/
def intOfDouble (outside : DetectOutside) (value : Option ℚ) : ℤ :=
  match value with
  | some q =>
    if (INT_MIN : ℚ) - 1 < q ∧ q < (INT_MAX : ℚ) + 1 then truncate q
    else outside.outOfRange value
  | none => outside.outOfRange none

/-- The number of a member of the message, when there is one. -/
def loadNumber (outside : DetectOutside) (jsonData : CJson) (name : String) : Option ℤ :=
  (getObjectItem (some jsonData) name).map fun item => intOfDouble outside (getNumberValue item)

/-- The setting of a task in the message. -/
def loadCheck (outside : DetectOutside) (jsonData : CJson) (task : SituationAwarenessTasks) :
    SituationAwarenessTasks :=
  match loadNumber outside jsonData task.checkName with
  | some check => { task with newCheck := check ≠ 0 }
  | none => task

/-- `Detect_LoadJsonData`. -/
def detectLoadJsonData (outside : DetectOutside) (strData : String) (s : DetectState) :
    DetectState :=
  match outside.parseJson strData with
  | none => s
  | some jsonData =>
    let old := s.securityDetection
    { s with
      securityDetection :=
        { memoryThreshold :=
            (loadNumber outside jsonData "memoryThreshold").getD old.memoryThreshold
          cpuUsageThreshold :=
            (loadNumber outside jsonData "cpuUsageThreshold").getD old.cpuUsageThreshold
          diskSpaceThreshold :=
            (loadNumber outside jsonData "diskSpaceThreshold").getD old.diskSpaceThreshold
          batteryPercentageThreshold :=
            (loadNumber outside jsonData "batteryPercentageThreshold").getD
              old.batteryPercentageThreshold }
      tasks := s.tasks.map (loadCheck outside jsonData) }

/-- The functions of the `i`-th task that are called when its setting changes. -/
def taskCalls (i : ℕ) (task : SituationAwarenessTasks) : List DetectEvent :=
  (if task.newCheck && !task.check && task.init.isSome then [.init i] else []) ++
    (if !task.newCheck && task.check && task.destroy.isSome then [.destroy i] else [])

/-- The loop of `Detect_ReportDetectionInfo` from the `i`-th task on: `securityConfig`, the tasks
and the calls. -/
def reconcileTasks : ℕ → Bool → List SituationAwarenessTasks →
    Bool × List SituationAwarenessTasks × List DetectEvent
  | _, securityConfig, [] => (securityConfig, [], [])
  | i, securityConfig, task :: tasks =>
    let rest := reconcileTasks (i + 1) (securityConfig || task.newCheck) tasks
    (rest.1, { task with check := task.newCheck } :: rest.2.1, taskCalls i task ++ rest.2.2)

/-- `Detect_ReportDetectionInfo`. -/
def detectReportDetectionInfo (outside : DetectOutside) (s : DetectState) : DetectState :=
  let (securityConfig, tasks, calls) := reconcileTasks 0 false s.tasks
  let s := { s with tasks := tasks, events := s.events ++ calls }
  if securityConfig && !s.reportMemoryTaskRunning then
    { s with
      reportMemoryTaskRunning := true
      threadExists := outside.created
      events := s.events ++ [.pthreadCreate] }
  else if !securityConfig && s.reportMemoryTaskRunning then
    { s with
      reportMemoryTaskRunning := false
      threadExists := false
      events := s.events ++ [.pthreadCancel] }
  else s

/-- `Detect_ReportShadowDesired`. -/
def detectReportShadowDesired (s : DetectState) : DetectState :=
  let properties :=
    [("memoryThreshold", s.securityDetection.memoryThreshold),
     ("cpuUsageThreshold", s.securityDetection.cpuUsageThreshold),
     ("diskSpaceThreshold", s.securityDetection.diskSpaceThreshold),
     ("batteryPercentageThreshold", s.securityDetection.batteryPercentageThreshold)] ++
      s.tasks.map fun task => (task.checkName, if task.newCheck then 1 else 0)
  { s with events := s.events ++ [.propertiesReport properties] }

/-- `Detect_ParseShadowGetOrPropertiesSet`. -/
def detectParseShadowGetOrPropertiesSet (outside : DetectOutside) (propertiesDown : String)
    (s : DetectState) : DetectState :=
  detectReportShadowDesired
    (detectReportDetectionInfo outside (detectLoadJsonData outside propertiesDown s))

/-- The state after some messages, from the start of the program. -/
def detectMessages (messages : List (DetectOutside × String)) : DetectState :=
  messages.foldl (fun s message => detectParseShadowGetOrPropertiesSet message.1 message.2 s) {}

end IotDeviceSdk.Service
