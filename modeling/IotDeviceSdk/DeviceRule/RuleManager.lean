import IotDeviceSdk.DeviceRule.RuleExecution
import IotDeviceSdk.DeviceRule.RuleParser

/-!
# `rule_manager.c`

The rule store of the device with its mirror, the array of entries that is written to the rule
file.  The static variables of the file and the files of the device are one record, `RuleMgr`; the
functions run under the lock of the module one after the other, so each maps the record to the
record it leaves.  File storage of rules is compiled in; locks and threads are always obtained.
-/

namespace IotDeviceSdk.DeviceRule

open CJson Prog

/-- The content of the files, by resolved path. -/
abbrev Files := String → Option String

/-- The static variables of `rule_manager.c`, and the files. -/
structure RuleMgr where
  ruleInfosList : List RuleInfo := []
  ruleInfosListJSON : List CJson := []
  ruleFilePath : Option String := none
  cacheDeviceDataJSON : List CJson := []
  files : Files

/-- `RuleMgr_Init`, `none` for `HW_FALSE`: it allocates the two arrays and the block of the rule
list. -/
def ruleMgrInit (files : Files) : Sdk (Option RuleMgr) := do
  if !(← malloc) then return none
  if !(← malloc) then return none
  if !(← malloc) then return none
  return some { files := files }

/-! ### Reading properties -/

/-- `IOTA_JsonFindServiceInListById`. -/
def jsonFindServiceInListById (services : List CJson) (serviceId : String) : Option CJson :=
  services.find? fun serviceItem => getString serviceItem "service_id" == some serviceId

/-- The search of `getPropertyCallback` through the properties of a service. -/
def findProperty : List (Option String × CJson) → String → Option PropertyRead
  | [], _ => some .failed
  | (none, _) :: _, _ => none
  | (some key, propertyItem) :: rest, propertyName =>
    if key ≠ propertyName then findProperty rest propertyName
    else
      match propertyItem with
      | .string valuestring => some (.value (.cstr valuestring))
      | .number valuedouble => some (.value (.double (.num valuedouble)))
      | _ => some .unwritten

/-- `getPropertyCallback`. -/
def getPropertyCallback (cacheDeviceDataJSON : List CJson) : GetPropertyValueCallBack :=
  fun serviceId propertyName =>
    let serviceJSON := jsonFindServiceInListById cacheDeviceDataJSON serviceId
    let propertiesJSON := getObjectItem serviceJSON "properties"
    findProperty ((propertiesJSON.map members).getD []) propertyName

/-- One round of the loop of `RuleMgr_CachePropertiesValue`. -/
def cachePropertiesStep (cacheDeviceDataJSON : List CJson) (serviceJSON : CJson) :
    Sdk (List CJson) :=
  match getString serviceJSON "service_id" with
  | none => pure cacheDeviceDataJSON
  | some serviceId => do
    let cacheDeviceDataJSON := cacheDeviceDataJSON.eraseP fun (serviceItem : CJson) =>
      getString serviceItem "service_id" == some serviceId
    match ← cJsonDuplicate (some serviceJSON) with
    | some copy => return cacheDeviceDataJSON ++ [copy]
    | none => return cacheDeviceDataJSON

/-- `RuleMgr_CachePropertiesValue`. -/
def ruleMgrCachePropertiesValue (serviceData : Option CJson) (mgr : RuleMgr) : Sdk RuleMgr := do
  let cacheDeviceDataJSON ←
    (forEachItems serviceData).foldlM cachePropertiesStep mgr.cacheDeviceDataJSON
  return { mgr with cacheDeviceDataJSON := cacheDeviceDataJSON }

/-- `RuleMgr_CheckAndExecuteNoTimers` at an instant. -/
def ruleMgrCheckAndExecuteNoTimers (epochTime : ℤ) (mgr : RuleMgr) : Sdk (List RuleRun) :=
  checkRuleInfoListAndExecute mgr.ruleInfosList (getPropertyCallback mgr.cacheDeviceDataJSON) false
    epochTime

/-- One pass of the loop of `RuleMgr_CheckAndExecute` at an instant. -/
def ruleMgrCheckAndExecute (epochTime : ℤ) (mgr : RuleMgr) : Sdk (List RuleRun) :=
  checkRuleInfoListAndExecute mgr.ruleInfosList (getPropertyCallback mgr.cacheDeviceDataJSON) true
    epochTime

/-! ### The mirror -/

/-- `AtomicStringUpdate`: the new text, or `none` when it is left as it was. -/
def atomicStringUpdate (str : Option String) : Sdk (Option (Option String)) := cStrDuplicate str

/-- `AtomicStringCopy`. -/
def atomicStringCopy (self : Option String) : Sdk (Option String) := do
  match ← cStrDuplicate self with
  | some ret => return ret
  | none => return none

/-- The object `RuleJSONObjSaveToFile` prints. -/
def ruleFileRoot (ruleInfosListJSON : List CJson) : CJson :=
  .object [("rulesInfos", .array ruleInfosListJSON)]

/-- `RuleJSONObjSaveToFile`: the files afterwards.  When the root object exists but the mirror could
not be added to it, detaching the mirror follows its `NULL` link. -/
def ruleJSONObjSaveToFile (filePath : Option String) (ruleInfosListJSON : List CJson)
    (files : Files) : Sdk Files := do
  let some filePath := filePath
    | return files
  if !(← malloc) then return files
  if !(← malloc) then undefined
  let some content ← ask fun env => env.printJson (ruleFileRoot ruleInfosListJSON)
    | return files
  let some realFilePath ← ask fun env => env.realpath filePath
    | return files
  if ← ask fun env => env.writable realFilePath then
    return Function.update files realFilePath (some content)
  else return files

/-- `RuleJSONObjDelById`. -/
def ruleJSONObjDelById (ruleInfosListJSON : List CJson) (ruleId : Option String) :
    Sdk (List CJson) :=
  match ruleId with
  | none => pure ruleInfosListJSON
  | some ruleId => go ruleId ruleInfosListJSON
where
  /-- The search for the entry to detach. -/
  go (ruleId : String) : List CJson → Sdk (List CJson)
    | [] => pure []
    | searchRule :: rest => do
      if ← strcmpEq (getString searchRule "ruleId") ruleId then return rest
      let rest ← go ruleId rest
      return searchRule :: rest

/-- `UpdateRuleJSONObj`, the hook of the manager; its target is the mirror. -/
def updateRuleJSONObj : ParseDeviceRuleHook (List CJson) :=
  fun ruleInfosListJSON removeOrAdd rule =>
  if removeOrAdd then ruleJSONObjDelById ruleInfosListJSON (getString rule "ruleId")
  else do
    match ← cJsonDuplicate (some rule) with
    | some copy => return ruleInfosListJSON ++ [copy]
    | none => return ruleInfosListJSON

/-! ### The operations -/

/-- The call of `ParseDeviceRuleWithHook` on the store and the mirror. -/
def parseIntoStore (paras : Option CJson) (mgr : RuleMgr) : Sdk RuleMgr := do
  let (ruleInfosList, target) ← parseDeviceRuleWithHook (some updateRuleJSONObj) paras
    (mgr.ruleInfosList, some mgr.ruleInfosListJSON)
  return { mgr with
    ruleInfosList := ruleInfosList
    ruleInfosListJSON := target.getD mgr.ruleInfosListJSON }

/-- The call of `RuleJSONObjSaveToFile` on the mirror. -/
def saveMirror (filePath : Option String) (mgr : RuleMgr) : Sdk RuleMgr := do
  let files ← ruleJSONObjSaveToFile filePath mgr.ruleInfosListJSON mgr.files
  return { mgr with files := files }

/-- `RuleMgr_ParseJSON`. -/
def ruleMgrParseJSON (paras : Option CJson) (mgr : RuleMgr) : Sdk RuleMgr := do
  let filePath ← atomicStringCopy mgr.ruleFilePath
  let mgr ← parseIntoStore paras mgr
  saveMirror filePath mgr

/-- `RuleMgr_Parse`. -/
def ruleMgrParse (payload : Option String) (mgr : RuleMgr) : Sdk RuleMgr := do
  let paras ← ask fun env => payload.bind env.parseJson
  ruleMgrParseJSON paras mgr

/-- `RuleMgr_GetList`. -/
def ruleMgrGetList (properties : Option CJson) (mgr : RuleMgr) : Sdk (ForInStep RuleLists) :=
  getRuleInfoList properties { list := mgr.ruleInfosList }

/-- `RuleMgr_DelRule`. -/
def ruleMgrDelRule (delList : List RuleInfo) (mgr : RuleMgr) : Sdk RuleMgr := do
  let filePath ← atomicStringCopy mgr.ruleFilePath
  let ruleInfosListJSON ← delList.foldlM
    (fun ruleInfosListJSON listItem => ruleJSONObjDelById ruleInfosListJSON listItem.ruleId)
    mgr.ruleInfosListJSON
  let ruleInfosList ← deletRulesFromList mgr.ruleInfosList delList
  saveMirror filePath
    { mgr with ruleInfosList := ruleInfosList, ruleInfosListJSON := ruleInfosListJSON }

/-- `RuleMgr_EnableDeviceRuleStorage`. -/
def ruleMgrEnableDeviceRuleStorage (filePath : Option String) (mgr : RuleMgr) : Sdk RuleMgr := do
  let some ruleFilePath ← atomicStringUpdate filePath
    | return mgr
  let mgr := { mgr with ruleFilePath := ruleFilePath }
  let some realFilePath ← ask fun env => filePath.bind env.realpath
    | return mgr
  let some content := mgr.files realFilePath
    | return mgr
  if !(← malloc) then return mgr
  let paras ← ask fun env => env.parseJson content
  parseIntoStore paras mgr

end IotDeviceSdk.DeviceRule
