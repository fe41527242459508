import IotDeviceSdk.Agentlite.IotaPayload
import IotDeviceSdk.DeviceRule.RuleManager

/-!
# `iota_payload.c`: the payload of a property report

`IOTA_PropertiesReportPayload` puts the services of a report into an array, and when all of them
could be read it hands the array to the rule manager, which caches it and evaluates the rules that
have no timer.  An array of services is a list here, and each evaluation of the rules is logged with
the cache it read.
-/

namespace IotDeviceSdk.Agentlite

open CJson DeviceRule Prog Service

/-- `ST_IOTA_SERVICE_DATA_INFO`. -/
structure ServiceDataInfo where
  service_id : Option String := none
  event_time : Option String := none
  properties : Option String := none

/-- The object of a service with its properties. -/
def serviceItem (service : ServiceDataInfo) (properties : CJson) : CJson :=
  let tmp := addStringToObject [] "service_id" service.service_id
  let tmp := addStringToObject tmp "event_time" service.event_time
  .object (tmp ++ [("properties", properties)])

/-- One round of the loop of `IOTA_PropertiesReportPayload`, left when the properties cannot be
read; an object that could not be allocated is not added, nor is one to a missing array. -/
def reportServicesStep (service : ServiceDataInfo) (serviceDatas : Option (List CJson)) :
    Sdk (ForInStep (Option (List CJson))) := do
  let properties ← match service.properties with
    | some properties => jsonParse properties
    | none => pure none
  match properties with
  | none => return .done serviceDatas
  | some properties =>
    if ← malloc then
      return .yield (serviceDatas.map fun items => items ++ [serviceItem service properties])
    else return .yield serviceDatas

/-- What a property report leaves: its payload, `none` for `NULL`, the rule manager and the
evaluations of the rules. -/
structure PropertiesReport where
  payload : Option String := none
  mgr : RuleMgr
  evaluations : List (List CJson × List RuleRun) := []

/-- The end of `IOTA_PropertiesReportPayload`, with the array of all the services. -/
def reportServiceDatas (root : Bool) (serviceDatas : Option (List CJson)) (epochTime : ℤ)
    (mgr : RuleMgr) : Sdk PropertiesReport := do
  let mgr ← ruleMgrCachePropertiesValue (serviceDatas.map CJson.array) mgr
  let runs ← ruleMgrCheckAndExecuteNoTimers epochTime mgr
  let services := serviceDatas.map fun items => ("services", CJson.array items)
  let payload ← cJsonPrint (if root then some (.object services.toList) else none)
  return {
    payload := payload
    mgr := { mgr with ruleInfosList := runs.map RuleRun.ruleItem }
    evaluations := [(mgr.cacheDeviceDataJSON, runs)] }

/-- `IOTA_PropertiesReportPayload` at an instant. -/
def iotaPropertiesReportPayload (pServiceData : Option (List ServiceDataInfo)) (epochTime : ℤ)
    (mgr : RuleMgr) : Sdk PropertiesReport := do
  match pServiceData with
  | none => return { mgr := mgr }
  | some [] => return { mgr := mgr }
  | some pServiceData =>
    let root ← malloc
    let serviceDatas ← malloc
    match ← forEach reportServicesStep pServiceData (if serviceDatas then some [] else none) with
    | .done _ => return { mgr := mgr }
    | .yield serviceDatas => reportServiceDatas root serviceDatas epochTime mgr

end IotDeviceSdk.Agentlite
