import IotDeviceSdk.Agentlite.PropertiesReport
import IotDeviceSdk.DeviceRule.Equiv.RuleCache
import IotDeviceSdk.DeviceRule.Equiv.RuleScheduling

/-!
# Property reports and the rules

`IOTA_PropertiesReportPayload` reads all the services of a report before it touches the rule manager
(`reportServices_returns`).

`propertiesReport_rules`: a report with a service that cannot be read changes nothing; another one
is cached, and then the rules are evaluated once, on that cache.
-/

namespace IotDeviceSdk.Agentlite

open CJson DeviceRule Prog Service VersionedStore

variable {env : Env} {services : List ServiceDataInfo} {mgr : RuleMgr} {epochTime : ℤ}

/-! ### Reading the services -/

/-- The properties of a service as JSON, `none` when they are none. -/
def parsedProperties (env : Env) (service : ServiceDataInfo) : Option CJson :=
  service.properties.bind env.parseJson

/-- The object of a service, `none` when its properties are no JSON. -/
def reportedItem (env : Env) (service : ServiceDataInfo) : Option CJson :=
  (parsedProperties env service).map (serviceItem service)

theorem serviceIdOf_serviceItem (service : ServiceDataInfo) (properties : CJson) :
    serviceIdOf (serviceItem service properties) = service.service_id := by
  have hid : caseInsensitiveEq "service_id" "service_id" = true := by decide +kernel
  have htime : caseInsensitiveEq "service_id" "event_time" = false := by decide +kernel
  have hproperties : caseInsensitiveEq "service_id" "properties" = false := by decide +kernel
  obtain ⟨service_id, event_time, text⟩ := service
  cases service_id <;> cases event_time <;>
    simp [serviceIdOf, serviceItem, addStringToObject, getString, getObjectItem, getStringValue,
      hid, htime, hproperties]

/-- One service. -/
theorem reportServicesStep_returns (service : ServiceDataInfo)
    (serviceDatas : Option (List CJson)) :
    Returns env (reportServicesStep service serviceDatas) fun r =>
      match reportedItem env service with
      | none => r = .done serviceDatas
      | some item => ∃ serviceDatas', r = .yield serviceDatas' ∧
          (env.AllocsSucceed → serviceDatas' = serviceDatas.map fun items => items ++ [item]) := by
  have hadd : ∀ properties : CJson, Returns env
      (malloc >>= fun allocated =>
        if allocated then
          pure (.yield (serviceDatas.map fun items => items ++ [serviceItem service properties]))
        else pure (.yield serviceDatas) : Sdk (ForInStep (Option (List CJson))))
      fun r => ∃ serviceDatas', r = .yield serviceDatas' ∧
        (env.AllocsSucceed →
          serviceDatas' =
            serviceDatas.map fun items => items ++ [serviceItem service properties]) := by
    intro properties
    refine malloc_returns.bind fun allocated hallocated => ?_
    cases allocated with
    | true => exact returns_pure ⟨_, rfl, fun _ => rfl⟩
    | false => exact returns_pure ⟨_, rfl, fun hA => absurd (hallocated hA) (by decide)⟩
  unfold reportServicesStep reportedItem parsedProperties
  cases service.properties with
  | none => exact returns_pure rfl
  | some text =>
    refine (ask_returns fun env => env.parseJson text).bind fun properties hproperties => ?_
    subst hproperties
    rw [Option.bind_some]
    cases env.parseJson text with
    | none => exact returns_pure rfl
    | some properties => exact hadd properties

/-- **The loop over the services** ends early when one cannot be read. -/
theorem reportServices_returns (services : List ServiceDataInfo)
    (serviceDatas : Option (List CJson)) :
    Returns env (Prog.forEach reportServicesStep services serviceDatas) fun r =>
      ((∃ service ∈ services, parsedProperties env service = none) → goesOn r = false) ∧
      ((∀ service ∈ services, (parsedProperties env service).isSome) →
        ∃ serviceDatas', r = .yield serviceDatas' ∧
          (env.AllocsSucceed → serviceDatas' = serviceDatas.map fun items =>
            items ++ services.filterMap (reportedItem env))) := by
  induction services generalizing serviceDatas with
  | nil => exact returns_pure ⟨by simp, fun _ => ⟨_, rfl, fun _ => by simp⟩⟩
  | cons service services ih =>
    refine (reportServicesStep_returns service serviceDatas).bind fun r hr => ?_
    cases hparsed : parsedProperties env service with
    | none =>
      rw [reportedItem, hparsed] at hr
      obtain rfl := hr
      refine returns_pure ⟨fun _ => rfl, fun hall => ?_⟩
      have hsome := hall service (by simp)
      rw [hparsed] at hsome
      cases hsome
    | some properties =>
      have hitem : reportedItem env service = some (serviceItem service properties) := by
        rw [reportedItem, hparsed]
        rfl
      rw [hitem] at hr
      obtain ⟨serviceDatas', rfl, hadded⟩ := hr
      refine (ih serviceDatas').mono fun r hr => ⟨?_, fun hall => ?_⟩
      · rintro ⟨x, hx, hnone⟩
        rcases List.mem_cons.mp hx with rfl | hx
        · rw [hparsed] at hnone
          cases hnone
        · exact hr.1 ⟨x, hx, hnone⟩
      · obtain ⟨result, rfl, hresult⟩ := hr.2 fun x hx => hall x (by simp [hx])
        refine ⟨result, rfl, fun hA => ?_⟩
        rw [hresult hA, hadded hA, Option.map_map, List.filterMap_cons_some hitem]
        simp [Function.comp_def]

/-! ### The cache of a report -/

/-- The last service of a report with an id, as the object that is cached for it. -/
def lastService (env : Env) (services : List ServiceDataInfo) (serviceId : String) :
    Option CJson :=
  ((services.filter fun service => service.service_id = some serviceId).filterMap
    (reportedItem env)).getLast?

/-- The cache after a report. -/
def reportCache (env : Env) (services : List ServiceDataInfo) (mgr : RuleMgr) : List CJson :=
  (services.filterMap (reportedItem env)).foldl cacheEntry mgr.cacheDeviceDataJSON

theorem serviceIdOf_reportedItem {service : ServiceDataInfo} {item : CJson}
    (h : reportedItem env service = some item) : serviceIdOf item = service.service_id := by
  obtain ⟨properties, -, rfl⟩ := Option.map_eq_some_iff.mp h
  exact serviceIdOf_serviceItem service properties

/-- The services with an id replace their entries, the last one of each id. -/
theorem find_reportCache (services : List ServiceDataInfo) (mgr : RuleMgr) (serviceId : String) :
    jsonFindServiceInListById (reportCache env services mgr) serviceId =
      (lastService env services serviceId).or
        (jsonFindServiceInListById mgr.cacheDeviceDataJSON serviceId) := by
  have hsame : ((services.filterMap (reportedItem env)).filter fun item =>
        decide (serviceIdOf item = some serviceId) && (serviceIdOf item).isSome) =
      (services.filter fun service => service.service_id = some serviceId).filterMap
        (reportedItem env) := by
    rw [List.filter_filterMap, List.filterMap_filter]
    congr 1
    funext service
    cases hitem : reportedItem env service with
    | none => simp
    | some item =>
      have hid := serviceIdOf_reportedItem hitem
      by_cases hservice : service.service_id = some serviceId
      · simp [hid, hservice]
      · simp [hid, hservice]
  unfold jsonFindServiceInListById reportCache lastService
  simp only [beq_serviceId]
  rw [foldl_cacheEntry, find?_foldl_insertLast_or, List.filter_filter, hsame]

/-! ### The report -/

/-- The rules are evaluated once, on this cache. -/
def EvaluatedOnce (env : Env) (mgr : RuleMgr) (epochTime : ℤ) (cache : List CJson)
    (report : PropertiesReport) : Prop :=
  ∃ runs, Outcome env (ruleMgrCheckAndExecuteNoTimers epochTime
      { mgr with cacheDeviceDataJSON := cache }) runs ∧ report.evaluations = [(cache, runs)] ∧
    report.mgr = { mgr with
      cacheDeviceDataJSON := cache
      ruleInfosList := runs.map RuleRun.ruleItem }

/-- A report with a service that cannot be read changes nothing. -/
theorem propertiesReport_rejected
    (h : ∃ service ∈ services, parsedProperties env service = none) :
    Returns env (iotaPropertiesReportPayload (some services) epochTime mgr) fun report =>
      report = { mgr := mgr } := by
  cases services with
  | nil =>
    obtain ⟨service, hmem, -⟩ := h
    cases hmem
  | cons service services =>
    unfold iotaPropertiesReportPayload
    dsimp only
    refine malloc_returns.bind fun root _ => malloc_returns.bind fun allocated _ => ?_
    refine (reportServices_returns (service :: services) _).bind fun r hr => ?_
    have hleft := hr.1 h
    cases r with
    | done serviceDatas => exact returns_pure rfl
    | yield serviceDatas => cases hleft

/-- The array of the services is cached before the rules are evaluated. -/
theorem reportServiceDatas_spec (hnodup : (mgr.cacheDeviceDataJSON.map serviceIdOf).Nodup)
    (hA : env.AllocsSucceed) (root : Bool) :
    Yields env
        (reportServiceDatas root (some (services.filterMap (reportedItem env))) epochTime mgr)
        (EvaluatedOnce env mgr epochTime (reportCache env services mgr)) ∧
      (Returns env (ruleMgrCheckAndExecuteNoTimers epochTime
          { mgr with cacheDeviceDataJSON := reportCache env services mgr }) (fun _ => True) →
        Returns env
          (reportServiceDatas root (some (services.filterMap (reportedItem env))) epochTime mgr)
          fun _ => True) := by
  have hcache : Returns env (ruleMgrCachePropertiesValue
      (some (.array (services.filterMap (reportedItem env)))) mgr) fun mgr' =>
        mgr' = { mgr with cacheDeviceDataJSON := reportCache env services mgr } :=
    (ruleMgrCachePropertiesValue_returns hnodup _).mono fun mgr' h => h.2 hA
  constructor
  · refine hcache.yields.bind fun mgr' hmgr' => ?_
    subst hmgr'
    intro report hreport
    obtain ⟨runs, hruns, hreport⟩ := outcome_bind hreport
    obtain ⟨payload, -, hreport⟩ := outcome_bind hreport
    obtain rfl := outcome_pure.mp hreport
    exact ⟨runs, hruns, rfl, rfl⟩
  · intro hreturns
    refine hcache.bind fun mgr' hmgr' => ?_
    subst hmgr'
    refine hreturns.bind fun runs _ => ?_
    exact (ask_returns _).bind fun payload _ => returns_pure trivial

/-- A report of which all services can be read is cached and evaluated. -/
theorem propertiesReport_accepted (hnodup : (mgr.cacheDeviceDataJSON.map serviceIdOf).Nodup)
    (hA : env.AllocsSucceed) (hne : services ≠ [])
    (h : ∀ service ∈ services, (parsedProperties env service).isSome) :
    Yields env (iotaPropertiesReportPayload (some services) epochTime mgr)
        (EvaluatedOnce env mgr epochTime (reportCache env services mgr)) ∧
      (Returns env (ruleMgrCheckAndExecuteNoTimers epochTime
          { mgr with cacheDeviceDataJSON := reportCache env services mgr }) (fun _ => True) →
        Returns env (iotaPropertiesReportPayload (some services) epochTime mgr) fun _ => True) := by
  obtain ⟨service, rest, rfl⟩ := List.exists_cons_of_ne_nil hne
  -- the loop leaves the array of all the services
  have hloop : ∀ allocated : Bool, (env.AllocsSucceed → allocated = true) →
      Returns env (Prog.forEach reportServicesStep (service :: rest)
        (if allocated then some [] else none)) fun r =>
          r = .yield (some ((service :: rest).filterMap (reportedItem env))) := by
    intro allocated hallocated
    refine (reportServices_returns (service :: rest) _).mono fun r hr => ?_
    obtain ⟨serviceDatas, rfl, hdatas⟩ := hr.2 h
    rw [hdatas hA, hallocated hA]
    rfl
  constructor
  · refine yields_trivial.bind fun root _ => ?_
    refine malloc_returns.yields.bind fun allocated hallocated => ?_
    refine (hloop allocated hallocated).yields.bind fun r hr => ?_
    subst hr
    exact (reportServiceDatas_spec hnodup hA root).1
  · intro hreturns
    refine malloc_returns.bind fun root _ => malloc_returns.bind fun allocated hallocated => ?_
    refine (hloop allocated hallocated).bind fun r hr => ?_
    subst hr
    exact (reportServiceDatas_spec hnodup hA root).2 hreturns

theorem nodup_reportCache (hnodup : (mgr.cacheDeviceDataJSON.map serviceIdOf).Nodup)
    (hA : env.AllocsSucceed) : ((reportCache env services mgr).map serviceIdOf).Nodup := by
  let serviceData : CJson := .array (services.filterMap (reportedItem env))
  have hcache : Returns env (ruleMgrCachePropertiesValue (some serviceData) mgr) _ :=
    ruleMgrCachePropertiesValue_returns hnodup (some serviceData)
  obtain ⟨mgr', -, hnodup', hmgr'⟩ := hcache.exists_outcome
  rw [hmgr' hA] at hnodup'
  exact hnodup'

/-- **A property report and the rules**: when the properties of a service are no JSON, the report
has no payload, the rule manager is left as it was and no rule is evaluated; when all of them are
and no allocation fails, the rules are evaluated once, on the cache in which the services with an id
have replaced their entries, the last one of each id. -/
theorem propertiesReport_rules (hnodup : (mgr.cacheDeviceDataJSON.map serviceIdOf).Nodup)
    (services : List ServiceDataInfo) (epochTime : ℤ) :
    ((∃ service ∈ services, parsedProperties env service = none) →
      Returns env (iotaPropertiesReportPayload (some services) epochTime mgr) fun report =>
        report = { payload := none, mgr := mgr, evaluations := [] }) ∧
    (env.AllocsSucceed → services ≠ [] →
      (∀ service ∈ services, (parsedProperties env service).isSome) →
        ∃ cache : List CJson, (cache.map serviceIdOf).Nodup ∧
          (∀ serviceId, jsonFindServiceInListById cache serviceId =
            (lastService env services serviceId).or
              (jsonFindServiceInListById mgr.cacheDeviceDataJSON serviceId)) ∧
          Yields env (iotaPropertiesReportPayload (some services) epochTime mgr)
            (EvaluatedOnce env mgr epochTime cache) ∧
          (Returns env (ruleMgrCheckAndExecuteNoTimers epochTime
              { mgr with cacheDeviceDataJSON := cache }) (fun _ => True) →
            Returns env (iotaPropertiesReportPayload (some services) epochTime mgr)
              fun _ => True)) := by
  refine ⟨propertiesReport_rejected, fun hA hne h => ?_⟩
  exact ⟨reportCache env services mgr, nodup_reportCache hnodup hA, find_reportCache services mgr,
    propertiesReport_accepted hnodup hA hne h⟩

/-- The properties of a room. -/
def roomProperties (temperature : ℚ) : CJson := .object [("temperature", .number temperature)]

/-- A service of the room. -/
def roomService (text : String) : ServiceDataInfo where
  service_id := some "room"
  properties := some text

/-- Two services with one id. -/
def roomTwice : List ServiceDataInfo :=
  [roomService "\x7b\"temperature\":15\x7d", roomService "\x7b\"temperature\":25\x7d"]

/-- The environment that reads them. -/
def roomEnv : Env :=
  { Env.plentiful with
    parseJson := fun text =>
      if text = "\x7b\"temperature\":15\x7d" then some (roomProperties 15)
      else if text = "\x7b\"temperature\":25\x7d" then some (roomProperties 25)
      else none }

/-- An entry of an older report. -/
def olderEntry (service_id : String) : CJson :=
  .object [("service_id", .string service_id), ("properties", roomProperties 10)]

/-- A manager with a rule and older entries. -/
def roomMgr : RuleMgr where
  ruleInfosList := [bareRule "or" [tooWarm]]
  cacheDeviceDataJSON := [olderEntry "room", olderEntry "fan"]
  files := fun _ => none

/-- A report with a service that cannot be read, and one in which the last service of the room
executes the rule. -/
theorem propertiesReport_rules_room :
    Returns roomEnv (iotaPropertiesReportPayload (some (roomTwice ++ [roomService "broken"])) 7
      roomMgr) (fun report => report = { payload := none, mgr := roomMgr, evaluations := [] }) ∧
    ∃ cache report,
      Outcome roomEnv (iotaPropertiesReportPayload (some roomTwice) 7 roomMgr) report ∧
      EvaluatedOnce roomEnv roomMgr 7 cache report ∧
      report.evaluations.map (fun evaluation => evaluation.2.map fun run => run.executed.isSome) =
        [[true]] ∧
      jsonFindServiceInListById cache "room" =
        some (serviceItem (roomService "\x7b\"temperature\":25\x7d") (roomProperties 25)) ∧
      jsonFindServiceInListById cache "fan" = some (olderEntry "fan") := by
  have hnodup : (roomMgr.cacheDeviceDataJSON.map serviceIdOf).Nodup := by decide
  constructor
  · exact (propertiesReport_rules hnodup (roomTwice ++ [roomService "broken"]) 7).1
      ⟨roomService "broken", List.mem_append_right _ (List.mem_singleton_self _), rfl⟩
  · have hparsed : ∀ service ∈ roomTwice, (parsedProperties roomEnv service).isSome := by
      decide
    obtain ⟨cache, -, hfind, hevaluated, -⟩ :=
      (propertiesReport_rules hnodup roomTwice 7).2 (fun _ => rfl) (List.cons_ne_nil _ _) hparsed
    have hrun : ((iotaPropertiesReportPayload (some roomTwice) 7 roomMgr) roomEnv default).map
        (fun r => r.1.evaluations.map fun evaluation =>
          evaluation.2.map fun run => run.executed.isSome) = some [[true]] := by
      decide +kernel
    obtain ⟨⟨report, c⟩, hreport, hexecuted⟩ := Option.map_eq_some_iff.mp hrun
    have houtcome : Outcome roomEnv (iotaPropertiesReportPayload (some roomTwice) 7 roomMgr)
        report := ⟨_, _, hreport⟩
    refine ⟨cache, report, houtcome, hevaluated report houtcome, hexecuted, ?_, ?_⟩
    · exact (hfind "room").trans rfl
    · exact (hfind "fan").trans rfl

/-- An environment in which every text is an empty object. -/
def emptyObjects : Env := { Env.plentiful with parseJson := fun _ => some (.object []) }

/-- A service with properties. -/
def lampOnly : List ServiceDataInfo := [{ service_id := some "lamp", properties := some "{}" }]

/-- A manager without rules and reports. -/
def idleMgr : RuleMgr := { files := fun _ => none }

/-- An array without services is refused, and a service that cannot be copied loses its entry. -/
theorem empty_report_not_evaluated :
    (¬∀ (env : Env) (services : List ServiceDataInfo) (mgr : RuleMgr) (epochTime : ℤ)
      (report : PropertiesReport), env.AllocsSucceed →
        (∀ service ∈ services, (parsedProperties env service).isSome) →
          Outcome env (iotaPropertiesReportPayload (some services) epochTime mgr) report →
            report.evaluations.length = 1) ∧
    ¬∀ (env : Env) (services : List ServiceDataInfo) (mgr : RuleMgr) (epochTime : ℤ)
      (report : PropertiesReport), services ≠ [] → mgr.cacheDeviceDataJSON = [] →
        (∀ service ∈ services, (parsedProperties env service).isSome) →
          Outcome env (iotaPropertiesReportPayload (some services) epochTime mgr) report →
            ∀ serviceId, jsonFindServiceInListById report.mgr.cacheDeviceDataJSON serviceId =
              lastService env services serviceId := by
  constructor
  · intro hclaim
    have honce := hclaim Env.plentiful [] idleMgr 7 { mgr := idleMgr } (fun _ => rfl) (by simp)
      ⟨default, default, rfl⟩
    cases honce
  · intro hclaim
    let starved : Env := { emptyObjects with mallocs := fun _ => false }
    have hrun : (iotaPropertiesReportPayload (some lampOnly) 7 idleMgr starved
        default).map (fun r => r.1.mgr.cacheDeviceDataJSON.length) = some 0 := by
      decide +kernel
    obtain ⟨⟨report, c⟩, hout, hcache⟩ := Option.map_eq_some_iff.mp hrun
    have hparsed : ∀ service ∈ lampOnly,
        (parsedProperties starved service).isSome := by
      intro service hservice
      rw [List.mem_singleton.mp hservice]
      rfl
    have hfind := hclaim starved lampOnly idleMgr 7 report (List.cons_ne_nil _ _) rfl
      hparsed ⟨_, _, hout⟩ "lamp"
    rw [List.length_eq_zero_iff.mp hcache] at hfind
    cases hfind

end IotDeviceSdk.Agentlite
