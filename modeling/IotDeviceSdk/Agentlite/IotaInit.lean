import IotDeviceSdk.Base.Equiv.MqttRun
import IotDeviceSdk.DeviceRule.RuleManager

/-!
# `iota_init.c`

`IOTA_Init` over the MQTT client and the static variables of `rule_manager.c`, with every exit of
`RuleMgr_Init`.  The outcomes of `pthread_mutex_init` and `pthread_create` are indexed by the number
of such calls before; the state of the mutexes themselves is left out.

File storage of rules is compiled in.
-/

namespace IotDeviceSdk.Agentlite

open Prog Base
open DeviceRule (RuleInfo RuleMgr Files atomicStringUpdate)

/-- An array of `cJSON` that a static variable points to. -/
inductive JsonArray where
  | null
  | live (items : List CJson)
  | deleted

/-- `cJSON_Delete`; deleting twice is undefined. -/
def JsonArray.delete : JsonArray → Option JsonArray
  | .null => some .null
  | .live _ => some .deleted
  | .deleted => none

/-- The static variables of `rule_manager.c`, and how many threads run `RuleMgr_CheckAndExecute`.
The rule list is `none` when it has no block; handlers are numbered. -/
structure RuleMgrVars where
  g_ruleInfosList : Option (List RuleInfo) := none
  g_ruleInfosListJSON : JsonArray := .null
  g_ruleFilePath : Option String := none
  g_currentUserName : Option String := none
  g_cacheDeviceDataJSON : JsonArray := .null
  g_commandCallbackHandler : Option ℕ := none
  g_deviceRuleSendMsgCallBack : Option ℕ := none
  deviceRuleThreads : ℕ := 0

/-- The outside world of the device. -/
structure IotaEnv where
  client : MqttEnv
  /-- whether `pthread_mutex_init` succeeds -/
  mutexInit : ℕ → Bool
  /-- whether `pthread_create` succeeds -/
  threadCreate : ℕ → Bool

/-- The state of the device. -/
structure IotaState where
  client : MqttState := {}
  ruleMgr : RuleMgrVars := {}
  files : Files
  pthreads : ℕ := 0

/-- Code of the device. -/
abbrev Iota (α : Type) : Type := Prog IotaEnv IotaState α

/-- Code of the client as a part of the device. -/
def client {α : Type} (p : Mqtt α) : Iota α := fun env s =>
  (p env.client s.client).map fun r => (r.1, { s with client := r.2 })

/-- Ask the thread library. -/
def askPthread {α : Type} (q : IotaEnv → ℕ → α) : Iota α := fun env s =>
  some (q env s.pthreads, { s with pthreads := s.pthreads + 1 })

/-- The static variables of the rule manager. -/
def ruleMgrVars : Iota RuleMgrVars := do return (← get).ruleMgr

/-- Assign to static variables of the rule manager. -/
def assignRuleMgr (f : RuleMgrVars → RuleMgrVars) : Iota PUnit :=
  modify fun s => { s with ruleMgr := f s.ruleMgr }

/-! ### `RuleMgr_Init` -/

/-- `cJSON_CreateArray`. -/
def createArray : Iota JsonArray := do
  if ← client (sdk malloc) then return .live [] else return .null

/-- From the label `RELEASE_CJSON` on. -/
def releaseCJson : Iota Bool := do
  let v ← ruleMgrVars
  let ruleInfosListJSON ← ofOption v.g_ruleInfosListJSON.delete
  let cacheDeviceDataJSON ← ofOption v.g_cacheDeviceDataJSON.delete
  assignRuleMgr fun v => { v with
    g_ruleInfosListJSON := ruleInfosListJSON
    g_cacheDeviceDataJSON := cacheDeviceDataJSON }
  return false

/-- From the label `RELEASE_RULE_FILE_PATH` on. -/
def releaseRuleFilePath : Iota Bool := do
  assignRuleMgr fun v => { v with g_ruleFilePath := none }
  releaseCJson

/-- From the label `RELEASE_CURRENT_USER_NAME` on. -/
def releaseCurrentUserName : Iota Bool := do
  assignRuleMgr fun v => { v with g_currentUserName := none }
  releaseRuleFilePath

/-- The end of `RuleMgr_Init`: the rule list and the thread. -/
def startDeviceRules : Iota Bool := do
  if !(← client (sdk malloc)) then
    assignRuleMgr fun v => { v with g_ruleInfosList := none }
    return ← releaseCurrentUserName
  assignRuleMgr fun v => { v with g_ruleInfosList := some [] }
  if !(← askPthread IotaEnv.threadCreate) then
    assignRuleMgr fun v => { v with g_ruleInfosList := none }
    return ← releaseCurrentUserName
  assignRuleMgr fun v => { v with deviceRuleThreads := v.deviceRuleThreads + 1 }
  return true

/-- `RuleMgr_Init`. -/
def ruleMgrInit : Iota Bool := do
  let ruleInfosListJSON ← createArray
  assignRuleMgr fun v => { v with g_ruleInfosListJSON := ruleInfosListJSON }
  if let .null := ruleInfosListJSON then return ← releaseCJson
  let cacheDeviceDataJSON ← createArray
  assignRuleMgr fun v => { v with g_cacheDeviceDataJSON := cacheDeviceDataJSON }
  if let .null := cacheDeviceDataJSON then return ← releaseCJson
  assignRuleMgr fun v => { v with g_ruleFilePath := none }
  if !(← askPthread IotaEnv.mutexInit) then return ← releaseCJson
  assignRuleMgr fun v => { v with g_currentUserName := none }
  if !(← askPthread IotaEnv.mutexInit) then return ← releaseRuleFilePath
  assignRuleMgr fun v => { v with
    g_commandCallbackHandler := none
    g_deviceRuleSendMsgCallBack := none }
  if !(← askPthread IotaEnv.mutexInit) then return ← releaseCurrentUserName
  startDeviceRules

/-- `IOTA_Init`; a failure of `RuleMgr_Init` is only printed. -/
def iotaInit (workPath : Option CharBlock) : Iota ℤ := do
  let _ ← ruleMgrInit
  client (mqttBaseInit workPath)

/-! ### Other operations -/

/-- The rule manager as a record, when its list and its two arrays are there. -/
def RuleMgrVars.store (v : RuleMgrVars) (files : Files) : Option RuleMgr :=
  match v.g_ruleInfosList, v.g_ruleInfosListJSON, v.g_cacheDeviceDataJSON with
  | some ruleInfosList, .live ruleInfosListJSON, .live cacheDeviceDataJSON =>
    some {
      ruleInfosList := ruleInfosList
      ruleInfosListJSON := ruleInfosListJSON
      ruleFilePath := v.g_ruleFilePath
      cacheDeviceDataJSON := cacheDeviceDataJSON
      files := files }
  | _, _, _ => none

/-- An operation of the rule manager on its store, such as `ruleMgrParse`. -/
def onRuleMgr (op : RuleMgr → Sdk RuleMgr) : Iota PUnit := do
  let s ← get
  let mgr ← ofOption (s.ruleMgr.store s.files)
  let mgr ← client (sdk (op mgr))
  modify fun s => { s with
    ruleMgr := { s.ruleMgr with
      g_ruleInfosList := some mgr.ruleInfosList
      g_ruleInfosListJSON := .live mgr.ruleInfosListJSON
      g_ruleFilePath := mgr.ruleFilePath
      g_cacheDeviceDataJSON := .live mgr.cacheDeviceDataJSON }
    files := mgr.files }

/-- `RuleMgr_SetSendMsgCallback`. -/
def ruleMgrSetSendMsgCallback (cb : Option ℕ) : Iota PUnit :=
  assignRuleMgr fun v => { v with g_deviceRuleSendMsgCallBack := cb }

/-- `RuleMgr_SetCommandCallbackHandler`. -/
def ruleMgrSetCommandCallbackHandler (callbackHandler : Option ℕ) : Iota PUnit :=
  assignRuleMgr fun v => { v with g_commandCallbackHandler := callbackHandler }

/-- `RuleMgr_SetCurrentUserName`. -/
def ruleMgrSetCurrentUserName (username : Option String) : Iota Bool := do
  match ← client (sdk (atomicStringUpdate username)) with
  | none => return false
  | some str =>
    assignRuleMgr fun v => { v with g_currentUserName := str }
    return true

/-! ### Preconditions -/

variable {env : IotaEnv} {s : IotaState} {α : Type} {Q : α → IotaState → Prop}

@[simp] theorem wlp_client {p : Mqtt α} :
    Wlp env (client p) Q s ↔
      Wlp env.client p (fun a c => Q a { s with client := c }) s.client := by
  constructor
  · intro h a c hp
    exact h a _ (by simp [client, hp])
  · intro h a s' hs'
    obtain ⟨⟨b, c⟩, hp, heq⟩ := Option.map_eq_some_iff.mp hs'
    obtain ⟨rfl, rfl⟩ := Prod.mk.inj heq
    exact h b c hp

@[simp] theorem wlp_askPthread {q : IotaEnv → ℕ → α} :
    Wlp env (askPthread q) Q s ↔ Q (q env s.pthreads) { s with pthreads := s.pthreads + 1 } := by
  constructor
  · exact fun h => h _ _ rfl
  · rintro h a s' hs'
    obtain ⟨rfl, rfl⟩ := Prod.mk.inj (Option.some.inj hs')
    exact h

@[simp] theorem wlp_ruleMgrVars {Q : RuleMgrVars → IotaState → Prop} :
    Wlp env ruleMgrVars Q s ↔ Q s.ruleMgr s := by
  unfold ruleMgrVars
  rw [wlp_bind, wlp_get, wlp_pure]

@[simp] theorem wlp_assignRuleMgr {f : RuleMgrVars → RuleMgrVars} {Q : PUnit → IotaState → Prop} :
    Wlp env (assignRuleMgr f) Q s ↔ Q ⟨⟩ { s with ruleMgr := f s.ruleMgr } := wlp_modify

end IotDeviceSdk.Agentlite
