import IotDeviceSdk.Prog.ForEach
import IotDeviceSdk.Service.Base
import IotDeviceSdk.Service.CallbackFunc.Calls
import IotDeviceSdk.Util.JsonUtil
import IotDeviceSdk.Util.StringUtil

/-!
# `callback_func.c`: the handlers of messages, commands, properties and bridges

A handler is the list of the calls it makes; it makes none when it has no memory for its message.
Each allocates the record of its message and the `mqtt_msg_info` of the record.

The handlers of requests cut the request id out of the topic after its first `=`; without one they
step from a `NULL` pointer, which is undefined.
-/

namespace IotDeviceSdk.Service

open CJson Prog

/-- What `OnMessageArrived` is called with. -/
structure Arrival where
  info : MqttMsgInfo
  topic : String
  message : String
  messageLength : ℤ

/-- The allocation of a message and of its `mqtt_msg_info`, and what is called with them. -/
def withMessage (calls : Sdk (List Call)) : Sdk (List Call) := do
  if !(← malloc) then return []
  if !(← malloc) then return []
  calls

/-- `strstr(topic, "=")`, then the text from the next character on. -/
def requestIdOf (topic : String) : Sdk String :=
  match strstr topic "=" with
  | none => undefined
  | some requestId_value => pure (String.ofList requestId_value.toList.tail)

/-- `cJSON_Print` of a possibly missing item. -/
def cJsonPrint (item : Option CJson) : Sdk (Option String) :=
  ask fun env => item.bind env.printJson

/-- `JSON_Parse`. -/
def jsonParse (value : String) : Sdk (Option CJson) := ask fun env => env.parseJson value

/-! ### Messages -/

/-- `OnBootstrapDownArrived`. -/
def onBootstrapDownArrived (arrival : Arrival) : Sdk (List Call) :=
  withMessage do
    let root ← jsonParse arrival.message
    return [.onBootstrap
      { mqtt_msg_info := arrival.info
        message := jsonGetStringFromObject root "address" "-1"
        deviceSecret := jsonGetStringFromObject root "deviceSecret" "-1" }]

/-- The four texts of a message in system format. -/
structure SystemFormat where
  objectDeviceId : Option String
  name : Option String
  id : Option String
  content : Option String

/-- Whether a member is missing, `null` or a text. -/
def isTextOrNull : Option CJson → Bool
  | none => true
  | some .null => true
  | some (.string _) => true
  | _ => false

/-- Whether an item is an object. -/
def isObject : Option CJson → Bool
  | some (.object _) => true
  | _ => false

/-- `GetMessageInSystemFormat`, `none` for `false`. -/
def getMessageInSystemFormat (root : Option CJson) : Sdk (Option SystemFormat) :=
  match root with
  | some (.object child) => do
    let keys := ["content", "object_device_id", "name", "id"]
    if child.any fun kvInMessage => !keys.contains kvInMessage.1 then return none
    let contentObject := getObjectItem root "content"
    let objectDeviceIdObject := getObjectItem root "object_device_id"
    let nameObject := getObjectItem root "name"
    let idObject := getObjectItem root "id"
    if !isTextOrNull objectDeviceIdObject || !isTextOrNull nameObject || !isTextOrNull idObject ||
        !(isTextOrNull contentObject || isObject contentObject) then
      return none
    let content ← if isObject contentObject then cJsonPrint contentObject
      else pure (getStringValue contentObject)
    return some
      { objectDeviceId := getStringValue objectDeviceIdObject
        name := getStringValue nameObject
        id := getStringValue idObject
        content := content }
  | _ => pure none

/-- `OnRawMessageDownArrived`. -/
def onRawMessageDownArrived (arrival : Arrival) : Sdk (List Call) :=
  withMessage <| pure [.onRawMessage
    { mqttMsgInfo := arrival.info
      payloadLength := arrival.messageLength
      payload := arrival.message }]

/-- `OnMessagesDownArrived`. -/
def onMessagesDownArrived (arrival : Arrival) (bridgeDeviceId : Option String) :
    Sdk (List Call) := do
  let rawCalls ← onRawMessageDownArrived arrival
  let root ← jsonParse arrival.message
  let calls ← withMessage do
    let some format ← getMessageInSystemFormat root
      | return []
    return [.onMessage
      { mqtt_msg_info := arrival.info
        object_device_id := format.objectDeviceId
        name := format.name
        id := format.id
        content := format.content
        bridge_device_id := bridgeDeviceId }]
  return rawCalls ++ calls

/-- `OnOtherUndefinedTopicArrived`. -/
def onOtherUndefinedTopicArrived (arrival : Arrival) (bridgeDeviceId : Option String) :
    Sdk (List Call) :=
  withMessage <| pure [.onOtherUndefined
    { mqtt_msg_info := arrival.info
      payload := arrival.message
      bridge_device_id := bridgeDeviceId }]

/-- `OnM2mMessagesDownArrived`. -/
def onM2mMessagesDownArrived (arrival : Arrival) : Sdk (List Call) :=
  withMessage do
    let root ← jsonParse arrival.message
    return [.onM2mMessage
      { mqtt_msg_info := arrival.info
        request_id := jsonGetStringFromObject root "request_id" none
        «to» := jsonGetStringFromObject root "to" none
        «from» := jsonGetStringFromObject root "from" none
        content := jsonGetStringFromObject root "content" none }]

/-- `OnV1DevicesArrived`. -/
def onV1DevicesArrived (arrival : Arrival) : Sdk (List Call) :=
  withMessage do
    let root ← jsonParse arrival.message
    let paras ← cJsonPrint (jsonGetObjectFromObject root "paras")
    return [.onCmdV3
      { mqtt_msg_info := arrival.info
        msgType := CLOUD_REQ
        serviceId := jsonGetStringFromObject root "serviceId" "-1"
        cmd := jsonGetStringFromObject root "cmd" "-1"
        paras := paras
        mid := jsonGetIntFromObject root "mid" (-1) }]

/-! ### Requests -/

/-- A handler that cuts the request id out of the topic and then allocates its message. -/
def withRequestId (topic : String) (calls : String → Sdk (List Call)) : Sdk (List Call) := do
  let request_id ← requestIdOf topic
  withMessage (calls request_id)

/-- `OnCommandsArrived`. -/
def onCommandsArrived (arrival : Arrival) (bridgeDeviceId : Option String) : Sdk (List Call) :=
  withRequestId arrival.topic fun request_id => do
    let root ← jsonParse arrival.message
    let paras ← cJsonPrint (jsonGetObjectFromObject root "paras")
    return [.onCmd
      { mqtt_msg_info := arrival.info
        object_device_id := jsonGetStringFromObject root "object_device_id" "-1"
        service_id := jsonGetStringFromObject root "service_id" "-1"
        command_name := jsonGetStringFromObject root "command_name" "-1"
        paras := paras
        request_id := request_id
        bridge_device_id := bridgeDeviceId }]

/-- `MAX_SERVICE_COUNT`. -/
def MAX_SERVICE_COUNT : ℕ := 50

/-- What other modules of the SDK are called with for a service of a request: the rules and the
detection settings have services of their own. -/
def internalServiceCalls (service_id : String) (properties : Option String) : List Call :=
  if service_id = "$device_rule" then [.ruleTransDeviceRuleUpdate properties]
  else if service_id = "$security_detection_config" then
    [.detectParseShadowGetOrPropertiesSet properties]
  else []

/-- One round of the loop of `OnPropertiesSetArrived`; a service without a text as its id is passed
over. -/
def onPropertiesSetStep (done : List ServiceProperty × List Call) (service : CJson) :
    Sdk (List ServiceProperty × List Call) :=
  match jsonGetStringFromObject service "service_id" none with
  | none => pure done
  | some service_id => do
    let prop ← cJsonPrint (jsonGetObjectFromObject service "properties")
    return (done.1 ++ [{ service_id := service_id, properties := prop }],
      done.2 ++ internalServiceCalls service_id prop)

/-- `OnPropertiesSetArrived`. -/
def onPropertiesSetArrived (arrival : Arrival) (bridgeDeviceId : Option String) :
    Sdk (List Call) :=
  withRequestId arrival.topic fun request_id => do
    let root ← jsonParse arrival.message
    let services := jsonGetObjectFromObject root "services"
    if MAX_SERVICE_COUNT ≤ jsonGetArraySize services then return []
    if !(← malloc) then return []
    let (services, calls) ← (forEachItems services).foldlM onPropertiesSetStep ([], [])
    return calls ++ [.onPropertiesSet
      { mqtt_msg_info := arrival.info
        object_device_id := jsonGetStringFromObject root "object_device_id" "-1"
        request_id := request_id
        services := services
        bridge_device_id := bridgeDeviceId }]

/-- `OnPropertiesGetArrived`. -/
def onPropertiesGetArrived (arrival : Arrival) (bridgeDeviceId : Option String) :
    Sdk (List Call) :=
  withRequestId arrival.topic fun request_id => do
    let root ← jsonParse arrival.message
    return [.onPropertiesGet
      { mqtt_msg_info := arrival.info
        object_device_id := jsonGetStringFromObject root "object_device_id" "-1"
        request_id := request_id
        service_id := jsonGetStringFromObject root "service_id" "-1"
        bridge_device_id := bridgeDeviceId }]

/-! ### User topics -/

/-- `OnUserTpoicRawMessage`. -/
def onUserTpoicRawMessage (arrival : Arrival) (topicParas : String) : Sdk (List Call) :=
  withMessage <| pure [.onUserTopicRawMessage
    { mqttMsgInfo := arrival.info
      payloadLength := arrival.messageLength
      payload := arrival.message
      topicPara := topicParas }]

/-- `OnUserTopicArrived`: the topic parameter is the text five characters after the first
`"user/"`. -/
def onUserTopicArrived (arrival : Arrival) : Sdk (List Call) :=
  match strstr arrival.topic "user/" with
  | none => undefined
  | some topicParasValue => do
    let topicParas := String.ofList (topicParasValue.toList.drop 5)
    let rawCalls ← onUserTpoicRawMessage arrival topicParas
    let root ← jsonParse arrival.message
    let calls ← withMessage do
      let some format ← getMessageInSystemFormat root
        | return []
      return [.onUserTopicMessage
        { mqtt_msg_info := arrival.info
          object_device_id := format.objectDeviceId
          name := format.name
          id := format.id
          content := format.content
          topic_para := topicParas }]
    return rawCalls ++ calls

/-! ### Bridges -/

/-- `OnBridgesLoginOrLogoutArrived`. -/
def onBridgesLoginOrLogoutArrived (arrival : Arrival) (bridgeDeviceId : Option String)
    (isLogin : Bool) : Sdk (List Call) :=
  withRequestId arrival.topic fun request_id => do
    let root ← jsonParse arrival.message
    let log : BridgesLogin :=
      { mqtt_msg_info := arrival.info
        result_code := jsonGetIntFromObject root "result_code" (-1)
        bridge_device_id := bridgeDeviceId
        request_id := request_id }
    return if isLogin then [.onBridgesDeviceLogin log] else [.onBridgesDeviceLogout log]

/-- `OnBridgesResetSecretArrived`. -/
def onBridgesResetSecretArrived (arrival : Arrival) (bridgeDeviceId : Option String) :
    Sdk (List Call) :=
  withRequestId arrival.topic fun request_id => do
    let root ← jsonParse arrival.message
    let paras ← cJsonPrint (jsonGetObjectFromObject root "paras")
    return [.onBridgesDeviceResetSecret
      { mqtt_msg_info := arrival.info
        result_code := jsonGetIntFromObject root "result_code" (-1)
        bridge_device_id := bridgeDeviceId
        paras := paras
        request_id := request_id
        new_secret := jsonGetStringFromObject root "new_secret" "-1" }]

/-- `OnBridgesDeviceDisconnectArrived`. -/
def onBridgesDeviceDisconnectArrived (arrival : Arrival) (bridgeDeviceId : Option String) :
    Sdk (List Call) :=
  withMessage <| pure [.onBridgesDeviceDisconnect
    { mqtt_msg_info := arrival.info
      bridge_device_id := bridgeDeviceId }]

/-! ### Results -/

variable {env : Env} {P Q : List Call → Prop}

theorem withMessage_returns {calls : Sdk (List Call)} (hnil : P [])
    (hcalls : Returns env calls fun r => P r ∧ (env.AllocsSucceed → Q r)) :
    Returns env (withMessage calls) fun r => P r ∧ (env.AllocsSucceed → Q r) := by
  unfold withMessage
  exact returns_allocated hnil (returns_allocated hnil hcalls)

theorem withRequestId_eq (topic : String) (calls : String → Sdk (List Call)) :
    withRequestId topic calls =
      match strstr topic "=" with
      | none => undefined
      | some requestId_value =>
        withMessage (calls (String.ofList requestId_value.toList.tail)) := by
  unfold withRequestId requestIdOf
  cases strstr topic "=" with
  | none => rfl
  | some requestId_value => rfl

/-- No call hands over a request id. -/
def NoRequestId (calls : List Call) : Prop := ∀ call ∈ calls, call.requestId = none

theorem NoRequestId.append {calls calls' : List Call} (h : NoRequestId calls)
    (h' : NoRequestId calls') : NoRequestId (calls ++ calls') := by
  intro call hcall
  rcases List.mem_append.mp hcall with hcall | hcall
  · exact h call hcall
  · exact h' call hcall

theorem internalServiceCalls_noRequestId (service_id : String) (properties : Option String) :
    NoRequestId (internalServiceCalls service_id properties) := by
  unfold internalServiceCalls
  split
  · simp [NoRequestId, Call.requestId]
  · split
    · simp [NoRequestId, Call.requestId]
    · simp [NoRequestId]

theorem getMessageInSystemFormat_returns (root : Option CJson) :
    Returns env (getMessageInSystemFormat root) fun _ => True := by
  unfold getMessageInSystemFormat
  split
  · dsimp only
    split
    · exact returns_pure trivial
    · split
      · exact returns_pure trivial
      · split
        · exact (ask_returns _).bind fun _ _ => returns_pure trivial
        · exact returns_pure trivial
  · exact returns_pure trivial

end IotDeviceSdk.Service
