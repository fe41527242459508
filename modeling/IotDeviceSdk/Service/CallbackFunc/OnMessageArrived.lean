import IotDeviceSdk.Service.CallbackFunc.Events
import IotDeviceSdk.Service.CallbackFunc.Shadow

/-!
# `callback_func.c`: `OnMessageArrived`

The dispatcher tries its patterns one after the other and hands the message to the handler of the
first that occurs in the topic; when none of its own does it asks `OnBridgeArrived`, which has
patterns of its own.
-/

namespace IotDeviceSdk.Service

open Prog

/-- The handlers the dispatcher and `OnBridgeArrived` hand a message to. -/
inductive Handler where
  | onBootstrapDownArrived
  | onMessagesDownArrived
  | onV1DevicesArrived
  | onCommandsArrived
  | onPropertiesSetArrived
  | onPropertiesGetArrived
  | onShadowGetResponseArrived
  | onUserTopicArrived
  | onEventsDownArrived
  | onM2mMessagesDownArrived
  | onBridgesLoginArrived
  | onBridgesLogoutArrived
  | onBridgesResetSecretArrived
  | onBridgesDeviceDisconnectArrived
  | onOtherUndefinedTopicArrived
  deriving DecidableEq

/-- `StringLength(StrInStr(topic, subStr)) > 0`. -/
def occursIn (subStr topic : String) : Bool :=
  0 < stringLength (strInStr (some topic) (some subStr))

/-- `getBridgeDeviceId`: the text between the first `/devices/` and the first `/sys/`.  Without the
former `start` is `NULL`, and without the latter `finish`. -/
def getBridgeDeviceId (topic : String) : Sdk (Option String) := do
  match strInStr (some topic) (some TOPIC_SUFFIX_DEVICES),
      strInStr (some topic) (some TOPIC_SUFFIX_SYS) with
  | some devices, some finish =>
    let start := devices.toList.drop TOPIC_SUFFIX_DEVICES.length
    if start.length ≤ finish.length then return none
    if !(← malloc) then return none
    return some (String.ofList (start.take (start.length - finish.length)))
  | none, some _ => do
    -- copying from `NULL` fails
    let _ ← malloc
    return none
  | _, none => return none

/-- `OnBridgeArrived`: the handlers it calls, and its return value. -/
def onBridgeArrived (topic : String) : List Handler × ℤ :=
  if occursIn TOPIC_SUFFIX_LOGIN topic then ([.onBridgesLoginArrived], 0)
  else if occursIn TOPIC_SUFFIX_LOGOUT topic then ([.onBridgesLogoutArrived], 0)
  else if occursIn TOPIC_SUFFIX_RESET_SECRET topic then ([.onBridgesResetSecretArrived], 0)
  else if occursIn TOPIC_SUFFIX_DISCONNECT topic then ([.onBridgesDeviceDisconnectArrived], 0)
  else ([], -1)

/-- The handlers `OnMessageArrived` calls for a topic, one after the other. -/
def handlersCalled (topic : String) : List Handler :=
  if occursIn BOOTSTRAP_DOWN topic then [.onBootstrapDownArrived]
  else if occursIn TOPIC_SUFFIX_MESSAGEDOWN topic then [.onMessagesDownArrived]
  else if occursIn TOPIC_PREFIX_V3 topic then [.onV1DevicesArrived]
  else if occursIn TOPIC_SUFFIX_COMMAND topic then [.onCommandsArrived]
  else if occursIn TOPIC_SUFFIX_PROP_SET topic then [.onPropertiesSetArrived]
  else if occursIn TOPIC_SUFFIX_PROP_GET topic then [.onPropertiesGetArrived]
  else if occursIn TOPIC_SUFFIX_PROP_RSP topic then [.onShadowGetResponseArrived]
  else if occursIn TOPIC_SUFFIX_USER topic then [.onUserTopicArrived]
  else if occursIn TOPIC_SUFFIX_EVENT_DOWN topic then [.onEventsDownArrived]
  else if occursIn TOPIC_PREFIX_M2M topic then [.onM2mMessagesDownArrived]
  else
    let (handlers, ret) := onBridgeArrived topic
    if ret < 0 then handlers else handlers ++ [.onOtherUndefinedTopicArrived]

/-- A call of a handler. -/
def Handler.run (arrival : Arrival) (bridgeDeviceId : Option String) (getTime : ℤ → ℤ) :
    Handler → Sdk (List Call)
  | .onBootstrapDownArrived => Service.onBootstrapDownArrived arrival
  | .onMessagesDownArrived => Service.onMessagesDownArrived arrival bridgeDeviceId
  | .onV1DevicesArrived => Service.onV1DevicesArrived arrival
  | .onCommandsArrived => Service.onCommandsArrived arrival bridgeDeviceId
  | .onPropertiesSetArrived => Service.onPropertiesSetArrived arrival bridgeDeviceId
  | .onPropertiesGetArrived => Service.onPropertiesGetArrived arrival bridgeDeviceId
  | .onShadowGetResponseArrived => Service.onShadowGetResponseArrived arrival bridgeDeviceId
  | .onUserTopicArrived => Service.onUserTopicArrived arrival
  | .onEventsDownArrived => Service.onEventsDownArrived arrival bridgeDeviceId getTime
  | .onM2mMessagesDownArrived => Service.onM2mMessagesDownArrived arrival
  | .onBridgesLoginArrived => onBridgesLoginOrLogoutArrived arrival bridgeDeviceId true
  | .onBridgesLogoutArrived => onBridgesLoginOrLogoutArrived arrival bridgeDeviceId false
  | .onBridgesResetSecretArrived => Service.onBridgesResetSecretArrived arrival bridgeDeviceId
  | .onBridgesDeviceDisconnectArrived =>
    Service.onBridgesDeviceDisconnectArrived arrival bridgeDeviceId
  | .onOtherUndefinedTopicArrived => Service.onOtherUndefinedTopicArrived arrival bridgeDeviceId

/-- The `bridgeDeviceId` of `OnMessageArrived`: only a topic that starts like those of bridges has
one. -/
def bridgeDeviceIdOf (topic : String) : Sdk (Option String) :=
  if strInStr (some topic) (some TOPIC_PREFIX_BRIDGE) = some topic then getBridgeDeviceId topic
  else pure none

/-- `OnMessageArrived`: the calls its handlers make. -/
def onMessageArrived (arrival : Arrival) (getTime : ℤ → ℤ) : Sdk (List Call) := do
  let bridgeDeviceId ← bridgeDeviceIdOf arrival.topic
  let calls ← (handlersCalled arrival.topic).mapM (Handler.run arrival bridgeDeviceId getTime)
  return calls.flatten

end IotDeviceSdk.Service
