import IotDeviceSdk.Service.CallbackFunc.OnMessageArrived

/-!
# `bridge_topic_data.c`

The topics of a bridge.  The `return topic` of `Birdge_SetTopic` stands inside the `switch`, behind
the `return` of its `default`, so that a run that has built a topic ends without a value; the caller
uses the value all the same, which is undefined.
-/

namespace IotDeviceSdk.Service

open Prog

def BRIDGE_TOPIC_PREFIX : String := "$oc/bridges/"
def BRIDGE_TOPIC_DEVICE : String := "/devices/"
def BRIDGE_TOPIC_LOGIN : String := "/sys/login/request_id="
def BRIDGE_TOPIC_LOGOUT : String := "/sys/logout/request_id="
def BRIDGE_TOPIC_RESET_SECRET : String := "/sys/reset_secret/request_id="
def BRIDGE_TOPIC_MESSAGES_UP : String := "/sys/messages/up"
def BRIDGE_TOPIC_COMMANDS_RESPONSE : String := "/sys/commands/response/request_id="
def BRIDGE_TOPIC_PROPERTIES : String := "/sys/properties/report"
def BRIDGE_TOPIC_GATEWAY_PROPERTIES : String := "/gateway/sub_devices/properties/report"
def BRIDGE_TOPIC_SET_PROPERTIES : String := "/sys/properties/set/response/request_id="
def BRIDGE_TOPIC_GET_PROPERTIES : String := "/sys/properties/get/response/request_id="
def BRIDGE_TOPIC_GET_SHADOW : String := "/sys/shadow/get/request_id="
def BRIDGE_TOPIC_EVENTS_UP : String := "/sys/events/up"

/-- `BRIDGE_DEVICE_TYPE`; `other` is a value that is none of the enumerators. -/
inductive BridgeDeviceType where
  | login
  | logout
  | resetSecret
  | messagesUp
  | commandsResponse
  | properties
  | gatewayProperties
  | setProperties
  | getProperties
  | getShadow
  | eventsUp
  | other
  deriving DecidableEq

/-- What the `switch` of `Birdge_SetTopic` puts after the device id, and whether the request id
follows it; `none` for its `default`. -/
def BridgeDeviceType.suffix : BridgeDeviceType → Option (String × Bool)
  | login => some (BRIDGE_TOPIC_LOGIN, true)
  | logout => some (BRIDGE_TOPIC_LOGOUT, true)
  | resetSecret => some (BRIDGE_TOPIC_RESET_SECRET, true)
  | messagesUp => some (BRIDGE_TOPIC_MESSAGES_UP, false)
  | commandsResponse => some (BRIDGE_TOPIC_COMMANDS_RESPONSE, true)
  | properties => some (BRIDGE_TOPIC_PROPERTIES, false)
  | gatewayProperties => some (BRIDGE_TOPIC_GATEWAY_PROPERTIES, false)
  | setProperties => some (BRIDGE_TOPIC_SET_PROPERTIES, true)
  | getProperties => some (BRIDGE_TOPIC_GET_PROPERTIES, true)
  | getShadow => some (BRIDGE_TOPIC_GET_SHADOW, true)
  | eventsUp => some (BRIDGE_TOPIC_EVENTS_UP, false)
  | other => none

/-- The topic a case of the `switch` builds. -/
def bridgeTopic (username deviceId requestId : Option String) (suffix : String × Bool) :
    Sdk (Option String) :=
  combineStrings BRIDGE_TOPIC_PREFIX
    ([username, BRIDGE_TOPIC_DEVICE, deviceId, suffix.1] ++ if suffix.2 then [requestId] else [])

/-- `Birdge_SetTopic`, with the username of the configuration. -/
def birdgeSetTopic (username : Option String) (mode : BridgeDeviceType)
    (deviceId requestId : Option String) : Sdk (Option String) :=
  if username.isNone then pure none
  else
    match mode.suffix with
    | none => pure none
    | some suffix => do
      let _topic ← bridgeTopic username deviceId requestId suffix
      undefined

end IotDeviceSdk.Service
