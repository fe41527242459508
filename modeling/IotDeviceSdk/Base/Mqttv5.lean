import IotDeviceSdk.Env
import IotDeviceSdk.Prog.ForEach

/-!
# `mqtt_base.c`: the properties of MQTT 5

`DataConversion` turns a `MQTTV5_DATA` into a property set of the MQTT library and
`DataConversionArrived` turns a set back.  The value of a property is a union: its text is only
there to read when a text was put in, and what is read otherwise is indeterminate, as is a local
variable that was not assigned.  An indeterminate value is `none` here.

The property container of the library is not part of the repository: `PropertyApi` is what the
conversions use of it.
-/

namespace IotDeviceSdk.Base

open Prog

/-- `enum MQTTPropertyCodes`, as far as the conversions tell the codes apart. -/
inductive MqttPropertyCode where
  | userProperty
  | contentType
  | responseTopic
  | correlationData
  | topicAlias
  | other
  deriving DecidableEq

/-- The union of a `MQTTProperty`, by the member that was assigned. -/
inductive MqttPropertyValue where
  /-- `integer4` -/
  | integer4 (n : ℤ)
  /-- `data` -/
  | data (text : String)
  /-- `data` and `value` -/
  | pair (name value : String)

/-- `value.data.data`. -/
def MqttPropertyValue.dataText : MqttPropertyValue → Option String
  | integer4 _ => none
  | data text => some text
  | pair name _ => some name

/-- `value.value.data`. -/
def MqttPropertyValue.valueText : MqttPropertyValue → Option String
  | pair _ value => some value
  | _ => none

/-- `MQTTProperty`. -/
structure MqttProperty where
  identifier : MqttPropertyCode
  value : MqttPropertyValue

/-- The property container of the MQTT library. -/
structure PropertyApi where
  /-- `MQTTProperties` -/
  Properties : Type
  /-- `MQTTProperties_initializer` -/
  initializer : Properties
  /-- `MQTTProperties_add` -/
  add : Properties → MqttProperty → Properties
  /-- `array`, up to `count` -/
  array : Properties → List MqttProperty
  array_initializer : array initializer = []
  /-- The entries added are returned, in order and with their types. -/
  array_add : ∀ props prop, array (add props prop) = array props ++ [prop]

/-- `UINT_MAX`. -/
def UINT_MAX : UInt32 := 4294967295

/-- `MQTTV5_DATA`, the list of the user properties in order. -/
structure MqttV5Data where
  properties : List (String × String)
  contnt_type : Option String
  response_topic : Option String
  correlation_data : Option String
  topic_alias : UInt32
  deriving DecidableEq

/-- `mqttv5_initializer`. -/
def mqttv5Initializer : MqttV5Data where
  properties := []
  contnt_type := none
  response_topic := none
  correlation_data := none
  topic_alias := UINT_MAX

/-- `(short)` of an `unsigned int`. -/
def shortOfUnsigned (n : UInt32) : ℤ := (n.toNat : ℤ).bmod (2 ^ 16)

/-- A string property, added when the text is not `NULL`. -/
def addText (api : PropertyApi) (identifier : MqttPropertyCode) (text : Option String)
    (pro : api.Properties) : api.Properties :=
  match text with
  | none => pro
  | some text => api.add pro ⟨identifier, .data text⟩

/-- `DataConversion`. -/
def dataConversion (api : PropertyApi) (properties : Option MqttV5Data) : api.Properties :=
  match properties with
  | none => api.initializer
  | some properties =>
    let pro := properties.properties.foldl
      (fun pro user => api.add pro ⟨.userProperty, .pair user.1 user.2⟩) api.initializer
    let pro := addText api .contentType properties.contnt_type pro
    let pro := addText api .responseTopic properties.response_topic pro
    let pro := addText api .correlationData properties.correlation_data pro
    if properties.topic_alias > 0 then
      api.add pro ⟨.topicAlias, .integer4 (shortOfUnsigned properties.topic_alias)⟩
    else pro

/-- A `MQTTV5_DATA` some of whose fields may be indeterminate. -/
structure ArrivedV5Data where
  properties : Option (List (Option String × Option String))
  contnt_type : Option (Option String)
  response_topic : Option (Option String)
  correlation_data : Option (Option String)
  topic_alias : Option UInt32
  deriving DecidableEq

/-- A value without indeterminate fields. -/
def determined (d : MqttV5Data) : ArrivedV5Data where
  properties := some (d.properties.map fun user => (some user.1, some user.2))
  contnt_type := some d.contnt_type
  response_topic := some d.response_topic
  correlation_data := some d.correlation_data
  topic_alias := some d.topic_alias

/-- The value converted so far, and `userHead`, which no property assigned at first. -/
abbrev Arriving : Type := ArrivedV5Data × Option (List (Option String × Option String))

/-- One property of the loop of `DataConversionArrived`. -/
def arrivedProperty (arriving : Arriving) (prop : MqttProperty) : Arriving :=
  let (mqttv5Porperties, userHead) := arriving
  match prop.identifier with
  | .userProperty =>
    (mqttv5Porperties, some (userHead.getD [] ++ [(prop.value.dataText, prop.value.valueText)]))
  | .contentType =>
    ({ mqttv5Porperties with contnt_type := prop.value.dataText.map some }, userHead)
  | .responseTopic =>
    ({ mqttv5Porperties with response_topic := prop.value.dataText.map some }, userHead)
  | .correlationData =>
    ({ mqttv5Porperties with correlation_data := prop.value.dataText.map some }, userHead)
  -- a pointer that is cut down to an `unsigned int`
  | .topicAlias => ({ mqttv5Porperties with topic_alias := none }, userHead)
  | .other => (mqttv5Porperties, userHead)

/-- One round of the loop: it writes through the pointer of a new user property. -/
def arrivedStep (arriving : Arriving) (prop : MqttProperty) : Sdk Arriving := do
  if prop.identifier = .userProperty then
    if !(← malloc) then undefined
  return arrivedProperty arriving prop

/-- `DataConversionArrived`. -/
def dataConversionArrived (api : PropertyApi) (props : api.Properties) : Sdk ArrivedV5Data := do
  if (api.array props).isEmpty then
    return determined mqttv5Initializer
  let start : Arriving := (determined mqttv5Initializer, none)
  let (mqttv5Porperties, userHead) ← (api.array props).foldlM arrivedStep start
  return { mqttv5Porperties with properties := userHead }

end IotDeviceSdk.Base
