import IotDeviceSdk.CJson.Basic

/-!
# What the message handlers call

The records handed to the application (`iota_init.h`) and the calls a handler makes out of
`callback_func.c`: the application's callbacks, all of them registered, and the functions of other
modules of the SDK.  A `char *` is an `Option String`, and an array with its count is a list.  The
opaque `context` of a message is left out.

A field of a record of `malloc` that was not written yet is `none`.
-/

namespace IotDeviceSdk.Service

/-- `EN_IOTA_MQTT_MSG_INFO`. -/
structure MqttMsgInfo where
  messageId : ℤ
  code : ℤ

/-! ### Messages -/

/-- `EN_IOTA_MQTT_PROTOCOL_RSP`. -/
structure ProtocolRsp where
  mqtt_msg_info : MqttMsgInfo
  message : Option String
  deviceSecret : Option String

/-- `EN_IOTA_RAW_MESSAGE`. -/
structure RawMessage where
  mqttMsgInfo : MqttMsgInfo
  objectDeviceId : Option String := none
  payloadLength : ℤ
  payload : String

/-- `EN_IOTA_MESSAGE`. -/
structure Message where
  mqtt_msg_info : MqttMsgInfo
  object_device_id : Option String
  name : Option String
  id : Option String
  content : Option String
  bridge_device_id : Option String

/-- `EN_IOTA_UNDEFINED_MESSAGE`. -/
structure UndefinedMessage where
  mqtt_msg_info : MqttMsgInfo
  payload : String
  bridge_device_id : Option String

/-- `EN_IOTA_M2M_MESSAGE`. -/
structure M2mMessage where
  mqtt_msg_info : MqttMsgInfo
  request_id : Option String
  «to» : Option String
  «from» : Option String
  content : Option String

/-- `EN_IOTA_COMMAND_V3`. -/
structure CommandV3 where
  mqtt_msg_info : MqttMsgInfo
  msgType : String
  serviceId : Option String
  cmd : Option String
  paras : Option String
  mid : ℤ

/-- `EN_IOTA_COMMAND`. -/
structure Command where
  mqtt_msg_info : MqttMsgInfo
  object_device_id : Option String
  service_id : Option String
  command_name : Option String
  paras : Option String
  request_id : String
  bridge_device_id : Option String

/-- `EN_IOTA_SERVICE_PROPERTY`. -/
structure ServiceProperty where
  service_id : String
  properties : Option String

/-- `EN_IOTA_PROPERTY_SET`. -/
structure PropertySet where
  mqtt_msg_info : MqttMsgInfo
  object_device_id : Option String
  request_id : String
  services : List ServiceProperty
  bridge_device_id : Option String

/-- `EN_IOTA_PROPERTY_GET`. -/
structure PropertyGet where
  mqtt_msg_info : MqttMsgInfo
  object_device_id : Option String
  request_id : String
  service_id : Option String
  bridge_device_id : Option String

/-- `EN_IOTA_USER_TOPIC_MESSAGE`. -/
structure UserTopicMessage where
  mqtt_msg_info : MqttMsgInfo
  object_device_id : Option String
  name : Option String
  id : Option String
  content : Option String
  topic_para : String

/-- `EN_IOTA_USER_TOPIC_RAW_MESSAGE`. -/
structure UserTopicRawMessage where
  mqttMsgInfo : MqttMsgInfo
  objectDeviceId : Option String := none
  payloadLength : ℤ
  payload : String
  topicPara : String

/-- `EN_IOTA_BRIDGES_LOGIN`, also `EN_IOTA_BRIDGES_LOGOUT`. -/
structure BridgesLogin where
  mqtt_msg_info : MqttMsgInfo
  result_code : ℤ
  bridge_device_id : Option String
  request_id : String

/-- `EN_IOTA_BRIDGES_RESET_SECRET`. -/
structure BridgesResetSecret where
  mqtt_msg_info : MqttMsgInfo
  result_code : ℤ
  bridge_device_id : Option String
  paras : Option String
  request_id : String
  new_secret : Option String

/-- `EN_IOTA_BRIDGES_PALLET_DISCONNECT`. -/
structure BridgesPalletDisconnect where
  mqtt_msg_info : MqttMsgInfo
  bridge_device_id : Option String

/-! ### Shadows -/

/-- The blocks `cJSON_Print` allocated during a handler, in their order; `none` for a block that was
freed. -/
abbrev Heap := List (Option String)

/-- `EN_IOTA_SHADOW_DATA`; the properties are pointers to blocks of the heap. -/
structure ShadowData where
  service_id : Option String := none
  desired_event_time : Option String := none
  desired_properties : Option ℕ := none
  reported_event_time : Option String := none
  reported_properties : Option ℕ := none
  version : ℤ := 0

/-- `EN_IOTA_DEVICE_SHADOW`, with the heap at the time it is handed over. -/
structure DeviceShadow where
  mqtt_msg_info : MqttMsgInfo
  object_device_id : Option String
  request_id : String
  shadow : List ShadowData
  bridge_device_id : Option String
  heap : Heap

/-! ### Events -/

/-- `EN_IOTA_DEVICE_INFO`. -/
structure DeviceInfo where
  parent_device_id : Option String := none
  node_id : Option String := none
  device_id : Option String := none
  name : Option String := none
  description : Option String := none
  manufacturer_id : Option String := none
  model : Option String := none
  product_id : Option String := none
  fw_version : Option String := none
  sw_version : Option String := none
  status : Option String := none
  extension_info : Option String := none

/-- `EN_IOTA_DEVICE_PARAS`. -/
structure DeviceParas where
  devices : Option (List DeviceInfo) := none
  version : Option ℤ := none

/-- `EN_IOTA_OTA_PARAS`. -/
structure OtaParas where
  version : Option String
  url : Option String
  file_size : ℤ
  file_name : Option String
  task_id : Option String
  sub_device_count : ℤ
  task_ext_info : Option String
  access_token : Option String
  expires : ℤ
  sign : Option String

/-- `EN_IOTA_ADD_DEVICE_FAILED_REASON`. -/
structure AddDeviceFailedReason where
  node_id : Option String
  product_id : Option String
  error_code : Option String
  error_msg : Option String

/-- `EN_IOTA_GTW_ADD_DEVICE_PARAS`. -/
structure GtwAddDeviceParas where
  successful_devices : List DeviceInfo
  failed_devices : List AddDeviceFailedReason

/-- `EN_IOTA_DEL_DEVICE_FAILED_REASON`. -/
structure DelDeviceFailedReason where
  device_id : Option String
  error_code : Option String
  error_msg : Option String

/-- `EN_IOTA_GTW_DEL_DEVICE_PARAS`. -/
structure GtwDelDeviceParas where
  successful_devices : List (Option String)
  failed_devices : List DelDeviceFailedReason

/-- `EN_IOTA_DEVICE_LOG_PARAS`. -/
structure DeviceLogParas where
  log_switch : Option String
  end_time : Option String

/-- `EN_IOTA_TUNNEL_MGR_PARAS`. -/
structure TunnelMgrParas where
  tunnel_url : Option String
  tunnel_access_token : Option String

/-- `EN_IOTA_SERVICE_EVENT`; the inner `Option` of a pointer to parameters is for parameters that
were allocated and not written. -/
structure ServiceEvent where
  servie_id : Option ℤ := none
  event_type : Option ℤ := none
  event_time : Option (Option String) := none
  event_id : Option (Option String) := none
  paras : Option DeviceParas := none
  ota_paras : Option (Option OtaParas) := none
  ntp_device_real_time : Option (Option ℤ) := none
  gtw_add_device_paras : Option GtwAddDeviceParas := none
  gtw_del_device_paras : Option GtwDelDeviceParas := none
  device_log_paras : Option (Option DeviceLogParas) := none
  tunnel_mgr_paras : Option (Option TunnelMgrParas) := none
  file_mgr_url : Option (Option String) := none
  soft_bus_infos : Option (Option String) := none

/-- `EN_IOTA_EVENT`: the services are the first `services_count` ones of the array. -/
structure Event where
  mqtt_msg_info : MqttMsgInfo
  object_device_id : Option String
  services : List ServiceEvent
  bridge_device_id : Option String

/-! ### Calls -/

/-- A call a handler makes, with the data it hands over. -/
inductive Call where
  | onBootstrap (message : ProtocolRsp)
  | onRawMessage (message : RawMessage)
  | onMessage (message : Message)
  | onOtherUndefined (message : UndefinedMessage)
  | onM2mMessage (message : M2mMessage)
  | onCmdV3 (message : CommandV3)
  | onCmd (message : Command)
  | onPropertiesSet (message : PropertySet)
  | onPropertiesGet (message : PropertyGet)
  | onDeviceShadow (message : DeviceShadow)
  | onUserTopicRawMessage (message : UserTopicRawMessage)
  | onUserTopicMessage (message : UserTopicMessage)
  | onBridgesDeviceLogin (message : BridgesLogin)
  | onBridgesDeviceLogout (message : BridgesLogin)
  | onBridgesDeviceResetSecret (message : BridgesResetSecret)
  | onBridgesDeviceDisconnect (message : BridgesPalletDisconnect)
  | onEventDown (message : Event)
  | onSubDevice (objectDeviceId : Option String) (message : ServiceEvent)
  | onDeviceVersionUp (objectDeviceId : Option String)
  | onUrlResponse (objectDeviceId : Option String) (message : ServiceEvent)
  | onNTP (objectDeviceId : Option String) (message : ServiceEvent)
  | onDeviceLog (objectDeviceId : Option String) (message : ServiceEvent)
  | onSoftBus (objectDeviceId : Option String) (message : ServiceEvent)
  | onTunnelManager (objectDeviceId : Option String) (message : ServiceEvent)
  | onFileManager (objectDeviceId : Option String) (message : ServiceEvent)
  | onDeviceConfig (objectDeviceId : Option String) (cfg : CJson)
  | ruleTransDeviceRuleUpdate (payload : Option String)
  | detectParseShadowGetOrPropertiesSet (payload : Option String)
  | ruleMgrParse (payload : String)

/-- The request id a call hands to the application. -/
def Call.requestId : Call → Option String
  | .onCmd message => some message.request_id
  | .onPropertiesSet message => some message.request_id
  | .onPropertiesGet message => some message.request_id
  | .onDeviceShadow message => some message.request_id
  | .onBridgesDeviceLogin message => some message.request_id
  | .onBridgesDeviceLogout message => some message.request_id
  | .onBridgesDeviceResetSecret message => some message.request_id
  | _ => none

/-- The topic parameter a call hands to the application. -/
def Call.topicPara : Call → Option String
  | .onUserTopicRawMessage message => some message.topicPara
  | .onUserTopicMessage message => some message.topic_para
  | _ => none

end IotDeviceSdk.Service
