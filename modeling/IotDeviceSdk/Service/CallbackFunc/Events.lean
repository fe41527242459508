import IotDeviceSdk.Prog.Slots
import IotDeviceSdk.Service.CallbackFunc.Messages

/-!
# `callback_func.c`: `OnEventsDownArrived`

The handler fills the slots of an array, one for each service of the message.  It stays at a slot
when a service is passed over, and steps back from a service of the rule engine.  A handler of a
service returns a negative value to give up; the numbers of a service are searched for in the text
of the whole message.
-/

namespace IotDeviceSdk.Service

open CJson Prog

/-! ### Enumerators -/

def EN_IOTA_EVENT_SUB_DEVICE_MANAGER : ℤ := 0
def EN_IOTA_EVENT_OTA : ℤ := 1
def EN_IOTA_EVENT_TIME_SYNC : ℤ := 2
def EN_IOTA_EVENT_DEVICE_LOG : ℤ := 3
def EN_IOTA_EVENT_FILE_MANAGER : ℤ := 4
def EN_IOTA_EVENT_TUNNEL_MANAGER : ℤ := 7
def EN_IOTA_EVENT_DEVICE_CONFIG : ℤ := 8
def EN_IOTA_EVENT_SOFT_BUS : ℤ := 9
def EN_IOTA_EVENT_ERROR : ℤ := -1

def EN_IOTA_EVENT_ADD_SUB_DEVICE_NOTIFY : ℤ := 0
def EN_IOTA_EVENT_DELETE_SUB_DEVICE_NOTIFY : ℤ := 1
def EN_IOTA_EVENT_VERSION_QUERY : ℤ := 2
def EN_IOTA_EVENT_FIRMWARE_UPGRADE : ℤ := 3
def EN_IOTA_EVENT_SOFTWARE_UPGRADE : ℤ := 4
def EN_IOTA_EVENT_GET_TIME_SYNC_RESPONSE : ℤ := 5
def EN_IOTA_EVENT_ADD_SUB_DEVICE_RESPONSE : ℤ := 6
def EN_IOTA_EVENT_DEL_SUB_DEVICE_RESPONSE : ℤ := 7
def EN_IOTA_EVENT_LOG_CONFIG : ℤ := 8
def EN_IOTA_EVENT_GET_UPLOAD_URL_RESPONSE : ℤ := 9
def EN_IOTA_EVENT_GET_DOWNLOAD_URL_RESPONSE : ℤ := 10
def EN_IOTA_EVENT_TUNNEL_NOTIFY : ℤ := 11
def EN_IOTA_EVENT_DEVICE_CONFIG_UPDATE : ℤ := 12
def EN_IOTA_EVENT_FIRMWARE_UPGRADE_V2 : ℤ := 13
def EN_IOTA_EVENT_SOFTWARE_UPGRADE_V2 : ℤ := 14
def EN_IOTA_EVENT_TYPE_ERROR : ℤ := -1

/-- `MAX_EVENT_COUNT`. -/
def MAX_EVENT_COUNT : ℕ := 3

/-- `MAX_EVENT_DEVICE_COUNT`. -/
def MAX_EVENT_DEVICE_COUNT : ℕ := 10

def VERSION_JSON : String := "\"version\""
def DEVICE_SEND_TIME_JSON : String := "\"device_send_time\""
def SERVER_RECV_TIME_JSON : String := "\"server_recv_time\""
def SERVER_SEND_TIME_JSON : String := "\"server_send_time\""

/-! ### Slots -/

/-- The variables of `OnEventsDownArrivedJosnSplicing` with the calls made so far. -/
structure EventLoop where
  i : ℤ := 0
  services : List ServiceEvent
  services_count : ℤ := 0
  calls : List Call := []

/-- Write to `event->services[i]`. -/
def EventLoop.write (loop : EventLoop) (f : ServiceEvent → ServiceEvent) : Sdk EventLoop := do
  let services ← modifySlot loop.services loop.i f
  return { loop with services := services }

/-- Hand `event->services[i]` to a callback of the application. -/
def EventLoop.call (loop : EventLoop) (callback : ServiceEvent → Call) : Sdk EventLoop := do
  let service ← readSlot loop.services loop.i
  return { loop with calls := loop.calls ++ [callback service] }

/-- The return value of a handler of a service, with what it did. -/
abbrev Handled := EventLoop × ℤ

/-- `MemFree` on a pointer of the slots from `i` down to 0; one that was never written is freed all
the same, which is undefined. -/
def EventLoop.freeDown (loop : EventLoop) (isWritten : ServiceEvent → Bool)
    (clear : ServiceEvent → ServiceEvent) : Sdk EventLoop :=
  let reached := loop.services.take (loop.i.toNat + 1)
  if reached.all isWritten then
    pure { loop with services := reached.map clear ++ loop.services.drop (loop.i.toNat + 1) }
  else undefined

/-! ### Sub-devices -/

/-- The fields of a device. -/
def readDeviceInfo (deviceInfo : CJson) : DeviceInfo where
  parent_device_id := jsonGetStringFromObject deviceInfo "parent_device_id" none
  node_id := jsonGetStringFromObject deviceInfo "node_id" none
  device_id := jsonGetStringFromObject deviceInfo "device_id" none
  name := jsonGetStringFromObject deviceInfo "name" none
  description := jsonGetStringFromObject deviceInfo "description" none
  manufacturer_id := jsonGetStringFromObject deviceInfo "manufacturer_id" none
  model := jsonGetStringFromObject deviceInfo "model" none
  product_id := jsonGetStringFromObject deviceInfo "product_id" none
  fw_version := jsonGetStringFromObject deviceInfo "fw_version" none
  sw_version := jsonGetStringFromObject deviceInfo "sw_version" none
  status := jsonGetStringFromObject deviceInfo "status" none
  extension_info := jsonGetStringFromObject deviceInfo "extension_info" none

/-- The fields of a deleted device. -/
def readDeletedDeviceInfo (deviceInfo : CJson) : DeviceInfo where
  parent_device_id := jsonGetStringFromObject deviceInfo "parent_device_id" none
  node_id := jsonGetStringFromObject deviceInfo "node_id" none
  device_id := jsonGetStringFromObject deviceInfo "device_id" none

/-- `OnEventsGatewayAddOrDelete`. -/
def onEventsGatewayAddOrDelete (event_type : String) (paras : Option CJson) (message : String)
    (loop : EventLoop) : Sdk Handled := do
  if !(← malloc) then return (loop, -1)
  let loop ← loop.write fun slot => { slot with paras := some {} }
  let devices := jsonGetObjectFromObject paras "devices"
  if MAX_EVENT_DEVICE_COUNT < jsonGetArraySize devices then return (loop, 0)
  if !(← malloc) then
    let loop ← loop.freeDown (fun slot => slot.paras.isSome) fun slot => { slot with paras := none }
    return (loop, -1)
  let version := getLLongValueFromStr message VERSION_JSON
  if version < 0 then return (loop, -1)
  if event_type = "add_sub_device_notify" then
    let loop ← loop.write fun slot =>
      { slot with
        event_type := some EN_IOTA_EVENT_ADD_SUB_DEVICE_NOTIFY
        paras := some
          { devices := some ((forEachItems devices).map readDeviceInfo), version := some version } }
    return (loop, 1)
  else
    let loop ← loop.write fun slot =>
      { slot with
        event_type := some EN_IOTA_EVENT_DELETE_SUB_DEVICE_NOTIFY
        paras := some
          { devices := some ((forEachItems devices).map readDeletedDeviceInfo)
            version := some version } }
    return (loop, 1)

/-- `OnEventsAddSubDeviceResponse`. -/
def onEventsAddSubDeviceResponse (paras : Option CJson) (serviceEvent : CJson) (loop : EventLoop) :
    Sdk Handled := do
  let loop ← loop.write fun slot =>
    { slot with
      event_id := some (jsonGetStringFromObject serviceEvent "event_id" none)
      event_type := some EN_IOTA_EVENT_ADD_SUB_DEVICE_RESPONSE }
  if !(← malloc) then return (loop, -1)
  let loop ← loop.write fun slot =>
    { slot with gtw_add_device_paras := some { successful_devices := [], failed_devices := [] } }
  let successful_devices := (forEachItems (jsonGetObjectFromObject paras "successful_devices")).map
    readDeviceInfo
  if !(← malloc) then
    let loop ← loop.freeDown (fun slot => slot.gtw_add_device_paras.isSome)
      fun slot => { slot with gtw_add_device_paras := none }
    return (loop, -1)
  if !(← malloc) then return (loop, -1)
  let failed_devices := (forEachItems (jsonGetObjectFromObject paras "failed_devices")).map
    fun reason =>
      { node_id := jsonGetStringFromObject reason "node_id" none
        product_id := jsonGetStringFromObject reason "product_id" none
        error_code := jsonGetStringFromObject reason "error_code" none
        error_msg := jsonGetStringFromObject reason "error_msg" none : AddDeviceFailedReason }
  let loop ← loop.write fun slot =>
    { slot with
      gtw_add_device_paras := some
        { successful_devices := successful_devices, failed_devices := failed_devices } }
  return (loop, 1)

/-- `OnEventsDeleteSubDeviceResponse`; the array of the successful devices has one byte for each
pointer that is written to it. -/
def onEventsDeleteSubDeviceResponse (paras : Option CJson) (serviceEvent : CJson)
    (loop : EventLoop) : Sdk Handled := do
  let loop ← loop.write fun slot =>
    { slot with
      event_id := some (jsonGetStringFromObject serviceEvent "event_id" none)
      event_type := some EN_IOTA_EVENT_DEL_SUB_DEVICE_RESPONSE }
  if !(← malloc) then return (loop, -1)
  let successful_devices := jsonGetObjectFromObject paras "successful_devices"
  if !(← malloc) then return (loop, -1)
  if 0 < jsonGetArraySize successful_devices then undefined
  if !(← malloc) then return (loop, -1)
  let failed_devices := (forEachItems (jsonGetObjectFromObject paras "failed_devices")).map
    fun reason =>
      { device_id := jsonGetStringFromObject reason "device_id" none
        error_code := jsonGetStringFromObject reason "error_code" none
        error_msg := jsonGetStringFromObject reason "error_msg" none : DelDeviceFailedReason }
  let loop ← loop.write fun slot =>
    { slot with
      gtw_del_device_paras := some { successful_devices := [], failed_devices := failed_devices } }
  return (loop, 1)

/-- `OnEventsDownManagerArrived`. -/
def onEventsDownManagerArrived (event_type : String) (paras : Option CJson) (message : String)
    (serviceEvent : CJson) (loop : EventLoop) : Sdk Handled :=
  if event_type = "delete_sub_device_notify" ∨ event_type = "add_sub_device_notify" then
    onEventsGatewayAddOrDelete event_type paras message loop
  else if event_type = "add_sub_device_response" then
    onEventsAddSubDeviceResponse paras serviceEvent loop
  else if event_type = "delete_sub_device_response" then
    onEventsDeleteSubDeviceResponse paras serviceEvent loop
  else if event_type = "sub_device_update_status_response" then
    onEventsDeleteSubDeviceResponse paras serviceEvent loop
  else pure (loop, 1)

/-! ### The other services -/

/-- The event type of a text, when the table has it. -/
def eventTypeOf (types : List (String × ℤ)) (event_type : String) : Option ℤ :=
  (types.find? fun t => t.1 = event_type).map Prod.snd

/-- Set the event type of the slot to that of a text; other texts leave it. -/
def EventLoop.writeEventType (loop : EventLoop) (types : List (String × ℤ))
    (event_type : String) : Sdk EventLoop :=
  match eventTypeOf types event_type with
  | some type => loop.write fun slot => { slot with event_type := some type }
  | none => pure loop

/-- `OnEventsDownFileManager`. -/
def onEventsDownFileManager (event_type : String) (paras : Option CJson) (loop : EventLoop) :
    Sdk Handled := do
  let loop ← loop.writeEventType
    [("get_upload_url_response", EN_IOTA_EVENT_GET_UPLOAD_URL_RESPONSE),
      ("get_download_url_response", EN_IOTA_EVENT_GET_DOWNLOAD_URL_RESPONSE)] event_type
  if !(← malloc) then return (loop, -1)
  let loop ← loop.write fun slot =>
    { slot with file_mgr_url := some (jsonGetStringFromObject paras "url" none) }
  return (loop, 1)

/-- The event types of `OnEventsDownOtaArrived`. -/
def otaEventTypes : List (String × ℤ) :=
  [("version_query", EN_IOTA_EVENT_VERSION_QUERY),
    ("firmware_upgrade", EN_IOTA_EVENT_FIRMWARE_UPGRADE),
    ("software_upgrade", EN_IOTA_EVENT_SOFTWARE_UPGRADE),
    ("firmware_upgrade_v2", EN_IOTA_EVENT_FIRMWARE_UPGRADE_V2),
    ("software_upgrade_v2", EN_IOTA_EVENT_SOFTWARE_UPGRADE_V2)]

/-- Whether an event type is an upgrade. -/
def isUpgrade (event_type : Option ℤ) : Bool :=
  event_type = some EN_IOTA_EVENT_FIRMWARE_UPGRADE ||
    event_type = some EN_IOTA_EVENT_SOFTWARE_UPGRADE ||
    event_type = some EN_IOTA_EVENT_FIRMWARE_UPGRADE_V2 ||
    event_type = some EN_IOTA_EVENT_SOFTWARE_UPGRADE_V2

/-- `OnEventsDownOtaArrived`. -/
def onEventsDownOtaArrived (event_type : String) (paras : Option CJson) (loop : EventLoop) :
    Sdk Handled := do
  if !(← malloc) then return (loop, -1)
  let loop ← loop.write fun slot => { slot with ota_paras := some none }
  let loop ← loop.writeEventType otaEventTypes event_type
  let service ← readSlot loop.services loop.i
  if isUpgrade service.event_type then
    let ota_paras : OtaParas :=
      { version := jsonGetStringFromObject paras "version" none
        url := jsonGetStringFromObject paras "url" none
        file_size := jsonGetIntFromObject paras "file_size" (-1)
        file_name := jsonGetStringFromObject paras "file_name" none
        task_id := jsonGetStringFromObject paras "task_id" none
        sub_device_count := jsonGetIntFromObject paras "sub_device_count" (-1)
        task_ext_info := jsonGetStringFromObject paras "task_ext_info" none
        access_token := jsonGetStringFromObject paras "access_token" none
        expires := jsonGetIntFromObject paras "expires" (-1)
        sign := jsonGetStringFromObject paras "sign" none }
    let loop ← loop.write fun slot => { slot with ota_paras := some (some ota_paras) }
    return (loop, 1)
  else return (loop, 1)

/-- `setOtaCallback`. -/
def setOtaCallback (objectDeviceId : Option String) (loop : EventLoop) : Sdk EventLoop := do
  let message ← readSlot loop.services loop.i
  if message.event_type = some EN_IOTA_EVENT_VERSION_QUERY then
    return { loop with calls := loop.calls ++ [.onDeviceVersionUp objectDeviceId] }
  else if isUpgrade message.event_type then
    return { loop with calls := loop.calls ++ [.onUrlResponse objectDeviceId message] }
  else return loop

/-- A `long long` result; overflow is undefined. -/
def llong (n : ℤ) : Sdk ℤ := if -2 ^ 63 ≤ n ∧ n ≤ LLONG_MAX then pure n else undefined

/-- `OnEventsDownNtpArrived`, with the answer of `getTime`. -/
def onEventsDownNtpArrived (event_type : String) (message : String) (time : ℤ)
    (loop : EventLoop) : Sdk Handled := do
  if !(← malloc) then return (loop, -1)
  let loop ← loop.write fun slot => { slot with ntp_device_real_time := some none }
  if event_type = "time_sync_response" then
    let loop ← loop.write fun slot =>
      { slot with event_type := some EN_IOTA_EVENT_GET_TIME_SYNC_RESPONSE }
    let device_send_time := getLLongValueFromStr message DEVICE_SEND_TIME_JSON
    let server_recv_time := getLLongValueFromStr message SERVER_RECV_TIME_JSON
    let server_send_time := getLLongValueFromStr message SERVER_SEND_TIME_JSON
    if device_send_time < 0 ∨ server_recv_time < 0 ∨ server_send_time < 0 then return (loop, -1)
    let sum ← llong (server_recv_time + server_send_time)
    let sum ← llong (sum + time)
    let sum ← llong (sum - device_send_time)
    let loop ← loop.write fun slot => { slot with ntp_device_real_time := some (some (sum.tdiv 2)) }
    return (loop, 1)
  else return (loop, 1)

/-- `OnEventsDownLogArrived`. -/
def onEventsDownLogArrived (event_type : String) (paras : Option CJson) (loop : EventLoop) :
    Sdk Handled := do
  if !(← malloc) then return (loop, -1)
  let loop ← loop.write fun slot => { slot with device_log_paras := some none }
  if event_type = "log_config" then
    let loop ← loop.write fun slot =>
      { slot with
        event_type := some EN_IOTA_EVENT_LOG_CONFIG
        device_log_paras := some (some
          { log_switch := jsonGetStringFromObject paras "switch" none
            end_time := jsonGetStringFromObject paras "end_time" none }) }
    return (loop, 1)
  else return (loop, 1)

/-- `OnEventsDownSoftBus`, after its caller has set the event id of the slot. -/
def onEventsDownSoftBus (event_id : Option String) (paras : Option CJson) (loop : EventLoop) :
    Sdk Handled := do
  let loop ← loop.write fun slot => { slot with event_id := some event_id }
  if !(← malloc) then return (loop, -1)
  let bus_infos ← cJsonPrint paras
  let loop ← loop.write fun slot => { slot with soft_bus_infos := some bus_infos }
  return (loop, 1)

/-- `OnEventsDownTunnelArrived`. -/
def onEventsDownTunnelArrived (event_type : String) (paras : Option CJson) (loop : EventLoop) :
    Sdk Handled := do
  if !(← malloc) then return (loop, -1)
  let loop ← loop.write fun slot => { slot with tunnel_mgr_paras := some none }
  if event_type = "tunnel_notify" then
    let loop ← loop.write fun slot =>
      { slot with
        event_type := some EN_IOTA_EVENT_TUNNEL_NOTIFY
        tunnel_mgr_paras := some (some
          { tunnel_url := jsonGetStringFromObject paras "tunnel_uri" none
            tunnel_access_token := jsonGetStringFromObject paras "tunnel_access_token" none }) }
    return (loop, 1)
  else return (loop, 1)

/-- `OnEventsDownRemoteCfgArrived`, without the report of the application's answer. -/
def onEventsDownRemoteCfgArrived (event_type : String) (paras : Option CJson)
    (object_device_id : Option String) (loop : EventLoop) : Sdk Handled := do
  if event_type = "config_update" then
    let loop ← loop.write fun slot =>
      { slot with event_type := some EN_IOTA_EVENT_DEVICE_CONFIG_UPDATE }
    let some cfg := jsonGetObjectFromObject paras "config_content"
      | return (loop, -1)
    return ({ loop with calls := loop.calls ++ [.onDeviceConfig object_device_id cfg] }, 1)
  else return (loop, 1)

/-! ### The message -/

/-- What the services of a message share. -/
structure EventMessage where
  object_device_id : Option String
  message : String
  /-- What `getTime` answers for the service in a slot. -/
  getTime : ℤ → ℤ

/-- The part of the loop for a service: set the service of the slot, run its handler and, unless
that gave up, the callback of the application. -/
def withService (id : ℤ) (handler : EventLoop → Sdk Handled)
    (callback : EventLoop → Sdk EventLoop) (loop : EventLoop) : Sdk Handled := do
  let loop ← loop.write fun slot => { slot with servie_id := some id }
  let (loop, ret) ← handler loop
  if ret < 0 then return (loop, -1)
  let loop ← callback loop
  return (loop, 0)

/-- The parts of the loop for the services but the one of the rule engine.  A service that is not
known keeps `EN_IOTA_EVENT_ERROR`. -/
def handleService (event : EventMessage) (service_id event_type : String) (paras : Option CJson)
    (serviceEvent : CJson) (loop : EventLoop) : Sdk Handled :=
  if service_id = "$sub_device_manager" then
    withService EN_IOTA_EVENT_SUB_DEVICE_MANAGER
      (onEventsDownManagerArrived event_type paras event.message serviceEvent)
      (fun loop => loop.call (.onSubDevice event.object_device_id)) loop
  else if service_id = "$ota" then
    withService EN_IOTA_EVENT_OTA (onEventsDownOtaArrived event_type paras)
      (setOtaCallback event.object_device_id) loop
  else if service_id = "$time_sync" then
    withService EN_IOTA_EVENT_TIME_SYNC
      (onEventsDownNtpArrived event_type event.message (event.getTime loop.i))
      (fun loop => loop.call (.onNTP event.object_device_id)) loop
  else if service_id = "$log" then
    withService EN_IOTA_EVENT_DEVICE_LOG (onEventsDownLogArrived event_type paras)
      (fun loop => loop.call (.onDeviceLog event.object_device_id)) loop
  else if service_id = "$oh_soft_bus" then
    withService EN_IOTA_EVENT_SOFT_BUS
      (onEventsDownSoftBus (jsonGetStringFromObject serviceEvent "event_id" none) paras)
      (fun loop => loop.call (.onSoftBus event.object_device_id)) loop
  else if service_id = "$tunnel_manager" then
    withService EN_IOTA_EVENT_TUNNEL_MANAGER (onEventsDownTunnelArrived event_type paras)
      (fun loop => loop.call (.onTunnelManager event.object_device_id)) loop
  else if service_id = "$file_manager" then
    withService EN_IOTA_EVENT_FILE_MANAGER (onEventsDownFileManager event_type paras)
      (fun loop => loop.call (.onFileManager event.object_device_id)) loop
  else if service_id = "$device_config" then
    withService EN_IOTA_EVENT_DEVICE_CONFIG
      (onEventsDownRemoteCfgArrived event_type paras event.object_device_id) pure loop
  else pure (loop, 0)

/-- One round of the loop of `OnEventsDownArrivedJosnSplicing`. -/
def onEventsDownStep (event : EventMessage) (serviceEvent : CJson) (handled : Handled) :
    Sdk (ForInStep Handled) := do
  let loop := handled.1
  let some service_id := jsonGetStringFromObject serviceEvent "service_id" none
    | return .yield (loop, 0)
  let loop ← loop.write fun slot => { slot with servie_id := some EN_IOTA_EVENT_ERROR }
  let some event_type := jsonGetStringFromObject serviceEvent "event_type" none
    | return .yield (loop, 0)
  let loop ← loop.write fun slot =>
    { slot with
      event_type := some EN_IOTA_EVENT_TYPE_ERROR
      event_time := some (jsonGetStringFromObject serviceEvent "event_time" none) }
  let paras := jsonGetObjectFromObject serviceEvent "paras"
  if service_id = "$device_rule" then
    let some payload ← cJsonPrint paras
      | return .done (loop, -2)
    -- the index steps back, and forward again at the end of the round
    let loop : EventLoop :=
      { loop with calls := loop.calls ++ [.ruleMgrParse payload], i := loop.i - 1 }
    return .yield ({ loop with i := loop.i + 1 }, 0)
  else
    let (loop, ret) ← handleService event service_id event_type paras serviceEvent loop
    if ret < 0 then return .done (loop, ret)
    return .yield ({ loop with i := loop.i + 1 }, 0)

/-- `OnEventsDownArrivedJosnSplicing` on an array of `services_count` slots: its return value, with
the slots it leaves. -/
def onEventsDownArrivedJosnSplicing (event : EventMessage) (services : Option CJson)
    (services_count : ℕ) : Sdk Handled := do
  let loop : EventLoop := { services := List.replicate services_count {} }
  match ← forEach (onEventsDownStep event) (forEachItems services) (loop, 0) with
  | .done handled => return handled
  | .yield (loop, _) => return ({ loop with services_count := loop.i }, 0)

/-- `OnEventsDownArrived`, with what `getTime` answers for the service in a slot. -/
def onEventsDownArrived (arrival : Arrival) (bridgeDeviceId : Option String) (getTime : ℤ → ℤ) :
    Sdk (List Call) :=
  withMessage do
    let some root ← jsonParse arrival.message
      | return []
    let object_device_id := jsonGetStringFromObject root "object_device_id" "-1"
    let services := jsonGetObjectFromObject root "services"
    if MAX_EVENT_COUNT < jsonGetArraySize services then return []
    if !(← malloc) then return []
    let event : EventMessage :=
      { object_device_id := object_device_id, message := arrival.message, getTime := getTime }
    let (loop, ret) ← onEventsDownArrivedJosnSplicing event services (jsonGetArraySize services)
    if ret < 0 then return loop.calls
    return loop.calls ++ [.onEventDown
      { mqtt_msg_info := arrival.info
        object_device_id := object_device_id
        services := loop.services.take loop.services_count.toNat
        bridge_device_id := bridgeDeviceId }]

end IotDeviceSdk.Service
