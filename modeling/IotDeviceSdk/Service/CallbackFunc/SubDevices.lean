import IotDeviceSdk.Libc.StructArray
import IotDeviceSdk.Service.CallbackFunc.Events

/-!
# `callback_func.c`: the arrays of `OnEventsDownManagerArrived`

The handlers of the sub-device manager with the blocks of memory they decode a message to: what
`malloc` is asked for, and each pointer that is stored.  An array of structures is filled by
`storeArray`; what has not been written is `none`.

A slot is what the handlers write of `event->services[i]`.  The exits that answer -1 free the
parameters of the slots before it too, which is left out.
-/

namespace IotDeviceSdk.Service.SubDevices

open CJson Prog

/-! ### Layouts -/

/-- `EN_IOTA_DEVICE_INFO`. -/
def EN_IOTA_DEVICE_INFO : Layout String where
  fields := ["parent_device_id", "node_id", "device_id", "name", "description", "manufacturer_id",
    "model", "product_id", "fw_version", "sw_version", "status", "extension_info"]

/-- `EN_IOTA_ADD_DEVICE_FAILED_REASON`. -/
def EN_IOTA_ADD_DEVICE_FAILED_REASON : Layout String where
  fields := ["node_id", "product_id", "error_code", "error_msg"]

/-- `EN_IOTA_DEL_DEVICE_FAILED_REASON`. -/
def EN_IOTA_DEL_DEVICE_FAILED_REASON : Layout String where
  fields := ["device_id", "error_code", "error_msg"]

/-- An element of a `HW_CHAR **`: one pointer. -/
def HW_CHAR_POINTER : Layout Unit where
  fields := [()]

/-- `sizeof(HW_CHAR)`. -/
def SIZEOF_HW_CHAR : ℕ := 1

/-- The fields of a device that is deleted. -/
def deletedFields : List String := ["parent_device_id", "node_id", "device_id"]

/-! ### Slots -/

/-- A block of pointers to texts. -/
abbrev Texts := Block (Option String)

/-- `EN_IOTA_DEVICE_PARAS`. -/
structure DeviceParas where
  devices : Option Texts := none
  devices_count : Option ℕ := none
  version : Option ℤ := none

/-- `EN_IOTA_GTW_ADD_DEVICE_PARAS` and `EN_IOTA_GTW_DEL_DEVICE_PARAS`. -/
structure GtwDeviceParas where
  successful_devices : Option Texts := none
  successful_devices_count : Option ℕ := none
  failed_devices : Option Texts := none
  failed_devices_count : Option ℕ := none

/-- What the handlers write of a slot. -/
structure Slot where
  event_id : Option (Option String) := none
  event_type : Option ℤ := none
  paras : Option DeviceParas := none
  gtw_add_device_paras : Option GtwDeviceParas := none
  gtw_del_device_paras : Option GtwDeviceParas := none

/-! ### Handlers -/

/-- The text of a field of an item. -/
def fieldText (item : CJson) (field : String) : Option String :=
  jsonGetStringFromObject item field none

/-- `OnEventsGatewayAddOrDelete`. -/
def onEventsGatewayAddOrDelete (event_type : String) (paras : Option CJson) (message : String)
    (slot : Slot) : Sdk (ℤ × Slot) := do
  if !(← malloc) then return (-1, slot)
  let devices := jsonGetObjectFromObject paras "devices"
  let devices_count := jsonGetArraySize devices
  if MAX_EVENT_DEVICE_COUNT < devices_count then return (0, { slot with paras := some {} })
  if !(← malloc) then return (-1, { slot with paras := none })
  let block := Block.alloc (EN_IOTA_DEVICE_INFO.sizeof * devices_count)
  let version := getLLongValueFromStr message VERSION_JSON
  if version < 0 then
    return (-1,
      { slot with paras := some { devices := some block, devices_count := some devices_count } })
  if event_type = "add_sub_device_notify" then
    let block := storeArray EN_IOTA_DEVICE_INFO EN_IOTA_DEVICE_INFO.fields fieldText
      (forEachItems devices) 0 block
    return (1,
      { slot with
        event_type := some EN_IOTA_EVENT_ADD_SUB_DEVICE_NOTIFY
        paras := some
          { devices := some block, devices_count := some devices_count, version := some version } })
  else if event_type = "delete_sub_device_notify" then
    let block := storeArray EN_IOTA_DEVICE_INFO deletedFields fieldText
      (forEachItems devices) 0 block
    return (1,
      { slot with
        event_type := some EN_IOTA_EVENT_DELETE_SUB_DEVICE_NOTIFY
        paras := some
          { devices := some block, devices_count := some devices_count, version := some version } })
  else
    return (1,
      { slot with
        paras := some
          { devices := some block, devices_count := some devices_count, version := some version } })

/-- `OnEventsAddSubDeviceResponse`. -/
def onEventsAddSubDeviceResponse (paras : Option CJson) (serviceEvent : CJson) (slot : Slot) :
    Sdk (ℤ × Slot) := do
  let slot := { slot with
    event_id := some (jsonGetStringFromObject serviceEvent "event_id" none)
    event_type := some EN_IOTA_EVENT_ADD_SUB_DEVICE_RESPONSE }
  if !(← malloc) then return (-1, slot)
  let successful_devices := jsonGetObjectFromObject paras "successful_devices"
  let successful_devices_count := jsonGetArraySize successful_devices
  if !(← malloc) then return (-1, { slot with gtw_add_device_paras := none })
  let successful := storeArray EN_IOTA_DEVICE_INFO EN_IOTA_DEVICE_INFO.fields fieldText
    (forEachItems successful_devices) 0
    (Block.alloc (EN_IOTA_DEVICE_INFO.sizeof * successful_devices_count))
  let failed_devices := jsonGetObjectFromObject paras "failed_devices"
  let failed_devices_count := jsonGetArraySize failed_devices
  if !(← malloc) then
    return (-1,
      { slot with
        gtw_add_device_paras := some
          { successful_devices := some successful
            successful_devices_count := some successful_devices_count
            failed_devices_count := some failed_devices_count } })
  let failed := storeArray EN_IOTA_ADD_DEVICE_FAILED_REASON EN_IOTA_ADD_DEVICE_FAILED_REASON.fields
    fieldText (forEachItems failed_devices) 0
    (Block.alloc (EN_IOTA_ADD_DEVICE_FAILED_REASON.sizeof * failed_devices_count))
  return (1,
    { slot with
      gtw_add_device_paras := some
        { successful_devices := some successful
          successful_devices_count := some successful_devices_count
          failed_devices := some failed
          failed_devices_count := some failed_devices_count } })

/-- `OnEventsDeleteSubDeviceResponse`. -/
def onEventsDeleteSubDeviceResponse (paras : Option CJson) (serviceEvent : CJson) (slot : Slot) :
    Sdk (ℤ × Slot) := do
  let slot := { slot with
    event_id := some (jsonGetStringFromObject serviceEvent "event_id" none)
    event_type := some EN_IOTA_EVENT_DEL_SUB_DEVICE_RESPONSE }
  if !(← malloc) then return (-1, slot)
  let successful_devices := jsonGetObjectFromObject paras "successful_devices"
  let successful_devices_count := jsonGetArraySize successful_devices
  if !(← malloc) then
    return (-1,
      { slot with
        gtw_del_device_paras := some
          { successful_devices_count := some successful_devices_count } })
  -- one byte is asked for where a pointer is stored
  let successful := storeArray HW_CHAR_POINTER HW_CHAR_POINTER.fields
    (fun j _ => jsonGetStringFromArray successful_devices j none)
    (List.range successful_devices_count) 0
    (Block.alloc (SIZEOF_HW_CHAR * successful_devices_count))
  let failed_devices := jsonGetObjectFromObject paras "failed_devices"
  let failed_devices_count := jsonGetArraySize failed_devices
  if !(← malloc) then
    return (-1,
      { slot with
        gtw_del_device_paras := some
          { successful_devices := some successful
            successful_devices_count := some successful_devices_count
            failed_devices_count := some failed_devices_count } })
  let failed := storeArray EN_IOTA_DEL_DEVICE_FAILED_REASON EN_IOTA_DEL_DEVICE_FAILED_REASON.fields
    fieldText (forEachItems failed_devices) 0
    (Block.alloc (EN_IOTA_DEL_DEVICE_FAILED_REASON.sizeof * failed_devices_count))
  return (1,
    { slot with
      gtw_del_device_paras := some
        { successful_devices := some successful
          successful_devices_count := some successful_devices_count
          failed_devices := some failed
          failed_devices_count := some failed_devices_count } })

/-- `OnEventsDownManagerArrived`. -/
def onEventsDownManagerArrived (event_type : String) (paras : Option CJson) (message : String)
    (serviceEvent : CJson) (slot : Slot) : Sdk (ℤ × Slot) :=
  if event_type = "delete_sub_device_notify" ∨ event_type = "add_sub_device_notify" then
    onEventsGatewayAddOrDelete event_type paras message slot
  else if event_type = "add_sub_device_response" then
    onEventsAddSubDeviceResponse paras serviceEvent slot
  else if event_type = "delete_sub_device_response" then
    onEventsDeleteSubDeviceResponse paras serviceEvent slot
  else if event_type = "sub_device_update_status_response" then
    onEventsDeleteSubDeviceResponse paras serviceEvent slot
  else pure (1, slot)

end IotDeviceSdk.Service.SubDevices
