import IotDeviceSdk.DeviceRule.RuleUtil
import IotDeviceSdk.Libc.Memory
import IotDeviceSdk.Prog.ForEach
import IotDeviceSdk.Prog.Slots
import IotDeviceSdk.Util.JsonUtil
import IotDeviceSdk.Util.StringUtil

/-!
# `soft_bus_datatrans.c`

`g_soft_bus_total` is a table of ten buses with fifty devices each.  `softBusParasToTotal` fills it
from a payload; it stays as it is where the payload has nothing.  A text has one character for each
byte, and a pointer that may be `NULL` is an `Option`.
-/

namespace IotDeviceSdk.Service

open CJson DeviceRule Prog

/-- `BUS_KEY_LENGTH`. -/
def BUS_KEY_LENGTH : ℕ := 20

/-- `SOFTBUS_TOTAL_LEN`. -/
def SOFTBUS_TOTAL_LEN : ℕ := 10

/-- `SOFTBUS_INFO_LEN`. -/
def SOFTBUS_INFO_LEN : ℕ := 50

/-- `soft_bus_info`. -/
structure SoftBusInfo where
  device_id : Option String := none
  device_ip : Option String := none
  deriving DecidableEq

/-- `soft_bus_infos`. -/
structure SoftBusInfos where
  count : ℕ := 0
  bus_key : Option String := none
  bus_id : Option String := none
  g_device_soft_bus_info : List SoftBusInfo := List.replicate SOFTBUS_INFO_LEN {}
  deriving DecidableEq

/-- `soft_bus_total`. -/
structure SoftBusTotal where
  g_soft_bus_info : List SoftBusInfos := List.replicate SOFTBUS_TOTAL_LEN {}
  count : ℕ := 0
  deriving DecidableEq

/-! ### Texts in blocks of memory -/

/-- `SECUREC_STRING_MAX_LEN`. -/
def SECUREC_STRING_MAX_LEN : ℕ := 0x7fffffff

/-- The text `strncpy_s` leaves at its destination: a text that leaves no room for the terminator
empties it. -/
def strncpyS (dest : String) (destMax : ℕ) (strSrc : String) (count : ℕ) : String :=
  if destMax = 0 ∨ destMax > SECUREC_STRING_MAX_LEN then dest
  else if count > SECUREC_STRING_MAX_LEN then ""
  else if min count strSrc.length ≥ destMax then ""
  else String.ofList (strSrc.toList.take count)

/-- A text in a block of `size` bytes. -/
structure TextBlock where
  text : String
  size : ℕ

/-- `strncat_s`: a text that leaves no room for the terminator empties the destination, and one that
does not fit the block is written past its end. -/
def strncatS (dest : TextBlock) (destMax : ℕ) (strSrc : String) (count : ℕ) : Sdk TextBlock :=
  if destMax = 0 ∨ destMax > SECUREC_STRING_MAX_LEN then pure dest
  else if count > SECUREC_STRING_MAX_LEN then pure { dest with text := "" }
  else if dest.text.length + min count strSrc.length ≥ destMax then pure { dest with text := "" }
  else if dest.text.length + min count strSrc.length ≥ dest.size then undefined
  else pure { dest with text := dest.text ++ String.ofList (strSrc.toList.take count) }

/-- `ReassignMemory`: the old block when no other can be had. -/
def reassignMemory (oldMemory : TextBlock) (resultLen : ℕ) : Sdk TextBlock := do
  if resultLen = 0 then
    return oldMemory
  if !(← malloc) then
    return oldMemory
  if oldMemory.text.length ≥ resultLen ∨ resultLen > SECUREC_STRING_MAX_LEN then
    return oldMemory
  return { oldMemory with size := resultLen }

/-! ### Lookups -/

/-- A loop over the buses in use. -/
def forEachBus {β : Type} (total : SoftBusTotal) (body : SoftBusInfos → β → Sdk (ForInStep β))
    (b : β) : Sdk (ForInStep β) :=
  forEach (fun (i : ℕ) b => do
    let infos ← readSlot total.g_soft_bus_info i
    body infos b) (List.range total.count) b

/-- A loop over the devices of a bus. -/
def forEachDevice {β : Type} (infos : SoftBusInfos) (body : SoftBusInfo → β → Sdk (ForInStep β))
    (b : β) : Sdk (ForInStep β) :=
  forEach (fun (j : ℕ) b => do
    let info ← readSlot infos.g_device_soft_bus_info j
    body info b) (List.range infos.count) b

/-- The first device with a text in a field, by `strcmp`. -/
def findDevice (field : SoftBusInfo → Option String) (text : String) (total : SoftBusTotal) :
    Sdk (Option SoftBusInfo) := do
  let found ← forEachBus total (fun infos _ => forEachDevice infos (fun info _ => do
    if ← strcmpEq (field info) (some text) then return .done (some info)
    else return .yield none) none) none
  return stepValue found

/-- `isValidIP`. -/
def isValidIP (total : SoftBusTotal) (ip_addr : Option String) : Sdk Bool :=
  match ip_addr with
  | none => pure false
  | some ip_addr => do
    let found ← findDevice (·.device_ip) ip_addr total
    return found.isSome

/-- `isValidDeviceID`. -/
def isValidDeviceID (total : SoftBusTotal) (device_id : Option String) : Sdk Bool :=
  match device_id with
  | none => pure false
  | some device_id => do
    let found ← findDevice (·.device_id) device_id total
    return found.isSome

/-- `getIpAddr`.  Without memory the terminator is written to `NULL`. -/
def getIpAddr (total : SoftBusTotal) (device_id : Option String) : Sdk (Option String) :=
  match device_id with
  | none => pure none
  | some device_id => do
    match ← findDevice (·.device_id) device_id total with
    | none => return none
    | some info =>
      let device_ip ← ofOption info.device_ip
      let size := device_ip.length
      if !(← malloc) then undefined
      else
        let result := strncpyS "" size device_ip size
        return some (String.ofList (result.toList.take size))

/-- The key of a bus after those `getAuthKey` has found.  Without memory for the first one `strlen`
is called on `NULL`. -/
def addKey (bus_key : Option String) (result : Option TextBlock) : Sdk (Option TextBlock) :=
  match result with
  | none => do
    let allocated ← malloc
    let bus_key ← ofOption bus_key
    if !allocated then undefined
    else
      let text := strncpyS "" BUS_KEY_LENGTH bus_key (bus_key.length + 1)
      return some { text := text, size := BUS_KEY_LENGTH + 1 }
  | some result => do
    let resultLen := result.text.length + (BUS_KEY_LENGTH + 1)
    let result ← reassignMemory result resultLen
    let result ← strncatS result resultLen "," 1
    let bus_key ← ofOption bus_key
    let result ← strncatS result resultLen bus_key bus_key.length
    return some result

/-- One bus in `getAuthKey`: its key, at the first device with the id. -/
def authKeyStep (target_device_id : Option String) (infos : SoftBusInfos)
    (result : Option TextBlock) : Sdk (ForInStep (Option TextBlock)) := do
  let inner ← forEachDevice infos (fun info result => do
    if ← strcmpEq info.device_id target_device_id then
      return .done (← addKey infos.bus_key result)
    else return .yield result) result
  return .yield (stepValue inner)

/-- `getAuthKey`, with the user name of the connection. -/
def getAuthKey (username : Option String) (total : SoftBusTotal)
    (src_device_id target_device_id : Option String) : Sdk (Option String) := do
  if src_device_id.isNone || target_device_id.isNone then
    return none
  if !(← strcmpEq src_device_id username) then
    return none
  let result ← forEachBus total (authKeyStep target_device_id) none
  return (stepValue result).map TextBlock.text

/-! ### Payloads -/

/-- One device of a payload, stored at the index `j`. -/
def deviceInfoStep (deviceInfoEvent : CJson) (loop : List SoftBusInfo × ℕ) :
    Sdk (ForInStep (List SoftBusInfo × ℕ)) := do
  let deviceId := jsonGetStringFromObject (some deviceInfoEvent) "device_id" "-1"
  let deviceIp := jsonGetStringFromObject (some deviceInfoEvent) "device_ip" "-1"
  if ← strcmpEq deviceId (some "-1") then
    return .yield loop
  if ← strcmpEq deviceIp (some "-1") then
    return .yield loop
  let device_id ← combineStrings deviceId []
  let device_ip ← combineStrings deviceIp []
  let devices ← modifySlot loop.1 loop.2 fun _ => { device_id := device_id, device_ip := device_ip }
  if loop.2 + 1 ≥ SOFTBUS_INFO_LEN then
    return .done (devices, loop.2 + 1)
  return .yield (devices, loop.2 + 1)

/-- One bus of a payload, stored at the index `i`; the loop is left before the key of the last
one. -/
def busInfosStep (busInfosEvent : CJson) (loop : List SoftBusInfos × ℕ) :
    Sdk (ForInStep (List SoftBusInfos × ℕ)) := do
  let deviceInfo := getObjectItem (some busInfosEvent) "devices_info"
  let busKey := jsonGetStringFromObject (some busInfosEvent) "bus_key" "-1"
  let busId := jsonGetStringFromObject (some busInfosEvent) "bus_id" "-1"
  let softBusInfos ← readSlot loop.1 loop.2
  let inner ← forEach deviceInfoStep (forEachItems deviceInfo)
    (softBusInfos.g_device_soft_bus_info, 0)
  let softBusInfos :=
    { softBusInfos with
      g_device_soft_bus_info := (stepValue inner).1
      count := (stepValue inner).2 }
  if loop.2 + 1 ≥ SOFTBUS_TOTAL_LEN then
    return .done (loop.1.set loop.2 softBusInfos, loop.2 + 1)
  let bus_key ← combineStrings busKey []
  let bus_id ← combineStrings busId []
  let softBusInfos := { softBusInfos with bus_key := bus_key, bus_id := bus_id }
  return .yield (loop.1.set loop.2 softBusInfos, loop.2 + 1)

/-- `softBusParasToTotal`: what it returns, and the table. -/
def softBusParasToTotal (paras : Option CJson) (total : SoftBusTotal) : Sdk (ℤ × SoftBusTotal) :=
  match getObjectItem paras "bus_infos" with
  | none => pure (-1, total)
  | some busInfos => do
    let loop ← forEach busInfosStep busInfos.children (total.g_soft_bus_info, 0)
    return (0, { g_soft_bus_info := (stepValue loop).1, count := (stepValue loop).2 })

end IotDeviceSdk.Service
