import IotDeviceSdk.Prog.Slots
import IotDeviceSdk.Service.CallbackFunc.Messages

/-!
# `callback_func.c`: `OnShadowGetResponseArrived`

The handler fills the slots of an array, one for each entry of the shadow, and goes on to the next
slot unless the entry is one of the two internal services.  The texts of the properties are blocks
that the handler keeps in `desired_str` and `reported_str` and frees.
-/

namespace IotDeviceSdk.Service

open CJson Prog

/-- The local variables of the loop of `OnShadowGetResponseArrived`, with the blocks allocated in it
and the calls made so far. -/
structure ShadowLoop where
  i : ℕ := 0
  shadow : List ShadowData
  desired_str : List (Option ℕ) := List.replicate MAX_SERVICE_COUNT none
  reported_str : List (Option ℕ) := List.replicate MAX_SERVICE_COUNT none
  heap : Heap := []
  calls : List Call := []

/-- The text a pointer refers to. -/
def Heap.text (heap : Heap) (p : Option ℕ) : Option String := p.bind fun b => (heap[b]?).join

/-- `free`. -/
def Heap.free (heap : Heap) (p : Option ℕ) : Heap :=
  match p with
  | none => heap
  | some b => heap.set b none

namespace ShadowLoop

/-- Write to `device_shadow->shadow[i]`. -/
def write (loop : ShadowLoop) (f : ShadowData → ShadowData) : Sdk ShadowLoop := do
  let shadow ← modifySlot loop.shadow loop.i f
  return { loop with shadow := shadow }

/-- `cJSON_Print` into a new block. -/
def print (loop : ShadowLoop) (properties : Option CJson) : Sdk (Option ℕ × ShadowLoop) := do
  match ← cJsonPrint properties with
  | none => return (none, loop)
  | some text => return (some loop.heap.length, { loop with heap := loop.heap ++ [some text] })

/-- The part of the loop for `desired`. -/
def readDesired (loop : ShadowLoop) (desired : Option CJson) : Sdk ShadowLoop :=
  match desired with
  | none => pure loop
  | some desired => do
    let loop ← loop.write fun slot =>
      { slot with desired_event_time := jsonGetStringFromObject desired "event_time" "-1" }
    let (text, loop) ← loop.print (jsonGetObjectFromObject desired "properties")
    let desired_str ← modifySlot loop.desired_str loop.i fun _ => text
    { loop with desired_str := desired_str }.write fun slot =>
      { slot with desired_properties := text }

/-- The part of the loop for `reported`; its event time goes to `desired_event_time`. -/
def readReported (loop : ShadowLoop) (reported : Option CJson) : Sdk ShadowLoop :=
  match reported with
  | none => pure loop
  | some reported => do
    let loop ← loop.write fun slot =>
      { slot with desired_event_time := jsonGetStringFromObject reported "event_time" "-1" }
    let (text, loop) ← loop.print (jsonGetObjectFromObject reported "properties")
    let reported_str ← modifySlot loop.reported_str loop.i fun _ => text
    { loop with reported_str := reported_str }.write fun slot =>
      { slot with reported_properties := text }

/-- `MemFree(&desired_str[i])` and `MemFree(&reported_str[i])`. -/
def freeStrs (loop : ShadowLoop) : Sdk ShadowLoop := do
  let desired ← readSlot loop.desired_str loop.i
  let reported ← readSlot loop.reported_str loop.i
  let desired_str ← modifySlot loop.desired_str loop.i fun _ => none
  let reported_str ← modifySlot loop.reported_str loop.i fun _ => none
  return { loop with
    desired_str := desired_str
    reported_str := reported_str
    heap := (loop.heap.free desired).free reported }

end ShadowLoop

/-- The services of the SDK itself. -/
def isInternalService (service_id : String) : Bool :=
  service_id = "$device_rule" || service_id = "$security_detection_config"

/-- One round of the loop of `OnShadowGetResponseArrived`. -/
def onShadowStep (loop : ShadowLoop) (shadow_data : CJson) : Sdk ShadowLoop := do
  let service_id := jsonGetStringFromObject shadow_data "service_id" "-1"
  let loop ← loop.write fun slot => { slot with service_id := service_id }
  let loop ← loop.readDesired (jsonGetObjectFromObject shadow_data "desired")
  let loop ← loop.readReported (jsonGetObjectFromObject shadow_data "reported")
  let loop ← loop.write fun slot =>
    { slot with version := jsonGetIntFromObject shadow_data "version" (-1) }
  match service_id with
  | none => undefined
  | some service_id =>
    if isInternalService service_id then
      let desired ← readSlot loop.desired_str loop.i
      { loop with
        calls := loop.calls ++ internalServiceCalls service_id (loop.heap.text desired) }.freeStrs
    else return { loop with i := loop.i + 1 }

/-- `OnShadowGetResponseArrived`. -/
def onShadowGetResponseArrived (arrival : Arrival) (bridgeDeviceId : Option String) :
    Sdk (List Call) :=
  withRequestId arrival.topic fun request_id => do
    let root ← jsonParse arrival.message
    let shadow := jsonGetObjectFromObject root "shadow"
    let shadow_data_count := jsonGetArraySize shadow
    if MAX_SERVICE_COUNT ≤ shadow_data_count then return []
    if !(← malloc) then return []
    let loop ← (forEachItems shadow).foldlM onShadowStep
      { shadow := List.replicate shadow_data_count {} }
    return loop.calls ++ [.onDeviceShadow
      { mqtt_msg_info := arrival.info
        object_device_id := jsonGetStringFromObject root "object_device_id" "-1"
        request_id := request_id
        shadow := loop.shadow.take loop.i
        bridge_device_id := bridgeDeviceId
        heap := loop.heap }]

end IotDeviceSdk.Service
