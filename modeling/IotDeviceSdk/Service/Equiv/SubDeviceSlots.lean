import IotDeviceSdk.Service.Equiv.Events
import IotDeviceSdk.Service.Equiv.SubDevices

/-!
# Slots and their arrays

The handlers of the sub-device manager write lists to a slot, or the blocks of memory these lists
are read from.  `onEventsDownManagerArrived_reads`: where they do not give up, the lists are what
the application reads from the blocks; a pointer that has not been written is read as `NULL`.
-/

namespace IotDeviceSdk.Service.SubDevices

open CJson Prog

/-! ### Reading -/

/-- The text at a place of a block. -/
def textAt (b : Texts) (offset : ℕ) : Option String := (b.read offset).getD none

def deviceInfoAt (b : Texts) (k : ℕ) : DeviceInfo where
  parent_device_id := textAt b (EN_IOTA_DEVICE_INFO.offset k "parent_device_id")
  node_id := textAt b (EN_IOTA_DEVICE_INFO.offset k "node_id")
  device_id := textAt b (EN_IOTA_DEVICE_INFO.offset k "device_id")
  name := textAt b (EN_IOTA_DEVICE_INFO.offset k "name")
  description := textAt b (EN_IOTA_DEVICE_INFO.offset k "description")
  manufacturer_id := textAt b (EN_IOTA_DEVICE_INFO.offset k "manufacturer_id")
  model := textAt b (EN_IOTA_DEVICE_INFO.offset k "model")
  product_id := textAt b (EN_IOTA_DEVICE_INFO.offset k "product_id")
  fw_version := textAt b (EN_IOTA_DEVICE_INFO.offset k "fw_version")
  sw_version := textAt b (EN_IOTA_DEVICE_INFO.offset k "sw_version")
  status := textAt b (EN_IOTA_DEVICE_INFO.offset k "status")
  extension_info := textAt b (EN_IOTA_DEVICE_INFO.offset k "extension_info")

def addReasonAt (b : Texts) (k : ℕ) : AddDeviceFailedReason where
  node_id := textAt b (EN_IOTA_ADD_DEVICE_FAILED_REASON.offset k "node_id")
  product_id := textAt b (EN_IOTA_ADD_DEVICE_FAILED_REASON.offset k "product_id")
  error_code := textAt b (EN_IOTA_ADD_DEVICE_FAILED_REASON.offset k "error_code")
  error_msg := textAt b (EN_IOTA_ADD_DEVICE_FAILED_REASON.offset k "error_msg")

def delReasonAt (b : Texts) (k : ℕ) : DelDeviceFailedReason where
  device_id := textAt b (EN_IOTA_DEL_DEVICE_FAILED_REASON.offset k "device_id")
  error_code := textAt b (EN_IOTA_DEL_DEVICE_FAILED_REASON.offset k "error_code")
  error_msg := textAt b (EN_IOTA_DEL_DEVICE_FAILED_REASON.offset k "error_msg")

/-- An array with its count, when both have been written. -/
def readArray {β : Type} (read : Texts → ℕ → β) (array : Option Texts) (count : Option ℕ) :
    Option (List β) :=
  match array, count with
  | some b, some n => some ((List.range n).map (read b))
  | _, _ => none

/-- A slot as the application reads it, over what was in it before. -/
def Slot.over (slot : Slot) (service : ServiceEvent) : ServiceEvent :=
  { service with
    event_id := slot.event_id <|> service.event_id
    event_type := slot.event_type <|> service.event_type
    paras := (slot.paras.map fun paras =>
      { devices := readArray deviceInfoAt paras.devices paras.devices_count
        version := paras.version }) <|> service.paras
    gtw_add_device_paras := (slot.gtw_add_device_paras.map fun paras =>
      { successful_devices :=
          (readArray deviceInfoAt paras.successful_devices paras.successful_devices_count).getD []
        failed_devices :=
          (readArray addReasonAt paras.failed_devices paras.failed_devices_count).getD [] }) <|>
      service.gtw_add_device_paras
    gtw_del_device_paras := (slot.gtw_del_device_paras.map fun paras =>
      { successful_devices :=
          (readArray (fun b k => textAt b (HW_CHAR_POINTER.offset k ())) paras.successful_devices
            paras.successful_devices_count).getD []
        failed_devices :=
          (readArray delReasonAt paras.failed_devices paras.failed_devices_count).getD [] }) <|>
      service.gtw_del_device_paras }

/-! ### Reading what was decoded -/

section Decoded

variable {layout : Layout String} {fields : List String} {items : List CJson}

theorem textAt_decodedArray (hfields : fields ⊆ layout.fields) {k : ℕ} {item : CJson}
    (hitem : items[k]? = some item) {f : String} (hf : f ∈ layout.fields) :
    textAt (decodedArray layout fields items) (layout.offset k f) =
      if f ∈ fields then fieldText item f else none := by
  unfold textAt
  rw [read_decodedArray hfields hitem hf]
  split
  · rfl
  · rfl

/-- A structure of which all fields are decoded. -/
theorem textAt_decodedArray_all {k : ℕ} {item : CJson} (hitem : items[k]? = some item) {f : String}
    (hf : f ∈ layout.fields) :
    textAt (decodedArray layout layout.fields items) (layout.offset k f) = fieldText item f :=
  (textAt_decodedArray (List.Subset.refl _) hitem hf).trans (if_pos hf)

/-- An array that is read structure by structure. -/
theorem readArray_eq {β : Type} {read : Texts → ℕ → β} {b : Texts} {g : CJson → β}
    (h : ∀ k item, items[k]? = some item → read b k = g item) :
    readArray read (some b) (some items.length) = some (items.map g) := by
  refine congrArg some (List.ext_getElem (by simp) fun k hk hk' => ?_)
  rw [List.getElem_map, List.getElem_map, List.getElem_range]
  rw [List.length_map] at hk'
  exact h k _ (List.getElem?_eq_getElem hk')

theorem readArray_devices :
    readArray deviceInfoAt
        (some (decodedArray EN_IOTA_DEVICE_INFO EN_IOTA_DEVICE_INFO.fields items))
        (some items.length) = some (items.map fun item => readDeviceInfo item) := by
  refine readArray_eq fun k item hitem => ?_
  unfold deviceInfoAt readDeviceInfo
  congr 1
  all_goals exact textAt_decodedArray_all hitem (by decide)

/-- The fields of a deleted device that are not written are read as `NULL`. -/
theorem readArray_deletedDevices :
    readArray deviceInfoAt (some (decodedArray EN_IOTA_DEVICE_INFO deletedFields items))
        (some items.length) = some (items.map fun item => readDeletedDeviceInfo item) := by
  refine readArray_eq fun k item hitem => ?_
  unfold deviceInfoAt readDeletedDeviceInfo
  congr 1
  all_goals exact textAt_decodedArray deletedFields_subset hitem (by decide)

theorem readArray_addReasons :
    readArray addReasonAt
        (some (decodedArray EN_IOTA_ADD_DEVICE_FAILED_REASON EN_IOTA_ADD_DEVICE_FAILED_REASON.fields
          items)) (some items.length) =
      some (items.map fun reason =>
        { node_id := jsonGetStringFromObject reason "node_id" none
          product_id := jsonGetStringFromObject reason "product_id" none
          error_code := jsonGetStringFromObject reason "error_code" none
          error_msg := jsonGetStringFromObject reason "error_msg" none }) := by
  refine readArray_eq fun k item hitem => ?_
  unfold addReasonAt
  congr 1
  all_goals exact textAt_decodedArray_all hitem (by decide)

theorem readArray_delReasons :
    readArray delReasonAt
        (some (decodedArray EN_IOTA_DEL_DEVICE_FAILED_REASON EN_IOTA_DEL_DEVICE_FAILED_REASON.fields
          items)) (some items.length) =
      some (items.map fun reason =>
        { device_id := jsonGetStringFromObject reason "device_id" none
          error_code := jsonGetStringFromObject reason "error_code" none
          error_msg := jsonGetStringFromObject reason "error_msg" none }) := by
  refine readArray_eq fun k item hitem => ?_
  unfold delReasonAt
  congr 1
  all_goals exact textAt_decodedArray_all hitem (by decide)

end Decoded

/-! ### The handlers -/

section Handlers

variable {env : Env}

/-- What is left in the slot is what is read from the blocks of a result. -/
def ReadFrom (result : Slot) (service service' : ServiceEvent) : Prop :=
  service' = result.over service

theorem onEventsGatewayAddOrDelete_reads (e : SubDeviceEvent) {event_type : String} {type : ℤ}
    {fields : List String}
    (h : event_type = "add_sub_device_notify" ∧ type = EN_IOTA_EVENT_ADD_SUB_DEVICE_NOTIFY ∧
        fields = EN_IOTA_DEVICE_INFO.fields ∨
      event_type = "delete_sub_device_notify" ∧ type = EN_IOTA_EVENT_DELETE_SUB_DEVICE_NOTIFY ∧
        fields = deletedFields) :
    Handles env (ReadFrom (e.notifyResult type fields).2)
      (Service.onEventsGatewayAddOrDelete event_type e.paras e.message) := by
  intro loop
  unfold Service.onEventsGatewayAddOrDelete
  refine yields_allocated (gaveUp rfl) ?_
  refine (wrote_id loop).write_bind fun loop' hloop => ?_
  dsimp only
  rw [jsonGetArraySize_eq]
  split
  · rename_i hmany
    rw [notifyResult_many hmany]
    exact filled hloop fun service => rfl
  · rename_i hfew
    refine yields_allocated ((freeDown_yields loop' _ _).bind fun freed hfreed => ?_) ?_
    · exact gaveUp (hfreed.trans hloop.handed)
    split
    · exact gaveUp hloop.handed
    · rename_i hversion
      rw [notifyResult_decoded hfew hversion]
      rcases h with ⟨rfl, rfl, rfl⟩ | ⟨rfl, rfl, rfl⟩
      · refine hloop.write_bind fun loop' hloop => filled hloop fun service => ?_
        unfold ReadFrom Slot.over
        dsimp only [Option.map_some]
        rw [readArray_devices]
        rfl
      · refine hloop.write_bind fun loop' hloop => filled hloop fun service => ?_
        unfold ReadFrom Slot.over
        dsimp only [Option.map_some]
        rw [readArray_deletedDevices]
        rfl

/-- The items of a list as items that may be missing. -/
theorem map_items {β : Type} (items : List CJson) (g : Option CJson → β) :
    (do let item ← items; pure (some item) : List (Option CJson)).map g =
      items.map fun item => g (some item) := by
  induction items with
  | nil => rfl
  | cons item items ih => exact congrArg (List.cons _) ih

theorem onEventsAddSubDeviceResponse_reads (e : SubDeviceEvent) :
    Handles env (ReadFrom e.addResponseResult.2)
      (Service.onEventsAddSubDeviceResponse e.paras e.serviceEvent) := by
  intro loop
  unfold Service.onEventsAddSubDeviceResponse
  refine (wrote_id loop).write_bind fun loop' hloop => ?_
  refine yields_allocated (gaveUp hloop.handed) ?_
  refine hloop.write_bind fun loop' hloop => ?_
  refine yields_allocated ((freeDown_yields loop' _ _).bind fun freed hfreed => ?_) ?_
  · exact gaveUp (hfreed.trans hloop.handed)
  refine yields_allocated (gaveUp hloop.handed) ?_
  refine hloop.write_bind fun loop' hloop => filled hloop fun service => ?_
  unfold ReadFrom Slot.over SubDeviceEvent.addResponseResult
  dsimp only [Option.map_some]
  rw [readArray_devices, readArray_addReasons, map_items]
  rfl

/-- The handler is undefined when a text is written outside its block. -/
theorem onEventsDeleteSubDeviceResponse_reads (e : SubDeviceEvent) :
    Handles env (ReadFrom e.deleteResponseResult.2)
      (Service.onEventsDeleteSubDeviceResponse e.paras e.serviceEvent) := by
  intro loop
  unfold Service.onEventsDeleteSubDeviceResponse
  refine (wrote_id loop).write_bind fun loop' hloop => ?_
  refine yields_allocated (gaveUp hloop.handed) ?_
  refine yields_allocated (gaveUp hloop.handed) ?_
  dsimp only
  rw [jsonGetArraySize_eq]
  split
  · -- the first text is written outside, where the handler is undefined
    exact yields_undefined.bind fun _ h => h
  · rename_i hnone
    have hempty : e.successfulDevices = [] :=
      List.length_eq_zero_iff.mp (Nat.eq_zero_of_not_pos hnone)
    refine yields_allocated (gaveUp hloop.handed) ?_
    refine hloop.write_bind fun loop' hloop => filled hloop fun service => ?_
    unfold ReadFrom Slot.over SubDeviceEvent.deleteResponseResult
    dsimp only [Option.map_some]
    rw [readArray_delReasons, hempty, map_items]
    rfl

/-- **The lists of the handlers** are what is read from the arrays. -/
theorem onEventsDownManagerArrived_reads (e : SubDeviceEvent) :
    Handles env (ReadFrom e.result.2)
      (Service.onEventsDownManagerArrived e.type.text e.paras e.message e.serviceEvent) := by
  obtain ⟨type, paras, serviceEvent, message⟩ := e
  cases type with
  | addNotify => exact onEventsGatewayAddOrDelete_reads _ (.inl ⟨rfl, rfl, rfl⟩)
  | deleteNotify => exact onEventsGatewayAddOrDelete_reads _ (.inr ⟨rfl, rfl, rfl⟩)
  | addResponse => exact onEventsAddSubDeviceResponse_reads _
  | deleteResponse => exact onEventsDeleteSubDeviceResponse_reads _
  | updateResponse => exact onEventsDeleteSubDeviceResponse_reads _

end Handlers

end IotDeviceSdk.Service.SubDevices
