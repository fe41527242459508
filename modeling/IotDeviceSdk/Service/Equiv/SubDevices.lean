import IotDeviceSdk.Service.CallbackFunc.SubDevices

/-!
# The arrays of sub-device events

An event of the sub-device manager is decoded to arrays of devices and of reasons
(`SubDeviceEvent`).

* `writesInBounds_iff`: the writes stay in the blocks but for the texts of a response to a deletion
  or an update.
* `deliversJson_iff`: the counts and arrays of an event without an error are those of its JSON.
* `initialises_iff`: nothing in them is left uninitialised.
* `eventRight_iff`: all of this together.
-/

namespace IotDeviceSdk.Service.SubDevices

open CJson Prog

/-! ### Events -/

/-- The kinds of events of the sub-device manager. -/
inductive SubDeviceEventType where
  | addNotify | deleteNotify | addResponse | deleteResponse | updateResponse
  deriving DecidableEq

/-- `event_type`. -/
def SubDeviceEventType.text : SubDeviceEventType → String
  | addNotify => "add_sub_device_notify"
  | deleteNotify => "delete_sub_device_notify"
  | addResponse => "add_sub_device_response"
  | deleteResponse => "delete_sub_device_response"
  | updateResponse => "sub_device_update_status_response"

/-- An event of the sub-device manager in a message. -/
structure SubDeviceEvent where
  type : SubDeviceEventType
  paras : Option CJson
  serviceEvent : CJson
  message : String

namespace SubDeviceEvent

variable (e : SubDeviceEvent)

/-- `devices`. -/
def devices : List CJson := forEachItems (jsonGetObjectFromObject e.paras "devices")

/-- `successful_devices`. -/
def successfulDevices : List CJson :=
  forEachItems (jsonGetObjectFromObject e.paras "successful_devices")

/-- `failed_devices`. -/
def failedDevices : List CJson := forEachItems (jsonGetObjectFromObject e.paras "failed_devices")

/-- The handler of the event, on an empty slot. -/
def run : Sdk (ℤ × Slot) :=
  onEventsDownManagerArrived e.type.text e.paras e.message e.serviceEvent {}

end SubDeviceEvent

/-- The arrays of a slot. -/
def Slot.arrays (slot : Slot) : List Texts :=
  (slot.paras.bind DeviceParas.devices).toList ++
    ((slot.gtw_add_device_paras.bind GtwDeviceParas.successful_devices).toList ++
      (slot.gtw_add_device_paras.bind GtwDeviceParas.failed_devices).toList) ++
    ((slot.gtw_del_device_paras.bind GtwDeviceParas.successful_devices).toList ++
      (slot.gtw_del_device_paras.bind GtwDeviceParas.failed_devices).toList)

/-! ### What is right about an event -/

/-- In every run every write to an array is inside the block that was allocated for it. -/
def WritesInBounds (e : SubDeviceEvent) : Prop :=
  ∀ env ret slot, Outcome env e.run (ret, slot) → ∀ b ∈ slot.arrays, b.InBounds

section Arrays

variable {κ ι : Type} [DecidableEq κ]

/-- An array and its count are those of a list: so many structures, with the texts of each item in
the fields that are decoded. -/
structure Decoded (layout : Layout κ) (fields : List κ) (value : ι → κ → Option String)
    (items : List ι) (array : Option Texts) (count : Option ℕ) : Prop where
  count_eq : count = some items.length
  array_eq : ∃ b, array = some b ∧ ∀ k item, items[k]? = some item → ∀ f ∈ fields,
    b.read (layout.offset k f) = some (value item f)

/-- An array and its count have been written, and every field of its structures has. -/
def Initialised (layout : Layout κ) (array : Option Texts) (count : Option ℕ) : Prop :=
  ∃ b n, array = some b ∧ count = some n ∧ ∀ k < n, ∀ f ∈ layout.fields,
    b.read (layout.offset k f) ≠ none

end Arrays

/-- The counts and arrays of a slot are those of the JSON of the event, in order. -/
def Slot.DecodesJson (slot : Slot) (e : SubDeviceEvent) : Prop :=
  match e.type with
  | .addNotify => ∃ paras, slot.paras = some paras ∧
    Decoded EN_IOTA_DEVICE_INFO EN_IOTA_DEVICE_INFO.fields fieldText e.devices paras.devices
      paras.devices_count
  | .deleteNotify => ∃ paras, slot.paras = some paras ∧
    Decoded EN_IOTA_DEVICE_INFO deletedFields fieldText e.devices paras.devices paras.devices_count
  | .addResponse => ∃ paras, slot.gtw_add_device_paras = some paras ∧
    Decoded EN_IOTA_DEVICE_INFO EN_IOTA_DEVICE_INFO.fields fieldText e.successfulDevices
      paras.successful_devices paras.successful_devices_count ∧
    Decoded EN_IOTA_ADD_DEVICE_FAILED_REASON EN_IOTA_ADD_DEVICE_FAILED_REASON.fields fieldText
      e.failedDevices paras.failed_devices paras.failed_devices_count
  | _ => ∃ paras, slot.gtw_del_device_paras = some paras ∧
    Decoded HW_CHAR_POINTER HW_CHAR_POINTER.fields (fun item _ => item.valuestring)
      e.successfulDevices paras.successful_devices paras.successful_devices_count ∧
    Decoded EN_IOTA_DEL_DEVICE_FAILED_REASON EN_IOTA_DEL_DEVICE_FAILED_REASON.fields fieldText
      e.failedDevices paras.failed_devices paras.failed_devices_count

/-- Nothing is uninitialised in the counts and arrays of a slot. -/
def Slot.IsInitialised (slot : Slot) (e : SubDeviceEvent) : Prop :=
  match e.type with
  | .addNotify | .deleteNotify => ∃ paras, slot.paras = some paras ∧
    Initialised EN_IOTA_DEVICE_INFO paras.devices paras.devices_count
  | .addResponse => ∃ paras, slot.gtw_add_device_paras = some paras ∧
    Initialised EN_IOTA_DEVICE_INFO paras.successful_devices paras.successful_devices_count ∧
    Initialised EN_IOTA_ADD_DEVICE_FAILED_REASON paras.failed_devices paras.failed_devices_count
  | _ => ∃ paras, slot.gtw_del_device_paras = some paras ∧
    Initialised HW_CHAR_POINTER paras.successful_devices paras.successful_devices_count ∧
    Initialised EN_IOTA_DEL_DEVICE_FAILED_REASON paras.failed_devices paras.failed_devices_count

/-- In every run without an error, after which the callback of the application gets the slot, the
counts and arrays are those of the JSON. -/
def DeliversJson (e : SubDeviceEvent) : Prop :=
  ∀ env ret slot, Outcome env e.run (ret, slot) → 0 ≤ ret → slot.DecodesJson e

/-- In every run without an error nothing in them is uninitialised. -/
def Initialises (e : SubDeviceEvent) : Prop :=
  ∀ env ret slot, Outcome env e.run (ret, slot) → 0 ≤ ret → slot.IsInitialised e

/-- **An event is decoded right**: in bounds, to what its JSON says, and to nothing uninitialised.
-/
structure EventRight (e : SubDeviceEvent) : Prop where
  inBounds : WritesInBounds e
  delivers : DeliversJson e
  initialises : Initialises e

/-! ### Conditions -/

/-- The event is no response to a deletion or an update with a successful device. -/
def NoDeletedTexts (e : SubDeviceEvent) : Prop :=
  e.type = .deleteResponse ∨ e.type = .updateResponse → e.successfulDevices = []

/-- The event is no notification with more devices than the limit. -/
def WithinLimit (e : SubDeviceEvent) : Prop :=
  e.type = .addNotify ∨ e.type = .deleteNotify → e.devices.length ≤ MAX_EVENT_DEVICE_COUNT

/-- The event is no notification of a deletion with a device, or the version of its message cannot
be read, so that the handler gives up. -/
def NoDeletedDevices (e : SubDeviceEvent) : Prop :=
  e.type = .deleteNotify → e.devices = [] ∨ getLLongValueFromStr e.message VERSION_JSON < 0

/-! ### Results -/

/-- The array of structures that is decoded from a list, with some of the fields. -/
def decodedArray (layout : Layout String) (fields : List String) (items : List CJson) : Texts :=
  storeArray layout fields fieldText items 0 (Block.alloc (layout.sizeof * items.length))

/-- The array of texts that is decoded from a list of so many items. -/
def decodedTexts (texts : Option CJson) : Texts :=
  storeArray HW_CHAR_POINTER HW_CHAR_POINTER.fields (fun j _ => jsonGetStringFromArray texts j none)
    (List.range (forEachItems texts).length) 0
    (Block.alloc (SIZEOF_HW_CHAR * (forEachItems texts).length))

namespace SubDeviceEvent

variable (e : SubDeviceEvent)

/-- The result of a notification when there is memory for it. -/
def notifyResult (event_type : ℤ) (fields : List String) : ℤ × Slot :=
  if MAX_EVENT_DEVICE_COUNT < e.devices.length then (0, { paras := some {} })
  else if getLLongValueFromStr e.message VERSION_JSON < 0 then
    (-1,
      { paras := some
          { devices := some (Block.alloc (EN_IOTA_DEVICE_INFO.sizeof * e.devices.length))
            devices_count := some e.devices.length } })
  else
    (1,
      { event_type := some event_type
        paras := some
          { devices := some (decodedArray EN_IOTA_DEVICE_INFO fields e.devices)
            devices_count := some e.devices.length
            version := some (getLLongValueFromStr e.message VERSION_JSON) } })

/-- The result of a response to an addition when there is memory for it. -/
def addResponseResult : ℤ × Slot :=
  (1,
    { event_id := some (jsonGetStringFromObject e.serviceEvent "event_id" none)
      event_type := some EN_IOTA_EVENT_ADD_SUB_DEVICE_RESPONSE
      gtw_add_device_paras := some
        { successful_devices := some
            (decodedArray EN_IOTA_DEVICE_INFO EN_IOTA_DEVICE_INFO.fields e.successfulDevices)
          successful_devices_count := some e.successfulDevices.length
          failed_devices := some
            (decodedArray EN_IOTA_ADD_DEVICE_FAILED_REASON EN_IOTA_ADD_DEVICE_FAILED_REASON.fields
              e.failedDevices)
          failed_devices_count := some e.failedDevices.length } })

/-- The result of another response when there is memory for it. -/
def deleteResponseResult : ℤ × Slot :=
  (1,
    { event_id := some (jsonGetStringFromObject e.serviceEvent "event_id" none)
      event_type := some EN_IOTA_EVENT_DEL_SUB_DEVICE_RESPONSE
      gtw_del_device_paras := some
        { successful_devices := some
            (decodedTexts (jsonGetObjectFromObject e.paras "successful_devices"))
          successful_devices_count := some e.successfulDevices.length
          failed_devices := some
            (decodedArray EN_IOTA_DEL_DEVICE_FAILED_REASON EN_IOTA_DEL_DEVICE_FAILED_REASON.fields
              e.failedDevices)
          failed_devices_count := some e.failedDevices.length } })

/-- The result of an event when there is memory for it. -/
def result : ℤ × Slot :=
  match e.type with
  | .addNotify =>
    e.notifyResult EN_IOTA_EVENT_ADD_SUB_DEVICE_NOTIFY EN_IOTA_DEVICE_INFO.fields
  | .deleteNotify => e.notifyResult EN_IOTA_EVENT_DELETE_SUB_DEVICE_NOTIFY deletedFields
  | .addResponse => e.addResponseResult
  | _ => e.deleteResponseResult

end SubDeviceEvent

/-- A run gives a result, or gives up with some of its arrays. -/
def Gives (result r : ℤ × Slot) : Prop :=
  r = result ∨ (r.1 < 0 ∧ r.2.arrays ⊆ result.2.arrays)

section Run

variable {env : Env} {result : ℤ × Slot} {slot : Slot} {rest : Sdk (ℤ × Slot)}

theorem gives_self (env : Env) : Gives result result ∧ (env.AllocsSucceed → result = result) :=
  ⟨.inl rfl, fun _ => rfl⟩

/-- What is done after an allocation. -/
theorem gives_allocated (harrays : slot.arrays ⊆ result.2.arrays)
    (hrest : Returns env rest fun r => Gives result r ∧ (env.AllocsSucceed → r = result)) :
    Returns env (malloc >>= fun allocated => if !allocated then pure (-1, slot) else rest) fun r =>
      Gives result r ∧ (env.AllocsSucceed → r = result) :=
  @returns_allocated env _ (-1, slot) rest (Gives result) (fun r => r = result)
    (.inr ⟨show (-1 : ℤ) < 0 by decide, harrays⟩) hrest

/-- **A notification**: its result, or nothing. -/
theorem onEventsGatewayAddOrDelete_gives (e : SubDeviceEvent) {event_type : String} {type : ℤ}
    {fields : List String}
    (h : event_type = "add_sub_device_notify" ∧ type = EN_IOTA_EVENT_ADD_SUB_DEVICE_NOTIFY ∧
        fields = EN_IOTA_DEVICE_INFO.fields ∨
      event_type = "delete_sub_device_notify" ∧ type = EN_IOTA_EVENT_DELETE_SUB_DEVICE_NOTIFY ∧
        fields = deletedFields) :
    Returns env (onEventsGatewayAddOrDelete event_type e.paras e.message {}) fun r =>
      Gives (e.notifyResult type fields) r ∧
        (env.AllocsSucceed → r = e.notifyResult type fields) := by
  unfold onEventsGatewayAddOrDelete
  refine gives_allocated (List.nil_subset _) ?_
  dsimp only
  rw [jsonGetArraySize_eq]
  split
  · rename_i hmany
    have hresult : e.notifyResult type fields = (0, { paras := some {} }) := if_pos hmany
    rw [hresult]
    exact returns_pure (gives_self env)
  · rename_i hfew
    -- the parameters, and below the limit the devices
    refine gives_allocated (List.nil_subset _) ?_
    have hresult : e.notifyResult type fields = ite _ _ _ := if_neg hfew
    rw [hresult]
    split
    · exact returns_pure (gives_self env)
    · rcases h with ⟨rfl, rfl, rfl⟩ | ⟨rfl, rfl, rfl⟩
      · exact returns_pure (gives_self env)
      · exact returns_pure (gives_self env)

/-- **A response to an addition**: its result, or a part of the arrays. -/
theorem onEventsAddSubDeviceResponse_gives (e : SubDeviceEvent) :
    Returns env (onEventsAddSubDeviceResponse e.paras e.serviceEvent {}) fun r =>
      Gives e.addResponseResult r ∧ (env.AllocsSucceed → r = e.addResponseResult) := by
  unfold onEventsAddSubDeviceResponse
  dsimp only
  rw [jsonGetArraySize_eq, jsonGetArraySize_eq]
  refine gives_allocated (List.nil_subset _) ?_
  refine gives_allocated (List.nil_subset _) ?_
  -- without memory for the reasons the devices are there already
  refine gives_allocated ?_ (returns_pure (gives_self env))
  exact List.cons_subset.mpr ⟨List.mem_cons_self .., List.nil_subset _⟩

/-- **A response to a deletion or an update**: its result, or a part of the arrays. -/
theorem onEventsDeleteSubDeviceResponse_gives (e : SubDeviceEvent) :
    Returns env (onEventsDeleteSubDeviceResponse e.paras e.serviceEvent {}) fun r =>
      Gives e.deleteResponseResult r ∧ (env.AllocsSucceed → r = e.deleteResponseResult) := by
  unfold onEventsDeleteSubDeviceResponse
  dsimp only
  rw [jsonGetArraySize_eq, jsonGetArraySize_eq]
  refine gives_allocated (List.nil_subset _) ?_
  refine gives_allocated (List.nil_subset _) ?_
  refine gives_allocated ?_ (returns_pure (gives_self env))
  exact List.cons_subset.mpr ⟨List.mem_cons_self .., List.nil_subset _⟩

/-- **The run of an event.** -/
theorem run_gives (e : SubDeviceEvent) :
    Returns env e.run fun r => Gives e.result r ∧ (env.AllocsSucceed → r = e.result) := by
  obtain ⟨type, paras, serviceEvent, message⟩ := e
  cases type with
  | addNotify => exact onEventsGatewayAddOrDelete_gives _ (.inl ⟨rfl, rfl, rfl⟩)
  | deleteNotify => exact onEventsGatewayAddOrDelete_gives _ (.inr ⟨rfl, rfl, rfl⟩)
  | addResponse => exact onEventsAddSubDeviceResponse_gives _
  | deleteResponse => exact onEventsDeleteSubDeviceResponse_gives _
  | updateResponse => exact onEventsDeleteSubDeviceResponse_gives _

theorem outcome_result (e : SubDeviceEvent) : Outcome Env.plentiful e.run e.result := by
  obtain ⟨r, s', hrun, -, hr⟩ := @run_gives Env.plentiful e { malloc := 0, frame := 0 }
  obtain rfl := hr Env.plentiful_allocsSucceed
  exact ⟨_, _, hrun⟩

theorem gives_of_outcome {e : SubDeviceEvent} {r : ℤ × Slot} (h : Outcome env e.run r) :
    Gives e.result r :=
  ((run_gives e).yields r h).1

end Run

/-! ### The properties of the result -/

section Result

variable {e : SubDeviceEvent}

theorem writesInBounds_iff_result : WritesInBounds e ↔ ∀ b ∈ e.result.2.arrays, b.InBounds := by
  constructor
  · -- the arrays of a run that gives up are among those of the result
    exact fun h => h _ _ _ (outcome_result e)
  · intro h env ret slot hrun b hb
    rcases gives_of_outcome hrun with heq | ⟨-, harrays⟩
    · rw [← heq] at h
      exact h b hb
    · exact h b (harrays hb)

/-- What is delivered is delivered of the result. -/
theorem delivered_iff_result {P : Slot → Prop} :
    (∀ env ret slot, Outcome env e.run (ret, slot) → 0 ≤ ret → P slot) ↔
      (0 ≤ e.result.1 → P e.result.2) := by
  constructor
  · exact fun h => h _ _ _ (outcome_result e)
  · intro h env ret slot hrun hret
    rcases gives_of_outcome hrun with heq | ⟨hneg, -⟩
    · rw [← heq] at h
      exact h hret
    · exact absurd hneg (not_lt.mpr hret)

end Result

/-! ### Arrays of structures -/

section DecodedArray

variable {layout : Layout String} {fields : List String} {items : List CJson}

theorem read_decodedArray (hfields : fields ⊆ layout.fields) {k : ℕ} {item : CJson}
    (hitem : items[k]? = some item) {f : String} (hf : f ∈ layout.fields) :
    (decodedArray layout fields items).read (layout.offset k f) =
      if f ∈ fields then some (fieldText item f) else none := by
  obtain ⟨hk, -⟩ := List.getElem?_eq_some_iff.mp hitem
  exact read_storeArray hfields hitem hf (Layout.offset_add_le hf hk)

theorem decoded_decodedArray (hfields : fields ⊆ layout.fields) :
    Decoded layout fields fieldText items (some (decodedArray layout fields items))
      (some items.length) := by
  refine ⟨rfl, _, rfl, fun k item hitem f hf => ?_⟩
  rw [read_decodedArray hfields hitem (hfields hf), if_pos hf]

/-- A field that is not decoded is not initialised, unless there is no structure. -/
theorem initialised_decodedArray_iff (hfields : fields ⊆ layout.fields) :
    Initialised layout (some (decodedArray layout fields items)) (some items.length) ↔
      items = [] ∨ layout.fields ⊆ fields := by
  constructor
  · rintro ⟨b, n, hb, hn, hall⟩
    obtain rfl := Option.some.inj hb
    obtain rfl := Option.some.inj hn
    cases items with
    | nil => exact .inl rfl
    | cons item items =>
      refine .inr fun f hf => ?_
      by_contra hnot
      have hread := read_decodedArray hfields (show (item :: items)[0]? = some item from rfl) hf
      rw [if_neg hnot] at hread
      exact hall 0 (Nat.succ_pos _) f hf hread
  · intro h
    refine ⟨_, _, rfl, rfl, fun k hk f hf => ?_⟩
    have hitem := List.getElem?_eq_getElem hk
    rw [read_decodedArray hfields hitem hf]
    rcases h with rfl | hall
    · exact absurd hk (Nat.not_lt_zero _)
    · rw [if_pos (hall hf)]
      exact Option.some_ne_none _

theorem initialised_decodedArray_all :
    Initialised layout (some (decodedArray layout layout.fields items)) (some items.length) :=
  (initialised_decodedArray_iff (List.Subset.refl _)).mpr (.inr (List.Subset.refl _))

end DecodedArray

/-! ### Arrays of texts -/

section DecodedTexts

variable {texts : Option CJson}

/-- The last text goes past the end of the block. -/
theorem size_decodedTexts_lt (h : forEachItems texts ≠ []) :
    (decodedTexts texts).size <
      HW_CHAR_POINTER.offset ((forEachItems texts).length - 1) () + POINTER_SIZE := by
  have hpos := List.length_pos_iff.mpr h
  have hsize : (decodedTexts texts).size = 1 * (forEachItems texts).length := size_storeArray _
  rw [hsize]
  show _ < ((forEachItems texts).length - 1) * 8 + 0 + 8
  omega

theorem inBounds_decodedTexts_iff :
    (decodedTexts texts).InBounds ↔ forEachItems texts = [] := by
  constructor
  · intro h
    by_contra hne
    have hlt := size_decodedTexts_lt hne
    have hitem : (List.range (forEachItems texts).length)[(forEachItems texts).length - 1]? =
        some ((forEachItems texts).length - 1) := by
      have hpos := List.length_pos_iff.mpr hne
      exact List.getElem?_range (by omega)
    have hstore := h _ <| mem_stores_storeArray.mpr <|
      .inr ⟨_, _, hitem, (), List.mem_cons_self .., rfl⟩
    rw [Nat.zero_add] at hstore
    exact absurd hlt (not_lt.mpr hstore)
  · intro h
    unfold decodedTexts
    rw [h]
    exact fun s hs => absurd hs List.not_mem_nil

theorem read_decodedTexts (h : forEachItems texts ≠ []) :
    (decodedTexts texts).read
      (HW_CHAR_POINTER.offset ((forEachItems texts).length - 1) ()) = none :=
  Block.read_of_outside (size_decodedTexts_lt h)

theorem decoded_decodedTexts_iff :
    Decoded HW_CHAR_POINTER HW_CHAR_POINTER.fields (fun item _ => item.valuestring)
        (forEachItems texts) (some (decodedTexts texts)) (some (forEachItems texts).length) ↔
      forEachItems texts = [] := by
  constructor
  · rintro ⟨-, b, hb, hall⟩
    obtain rfl := Option.some.inj hb
    by_contra hne
    have hpos := List.length_pos_iff.mpr hne
    have hlast : (forEachItems texts).length - 1 < (forEachItems texts).length := by omega
    have hread := hall _ _ (List.getElem?_eq_getElem hlast) () (List.mem_cons_self ..)
    rw [read_decodedTexts hne] at hread
    exact nomatch hread
  · intro h
    refine ⟨rfl, _, rfl, fun k item hitem => ?_⟩
    rw [h] at hitem
    exact nomatch hitem

theorem initialised_decodedTexts_iff :
    Initialised HW_CHAR_POINTER (some (decodedTexts texts)) (some (forEachItems texts).length) ↔
      forEachItems texts = [] := by
  constructor
  · rintro ⟨b, n, hb, hn, hall⟩
    obtain rfl := Option.some.inj hb
    obtain rfl := Option.some.inj hn
    by_contra hne
    have hpos := List.length_pos_iff.mpr hne
    exact hall _ (by omega) () (List.mem_cons_self ..) (read_decodedTexts hne)
  · intro h
    refine ⟨_, _, rfl, rfl, fun k hk => ?_⟩
    rw [h] at hk
    exact absurd hk (Nat.not_lt_zero _)

end DecodedTexts

/-! ### Notifications -/

section Notify

variable {e : SubDeviceEvent} {event_type : ℤ} {fields : List String}

theorem deletedFields_subset : deletedFields ⊆ EN_IOTA_DEVICE_INFO.fields := by decide

theorem notifyResult_many (h : MAX_EVENT_DEVICE_COUNT < e.devices.length) :
    e.notifyResult event_type fields = (0, { paras := some {} }) :=
  if_pos h

theorem notifyResult_no_version (h : ¬MAX_EVENT_DEVICE_COUNT < e.devices.length)
    (hversion : getLLongValueFromStr e.message VERSION_JSON < 0) :
    e.notifyResult event_type fields =
      (-1,
        { paras := some
            { devices := some (Block.alloc (EN_IOTA_DEVICE_INFO.sizeof * e.devices.length))
              devices_count := some e.devices.length } }) :=
  (if_neg h).trans (if_pos hversion)

theorem notifyResult_decoded (h : ¬MAX_EVENT_DEVICE_COUNT < e.devices.length)
    (hversion : ¬getLLongValueFromStr e.message VERSION_JSON < 0) :
    e.notifyResult event_type fields =
      (1,
        { event_type := some event_type
          paras := some
            { devices := some (decodedArray EN_IOTA_DEVICE_INFO fields e.devices)
              devices_count := some e.devices.length
              version := some (getLLongValueFromStr e.message VERSION_JSON) } }) :=
  (if_neg h).trans (if_neg hversion)

theorem notifyResult_inBounds (hfields : fields ⊆ EN_IOTA_DEVICE_INFO.fields) :
    ∀ b ∈ (e.notifyResult event_type fields).2.arrays, b.InBounds := by
  intro b hb
  by_cases hmany : MAX_EVENT_DEVICE_COUNT < e.devices.length
  · rw [notifyResult_many hmany] at hb
    exact absurd hb List.not_mem_nil
  · by_cases hversion : getLLongValueFromStr e.message VERSION_JSON < 0
    · rw [notifyResult_no_version hmany hversion] at hb
      obtain rfl := List.mem_singleton.mp hb
      exact fun s hs => absurd hs List.not_mem_nil
    · rw [notifyResult_decoded hmany hversion] at hb
      obtain rfl := List.mem_singleton.mp hb
      exact inBounds_storeArray hfields

/-- What is delivered of a notification: the decoded arrays, or above the limit parameters that have
not been written. -/
theorem notifyResult_delivers_iff {P : Slot → Prop} (hmany : ¬P { paras := some {} }) :
    (0 ≤ (e.notifyResult event_type fields).1 → P (e.notifyResult event_type fields).2) ↔
      ¬MAX_EVENT_DEVICE_COUNT < e.devices.length ∧
        (getLLongValueFromStr e.message VERSION_JSON < 0 ∨
          P { event_type := some event_type
              paras := some
                { devices := some (decodedArray EN_IOTA_DEVICE_INFO fields e.devices)
                  devices_count := some e.devices.length
                  version := some (getLLongValueFromStr e.message VERSION_JSON) } }) := by
  by_cases h : MAX_EVENT_DEVICE_COUNT < e.devices.length
  · rw [notifyResult_many h]
    exact ⟨fun hp => absurd (hp (le_refl _)) hmany, fun hp => absurd h hp.1⟩
  · by_cases hversion : getLLongValueFromStr e.message VERSION_JSON < 0
    · rw [notifyResult_no_version h hversion]
      exact ⟨fun _ => ⟨h, .inl hversion⟩, fun _ hneg => absurd hneg (show ¬(0 : ℤ) ≤ -1 by decide)⟩
    · rw [notifyResult_decoded h hversion]
      exact ⟨fun hp => ⟨h, .inr (hp zero_le_one)⟩, fun hp _ => hp.2.resolve_left hversion⟩

theorem notifyResult_decodes_iff (hfields : fields ⊆ EN_IOTA_DEVICE_INFO.fields) :
    (0 ≤ (e.notifyResult event_type fields).1 →
      ∃ paras, (e.notifyResult event_type fields).2.paras = some paras ∧
        Decoded EN_IOTA_DEVICE_INFO fields fieldText e.devices paras.devices paras.devices_count) ↔
      e.devices.length ≤ MAX_EVENT_DEVICE_COUNT := by
  refine (@notifyResult_delivers_iff e event_type fields (fun slot => ∃ paras,
    slot.paras = some paras ∧
      Decoded EN_IOTA_DEVICE_INFO fields fieldText e.devices paras.devices paras.devices_count)
    ?_).trans ?_
  · -- the count of the parameters above the limit has not been written
    rintro ⟨paras, hparas, hdecoded⟩
    obtain rfl := Option.some.inj hparas
    exact nomatch hdecoded.count_eq
  · rw [not_lt]
    exact ⟨And.left, fun h => ⟨h, .inr ⟨_, rfl, decoded_decodedArray hfields⟩⟩⟩

theorem notifyResult_initialises_iff (hfields : fields ⊆ EN_IOTA_DEVICE_INFO.fields) :
    (0 ≤ (e.notifyResult event_type fields).1 →
      ∃ paras, (e.notifyResult event_type fields).2.paras = some paras ∧
        Initialised EN_IOTA_DEVICE_INFO paras.devices paras.devices_count) ↔
      e.devices.length ≤ MAX_EVENT_DEVICE_COUNT ∧
        (getLLongValueFromStr e.message VERSION_JSON < 0 ∨ e.devices = [] ∨
          EN_IOTA_DEVICE_INFO.fields ⊆ fields) := by
  refine (@notifyResult_delivers_iff e event_type fields (fun slot => ∃ paras,
    slot.paras = some paras ∧ Initialised EN_IOTA_DEVICE_INFO paras.devices paras.devices_count)
    ?_).trans ?_
  · rintro ⟨paras, hparas, b, n, hb, -⟩
    obtain rfl := Option.some.inj hparas
    exact nomatch hb
  · rw [not_lt, ← initialised_decodedArray_iff hfields]
    refine and_congr_right fun _ => or_congr_right ⟨?_, fun h => ⟨_, rfl, h⟩⟩
    rintro ⟨paras, hparas, h⟩
    obtain rfl := Option.some.inj hparas
    exact h

end Notify

/-! ### Responses -/

section Responses

variable {e : SubDeviceEvent}

theorem addResponseResult_inBounds : ∀ b ∈ e.addResponseResult.2.arrays, b.InBounds := by
  intro b hb
  rcases List.mem_cons.mp hb with rfl | hb
  · exact inBounds_storeArray (List.Subset.refl _)
  · obtain rfl := List.mem_singleton.mp hb
    exact inBounds_storeArray (List.Subset.refl _)

theorem deleteResponseResult_inBounds_iff :
    (∀ b ∈ e.deleteResponseResult.2.arrays, b.InBounds) ↔ e.successfulDevices = [] := by
  refine Iff.trans ?_ inBounds_decodedTexts_iff
  constructor
  · exact fun h => h _ (List.mem_cons_self ..)
  · intro h b hb
    rcases List.mem_cons.mp hb with rfl | hb
    · exact h
    · obtain rfl := List.mem_singleton.mp hb
      exact inBounds_storeArray (List.Subset.refl _)

/-- What is delivered of a response to a deletion or an update. -/
theorem deleteResponseResult_delivers_iff {P : GtwDeviceParas → Prop} {Q : Prop}
    (h : ∀ paras, e.deleteResponseResult.2.gtw_del_device_paras = some paras → (P paras ↔ Q)) :
    (0 ≤ e.deleteResponseResult.1 →
      ∃ paras, e.deleteResponseResult.2.gtw_del_device_paras = some paras ∧ P paras) ↔ Q := by
  constructor
  · intro hall
    obtain ⟨paras, hparas, hp⟩ := hall zero_le_one
    exact (h paras hparas).mp hp
  · exact fun hq _ => ⟨_, rfl, (h _ rfl).mpr hq⟩

theorem deleteResponseResult_decodes_iff :
    (0 ≤ e.deleteResponseResult.1 →
      ∃ paras, e.deleteResponseResult.2.gtw_del_device_paras = some paras ∧
        Decoded HW_CHAR_POINTER HW_CHAR_POINTER.fields (fun item _ => item.valuestring)
          e.successfulDevices paras.successful_devices paras.successful_devices_count ∧
        Decoded EN_IOTA_DEL_DEVICE_FAILED_REASON EN_IOTA_DEL_DEVICE_FAILED_REASON.fields fieldText
          e.failedDevices paras.failed_devices paras.failed_devices_count) ↔
      e.successfulDevices = [] := by
  refine deleteResponseResult_delivers_iff fun paras hparas => ?_
  obtain rfl := Option.some.inj hparas
  refine Iff.trans ?_ decoded_decodedTexts_iff
  exact ⟨And.left, fun h => ⟨h, decoded_decodedArray (List.Subset.refl _)⟩⟩

theorem deleteResponseResult_initialises_iff :
    (0 ≤ e.deleteResponseResult.1 →
      ∃ paras, e.deleteResponseResult.2.gtw_del_device_paras = some paras ∧
        Initialised HW_CHAR_POINTER paras.successful_devices paras.successful_devices_count ∧
        Initialised EN_IOTA_DEL_DEVICE_FAILED_REASON paras.failed_devices
          paras.failed_devices_count) ↔
      e.successfulDevices = [] := by
  refine deleteResponseResult_delivers_iff fun paras hparas => ?_
  obtain rfl := Option.some.inj hparas
  refine Iff.trans ?_ initialised_decodedTexts_iff
  exact ⟨And.left, fun h => ⟨h, initialised_decodedArray_all⟩⟩

end Responses

/-! ### The conditions -/

section Conditions

variable (e : SubDeviceEvent)

/-- **The writes stay in the blocks** exactly when no text is written for a deletion or an update:
its block has one byte for each pointer. -/
theorem writesInBounds_iff : WritesInBounds e ↔ NoDeletedTexts e := by
  rw [writesInBounds_iff_result]
  obtain ⟨type, paras, serviceEvent, message⟩ := e
  cases type with
  | addNotify => exact ⟨fun _ => nofun, fun _ => notifyResult_inBounds (List.Subset.refl _)⟩
  | deleteNotify => exact ⟨fun _ => nofun, fun _ => notifyResult_inBounds deletedFields_subset⟩
  | addResponse => exact ⟨fun _ => nofun, fun _ => addResponseResult_inBounds⟩
  | deleteResponse =>
    exact deleteResponseResult_inBounds_iff.trans ⟨fun h _ => h, fun h => h (.inl rfl)⟩
  | updateResponse =>
    exact deleteResponseResult_inBounds_iff.trans ⟨fun h _ => h, fun h => h (.inr rfl)⟩

/-- **The counts and arrays are those of the JSON** exactly when they stay in their blocks and there
are not too many devices. -/
theorem deliversJson_iff : DeliversJson e ↔ NoDeletedTexts e ∧ WithinLimit e := by
  rw [DeliversJson, delivered_iff_result]
  obtain ⟨type, paras, serviceEvent, message⟩ := e
  cases type with
  | addNotify =>
    refine (notifyResult_decodes_iff (List.Subset.refl _)).trans ?_
    exact ⟨fun h => ⟨nofun, fun _ => h⟩, fun h => h.2 (.inl rfl)⟩
  | deleteNotify =>
    refine (notifyResult_decodes_iff deletedFields_subset).trans ?_
    exact ⟨fun h => ⟨nofun, fun _ => h⟩, fun h => h.2 (.inr rfl)⟩
  | addResponse =>
    refine ⟨fun _ => ⟨nofun, nofun⟩, fun _ _ => ⟨_, rfl, ?_, ?_⟩⟩
    · exact decoded_decodedArray (List.Subset.refl _)
    · exact decoded_decodedArray (List.Subset.refl _)
  | deleteResponse =>
    refine deleteResponseResult_decodes_iff.trans ?_
    exact ⟨fun h => ⟨fun _ => h, nofun⟩, fun h => h.1 (.inl rfl)⟩
  | updateResponse =>
    refine deleteResponseResult_decodes_iff.trans ?_
    exact ⟨fun h => ⟨fun _ => h, nofun⟩, fun h => h.1 (.inr rfl)⟩

/-- **Nothing is left uninitialised** exactly when besides no device is decoded for its deletion: of
such a device three fields of twelve are written. -/
theorem initialises_iff :
    Initialises e ↔ NoDeletedTexts e ∧ WithinLimit e ∧ NoDeletedDevices e := by
  rw [Initialises, delivered_iff_result]
  obtain ⟨type, paras, serviceEvent, message⟩ := e
  cases type with
  | addNotify =>
    refine (notifyResult_initialises_iff (List.Subset.refl _)).trans ?_
    exact ⟨fun h => ⟨nofun, fun _ => h.1, nofun⟩,
      fun h => ⟨h.2.1 (.inl rfl), .inr (.inr (List.Subset.refl _))⟩⟩
  | deleteNotify =>
    -- the name of a device is among the fields that are not written
    have hnot : ¬EN_IOTA_DEVICE_INFO.fields ⊆ deletedFields := by decide
    refine (notifyResult_initialises_iff deletedFields_subset).trans ?_
    rw [or_iff_left hnot, or_comm]
    exact ⟨fun h => ⟨nofun, fun _ => h.1, fun _ => h.2⟩, fun h => ⟨h.2.1 (.inr rfl), h.2.2 rfl⟩⟩
  | addResponse =>
    refine ⟨fun _ => ⟨nofun, nofun, nofun⟩, fun _ _ => ⟨_, rfl, ?_, ?_⟩⟩
    · exact initialised_decodedArray_all
    · exact initialised_decodedArray_all
  | deleteResponse =>
    refine deleteResponseResult_initialises_iff.trans ?_
    exact ⟨fun h => ⟨fun _ => h, nofun, nofun⟩, fun h => h.1 (.inl rfl)⟩
  | updateResponse =>
    refine deleteResponseResult_initialises_iff.trans ?_
    exact ⟨fun h => ⟨fun _ => h, nofun, nofun⟩, fun h => h.1 (.inr rfl)⟩

/-- **An event is decoded right** exactly when it is no response with a deleted or updated device,
no notification with too many devices, and no notification of a deletion with a device. -/
theorem eventRight_iff :
    EventRight e ↔ NoDeletedTexts e ∧ WithinLimit e ∧ NoDeletedDevices e := by
  constructor
  · exact fun h => (initialises_iff e).mp h.initialises
  · intro h
    exact ⟨(writesInBounds_iff e).mpr h.1, (deliversJson_iff e).mpr ⟨h.1, h.2.1⟩,
      (initialises_iff e).mpr h⟩

end Conditions

/-- A response with one deleted device: eight bytes are written to a block of one. -/
theorem eventRight_deleted_false :
    ¬EventRight
      { type := .deleteResponse
        paras := some (.object [("successful_devices", .array [.string "d1"])])
        serviceEvent := .null
        message := "" } :=
  fun h => absurd ((writesInBounds_iff _).mp h.inBounds (.inl rfl)) (by decide)

end IotDeviceSdk.Service.SubDevices
