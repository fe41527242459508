import IotDeviceSdk.Prog.Run
import IotDeviceSdk.Service.SoftBus

/-!
# The soft-bus table

A payload lists buses with a key and devices.  `softBusParasToTotal` stores it in the table
(`softBusParasToTotal_spec`), whatever the table held before, apart from the key of a tenth bus,
which no payload ever stores.

The lookups of addresses and ids agree with the payload.  `getIpAddr` copies the address with one
byte too few for its terminator, so it answers an empty text, never an address; `getAuthKey` joins
the keys up to the tenth bus, whose missing key it dereferences.

`softBus_answers_iff`: all lookups answer as the payload says exactly when it lists no device.
-/

namespace IotDeviceSdk.Service

open CJson DeviceRule Prog

variable {env : Env}

/-! ### Payloads -/

/-- A bus of a payload: its key, and its devices with their id and address. -/
structure PayloadBus where
  key : String
  devices : List (String × String)

/-- The item of a device. -/
structure ReadsDevice (item : CJson) (device : String × String) : Prop where
  id : jsonGetStringFromObject (some item) "device_id" "-1" = some device.1
  ip : jsonGetStringFromObject (some item) "device_ip" "-1" = some device.2

/-- The item of a bus. -/
structure ReadsBus (item : CJson) (bus : PayloadBus) : Prop where
  key : jsonGetStringFromObject (some item) "bus_key" "-1" = some bus.key
  devices : List.Forall₂ ReadsDevice (forEachItems (getObjectItem (some item) "devices_info"))
    bus.devices

/-- The payload of some buses. -/
def ReadsPayload (paras : CJson) (buses : List PayloadBus) : Prop :=
  ∃ busInfos, getObjectItem (some paras) "bus_infos" = some busInfos ∧
    List.Forall₂ ReadsBus busInfos.children buses

/-- A device has an id and an address. -/
def DeviceInRange (device : String × String) : Prop :=
  (device.1 ≠ "" ∧ device.1 ≠ "-1") ∧ device.2 ≠ "" ∧ device.2 ≠ "-1"

/-- A bus fits the table. -/
structure BusInRange (bus : PayloadBus) : Prop where
  devices_le : bus.devices.length ≤ SOFTBUS_INFO_LEN
  devices : ∀ device ∈ bus.devices, DeviceInRange device
  key_ne : bus.key ≠ ""
  key_le : bus.key.length ≤ 19

/-- A payload fits the table. -/
structure PayloadInRange (buses : List PayloadBus) : Prop where
  buses_le : buses.length ≤ SOFTBUS_TOTAL_LEN
  buses : ∀ bus ∈ buses, BusInRange bus

/-! ### What the table holds -/

/-- A stored device. -/
def storedDevice (device : String × String) : SoftBusInfo :=
  { device_id := some device.1, device_ip := some device.2 }

/-- A bus in the `i`-th slot; the texts are there when no allocation failed. -/
structure BusStored (env : Env) (i : ℕ) (infos : SoftBusInfos) (bus : PayloadBus) : Prop where
  count : infos.count = bus.devices.length
  room : infos.count ≤ infos.g_device_soft_bus_info.length
  devices : List.Forall₂ (fun info device => env.AllocsSucceed → info = storedDevice device)
    (infos.g_device_soft_bus_info.take infos.count) bus.devices
  key : env.AllocsSucceed →
    infos.bus_key = if i + 1 < SOFTBUS_TOTAL_LEN then some bus.key else none

/-- Buses in the slots from the `i`-th on. -/
inductive BusesStored (env : Env) : ℕ → List SoftBusInfos → List PayloadBus → Prop
  | nil {i : ℕ} : BusesStored env i [] []
  | cons {i : ℕ} {infos : SoftBusInfos} {rest : List SoftBusInfos} {bus : PayloadBus}
    {buses : List PayloadBus} (hbus : BusStored env i infos bus)
    (hrest : BusesStored env (i + 1) rest buses) :
    BusesStored env i (infos :: rest) (bus :: buses)

/-- The table after a payload. -/
structure PayloadStored (env : Env) (total : SoftBusTotal) (buses : List PayloadBus) : Prop where
  room : total.count ≤ total.g_soft_bus_info.length
  buses : BusesStored env 0 (total.g_soft_bus_info.take total.count) buses

/-- The table between payloads: its sizes, and the key of the tenth bus. -/
structure TableSound (infos : List SoftBusInfos) : Prop where
  length : infos.length = SOFTBUS_TOTAL_LEN
  devices : ∀ bus ∈ infos, bus.g_device_soft_bus_info.length = SOFTBUS_INFO_LEN
  last : ∀ bus, infos[9]? = some bus → bus.bus_key = none

/-! ### Storing the devices -/

theorem combineStrings_defined (str1 : Option String) :
    Returns env (combineStrings str1 []) fun _ => True := by
  unfold combineStrings
  split
  · exact returns_pure trivial
  · refine malloc_returns.bind fun allocated _ => ?_
    cases allocated with
    | false => exact returns_pure trivial
    | true => exact returns_pure trivial

theorem combineStrings_copy {str1 : String} (hne : str1 ≠ "") :
    Returns env (combineStrings (some str1) []) fun r => env.AllocsSucceed → r = some str1 := by
  refine (combineStrings_returns hne []).mono fun r hr hA => ?_
  obtain ⟨topic, rfl⟩ := Option.isSome_iff_exists.mp (hr.2 hA)
  have htext := hr.1 topic rfl
  rw [List.map_nil, List.flatten_nil, List.append_nil] at htext
  rw [String.toList_inj.mp htext]

/-- One device goes to its slot. -/
theorem deviceInfoStep_spec {item : CJson} {device : String × String}
    (hitem : ReadsDevice item device) (hdevice : DeviceInRange device)
    (written : List SoftBusInfo) (old : SoftBusInfo) (rest : List SoftBusInfo) :
    Returns env (deviceInfoStep item (written ++ old :: rest, written.length)) fun step =>
      ∃ info, stepValue step = (written ++ info :: rest, written.length + 1) ∧
        (env.AllocsSucceed → info = storedDevice device) ∧
        (goesOn step = false → SOFTBUS_INFO_LEN ≤ written.length + 1) := by
  obtain ⟨⟨hid, hidDefault⟩, hip, hipDefault⟩ := hdevice
  have hidCompare : strcmpEq (some device.1) (some "-1") = pure false := by
    show pure (device.1 == "-1") = _
    rw [beq_false_of_ne hidDefault]
  have hipCompare : strcmpEq (some device.2) (some "-1") = pure false := by
    show pure (device.2 == "-1") = _
    rw [beq_false_of_ne hipDefault]
  unfold deviceInfoStep
  rw [hitem.id, hitem.ip]
  dsimp only
  rw [hidCompare, pure_bind, if_neg (by decide), hipCompare, pure_bind, if_neg (by decide)]
  refine (combineStrings_copy hid).bind fun device_id hdevice_id => ?_
  refine (combineStrings_copy hip).bind fun device_ip hdevice_ip => ?_
  rw [modifySlot_eq rfl, pure_bind]
  have hstored : env.AllocsSucceed →
      ({ device_id := device_id, device_ip := device_ip } : SoftBusInfo) = storedDevice device := by
    intro hA
    rw [hdevice_id hA, hdevice_ip hA]
    rfl
  by_cases hfull : written.length + 1 ≥ SOFTBUS_INFO_LEN
  · rw [if_pos hfull]
    exact returns_pure ⟨_, rfl, hstored, fun _ => hfull⟩
  · rw [if_neg hfull]
    exact returns_pure ⟨_, rfl, hstored, fun hleft =>
      absurd (show true = false from hleft) (by decide)⟩

/-- **All devices** of a bus go to its slots. -/
theorem devicesLoop_spec {items : List CJson} {devices : List (String × String)}
    (hitems : List.Forall₂ ReadsDevice items devices)
    (hdevices : ∀ device ∈ devices, DeviceInRange device) {infos : List SoftBusInfo}
    (hslots : infos.length = SOFTBUS_INFO_LEN) (hroom : devices.length ≤ infos.length) :
    Returns env (forEach deviceInfoStep items (infos, 0)) fun loop =>
      ∃ stored, stepValue loop = (stored ++ infos.drop devices.length, devices.length) ∧
        List.Forall₂ (fun info device => env.AllocsSucceed → info = storedDevice device) stored
          devices := by
  have hinRange := ((List.forall₂_and_left _ _).mpr ⟨hdevices, hitems.flip⟩).flip
  refine (Returns.forEach_fill (Q := fun _ _ => True)
    (D := fun _ => List.Forall₂ fun info device => env.AllocsSucceed → info = storedDevice device)
    (fun _ => .nil) ?_ hinRange [] infos (by rw [hslots, List.length_nil, Nat.zero_add])
    (fun _ _ _ => trivial) hroom).mono ?_
  · rintro item device written old rest ⟨hdevice, hitem⟩ -
    refine (deviceInfoStep_spec hitem hdevice written old rest).mono ?_
    rintro step ⟨info, hstep, hinfo, hleft⟩
    exact ⟨info, hstep, fun hrest => .cons hinfo hrest, hleft⟩
  · rintro loop ⟨stored, hloop, hstored⟩
    rw [List.nil_append, List.length_nil, Nat.zero_add] at hloop
    exact ⟨stored, hloop, hstored⟩

/-! ### Storing the buses -/

/-- One bus goes to its slot. -/
theorem busInfosStep_spec {item : CJson} {bus : PayloadBus} (hitem : ReadsBus item bus)
    (hbus : BusInRange bus) (written : List SoftBusInfos) (old : SoftBusInfos)
    (rest : List SoftBusInfos) (hdevices : old.g_device_soft_bus_info.length = SOFTBUS_INFO_LEN)
    (hlast : SOFTBUS_TOTAL_LEN ≤ written.length + 1 → old.bus_key = none) :
    Returns env (busInfosStep item (written ++ old :: rest, written.length)) fun step =>
      ∃ infos, stepValue step = (written ++ infos :: rest, written.length + 1) ∧
        BusStored env written.length infos bus ∧
        (goesOn step = false → SOFTBUS_TOTAL_LEN ≤ written.length + 1) := by
  unfold busInfosStep
  rw [hitem.key]
  dsimp only
  rw [readSlot_eq rfl, pure_bind]
  -- the slot at the index is the one that is replaced
  have hset : ∀ infos : SoftBusInfos,
      (written ++ old :: rest).set written.length infos = written ++ infos :: rest := by
    intro infos
    rw [List.set_append_right _ _ (Nat.le_refl _), Nat.sub_self, List.set_cons_zero]
  have hfits : bus.devices.length ≤ old.g_device_soft_bus_info.length := by
    rw [hdevices]
    exact hbus.devices_le
  refine (devicesLoop_spec hitem.devices hbus.devices hdevices hfits).bind ?_
  rintro loop ⟨stored, hloop, hstored⟩
  -- the devices come first, and the other slots of the devices stay
  have hlength : stored.length = bus.devices.length := hstored.length_eq
  rw [hloop]
  dsimp only
  have hroom : bus.devices.length ≤
      (stored ++ old.g_device_soft_bus_info.drop bus.devices.length).length := by
    rw [List.length_append]
    omega
  have htake : (stored ++ old.g_device_soft_bus_info.drop bus.devices.length).take
      bus.devices.length = stored := by
    rw [← hlength, List.take_left]
  by_cases hfull : written.length + 1 ≥ SOFTBUS_TOTAL_LEN
  · rw [if_pos hfull]
    refine returns_pure ⟨_, congrArg (·, written.length + 1) (hset _), ⟨rfl, hroom, ?_, ?_⟩,
      fun _ => hfull⟩
    · rw [htake]
      exact hstored
    · intro _
      rw [if_neg (Nat.not_lt.mpr hfull)]
      exact hlast hfull
  · rw [if_neg hfull]
    refine (combineStrings_copy hbus.key_ne).bind fun bus_key hbus_key => ?_
    refine (combineStrings_defined _).bind fun bus_id _ => ?_
    refine returns_pure ⟨_, congrArg (·, written.length + 1) (hset _), ⟨rfl, hroom, ?_, ?_⟩,
      fun hleft => absurd (show true = false from hleft) (by decide)⟩
    · rw [htake]
      exact hstored
    · intro hA
      rw [if_pos (Nat.not_le.mp hfull)]
      exact hbus_key hA

/-- **All buses** go to the slots of a table. -/
theorem busesLoop_spec {items : List CJson} {buses : List PayloadBus}
    (hitems : List.Forall₂ ReadsBus items buses) (hbuses : ∀ bus ∈ buses, BusInRange bus)
    {infos : List SoftBusInfos} (hsound : TableSound infos) (hroom : buses.length ≤ infos.length) :
    Returns env (forEach busInfosStep items (infos, 0)) fun loop =>
      ∃ stored, stepValue loop = (stored ++ infos.drop buses.length, buses.length) ∧
        BusesStored env 0 stored buses := by
  have hinRange := ((List.forall₂_and_left _ _).mpr ⟨hbuses, hitems.flip⟩).flip
  have hslots : ∀ k old, infos[k]? = some old →
      old.g_device_soft_bus_info.length = SOFTBUS_INFO_LEN ∧
        (SOFTBUS_TOTAL_LEN ≤ 0 + k + 1 → old.bus_key = none) := by
    intro k old hold
    refine ⟨hsound.devices old (List.mem_of_getElem? hold), fun hfull => hsound.last old ?_⟩
    have hk : k < SOFTBUS_TOTAL_LEN := hsound.length ▸ (List.getElem?_eq_some_iff.mp hold).1
    obtain rfl : k = 9 := by
      unfold SOFTBUS_TOTAL_LEN at hk hfull
      omega
    exact hold
  refine (Returns.forEach_fill (Q := fun i old =>
      old.g_device_soft_bus_info.length = SOFTBUS_INFO_LEN ∧
        (SOFTBUS_TOTAL_LEN ≤ i + 1 → old.bus_key = none))
    (D := BusesStored env) (fun _ => .nil) ?_ hinRange [] infos
    (by rw [hsound.length, List.length_nil, Nat.zero_add]) hslots hroom).mono ?_
  · rintro item bus written old rest ⟨hbus, hitem⟩ ⟨hdevices, hlast⟩
    refine (busInfosStep_spec hitem hbus written old rest hdevices hlast).mono ?_
    rintro step ⟨infos, hstep, hinfos, hleft⟩
    exact ⟨infos, hstep, fun hrest => .cons hinfos hrest, hleft⟩
  · rintro loop ⟨stored, hloop, hstored⟩
    rw [List.nil_append, List.length_nil, Nat.zero_add] at hloop
    exact ⟨stored, hloop, hstored⟩

theorem BusesStored.length_eq {i : ℕ} {stored : List SoftBusInfos} {buses : List PayloadBus}
    (h : BusesStored env i stored buses) : stored.length = buses.length := by
  induction h with
  | nil => rfl
  | cons _ _ ih => rw [List.length_cons, List.length_cons, ih]

/-- **`softBusParasToTotal`** stores the payload over whatever the table held. -/
theorem softBusParasToTotal_spec {paras : CJson} {buses : List PayloadBus} {total : SoftBusTotal}
    (hpayload : ReadsPayload paras buses) (hrange : PayloadInRange buses)
    (hsound : TableSound total.g_soft_bus_info) :
    Returns env (softBusParasToTotal (some paras) total) fun r =>
      r.1 = 0 ∧ PayloadStored env r.2 buses := by
  obtain ⟨busInfos, hfound, hitems⟩ := hpayload
  unfold softBusParasToTotal
  rw [hfound]
  dsimp only
  refine (busesLoop_spec hitems hrange.buses hsound
    (by rw [hsound.length]; exact hrange.buses_le)).bind ?_
  rintro loop ⟨stored, hloop, hstored⟩
  rw [hloop]
  refine returns_pure ⟨rfl, ?_, ?_⟩
  · show buses.length ≤ (stored ++ _).length
    rw [List.length_append, hstored.length_eq]
    omega
  · show BusesStored env 0 ((stored ++ _).take buses.length) buses
    rw [← hstored.length_eq, List.take_left]
    exact hstored

/-! ### Earlier payloads -/

/-- A payload that was received, whatever it holds and whatever fails. -/
def SoftBusStep (total : SoftBusTotal) (paras : Option CJson) (total' : SoftBusTotal) : Prop :=
  ∃ env result, Outcome env (softBusParasToTotal paras total) (result, total')

theorem deviceInfoStep_yields (item : CJson) (loop : List SoftBusInfo × ℕ) :
    Yields env (deviceInfoStep item loop) fun step =>
      (stepValue step).1.length = loop.1.length := by
  unfold deviceInfoStep
  dsimp only
  refine yields_trivial.bind fun noId _ => ?_
  cases noId with
  | true => exact yields_pure rfl
  | false =>
    refine yields_trivial.bind fun noIp _ => ?_
    cases noIp with
    | true => exact yields_pure rfl
    | false =>
      refine yields_trivial.bind fun device_id _ => yields_trivial.bind fun device_ip _ => ?_
      refine (modifySlot_yields _ _ _).bind ?_
      rintro slots ⟨-, -, rfl⟩
      split
      · exact yields_pure (List.length_modify ..)
      · exact yields_pure (List.length_modify ..)

/-- A write to the slot that was read keeps the table sound, when it keeps the number of devices and
writes no key to the tenth slot. -/
theorem TableSound.set {infos : List SoftBusInfos} (h : TableSound infos) {i : ℕ}
    {bus : SoftBusInfos} (hdevices : bus.g_device_soft_bus_info.length = SOFTBUS_INFO_LEN)
    (hlast : i = 9 → bus.bus_key = none) : TableSound (infos.set i bus) := by
  refine ⟨(List.length_set ..).trans h.length, ?_, ?_⟩
  · intro other hother
    rcases List.mem_or_eq_of_mem_set hother with hmem | rfl
    · exact h.devices other hmem
    · exact hdevices
  · intro last hmem
    rw [List.getElem?_set] at hmem
    by_cases hi : i = 9
    · rw [if_pos hi] at hmem
      split at hmem
      · rw [← Option.some.inj hmem]
        exact hlast hi
      · cases hmem
    · rw [if_neg hi] at hmem
      exact h.last last hmem

theorem busInfosStep_yields (item : CJson) {loop : List SoftBusInfos × ℕ}
    (h : TableSound loop.1) :
    Yields env (busInfosStep item loop) fun step => TableSound (stepValue step).1 := by
  unfold busInfosStep
  dsimp only
  refine (readSlot_yields _ _).bind fun old hold => ?_
  have hlength := h.devices old (List.mem_of_getElem? hold)
  have hinner : Yields env (forEach deviceInfoStep
      (forEachItems (getObjectItem (some item) "devices_info")) (old.g_device_soft_bus_info, 0))
        fun loop => (stepValue loop).1.length = SOFTBUS_INFO_LEN := by
    refine (Yields.forEach (I := fun b => b.1.length = SOFTBUS_INFO_LEN)
      (J := fun b => b.1.length = SOFTBUS_INFO_LEN) hlength ?_).mono ?_
    · intro event _ devices hdevices
      refine (deviceInfoStep_yields event devices).mono fun step hstep => ?_
      cases step <;> exact hstep.trans hdevices
    · intro step hstep
      cases step <;> exact hstep
  refine hinner.bind fun inner hinner => ?_
  split
  · refine yields_pure (h.set hinner fun hi => ?_)
    rw [hi] at hold
    exact h.last old hold
  · rename_i hroom
    refine yields_trivial.bind fun bus_key _ => yields_trivial.bind fun bus_id _ => ?_
    refine yields_pure (h.set hinner fun hi => ?_)
    rw [hi] at hroom
    exact absurd (by decide) hroom

/-- No payload stores a key in the tenth slot. -/
theorem tableSound_step {total total' : SoftBusTotal} {paras : Option CJson}
    (h : TableSound total.g_soft_bus_info) (hstep : SoftBusStep total paras total') :
    TableSound total'.g_soft_bus_info := by
  obtain ⟨env, result, hout⟩ := hstep
  have hyields : Yields env (softBusParasToTotal paras total) fun r =>
      TableSound r.2.g_soft_bus_info := by
    unfold softBusParasToTotal
    split
    · exact yields_pure h
    · refine Yields.bind (P := fun loop => TableSound (stepValue loop).1) ?_ fun loop hloop =>
        yields_pure hloop
      refine (Yields.forEach (I := fun b => TableSound b.1) (J := fun b => TableSound b.1)
        h ?_).mono ?_
      · intro item _ loop hloop
        refine (busInfosStep_yields item hloop).mono fun step hstep => ?_
        cases step <;> exact hstep
      · intro step hstep
        cases step <;> exact hstep
  exact hyields _ hout

theorem tableSound_start : TableSound ({} : SoftBusTotal).g_soft_bus_info := by
  refine ⟨by decide, ?_, ?_⟩
  · intro bus hbus
    rw [List.eq_of_mem_replicate hbus]
    rfl
  · intro bus hbus
    rw [List.eq_of_mem_replicate (List.mem_of_getElem? hbus)]

/-! ### Looking for a device -/

/-- The devices of a payload. -/
def listedDevices (buses : List PayloadBus) : List (String × String) := buses.flatMap (·.devices)

/-- A bus whose texts are all there. -/
structure Readable (infos : SoftBusInfos) (bus : PayloadBus) : Prop where
  room : infos.count ≤ infos.g_device_soft_bus_info.length
  devices : infos.g_device_soft_bus_info.take infos.count = bus.devices.map storedDevice

/-- A table whose texts are all there. -/
structure TableReadable (total : SoftBusTotal) (buses : List PayloadBus) : Prop where
  room : total.count ≤ total.g_soft_bus_info.length
  buses : List.Forall₂ Readable (total.g_soft_bus_info.take total.count) buses

/-- The texts are there when no allocation failed, or when there was nothing to store. -/
theorem BusStored.readable {i : ℕ} {infos : SoftBusInfos} {bus : PayloadBus}
    (h : BusStored env i infos bus) (hthere : env.AllocsSucceed ∨ bus.devices = []) :
    Readable infos bus := by
  refine ⟨h.room, ?_⟩
  rcases hthere with hA | hnone
  · have heq : List.Forall₂ (fun info device => info = storedDevice device)
        (infos.g_device_soft_bus_info.take infos.count) bus.devices :=
      h.devices.imp fun info device hinfo => hinfo hA
    rw [← List.forall₂_eq_eq_eq, List.forall₂_map_right_iff]
    exact heq
  · rw [h.count, hnone]
    rfl

theorem BusesStored.readable {i : ℕ} {stored : List SoftBusInfos} {buses : List PayloadBus}
    (h : BusesStored env i stored buses)
    (hthere : env.AllocsSucceed ∨ ∀ bus ∈ buses, bus.devices = []) :
    List.Forall₂ Readable stored buses := by
  induction h with
  | nil => exact .nil
  | @cons i infos rest bus buses hbus _ ih =>
    exact .cons (hbus.readable (hthere.imp_right fun hnone => hnone bus (by simp)))
      (ih (hthere.imp_right fun hnone bus hmem => hnone bus (by simp [hmem])))

theorem PayloadStored.readable {total : SoftBusTotal} {buses : List PayloadBus}
    (h : PayloadStored env total buses)
    (hthere : env.AllocsSucceed ∨ ∀ bus ∈ buses, bus.devices = []) : TableReadable total buses :=
  ⟨h.room, h.buses.readable hthere⟩

theorem forEachDevice_eq {β : Type} {infos : SoftBusInfos} {bus : PayloadBus}
    (h : Readable infos bus) (body : SoftBusInfo → β → Sdk (ForInStep β)) (b : β) :
    forEachDevice infos body b = forEach body (bus.devices.map storedDevice) b := by
  unfold forEachDevice
  rw [forEach_readSlot body h.room, h.devices]

section Find

variable {field : SoftBusInfo → Option String} {pick : String × String → String}

/-- How a search goes on after a device was found or not. -/
def foundStep (found : Option (String × String)) : ForInStep (Option SoftBusInfo) :=
  match found with
  | some device => .done (some (storedDevice device))
  | none => .yield none

theorem findDevice_devices (hfield : ∀ device, field (storedDevice device) = some (pick device))
    (text : String) (devices : List (String × String)) :
    (forEach (fun info _ => do
      if ← strcmpEq (field info) (some text) then return .done (some info)
      else return .yield none) (devices.map storedDevice) none : Sdk _) =
        pure (foundStep (devices.find? fun device => pick device == text)) := by
  induction devices with
  | nil => rfl
  | cons device devices ih =>
    have hcompare : strcmpEq (field (storedDevice device)) (some text) =
        pure (pick device == text) := by
      rw [hfield]
      rfl
    rw [List.map_cons, forEach, hcompare, pure_bind]
    cases hfound : pick device == text with
    | true =>
      rw [List.find?_cons_of_pos (by exact hfound)]
      rfl
    | false =>
      rw [List.find?_cons_of_neg (by rw [hfound]; decide), ← ih]
      rfl

/-- **A search** finds the first device of the payload with the text. -/
theorem findDevice_eq (pick : String × String → String) {total : SoftBusTotal}
    {buses : List PayloadBus} (hfield : ∀ device, field (storedDevice device) = some (pick device))
    (h : TableReadable total buses) (text : String) :
    findDevice field text total =
      pure (((listedDevices buses).find? fun device => pick device == text).map storedDevice) := by
  have hbuses : ∀ {stored : List SoftBusInfos} {buses : List PayloadBus},
      List.Forall₂ Readable stored buses →
        (forEach (fun infos _ => forEachDevice infos (fun info _ => do
          if ← strcmpEq (field info) (some text) then return .done (some info)
          else return .yield none) none) stored none : Sdk _) =
            pure (foundStep ((listedDevices buses).find? fun device => pick device == text)) := by
    intro stored buses hstored
    induction hstored with
    | nil => rfl
    | @cons infos bus stored buses hbus _ ih =>
      rw [forEach, forEachDevice_eq hbus, findDevice_devices hfield, pure_bind]
      show _ = pure (foundStep ((bus.devices ++ listedDevices buses).find? _))
      rw [List.find?_append]
      cases bus.devices.find? fun device => pick device == text with
      | none => exact ih
      | some device => rfl
  unfold findDevice forEachBus
  rw [forEach_readSlot _ h.room, hbuses h.buses, pure_bind]
  cases (listedDevices buses).find? fun device => pick device == text <;> rfl

end Find

theorem isValidIP_eq {total : SoftBusTotal} {buses : List PayloadBus}
    (h : TableReadable total buses) (ip_addr : String) :
    isValidIP total (some ip_addr) =
      pure ((listedDevices buses).any fun device => device.2 == ip_addr) := by
  unfold isValidIP
  dsimp only
  rw [findDevice_eq Prod.snd (fun _ => rfl) h, pure_bind, Option.isSome_map, List.isSome_find?]

theorem isValidDeviceID_eq {total : SoftBusTotal} {buses : List PayloadBus}
    (h : TableReadable total buses) (device_id : String) :
    isValidDeviceID total (some device_id) =
      pure ((listedDevices buses).any fun device => device.1 == device_id) := by
  unfold isValidDeviceID
  dsimp only
  rw [findDevice_eq Prod.fst (fun _ => rfl) h, pure_bind, Option.isSome_map, List.isSome_find?]

/-! ### Addresses -/

/-- A copy without room for the terminator is empty. -/
theorem strncpyS_tight (text : String) :
    strncpyS "" text.length text text.length = "" := by
  unfold strncpyS
  split
  · rfl
  · split
    · rfl
    · rw [if_pos (Nat.le_of_eq (Nat.min_self _).symm)]

/-- **No address**: `getIpAddr` answers `NULL` or an empty text, whatever the table holds. -/
theorem getIpAddr_yields (total : SoftBusTotal) (device_id : Option String) :
    Yields env (getIpAddr total device_id) fun r => r = none ∨ r = some "" := by
  unfold getIpAddr
  cases device_id with
  | none => exact yields_pure (Or.inl rfl)
  | some device_id =>
    refine yields_trivial.bind fun found _ => ?_
    cases found with
    | none => exact yields_pure (Or.inl rfl)
    | some info =>
      refine yields_trivial.bind fun device_ip _ => yields_trivial.bind fun allocated _ => ?_
      cases allocated with
      | false => exact yields_undefined
      | true =>
        refine yields_pure (Or.inr ?_)
        rw [strncpyS_tight, String.toList_empty, List.take_nil, String.ofList_nil]

/-! ### Keys -/

/-- Whether a bus lists a device. -/
def PayloadBus.lists (bus : PayloadBus) (device_id : String) : Bool :=
  bus.devices.any fun device => device.1 == device_id

/-- The keys of the buses that list a device. -/
def keysOf (buses : List PayloadBus) (device_id : String) : List String :=
  (buses.filter fun bus => bus.lists device_id).map (·.key)

/-- The block `getAuthKey` has after some keys. -/
def KeysJoined (keys : List String) (result : Option TextBlock) : Prop :=
  match keys with
  | [] => result = none
  | keys => ∃ block, result = some block ∧ block.text = ",".intercalate keys ∧
      block.text.length + 1 ≤ 20 * keys.length

/-- A copy with room for the terminator. -/
theorem strncpyS_fits {text : String} {destMax : ℕ} (hroom : text.length < destMax)
    (hmax : destMax ≤ SECUREC_STRING_MAX_LEN) :
    strncpyS "" destMax text (text.length + 1) = text := by
  rw [strncpyS, if_neg (by omega), if_neg (by omega), if_neg (by omega),
    List.take_of_length_le (by rw [String.length_toList]; omega), String.ofList_toList]

theorem strncatS_fits {dest : TextBlock} {text : String}
    (hroom : dest.text.length + text.length < dest.size)
    (hmax : dest.size ≤ SECUREC_STRING_MAX_LEN) :
    strncatS dest dest.size text text.length = pure { dest with text := dest.text ++ text } := by
  rw [strncatS, if_neg (by omega), if_neg (by omega), if_neg (by omega), if_neg (by omega),
    List.take_of_length_le (by rw [String.length_toList]), String.ofList_toList]

theorem reassignMemory_returns (hA : env.AllocsSucceed) {oldMemory : TextBlock} {resultLen : ℕ}
    (hroom : oldMemory.text.length < resultLen) (hmax : resultLen ≤ SECUREC_STRING_MAX_LEN) :
    Returns env (reassignMemory oldMemory resultLen) fun r =>
      r = { oldMemory with size := resultLen } := by
  unfold reassignMemory
  rw [if_neg (by omega)]
  refine malloc_returns.bind fun allocated hallocated => ?_
  rw [hallocated hA]
  show Returns env (if oldMemory.text.length ≥ resultLen ∨ resultLen > SECUREC_STRING_MAX_LEN then
    pure oldMemory else pure { oldMemory with size := resultLen }) _
  rw [if_neg (by omega)]
  exact returns_pure rfl

/-- **One more key.** -/
theorem addKey_spec (hA : env.AllocsSucceed) {keys : List String} {result : Option TextBlock}
    (hresult : KeysJoined keys result) (hkeys : keys.length ≤ SOFTBUS_TOTAL_LEN) {key : String}
    (hkey : key.length ≤ 19) :
    Returns env (addKey (some key) result) (KeysJoined (keys ++ [key])) := by
  have hmax : 1000 ≤ SECUREC_STRING_MAX_LEN := by decide
  cases keys with
  | nil =>
    obtain rfl : result = none := hresult
    -- the first key is copied
    refine malloc_returns.bind fun allocated hallocated => ?_
    rw [hallocated hA]
    have hcopy : strncpyS "" BUS_KEY_LENGTH key (key.length + 1) = key :=
      strncpyS_fits (Nat.lt_succ_of_le hkey) (by decide)
    refine returns_pure ⟨_, rfl, ?_, ?_⟩
    · exact hcopy.trans String.intercalate_singleton.symm
    · show (strncpyS "" BUS_KEY_LENGTH key (key.length + 1)).length + 1 ≤ 20
      rw [hcopy]
      omega
  | cons first keys =>
    obtain ⟨block, rfl, htext, hlength⟩ := hresult
    have hfew : (first :: keys).length ≤ 10 := hkeys
    -- a later key is joined with a comma in a larger block
    obtain ⟨size, hsize⟩ : ∃ size, block.text.length + (BUS_KEY_LENGTH + 1) = size := ⟨_, rfl⟩
    have hroom : block.text.length + 21 = size := hsize
    unfold addKey
    dsimp only
    rw [hsize]
    refine (reassignMemory_returns hA (by omega) (by omega)).bind ?_
    rintro _ rfl
    have hcomma : strncatS { block with size := size } size "," 1 =
        pure { text := block.text ++ ",", size := size } :=
      strncatS_fits (show block.text.length + 1 < size by omega) (show size ≤ _ by omega)
    have hlength' : (block.text ++ ",").length = block.text.length + 1 := String.length_append ..
    have hcat : strncatS { text := block.text ++ ",", size := size } size key key.length =
        pure { text := block.text ++ "," ++ key, size := size } :=
      strncatS_fits (show (block.text ++ ",").length + key.length < size by omega)
        (show size ≤ _ by omega)
    rw [hcomma, pure_bind]
    show Returns env (strncatS _ size key key.length >>= fun result => pure (some result)) _
    rw [hcat, pure_bind]
    refine returns_pure ⟨_, rfl, ?_, ?_⟩
    · show block.text ++ "," ++ key = ",".intercalate ((first :: keys) ++ [key])
      rw [String.intercalate_append_of_ne_nil (List.cons_ne_nil _ _) (List.cons_ne_nil _ _),
        String.intercalate_singleton, htext]
    · show (block.text ++ "," ++ key).length + 1 ≤ 20 * ((first :: keys) ++ [key]).length
      rw [String.length_append, hlength', List.length_append, List.length_singleton]
      omega

theorem keysOf_cons (bus : PayloadBus) (buses : List PayloadBus) (device_id : String) :
    keysOf (bus :: buses) device_id =
      (if bus.lists device_id then [bus.key] else []) ++ keysOf buses device_id := by
  unfold keysOf
  cases hlists : bus.lists device_id with
  | true =>
    rw [List.filter_cons_of_pos (by exact hlists), List.map_cons]
    rfl
  | false =>
    rw [List.filter_cons_of_neg (by rw [hlists]; decide)]
    rfl

/-- A bus that lists the device adds its key. -/
theorem authKeyStep_eq {infos : SoftBusInfos} {bus : PayloadBus} (h : Readable infos bus)
    (device_id : String) (result : Option TextBlock) :
    authKeyStep (some device_id) infos result =
      if bus.lists device_id then do return .yield (← addKey infos.bus_key result)
      else pure (.yield result) := by
  have hdevices : ∀ devices : List (String × String),
      (forEach (fun info result => do
        if ← strcmpEq info.device_id (some device_id) then
          return .done (← addKey infos.bus_key result)
        else return .yield result) (devices.map storedDevice) result : Sdk _) =
          if devices.any fun device => device.1 == device_id then do
            return .done (← addKey infos.bus_key result)
          else pure (.yield result) := by
    intro devices
    induction devices with
    | nil => rfl
    | cons device devices ih =>
      have hcompare : strcmpEq (storedDevice device).device_id (some device_id) =
          pure (device.1 == device_id) := rfl
      rw [List.map_cons, forEach, hcompare, pure_bind, List.any_cons]
      cases hid : device.1 == device_id with
      | true =>
        rw [if_pos rfl, Bool.true_or, if_pos rfl, bind_assoc]
        rfl
      | false =>
        rw [if_neg (by decide), pure_bind, Bool.false_or]
        exact ih
  unfold authKeyStep
  rw [forEachDevice_eq h, hdevices]
  show _ = if bus.devices.any _ then _ else _
  split
  · rw [bind_assoc]
    rfl
  · rfl

theorem addKey_none_yields (result : Option TextBlock) :
    Yields env (addKey none result) fun _ => False := by
  cases result with
  | none => exact yields_trivial.bind fun _ _ => yields_undefined
  | some block =>
    exact yields_trivial.bind fun _ _ => yields_trivial.bind fun _ _ => yields_undefined

/-- **The keys** of the buses up to the tenth, which must not list the device. -/
theorem authKey_loop (hA : env.AllocsSucceed) {i : ℕ} {stored : List SoftBusInfos}
    {buses : List PayloadBus} (hstored : BusesStored env i stored buses) {device_id : String}
    (hsmall : i + buses.length ≤ SOFTBUS_TOTAL_LEN) (hkeys : ∀ bus ∈ buses, bus.key.length ≤ 19)
    (hlast : ∀ bus, buses[9 - i]? = some bus → bus.lists device_id = false)
    {keys : List String} {result : Option TextBlock} (hresult : KeysJoined keys result)
    (hfew : keys.length ≤ i) :
    Returns env (forEach (authKeyStep (some device_id)) stored result) fun r =>
      KeysJoined (keys ++ keysOf buses device_id) (stepValue r) := by
  induction hstored generalizing keys result with
  | nil =>
    refine returns_pure ?_
    rw [show keysOf [] device_id = [] from rfl, List.append_nil]
    exact hresult
  | @cons i infos rest bus buses hbus _ ih =>
    have hle : i + 1 + buses.length ≤ SOFTBUS_TOTAL_LEN := by
      rw [List.length_cons] at hsmall
      omega
    have hlater : ∀ other, buses[9 - (i + 1)]? = some other → other.lists device_id = false := by
      intro other hother
      by_cases hi : i = 9
      · subst hi
        have hnone : buses = [] := List.length_eq_zero_iff.mp (by
          unfold SOFTBUS_TOTAL_LEN at hle
          omega)
        subst hnone
        cases hother
      · refine hlast other ?_
        unfold SOFTBUS_TOTAL_LEN at hle
        rw [show 9 - i = 9 - (i + 1) + 1 by omega, List.getElem?_cons_succ]
        exact hother
    have hrest : ∀ {keys : List String} {result : Option TextBlock}, KeysJoined keys result →
        keys.length ≤ i + 1 →
          Returns env (forEach (authKeyStep (some device_id)) rest result) fun r =>
            KeysJoined (keys ++ keysOf buses device_id) (stepValue r) :=
      fun hjoined hle' => ih hle (fun other hother => hkeys other (by simp [hother])) hlater
        hjoined hle'
    rw [forEach, authKeyStep_eq (hbus.readable (Or.inl hA)), keysOf_cons]
    cases hlists : bus.lists device_id with
    | false => exact hrest hresult (Nat.le_succ_of_le hfew)
    | true =>
      -- the tenth bus does not list the device, so the key is there
      have hi : i + 1 < SOFTBUS_TOTAL_LEN := by
        by_contra hfull
        have hnine : i = 9 := by
          unfold SOFTBUS_TOTAL_LEN at hle hfull
          omega
        subst hnine
        have habsurd := hlast bus rfl
        rw [hlists] at habsurd
        cases habsurd
      rw [hbus.key hA, if_pos hi, if_pos rfl, if_pos rfl, ← List.append_assoc, bind_assoc]
      have hten : keys.length ≤ SOFTBUS_TOTAL_LEN := by omega
      refine (addKey_spec hA hresult hten (hkeys bus (by simp))).bind fun r hr => ?_
      refine hrest hr ?_
      rw [List.length_append, List.length_singleton]
      omega

/-- **The key of the tenth bus** is not there. -/
theorem authKey_loop_tenth (hA : env.AllocsSucceed) {i : ℕ} {stored : List SoftBusInfos}
    {buses : List PayloadBus} (hstored : BusesStored env i stored buses) {device_id : String}
    (hi : i ≤ 9) {tenth : PayloadBus} (htenth : buses[9 - i]? = some tenth)
    (hlists : tenth.lists device_id = true) (result : Option TextBlock) :
    Yields env (forEach (authKeyStep (some device_id)) stored result) fun _ => False := by
  induction hstored generalizing result with
  | nil => cases htenth
  | @cons i infos rest bus buses hbus _ ih =>
    rw [forEach, authKeyStep_eq (hbus.readable (Or.inl hA))]
    by_cases hnine : i = 9
    · subst hnine
      obtain rfl : bus = tenth := Option.some.inj htenth
      have hkey : infos.bus_key = none := hbus.key hA
      rw [hlists, hkey, if_pos rfl, bind_assoc]
      exact (addKey_none_yields result).bind fun _ hfalse => hfalse.elim
    · have htail : buses[9 - (i + 1)]? = some tenth := by
        rw [show 9 - i = 9 - (i + 1) + 1 by omega, List.getElem?_cons_succ] at htenth
        exact htenth
      split
      · rw [bind_assoc]
        exact yields_trivial.bind fun r _ => ih (by omega) htail r
      · exact ih (by omega) htail result

/-- A device that no bus lists. -/
theorem authKey_loop_unlisted {stored : List SoftBusInfos} {buses : List PayloadBus}
    (h : List.Forall₂ Readable stored buses) {device_id : String}
    (hlists : ∀ bus ∈ buses, bus.lists device_id = false) (result : Option TextBlock) :
    forEach (authKeyStep (some device_id)) stored result = pure (.yield result) := by
  induction h with
  | nil => rfl
  | @cons infos bus stored buses hbus _ ih =>
    rw [forEach, authKeyStep_eq hbus, hlists bus (by simp)]
    exact ih fun other hother => hlists other (by simp [hother])

/-- `getAuthKey` asked with the own id. -/
theorem getAuthKey_eq {total : SoftBusTotal} (hroom : total.count ≤ total.g_soft_bus_info.length)
    (own device_id : String) :
    getAuthKey (some own) total (some own) (some device_id) =
      forEach (authKeyStep (some device_id)) (total.g_soft_bus_info.take total.count) none >>=
        fun result => pure ((stepValue result).map TextBlock.text) := by
  have hcompare : strcmpEq (some own) (some own) = pure true := by
    show pure (own == own) = _
    rw [beq_self_eq_true]
  unfold getAuthKey forEachBus
  rw [if_neg (by simp), hcompare, pure_bind, if_neg (by decide), forEach_readSlot _ hroom]

/-! ### Answers -/

/-- The address a device was first listed with. -/
def firstAddress (buses : List PayloadBus) (device_id : String) : Option String :=
  ((listedDevices buses).find? fun device => device.1 == device_id).map Prod.snd

/-- The keys for a device, joined by commas. -/
def authKey (buses : List PayloadBus) (device_id : String) : Option String :=
  match keysOf buses device_id with
  | [] => none
  | keys => some (",".intercalate keys)

/-- `getAuthKey` answers for a device as the payload says. -/
def KeyAnswered (env : Env) (own : String) (total : SoftBusTotal) (buses : List PayloadBus)
    (device_id : String) : Prop :=
  Returns env (getAuthKey (some own) total (some own) (some device_id)) fun r =>
    r = authKey buses device_id

/-- `isValidIP` and `isValidDeviceID` hold exactly for what the payload lists. -/
structure MembersAnswered (env : Env) (total : SoftBusTotal) (buses : List PayloadBus) : Prop where
  ips : ∀ ip_addr, Returns env (isValidIP total (some ip_addr)) fun valid =>
    (valid = true ↔ ∃ device ∈ listedDevices buses, device.2 = ip_addr)
  ids : ∀ device_id, Returns env (isValidDeviceID total (some device_id)) fun valid =>
    (valid = true ↔ ∃ device ∈ listedDevices buses, device.1 = device_id)

/-- **All lookups answer as the payload says.** -/
structure Answered (env : Env) (own : String) (total : SoftBusTotal) (buses : List PayloadBus) :
    Prop where
  members : MembersAnswered env total buses
  addresses : ∀ device ∈ listedDevices buses,
    Returns env (getIpAddr total (some device.1)) fun r => r = firstAddress buses device.1
  keys : ∀ device_id, KeyAnswered env own total buses device_id

theorem membersAnswered {total : SoftBusTotal} {buses : List PayloadBus}
    (h : TableReadable total buses) : MembersAnswered env total buses := by
  refine ⟨fun ip_addr => ?_, fun device_id => ?_⟩
  · rw [isValidIP_eq h]
    exact returns_pure (by simp)
  · rw [isValidDeviceID_eq h]
    exact returns_pure (by simp)

/-- **The keys for a device** are joined unless the tenth bus lists it. -/
theorem keyAnswered_iff (hA : env.AllocsSucceed) {total : SoftBusTotal} {buses : List PayloadBus}
    (h : PayloadStored env total buses) (hrange : PayloadInRange buses) (own device_id : String) :
    KeyAnswered env own total buses device_id ↔
      ∀ bus, buses[9]? = some bus → bus.lists device_id = false := by
  unfold KeyAnswered
  rw [getAuthKey_eq h.room]
  constructor
  · intro hreturns tenth htenth
    by_contra hlists
    obtain ⟨a, hout, -⟩ := hreturns.exists_outcome
    obtain ⟨loop, hloop, -⟩ := outcome_bind hout
    exact authKey_loop_tenth hA h.buses (Nat.zero_le 9) htenth
      (Bool.not_eq_false _ ▸ hlists) none loop hloop
  · intro hlast
    have hsmall : 0 + buses.length ≤ SOFTBUS_TOTAL_LEN := by
      rw [Nat.zero_add]
      exact hrange.buses_le
    refine (authKey_loop hA h.buses hsmall (fun bus hbus => (hrange.buses bus hbus).key_le) hlast
      (show KeysJoined [] none from rfl) (Nat.le_refl 0)).bind fun r hr => returns_pure ?_
    rw [List.nil_append] at hr
    unfold authKey
    cases hkeys : keysOf buses device_id with
    | nil =>
      rw [hkeys] at hr
      rw [show stepValue r = none from hr]
      rfl
    | cons key keys =>
      rw [hkeys] at hr
      obtain ⟨block, hblock, htext, -⟩ := hr
      rw [hblock, Option.map_some, htext]

/-- **A listed device** has no address. -/
theorem not_answered_of_listed {total : SoftBusTotal} {buses : List PayloadBus}
    (hrange : PayloadInRange buses) {device : String × String}
    (hdevice : device ∈ listedDevices buses) (own : String) : ¬Answered env own total buses := by
  intro hanswered
  obtain ⟨address, hout, haddress⟩ := (hanswered.addresses device hdevice).exists_outcome
  obtain ⟨first, hfirst⟩ : ∃ first, (listedDevices buses).find? (fun other =>
      other.1 == device.1) = some first := by
    rw [← Option.isSome_iff_exists, List.find?_isSome]
    exact ⟨device, hdevice, beq_self_eq_true _⟩
  have hsome : address = some first.2 := by
    rw [haddress, firstAddress, hfirst]
    rfl
  obtain ⟨bus, hbus, hmem⟩ := List.mem_flatMap.mp (List.mem_of_find?_eq_some hfirst)
  have hne := ((hrange.buses bus hbus).devices first hmem).2.1
  rcases getIpAddr_yields total _ address hout with hnone | hempty
  · rw [hsome] at hnone
    cases hnone
  · rw [hsome] at hempty
    exact hne (Option.some.inj hempty)

/-- Without devices every lookup finds nothing. -/
theorem answered_of_none {total : SoftBusTotal} {buses : List PayloadBus}
    (h : TableReadable total buses) (hnone : ∀ bus ∈ buses, bus.devices = []) (own : String) :
    Answered env own total buses := by
  have hlisted : listedDevices buses = [] := List.flatMap_eq_nil_iff.mpr hnone
  have hlists : ∀ (device_id : String), ∀ bus ∈ buses, bus.lists device_id = false := by
    intro device_id bus hbus
    unfold PayloadBus.lists
    rw [hnone bus hbus]
    rfl
  refine ⟨membersAnswered h, ?_, fun device_id => ?_⟩
  · rw [hlisted]
    exact fun device hdevice => absurd hdevice List.not_mem_nil
  · have hkeys : keysOf buses device_id = [] := by
      unfold keysOf
      rw [List.filter_eq_nil_iff.mpr fun bus hbus => by simp [hlists device_id bus hbus]]
      rfl
    unfold KeyAnswered authKey
    rw [getAuthKey_eq h.room, authKey_loop_unlisted h.buses (hlists device_id), pure_bind, hkeys]
    exact returns_pure rfl

/-- **The soft-bus table after any payloads and one that fits it.**  All lookups answer as the
payload says exactly when it lists no device.  The addresses apart, and as long as no allocation
fails, they do for every device the tenth bus does not list. -/
theorem softBus_answers_iff {steps : List (SoftBusTotal × Option CJson)} {total : SoftBusTotal}
    (hearlier : Run SoftBusStep {} steps total) {paras : CJson} {buses : List PayloadBus}
    (hpayload : ReadsPayload paras buses) (hrange : PayloadInRange buses) (env : Env)
    (own : String) :
    Returns env (softBusParasToTotal (some paras) total) fun r => r.1 = 0 ∧
      (Answered env own r.2 buses ↔ ∀ bus ∈ buses, bus.devices = []) ∧
      (env.AllocsSucceed → MembersAnswered env r.2 buses ∧
        ∀ device_id, KeyAnswered env own r.2 buses device_id ↔
          ∀ bus, buses[9]? = some bus → bus.lists device_id = false) := by
  have hstep : ∀ total paras total', TableSound total.g_soft_bus_info →
      SoftBusStep total paras total' → TableSound total'.g_soft_bus_info :=
    fun total paras total' h hstep => tableSound_step h hstep
  have hsound := hearlier.inv hstep tableSound_start
  refine (softBusParasToTotal_spec hpayload hrange hsound).mono ?_
  rintro ⟨result, total'⟩ ⟨hresult, hstored⟩
  refine ⟨hresult, ⟨?_, ?_⟩, fun hA => ⟨?_, keyAnswered_iff hA hstored hrange own⟩⟩
  · intro hanswered bus hbus
    by_contra hne
    obtain ⟨device, hdevice⟩ := List.exists_mem_of_ne_nil _ hne
    exact not_answered_of_listed hrange (List.mem_flatMap.mpr ⟨bus, hbus, hdevice⟩) own hanswered
  · intro hnone
    exact answered_of_none (hstored.readable (Or.inr hnone)) hnone own
  · exact membersAnswered (hstored.readable (Or.inl hA))

/-- One bus with one device. -/
def oneDevice : List PayloadBus := [{ key := "k", devices := [("lamp", "10.0.0.1")] }]

/-- The payload of `oneDevice`. -/
def oneDevicePayload : CJson :=
  .object [("bus_infos", .array [.object [("bus_key", .string "k"),
    ("devices_info", .array [.object [("device_id", .string "lamp"),
      ("device_ip", .string "10.0.0.1")]])]])]

theorem readsPayload_oneDevice : ReadsPayload oneDevicePayload oneDevice :=
  ⟨_, rfl, .cons ⟨rfl, .cons ⟨rfl, rfl⟩ .nil⟩ .nil⟩

theorem payloadInRange_oneDevice : PayloadInRange oneDevice := by
  refine ⟨by decide, ?_⟩
  intro bus hbus
  rw [List.mem_singleton.mp hbus]
  refine ⟨by decide, ?_, by decide, by decide⟩
  intro device hdevice
  rw [List.mem_singleton.mp hdevice]
  exact ⟨by decide, by decide⟩

theorem softBus_answers_iff_oneDevice :
    Returns Env.plentiful (softBusParasToTotal (some oneDevicePayload) {}) fun r => r.1 = 0 ∧
      MembersAnswered Env.plentiful r.2 oneDevice ∧
      KeyAnswered Env.plentiful "lamp" r.2 oneDevice "lamp" ∧
      ¬Answered Env.plentiful "lamp" r.2 oneDevice := by
  refine (softBus_answers_iff .nil readsPayload_oneDevice payloadInRange_oneDevice Env.plentiful
    "lamp").mono ?_
  rintro r ⟨hresult, hiff, hlookups⟩
  obtain ⟨hmembers, hkeys⟩ := hlookups Env.plentiful_allocsSucceed
  have hkey : KeyAnswered Env.plentiful "lamp" r.2 oneDevice "lamp" := by
    refine (hkeys "lamp").mpr fun bus hbus => ?_
    cases hbus
  refine ⟨hresult, hmembers, hkey, ?_⟩
  rw [hiff]
  intro hnone
  exact absurd (hnone _ (List.mem_singleton_self _)) (List.cons_ne_nil _ _)

/-- The address of a listed device is not answered. -/
theorem listed_device_without_address :
    ¬∀ (env : Env) (steps : List (SoftBusTotal × Option CJson)) (total total' : SoftBusTotal)
      (paras : CJson) (buses : List PayloadBus) (own : String), Run SoftBusStep {} steps total →
        ReadsPayload paras buses → PayloadInRange buses →
          Outcome env (softBusParasToTotal (some paras) total) (0, total') →
            Answered env own total' buses := by
  intro hclaim
  obtain ⟨⟨result, total'⟩, hout, hresult, -⟩ := (softBusParasToTotal_spec readsPayload_oneDevice
    payloadInRange_oneDevice tableSound_start : Returns Env.plentiful _ _).exists_outcome
  obtain rfl : result = 0 := hresult
  exact not_answered_of_listed payloadInRange_oneDevice
    (show ("lamp", "10.0.0.1") ∈ listedDevices oneDevice from List.mem_singleton_self _) "lamp"
    (hclaim Env.plentiful [] {} total' oneDevicePayload oneDevice "lamp" .nil
      readsPayload_oneDevice payloadInRange_oneDevice hout)

end IotDeviceSdk.Service
