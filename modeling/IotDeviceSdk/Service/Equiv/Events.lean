import IotDeviceSdk.Service.CallbackFunc.Events

/-!
# The services of an event message

`OnEventsDownArrivedJosnSplicing` fills one slot after the other.  An element of the message is kept
when it has a service and an event type and is not a message to the rule engine.

* `Wrote`: what the handler of a service does to the slots, the one at the index being changed by a
  function and the others kept.
* `handleService_yields`: the handlers leave the index, the other slots and the event time alone.
* `onEventsDownStep_yields`: one round keeps `Decoded`, the invariant that the slots before the
  index are those of the kept elements gone through, and that those handed to the callbacks for
  sub-devices and for the time are theirs too.
* `onEventsDownArrivedJosnSplicing_yields`: the slots of a message that went through are those of
  its kept elements.
-/

namespace IotDeviceSdk.Service

open CJson Prog

variable {env : Env} {loop loop₀ : EventLoop} {f : ServiceEvent → ServiceEvent}

/-! ### Slots that are handed on -/

/-- The slot a callback for sub-devices or for the time is called with. -/
def Call.handedSlot : Call → Option ServiceEvent
  | .onSubDevice _ message => some message
  | .onNTP _ message => some message
  | _ => none

/-- The slots that were handed to these callbacks. -/
def handedSlots (calls : List Call) : List ServiceEvent := calls.filterMap Call.handedSlot

theorem handedSlots_append (calls : List Call) (call : Call) :
    handedSlots (calls ++ [call]) = handedSlots calls ++ call.handedSlot.toList := by
  unfold handedSlots
  rw [List.filterMap_append]
  cases h : call.handedSlot with
  | none => rw [List.filterMap_cons_none h]; rfl
  | some slot => rw [List.filterMap_cons_some h]; rfl

/-! ### Writes to a slot -/

/-- The slot at the index is changed by a function; the other slots and the index are kept. -/
structure Modified (f : ServiceEvent → ServiceEvent) (loop loop' : EventLoop) : Prop where
  i : loop'.i = loop.i
  services : loop'.services = loop.services.modify loop.i.toNat f

/-- Such a change that hands no slot on. -/
structure Wrote (f : ServiceEvent → ServiceEvent) (loop loop' : EventLoop) : Prop
    extends Modified f loop loop' where
  handed : handedSlots loop'.calls = handedSlots loop.calls

theorem wrote_id (loop : EventLoop) : Wrote id loop loop :=
  ⟨⟨rfl, (List.modify_id _ _).symm⟩, rfl⟩

theorem Modified.comp {f g : ServiceEvent → ServiceEvent} {loop' : EventLoop}
    (hloop : Modified f loop₀ loop) (hloop' : Modified g loop loop') :
    Modified (g ∘ f) loop₀ loop' := by
  refine ⟨hloop'.i.trans hloop.i, ?_⟩
  rw [hloop'.services, hloop.services, hloop.i, List.modify_modify_eq]

theorem Wrote.comp {f g : ServiceEvent → ServiceEvent} {loop' : EventLoop}
    (hloop : Wrote f loop₀ loop) (hloop' : Wrote g loop loop') : Wrote (g ∘ f) loop₀ loop' :=
  ⟨hloop.toModified.comp hloop'.toModified, hloop'.handed.trans hloop.handed⟩

theorem Wrote.write {f g : ServiceEvent → ServiceEvent} (hloop : Wrote f loop₀ loop) :
    Yields env (loop.write g) (Wrote (g ∘ f) loop₀) := by
  unfold EventLoop.write
  exact (modifySlot_yields _ _ _).bind fun services hservices =>
    yields_pure (hloop.comp ⟨⟨rfl, hservices.2.2⟩, rfl⟩)

/-- A write, and what comes after it. -/
theorem Wrote.write_bind {α : Type} {g : ServiceEvent → ServiceEvent} {k : EventLoop → Sdk α}
    {Q : α → Prop} (hloop : Wrote f loop₀ loop)
    (hk : ∀ loop', Wrote (g ∘ f) loop₀ loop' → Yields env (k loop') Q) :
    Yields env (loop.write g >>= k) Q :=
  hloop.write.bind hk

/-- The slots of a loop whose index is after some of them. -/
theorem Modified.services_eq {loop' : EventLoop} {done rest : List ServiceEvent}
    (hloop : Modified f loop loop') (hservices : loop.services = done ++ rest)
    (hi : loop.i = done.length) : loop'.services = done ++ rest.modify 0 f := by
  have hindex : loop.i.toNat = done.length := by omega
  rw [hloop.services, hservices, hindex, modify_append_length]

theorem write_inside {g : ServiceEvent → ServiceEvent} (loop : EventLoop) :
    Yields env (loop.write g) fun loop' =>
      loop.i < loop.services.length ∧ Wrote g loop loop' := by
  unfold EventLoop.write
  refine (modifySlot_yields _ _ _).bind fun services hservices => yields_pure ?_
  exact ⟨hservices.2.1, ⟨rfl, hservices.2.2⟩, rfl⟩

/-! ### Handlers -/

/-- What a handler leaves that changes the slot within `P` or gives up; it hands no slot on. -/
def HandledAs (P : ServiceEvent → ServiceEvent → Prop) (loop : EventLoop) (r : Handled) : Prop :=
  handedSlots r.1.calls = handedSlots loop.calls ∧
    (0 ≤ r.2 → ∃ f, Wrote f loop r.1 ∧ ∀ slot, P slot (f slot))

/-- A handler that does not give up changes the slot within `P`. -/
def Handles (env : Env) (P : ServiceEvent → ServiceEvent → Prop)
    (handler : EventLoop → Sdk Handled) : Prop :=
  ∀ loop, Yields env (handler loop) (HandledAs P loop)

/-- The service and the time of the event stay as they are. -/
structure Keeps (slot slot' : ServiceEvent) : Prop where
  servie_id : slot'.servie_id = slot.servie_id
  event_time : slot'.event_time = slot.event_time

theorem Handles.mono {P Q : ServiceEvent → ServiceEvent → Prop} {handler : EventLoop → Sdk Handled}
    (h : Handles env P handler) (hPQ : ∀ slot slot', P slot slot' → Q slot slot') :
    Handles env Q handler := by
  intro loop
  refine (h loop).mono fun r hr => ⟨hr.1, fun hret => ?_⟩
  obtain ⟨f, hwrote, hP⟩ := hr.2 hret
  exact ⟨f, hwrote, fun slot => hPQ _ _ (hP slot)⟩

/-- A handler that returns -1 has given up. -/
theorem gaveUp {P : ServiceEvent → ServiceEvent → Prop} {loop' : EventLoop}
    (hhanded : handedSlots loop'.calls = handedSlots loop.calls) :
    Yields env (pure (loop', -1) : Sdk Handled) (HandledAs P loop) := by
  refine yields_pure ⟨hhanded, fun hret => ?_⟩
  have hnegative : ¬(0 : ℤ) ≤ -1 := by decide
  exact absurd hret hnegative

/-- A handler that goes on has filled the slot. -/
theorem filled {P : ServiceEvent → ServiceEvent → Prop} {loop' : EventLoop} {ret : ℤ}
    (hloop : Wrote f loop loop') (hP : ∀ slot, P slot (f slot)) :
    Yields env (pure (loop', ret) : Sdk Handled) (HandledAs P loop) :=
  yields_pure ⟨hloop.handed, fun _ => ⟨f, hloop, hP⟩⟩

/-- A handler that clears the slot's part of the event and fills it for one type of event. -/
theorem handles_cleared {c : Prop} [Decidable c] {clear fill : ServiceEvent → ServiceEvent}
    (hclear : ∀ slot, Keeps slot (clear slot)) (hfill : ∀ slot, Keeps slot (fill (clear slot))) :
    Handles env Keeps fun loop => do
      if !(← malloc) then return (loop, -1)
      let loop ← loop.write clear
      if c then
        let loop ← loop.write fill
        return (loop, 1)
      else return (loop, 1) := by
  intro loop
  refine yields_allocated (gaveUp rfl) ?_
  refine (wrote_id loop).write_bind fun loop' hloop => ?_
  by_cases h : c
  · rw [if_pos h]
    exact hloop.write_bind fun loop' hloop => filled hloop hfill
  · rw [if_neg h]
    exact filled hloop hclear

theorem onEventsDownLogArrived_handles (event_type : String) (paras : Option CJson) :
    Handles env Keeps (onEventsDownLogArrived event_type paras) :=
  handles_cleared (fun _ => ⟨rfl, rfl⟩) fun _ => ⟨rfl, rfl⟩

theorem onEventsDownTunnelArrived_handles (event_type : String) (paras : Option CJson) :
    Handles env Keeps (onEventsDownTunnelArrived event_type paras) :=
  handles_cleared (fun _ => ⟨rfl, rfl⟩) fun _ => ⟨rfl, rfl⟩

theorem onEventsDownSoftBus_handles (event_id : Option String) (paras : Option CJson) :
    Handles env Keeps (onEventsDownSoftBus event_id paras) := by
  intro loop
  unfold onEventsDownSoftBus
  refine (wrote_id loop).write_bind fun loop' hloop => ?_
  refine yields_allocated (gaveUp hloop.handed) ?_
  refine yields_trivial.bind fun bus_infos _ => ?_
  exact hloop.write_bind fun loop' hloop => filled hloop fun _ => ⟨rfl, rfl⟩

theorem onEventsDownRemoteCfgArrived_handles (event_type : String) (paras : Option CJson)
    (object_device_id : Option String) :
    Handles env Keeps (onEventsDownRemoteCfgArrived event_type paras object_device_id) := by
  intro loop
  unfold onEventsDownRemoteCfgArrived
  split
  · refine (wrote_id loop).write_bind fun loop' hloop => ?_
    split
    · refine filled ⟨⟨hloop.i, hloop.services⟩, ?_⟩ fun _ => ⟨rfl, rfl⟩
      rw [handedSlots_append, hloop.handed]
      exact List.append_nil _
    · exact gaveUp hloop.handed
  · exact filled (wrote_id loop) fun _ => ⟨rfl, rfl⟩

/-- The event type of a text. -/
def eventTypeWritten (types : List (String × ℤ)) (event_type : String) (slot : ServiceEvent) :
    ServiceEvent :=
  { slot with event_type := (eventTypeOf types event_type).or slot.event_type }

theorem Wrote.writeEventType (hloop : Wrote f loop₀ loop) (types : List (String × ℤ))
    (event_type : String) :
    Yields env (loop.writeEventType types event_type)
      (Wrote (eventTypeWritten types event_type ∘ f) loop₀) := by
  unfold EventLoop.writeEventType eventTypeWritten
  cases eventTypeOf types event_type with
  | none => exact yields_pure hloop
  | some type => exact hloop.write

theorem onEventsDownFileManager_handles (event_type : String) (paras : Option CJson) :
    Handles env Keeps (onEventsDownFileManager event_type paras) := by
  intro loop
  unfold onEventsDownFileManager
  refine ((wrote_id loop).writeEventType _ _).bind fun loop' hloop => ?_
  refine yields_allocated (gaveUp hloop.handed) ?_
  exact hloop.write_bind fun loop' hloop => filled hloop fun _ => ⟨rfl, rfl⟩

theorem onEventsDownOtaArrived_handles (event_type : String) (paras : Option CJson) :
    Handles env Keeps (onEventsDownOtaArrived event_type paras) := by
  intro loop
  unfold onEventsDownOtaArrived
  refine yields_allocated (gaveUp rfl) ?_
  refine (wrote_id loop).write_bind fun loop' hloop => ?_
  refine (hloop.writeEventType _ _).bind fun loop' hloop => yields_trivial.bind fun service _ => ?_
  split
  · exact hloop.write_bind fun loop' hloop => filled hloop fun _ => ⟨rfl, rfl⟩
  · exact filled hloop fun _ => ⟨rfl, rfl⟩

/-! ### Sub-devices -/

/-- Whether a service reads a version: a notification with few enough devices. -/
def readsVersion (event_type : String) (paras : Option CJson) : Bool :=
  (event_type = "delete_sub_device_notify" || event_type = "add_sub_device_notify") &&
    jsonGetArraySize (jsonGetObjectFromObject paras "devices") ≤ MAX_EVENT_DEVICE_COUNT

/-- Whether an event type is a notification of sub-devices. -/
def isSubDeviceNotify (event_type : Option ℤ) : Bool :=
  event_type = some EN_IOTA_EVENT_ADD_SUB_DEVICE_NOTIFY ||
    event_type = some EN_IOTA_EVENT_DELETE_SUB_DEVICE_NOTIFY

/-- What the handler of sub-devices makes of a slot. -/
structure ManagerSlot (event_type : String) (paras : Option CJson) (message : String)
    (slot slot' : ServiceEvent) : Prop extends Keeps slot slot' where
  notify : isSubDeviceNotify slot.event_type = false →
    isSubDeviceNotify slot'.event_type = readsVersion event_type paras
  version : readsVersion event_type paras = true →
    0 ≤ getLLongValueFromStr message VERSION_JSON ∧
      slot'.paras.bind DeviceParas.version = some (getLLongValueFromStr message VERSION_JSON)
  notified : event_type = "delete_sub_device_notify" ∨ event_type = "add_sub_device_notify" →
    slot'.paras.isSome
  added : event_type = "add_sub_device_response" → slot'.gtw_add_device_paras.isSome

/-- Freeing hands no slot on. -/
theorem freeDown_yields (loop : EventLoop) (isWritten : ServiceEvent → Bool)
    (clear : ServiceEvent → ServiceEvent) :
    Yields env (loop.freeDown isWritten clear) fun loop' =>
      handedSlots loop'.calls = handedSlots loop.calls := by
  unfold EventLoop.freeDown
  dsimp only
  split
  · exact yields_pure rfl
  · exact yields_undefined

theorem onEventsGatewayAddOrDelete_handles {event_type : String} (paras : Option CJson)
    (message : String)
    (htype : event_type = "delete_sub_device_notify" ∨ event_type = "add_sub_device_notify") :
    Handles env (ManagerSlot event_type paras message)
      (onEventsGatewayAddOrDelete event_type paras message) := by
  intro loop
  unfold onEventsGatewayAddOrDelete
  have hadded : event_type ≠ "add_sub_device_response" := by
    rcases htype with rfl | rfl <;> decide
  refine yields_allocated (gaveUp rfl) ?_
  refine (wrote_id loop).write_bind fun loop' hloop => ?_
  dsimp only
  split
  · -- too many devices: the event type is not written
    rename_i hmany
    have hreads : readsVersion event_type paras = false := by
      simp [readsVersion, hmany]
    refine filled hloop fun slot =>
      ⟨⟨rfl, rfl⟩, fun hslot => ?_, fun h => ?_, fun _ => rfl, fun h => absurd h hadded⟩
    · rw [hreads]
      exact hslot
    · rw [hreads] at h
      cases h
  · rename_i hfew
    have hreads : readsVersion event_type paras = true := by
      simp [readsVersion, htype, Nat.not_lt.mp hfew]
    refine yields_allocated ((freeDown_yields loop' _ _).bind fun freed hfreed => ?_) ?_
    · exact gaveUp (hfreed.trans hloop.handed)
    split
    · exact gaveUp hloop.handed
    · rename_i hversion
      split
      · exact hloop.write_bind fun loop' hloop => filled hloop fun _ =>
          ⟨⟨rfl, rfl⟩, fun _ => hreads.symm, fun _ => ⟨not_lt.mp hversion, rfl⟩, fun _ => rfl,
            fun h => absurd h hadded⟩
      · exact hloop.write_bind fun loop' hloop => filled hloop fun _ =>
          ⟨⟨rfl, rfl⟩, fun _ => hreads.symm, fun _ => ⟨not_lt.mp hversion, rfl⟩, fun _ => rfl,
            fun h => absurd h hadded⟩

/-- An answer about sub-devices is no notification. -/
theorem ManagerSlot.ofKeeps {event_type : String} {paras : Option CJson} {message : String}
    {slot slot' : ServiceEvent}
    (hnotify : ¬(event_type = "delete_sub_device_notify" ∨ event_type = "add_sub_device_notify"))
    (hkeeps : Keeps slot slot')
    (htype : isSubDeviceNotify slot.event_type = false →
      isSubDeviceNotify slot'.event_type = false)
    (hadded : event_type = "add_sub_device_response" → slot'.gtw_add_device_paras.isSome) :
    ManagerSlot event_type paras message slot slot' := by
  have hreads : readsVersion event_type paras = false := by
    simp [readsVersion, not_or.mp hnotify]
  refine ⟨hkeeps, fun h => (htype h).trans hreads.symm, fun h => ?_, fun h => absurd h hnotify,
    hadded⟩
  rw [hreads] at h
  cases h

theorem onEventsAddSubDeviceResponse_handles {event_type : String} {paras : Option CJson}
    {message : String} (serviceEvent : CJson)
    (hnotify : ¬(event_type = "delete_sub_device_notify" ∨ event_type = "add_sub_device_notify")) :
    Handles env (ManagerSlot event_type paras message)
      (onEventsAddSubDeviceResponse paras serviceEvent) := by
  intro loop
  unfold onEventsAddSubDeviceResponse
  refine (wrote_id loop).write_bind fun loop' hloop => ?_
  refine yields_allocated (gaveUp hloop.handed) ?_
  refine hloop.write_bind fun loop' hloop => ?_
  refine yields_allocated ((freeDown_yields loop' _ _).bind fun freed hfreed => ?_) ?_
  · exact gaveUp (hfreed.trans hloop.handed)
  refine yields_allocated (gaveUp hloop.handed) ?_
  exact hloop.write_bind fun loop' hloop => filled hloop fun _ =>
    .ofKeeps hnotify ⟨rfl, rfl⟩ (fun _ => rfl) fun _ => rfl

theorem onEventsDeleteSubDeviceResponse_handles {event_type : String} {paras : Option CJson}
    {message : String} (serviceEvent : CJson)
    (hnotify : ¬(event_type = "delete_sub_device_notify" ∨ event_type = "add_sub_device_notify"))
    (hadded : event_type ≠ "add_sub_device_response") :
    Handles env (ManagerSlot event_type paras message)
      (onEventsDeleteSubDeviceResponse paras serviceEvent) := by
  intro loop
  unfold onEventsDeleteSubDeviceResponse
  refine (wrote_id loop).write_bind fun loop' hloop => ?_
  refine yields_allocated (gaveUp hloop.handed) ?_
  refine yields_allocated (gaveUp hloop.handed) ?_
  dsimp only
  split
  · exact yields_undefined.bind fun _ h => h
  · refine yields_allocated (gaveUp hloop.handed) ?_
    exact hloop.write_bind fun loop' hloop => filled hloop fun _ =>
      .ofKeeps hnotify ⟨rfl, rfl⟩ (fun _ => rfl) fun h => absurd h hadded

theorem onEventsDownManagerArrived_handles (event_type : String) (paras : Option CJson)
    (message : String) (serviceEvent : CJson) :
    Handles env (ManagerSlot event_type paras message)
      (onEventsDownManagerArrived event_type paras message serviceEvent) := by
  intro loop
  unfold onEventsDownManagerArrived
  split
  · rename_i htype
    exact onEventsGatewayAddOrDelete_handles paras message htype loop
  · rename_i hnotify
    split
    · exact onEventsAddSubDeviceResponse_handles serviceEvent hnotify loop
    · rename_i hadded
      split
      · exact onEventsDeleteSubDeviceResponse_handles serviceEvent hnotify hadded loop
      · split
        · exact onEventsDeleteSubDeviceResponse_handles serviceEvent hnotify hadded loop
        · exact filled (wrote_id loop) fun _ =>
            .ofKeeps hnotify ⟨rfl, rfl⟩ (fun h => h) fun h => absurd h hadded

/-! ### Time -/

/-- What the handler of the time makes of a slot. -/
structure TimeSlot (event_type : String) (message : String) (time : ℤ)
    (slot slot' : ServiceEvent) : Prop extends Keeps slot slot' where
  response : slot.event_type ≠ some EN_IOTA_EVENT_GET_TIME_SYNC_RESPONSE →
    (slot'.event_type = some EN_IOTA_EVENT_GET_TIME_SYNC_RESPONSE ↔
      event_type = "time_sync_response")
  times : event_type = "time_sync_response" →
    0 ≤ getLLongValueFromStr message DEVICE_SEND_TIME_JSON ∧
      0 ≤ getLLongValueFromStr message SERVER_RECV_TIME_JSON ∧
      0 ≤ getLLongValueFromStr message SERVER_SEND_TIME_JSON ∧
      slot'.ntp_device_real_time = some (some
        ((getLLongValueFromStr message SERVER_RECV_TIME_JSON +
          getLLongValueFromStr message SERVER_SEND_TIME_JSON + time -
          getLLongValueFromStr message DEVICE_SEND_TIME_JSON).tdiv 2))

theorem llong_yields (n : ℤ) : Yields env (llong n) fun m => m = n := by
  unfold llong
  split
  · exact yields_pure rfl
  · exact yields_undefined

theorem onEventsDownNtpArrived_handles (event_type message : String) (time : ℤ) :
    Handles env (TimeSlot event_type message time)
      (onEventsDownNtpArrived event_type message time) := by
  intro loop
  unfold onEventsDownNtpArrived
  refine yields_allocated (gaveUp rfl) ?_
  refine (wrote_id loop).write_bind fun loop' hloop => ?_
  split
  · rename_i htype
    refine hloop.write_bind fun loop' hloop => ?_
    dsimp only
    split
    · exact gaveUp hloop.handed
    · rename_i htimes
      push Not at htimes
      refine (llong_yields _).bind fun sum hsum => (llong_yields _).bind fun sum' hsum' =>
        (llong_yields _).bind fun sum'' hsum'' => ?_
      refine hloop.write_bind fun loop' hloop => filled hloop fun _ =>
        ⟨⟨rfl, rfl⟩, fun _ => iff_of_true rfl htype, fun _ => ?_⟩
      refine ⟨htimes.1, htimes.2.1, htimes.2.2, ?_⟩
      rw [← hsum, ← hsum', ← hsum'']
      rfl
  · rename_i htype
    exact filled hloop fun _ =>
      ⟨⟨rfl, rfl⟩, fun h => iff_of_false h htype, fun h => absurd h htype⟩

/-! ### A service -/

/-- The slot at the index, when a callback is handed it. -/
def slotHanded (hands : Bool) (loop : EventLoop) : List ServiceEvent :=
  if hands then loop.services[loop.i.toNat]?.toList else []

/-- A callback leaves the slots and the index alone. -/
structure CalledBack (hands : Bool) (loop loop' : EventLoop) : Prop where
  i : loop'.i = loop.i
  services : loop'.services = loop.services
  handed : handedSlots loop'.calls = handedSlots loop.calls ++ slotHanded hands loop

/-- Every run of a callback is such a call. -/
def KeepsSlots (env : Env) (hands : Bool) (callback : EventLoop → Sdk EventLoop) : Prop :=
  ∀ loop, Yields env (callback loop) (CalledBack hands loop)

theorem call_keepsSlots {hands : Bool} {callback : ServiceEvent → Call}
    (hcallback : ∀ slot, (callback slot).handedSlot = if hands then some slot else none) :
    KeepsSlots env hands fun loop => loop.call callback := by
  intro loop
  dsimp only
  unfold EventLoop.call readSlot
  split
  · refine (ofOption_yields _).bind fun slot hslot => yields_pure ⟨rfl, rfl, ?_⟩
    rw [handedSlots_append, hcallback, slotHanded, hslot]
    cases hands <;> rfl
  · exact yields_undefined.bind fun _ h => h

theorem setOtaCallback_keepsSlots (objectDeviceId : Option String) :
    KeepsSlots env false (setOtaCallback objectDeviceId) := by
  intro loop
  unfold setOtaCallback
  refine yields_trivial.bind fun message _ => ?_
  split
  · exact yields_pure ⟨rfl, rfl, handedSlots_append _ _⟩
  · split
    · exact yields_pure ⟨rfl, rfl, handedSlots_append _ _⟩
    · exact yields_pure ⟨rfl, rfl, (List.append_nil _).symm⟩

/-- What the round of a service leaves: the slot is changed within `P`, and handed on or not; a
service that gives up has handed none on. -/
structure ServedAs (P : ServiceEvent → ServiceEvent → Prop) (hands : Bool) (loop : EventLoop)
    (r : Handled) : Prop where
  stopped : r.2 < 0 → handedSlots r.1.calls = handedSlots loop.calls
  served : 0 ≤ r.2 → ∃ f, Modified f loop r.1 ∧ (∀ slot, P slot (f slot)) ∧
    handedSlots r.1.calls = handedSlots loop.calls ++ slotHanded hands r.1

/-- The round of a service changes the slot within `P`. -/
def Serves (env : Env) (P : ServiceEvent → ServiceEvent → Prop) (hands : Bool)
    (service : EventLoop → Sdk Handled) : Prop :=
  ∀ loop, Yields env (service loop) (ServedAs P hands loop)

theorem Serves.mono {P Q : ServiceEvent → ServiceEvent → Prop} {hands : Bool}
    {service : EventLoop → Sdk Handled} (h : Serves env P hands service)
    (hPQ : ∀ slot slot', P slot slot' → Q slot slot') : Serves env Q hands service := by
  intro loop
  refine (h loop).mono fun r hr => ⟨hr.stopped, fun hret => ?_⟩
  obtain ⟨f, hmodified, hP, hhanded⟩ := hr.served hret
  exact ⟨f, hmodified, fun slot => hPQ _ _ (hP slot), hhanded⟩

theorem withService_serves {P : ServiceEvent → ServiceEvent → Prop} {hands : Bool} (id : ℤ)
    {handler : EventLoop → Sdk Handled} {callback : EventLoop → Sdk EventLoop}
    (hhandler : Handles env P handler) (hcallback : KeepsSlots env hands callback) :
    Serves env (fun slot slot' => P { slot with servie_id := some id } slot') hands
      (withService id handler callback) := by
  intro loop
  unfold withService
  refine (wrote_id loop).write_bind fun loop' hloop => ?_
  refine (hhandler loop').bind fun r hr => ?_
  have hhanded : handedSlots r.1.calls = handedSlots loop.calls := hr.1.trans hloop.handed
  dsimp only
  split
  · refine yields_pure ⟨fun _ => hhanded, fun hret => ?_⟩
    have hnegative : ¬(0 : ℤ) ≤ -1 := by decide
    exact absurd hret hnegative
  · rename_i hret
    obtain ⟨g, hwrote, hP⟩ := hr.2 (not_lt.mp hret)
    have hboth := hloop.toModified.comp hwrote.toModified
    refine (hcallback r.1).bind fun loop'' hloop'' => yields_pure ⟨fun h => ?_, fun _ => ?_⟩
    · exact absurd h (lt_irrefl 0)
    · refine ⟨_, ⟨hloop''.i.trans hboth.i, hloop''.services.trans hboth.services⟩,
        fun slot => hP _, ?_⟩
      have hslot : slotHanded hands loop'' = slotHanded hands r.1 := by
        rw [slotHanded, slotHanded, hloop''.i, hloop''.services]
      show handedSlots loop''.calls = _
      rw [hloop''.handed, hhanded, hslot]

/-- The services of the SDK and their enumerators. -/
def knownServices : List (String × ℤ) :=
  [("$sub_device_manager", EN_IOTA_EVENT_SUB_DEVICE_MANAGER), ("$ota", EN_IOTA_EVENT_OTA),
    ("$time_sync", EN_IOTA_EVENT_TIME_SYNC), ("$log", EN_IOTA_EVENT_DEVICE_LOG),
    ("$oh_soft_bus", EN_IOTA_EVENT_SOFT_BUS), ("$tunnel_manager", EN_IOTA_EVENT_TUNNEL_MANAGER),
    ("$file_manager", EN_IOTA_EVENT_FILE_MANAGER), ("$device_config", EN_IOTA_EVENT_DEVICE_CONFIG)]

/-- The enumerator of a known service. -/
def serviceOf (service_id : String) : Option ℤ :=
  (knownServices.find? fun service => service.1 = service_id).map Prod.snd

/-- What the round of a service makes of its slot. -/
structure HandledSlot (message service_id event_type : String) (paras : Option CJson)
    (slot slot' : ServiceEvent) : Prop where
  servie_id : slot'.servie_id = (serviceOf service_id).or slot.servie_id
  event_time : slot'.event_time = slot.event_time
  manager : service_id = "$sub_device_manager" → ∃ slot₀, slot₀.event_type = slot.event_type ∧
    ManagerSlot event_type paras message slot₀ slot'
  time : service_id = "$time_sync" → ∃ time slot₀, slot₀.event_type = slot.event_type ∧
    TimeSlot event_type message time slot₀ slot'

variable {message service_id event_type : String} {paras : Option CJson}

theorem HandledSlot.ofKeeps {id : ℤ} {slot slot' : ServiceEvent}
    (hservice : serviceOf service_id = some id) (hmanager : service_id ≠ "$sub_device_manager")
    (htime : service_id ≠ "$time_sync") (hkeeps : Keeps { slot with servie_id := some id } slot') :
    HandledSlot message service_id event_type paras slot slot' where
  servie_id := by rw [hkeeps.servie_id, hservice, Option.some_or]
  event_time := hkeeps.event_time
  manager h := absurd h hmanager
  time h := absurd h htime

/-- Whether the callback of a service is one for sub-devices or for the time. -/
def handsOn (service_id : String) : Bool :=
  service_id = "$sub_device_manager" || service_id = "$time_sync"

/-- A service of which the parser leaves the slot as it is, apart from its id. -/
theorem withService_handledSlot {id : ℤ} {handler : EventLoop → Sdk Handled}
    {callback : EventLoop → Sdk EventLoop} (hservice : serviceOf service_id = some id)
    (hmanager : service_id ≠ "$sub_device_manager") (htime : service_id ≠ "$time_sync")
    (hhandler : Handles env Keeps handler) (hcallback : KeepsSlots env false callback) :
    Serves env (HandledSlot message service_id event_type paras) (handsOn service_id)
      (withService id handler callback) := by
  have hhands : handsOn service_id = false := by simp [handsOn, hmanager, htime]
  rw [hhands]
  exact (withService_serves id hhandler hcallback).mono fun _ _ h =>
    .ofKeeps hservice hmanager htime h

theorem handleService_yields (event : EventMessage) (service_id event_type : String)
    (paras : Option CJson) (serviceEvent : CJson) :
    Serves env (HandledSlot event.message service_id event_type paras) (handsOn service_id)
      (handleService event service_id event_type paras serviceEvent) := by
  intro loop
  unfold handleService
  split
  · rename_i hservice
    subst hservice
    -- sub-devices: the slot is what their handler makes of it
    refine Serves.mono (withService_serves EN_IOTA_EVENT_SUB_DEVICE_MANAGER
      (onEventsDownManagerArrived_handles event_type paras event.message serviceEvent)
      (call_keepsSlots fun _ => rfl))
      (fun slot slot' h => ⟨?_, h.event_time, fun _ => ?_, fun h => ?_⟩) loop
    · exact h.servie_id
    · exact ⟨{ slot with servie_id := some EN_IOTA_EVENT_SUB_DEVICE_MANAGER }, rfl, h⟩
    · exact absurd h (by decide)
  split
  · rename_i hservice
    subst hservice
    exact withService_handledSlot rfl (by decide) (by decide)
      (onEventsDownOtaArrived_handles event_type paras) (setOtaCallback_keepsSlots _) loop
  split
  · rename_i hservice
    subst hservice
    -- time: the slot is what its handler makes of it
    refine Serves.mono (withService_serves EN_IOTA_EVENT_TIME_SYNC
      (onEventsDownNtpArrived_handles event_type event.message (event.getTime loop.i))
      (call_keepsSlots fun _ => rfl))
      (fun slot slot' h => ⟨?_, h.event_time, fun h => ?_, fun _ => ?_⟩) loop
    · exact h.servie_id
    · exact absurd h (by decide)
    · exact ⟨_, { slot with servie_id := some EN_IOTA_EVENT_TIME_SYNC }, rfl, h⟩
  split
  · rename_i hservice
    subst hservice
    exact withService_handledSlot rfl (by decide) (by decide)
      (onEventsDownLogArrived_handles event_type paras) (call_keepsSlots fun _ => rfl) loop
  split
  · rename_i hservice
    subst hservice
    exact withService_handledSlot rfl (by decide) (by decide)
      (onEventsDownSoftBus_handles _ paras) (call_keepsSlots fun _ => rfl) loop
  split
  · rename_i hservice
    subst hservice
    exact withService_handledSlot rfl (by decide) (by decide)
      (onEventsDownTunnelArrived_handles event_type paras) (call_keepsSlots fun _ => rfl) loop
  split
  · rename_i hservice
    subst hservice
    exact withService_handledSlot rfl (by decide) (by decide)
      (onEventsDownFileManager_handles event_type paras) (call_keepsSlots fun _ => rfl) loop
  split
  · rename_i hservice
    subst hservice
    exact withService_handledSlot rfl (by decide) (by decide)
      (onEventsDownRemoteCfgArrived_handles event_type paras _)
      (fun _ => yields_pure ⟨rfl, rfl, (List.append_nil _).symm⟩) loop
  · -- a service that is not known
    rename_i hmanager hota htime hlog hbus htunnel hfile hconfig
    have hservice : serviceOf service_id = none := by
      simp [serviceOf, knownServices, Ne.symm hmanager, Ne.symm hota, Ne.symm htime, Ne.symm hlog,
        Ne.symm hbus, Ne.symm htunnel, Ne.symm hfile, Ne.symm hconfig]
    have hhands : handsOn service_id = false := by simp [handsOn, hmanager, htime]
    rw [hhands]
    refine yields_pure ⟨fun _ => rfl, fun _ => ⟨_, (wrote_id loop).toModified, fun slot => ?_,
      (List.append_nil _).symm⟩⟩
    refine ⟨?_, rfl, fun h => absurd h hmanager, fun h => absurd h htime⟩
    rw [hservice]
    rfl

/-! ### A round -/

/-- Whether an element is delivered: it has a service and an event type, and is not a message to the
rule engine. -/
def isKept (serviceEvent : CJson) : Bool :=
  match jsonGetStringFromObject serviceEvent "service_id" none,
      jsonGetStringFromObject serviceEvent "event_type" none with
  | some service_id, some _ => service_id ≠ "$device_rule"
  | _, _ => false

/-- The elements that are delivered. -/
def keptEvents (services : List CJson) : List CJson := services.filter isKept

/-- A slot holds what the round of an element makes of it. -/
def SlotOf (message : String) (serviceEvent : CJson) (slot : ServiceEvent) : Prop :=
  ∃ service_id event_type slot₀,
    jsonGetStringFromObject serviceEvent "service_id" none = some service_id ∧
    jsonGetStringFromObject serviceEvent "event_type" none = some event_type ∧
    slot₀.servie_id = some EN_IOTA_EVENT_ERROR ∧
    slot₀.event_type = some EN_IOTA_EVENT_TYPE_ERROR ∧
    slot₀.event_time = some (jsonGetStringFromObject serviceEvent "event_time" none) ∧
    HandledSlot message service_id event_type (jsonGetObjectFromObject serviceEvent "paras")
      slot₀ slot

/-- Whether an element is of a service whose callback is handed its slot for sub-devices or for the
time. -/
def isHandedOn (serviceEvent : CJson) : Bool :=
  ((jsonGetStringFromObject serviceEvent "service_id" none).map handsOn).getD false

/-- The elements that are delivered whose slots are handed on. -/
def handedEvents (services : List CJson) : List CJson := (keptEvents services).filter isHandedOn

/-- The slots handed on are those of the elements gone through. -/
def HandsSlots (message : String) (gone : List CJson) (handled : Handled) : Prop :=
  List.Forall₂ (SlotOf message) (handedEvents gone) (handedSlots handled.1.calls)

/-- The state of the loop after some elements: the slots before the index are those of the elements
that are delivered. -/
structure Decoded (message : String) (n : ℕ) (seen : List CJson) (handled : Handled) : Prop where
  ret : handled.2 = 0
  length : handled.1.services.length = n
  slots : ∃ done rest, handled.1.services = done ++ rest ∧ handled.1.i = done.length ∧
    List.Forall₂ (SlotOf message) (keptEvents seen) done
  handed : HandsSlots message seen handled

/-- The state in which the loop is left in the round after some elements: an error. -/
def Stopped (message : String) (seen : List CJson) (handled : Handled) : Prop :=
  handled.2 < 0 ∧ HandsSlots message seen handled

variable {n : ℕ} {seen : List CJson} {serviceEvent : CJson} {handled : Handled}

theorem keptEvents_skipped (hskip : isKept serviceEvent = false) :
    keptEvents (seen ++ [serviceEvent]) = keptEvents seen := by
  rw [keptEvents, List.filter_append, List.filter_cons_of_neg (by simp [hskip]), List.filter_nil,
    List.append_nil]
  rfl

theorem keptEvents_kept (hkept : isKept serviceEvent = true) :
    keptEvents (seen ++ [serviceEvent]) = keptEvents seen ++ [serviceEvent] := by
  rw [keptEvents, List.filter_append, List.filter_cons_of_pos hkept, List.filter_nil]
  rfl

/-- An element that is passed over may have written to the slot at the index. -/
theorem Decoded.skipped (h : Decoded message n seen handled) (hskip : isKept serviceEvent = false)
    {loop' : EventLoop} (hloop : Wrote f handled.1 loop') :
    Decoded message n (seen ++ [serviceEvent]) (loop', 0) := by
  obtain ⟨done, rest, hservices, hi, hslots⟩ := h.slots
  refine ⟨rfl, ?_, ⟨done, rest.modify 0 f, hloop.services_eq hservices hi, ?_, ?_⟩, ?_⟩
  · show loop'.services.length = n
    rw [hloop.services, List.length_modify, h.length]
  · show loop'.i = _
    rw [hloop.i, hi]
  · rw [keptEvents_skipped hskip]
    exact hslots
  · rw [HandsSlots, handedEvents, keptEvents_skipped hskip]
    show List.Forall₂ _ _ (handedSlots loop'.calls)
    rw [hloop.handed]
    exact h.handed

/-- An element that is kept fills the slot at the index. -/
theorem Decoded.kept (h : Decoded message n seen handled) (hkept : isKept serviceEvent = true)
    {loop' : EventLoop} (hloop : Modified f handled.1 loop')
    (hinside : handled.1.i < handled.1.services.length)
    (hslot : ∀ slot, SlotOf message serviceEvent (f slot))
    (hhanded : handedSlots loop'.calls =
      handedSlots handled.1.calls ++ slotHanded (isHandedOn serviceEvent) loop') :
    Decoded message n (seen ++ [serviceEvent]) ({ loop' with i := loop'.i + 1 }, 0) := by
  -- the slot at the index is the first of those that are left
  obtain ⟨done, rest, hservices, hi, hslots⟩ := h.slots
  rw [hservices, hi, List.length_append] at hinside
  obtain ⟨slot, rest, rfl⟩ : ∃ slot rest', rest = slot :: rest' := by
    refine List.exists_cons_of_ne_nil ?_
    rintro rfl
    simp at hinside
  have hservices' : loop'.services = done ++ f slot :: rest := by
    rw [hloop.services_eq hservices hi, List.modify_zero_cons]
  have hhere : loop'.services[loop'.i.toNat]? = some (f slot) := by
    have hindex : loop'.i.toNat = done.length := by
      rw [hloop.i, hi, Int.toNat_natCast]
    rw [hindex, hservices', List.getElem?_append_right (le_refl _), Nat.sub_self]
    rfl
  refine ⟨rfl, ?_, ⟨done ++ [f slot], rest, ?_, ?_, ?_⟩, ?_⟩
  · show loop'.services.length = n
    rw [hloop.services, List.length_modify, h.length]
  · show loop'.services = _
    rw [hservices', List.append_assoc]
    rfl
  · show loop'.i + 1 = _
    rw [hloop.i, hi, List.length_append]
    rfl
  · rw [keptEvents_kept hkept]
    exact List.rel_append hslots (List.Forall₂.cons (hslot slot) List.Forall₂.nil)
  · rw [HandsSlots, handedEvents, keptEvents_kept hkept, List.filter_append]
    show List.Forall₂ _ _ (handedSlots loop'.calls)
    rw [hhanded]
    refine List.rel_append h.handed ?_
    unfold slotHanded
    rw [hhere]
    cases hon : isHandedOn serviceEvent with
    | true =>
      rw [List.filter_cons_of_pos hon]
      exact List.Forall₂.cons (hslot slot) List.Forall₂.nil
    | false =>
      rw [List.filter_cons_of_neg (by simp [hon])]
      exact List.Forall₂.nil

/-- An error leaves the slots handed on as they were. -/
theorem Decoded.stopped (h : Decoded message n seen handled) {loop' : EventLoop} {ret : ℤ}
    (hret : ret < 0) (hhanded : handedSlots loop'.calls = handedSlots handled.1.calls) :
    Stopped message seen (loop', ret) := by
  refine ⟨hret, ?_⟩
  show List.Forall₂ _ _ (handedSlots loop'.calls)
  rw [hhanded]
  exact h.handed

/-- **One round.** -/
theorem onEventsDownStep_yields (event : EventMessage) (h : Decoded event.message n seen handled) :
    Yields env (onEventsDownStep event serviceEvent handled)
      (OnStep (Decoded event.message n (seen ++ [serviceEvent])) (Stopped event.message seen)) := by
  unfold onEventsDownStep
  dsimp only
  cases hservice : jsonGetStringFromObject serviceEvent "service_id" none with
  | none =>
    have hskip : isKept serviceEvent = false := by simp [isKept, hservice]
    exact yields_pure (h.skipped hskip (wrote_id handled.1))
  | some service_id =>
    refine (write_inside handled.1).bind fun loop' hloop => ?_
    obtain ⟨hinside, hloop⟩ := hloop
    cases htype : jsonGetStringFromObject serviceEvent "event_type" none with
    | none =>
      have hskip : isKept serviceEvent = false := by simp [isKept, htype]
      exact yields_pure (h.skipped hskip hloop)
    | some event_type =>
      refine hloop.write_bind fun loop' hloop => ?_
      split
      · -- a message to the rule engine
        rename_i hrule
        have hskip : isKept serviceEvent = false := by simp [isKept, hservice, htype, hrule]
        refine yields_trivial.bind fun payload _ => ?_
        cases payload with
        | none => exact yields_pure (h.stopped (by decide) hloop.handed)
        | some payload =>
          refine yields_pure (h.skipped hskip ⟨⟨?_, hloop.services⟩, ?_⟩)
          · show loop'.i - 1 + 1 = _
            rw [hloop.i]
            omega
          · show handedSlots (loop'.calls ++ _) = _
            rw [handedSlots_append, hloop.handed]
            exact List.append_nil _
      · rename_i hrule
        have hkept : isKept serviceEvent = true := by simp [isKept, hservice, htype, hrule]
        refine (handleService_yields event service_id event_type _ serviceEvent loop').bind
          fun r hr => ?_
        split
        · rename_i hret
          -- the handler gave up: the slots stay those handed on so far
          exact yields_pure (h.stopped hret ((hr.stopped hret).trans hloop.handed))
        · rename_i hret
          obtain ⟨g, hmodified, hhandled, hhanded⟩ := hr.served (not_lt.mp hret)
          refine yields_pure (h.kept hkept (hloop.toModified.comp hmodified) hinside
            (fun slot => ?_) ?_)
          · exact ⟨service_id, event_type, _, hservice, htype, rfl, rfl, rfl, hhandled _⟩
          · rw [hhanded, hloop.handed, isHandedOn, hservice]
            rfl

/-! ### The loop -/

/-- The array before the first round. -/
def freshEvents (n : ℕ) : Handled := ({ services := List.replicate n {} }, 0)

theorem decoded_fresh (message : String) (n : ℕ) : Decoded message n [] (freshEvents n) where
  ret := rfl
  length := List.length_replicate
  slots := ⟨[], List.replicate n {}, rfl, rfl, List.Forall₂.nil⟩
  handed := List.Forall₂.nil

theorem onEventsDown_loop (event : EventMessage) (n : ℕ) (items : List CJson) :
    Yields env (forEach (onEventsDownStep event) items (freshEvents n))
      (OnStep (Decoded event.message n items) fun handled => handled.2 < 0) := by
  refine Yields.forEach_split (decoded_fresh event.message n) fun _ _ _ _ _ h => ?_
  refine (onEventsDownStep_yields event h).mono fun r hr => ?_
  cases r with
  | done handled => exact hr.1
  | yield handled => exact hr

theorem Decoded.index (h : Decoded message n seen handled) :
    handled.1.i = (keptEvents seen).length := by
  obtain ⟨done, rest, -, hi, hslots⟩ := h.slots
  rw [hi, hslots.length_eq]

/-- What a message leaves: the array of one that went through has the slots of its kept elements. -/
structure Arrived (message : String) (items : List CJson) (handled : Handled) : Prop where
  ret : handled.2 ≤ 0
  finished : handled.2 = 0 →
    handled.1.services_count = (keptEvents items).length ∧
    List.Forall₂ (SlotOf message) (keptEvents items)
      (handled.1.services.take handled.1.services_count.toNat)

theorem onEventsDownArrivedJosnSplicing_yields (event : EventMessage) (services : Option CJson)
    (n : ℕ) :
    Yields env (onEventsDownArrivedJosnSplicing event services n)
      (Arrived event.message (forEachItems services)) := by
  unfold onEventsDownArrivedJosnSplicing
  refine (onEventsDown_loop event n (forEachItems services)).bind fun r hr => ?_
  cases r with
  | done handled =>
    have hret : handled.2 < 0 := hr
    exact yields_pure ⟨hret.le, fun h => absurd h hret.ne⟩
  | yield handled =>
    obtain ⟨loop, ret⟩ := handled
    have hindex : loop.i = (keptEvents (forEachItems services)).length := Decoded.index hr
    obtain ⟨done, rest, hservices, hi, hslots⟩ := Decoded.slots hr
    refine yields_pure ⟨le_refl 0, fun _ => ⟨hindex, ?_⟩⟩
    show List.Forall₂ _ _ (loop.services.take loop.i.toNat)
    have hcount : loop.i.toNat = done.length := by
      rw [hi]
      rfl
    rw [hcount, hservices, List.take_left]
    exact hslots

/-- A slot carries the enumerator of the service of an element, and its time. -/
def Delivers (serviceEvent : CJson) (slot : ServiceEvent) : Prop :=
  ∃ service_id, jsonGetStringFromObject serviceEvent "service_id" none = some service_id ∧
    slot.servie_id = some ((serviceOf service_id).getD EN_IOTA_EVENT_ERROR) ∧
    slot.event_time = some (jsonGetStringFromObject serviceEvent "event_time" none)

theorem SlotOf.delivers {slot : ServiceEvent} (h : SlotOf message serviceEvent slot) :
    Delivers serviceEvent slot := by
  obtain ⟨service_id, event_type, slot₀, hservice, -, herror, -, htime, hslot⟩ := h
  refine ⟨service_id, hservice, ?_, hslot.event_time.trans htime⟩
  rw [hslot.servie_id, herror]
  cases serviceOf service_id with
  | none => rfl
  | some id => rfl

end IotDeviceSdk.Service
