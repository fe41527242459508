import IotDeviceSdk.Service.Equiv.NtpTime

/-!
# The slots of an event message are in its array

A read or a write of a slot outside the array is undefined, so a round that always has a result has
touched slots of the array only.  The rounds of some elements are undefined for other reasons
(`OtherwiseDefined`): a device in an answer about deleted devices, a sum of times that is no
`long long`, a pointer that was never written and is freed after a failed allocation.

* `EventLoop.write_returns`: a write at an index inside the array.
* `handleService_defined`: the handlers at an index inside the array.
* `onEventsDownStep_defined`: one round after the elements gone through so far.
* `events_decoded`: the index is inside the array in every round, no round is undefined for its
  slots, and the slots of a message that went through are those of its kept elements.
-/

namespace IotDeviceSdk.Service

open CJson Prog

variable {env : Env} {loop loop₀ loop' : EventLoop} {f g : ServiceEvent → ServiceEvent}

/-! ### Definedness -/

/-- No run of a program is undefined. -/
def Defined {α : Type} (env : Env) (p : Sdk α) : Prop := Returns env p fun _ => True

theorem defined_pure {α : Type} (a : α) : Defined env (pure a : Sdk α) := returns_pure trivial

/-- The index is that of a slot. -/
def Inside (loop : EventLoop) : Prop := 0 ≤ loop.i ∧ loop.i < loop.services.length

theorem Modified.inside (hloop : Modified f loop loop') (hinside : Inside loop) : Inside loop' := by
  unfold Inside
  rw [hloop.i, hloop.services, List.length_modify]
  exact hinside

theorem EventLoop.write_returns (hinside : Inside loop) :
    Returns env (loop.write g) (Wrote g loop) := by
  rw [write_eq_pure hinside.1 hinside.2]
  exact returns_pure ⟨⟨rfl, rfl⟩, rfl⟩

/-- A write at an index inside the array, and what comes after it. -/
theorem Wrote.write_defined {α : Type} {k : EventLoop → Sdk α} (hloop : Wrote f loop₀ loop)
    (hinside : Inside loop₀) (hk : ∀ loop', Wrote (g ∘ f) loop₀ loop' → Defined env (k loop')) :
    Defined env (loop.write g >>= k) :=
  (EventLoop.write_returns (hloop.inside hinside)).bind fun loop' hloop' =>
    hk loop' (hloop.comp hloop')

theorem readSlot_defined (hinside : Inside loop) :
    Returns env (readSlot loop.services loop.i : Sdk ServiceEvent) fun _ => True := by
  have hindex : loop.i.toNat < loop.services.length := by
    have := hinside.1
    have := hinside.2
    omega
  unfold readSlot
  rw [if_pos hinside.1, List.getElem?_eq_getElem hindex]
  exact returns_pure trivial

/-- The slots before the index. -/
def slotsBefore (loop : EventLoop) : List ServiceEvent := loop.services.take loop.i.toNat

theorem Modified.slotsBefore_eq (hloop : Modified f loop loop') :
    slotsBefore loop' = slotsBefore loop := by
  rw [slotsBefore, hloop.i, hloop.services, List.take_modify, List.modify_eq_self]
  · rfl
  · rw [List.length_take]
    exact Nat.min_le_left _ _

/-- Freeing the pointers of slots that have all been written. -/
theorem freeDown_defined {isWritten : ServiceEvent → Bool} (hloop : Wrote f loop₀ loop)
    (hinside : Inside loop₀) (hbefore : (slotsBefore loop₀).all isWritten = true)
    (hf : ∀ slot, isWritten (f slot) = true) : Defined env (loop.freeDown isWritten g) := by
  obtain ⟨hlow, hhigh⟩ := hinside
  have hlength : (slotsBefore loop₀).length = loop₀.i.toNat := by
    rw [slotsBefore, List.length_take]
    omega
  have hdrop : loop₀.services.drop loop₀.i.toNat ≠ [] := by
    rw [Ne, List.drop_eq_nil_iff]
    omega
  obtain ⟨slot, rest, hrest⟩ := List.exists_cons_of_ne_nil hdrop
  have hsplit : loop₀.services = slotsBefore loop₀ ++ slot :: rest := by
    rw [slotsBefore, ← hrest, List.take_append_drop]
  have hservices : loop.services = (slotsBefore loop₀ ++ [f slot]) ++ rest := by
    rw [hloop.services_eq hsplit (by omega), List.modify_zero_cons, List.append_assoc]
    rfl
  have hreached : loop.services.take (loop.i.toNat + 1) = slotsBefore loop₀ ++ [f slot] := by
    have hcount : loop.i.toNat + 1 = (slotsBefore loop₀ ++ [f slot]).length := by
      rw [hloop.i, List.length_append, hlength, List.length_singleton]
    rw [hcount, hservices, List.take_left]
  unfold EventLoop.freeDown
  dsimp only
  rw [hreached, if_pos]
  · exact defined_pure _
  · rw [List.all_append, hbefore, List.all_cons, hf]
    rfl

/-! ### Handlers -/

/-- A handler is defined at an index inside the array. -/
def DefinedInside (env : Env) (handler : EventLoop → Sdk Handled) : Prop :=
  ∀ loop, Inside loop → Defined env (handler loop)

theorem definedInside_cleared {c : Prop} [Decidable c] (clear fill : ServiceEvent → ServiceEvent) :
    DefinedInside env fun loop => do
      if !(← malloc) then return (loop, -1)
      let loop ← loop.write clear
      if c then
        let loop ← loop.write fill
        return (loop, 1)
      else return (loop, 1) := by
  intro loop hinside
  refine returns_memory (fun _ => defined_pure _) ?_
  refine (wrote_id loop).write_defined hinside fun loop' hloop => ?_
  by_cases h : c
  · rw [if_pos h]
    exact hloop.write_defined hinside fun _ _ => defined_pure _
  · rw [if_neg h]
    exact defined_pure _

theorem onEventsDownLogArrived_defined (event_type : String) (paras : Option CJson) :
    DefinedInside env (onEventsDownLogArrived event_type paras) :=
  definedInside_cleared _ _

theorem onEventsDownTunnelArrived_defined (event_type : String) (paras : Option CJson) :
    DefinedInside env (onEventsDownTunnelArrived event_type paras) :=
  definedInside_cleared _ _

theorem cJsonPrint_defined (paras : Option CJson) : Defined env (cJsonPrint paras) :=
  (ask_returns _).mono fun _ _ => trivial

theorem onEventsDownSoftBus_defined (event_id : Option String) (paras : Option CJson) :
    DefinedInside env (onEventsDownSoftBus event_id paras) := by
  intro loop hinside
  unfold onEventsDownSoftBus
  refine (wrote_id loop).write_defined hinside fun loop' hloop => ?_
  refine returns_memory (fun _ => defined_pure _) ?_
  refine (cJsonPrint_defined paras).bind fun bus_infos _ => ?_
  exact hloop.write_defined hinside fun _ _ => defined_pure _

theorem onEventsDownRemoteCfgArrived_defined (event_type : String) (paras : Option CJson)
    (object_device_id : Option String) :
    DefinedInside env (onEventsDownRemoteCfgArrived event_type paras object_device_id) := by
  intro loop hinside
  unfold onEventsDownRemoteCfgArrived
  split
  · refine (wrote_id loop).write_defined hinside fun loop' _ => ?_
    split
    · exact defined_pure _
    · exact defined_pure _
  · exact defined_pure _

theorem Wrote.writeEventType_returns (hloop : Wrote f loop₀ loop) (hinside : Inside loop₀)
    (types : List (String × ℤ)) (event_type : String) :
    Returns env (loop.writeEventType types event_type)
      (Wrote (eventTypeWritten types event_type ∘ f) loop₀) := by
  refine (Returns.and_yields (P := fun _ => True) ?_ (hloop.writeEventType types event_type)).mono
    fun _ h => h.2
  unfold EventLoop.writeEventType
  cases eventTypeOf types event_type with
  | none => exact defined_pure _
  | some type => exact (EventLoop.write_returns (hloop.inside hinside)).mono fun _ _ => trivial

theorem onEventsDownFileManager_defined (event_type : String) (paras : Option CJson) :
    DefinedInside env (onEventsDownFileManager event_type paras) := by
  intro loop hinside
  unfold onEventsDownFileManager
  refine ((wrote_id loop).writeEventType_returns hinside _ _).bind fun loop' hloop => ?_
  refine returns_memory (fun _ => defined_pure _) ?_
  exact hloop.write_defined hinside fun _ _ => defined_pure _

theorem onEventsDownOtaArrived_defined (event_type : String) (paras : Option CJson) :
    DefinedInside env (onEventsDownOtaArrived event_type paras) := by
  intro loop hinside
  unfold onEventsDownOtaArrived
  refine returns_memory (fun _ => defined_pure _) ?_
  refine (wrote_id loop).write_defined hinside fun loop' hloop => ?_
  refine (hloop.writeEventType_returns hinside _ _).bind fun loop' hloop => ?_
  refine (readSlot_defined (hloop.inside hinside)).bind fun service _ => ?_
  split
  · exact hloop.write_defined hinside fun _ _ => defined_pure _
  · exact defined_pure _

/-! ### Sub-devices -/

section Manager

variable {event_type : String} {paras : Option CJson}

theorem onEventsGatewayAddOrDelete_defined (message : String) (hinside : Inside loop)
    (hfreed : env.AllocsSucceed ∨ (slotsBefore loop).all (fun slot => slot.paras.isSome) = true) :
    Defined env (onEventsGatewayAddOrDelete event_type paras message loop) := by
  unfold onEventsGatewayAddOrDelete
  refine returns_memory (fun _ => defined_pure _) ?_
  refine (wrote_id loop).write_defined hinside fun loop' hloop => ?_
  dsimp only
  split
  · exact defined_pure _
  · refine returns_memory (fun hfails => ?_) ?_
    · have hwritten := hfreed.resolve_left hfails
      exact (freeDown_defined hloop hinside hwritten fun _ => rfl).bind fun _ _ => defined_pure _
    split
    · exact defined_pure _
    · split
      · exact hloop.write_defined hinside fun _ _ => defined_pure _
      · exact hloop.write_defined hinside fun _ _ => defined_pure _

theorem onEventsAddSubDeviceResponse_defined (serviceEvent : CJson) (hinside : Inside loop)
    (hfreed : env.AllocsSucceed ∨
      (slotsBefore loop).all (fun slot => slot.gtw_add_device_paras.isSome) = true) :
    Defined env (onEventsAddSubDeviceResponse paras serviceEvent loop) := by
  unfold onEventsAddSubDeviceResponse
  refine (wrote_id loop).write_defined hinside fun loop' hloop => ?_
  refine returns_memory (fun _ => defined_pure _) ?_
  refine hloop.write_defined hinside fun loop' hloop => ?_
  refine returns_memory (fun hfails => ?_) ?_
  · have hwritten := hfreed.resolve_left hfails
    exact (freeDown_defined hloop hinside hwritten fun _ => rfl).bind fun _ _ => defined_pure _
  refine returns_memory (fun _ => defined_pure _) ?_
  exact hloop.write_defined hinside fun _ _ => defined_pure _

theorem onEventsDeleteSubDeviceResponse_defined (serviceEvent : CJson) (hinside : Inside loop)
    (hdevices : jsonGetArraySize (jsonGetObjectFromObject paras "successful_devices") = 0) :
    Defined env (onEventsDeleteSubDeviceResponse paras serviceEvent loop) := by
  unfold onEventsDeleteSubDeviceResponse
  refine (wrote_id loop).write_defined hinside fun loop' hloop => ?_
  refine returns_memory (fun _ => defined_pure _) ?_
  refine returns_memory (fun _ => defined_pure _) ?_
  dsimp only
  rw [if_neg (by omega)]
  refine returns_memory (fun _ => defined_pure _) ?_
  exact hloop.write_defined hinside fun _ _ => defined_pure _

/-- What the handler of sub-devices relies on besides the index. -/
structure ManagerDefined (env : Env) (event_type : String) (paras : Option CJson)
    (loop : EventLoop) : Prop where
  notified : event_type = "delete_sub_device_notify" ∨ event_type = "add_sub_device_notify" →
    env.AllocsSucceed ∨ (slotsBefore loop).all (fun slot => slot.paras.isSome) = true
  added : event_type = "add_sub_device_response" → env.AllocsSucceed ∨
    (slotsBefore loop).all (fun slot => slot.gtw_add_device_paras.isSome) = true
  deleted : event_type = "delete_sub_device_response" ∨
      event_type = "sub_device_update_status_response" →
    jsonGetArraySize (jsonGetObjectFromObject paras "successful_devices") = 0

theorem onEventsDownManagerArrived_defined (message : String) (serviceEvent : CJson)
    (hinside : Inside loop) (h : ManagerDefined env event_type paras loop) :
    Defined env (onEventsDownManagerArrived event_type paras message serviceEvent loop) := by
  unfold onEventsDownManagerArrived
  split
  · rename_i htype
    exact onEventsGatewayAddOrDelete_defined message hinside (h.notified htype)
  split
  · rename_i htype
    exact onEventsAddSubDeviceResponse_defined serviceEvent hinside (h.added htype)
  split
  · rename_i htype
    exact onEventsDeleteSubDeviceResponse_defined serviceEvent hinside (h.deleted (.inl htype))
  split
  · rename_i htype
    exact onEventsDeleteSubDeviceResponse_defined serviceEvent hinside (h.deleted (.inr htype))
  · exact defined_pure _

end Manager

/-! ### Time -/

/-- The steps of the sum of an answer about the time are values of a `long long`. -/
structure SumsDefined (message : String) (time : ℤ) : Prop where
  server : IsLLong (serverRecvTime message + serverSendTime message)
  clock : IsLLong (serverRecvTime message + serverSendTime message + time)
  device : IsLLong (serverRecvTime message + serverSendTime message + time -
    deviceSendTime message)

theorem onEventsDownNtpArrived_defined {event_type message : String} {time : ℤ}
    (hinside : Inside loop)
    (hsums : event_type = "time_sync_response" → TimesAccepted message →
      SumsDefined message time) :
    Defined env (onEventsDownNtpArrived event_type message time loop) := by
  unfold onEventsDownNtpArrived
  refine returns_memory (fun _ => defined_pure _) ?_
  refine (wrote_id loop).write_defined hinside fun loop' hloop => ?_
  split
  · rename_i htype
    refine hloop.write_defined hinside fun loop' hloop => ?_
    dsimp only
    split
    · exact defined_pure _
    · rename_i htimes
      push Not at htimes
      have hfit := hsums htype ⟨htimes.1, htimes.2.1, htimes.2.2⟩
      have hserver : llong _ = (pure _ : Sdk ℤ) := llong_eq hfit.server
      have hclock : llong _ = (pure _ : Sdk ℤ) := llong_eq hfit.clock
      have hdevice : llong _ = (pure _ : Sdk ℤ) := llong_eq hfit.device
      simp only [serverRecvTime, serverSendTime, deviceSendTime] at hserver hclock hdevice
      rw [hserver, pure_bind, hclock, pure_bind, hdevice, pure_bind]
      exact hloop.write_defined hinside fun _ _ => defined_pure _
  · exact defined_pure _

/-! ### A service -/

/-- A callback is defined at an index inside the array. -/
def CallbackDefined (env : Env) (callback : EventLoop → Sdk EventLoop) : Prop :=
  ∀ loop, Inside loop → Defined env (callback loop)

theorem call_defined (callback : ServiceEvent → Call) :
    CallbackDefined env fun loop => loop.call callback :=
  fun _ hinside => (readSlot_defined hinside).bind fun _ _ => defined_pure _

theorem setOtaCallback_defined (objectDeviceId : Option String) :
    CallbackDefined env (setOtaCallback objectDeviceId) := by
  intro loop hinside
  unfold setOtaCallback
  refine (readSlot_defined hinside).bind fun message _ => ?_
  split
  · exact defined_pure _
  · split
    · exact defined_pure _
    · exact defined_pure _

theorem withService_defined {P : ServiceEvent → ServiceEvent → Prop} (id : ℤ)
    {handler : EventLoop → Sdk Handled} {callback : EventLoop → Sdk EventLoop}
    (hinside : Inside loop) (hhandles : Handles env P handler)
    (hhandler : ∀ loop', Inside loop' → slotsBefore loop' = slotsBefore loop →
      Defined env (handler loop'))
    (hcallback : CallbackDefined env callback) :
    Defined env (withService id handler callback loop) := by
  unfold withService
  refine (EventLoop.write_returns hinside).bind fun loop' hloop => ?_
  have hinside' := hloop.inside hinside
  have hhandled := hhandler loop' hinside' hloop.slotsBefore_eq
  refine (hhandled.and_yields (hhandles loop')).bind fun r hr => ?_
  dsimp only
  split
  · exact defined_pure _
  · rename_i hret
    obtain ⟨g, hwrote, -⟩ := hr.2.2 (not_lt.mp hret)
    exact (hcallback r.1 (hwrote.inside hinside')).bind fun _ _ => defined_pure _

theorem ManagerDefined.congr {event_type : String} {paras : Option CJson}
    (h : ManagerDefined env event_type paras loop)
    (hbefore : slotsBefore loop' = slotsBefore loop) :
    ManagerDefined env event_type paras loop' := by
  refine ⟨?_, ?_, h.deleted⟩
  · rw [hbefore]
    exact h.notified
  · rw [hbefore]
    exact h.added

/-- **The handlers** at an index inside the array. -/
theorem handleService_defined {event : EventMessage} {service_id event_type : String}
    {paras : Option CJson} (serviceEvent : CJson) (hinside : Inside loop)
    (hmanager : service_id = "$sub_device_manager" → ManagerDefined env event_type paras loop)
    (htime : service_id = "$time_sync" → event_type = "time_sync_response" →
      TimesAccepted event.message → SumsDefined event.message (event.getTime loop.i)) :
    Defined env (handleService event service_id event_type paras serviceEvent loop) := by
  unfold handleService
  split
  · rename_i hservice
    exact withService_defined _ hinside
      (onEventsDownManagerArrived_handles event_type paras event.message serviceEvent)
      (fun loop' hinside' hbefore => onEventsDownManagerArrived_defined _ _ hinside'
        ((hmanager hservice).congr hbefore)) (call_defined _)
  split
  · exact withService_defined _ hinside (onEventsDownOtaArrived_handles event_type paras)
      (fun loop' hinside' _ => onEventsDownOtaArrived_defined _ _ loop' hinside')
      (setOtaCallback_defined _)
  split
  · rename_i hservice
    exact withService_defined _ hinside (onEventsDownNtpArrived_handles event_type _ _)
      (fun loop' hinside' _ => onEventsDownNtpArrived_defined hinside' (htime hservice))
      (call_defined _)
  split
  · exact withService_defined _ hinside (onEventsDownLogArrived_handles event_type paras)
      (fun loop' hinside' _ => onEventsDownLogArrived_defined _ _ loop' hinside') (call_defined _)
  split
  · exact withService_defined _ hinside (onEventsDownSoftBus_handles _ paras)
      (fun loop' hinside' _ => onEventsDownSoftBus_defined _ _ loop' hinside') (call_defined _)
  split
  · exact withService_defined _ hinside (onEventsDownTunnelArrived_handles event_type paras)
      (fun loop' hinside' _ => onEventsDownTunnelArrived_defined _ _ loop' hinside')
      (call_defined _)
  split
  · exact withService_defined _ hinside (onEventsDownFileManager_handles event_type paras)
      (fun loop' hinside' _ => onEventsDownFileManager_defined _ _ loop' hinside') (call_defined _)
  split
  · exact withService_defined _ hinside (onEventsDownRemoteCfgArrived_handles event_type paras _)
      (fun loop' hinside' _ => onEventsDownRemoteCfgArrived_defined _ _ _ loop' hinside')
      fun _ _ => defined_pure _
  · exact defined_pure _

/-! ### A round -/

/-- Whether an element is of the sub-device manager and has one of these event types. -/
def isManagerEvent (types : List String) (serviceEvent : CJson) : Bool :=
  jsonGetStringFromObject serviceEvent "service_id" none = some "$sub_device_manager" &&
    ((jsonGetStringFromObject serviceEvent "event_type" none).map types.contains).getD false

/-- The event types of the notifications of sub-devices. -/
def notifyTypes : List String := ["delete_sub_device_notify", "add_sub_device_notify"]

/-- The event types of the answers about deleted devices and their states. -/
def deleteResponseTypes : List String :=
  ["delete_sub_device_response", "sub_device_update_status_response"]

/-- What the round of an element relies on besides the index, after some elements: no device in an
answer about deleted devices, a sum of times that is a `long long`, and, when allocations may
fail, only pointers freed that the elements before have written. -/
structure OtherwiseDefined (env : Env) (event : EventMessage) (before : List CJson)
    (serviceEvent : CJson) : Prop where
  notified : isManagerEvent notifyTypes serviceEvent = true →
    env.AllocsSucceed ∨ (keptEvents before).all (isManagerEvent notifyTypes) = true
  added : isManagerEvent ["add_sub_device_response"] serviceEvent = true →
    env.AllocsSucceed ∨ (keptEvents before).all (isManagerEvent ["add_sub_device_response"]) = true
  deleted : isManagerEvent deleteResponseTypes serviceEvent = true →
    jsonGetArraySize (jsonGetObjectFromObject
      (jsonGetObjectFromObject serviceEvent "paras") "successful_devices") = 0
  times : readsTimesOf serviceEvent = true → TimesAccepted event.message →
    SumsDefined event.message (event.getTime (keptEvents before).length)

variable {event : EventMessage} {message : String} {n : ℕ} {seen : List CJson}
  {serviceEvent : CJson} {handled : Handled} {slot : ServiceEvent}

theorem isManagerEvent_eq {service_id event_type : String}
    (hservice : jsonGetStringFromObject serviceEvent "service_id" none = some service_id)
    (htype : jsonGetStringFromObject serviceEvent "event_type" none = some event_type)
    (types : List String) :
    isManagerEvent types serviceEvent =
      (decide (service_id = "$sub_device_manager") && types.contains event_type) := by
  rw [isManagerEvent, hservice, htype]
  simp

/-- What is in the slot of an element of the sub-device manager. -/
theorem SlotOf.managerSlot {types : List String} (h : SlotOf message serviceEvent slot)
    (hmanager : isManagerEvent types serviceEvent = true) :
    ∃ event_type ∈ types, ∃ paras slot₀, ManagerSlot event_type paras message slot₀ slot := by
  obtain ⟨service_id, event_type, slot₀, hservice, htype, -, -, -, hslot⟩ := h
  rw [isManagerEvent_eq hservice htype, Bool.and_eq_true, decide_eq_true_eq] at hmanager
  obtain ⟨slot₁, -, hmanagerSlot⟩ := hslot.manager hmanager.1
  exact ⟨event_type, List.contains_iff_mem.mp hmanager.2, _, slot₁, hmanagerSlot⟩

theorem SlotOf.paras_isSome (h : SlotOf message serviceEvent slot)
    (hnotify : isManagerEvent notifyTypes serviceEvent = true) : slot.paras.isSome = true := by
  obtain ⟨event_type, htype, paras, slot₀, hslot⟩ := h.managerSlot hnotify
  refine hslot.notified ?_
  simpa [notifyTypes] using htype

theorem SlotOf.gtw_add_device_paras_isSome (h : SlotOf message serviceEvent slot)
    (hadded : isManagerEvent ["add_sub_device_response"] serviceEvent = true) :
    slot.gtw_add_device_paras.isSome = true := by
  obtain ⟨event_type, htype, paras, slot₀, hslot⟩ := h.managerSlot hadded
  exact hslot.added (List.mem_singleton.mp htype)

/-- A property of the items of one list that gives one to the items related to them. -/
theorem forall₂_all {α β : Type} {R : α → β → Prop} {p : α → Bool} {q : β → Bool} {xs : List α}
    {ys : List β} (h : List.Forall₂ R xs ys) (hR : ∀ {x y}, R x y → p x = true → q y = true)
    (hp : xs.all p = true) : ys.all q = true := by
  induction h with
  | nil => rfl
  | cons hxy _ ih =>
    rw [List.all_cons, Bool.and_eq_true] at hp ⊢
    exact ⟨hR hxy hp.1, ih hp.2⟩

/-- The slots before the index have a property that their elements give them. -/
theorem Decoded.slotsBefore_all (h : Decoded message n seen handled) {kind : CJson → Bool}
    {isWritten : ServiceEvent → Bool} (hkind : (keptEvents seen).all kind = true)
    (hslot : ∀ {serviceEvent slot}, SlotOf message serviceEvent slot → kind serviceEvent = true →
      isWritten slot = true) : (slotsBefore handled.1).all isWritten = true := by
  obtain ⟨done, rest, hservices, hi, hslots⟩ := h.slots
  have hdone : slotsBefore handled.1 = done := by
    rw [slotsBefore, hservices, hi, Int.toNat_natCast, List.take_left]
  rw [hdone]
  exact forall₂_all hslots hslot hkind

theorem Decoded.inside (h : Decoded message n seen handled) (hroom : seen.length < n) :
    Inside handled.1 := by
  have hkept : (keptEvents seen).length ≤ seen.length := List.length_filter_le _ _
  unfold Inside
  rw [h.index, h.length]
  omega

/-- The handler of sub-devices after the elements gone through. -/
theorem Decoded.managerDefined (h : Decoded message n seen handled)
    (hother : OtherwiseDefined env event seen serviceEvent) {service_id event_type : String}
    (hservice : jsonGetStringFromObject serviceEvent "service_id" none = some service_id)
    (htype : jsonGetStringFromObject serviceEvent "event_type" none = some event_type)
    (hmanager : service_id = "$sub_device_manager") :
    ManagerDefined env event_type (jsonGetObjectFromObject serviceEvent "paras") handled.1 := by
  have hkind : ∀ types : List String, types.contains event_type = true →
      isManagerEvent types serviceEvent = true := by
    intro types hmem
    rw [isManagerEvent_eq hservice htype, hmem, hmanager]
    rfl
  refine ⟨fun hnotify => ?_, fun hadded => ?_, fun hdeleted => hother.deleted (hkind _ ?_)⟩
  · refine (hother.notified (hkind _ ?_)).imp_right fun hall =>
      h.slotsBefore_all hall SlotOf.paras_isSome
    rcases hnotify with rfl | rfl <;> decide
  · refine (hother.added (hkind _ ?_)).imp_right fun hall =>
      h.slotsBefore_all hall SlotOf.gtw_add_device_paras_isSome
    rw [hadded]
    decide
  · rcases hdeleted with rfl | rfl <;> decide

/-- **One round** after the elements gone through so far. -/
theorem onEventsDownStep_defined (h : Decoded event.message n seen handled)
    (hroom : seen.length < n) (hother : OtherwiseDefined env event seen serviceEvent) :
    Defined env (onEventsDownStep event serviceEvent handled) := by
  have hinside := h.inside hroom
  unfold onEventsDownStep
  dsimp only
  cases hservice : jsonGetStringFromObject serviceEvent "service_id" none with
  | none => exact defined_pure _
  | some service_id =>
    refine (EventLoop.write_returns hinside).bind fun loop' hloop => ?_
    cases htype : jsonGetStringFromObject serviceEvent "event_type" none with
    | none => exact defined_pure _
    | some event_type =>
      refine hloop.write_defined hinside fun loop' hloop => ?_
      split
      · refine (cJsonPrint_defined _).bind fun payload _ => ?_
        cases payload with
        | none => exact defined_pure _
        | some payload => exact defined_pure _
      · refine Returns.bind (handleService_defined serviceEvent (hloop.inside hinside)
          (fun hmanager => ?_) fun htime hresponse => ?_) fun r _ => ?_
        · exact (h.managerDefined hother hservice htype hmanager).congr hloop.slotsBefore_eq
        · have hreads : readsTimesOf serviceEvent = true := by
            rw [readsTimesOf, hservice, htype, htime, hresponse]
            rfl
          rw [hloop.i, h.index]
          exact hother.times hreads
        · split
          · exact defined_pure _
          · exact defined_pure _

/-! ### The message -/

variable {services : Option CJson}

theorem length_lt_of_split {before after : List CJson}
    (hsplit : forEachItems services = before ++ serviceEvent :: after) :
    before.length < jsonGetArraySize services := by
  rw [jsonGetArraySize_eq, hsplit, List.length_append, List.length_cons]
  omega

/-- The elements of a message rely on nothing else that is missing. -/
def AllOtherwiseDefined (env : Env) (event : EventMessage) (items : List CJson) : Prop :=
  ∀ before serviceEvent after, items = before ++ serviceEvent :: after →
    OtherwiseDefined env event before serviceEvent

theorem onEventsDown_loop_defined
    (hother : AllOtherwiseDefined env event (forEachItems services)) :
    Defined env (forEach (onEventsDownStep event) (forEachItems services)
      (freshEvents (jsonGetArraySize services))) := by
  refine (Returns.forEach_split (J := fun _ => True)
    (decoded_fresh event.message (jsonGetArraySize services)) ?_).mono fun _ _ => trivial
  intro seen serviceEvent rest hsplit handled h
  have hround := onEventsDownStep_defined h (length_lt_of_split hsplit)
    (hother seen serviceEvent rest hsplit)
  refine (hround.and_yields (onEventsDownStep_yields event h)).mono fun r hr => ?_
  cases r with
  | done handled' => trivial
  | yield handled' => exact hr.2

theorem onEventsDownArrivedJosnSplicing_defined
    (hother : AllOtherwiseDefined env event (forEachItems services)) :
    Defined env (onEventsDownArrivedJosnSplicing event services (jsonGetArraySize services)) := by
  unfold onEventsDownArrivedJosnSplicing
  refine (onEventsDown_loop_defined hother).bind fun r _ => ?_
  cases r with
  | done handled => exact defined_pure _
  | yield handled => exact defined_pure _

/-- **The events that are delivered.**  In every round the index is inside the array, and the round
leaves no slot of it: a round that relies on nothing else always has a result, and so does the
whole message.  A message that goes through has one slot for each element that is kept, in their
order. -/
theorem events_decoded (event : EventMessage) (services : Option CJson) :
    (∀ before serviceEvent after, forEachItems services = before ++ serviceEvent :: after →
      ∀ handled, Outcome env
          (forEach (onEventsDownStep event) before (freshEvents (jsonGetArraySize services)))
          (.yield handled) →
        (0 ≤ handled.1.i ∧ handled.1.i < jsonGetArraySize services ∧
          handled.1.services.length = jsonGetArraySize services) ∧
        (OtherwiseDefined env event before serviceEvent →
          Returns env (onEventsDownStep event serviceEvent handled) fun _ => True)) ∧
    (AllOtherwiseDefined env event (forEachItems services) →
      Returns env (onEventsDownArrivedJosnSplicing event services (jsonGetArraySize services))
        fun _ => True) ∧
    Yields env (onEventsDownArrivedJosnSplicing event services (jsonGetArraySize services))
      fun handled => handled.2 = 0 →
        handled.1.services_count = (keptEvents (forEachItems services)).length ∧
        List.Forall₂ Delivers (keptEvents (forEachItems services))
          (handled.1.services.take handled.1.services_count.toNat) := by
  refine ⟨?_, onEventsDownArrivedJosnSplicing_defined, ?_⟩
  · intro before serviceEvent after hsplit handled hhandled
    have hroom := length_lt_of_split hsplit
    have hdecoded : Decoded event.message _ before handled :=
      onEventsDown_loop event _ before _ hhandled
    have hinside := hdecoded.inside hroom
    refine ⟨⟨hinside.1, ?_, hdecoded.length⟩, onEventsDownStep_defined hdecoded hroom⟩
    rw [← hdecoded.length]
    exact hinside.2
  · refine (onEventsDownArrivedJosnSplicing_yields event services _).mono fun handled h hret => ?_
    obtain ⟨hcount, hslots⟩ := h.finished hret
    exact ⟨hcount, hslots.imp fun _ _ hslot => hslot.delivers⟩

/-- An event for the log of the device. -/
def logEvent : CJson :=
  .object [("service_id", .string "$log"), ("event_type", .string "log_config"),
    ("event_time", .string "20250101T000000Z"), ("paras", .object [("switch", .string "on")])]

/-- A message to the rule engine. -/
def ruleEvent : CJson :=
  .object [("service_id", .string "$device_rule"), ("event_type", .string "device_rule_config"),
    ("paras", .object [])]

/-- An event of a service that is not known. -/
def lampEvent : CJson :=
  .object [("service_id", .string "lamp"), ("event_type", .string "on"),
    ("event_time", .string "20250101T000001Z")]

/-- A message with these three. -/
def mixedEvents : Option CJson := some (.array [logEvent, ruleEvent, lampEvent])

/-- The message, without a text to search. -/
def mixedMessage : EventMessage where
  object_device_id := "-1"
  message := ""
  getTime := fun _ => 0

/-- An environment that prints. -/
def printingEnv : Env := { Env.plentiful with printJson := fun _ => some "\x7b\x7d" }

/-- The slot of the event for the log. -/
def logSlot : ServiceEvent where
  servie_id := some EN_IOTA_EVENT_DEVICE_LOG
  event_type := some EN_IOTA_EVENT_LOG_CONFIG
  event_time := some (some "20250101T000000Z")
  device_log_paras := some (some { log_switch := "on", end_time := none })

/-- The array that is left: the slot that the message to the rule engine has written is the one of
the third. -/
def mixedHandled : Handled :=
  ({ i := 2
     services := [logSlot,
       { servie_id := some EN_IOTA_EVENT_ERROR
         event_type := some EN_IOTA_EVENT_TYPE_ERROR
         event_time := some (some "20250101T000001Z") },
       {}]
     services_count := 2
     calls := [.onDeviceLog (some "-1") logSlot, .ruleMgrParse "\x7b\x7d"] }, 0)

set_option maxRecDepth 4000 in
theorem events_decoded_mixed :
    Returns printingEnv (onEventsDownArrivedJosnSplicing mixedMessage mixedEvents 3)
        (fun _ => True) ∧
      Outcome printingEnv (onEventsDownArrivedJosnSplicing mixedMessage mixedEvents 3)
        mixedHandled ∧
      List.Forall₂ Delivers [logEvent, lampEvent] (mixedHandled.1.services.take 2) := by
  obtain ⟨-, hdefined, hdecoded⟩ := @events_decoded printingEnv mixedMessage mixedEvents
  have houtcome : Outcome printingEnv
      (onEventsDownArrivedJosnSplicing mixedMessage mixedEvents 3) mixedHandled :=
    ⟨default, _, rfl⟩
  refine ⟨hdefined fun before serviceEvent after hsplit => ?_, houtcome,
    (hdecoded mixedHandled houtcome rfl).2⟩
  have hmem : serviceEvent ∈ forEachItems mixedEvents := by
    rw [hsplit]
    exact List.mem_append_right _ (List.mem_cons_self ..)
  -- none of the three is of the sub-device manager or an answer about the time
  have hother : ∀ item ∈ forEachItems mixedEvents,
      isManagerEvent notifyTypes item = false ∧
        isManagerEvent ["add_sub_device_response"] item = false ∧
        isManagerEvent deleteResponseTypes item = false ∧ readsTimesOf item = false := by
    decide
  obtain ⟨hnotified, hadded, hdeleted, htimes⟩ := hother serviceEvent hmem
  constructor
  · rw [hnotified]
    simp
  · rw [hadded]
    simp
  · rw [hdeleted]
    simp
  · rw [htimes]
    simp

end IotDeviceSdk.Service
