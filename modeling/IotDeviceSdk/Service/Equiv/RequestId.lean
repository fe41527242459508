import IotDeviceSdk.Service.DataTrans
import IotDeviceSdk.Service.Equiv.Shadow
import IotDeviceSdk.Service.Equiv.TopicDispatch

/-!
# The request ids of the platform's requests

The handlers of requests take the text after the first `=` of the topic for the request id, and the
replies put the request id after `request_id=`.

* `run_returns`: what a handler of a request hands over carries the text after the first `=`.
* `requestIdText_eq_iff`: this text is the one after the first `request_id=` exactly when the first
  `=` belongs to a `request_id=`.

So a request and its reply have the same request id exactly when `request_id=` occurs in the topic
of the request without another `=` before (`requestId_correlated_iff`).
-/

namespace IotDeviceSdk.Service

open CJson Prog

/-- The handlers of requests. -/
def requestHandlers : List Handler :=
  [.onCommandsArrived, .onPropertiesSetArrived, .onPropertiesGetArrived,
    .onShadowGetResponseArrived, .onBridgesLoginArrived, .onBridgesLogoutArrived,
    .onBridgesResetSecretArrived]

/-- The request id of a topic: the text after the first `request_id=`. -/
def requestIdText (topic : String) : Option String :=
  (strstr topic "request_id=").map fun rest => String.ofList (rest.toList.drop "request_id=".length)

/-! ### The text after the first `=` -/

section

variable {topic : String} {before rest : List Char}

theorem strstr_equals (htopic : topic.toList = before ++ '=' :: rest) (hbefore : '=' ∉ before) :
    strstr topic "=" = some (String.ofList ('=' :: rest)) := by
  unfold strstr
  rw [htopic]
  exact congrArg (Option.map String.ofList) (Text.findFirst_singleton hbefore)

/-- What is cut out after the first `=` is the request id exactly when `request_id` stands right
before. -/
theorem requestIdText_eq_iff (htopic : topic.toList = before ++ '=' :: rest)
    (hbefore : '=' ∉ before) :
    requestIdText topic = some (String.ofList rest) ↔ "request_id".toList <:+ before := by
  have hpattern : "request_id=".toList = "request_id".toList ++ ['='] := by decide
  have hlength : "request_id=".length = 11 := by decide
  unfold requestIdText strstr
  rw [htopic, hpattern, Text.findFirst_segment (by decide) (by decide) hbefore, hlength]
  split
  · rename_i hend
    exact iff_of_true (by simp) hend
  · rename_i hend
    refine iff_of_false (fun heq => ?_) hend
    -- a later occurrence leaves less of the text
    obtain ⟨found, hfound, hrest⟩ := Option.map_eq_some_iff.mp heq
    obtain ⟨found', hfirst, rfl⟩ := Option.map_eq_some_iff.mp hfound
    obtain ⟨before', hsplit, hstart, -⟩ := Text.findFirst_eq_some_iff.mp hfirst
    have hrest' := congrArg (fun s => s.toList.length) hrest
    have hshort := congrArg List.length hsplit
    have hlong := hstart.length_le
    simp at hrest' hshort hlong
    omega

end

/-! ### What the handlers hand over -/

/-- The request id of a call is `requestId` if it has one. -/
def OnlyRequestId (requestId : String) (calls : List Call) : Prop :=
  ∀ call ∈ calls, call.requestId = none ∨ call.requestId = some requestId

/-- The arrays of a message have room in those of the handlers. -/
structure Fits (env : Env) (arrival : Arrival) : Prop where
  services : jsonGetArraySize (jsonGetObjectFromObject (env.parseJson arrival.message) "services") <
    MAX_SERVICE_COUNT
  entries : (shadowEntries env arrival).length < MAX_SERVICE_COUNT

/-- Only calls with this request id, and one of them when the message fits. -/
def HandsOver (env : Env) (arrival : Arrival) (requestId : String) (calls : List Call) : Prop :=
  OnlyRequestId requestId calls ∧
    (env.AllocsSucceed → Fits env arrival → ∃ call ∈ calls, call.requestId = some requestId)

variable {env : Env} {arrival : Arrival} {requestId : String} {getTime : ℤ → ℤ}

theorem onlyRequestId_nil : OnlyRequestId requestId [] := by simp [OnlyRequestId]

theorem handsOver_append {calls : List Call} {call : Call} (hcalls : NoRequestId calls)
    (hcall : call.requestId = some requestId) :
    HandsOver env arrival requestId (calls ++ [call]) := by
  refine ⟨fun call' hmem => ?_, fun _ _ => ⟨call, by simp, hcall⟩⟩
  rcases List.mem_append.mp hmem with hmem | hmem
  · exact Or.inl (hcalls call' hmem)
  · rw [List.mem_singleton.mp hmem]
    exact Or.inr hcall

theorem handsOver_singleton {call : Call} (hcall : call.requestId = some requestId) :
    HandsOver env arrival requestId [call] := by
  have hnone : NoRequestId [] := by simp [NoRequestId]
  exact handsOver_append hnone hcall

theorem onPropertiesSetStep_returns {done : List ServiceProperty × List Call}
    (hdone : NoRequestId done.2) (service : CJson) :
    Returns env (onPropertiesSetStep done service) fun done' => NoRequestId done'.2 := by
  unfold onPropertiesSetStep
  split
  · exact returns_pure hdone
  · exact (ask_returns _).bind fun prop _ =>
      returns_pure (hdone.append (internalServiceCalls_noRequestId _ prop))

/-- Each handler of a request starts by cutting out the request id. -/
theorem run_eq_withRequestId {handler : Handler} (hmem : handler ∈ requestHandlers)
    (arrival : Arrival) (bridgeDeviceId : Option String) (getTime : ℤ → ℤ) :
    ∃ calls, handler.run arrival bridgeDeviceId getTime = withRequestId arrival.topic calls := by
  simp only [requestHandlers, List.mem_cons, List.not_mem_nil, or_false] at hmem
  rcases hmem with rfl | rfl | rfl | rfl | rfl | rfl | rfl
  all_goals exact ⟨_, rfl⟩

theorem run_undefined {handler : Handler} (hmem : handler ∈ requestHandlers)
    (htopic : strstr arrival.topic "=" = none) (bridgeDeviceId : Option String) :
    handler.run arrival bridgeDeviceId getTime = undefined := by
  obtain ⟨calls, hcalls⟩ := run_eq_withRequestId hmem arrival bridgeDeviceId getTime
  rw [hcalls, withRequestId_eq, htopic]

/-- A handler that hands over one message. -/
theorem withRequestId_returns {calls : String → Sdk (List Call)} {rest : List Char}
    (htopic : strstr arrival.topic "=" = some (String.ofList ('=' :: rest)))
    (hcalls : Returns env (calls (String.ofList rest))
      (HandsOver env arrival (String.ofList rest))) :
    Returns env (withRequestId arrival.topic calls)
      (HandsOver env arrival (String.ofList rest)) := by
  rw [withRequestId_eq, htopic]
  dsimp only
  rw [String.toList_ofList]
  exact withMessage_returns onlyRequestId_nil hcalls

/-- **What the handler of a request hands over** carries the text after the first `=`. -/
theorem run_returns {handler : Handler} (hmem : handler ∈ requestHandlers) {rest : List Char}
    (htopic : strstr arrival.topic "=" = some (String.ofList ('=' :: rest)))
    (hids : handler = .onShadowGetResponseArrived →
      ∀ entry ∈ shadowEntries env arrival, (entryServiceId entry).isSome = true)
    (bridgeDeviceId : Option String) :
    Returns env (handler.run arrival bridgeDeviceId getTime)
      (HandsOver env arrival (String.ofList rest)) := by
  cases handler with
  | onCommandsArrived =>
    apply withRequestId_returns htopic
    exact (ask_returns _).bind fun _ _ => (ask_returns _).bind fun _ _ =>
      returns_pure (handsOver_singleton rfl)
  | onPropertiesSetArrived =>
    -- one call for the services, with the request id, when they fit
    apply withRequestId_returns htopic
    refine (ask_returns _).bind fun root hroot => ?_
    subst hroot
    dsimp only
    split
    · rename_i hcount
      exact returns_pure
        ⟨onlyRequestId_nil, fun _ hfits => absurd hfits.services (not_lt.mpr hcount)⟩
    · have hloop : Returns env ((forEachItems (jsonGetObjectFromObject
          (env.parseJson arrival.message) "services")).foldlM onPropertiesSetStep ([], []))
          fun done => NoRequestId done.2 :=
        Returns.foldlM (by simp [NoRequestId]) fun service _ done hdone =>
          onPropertiesSetStep_returns hdone service
      refine returns_allocated onlyRequestId_nil (hloop.bind fun done hdone => ?_)
      exact returns_pure (handsOver_append hdone rfl)
  | onPropertiesGetArrived =>
    apply withRequestId_returns htopic
    exact (ask_returns _).bind fun _ _ => returns_pure (handsOver_singleton rfl)
  | onShadowGetResponseArrived =>
    refine (onShadowGetResponseArrived_returns htopic (hids rfl) bridgeDeviceId).mono
      fun calls hcalls => ?_
    -- the shadow handler cuts the `=` itself
    have hcut : (String.ofList ('=' :: rest)).toList.tail = rest := by
      rw [String.toList_ofList]
      rfl
    rw [hcut] at hcalls
    have honly : OnlyRequestId (String.ofList rest) calls := by
      intro call hcall
      rcases hcalls.1 call hcall with hnone | ⟨ds, rfl, hid, -⟩
      · exact Or.inl hnone
      · exact Or.inr (congrArg some hid)
    refine ⟨honly, fun hA hfits => ?_⟩
    obtain ⟨ds, hds⟩ := hcalls.2 hA hfits.entries
    exact ⟨_, hds, (honly _ hds).resolve_left (by simp [Call.requestId])⟩
  | onBridgesLoginArrived =>
    apply withRequestId_returns htopic
    exact (ask_returns _).bind fun _ _ => returns_pure (handsOver_singleton rfl)
  | onBridgesLogoutArrived =>
    apply withRequestId_returns htopic
    exact (ask_returns _).bind fun _ _ => returns_pure (handsOver_singleton rfl)
  | onBridgesResetSecretArrived =>
    apply withRequestId_returns htopic
    exact (ask_returns _).bind fun _ _ => (ask_returns _).bind fun _ _ =>
      returns_pure (handsOver_singleton rfl)
  | _ => simp [requestHandlers] at hmem

/-! ### What the dispatcher hands over -/

theorem onOtherUndefinedTopicArrived_returns (bridgeDeviceId : Option String) :
    Returns env (onOtherUndefinedTopicArrived arrival bridgeDeviceId) NoRequestId := by
  have hreturns : Returns env (onOtherUndefinedTopicArrived arrival bridgeDeviceId) fun calls =>
      NoRequestId calls ∧ (env.AllocsSucceed → True) :=
    withMessage_returns (by simp [NoRequestId])
      (returns_pure ⟨by simp [NoRequestId, Call.requestId], fun _ => trivial⟩)
  exact hreturns.mono fun calls h => h.1

theorem HandsOver.append {calls calls' : List Call} (h : HandsOver env arrival requestId calls)
    (h' : NoRequestId calls') : HandsOver env arrival requestId (calls ++ calls') := by
  refine ⟨fun call hcall => ?_, fun hA hfits => ?_⟩
  · rcases List.mem_append.mp hcall with hcall | hcall
    · exact h.1 call hcall
    · exact Or.inl (h' call hcall)
  · obtain ⟨call, hcall, hid⟩ := h.2 hA hfits
    exact ⟨call, List.mem_append_left _ hcall, hid⟩

variable {handler : Handler}

theorem ne_undefined (hmem : handler ∈ requestHandlers) :
    handler ≠ .onOtherUndefinedTopicArrived := by
  rintro rfl
  exact absurd hmem (by decide)

/-- The entries of a shadow response have ids; without one the handler compares with `NULL`. -/
def EntriesIdentified (env : Env) (arrival : Arrival) : Prop :=
  Handler.onShadowGetResponseArrived ∈ handlersCalled arrival.topic →
    ∀ entry ∈ shadowEntries env arrival, (entryServiceId entry).isSome = true

theorem onMessageArrived_handsOver (hmem : handler ∈ requestHandlers)
    (hrouted : handler ∈ handlersCalled arrival.topic) {rest : List Char}
    (htopic : strstr arrival.topic "=" = some (String.ofList ('=' :: rest)))
    (hids : EntriesIdentified env arrival) :
    Returns env (onMessageArrived arrival getTime)
      (HandsOver env arrival (String.ofList rest)) := by
  have hrun : ∀ bridgeDeviceId, Returns env (handler.run arrival bridgeDeviceId getTime)
      (HandsOver env arrival (String.ofList rest)) := by
    apply run_returns hmem htopic
    rintro rfl
    exact hids hrouted
  rcases handlersCalled_of_mem hrouted (ne_undefined hmem) with hcalled | hcalled
  · exact onMessageArrived_returns hcalled hrun
  · -- the handler of undefined topics is called as well
    unfold onMessageArrived
    apply (bridgeDeviceIdOf_returns arrival.topic).bind
    intro bridgeDeviceId _
    rw [hcalled, List.mapM_cons, List.mapM_cons, List.mapM_nil]
    simp only [bind_assoc, pure_bind]
    apply (hrun bridgeDeviceId).bind
    intro calls hcalls
    apply (onOtherUndefinedTopicArrived_returns bridgeDeviceId).bind
    intro calls' hcalls'
    refine returns_pure ?_
    show HandsOver env arrival (String.ofList rest) (calls ++ (calls' ++ []))
    rw [List.append_nil]
    exact hcalls.append hcalls'

/-- Without a `=` in the topic no message of a request is handled. -/
theorem not_outcome_of_no_equals (hmem : handler ∈ requestHandlers)
    (hrouted : handler ∈ handlersCalled arrival.topic) (htopic : strstr arrival.topic "=" = none)
    (calls : List Call) : ¬Outcome env (onMessageArrived arrival getTime) calls := by
  have hstuck : Yields env (onMessageArrived arrival getTime) fun _ => False := by
    obtain ⟨handlers, hcalled⟩ :
        ∃ handlers, handlersCalled arrival.topic = handler :: handlers := by
      rcases handlersCalled_of_mem hrouted (ne_undefined hmem) with h | h
      · exact ⟨_, h⟩
      · exact ⟨_, h⟩
    unfold onMessageArrived
    refine yields_trivial.bind fun bridgeDeviceId _ => ?_
    rw [hcalled, List.mapM_cons, run_undefined hmem htopic]
    exact yields_undefined.bind fun _ h => h
  exact hstuck calls

/-! ### Requests and replies -/

/-- The replies to a request with this request id end with it. -/
def AnsweredWith (requestId : String) : Prop :=
  ∀ reply ∈ [reportCommandReponse, reportPropSetReponse, reportPropGetReponse],
    ∀ (env : Env) (username commandResponse : String),
      Returns env (reply username requestId commandResponse) fun r =>
        (∀ publication, r = some publication →
          "request_id=".toList ++ requestId.toList <:+ publication.topic.toList) ∧
        (env.AllocsSucceed → r.isSome = true)

theorem answeredWith (requestId : String) : AnsweredWith requestId := by
  have hreply : ∀ suffix : String, "request_id=".toList <:+ suffix.toList →
      ∀ (env : Env) (username commandResponse : String),
        Returns env (reportReponse suffix username requestId commandResponse) fun r =>
          (∀ publication, r = some publication →
            "request_id=".toList ++ requestId.toList <:+ publication.topic.toList) ∧
          (env.AllocsSucceed → r.isSome = true) := by
    intro suffix hsuffix env username commandResponse
    refine (reportReponse_returns suffix username requestId commandResponse).mono
      fun r hr => ⟨fun publication hpublication => ?_, hr.2⟩
    obtain ⟨path, hpath⟩ := hsuffix
    rw [hr.1 publication hpublication, ← hpath]
    exact ⟨TOPIC_PREFIX.toList ++ username.toList ++ path, by simp⟩
  intro reply hmem
  simp only [List.mem_cons, List.not_mem_nil, or_false] at hmem
  rcases hmem with rfl | rfl | rfl
  · exact hreply TOPIC_SUFFIX_COMMAND_RSP_REQ (by decide)
  · exact hreply TOPIC_SUFFIX_PROP_SET_RSP_REQ (by decide)
  · exact hreply TOPIC_SUFFIX_PROP_GET_RSP_REQ (by decide)

/-- The messages of a topic are handled, and what is handed over has the request id of the topic and
is answered with it. -/
def CorrelatesRequestId (topic : String) : Prop :=
  ∀ (env : Env) (arrival : Arrival) (getTime : ℤ → ℤ), arrival.topic = topic →
    EntriesIdentified env arrival → Returns env (onMessageArrived arrival getTime) fun calls =>
      (∀ call ∈ calls, ∀ requestId, call.requestId = some requestId →
        requestIdText topic = some requestId ∧ AnsweredWith requestId) ∧
      (env.AllocsSucceed → Fits env arrival →
        ∃ call ∈ calls, call.requestId = requestIdText topic)

theorem emptyArrival_fits (topic : String) : Fits Env.plentiful (emptyArrival topic) where
  services := show 0 < 50 by decide
  entries := show 0 < 50 by decide

theorem emptyArrival_entriesIdentified (topic : String) :
    EntriesIdentified Env.plentiful (emptyArrival topic) := by
  intro _ entry hentry
  cases hentry

/-- The empty message of a request is handed over with the text after the first `=`. -/
theorem emptyArrival_handsOver {topic : String} (hmem : handler ∈ requestHandlers)
    (hrouted : handler ∈ handlersCalled topic) {before rest : List Char}
    (htopic : topic.toList = before ++ '=' :: rest) (hbefore : '=' ∉ before) {calls : List Call}
    (hcalls : Outcome Env.plentiful (onMessageArrived (emptyArrival topic) getTime) calls) :
    ∃ call ∈ calls, call.requestId = some (String.ofList rest) := by
  have hfound : strstr (emptyArrival topic).topic "=" = some (String.ofList ('=' :: rest)) :=
    strstr_equals htopic hbefore
  have hrouted' : handler ∈ handlersCalled (emptyArrival topic).topic := hrouted
  have hhands := (@onMessageArrived_handsOver Env.plentiful _ getTime _ hmem hrouted' _ hfound
    (emptyArrival_entriesIdentified topic)).yields calls hcalls
  exact hhands.2 Env.plentiful_allocsSucceed (emptyArrival_fits topic)

/-- **A request and its reply have the same request id** exactly when `request_id=` occurs in the
topic of the request without another `=` before. -/
theorem requestId_correlated_iff {topic : String}
    (hrouted : ∃ handler ∈ requestHandlers, handler ∈ handlersCalled topic) :
    CorrelatesRequestId topic ↔
      ∃ before after, topic.toList = before ++ "request_id=".toList ++ after ∧ '=' ∉ before := by
  obtain ⟨handler, hmem, hrouted⟩ := hrouted
  have hsplit : "request_id=".toList = "request_id".toList ++ ['='] := by decide
  constructor
  · intro h
    obtain ⟨calls, hcalls, hids, -⟩ := (h Env.plentiful (emptyArrival topic) (fun _ => 0) rfl
      (emptyArrival_entriesIdentified topic)).exists_outcome
    by_cases hequals : '=' ∈ topic.toList
    · obtain ⟨before, rest, htopic, hbefore⟩ := List.eq_append_cons_of_mem hequals
      obtain ⟨call, hcall, hid⟩ := emptyArrival_handsOver hmem hrouted htopic hbefore hcalls
      obtain ⟨path, rfl⟩ :=
        (requestIdText_eq_iff htopic hbefore).mp (hids call hcall _ hid).1
      refine ⟨path, rest, ?_, fun h => hbefore (List.mem_append_left _ h)⟩
      rw [htopic, hsplit]
      simp
    · have hnone : strstr (emptyArrival topic).topic "=" = none := by
        rw [strstr_eq_none_iff]
        exact fun hinfix => hequals ((List.singleton_infix_iff _ _).mp hinfix)
      have hrouted' : handler ∈ handlersCalled (emptyArrival topic).topic := hrouted
      exact absurd hcalls (not_outcome_of_no_equals hmem hrouted' hnone calls)
  · rintro ⟨before, after, htopic, hbefore⟩ env arrival getTime rfl hids
    have hbefore' : '=' ∉ before ++ "request_id".toList := by
      rw [List.mem_append]
      exact not_or.mpr ⟨hbefore, by decide⟩
    have htopic' : arrival.topic.toList = before ++ "request_id".toList ++ '=' :: after := by
      rw [htopic, hsplit]
      simp
    have hid := (requestIdText_eq_iff htopic' hbefore').mpr (List.suffix_append _ _)
    refine (onMessageArrived_handsOver hmem hrouted (strstr_equals htopic' hbefore') hids).mono
      fun calls hcalls => ?_
    rw [hid]
    refine ⟨fun call hcall requestId hrequestId => ⟨?_, answeredWith requestId⟩, hcalls.2⟩
    rcases hcalls.1 call hcall with hnone | hsome
    · rw [hnone] at hrequestId
      cases hrequestId
    · exact hsome.symm.trans hrequestId

theorem requestId_correlated_iff_lamp :
    CorrelatesRequestId "$oc/devices/lamp/sys/commands/request_id=1" := by
  have hrouted : ∃ handler ∈ requestHandlers,
      handler ∈ handlersCalled "$oc/devices/lamp/sys/commands/request_id=1" :=
    ⟨.onCommandsArrived, by decide, by decide⟩
  exact (requestId_correlated_iff hrouted).mpr
    ⟨"$oc/devices/lamp/sys/commands/".toList, "1".toList, by decide, by decide⟩

/-- The request id of a command is cut out after the `=` of the device id. -/
theorem requestId_cut_at_device_id :
    ¬∀ topic, (∃ handler ∈ requestHandlers, handler ∈ handlersCalled topic) →
      CorrelatesRequestId topic := by
  intro hclaim
  have hrouted : Handler.onCommandsArrived ∈
      handlersCalled "$oc/devices/lamp=1/sys/commands/request_id=1" := by decide
  have htopic : "$oc/devices/lamp=1/sys/commands/request_id=1".toList =
      "$oc/devices/lamp".toList ++ '=' :: "1/sys/commands/request_id=1".toList := by decide
  obtain ⟨calls, hcalls, hids, -⟩ := (hclaim _ ⟨.onCommandsArrived, by decide, hrouted⟩
    Env.plentiful (emptyArrival _) (fun _ => 0) rfl
    (emptyArrival_entriesIdentified _)).exists_outcome
  have hmem : Handler.onCommandsArrived ∈ requestHandlers := by decide
  obtain ⟨call, hcall, hid⟩ := emptyArrival_handsOver hmem hrouted htopic (by decide) hcalls
  have htext : requestIdText "$oc/devices/lamp=1/sys/commands/request_id=1" = some "1" := by decide
  have hown := (hids call hcall _ hid).1
  rw [htext] at hown
  exact absurd hown (by decide)

end IotDeviceSdk.Service
