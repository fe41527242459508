import IotDeviceSdk.Service.CallbackFunc.OnMessageArrived

/-!
# The handlers of a topic

`OnMessageArrived` and `OnBridgeArrived` try fixed patterns in a fixed order.

* `handlersCalled_of_own`: a topic with a pattern of `OnMessageArrived` goes to the handler of the
  first such pattern and to no other.
* `handlersCalled_of_bridge`: a topic with a pattern of `OnBridgeArrived` only goes to the handler
  of that pattern and then to the one of undefined topics as well.
* `handlersCalled_of_undefined`: a topic without a pattern goes to no handler at all.

So the messages are handed to the one handler they are meant for exactly when a pattern of
`OnMessageArrived` itself occurs (`handlersCalled_eq_intended_iff`): the test of the return value of
`OnBridgeArrived` is the wrong way round.
-/

namespace IotDeviceSdk.Service

open Prog

/-! ### Patterns -/

/-- The patterns of `OnMessageArrived`, in its order. -/
def ownPatterns : List (String × Handler) :=
  [(BOOTSTRAP_DOWN, .onBootstrapDownArrived),
    (TOPIC_SUFFIX_MESSAGEDOWN, .onMessagesDownArrived),
    (TOPIC_PREFIX_V3, .onV1DevicesArrived),
    (TOPIC_SUFFIX_COMMAND, .onCommandsArrived),
    (TOPIC_SUFFIX_PROP_SET, .onPropertiesSetArrived),
    (TOPIC_SUFFIX_PROP_GET, .onPropertiesGetArrived),
    (TOPIC_SUFFIX_PROP_RSP, .onShadowGetResponseArrived),
    (TOPIC_SUFFIX_USER, .onUserTopicArrived),
    (TOPIC_SUFFIX_EVENT_DOWN, .onEventsDownArrived),
    (TOPIC_PREFIX_M2M, .onM2mMessagesDownArrived)]

/-- The patterns of `OnBridgeArrived`, in its order. -/
def bridgePatterns : List (String × Handler) :=
  [(TOPIC_SUFFIX_LOGIN, .onBridgesLoginArrived),
    (TOPIC_SUFFIX_LOGOUT, .onBridgesLogoutArrived),
    (TOPIC_SUFFIX_RESET_SECRET, .onBridgesResetSecretArrived),
    (TOPIC_SUFFIX_DISCONNECT, .onBridgesDeviceDisconnectArrived)]

/-- The handler of the first pattern that occurs. -/
def firstHandler (patterns : List (String × Handler)) (topic : String) : Option Handler :=
  (patterns.find? fun p => occursIn p.1 topic).map Prod.snd

/-- The one handler a message is meant for: that of the first pattern that occurs, and the one of
undefined topics when none does. -/
def intendedHandler (topic : String) : Handler :=
  (firstHandler (ownPatterns ++ bridgePatterns) topic).getD .onOtherUndefinedTopicArrived

theorem occursIn_iff {subStr topic : String} (hne : subStr.toList ≠ []) :
    occursIn subStr topic = true ↔ subStr.toList <:+: topic.toList := by
  rw [occursIn, decide_eq_true_iff]
  exact stringLength_strInStr_pos hne

theorem firstHandler_cons (p : String × Handler) (patterns : List (String × Handler))
    (topic : String) :
    firstHandler (p :: patterns) topic =
      if occursIn p.1 topic then some p.2 else firstHandler patterns topic := by
  unfold firstHandler
  rw [List.find?_cons]
  by_cases hp : occursIn p.1 topic = true
  · rw [if_pos hp, hp]
    rfl
  · rw [if_neg hp, Bool.eq_false_of_not_eq_true hp]

theorem firstHandler_append (patterns patterns' : List (String × Handler)) (topic : String) :
    firstHandler (patterns ++ patterns') topic =
      (firstHandler patterns topic).or (firstHandler patterns' topic) := by
  unfold firstHandler
  rw [List.find?_append]
  cases patterns.find? fun p => occursIn p.1 topic <;> rfl

theorem firstHandler_isSome (patterns : List (String × Handler)) (topic : String) :
    (firstHandler patterns topic).isSome = true ↔ ∃ p ∈ patterns, occursIn p.1 topic = true := by
  rw [firstHandler, Option.isSome_map, List.find?_isSome]

theorem ownPatterns_ne_nil : ∀ p ∈ ownPatterns, p.1.toList ≠ [] := by decide

theorem firstHandler_ownPatterns_isSome (topic : String) :
    (firstHandler ownPatterns topic).isSome = true ↔
      ∃ p ∈ ownPatterns, p.1.toList <:+: topic.toList := by
  rw [firstHandler_isSome]
  constructor
  · rintro ⟨p, hp, hoccurs⟩
    exact ⟨p, hp, (occursIn_iff (ownPatterns_ne_nil p hp)).mp hoccurs⟩
  · rintro ⟨p, hp, hinfix⟩
    exact ⟨p, hp, (occursIn_iff (ownPatterns_ne_nil p hp)).mpr hinfix⟩

theorem firstHandler_mem {patterns : List (String × Handler)} {topic : String} {handler : Handler}
    (h : firstHandler patterns topic = some handler) :
    ∃ p ∈ patterns, p.2 = handler ∧ occursIn p.1 topic = true := by
  obtain ⟨p, hp, rfl⟩ := Option.map_eq_some_iff.mp h
  have hoccurs := List.find?_some hp
  exact ⟨p, List.mem_of_find?_eq_some hp, rfl, hoccurs⟩

/-! ### The chain of tests -/

/-- The chain of tests over some patterns, with what is done for the handler of the first that
occurs and what is done when none does. -/
def tryPatterns {β : Type} (topic : String) (found : Handler → β) (rest : β) :
    List (String × Handler) → β
  | [] => rest
  | p :: patterns => if occursIn p.1 topic then found p.2 else tryPatterns topic found rest patterns

theorem tryPatterns_eq {β : Type} (topic : String) (found : Handler → β) (rest : β)
    (patterns : List (String × Handler)) :
    tryPatterns topic found rest patterns =
      ((firstHandler patterns topic).map found).getD rest := by
  induction patterns with
  | nil => rfl
  | cons p patterns ih =>
    rw [tryPatterns, ih, firstHandler_cons]
    split
    · rfl
    · rfl

theorem onBridgeArrived_eq (topic : String) :
    onBridgeArrived topic =
      ((firstHandler bridgePatterns topic).map fun handler => ([handler], (0 : ℤ))).getD
        ([], -1) := by
  rw [← tryPatterns_eq]
  rfl

theorem handlersCalled_eq (topic : String) :
    handlersCalled topic =
      ((firstHandler ownPatterns topic).map fun handler => [handler]).getD
        (if (onBridgeArrived topic).2 < 0 then (onBridgeArrived topic).1
          else (onBridgeArrived topic).1 ++ [.onOtherUndefinedTopicArrived]) := by
  rw [← tryPatterns_eq]
  rfl

variable {topic : String} {handler : Handler}

theorem handlersCalled_of_own (h : firstHandler ownPatterns topic = some handler) :
    handlersCalled topic = [handler] := by
  rw [handlersCalled_eq, h]
  rfl

theorem handlersCalled_of_bridge (hown : firstHandler ownPatterns topic = none)
    (h : firstHandler bridgePatterns topic = some handler) :
    handlersCalled topic = [handler, .onOtherUndefinedTopicArrived] := by
  rw [handlersCalled_eq, hown, onBridgeArrived_eq, h]
  rfl

theorem handlersCalled_of_undefined (hown : firstHandler ownPatterns topic = none)
    (h : firstHandler bridgePatterns topic = none) : handlersCalled topic = [] := by
  rw [handlersCalled_eq, hown, onBridgeArrived_eq, h]
  rfl

/-- A handler that is called is called first, and no other after it but the one of undefined
topics. -/
theorem handlersCalled_of_mem (h : handler ∈ handlersCalled topic)
    (hne : handler ≠ .onOtherUndefinedTopicArrived) :
    handlersCalled topic = [handler] ∨
      handlersCalled topic = [handler, .onOtherUndefinedTopicArrived] := by
  cases hown : firstHandler ownPatterns topic with
  | some first =>
    rw [handlersCalled_of_own hown] at h ⊢
    rw [List.mem_singleton.mp h]
    exact Or.inl rfl
  | none =>
    cases hbridge : firstHandler bridgePatterns topic with
    | some first =>
      rw [handlersCalled_of_bridge hown hbridge] at h ⊢
      rcases List.mem_pair.mp h with rfl | hundefined
      · exact Or.inr rfl
      · exact absurd hundefined hne
    | none =>
      rw [handlersCalled_of_undefined hown hbridge] at h
      cases h

/-! ### One handler -/

variable {env : Env} {arrival : Arrival} {getTime : ℤ → ℤ} {Q : List Call → Prop}

theorem getBridgeDeviceId_returns (topic : String) :
    Returns env (getBridgeDeviceId topic) fun _ => True := by
  unfold getBridgeDeviceId
  split
  · dsimp only
    split
    · exact returns_pure trivial
    · apply malloc_returns.bind
      intro allocated _
      split
      · exact returns_pure trivial
      · exact returns_pure trivial
  · exact malloc_returns.bind fun _ _ => returns_pure trivial
  · exact returns_pure trivial

theorem bridgeDeviceIdOf_returns (topic : String) :
    Returns env (bridgeDeviceIdOf topic) fun _ => True := by
  unfold bridgeDeviceIdOf
  split
  · exact getBridgeDeviceId_returns topic
  · exact returns_pure trivial

theorem onMessageArrived_returns (h : handlersCalled arrival.topic = [handler])
    (hrun : ∀ bridgeDeviceId, Returns env (handler.run arrival bridgeDeviceId getTime) Q) :
    Returns env (onMessageArrived arrival getTime) Q := by
  unfold onMessageArrived
  apply (bridgeDeviceIdOf_returns arrival.topic).bind
  intro bridgeDeviceId _
  rw [h, List.mapM_cons, List.mapM_nil]
  simpa using hrun bridgeDeviceId

theorem onMessageArrived_yields (h : handlersCalled arrival.topic = [handler])
    (hrun : ∀ bridgeDeviceId, Yields env (handler.run arrival bridgeDeviceId getTime) Q) :
    Yields env (onMessageArrived arrival getTime) Q := by
  unfold onMessageArrived
  refine yields_trivial.bind fun bridgeDeviceId _ => ?_
  rw [h, List.mapM_cons, List.mapM_nil]
  simpa using hrun bridgeDeviceId

/-- A message without a text. -/
def emptyArrival (topic : String) : Arrival :=
  { info := ⟨0, 0⟩, topic := topic, message := "", messageLength := 0 }

/-! ### Partition -/

/-- **A message goes to the one handler it is meant for** exactly when a pattern of
`OnMessageArrived` itself occurs in its topic. -/
theorem handlersCalled_eq_intended_iff (topic : String) :
    handlersCalled topic = [intendedHandler topic] ↔
      ∃ p ∈ ownPatterns, p.1.toList <:+: topic.toList := by
  rw [← firstHandler_ownPatterns_isSome, intendedHandler, firstHandler_append]
  cases hown : firstHandler ownPatterns topic with
  | some handler =>
    rw [handlersCalled_of_own hown]
    exact iff_of_true rfl rfl
  | none =>
    refine iff_of_false ?_ (by simp)
    cases hbridge : firstHandler bridgePatterns topic with
    | some handler =>
      rw [handlersCalled_of_bridge hown hbridge]
      simp
    | none =>
      rw [handlersCalled_of_undefined hown hbridge]
      simp

/-- The message that a device of a bridge was disconnected goes to two handlers. -/
theorem disconnect_reaches_undefined :
    ¬∀ topic, handlersCalled topic = [intendedHandler topic] := by
  intro hclaim
  have hcalled : handlersCalled "$oc/bridges/b/devices/d/sys/disconnect" =
      [.onBridgesDeviceDisconnectArrived, .onOtherUndefinedTopicArrived] := rfl
  have hone := hclaim "$oc/bridges/b/devices/d/sys/disconnect"
  rw [hcalled] at hone
  cases hone

end IotDeviceSdk.Service
