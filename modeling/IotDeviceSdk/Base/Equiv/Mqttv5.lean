import IotDeviceSdk.Base.Mqttv5

/-!
# Converting MQTT 5 properties and back

The texts of a value come back from its conversion; the topic alias does not.  A present alias and
the `UINT_MAX` of an absent one are both added as an integer, of which `DataConversionArrived` reads
the pointer of a text (`dataConversionArrived_yields`).  So no value comes back as it was
(`roundTrips_false`).
-/

namespace IotDeviceSdk.Base

open Prog

variable {env : Env} {api : PropertyApi} {d : MqttV5Data}

/-- **Round trip of the properties of a message.** -/
def PropertiesRoundTrip (env : Env) (api : PropertyApi) (d : MqttV5Data) : Prop :=
  Returns env (dataConversionArrived api (dataConversion api (some d))) fun r => r = determined d

/-! ### The entries of a value -/

/-- The entry of a text. -/
def textEntry (identifier : MqttPropertyCode) (text : Option String) : List MqttProperty :=
  (text.map fun text => ⟨identifier, .data text⟩).toList

/-- The entry of a user property. -/
def userEntry (user : String × String) : MqttProperty := ⟨.userProperty, .pair user.1 user.2⟩

/-- The entry of a topic alias. -/
def aliasEntry (topic_alias : UInt32) : List MqttProperty :=
  if topic_alias > 0 then [⟨.topicAlias, .integer4 (shortOfUnsigned topic_alias)⟩] else []

/-- The entries of a value, in order. -/
def entries (d : MqttV5Data) : List MqttProperty :=
  d.properties.map userEntry ++ textEntry .contentType d.contnt_type ++
    textEntry .responseTopic d.response_topic ++ textEntry .correlationData d.correlation_data ++
    aliasEntry d.topic_alias

theorem array_addText (identifier : MqttPropertyCode) (text : Option String)
    (pro : api.Properties) :
    api.array (addText api identifier text pro) = api.array pro ++ textEntry identifier text := by
  cases text with
  | none => exact (List.append_nil _).symm
  | some text => exact api.array_add pro _

theorem array_users (users : List (String × String)) (pro : api.Properties) :
    api.array (users.foldl
      (fun pro user => api.add pro ⟨.userProperty, .pair user.1 user.2⟩) pro) =
      api.array pro ++ users.map userEntry := by
  induction users generalizing pro with
  | nil => exact (List.append_nil _).symm
  | cons user users ih =>
    rw [List.foldl_cons, ih, api.array_add, List.map_cons, List.append_assoc]
    rfl

theorem array_dataConversion : api.array (dataConversion api (some d)) = entries d := by
  simp only [dataConversion, entries, aliasEntry]
  split
  · rw [api.array_add, array_addText, array_addText, array_addText, array_users,
      api.array_initializer]
    rfl
  · rw [array_addText, array_addText, array_addText, array_users, api.array_initializer,
      List.append_nil]
    rfl

/-! ### Reading the entries -/

theorem foldl_users (users : List (String × String)) (arrived : ArrivedV5Data)
    (head : List (Option String × Option String)) :
    (users.map userEntry).foldl arrivedProperty (arrived, some head) =
      (arrived, some (head ++ users.map fun user => (some user.1, some user.2))) := by
  induction users generalizing head with
  | nil => simp
  | cons user users ih =>
    show (users.map userEntry).foldl arrivedProperty
      (arrived, some (head ++ [(some user.1, some user.2)])) = _
    rw [ih, List.map_cons, List.append_assoc]
    rfl

/-- `userHead` after the user properties: not assigned when there are none. -/
def userHeadOf (users : List (String × String)) : Option (List (Option String × Option String)) :=
  if users = [] then none else some (users.map fun user => (some user.1, some user.2))

theorem foldl_users_start (users : List (String × String)) (arrived : ArrivedV5Data) :
    (users.map userEntry).foldl arrivedProperty (arrived, none) = (arrived, userHeadOf users) := by
  cases users with
  | nil => rfl
  | cons user users =>
    show (users.map userEntry).foldl arrivedProperty (arrived, some [(some user.1, some user.2)]) =
      _
    rw [foldl_users]
    rfl

/-- What the entries of a value are read as. -/
def arrivedOf (d : MqttV5Data) : ArrivedV5Data where
  properties := userHeadOf d.properties
  contnt_type := some d.contnt_type
  response_topic := some d.response_topic
  correlation_data := some d.correlation_data
  topic_alias := if d.topic_alias > 0 then none else some UINT_MAX

theorem foldl_entries (d : MqttV5Data) :
    (entries d).foldl arrivedProperty (determined mqttv5Initializer, none) =
      ({ arrivedOf d with properties := some [] }, userHeadOf d.properties) := by
  simp only [entries, List.foldl_append, foldl_users_start, aliasEntry, arrivedOf]
  cases d.contnt_type <;> cases d.response_topic <;> cases d.correlation_data <;> split <;> rfl

/-! ### The loop -/

theorem arrivedStep_yields (arriving : Arriving) (prop : MqttProperty) :
    Yields env (arrivedStep arriving prop) fun r => r = arrivedProperty arriving prop := by
  unfold arrivedStep
  split
  · apply yields_allocated
    · exact yields_undefined.bind (P := fun _ => False) fun _ h => h.elim
    · exact yields_pure rfl
  · exact yields_pure rfl

theorem arrivedStep_returns (hA : env.AllocsSucceed) (arriving : Arriving) (prop : MqttProperty) :
    Returns env (arrivedStep arriving prop) fun r => r = arrivedProperty arriving prop := by
  unfold arrivedStep
  split
  · apply malloc_returns.bind
    intro allocated hallocated
    rw [hallocated hA]
    exact returns_pure rfl
  · exact returns_pure rfl

/-- What `DataConversionArrived` makes of the entries of a value. -/
def arrivedEntries (d : MqttV5Data) : ArrivedV5Data :=
  if (entries d).isEmpty then determined mqttv5Initializer else arrivedOf d

theorem dataConversionArrived_eq :
    dataConversionArrived api (dataConversion api (some d)) =
      if (entries d).isEmpty then pure (determined mqttv5Initializer)
      else (entries d).foldlM arrivedStep (determined mqttv5Initializer, none) >>= fun arriving =>
        pure { arriving.1 with properties := arriving.2 } := by
  unfold dataConversionArrived
  rw [array_dataConversion]

/-! ### The round trip -/

/-- **What comes back**: the texts as they were, the user properties if there are any, and no topic
alias. -/
theorem dataConversionArrived_yields :
    Yields env (dataConversionArrived api (dataConversion api (some d))) fun r =>
      r = arrivedEntries d := by
  rw [dataConversionArrived_eq, arrivedEntries]
  split
  · exact yields_pure rfl
  · have hloop : Yields env ((entries d).foldlM arrivedStep (determined mqttv5Initializer, none))
        fun arriving => arriving =
          (entries d).foldl arrivedProperty (determined mqttv5Initializer, none) := by
      apply Yields.foldlM_eq (I := fun _ => True) trivial
      intro prop _ arriving _
      exact ⟨trivial, arrivedStep_yields arriving prop⟩
    refine hloop.bind fun arriving harriving => ?_
    rw [harriving, foldl_entries]
    exact yields_pure rfl

/-- Nothing is undefined when no allocation fails. -/
theorem dataConversionArrived_returns (hA : env.AllocsSucceed) :
    Returns env (dataConversionArrived api (dataConversion api (some d))) fun r =>
      r = arrivedEntries d := by
  rw [dataConversionArrived_eq, arrivedEntries]
  split
  · exact returns_pure rfl
  · have hloop : Returns env ((entries d).foldlM arrivedStep (determined mqttv5Initializer, none))
        fun arriving => arriving =
          (entries d).foldl arrivedProperty (determined mqttv5Initializer, none) := by
      apply Returns.foldlM_eq (I := fun _ => True) trivial
      intro prop _ arriving _
      exact ⟨trivial, arrivedStep_returns hA arriving prop⟩
    refine hloop.bind fun arriving harriving => ?_
    rw [harriving, foldl_entries]
    exact returns_pure rfl

/-- The topic alias never comes back. -/
theorem arrivedEntries_topic_alias (d : MqttV5Data) :
    (arrivedEntries d).topic_alias ≠ some d.topic_alias := by
  by_cases halias : d.topic_alias > 0
  · have hne : (entries d).isEmpty = false := by
      simp [entries, aliasEntry, halias]
    rw [arrivedEntries, hne]
    simp [arrivedOf, halias]
  · have hzero : d.topic_alias = 0 := by
      simpa using halias
    have hlost : (arrivedEntries d).topic_alias = some UINT_MAX := by
      unfold arrivedEntries
      split
      · rfl
      · simp [arrivedOf, halias]
    rw [hlost, hzero]
    decide

/-- **No value comes back.** -/
theorem propertiesRoundTrip_false (env : Env) (api : PropertyApi) (d : MqttV5Data) :
    ¬PropertiesRoundTrip env api d := by
  intro h
  obtain ⟨r, hr, hback⟩ := h.exists_outcome
  have harrived := dataConversionArrived_yields r hr
  exact arrivedEntries_topic_alias d (by rw [← harrived, hback]; rfl)

/-- A property container that is a list. -/
def listProperties : PropertyApi where
  Properties := List MqttProperty
  initializer := []
  add props prop := props ++ [prop]
  array props := props
  array_initializer := rfl
  array_add _ _ := rfl

/-- A content type alone: neither the missing user properties nor the missing alias come back. -/
theorem propertiesRoundTrip_content_type_false :
    ¬PropertiesRoundTrip Env.plentiful listProperties
      { mqttv5Initializer with contnt_type := some "text/plain" } := by
  intro h
  obtain ⟨r, hr, hback⟩ := h.exists_outcome
  have harrived := dataConversionArrived_yields r hr
  have hproperties : r.properties = none := by
    rw [harrived]
    decide
  rw [hback] at hproperties
  cases hproperties

end IotDeviceSdk.Base
