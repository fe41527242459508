import IotDeviceSdk.Service.Base
import IotDeviceSdk.Util.StringUtil

/-!
# `data_trans.c`

The replies to the requests of the platform.
-/

namespace IotDeviceSdk.Service

/-- What `MqttBase_publish` is called with. -/
structure Publication where
  topic : String
  payload : String

/-- `ReportData`, `none` when there is nothing to publish. -/
def reportData (topic payload : Option String) : Option Publication :=
  match topic, payload with
  | some topic, some payload => some { topic := topic, payload := payload }
  | _, _ => none

/-- A reply, with the username of the configuration: the request id follows `suffix`. -/
def reportReponse (suffix : String) (username requestId commandResponse : Option String) :
    Sdk (Option Publication) := do
  if username.isNone then return none
  let topic ← combineStrings TOPIC_PREFIX [username, suffix, requestId]
  return reportData topic commandResponse

/-- `ReportCommandReponse`. -/
def reportCommandReponse (username requestId commandResponse : Option String) :
    Sdk (Option Publication) :=
  reportReponse TOPIC_SUFFIX_COMMAND_RSP_REQ username requestId commandResponse

/-- `ReportPropSetReponse`. -/
def reportPropSetReponse (username requestId commandResponse : Option String) :
    Sdk (Option Publication) :=
  reportReponse TOPIC_SUFFIX_PROP_SET_RSP_REQ username requestId commandResponse

/-- `ReportPropGetReponse`. -/
def reportPropGetReponse (username requestId commandResponse : Option String) :
    Sdk (Option Publication) :=
  reportReponse TOPIC_SUFFIX_PROP_GET_RSP_REQ username requestId commandResponse

open Prog

variable {env : Env}

/-- The topic of a reply. -/
theorem reportReponse_returns (suffix username requestId commandResponse : String) :
    Returns env (reportReponse suffix username requestId commandResponse) fun r =>
      (∀ publication, r = some publication →
        publication.topic.toList = TOPIC_PREFIX.toList ++ username.toList ++ suffix.toList ++
          requestId.toList) ∧
        (env.AllocsSucceed → r.isSome = true) := by
  have hcombine :=
    @combineStrings_returns env TOPIC_PREFIX (by decide) [username, suffix, requestId]
  unfold reportReponse
  refine hcombine.bind fun topic htopic => returns_pure ?_
  cases topic with
  | none => exact ⟨by simp [reportData], htopic.2⟩
  | some topic =>
    refine ⟨fun publication hpublication => ?_, fun _ => rfl⟩
    obtain rfl := Option.some.inj hpublication
    show topic.toList = _
    rw [htopic.1 topic rfl]
    simp

end IotDeviceSdk.Service
