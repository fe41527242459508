import IotDeviceSdk.Service.Base
import IotDeviceSdk.Util.StringUtil

/-!
# `subscribe.c`

The subscription to the user topics.
-/

namespace IotDeviceSdk.Service

/-- What `MqttBase_subscribe` is called with. -/
structure Subscription where
  topic : String
  qos : ℤ

/-- `SubsribeTopic`, `none` when there is nothing to subscribe. -/
def subsribeTopic (topic : Option String) (qos : ℤ) : Option Subscription :=
  if qos < 0 ∨ 1 < qos then none
  else topic.map fun topic => { topic := topic, qos := qos }

/-- `SubscribeUserTopicQos`, with the username of the configuration. -/
def subscribeUserTopicQos (userName topicParas : Option String) (qos : ℤ) :
    Sdk (Option Subscription) := do
  if qos < 0 ∨ 1 < qos then return none
  if topicParas.isNone then return none
  if userName.isNone then return none
  let topic ← combineStrings TOPIC_PREFIX [userName, TOPIC_SUFFIX_USER, topicParas]
  return subsribeTopic topic qos

open Prog

variable {env : Env}

/-- The topic of a user topic's parameter. -/
theorem subscribeUserTopicQos_yields (userName topicParas : String) (qos : ℤ) :
    Yields env (subscribeUserTopicQos userName topicParas qos) fun r =>
      ∀ subscription, r = some subscription →
        subscription.topic.toList = TOPIC_PREFIX.toList ++ userName.toList ++
          TOPIC_SUFFIX_USER.toList ++ topicParas.toList := by
  unfold subscribeUserTopicQos
  split
  · exact yields_pure (by simp)
  · have hcombine := @combineStrings_returns env TOPIC_PREFIX (by decide)
      [userName, TOPIC_SUFFIX_USER, topicParas]
    refine hcombine.yields.bind fun topic htopic => yields_pure ?_
    rintro subscription hsubscription
    unfold subsribeTopic at hsubscription
    split at hsubscription
    · cases hsubscription
    · obtain ⟨t, ht, rfl⟩ := Option.map_eq_some_iff.mp hsubscription
      show t.toList = _
      rw [htopic.1 t ht]
      simp

end IotDeviceSdk.Service
