import IotDeviceSdk.Service.Equiv.TopicDispatch
import IotDeviceSdk.Service.Subscribe

/-!
# Messages on user topics

The topic of a user topic's parameter `p` is `$oc/devices/{id}/user/{p}`.

* `systemPattern_infix_iff`: a pattern the dispatcher tries before `/user/` occurs in the topic
  exactly when it occurs in `/{p}`.
* `strstr_userTopic`: the parameter that is cut out is `p` unless the device id ends with `user`.

So the message is handed to the handler of user topics, with `p` as its parameter, exactly when no
such pattern occurs in `/{p}` and the device id does not end with `user`
(`userTopic_reported_iff`).
-/

namespace IotDeviceSdk.Service

open Prog

/-- The patterns `OnMessageArrived` tries before the one of user topics. -/
def systemPatterns : List (String × Handler) := ownPatterns.take 7

/-- The first two segments of these patterns, and the rest. -/
def systemSegments : List (String × String × String) :=
  [("sys", "bootstrap", "down"), ("sys", "messages", "down"), ("huawei", "v1", "devices/"),
    ("sys", "commands", ""), ("sys", "properties", "set/"), ("sys", "properties", "get/"),
    ("sys", "shadow", "get/response/")]

/-- The pattern of two segments and a rest. -/
def ofSegments (segments : String × String × String) : List Char :=
  '/' :: (segments.1.toList ++ '/' :: (segments.2.1.toList ++ '/' :: segments.2.2.toList))

/-- The topic of a user topic's parameter, cut into segments. -/
def userTopic (id p : List Char) : List Char :=
  "$oc".toList ++ '/' :: ("devices".toList ++ '/' :: (id ++ '/' :: ("user".toList ++ '/' :: p)))

theorem systemPatterns_eq :
    systemPatterns.map (fun pattern => pattern.1.toList) = systemSegments.map ofSegments := by
  decide

/-- No pattern before the one of user topics has a segment in common with the topic of one. -/
theorem systemSegments_distinct : ∀ segments ∈ systemSegments,
    '/' ∉ segments.1.toList ∧ '/' ∉ segments.2.1.toList ∧
      segments.1.toList ≠ "devices".toList ∧ segments.1.toList ≠ "user".toList ∧
      segments.2.1.toList ≠ "user".toList := by
  decide

variable {id p : List Char}

theorem ofSegments_infix_iff {segments : String × String × String}
    (hmem : segments ∈ systemSegments) (hid : '/' ∉ id) :
    ofSegments segments <:+: userTopic id p ↔ ofSegments segments <:+: '/' :: p := by
  obtain ⟨hfirst, hsecond, hdevices, huser, huser'⟩ := systemSegments_distinct segments hmem
  have hid' : ¬(segments.1.toList = id ∧
      segments.2.1.toList ++ '/' :: segments.2.2.toList <+: "user".toList ++ '/' :: p) := by
    rw [Text.segment_prefix_iff hsecond (by decide)]
    exact fun h => huser' h.2.1
  unfold ofSegments userTopic
  rw [Text.infix_append_of_not_mem (by decide), Text.segment_infix_iff hfirst (by decide),
    or_iff_right (fun h => hdevices h.1), Text.segment_infix_iff hfirst hid, or_iff_right hid',
    Text.segment_infix_iff hfirst (by decide), or_iff_right (fun h => huser h.1)]

/-- A pattern tried before the one of user topics occurs in the parameter or not at all. -/
theorem systemPattern_infix_iff {pattern : String × Handler} (hmem : pattern ∈ systemPatterns)
    (hid : '/' ∉ id) :
    pattern.1.toList <:+: userTopic id p ↔ pattern.1.toList <:+: '/' :: p := by
  have hsegments : pattern.1.toList ∈ systemSegments.map ofSegments := by
    rw [← systemPatterns_eq]
    exact List.mem_map_of_mem hmem
  obtain ⟨segments, hsegments, heq⟩ := List.mem_map.mp hsegments
  rw [← heq]
  exact ofSegments_infix_iff hsegments hid

theorem user_infix_userTopic : TOPIC_SUFFIX_USER.toList <:+: userTopic id p := by
  refine ⟨"$oc/devices/".toList ++ id, p, ?_⟩
  unfold userTopic
  simp [TOPIC_SUFFIX_USER]

/-! ### Dispatch -/

/-- The message is handed to the handler of user topics unless a pattern before has the better of
it. -/
theorem handlersCalled_userTopic_iff {topic : String} (htopic : topic.toList = userTopic id p)
    (hid : '/' ∉ id) :
    handlersCalled topic = [.onUserTopicArrived] ↔
      ∀ pattern ∈ systemPatterns, ¬pattern.1.toList <:+: '/' :: p := by
  have hsystem : firstHandler systemPatterns topic = none ↔
      ∀ pattern ∈ systemPatterns, ¬pattern.1.toList <:+: '/' :: p := by
    rw [← Option.not_isSome_iff_eq_none, firstHandler_isSome]
    push Not
    refine forall₂_congr fun pattern hmem => not_congr ?_
    rw [occursIn_iff (ownPatterns_ne_nil pattern (List.mem_of_mem_take hmem)), htopic]
    exact systemPattern_infix_iff hmem hid
  have huser : occursIn TOPIC_SUFFIX_USER topic = true := by
    rw [occursIn_iff (by decide), htopic]
    exact user_infix_userTopic
  have hsplit : ownPatterns = systemPatterns ++ (TOPIC_SUFFIX_USER, .onUserTopicArrived) ::
      ownPatterns.drop 8 := rfl
  have hafter :
      firstHandler ((TOPIC_SUFFIX_USER, .onUserTopicArrived) :: ownPatterns.drop 8) topic =
      some .onUserTopicArrived := by
    rw [firstHandler_cons, if_pos huser]
  have hfirst : firstHandler ownPatterns topic =
      (firstHandler systemPatterns topic).or (some .onUserTopicArrived) := by
    rw [hsplit, firstHandler_append, hafter]
  rw [← hsystem]
  cases hcase : firstHandler systemPatterns topic with
  | none =>
    rw [hcase, Option.none_or] at hfirst
    exact iff_of_true (handlersCalled_of_own hfirst) rfl
  | some handler =>
    rw [hcase, Option.some_or] at hfirst
    rw [handlersCalled_of_own hfirst]
    obtain ⟨pattern, hmem, rfl, -⟩ := firstHandler_mem hcase
    -- the patterns before have handlers of their own
    have hother : ∀ pattern ∈ systemPatterns, pattern.2 ≠ .onUserTopicArrived := by decide
    refine iff_of_false (fun heq => hother pattern hmem (List.cons.inj heq).1) (by simp)

/-! ### The parameter -/

/-- Where `OnUserTopicArrived` finds the parameter. -/
theorem strstr_userTopic {topic : String} (htopic : topic.toList = userTopic id p)
    (hid : '/' ∉ id) :
    (strstr topic "user/").map (fun rest => rest.toList.drop 5) =
      some (if "user".toList <:+ id then "user/".toList ++ p else p) := by
  have hpattern : "user/".toList = "user".toList ++ ['/'] := by decide
  have hnone : ¬"user".toList <:+ "$oc".toList := by decide
  have hnone' : ¬"user".toList <:+ "devices".toList := by decide
  unfold strstr
  rw [htopic, userTopic, hpattern, Text.findFirst_segment (by decide) (by decide) (by decide),
    if_neg hnone, Text.findFirst_segment (by decide) (by decide) (by decide), if_neg hnone',
    Text.findFirst_segment (by decide) (by decide) hid,
    Text.findFirst_segment (by decide) (by decide) (by decide), if_pos (List.suffix_refl _)]
  split
  · simp
  · simp

/-- What `OnUserTopicArrived` reports carries the parameter it cut out, and it reports something. -/
theorem onUserTopicArrived_returns {env : Env} {arrival : Arrival} {topicParas : List Char}
    (h : (strstr arrival.topic "user/").map (fun rest => rest.toList.drop 5) = some topicParas) :
    Returns env (onUserTopicArrived arrival) fun calls =>
      (∀ call ∈ calls, call.topicPara = some (String.ofList topicParas)) ∧
        (env.AllocsSucceed → calls ≠ []) := by
  obtain ⟨rest, hrest, rfl⟩ := Option.map_eq_some_iff.mp h
  have hraw : Returns env (onUserTpoicRawMessage arrival (String.ofList (rest.toList.drop 5)))
      fun calls => (∀ call ∈ calls, call.topicPara = some (String.ofList (rest.toList.drop 5))) ∧
        (env.AllocsSucceed → calls ≠ []) := by
    refine withMessage_returns (by simp) (returns_pure ⟨?_, by simp⟩)
    intro call hcall
    rw [List.mem_singleton.mp hcall]
    rfl
  unfold onUserTopicArrived
  rw [hrest]
  refine hraw.bind fun rawCalls hrawCalls => (ask_returns _).bind fun root _ => ?_
  -- the second message, in system format
  refine (withMessage_returns (Q := fun _ => True)
    (P := fun calls => ∀ call ∈ calls,
      call.topicPara = some (String.ofList (rest.toList.drop 5))) (by simp) ?_).bind
    fun calls hcalls => returns_pure ⟨fun call hcall => ?_, fun hA h => hrawCalls.2 hA ?_⟩
  · refine (getMessageInSystemFormat_returns root).bind fun format _ => ?_
    cases format with
    | none => exact returns_pure ⟨by simp, fun _ => trivial⟩
    | some format =>
      refine returns_pure ⟨fun call hcall => ?_, fun _ => trivial⟩
      rw [List.mem_singleton.mp hcall]
      rfl
  · rcases List.mem_append.mp hcall with hcall | hcall
    · exact hrawCalls.1 call hcall
    · exact hcalls.1 call hcall
  · exact (List.append_eq_nil_iff.mp h).1

/-! ### The topic subscribed to -/

/-- A message on the topic is handed to the handler of user topics only, and reported with `p` as
its topic parameter. -/
def ReportedAsUserTopic (topic p : String) : Prop :=
  ∀ (env : Env) (arrival : Arrival) (getTime : ℤ → ℤ), arrival.topic = topic →
    handlersCalled arrival.topic = [.onUserTopicArrived] ∧
      Returns env (onMessageArrived arrival getTime) fun calls =>
        (∀ call ∈ calls, call.topicPara = some p) ∧ (env.AllocsSucceed → calls ≠ [])

/-- **Messages on the topic of a user topic's parameter** are reported with this parameter exactly
when the device id does not end with `user` and no pattern tried before `/user/` occurs in `/{p}`.
-/
theorem userTopic_reported_iff {id p : String} (hid : '/' ∉ id.toList) {env : Env} {qos : ℤ}
    {subscription : Subscription}
    (hsubscribed : Outcome env (subscribeUserTopicQos id p qos) (some subscription)) :
    ReportedAsUserTopic subscription.topic p ↔
      ¬"user".toList <:+ id.toList ∧
        ∀ pattern ∈ systemPatterns, ¬pattern.1.toList <:+: '/' :: p.toList := by
  have htopic : subscription.topic.toList = userTopic id.toList p.toList := by
    rw [subscribeUserTopicQos_yields id p qos _ hsubscribed _ rfl]
    unfold userTopic
    simp [TOPIC_PREFIX, TOPIC_SUFFIX_USER]
  have hcalled := handlersCalled_userTopic_iff htopic hid
  have hpara := strstr_userTopic htopic hid
  constructor
  · intro h
    obtain ⟨hsingle, hreturns⟩ :=
      h Env.plentiful (emptyArrival subscription.topic) (fun _ => 0) rfl
    refine ⟨fun hend => ?_, hcalled.mp hsingle⟩
    -- some call carries the parameter that was cut out, which is longer than `p`
    rw [if_pos hend] at hpara
    have hpara' : (strstr (emptyArrival subscription.topic).topic "user/").map
        (fun rest => rest.toList.drop 5) = some ("user/".toList ++ p.toList) := hpara
    have hcut := @onMessageArrived_yields Handler.onUserTopicArrived Env.plentiful _
      (fun _ => 0) _ hsingle fun _ => (onUserTopicArrived_returns hpara').yields
    obtain ⟨calls, -, hp, hcut⟩ := (hreturns.and_yields hcut).exists_outcome
    obtain ⟨call, hcall⟩ := List.exists_mem_of_ne_nil calls
      (hp.2 Env.plentiful_allocsSucceed)
    have heq := (hp.1 call hcall).symm.trans (hcut.1 call hcall)
    have hlength := congrArg (fun s : Option String => (s.map String.length).getD 0) heq
    simp [← String.length_toList] at hlength
    omega
  · rintro ⟨hend, hsystem⟩ env arrival getTime harrival
    rw [← harrival, if_neg hend] at hpara
    rw [← harrival] at hcalled
    have hsingle := hcalled.mpr hsystem
    refine ⟨hsingle, onMessageArrived_returns hsingle fun _ => ?_⟩
    have hreported := @onUserTopicArrived_returns env arrival _ hpara
    rw [String.ofList_toList] at hreported
    exact hreported

theorem userTopic_reported_iff_light :
    ReportedAsUserTopic "$oc/devices/lamp/user/light" "light" := by
  have hsubscribed : Outcome Env.plentiful (subscribeUserTopicQos "lamp" "light" 1)
      (some { topic := "$oc/devices/lamp/user/light", qos := 1 }) := ⟨default, _, rfl⟩
  exact (userTopic_reported_iff (by decide) hsubscribed).mpr ⟨by decide, by decide⟩

/-- A user topic whose parameter has the pattern of messages in it. -/
theorem userTopic_taken_for_message :
    ¬∀ (id p : String) (env : Env) (qos : ℤ) (subscription : Subscription),
      '/' ∉ id.toList → p ≠ "" →
        Outcome env (subscribeUserTopicQos id p qos) (some subscription) →
          ReportedAsUserTopic subscription.topic p := by
  intro hclaim
  have hsubscribed : Outcome Env.plentiful
      (subscribeUserTopicQos "lamp" "backup/sys/messages/down" 1)
      (some { topic := "$oc/devices/lamp/user/backup/sys/messages/down", qos := 1 }) :=
    ⟨default, _, rfl⟩
  have hreported := hclaim "lamp" "backup/sys/messages/down" Env.plentiful 1 _ (by decide)
    (by decide) hsubscribed
  obtain ⟨hsingle, -⟩ := hreported Env.plentiful
    (emptyArrival "$oc/devices/lamp/user/backup/sys/messages/down") (fun _ => 0) rfl
  have hmessages : handlersCalled "$oc/devices/lamp/user/backup/sys/messages/down" =
      [.onMessagesDownArrived] := by decide
  have hboth := hmessages.symm.trans hsingle
  cases hboth

end IotDeviceSdk.Service
