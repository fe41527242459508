import IotDeviceSdk.Service.Bridge.BridgeTopicData
import IotDeviceSdk.Service.Equiv.TopicDispatch

/-!
# The topics of a bridge

The topic of a mode is `$oc/bridges/{username}/devices/{deviceId}` with the suffix of the mode.

* `bridgeTopic_returns`: the topic that `Birdge_SetTopic` builds; a mode with a request id has it at
  the end, after `request_id=` (`bridgeTopic_requestId`).
* `getBridgeDeviceId_bridgeTopic`: `getBridgeDeviceId` reads the device id back from the topic of a
  mode of the system, unless the username is `devices` or `sys` or the device id is `sys`.
* `birdgeSetTopic_yields`: the topic is built but never returned.
-/

namespace IotDeviceSdk.Service

open Prog

variable {env : Env} {username deviceId requestId : String}

/-! ### The topic of a mode -/

/-- The text of a topic. -/
def bridgeTopicText (username deviceId requestId : String) (suffix : String × Bool) : List Char :=
  BRIDGE_TOPIC_PREFIX.toList ++ username.toList ++ BRIDGE_TOPIC_DEVICE.toList ++ deviceId.toList ++
    suffix.1.toList ++ if suffix.2 then requestId.toList else []

theorem bridgeTopic_returns (suffix : String × Bool) :
    Returns env (bridgeTopic username deviceId requestId suffix) fun r =>
      (∀ topic, r = some topic →
        topic.toList = bridgeTopicText username deviceId requestId suffix) ∧
      (env.AllocsSucceed → r.isSome) := by
  have hcombine := @combineStrings_returns env BRIDGE_TOPIC_PREFIX (by decide)
    ([(username : Option String), BRIDGE_TOPIC_DEVICE, deviceId, suffix.1] ++
      if suffix.2 then [(requestId : Option String)] else [])
  refine hcombine.mono fun r hr => ⟨fun topic htopic => ?_, hr.2⟩
  rw [hr.1 topic htopic, bridgeTopicText]
  cases suffix.2 <;> simp

/-- Every mode that carries a request id announces it. -/
theorem suffix_requestId {mode : BridgeDeviceType} {suffix : String × Bool}
    (h : mode.suffix = some suffix) (hcarries : suffix.2 = true) :
    "request_id=".toList <:+ suffix.1.toList := by
  cases mode <;> cases h <;> first | decide | cases hcarries

theorem bridgeTopic_requestId {mode : BridgeDeviceType} {suffix : String × Bool}
    (h : mode.suffix = some suffix) (hcarries : suffix.2 = true) :
    "request_id=".toList ++ requestId.toList <:+
      bridgeTopicText username deviceId requestId suffix := by
  obtain ⟨before, hbefore⟩ := suffix_requestId h hcarries
  unfold bridgeTopicText
  rw [if_pos hcarries, ← hbefore]
  exact ⟨BRIDGE_TOPIC_PREFIX.toList ++ username.toList ++ BRIDGE_TOPIC_DEVICE.toList ++
    deviceId.toList ++ before, by simp⟩

/-! ### Reading the device id -/

/-- A topic of a bridge, cut into segments up to the device id. -/
def bridgeSegments (username rest : List Char) : List Char :=
  "$oc".toList ++ '/' :: ("bridges".toList ++ '/' :: (username ++
    '/' :: ("devices".toList ++ '/' :: rest)))

/-- What a reader finds at the first `/devices/`. -/
theorem findFirst_devices {u rest : List Char} (hu : '/' ∉ u) (hne : u ≠ "devices".toList) :
    Text.findFirst TOPIC_SUFFIX_DEVICES.toList (bridgeSegments u rest) =
      some (TOPIC_SUFFIX_DEVICES.toList ++ rest) := by
  have hpattern : TOPIC_SUFFIX_DEVICES.toList = '/' :: ("devices".toList ++ ['/']) := by decide
  have hbridges : "devices".toList ≠ "bridges".toList := by decide
  unfold bridgeSegments
  rw [hpattern, Text.findFirst_append (by decide),
    Text.findFirst_separated (by decide) (by decide), if_neg hbridges,
    Text.findFirst_separated (by decide) hu, if_neg (Ne.symm hne),
    Text.findFirst_separated (by decide) (by decide), if_pos rfl]
  simp

/-- What a reader finds at the first `/sys/`. -/
theorem findFirst_sys {u d rest : List Char} (hu : '/' ∉ u) (hu' : u ≠ "sys".toList)
    (hd : '/' ∉ d) (hd' : d ≠ "sys".toList) :
    Text.findFirst TOPIC_SUFFIX_SYS.toList
      (bridgeSegments u (d ++ (TOPIC_SUFFIX_SYS.toList ++ rest))) =
      some (TOPIC_SUFFIX_SYS.toList ++ rest) := by
  have hpattern : TOPIC_SUFFIX_SYS.toList = '/' :: ("sys".toList ++ ['/']) := by decide
  have hbridges : "sys".toList ≠ "bridges".toList := by decide
  have hdevices : "sys".toList ≠ "devices".toList := by decide
  have hrest : d ++ (TOPIC_SUFFIX_SYS.toList ++ rest) =
      d ++ '/' :: ("sys".toList ++ '/' :: rest) := by simp [TOPIC_SUFFIX_SYS]
  rw [hrest]
  unfold bridgeSegments
  rw [hpattern, Text.findFirst_append (by decide),
    Text.findFirst_separated (by decide) (by decide), if_neg hbridges,
    Text.findFirst_separated (by decide) hu, if_neg (Ne.symm hu'),
    Text.findFirst_separated (by decide) (by decide), if_neg hdevices,
    Text.findFirst_separated (by decide) hd, if_neg (Ne.symm hd'),
    Text.findFirst_separated (by decide) (by decide), if_pos rfl]
  simp

/-- **The device id is read back** from the topic of a mode of the system. -/
theorem getBridgeDeviceId_bridgeTopic {topic : String} {suffix : String × Bool}
    (htopic : topic.toList = bridgeTopicText username deviceId requestId suffix)
    (hsys : TOPIC_SUFFIX_SYS.toList <+: suffix.1.toList)
    (husername : '/' ∉ username.toList) (hdevices : username ≠ "devices") (hsys' : username ≠ "sys")
    (hdeviceId : '/' ∉ deviceId.toList) (hempty : deviceId ≠ "") (hdevice : deviceId ≠ "sys") :
    Returns env (getBridgeDeviceId topic) fun r => env.AllocsSucceed → r = some deviceId := by
  obtain ⟨after, hafter⟩ := hsys
  let rest := TOPIC_SUFFIX_SYS.toList ++ (after ++ if suffix.2 then requestId.toList else [])
  have hcut : topic.toList = bridgeSegments username.toList (deviceId.toList ++ rest) := by
    rw [htopic, bridgeTopicText, ← hafter]
    simp [bridgeSegments, rest, BRIDGE_TOPIC_PREFIX, BRIDGE_TOPIC_DEVICE]
  have hstart : strInStr (some topic) (some TOPIC_SUFFIX_DEVICES) =
      some (String.ofList (TOPIC_SUFFIX_DEVICES.toList ++ (deviceId.toList ++ rest))) := by
    show strstr topic TOPIC_SUFFIX_DEVICES = _
    rw [strstr, hcut, findFirst_devices husername fun h => hdevices (String.toList_inj.mp h)]
    rfl
  have hfinish : strInStr (some topic) (some TOPIC_SUFFIX_SYS) = some (String.ofList rest) := by
    show strstr topic TOPIC_SUFFIX_SYS = _
    rw [strstr, hcut, findFirst_sys husername (fun h => hsys' (String.toList_inj.mp h)) hdeviceId
      fun h => hdevice (String.toList_inj.mp h)]
    rfl
  have hdrop :
      (String.ofList (TOPIC_SUFFIX_DEVICES.toList ++ (deviceId.toList ++ rest))).toList.drop
      TOPIC_SUFFIX_DEVICES.length = deviceId.toList ++ rest := by
    rw [String.toList_ofList, ← String.length_toList, List.drop_left]
  have hlength : deviceId.toList.length ≠ 0 := by
    rw [Ne, List.length_eq_zero_iff]
    exact fun h => hempty (String.toList_eq_nil_iff.mp h)
  have hlonger : ¬(deviceId.toList ++ rest).length ≤ (String.ofList rest).length := by
    rw [← String.length_toList, String.toList_ofList, List.length_append]
    omega
  have htake : (deviceId.toList ++ rest).take
      ((deviceId.toList ++ rest).length - (String.ofList rest).length) = deviceId.toList := by
    rw [← String.length_toList, String.toList_ofList, List.length_append, Nat.add_sub_cancel,
      List.take_left]
  unfold getBridgeDeviceId
  rw [hstart, hfinish]
  dsimp only
  rw [hdrop, if_neg hlonger, htake, String.ofList_toList]
  exact (returns_allocated (P := fun _ => True) (Q := fun r => r = some deviceId) trivial
    (returns_pure ⟨trivial, fun _ => rfl⟩)).mono fun r hr => hr.2

/-! ### What is returned -/

/-- No topic of a mode is returned. -/
theorem birdgeSetTopic_yields (mode : BridgeDeviceType)
    (username deviceId requestId : Option String) :
    Yields env (birdgeSetTopic username mode deviceId requestId) fun r => r = none := by
  unfold birdgeSetTopic
  split
  · exact yields_pure rfl
  · split
    · exact yields_pure rfl
    · exact yields_trivial.bind fun _ _ => yields_undefined

/-- `Birdge_SetTopic` returns the topic of the mode, `getBridgeDeviceId` reads the device id back
from it when the mode is one of the system, and a request id is at the end. -/
def BridgeTopicAgrees (mode : BridgeDeviceType) (username deviceId requestId : String) : Prop :=
  ∀ env : Env, env.AllocsSucceed →
    Returns env (birdgeSetTopic username mode deviceId requestId) fun r =>
      ∃ topic suffix, r = some topic ∧ mode.suffix = some suffix ∧
        topic.toList = bridgeTopicText username deviceId requestId suffix ∧
        (TOPIC_SUFFIX_SYS.toList <+: suffix.1.toList →
          Returns env (getBridgeDeviceId topic) fun id => id = some deviceId) ∧
        (suffix.2 = true → "request_id=".toList ++ requestId.toList <:+ topic.toList)

/-- **No mode has its topic returned**, whatever the username, the device id and the request id. -/
theorem not_bridgeTopicAgrees (mode : BridgeDeviceType) (username deviceId requestId : String) :
    ¬BridgeTopicAgrees mode username deviceId requestId := by
  intro h
  have hreturns := h Env.plentiful Env.plentiful_allocsSucceed
  have hnone := @birdgeSetTopic_yields Env.plentiful mode username deviceId requestId
  obtain ⟨r, -, ⟨topic, suffix, hr, -⟩, hr'⟩ := (hreturns.and_yields hnone).exists_outcome
  rw [hr] at hr'
  cases hr'

/-- The login of a device. -/
theorem not_bridgeTopicAgrees_login :
    ¬∀ mode username deviceId requestId, mode ≠ .other → '/' ∉ username.toList →
      '/' ∉ deviceId.toList → deviceId ≠ "" → requestId ≠ "" →
        BridgeTopicAgrees mode username deviceId requestId := by
  intro hclaim
  have hlogin := hclaim .login "bridge" "lamp" "1" (by decide) (by decide) (by decide) (by decide)
    (by decide)
  obtain ⟨r, s', hrun, -⟩ := hlogin Env.plentiful Env.plentiful_allocsSucceed default
  cases hrun

end IotDeviceSdk.Service
