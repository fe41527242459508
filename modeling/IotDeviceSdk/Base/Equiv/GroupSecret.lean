import IotDeviceSdk.Base.Equiv.Base64
import IotDeviceSdk.Base.Equiv.EncryptedPassword

/-!
# The group secret

`MqttBase_SetConfig` decodes the group secret and copies it as a text, and `GetEncryptedPassword`
computes the bootstrap `HMAC` over that text (`BootstrapOver`).

* `mqttBaseSetConfig_groupSecret`: the text is the secret up to its first zero byte.
* `groupSecret_used_iff`: it is the secret exactly when there is no zero byte in it.

What `base64_decode` writes behind its block when the text ends in `==`
(`base64DecodeBlock_defined_iff`) is left aside here.
-/

namespace IotDeviceSdk.Base

open Prog Base64

variable {env : MqttEnv} {s s' : MqttState}

/-! ### The data of `HMAC` -/

/-- `HMAC` is asked about the text of `inputData` only. -/
theorem tryKeys_congr {hmac hmac' : Hmac} {data : List UInt8}
    (hagree : ∀ key, hmac.digest key data = hmac'.digest key data) (tries : ℕ) (timeTmp : ℤ)
    (inputKey : CharBlock) (temp : List UInt8) :
    tryKeys hmac data tries timeTmp inputKey temp =
      tryKeys hmac' data tries timeTmp inputKey temp := by
  induction tries generalizing timeTmp inputKey temp with
  | zero => rw [tryKeys, tryKeys]
  | succ tries ih => simp only [tryKeys, hagree, ih]

theorem encryptWithHMac_congr {hmacs hmacs' : Hmacs} {inputData : CharBlock} {checkTimestamp : ℤ}
    (hagree : ∀ key, (hmacs.select checkTimestamp).digest key inputData.text =
      (hmacs'.select checkTimestamp).digest key inputData.text)
    (inputKey : Option CharBlock) (inEncryDataLen : ℕ) (outData : Bool) :
    encryptWithHMac hmacs (some inputData) inputKey inEncryDataLen outData checkTimestamp =
      encryptWithHMac hmacs' (some inputData) inputKey inEncryDataLen outData checkTimestamp := by
  unfold encryptWithHMac
  cases inputKey with
  | none => rfl
  | some inputKey =>
    -- the digests are asked for in the loop and before it
    cases outData with
    | false => rfl
    | true => simp only [hagree, tryKeys_congr hagree]

/-- The text that `GetEncryptedPassword` derives in group mode is the digest of a digest of
`data`. -/
theorem getEncryptedPassword_bootstrap {timestamp : Option CharBlock} {run : PasswordRun}
    (hrun : getEncryptedPassword timestamp env s = some (run, s')) (hmode : s.base.g_bsRegMode ≠ 0)
    (hassigned : run.assigned ≠ none) :
    ∃ user user' j secret, s.base.g_username = some user ∧ s'.base.g_username = some user' ∧
      IsEncryption (env.hmacs.select s.base.g_checkTimestamp) s.base.g_checkTimestamp
        (textOf s.base.g_bsGroupSecret) user user' j secret := by
  obtain ⟨stamp, stamp', k, -, -, hderivation⟩ :=
    getEncryptedPassword_assigned timestamp run s' hrun hassigned
  cases hderivation with
  | device hdevice => exact absurd hdevice hmode
  | @group user user' j secret _ huser huser' hencryption =>
    exact ⟨user, user', j, secret, huser, huser', hencryption⟩

/-- **The bootstrap `HMAC` is computed over `data`** when `GetEncryptedPassword` runs from a state:
`EncryptWithHMac` gets a text of these bytes, its result depends on their digests only, and the
secret that is derived is one of these digests. -/
structure BootstrapOver (env : MqttEnv) (s : MqttState) (data : List UInt8) : Prop where
  inputData : s.base.g_bsGroupSecret.map CharBlock.text = some data
  digests : ∀ hmacs hmacs' : Hmacs,
    (∀ key, (hmacs.select s.base.g_checkTimestamp).digest key data =
      (hmacs'.select s.base.g_checkTimestamp).digest key data) →
    ∀ outData, encryptWithHMac hmacs s.base.g_bsGroupSecret s.base.g_username ENCRYPT_LENGTH outData
        s.base.g_checkTimestamp =
      encryptWithHMac hmacs' s.base.g_bsGroupSecret s.base.g_username ENCRYPT_LENGTH outData
        s.base.g_checkTimestamp
  derivation : ∀ timestamp run s', getEncryptedPassword timestamp env s = some (run, s') →
    s.base.g_bsRegMode ≠ 0 → run.assigned ≠ none →
    ∃ user user' j secret, s.base.g_username = some user ∧ s'.base.g_username = some user' ∧
      IsEncryption (env.hmacs.select s.base.g_checkTimestamp) s.base.g_checkTimestamp data user
        user'
        j secret

theorem bootstrapOver_iff {data : List UInt8} :
    BootstrapOver env s data ↔ s.base.g_bsGroupSecret.map CharBlock.text = some data := by
  refine ⟨BootstrapOver.inputData, fun h => ⟨h, fun hmacs hmacs' hagree outData => ?_, ?_⟩⟩
  · obtain ⟨secret, hsecret, rfl⟩ := Option.map_eq_some_iff.mp h
    rw [hsecret]
    exact encryptWithHMac_congr hagree _ _ _
  · intro timestamp run s' hrun hmode hassigned
    have hdata : textOf s.base.g_bsGroupSecret = data := by rw [textOf, h, Option.getD_some]
    exact hdata ▸ getEncryptedPassword_bootstrap hrun hmode hassigned

/-! ### The configuration -/

theorem length_cString_le_encode (bytes : List UInt8) :
    (cString bytes).length ≤ (encode bytes).length := by
  have hle : (cString bytes).length ≤ bytes.length := (List.takeWhile_sublist _).length_le
  rw [length_encode]
  omega

/-- A terminator behind the bytes does not change their text. -/
theorem cString_concat_zero (bytes : List UInt8) : cString (bytes ++ [0]) = cString bytes := by
  unfold cString
  induction bytes with
  | nil => rfl
  | cons b bytes ih => rw [List.cons_append, List.takeWhile_cons, List.takeWhile_cons, ih]

/-- A text is its bytes when there is no zero byte in them. -/
theorem cString_eq_self_iff {bytes : List UInt8} : cString bytes = bytes ↔ 0 ∉ bytes :=
  ⟨fun h => h ▸ zero_not_mem_cString bytes, cString_of_zero_not_mem⟩

/-- A function of the SDK that is defined, as a part of the client. -/
theorem sdk_apply {α : Type} {p : Sdk α} {Q : α → Prop} (h : Returns env.sdk p Q) (s : MqttState) :
    ∃ a c, sdk p env s = some (a, { s with cursor := c }) ∧ Q a := by
  obtain ⟨a, c, hp, ha⟩ := h s.cursor
  refine ⟨a, c, ?_, ha⟩
  unfold sdk
  rw [hp]
  rfl

/-- **The configured secret** is the secret up to its first zero byte. -/
theorem mqttBaseSetConfig_groupSecret {secret : List UInt8} (hne : secret ≠ []) {value : CharBlock}
    (hvalue : value.text = encode secret) (env : MqttEnv) (s : MqttState) :
    ∃ s', mqttBaseSetConfig (some .bsGroupSecret) (some value) env s = some (IOTA_SUCCESS, s') ∧
      (env.sdk.AllocsSucceed → s'.base.g_bsGroupSecret ≠ none) ∧
      ∀ block, s'.base.g_bsGroupSecret = some block → block.text = cString secret := by
  have hpos : 0 < blockLength (some value) := by
    have hlength := List.length_pos_iff.mpr hne
    rw [blockLength, hvalue, length_encode]
    omega
  obtain ⟨decoded, c, hdecode, hdecoded, hsome⟩ :=
    sdk_apply (base64Decode_encode hne hvalue) s
  -- the copy is as long as the encoding, and stops at the first zero of the secret
  obtain ⟨⟨ret, text⟩, c', hcopy, hcopied, hcopySome⟩ :=
    sdk_apply (copyStrValue_returns none decoded (blockLength (some value))) { s with cursor := c }
  refine ⟨{ s with cursor := c', base := { s.base with g_bsGroupSecret := text } }, ?_, ?_, ?_⟩
  · show (sdk (base64Decode value) >>= _ : Mqtt ℤ) env s = _
    rw [bind_apply, hdecode, Option.bind_some, bind_apply, hcopy]
    rfl
  · exact fun hA => hcopySome hA hpos (hsome hA)
  · rintro block rfl
    obtain ⟨source, hsource, htext⟩ := hcopied.text_eq hpos rfl
    have hzero : source.text = cString secret := by
      rw [CharBlock.text, hdecoded source hsource, cString_concat_zero]
    rw [htext, hzero, List.take_of_length_le]
    have hle := length_cString_le_encode secret
    rw [← hvalue] at hle
    exact hle

/-- **A configured group secret is used unchanged** exactly when it has no zero byte, as far as the
write behind the block for a text that ends in `==` harms nothing. -/
theorem groupSecret_used_iff {secret : List UInt8} (hne : secret ≠ []) {value : CharBlock}
    (hvalue : value.text = encode secret) {r : ℤ}
    (hrun : mqttBaseSetConfig (some .bsGroupSecret) (some value) env s = some (r, s'))
    (hset : s'.base.g_bsGroupSecret ≠ none) :
    BootstrapOver env s' secret ↔ 0 ∉ secret := by
  obtain ⟨s'', hrun', -, htext⟩ := mqttBaseSetConfig_groupSecret hne hvalue env s
  obtain ⟨-, rfl⟩ := Prod.mk.inj (Option.some.inj (hrun.symm.trans hrun'))
  obtain ⟨block, hblock⟩ := Option.ne_none_iff_exists'.mp hset
  rw [bootstrapOver_iff, hblock, Option.map_some, htext block hblock, Option.some_inj]
  exact cString_eq_self_iff

theorem sampleMqttEnv_allocsSucceed : sampleMqttEnv.sdk.AllocsSucceed := fun _ => rfl

/-- A secret without a zero byte. -/
theorem groupSecret_used_abc : ∃ s',
    mqttBaseSetConfig (some .bsGroupSecret) (some (.ofBytes (ascii "YWJj"))) sampleMqttEnv {} =
      some (IOTA_SUCCESS, s') ∧ BootstrapOver sampleMqttEnv s' (ascii "abc") := by
  have hne : ascii "abc" ≠ [] := by decide
  have hvalue : (CharBlock.ofBytes (ascii "YWJj")).text = encode (ascii "abc") := by decide +kernel
  obtain ⟨s', hrun, hsome, -⟩ := mqttBaseSetConfig_groupSecret hne hvalue sampleMqttEnv {}
  refine ⟨s', hrun, (groupSecret_used_iff hne hvalue hrun ?_).mpr (by decide)⟩
  exact hsome sampleMqttEnv_allocsSucceed

/-- A secret that is a zero byte is used as the empty text. -/
theorem groupSecret_used_zero_false :
    ¬∀ (secret : List UInt8) (value : CharBlock) (env : MqttEnv) (s s' : MqttState) (r : ℤ),
      secret ≠ [] → value.text = encode secret →
      mqttBaseSetConfig (some .bsGroupSecret) (some value) env s = some (r, s') →
      s'.base.g_bsGroupSecret ≠ none → BootstrapOver env s' secret := by
  intro h
  have hne : ([0] : List UInt8) ≠ [] := by decide
  have hvalue : (CharBlock.ofBytes (ascii "AA==")).text = encode [0] := by decide +kernel
  obtain ⟨s', hrun, hsome, htext⟩ := mqttBaseSetConfig_groupSecret hne hvalue sampleMqttEnv {}
  have hset := hsome sampleMqttEnv_allocsSucceed
  obtain ⟨block, hblock⟩ := Option.ne_none_iff_exists'.mp hset
  have hinput := (h _ _ _ _ _ _ hne hvalue hrun hset).inputData
  rw [hblock, Option.map_some, htext block hblock] at hinput
  exact absurd hinput (by decide)

end IotDeviceSdk.Base
