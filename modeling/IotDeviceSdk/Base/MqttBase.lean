import IotDeviceSdk.Base.HmacSha256
import IotDeviceSdk.Prog.Wlp
import IotDeviceSdk.Util.StringUtil

/-!
# `mqtt_base.c`: configuration and connection

The static variables of the file are a record, `MqttBase`; the functions run under its lock one
after the other.  What the MQTT library, the clock and the file system answer is indexed by the
number of questions asked before.

A run keeps a log: the clients it creates, the connections it attempts, and what each call of
`GetEncryptedPassword` and each of its steps returns.

The build is one without MQTT 5 and without the system log.
-/

namespace IotDeviceSdk.Base

open Prog

/-- `ENUM_MQTT_BASE_CONFIG`. -/
inductive MqttBaseConfig where
  | username | password | serverIp | serverPort | authMode | logLocalNumber | logLevel
  | keepAliveTime | connectTimeout | retryInterval | resetSecretInProgress | qos
  | privateKeyPassword | bsScopeId | bsMode | checkStamp | bsGroupSecret | bridgeMode
  deriving DecidableEq

/-- `EN_MQTT_BASE_CALLBACK_SETTING`. -/
inductive MqttBaseCallback where
  | connectSuccess | connectFailure | disconnectSuccess | disconnectFailure | connectionLost
  | publishSuccess | publishFailure | subscribeSuccess | subscribeFailure
  deriving DecidableEq

/-- `MQTT_PORT`. -/
def MQTT_PORT : String := "1883"

/-- `MQTTS_PORT`. -/
def MQTTS_PORT : String := "8883"

/-- `TCP_URL_PREFIX`. -/
def TCP_URL_PREFIX : String := "tcp://"

/-- `SSL_URL_PREFIX`. -/
def SSL_URL_PREFIX : String := "ssl://"

/-- `ENCRYPT_LENGTH`. -/
def ENCRYPT_LENGTH : ℕ := 32

/-- `PASSWORD_ENCRYPT_LENGTH`. -/
def PASSWORD_ENCRYPT_LENGTH : ℕ := 64

/-- `MQTT_SSL_VERSION_TLS_1_2`. -/
def MQTT_SSL_VERSION_TLS_1_2 : ℤ := 3

/-- `g_verifyCert`, which nothing changes. -/
def g_verifyCert : ℤ := 1

/-- `g_maxInflight`, which nothing changes. -/
def g_maxInflight : ℤ := 65535

/-- `g_sslOpts`. -/
structure SslOptions where
  trustStore : Option String := none
  enableServerCertAuth : Bool := true
  sslVersion : ℤ := 0
  keyStore : Option String := none
  privateKey : Option String := none
  privateKeyPassword : Option CharBlock := none

/-- `g_connOpts`; `ssl` says whether it points to `g_sslOpts`. -/
structure ConnectOptions where
  cleansession : ℤ := 1
  keepAliveInterval : ℤ := 60
  connectTimeout : ℤ := 30
  retryInterval : ℤ := 0
  maxInflight : ℤ := 65535
  username : Option CharBlock := none
  password : Option CharBlock := none
  ssl : Bool := false

/-- The static variables of `mqtt_base.c`; functions and clients are numbered. -/
structure MqttBase where
  g_QoS : ℤ := 1
  g_keepAliveInterval : ℤ := 120
  g_connectTimeout : ℤ := 30
  g_retryInterval : ℤ := 10
  g_serverIp : Option CharBlock := none
  g_port : Option CharBlock := none
  g_username : Option CharBlock := none
  g_password : Option CharBlock := none
  g_authMode : ℤ := 0
  g_urlPrefix : String := TCP_URL_PREFIX
  g_bsScopeId : Option CharBlock := none
  g_bsRegMode : ℤ := 0
  g_bsGroupSecret : Option CharBlock := none
  g_workDir : Option CharBlock := none
  g_initFlag : ℤ := 0
  g_checkTimestamp : ℤ := 0
  g_mqttClientCreateFlag : ℤ := 0
  g_bridgeMode : ℤ := 0
  g_caPath : Option String := none
  g_certPath : Option String := none
  g_keyPath : Option String := none
  g_privateKeyPassword : Option CharBlock := none
  g_client : Option ℕ := none
  g_encryptedPassword : Option CharBlock := none
  g_connOpts : ConnectOptions := {}
  g_sslOpts : SslOptions := {}
  callbacks : MqttBaseCallback → Option ℕ := fun _ => none
  onMessageA : Option ℕ := none

/-- An entry of the log. -/
inductive MqttEvent where
  /-- a derivation step, that is `EncryptWithHMac` or the copy of the password, returns -/
  | derivationStep (result : ℤ)
  /-- `GetEncryptedPassword` returns, and what it has assigned to `*encryptedPwd` -/
  | derived (result : ℤ) (assigned : Option CharBlock)
  /-- `MQTTAsync_createWithOptions` is called while TLS options are installed or not -/
  | create (serverURI clientId : Option String) (ssl : Bool)
  /-- `MQTTAsync_connect` is called -/
  | connect (client : Option ℕ) (options : ConnectOptions)

/-- The outside world of the client, by the number of questions asked before. -/
structure MqttEnv where
  sdk : Env
  hmacs : Hmacs
  /-- `gmtime` of the time it is -/
  gmtime : ℕ → Option Tm
  /-- whether `access` finds a path -/
  access : ℕ → String → Bool
  /-- `MQTTAsync_createWithOptions`: its result, and the handle afterwards -/
  create : ℕ → ℤ × Option ℕ
  /-- `MQTTAsync_connect` -/
  connect : ℕ → ℤ
  /-- `MQTTAsync_isConnected` -/
  isConnected : ℕ → Bool
  /-- `MQTTAsync_disconnect` -/
  disconnect : ℕ → ℤ

/-- The state of a run. -/
structure MqttState where
  base : MqttBase := {}
  cursor : Cursor := ⟨0, 0⟩
  questions : ℕ := 0
  log : List MqttEvent := []

/-- Code of the client. -/
abbrev Mqtt (α : Type) : Type := Prog MqttEnv MqttState α

/-- Code of the SDK as a part of the client. -/
def sdk {α : Type} (p : Sdk α) : Mqtt α := fun env s =>
  (p env.sdk s.cursor).map fun r => (r.1, { s with cursor := r.2 })

/-- Ask the outside world. -/
def question {α : Type} (q : MqttEnv → ℕ → α) : Mqtt α := fun env s =>
  some (q env s.questions, { s with questions := s.questions + 1 })

/-- The static variables. -/
def globals : Mqtt MqttBase := do return (← get).base

/-- Assign to static variables. -/
def assign (f : MqttBase → MqttBase) : Mqtt PUnit := modify fun s => { s with base := f s.base }

/-- Add to the log. -/
def observe (event : MqttEvent) : Mqtt PUnit := modify fun s => { s with log := s.log ++ [event] }

/-! ### The password -/

/-- `StringLength` of a block. -/
def blockLength (block : Option CharBlock) : ℤ :=
  match block with
  | none => 0
  | some block => block.text.length

/-- What `GetEncryptedPassword` returns, `*timestamp` afterwards, and what it has assigned to
`*encryptedPwd`, if it has. -/
structure PasswordRun where
  result : ℤ
  timestamp : Option CharBlock
  assigned : Option CharBlock

/-- The rest of the `do` block of `GetEncryptedPassword` once the secret is in `tempPwd`; `result`
is its `returnValue`. -/
def encryptPassword (tempPwd timestamp : Option CharBlock) : Mqtt PasswordRun := do
  let g ← globals
  let encryption ← ofOption <| encryptWithHMac (← read).hmacs tempPwd timestamp ENCRYPT_LENGTH true
    g.g_checkTimestamp
  observe (.derivationStep encryption.result)
  let timestamp := encryption.inputKey
  if encryption.result ≠ IOTA_SUCCESS then
    return { result := IOTA_SECRET_ENCRYPT_FAILED, timestamp := timestamp, assigned := none }
  assign fun g => { g with g_encryptedPassword := none }
  let (ret, encryptedPwd) ← sdk <|
    copyStrValue none encryption.outData PASSWORD_ENCRYPT_LENGTH
  observe (.derivationStep ret)
  assign fun g => { g with g_encryptedPassword := encryptedPwd }
  if ret < 0 then return { result := IOTA_FAILURE, timestamp := timestamp, assigned := none }
  return { result := IOTA_SUCCESS, timestamp := timestamp, assigned := encryptedPwd }

/-- The `do` block of `GetEncryptedPassword`; `result` is its `returnValue`. -/
def derivePassword (tempPwd timestamp : Option CharBlock) : Mqtt PasswordRun := do
  let g ← globals
  if g.g_bsRegMode ≠ 0 then
    let bsTempEncryptedPwd ← sdk malloc
    let encryption ← ofOption <| encryptWithHMac (← read).hmacs g.g_bsGroupSecret g.g_username
      ENCRYPT_LENGTH bsTempEncryptedPwd g.g_checkTimestamp
    observe (.derivationStep encryption.result)
    -- the key is `g_username` itself
    assign fun g => { g with g_username := encryption.inputKey }
    if encryption.result ≠ IOTA_SUCCESS then
      return { result := IOTA_SECRET_ENCRYPT_FAILED, timestamp := timestamp, assigned := none }
    encryptPassword encryption.outData timestamp
  else encryptPassword tempPwd timestamp

/-- `GetEncryptedPassword` with `encryptedPwd` the address of `g_encryptedPassword`. -/
def getEncryptedPassword (timestamp : Option CharBlock) : Mqtt PasswordRun := do
  let g ← globals
  if g.g_password = none ∧ g.g_bsGroupSecret = none then
    return { result := IOTA_PARAMETER_EMPTY, timestamp := timestamp, assigned := none }
  let (ret, tempPwd) ← sdk (copyStrValue none g.g_password (blockLength g.g_password))
  if ret < 0 then return { result := IOTA_FAILURE, timestamp := timestamp, assigned := none }
  let tempEncryptedPwd ← sdk malloc
  if !tempEncryptedPwd then
    return { result := IOTA_FAILURE, timestamp := timestamp, assigned := none }
  let run ← derivePassword tempPwd timestamp
  -- `returnValue` is not what is returned
  return { run with result := IOTA_SUCCESS }

/-! ### Initialisation and configuration -/

/-- `MqttBase_init`. -/
def mqttBaseInit (workPath : Option CharBlock) : Mqtt ℤ := do
  assign fun g => { g with
    g_serverIp := none
    g_port := none
    g_username := none
    g_password := none
    g_client := none
    g_bsScopeId := none
    g_authMode := 0
    g_bsRegMode := 0
    g_privateKeyPassword := none }
  if (← globals).g_initFlag ≠ 0 then return IOTA_INITIALIZATION_REPEATED
  let some path := workPath
    | return IOTA_PARAMETER_EMPTY
  if !(← question fun env i => env.access i path.string) then return IOTA_RESOURCE_NOT_AVAILABLE
  assign fun g => { g with g_initFlag := 1 }
  let (ret, g_workDir) ← sdk <|
    copyStrValue (← globals).g_workDir workPath (blockLength workPath)
  assign fun g => { g with g_workDir := g_workDir }
  if ret < 0 then return IOTA_FAILURE
  let g_caPath ← sdk <|
    combineStrings (g_workDir.map CharBlock.string) [some "/conf/rootcert.pem"]
  assign fun g => { g with g_caPath := g_caPath }
  return IOTA_SUCCESS

/-- Whether `StrInStr` finds a text in a block. -/
def strInBlock (block : Option CharBlock) (subStr : String) : Bool :=
  (strInStr (block.map CharBlock.string) (some subStr)).isSome

/-- `MqttBase_SetPort`. -/
def mqttBaseSetPort (value : CharBlock) (valueLen : ℤ) : Mqtt PUnit := do
  let (_, g_port) ← sdk (copyStrValue none value valueLen)
  assign fun g => { g with
    g_port := g_port
    g_urlPrefix := if strInBlock g_port MQTT_PORT then TCP_URL_PREFIX else SSL_URL_PREFIX }

/-- `atoi`. -/
def atoi (value : CharBlock) : ℤ := cInt (strtol value.bytes)

/-- A new text for a static variable, which is freed before. -/
def setText (value : CharBlock) (set : Option CharBlock → MqttBase → MqttBase) : Mqtt PUnit := do
  let (_, text) ← sdk (copyStrValue none value (blockLength value))
  assign (set text)

/-- `MqttBase_SetConfig`; the item is `none` when it is not in the enumeration. -/
def mqttBaseSetConfig (item : Option MqttBaseConfig) (value : Option CharBlock) : Mqtt ℤ := do
  let some value := value
    | return IOTA_PARAMETER_EMPTY
  let some item := item
    | return IOTA_RESOURCE_NOT_AVAILABLE
  match item with
  | .serverIp => setText value fun text g => { g with g_serverIp := text }
  | .serverPort => mqttBaseSetPort value (blockLength value)
  | .username => setText value fun text g => { g with g_username := text }
  | .password => setText value fun text g => { g with g_password := text }
  | .authMode => assign fun g => { g with g_authMode := atoi value }
  | .logLocalNumber => pure ⟨⟩
  | .logLevel => pure ⟨⟩
  | .keepAliveTime =>
    if 0 < atoi value then assign fun g => { g with g_keepAliveInterval := atoi value }
  | .connectTimeout =>
    if 0 < atoi value then assign fun g => { g with g_connectTimeout := atoi value }
  | .retryInterval =>
    if 0 < atoi value then assign fun g => { g with g_retryInterval := atoi value }
  | .resetSecretInProgress => assign fun g => { g with g_mqttClientCreateFlag := atoi value }
  | .qos => assign fun g => { g with g_QoS := atoi value }
  | .privateKeyPassword => setText value fun text g => { g with g_privateKeyPassword := text }
  | .bsScopeId => setText value fun text g => { g with g_bsScopeId := text }
  | .bsMode => assign fun g => { g with g_bsRegMode := atoi value }
  | .checkStamp => assign fun g => { g with g_checkTimestamp := atoi value }
  | .bsGroupSecret =>
    let valueDecode ← sdk (base64Decode value)
    let (_, text) ← sdk (copyStrValue none valueDecode (blockLength value))
    assign fun g => { g with g_bsGroupSecret := text }
  | .bridgeMode => assign fun g => { g with g_bridgeMode := atoi value }
  return IOTA_SUCCESS

/-- `MqttBase_SetCallback`. -/
def mqttBaseSetCallback (item : Option MqttBaseCallback) (handler : Option ℕ) : Mqtt PUnit :=
  match item with
  | none => pure ⟨⟩
  | some item => assign fun g => { g with callbacks := Function.update g.callbacks item handler }

/-- `MqttBase_SetMessageArrivedCallback`. -/
def mqttBaseSetMessageArrivedCallback (handler : Option ℕ) : Mqtt PUnit :=
  assign fun g => { g with onMessageA := handler }

/-! ### Connecting -/

/-- Whether `access` finds a path; it does not find `NULL`. -/
def accessible (path : Option String) : Mqtt Bool :=
  question fun env i => (path.map (env.access i)).getD false

/-- `tempAuthMode` of `MqttBase_CreateConnection`. -/
def tempAuthMode (g : MqttBase) : CharBlock :=
  let mode : UInt8 := if g.g_bridgeMode ≠ 0 then 51 else 48
  ⟨[95, mode, 95, UInt8.ofInt (48 + g.g_checkTimestamp), 95, 0], by simp⟩

/-- `MqttBase_getClientId`. -/
def mqttBaseGetClientId (g : MqttBase) (authMode : CharBlock) (loginTimestamp : Option CharBlock) :
    Sdk (Option String) :=
  let username := g.g_username.map CharBlock.string
  let bsScopeId := g.g_bsScopeId.map CharBlock.string
  let timestamp := loginTimestamp.map CharBlock.string
  if g.g_bsRegMode ≠ 0 then
    if g.g_authMode ≠ 0 then combineStrings username [some "_0_", bsScopeId]
    else
      let temp : CharBlock := ⟨[95, UInt8.ofInt (g.g_checkTimestamp + 48), 95, 0], by simp⟩
      combineStrings username [some "_0_", bsScopeId, some temp.string, timestamp]
  else combineStrings username [some authMode.string, timestamp]

/-- The part of `MqttBase_setSslOpts` about the certificate of the device. -/
def setKeyStore : Mqtt ℤ := do
  let g ← globals
  if g.g_authMode ≠ 0 then
    if !(← accessible g.g_certPath) then return IOTA_CERTIFICATE_NOT_FOUND
    if !(← accessible g.g_keyPath) then return IOTA_CERTIFICATE_NOT_FOUND
    assign fun g => { g with g_sslOpts := { g.g_sslOpts with
      keyStore := g.g_certPath
      privateKey := g.g_keyPath
      privateKeyPassword := g.g_privateKeyPassword } }
    return IOTA_SUCCESS
  else return IOTA_SUCCESS

/-- `MqttBase_setSslOpts`. -/
def mqttBaseSetSslOpts : Mqtt ℤ := do
  let g ← globals
  if g_verifyCert = 0 then
    assign fun g => { g with g_sslOpts := { g.g_sslOpts with
      trustStore := none
      enableServerCertAuth := false
      sslVersion := MQTT_SSL_VERSION_TLS_1_2 } }
    setKeyStore
  else
    if !(← accessible g.g_caPath) then return IOTA_CERTIFICATE_NOT_FOUND
    assign fun g => { g with g_sslOpts := { g.g_sslOpts with
      trustStore := g.g_caPath
      enableServerCertAuth := true
      sslVersion := MQTT_SSL_VERSION_TLS_1_2 } }
    setKeyStore

/-- The part of `MqttBase_setConnOptsByClientCreate` about TLS. -/
def installSslOpts : Mqtt ℤ := do
  let g ← globals
  if strInBlock g.g_port MQTTS_PORT then
    let ret ← mqttBaseSetSslOpts
    if ret < 0 then return ret
    assign fun g => { g with g_connOpts := { g.g_connOpts with ssl := true } }
    return IOTA_SUCCESS
  else return IOTA_SUCCESS

/-- `MqttBase_setConnOptsByClientCreate`: its result, and the text of the time afterwards. -/
def mqttBaseSetConnOptsByClientCreate (loginTimestamp : Option CharBlock) :
    Mqtt (ℤ × Option CharBlock) := do
  assign fun g => { g with g_connOpts := { g.g_connOpts with
    cleansession := 1
    keepAliveInterval := g.g_keepAliveInterval
    connectTimeout := g.g_connectTimeout
    retryInterval := g.g_retryInterval
    maxInflight :=
      if 0 < g_maxInflight ∧ g_maxInflight < 65536 then g_maxInflight
      else g.g_connOpts.maxInflight } }
  if (← globals).g_authMode = 0 then
    let run ← getEncryptedPassword loginTimestamp
    observe (.derived run.result run.assigned)
    if run.result ≠ IOTA_SUCCESS then return (IOTA_SECRET_ENCRYPT_FAILED, run.timestamp)
    return (← installSslOpts, run.timestamp)
  else return (← installSslOpts, loginTimestamp)

/-- The creation of the client in `MqttBase_CreateConnection`: what it returns when it does not go
on. -/
def createClient : Mqtt (Option ℤ) := do
  let g ← globals
  if g.g_serverIp = none ∨ g.g_port = none ∨ g.g_username = none then
    return some IOTA_PARAMETER_EMPTY
  let loginTimestamp ← sdk (getClientTimesStamp (← question MqttEnv.gmtime))
  let (ret, loginTimestamp) ← mqttBaseSetConnOptsByClientCreate loginTimestamp
  if ret < 0 then return some ret
  let g ← globals
  let serverAddress ← sdk <| combineStrings (some g.g_urlPrefix)
    [g.g_serverIp.map CharBlock.string, some ":", g.g_port.map CharBlock.string]
  let clientId ← sdk (mqttBaseGetClientId g (tempAuthMode g) loginTimestamp)
  observe (.create serverAddress clientId g.g_connOpts.ssl)
  let (createRet, client) ← question MqttEnv.create
  assign fun g => { g with
    g_client := client
    g_mqttClientCreateFlag := if createRet = 0 then 1 else g.g_mqttClientCreateFlag }
  return none

/-- The call of `MQTTAsync_connect` in `MqttBase_CreateConnection`. -/
def connectWithOptions : Mqtt ℤ := do
  let g ← globals
  observe (.connect g.g_client g.g_connOpts)
  let ret ← question MqttEnv.connect
  if ret ≠ 0 then return IOTA_MQTT_CONNECT_FAILED
  return IOTA_SUCCESS

/-- The rest of `MqttBase_CreateConnection`, once there is a client. -/
def connectClient : Mqtt ℤ := do
  let g ← globals
  let (ret, tempUsername) ← sdk (copyStrValue none g.g_username (blockLength g.g_username))
  if ret < 0 then return IOTA_FAILURE
  assign fun g => { g with g_connOpts := { g.g_connOpts with username := tempUsername } }
  if g.g_authMode = 0 then
    let (ret, tempPwd) ← sdk (copyStrValue none g.g_encryptedPassword PASSWORD_ENCRYPT_LENGTH)
    if ret < 0 then return IOTA_FAILURE
    assign fun g => { g with g_connOpts := { g.g_connOpts with password := tempPwd } }
    connectWithOptions
  else connectWithOptions

/-- The paths of the certificate and of the key of the device. -/
def setCertPaths : Mqtt PUnit := do
  let g ← globals
  let workDir := g.g_workDir.map CharBlock.string
  let g_certPath ← sdk (combineStrings workDir [some "/conf/deviceCert.pem"])
  let g_keyPath ← sdk (combineStrings workDir [some "/conf/deviceCert.key"])
  assign fun g => { g with g_certPath := g_certPath, g_keyPath := g_keyPath }

/-- `MqttBase_CreateConnection`. -/
def mqttBaseCreateConnection : Mqtt ℤ := do
  let g ← globals
  if g.g_workDir = none then return IOTA_FAILURE
  if g.g_authMode ≠ 0 then setCertPaths
  if g.g_mqttClientCreateFlag = 0 then
    match ← createClient with
    | some ret => return ret
    | none => connectClient
  else connectClient

/-- `MqttBase_ReleaseConnection`. -/
def mqttBaseReleaseConnection : Mqtt ℤ := do
  let ret ← question MqttEnv.disconnect
  if ret ≠ 0 then return IOTA_MQTT_DISCONNECT_FAILED
  return IOTA_SUCCESS

/-- `MqttBase_destory`. -/
def mqttBaseDestory : Mqtt ℤ := do
  let g ← globals
  if g.g_client ≠ none then
    if ← question MqttEnv.isConnected then
      let _ ← mqttBaseReleaseConnection
  assign fun g => { g with
    g_initFlag := 0
    g_bsRegMode := 0
    g_bridgeMode := 0
    g_serverIp := none
    g_port := none
    g_username := none
    g_password := none
    g_workDir := none
    g_encryptedPassword := none
    g_caPath := none
    g_bsScopeId := none
    g_bsGroupSecret := none
    g_certPath := if g.g_authMode ≠ 0 then none else g.g_certPath
    g_keyPath := if g.g_authMode ≠ 0 then none else g.g_keyPath
    g_privateKeyPassword := none
    g_mqttClientCreateFlag := 0
    g_client := none }
  return IOTA_SUCCESS

/-! ### Primitive steps -/

section

variable {env : MqttEnv} {s : MqttState}

@[simp] theorem wlp_sdk {α : Type} {p : Sdk α} {Q : α → MqttState → Prop} :
    Wlp env (sdk p) Q s ↔ Wlp env.sdk p (fun a c => Q a { s with cursor := c }) s.cursor := by
  constructor
  · intro h a c hp
    apply h
    show (p env.sdk s.cursor).map _ = _
    rw [hp]
    rfl
  · intro h a s' hp
    obtain ⟨⟨b, c⟩, hb, heq⟩ := Option.map_eq_some_iff.mp hp
    obtain ⟨rfl, rfl⟩ := Prod.mk.inj heq
    exact h b c hb

@[simp] theorem wlp_question {α : Type} {q : MqttEnv → ℕ → α} {Q : α → MqttState → Prop} :
    Wlp env (question q) Q s ↔
      Q (q env s.questions) { s with questions := s.questions + 1 } := by
  constructor
  · exact fun h => h _ _ rfl
  · rintro h a s' hs'
    obtain ⟨rfl, rfl⟩ := Prod.mk.inj (Option.some.inj hs')
    exact h

@[simp] theorem wlp_globals {Q : MqttBase → MqttState → Prop} :
    Wlp env globals Q s ↔ Q s.base s := by
  simp only [globals, wlp_bind, wlp_get, wlp_pure]

@[simp] theorem wlp_assign {f : MqttBase → MqttBase} {Q : PUnit → MqttState → Prop} :
    Wlp env (assign f) Q s ↔ Q ⟨⟩ { s with base := f s.base } :=
  wlp_modify

@[simp] theorem wlp_observe {event : MqttEvent} {Q : PUnit → MqttState → Prop} :
    Wlp env (observe event) Q s ↔ Q ⟨⟩ { s with log := s.log ++ [event] } :=
  wlp_modify

end

end IotDeviceSdk.Base
