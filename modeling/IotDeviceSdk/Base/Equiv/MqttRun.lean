import IotDeviceSdk.Base.MqttBase
import IotDeviceSdk.Prog.Run

/-!
# Runs of the MQTT client

What the operations of `mqtt_base.c` do to the static variables and to the log, one lemma for each
function (`getEncryptedPassword_wlp`, `installSslOpts_wlp`, `createClient_wlp`,
`connectClient_wlp`).
-/

namespace IotDeviceSdk.Base

open Prog

/-- The operations of the client. -/
inductive MqttOp where
  | init (workPath : Option CharBlock)
  | setConfig (item : Option MqttBaseConfig) (value : Option CharBlock)
  | setCallback (item : Option MqttBaseCallback) (handler : Option ℕ)
  | setMessageArrivedCallback (handler : Option ℕ)
  | createConnection
  | releaseConnection
  | destory

/-- An operation, without its result. -/
def MqttOp.run : MqttOp → Mqtt PUnit
  | .init workPath => do let _ ← mqttBaseInit workPath
  | .setConfig item value => do let _ ← mqttBaseSetConfig item value
  | .setCallback item handler => mqttBaseSetCallback item handler
  | .setMessageArrivedCallback handler => mqttBaseSetMessageArrivedCallback handler
  | .createConnection => do let _ ← mqttBaseCreateConnection
  | .releaseConnection => do let _ ← mqttBaseReleaseConnection
  | .destory => do let _ ← mqttBaseDestory

/-- The state after an operation. -/
def MqttOp.next (env : MqttEnv) (op : MqttOp) (s : MqttState) : Option MqttState :=
  (op.run env s).map Prod.snd

/-- The steps of the client. -/
def mqttStep (env : MqttEnv) (s : MqttState) (op : MqttOp) (s' : MqttState) : Prop :=
  op.next env s = some s'

variable {env : MqttEnv} {s : MqttState}

/-- What connecting never changes. -/
structure Untouched (g g' : MqttBase) : Prop where
  port_eq : g'.g_port = g.g_port
  urlPrefix_eq : g'.g_urlPrefix = g.g_urlPrefix
  authMode_eq : g'.g_authMode = g.g_authMode

theorem Untouched.after {g₁ g₂ g₃ : MqttBase} (h : Untouched g₂ g₃) (hfirst : Untouched g₁ g₂) :
    Untouched g₁ g₃ :=
  ⟨h.port_eq.trans hfirst.port_eq, h.urlPrefix_eq.trans hfirst.urlPrefix_eq,
    h.authMode_eq.trans hfirst.authMode_eq⟩

/-! ### The password -/

/-- The steps of a derivation, what `g_encryptedPassword` is afterwards and what is assigned to it.
-/
inductive DerivedBy (results : List ℤ) (pwd assigned : Option CharBlock) : Prop where
  | succeeded {p : CharBlock} (results_eq : ∀ r ∈ results, r = IOTA_SUCCESS) (pwd_eq : pwd = some p)
    (assigned_eq : assigned = some p) (length_le : p.text.length ≤ PASSWORD_ENCRYPT_LENGTH)
  | failed (results_ne : ∃ r ∈ results, r ≠ IOTA_SUCCESS) (assigned_eq : assigned = none)

/-- A derivation with these steps, from one state to another. -/
structure Derivation (s s' : MqttState) (results : List ℤ) (assigned : Option CharBlock) :
    Prop where
  untouched : Untouched s.base s'.base
  connOpts_eq : s'.base.g_connOpts = s.base.g_connOpts
  log_eq : s'.log = s.log ++ results.map .derivationStep
  derivedBy : DerivedBy results s'.base.g_encryptedPassword assigned

theorem encryptPassword_wlp (tempPwd timestamp : Option CharBlock) :
    Wlp env (encryptPassword tempPwd timestamp)
      (fun run s' => ∃ results, Derivation s s' results run.assigned) s := by
  unfold encryptPassword
  simp only [wlp_bind, wlp_globals, wlp_read, wlp_ofOption, wlp_observe, wlp_ite, wlp_assign,
    wlp_pure, wlp_sdk]
  intro encryption _
  constructor
  · intro hne
    exact ⟨[encryption.result], ⟨rfl, rfl, rfl⟩, rfl, rfl, .failed ⟨_, by simp, hne⟩ rfl⟩
  · intro hresult
    refine (copyStrValue_wlp _ _ _).mono fun r c hr => ?_
    have hlog : s.log ++ [.derivationStep encryption.result] ++ [.derivationStep r.1] =
        s.log ++ [encryption.result, r.1].map MqttEvent.derivationStep := by simp
    have hpos : (0 : ℤ) < PASSWORD_ENCRYPT_LENGTH := by decide
    cases hr with
    | nothing hle => omega
    | failed =>
      exact ⟨fun _ => ⟨_, ⟨rfl, rfl, rfl⟩, rfl, hlog, .failed ⟨-1, by simp, by decide⟩ rfl⟩,
        by simp⟩
    | @copied block _ _ =>
      have htext : 0 ∉ block.text.take PASSWORD_ENCRYPT_LENGTH :=
        fun hmem => block.zero_not_mem_text (List.mem_of_mem_take hmem)
      have hlength := List.length_take_le PASSWORD_ENCRYPT_LENGTH block.text
      rw [← CharBlock.text_padded htext PASSWORD_ENCRYPT_LENGTH] at hlength
      refine ⟨by simp, fun _ => ⟨_, ⟨rfl, rfl, rfl⟩, rfl, hlog, .succeeded ?_ rfl rfl hlength⟩⟩
      simp [not_not.mp hresult, IOTA_SUCCESS]

/-- A step before a derivation. -/
theorem Derivation.after_step {s₁ s₂ : MqttState} {results : List ℤ} {assigned : Option CharBlock}
    (h : Derivation s₁ s₂ results assigned) (hbase : Untouched s.base s₁.base)
    (hconnOpts : s₁.base.g_connOpts = s.base.g_connOpts)
    (hlog : s₁.log = s.log ++ [.derivationStep IOTA_SUCCESS]) :
    Derivation s s₂ (IOTA_SUCCESS :: results) assigned where
  untouched := h.untouched.after hbase
  connOpts_eq := h.connOpts_eq.trans hconnOpts
  log_eq := by simp [h.log_eq, hlog]
  derivedBy := by
    cases h.derivedBy with
    | succeeded hresults hpwd hassigned hlength =>
      exact .succeeded (by simpa using hresults) hpwd hassigned hlength
    | failed hresults hassigned =>
      obtain ⟨r, hr, hne⟩ := hresults
      exact .failed ⟨r, by simp [hr], hne⟩ hassigned

theorem derivePassword_wlp (tempPwd timestamp : Option CharBlock) :
    Wlp env (derivePassword tempPwd timestamp)
      (fun run s' => ∃ results, Derivation s s' results run.assigned) s := by
  unfold derivePassword
  simp only [wlp_bind, wlp_globals, wlp_read, wlp_ofOption, wlp_observe, wlp_ite, wlp_assign,
    wlp_pure, wlp_sdk]
  constructor
  · intro _
    refine wlp_true fun allocated c encryption _ => ?_
    constructor
    · intro hne
      exact ⟨[encryption.result], ⟨rfl, rfl, rfl⟩, rfl, rfl, .failed ⟨_, by simp, hne⟩ rfl⟩
    · intro hresult
      rw [not_not] at hresult
      refine (encryptPassword_wlp _ _).mono fun run s' hencrypt => ?_
      obtain ⟨results, h⟩ := hencrypt
      exact ⟨_, h.after_step (⟨rfl, rfl, rfl⟩) rfl (by rw [hresult])⟩
  · exact fun _ => encryptPassword_wlp _ _

/-- What `GetEncryptedPassword` does: it is rejected and leaves everything as it was, or it derives
a password and returns `IOTA_SUCCESS`. -/
inductive PasswordOutcome (s s' : MqttState) (run : PasswordRun) : Prop where
  | rejected (result_ne : run.result ≠ IOTA_SUCCESS) (base_eq : s'.base = s.base)
    (log_eq : s'.log = s.log)
  | derived {results : List ℤ} (result_eq : run.result = IOTA_SUCCESS)
    (derivation : Derivation s s' results run.assigned)

theorem getEncryptedPassword_wlp (timestamp : Option CharBlock) :
    Wlp env (getEncryptedPassword timestamp) (fun run s' => PasswordOutcome s s' run) s := by
  have hempty : IOTA_PARAMETER_EMPTY ≠ IOTA_SUCCESS := by decide
  have hfailure : IOTA_FAILURE ≠ IOTA_SUCCESS := by decide
  unfold getEncryptedPassword
  simp only [wlp_bind, wlp_globals, wlp_ite, wlp_pure, wlp_sdk]
  constructor
  · exact fun _ => .rejected hempty rfl rfl
  · intro _
    refine (copyStrValue_wlp _ _ _).mono fun r c _ => ?_
    constructor
    · exact fun _ => .rejected hfailure rfl rfl
    · intro _
      refine wlp_true fun allocated c' => ?_
      constructor
      · exact fun _ => .rejected hfailure rfl rfl
      · intro _
        refine (derivePassword_wlp _ _).mono fun run s' hderive => ?_
        obtain ⟨results, h⟩ := hderive
        exact .derived rfl ⟨h.untouched, h.connOpts_eq, h.log_eq, h.derivedBy⟩

/-! ### TLS -/

/-- Only `g_sslOpts` is set. -/
structure SetsSslOpts (s s' : MqttState) (r : ℤ) : Prop where
  result : r = IOTA_SUCCESS ∨ r = IOTA_CERTIFICATE_NOT_FOUND
  untouched : Untouched s.base s'.base
  pwd_eq : s'.base.g_encryptedPassword = s.base.g_encryptedPassword
  connOpts_eq : s'.base.g_connOpts = s.base.g_connOpts
  log_eq : s'.log = s.log

theorem setKeyStore_wlp : Wlp env setKeyStore (fun r s' => SetsSslOpts s s' r) s := by
  unfold setKeyStore accessible
  simp only [wlp_bind, wlp_globals, wlp_ite, wlp_pure, wlp_question, wlp_assign]
  constructor
  · intro _
    constructor
    · exact fun _ => ⟨.inr rfl, ⟨rfl, rfl, rfl⟩, rfl, rfl, rfl⟩
    · intro _
      exact ⟨fun _ => ⟨.inr rfl, ⟨rfl, rfl, rfl⟩, rfl, rfl, rfl⟩,
        fun _ => ⟨.inl rfl, ⟨rfl, rfl, rfl⟩, rfl, rfl, rfl⟩⟩
  · exact fun _ => ⟨.inl rfl, ⟨rfl, rfl, rfl⟩, rfl, rfl, rfl⟩

theorem mqttBaseSetSslOpts_wlp : Wlp env mqttBaseSetSslOpts (fun r s' => SetsSslOpts s s' r) s := by
  unfold mqttBaseSetSslOpts accessible
  simp only [wlp_bind, wlp_globals, wlp_ite, wlp_pure, wlp_question, wlp_assign]
  constructor
  · intro _
    refine setKeyStore_wlp.mono fun r s' h => ?_
    exact ⟨h.result, h.untouched.after ⟨rfl, rfl, rfl⟩, h.pwd_eq, h.connOpts_eq, h.log_eq⟩
  · intro _
    constructor
    · exact fun _ => ⟨.inr rfl, ⟨rfl, rfl, rfl⟩, rfl, rfl, rfl⟩
    · intro _
      refine setKeyStore_wlp.mono fun r s' h => ?_
      exact ⟨h.result, h.untouched.after ⟨rfl, rfl, rfl⟩, h.pwd_eq, h.connOpts_eq, h.log_eq⟩

/-- Whether TLS options are installed when a client is created. -/
def sslAtCreation (g : MqttBase) : Bool := g.g_connOpts.ssl || strInBlock g.g_port MQTTS_PORT

/-- TLS options are installed for a port with `MQTTS_PORT` in it, and stay installed. -/
structure InstallsSslOpts (s s' : MqttState) (r : ℤ) : Prop where
  untouched : Untouched s.base s'.base
  pwd_eq : s'.base.g_encryptedPassword = s.base.g_encryptedPassword
  log_eq : s'.log = s.log
  ssl_eq : r < 0 ∨ s'.base.g_connOpts.ssl = sslAtCreation s.base

theorem installSslOpts_wlp : Wlp env installSslOpts (fun r s' => InstallsSslOpts s s' r) s := by
  unfold installSslOpts
  simp only [wlp_bind, wlp_globals, wlp_ite, wlp_pure, wlp_assign]
  constructor
  · intro hport
    refine mqttBaseSetSslOpts_wlp.mono fun r s' h => ?_
    constructor
    · exact fun hr => ⟨h.untouched, h.pwd_eq, h.log_eq, .inl hr⟩
    · intro _
      obtain ⟨hportEq, hprefix, hauth⟩ := h.untouched
      exact ⟨⟨hportEq, hprefix, hauth⟩, h.pwd_eq, h.log_eq, .inr (by simp [sslAtCreation, hport])⟩
  · intro hport
    exact ⟨⟨rfl, rfl, rfl⟩, rfl, rfl, .inr (by simp [sslAtCreation, hport])⟩

/-! ### Creating a client -/

/-- What is logged about the password, and what `g_encryptedPassword` is before and after. -/
inductive PasswordEvents (old pwd : Option CharBlock) : List MqttEvent → Prop where
  | nothing : pwd = old → PasswordEvents old pwd []
  | rejected {result : ℤ} {assigned : Option CharBlock} : result ≠ IOTA_SUCCESS → pwd = old →
    PasswordEvents old pwd [.derived result assigned]
  | derived {results : List ℤ} {assigned : Option CharBlock} : DerivedBy results pwd assigned →
    PasswordEvents old pwd (results.map .derivationStep ++ [.derived IOTA_SUCCESS assigned])

/-- What the preparation of a connection leaves of the static variables and adds to the log. -/
structure SetsConnOpts (s s' : MqttState) (r : ℤ) (events : List MqttEvent) : Prop where
  untouched : Untouched s.base s'.base
  log_eq : s'.log = s.log ++ events
  password : PasswordEvents s.base.g_encryptedPassword s'.base.g_encryptedPassword events
  ssl_eq : r < 0 ∨ s'.base.g_connOpts.ssl = sslAtCreation s.base

theorem mqttBaseSetConnOptsByClientCreate_wlp (loginTimestamp : Option CharBlock) :
    Wlp env (mqttBaseSetConnOptsByClientCreate loginTimestamp)
      (fun r s' => ∃ events, SetsConnOpts s s' r.1 events) s := by
  unfold mqttBaseSetConnOptsByClientCreate
  simp only [wlp_bind, wlp_globals, wlp_ite, wlp_pure, wlp_assign, wlp_observe]
  constructor
  · intro _
    refine (getEncryptedPassword_wlp _).mono fun run s₁ h => ?_
    cases h with
    | rejected hne hbase hlog =>
      refine ⟨fun _ => ?_, fun heq => absurd (not_not.mp heq) hne⟩
      exact ⟨_, ⟨by rw [hbase], by rw [hbase], by rw [hbase]⟩, by rw [hlog],
        .rejected hne (by rw [hbase]), .inl (by decide)⟩
    | derived heq hderivation =>
      refine ⟨fun hne => absurd heq hne, fun _ => ?_⟩
      refine installSslOpts_wlp.mono fun r s₂ h₂ => ?_
      have htouched : Untouched s.base s₁.base := hderivation.untouched.after ⟨rfl, rfl, rfl⟩
      have hpassword : PasswordEvents s.base.g_encryptedPassword _ _ :=
        .derived hderivation.derivedBy
      refine ⟨_, h₂.untouched.after htouched, ?_, h₂.pwd_eq ▸ hpassword, ?_⟩
      · rw [h₂.log_eq, hderivation.log_eq, heq, List.append_assoc]
      · have hssl : sslAtCreation s₁.base = sslAtCreation s.base := by
          rw [sslAtCreation, hderivation.connOpts_eq, htouched.port_eq]
          rfl
        rw [← hssl]
        exact h₂.ssl_eq
  · intro _
    refine installSslOpts_wlp.mono fun r s₂ h₂ => ?_
    exact ⟨[], h₂.untouched.after ⟨rfl, rfl, rfl⟩,
      by rw [h₂.log_eq, List.append_nil], .nothing h₂.pwd_eq, h₂.ssl_eq⟩

/-- A call of `MQTTAsync_createWithOptions`; the client has a URL when there was memory for it. -/
inductive CreateEvents (g : MqttBase) : List MqttEvent → Prop where
  | nothing : CreateEvents g []
  | create {url clientId : Option String} {ssl : Bool} (port_ne : g.g_port ≠ none)
    (url_eq : ∀ text, url = some text → ∃ rest, text.toList = g.g_urlPrefix.toList ++ rest)
    (ssl_eq : ssl = sslAtCreation g) : CreateEvents g [.create url clientId ssl]

/-- The paths of the certificate and of the key are not looked at. -/
theorem CreateEvents.of_paths {g : MqttBase} {certPath keyPath : Option String}
    {events : List MqttEvent}
    (h : CreateEvents { g with g_certPath := certPath, g_keyPath := keyPath } events) :
    CreateEvents g events := by
  cases h with
  | nothing => exact .nothing
  | create hport hurl hssl => exact .create hport hurl hssl

/-- What the creation of a client leaves of the static variables and adds to the log. -/
structure CreatesClient (s s' : MqttState) (password create : List MqttEvent) : Prop where
  untouched : Untouched s.base s'.base
  log_eq : s'.log = s.log ++ password ++ create
  password : PasswordEvents s.base.g_encryptedPassword s'.base.g_encryptedPassword password
  create : CreateEvents s.base create

theorem combineStrings_wlp {env : Env} {c : Cursor} (str1 : String) (args : List (Option String)) :
    Wlp env (combineStrings (some str1) args)
      (fun r _ => ∀ text, r = some text → ∃ rest, text.toList = str1.toList ++ rest) c := by
  by_cases hne : str1 = ""
  · exact wlp_true fun r _ text _ => ⟨text.toList, by rw [hne]; rfl⟩
  · refine (combineStrings_returns hne args).yields.wlp.mono fun r _ hr text htext => ?_
    exact ⟨_, hr.1 text htext⟩

theorem createClient_wlp :
    Wlp env createClient (fun _ s' => ∃ password create, CreatesClient s s' password create) s := by
  unfold createClient
  simp only [wlp_bind, wlp_globals, wlp_ite, wlp_pure, wlp_question, wlp_assign, wlp_observe,
    wlp_sdk]
  constructor
  · exact fun _ => ⟨[], [], ⟨rfl, rfl, rfl⟩, by simp, .nothing rfl, .nothing⟩
  · intro hset
    rw [not_or, not_or] at hset
    refine wlp_true fun timestamp c => ?_
    refine (mqttBaseSetConnOptsByClientCreate_wlp _).mono fun r s₁ hsetConnOpts => ?_
    obtain ⟨events, h⟩ := hsetConnOpts
    constructor
    · exact fun _ => ⟨events, [], h.untouched.after ⟨rfl, rfl, rfl⟩, by simp [h.log_eq],
        h.password, .nothing⟩
    · intro hr
      have hssl := h.ssl_eq.resolve_left hr
      refine (combineStrings_wlp _ _).mono fun url c₁ hurl => ?_
      refine wlp_true fun clientId c₂ => ?_
      rw [h.untouched.urlPrefix_eq] at hurl
      obtain ⟨hport, hprefix, hauth⟩ := h.untouched
      exact ⟨events, _, ⟨hport, hprefix, hauth⟩, by rw [h.log_eq], h.password,
        .create hset.2.1 hurl hssl⟩

/-! ### Connecting -/

/-- A call of `MQTTAsync_connect` with a password copied from this one. -/
inductive ConnectEvents (pwd : Option CharBlock) (secretMode : Prop) : List MqttEvent → Prop where
  | nothing : ConnectEvents pwd secretMode []
  | connect {client : Option ℕ} {options : ConnectOptions}
    (password_eq : secretMode → ∃ p copy, pwd = some p ∧ options.password = some copy ∧
      copy.text = p.text.take PASSWORD_ENCRYPT_LENGTH) :
    ConnectEvents pwd secretMode [.connect client options]

/-- What the connection of a client leaves of the static variables and adds to the log. -/
structure ConnectsClient (s s' : MqttState) (events : List MqttEvent) : Prop where
  untouched : Untouched s.base s'.base
  pwd_eq : s'.base.g_encryptedPassword = s.base.g_encryptedPassword
  log_eq : s'.log = s.log ++ events
  events : ConnectEvents s.base.g_encryptedPassword (s.base.g_authMode = 0) events

theorem connectWithOptions_wlp :
    Wlp env connectWithOptions
      (fun _ s' => s'.base = s.base ∧
        s'.log = s.log ++ [.connect s.base.g_client s.base.g_connOpts]) s := by
  unfold connectWithOptions
  simp only [wlp_bind, wlp_globals, wlp_ite, wlp_pure, wlp_question, wlp_observe, and_self,
    implies_true]

theorem connectClient_wlp :
    Wlp env connectClient (fun _ s' => ∃ events, ConnectsClient s s' events) s := by
  have hpos : (0 : ℤ) < PASSWORD_ENCRYPT_LENGTH := by decide
  unfold connectClient
  simp only [wlp_bind, wlp_globals, wlp_ite, wlp_pure, wlp_assign, wlp_sdk]
  refine wlp_true fun r c => ?_
  constructor
  · exact fun _ => ⟨[], ⟨rfl, rfl, rfl⟩, rfl, by simp, .nothing⟩
  · intro _
    constructor
    · intro _
      refine (copyStrValue_wlp _ _ _).mono fun r' c' hr' => ?_
      constructor
      · exact fun _ => ⟨[], ⟨rfl, rfl, rfl⟩, rfl, by simp, .nothing⟩
      · intro hret
        refine connectWithOptions_wlp.mono fun _ s' hconnect => ?_
        obtain ⟨hbase, hlog⟩ := hconnect
        refine ⟨_, ⟨by rw [hbase], by rw [hbase], by rw [hbase]⟩, by rw [hbase], hlog,
          .connect fun _ => ?_⟩
        cases hcopy : r'.2 with
        | none => exact absurd (hr'.of_none hpos hcopy) hret
        | some copy =>
          obtain ⟨p, hp, htext⟩ := hr'.text_eq hpos hcopy
          exact ⟨p, copy, hp, rfl, htext⟩
    · intro hauth
      refine connectWithOptions_wlp.mono fun _ s' hconnect => ?_
      obtain ⟨hbase, hlog⟩ := hconnect
      exact ⟨_, ⟨by rw [hbase], by rw [hbase], by rw [hbase]⟩, by rw [hbase], hlog,
        .connect fun h => absurd h hauth⟩

/-- What `MqttBase_CreateConnection` leaves of the static variables and adds to the log. -/
structure CreatesConnection (s s' : MqttState) (password create connect : List MqttEvent) :
    Prop where
  untouched : Untouched s.base s'.base
  log_eq : s'.log = s.log ++ password ++ create ++ connect
  password : PasswordEvents s.base.g_encryptedPassword s'.base.g_encryptedPassword password
  create : CreateEvents s.base create
  connect : ConnectEvents s'.base.g_encryptedPassword (s.base.g_authMode = 0) connect

theorem setCertPaths_wlp {Q : PUnit → MqttState → Prop}
    (h : ∀ certPath keyPath c, Q ⟨⟩ { s with
      base := { s.base with g_certPath := certPath, g_keyPath := keyPath }, cursor := c }) :
    Wlp env setCertPaths Q s := by
  unfold setCertPaths
  simp only [wlp_bind, wlp_globals, wlp_sdk, wlp_assign]
  exact wlp_true fun certPath _ => wlp_true fun keyPath c => h certPath keyPath c

/-- Either way to go on in `MqttBase_CreateConnection`; the paths of the certificate and of the key
are not looked at. -/
theorem createOrConnect_wlp (certPath keyPath : Option String) (c : Cursor) :
    (s.base.g_mqttClientCreateFlag = 0 →
      Wlp env createClient (fun ret => Wlp env
        (match ret with
          | some ret => pure ret
          | none => connectClient)
        fun _ s' => ∃ password create connect, CreatesConnection s s' password create connect)
        { s with
          base := { s.base with g_certPath := certPath, g_keyPath := keyPath }, cursor := c }) ∧
    (¬s.base.g_mqttClientCreateFlag = 0 →
      Wlp env connectClient
        (fun _ s' => ∃ password create connect, CreatesConnection s s' password create connect)
        { s with base := { s.base with g_certPath := certPath, g_keyPath := keyPath }
                 cursor := c }) := by
  constructor
  · intro _
    refine createClient_wlp.mono fun ret s₁ hcreate => ?_
    obtain ⟨password, create, h⟩ := hcreate
    have htouched : Untouched s.base s₁.base := h.untouched.after ⟨rfl, rfl, rfl⟩
    cases ret with
    | some ret =>
      exact wlp_pure.mpr ⟨password, create, [], htouched, by simp [h.log_eq], h.password,
        h.create.of_paths, .nothing⟩
    | none =>
      refine connectClient_wlp.mono fun _ s₂ hconnect => ?_
      obtain ⟨connect, h₂⟩ := hconnect
      refine ⟨password, create, connect, h₂.untouched.after htouched, ?_, ?_, h.create.of_paths, ?_⟩
      · rw [h₂.log_eq, h.log_eq]
      · rw [h₂.pwd_eq]
        exact h.password
      · rw [h₂.pwd_eq, ← htouched.authMode_eq]
        exact h₂.events
  · intro _
    refine connectClient_wlp.mono fun _ s' hconnect => ?_
    obtain ⟨connect, h⟩ := hconnect
    refine ⟨[], [], connect, h.untouched.after ⟨rfl, rfl, rfl⟩, ?_, .nothing h.pwd_eq, .nothing, ?_⟩
    · simp [h.log_eq]
    · rw [h.pwd_eq]
      exact h.events

theorem mqttBaseCreateConnection_wlp :
    Wlp env mqttBaseCreateConnection
      (fun _ s' => ∃ password create connect,
        CreatesConnection s s' password create connect) s := by
  unfold mqttBaseCreateConnection
  simp only [wlp_bind, wlp_globals, wlp_ite, wlp_pure]
  constructor
  · exact fun _ => ⟨[], [], [], ⟨rfl, rfl, rfl⟩, by simp, .nothing rfl, .nothing, .nothing⟩
  · intro _
    constructor
    · intro _
      exact setCertPaths_wlp createOrConnect_wlp
    · exact fun _ => createOrConnect_wlp s.base.g_certPath s.base.g_keyPath s.cursor

/-! ### The other operations -/

/-- The URL scheme is that of the port. -/
def PrefixOfPort (g : MqttBase) : Prop :=
  ∀ port, g.g_port = some port → g.g_urlPrefix =
    if strInBlock (some port) MQTT_PORT then TCP_URL_PREFIX else SSL_URL_PREFIX

/-- The operation does not leave secret mode. -/
def MqttOp.KeepsSecretMode : MqttOp → Prop
  | .setConfig (some .authMode) (some value) => atoi value = 0
  | _ => True

/-- What an operation that connects nothing leaves of the static variables. -/
structure Configures (op : MqttOp) (s s' : MqttState) : Prop where
  log_eq : s'.log = s.log
  pwd : s'.base.g_encryptedPassword = s.base.g_encryptedPassword ∨
    s'.base.g_encryptedPassword = none
  port : PrefixOfPort s.base → PrefixOfPort s'.base
  authMode : op.KeepsSecretMode → s.base.g_authMode = 0 → s'.base.g_authMode = 0

/-- A configuration that changes neither the port nor the mode. -/
theorem Configures.of_untouched {op : MqttOp} {s' : MqttState} (h : Untouched s.base s'.base)
    (hpwd : s'.base.g_encryptedPassword = s.base.g_encryptedPassword) (hlog : s'.log = s.log) :
    Configures op s s' where
  log_eq := hlog
  pwd := .inl hpwd
  port := by
    unfold PrefixOfPort
    rw [h.port_eq, h.urlPrefix_eq]
    exact id
  authMode := fun _ h₀ => h.authMode_eq.trans h₀

/-- A configuration that clears the port. -/
theorem Configures.of_no_port {op : MqttOp} {s' : MqttState} (hport : s'.base.g_port = none)
    (hpwd : s'.base.g_encryptedPassword = s.base.g_encryptedPassword ∨
      s'.base.g_encryptedPassword = none)
    (hauth : s'.base.g_authMode = 0 ∨ s'.base.g_authMode = s.base.g_authMode)
    (hlog : s'.log = s.log) : Configures op s s' where
  log_eq := hlog
  pwd := hpwd
  port := fun _ _ h => nomatch hport.symm.trans h
  authMode := fun _ h₀ => hauth.elim id fun h => h.trans h₀

theorem mqttBaseInit_wlp (workPath : Option CharBlock) :
    Wlp env (mqttBaseInit workPath) (fun _ s' => Configures (.init workPath) s s') s := by
  unfold mqttBaseInit
  simp only [wlp_bind, wlp_globals, wlp_ite, wlp_assign, wlp_pure]
  constructor
  · exact fun _ => .of_no_port rfl (.inl rfl) (.inl rfl) rfl
  · intro _
    cases workPath with
    | none => exact wlp_pure.mpr (.of_no_port rfl (.inl rfl) (.inl rfl) rfl)
    | some path =>
      simp only [wlp_bind, wlp_globals, wlp_ite, wlp_assign, wlp_pure, wlp_question, wlp_sdk]
      constructor
      · exact fun _ => .of_no_port rfl (.inl rfl) (.inl rfl) rfl
      · intro _
        refine wlp_true fun r c => ?_
        constructor
        · exact fun _ => .of_no_port rfl (.inl rfl) (.inl rfl) rfl
        · intro _
          exact wlp_true fun _ _ => .of_no_port rfl (.inl rfl) (.inl rfl) rfl

theorem mqttBaseSetConfig_wlp (item : Option MqttBaseConfig) (value : Option CharBlock) :
    Wlp env (mqttBaseSetConfig item value)
      (fun _ s' => Configures (.setConfig item value) s s') s := by
  unfold mqttBaseSetConfig
  cases value with
  | none => exact wlp_pure.mpr (.of_untouched ⟨rfl, rfl, rfl⟩ rfl rfl)
  | some value =>
    cases item with
    | none => exact wlp_pure.mpr (.of_untouched ⟨rfl, rfl, rfl⟩ rfl rfl)
    | some item =>
      cases item <;> simp only [wlp_bind, wlp_ite, wlp_assign, wlp_pure, wlp_sdk, setText,
        mqttBaseSetPort]
      case serverPort =>
        refine wlp_true fun r c => ?_
        refine ⟨rfl, .inl rfl, fun _ port hport => ?_, fun _ h₀ => h₀⟩
        rw [← hport]
      case authMode => exact ⟨rfl, .inl rfl, id, fun hop _ => hop⟩
      case bsGroupSecret =>
        exact wlp_true fun _ _ => wlp_true fun _ _ => .of_untouched ⟨rfl, rfl, rfl⟩ rfl rfl
      case username | password | serverIp | privateKeyPassword | bsScopeId =>
        exact wlp_true fun _ _ => .of_untouched ⟨rfl, rfl, rfl⟩ rfl rfl
      case keepAliveTime | connectTimeout | retryInterval =>
        exact ⟨fun _ => .of_untouched ⟨rfl, rfl, rfl⟩ rfl rfl,
          fun _ => .of_untouched ⟨rfl, rfl, rfl⟩ rfl rfl⟩
      all_goals exact .of_untouched ⟨rfl, rfl, rfl⟩ rfl rfl

theorem mqttBaseReleaseConnection_wlp {Q : ℤ → MqttState → Prop}
    (h : ∀ r, Q r { s with questions := s.questions + 1 }) :
    Wlp env mqttBaseReleaseConnection Q s := by
  unfold mqttBaseReleaseConnection
  simp only [wlp_bind, wlp_question, wlp_ite, wlp_pure]
  exact ⟨fun _ => h _, fun _ => h _⟩

theorem mqttBaseDestory_wlp :
    Wlp env mqttBaseDestory (fun _ s' => Configures .destory s s') s := by
  unfold mqttBaseDestory
  simp only [wlp_bind, wlp_globals, wlp_ite, wlp_assign, wlp_pure, wlp_question]
  constructor
  · intro _
    constructor
    · intro _
      exact mqttBaseReleaseConnection_wlp fun _ => .of_no_port rfl (.inr rfl) (.inr rfl) rfl
    · exact fun _ => .of_no_port rfl (.inr rfl) (.inr rfl) rfl
  · exact fun _ => .of_no_port rfl (.inr rfl) (.inr rfl) rfl

/-! ### Steps -/

/-- What an operation does: it connects, or it only configures. -/
inductive MqttOutcome (op : MqttOp) (s s' : MqttState) : Prop where
  | connects {password create connect : List MqttEvent} (op_eq : op = .createConnection)
    (h : CreatesConnection s s' password create connect)
  | configures (op_ne : op ≠ .createConnection) (h : Configures op s s')

theorem mqttOp_wlp (op : MqttOp) : Wlp env op.run (fun _ s' => MqttOutcome op s s') s := by
  cases op with
  | init workPath =>
    simp only [MqttOp.run, wlp_bind, wlp_pure]
    exact (mqttBaseInit_wlp workPath).mono fun _ s' h => .configures (by simp) h
  | setConfig item value =>
    simp only [MqttOp.run, wlp_bind, wlp_pure]
    exact (mqttBaseSetConfig_wlp item value).mono fun _ s' h => .configures (by simp) h
  | setCallback item handler =>
    unfold MqttOp.run mqttBaseSetCallback
    cases item with
    | none => exact wlp_pure.mpr (.configures (by simp) (.of_untouched ⟨rfl, rfl, rfl⟩ rfl rfl))
    | some item =>
      exact wlp_assign.mpr (.configures (by simp) (.of_untouched ⟨rfl, rfl, rfl⟩ rfl rfl))
  | setMessageArrivedCallback handler =>
    unfold MqttOp.run mqttBaseSetMessageArrivedCallback
    exact wlp_assign.mpr (.configures (by simp) (.of_untouched ⟨rfl, rfl, rfl⟩ rfl rfl))
  | createConnection =>
    simp only [MqttOp.run, wlp_bind, wlp_pure]
    refine mqttBaseCreateConnection_wlp.mono fun _ s' hcreate => ?_
    obtain ⟨_, _, _, h⟩ := hcreate
    exact .connects rfl h
  | releaseConnection =>
    simp only [MqttOp.run, wlp_bind, wlp_pure]
    exact mqttBaseReleaseConnection_wlp fun _ =>
      .configures (by simp) (.of_untouched ⟨rfl, rfl, rfl⟩ rfl rfl)
  | destory =>
    simp only [MqttOp.run, wlp_bind, wlp_pure]
    exact mqttBaseDestory_wlp.mono fun _ s' h => .configures (by simp) h

/-- **What a step can do.** -/
theorem mqttStep_outcome {op : MqttOp} {s' : MqttState} (h : mqttStep env s op s') :
    MqttOutcome op s s' := by
  obtain ⟨⟨_, s''⟩, hrun, rfl⟩ := Option.map_eq_some_iff.mp h
  exact mqttOp_wlp op _ _ hrun

/-! ### A sample client -/

/-- A digest without a zero byte. -/
def sampleHmac : Hmac := ⟨fun _ _ => List.replicate 32 1, fun _ _ => rfl⟩

/-- Everything that the client asks for succeeds. -/
def sampleMqttEnv : MqttEnv where
  sdk := .plentiful
  hmacs := ⟨sampleHmac, sampleHmac⟩
  gmtime := fun _ => some ⟨0, 0, 0, 1, 0, 124⟩
  access := fun _ _ => true
  create := fun _ => (0, some 0)
  connect := fun _ => 0
  isConnected := fun _ => true
  disconnect := fun _ => 0

/-- A text of a configuration. -/
def sampleText (text : String) : Option CharBlock := some (.ofBytes (ascii text))

/-- A configuration for a port. -/
def sampleConfig (port : String) : List MqttOp :=
  [.init (sampleText "/d"), .setConfig (some .serverIp) (sampleText "h"),
    .setConfig (some .serverPort) (sampleText port), .setConfig (some .username) (sampleText "d"),
    .setConfig (some .password) (sampleText "p")]

/-- A run of the sample client. -/
def sampleRun (ops : List MqttOp) : Option (List (MqttState × MqttOp) × MqttState) :=
  Run.steps? (fun op s => op.next sampleMqttEnv s) {} ops

end IotDeviceSdk.Base
