import IotDeviceSdk.Base.Equiv.MqttRun

/-!
# URL scheme and TLS options

A client should be created with an `ssl` URL exactly when TLS options are installed, and with a
`tcp` URL exactly when none are (`SchemesAgree`).

The scheme is `tcp` for a port with `MQTT_PORT` in it and `ssl` for every other one; TLS options are
installed for a port with `MQTTS_PORT` in it, and are never removed.  So the two agree at a creation
exactly when the port lacks `MQTT_PORT` just when it has `MQTTS_PORT` or TLS options were installed
before (`schemesAgree_iff`).
-/

namespace IotDeviceSdk.Base

open Prog

variable {env : MqttEnv} {s s' : MqttState} {steps : List (MqttState × MqttOp)}

/-- The clients created with a URL, and whether TLS options were installed. -/
def creations (log : List MqttEvent) : List (String × Bool) :=
  log.filterMap fun event =>
    match event with
    | .create (some url) _ ssl => some (url, ssl)
    | _ => none

/-- The scheme of a URL agrees with the TLS options. -/
def SchemeAgrees (url : String) (ssl : Bool) : Prop :=
  (SSL_URL_PREFIX.toList <+: url.toList ↔ ssl = true) ∧
    (TCP_URL_PREFIX.toList <+: url.toList ↔ ssl = false)

/-- **URL scheme and TLS options agree** at each creation so far. -/
def SchemesAgree (s : MqttState) : Prop :=
  ∀ client ∈ creations s.log, SchemeAgrees client.1 client.2

/-- An operation creates a client. -/
def CreatesAt (env : MqttEnv) (s : MqttState) (op : MqttOp) : Prop :=
  ∃ s', mqttStep env s op s' ∧ creations (s'.log.drop s.log.length) ≠ []

/-- The port lacks `MQTT_PORT` just when TLS options are installed for it, or were before. -/
def PortAgrees (g : MqttBase) : Prop :=
  strInBlock g.g_port MQTT_PORT = false ↔ sslAtCreation g = true

/-! ### The events of a step -/

@[simp] theorem creations_append (log events : List MqttEvent) :
    creations (log ++ events) = creations log ++ creations events :=
  List.filterMap_append

theorem PasswordEvents.creations_eq {old pwd : Option CharBlock} {events : List MqttEvent}
    (h : PasswordEvents old pwd events) : creations events = [] := by
  cases h with
  | nothing => rfl
  | rejected => rfl
  | derived =>
    rw [creations_append, List.append_eq_nil_iff]
    exact ⟨by simp [creations], rfl⟩

theorem ConnectEvents.creations_eq {pwd : Option CharBlock} {secretMode : Prop}
    {events : List MqttEvent} (h : ConnectEvents pwd secretMode events) :
    creations events = [] := by
  cases h with
  | nothing => rfl
  | connect => rfl

/-- A connection adds the creations of its client. -/
theorem CreatesConnection.creations_eq {password create connect : List MqttEvent}
    (h : CreatesConnection s s' password create connect) :
    creations s'.log = creations s.log ++ creations create := by
  rw [h.log_eq]
  simp only [creations_append, h.password.creations_eq, h.connect.creations_eq, List.append_nil]

/-- At a creation the scheme is that of the port. -/
theorem schemeAgrees_iff {g : MqttBase} (hg : PrefixOfPort g) (hport : g.g_port ≠ none)
    {url : String} {rest : List Char} (hurl : url.toList = g.g_urlPrefix.toList ++ rest) :
    SchemeAgrees url (sslAtCreation g) ↔ PortAgrees g := by
  obtain ⟨port, hsome⟩ := Option.ne_none_iff_exists'.mp hport
  have hscheme := hg port hsome
  rw [← hsome] at hscheme
  unfold SchemeAgrees PortAgrees
  rw [hurl, hscheme]
  cases strInBlock g.g_port MQTT_PORT with
  | true =>
    have htcp : TCP_URL_PREFIX.toList <+: TCP_URL_PREFIX.toList ++ rest := List.prefix_append _ _
    have hssl : ¬SSL_URL_PREFIX.toList <+: TCP_URL_PREFIX.toList ++ rest := by
      rintro ⟨rest', h⟩
      exact absurd (List.cons.inj h).1 (by decide)
    simp [htcp, hssl]
  | false =>
    have hssl : SSL_URL_PREFIX.toList <+: SSL_URL_PREFIX.toList ++ rest := List.prefix_append _ _
    have htcp : ¬TCP_URL_PREFIX.toList <+: SSL_URL_PREFIX.toList ++ rest := by
      rintro ⟨rest', h⟩
      exact absurd (List.cons.inj h).1 (by decide)
    simp [htcp, hssl]

/-! ### Runs -/

theorem mqttStep_eq {op : MqttOp} {s'' : MqttState} (h : mqttStep env s op s')
    (h' : mqttStep env s op s'') : s'' = s' :=
  Option.some.inj (h'.symm.trans h)

theorem createsAt_iff {op : MqttOp} {events : List MqttEvent} (h : mqttStep env s op s')
    (hlog : s'.log = s.log ++ events) : CreatesAt env s op ↔ creations events ≠ [] := by
  constructor
  · rintro ⟨s'', h', hcreations⟩
    rw [mqttStep_eq h h', hlog, List.drop_left] at hcreations
    exact hcreations
  · intro hcreations
    refine ⟨s', h, ?_⟩
    rw [hlog, List.drop_left]
    exact hcreations

theorem prefixOfPort_step (s : MqttState) (op : MqttOp) (s' : MqttState) (hs : PrefixOfPort s.base)
    (h : mqttStep env s op s') : PrefixOfPort s'.base := by
  cases mqttStep_outcome h with
  | connects _ hconnects =>
    unfold PrefixOfPort
    rw [hconnects.untouched.port_eq, hconnects.untouched.urlPrefix_eq]
    exact hs
  | configures _ hconfigures => exact hconfigures.port hs

/-- **One step** keeps the schemes right exactly when the port agrees at the client it creates. -/
theorem schemesAgree_step (s : MqttState) (op : MqttOp) (s' : MqttState) (hs : PrefixOfPort s.base)
    (h : mqttStep env s op s') :
    SchemesAgree s' ↔ SchemesAgree s ∧ (CreatesAt env s op → PortAgrees s.base) := by
  cases mqttStep_outcome h with
  | connects _ hconnects =>
    have hcreates : CreatesAt env s op ↔ _ := createsAt_iff h (by
      rw [hconnects.log_eq, List.append_assoc, List.append_assoc])
    simp only [creations_append, hconnects.password.creations_eq, hconnects.connect.creations_eq,
      List.append_nil, List.nil_append] at hcreates
    unfold SchemesAgree
    rw [hcreates, hconnects.creations_eq]
    cases hconnects.create with
    | nothing => simp [creations]
    | @create url _ ssl hport hurl hssl =>
      cases url with
      | none => simp [creations]
      | some url =>
        obtain ⟨rest, hrest⟩ := hurl url rfl
        rw [hssl]
        simp [creations, ← schemeAgrees_iff hs hport hrest, or_imp, forall_and]
  | configures _ hconfigures =>
    have hcreates : CreatesAt env s op ↔ creations [] ≠ [] :=
      createsAt_iff h (by rw [hconfigures.log_eq, List.append_nil])
    unfold SchemesAgree
    rw [hcreates, hconfigures.log_eq]
    simp [creations]

/-- **URL scheme and TLS options** agree throughout a run exactly when the port agrees at each step
that creates a client. -/
theorem schemesAgree_iff (h : Run (mqttStep env) {} steps s) :
    SchemesAgree s ↔ ∀ x ∈ steps, CreatesAt env x.1 x.2 → PortAgrees x.1.base := by
  refine Run.good_iff prefixOfPort_step schemesAgree_step ?_ ?_ h
  · exact fun port hport => nomatch hport
  · exact fun client hclient => nomatch hclient

/-- A client for port 1883 and, after it is gone, one for port 8883. -/
def portChanged : List MqttOp :=
  sampleConfig "1883" ++ [.createConnection, .destory] ++ sampleConfig "8883" ++
    [.createConnection]

/-- Each of the two clients has the URL for its TLS options. -/
theorem schemesAgree_iff_twoPorts : ∃ steps s, Run (mqttStep sampleMqttEnv) {} steps s ∧
    creations s.log = [("tcp://h:1883", false), ("ssl://h:8883", true)] ∧ SchemesAgree s := by
  have hlog : (sampleRun portChanged).map (fun r =>
      creations r.2.log = [("tcp://h:1883", false), ("ssl://h:8883", true)] &&
        r.1.all fun x => (x.2.next sampleMqttEnv x.1).all fun s' =>
          (creations (s'.log.drop x.1.log.length)).isEmpty ||
            (!strInBlock x.1.base.g_port MQTT_PORT) == sslAtCreation x.1.base) =
      some true := by decide +kernel
  obtain ⟨⟨steps, s⟩, hsteps, hsome⟩ := Option.map_eq_some_iff.mp hlog
  obtain ⟨hcreations, hall⟩ := Bool.and_eq_true_iff.mp hsome
  have hrun := Run.of_steps hsteps
  refine ⟨steps, s, hrun, of_decide_eq_true hcreations, (schemesAgree_iff hrun).mpr ?_⟩
  rintro x hx ⟨s', hstep, hcreates⟩
  have hport := List.all_eq_true.mp hall x hx
  rw [show x.2.next sampleMqttEnv x.1 = some s' from hstep, Option.all_some, Bool.or_eq_true,
    List.isEmpty_iff] at hport
  have hagrees := hport.resolve_left hcreates
  unfold PortAgrees
  revert hagrees
  cases strInBlock x.1.base.g_port MQTT_PORT <;> cases sslAtCreation x.1.base <;> decide

/-- A client for port 443 is created with an `ssl` URL and without TLS options. -/
theorem schemesAgree_443_false :
    ¬∀ env steps s, Run (mqttStep env) {} steps s → SchemesAgree s := by
  intro h
  have hlog : (sampleRun (sampleConfig "443" ++ [.createConnection])).map
      (fun r => creations r.2.log) = some [("ssl://h:443", false)] := by decide +kernel
  obtain ⟨⟨steps, s⟩, hsteps, hcreations⟩ := Option.map_eq_some_iff.mp hlog
  have hagree := h sampleMqttEnv steps s (Run.of_steps hsteps) ("ssl://h:443", false)
    (by rw [hcreations]; simp)
  have hprefix : SSL_URL_PREFIX.toList <+: "ssl://h:443".toList := by decide +kernel
  exact absurd (hagree.1.mp hprefix) (by decide)

end IotDeviceSdk.Base
