import IotDeviceSdk.Agentlite.IotaInit

/-!
# A rejected initialisation

In a state that is already initialised, a further `MqttBase_init` or `IOTA_Init` is rejected and
should leave everything as it was (`RejectionsIntact`).

`MqttBase_init` clears nine static variables before it looks at `g_initFlag`, and `IOTA_Init` calls
`RuleMgr_Init` first, which starts the rule manager anew or takes it down.  So the rejections of a
run leave everything intact exactly when `IOTA_Init` is never among them and each `MqttBase_init`
finds the nine variables cleared (`rejectionsIntact_iff`).
-/

namespace IotDeviceSdk.Agentlite

open Prog Base
open DeviceRule (RuleInfo RuleMgr Files)

variable {env : IotaEnv} {s s' : IotaState}

/-- The operations of the device. -/
inductive IotaOp where
  | iotaInit (workPath : Option CharBlock)
  | client (op : MqttOp)
  | onRuleMgr (op : RuleMgr → Sdk RuleMgr)
  | setSendMsgCallback (cb : Option ℕ)
  | setCommandCallbackHandler (callbackHandler : Option ℕ)
  | setCurrentUserName (username : Option String)

/-- An operation, without its result. -/
def IotaOp.run : IotaOp → Iota PUnit
  | .iotaInit workPath => do let _ ← Agentlite.iotaInit workPath
  | .client op => Agentlite.client op.run
  | .onRuleMgr op => Agentlite.onRuleMgr op
  | .setSendMsgCallback cb => ruleMgrSetSendMsgCallback cb
  | .setCommandCallbackHandler callbackHandler => ruleMgrSetCommandCallbackHandler callbackHandler
  | .setCurrentUserName username => do let _ ← ruleMgrSetCurrentUserName username

/-- The state after an operation. -/
def IotaOp.next (env : IotaEnv) (op : IotaOp) (s : IotaState) : Option IotaState :=
  (op.run env s).map Prod.snd

/-- The steps of the device. -/
def iotaStep (env : IotaEnv) (s : IotaState) (op : IotaOp) (s' : IotaState) : Prop :=
  op.next env s = some s'

/-- The configuration, the client, the callbacks and the rule manager are as they were. -/
structure Intact (s s' : IotaState) : Prop where
  base_eq : s'.client.base = s.client.base
  ruleMgr_eq : s'.ruleMgr = s.ruleMgr

/-- The operation is an initialisation in an initialised state, and returns an error. -/
inductive Rejects (env : IotaEnv) (s : IotaState) : IotaOp → IotaState → Prop where
  | iotaInit {workPath : Option CharBlock} {r : ℤ} {s' : IotaState}
    (initialised : s.client.base.g_initFlag ≠ 0) (rules : s.ruleMgr.store s.files ≠ none)
    (run : Agentlite.iotaInit workPath env s = some (r, s')) (result_ne : r ≠ IOTA_SUCCESS) :
    Rejects env s (.iotaInit workPath) s'
  | mqttBaseInit {workPath : Option CharBlock} {r : ℤ} {s' : IotaState}
    (initialised : s.client.base.g_initFlag ≠ 0)
    (run : Agentlite.client (Base.mqttBaseInit workPath) env s = some (r, s'))
    (result_ne : r ≠ IOTA_SUCCESS) : Rejects env s (.client (.init workPath)) s'

/-- **Each rejected initialisation** among the steps of a run leaves everything as it was. -/
def RejectionsIntact (env : IotaEnv) (steps : List (IotaState × IotaOp)) : Prop :=
  ∀ x ∈ steps, ∀ s', Rejects env x.1 x.2 s' → Intact x.1 s'

/-- The variables that `MqttBase_init` sets are as it sets them. -/
structure Cleared (g : MqttBase) : Prop where
  serverIp : g.g_serverIp = none
  port : g.g_port = none
  username : g.g_username = none
  password : g.g_password = none
  client : g.g_client = none
  bsScopeId : g.g_bsScopeId = none
  authMode : g.g_authMode = 0
  bsRegMode : g.g_bsRegMode = 0
  privateKeyPassword : g.g_privateKeyPassword = none

instance (g : MqttBase) : Decidable (Cleared g) :=
  decidable_of_iff
    ((g.g_serverIp.isNone ∧ g.g_port.isNone ∧ g.g_username.isNone ∧ g.g_password.isNone) ∧
      (g.g_client.isNone ∧ g.g_bsScopeId.isNone ∧ g.g_privateKeyPassword.isNone) ∧
      g.g_authMode = 0 ∧ g.g_bsRegMode = 0)
    (by
      simp only [Option.isNone_iff_eq_none]
      exact ⟨fun ⟨⟨h₁, h₂, h₃, h₄⟩, ⟨h₅, h₆, h₇⟩, h₈, h₉⟩ => ⟨h₁, h₂, h₃, h₄, h₅, h₆, h₈, h₉, h₇⟩,
        fun h => ⟨⟨h.serverIp, h.port, h.username, h.password⟩,
          ⟨h.client, h.bsScopeId, h.privateKeyPassword⟩, h.authMode, h.bsRegMode⟩⟩)

/-- What an operation has to meet to leave everything as it was when it is rejected. -/
def IntactWhen (s : IotaState) : IotaOp → Prop
  | .iotaInit _ => s.client.base.g_initFlag = 0 ∨ s.ruleMgr.store s.files = none
  | .client (.init _) => s.client.base.g_initFlag = 0 ∨ Cleared s.client.base
  | _ => True

/-! ### `MqttBase_init` -/

/-- What `MqttBase_init` does first. -/
def clearConfig (g : MqttBase) : MqttBase :=
  { g with
    g_serverIp := none
    g_port := none
    g_username := none
    g_password := none
    g_client := none
    g_bsScopeId := none
    g_authMode := 0
    g_bsRegMode := 0
    g_privateKeyPassword := none }

theorem clearConfig_eq_iff {g : MqttBase} : clearConfig g = g ↔ Cleared g := by
  constructor
  · intro h
    rw [← h]
    exact ⟨rfl, rfl, rfl, rfl, rfl, rfl, rfl, rfl, rfl⟩
  · intro h
    obtain ⟨hserverIp, hport, husername, hpassword, hclient, hscope, hauth, hmode, hkey⟩ := h
    cases g
    subst hserverIp hport husername hpassword hclient hscope hauth hmode hkey
    rfl

/-- **`MqttBase_init`** in an initialised state. -/
theorem mqttBaseInit_repeated {env : MqttEnv} {s : MqttState} (workPath : Option CharBlock)
    (h : s.base.g_initFlag ≠ 0) :
    Base.mqttBaseInit workPath env s =
      some (IOTA_INITIALIZATION_REPEATED, { s with base := clearConfig s.base }) := by
  show (if s.base.g_initFlag ≠ 0 then (pure IOTA_INITIALIZATION_REPEATED : Mqtt ℤ) else _) env
    { s with base := clearConfig s.base } = _
  rw [if_pos h]
  rfl

/-! ### `RuleMgr_Init` -/

theorem store_eq_none {v : RuleMgrVars} {files files' : Files} (h : v.store files = none) :
    v.store files' = none := by
  unfold RuleMgrVars.store at h ⊢
  split at h
  · cases h
  · rfl

/-- What `RuleMgr_Init` does: it starts an empty rule manager with a thread of its own, or it leaves
none. -/
inductive RuleMgrOutcome (s s' : IotaState) : Bool → Prop where
  | started (base_eq : s'.client.base = s.client.base)
    (thread_eq : s'.ruleMgr.deviceRuleThreads = s.ruleMgr.deviceRuleThreads + 1)
    (store_eq : s'.ruleMgr.store s'.files = some { files := s.files }) : RuleMgrOutcome s s' true
  | failed (base_eq : s'.client.base = s.client.base)
    (store_eq : s'.ruleMgr.store s'.files = none) : RuleMgrOutcome s s' false

theorem releaseCJson_wlp {s₀ : IotaState} (hbase : s.client.base = s₀.client.base) :
    Wlp env releaseCJson (fun r s' => RuleMgrOutcome s₀ s' r) s := by
  unfold releaseCJson
  simp only [wlp_bind, wlp_ruleMgrVars, wlp_ofOption, wlp_assignRuleMgr, wlp_pure]
  intro mirror hmirror cache _
  have hdeleted : ∀ items, mirror ≠ .live items := by
    rintro items rfl
    cases hold : s.ruleMgr.g_ruleInfosListJSON <;> rw [hold] at hmirror <;> cases hmirror
  refine .failed hbase ?_
  unfold RuleMgrVars.store
  split
  · rename_i hlive _
    exact absurd hlive (hdeleted _)
  · rfl

theorem releaseRuleFilePath_wlp {s₀ : IotaState} (hbase : s.client.base = s₀.client.base) :
    Wlp env releaseRuleFilePath (fun r s' => RuleMgrOutcome s₀ s' r) s := by
  unfold releaseRuleFilePath
  simp only [wlp_bind, wlp_assignRuleMgr]
  exact releaseCJson_wlp hbase

theorem releaseCurrentUserName_wlp {s₀ : IotaState} (hbase : s.client.base = s₀.client.base) :
    Wlp env releaseCurrentUserName (fun r s' => RuleMgrOutcome s₀ s' r) s := by
  unfold releaseCurrentUserName
  simp only [wlp_bind, wlp_assignRuleMgr]
  exact releaseRuleFilePath_wlp hbase

theorem startDeviceRules_wlp {s₀ : IotaState} (hbase : s.client.base = s₀.client.base)
    (hfiles : s.files = s₀.files)
    (hthreads : s.ruleMgr.deviceRuleThreads = s₀.ruleMgr.deviceRuleThreads)
    (hfresh : s.ruleMgr = {
      g_ruleInfosList := s.ruleMgr.g_ruleInfosList
      g_ruleInfosListJSON := .live []
      g_cacheDeviceDataJSON := .live []
      deviceRuleThreads := s.ruleMgr.deviceRuleThreads }) :
    Wlp env startDeviceRules (fun r s' => RuleMgrOutcome s₀ s' r) s := by
  unfold startDeviceRules
  simp only [wlp_bind, wlp_client, wlp_sdk, wlp_ite, wlp_assignRuleMgr, wlp_askPthread, wlp_pure]
  refine wlp_true fun list c => ⟨fun _ => releaseCurrentUserName_wlp hbase, fun _ => ?_⟩
  refine ⟨fun _ => releaseCurrentUserName_wlp hbase, fun _ => .started hbase ?_ ?_⟩
  · show s.ruleMgr.deviceRuleThreads + 1 = _
    rw [hthreads]
  · rw [hfresh, hfiles]
    rfl

theorem ruleMgrInit_wlp : Wlp env ruleMgrInit (fun r s' => RuleMgrOutcome s s' r) s := by
  unfold ruleMgrInit createArray
  simp only [wlp_bind, wlp_client, wlp_sdk, wlp_ite, wlp_assignRuleMgr, wlp_askPthread, wlp_pure]
  refine wlp_true fun mirror c => ⟨fun _ => ?_, fun _ => releaseCJson_wlp rfl⟩
  refine wlp_true fun cache c => ⟨fun _ => ?_, fun _ => releaseCJson_wlp rfl⟩
  refine ⟨fun _ => releaseCJson_wlp rfl, fun _ => ?_⟩
  refine ⟨fun _ => releaseRuleFilePath_wlp rfl, fun _ => ?_⟩
  refine ⟨fun _ => releaseCurrentUserName_wlp rfl, fun _ => ?_⟩
  exact startDeviceRules_wlp rfl rfl rfl rfl

/-! ### Rejections -/

/-- What `IOTA_Init` leaves of an initialised device. -/
structure RejectsInit (s s' : IotaState) (r : ℤ) : Prop where
  result_eq : r = IOTA_INITIALIZATION_REPEATED
  base_eq : s'.client.base = clearConfig s.client.base
  ruleMgr : ∃ started s₁, RuleMgrOutcome s s₁ started ∧ s'.ruleMgr = s₁.ruleMgr

theorem iotaInit_wlp (workPath : Option CharBlock) (hflag : s.client.base.g_initFlag ≠ 0) :
    Wlp env (Agentlite.iotaInit workPath) (fun r s' => RejectsInit s s' r) s := by
  unfold Agentlite.iotaInit
  simp only [wlp_bind, wlp_client]
  refine ruleMgrInit_wlp.mono fun started s₁ h₁ => ?_
  have hbase : s₁.client.base = s.client.base := by
    cases h₁ with
    | started hbase => exact hbase
    | failed hbase => exact hbase
  intro r c hr
  rw [mqttBaseInit_repeated workPath (hbase ▸ hflag)] at hr
  obtain ⟨rfl, rfl⟩ := Prod.mk.inj (Option.some.inj hr)
  exact ⟨rfl, by rw [← hbase], started, s₁, h₁, rfl⟩

/-- **`IOTA_Init`** never leaves a rule manager as it was. -/
theorem RejectsInit.ruleMgr_ne {r : ℤ} (h : RejectsInit s s' r)
    (hrules : s.ruleMgr.store s.files ≠ none) : s'.ruleMgr ≠ s.ruleMgr := by
  obtain ⟨started, s₁, houtcome, heq⟩ := h.ruleMgr
  rw [heq]
  intro hsame
  cases houtcome with
  | started _ hthread =>
    rw [hsame] at hthread
    omega
  | failed _ hstore =>
    rw [hsame] at hstore
    exact hrules (store_eq_none hstore)

/-- A rejected `MqttBase_init` leaves everything as it was when there was nothing to clear. -/
theorem mqttBaseInit_intact_iff {workPath : Option CharBlock} {r : ℤ} {c : MqttState}
    (hflag : s.client.base.g_initFlag ≠ 0)
    (hinit : Base.mqttBaseInit workPath env.client s.client = some (r, c)) :
    r ≠ IOTA_SUCCESS ∧ (Intact s { s with client := c } ↔ Cleared s.client.base) := by
  rw [mqttBaseInit_repeated workPath hflag] at hinit
  obtain ⟨rfl, rfl⟩ := Prod.mk.inj (Option.some.inj hinit)
  refine ⟨by decide, ?_⟩
  rw [← clearConfig_eq_iff]
  exact ⟨fun h => h.base_eq, fun h => ⟨h, rfl⟩⟩

/-- **One step** that is rejected leaves everything as it was exactly under `IntactWhen`. -/
theorem intact_iff {op : IotaOp} (hstep : iotaStep env s op s') :
    (Rejects env s op s' → Intact s s') ↔ IntactWhen s op := by
  obtain ⟨⟨_, s''⟩, hrun, rfl⟩ := Option.map_eq_some_iff.mp hstep
  cases op with
  | iotaInit workPath =>
    obtain ⟨r, s₁, hinit, heq⟩ := bind_eq_some.mp hrun
    obtain ⟨-, rfl⟩ := Prod.mk.inj (Option.some.inj heq)
    constructor
    · intro hintact
      by_contra hwhen
      obtain ⟨hflag, hrules⟩ := not_or.mp hwhen
      have hrejects := iotaInit_wlp workPath hflag r _ hinit
      have hne : r ≠ IOTA_SUCCESS := by
        rw [hrejects.result_eq]
        decide
      exact hrejects.ruleMgr_ne hrules (hintact (.iotaInit hflag hrules hinit hne)).ruleMgr_eq
    · rintro hwhen ⟨hflag, hrules⟩
      exact absurd hwhen (not_or.mpr ⟨hflag, hrules⟩)
  | client op =>
    cases op with
    | init workPath =>
      obtain ⟨⟨_, c⟩, hclient, heq⟩ := Option.map_eq_some_iff.mp hrun
      obtain ⟨-, rfl⟩ := Prod.mk.inj heq
      obtain ⟨r, c₁, hinit, heq₁⟩ := bind_eq_some.mp hclient
      obtain ⟨-, rfl⟩ := Prod.mk.inj (Option.some.inj heq₁)
      constructor
      · intro hintact
        by_cases hflag : s.client.base.g_initFlag = 0
        · exact .inl hflag
        · obtain ⟨hne, hiff⟩ := mqttBaseInit_intact_iff hflag hinit
          have hrejected : client (Base.mqttBaseInit workPath) env s =
              some (r, { s with client := c₁ }) := by
            rw [client, hinit]
            rfl
          exact .inr (hiff.mp (hintact (.mqttBaseInit hflag hrejected hne)))
      · rintro hwhen (_ | ⟨hflag⟩)
        exact (mqttBaseInit_intact_iff hflag hinit).2.mpr (hwhen.resolve_left hflag)
    | _ =>
      refine ⟨fun _ => trivial, fun _ h => ?_⟩
      cases h
  -- the other operations are not rejected
  | onRuleMgr | setSendMsgCallback | setCommandCallbackHandler | setCurrentUserName =>
    refine ⟨fun _ => trivial, fun _ h => ?_⟩
    cases h

theorem Rejects.step {op : IotaOp} (h : Rejects env s op s') : iotaStep env s op s' := by
  cases h with
  | iotaInit _ _ hrun =>
    refine Option.map_eq_some_iff.mpr ⟨(⟨⟩, s'), ?_, rfl⟩
    exact bind_eq_some.mpr ⟨_, _, hrun, rfl⟩
  | mqttBaseInit _ hrun =>
    obtain ⟨⟨r, c⟩, hinit, heq⟩ := Option.map_eq_some_iff.mp hrun
    obtain ⟨rfl, rfl⟩ := Prod.mk.inj heq
    refine Option.map_eq_some_iff.mpr ⟨(⟨⟩, _), ?_, rfl⟩
    exact Option.map_eq_some_iff.mpr ⟨(⟨⟩, c), bind_eq_some.mpr ⟨_, _, hinit, rfl⟩, rfl⟩

theorem RejectionsIntact.intactWhen {s₀ : IotaState} {steps : List (IotaState × IotaOp)}
    (h : RejectionsIntact env steps) (hrun : Run (iotaStep env) s₀ steps s) :
    ∀ x ∈ steps, IntactWhen x.1 x.2 := by
  have hstep : ∀ s op s', iotaStep env s op s' →
      ((Rejects env s op s' → Intact s s') ↔ IntactWhen s op) := fun _ _ _ => intact_iff
  exact (Run.forall_steps_iff hstep hrun).mp fun x hx s' _ => h x hx s'

/-- **A rejected initialisation** leaves everything as it was, throughout a run, exactly when each
initialisation of the run meets `IntactWhen`. -/
theorem rejectionsIntact_iff {s₀ : IotaState} {steps : List (IotaState × IotaOp)}
    (h : Run (iotaStep env) s₀ steps s) :
    RejectionsIntact env steps ↔ ∀ x ∈ steps, IntactWhen x.1 x.2 := by
  refine ⟨fun hintact => hintact.intactWhen h, fun hwhen x hx s' hrejects => ?_⟩
  exact (intact_iff hrejects.step).mpr (hwhen x hx) hrejects

/-! ### A sample device -/

/-- Everything that the device asks for succeeds. -/
def sampleIotaEnv : IotaEnv where
  client := sampleMqttEnv
  mutexInit := fun _ => true
  threadCreate := fun _ => true

/-- A device before its first initialisation, without files. -/
def sampleDevice : IotaState := { files := fun _ => none }

/-- A second `MqttBase_init`, before anything has been configured. -/
def initAgain : IotaOp := .client (.init (sampleText "/d"))

/-- It is rejected and leaves everything as it was. -/
theorem rejectionsIntact_initAgain : ∃ s₁ s₂,
    Run (iotaStep sampleIotaEnv) sampleDevice
      [(sampleDevice, .iotaInit (sampleText "/d")), (s₁, initAgain)] s₂ ∧
    Rejects sampleIotaEnv s₁ initAgain s₂ ∧
    RejectionsIntact sampleIotaEnv
      [(sampleDevice, .iotaInit (sampleText "/d")), (s₁, initAgain)] := by
  have hnext : (((IotaOp.iotaInit (sampleText "/d")).next sampleIotaEnv sampleDevice).bind
      fun s₁ => (Agentlite.client (Base.mqttBaseInit (sampleText "/d")) sampleIotaEnv s₁).map
        fun r => decide (s₁.client.base.g_initFlag ≠ 0 ∧ Cleared s₁.client.base ∧
          r.1 ≠ IOTA_SUCCESS)) = some true := by decide +kernel
  obtain ⟨s₁, hfirst, hsecond⟩ := Option.bind_eq_some_iff.mp hnext
  obtain ⟨⟨r, s₂⟩, hinit, hrejected⟩ := Option.map_eq_some_iff.mp hsecond
  obtain ⟨hflag, hcleared, hne⟩ := of_decide_eq_true hrejected
  have hrejects : Rejects sampleIotaEnv s₁ initAgain s₂ := .mqttBaseInit hflag hinit hne
  have hrun : Run (iotaStep sampleIotaEnv) sampleDevice
      ([] ++ [(sampleDevice, .iotaInit (sampleText "/d"))] ++ [(s₁, initAgain)]) s₂ :=
    .snoc (.snoc .nil hfirst) hrejects.step
  refine ⟨s₁, s₂, hrun, hrejects, (rejectionsIntact_iff hrun).mpr ?_⟩
  intro x hx
  rcases List.mem_cons.mp hx with rfl | hx
  · exact .inl rfl
  · obtain rfl := List.mem_singleton.mp hx
    exact .inr hcleared

/-- A second `IOTA_Init` of a configured device. -/
def initialisedTwice : List IotaOp :=
  [.iotaInit (sampleText "/d"), .client (.setConfig (some .serverIp) (sampleText "h")),
    .iotaInit (sampleText "/d")]

/-- The second `IOTA_Init` is rejected, and starts the rule manager anew. -/
theorem rejectionsIntact_initialisedTwice_false : ¬∀ env s₀ steps s,
    Run (iotaStep env) s₀ steps s → RejectionsIntact env steps := by
  intro h
  have hany : (Run.steps? (fun op s => op.next sampleIotaEnv s) sampleDevice initialisedTwice).map
      (fun r => r.1.any fun x =>
        match x.2 with
        | .iotaInit _ => x.1.client.base.g_initFlag ≠ 0 && (x.1.ruleMgr.store x.1.files).isSome
        | _ => false) = some true := by decide +kernel
  obtain ⟨⟨steps, s⟩, hsteps, hsome⟩ := Option.map_eq_some_iff.mp hany
  obtain ⟨⟨s₁, op⟩, hx, hinit⟩ := List.any_eq_true.mp hsome
  have hrun := Run.of_steps hsteps
  have hwhen := (h sampleIotaEnv sampleDevice steps s hrun).intactWhen hrun _ hx
  cases op with
  | iotaInit workPath =>
    obtain ⟨hflag, hrules⟩ := Bool.and_eq_true_iff.mp hinit
    rcases hwhen with hwhen | hwhen
    · exact of_decide_eq_true hflag hwhen
    · exact Option.isSome_iff_ne_none.mp hrules hwhen
  | _ => cases hinit

end IotDeviceSdk.Agentlite
