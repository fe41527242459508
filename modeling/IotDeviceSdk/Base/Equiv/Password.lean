import IotDeviceSdk.Base.Equiv.MqttRun

/-!
# The password of a connection

In secret mode `GetEncryptedPassword` should return `IOTA_SUCCESS` only when it has assigned a
password in this very call, and each connection should be made with the password that the last
successful call has assigned (`PasswordsFresh`).

It returns `IOTA_SUCCESS` whatever its derivation steps return.  So the passwords of a run are fresh
exactly when no derivation step of it has failed (`passwordsFresh_iff`).
-/

namespace IotDeviceSdk.Base

open Prog

variable {env : MqttEnv} {s s' : MqttState} {steps : List (MqttState × MqttOp)}

/-- The password that the last successful `GetEncryptedPassword` has assigned. -/
def lastAssigned : Option CharBlock → List MqttEvent → Option CharBlock
  | pwd, [] => pwd
  | pwd, .derived result assigned :: log =>
    lastAssigned (if result = IOTA_SUCCESS then assigned else pwd) log
  | pwd, _ :: log => lastAssigned pwd log

/-- From a last assigned password on, each success assigns a password, and each connection is made
with the last one assigned. -/
def FreshFrom : Option CharBlock → List MqttEvent → Prop
  | _, [] => True
  | pwd, .derived result assigned :: log =>
    (result = IOTA_SUCCESS → assigned ≠ none) ∧
      FreshFrom (if result = IOTA_SUCCESS then assigned else pwd) log
  | pwd, .connect _ options :: log =>
    (∃ p copy, pwd = some p ∧ options.password = some copy ∧ copy.text = p.text) ∧
      FreshFrom pwd log
  | pwd, _ :: log => FreshFrom pwd log

/-- **No stale or missing password** in the run so far. -/
def PasswordsFresh (s : MqttState) : Prop := FreshFrom none s.log

/-- No derivation step of the run so far has failed. -/
def DerivationsSucceed (log : List MqttEvent) : Prop :=
  ∀ result, .derivationStep result ∈ log → result = IOTA_SUCCESS

/-! ### The log -/

theorem lastAssigned_append (pwd : Option CharBlock) (log events : List MqttEvent) :
    lastAssigned pwd (log ++ events) = lastAssigned (lastAssigned pwd log) events := by
  induction log generalizing pwd with
  | nil => rfl
  | cons event log ih => cases event <;> exact ih _

theorem freshFrom_append (pwd : Option CharBlock) (log events : List MqttEvent) :
    FreshFrom pwd (log ++ events) ↔
      FreshFrom pwd log ∧ FreshFrom (lastAssigned pwd log) events := by
  induction log generalizing pwd with
  | nil => simp [FreshFrom, lastAssigned]
  | cons event log ih => cases event <;> simp [FreshFrom, lastAssigned, ih, and_assoc]

theorem derivationsSucceed_append (log events : List MqttEvent) :
    DerivationsSucceed (log ++ events) ↔ DerivationsSucceed log ∧ DerivationsSucceed events := by
  simp only [DerivationsSucceed, List.mem_append, or_imp, forall_and]

/-- The derivation steps themselves say nothing about a password. -/
theorem freshFrom_derivationSteps (pwd : Option CharBlock) (results : List ℤ) :
    FreshFrom pwd (results.map .derivationStep) ∧
      lastAssigned pwd (results.map .derivationStep) = pwd := by
  induction results with
  | nil => exact ⟨trivial, rfl⟩
  | cons r results ih => exact ih

/-- Events in which nothing is derived and nothing is connected. -/
theorem CreateEvents.freshFrom {g : MqttBase} {events : List MqttEvent} (h : CreateEvents g events)
    (pwd : Option CharBlock) :
    FreshFrom pwd events ∧ lastAssigned pwd events = pwd ∧ DerivationsSucceed events := by
  cases h with
  | nothing => exact ⟨trivial, rfl, by simp [DerivationsSucceed]⟩
  | create => exact ⟨trivial, rfl, by simp [DerivationsSucceed]⟩

/-- `g_encryptedPassword` is the password assigned last, unless it has been cleared. -/
def IsLastAssigned (last pwd : Option CharBlock) : Prop :=
  ∀ p, pwd = some p → last = some p ∧ p.text.length ≤ PASSWORD_ENCRYPT_LENGTH

/-- A connection with the password assigned last. -/
theorem ConnectEvents.freshFrom {pwd last : Option CharBlock} {events : List MqttEvent}
    (h : ConnectEvents pwd True events) (hpwd : IsLastAssigned last pwd) :
    FreshFrom last events := by
  cases h with
  | nothing => trivial
  | connect hpassword =>
    obtain ⟨p, copy, hp, hcopy, htext⟩ := hpassword trivial
    obtain ⟨hlast, hlength⟩ := hpwd p hp
    exact ⟨⟨p, copy, hlast, hcopy, by rw [htext, List.take_of_length_le hlength]⟩, trivial⟩

theorem ConnectEvents.lastAssigned_eq {pwd : Option CharBlock} {secretMode : Prop}
    {events : List MqttEvent} (h : ConnectEvents pwd secretMode events) (last : Option CharBlock) :
    lastAssigned last events = last ∧ DerivationsSucceed events := by
  cases h with
  | nothing => exact ⟨rfl, by simp [DerivationsSucceed]⟩
  | connect => exact ⟨rfl, by simp [DerivationsSucceed]⟩

/-- **One call of `GetEncryptedPassword`**: its events are fresh exactly when its steps succeed, and
then `g_encryptedPassword` is what has been assigned last. -/
theorem PasswordEvents.freshFrom {old pwd last : Option CharBlock} {events : List MqttEvent}
    (h : PasswordEvents old pwd events) :
    (FreshFrom last events ↔ DerivationsSucceed events) ∧
      (DerivationsSucceed events → IsLastAssigned last old →
        IsLastAssigned (lastAssigned last events) pwd) := by
  cases h with
  | nothing hpwd =>
    refine ⟨by simp [FreshFrom, DerivationsSucceed], fun _ hold => ?_⟩
    rw [hpwd]
    exact hold
  | rejected hne hpwd =>
    refine ⟨by simp [FreshFrom, DerivationsSucceed, hne], fun _ hold => ?_⟩
    rw [hpwd, lastAssigned, if_neg hne]
    exact hold
  | @derived results assigned hderived =>
    obtain ⟨hfresh, hlast⟩ := freshFrom_derivationSteps last results
    rw [freshFrom_append, lastAssigned_append, hlast, derivationsSucceed_append]
    cases hderived with
    | @succeeded p hresults hpwd hassigned hlength =>
      subst hpwd hassigned
      have hsucceed : DerivationsSucceed (results.map .derivationStep) := by
        simpa [DerivationsSucceed] using hresults
      have hlastStep : DerivationsSucceed [.derived IOTA_SUCCESS (some p)] := by
        simp [DerivationsSucceed]
      refine ⟨by simp [hfresh, hsucceed, hlastStep, FreshFrom], fun _ _ q hq => ?_⟩
      obtain rfl := Option.some.inj hq
      exact ⟨rfl, hlength⟩
    | failed hresults hassigned =>
      have hfails : ¬DerivationsSucceed (results.map .derivationStep) := by
        simpa [DerivationsSucceed] using hresults
      exact ⟨by simp [hfails, FreshFrom, hassigned], fun h => absurd h.1 hfails⟩

/-! ### Runs -/

/-- What holds throughout a run in secret mode. -/
structure PasswordInv (s : MqttState) : Prop where
  authMode_eq : s.base.g_authMode = 0
  pwd : DerivationsSucceed s.log →
    IsLastAssigned (lastAssigned none s.log) s.base.g_encryptedPassword
  fresh_iff : PasswordsFresh s ↔ DerivationsSucceed s.log

/-- **One step.** -/
theorem passwordInv_step (s : MqttState) (op : MqttOp) (s' : MqttState)
    (hop : op.KeepsSecretMode) (hs : PasswordInv s) (h : mqttStep env s op s') :
    PasswordInv s' := by
  cases mqttStep_outcome h with
  | @connects password create connect _ hconnects =>
    obtain ⟨hcreateFresh, hcreateLast, hcreate⟩ :=
      hconnects.create.freshFrom (lastAssigned (lastAssigned none s.log) password)
    obtain ⟨hconnectLast, hconnect⟩ := hconnects.connect.lastAssigned_eq
      (lastAssigned (lastAssigned none s.log) password)
    obtain ⟨hfresh, hpwd⟩ := @PasswordEvents.freshFrom _ _ (lastAssigned none s.log) _
      hconnects.password
    -- only the events of the password derive one
    have hsucceed : DerivationsSucceed s'.log ↔
        DerivationsSucceed s.log ∧ DerivationsSucceed password := by
      rw [hconnects.log_eq]
      simp only [derivationsSucceed_append, hcreate, hconnect, and_true]
    have hlast : DerivationsSucceed s'.log →
        IsLastAssigned (lastAssigned (lastAssigned none s.log) password)
          s'.base.g_encryptedPassword := by
      intro h'
      obtain ⟨hlog, hpassword⟩ := hsucceed.mp h'
      exact hpwd hpassword (hs.pwd hlog)
    -- a connection appends its password, its creation and itself to the log
    refine ⟨hconnects.untouched.authMode_eq.trans hs.authMode_eq, ?_, ?_⟩
    · rw [hconnects.log_eq]
      simp only [lastAssigned_append, hcreateLast, hconnectLast]
      rw [← hconnects.log_eq]
      exact hlast
    · have hconnectFresh : DerivationsSucceed s'.log →
          FreshFrom (lastAssigned (lastAssigned none s.log) password) connect := by
        intro h'
        have hevents := hconnects.connect
        rw [eq_true hs.authMode_eq] at hevents
        exact hevents.freshFrom (hlast h')
      have hall : PasswordsFresh s' ↔ PasswordsFresh s ∧
          FreshFrom (lastAssigned none s.log) password ∧
          FreshFrom (lastAssigned (lastAssigned none s.log) password) connect := by
        unfold PasswordsFresh
        rw [hconnects.log_eq]
        simp only [freshFrom_append, lastAssigned_append, hcreateLast, hcreateFresh, and_true,
          and_assoc]
      rw [hall, hs.fresh_iff, hfresh]
      constructor
      · exact fun h' => hsucceed.mpr ⟨h'.1, h'.2.1⟩
      · intro h'
        obtain ⟨hlog, hpassword⟩ := hsucceed.mp h'
        exact ⟨hlog, hpassword, hconnectFresh h'⟩
  | configures _ hconfigures =>
    refine ⟨hconfigures.authMode hop hs.authMode_eq, ?_, ?_⟩
    · rw [hconfigures.log_eq]
      -- a configuration derives no password, and clears it or leaves it
      intro hlog p hp
      rcases hconfigures.pwd with hpwd | hpwd
      · exact hs.pwd hlog p (hpwd.symm.trans hp)
      · rw [hpwd] at hp
        cases hp
    · unfold PasswordsFresh
      rw [hconfigures.log_eq]
      exact hs.fresh_iff

/-- **No stale or missing password** in a run in secret mode exactly when none of its derivation
steps has failed. -/
theorem passwordsFresh_iff (h : Run (mqttStep env) {} steps s)
    (hsecret : ∀ x ∈ steps, x.2.KeepsSecretMode) : PasswordsFresh s ↔ DerivationsSucceed s.log := by
  have hinit : PasswordInv {} :=
    ⟨rfl, fun _ p hp => (nomatch hp), by simp [PasswordsFresh, FreshFrom, DerivationsSucceed]⟩
  exact (h.inv_when passwordInv_step hinit hsecret).fresh_iff

/-- The passwords that the successful calls of `GetEncryptedPassword` assign. -/
def assignments (log : List MqttEvent) : List (Option CharBlock) :=
  log.filterMap fun event =>
    match event with
    | .derived result assigned => if result = IOTA_SUCCESS then some assigned else none
    | _ => none

theorem FreshFrom.assignments_ne {pwd : Option CharBlock} {log : List MqttEvent}
    (h : FreshFrom pwd log) : none ∉ assignments log := by
  induction log generalizing pwd with
  | nil => simp [assignments]
  | cons event log ih =>
    cases event with
    | derived result assigned =>
      have hrest := ih h.2
      by_cases hresult : result = IOTA_SUCCESS
      · have hassigned := (h.1 hresult).symm
        simpa [assignments, hresult, hassigned] using hrest
      · simpa [assignments, hresult] using hrest
    | derivationStep result => exact ih h
    | create url clientId ssl => exact ih h
    | connect client options => exact ih h.2

/-- The sample client connects twice, the second time without a device secret. -/
def secretRemoved : List MqttOp :=
  sampleConfig "1883" ++ [.createConnection,
    .setConfig (some .bsGroupSecret) (sampleText "YWJj"),
    .setConfig (some .password) (sampleText ""),
    .setConfig (some .resetSecretInProgress) (sampleText "0"), .createConnection]

/-- The sample client connects twice, the second time with another device secret. -/
def secretChanged : List MqttOp :=
  sampleConfig "1883" ++ [.createConnection, .destory] ++ sampleConfig "1883" ++
    [.setConfig (some .password) (sampleText "q"), .createConnection]

/-- Both connections are made with a password of their own. -/
theorem passwordsFresh_iff_twice : ∃ steps s, Run (mqttStep sampleMqttEnv) {} steps s ∧
    (assignments s.log).length = 2 ∧ PasswordsFresh s := by
  have hlog : (sampleRun secretChanged).map
      (fun r => (assignments r.2.log).length = 2 && r.2.log.all fun event =>
        match event with
        | .derivationStep result => result = IOTA_SUCCESS
        | _ => true) = some true := by decide +kernel
  obtain ⟨⟨steps, s⟩, hsteps, hsome⟩ := Option.map_eq_some_iff.mp hlog
  obtain ⟨hlength, hall⟩ := Bool.and_eq_true_iff.mp hsome
  have hrun := Run.of_steps hsteps
  refine ⟨steps, s, hrun, of_decide_eq_true hlength, (passwordsFresh_iff hrun ?_).mpr ?_⟩
  · rw [← List.forall_mem_map, Run.steps?_ops hsteps]
    simp [secretChanged, sampleConfig, MqttOp.KeepsSecretMode]
  · intro result hmem
    exact of_decide_eq_true (List.all_eq_true.mp hall _ hmem)

/-- Without a device secret `GetEncryptedPassword` succeeds and assigns nothing. -/
theorem passwordsFresh_secretRemoved_false :
    ¬∀ env steps s, Run (mqttStep env) {} steps s → (∀ x ∈ steps, x.2.KeepsSecretMode) →
      PasswordsFresh s := by
  intro h
  have hlog : (sampleRun secretRemoved).map
      (fun r => decide (none ∈ assignments r.2.log)) = some true := by decide +kernel
  obtain ⟨⟨steps, s⟩, hsteps, hnone⟩ := Option.map_eq_some_iff.mp hlog
  have hsecret : ∀ x ∈ steps, x.2.KeepsSecretMode := by
    rw [← List.forall_mem_map, Run.steps?_ops hsteps]
    simp [secretRemoved, sampleConfig, MqttOp.KeepsSecretMode]
  have hfresh := h sampleMqttEnv steps s (Run.of_steps hsteps) hsecret
  exact hfresh.assignments_ne (of_decide_eq_true hnone)

end IotDeviceSdk.Base
