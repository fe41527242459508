import IotDeviceSdk.DeviceRule.Equiv.RuleParser
import IotDeviceSdk.Prog.Settled

/-!
# When an entry determines its rule

`GMTTimestampFromStr` takes the components it does not find in the text from uninitialised memory,
so an entry with such a timestamp may be parsed to two different rules.  It is the only place where
`ParseSingleRule` looks at anything but the entry (`determined_of_timestampsComplete`).
-/

namespace IotDeviceSdk.DeviceRule

open CJson Prog

variable {α β δ : Type}

/-- A function that copies or reads a value. -/
abbrev SettledValue (p : Sdk (Option δ)) : Prop := Settled some p

/-- A function that fills a record and answers `0` or `ERRVAL`. -/
abbrev SettledRecord (p : Sdk (δ × ℤ)) : Prop := Settled (fun a => (a, (0 : ℤ))) p

/-- A loop that succeeds when it runs to its end. -/
abbrev SettledLoop (p : Sdk (ForInStep δ)) : Prop := Settled ForInStep.yield p

theorem settledRecord_pure (result : δ × ℤ) : SettledRecord (pure result) :=
  settled_pure (fun _ _ h => (Prod.mk.inj h).1) result

theorem settledLoop_pure (step : ForInStep δ) : SettledLoop (pure step) :=
  settled_pure (fun _ _ h => ForInStep.yield.inj h) step

theorem errval_ne {a d : δ} : (a, ERRVAL) ≠ (d, (0 : ℤ)) := by
  intro heq
  have hzero : ERRVAL = 0 := (Prod.mk.inj heq).2
  exact absurd hzero (by decide)

/-- One `CHECK_FALSE_RETURN_ERRVAL`. -/
theorem SettledValue.check {p : Sdk (Option β)} {f : Option β → Sdk (α × ℤ)} {a : α}
    (hp : SettledValue p) (hnone : f none = pure (a, ERRVAL))
    (hsome : ∀ b, SettledRecord (f (some b))) : SettledRecord (p >>= f) := by
  refine Settled.bind hp (fun r hr env => ?_) hsome
  cases r with
  | none =>
    rw [hnone]
    exact yields_pure fun d => errval_ne
  | some b => exact absurd rfl (hr b)

/-- A record that is put into another one. -/
theorem SettledRecord.map {p : Sdk (β × ℤ)} (hp : SettledRecord p) (f : β → α) :
    SettledRecord (p >>= fun result => pure (f result.1, result.2)) := by
  refine Settled.bind hp (fun r hr env => yields_pure fun d heq => ?_) fun b => settledRecord_pure _
  have hzero : r.2 = 0 := (Prod.mk.inj heq).2
  exact hr r.1 (by rw [← hzero])

/-! ### Conditions and actions -/

theorem settled_cStrDuplicateNotNULL (s : Option String) : SettledValue (cStrDuplicateNotNULL s) :=
  ⟨s, fun _ => (cStrDuplicateNotNULL_supplies s).yields.mono fun _ hr => hr.1⟩

theorem settled_cJsonDuplicate (item : Option CJson) : SettledValue (cJsonDuplicate item) :=
  ⟨item, fun _ => (cJsonDuplicate_supplies item).yields.mono fun _ hr => hr.1⟩

theorem settled_parseCmdAction (action : Action) (json : CJson) :
    SettledRecord (parseCmdAction action json) := by
  unfold parseCmdAction
  refine (settled_cStrDuplicateNotNULL _).check rfl fun type => ?_
  refine (settled_cStrDuplicateNotNULL _).check rfl fun status => ?_
  refine (settled_cStrDuplicateNotNULL _).check rfl fun deviceId => ?_
  refine (settled_cStrDuplicateNotNULL _).check rfl fun commandName => ?_
  refine (settled_cStrDuplicateNotNULL _).check rfl fun serviceId => ?_
  refine (settled_cJsonDuplicate _).check rfl fun commandBody => ?_
  exact settledRecord_pure _

theorem settled_parsePropCondition (json : CJson) : SettledRecord (parsePropCondition {} json) := by
  have hdevice : ∀ deviceInfo item, SettledRecord (parseDeviceInfo deviceInfo item) := by
    intro deviceInfo item
    unfold parseDeviceInfo
    refine (settled_cStrDuplicateNotNULL _).check rfl fun deviceId => ?_
    refine (settled_cStrDuplicateNotNULL _).check rfl fun path => ?_
    exact settledRecord_pure _
  unfold parsePropCondition
  refine (settled_cStrDuplicateNotNULL _).check rfl fun operator => ?_
  refine (settled_cStrDuplicateNotNULL _).check rfl fun value => ?_
  cases getObjectItem json "deviceInfo" with
  | none => exact settledRecord_pure _
  | some item => exact (hdevice _ item).map _

/-- A timestamp that `GMTTimestampFromStr` refuses or of which it reads all six components. -/
def timestampComplete : Option String → Bool
  | none => true
  | some s => ((sscanf [.int, .lit '-', .int, .lit '-', .int, .blank, .int, .lit ':', .int,
      .lit ':', .int] s.toList).map List.length).all (· == 6)

theorem settled_gmtTimestampFromStr {s : Option String} (h : timestampComplete s = true) :
    SettledValue (gmtTimestampFromStr s) := by
  cases s with
  | none => exact ⟨none, fun _ => yields_trivial.bind fun _ _ => yields_pure (by simp)⟩
  | some s =>
    unfold timestampComplete at h
    unfold gmtTimestampFromStr
    dsimp only at h ⊢
    cases hscan : sscanf [.int, .lit '-', .int, .lit '-', .int, .blank, .int, .lit ':', .int,
        .lit ':', .int] s.toList with
    | none => exact ⟨none, fun _ => yields_trivial.bind fun _ _ => yields_pure (by simp)⟩
    | some values =>
      rw [hscan] at h
      match values, h with
      | [year, mon, mday, hour, min, sec], _ =>
        -- no component is left to the uninitialised time
        refine ⟨some (timegm ⟨sec, min, hour, mday, cInt (mon - 1), cInt (year - 1900)⟩), ?_⟩
        exact fun _ => yields_trivial.bind fun _ _ => yields_pure fun t ht => ht

theorem settled_parseSimpleTimerCondition {json : CJson}
    (h : timestampComplete (getString json "startTime") = true) :
    SettledRecord (parseSimpleTimerCondition {} json) := by
  unfold parseSimpleTimerCondition
  refine (settled_gmtTimestampFromStr h).check rfl fun startTime => ?_
  cases getIntValueFromJson (getObjectItem json "repeatInterval") with
  | none => exact settledRecord_pure _
  | some repeatInterval =>
    cases getIntValueFromJson (getObjectItem json "repeatCount") with
    | none => exact settledRecord_pure _
    | some repeatCount => exact settledRecord_pure _

/-- The start time of a simple timer is complete. -/
def conditionTimestampComplete (json : CJson) : Bool :=
  match (getString json "type").map conditionTypeFromStr with
  | some .simpleTimer => timestampComplete (getString json "startTime")
  | _ => true

theorem settled_parseSingleCondition {json : CJson} (h : conditionTimestampComplete json = true)
    (condition : Condition) : SettledRecord (parseSingleCondition condition json) := by
  unfold parseSingleCondition
  unfold conditionTimestampComplete at h
  cases htype : getString json "type" with
  | none => exact settledRecord_pure _
  | some type =>
    rw [htype, Option.map_some] at h
    dsimp only
    cases hcond : conditionTypeFromStr type with
    | deviceData => exact (settled_parsePropCondition json).map _
    | simpleTimer =>
      rw [hcond] at h
      exact (settled_parseSimpleTimerCondition h).map _
    | dailyTimer => exact settledRecord_pure _
    | empty => exact settledRecord_pure _

theorem settled_dynamicArrayPush (items : List α) (item : α) :
    SettledValue (dynamicArrayPush items (pure (some item))) := by
  refine ⟨some (items ++ [item], item), fun _ =>
    dynamicArrayPush_returns.yields.mono fun r hr => ?_⟩
  intro d hd
  rcases hr.1 with hnone | hsome
  · rw [hnone] at hd
    cases hd
  · exact hsome.symm.trans hd

/-- A round that fills the pushed item and takes it back when that fails. -/
theorem settledLoop_fill {p : Sdk (α × ℤ)} (hp : SettledRecord p) (f : α → List α) :
    SettledLoop (do
      let (item, result) ← p
      if result ≠ 0 then
        let items ← dynamicArrayPop (f item)
        return .done items
      else return .yield (f item)) := by
  refine Settled.bind hp (fun r hr env => ?_) fun item => ?_
  · have hne : r.2 ≠ 0 := fun hzero => hr r.1 (by rw [← hzero])
    dsimp only
    rw [if_pos hne]
    exact yields_trivial.bind fun _ _ => yields_pure (by simp)
  · exact settledLoop_pure _

theorem settled_parseConditionsStep {json : CJson} (h : conditionTimestampComplete json = true)
    (conditions : List Condition) : SettledLoop (parseConditionsStep json conditions) := by
  refine Settled.bind (settled_dynamicArrayPush conditions .empty) (fun r hr env => ?_) fun d => ?_
  · cases r with
    | none => exact yields_pure (by simp)
    | some d => exact absurd rfl (hr d)
  · exact settledLoop_fill (settled_parseSingleCondition h d.2) (dynamicArrayWriteLast d.1)

theorem settled_parseActionsStep (json : CJson) (actions : List Action) :
    SettledLoop (parseActionsStep json actions) := by
  refine Settled.bind (settled_dynamicArrayPush actions {}) (fun r hr env => ?_) fun d => ?_
  · cases r with
    | none => exact yields_pure (by simp)
    | some d => exact absurd rfl (hr d)
  · exact settledLoop_fill (settled_parseCmdAction d.2 json) (dynamicArrayWriteLast d.1)

/-! ### A whole rule -/

/-- The start times of all simple timers of the entry are complete. -/
def timestampsComplete (rule : CJson) : Bool :=
  (forEachItems (getObjectItem (some rule) "conditions")).all conditionTimestampComplete

theorem settled_parseConditionsAndActions {rule : CJson} (h : timestampsComplete rule = true)
    (info : RuleInfo) : SettledRecord (parseConditionsAndActions info rule) := by
  unfold parseConditionsAndActions
  unfold timestampsComplete at h
  cases hconditions : getObjectItem (some rule) "conditions" with
  | none => exact settledRecord_pure _
  | some conditions =>
    rw [hconditions, forEachItems_some, List.all_eq_true] at h
    have hloop :
        SettledLoop (Prog.forEach parseConditionsStep conditions.children info.conditions) :=
      settled_forEach (fun json hjson => settled_parseConditionsStep (h json hjson)) _
    refine Settled.bind hloop (fun r hr env => ?_) fun cs => ?_
    · cases r with
      | done cs => exact yields_pure fun d => errval_ne
      | yield cs => exact absurd rfl (hr cs)
    · -- no action has a timestamp
      have hloop' : SettledLoop (Prog.forEach parseActionsStep
          (forEachItems (getObjectItem (some rule) "actions")) info.actions) :=
        settled_forEach (fun json _ => settled_parseActionsStep json) _
      refine Settled.bind hloop' (fun r hr env => ?_) fun as => ?_
      · cases r with
        | done as => exact yields_pure fun d => errval_ne
        | yield as => exact absurd rfl (hr as)
      · exact settledRecord_pure _

theorem settled_parseSingleRule {rule : CJson} (h : timestampsComplete rule = true) :
    SettledRecord (parseSingleRule {} rule) := by
  unfold parseSingleRule
  refine (settled_cStrDuplicateNotNULL _).check rfl fun ruleId => ?_
  refine (settled_cStrDuplicateNotNULL _).check rfl fun ruleName => ?_
  refine (settled_cStrDuplicateNotNULL _).check rfl fun status => ?_
  refine (settled_cStrDuplicateNotNULL _).check rfl fun logic => ?_
  cases getIntValueFromJson (getObjectItem (some rule) "ruleVersionInShadow") with
  | none => exact settledRecord_pure _
  | some version =>
    dsimp only
    split
    · exact settledRecord_pure _
    · exact settled_parseConditionsAndActions h _

/-- An entry that gives the same rule whenever it is parsed. -/
def Determined (rule : CJson) : Prop :=
  ∀ info info' : RuleInfo, info.ParsedFrom rule → info'.ParsedFrom rule → info = info'

/-- **An entry with complete timestamps determines its rule.** -/
theorem determined_of_timestampsComplete {rule : CJson} (h : timestampsComplete rule = true) :
    Determined rule := by
  rintro info info' ⟨env, hout⟩ ⟨env', hout'⟩
  exact (settled_parseSingleRule h).eq hout hout'

end IotDeviceSdk.DeviceRule
