import IotDeviceSdk.CJson.Equiv.Env
import IotDeviceSdk.DeviceRule.Equiv.RuleManager

/-!
# The rule file with the text functions of `cJSON`

A device that saves its mirror, starts again and loads the file has the mirror as it is read back:
numbers that `print_number` shortens are other numbers then.  `restarts_restore`: from the first
restart on, nothing changes any more.
-/

namespace IotDeviceSdk

namespace CJson

/-! ### Values that are read back -/

theorem reprintedElements_eq_map (vs : List CJson) : reprintedElements vs = vs.map reprinted := by
  induction vs with
  | nil => rfl
  | cons v vs ih => exact congrArg (List.cons _) ih

theorem isBytes_reprinted (v : CJson) (h : v.IsBytes) : v.reprinted.IsBytes := by
  revert h
  apply all_induction (P := fun v => v.IsBytes → v.reprinted.IsBytes)
    (E := fun vs => ElementsBytes vs → ElementsBytes (reprintedElements vs))
    (M := fun members => MembersBytes members → MembersBytes (reprintedMembers members))
  · exact fun h => h
  · exact fun _ h => h
  · intro d h
    show IsBytes (if isInf d then .null else .number (Json.rereadNumber d))
    split_ifs <;> trivial
  · exact fun _ h => h
  · exact fun _ ih h => ih h
  · exact fun _ ih h => ih h
  · exact fun h => h
  · exact fun _ _ hv hvs h => ⟨hv h.1, hvs h.2⟩
  · exact fun h => h
  · exact fun _ _ _ hv hmembers h => ⟨⟨h.1.1, hv h.1.2⟩, hmembers h.2⟩

theorem find_reprintedMembers (p : String → Bool) (members : List (String × CJson)) :
    (reprintedMembers members).find? (fun m => p m.1) =
      (members.find? fun m => p m.1).map fun m => (m.1, m.2.reprinted) := by
  induction members with
  | nil => rfl
  | cons m members ih =>
    obtain ⟨key, v⟩ := m
    show List.find? _ ((key, v.reprinted) :: reprintedMembers members) = _
    rw [List.find?_cons, List.find?_cons, ih]
    cases p key <;> rfl

theorem getObjectItem_reprinted (v : CJson) (name : String) :
    getObjectItem (some v.reprinted) name = (getObjectItem (some v) name).map reprinted := by
  cases v with
  | number d =>
    show getObjectItem (some (if isInf d then .null else .number (Json.rereadNumber d))) name = _
    split_ifs <;> rfl
  | object child =>
    show ((reprintedMembers child).find? fun m => caseInsensitiveEq name m.1).map Prod.snd = _
    show _ = ((child.find? fun m => caseInsensitiveEq name m.1).map Prod.snd).map reprinted
    rw [find_reprintedMembers fun key => caseInsensitiveEq name key, Option.map_map, Option.map_map]
    rfl
  | _ => rfl

/-- Texts are read back as they are. -/
theorem getString_reprinted (v : CJson) (name : String) :
    getString (some v.reprinted) name = getString (some v) name := by
  unfold getString
  rw [getObjectItem_reprinted]
  cases getObjectItem (some v) name with
  | none => rfl
  | some item =>
    cases item with
    | number d =>
      show getStringValue (some (if isInf d then .null else .number (Json.rereadNumber d))) = none
      split_ifs <;> rfl
    | _ => rfl

end CJson

namespace DeviceRule

open CJson Prog

variable {env : Env}

/-! ### Mirrors -/

/-- The mirror as it is read back. -/
abbrev readBack (mirror : List CJson) : List CJson := mirror.map reprinted

theorem forall_readBack {P : CJson → Prop} {mirror : List CJson}
    (h : ∀ rule ∈ mirror, P rule.reprinted) : ∀ rule ∈ readBack mirror, P rule :=
  List.forall_mem_map.mpr h

theorem reprinted_ruleFileRoot (mirror : List CJson) :
    (ruleFileRoot mirror).reprinted = ruleFileRoot (readBack mirror) := by
  show CJson.object [("rulesInfos", CJson.array (reprintedElements mirror))] = _
  rw [reprintedElements_eq_map]
  rfl

/-- A mirror the rule file can hold: its texts are C strings, its numbers doubles that stay finite,
its ids differ, its entries parse when they have been read back, and its text fits the buffers of
`cJSON_Print` before and after. -/
structure Storable (mirror : List CJson) : Prop where
  isBytes : ∀ rule ∈ mirror, rule.IsBytes
  isDouble : ∀ rule ∈ mirror, rule.AllNumbers IsDouble
  finite : ∀ rule ∈ mirror, rule.reprinted.AllNumbers fun d => isInf d = false
  nesting : ∀ rule ∈ mirror, rule.nesting + 2 ≤ Json.CJSON_NESTING_LIMIT
  nodup : (mirror.map entryId).Nodup
  accepted : ∀ rule ∈ mirror, ruleAccepted rule.reprinted = true
  fits : (ruleFileRoot mirror).FitsBuffers
  fitsAgain : (ruleFileRoot (readBack mirror)).FitsBuffers

theorem readBack_readBack {mirror : List CJson} (h : Storable mirror) :
    readBack (readBack mirror) = readBack mirror := by
  unfold readBack
  rw [List.map_map]
  apply List.map_congr_left
  intro rule hrule
  exact reprinted_reprinted rule (h.finite rule hrule)

theorem entryId_readBack (mirror : List CJson) :
    (readBack mirror).map entryId = mirror.map entryId := by
  unfold readBack
  rw [List.map_map]
  exact List.map_congr_left fun rule _ => getString_reprinted rule "ruleId"

theorem Storable.again {mirror : List CJson} (h : Storable mirror) :
    Storable (readBack mirror) := by
  have hstable : ∀ rule ∈ mirror, rule.reprinted.reprinted = rule.reprinted :=
    fun rule hrule => reprinted_reprinted rule (h.finite rule hrule)
  refine ⟨?_, ?_, ?_, ?_, ?_, ?_, h.fitsAgain, ?_⟩
  · exact forall_readBack fun rule hrule => isBytes_reprinted rule (h.isBytes rule hrule)
  · exact forall_readBack fun rule hrule =>
      allNumbers_reprinted rule (h.isDouble rule hrule)
  · refine forall_readBack fun rule hrule => ?_
    rw [hstable rule hrule]
    exact h.finite rule hrule
  · refine forall_readBack fun rule hrule => ?_
    rw [nesting_reprinted]
    exact h.nesting rule hrule
  · rw [entryId_readBack]
    exact h.nodup
  · refine forall_readBack fun rule hrule => ?_
    rw [hstable rule hrule]
    exact h.accepted rule hrule
  · rw [readBack_readBack h]
    exact h.fitsAgain

/-! ### Restarts -/

theorem elementsBytes_iff (vs : List CJson) : ElementsBytes vs ↔ ∀ v ∈ vs, v.IsBytes := by
  induction vs with
  | nil => exact ⟨fun _ _ hv => absurd hv List.not_mem_nil, fun _ => trivial⟩
  | cons v vs ih =>
    rw [List.forall_mem_cons, ← ih]
    rfl

theorem elementsNumbers_iff {P : ℚ → Prop} (vs : List CJson) :
    ElementsNumbers P vs ↔ ∀ v ∈ vs, v.AllNumbers P := by
  induction vs with
  | nil => exact ⟨fun _ _ hv => absurd hv List.not_mem_nil, fun _ => trivial⟩
  | cons v vs ih =>
    rw [List.forall_mem_cons, ← ih]
    rfl

theorem isByteText_of_all {s : String}
    (h : (s.toList.all fun c => decide (0 < c.toNat ∧ c.toNat < 256)) = true) : IsByteText s :=
  fun c hc => of_decide_eq_true (List.all_eq_true.mp h c hc)

theorem Storable.isBytes_root {mirror : List CJson} (h : Storable mirror) :
    (ruleFileRoot mirror).IsBytes :=
  ⟨⟨isByteText_of_all (by decide), (elementsBytes_iff mirror).mpr h.isBytes⟩, trivial⟩

theorem Storable.isDouble_root {mirror : List CJson} (h : Storable mirror) :
    (ruleFileRoot mirror).AllNumbers IsDouble :=
  ⟨(elementsNumbers_iff mirror).mpr h.isDouble, trivial⟩

/-- The file of a storable mirror is parsed to the mirror as it is read back. -/
theorem Storable.parseJson {mirror : List CJson} (h : Storable mirror) {content : String}
    (hprint : env.withCJson.printJson (ruleFileRoot mirror) = some content) :
    env.withCJson.parseJson content = some (ruleFileRoot (readBack mirror)) := by
  rw [← reprinted_ruleFileRoot]
  refine Env.parseJson_printJson h.isBytes_root h.isDouble_root ?_ hprint
  have hle : elementsNesting mirror ≤ Json.CJSON_NESTING_LIMIT - 2 := by
    apply Json.Dialect.elementsNesting_le
    intro rule hrule
    have hrule' := h.nesting rule hrule
    omega
  show max (elementsNesting mirror + 1) 0 + 1 ≤ Json.CJSON_NESTING_LIMIT
  have hlimit : 2 ≤ Json.CJSON_NESTING_LIMIT := by decide
  omega

/-- What a device has when it has loaded the mirror. -/
structure Loaded (path : String) (mirror : List CJson) (mgr : RuleMgr) : Prop where
  rules : AllParsedFrom mirror mgr.ruleInfosList
  mirror : mgr.ruleInfosListJSON = mirror
  ruleFilePath : mgr.ruleFilePath = some path

section Restart

variable {path real : String} (hA : env.AllocsSucceed) (hlen : path.length + 1 < INT32_MAX)
  (hpath : env.realpath path = some real) (hwritable : env.writable real = true)

include hA hlen hpath hwritable

/-- One restart. -/
theorem saveThenLoad_loaded {mirror : List CJson} (h : Storable mirror) (files : Files) :
    Returns env.withCJson (saveThenLoad path mirror files) fun r =>
      ∃ mgr, r = some mgr ∧ Loaded path (readBack mirror) mgr := by
  have hA' : env.withCJson.AllocsSucceed := hA
  obtain ⟨content, hprint⟩ := @Env.exists_printJson env _ h.isBytes_root h.isDouble_root h.fits
  apply (ruleJSONObjSaveToFile_returns hA' (some path) mirror files).bind
  intro files' hfiles'
  have hcontent : files' real = some content := by
    rw [hfiles' path content real rfl hprint hpath hwritable, Function.update_self]
  apply (ruleMgrInit_returns files').bind
  intro r hr
  obtain ⟨mgr, rfl⟩ := Option.isSome_iff_exists.mp (hr.2 hA')
  obtain rfl := hr.1 mgr rfl
  have hnodup : ((readBack mirror).map entryId).Nodup := by
    rw [entryId_readBack]
    exact h.nodup
  have hrules : ∀ rule ∈ readBack mirror, Parses env.withCJson rule :=
    forall_readBack fun rule hrule => parses_of_accepted hA' (h.accepted rule hrule)
  refine (enableDeviceRuleStorage_fresh hA' hlen hpath hcontent (h.parseJson hprint) hnodup
    hrules).bind fun mgr hmgr => returns_pure ?_
  obtain ⟨hall, hmirror, hfilePath, -⟩ := hmgr
  exact ⟨mgr, rfl, hall, hmirror, hfilePath⟩

end Restart

/-- Save the mirror and start again, so many times. -/
def restarts (path : String) : ℕ → RuleMgr → Sdk (Option RuleMgr)
  | 0, mgr => return some mgr
  | n + 1, mgr => do
    let some mgr ← saveThenLoad path mgr.ruleInfosListJSON mgr.files
      | return none
    restarts path n mgr

/-- Restarts of a device that has loaded a mirror which is read back as it is. -/
theorem restarts_loaded {path real : String} (hA : env.AllocsSucceed)
    (hlen : path.length + 1 < INT32_MAX) (hpath : env.realpath path = some real)
    (hwritable : env.writable real = true) {mirror : List CJson} (h : Storable mirror)
    (hstable : readBack mirror = mirror) {mgr : RuleMgr} (hmgr : Loaded path mirror mgr) (n : ℕ) :
    Returns env.withCJson (restarts path n mgr) fun r =>
      ∃ mgr', r = some mgr' ∧ Loaded path mirror mgr' := by
  induction n generalizing mgr with
  | zero => exact returns_pure ⟨mgr, rfl, hmgr⟩
  | succ n ih =>
    unfold restarts
    rw [hmgr.mirror]
    apply (saveThenLoad_loaded hA hlen hpath hwritable h mgr.files).bind
    rintro r ⟨mgr', rfl, hloaded⟩
    rw [hstable] at hloaded
    exact ih hloaded

/-- **Restarts keep the rules**: however often a device saves its mirror and starts again, it has the
rules its entries parse to when they are read back, in order, and the mirror of these entries. -/
theorem restarts_restore {path real : String} (hA : env.AllocsSucceed)
    (hlen : path.length + 1 < INT32_MAX) (hpath : env.realpath path = some real)
    (hwritable : env.writable real = true) {mgr : RuleMgr}
    (h : Storable mgr.ruleInfosListJSON) (n : ℕ) :
    Returns env.withCJson (restarts path (n + 1) mgr) fun r => ∃ mgr', r = some mgr' ∧
      AllParsedFrom (readBack mgr.ruleInfosListJSON) mgr'.ruleInfosList ∧
      mgr'.ruleInfosListJSON = readBack mgr.ruleInfosListJSON ∧
      mgr'.ruleFilePath = some path := by
  unfold restarts
  apply (saveThenLoad_loaded hA hlen hpath hwritable h mgr.files).bind
  rintro r ⟨mgr₁, rfl, hloaded⟩
  have hmore := restarts_loaded hA hlen hpath hwritable h.again (readBack_readBack h) hloaded n
  refine hmore.mono ?_
  rintro r ⟨mgr', rfl, hmgr'⟩
  exact ⟨mgr', rfl, hmgr'.rules, hmgr'.mirror, hmgr'.ruleFilePath⟩

/-- A world with a file system. -/
def fileEnv : Env :=
  { Env.plentiful with realpath := fun path => some path, writable := fun _ => true }

/-- A mirror with one entry. -/
theorem storable_bareEntry : Storable [bareEntry "a" 1 .null] := by
  have hone : IsDouble ((1 : ℤ) : ℚ) := isDouble_intCast (by decide)
  have hfinite : isInf 1 = false := by decide +kernel
  have hread : isInf (Json.rereadNumber 1) = false := by decide +kernel
  refine ⟨?_, ?_, ?_, by decide, by simp, by decide +kernel, by decide +kernel,
    by decide +kernel⟩
  · refine List.forall_mem_singleton.mpr ?_
    repeat' apply And.intro
    all_goals first | exact isByteText_of_all (by decide) | trivial
  · refine List.forall_mem_singleton.mpr ?_
    exact ⟨trivial, trivial, trivial, trivial, hone, trivial, trivial, trivial, trivial⟩
  · refine List.forall_mem_singleton.mpr ?_
    simp only [bareEntry, reprinted, reprintedMembers, reprintedElements, AllNumbers,
      MembersNumbers, ElementsNumbers, hfinite, hread, if_neg Bool.false_ne_true, and_true]

theorem restarts_restore_bareEntry :
    Returns fileEnv.withCJson (restarts "/rules" 3
        { ruleInfosListJSON := [bareEntry "a" 1 .null], files := fun _ => none }) fun r =>
      ∃ mgr', r = some mgr' ∧ mgr'.ruleInfosListJSON = readBack [bareEntry "a" 1 .null] ∧
        mgr'.ruleFilePath = some "/rules" := by
  have hrestarts := @restarts_restore fileEnv "/rules" "/rules" (fun _ => rfl) (by decide) rfl rfl
    { ruleInfosListJSON := [bareEntry "a" 1 .null], files := fun _ => none } storable_bareEntry 2
  refine hrestarts.mono ?_
  rintro r ⟨mgr', hr, -, hmirror, hfilePath⟩
  exact ⟨mgr', hr, hmirror, hfilePath⟩

end DeviceRule

end IotDeviceSdk
