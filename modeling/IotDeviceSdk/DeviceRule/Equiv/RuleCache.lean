import IotDeviceSdk.DeviceRule.Equiv.RuleManager
import IotDeviceSdk.VersionedStore.Basic

/-!
# The cache of reported properties

The cache keeps the last reported entry of each service (`cacheReports_find`), and
`getPropertyCallback` reads a property of it.  It stops at the first member with the name of the
property and answers `HW_TRUE` also when that member is neither a number nor a string, without
setting the value; the items of an array have no name to compare.

`getPropertyCallback_readsLast_iff`: the callback reads the last reported value exactly when neither
is the case.
-/

namespace IotDeviceSdk.DeviceRule

open CJson Prog VersionedStore

variable {env : Env}

/-! ### The entries of the cache -/

/-- The service of an entry. -/
def serviceIdOf (entry : CJson) : Option String := getString entry "service_id"

theorem beq_serviceId (entry : CJson) (serviceId : String) :
    (getString entry "service_id" == some serviceId) =
      decide (serviceIdOf entry = some serviceId) := beq_eq_decide ..

/-- The reported entries with a service, in their order. -/
def reportedEntries (reports : List (Option CJson)) : List CJson :=
  (reports.flatMap forEachItems).filter fun entry => (serviceIdOf entry).isSome

/-- The entry of a service that was reported last. -/
def lastReported (reports : List (Option CJson)) (serviceId : String) : Option CJson :=
  ((reportedEntries reports).filter fun entry => serviceIdOf entry = some serviceId).getLast?

/-- The cache after an entry that could be copied. -/
def cacheEntry (cache : List CJson) (entry : CJson) : List CJson :=
  if (serviceIdOf entry).isSome then insertLast serviceIdOf cache entry else cache

/-- **One reported entry**: it replaces the entry of its service; when it could not be copied the
old one is gone. -/
theorem cachePropertiesStep_returns {cache : List CJson} (hnodup : (cache.map serviceIdOf).Nodup)
    (entry : CJson) :
    Returns env (cachePropertiesStep cache entry) fun cache' =>
      (cache'.map serviceIdOf).Nodup ∧
      (env.AllocsSucceed → cache' = cacheEntry cache entry) := by
  unfold cachePropertiesStep
  split
  · rename_i hnone
    have hid : serviceIdOf entry = none := hnone
    refine returns_pure ⟨hnodup, fun _ => ?_⟩
    rw [cacheEntry, hid]
    rfl
  · rename_i serviceId hsome
    have hid : serviceIdOf entry = some serviceId := hsome
    have herase : (cache.eraseP fun (serviceItem : CJson) =>
        getString serviceItem "service_id" == some serviceId) =
          without serviceIdOf cache (serviceIdOf entry) := by
      simp only [beq_serviceId]
      rw [hid, eraseP_eq_without hnodup]
    dsimp only
    rw [herase]
    apply (cJsonDuplicate_supplies (some entry)).bind
    rintro copy ⟨hcopy, hsupplied⟩
    cases copy with
    | none =>
      refine returns_pure ⟨nodup_without hnodup, fun hA => ?_⟩
      have h := hsupplied hA
      cases h
    | some copy =>
      obtain rfl : entry = copy := Option.some.inj (hcopy copy rfl)
      refine returns_pure ⟨nodup_insertLast hnodup entry, fun _ => ?_⟩
      rw [cacheEntry, hid]
      simp [insertLast, hid]

theorem foldl_cacheEntry (cache entries : List CJson) :
    entries.foldl cacheEntry cache =
      (entries.filter fun entry => (serviceIdOf entry).isSome).foldl (insertLast serviceIdOf)
        cache :=
  (List.foldl_filter ..).symm

/-- The manager after a report whose entries could be copied. -/
def cacheReport (mgr : RuleMgr) (serviceData : Option CJson) : RuleMgr :=
  { mgr with
    cacheDeviceDataJSON := (forEachItems serviceData).foldl cacheEntry mgr.cacheDeviceDataJSON }

theorem foldl_cacheReport (reports : List (Option CJson)) (mgr : RuleMgr) :
    (reports.foldl cacheReport mgr).cacheDeviceDataJSON =
      (reportedEntries reports).foldl (insertLast serviceIdOf) mgr.cacheDeviceDataJSON := by
  rw [reportedEntries, ← foldl_cacheEntry, List.foldl_flatMap]
  induction reports generalizing mgr with
  | nil => rfl
  | cons serviceData reports ih => exact ih _

theorem ruleMgrCachePropertiesValue_returns {mgr : RuleMgr}
    (hnodup : (mgr.cacheDeviceDataJSON.map serviceIdOf).Nodup) (serviceData : Option CJson) :
    Returns env (ruleMgrCachePropertiesValue serviceData mgr) fun mgr' =>
      (mgr'.cacheDeviceDataJSON.map serviceIdOf).Nodup ∧
      (env.AllocsSucceed → mgr' = cacheReport mgr serviceData) := by
  have hentries : Returns env
      ((forEachItems serviceData).foldlM cachePropertiesStep mgr.cacheDeviceDataJSON)
      fun (cache : List CJson) =>
        (cache.map serviceIdOf).Nodup ∧
        (env.AllocsSucceed →
          cache = (forEachItems serviceData).foldl cacheEntry mgr.cacheDeviceDataJSON) :=
    Returns.foldlM_when (I := fun (cache : List CJson) => (cache.map serviceIdOf).Nodup) hnodup
      fun entry _ _ hcache => cachePropertiesStep_returns hcache entry
  apply hentries.bind
  rintro cache ⟨hcache, heq⟩
  refine returns_pure ⟨hcache, fun hA => ?_⟩
  rw [heq hA]
  rfl

/-- **The cache after some reports**: one entry for each service, and when no allocation fails the
last one. -/
theorem cacheReports_returns (reports : List (Option CJson)) {mgr : RuleMgr}
    (hempty : mgr.cacheDeviceDataJSON = []) :
    Returns env
      (reports.foldlM (fun mgr serviceData => ruleMgrCachePropertiesValue serviceData mgr) mgr)
      fun mgr' =>
        (mgr'.cacheDeviceDataJSON.map serviceIdOf).Nodup ∧
        (env.AllocsSucceed → ∀ serviceId,
          jsonFindServiceInListById mgr'.cacheDeviceDataJSON serviceId =
            lastReported reports serviceId) := by
  have hnodup : (mgr.cacheDeviceDataJSON.map serviceIdOf).Nodup := by simp [hempty]
  have hreports : Returns env
      (reports.foldlM (fun mgr serviceData => ruleMgrCachePropertiesValue serviceData mgr) mgr)
      fun mgr' => (mgr'.cacheDeviceDataJSON.map serviceIdOf).Nodup ∧
        (env.AllocsSucceed → mgr' = reports.foldl cacheReport mgr) :=
    Returns.foldlM_when
      (I := fun (mgr : RuleMgr) => (mgr.cacheDeviceDataJSON.map serviceIdOf).Nodup) hnodup
      fun serviceData _ _ hmgr => ruleMgrCachePropertiesValue_returns hmgr serviceData
  refine hreports.mono fun mgr' hmgr' => ⟨hmgr'.1, fun hA serviceId => ?_⟩
  rw [hmgr'.2 hA, foldl_cacheReport, hempty, jsonFindServiceInListById]
  simp only [beq_serviceId]
  exact find?_foldl_insertLast _ _

/-! ### Reading a property -/

/-- The number or text of an item, as a property value. -/
def propertyValueOf : CJson → Option PropertyValue
  | .string valuestring => some (.cstr valuestring)
  | .number valuedouble => some (.double (.num valuedouble))
  | _ => none

/-- The properties of an entry, each with its name. -/
def propertiesOf (entry : Option CJson) : List (Option String × CJson) :=
  ((getObjectItem entry "properties").map members).getD []

/-- A property of exactly this name has this number or text. -/
def HasProperty (entry : Option CJson) (propertyName : String) (v : PropertyValue) : Prop :=
  ∃ item, (some propertyName, item) ∈ propertiesOf entry ∧ propertyValueOf item = some v

/-- What a callback should answer: a value of the property, `HW_FALSE` when there is none. -/
inductive ReadsValue (entry : Option CJson) (propertyName : String) : Option PropertyRead → Prop
  | value {v : PropertyValue} (h : HasProperty entry propertyName v) :
    ReadsValue entry propertyName (some (.value v))
  | failed (h : ∀ v, ¬HasProperty entry propertyName v) :
    ReadsValue entry propertyName (some .failed)

/-- The properties have names, and the first one of this name, if any, is a number or a text. -/
structure Readable (entry : Option CJson) (propertyName : String) : Prop where
  named : ∀ child, getObjectItem entry "properties" = some (.array child) → child = []
  first : ∀ m, (propertiesOf entry).find? (fun m => m.1 = some propertyName) = some m →
    (propertyValueOf m.2).isSome

/-- The search through properties that have names. -/
theorem findProperty_eq {properties : List (Option String × CJson)}
    (hnamed : ∀ m ∈ properties, m.1 ≠ none) (propertyName : String) :
    findProperty properties propertyName =
      match properties.find? fun m => m.1 = some propertyName with
      | none => some .failed
      | some m => some ((propertyValueOf m.2).elim .unwritten .value) := by
  induction properties with
  | nil => rfl
  | cons m properties ih =>
    obtain ⟨key, item⟩ := m
    cases key with
    | none => exact absurd rfl (hnamed (none, item) (by simp))
    | some key =>
      unfold findProperty
      by_cases hkey : key = propertyName
      · rw [if_neg (not_not_intro hkey), List.find?_cons_of_pos (by simp [hkey])]
        cases item <;> rfl
      · rw [if_pos hkey, List.find?_cons_of_neg (by simp [hkey])]
        exact ih fun x hx => hnamed x (by simp [hx])

/-- The properties of an entry have names unless they are the items of an array. -/
theorem propertiesOf_named {entry : Option CJson}
    (h : ∀ child, getObjectItem entry "properties" = some (.array child) → child = []) :
    ∀ m ∈ propertiesOf entry, m.1 ≠ none := by
  unfold propertiesOf
  intro m hm
  cases hproperties : getObjectItem entry "properties" with
  | none => simp [hproperties] at hm
  | some properties =>
    rw [hproperties] at hm
    cases properties with
    | array child =>
      rw [h child hproperties] at hm
      simp [members] at hm
    | object child =>
      obtain ⟨item, -, rfl⟩ := List.mem_map.mp hm
      exact Option.some_ne_none _
    | null => simp [members] at hm
    | bool b => simp [members] at hm
    | number valuedouble => simp [members] at hm
    | string valuestring => simp [members] at hm

theorem readsValue_find_iff (entry : Option CJson) (propertyName : String) :
    ReadsValue entry propertyName (findProperty (propertiesOf entry) propertyName) ↔
      Readable entry propertyName := by
  by_cases hnamed : ∀ child, getObjectItem entry "properties" = some (.array child) → child = []
  · rw [findProperty_eq (propertiesOf_named hnamed)]
    cases hfind : (propertiesOf entry).find? fun m => m.1 = some propertyName with
    | none =>
      have hnone := List.find?_eq_none.mp hfind
      refine iff_of_true (.failed ?_) ⟨hnamed, fun m hm => by rw [hfind] at hm; cases hm⟩
      rintro v ⟨item, hmem, -⟩
      exact hnone _ hmem (by simp)
    | some m =>
      have hname : m.1 = some propertyName := by simpa using List.find?_some hfind
      have hmem : (some propertyName, m.2) ∈ propertiesOf entry := by
        rw [← hname]
        exact List.mem_of_find?_eq_some hfind
      dsimp only
      cases hvalue : propertyValueOf m.2 with
      | some v =>
        refine iff_of_true (.value ⟨_, hmem, hvalue⟩) ⟨hnamed, fun m' hm' => ?_⟩
        obtain rfl : m = m' := Option.some.inj (hfind.symm.trans hm')
        rw [hvalue]
        rfl
      | none =>
        -- the value of the property is never set
        refine iff_of_false (by rintro ⟨⟩) fun hreadable => ?_
        have hsome := hreadable.first m hfind
        rw [hvalue] at hsome
        cases hsome
  · refine iff_of_false (fun hreads => ?_) fun hreadable => hnamed hreadable.named
    push Not at hnamed
    obtain ⟨child, harray, hne⟩ := hnamed
    obtain ⟨item, child, rfl⟩ := List.exists_cons_of_ne_nil hne
    have hproperties : propertiesOf entry = members (.array (item :: child)) := by
      rw [propertiesOf, harray]
      rfl
    rw [hproperties] at hreads
    cases hreads

/-- **The callback reads the last reported value** of a property exactly when it is `Readable`. -/
theorem getPropertyCallback_readsLast_iff (reports : List (Option CJson)) {mgr : RuleMgr}
    (hempty : mgr.cacheDeviceDataJSON = []) :
    Returns env
      (reports.foldlM (fun mgr serviceData => ruleMgrCachePropertiesValue serviceData mgr) mgr)
      fun mgr' =>
        (∀ serviceId, mgr'.cacheDeviceDataJSON.countP (fun entry =>
          decide (serviceIdOf entry = some serviceId)) ≤ 1) ∧
        (env.AllocsSucceed → ∀ serviceId propertyName,
          ReadsValue (lastReported reports serviceId) propertyName
              (getPropertyCallback mgr'.cacheDeviceDataJSON serviceId propertyName) ↔
            Readable (lastReported reports serviceId) propertyName) := by
  refine (cacheReports_returns reports hempty).mono fun mgr' hmgr' => ⟨fun serviceId => ?_, ?_⟩
  · have hcount := List.nodup_iff_count_le_one.mp hmgr'.1 (some serviceId)
    rw [List.count, List.countP_map] at hcount
    simpa only [Function.comp_def, beq_eq_decide] using hcount
  · intro hA serviceId propertyName
    rw [← readsValue_find_iff, ← hmgr'.2 hA serviceId]
    exact Iff.rfl

/-- A report of a switch that is on. -/
def switchReport : CJson :=
  .array [.object [("service_id", .string "lamp"), ("properties", .object [("on", .bool true)])]]

/-- A report of a brightness. -/
def brightnessReport : CJson :=
  .array [.object [("service_id", .string "lamp"), ("properties", .object [("level", .number 3)])]]

theorem getPropertyCallback_readsLast_iff_brightness :
    Returns Env.plentiful
      ([some switchReport, some brightnessReport].foldlM
        (fun mgr serviceData => ruleMgrCachePropertiesValue serviceData mgr)
        { files := fun _ => none })
      fun mgr' =>
        ReadsValue (lastReported [some switchReport, some brightnessReport] "lamp") "level"
          (getPropertyCallback mgr'.cacheDeviceDataJSON "lamp" "level") := by
  refine (getPropertyCallback_readsLast_iff _ rfl).mono fun mgr' h => ?_
  refine (h.2 Env.plentiful_allocsSucceed "lamp" "level").mpr ⟨fun child harray => ?_, ?_⟩
  · cases harray
  · rintro m ⟨⟩
    rfl

/-- The callback answers `HW_TRUE` for a switch and sets no value. -/
theorem switch_read_unwritten :
    ¬∀ (env : Env) (reports : List (Option CJson)) (mgr : RuleMgr), env.AllocsSucceed →
      mgr.cacheDeviceDataJSON = [] →
        Returns env
          (reports.foldlM (fun mgr serviceData => ruleMgrCachePropertiesValue serviceData mgr) mgr)
          fun mgr' => ∀ serviceId propertyName,
            ReadsValue (lastReported reports serviceId) propertyName
              (getPropertyCallback mgr'.cacheDeviceDataJSON serviceId propertyName) := by
  intro hclaim
  let mgr : RuleMgr := { files := fun _ => none }
  have hreads := hclaim Env.plentiful [some switchReport] mgr Env.plentiful_allocsSucceed rfl
  have hempty : mgr.cacheDeviceDataJSON = [] := rfl
  have hcache := @cacheReports_returns Env.plentiful [some switchReport] mgr hempty
  obtain ⟨mgr', -, hreads, -, hfind⟩ := (hreads.and_yields hcache.yields).exists_outcome
  have hunwritten :
      getPropertyCallback mgr'.cacheDeviceDataJSON "lamp" "on" = some .unwritten := by
    rw [getPropertyCallback, hfind Env.plentiful_allocsSucceed]
    rfl
  have hlamp := hreads "lamp" "on"
  rw [hunwritten] at hlamp
  cases hlamp

end IotDeviceSdk.DeviceRule
