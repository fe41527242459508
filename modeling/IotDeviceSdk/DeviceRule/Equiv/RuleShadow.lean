import IotDeviceSdk.DeviceRule.Equiv.RuleMerge

/-!
# Synchronising the rule store with the shadow

`GetRuleInfoList` goes through the properties of the shadow, an object of rule ids with versions;
`-1` marks a rule for deletion.  When it succeeds, `delList` holds the marked ids and `addList` the
ids of which the store has no rule or an older one (`getRuleInfoList_returns`).

`shadowSync_converges`: after the deletion and a download of exactly the requested rules, the store
has what the shadow asks for, and asking again requests nothing.
-/

namespace IotDeviceSdk.DeviceRule

open CJson Prog VersionedStore

variable {env : Env} {infos : List RuleInfo}

/-! ### The lists -/

/-- The version the shadow gives a rule. -/
def shadowVersion (item : CJson) : Option ℤ :=
  getIntValueFromJson (getObjectItem (some item) "version")

/-- A rule of the result lists: only its id and its version are set. -/
def idOnly (ruleId : String) (version : ℤ) : RuleInfo :=
  { ruleId := some ruleId, ruleVersionInShadow := version }

/-- Whether every rule of the id is older than the version. -/
def isNewer (infos : List RuleInfo) (ruleId : String) (version : ℤ) : Bool :=
  infos.all fun info => info.ruleId ≠ some ruleId || decide (info.ruleVersionInShadow < version)

theorem isNewer_eq_true {ruleId : String} {version : ℤ} : isNewer infos ruleId version = true ↔
    ∀ info ∈ infos, info.ruleId = some ruleId → info.ruleVersionInShadow < version := by
  simp [isNewer, imp_iff_not_or]

/-- What a property adds to `delList`. -/
def deletionOf (property : String × CJson) : List RuleInfo :=
  if shadowVersion property.2 = some (-1) then [idOnly property.1 (-1)] else []

/-- What a property adds to `addList`. -/
def additionOf (infos : List RuleInfo) (property : String × CJson) : List RuleInfo :=
  match shadowVersion property.2 with
  | none => []
  | some version =>
    if version ≠ -1 ∧ isNewer infos property.1 version = true then [idOnly property.1 version]
    else []

theorem mem_deletionOf {property : String × CJson} {d : RuleInfo} :
    d ∈ deletionOf property ↔
      shadowVersion property.2 = some (-1) ∧ d = idOnly property.1 (-1) := by
  rw [deletionOf]
  split
  · rename_i h
    simp [h]
  · rename_i h
    simp [h]

theorem mem_additionOf {property : String × CJson} {a : RuleInfo} :
    a ∈ additionOf infos property ↔ ∃ version, shadowVersion property.2 = some version ∧
      version ≠ -1 ∧ isNewer infos property.1 version = true ∧ a = idOnly property.1 version := by
  rw [additionOf]
  cases shadowVersion property.2 with
  | none => simp
  | some version =>
    dsimp only
    split
    · rename_i h
      simp [h.1, h.2]
    · rename_i h
      simp only [List.not_mem_nil, Option.some.injEq, exists_eq_left', false_iff]
      rintro ⟨hne, hnewer, -⟩
      exact h ⟨hne, hnewer⟩

/-! ### One property -/

/-- **`GetRuleInfoList` never changes the store**, whether it succeeds or fails. -/
theorem getRuleInfoList_keeps_store (properties : Option CJson) (lists : RuleLists) :
    Yields env (getRuleInfoList properties lists) fun r => (stepValue r).list = lists.list := by
  have hloop : Yields env (getRuleInfoList properties lists)
      (OnStep (fun l => l.list = lists.list) fun l => l.list = lists.list) := by
    refine Yields.forEach rfl fun property _ l hl => ?_
    unfold getRuleInfoListStep
    -- every branch writes one of the two result lists or none
    cases getIntValueFromJson (getObjectItem (some property.2) "version") with
    | none => exact yields_pure hl
    | some version =>
      refine yields_trivial.bind fun oneRule _ => ?_
      split
      · refine yields_trivial.bind fun r _ => ?_
        cases r with
        | done _ => exact yields_pure hl
        | yield _ => exact yields_pure hl
      · split
        · refine yields_trivial.bind fun r _ => ?_
          cases r with
          | done _ => exact yields_pure hl
          | yield _ => exact yields_pure hl
        · exact yields_pure hl
  refine hloop.mono fun r hr => ?_
  cases r with
  | done _ => exact hr
  | yield _ => exact hr

/-- Appending to a result list, when no allocation fails. -/
theorem pushRuleId_returns (hA : env.AllocsSucceed) (list : List RuleInfo) (ruleId : String)
    (version : ℤ) :
    Returns env (pushRuleId list (some ruleId) version) fun r =>
      r = if copyable (some ruleId) then .yield (list ++ [idOnly ruleId version])
        else .done list := by
  unfold pushRuleId
  apply ruleInfoListPush_returns.bind
  intro r hr
  rw [hr.2 hA]
  dsimp only
  apply (cStrDuplicate_returns ruleId).bind
  intro copy hcopy
  obtain ⟨rfl | rfl, hlen⟩ := hcopy
  · -- with memory at hand only a text that is too long is not copied
    have hlong : copyable (some ruleId) = false := by
      have hnot := hlen hA
      simp only [reduceCtorEq, false_iff] at hnot
      simp [copyable, hnot]
    rw [hlong, dynamicArrayPop_append]
    exact returns_pure rfl
  · have hshort : copyable (some ruleId) = true := by
      simpa [copyable] using (hlen hA).mp rfl
    dsimp only
    rw [hshort, dynamicArrayWriteLast_append]
    exact returns_pure rfl

/-- What one property does to the lists, when no allocation fails: without a version it ends the
loop, and so does an id that is needed in a list and cannot be copied. -/
inductive PropertyOutcome (property : String × CJson) (lists : RuleLists) :
    ForInStep RuleLists → Prop
  | failed (h : shadowVersion property.2 = none ∨ copyable (some property.1) = false ∧
      (deletionOf property ≠ [] ∨ additionOf lists.list property ≠ [])) :
    PropertyOutcome property lists (.done lists)
  | computed (hversion : (shadowVersion property.2).isSome)
    (hcopy : deletionOf property ≠ [] → copyable (some property.1) = true) :
    PropertyOutcome property lists (.yield { lists with
      delList := lists.delList ++ deletionOf property
      addList := lists.addList ++ additionOf lists.list property })

/-- The rule that is found decides what is newer: ids are distinct. -/
theorem DistinctIds.all_found_eq {list : List RuleInfo} (hlist : DistinctIds list) {ruleId : String}
    (version : ℤ) {found : Option (ℕ × RuleInfo)}
    (hfound : (found = none ∧ ∀ info ∈ list, info.ruleId ≠ some ruleId) ∨
      ∃ i info, found = some (i, info) ∧ list[i]? = some info ∧ info.ruleId = some ruleId) :
    (found.all fun found => version > found.2.ruleVersionInShadow) =
      isNewer list ruleId version := by
  rw [Bool.eq_iff_iff, isNewer_eq_true]
  rcases hfound with ⟨rfl, hnone⟩ | ⟨i, old, rfl, hi, hk⟩
  · simp only [Option.all_none, true_iff]
    exact fun info hinfo hk => absurd hk (hnone info hinfo)
  · simp only [Option.all_some, decide_eq_true_eq]
    constructor
    · intro hlt info hinfo hinfok
      -- the rule of the id is the one that was found
      rw [List.inj_on_of_nodup_map hlist.nodup hinfo (List.mem_of_getElem? hi)
        (hinfok.trans hk.symm)]
      exact hlt
    · exact fun h => h old (List.mem_of_getElem? hi) hk

/-- **One round of `GetRuleInfoList`.** -/
theorem getRuleInfoListStep_returns (hA : env.AllocsSucceed) {lists : RuleLists}
    (hlists : DistinctIds lists.list) (property : String × CJson) :
    Returns env (getRuleInfoListStep (some property.1, property.2) lists)
      (PropertyOutcome property lists) := by
  obtain ⟨ruleId, item⟩ := property
  unfold getRuleInfoListStep
  cases hversion : getIntValueFromJson (getObjectItem (some item) "version") with
  | none => exact returns_pure (.failed (Or.inl hversion))
  | some version =>
    have hv : shadowVersion item = some version := hversion
    apply (ruleListCheckExistence_returns ruleId hlists.isSome).bind
    intro found hfound
    have hnewer := hlists.all_found_eq version hfound
    -- the outcome once the contributions of the property are known
    have hout : ∀ {dels adds : List RuleInfo}, deletionOf (ruleId, item) = dels →
        additionOf lists.list (ruleId, item) = adds →
        (dels ≠ [] → copyable (some ruleId) = true) →
        PropertyOutcome (ruleId, item) lists (.yield { lists with
          delList := lists.delList ++ dels, addList := lists.addList ++ adds }) := by
      rintro _ _ rfl rfl hcopy
      exact .computed (by rw [hv]; rfl) hcopy
    dsimp only
    by_cases hmark : version = -1
    · rw [if_pos hmark]
      subst hmark
      have hdel : deletionOf (ruleId, item) = [idOnly ruleId (-1)] := if_pos hv
      have hadd : additionOf lists.list (ruleId, item) = [] := by simp [additionOf, hv]
      apply (pushRuleId_returns hA lists.delList ruleId (-1)).bind
      intro r hr
      subst hr
      cases hcopy : copyable (some ruleId) with
      | true =>
        have hres := hout hdel hadd fun _ => hcopy
        rw [List.append_nil] at hres
        exact returns_pure hres
      | false => exact returns_pure (.failed (Or.inr ⟨hcopy, Or.inl (by rw [hdel]; simp)⟩))
    · have hdel : deletionOf (ruleId, item) = [] := by simp [deletionOf, hv, hmark]
      rw [if_neg hmark, hnewer]
      cases hn : isNewer lists.list ruleId version with
      | false =>
        have hadd : additionOf lists.list (ruleId, item) = [] := by simp [additionOf, hv, hn]
        have hres := hout hdel hadd fun h => absurd rfl h
        rw [List.append_nil, List.append_nil] at hres
        exact returns_pure hres
      | true =>
        have hadd : additionOf lists.list (ruleId, item) = [idOnly ruleId version] := by
          simp [additionOf, hv, hn, hmark]
        rw [if_pos rfl]
        apply (pushRuleId_returns hA lists.addList ruleId version).bind
        intro r hr
        subst hr
        cases hcopy : copyable (some ruleId) with
        | true =>
          have hres := hout hdel hadd fun h => absurd rfl h
          rw [List.append_nil] at hres
          exact returns_pure hres
        | false => exact returns_pure (.failed (Or.inr ⟨hcopy, Or.inr (by rw [hadd]; simp)⟩))

/-! ### The whole shadow -/

/-- What a success of `GetRuleInfoList` says about the properties and leaves in the lists. -/
structure ListsComputed (properties : List (String × CJson)) (lists lists' : RuleLists) : Prop where
  versions : ∀ property ∈ properties, (shadowVersion property.2).isSome
  copyable : ∀ property ∈ properties, deletionOf property ≠ [] →
    copyable (some property.1) = true
  list : lists'.list = lists.list
  delList : lists'.delList = lists.delList ++ properties.flatMap deletionOf
  addList : lists'.addList = lists.addList ++ properties.flatMap (additionOf lists.list)

/-- **`GetRuleInfoList`** on an object, when no allocation fails: when it succeeds the lists are
computed, and it succeeds when every property has a version, the marked ids can be copied and
nothing is to be added. -/
theorem getRuleInfoList_returns (hA : env.AllocsSucceed) {properties : List (String × CJson)}
    {lists : RuleLists} (hlists : DistinctIds lists.list) :
    Returns env (getRuleInfoList (some (.object properties)) lists) fun r =>
      (∀ lists', r = .yield lists' → ListsComputed properties lists lists') ∧
        ((∀ property ∈ properties, (shadowVersion property.2).isSome ∧
          (deletionOf property ≠ [] → copyable (some property.1) = true) ∧
          additionOf lists.list property = []) → goesOn r = true) := by
  show Returns env (forEach getRuleInfoListStep
    (properties.map fun property => (some property.1, property.2)) lists) _
  -- the induction is on the properties, the lists so far are its accumulator
  induction properties generalizing lists with
  | nil =>
    refine returns_pure ⟨?_, fun _ => rfl⟩
    rintro lists' ⟨⟩
    exact ⟨by simp, by simp, rfl, by simp, by simp⟩
  | cons property properties ih =>
    apply (getRuleInfoListStep_returns hA hlists property).bind
    intro r hr
    cases hr with
    | failed h =>
      -- each cause of a failure is excluded by the condition for success
      refine returns_pure ⟨by simp, fun hall => ?_⟩
      obtain ⟨hversion, hcopy, hadd⟩ := hall property (by simp)
      exfalso
      rcases h with h | ⟨hlong, hdel | hadd'⟩
      · rw [h] at hversion
        simp at hversion
      · rw [hcopy hdel] at hlong
        exact absurd hlong (by decide)
      · exact hadd' hadd
    | computed hversion hcopy =>
      have hlists' : DistinctIds ({ lists with
          delList := lists.delList ++ deletionOf property
          addList := lists.addList ++ additionOf lists.list property } : RuleLists).list := hlists
      apply (ih hlists').mono
      intro r hr
      refine ⟨fun lists' h => ?_, fun hall => hr.2 fun x hx => hall x (by simp [hx])⟩
      have hrest := hr.1 lists' h
      refine ⟨?_, ?_, hrest.list, ?_, ?_⟩
      · intro x hx
        rcases List.mem_cons.mp hx with rfl | hx
        · exact hversion
        · exact hrest.versions x hx
      · intro x hx
        rcases List.mem_cons.mp hx with rfl | hx
        · exact hcopy
        · exact hrest.copyable x hx
      · rw [hrest.delList, List.flatMap_cons, List.append_assoc]
      · rw [hrest.addList, List.flatMap_cons, List.append_assoc]

/-! ### A synchronisation round -/

/-- The entries are, for each requested id, one with exactly the requested version. -/
def AnswersRequest (addList : List RuleInfo) (rules : List CJson) : Prop :=
  (rules.map fun rule => (entryId rule, entryVersion rule)).Perm
    (addList.map fun a => (a.ruleId, some a.ruleVersionInShadow))

/-- The deletions of a shadow message, the download it asks for, and the comparison made again. -/
def syncRound (properties paras : Option CJson) (lists : RuleLists) (infos : List RuleInfo) :
    Sdk (List RuleInfo × ForInStep RuleLists) := do
  let infos ← deletRulesFromList infos lists.delList
  let infos ← parseDeviceRule infos paras
  let again ← getRuleInfoList properties { list := infos }
  return (infos, again)

theorem AllParsedFrom.ids_versions {rules : List CJson} {parsed : List RuleInfo}
    (h : AllParsedFrom rules parsed) :
    parsed.map (fun info => (info.ruleId, some info.ruleVersionInShadow)) =
      rules.map fun rule => (entryId rule, entryVersion rule) := by
  induction h with
  | nil => rfl
  | cons hinfo _ ih =>
    have hversion := hinfo.readFrom.version
    rw [List.map_cons, List.map_cons, ih, hinfo.readFrom.ruleId, ← hversion, entryVersion]

/-- The store after the deletions and the download. -/
theorem deletRules_parse_returns (hA : env.AllocsSucceed) (hinfos : DistinctIds infos)
    {delList : List RuleInfo} {paras : Option CJson} (hdel : ∀ d ∈ delList, d.ruleId.isSome)
    (hrules : ∀ rule ∈ rulesInfos paras, Parses env rule) :
    Returns env (deletRulesFromList infos delList >>= fun infos => parseDeviceRule infos paras)
      fun infos' => DistinctIds infos' ∧ ∃ parsed, AllParsedFrom (rulesInfos paras) parsed ∧
        infos' = merge (infos.filter fun info => info.ruleId ∉ delList.map RuleInfo.ruleId)
          parsed := by
  apply (deletRulesFromList_returns hinfos hdel).bind
  intro infos₁ hinfos₁
  have hdistinct : DistinctIds infos₁ := hinfos₁ ▸ hinfos.filter _
  have hhook : HookKeeps env (none : Option (ParseDeviceRuleHook Unit)) fun _ => True :=
    hookKeeps_none
  apply (parseDeviceRuleWithHook_foldl hA hdistinct hhook (fun _ _ => trivial) hrules).bind
  rintro state ⟨hstate, -, parsed, hparsed, heq⟩
  exact returns_pure ⟨hstate, parsed, hparsed, hinfos₁ ▸ heq⟩

section Converges

variable {properties : List (String × CJson)} {lists : RuleLists} {parsed : List RuleInfo}
  {rules : List CJson}

/-- The rules of the store that are not marked for deletion. -/
abbrev unmarked (infos delList : List RuleInfo) : List RuleInfo :=
  infos.filter fun info => info.ruleId ∉ delList.map RuleInfo.ruleId

/-- The downloaded rules are those the properties ask for. -/
theorem exists_property_of_parsed (hadd : lists.addList = properties.flatMap (additionOf infos))
    (hparsed : AllParsedFrom rules parsed) (hanswers : AnswersRequest lists.addList rules)
    {info : RuleInfo} (hinfo : info ∈ parsed) :
    ∃ property ∈ properties, info.ruleId = some property.1 ∧
      ∃ version, shadowVersion property.2 = some version ∧ version ≠ -1 := by
  have hpair : (info.ruleId, some info.ruleVersionInShadow) ∈
      lists.addList.map fun a => (a.ruleId, some a.ruleVersionInShadow) := by
    rw [← hanswers.mem_iff, ← hparsed.ids_versions]
    exact List.mem_map_of_mem hinfo
  obtain ⟨a, ha, heq⟩ := List.mem_map.mp hpair
  rw [hadd, List.mem_flatMap] at ha
  obtain ⟨property, hproperty, hmem⟩ := ha
  obtain ⟨version, hversion, hne, -, rfl⟩ := mem_additionOf.mp hmem
  exact ⟨property, hproperty, (Prod.mk.inj heq).1.symm, version, hversion, hne⟩

/-- What the properties ask for was downloaded. -/
theorem exists_parsed_of_addition (hadd : lists.addList = properties.flatMap (additionOf infos))
    (hparsed : AllParsedFrom rules parsed) (hanswers : AnswersRequest lists.addList rules)
    {property : String × CJson} (hproperty : property ∈ properties) {a : RuleInfo}
    (ha : a ∈ additionOf infos property) :
    ∃ info ∈ parsed, info.ruleId = a.ruleId ∧ info.ruleVersionInShadow = a.ruleVersionInShadow := by
  have hmem : a ∈ lists.addList := by
    rw [hadd, List.mem_flatMap]
    exact ⟨property, hproperty, ha⟩
  have hpair : (a.ruleId, some a.ruleVersionInShadow) ∈
      parsed.map fun info => (info.ruleId, some info.ruleVersionInShadow) := by
    rw [hparsed.ids_versions, hanswers.mem_iff]
    exact List.mem_map_of_mem hmem
  obtain ⟨info, hinfo, heq⟩ := List.mem_map.mp hpair
  exact ⟨info, hinfo, (Prod.mk.inj heq).1, Option.some.inj (Prod.mk.inj heq).2⟩

/-- A marked id is gone. -/
theorem marked_not_mem (hkeys : (properties.map Prod.fst).Nodup)
    (hdel : lists.delList = properties.flatMap deletionOf)
    (hadd : lists.addList = properties.flatMap (additionOf infos))
    (hparsed : AllParsedFrom rules parsed) (hanswers : AnswersRequest lists.addList rules)
    {property : String × CJson} (hproperty : property ∈ properties)
    (hmark : shadowVersion property.2 = some (-1)) {info : RuleInfo}
    (hinfo : info ∈ unmarked infos lists.delList ++ parsed) : info.ruleId ≠ some property.1 := by
  intro hk
  rcases List.mem_append.mp hinfo with hinfo | hinfo
  · -- the deletion took the stored rule
    have hnot := (List.mem_filter.mp hinfo).2
    rw [decide_eq_true_eq, hk] at hnot
    apply hnot
    rw [hdel]
    refine List.mem_map.mpr ⟨idOnly property.1 (-1), ?_, rfl⟩
    exact List.mem_flatMap.mpr ⟨property, hproperty, mem_deletionOf.mpr ⟨hmark, rfl⟩⟩
  · -- and the keys are distinct, so no other property asked for the id
    obtain ⟨property', hproperty', hk', version, hversion, hne⟩ :=
      exists_property_of_parsed hadd hparsed hanswers hinfo
    have hkey : property'.1 = property.1 := Option.some.inj (hk'.symm.trans hk)
    rw [List.inj_on_of_nodup_map hkeys hproperty' hproperty hkey, hmark] at hversion
    exact hne (Option.some.inj hversion).symm

/-- Every other id is there, at least as new as the shadow asks. -/
theorem unmarked_mem (hkeys : (properties.map Prod.fst).Nodup) (hinfos : DistinctIds infos)
    (hdel : lists.delList = properties.flatMap deletionOf)
    (hadd : lists.addList = properties.flatMap (additionOf infos))
    (hparsed : AllParsedFrom rules parsed) (hanswers : AnswersRequest lists.addList rules)
    {property : String × CJson} (hproperty : property ∈ properties) {version : ℤ}
    (hversion : shadowVersion property.2 = some version) (hne : version ≠ -1) :
    ∃ info ∈ merge (unmarked infos lists.delList) parsed, info.ruleId = some property.1 ∧
      version ≤ info.ruleVersionInShadow := by
  obtain ⟨x, hx, hxk, hxv⟩ : ∃ x ∈ unmarked infos lists.delList ++ parsed,
      x.ruleId = some property.1 ∧ version ≤ x.ruleVersionInShadow := by
    cases hnewer : isNewer infos property.1 version with
    | true =>
      -- it was requested, and the download has it
      have ha : idOnly property.1 version ∈ additionOf infos property :=
        mem_additionOf.mpr ⟨version, hversion, hne, hnewer, rfl⟩
      obtain ⟨info, hinfo, hk, hv⟩ := exists_parsed_of_addition hadd hparsed hanswers hproperty ha
      exact ⟨info, List.mem_append_right _ hinfo, hk, hv.ge⟩
    | false =>
      -- the store has it, and no property marks it
      rw [← Bool.not_eq_true, isNewer_eq_true] at hnewer
      push Not at hnewer
      obtain ⟨old, hold, hk, hv⟩ := hnewer
      refine ⟨old, List.mem_append_left _ (List.mem_filter.mpr ⟨hold, ?_⟩), hk, hv⟩
      rw [decide_eq_true_eq, hdel]
      intro hmem
      obtain ⟨d, hd, hdk⟩ := List.mem_map.mp hmem
      obtain ⟨property', hproperty', hd'⟩ := List.mem_flatMap.mp hd
      obtain ⟨hmark, rfl⟩ := mem_deletionOf.mp hd'
      have hkey : property'.1 = property.1 := Option.some.inj (hdk.trans hk)
      rw [List.inj_on_of_nodup_map hkeys hproperty' hproperty hkey, hversion] at hmark
      exact hne (Option.some.inj hmark)
  obtain ⟨w, hw, hwk⟩ := exists_isWinner RuleInfo.ruleId RuleInfo.ruleVersionInShadow hx
  refine ⟨w, (mem_foldl_insertNewer (hinfos.filter _).nodup).mpr hw, hwk.trans hxk, ?_⟩
  exact hxv.trans (hw.ver_le hx hwk.symm)

/-- A rule the shadow does not name stays as it is. -/
theorem unnamed_mem_iff (hinfos : DistinctIds infos)
    (hdel : lists.delList = properties.flatMap deletionOf)
    (hadd : lists.addList = properties.flatMap (additionOf infos))
    (hparsed : AllParsedFrom rules parsed) (hanswers : AnswersRequest lists.addList rules)
    {info : RuleInfo} (hunnamed : ∀ property ∈ properties, info.ruleId ≠ some property.1) :
    info ∈ merge (unmarked infos lists.delList) parsed ↔ info ∈ infos := by
  have hfilter := hinfos.filter fun info => info.ruleId ∉ lists.delList.map RuleInfo.ruleId
  -- nothing of that id was downloaded
  have hparsed' : ∀ x ∈ parsed, x.ruleId ≠ info.ruleId := by
    intro x hx hk
    obtain ⟨property, hproperty, hk', -⟩ := exists_property_of_parsed hadd hparsed hanswers hx
    exact hunnamed property hproperty (hk.symm.trans hk')
  rw [mem_foldl_insertNewer hfilter.nodup]
  constructor
  · intro hwin
    rcases List.mem_append.mp hwin.mem with hinfo | hinfo
    · exact (List.mem_filter.mp hinfo).1
    · exact absurd rfl (hparsed' info hinfo)
  · intro hinfo
    have hkept : info ∈ unmarked infos lists.delList := by
      refine List.mem_filter.mpr ⟨hinfo, ?_⟩
      rw [decide_eq_true_eq, hdel]
      intro hmem
      obtain ⟨d, hd, hdk⟩ := List.mem_map.mp hmem
      obtain ⟨property, hproperty, hd'⟩ := List.mem_flatMap.mp hd
      obtain ⟨-, rfl⟩ := mem_deletionOf.mp hd'
      exact hunnamed property hproperty hdk.symm
    obtain ⟨w, hw, hwk⟩ := exists_isWinner RuleInfo.ruleId RuleInfo.ruleVersionInShadow
      (List.mem_append_left parsed hkept)
    rcases List.mem_append.mp hw.mem with hwm | hwm
    · rwa [← List.inj_on_of_nodup_map hfilter.nodup hwm hkept hwk]
    · exact absurd hwk (hparsed' w hwm)

end Converges

/-- **Shadow synchronisation converges in one round**, and `GetRuleInfoList` never changes the
store. -/
theorem shadowSync_converges (hA : env.AllocsSucceed) (hinfos : DistinctIds infos)
    {properties : List (String × CJson)} (hkeys : (properties.map Prod.fst).Nodup)
    {lists : RuleLists} (hlists : Outcome env
      (getRuleInfoList (some (.object properties)) { list := infos }) (.yield lists))
    {paras : Option CJson} (hanswers : AnswersRequest lists.addList (rulesInfos paras))
    (hrules : ∀ rule ∈ rulesInfos paras, Parses env rule) :
    (Returns env (syncRound (some (.object properties)) paras lists infos) fun result =>
      (∃ lists', result.2 = .yield lists' ∧ lists'.addList = []) ∧
      (∀ property ∈ properties, shadowVersion property.2 = some (-1) →
        ∀ info ∈ result.1, info.ruleId ≠ some property.1) ∧
      (∀ property ∈ properties, ∀ version, shadowVersion property.2 = some version →
        version ≠ -1 → ∃ info ∈ result.1, info.ruleId = some property.1 ∧
          version ≤ info.ruleVersionInShadow) ∧
      ∀ info : RuleInfo, (∀ property ∈ properties, info.ruleId ≠ some property.1) →
        (info ∈ result.1 ↔ info ∈ infos)) ∧
    ∀ properties lists, Yields env (getRuleInfoList properties lists) fun r =>
      (stepValue r).list = lists.list := by
  refine ⟨?_, getRuleInfoList_keeps_store⟩
  have hstore : DistinctIds ({ list := infos } : RuleLists).list := hinfos
  have hcomputed : ListsComputed properties { list := infos } lists :=
    ((getRuleInfoList_returns hA hstore).yields _ hlists).1 lists rfl
  have hdel : lists.delList = properties.flatMap deletionOf := hcomputed.delList
  have hadd : lists.addList = properties.flatMap (additionOf infos) := hcomputed.addList
  have hdelIds : ∀ d ∈ lists.delList, d.ruleId.isSome := by
    intro d hd
    rw [hdel, List.mem_flatMap] at hd
    obtain ⟨property, -, hd⟩ := hd
    obtain ⟨-, rfl⟩ := mem_deletionOf.mp hd
    rfl
  -- the deletions and the download first, then the comparison is made again
  unfold syncRound
  rw [← bind_assoc]
  apply (deletRules_parse_returns hA hinfos hdelIds hrules).bind
  rintro infos' ⟨hinfos', parsed, hparsed, rfl⟩
  have hmarked : ∀ property ∈ properties, shadowVersion property.2 = some (-1) →
      ∀ info ∈ merge (unmarked infos lists.delList) parsed, info.ruleId ≠ some property.1 := by
    intro property hproperty hmark info hinfo
    have hwin := (mem_foldl_insertNewer (hinfos.filter _).nodup).mp hinfo
    exact marked_not_mem hkeys hdel hadd hparsed hanswers hproperty hmark hwin.mem
  have hheld : ∀ property ∈ properties, ∀ version, shadowVersion property.2 = some version →
      version ≠ -1 → ∃ info ∈ merge (unmarked infos lists.delList) parsed,
        info.ruleId = some property.1 ∧ version ≤ info.ruleVersionInShadow :=
    fun property hproperty version hversion hne =>
      unmarked_mem hkeys hinfos hdel hadd hparsed hanswers hproperty hversion hne
  -- what the shadow asks for is held, so nothing is newer than the store
  have hnothing : ∀ property ∈ properties,
      additionOf (merge (unmarked infos lists.delList) parsed) property = [] := by
    intro property hproperty
    refine List.eq_nil_iff_forall_not_mem.mpr fun a ha => ?_
    obtain ⟨version, hversion, hne, hnewer, -⟩ := mem_additionOf.mp ha
    obtain ⟨info, hinfo, hk, hv⟩ := hheld property hproperty version hversion hne
    exact absurd (isNewer_eq_true.mp hnewer info hinfo hk) (not_lt.mpr hv)
  have hstore' : DistinctIds
      ({ list := merge (unmarked infos lists.delList) parsed } : RuleLists).list := hinfos'
  apply (getRuleInfoList_returns hA hstore').bind
  intro again hagain
  refine returns_pure ⟨?_, hmarked, hheld, fun info hunnamed => ?_⟩
  · have hon := hagain.2 fun property hproperty => ⟨hcomputed.versions property hproperty,
      hcomputed.copyable property hproperty, hnothing property hproperty⟩
    cases again with
    | done _ => exact absurd hon (by simp)
    | yield lists' =>
      refine ⟨lists', rfl, ?_⟩
      rw [(hagain.1 lists' rfl).addList, List.nil_append, List.flatMap_eq_nil_iff]
      exact hnothing
  · exact unnamed_mem_iff hinfos hdel hadd hparsed hanswers hunnamed

/-- A shadow that asks for rule `a` and marks rule `b`. -/
def askAndMark : List (String × CJson) :=
  [("a", .object [("version", .number 2)]), ("b", .object [("version", .number (-1))])]

theorem shadowSync_converges_askAndMark :
    ∃ lists, Outcome Env.plentiful (getRuleInfoList (some (.object askAndMark))
        { list := [{ ruleId := some "b", ruleVersionInShadow := 1 }] }) (.yield lists) ∧
      Returns Env.plentiful (syncRound (some (.object askAndMark))
        (some (ruleMessage [bareEntry "a" 2 .null])) lists
        [{ ruleId := some "b", ruleVersionInShadow := 1 }]) fun result =>
          ∀ property ∈ askAndMark, shadowVersion property.2 = some (-1) →
            ∀ info ∈ result.1, info.ruleId ≠ some property.1 := by
  have hinfos : DistinctIds [{ ruleId := some "b", ruleVersionInShadow := 1 }] :=
    ⟨by simp, by simp⟩
  have hrun : ((getRuleInfoList (some (.object askAndMark))
      { list := [{ ruleId := some "b", ruleVersionInShadow := 1 }] }) Env.plentiful default).map
        (fun r => goesOn r.1) = some true := by
    decide +kernel
  obtain ⟨⟨step, s'⟩, hstep, hgoes⟩ := Option.map_eq_some_iff.mp hrun
  cases step with
  | done _ => exact absurd hgoes (by simp)
  | yield lists =>
    have hout : Outcome Env.plentiful (getRuleInfoList (some (.object askAndMark))
        { list := [{ ruleId := some "b", ruleVersionInShadow := 1 }] }) (.yield lists) :=
      ⟨default, s', hstep⟩
    have hcomputed := ((getRuleInfoList_returns Env.plentiful_allocsSucceed hinfos).yields _
      hout).1 lists rfl
    have hanswers : AnswersRequest lists.addList
        (rulesInfos (some (ruleMessage [bareEntry "a" 2 .null]))) := by
      unfold AnswersRequest
      rw [hcomputed.addList]
      decide +kernel
    have haccepted : ∀ rule ∈ rulesInfos (some (ruleMessage [bareEntry "a" 2 .null])),
        ruleAccepted rule = true := by
      decide +kernel
    refine ⟨lists, hout, ?_⟩
    refine (shadowSync_converges Env.plentiful_allocsSucceed hinfos (by decide) hout hanswers
      fun rule hrule =>
        parses_of_accepted Env.plentiful_allocsSucceed (haccepted rule hrule)).1.mono ?_
    exact fun result hresult => hresult.2.1

end IotDeviceSdk.DeviceRule
