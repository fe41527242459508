import IotDeviceSdk.DeviceRule.Equiv.RuleManager
import IotDeviceSdk.DeviceRule.Equiv.RuleShadow
import IotDeviceSdk.DeviceRule.RuleTrans

/-!
# Shadow messages, config requests and rule downloads

The device and the messages on their way: a shadow message that is processed sends one config
request for its `addList`, a request is answered once by a download, a download is delivered once,
all in any order (`SystemStep`).  The store remembers nothing of a deleted rule, so the answer to an
older request brings the rule back (`lateDownload_restores_rule`).

`deletedRule_stays_deleted`: with no request and no download for the rule on its way when it is
deleted, it stays deleted until a shadow message asks for it again.
-/

namespace IotDeviceSdk.DeviceRule

open CJson Prog VersionedStore

variable {env : Env}

/-! ### The lists of any shadow message -/

/-- A property of the message asks for a version of the rule. -/
def AsksFor (properties : Option CJson) (ruleId : Option String) : Prop :=
  ∃ property ∈ (properties.map members).getD [], property.1 = ruleId ∧
    ∃ version, shadowVersion property.2 = some version ∧ version ≠ -1

/-- A property of the message marks the rule for deletion. -/
def Marks (properties : Option CJson) (ruleId : Option String) : Prop :=
  ∃ property ∈ (properties.map members).getD [], property.1 = ruleId ∧
    shadowVersion property.2 = some (-1)

/-- What the lists hold after the properties seen so far. -/
structure ListsFollow (seen : List (Option String × CJson)) (lists : RuleLists) : Prop where
  asked : ∀ a ∈ lists.addList, ∃ property ∈ seen, property.1 = a.ruleId ∧
    ∃ version, shadowVersion property.2 = some version ∧ version ≠ -1
  marked : ∀ property ∈ seen, shadowVersion property.2 = some (-1) →
    property.1 ∈ lists.delList.map RuleInfo.ruleId

theorem ListsFollow.add {seen : List (Option String × CJson)} {lists : RuleLists}
    (h : ListsFollow seen lists) {property : Option String × CJson} {version : ℤ}
    (hversion : shadowVersion property.2 = some version) (hne : version ≠ -1)
    {adds : List RuleInfo} (hadds : ∀ a ∈ adds, a.ruleId = property.1) :
    ListsFollow (seen ++ [property]) { lists with addList := lists.addList ++ adds } := by
  constructor
  · intro a ha
    rcases List.mem_append.mp ha with ha | ha
    · obtain ⟨x, hx, hasks⟩ := h.asked a ha
      exact ⟨x, List.mem_append_left _ hx, hasks⟩
    · exact ⟨property, by simp, (hadds a ha).symm, version, hversion, hne⟩
  · intro x hx hmark
    rcases List.mem_append.mp hx with hx | hx
    · exact h.marked x hx hmark
    · rw [List.mem_singleton.mp hx, hversion] at hmark
      exact absurd (Option.some.inj hmark) hne

theorem ListsFollow.delete {seen : List (Option String × CJson)} {lists : RuleLists}
    (h : ListsFollow seen lists) {property : Option String × CJson} {d : RuleInfo}
    (hd : d.ruleId = property.1) :
    ListsFollow (seen ++ [property]) { lists with delList := lists.delList ++ [d] } := by
  constructor
  · intro a ha
    obtain ⟨x, hx, hasks⟩ := h.asked a ha
    exact ⟨x, List.mem_append_left _ hx, hasks⟩
  · intro x hx hmark
    rw [List.map_append, List.mem_append]
    rcases List.mem_append.mp hx with hx | hx
    · exact Or.inl (h.marked x hx hmark)
    · rw [List.mem_singleton.mp hx]
      exact Or.inr (by simp [hd])

theorem cStrDuplicate_yields (s : Option String) :
    Yields env (cStrDuplicate s) fun r => ∀ copy, r = some copy → copy = s := by
  cases s with
  | none => exact yields_pure fun copy h => (Option.some.inj h).symm
  | some s =>
    refine (cStrDuplicate_returns s).yields.mono fun r hr copy h => ?_
    rcases hr.1 with rfl | rfl
    · cases h
    · exact (Option.some.inj h).symm

theorem pushRuleId_yields (list : List RuleInfo) (ruleId : Option String) (version : ℤ) :
    Yields env (pushRuleId list ruleId version) fun r => ∀ list', r = .yield list' →
      list' = list ++ [{ ruleId := ruleId, ruleVersionInShadow := version }] := by
  unfold pushRuleId
  refine ruleInfoListPush_returns.yields.bind fun r hr => ?_
  rcases hr.1 with rfl | rfl
  · exact yields_trivial.bind fun list' _ => yields_pure (by simp)
  · refine (cStrDuplicate_yields ruleId).bind fun copy hcopy => ?_
    cases copy with
    | none => exact yields_trivial.bind fun list' _ => yields_pure (by simp)
    | some copy =>
      dsimp only
      rw [dynamicArrayWriteLast_append, hcopy copy rfl]
      exact yields_pure fun list' h => (ForInStep.yield.inj h).symm

/-- **The lists of any shadow message**: what is requested was asked for, and what is marked is
deleted. -/
theorem getRuleInfoList_follows (properties : Option CJson) (list : List RuleInfo) :
    Yields env (getRuleInfoList properties { list := list }) fun r =>
      ∀ lists, r = .yield lists → ListsFollow ((properties.map members).getD []) lists := by
  have hnone : ListsFollow [] { list := list } := ⟨by simp, by simp⟩
  have hloop : Yields env (getRuleInfoList properties { list := list })
      (OnStep (ListsFollow ((properties.map members).getD [])) fun _ => True) := by
    refine Yields.forEach_seen hnone fun seen property _ lists hlists => ?_
    unfold getRuleInfoListStep
    cases hversion : getIntValueFromJson (getObjectItem (some property.2) "version") with
    | none =>
      -- the loop is left, and the caller gets no lists
      exact yields_pure trivial
    | some version =>
      have hv : shadowVersion property.2 = some version := hversion
      dsimp only
      refine yields_trivial.bind fun oneRule _ => ?_
      by_cases hmark : version = -1
      · rw [if_pos hmark]
        refine (pushRuleId_yields lists.delList property.1 version).bind fun r hr => ?_
        cases r with
        | done _ => exact yields_pure trivial
        | yield delList =>
          rw [hr delList rfl]
          exact yields_pure (hlists.delete rfl)
      · rw [if_neg hmark]
        split
        · refine (pushRuleId_yields lists.addList property.1 version).bind fun r hr => ?_
          cases r with
          | done _ => exact yields_pure trivial
          | yield addList =>
            rw [hr addList rfl]
            exact yields_pure (hlists.add hv hmark (by simp))
        · -- the store has the version, so nothing is requested
          have hsame := hlists.add hv hmark (fun a (ha : a ∈ []) => absurd ha (by simp))
          rw [List.append_nil] at hsame
          exact yields_pure hsame
  refine hloop.mono fun r hr lists h => ?_
  rw [h] at hr
  exact hr

/-! ### The manager -/

/-- The rules of the store and the entries of the mirror have ids, those of the rules are
distinct. -/
structure ManagerInv (mgr : RuleMgr) : Prop where
  distinctIds : DistinctIds mgr.ruleInfosList
  mirrorHasIds : MirrorHasIds mgr.ruleInfosListJSON

theorem saveMirror_yields (filePath : Option String) (mgr : RuleMgr) :
    Yields env (saveMirror filePath mgr) fun mgr' =>
      mgr'.ruleInfosList = mgr.ruleInfosList ∧ mgr'.ruleInfosListJSON = mgr.ruleInfosListJSON :=
  yields_trivial.bind fun _ _ => yields_pure ⟨rfl, rfl⟩

/-- Every rule of the new store was in the old one or is carried by the message. -/
def CarriedBy (paras : Option CJson) (infos infos' : List RuleInfo) : Prop :=
  ∀ info ∈ infos', info ∈ infos ∨ ∃ rule ∈ rulesInfos paras, entryId rule = info.ruleId

theorem EntryOutcome.carriedBy {hook : Option (ParseDeviceRuleHook (List CJson))} {rule : CJson}
    {paras : Option CJson} {old infos : List RuleInfo} {target : Option (List CJson)}
    {r : ForInStep (List RuleInfo × Option (List CJson))} (hrule : rule ∈ rulesInfos paras)
    (h : EntryOutcome env hook rule infos target r) (hinfos : CarriedBy paras old infos) :
    CarriedBy paras old (stepValue r).1 :=
  h.forall_mem hinfos fun _ hparsed => Or.inr ⟨rule, hrule, hparsed.readFrom.ruleId.symm⟩

theorem parseIntoStore_returns {paras : Option CJson} {mgr : RuleMgr} (hmgr : ManagerInv mgr) :
    Returns env (parseIntoStore paras mgr) fun mgr' => ManagerInv mgr' ∧
      CarriedBy paras mgr.ruleInfosList mgr'.ruleInfosList := by
  have hmirror := hmgr.mirrorHasIds.of_mem_some
  have hold : CarriedBy paras mgr.ruleInfosList mgr.ruleInfosList := fun info hinfo => Or.inl hinfo
  have hparse : Returns env (parseDeviceRuleWithHook (some updateRuleJSONObj) paras
      (mgr.ruleInfosList, some mgr.ruleInfosListJSON)) fun state => DistinctIds state.1 ∧
        (∀ t ∈ state.2, MirrorHasIds t) ∧ CarriedBy paras mgr.ruleInfosList state.1 :=
    parseDeviceRuleWithHook_returns hmgr.distinctIds hookKeeps_updateRuleJSONObj hmirror hold
      fun rule hrule infos target r _ hinfos hout => hout.carriedBy hrule hinfos
  apply hparse.bind
  rintro ⟨infos, target⟩ ⟨hinfos, htarget, hcarried⟩
  refine returns_pure ⟨⟨hinfos, ?_⟩, hcarried⟩
  -- without a mirror from the hook the manager keeps its own
  cases target with
  | none => exact hmgr.mirrorHasIds
  | some mirror => exact htarget mirror rfl

/-- **`RuleMgr_Parse`** puts no rule into the store that the download does not carry. -/
theorem ruleMgrParse_yields {payload : Option String} {mgr : RuleMgr} (hmgr : ManagerInv mgr) :
    Yields env (ruleMgrParse payload mgr) fun mgr' => ManagerInv mgr' ∧
      CarriedBy (payload.bind env.parseJson) mgr.ruleInfosList mgr'.ruleInfosList := by
  refine (ask_returns _).yields.bind fun paras hparas => ?_
  subst hparas
  refine yields_trivial.bind fun filePath _ => ?_
  refine (parseIntoStore_returns hmgr).yields.bind fun mgr₁ hmgr₁ => ?_
  refine (saveMirror_yields filePath mgr₁).mono fun mgr₂ hmgr₂ => ⟨⟨?_, ?_⟩, ?_⟩
  · exact hmgr₂.1 ▸ hmgr₁.1.distinctIds
  · exact hmgr₂.2 ▸ hmgr₁.1.mirrorHasIds
  · exact hmgr₂.1 ▸ hmgr₁.2

theorem deletRulesStep_yields {infos : List RuleInfo} {delItem : RuleInfo}
    (hinfos : DistinctIds infos) :
    Yields env (deletRulesStep infos delItem) fun rest =>
      rest = without RuleInfo.ruleId infos delItem.ruleId := by
  cases hid : delItem.ruleId with
  | some ruleId =>
    have hdel : Returns env (deletRulesStep infos delItem) fun rest =>
        rest = without RuleInfo.ruleId infos delItem.ruleId :=
      deletRulesStep_returns hinfos (by rw [hid]; rfl)
    rw [hid] at hdel
    exact hdel.yields
  | none =>
    rw [deletRulesStep, hid]
    cases infos with
    | nil => exact yields_pure rfl
    | cons x infos =>
      -- comparing with `NULL` is undefined
      have hcheck : Yields env (ruleListCheckExistence (x :: infos) none) fun _ => False := by
        refine (strcmpEq_yields x.ruleId none).bind fun b hb => ?_
        obtain ⟨_, _, -, hnone, -⟩ := hb
        cases hnone
      exact hcheck.bind fun _ h => h.elim

theorem deletRulesFromList_yields {infos delList : List RuleInfo} (hinfos : DistinctIds infos) :
    Yields env (deletRulesFromList infos delList) fun rest => rest = unmarked infos delList := by
  unfold deletRulesFromList
  have hstep : ∀ d ∈ delList, ∀ infos, DistinctIds infos →
      DistinctIds (without RuleInfo.ruleId infos d.ruleId) ∧
      Yields env (deletRulesStep infos d) fun rest =>
        rest = without RuleInfo.ruleId infos d.ruleId := by
    intro d _ infos hinfos
    exact ⟨hinfos.without d.ruleId, deletRulesStep_yields hinfos⟩
  refine (Yields.foldlM_eq hinfos hstep).mono fun rest hrest => ?_
  rw [hrest, unmarked, ← foldl_without, List.foldl_map]

theorem deleteFromMirror_yields {mirror : List CJson} {delList : List RuleInfo}
    (hmirror : MirrorHasIds mirror) :
    Yields env (delList.foldlM (fun mirror listItem => ruleJSONObjDelById mirror listItem.ruleId)
      mirror) MirrorHasIds := by
  refine Yields.foldlM hmirror fun d _ mirror hmirror => ?_
  cases hid : d.ruleId with
  | none => exact yields_pure hmirror
  | some ruleId =>
    refine (ruleJSONObjDelById_returns hmirror ruleId).yields.mono fun mirror' h rule hrule => ?_
    rw [h] at hrule
    exact hmirror rule (List.mem_of_mem_eraseP hrule)

/-- **`RuleMgr_DelRule`** leaves the rules that are not listed. -/
theorem ruleMgrDelRule_yields {delList : List RuleInfo} {mgr : RuleMgr} (hmgr : ManagerInv mgr) :
    Yields env (ruleMgrDelRule delList mgr) fun mgr' => ManagerInv mgr' ∧
      mgr'.ruleInfosList = unmarked mgr.ruleInfosList delList := by
  refine yields_trivial.bind fun filePath _ => ?_
  refine (deleteFromMirror_yields hmgr.mirrorHasIds).bind fun mirror hmirror => ?_
  refine (deletRulesFromList_yields hmgr.distinctIds).bind fun infos hinfos => ?_
  have hdistinct : DistinctIds infos := by
    rw [hinfos]
    exact hmgr.distinctIds.filter _
  refine (saveMirror_yields filePath _).mono fun mgr' hmgr' => ⟨⟨?_, ?_⟩, ?_⟩
  · rw [hmgr'.1]
    exact hdistinct
  · rw [hmgr'.2]
    exact hmirror
  · rw [hmgr'.1]
    exact hinfos

/-- What a shadow message does to the manager and what it requests. -/
structure UpdateFollows (properties : Option CJson) (mgr : RuleMgr) (update : ShadowUpdate) :
    Prop where
  inv : ManagerInv update.mgr
  store : ∀ info ∈ update.mgr.ruleInfosList, info ∈ mgr.ruleInfosList
  processed : update.configRequest.isSome → update.lists.isSome
  requested : ∀ request, update.configRequest = some request →
    ∀ a ∈ request, AsksFor properties a.ruleId
  deleted : update.lists.isSome → ∀ ruleId, Marks properties ruleId →
    ∀ info ∈ update.mgr.ruleInfosList, info.ruleId ≠ ruleId

/-- A message of which the lists were computed. -/
theorem ListsFollow.update {properties : Option CJson} {mgr mgr' : RuleMgr} {lists : RuleLists}
    (hlists : ListsFollow ((properties.map members).getD []) lists)
    (hmgr' : ManagerInv mgr' ∧
      mgr'.ruleInfosList = unmarked mgr.ruleInfosList lists.delList)
    {request : Option (List RuleInfo)}
    (hrequest : ∀ list, request = some list → list = lists.addList) :
    UpdateFollows properties mgr
      { mgr := mgr', lists := some lists, configRequest := request } := by
  obtain ⟨hinv, hstore⟩ := hmgr'
  refine ⟨hinv, fun info hinfo => ?_, fun _ => rfl, fun list h => ?_, fun _ => ?_⟩
  · have hmem : info ∈ unmarked mgr.ruleInfosList lists.delList := hstore ▸ hinfo
    exact (List.mem_filter.mp hmem).1
  · rw [hrequest list h]
    exact hlists.asked
  · rintro ruleId ⟨property, hproperty, rfl, hmark⟩ info hinfo hk
    have hmem : info ∈ unmarked mgr.ruleInfosList lists.delList := hstore ▸ hinfo
    -- a marked id is in `delList`
    have hnot := (List.mem_filter.mp hmem).2
    rw [decide_eq_true_eq, hk] at hnot
    exact hnot (hlists.marked property hproperty hmark)

/-- **`RuleTrans_DeviceRuleUpdateByJSON`**, whatever the message and whichever allocations fail. -/
theorem ruleTransDeviceRuleUpdateByJSON_yields {properties : Option CJson} {mgr : RuleMgr}
    (hmgr : ManagerInv mgr) :
    Yields env (ruleTransDeviceRuleUpdateByJSON properties mgr) (UpdateFollows properties mgr) := by
  have hunchanged : UpdateFollows properties mgr { mgr := mgr } :=
    ⟨hmgr, fun _ h => h, by simp, by simp, by simp⟩
  unfold ruleTransDeviceRuleUpdateByJSON
  refine yields_trivial.bind fun b _ => ?_
  cases b with
  | false => exact yields_pure hunchanged
  | true =>
    refine yields_trivial.bind fun b _ => ?_
    cases b with
    | false => exact yields_pure hunchanged
    | true =>
      refine (getRuleInfoList_follows properties mgr.ruleInfosList).bind fun r hr => ?_
      cases r with
      | done _ => exact yields_pure hunchanged
      | yield lists =>
        have hlists := hr lists rfl
        -- the request is sent after the deletions, and only when there is something to ask for
        have hsend : ∀ mgr', ManagerInv mgr' ∧
            mgr'.ruleInfosList = unmarked mgr.ruleInfosList lists.delList →
              Yields env (if lists.addList.isEmpty then pure { mgr := mgr', lists := some lists }
                else pure
                  { mgr := mgr', lists := some lists, configRequest := some lists.addList } :
                  Sdk ShadowUpdate) (UpdateFollows properties mgr) := by
          intro mgr' hmgr'
          split
          · exact yields_pure (hlists.update hmgr' (by simp))
          · exact yields_pure (hlists.update hmgr' fun list h => (Option.some.inj h).symm)
        dsimp only
        split
        · rename_i hempty
          rw [pure_bind]
          apply hsend
          rw [List.isEmpty_iff.mp hempty]
          exact ⟨hmgr, by simp [unmarked]⟩
        · exact (ruleMgrDelRule_yields hmgr).bind hsend

/-! ### The device and the messages on their way -/

/-- The device, the config requests and the rule downloads that are on their way. -/
structure System where
  mgr : RuleMgr
  requests : List (List RuleInfo) := []
  downloads : List String := []

/-- What happens: the device handles a shadow message, and may or may not process it, the platform
answers a request, or the device parses a download. -/
inductive SystemEvent where
  | shadow (properties : Option CJson) (processed : Bool)
  | answer (request : List RuleInfo)
  | deliver (payload : String)

/-- A processed shadow message asks for the rule. -/
def SystemEvent.AsksFor (ruleId : String) : SystemEvent → Prop
  | shadow properties processed => processed = true ∧ DeviceRule.AsksFor properties (some ruleId)
  | answer _ => False
  | deliver _ => False

/-- One step; requests are answered and downloads are delivered once each and in any order. -/
inductive SystemStep (env : Env) : SystemEvent → System → System → Prop
  | shadow {s : System} {properties : Option CJson} {update : ShadowUpdate}
    (h : Outcome env (ruleTransDeviceRuleUpdateByJSON properties s.mgr) update) :
    SystemStep env (.shadow properties update.lists.isSome) s
      { s with mgr := update.mgr, requests := s.requests ++ update.configRequest.toList }
  | answer {s : System} {before after : List (List RuleInfo)} {request : List RuleInfo}
    {payload : String} (hrequest : s.requests = before ++ request :: after)
    (h : AnswersRequest request (rulesInfos (env.parseJson payload))) :
    SystemStep env (.answer request) s
      { s with requests := before ++ after, downloads := s.downloads ++ [payload] }
  | deliver {s : System} {before after : List String} {payload : String} {mgr : RuleMgr}
    (hdownload : s.downloads = before ++ payload :: after)
    (h : Outcome env (ruleMgrParse (some payload) s.mgr) mgr) :
    SystemStep env (.deliver payload) s { s with mgr := mgr, downloads := before ++ after }

/-- Any number of steps of which each event satisfies `p`. -/
abbrev SystemRun (env : Env) (p : SystemEvent → Prop) : System → System → Prop :=
  Relation.ReflTransGen fun s s' => ∃ event, p event ∧ SystemStep env event s s'

/-- A device with a store of distinct ids, and no message on its way. -/
structure System.Initial (s : System) : Prop where
  inv : ManagerInv s.mgr
  requests : s.requests = []
  downloads : s.downloads = []

/-- A request or a download for the rule is on its way. -/
def System.InFlight (env : Env) (ruleId : String) (s : System) : Prop :=
  (∃ request ∈ s.requests, ∃ a ∈ request, a.ruleId = some ruleId) ∨
    ∃ payload ∈ s.downloads, ∃ rule ∈ rulesInfos (env.parseJson payload),
      entryId rule = some ruleId

/-- The rule is not stored and nothing on its way brings it. -/
structure System.Gone (env : Env) (ruleId : String) (s : System) : Prop where
  inv : ManagerInv s.mgr
  store : ∀ info ∈ s.mgr.ruleInfosList, info.ruleId ≠ some ruleId
  quiet : ¬s.InFlight env ruleId

theorem SystemStep.inv {event : SystemEvent} {s s' : System} (hstep : SystemStep env event s s')
    (hs : ManagerInv s.mgr) : ManagerInv s'.mgr := by
  cases hstep with
  | shadow h => exact (ruleTransDeviceRuleUpdateByJSON_yields hs _ h).inv
  | answer _ _ => exact hs
  | deliver _ h => exact (ruleMgrParse_yields hs _ h).1

/-- An answer names the rules its request names. -/
theorem AnswersRequest.exists_requested {request : List RuleInfo} {rules : List CJson}
    (h : AnswersRequest request rules) {rule : CJson} (hrule : rule ∈ rules) :
    ∃ a ∈ request, a.ruleId = entryId rule := by
  have hpair : (entryId rule, entryVersion rule) ∈
      request.map fun a => (a.ruleId, some a.ruleVersionInShadow) := by
    rw [← h.mem_iff]
    exact List.mem_map_of_mem hrule
  obtain ⟨a, ha, heq⟩ := List.mem_map.mp hpair
  exact ⟨a, ha, (Prod.mk.inj heq).1⟩

/-- What a shadow message puts on its way for a rule was asked for. -/
theorem quiet_shadow {properties : Option CJson} {s : System} {update : ShadowUpdate}
    {ruleId : String} (hfollows : UpdateFollows properties s.mgr update)
    (hasks : ¬(SystemEvent.shadow properties update.lists.isSome).AsksFor ruleId)
    (hquiet : ¬s.InFlight env ruleId) :
    ¬System.InFlight env ruleId
      { s with mgr := update.mgr, requests := s.requests ++ update.configRequest.toList } := by
  rintro (⟨request, hrequest, a, ha, hk⟩ | hdownload)
  · rcases List.mem_append.mp hrequest with hrequest | hrequest
    · exact hquiet (Or.inl ⟨request, hrequest, a, ha, hk⟩)
    · have hsent : update.configRequest = some request := by simpa using hrequest
      have hprocessed : update.lists.isSome := hfollows.processed (by rw [hsent]; rfl)
      exact hasks ⟨hprocessed, hk ▸ hfollows.requested request hsent a ha⟩
  · exact hquiet (Or.inr hdownload)

/-- **One step** keeps a rule away that it does not ask for. -/
theorem SystemStep.gone {event : SystemEvent} {s s' : System} {ruleId : String}
    (hstep : SystemStep env event s s') (hasks : ¬event.AsksFor ruleId)
    (hs : s.Gone env ruleId) : s'.Gone env ruleId := by
  have hinv := hstep.inv hs.inv
  cases hstep with
  | shadow h =>
    have hfollows := ruleTransDeviceRuleUpdateByJSON_yields hs.inv _ h
    exact ⟨hinv, fun info hinfo => hs.store info (hfollows.store info hinfo),
      quiet_shadow hfollows hasks hs.quiet⟩
  | @answer _ before after request payload hrequest h =>
    refine ⟨hinv, hs.store, ?_⟩
    have hsub : ∀ x, x ∈ before ++ after → x ∈ s.requests := by
      intro x hx
      rw [hrequest]
      simp only [List.mem_append, List.mem_cons] at hx ⊢
      exact hx.imp_right Or.inr
    rintro (⟨x, hx, a, ha, hk⟩ | ⟨text, htext, rule, hrule, hk⟩)
    · exact hs.quiet (Or.inl ⟨x, hsub x hx, a, ha, hk⟩)
    · rcases List.mem_append.mp htext with htext | htext
      · exact hs.quiet (Or.inr ⟨text, htext, rule, hrule, hk⟩)
      · -- the new download answers a request that was on its way
        rw [List.mem_singleton.mp htext] at hrule
        obtain ⟨a, ha, hak⟩ := h.exists_requested hrule
        have hmem : request ∈ s.requests := by simp [hrequest]
        exact hs.quiet (Or.inl ⟨request, hmem, a, ha, hak.trans hk⟩)
  | @deliver _ before after payload mgr hdownload h =>
    have hcarried := (ruleMgrParse_yields hs.inv _ h).2
    have hmem : payload ∈ s.downloads := by simp [hdownload]
    have hsub : ∀ x, x ∈ before ++ after → x ∈ s.downloads := by
      intro x hx
      rw [hdownload]
      simp only [List.mem_append, List.mem_cons] at hx ⊢
      exact hx.imp_right Or.inr
    refine ⟨hinv, fun info hinfo hk => ?_, ?_⟩
    · -- a rule of the new store was there or came with a download that was on its way
      rcases hcarried info hinfo with hold | ⟨rule, hrule, hrulek⟩
      · exact hs.store info hold hk
      · exact hs.quiet (Or.inr ⟨payload, hmem, rule, hrule, hrulek.trans hk⟩)
    · rintro (hrequest | ⟨text, htext, rule, hrule, hk⟩)
      · exact hs.quiet (Or.inl hrequest)
      · exact hs.quiet (Or.inr ⟨text, hsub text htext, rule, hrule, hk⟩)

theorem systemRun_inv {p : SystemEvent → Prop} {s s' : System} (hrun : SystemRun env p s s')
    (hs : ManagerInv s.mgr) : ManagerInv s'.mgr := by
  induction hrun with
  | refl => exact hs
  | tail _ hstep ih =>
    obtain ⟨event, -, hstep⟩ := hstep
    exact hstep.inv ih

/-- **A run** keeps a rule away that it does not ask for. -/
theorem systemRun_gone {s s' : System} {ruleId : String}
    (hrun : SystemRun env (fun event => ¬event.AsksFor ruleId) s s') (hs : s.Gone env ruleId) :
    s'.Gone env ruleId := by
  induction hrun with
  | refl => exact hs
  | tail _ hstep ih =>
    obtain ⟨event, hasks, hstep⟩ := hstep
    exact hstep.gone hasks ih

/-- **A deleted rule stays deleted**: when a processed shadow message marks a rule, does not ask for
it at the same time, and no request or download for it is on its way, then the rule is not stored
after any further steps without a processed shadow message that asks for it. -/
theorem deletedRule_stays_deleted {start s s₁ s₂ : System} {properties : Option CJson}
    {ruleId : String} (hstart : start.Initial) (hreach : SystemRun env (fun _ => True) start s)
    (hdelete : SystemStep env (.shadow properties true) s s₁)
    (hmarks : Marks properties (some ruleId)) (hasks : ¬AsksFor properties (some ruleId))
    (hquiet : ¬s.InFlight env ruleId)
    (hrun : SystemRun env (fun event => ¬event.AsksFor ruleId) s₁ s₂) :
    ∀ info ∈ s₂.mgr.ruleInfosList, info.ruleId ≠ some ruleId := by
  have hinv : ManagerInv s.mgr := systemRun_inv hreach hstart.inv
  have hgone : s₁.Gone env ruleId := by
    have hinv₁ := hdelete.inv hinv
    -- the step is the shadow message of the statement
    generalize hevent : SystemEvent.shadow properties true = event at hdelete
    cases hdelete with
    | answer _ _ => cases hevent
    | deliver _ _ => cases hevent
    | @shadow _ properties' update h =>
      obtain ⟨rfl, hprocessed⟩ := SystemEvent.shadow.inj hevent
      have hfollows := ruleTransDeviceRuleUpdateByJSON_yields hinv _ h
      refine ⟨hinv₁, hfollows.deleted hprocessed.symm (some ruleId) hmarks, ?_⟩
      exact quiet_shadow hfollows (fun h => hasks h.2) hquiet
  exact (systemRun_gone hrun hgone).store

/-- A shadow message with a version for rule `a`. -/
def shadowOfA (version : ℚ) : Option CJson :=
  some (.object [("a", .object [("version", .number version)])])

theorem marks_shadowOfA : Marks (shadowOfA (-1)) (some "a") :=
  ⟨(some "a", .object [("version", .number (-1))]), by simp [shadowOfA, members], rfl,
    by decide +kernel⟩

theorem not_asksFor_shadowOfA : ¬AsksFor (shadowOfA (-1)) (some "a") := by
  rintro ⟨property, hproperty, -, version, hversion, hne⟩
  obtain rfl : property = (some "a", .object [("version", .number (-1))]) := by
    simpa [shadowOfA, members] using hproperty
  have hmark : shadowVersion (.object [("version", .number (-1))]) = some (-1) := by
    decide +kernel
  exact hne (Option.some.inj (hversion.symm.trans hmark))

/-- A manager that stores rule `a` and mirrors its entry. -/
def managerOfA : RuleMgr :=
  { ruleInfosList := [{ ruleId := some "a", ruleVersionInShadow := 1 }]
    ruleInfosListJSON := [bareEntry "a" 1 .null]
    files := fun _ => none }

theorem managerInv_managerOfA : ManagerInv managerOfA := by
  refine ⟨⟨by simp [managerOfA], by simp [managerOfA]⟩, fun rule hrule => ?_⟩
  rw [List.mem_singleton.mp hrule]
  decide +kernel

/-- A shadow message with version 1 of rule `b`. -/
def shadowOfB : Option CJson := some (.object [("b", .object [("version", .number 1)])])

theorem not_asksFor_shadowOfB : ¬AsksFor shadowOfB (some "a") := by
  rintro ⟨property, hproperty, hid, -⟩
  obtain rfl : property = (some "b", .object [("version", .number 1)]) := by
    simpa [shadowOfB, members] using hproperty
  exact absurd (Option.some.inj hid) (by decide)

/-- An environment in which the download `"other"` carries version 1 of rule `b`. -/
def otherEnv : Env :=
  { Env.plentiful with
    parseJson := fun text =>
      if text = "other" then some (ruleMessage [bareEntry "b" 1 .null]) else none }

/-- Rule `a` is deleted, rule `b` is asked for, and the download for it arrives. -/
def deleteAskDownload (mgr : RuleMgr) : Sdk (ShadowUpdate × ShadowUpdate × RuleMgr) := do
  let deleted ← ruleTransDeviceRuleUpdateByJSON (shadowOfA (-1)) mgr
  let asked ← ruleTransDeviceRuleUpdateByJSON shadowOfB deleted.mgr
  let mgr ← ruleMgrParse (some "other") asked.mgr
  return (deleted, asked, mgr)

theorem deletedRule_stays_deleted_otherDownload :
    ∃ s₁ s₂, SystemStep otherEnv (.shadow (shadowOfA (-1)) true) { mgr := managerOfA } s₁ ∧
      SystemRun otherEnv (fun event => ¬event.AsksFor "a") s₁ s₂ ∧
      some "b" ∈ s₂.mgr.ruleInfosList.map RuleInfo.ruleId ∧
      ∀ info ∈ s₂.mgr.ruleInfosList, info.ruleId ≠ some "a" := by
  have hrun : ((deleteAskDownload managerOfA) otherEnv default).map (fun r => decide
      (r.1.1.lists.isSome ∧ r.1.1.configRequest.isNone ∧ r.1.2.1.lists.isSome ∧
        (r.1.2.1.configRequest.map fun request =>
          request.map fun a => (a.ruleId, some a.ruleVersionInShadow)) = some [(some "b", some 1)] ∧
        some "b" ∈ r.1.2.2.ruleInfosList.map RuleInfo.ruleId)) = some true := by
    decide +kernel
  obtain ⟨⟨⟨deleted, asked, mgr⟩, s'⟩, hresult, hvalues⟩ := Option.map_eq_some_iff.mp hrun
  obtain ⟨hprocessed, hnone, hprocessed', hrequest, hstored⟩ := of_decide_eq_true hvalues
  dsimp only at hprocessed hnone hprocessed' hrequest hstored
  have hout : Outcome otherEnv (deleteAskDownload managerOfA) (deleted, asked, mgr) :=
    ⟨default, s', hresult⟩
  obtain ⟨deleted', hdeleted, hout⟩ := outcome_bind hout
  obtain ⟨asked', hasked, hout⟩ := outcome_bind hout
  obtain ⟨mgr', hparsed, hout⟩ := outcome_bind hout
  obtain ⟨rfl, hpair⟩ := Prod.mk.inj (outcome_pure.mp hout)
  obtain ⟨rfl, rfl⟩ := Prod.mk.inj hpair
  obtain ⟨request, hsent, hids⟩ := Option.map_eq_some_iff.mp hrequest
  have hdelete : SystemStep otherEnv (.shadow (shadowOfA (-1)) deleted.lists.isSome)
      { mgr := managerOfA }
      { mgr := deleted.mgr, requests := [] ++ deleted.configRequest.toList } := .shadow hdeleted
  rw [hprocessed, Option.isNone_iff_eq_none.mp hnone] at hdelete
  have hask : SystemStep otherEnv (.shadow shadowOfB asked.lists.isSome) { mgr := deleted.mgr }
      { mgr := asked.mgr, requests := [] ++ asked.configRequest.toList } := .shadow hasked
  rw [hsent] at hask
  have hanswers : AnswersRequest request (rulesInfos (otherEnv.parseJson "other")) := by
    unfold AnswersRequest
    rw [hids]
    decide +kernel
  have hanswer : SystemStep otherEnv (.answer request) { mgr := asked.mgr, requests := [request] }
      { mgr := asked.mgr, downloads := ["other"] } :=
    .answer (show _ = [] ++ request :: [] from rfl) hanswers
  have hdeliver : SystemStep otherEnv (.deliver "other")
      { mgr := asked.mgr, downloads := ["other"] } { mgr := mgr } :=
    .deliver (show _ = [] ++ "other" :: [] from rfl) hparsed
  have hnotAsked : ¬SystemEvent.AsksFor "a" (.shadow shadowOfB asked.lists.isSome) :=
    fun h => not_asksFor_shadowOfB h.2
  have hother : SystemRun otherEnv (fun event => ¬event.AsksFor "a") { mgr := deleted.mgr }
      { mgr := mgr } :=
    ((Relation.ReflTransGen.single ⟨_, hnotAsked, hask⟩).tail
      ⟨_, id, hanswer⟩).tail ⟨_, id, hdeliver⟩
  -- nothing is on its way when the rule is deleted
  have hquiet : ¬System.InFlight otherEnv "a" { mgr := managerOfA } := by
    simp [System.InFlight]
  exact ⟨_, _, hdelete, hother, hstored,
    deletedRule_stays_deleted ⟨managerInv_managerOfA, rfl, rfl⟩ Relation.ReflTransGen.refl hdelete
      marks_shadowOfA not_asksFor_shadowOfA hquiet hother⟩

/-- An environment in which the download `"late"` carries version 1 of rule `a`. -/
def lateEnv : Env :=
  { Env.plentiful with
    parseJson := fun text =>
      if text = "late" then some (ruleMessage [bareEntry "a" 1 .null]) else none }

/-- Two shadow messages and the download for the first of them. -/
def askDeleteDownload (mgr : RuleMgr) : Sdk (ShadowUpdate × ShadowUpdate × RuleMgr) := do
  let asked ← ruleTransDeviceRuleUpdateByJSON (shadowOfA 1) mgr
  let deleted ← ruleTransDeviceRuleUpdateByJSON (shadowOfA (-1)) asked.mgr
  let mgr ← ruleMgrParse (some "late") deleted.mgr
  return (asked, deleted, mgr)

/-- The answer to a request made before the deletion restores the deleted rule. -/
theorem lateDownload_restores_rule :
    ¬∀ (env : Env) (start s s₁ s₂ : System) (properties : Option CJson) (ruleId : String),
      env.AllocsSucceed → start.Initial → SystemRun env (fun _ => True) start s →
        SystemStep env (.shadow properties true) s s₁ → Marks properties (some ruleId) →
          ¬AsksFor properties (some ruleId) →
            SystemRun env (fun event => ¬event.AsksFor ruleId) s₁ s₂ →
              ∀ info ∈ s₂.mgr.ruleInfosList, info.ruleId ≠ some ruleId := by
  intro hclaim
  have hrun : ((askDeleteDownload { files := fun _ => none }) lateEnv default).map (fun r => decide
      ((r.1.1.configRequest.map fun request =>
          request.map fun a => (a.ruleId, some a.ruleVersionInShadow)) = some [(some "a", some 1)] ∧
        r.1.2.1.lists.isSome ∧ r.1.2.1.configRequest.isNone ∧
        some "a" ∈ r.1.2.2.ruleInfosList.map RuleInfo.ruleId)) = some true := by
    decide +kernel
  obtain ⟨⟨⟨asked, deleted, mgr⟩, s'⟩, hresult, hvalues⟩ := Option.map_eq_some_iff.mp hrun
  obtain ⟨hrequest, hprocessed, hnone, hrestored⟩ := of_decide_eq_true hvalues
  dsimp only at hrequest hprocessed hnone hrestored
  -- the three runs the program is made of
  have hout :
      Outcome lateEnv (askDeleteDownload { files := fun _ => none }) (asked, deleted, mgr) :=
    ⟨default, s', hresult⟩
  obtain ⟨asked', hasked, hout⟩ := outcome_bind hout
  obtain ⟨deleted', hdeleted, hout⟩ := outcome_bind hout
  obtain ⟨mgr', hparsed, hout⟩ := outcome_bind hout
  obtain ⟨rfl, hpair⟩ := Prod.mk.inj (outcome_pure.mp hout)
  obtain ⟨rfl, rfl⟩ := Prod.mk.inj hpair
  obtain ⟨request, hsent, hids⟩ := Option.map_eq_some_iff.mp hrequest
  -- the states they lead through
  have hstart : System.Initial { mgr := { files := fun _ => none } } :=
    ⟨⟨distinctIds_nil, by intro rule hrule; cases hrule⟩, rfl, rfl⟩
  have hask : SystemStep lateEnv (.shadow (shadowOfA 1) asked.lists.isSome)
      { mgr := { files := fun _ => none } }
      { mgr := asked.mgr, requests := [] ++ asked.configRequest.toList } := .shadow hasked
  rw [hsent] at hask
  have hdelete : SystemStep lateEnv (.shadow (shadowOfA (-1)) deleted.lists.isSome)
      { mgr := asked.mgr, requests := [request] }
      { mgr := deleted.mgr, requests := [request] ++ deleted.configRequest.toList } :=
    .shadow hdeleted
  rw [hprocessed, Option.isNone_iff_eq_none.mp hnone] at hdelete
  have hanswers : AnswersRequest request (rulesInfos (lateEnv.parseJson "late")) := by
    unfold AnswersRequest
    rw [hids]
    decide +kernel
  have hanswer : SystemStep lateEnv (.answer request) { mgr := deleted.mgr, requests := [request] }
      { mgr := deleted.mgr, downloads := ["late"] } :=
    .answer (show _ = [] ++ request :: [] from rfl) hanswers
  have hdeliver : SystemStep lateEnv (.deliver "late")
      { mgr := deleted.mgr, downloads := ["late"] } { mgr := mgr } :=
    .deliver (show _ = [] ++ "late" :: [] from rfl) hparsed
  have hlate : SystemRun lateEnv (fun event => ¬event.AsksFor "a")
      { mgr := deleted.mgr, requests := [request] } { mgr := mgr } :=
    (Relation.ReflTransGen.single ⟨_, id, hanswer⟩).tail ⟨_, id, hdeliver⟩
  obtain ⟨info, hinfo, hk⟩ := List.mem_map.mp hrestored
  exact hclaim lateEnv _ _ _ _ _ "a" (fun _ => rfl) hstart
    (Relation.ReflTransGen.single ⟨_, trivial, hask⟩) hdelete marks_shadowOfA not_asksFor_shadowOfA
    hlate info hinfo hk

end IotDeviceSdk.DeviceRule
