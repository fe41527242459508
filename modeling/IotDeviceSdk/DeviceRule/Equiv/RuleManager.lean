import IotDeviceSdk.DeviceRule.Equiv.RuleMerge
import IotDeviceSdk.DeviceRule.Equiv.RuleUpdate
import IotDeviceSdk.DeviceRule.RuleManager
import Mathlib.Logic.Relation

/-!
# The mirror of the rule store

The manager keeps the entries of its rules in `g_ruleInfosListJSON` and writes them to the rule
file.  The hook adds an entry to the mirror before the entry is parsed, so a rejected entry stays
in the mirror.

* `ruleMgr_mirrorAgrees`: in every run without such an entry the mirror lists the ids and versions
  of the store.
* `saveThenLoad_restores`: a mirror whose entries parse is restored from the file it was saved to.
-/

namespace IotDeviceSdk.DeviceRule

open CJson Prog VersionedStore

variable {env : Env}

/-- Every entry of the mirror has an id. -/
def MirrorHasIds (mirror : List CJson) : Prop := ∀ rule ∈ mirror, (entryId rule).isSome

theorem MirrorHasIds.of_mem_some {mirror : List CJson} (h : MirrorHasIds mirror) :
    ∀ m ∈ some mirror, MirrorHasIds m := by
  rintro _ ⟨⟩
  exact h

/-! ### The hook -/

theorem ruleJSONObjDelById_returns {mirror : List CJson} (hmirror : MirrorHasIds mirror)
    (ruleId : String) :
    Returns env (ruleJSONObjDelById mirror (some ruleId)) fun mirror' =>
      mirror' = mirror.eraseP fun rule => decide (entryId rule = some ruleId) := by
  show Returns env (ruleJSONObjDelById.go ruleId mirror) _
  induction mirror with
  | nil => exact returns_pure rfl
  | cons rule mirror ih =>
    obtain ⟨s, hs⟩ := Option.isSome_iff_exists.mp (hmirror rule (by simp))
    have hcmp : strcmpEq (entryId rule) (some ruleId) = pure (s == ruleId) := by rw [hs]; rfl
    rw [ruleJSONObjDelById.go, hcmp, pure_bind]
    by_cases heq : s = ruleId
    · rw [if_pos (by simpa using heq), List.eraseP_cons_of_pos (by simp [hs, heq])]
      exact returns_pure rfl
    · rw [if_neg (by simpa using heq), List.eraseP_cons_of_neg (by simp [hs, heq])]
      have hrest : MirrorHasIds mirror := fun x hx => hmirror x (by simp [hx])
      exact (ih hrest).bind fun rest hrest => returns_pure (by rw [hrest])

/-- **`UpdateRuleJSONObj`** removes the first entry of the id, or appends the entry. -/
theorem updateRuleJSONObj_returns {mirror : List CJson} {rule : CJson} {ruleId : String}
    (hmirror : MirrorHasIds mirror) (hid : entryId rule = some ruleId) (isRemove : Bool) :
    Returns env (updateRuleJSONObj mirror isRemove rule) fun mirror' =>
      MirrorHasIds mirror' ∧
        (isRemove = true → mirror' =
          mirror.eraseP fun rule => decide (entryId rule = some ruleId)) ∧
        (isRemove = false → env.AllocsSucceed → mirror' = mirror ++ [rule]) := by
  cases isRemove with
  | true =>
    show Returns env (ruleJSONObjDelById mirror (entryId rule)) _
    rw [hid]
    apply (ruleJSONObjDelById_returns hmirror ruleId).mono
    intro mirror' h
    refine ⟨fun x hx => ?_, fun _ => h, fun hf => absurd hf (by decide)⟩
    rw [h] at hx
    exact hmirror x (List.mem_of_mem_eraseP hx)
  | false =>
    apply (cJsonDuplicate_supplies (some rule)).bind
    intro copy hcopy
    cases copy with
    | none =>
      -- there was no memory for the copy, so the mirror stays
      refine returns_pure ⟨hmirror, fun hf => absurd hf (by decide), fun _ hA => ?_⟩
      exact absurd (hcopy.2 hA) (by simp)
    | some copy =>
      obtain rfl : rule = copy := Option.some.inj (hcopy.1 copy rfl)
      refine returns_pure ⟨fun x hx => ?_, fun hf => absurd hf (by decide), fun _ _ => rfl⟩
      rcases List.mem_append.mp hx with hx | hx
      · exact hmirror x hx
      · rw [List.mem_singleton.mp hx, hid]
        rfl

theorem hookKeeps_updateRuleJSONObj : HookKeeps env (some updateRuleJSONObj) MirrorHasIds := by
  intro hook hhook mirror hmirror isRemove rule hid
  obtain rfl : updateRuleJSONObj = hook := by simpa using hhook
  obtain ⟨ruleId, hruleId⟩ := Option.isSome_iff_exists.mp hid
  exact (updateRuleJSONObj_returns hmirror hruleId isRemove).mono fun _ h => h.1

theorem callHook_updateRuleJSONObj {mirror : List CJson} {rule : CJson} {ruleId : String}
    {target : Option (List CJson)} {isRemove : Bool} (hmirror : MirrorHasIds mirror)
    (hid : entryId rule = some ruleId)
    (hout : Outcome env (callHook (some updateRuleJSONObj) (some mirror) isRemove rule) target) :
    ∃ mirror', target = some mirror' ∧ MirrorHasIds mirror' ∧
      (isRemove = true → mirror' = mirror.eraseP fun rule => decide (entryId rule = some ruleId)) ∧
      (isRemove = false → env.AllocsSucceed → mirror' = mirror ++ [rule]) := by
  obtain ⟨mirror', hcall, hpure⟩ := outcome_bind hout
  have hspec := (updateRuleJSONObj_returns hmirror hid isRemove).yields mirror' hcall
  exact ⟨mirror', outcome_pure.mp hpure, hspec⟩

/-- What the mirror is after the hook was told of an insertion. -/
theorem HookTold.mirror {mirror : List CJson} {rule : CJson} {ruleId : String}
    {target : Option (List CJson)} {replaced : Prop} (hA : env.AllocsSucceed)
    (htold : HookTold env (some updateRuleJSONObj) rule replaced (some mirror) target)
    (hmirror : MirrorHasIds mirror) (hnodup : (mirror.map entryId).Nodup)
    (hid : entryId rule = some ruleId)
    (hreplaced : replaced ↔ ∃ old ∈ mirror, entryId old = some ruleId) :
    target = some (without entryId mirror (some ruleId) ++ [rule]) := by
  obtain ⟨t, hremove, hadd⟩ := htold
  rcases hremove with ⟨-, hremove⟩ | ⟨hnot, rfl⟩
  · obtain ⟨mirror₁, rfl, hmirror₁, hremoved, -⟩ := callHook_updateRuleJSONObj hmirror hid hremove
    obtain ⟨mirror₂, rfl, -, -, hadded⟩ := callHook_updateRuleJSONObj hmirror₁ hid hadd
    rw [hadded rfl hA, hremoved rfl, eraseP_eq_without hnodup]
  · obtain ⟨mirror₂, rfl, -, -, hadded⟩ := callHook_updateRuleJSONObj hmirror hid hadd
    have hfree : ∀ x ∈ mirror, entryId x ≠ some ruleId := fun x hx hk =>
      hnot (hreplaced.mpr ⟨x, hx, hk⟩)
    rw [hadded rfl hA, without_eq_self hfree]

/-! ### Agreement -/

/-- The mirror lists exactly the ids and versions of the rules, in the same order. -/
abbrev Agrees (infos : List RuleInfo) (mirror : List CJson) : Prop :=
  List.Forall₂ (fun info rule => entryId rule = info.ruleId ∧
    entryVersion rule = some info.ruleVersionInShadow) infos mirror

theorem Agrees.ids_eq {infos : List RuleInfo} {mirror : List CJson} (h : Agrees infos mirror) :
    mirror.map entryId = infos.map RuleInfo.ruleId := by
  induction h with
  | nil => rfl
  | cons hrule _ ih => rw [List.map_cons, List.map_cons, hrule.1, ih]

theorem Agrees.hasIds {infos : List RuleInfo} {mirror : List CJson} (h : Agrees infos mirror)
    (hinfos : DistinctIds infos) : MirrorHasIds mirror := by
  intro rule hrule
  have hmem : entryId rule ∈ infos.map RuleInfo.ruleId := h.ids_eq ▸ List.mem_map_of_mem hrule
  obtain ⟨info, hinfo, hk⟩ := List.mem_map.mp hmem
  rw [← hk]
  exact hinfos.isSome info hinfo

theorem Agrees.nodup {infos : List RuleInfo} {mirror : List CJson} (h : Agrees infos mirror)
    (hinfos : DistinctIds infos) : (mirror.map entryId).Nodup := by
  rw [h.ids_eq]
  exact hinfos.nodup

theorem Agrees.exists_id_iff {infos : List RuleInfo} {mirror : List CJson}
    (h : Agrees infos mirror) (k : Option String) :
    (∃ old ∈ infos, old.ruleId = k) ↔ ∃ old ∈ mirror, entryId old = k := by
  rw [← List.mem_map, ← List.mem_map, h.ids_eq]

/-- The same filter on ids keeps the agreement. -/
theorem Agrees.filter {infos : List RuleInfo} {mirror : List CJson} (h : Agrees infos mirror)
    (p : Option String → Bool) :
    Agrees (infos.filter fun info => p info.ruleId)
      (mirror.filter fun rule => p (entryId rule)) := by
  refine List.rel_filter (fun {info rule} hrule => ?_) h
  dsimp only
  rw [hrule.1]

theorem Agrees.insert {infos : List RuleInfo} {mirror : List CJson} {info : RuleInfo}
    {rule : CJson} (h : Agrees infos mirror) (k : Option String) (hparsed : info.ParsedFrom rule) :
    Agrees (without RuleInfo.ruleId infos k ++ [info]) (without entryId mirror k ++ [rule]) := by
  have hread := hparsed.readFrom
  refine List.rel_append (h.filter fun id => decide (id ≠ k)) ?_
  exact List.Forall₂.cons ⟨hread.ruleId.symm, hread.version⟩ List.Forall₂.nil

/-- The loop over entries of which none is rejected keeps the mirror in agreement. -/
theorem forEach_agrees {rules : List CJson} {infos : List RuleInfo} {mirror : List CJson}
    (hA : env.AllocsSucceed) (hinfos : DistinctIds infos) (hagrees : Agrees infos mirror)
    (haccepted : insertsAccepted (fun _ => true) (idsAndVersions infos) rules = true) :
    Returns env (forEach (parseDeviceRuleStep (some updateRuleJSONObj)) rules (infos, some mirror))
      fun r => DistinctIds (stepValue r).1 ∧
        ∃ mirror', (stepValue r).2 = some mirror' ∧ Agrees (stepValue r).1 mirror' := by
  induction rules generalizing infos mirror with
  | nil => exact returns_pure ⟨hinfos, mirror, rfl, hagrees⟩
  | cons rule rules ih =>
    have hmirror := (hagrees.hasIds hinfos).of_mem_some
    refine (parseDeviceRuleStep_returns hinfos hookKeeps_updateRuleJSONObj hmirror).bind
      fun r hr => ?_
    obtain ⟨hout, -⟩ := hr
    have hinfos' := hout.distinctIds hinfos
    cases hout with
    | unreadable _ => exact returns_pure ⟨hinfos, mirror, rfl, hagrees⟩
    | stale hid hversion hold hk hle =>
      rw [insertsAccepted_stale hid hversion hold hk hle] at haccepted
      exact ih hinfos hagrees haccepted
    | @inserted ruleId version info target hid hversion hnew htold hparsed hacc =>
      have hk : info.ruleId = some ruleId := hparsed.readFrom.ruleId.trans hid
      have hv := hparsed.version_eq hversion
      rw [insertsAccepted_newer hid hversion hnew, if_pos (hacc hA),
        ← idsAndVersions_insert hk hv] at haccepted
      have htarget := htold.mirror hA (hagrees.hasIds hinfos) (hagrees.nodup hinfos) hid
        (hagrees.exists_id_iff _)
      subst htarget
      exact ih hinfos' (hagrees.insert (some ruleId) hparsed) haccepted
    | rejected hid hversion hnew _ hacc =>
      -- a rejected entry is excluded
      rw [insertsAccepted_newer hid hversion hnew, hacc hA, if_neg (by decide)] at haccepted
      exact absurd haccepted (by decide)

/-! ### The operations of the manager -/

/-- The store has distinct ids and the mirror agrees with it. -/
structure MirrorAgrees (mgr : RuleMgr) : Prop where
  distinctIds : DistinctIds mgr.ruleInfosList
  agrees : Agrees mgr.ruleInfosList mgr.ruleInfosListJSON

theorem atomicStringCopy_returns (self : Option String) :
    Returns env (atomicStringCopy self) fun _ => True := by
  have hcopy : Returns env (cStrDuplicate self) fun _ => True := by
    cases self with
    | none => exact returns_pure trivial
    | some s => exact (cStrDuplicate_returns s).mono fun _ _ => trivial
  apply hcopy.bind
  intro r _
  cases r with
  | none => exact returns_pure trivial
  | some _ => exact returns_pure trivial

/-- Writing the file, when no allocation fails: the content is written when the root object can be
printed and the path leads to a writable file. -/
theorem ruleJSONObjSaveToFile_returns (hA : env.AllocsSucceed) (filePath : Option String)
    (mirror : List CJson) (files : Files) :
    Returns env (ruleJSONObjSaveToFile filePath mirror files) fun files' =>
      ∀ path content real, filePath = some path →
        env.printJson (ruleFileRoot mirror) = some content → env.realpath path = some real →
          env.writable real = true → files' = Function.update files real (some content) := by
  cases filePath with
  | none => exact returns_pure (by simp)
  | some path =>
    -- the root object and the item of the list
    apply malloc_returns.bind
    intro created hcreated
    rw [hcreated hA]
    apply malloc_returns.bind
    intro added hadded
    rw [hadded hA]
    apply (ask_returns _).bind
    intro content hcontent
    subst hcontent
    cases hprint : env.printJson (ruleFileRoot mirror) with
    | none => exact returns_pure (by simp)
    | some content =>
      apply (ask_returns _).bind
      intro real hreal
      subst hreal
      cases hpath : env.realpath path with
      | none =>
        refine returns_pure fun path' content' real' hp _ hr => ?_
        obtain rfl : path = path' := Option.some.inj hp
        rw [hpath] at hr
        cases hr
      | some real =>
        apply (ask_returns _).bind
        intro writable hwritable
        subst hwritable
        -- what the hypotheses name is what was printed and resolved
        have hsame : ∀ {path' content' real'}, some path = some path' →
            some content = some content' → env.realpath path' = some real' →
              real = real' ∧ content = content' := by
          intro path' content' real' hp hc hr
          obtain rfl : path = path' := Option.some.inj hp
          exact ⟨Option.some.inj (hpath.symm.trans hr), Option.some.inj hc⟩
        cases hw : env.writable real with
        | false =>
          refine returns_pure fun path' content' real' hp hc hr hw' => ?_
          rw [← (hsame hp hc hr).1, hw] at hw'
          exact absurd hw' (by decide)
        | true =>
          refine returns_pure fun path' content' real' hp hc hr _ => ?_
          rw [(hsame hp hc hr).1, (hsame hp hc hr).2]

theorem saveMirror_returns (hA : env.AllocsSucceed) (filePath : Option String) (mgr : RuleMgr) :
    Returns env (saveMirror filePath mgr) fun mgr' =>
      mgr'.ruleInfosList = mgr.ruleInfosList ∧ mgr'.ruleInfosListJSON = mgr.ruleInfosListJSON :=
  (ruleJSONObjSaveToFile_returns hA filePath _ _).bind fun _ _ => returns_pure ⟨rfl, rfl⟩

theorem parseIntoStore_agrees {paras : Option CJson} {mgr : RuleMgr} (hA : env.AllocsSucceed)
    (hmgr : MirrorAgrees mgr)
    (haccepted : insertsAccepted (fun _ => true) (idsAndVersions mgr.ruleInfosList)
      (rulesInfos paras) = true) :
    Returns env (parseIntoStore paras mgr) MirrorAgrees := by
  have hparse : Returns env (parseDeviceRuleWithHook (some updateRuleJSONObj) paras
      (mgr.ruleInfosList, some mgr.ruleInfosListJSON)) fun state => DistinctIds state.1 ∧
        ∃ mirror', state.2 = some mirror' ∧ Agrees state.1 mirror' :=
    (forEach_agrees hA hmgr.distinctIds hmgr.agrees haccepted).bind fun _ hr => returns_pure hr
  apply hparse.bind
  intro state hstate
  obtain ⟨infos, target⟩ := state
  obtain ⟨hinfos, mirror, rfl, hagrees⟩ := hstate
  exact returns_pure ⟨hinfos, hagrees⟩

/-- Deleting ids from the mirror one by one. -/
theorem deleteFromMirror_returns {mirror : List CJson} {delList : List RuleInfo}
    (hmirror : MirrorHasIds mirror) (hnodup : (mirror.map entryId).Nodup)
    (hdel : ∀ d ∈ delList, d.ruleId.isSome) :
    Returns env (delList.foldlM (fun mirror listItem => ruleJSONObjDelById mirror listItem.ruleId)
      mirror) fun mirror' =>
        mirror' = (delList.map RuleInfo.ruleId).foldl (without entryId) mirror := by
  rw [List.foldl_map]
  apply Returns.foldlM_eq (I := fun m => MirrorHasIds m ∧ (m.map entryId).Nodup) ⟨hmirror, hnodup⟩
  rintro d hd mirror ⟨hmirror, hnodup⟩
  obtain ⟨ruleId, hruleId⟩ := Option.isSome_iff_exists.mp (hdel d hd)
  rw [hruleId, ← eraseP_eq_without hnodup]
  have hrest : MirrorHasIds (mirror.eraseP fun rule => decide (entryId rule = some ruleId)) :=
    fun x hx => hmirror x (List.mem_of_mem_eraseP hx)
  refine ⟨⟨hrest, ?_⟩, ruleJSONObjDelById_returns hmirror ruleId⟩
  rw [eraseP_eq_without hnodup]
  exact nodup_without hnodup

theorem ruleMgrDelRule_agrees {delList : List RuleInfo} {mgr : RuleMgr} (hA : env.AllocsSucceed)
    (hmgr : MirrorAgrees mgr) (hdel : ∀ d ∈ delList, d.ruleId.isSome) :
    Returns env (ruleMgrDelRule delList mgr) MirrorAgrees := by
  apply (atomicStringCopy_returns _).bind
  intro filePath _
  refine (deleteFromMirror_returns (hmgr.agrees.hasIds hmgr.distinctIds)
    (hmgr.agrees.nodup hmgr.distinctIds) hdel).bind fun mirror hmirror => ?_
  apply (deletRulesFromList_returns hmgr.distinctIds hdel).bind
  intro infos hinfos
  apply (saveMirror_returns hA filePath _).mono
  intro mgr' hmgr'
  have hdistinct := hmgr.distinctIds.filter fun info => info.ruleId ∉ delList.map RuleInfo.ruleId
  have hagrees := hmgr.agrees.filter fun id => id ∉ delList.map RuleInfo.ruleId
  have hmirror' : mirror = mgr.ruleInfosListJSON.filter fun rule =>
      entryId rule ∉ delList.map RuleInfo.ruleId := by
    rw [hmirror, foldl_without]
  -- store and mirror are filtered by the same ids
  constructor
  · rw [hmgr'.1, hinfos]
    exact hdistinct
  · rw [hmgr'.1, hmgr'.2, hinfos, hmirror']
    exact hagrees

/-! ### Runs of the manager -/

/-- A call to the manager. -/
inductive RuleMgrOp where
  | parse (payload : Option String)
  | parseJSON (paras : Option CJson)
  | delRule (delList : List RuleInfo)
  | enableDeviceRuleStorage (filePath : Option String)

/-- The call. -/
def RuleMgrOp.run : RuleMgrOp → RuleMgr → Sdk RuleMgr
  | parse payload => ruleMgrParse payload
  | parseJSON paras => ruleMgrParseJSON paras
  | delRule delList => ruleMgrDelRule delList
  | enableDeviceRuleStorage filePath => ruleMgrEnableDeviceRuleStorage filePath

/-- The message a call parses. -/
def RuleMgrOp.message (env : Env) (mgr : RuleMgr) : RuleMgrOp → Option CJson
  | parse payload => payload.bind env.parseJson
  | parseJSON paras => paras
  | delRule _ => none
  | enableDeviceRuleStorage filePath =>
    if copyable filePath then ((filePath.bind env.realpath).bind mgr.files).bind env.parseJson
    else none

/-- The call meets no rejected entry it has to insert, and deletes ids that are not `NULL`. -/
structure RuleMgrOp.Clean (env : Env) (mgr : RuleMgr) (op : RuleMgrOp) : Prop where
  accepted : insertsAccepted (fun _ => true) (idsAndVersions mgr.ruleInfosList)
    (rulesInfos (op.message env mgr)) = true
  deletes : ∀ delList, op = .delRule delList → ∀ d ∈ delList, d.ruleId.isSome

theorem ruleMgrParseJSON_agrees {paras : Option CJson} {mgr : RuleMgr} (hA : env.AllocsSucceed)
    (hmgr : MirrorAgrees mgr)
    (haccepted : insertsAccepted (fun _ => true) (idsAndVersions mgr.ruleInfosList)
      (rulesInfos paras) = true) :
    Returns env (ruleMgrParseJSON paras mgr) MirrorAgrees := by
  apply (atomicStringCopy_returns _).bind
  intro filePath _
  apply (parseIntoStore_agrees hA hmgr haccepted).bind
  intro mgr' hmgr'
  apply (saveMirror_returns hA filePath mgr').mono
  intro mgr'' hmgr''
  exact ⟨hmgr''.1 ▸ hmgr'.distinctIds, hmgr''.1 ▸ hmgr''.2 ▸ hmgr'.agrees⟩

theorem enableDeviceRuleStorage_agrees {filePath : Option String} {mgr : RuleMgr}
    (hA : env.AllocsSucceed) (hmgr : MirrorAgrees mgr)
    (haccepted : insertsAccepted (fun _ => true) (idsAndVersions mgr.ruleInfosList)
      (rulesInfos ((RuleMgrOp.enableDeviceRuleStorage filePath).message env mgr)) = true) :
    Returns env (ruleMgrEnableDeviceRuleStorage filePath mgr) MirrorAgrees := by
  have hsame : ∀ path : Option String, MirrorAgrees { mgr with ruleFilePath := path } :=
    fun path => ⟨hmgr.distinctIds, hmgr.agrees⟩
  cases filePath with
  | none =>
    -- there is no path to resolve
    apply (ask_returns _).bind
    intro real hreal
    subst hreal
    exact returns_pure (hsame none)
  | some path =>
    apply (cStrDuplicate_returns path).bind
    intro copy hcopy
    obtain ⟨hcases, hlen⟩ := hcopy
    rcases hcases with rfl | rfl
    · exact returns_pure hmgr
    · have hcopyable : copyable (some path) = true := by simpa [copyable] using (hlen hA).mp rfl
      rw [RuleMgrOp.message, if_pos hcopyable] at haccepted
      apply (ask_returns _).bind
      intro real hreal
      subst hreal
      cases hpath : (some path).bind env.realpath with
      | none => exact returns_pure (hsame (some path))
      | some real =>
        dsimp only
        cases hfile : mgr.files real with
        | none => exact returns_pure (hsame (some path))
        | some content =>
          apply malloc_returns.bind
          intro b hb
          rw [hb hA]
          apply (ask_returns _).bind
          intro paras hparas
          subst hparas
          rw [hpath, Option.bind_some, hfile, Option.bind_some] at haccepted
          exact parseIntoStore_agrees hA (hsame (some path)) haccepted

theorem RuleMgrOp.run_agrees {op : RuleMgrOp} {mgr : RuleMgr} (hA : env.AllocsSucceed)
    (hmgr : MirrorAgrees mgr) (hclean : op.Clean env mgr) :
    Returns env (op.run mgr) MirrorAgrees := by
  have haccepted := hclean.accepted
  cases op with
  | parse payload =>
    apply (ask_returns _).bind
    intro paras hparas
    subst hparas
    exact ruleMgrParseJSON_agrees hA hmgr haccepted
  | parseJSON paras => exact ruleMgrParseJSON_agrees hA hmgr haccepted
  | delRule delList => exact ruleMgrDelRule_agrees hA hmgr (hclean.deletes delList rfl)
  | enableDeviceRuleStorage filePath => exact enableDeviceRuleStorage_agrees hA hmgr haccepted

/-- A clean call takes one state of the manager to another. -/
def CleanStep (env : Env) (mgr mgr' : RuleMgr) : Prop :=
  ∃ op : RuleMgrOp, op.Clean env mgr ∧ Outcome env (op.run mgr) mgr'

/-- **`RuleMgr_Init`** gives the manager without rules, when its three allocations succeed. -/
theorem ruleMgrInit_returns (files : Files) :
    Returns env (ruleMgrInit files) fun r =>
      (∀ mgr, r = some mgr → mgr = { files := files }) ∧ (env.AllocsSucceed → r.isSome) := by
  refine returns_allocated (by simp) ?_
  refine returns_allocated (by simp) ?_
  refine returns_allocated (by simp) ?_
  exact returns_pure ⟨fun mgr h => (Option.some.inj h).symm, fun _ => rfl⟩

/-- **The persisted mirror agrees with the live rules** in every state a run of clean calls reaches,
and every further clean call returns. -/
theorem ruleMgr_mirrorAgrees (hA : env.AllocsSucceed) {files : Files} {mgr₀ mgr : RuleMgr}
    (hinit : Outcome env (ruleMgrInit files) (some mgr₀))
    (hrun : Relation.ReflTransGen (CleanStep env) mgr₀ mgr) :
    (List.Forall₂ (fun info rule => entryId rule = info.ruleId ∧
        entryVersion rule = some info.ruleVersionInShadow) mgr.ruleInfosList
          mgr.ruleInfosListJSON ∧
      (mgr.ruleInfosListJSON.map entryId).Nodup) ∧
    ∀ op : RuleMgrOp, op.Clean env mgr → Returns env (op.run mgr) fun _ => True := by
  have hmgr : MirrorAgrees mgr := by
    -- the induction is on the run: the start agrees, and every clean call keeps it
    induction hrun with
    | refl =>
      rw [((ruleMgrInit_returns files).yields _ hinit).1 mgr₀ rfl]
      exact ⟨distinctIds_nil, List.Forall₂.nil⟩
    | tail _ hstep ih =>
      obtain ⟨op, hclean, hout⟩ := hstep
      exact (op.run_agrees hA ih hclean).yields _ hout
  refine ⟨⟨hmgr.agrees, hmgr.agrees.nodup hmgr.distinctIds⟩, fun op hclean => ?_⟩
  exact (op.run_agrees hA hmgr hclean).mono fun _ _ => trivial

theorem ruleMgr_mirrorAgrees_twoVersions :
    ∃ mgr, CleanStep Env.plentiful { files := fun _ => none } mgr ∧
      (mgr.ruleInfosListJSON.map entryId).Nodup := by
  have hinit :
      Outcome Env.plentiful (ruleMgrInit fun _ => none) (some { files := fun _ => none }) :=
    ⟨default, ⟨3, 0⟩, rfl⟩
  have hclean : (RuleMgrOp.parseJSON (some twoVersionsMessage)).Clean Env.plentiful
      { files := fun _ => none } := by
    refine ⟨?_, fun delList h => by cases h⟩
    show insertsAccepted _ _ (rulesInfos (some twoVersionsMessage)) = true
    decide +kernel
  have hrun := RuleMgrOp.run_agrees Env.plentiful_allocsSucceed
    ⟨distinctIds_nil, List.Forall₂.nil⟩ hclean
  obtain ⟨mgr, hout, -⟩ := hrun.exists_outcome
  have hstep : CleanStep Env.plentiful { files := fun _ => none } mgr := ⟨_, hclean, hout⟩
  exact ⟨mgr, hstep, (ruleMgr_mirrorAgrees Env.plentiful_allocsSucceed hinit
    (Relation.ReflTransGen.single hstep)).1.2⟩

/-- A rejected entry for a new rule is in the mirror but not in the store. -/
theorem rejectedEntry_stays_in_mirror :
    ¬∀ (env : Env) (files : Files) (mgr₀ mgr : RuleMgr), env.AllocsSucceed →
      Outcome env (ruleMgrInit files) (some mgr₀) →
        Relation.ReflTransGen (fun mgr mgr' => ∃ op : RuleMgrOp, Outcome env (op.run mgr) mgr')
          mgr₀ mgr →
            Agrees mgr.ruleInfosList mgr.ruleInfosListJSON := by
  intro hclaim
  have hrun : ((ruleMgrParseJSON (some badTimeRangeMessage) { files := fun _ => none })
      Env.plentiful default).map
        (fun r => (r.1.ruleInfosList.length, r.1.ruleInfosListJSON.length)) =
        some (0, 1) := by
    decide +kernel
  obtain ⟨⟨mgr, s'⟩, hmgr, hlengths⟩ := Option.map_eq_some_iff.mp hrun
  have hagrees := hclaim Env.plentiful (fun _ => none) _ mgr Env.plentiful_allocsSucceed
    ⟨default, ⟨3, 0⟩, rfl⟩ (Relation.ReflTransGen.single
      ⟨.parseJSON (some badTimeRangeMessage), default, s', hmgr⟩)
  -- lists that agree have the same length
  have hlength := hagrees.length_eq
  have hstore : mgr.ruleInfosList.length = 0 := (Prod.mk.inj hlengths).1
  have hmirror : mgr.ruleInfosListJSON.length = 1 := (Prod.mk.inj hlengths).2
  omega

/-! ### Saving and loading -/

/-- Entries with new ids that parse are appended to the store and to the mirror. -/
theorem forEach_fresh {rules : List CJson} {infos : List RuleInfo} {mirror : List CJson}
    (hA : env.AllocsSucceed) (hinfos : DistinctIds infos) (hagrees : Agrees infos mirror)
    (hrules : ∀ rule ∈ rules, Parses env rule) (hnodup : (rules.map entryId).Nodup)
    (hfresh : ∀ rule ∈ rules, ∀ info ∈ infos, info.ruleId ≠ entryId rule) :
    Returns env (forEach (parseDeviceRuleStep (some updateRuleJSONObj)) rules (infos, some mirror))
      fun r => ∃ parsed, AllParsedFrom rules parsed ∧
        stepValue r = (infos ++ parsed, some (mirror ++ rules)) := by
  induction rules generalizing infos mirror with
  | nil => exact returns_pure ⟨[], List.Forall₂.nil, by simp⟩
  | cons rule rules ih =>
    have hmirror := (hagrees.hasIds hinfos).of_mem_some
    obtain ⟨info₀, hinfo₀⟩ := (hrules rule (by simp)).exists_parsedFrom
    refine (parseDeviceRuleStep_returns hinfos hookKeeps_updateRuleJSONObj hmirror).bind
      fun r hr => ?_
    obtain ⟨hout, -⟩ := hr
    have hinfos' := hout.distinctIds hinfos
    cases hout with
    | unreadable h => exact absurd h hinfo₀.readable
    | stale hid _ hold hk _ => exact absurd (hk.trans hid.symm) (hfresh rule (by simp) _ hold)
    | rejected _ _ _ _ hacc =>
      have hyes := (hrules rule (by simp)).accepted hA
      rw [hacc hA] at hyes
      exact absurd hyes (by decide)
    | @inserted ruleId version info target hid hversion hnew htold hparsed hacc =>
      have htarget := htold.mirror hA (hagrees.hasIds hinfos) (hagrees.nodup hinfos) hid
        (hagrees.exists_id_iff _)
      subst htarget
      have hinsert := hagrees.insert (some ruleId) hparsed
      -- no rule and no entry has the id yet
      have hfree : ∀ x ∈ infos, x.ruleId ≠ some ruleId := by
        intro x hx
        rw [← hid]
        exact hfresh rule (by simp) x hx
      have hfree' : ∀ x ∈ mirror, entryId x ≠ some ruleId := by
        intro x hx hk
        obtain ⟨old, hold, hk'⟩ := (hagrees.exists_id_iff _).mpr ⟨x, hx, hk⟩
        exact hfree old hold hk'
      rw [without_eq_self hfree, without_eq_self hfree'] at hinsert ⊢
      rw [stepValue_yield, without_eq_self hfree] at hinfos'
      rw [List.map_cons, List.nodup_cons] at hnodup
      have hfresh' : ∀ rule' ∈ rules, ∀ x ∈ infos ++ [info], x.ruleId ≠ entryId rule' := by
        intro rule' hrule' x hx
        rcases List.mem_append.mp hx with hx | hx
        · exact hfresh rule' (by simp [hrule']) x hx
        · rw [List.mem_singleton.mp hx, hparsed.readFrom.ruleId]
          exact fun heq => hnodup.1 (List.mem_map.mpr ⟨rule', hrule', heq.symm⟩)
      refine (ih hinfos' hinsert (fun x hx => hrules x (by simp [hx])) hnodup.2 hfresh').mono ?_
      rintro r ⟨parsed, hall, hr⟩
      exact ⟨info :: parsed, List.Forall₂.cons hparsed hall, by simpa using hr⟩

/-- Save a mirror, start again and load the file. -/
def saveThenLoad (path : String) (mirror : List CJson) (files : Files) : Sdk (Option RuleMgr) := do
  let files ← ruleJSONObjSaveToFile (some path) mirror files
  let some mgr ← ruleMgrInit files
    | return none
  let mgr ← ruleMgrEnableDeviceRuleStorage (some path) mgr
  return some mgr

/-- Loading a file that holds the mirror into a fresh manager. -/
theorem enableDeviceRuleStorage_fresh {path content real : String} {mirror : List CJson}
    {files : Files} (hA : env.AllocsSucceed) (hlen : path.length + 1 < INT32_MAX)
    (hpath : env.realpath path = some real) (hfile : files real = some content)
    (hparse : env.parseJson content = some (ruleFileRoot mirror))
    (hnodup : (mirror.map entryId).Nodup) (hrules : ∀ rule ∈ mirror, Parses env rule) :
    Returns env (ruleMgrEnableDeviceRuleStorage (some path) { files := files }) fun mgr =>
      AllParsedFrom mirror mgr.ruleInfosList ∧ mgr.ruleInfosListJSON = mirror ∧
        mgr.ruleFilePath = some path ∧ mgr.files = files := by
  apply (cStrDuplicate_returns path).bind
  intro copy hcopy
  rw [(hcopy.2 hA).mpr hlen]
  apply (ask_returns _).bind
  intro real' hreal'
  obtain rfl : real' = some real := hreal'.trans hpath
  dsimp only
  rw [hfile]
  -- the buffer for the content of the file
  apply malloc_returns.bind
  intro b hb
  rw [hb hA]
  apply (ask_returns _).bind
  intro paras hparas
  obtain rfl : paras = some (ruleFileRoot mirror) := hparas.trans hparse
  have hentries : rulesInfos (some (ruleFileRoot mirror)) = mirror := by
    simp [rulesInfos, ruleFileRoot, getObjectItem, caseInsensitiveEq]
  have hloop : Returns env (forEach (parseDeviceRuleStep (some updateRuleJSONObj))
      (rulesInfos (some (ruleFileRoot mirror))) ([], some [])) fun r => ∃ parsed,
        AllParsedFrom mirror parsed ∧ stepValue r = ([] ++ parsed, some ([] ++ mirror)) := by
    rw [hentries]
    exact forEach_fresh hA distinctIds_nil List.Forall₂.nil hrules hnodup (by simp)
  have hmessage : Returns env (parseDeviceRuleWithHook (some updateRuleJSONObj)
      (some (ruleFileRoot mirror)) ([], some [])) fun state => ∃ parsed,
        AllParsedFrom mirror parsed ∧ state = (parsed, some mirror) := by
    refine hloop.bind fun r hr => returns_pure ?_
    obtain ⟨parsed, hall, heq⟩ := hr
    exact ⟨parsed, hall, by simpa using heq⟩
  apply hmessage.bind
  intro state hstate
  obtain ⟨parsed, hall, rfl⟩ := hstate
  exact returns_pure ⟨hall, rfl, rfl, rfl⟩

/-- **Save then restart restores the rules**: the file gives back the rules its entries parse to, in
order and with no daily timer executed, and the mirror; saving again writes the same file. -/
theorem saveThenLoad_restores {path content real : String} {mirror : List CJson} {files : Files}
    (hA : env.AllocsSucceed) (hlen : path.length + 1 < INT32_MAX)
    (hpath : env.realpath path = some real) (hwritable : env.writable real = true)
    (hprint : env.printJson (ruleFileRoot mirror) = some content)
    (hparse : env.parseJson content = some (ruleFileRoot mirror))
    (hnodup : (mirror.map entryId).Nodup) (hrules : ∀ rule ∈ mirror, Parses env rule) :
    Returns env (saveThenLoad path mirror files) fun r => ∃ mgr, r = some mgr ∧
      AllParsedFrom mirror mgr.ruleInfosList ∧
      (∀ info ∈ mgr.ruleInfosList, ∀ c ∈ info.conditions, c.Unexecuted) ∧
      mgr.ruleInfosListJSON = mirror ∧ mgr.files real = some content ∧
      Returns env (ruleJSONObjSaveToFile mgr.ruleFilePath mgr.ruleInfosListJSON mgr.files)
        fun files' => files' = mgr.files := by
  apply (ruleJSONObjSaveToFile_returns hA (some path) mirror files).bind
  intro files' hfiles'
  have hwritten : files' = Function.update files real (some content) :=
    hfiles' path content real rfl hprint hpath hwritable
  have hcontent : files' real = some content := by rw [hwritten, Function.update_self]
  apply (ruleMgrInit_returns files').bind
  intro r hr
  obtain ⟨mgr, rfl⟩ := Option.isSome_iff_exists.mp (hr.2 hA)
  obtain rfl := hr.1 mgr rfl
  -- the process starts again: nothing is left but the file
  refine (enableDeviceRuleStorage_fresh hA hlen hpath hcontent hparse hnodup hrules).bind
    fun mgr hmgr => returns_pure ?_
  obtain ⟨hall, hmirror, hfilePath, hfiles⟩ := hmgr
  refine ⟨mgr, rfl, hall, fun info hinfo => ?_, hmirror, hfiles ▸ hcontent, ?_⟩
  · obtain ⟨i, hi, rfl⟩ := List.getElem_of_mem hinfo
    have hlength := hall.length_eq
    exact (hall.get (hlength ▸ hi) hi).readFrom.unexecuted
  · -- saving again writes the content that is there
    rw [hfilePath, hmirror]
    apply (ruleJSONObjSaveToFile_returns hA (some path) mirror mgr.files).mono
    intro again hagain
    rw [hagain path content real rfl hprint hpath hwritable]
    refine Function.update_eq_self_iff.mpr ?_
    rw [hfiles, hcontent]

/-- The file of a mirror with one entry. -/
def oneRuleText : String :=
  "\x7b\n\t\"rulesInfos\":\t[\x7b\n\t\t\t\"ruleId\":\t\"a\",\n\t\t\t\"ruleName\":\t\"lamp\",\n" ++
    "\t\t\t\"status\":\t\"active\",\n\t\t\t\"logic\":\t\"and\",\n" ++
    "\t\t\t\"ruleVersionInShadow\":\t1,\n\t\t\t\"timeRange\":\tnull,\n" ++
    "\t\t\t\"conditions\":\t[],\n\t\t\t\"actions\":\t[]\n\t\t\x7d]\n\x7d"

/-- The text functions on that mirror and its file. -/
def oneRuleEnv : Env :=
  { Env.plentiful with
    printJson := fun _ => some oneRuleText
    parseJson := fun text =>
      if text = oneRuleText then some (ruleFileRoot [bareEntry "a" 1 .null]) else none
    realpath := fun path => some path
    writable := fun _ => true }

theorem saveThenLoad_restores_oneRule :
    Returns oneRuleEnv (saveThenLoad "/rules" [bareEntry "a" 1 .null] fun _ => some "") fun r =>
      ∃ mgr, r = some mgr ∧ mgr.ruleInfosListJSON = [bareEntry "a" 1 .null] ∧
        mgr.files "/rules" = some oneRuleText := by
  have hA : oneRuleEnv.AllocsSucceed := fun _ => rfl
  have haccepted : ∀ rule ∈ [bareEntry "a" 1 .null], ruleAccepted rule = true := by
    decide +kernel
  have hlen : "/rules".length + 1 < INT32_MAX := by decide
  have hpath : oneRuleEnv.realpath "/rules" = some "/rules" := rfl
  have hwritable : oneRuleEnv.writable "/rules" = true := rfl
  have hprint :
      oneRuleEnv.printJson (ruleFileRoot [bareEntry "a" 1 .null]) = some oneRuleText := rfl
  have hparse : oneRuleEnv.parseJson oneRuleText = some (ruleFileRoot [bareEntry "a" 1 .null]) := by
    unfold oneRuleEnv
    dsimp only
    rw [if_pos (Eq.refl oneRuleText)]
  refine (saveThenLoad_restores hA hlen hpath hwritable hprint hparse (by simp)
    fun rule hrule => parses_of_accepted hA (haccepted rule hrule)).mono fun r hr => ?_
  obtain ⟨mgr, heq, -, -, hmirror, hfile, -⟩ := hr
  exact ⟨mgr, heq, hmirror, hfile⟩

end IotDeviceSdk.DeviceRule
