import IotDeviceSdk.DeviceRule.Equiv.MirrorItems
import IotDeviceSdk.DeviceRule.Equiv.RuleStore

/-!
# Runs of the rule manager with a mirror of items

`runMirror_simulates`: whatever messages and deletions arrive, the manager with a mirror of linked
items does what it does with a list of entries.  With a list it is the manager of `RuleManager`
(`parseIntoStore_eq`, `ruleMgrDelRule_eq`).
-/

namespace IotDeviceSdk.DeviceRule

open CJson Json Json.Nodes Prog

/-- The hooks do the same, to mirrors that `R` relates. -/
structure HooksSimulate {τ τ' : Type} (env : Env) (R : τ → τ' → Prop) (hook : ParseDeviceRuleHook τ)
    (hook' : ParseDeviceRuleHook τ') : Prop where
  call : ∀ target target' removeOrAdd rule, R target target' →
    Simulates env R (hook target removeOrAdd rule) (hook' target' removeOrAdd rule)

section Hooks

variable {τ τ' : Type} {env : Env} {R : τ → τ' → Prop} {hook : ParseDeviceRuleHook τ}
  {hook' : ParseDeviceRuleHook τ'}

/-- The same stores with related mirrors. -/
def RelatedStores (R : τ → τ' → Prop) (state : List RuleInfo × Option τ)
    (state' : List RuleInfo × Option τ') : Prop :=
  state.1 = state'.1 ∧ Option.Rel R state.2 state'.2

theorem HooksSimulate.callHook (h : HooksSimulate env R hook hook') {target : Option τ}
    {target' : Option τ'} (htarget : Option.Rel R target target') (isRemove : Bool) (rule : CJson) :
    Simulates env (Option.Rel R) (callHook (some hook) target isRemove rule)
      (callHook (some hook') target' isRemove rule) := by
  cases htarget with
  | none => exact .pure .none
  | some hr =>
    exact (h.call _ _ isRemove rule hr).bind fun _ _ hr' => .pure (.some hr')

theorem HooksSimulate.insertRule (h : HooksSimulate env R hook hook') (rule : CJson)
    {state : List RuleInfo × Option τ} {state' : List RuleInfo × Option τ'}
    (hstate : RelatedStores R state state') :
    Simulates env (Simulates.OnStep (RelatedStores R)) (insertRule (some hook) rule state)
      (insertRule (some hook') rule state') := by
  obtain ⟨store, target⟩ := state
  obtain ⟨store', target'⟩ := state'
  obtain ⟨rfl, htarget⟩ := hstate
  unfold DeviceRule.insertRule
  refine (h.callHook htarget false rule).bind fun target target' htarget => ?_
  refine .bind_same fun pushed => ?_
  cases pushed with
  | none => exact .pure ⟨rfl, htarget⟩
  | some pushed =>
    obtain ⟨ruleInfos, toBeOperatedInfo⟩ := pushed
    refine .bind_same fun parsed => ?_
    obtain ⟨info, result⟩ := parsed
    dsimp only
    split_ifs
    · exact .bind_same fun popped => .pure ⟨rfl, htarget⟩
    · exact .pure ⟨rfl, htarget⟩

theorem HooksSimulate.parseDeviceRuleStep (h : HooksSimulate env R hook hook') (rule : CJson)
    {state : List RuleInfo × Option τ} {state' : List RuleInfo × Option τ'}
    (hstate : RelatedStores R state state') :
    Simulates env (Simulates.OnStep (RelatedStores R)) (parseDeviceRuleStep (some hook) rule state)
      (parseDeviceRuleStep (some hook') rule state') := by
  obtain ⟨store, target⟩ := state
  obtain ⟨store', target'⟩ := state'
  have hstate' := hstate
  obtain ⟨rfl, htarget⟩ := hstate'
  unfold DeviceRule.parseDeviceRuleStep
  cases getString rule "ruleId" with
  | none => exact .pure hstate
  | some ruleId =>
    dsimp only
    cases getIntValueFromJson (getObjectItem rule "ruleVersionInShadow") with
    | none => exact .pure hstate
    | some version =>
      refine .bind_same fun found => ?_
      cases found with
      | none => exact h.insertRule rule hstate
      | some found =>
        obtain ⟨i, toBeOperatedInfo⟩ := found
        dsimp only
        split_ifs
        · refine (h.callHook htarget true rule).bind fun target target' htarget => ?_
          exact h.insertRule rule ⟨rfl, htarget⟩
        · exact .pure hstate

theorem HooksSimulate.parseDeviceRuleWithHook (h : HooksSimulate env R hook hook')
    (paras : Option CJson) {state : List RuleInfo × Option τ} {state' : List RuleInfo × Option τ'}
    (hstate : RelatedStores R state state') :
    Simulates env (RelatedStores R) (parseDeviceRuleWithHook (some hook) paras state)
      (parseDeviceRuleWithHook (some hook') paras state') := by
  unfold DeviceRule.parseDeviceRuleWithHook
  have hloop := Simulates.forEach (rulesInfos paras) hstate
    fun rule state state' hstate => h.parseDeviceRuleStep rule hstate
  exact hloop.bind fun step step' hstep => .pure (Simulates.onStep_stepValue hstep)

end Hooks

/-! ### Operations and runs -/

section Runs

variable {τ τ' : Type} {env : Env} {R : τ → τ' → Prop} {hook : ParseDeviceRuleHook τ}
  {hook' : ParseDeviceRuleHook τ'} {delById : τ → Option String → Sdk τ}
  {delById' : τ' → Option String → Sdk τ'}

/-- The same stores with related mirrors. -/
def SameRules (R : τ → τ' → Prop) (state : List RuleInfo × τ) (state' : List RuleInfo × τ') :
    Prop :=
  state.1 = state'.1 ∧ R state.2 state'.2

theorem MirrorOp.run_simulates (op : MirrorOp) (h : HooksSimulate env R hook hook')
    (hdel : ∀ target target' ruleId, R target target' →
      Simulates env R (delById target ruleId) (delById' target' ruleId))
    {state : List RuleInfo × τ} {state' : List RuleInfo × τ'} (hstate : SameRules R state state') :
    Simulates env (SameRules R) (op.run hook delById state) (op.run hook' delById' state') := by
  obtain ⟨store, target⟩ := state
  obtain ⟨store', target'⟩ := state'
  obtain ⟨rfl, htarget⟩ := hstate
  cases op with
  | parse paras =>
    have hparse := @h.parseDeviceRuleWithHook _ _ _ _ _ _ paras (store, some target)
      (store, some target') ⟨rfl, .some htarget⟩
    refine hparse.bind ?_
    rintro ⟨store₁, target₁⟩ ⟨store₁', target₁'⟩ ⟨rfl, htarget₁⟩
    cases htarget₁ with
    | none => exact .pure ⟨rfl, htarget⟩
    | some hr => exact .pure ⟨rfl, hr⟩
  | delRule delList =>
    have hloop := Simulates.foldlM delList htarget
      fun listItem target target' htarget => hdel target target' listItem.ruleId htarget
    refine hloop.bind fun target₁ target₁' htarget₁ => ?_
    exact .bind_same fun store₁ => .pure ⟨rfl, htarget₁⟩

theorem runMirror_simulates_of_hooks (h : HooksSimulate env R hook hook')
    (hdel : ∀ target target' ruleId, R target target' →
      Simulates env R (delById target ruleId) (delById' target' ruleId))
    (ops : List MirrorOp) {state : List RuleInfo × τ} {state' : List RuleInfo × τ'}
    (hstate : SameRules R state state') :
    Simulates env (SameRules R) (runMirror hook delById ops state)
      (runMirror hook' delById' ops state') :=
  Simulates.foldlM ops hstate fun op _ _ hstate => op.run_simulates h hdel hstate

end Runs

/-! ### The mirror of items -/

/-- The items hold the mirror `g` with these entries, and no item has an address that has not been
used. -/
structure MirrorLists (g : ℕ) (m : MirrorItems) (t : Lists) (rules : List CJson) : Prop where
  represents : Represents m.nodes t
  entries : (t.below g).map m.entry = rules
  used : ∀ parent, ∀ a ∈ t.below parent, a < m.used
  mirror : g < m.used

/-- The mirror `g` has these entries. -/
def Mirrors (g : ℕ) (m : MirrorItems) (rules : List CJson) : Prop :=
  ∃ t, MirrorLists g m t rules

section Mirror

variable {env : Env} {g : ℕ} {m : MirrorItems} {rules : List CJson} {t : Lists}

/-- Distinct items with used addresses are no more than there are such addresses. -/
theorem MirrorLists.length_le (h : MirrorLists g m t rules) : (t.below g).length ≤ m.used := by
  have hsub : t.below g ⊆ List.range m.used :=
    fun a ha => List.mem_range.mpr (h.used g a ha)
  have hle := (List.subperm_of_subset (h.represents.children g).linked.nodup hsub).length_le
  rwa [List.length_range] at hle

theorem delById_simulates (h : Mirrors g m rules) (ruleId : Option String) :
    Simulates env (Mirrors g) (m.delById g ruleId) (ruleJSONObjDelById rules ruleId) := by
  obtain ⟨t, h⟩ := h
  obtain rfl := h.entries
  have hdel := @delItemById_holdsRest m.nodes t g env m.entry ruleId m.used h.represents h.length_le
  unfold MirrorItems.delById
  rw [← bind_pure (ruleJSONObjDelById ((t.below g).map m.entry) ruleId)]
  refine hdel.bind fun s' rules' hrest => .pure ?_
  obtain ⟨t', h', hmap, hsub, hother⟩ := hrest
  refine ⟨t', h', hmap, fun parent a ha => ?_, h.mirror⟩
  by_cases hparent : parent = g
  · subst hparent
    exact h.used parent a (hsub.subset ha)
  · exact h.used parent a (hother parent hparent ▸ ha)

/-- A copy is put behind the other entries. -/
theorem mirrors_addCopy (h : Mirrors g m rules) (copy : CJson) :
    Mirrors g (m.addCopy g (some copy)) (rules ++ [copy]) := by
  obtain ⟨t, h⟩ := h
  have hfree : t.IsFree m.used := fun parent ha => lt_irrefl _ (h.used parent m.used ha)
  obtain ⟨s', hadd, h'⟩ := h.represents.add g hfree
  have hne : g ≠ m.used := h.mirror.ne
  have hbelow : (t.add g m.used).2.below = Function.update t.below g (t.below g ++ [m.used]) := by
    rw [Lists.add, if_neg hne]
    rfl
  refine ⟨(t.add g m.used).2, ?_, ?_, ?_, Nat.lt_succ_of_lt h.mirror⟩
  · show Represents (addItemToArray (some g) (some m.used) m.nodes).2 _
    rw [hadd]
    exact h'
  · have hkeep : (t.below g).map (Function.update m.entry m.used copy) = (t.below g).map m.entry :=
      List.map_congr_left fun a ha => Function.update_of_ne (h.used g a ha).ne ..
    show ((t.add g m.used).2.below g).map (Function.update m.entry m.used copy) = rules ++ [copy]
    rw [hbelow, Function.update_self, List.map_append, hkeep, h.entries, List.map_singleton,
      Function.update_self]
  · intro parent a ha
    rw [hbelow] at ha
    by_cases hparent : parent = g
    · rw [hparent, Function.update_self] at ha
      rcases List.mem_append.mp ha with ha | ha
      · exact Nat.lt_succ_of_lt (h.used g a ha)
      · rw [List.mem_singleton.mp ha]
        exact Nat.lt_succ_self m.used
    · rw [Function.update_of_ne hparent] at ha
      exact Nat.lt_succ_of_lt (h.used parent a ha)

theorem update_simulates :
    HooksSimulate env (Mirrors g) (MirrorItems.update g) updateRuleJSONObj := by
  refine ⟨fun m rules removeOrAdd rule h => ?_⟩
  unfold MirrorItems.update updateRuleJSONObj
  cases removeOrAdd with
  | true =>
    rw [if_pos rfl, if_pos rfl]
    exact delById_simulates h (getString rule "ruleId")
  | false =>
    rw [if_neg Bool.false_ne_true, if_neg Bool.false_ne_true]
    refine .bind_same fun copy => ?_
    cases copy with
    | none => exact .pure h
    | some copy => exact .pure (mirrors_addCopy h copy)

/-- **Runs of the manager**: whatever messages and deletions arrive, a mirror of linked items does
what a list of entries does, with the same rules in the store. -/
theorem runMirror_simulates (h : Mirrors g m rules) (ops : List MirrorOp)
    (ruleInfosList : List RuleInfo) :
    Simulates env (SameRules (Mirrors g))
      (runMirror (MirrorItems.update g) (MirrorItems.delById g) ops (ruleInfosList, m))
      (runMirror updateRuleJSONObj ruleJSONObjDelById ops (ruleInfosList, rules)) :=
  runMirror_simulates_of_hooks update_simulates (fun _ _ ruleId h => delById_simulates h ruleId) ops
    ⟨rfl, h⟩

end Mirror

/-- No entries yet, below the item 0. -/
def noEntries : MirrorItems := ⟨Nodes.empty, fun _ => .null, 1⟩

theorem mirrors_noEntries : Mirrors 0 noEntries [] :=
  ⟨Lists.empty, represents_empty, rfl, fun _ _ ha => absurd ha List.not_mem_nil, Nat.one_pos⟩

/-- A rule arrives, and is deleted again. -/
theorem runMirror_simulates_bareEntry :
    ∃ state cursor, runMirror (MirrorItems.update 0) (MirrorItems.delById 0)
        [.parse (some (ruleFileRoot [bareEntry "a" 1 .null])), .delRule [{ ruleId := some "a" }]]
        ([], noEntries) Env.plentiful ⟨0, 0⟩ = some (state, cursor) ∧ Mirrors 0 state.2 [] := by
  have hsimulates := @runMirror_simulates Env.plentiful 0 noEntries [] mirrors_noEntries
    [.parse (some (ruleFileRoot [bareEntry "a" 1 .null])), .delRule [{ ruleId := some "a" }]] []
    ⟨0, 0⟩
  have hrun : (runMirror updateRuleJSONObj ruleJSONObjDelById
      [.parse (some (ruleFileRoot [bareEntry "a" 1 .null])), .delRule [{ ruleId := some "a" }]]
      ([], []) Env.plentiful ⟨0, 0⟩).map (fun r => r.1.2.length) = some 0 := by decide +kernel
  obtain ⟨⟨state', cursor⟩, hstate', hlength⟩ := Option.map_eq_some_iff.mp hrun
  obtain ⟨state, hstate, -, hmirror⟩ := hsimulates.2 state' cursor hstate'
  rw [List.eq_nil_of_length_eq_zero hlength] at hmirror
  exact ⟨state, cursor, hstate, hmirror⟩

/-! ### The manager of `RuleManager` -/

theorem parseIntoStore_eq (paras : Option CJson) (mgr : RuleMgr) :
    parseIntoStore paras mgr = MirrorOp.run updateRuleJSONObj ruleJSONObjDelById
      (mgr.ruleInfosList, mgr.ruleInfosListJSON) (.parse paras) >>= fun state =>
        pure { mgr with ruleInfosList := state.1, ruleInfosListJSON := state.2 } := by
  unfold parseIntoStore MirrorOp.run
  rw [bind_assoc]
  rfl

theorem ruleMgrDelRule_eq (delList : List RuleInfo) (mgr : RuleMgr) :
    ruleMgrDelRule delList mgr = atomicStringCopy mgr.ruleFilePath >>= fun filePath =>
      MirrorOp.run updateRuleJSONObj ruleJSONObjDelById
        (mgr.ruleInfosList, mgr.ruleInfosListJSON) (.delRule delList) >>= fun state =>
          saveMirror filePath
            { mgr with ruleInfosList := state.1, ruleInfosListJSON := state.2 } := by
  unfold ruleMgrDelRule MirrorOp.run
  simp only [bind_assoc]
  rfl

end IotDeviceSdk.DeviceRule
