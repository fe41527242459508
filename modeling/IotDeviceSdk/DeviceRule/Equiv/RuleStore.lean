import IotDeviceSdk.DeviceRule.Equiv.RuleParser
import IotDeviceSdk.VersionedStore.Basic

/-!
# The rule store under `ParseDeviceRuleWithHook` and `DeletRulesFromList`

One entry of a message does one of four things to the store (`EntryOutcome`,
`parseDeviceRuleStep_returns`): it is unreadable and ends the message, it is stale and is skipped,
it is inserted at the end in place of the stored rule of its id, or it is rejected, which ends the
message after the stored rule of its id was removed.  Everything the module proves about runs is a
case analysis on these four.

* `parseDeviceRuleStep_returns`: what one entry does.
* `parseDeviceRuleWithHook_returns`: what every entry keeps, a message keeps.
* `storeRun_inv`: the invariant of the store over runs of messages and deletions.
-/

namespace IotDeviceSdk.DeviceRule

open CJson Prog VersionedStore

variable {env : Env} {τ : Type}

/-- The rules of the store have ids, pairwise distinct ones. -/
structure DistinctIds (infos : List RuleInfo) : Prop where
  isSome : ∀ info ∈ infos, info.ruleId.isSome
  nodup : (infos.map RuleInfo.ruleId).Nodup

theorem distinctIds_nil : DistinctIds [] := ⟨by simp, by simp⟩

theorem DistinctIds.without {infos : List RuleInfo} (h : DistinctIds infos)
    (ruleId : Option String) : DistinctIds (without RuleInfo.ruleId infos ruleId) :=
  ⟨fun info hinfo => h.isSome info (mem_without.mp hinfo).1, nodup_without h.nodup⟩

theorem DistinctIds.append_singleton {infos : List RuleInfo} {info : RuleInfo}
    (h : DistinctIds infos) (hid : info.ruleId.isSome)
    (hnew : ∀ x ∈ infos, x.ruleId ≠ info.ruleId) : DistinctIds (infos ++ [info]) := by
  refine ⟨fun x hx => ?_, nodup_append_singleton h.nodup hnew⟩
  rcases List.mem_append.mp hx with hx | hx
  · exact h.isSome x hx
  · obtain rfl : x = info := by simpa using hx
    exact hid

/-! ### The functions a step uses -/

theorem ruleListCheckExistence_go_returns {list : List RuleInfo} (ruleId : String) (i : ℕ)
    (h : ∀ info ∈ list, info.ruleId.isSome) :
    Returns env (ruleListCheckExistence.go ruleId list i) fun found =>
      (found = none ∧ ∀ info ∈ list, info.ruleId ≠ some ruleId) ∨
        ∃ j info, found = some (i + j, info) ∧ list[j]? = some info ∧
          info.ruleId = some ruleId := by
  induction list generalizing i with
  | nil => exact returns_pure (Or.inl ⟨rfl, by simp⟩)
  | cons x list ih =>
    obtain ⟨s, hs⟩ := Option.isSome_iff_exists.mp (h x (by simp))
    have hcmp : strcmpEq x.ruleId (some ruleId) = pure (s == ruleId) := by rw [hs]; rfl
    rw [ruleListCheckExistence.go, hcmp, pure_bind]
    by_cases heq : s = ruleId
    · rw [if_pos (by simpa using heq)]
      exact returns_pure (Or.inr ⟨0, x, rfl, rfl, by rw [hs, heq]⟩)
    · rw [if_neg (by simpa using heq)]
      apply (ih (i + 1) fun info hinfo => h info (by simp [hinfo])).mono
      intro found hfound
      -- the position found in the rest is one further in the list
      rcases hfound with ⟨rfl, hnone⟩ | ⟨j, info, rfl, hj, hid⟩
      · refine Or.inl ⟨rfl, fun info hinfo => ?_⟩
        rcases List.mem_cons.mp hinfo with rfl | hinfo
        · rw [hs]
          simpa using heq
        · exact hnone info hinfo
      · refine Or.inr ⟨j + 1, info, ?_, by simpa using hj, hid⟩
        rw [show i + 1 + j = i + (j + 1) by omega]

/-- **`RuleListCheckExistence`** finds a rule with the id or there is none. -/
theorem ruleListCheckExistence_returns {list : List RuleInfo} (ruleId : String)
    (h : ∀ info ∈ list, info.ruleId.isSome) :
    Returns env (ruleListCheckExistence list ruleId) fun found =>
      (found = none ∧ ∀ info ∈ list, info.ruleId ≠ some ruleId) ∨
        ∃ i info, found = some (i, info) ∧ list[i]? = some info ∧ info.ruleId = some ruleId := by
  apply (ruleListCheckExistence_go_returns ruleId 0 h).mono
  intro found hfound
  simpa only [Nat.zero_add] using hfound

/-- Pushing an empty rule asks for memory three times. -/
theorem ruleInfoListPush_returns {infos : List RuleInfo} :
    Returns env (ruleInfoListPush infos) fun r =>
      (r = none ∨ r = some (infos ++ [({} : RuleInfo)], {})) ∧
        (env.AllocsSucceed → r = some (infos ++ [({} : RuleInfo)], {})) := by
  -- twice for the lists of the rule
  have hctor : Returns env ruleInfoCtor fun r =>
      (r = none ∨ r = some {}) ∧ (env.AllocsSucceed → r = some {}) := by
    refine returns_allocated (Or.inl rfl) (returns_allocated (Or.inl rfl) ?_)
    exact returns_pure ⟨Or.inr rfl, fun _ => rfl⟩
  refine returns_allocated (Or.inl rfl) ?_
  apply hctor.bind
  intro r hr
  obtain ⟨rfl | rfl, halloc⟩ := hr
  · exact returns_pure ⟨Or.inl rfl, fun h => absurd (halloc h) (by simp)⟩
  · exact returns_pure ⟨Or.inr rfl, fun _ => rfl⟩

/-- The hook returns on every entry with an id, and keeps `I` on its target. -/
def HookKeeps (env : Env) (hook : Option (ParseDeviceRuleHook τ)) (I : τ → Prop) : Prop :=
  ∀ h ∈ hook, ∀ target, I target → ∀ isRemove rule, (getString (some rule) "ruleId").isSome →
    Returns env (h target isRemove rule) I

theorem hookKeeps_none {I : τ → Prop} : HookKeeps env none I := by
  intro h hh
  simp at hh

theorem callHook_returns {hook : Option (ParseDeviceRuleHook τ)} {I : τ → Prop}
    {target : Option τ} {rule : CJson} (hhook : HookKeeps env hook I) (isRemove : Bool)
    (ht : ∀ t ∈ target, I t) (hid : (getString (some rule) "ruleId").isSome) :
    Returns env (callHook hook target isRemove rule) fun target' => ∀ t ∈ target', I t := by
  cases target with
  | none => exact returns_pure (by simp)
  | some t =>
    cases hook with
    | none => exact returns_pure ht
    | some h =>
      refine (hhook h rfl t (ht t rfl) isRemove rule hid).bind fun t' ht' => returns_pure ?_
      intro t₁ ht₁
      obtain rfl : t' = t₁ := by simpa using ht₁
      exact ht'

/-! ### One entry -/

/-- The id of an entry. -/
abbrev entryId (rule : CJson) : Option String := getString (some rule) "ruleId"

/-- The version of an entry. -/
def entryVersion (rule : CJson) : Option ℤ :=
  getIntValueFromJson (getObjectItem (some rule) "ruleVersionInShadow")

theorem RuleInfo.ParsedFrom.version_eq {info : RuleInfo} {rule : CJson} {version : ℤ}
    (h : info.ParsedFrom rule) (hversion : entryVersion rule = some version) :
    info.ruleVersionInShadow = version :=
  Option.some.inj (h.readFrom.version.symm.trans hversion)

/-- What the hook is told about an entry that is inserted: first the removal when the entry replaces
a stored rule, then the addition. -/
def HookTold (env : Env) (hook : Option (ParseDeviceRuleHook τ)) (rule : CJson) (replaced : Prop)
    (target target' : Option τ) : Prop :=
  ∃ t, (replaced ∧ Outcome env (callHook hook target true rule) t ∨ ¬replaced ∧ t = target) ∧
    Outcome env (callHook hook t false rule) target'

/-- **What one entry does** to the store `infos` and the hook's target. -/
inductive EntryOutcome (env : Env) (hook : Option (ParseDeviceRuleHook τ)) (rule : CJson)
    (infos : List RuleInfo) (target : Option τ) : ForInStep (List RuleInfo × Option τ) → Prop
  | unreadable (h : getString (some rule) "ruleId" = none ∨ entryVersion rule = none) :
    EntryOutcome env hook rule infos target (.done (infos, target))
  | stale {ruleId : String} {version : ℤ} {old : RuleInfo}
    (hid : getString (some rule) "ruleId" = some ruleId)
    (hversion : entryVersion rule = some version) (hold : old ∈ infos)
    (hk : old.ruleId = some ruleId) (hle : version ≤ old.ruleVersionInShadow) :
    EntryOutcome env hook rule infos target (.yield (infos, target))
  | inserted {ruleId : String} {version : ℤ} {info : RuleInfo} {target' : Option τ}
    (hid : getString (some rule) "ruleId" = some ruleId)
    (hversion : entryVersion rule = some version)
    (hnew : ∀ old ∈ infos, old.ruleId = some ruleId → old.ruleVersionInShadow < version)
    (htold : HookTold env hook rule (∃ old ∈ infos, old.ruleId = some ruleId) target target')
    (hinfo : info.ParsedFrom rule) (hacc : env.AllocsSucceed → ruleAccepted rule = true) :
    EntryOutcome env hook rule infos target
      (.yield (without RuleInfo.ruleId infos (some ruleId) ++ [info], target'))
  | rejected {ruleId : String} {version : ℤ} {target' : Option τ}
    (hid : getString (some rule) "ruleId" = some ruleId)
    (hversion : entryVersion rule = some version)
    (hnew : ∀ old ∈ infos, old.ruleId = some ruleId → old.ruleVersionInShadow < version)
    (htold : HookTold env hook rule (∃ old ∈ infos, old.ruleId = some ruleId) target target')
    (hacc : env.AllocsSucceed → ruleAccepted rule = false) :
    EntryOutcome env hook rule infos target
      (.done (without RuleInfo.ruleId infos (some ruleId), target'))

theorem insertRule_returns {hook : Option (ParseDeviceRuleHook τ)} {I : τ → Prop} {rule : CJson}
    {infos : List RuleInfo} {target : Option τ} (hhook : HookKeeps env hook I)
    (ht : ∀ t ∈ target, I t) (hid : (getString (some rule) "ruleId").isSome) :
    Returns env (insertRule hook rule (infos, target)) fun r =>
      ∃ target', Outcome env (callHook hook target false rule) target' ∧ (∀ t ∈ target', I t) ∧
        ((∃ info : RuleInfo, r = .yield (infos ++ [info], target') ∧ info.ParsedFrom rule ∧
            (env.AllocsSucceed → ruleAccepted rule = true)) ∨
          (r = .done (infos, target') ∧ (env.AllocsSucceed → ruleAccepted rule = false))) := by
  unfold insertRule
  apply (callHook_returns hhook false ht hid).outcome.bind
  intro target' htarget'
  apply ruleInfoListPush_returns.bind
  intro r hr
  obtain ⟨rfl | rfl, halloc⟩ := hr
  · exact returns_pure ⟨target', htarget'.2, htarget'.1, Or.inr ⟨rfl, fun h => absurd (halloc h)
      (by simp)⟩⟩
  · apply (parseSingleRule_returns rule).outcome.bind
    intro result hres
    obtain ⟨info, result⟩ := result
    obtain ⟨hans, hout⟩ := hres
    dsimp only
    rw [dynamicArrayWriteLast_append]
    by_cases herr : result = ERRVAL
    · -- the pushed rule is taken back
      rw [if_pos herr, dynamicArrayPop_append]
      refine returns_pure ⟨target', htarget'.2, htarget'.1, Or.inr ⟨rfl, fun h => ?_⟩⟩
      have hacc := mt (hans.2 h).mpr (hans.ne_zero_iff.mpr herr)
      simpa using hacc
    · rw [if_neg herr]
      obtain rfl : result = 0 := by
        by_contra hne
        exact herr (hans.ne_zero_iff.mp hne)
      exact returns_pure ⟨target', htarget'.2, htarget'.1, Or.inl ⟨info, rfl, ⟨env, hout⟩,
        fun h => (hans.2 h).mp rfl⟩⟩

/-- **One round of `ParseDeviceRuleWithHook`.** -/
theorem parseDeviceRuleStep_returns {hook : Option (ParseDeviceRuleHook τ)} {I : τ → Prop}
    {rule : CJson} {infos : List RuleInfo} {target : Option τ} (hinfos : DistinctIds infos)
    (hhook : HookKeeps env hook I) (ht : ∀ t ∈ target, I t) :
    Returns env (parseDeviceRuleStep hook rule (infos, target)) fun r =>
      EntryOutcome env hook rule infos target r ∧ ∀ t ∈ (stepValue r).2, I t := by
  unfold parseDeviceRuleStep
  cases hid : getString (some rule) "ruleId" with
  | none => exact returns_pure ⟨.unreadable (Or.inl hid), ht⟩
  | some ruleId =>
    have hidSome : (getString (some rule) "ruleId").isSome := by rw [hid]; rfl
    dsimp only
    cases hversion : getIntValueFromJson (getObjectItem (some rule) "ruleVersionInShadow") with
    | none => exact returns_pure ⟨.unreadable (Or.inr hversion), ht⟩
    | some version =>
      dsimp only
      apply (ruleListCheckExistence_returns ruleId hinfos.isSome).bind
      intro found hfound
      rcases hfound with ⟨rfl, hnone⟩ | ⟨i, old, rfl, hi, hk⟩
      · -- no rule has the id: the hook is told of the addition only
        refine (insertRule_returns hhook ht hidSome).mono ?_
        have hnew : ∀ old ∈ infos, old.ruleId = some ruleId → old.ruleVersionInShadow < version :=
          fun old hold hk => absurd hk (hnone old hold)
        have hself := without_eq_self hnone
        rintro r ⟨target', hcall, ht', ⟨info, rfl, hinfo, hacc⟩ | ⟨rfl, hacc⟩⟩
        all_goals
          have htold : HookTold env hook rule (∃ old ∈ infos, old.ruleId = some ruleId) target
              target' := by
            refine ⟨target, Or.inr ⟨?_, rfl⟩, hcall⟩
            rintro ⟨old, hold, hk⟩
            exact hnone old hold hk
        · have hout := EntryOutcome.inserted hid hversion hnew htold hinfo hacc
          rw [hself] at hout
          exact ⟨hout, ht'⟩
        · have hout := EntryOutcome.rejected hid hversion hnew htold hacc
          rw [hself] at hout
          exact ⟨hout, ht'⟩
      · have hold : old ∈ infos := List.mem_of_getElem? hi
        dsimp only
        by_cases hlt : version > old.ruleVersionInShadow
        · -- the rule with the id is older: it is removed first
          rw [if_pos hlt, dynamicArrayRemoveItem, eraseIdx_eq_without hinfos.nodup hi, hk]
          apply (callHook_returns hhook true ht hidSome).outcome.bind
          intro t htt
          refine (insertRule_returns hhook htt.1 hidSome).mono ?_
          have hnew : ∀ x ∈ infos, x.ruleId = some ruleId → x.ruleVersionInShadow < version := by
            intro x hx hxk
            rw [List.inj_on_of_nodup_map hinfos.nodup hx hold (hxk.trans hk.symm)]
            exact hlt
          rintro r ⟨target', hcall, ht', ⟨info, rfl, hinfo, hacc⟩ | ⟨rfl, hacc⟩⟩
          all_goals
            have htold : HookTold env hook rule (∃ old ∈ infos, old.ruleId = some ruleId) target
                target' := ⟨t, Or.inl ⟨⟨old, hold, hk⟩, htt.2⟩, hcall⟩
          · exact ⟨.inserted hid hversion hnew htold hinfo hacc, ht'⟩
          · exact ⟨.rejected hid hversion hnew htold hacc, ht'⟩
        · rw [if_neg hlt]
          exact returns_pure ⟨.stale hid hversion hold hk (not_lt.mp hlt), ht⟩

/-! ### One message -/

theorem EntryOutcome.distinctIds {hook : Option (ParseDeviceRuleHook τ)} {rule : CJson}
    {infos : List RuleInfo} {target : Option τ} {r : ForInStep (List RuleInfo × Option τ)}
    (h : EntryOutcome env hook rule infos target r) (hinfos : DistinctIds infos) :
    DistinctIds (stepValue r).1 := by
  cases h with
  | unreadable _ => exact hinfos
  | stale _ _ _ _ _ => exact hinfos
  | rejected _ _ _ _ _ => exact hinfos.without _
  | @inserted ruleId version info target' hid _ _ _ hinfo _ =>
    have hinfoId : info.ruleId = some ruleId := hinfo.readFrom.ruleId.trans hid
    refine (hinfos.without _).append_singleton ?_ fun x hx => ?_
    · rw [hinfoId]
      rfl
    · rw [hinfoId]
      exact (mem_without.mp hx).2

/-- **Invariant rule for messages**: what every entry keeps, the message keeps. -/
theorem parseDeviceRuleWithHook_returns {hook : Option (ParseDeviceRuleHook τ)} {I : τ → Prop}
    {J : List RuleInfo × Option τ → Prop} {paras : Option CJson} {infos : List RuleInfo}
    {target : Option τ} (hinfos : DistinctIds infos) (hhook : HookKeeps env hook I)
    (ht : ∀ t ∈ target, I t) (hJ : J (infos, target))
    (hstep : ∀ rule ∈ rulesInfos paras, ∀ infos target r, DistinctIds infos → J (infos, target) →
      EntryOutcome env hook rule infos target r → J (stepValue r)) :
    Returns env (parseDeviceRuleWithHook hook paras (infos, target)) fun state =>
      DistinctIds state.1 ∧ (∀ t ∈ state.2, I t) ∧ J state := by
  let Inv : List RuleInfo × Option τ → Prop :=
    fun state => DistinctIds state.1 ∧ (∀ t ∈ state.2, I t) ∧ J state
  have hloop : Returns env (forEach (parseDeviceRuleStep hook) (rulesInfos paras) (infos, target))
      (OnStep Inv Inv) := by
    refine Returns.forEach ⟨hinfos, ht, hJ⟩ fun rule hrule state hstate => ?_
    obtain ⟨infos, target⟩ := state
    obtain ⟨hinfos, ht, hJ⟩ := hstate
    apply (parseDeviceRuleStep_returns hinfos hhook ht).mono
    intro r hr
    -- a step that ends the loop keeps the invariant as well
    have hInv : Inv (stepValue r) :=
      ⟨hr.1.distinctIds hinfos, hr.2, hstep rule hrule infos target r hinfos hJ hr.1⟩
    cases r with
    | yield _ => exact hInv
    | done _ => exact hInv
  refine hloop.bind fun r hr => returns_pure ?_
  cases r with
  | yield _ => exact hr
  | done _ => exact hr

/-! ### Deletion -/

theorem deletRulesStep_returns {infos : List RuleInfo} {delItem : RuleInfo}
    (hinfos : DistinctIds infos) (hdel : delItem.ruleId.isSome) :
    Returns env (deletRulesStep infos delItem) fun rest =>
      rest = without RuleInfo.ruleId infos delItem.ruleId := by
  obtain ⟨ruleId, hruleId⟩ := Option.isSome_iff_exists.mp hdel
  rw [deletRulesStep, hruleId]
  apply (ruleListCheckExistence_returns ruleId hinfos.isSome).bind
  intro found hfound
  rcases hfound with ⟨rfl, hnone⟩ | ⟨i, old, rfl, hi, hk⟩
  · exact returns_pure (without_eq_self hnone).symm
  · refine returns_pure ?_
    rw [dynamicArrayRemoveItem, eraseIdx_eq_without hinfos.nodup hi, hk]

/-- **`DeletRulesFromList`** removes exactly the rules whose id is listed. -/
theorem deletRulesFromList_returns {infos delList : List RuleInfo} (hinfos : DistinctIds infos)
    (hdel : ∀ d ∈ delList, d.ruleId.isSome) :
    Returns env (deletRulesFromList infos delList) fun rest =>
      rest = infos.filter fun info => info.ruleId ∉ delList.map RuleInfo.ruleId := by
  unfold deletRulesFromList
  have hstep : ∀ d ∈ delList, ∀ infos, DistinctIds infos →
      DistinctIds (without RuleInfo.ruleId infos d.ruleId) ∧
      Returns env (deletRulesStep infos d) fun rest =>
        rest = without RuleInfo.ruleId infos d.ruleId := by
    intro d hd infos hinfos
    exact ⟨hinfos.without d.ruleId, deletRulesStep_returns hinfos (hdel d hd)⟩
  apply (Returns.foldlM_eq hinfos hstep).mono
  intro rest hrest
  rw [hrest, ← foldl_without, List.foldl_map]

theorem DistinctIds.filter {infos : List RuleInfo} (h : DistinctIds infos)
    (p : RuleInfo → Bool) : DistinctIds (infos.filter p) :=
  ⟨fun info hinfo => h.isSome info (List.mem_filter.mp hinfo).1,
    h.nodup.sublist (List.filter_sublist.map _)⟩

/-! ### Runs -/

/-- A call that changes the rule store. -/
inductive StoreOp (τ : Type)
  | parse (hook : Option (ParseDeviceRuleHook τ)) (paras : Option CJson)
  | delete (delList : List RuleInfo)

/-- The call on a store and a hook target. -/
def StoreOp.run (op : StoreOp τ) (state : List RuleInfo × Option τ) :
    Sdk (List RuleInfo × Option τ) :=
  match op with
  | parse hook paras => parseDeviceRuleWithHook hook paras state
  | delete delList => do
    let infos ← deletRulesFromList state.1 delList
    return (infos, state.2)

/-- The hook of the call keeps `I`, the ids of a delete list are not `NULL`. -/
def StoreOp.Admissible (env : Env) (I : τ → Prop) : StoreOp τ → Prop
  | parse hook _ => HookKeeps env hook I
  | delete delList => ∀ d ∈ delList, d.ruleId.isSome

/-- The invariant of the rule store. -/
structure StoreInv (infos : List RuleInfo) : Prop where
  wellFormed : ∀ info ∈ infos, info.WellFormed
  distinctIds : DistinctIds infos

/-- What holds of the rules in the store and of the parsed one holds of the rules afterwards. -/
theorem EntryOutcome.forall_mem {hook : Option (ParseDeviceRuleHook τ)} {rule : CJson}
    {infos : List RuleInfo} {target : Option τ} {r : ForInStep (List RuleInfo × Option τ)}
    {P : RuleInfo → Prop} (h : EntryOutcome env hook rule infos target r)
    (hinfos : ∀ info ∈ infos, P info) (hrule : ∀ info : RuleInfo, info.ParsedFrom rule → P info) :
    ∀ info ∈ (stepValue r).1, P info := by
  cases h with
  | unreadable _ => exact hinfos
  | stale _ _ _ _ _ => exact hinfos
  | rejected _ _ _ _ _ => exact fun info hinfo => hinfos info (mem_without.mp hinfo).1
  | inserted _ _ _ _ hparsed _ =>
    intro info hinfo
    rcases List.mem_append.mp hinfo with hinfo | hinfo
    · exact hinfos info (mem_without.mp hinfo).1
    · rw [List.mem_singleton.mp hinfo]
      exact hrule _ hparsed

theorem EntryOutcome.wellFormed {hook : Option (ParseDeviceRuleHook τ)} {rule : CJson}
    {infos : List RuleInfo} {target : Option τ} {r : ForInStep (List RuleInfo × Option τ)}
    (h : EntryOutcome env hook rule infos target r) (hinfos : ∀ info ∈ infos, info.WellFormed) :
    ∀ info ∈ (stepValue r).1, info.WellFormed :=
  h.forall_mem hinfos fun _ hparsed => hparsed.readFrom.wellFormed

theorem StoreOp.run_returns {op : StoreOp τ} {I : τ → Prop} {infos : List RuleInfo}
    {target : Option τ} (hop : op.Admissible env I) (hinfos : StoreInv infos)
    (ht : ∀ t ∈ target, I t) :
    Returns env (op.run (infos, target)) fun state => StoreInv state.1 ∧ ∀ t ∈ state.2, I t := by
  cases op with
  | parse hook paras =>
    have hmessage : Returns env (parseDeviceRuleWithHook hook paras (infos, target)) fun state =>
        DistinctIds state.1 ∧ (∀ t ∈ state.2, I t) ∧ ∀ info ∈ state.1, info.WellFormed :=
      parseDeviceRuleWithHook_returns hinfos.distinctIds hop ht hinfos.wellFormed
        fun _ _ _ _ _ _ hwf hout => hout.wellFormed hwf
    exact hmessage.mono fun state h => ⟨⟨h.2.2, h.1⟩, h.2.1⟩
  | delete delList =>
    apply (deletRulesFromList_returns hinfos.distinctIds hop).bind
    intro rest hrest
    subst hrest
    refine returns_pure ⟨⟨fun info hinfo => ?_, hinfos.distinctIds.filter _⟩, ht⟩
    exact hinfos.wellFormed info (List.mem_filter.mp hinfo).1

/-- The message with the entries. -/
def ruleMessage (rules : List CJson) : CJson := .object [("rulesInfos", .array rules)]

/-- An entry without conditions and actions. -/
def bareEntry (ruleId : String) (version : ℚ) (timeRange : CJson) : CJson :=
  .object [("ruleId", .string ruleId), ("ruleName", .string "lamp"), ("status", .string "active"),
    ("logic", .string "and"), ("ruleVersionInShadow", .number version), ("timeRange", timeRange),
    ("conditions", .array []), ("actions", .array [])]

/-- **The rule store over whole runs**: whatever messages arrive and whatever is deleted, every rule
is completely parsed, the ids are pairwise distinct, and a deletion removes exactly the rules
listed. -/
theorem storeRun_inv {ops : List (StoreOp τ)} {I : τ → Prop} {target : Option τ}
    (hops : ∀ op ∈ ops, op.Admissible env I) (ht : ∀ t ∈ target, I t) :
    Returns env (ops.foldlM (fun state op => op.run state) ([], target)) fun state =>
      (∀ info ∈ state.1, info.WellFormed) ∧ DistinctIds state.1 ∧
        ∀ delList : List RuleInfo, (∀ d ∈ delList, d.ruleId.isSome) →
          Returns env (deletRulesFromList state.1 delList) fun rest =>
            rest = state.1.filter fun info => info.ruleId ∉ delList.map RuleInfo.ruleId := by
  have hrun : Returns env (ops.foldlM (fun state op => op.run state) ([], target))
      fun state => StoreInv state.1 ∧ ∀ t ∈ state.2, I t := by
    refine Returns.foldlM ⟨⟨by simp, distinctIds_nil⟩, ht⟩ fun op hop state hstate => ?_
    exact StoreOp.run_returns (hops op hop) hstate.1 hstate.2
  apply hrun.mono
  intro state hstate
  refine ⟨hstate.1.wellFormed, hstate.1.distinctIds, fun delList hdel => ?_⟩
  exact deletRulesFromList_returns hstate.1.distinctIds hdel

theorem storeRun_inv_insert_delete :
    Returns Env.plentiful
      ([StoreOp.parse none (some (ruleMessage [bareEntry "a" 1 .null, bareEntry "b" 1 .null])),
        StoreOp.delete [{ ruleId := some "a" }]].foldlM
          (fun state (op : StoreOp Unit) => op.run state) ([], none))
      fun state => DistinctIds state.1 := by
  have hops : ∀ op ∈ [StoreOp.parse none
      (some (ruleMessage [bareEntry "a" 1 .null, bareEntry "b" 1 .null])),
      StoreOp.delete [{ ruleId := some "a" }]],
      op.Admissible Env.plentiful (fun _ : Unit => True) := by
    intro op hop
    rcases List.mem_cons.mp hop with rfl | hop
    · exact hookKeeps_none
    · rw [List.mem_singleton.mp hop]
      intro d hd
      rw [List.mem_singleton.mp hd]
      rfl
  exact (storeRun_inv hops (by simp)).mono fun state h => h.2.1

end IotDeviceSdk.DeviceRule
