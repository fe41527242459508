import IotDeviceSdk.DeviceRule.Equiv.RuleStore

/-!
# What a rejected entry does to the stored rules

`ParseDeviceRuleWithHook` removes the stored rule before it parses the entry that replaces it, and
takes only the pushed rule back when the parse fails.  `parseDeviceRuleWithHook_keeps_iff`: when no
allocation fails, the message keeps the stored rules exactly when the loop never reaches a rejected
entry that would replace one of them (`insertsAccepted`).
-/

namespace IotDeviceSdk.DeviceRule

open CJson Prog VersionedStore

variable {env : Env} {τ : Type} {hook : Option (ParseDeviceRuleHook τ)} {I : τ → Prop}
  {infos cur : List RuleInfo} {target : Option τ} {paras : Option CJson}
  {rule : CJson} {rules rest : List CJson}

/-! ### The condition -/

/-- The ids and versions of the rules. -/
def idsAndVersions (infos : List RuleInfo) : List (Option String × ℤ) :=
  infos.map fun info => (info.ruleId, info.ruleVersionInShadow)

/-- Whether the loop over the entries, starting with rules of the ids and versions `held`, never
meets a rejected entry it has to insert under a guarded id.  An unreadable entry and a rejected
one end the loop, a stale one is skipped. -/
def insertsAccepted (guarded : String → Bool) : List (Option String × ℤ) → List CJson → Bool
  | _, [] => true
  | held, rule :: rules =>
    match getString (some rule) "ruleId", entryVersion rule with
    | some ruleId, some version =>
      if held.any fun old => old.1 == some ruleId && decide (version ≤ old.2) then
        insertsAccepted guarded held rules
      else if ruleAccepted rule then
        insertsAccepted guarded (without Prod.fst held (some ruleId) ++ [(some ruleId, version)])
          rules
      else !guarded ruleId
    | _, _ => true

section

variable {guarded : String → Bool} {ruleId : String} {version : ℤ}

theorem insertsAccepted_unreadable {held : List (Option String × ℤ)}
    (h : getString (some rule) "ruleId" = none ∨ entryVersion rule = none) :
    insertsAccepted guarded held (rule :: rest) = true := by
  rw [insertsAccepted]
  rcases h with h | h
  · rw [h]
  · cases getString (some rule) "ruleId" <;> rw [h]

theorem insertsAccepted_stale {old : RuleInfo} (hid : getString (some rule) "ruleId" = some ruleId)
    (hversion : entryVersion rule = some version) (hold : old ∈ cur)
    (hk : old.ruleId = some ruleId) (hle : version ≤ old.ruleVersionInShadow) :
    insertsAccepted guarded (idsAndVersions cur) (rule :: rest) =
      insertsAccepted guarded (idsAndVersions cur) rest := by
  have hany : ((idsAndVersions cur).any fun old =>
      old.1 == some ruleId && decide (version ≤ old.2)) = true := by
    rw [List.any_eq_true]
    exact ⟨_, List.mem_map_of_mem hold, by simp [hk, hle]⟩
  rw [insertsAccepted, hid, hversion]
  dsimp only
  rw [if_pos hany]

/-- An entry that is newer than the rule of its id is inserted when it is accepted. -/
theorem insertsAccepted_newer (hid : getString (some rule) "ruleId" = some ruleId)
    (hversion : entryVersion rule = some version)
    (hnew : ∀ old ∈ cur, old.ruleId = some ruleId → old.ruleVersionInShadow < version) :
    insertsAccepted guarded (idsAndVersions cur) (rule :: rest) =
      if ruleAccepted rule then
        insertsAccepted guarded
          (without Prod.fst (idsAndVersions cur) (some ruleId) ++ [(some ruleId, version)]) rest
      else !guarded ruleId := by
  -- no held rule of the id is as new as the entry
  have hany : ¬((idsAndVersions cur).any fun old =>
      old.1 == some ruleId && decide (version ≤ old.2)) = true := by
    rw [List.any_eq_true]
    rintro ⟨pair, hpair, hcond⟩
    obtain ⟨old, hold, rfl⟩ := List.mem_map.mp hpair
    rw [Bool.and_eq_true, beq_iff_eq, decide_eq_true_eq] at hcond
    exact absurd hcond.2 (not_le.mpr (hnew old hold hcond.1))
  rw [insertsAccepted, hid, hversion]
  dsimp only
  rw [if_neg hany]

/-- The ids and versions after an insertion. -/
theorem idsAndVersions_insert {info : RuleInfo} (hk : info.ruleId = some ruleId)
    (hv : info.ruleVersionInShadow = version) :
    idsAndVersions (without RuleInfo.ruleId cur (some ruleId) ++ [info]) =
      without Prod.fst (idsAndVersions cur) (some ruleId) ++ [(some ruleId, version)] := by
  simp only [idsAndVersions, without, List.map_append, List.map_cons, List.map_nil, hk, hv,
    List.filter_map]
  rfl

end

/-! ### What is kept -/

/-- The entry would update the stored rule but `ParseSingleRule` rejects it. -/
def RejectedUpdate (old : RuleInfo) (rule : CJson) : Prop :=
  getString (some rule) "ruleId" = old.ruleId ∧
    (∃ version, entryVersion rule = some version ∧ old.ruleVersionInShadow < version) ∧
      ruleAccepted rule = false

/-- **A failed rule update keeps the old rule**: a stored rule with a rejected update still has a
rule of its id, itself or one from an accepted entry, and a stored rule whose id occurs in no
accepted entry is unchanged. -/
structure KeepsStoredRules (infos : List RuleInfo) (rules : List CJson)
    (infos' : List RuleInfo) : Prop where
  present : ∀ old ∈ infos, (∃ rule ∈ rules, RejectedUpdate old rule) →
    ∃ info ∈ infos', info.ruleId = old.ruleId ∧
      (info = old ∨ ∃ rule ∈ rules, ruleAccepted rule = true ∧ info.ParsedFrom rule)
  unchanged : ∀ old ∈ infos,
    (∀ rule ∈ rules, getString (some rule) "ruleId" = old.ruleId → ruleAccepted rule = false) →
      old ∈ infos'

/-- The loop invariant: every stored rule is there or was replaced by a newer one. -/
def Tracks (infos : List RuleInfo) (rules : List CJson) (cur : List RuleInfo) : Prop :=
  ∀ old ∈ infos, ∃ info ∈ cur, info.ruleId = old.ruleId ∧
    (info = old ∨ old.ruleVersionInShadow < info.ruleVersionInShadow ∧
      ∃ rule ∈ rules, ruleAccepted rule = true ∧ info.ParsedFrom rule)

theorem tracks_self : Tracks infos rules infos :=
  fun old hold => ⟨old, hold, rfl, Or.inl rfl⟩

theorem Tracks.keeps (h : Tracks infos rules cur) : KeepsStoredRules infos rules cur := by
  refine ⟨fun old hold _ => ?_, fun old hold hrejected => ?_⟩
  · obtain ⟨info, hinfo, hk, heq | ⟨-, hrule⟩⟩ := h old hold
    · exact ⟨info, hinfo, hk, Or.inl heq⟩
    · exact ⟨info, hinfo, hk, Or.inr hrule⟩
  · obtain ⟨info, hinfo, hk, rfl | ⟨-, rule, hrule, hacc, hparsed⟩⟩ := h old hold
    · exact hinfo
    · have hno := hrejected rule hrule (hparsed.readFrom.ruleId.symm.trans hk)
      rw [hno] at hacc
      exact absurd hacc (by decide)

/-- The rule that stands for a stored one is at least as new. -/
theorem Tracks.lt_of_newer {ruleId : Option String} {version : ℤ} (h : Tracks infos rules cur)
    (hnew : ∀ x ∈ cur, x.ruleId = ruleId → x.ruleVersionInShadow < version) {old : RuleInfo}
    (hold : old ∈ infos) (hk : old.ruleId = ruleId) : old.ruleVersionInShadow < version := by
  obtain ⟨info, hinfo, hinfoId, heq | ⟨hlt, -⟩⟩ := h old hold
  · rw [← heq]
    exact hnew info hinfo (hinfoId.trans hk)
  · exact hlt.trans (hnew info hinfo (hinfoId.trans hk))

theorem Tracks.without {ruleId : Option String} (h : Tracks infos rules cur)
    (hfree : ∀ old ∈ infos, old.ruleId ≠ ruleId) :
    Tracks infos rules (without RuleInfo.ruleId cur ruleId) := by
  intro old hold
  obtain ⟨info, hinfo, hk, h'⟩ := h old hold
  refine ⟨info, mem_without.mpr ⟨hinfo, ?_⟩, hk, h'⟩
  rw [hk]
  exact hfree old hold

theorem Tracks.insert {ruleId : String} {version : ℤ} {info : RuleInfo}
    (h : Tracks infos rules cur) (hrule : rule ∈ rules) (hacc : ruleAccepted rule = true)
    (hparsed : info.ParsedFrom rule) (hk : info.ruleId = some ruleId)
    (hv : info.ruleVersionInShadow = version)
    (hnew : ∀ x ∈ cur, x.ruleId = some ruleId → x.ruleVersionInShadow < version) :
    Tracks infos rules (VersionedStore.without RuleInfo.ruleId cur (some ruleId) ++ [info]) := by
  intro old hold
  by_cases heq : old.ruleId = some ruleId
  · refine ⟨info, by simp, hk.trans heq.symm, Or.inr ⟨?_, rule, hrule, hacc, hparsed⟩⟩
    rw [hv]
    exact h.lt_of_newer hnew hold heq
  · obtain ⟨x, hx, hxk, h'⟩ := h old hold
    refine ⟨x, List.mem_append_left _ (mem_without.mpr ⟨hx, ?_⟩), hxk, h'⟩
    rwa [hxk]

/-- The ids of the stored rules. -/
def isStoredId (infos : List RuleInfo) (ruleId : String) : Bool :=
  infos.any fun info => info.ruleId == some ruleId

theorem isStoredId_eq_false {ruleId : String} :
    isStoredId infos ruleId = false ↔ ∀ old ∈ infos, old.ruleId ≠ some ruleId := by
  simp [isStoredId]

/-- A stored rule was lost to a rejected update. -/
def LosesStoredRule (infos : List RuleInfo) (rules : List CJson) (infos' : List RuleInfo) : Prop :=
  ∃ old ∈ infos, (∃ rule ∈ rules, RejectedUpdate old rule) ∧
    ∀ info ∈ infos', info.ruleId ≠ old.ruleId

theorem LosesStoredRule.not_keeps {infos' : List RuleInfo}
    (h : LosesStoredRule infos rules infos') : ¬KeepsStoredRules infos rules infos' := by
  obtain ⟨old, hold, hrule, hgone⟩ := h
  intro hkeeps
  obtain ⟨info, hinfo, hk, -⟩ := hkeeps.present old hold hrule
  exact hgone info hinfo hk

/-- The loop over the entries `rest` of a message keeps track of the stored rules or loses one,
as the condition says. -/
theorem forEach_tracks (hA : env.AllocsSucceed) (hcur : DistinctIds cur)
    (hhook : HookKeeps env hook I) (ht : ∀ t ∈ target, I t) (hrest : ∀ rule ∈ rest, rule ∈ rules)
    (htracks : Tracks infos rules cur) :
    Returns env (forEach (parseDeviceRuleStep hook) rest (cur, target)) fun r =>
      if insertsAccepted (isStoredId infos) (idsAndVersions cur) rest then
        Tracks infos rules (stepValue r).1
      else LosesStoredRule infos rules (stepValue r).1 := by
  induction rest generalizing cur target with
  | nil => exact returns_pure htracks
  | cons rule rest ih =>
    have hrule : rule ∈ rules := hrest rule (by simp)
    have hrest' : ∀ rule ∈ rest, rule ∈ rules := fun x hx => hrest x (by simp [hx])
    apply (parseDeviceRuleStep_returns hcur hhook ht).bind
    intro r hr
    obtain ⟨hout, ht'⟩ := hr
    have hcur' := hout.distinctIds hcur
    cases hout with
    | unreadable h =>
      refine returns_pure ?_
      rw [insertsAccepted_unreadable h]
      exact htracks
    | stale hid hversion hold hk hle =>
      rw [insertsAccepted_stale hid hversion hold hk hle]
      exact ih hcur' ht' hrest' htracks
    | @inserted ruleId version info target' hid hversion hnew _ hparsed hacc =>
      have hk : info.ruleId = some ruleId := hparsed.readFrom.ruleId.trans hid
      have hv := hparsed.version_eq hversion
      rw [insertsAccepted_newer hid hversion hnew, if_pos (hacc hA),
        ← idsAndVersions_insert hk hv]
      exact ih hcur' ht' hrest' (htracks.insert hrule (hacc hA) hparsed hk hv hnew)
    | @rejected ruleId version target' hid hversion hnew _ hacc =>
      have hcond : insertsAccepted (isStoredId infos) (idsAndVersions cur) (rule :: rest) =
          !isStoredId infos ruleId := by
        rw [insertsAccepted_newer hid hversion hnew, hacc hA, if_neg (by decide)]
      refine returns_pure ?_
      rw [hcond]
      cases hstored : isStoredId infos ruleId with
      | false => exact htracks.without (isStoredId_eq_false.mp hstored)
      | true =>
        -- the rejected entry would have replaced `old`, which is gone
        obtain ⟨old, hold, hk⟩ : ∃ old ∈ infos, old.ruleId = some ruleId := by
          simpa [isStoredId] using hstored
        have hlt := htracks.lt_of_newer hnew hold hk
        refine ⟨old, hold, ⟨rule, hrule, ?_, ⟨version, hversion, hlt⟩, hacc hA⟩,
          fun info hinfo => ?_⟩
        · rw [hid, hk]
        · rw [hk]
          exact (mem_without.mp hinfo).2

theorem parseDeviceRuleWithHook_tracks (hA : env.AllocsSucceed) (hinfos : DistinctIds infos)
    (hhook : HookKeeps env hook I) (ht : ∀ t ∈ target, I t) :
    Returns env (parseDeviceRuleWithHook hook paras (infos, target)) fun state =>
      if insertsAccepted (isStoredId infos) (idsAndVersions infos) (rulesInfos paras) then
        Tracks infos (rulesInfos paras) state.1
      else LosesStoredRule infos (rulesInfos paras) state.1 :=
  (forEach_tracks hA hinfos hhook ht (fun _ h => h) tracks_self).bind fun _ hr => returns_pure hr

/-- **When a message keeps the stored rules**: exactly when no rejected entry is inserted in place
of one of them. -/
theorem parseDeviceRuleWithHook_keeps_iff (hA : env.AllocsSucceed) (hinfos : DistinctIds infos)
    (hhook : HookKeeps env hook I) (ht : ∀ t ∈ target, I t) :
    Returns env (parseDeviceRuleWithHook hook paras (infos, target)) fun state =>
      KeepsStoredRules infos (rulesInfos paras) state.1 ↔
        insertsAccepted (isStoredId infos) (idsAndVersions infos) (rulesInfos paras) = true := by
  apply (parseDeviceRuleWithHook_tracks hA hinfos hhook ht).mono
  intro state hstate
  split at hstate
  · rename_i hcond
    exact iff_of_true hstate.keeps hcond
  · rename_i hcond
    exact iff_of_false hstate.not_keeps hcond

/-- A message that updates rule `a` with a time range that is no time of day. -/
def badTimeRangeMessage : CJson :=
  ruleMessage [bareEntry "a" 2 (.object [("startTime", .string "noon")])]

theorem parseDeviceRuleWithHook_keeps_iff_badTimeRange :
    Returns Env.plentiful (parseDeviceRuleWithHook (none : Option (ParseDeviceRuleHook Unit))
      (some badTimeRangeMessage) ([{ ruleId := some "a", ruleVersionInShadow := 1 }], none))
      fun state => ¬KeepsStoredRules [{ ruleId := some "a", ruleVersionInShadow := 1 }]
        (rulesInfos (some badTimeRangeMessage)) state.1 := by
  have hdistinct : DistinctIds [{ ruleId := some "a", ruleVersionInShadow := 1 }] :=
    ⟨by simp, by simp⟩
  have hhook : HookKeeps Env.plentiful (none : Option (ParseDeviceRuleHook Unit))
      (fun _ => True) := hookKeeps_none
  have htarget : ∀ t ∈ (none : Option Unit), True := fun _ _ => trivial
  refine (parseDeviceRuleWithHook_keeps_iff Env.plentiful_allocsSucceed hdistinct hhook
    htarget).mono fun state h hkeeps => ?_
  have hcond := h.mp hkeeps
  revert hcond
  decide +kernel

/-- The message with the bad time range loses the stored rule. -/
theorem rejectedUpdate_loses_rule :
    ¬∀ (env : Env) (infos : List RuleInfo) (paras : Option CJson), env.AllocsSucceed →
      DistinctIds infos →
        Yields env (parseDeviceRuleWithHook (none : Option (ParseDeviceRuleHook Unit)) paras
          (infos, none)) fun state => KeepsStoredRules infos (rulesInfos paras) state.1 := by
  intro hclaim
  have hdistinct : DistinctIds [{ ruleId := some "a", ruleVersionInShadow := 1 }] :=
    ⟨by simp, by simp⟩
  have hhook : HookKeeps Env.plentiful (none : Option (ParseDeviceRuleHook Unit))
      (fun _ => True) := hookKeeps_none
  have htarget : ∀ t ∈ (none : Option Unit), True := fun _ _ => trivial
  have hrun : Returns Env.plentiful (parseDeviceRuleWithHook none (some badTimeRangeMessage)
      ([{ ruleId := some "a", ruleVersionInShadow := 1 }], none)) _ :=
    parseDeviceRuleWithHook_tracks Env.plentiful_allocsSucceed hdistinct hhook htarget
  -- the run has an outcome, and by its condition it is one that loses the rule
  obtain ⟨state, hout, hstate⟩ := hrun.exists_outcome
  have hkeeps := hclaim _ _ _ Env.plentiful_allocsSucceed hdistinct state hout
  rw [if_neg (by decide +kernel)] at hstate
  exact hstate.not_keeps hkeeps

end IotDeviceSdk.DeviceRule
