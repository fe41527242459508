import IotDeviceSdk.DeviceRule.Equiv.RuleShadow

/-!
# Failures of `GetRuleInfoList`

`GetRuleInfoList` stops at the first property whose version cannot be read or whose entry cannot be
allocated (`failurePoint`).  Its clean-up takes back the last entry of the list, which is the one it
has just pushed when the id could not be copied, but an entry that was there before, or the item in
front of an empty list, when the push itself failed.

`getRuleInfoList_clean_iff`: a run leaves the entries of the properties before the failing one
exactly when it does not fail at a push.
-/

namespace IotDeviceSdk.DeviceRule

open CJson Prog

variable {env : Env} {list : List RuleInfo} {lists : RuleLists} {c : Cursor}

/-! ### The entry of a property -/

/-- The rule `RuleListCheckExistence` finds. -/
def firstRule (list : List RuleInfo) (ruleId : String) : Option RuleInfo :=
  list.find? fun info => info.ruleId = some ruleId

/-- What a property adds to `addList`: it is not marked for deletion, and the store has no rule of
the id or an older one. -/
def requestOf (list : List RuleInfo) (property : String × CJson) : List RuleInfo :=
  match shadowVersion property.2 with
  | none => []
  | some version =>
    if version ≠ -1 ∧ (firstRule list property.1).all fun old => version > old.ruleVersionInShadow
    then [idOnly property.1 version]
    else []

/-- The lists with the entries of some properties. -/
def withEntries (lists : RuleLists) (properties : List (String × CJson)) : RuleLists :=
  { lists with
    delList := lists.delList ++ properties.flatMap deletionOf
    addList := lists.addList ++ properties.flatMap (requestOf lists.list) }

theorem withEntries_nil (lists : RuleLists) : withEntries lists [] = lists := by
  simp [withEntries]

theorem withEntries_cons (lists : RuleLists) (property : String × CJson)
    (properties : List (String × CJson)) :
    withEntries lists (property :: properties) =
      withEntries (withEntries lists [property]) properties := by
  simp [withEntries]

/-! ### Where a run fails -/

/-- What `GetRuleInfoList` fails at. -/
inductive ListFailure where
  | version | push | copy
  deriving DecidableEq

/-- The allocations for an entry: where the run goes on, or the one that fails. -/
def allocateEntry (env : Env) (ruleId : String) (c : Cursor) : Except ListFailure Cursor :=
  match ruleInfoListPush [] env c with
  | some (some _, c) =>
    match cStrDuplicate (some ruleId) env c with
    | some (some _, c) => .ok c
    | _ => .error .copy
  | _ => .error .push

/-- The first property at which the version check or an allocation fails, and what fails there. -/
def failurePoint (env : Env) (list : List RuleInfo) :
    List (String × CJson) → Cursor → Option (ℕ × ListFailure)
  | [], _ => none
  | property :: properties, c =>
    if (shadowVersion property.2).isNone then some (0, .version)
    else if (deletionOf property ++ requestOf list property).isEmpty then
      (failurePoint env list properties c).map fun p => (p.1 + 1, p.2)
    else
      match allocateEntry env property.1 c with
      | .error failure => some (0, failure)
      | .ok c => (failurePoint env list properties c).map fun p => (p.1 + 1, p.2)

/-- **A clean run**: no destructor runs outside its list, and the lists have the entries of all the
properties, or of those before the failing one when there is one. -/
def CleanRun (env : Env) (lists : RuleLists) (properties : List (String × CJson)) (c : Cursor) :
    Prop :=
  match failurePoint env lists.list properties c with
  | none => ∃ c', getRuleInfoList (some (.object properties)) lists env c =
      some (.yield (withEntries lists properties), c')
  | some (k, _) => ∃ c', getRuleInfoList (some (.object properties)) lists env c =
      some (.done (withEntries lists (properties.take k)), c')

/-! ### Appending an entry -/

/-- Whether a push succeeds does not depend on the list. -/
theorem ruleInfoListPush_apply (list : List RuleInfo) (c : Cursor) :
    ruleInfoListPush list env c =
      (ruleInfoListPush [] env c).map fun r => (r.1.map fun p => (list ++ p.1, p.2), r.2) := by
  unfold ruleInfoListPush dynamicArrayPush
  rw [bind_apply, bind_apply]
  show ((if !env.mallocs c.malloc then pure none else _ : Sdk (Option (List RuleInfo × RuleInfo)))
    env _) = Option.map _ ((if !env.mallocs c.malloc then pure none else _ :
      Sdk (Option (List RuleInfo × RuleInfo))) env _)
  cases env.mallocs c.malloc with
  | false => rfl
  | true =>
    rw [if_neg (by decide), if_neg (by decide), bind_apply, bind_apply]
    cases ruleInfoCtor env { c with malloc := c.malloc + 1 } with
    | none => rfl
    | some r =>
      obtain ⟨item, c'⟩ := r
      cases item with
      | none => rfl
      | some item => rfl

theorem ruleInfoListPush_cases (env : Env) (c : Cursor) :
    ∃ c', ruleInfoListPush [] env c = some (none, c') ∨
      ruleInfoListPush [] env c = some (some ([{}], {}), c') := by
  have hreturns : Returns env (ruleInfoListPush []) _ := ruleInfoListPush_returns
  obtain ⟨r, c', hr, hcases, -⟩ := hreturns c
  rcases hcases with rfl | rfl
  · exact ⟨c', Or.inl hr⟩
  · exact ⟨c', Or.inr hr⟩

theorem cStrDuplicate_cases (env : Env) (ruleId : String) (c : Cursor) :
    ∃ c', cStrDuplicate (some ruleId) env c = some (none, c') ∨
      cStrDuplicate (some ruleId) env c = some (some (some ruleId), c') := by
  have hreturns : Returns env (cStrDuplicate (some ruleId)) _ := cStrDuplicate_returns ruleId
  obtain ⟨r, c', hr, hcases, -⟩ := hreturns c
  rcases hcases with rfl | rfl
  · exact ⟨c', Or.inl hr⟩
  · exact ⟨c', Or.inr hr⟩

/-- What a run of `pushRuleId` makes of the allocations for its entry: an entry whose id cannot be
copied is taken back, but a push that fails takes back an entry that was there before; without one a
destructor runs in front of the list. -/
inductive PushOf (list : List RuleInfo) (entry : RuleInfo) :
    Except ListFailure Cursor → Option (ForInStep (List RuleInfo) × Cursor) → Prop
  | ok {c : Cursor} : PushOf list entry (.ok c) (some (.yield (list ++ [entry]), c))
  | copy {c : Cursor} : PushOf list entry (.error .copy) (some (.done list, c))
  | outside : PushOf list entry (.error .push) none
  | lost {list' : List RuleInfo} {c : Cursor} (hlt : list'.length < list.length) :
    PushOf list entry (.error .push) (some (.done list', c))

/-- **Appending an entry**. -/
theorem pushRuleId_spec (env : Env) (list : List RuleInfo) (ruleId : String) (version : ℤ)
    (c : Cursor) :
    PushOf list (idOnly ruleId version) (allocateEntry env ruleId c)
      (pushRuleId list (some ruleId) version env c) := by
  unfold allocateEntry pushRuleId
  rw [bind_apply, ruleInfoListPush_apply list]
  obtain ⟨c₁, hpush | hpush⟩ := ruleInfoListPush_cases env c
  · rw [hpush]
    show PushOf list _ (.error .push)
      ((dynamicArrayPop list >>= fun list => pure (.done list) : Sdk (ForInStep _)) env c₁)
    cases list with
    | nil => exact .outside
    | cons info list => exact .lost (by simp)
  · rw [hpush, Option.map_some, Option.bind_some]
    dsimp only [Option.map_some]
    rw [bind_apply]
    obtain ⟨c₂, hcopy | hcopy⟩ := cStrDuplicate_cases env ruleId c₁
    · rw [hcopy, Option.bind_some]
      dsimp only
      rw [dynamicArrayPop_append]
      exact .copy
    · rw [hcopy, Option.bind_some]
      dsimp only
      rw [dynamicArrayWriteLast_append]
      exact .ok

/-! ### One property -/

theorem ruleListCheckExistence_go_eq (ruleId : String) (i : ℕ)
    (h : ∀ info ∈ list, info.ruleId.isSome) :
    ∃ found, ruleListCheckExistence.go ruleId list i = pure found ∧
      found.map Prod.snd = firstRule list ruleId := by
  induction list generalizing i with
  | nil => exact ⟨none, rfl, rfl⟩
  | cons info list ih =>
    obtain ⟨s, hs⟩ := Option.isSome_iff_exists.mp (h info (by simp))
    have hcompare : strcmpEq info.ruleId (some ruleId) = pure (s == ruleId) := by
      rw [hs]
      rfl
    rw [ruleListCheckExistence.go, hcompare, pure_bind, firstRule]
    by_cases heq : s = ruleId
    · rw [if_pos (by simpa using heq), List.find?_cons_of_pos (by simp [hs, heq])]
      exact ⟨_, rfl, rfl⟩
    · rw [if_neg (by simpa using heq), List.find?_cons_of_neg (by simp [hs, heq])]
      exact ih (i + 1) fun x hx => h x (by simp [hx])

/-- The entries of the two lists. -/
def RuleLists.entries (lists : RuleLists) : ℕ := lists.delList.length + lists.addList.length

/-- **One round of `GetRuleInfoList`**: without a version it ends the loop, without an entry it does
nothing, and otherwise it appends the entry to the list it belongs to. -/
inductive RoundOf (property : String × CJson) (lists : RuleLists)
    (step : Sdk (ForInStep RuleLists)) : Prop
  | unreadable (hversion : shadowVersion property.2 = none) (hstep : step = pure (.done lists))
  | skipped (hversion : (shadowVersion property.2).isSome)
    (hnone : deletionOf property ++ requestOf lists.list property = [])
    (hstep : step = pure (.yield (withEntries lists [property])))
  | appended (hversion : (shadowVersion property.2).isSome)
    (hsome : deletionOf property ++ requestOf lists.list property ≠ []) {version : ℤ}
    {target : List RuleInfo} (put : List RuleInfo → RuleLists)
    (hstep : step = pushRuleId target (some property.1) version >>= fun r =>
      match r with
      | .done target => pure (.done (put target))
      | .yield target => pure (.yield (put target)))
    (hput : put target = lists)
    (hentry : put (target ++ [idOnly property.1 version]) = withEntries lists [property])
    (hless : ∀ target', target'.length < target.length → (put target').entries < lists.entries)

theorem getRuleInfoListStep_round (hids : ∀ info ∈ lists.list, info.ruleId.isSome)
    (property : String × CJson) :
    RoundOf property lists (getRuleInfoListStep (some property.1, property.2) lists) := by
  obtain ⟨ruleId, item⟩ := property
  obtain ⟨found, hfound, hfirst⟩ := ruleListCheckExistence_go_eq ruleId 0 hids
  have hcheck : ruleListCheckExistence lists.list (some ruleId) = pure found := hfound
  unfold getRuleInfoListStep
  cases hversion : getIntValueFromJson (getObjectItem (some item) "version") with
  | none => exact .unreadable hversion rfl
  | some version =>
    have hv : shadowVersion item = some version := hversion
    have hsome : (shadowVersion item).isSome := by
      rw [hv]
      rfl
    have hnewer : (found.all fun found => version > found.2.ruleVersionInShadow) =
        (firstRule lists.list ruleId).all fun old => version > old.ruleVersionInShadow := by
      rw [← hfirst]
      cases found <;> rfl
    dsimp only
    rw [hcheck, pure_bind, hnewer]
    by_cases hmark : version = -1
    · subst hmark
      -- version -1 marks a rule that is to be deleted
      have hdel : deletionOf (ruleId, item) = [idOnly ruleId (-1)] := if_pos hv
      have hadd : requestOf lists.list (ruleId, item) = [] := by simp [requestOf, hv]
      rw [if_pos rfl]
      refine .appended hsome (by simp [hdel]) (fun delList => { lists with delList := delList }) rfl
        rfl ?_ ?_
      · simp [withEntries, hdel, hadd]
      · intro target' hlt
        exact Nat.add_lt_add_right hlt _
    · have hdel : deletionOf (ruleId, item) = [] := by simp [deletionOf, hv, hmark]
      rw [if_neg hmark]
      cases hnew : (firstRule lists.list ruleId).all fun old =>
          decide (version > old.ruleVersionInShadow) with
      | false =>
        -- a rule that is not newer is not asked for
        have hadd : requestOf lists.list (ruleId, item) = [] := by simp [requestOf, hv, hnew]
        refine .skipped hsome (by rw [hdel, hadd]; rfl) ?_
        simp [withEntries, hdel, hadd]
      | true =>
        -- a newer rule is asked for
        have hadd : requestOf lists.list (ruleId, item) = [idOnly ruleId version] := by
          simp [requestOf, hv, hnew, hmark]
        rw [if_pos rfl]
        refine .appended hsome (by simp [hadd]) (fun addList => { lists with addList := addList })
          rfl rfl ?_ ?_
        · simp [withEntries, hdel, hadd]
        · intro target' hlt
          exact Nat.add_lt_add_left hlt _

/-! ### All properties -/

section Run

variable {property : String × CJson} {properties : List (String × CJson)}

theorem getRuleInfoList_cons_yield {lists' : RuleLists} {c' : Cursor}
    (h : getRuleInfoListStep (some property.1, property.2) lists env c = some (.yield lists', c')) :
    getRuleInfoList (some (.object (property :: properties))) lists env c =
      getRuleInfoList (some (.object properties)) lists' env c' := by
  show (getRuleInfoListStep (some property.1, property.2) lists >>= _ : Sdk _) env c = _
  rw [bind_apply, h]
  rfl

theorem getRuleInfoList_cons_done {lists' : RuleLists} {c' : Cursor}
    (h : getRuleInfoListStep (some property.1, property.2) lists env c = some (.done lists', c')) :
    getRuleInfoList (some (.object (property :: properties))) lists env c =
      some (.done lists', c') := by
  show (getRuleInfoListStep (some property.1, property.2) lists >>= _ : Sdk _) env c = _
  rw [bind_apply, h]
  rfl

theorem getRuleInfoList_cons_none
    (h : getRuleInfoListStep (some property.1, property.2) lists env c = none) :
    getRuleInfoList (some (.object (property :: properties))) lists env c = none := by
  show (getRuleInfoListStep (some property.1, property.2) lists >>= _ : Sdk _) env c = _
  rw [bind_apply, h]
  rfl

/-- A round that goes on moves the failing point and the entries to the rest. -/
theorem cleanRun_cons {c' : Cursor}
    (hstep : getRuleInfoListStep (some property.1, property.2) lists env c =
      some (.yield (withEntries lists [property]), c'))
    (hpoint : failurePoint env lists.list (property :: properties) c =
      (failurePoint env lists.list properties c').map fun p => (p.1 + 1, p.2))
    (hclean : CleanRun env (withEntries lists [property]) properties c') :
    CleanRun env lists (property :: properties) c := by
  have hlist : (withEntries lists [property]).list = lists.list := rfl
  unfold CleanRun at hclean ⊢
  rw [hlist] at hclean
  rw [getRuleInfoList_cons_yield hstep, hpoint]
  cases hrest : failurePoint env lists.list properties c' with
  | none =>
    rw [hrest] at hclean
    rw [Option.map_none, withEntries_cons lists property properties]
    exact hclean
  | some p =>
    rw [hrest] at hclean
    obtain ⟨c'', hrun⟩ := hclean
    refine ⟨c'', ?_⟩
    rw [hrun, List.take_succ_cons, withEntries_cons lists property (properties.take p.1)]

/-- A round that ends the loop and leaves the lists is clean. -/
theorem cleanRun_done {c' : Cursor} {failure : ListFailure}
    (hstep : getRuleInfoListStep (some property.1, property.2) lists env c =
      some (.done lists, c'))
    (hpoint : failurePoint env lists.list (property :: properties) c = some (0, failure)) :
    CleanRun env lists (property :: properties) c := by
  unfold CleanRun
  rw [hpoint]
  refine ⟨c', ?_⟩
  rw [getRuleInfoList_cons_done hstep, List.take_zero, withEntries_nil]

theorem failurePoint_unreadable (list : List RuleInfo) (c : Cursor)
    (hversion : shadowVersion property.2 = none) :
    failurePoint env list (property :: properties) c = some (0, .version) := by
  unfold failurePoint
  rw [hversion]
  rfl

theorem failurePoint_skipped (env : Env) (properties : List (String × CJson)) (c : Cursor)
    (hversion : (shadowVersion property.2).isSome)
    (hnone : deletionOf property ++ requestOf list property = []) :
    failurePoint env list (property :: properties) c =
      (failurePoint env list properties c).map fun p => (p.1 + 1, p.2) := by
  have hread : ¬(shadowVersion property.2).isNone := by
    simpa [Option.isSome_iff_ne_none] using hversion
  rw [failurePoint, if_neg hread, hnone, List.isEmpty_nil, if_pos rfl]

theorem failurePoint_appended (env : Env) (properties : List (String × CJson)) (c : Cursor)
    (hversion : (shadowVersion property.2).isSome)
    (hsome : deletionOf property ++ requestOf list property ≠ []) :
    failurePoint env list (property :: properties) c =
      match allocateEntry env property.1 c with
      | .error failure => some (0, failure)
      | .ok c => (failurePoint env list properties c).map fun p => (p.1 + 1, p.2) := by
  have hread : ¬(shadowVersion property.2).isNone := by
    simpa [Option.isSome_iff_ne_none] using hversion
  have hentry : ¬(deletionOf property ++ requestOf list property).isEmpty := by
    rwa [List.isEmpty_iff]
  rw [failurePoint, if_neg hread, if_neg hentry]

/-- The failing point of the rest is no push when the one of the whole is none. -/
theorem not_push_of_map {point : Option (ℕ × ListFailure)}
    (h : ∀ k, (point.map fun p => (p.1 + 1, p.2)) ≠ some (k, .push)) (k : ℕ) :
    point ≠ some (k, .push) := by
  rintro rfl
  exact h (k + 1) rfl

/-- **Failures that are clean**: those of a version and those of a copy. -/
theorem cleanRun_of_not_push (hids : ∀ info ∈ lists.list, info.ruleId.isSome)
    (h : ∀ k, failurePoint env lists.list properties c ≠ some (k, .push)) :
    CleanRun env lists properties c := by
  induction properties generalizing lists c with
  | nil =>
    refine ⟨c, ?_⟩
    rw [withEntries_nil]
    rfl
  | cons property properties ih =>
    rcases getRuleInfoListStep_round hids property with
      ⟨hversion, hstep⟩ | ⟨hversion, hnone, hstep⟩ |
      @⟨hversion, hsome, version, target, put, hstep, hput, hentry, -⟩
    · exact cleanRun_done (by rw [hstep]; rfl) (failurePoint_unreadable lists.list c hversion)
    · have hpoint := failurePoint_skipped env properties c hversion hnone
      rw [hpoint] at h
      exact cleanRun_cons (by rw [hstep]; rfl) hpoint (ih hids (not_push_of_map h))
    · have hpoint := failurePoint_appended env properties c hversion hsome
      have hpush := pushRuleId_spec env target property.1 version c
      have hround := congrFun (congrFun hstep env) c
      rw [bind_apply] at hround
      generalize allocateEntry env property.1 c = allocated at hpoint hpush
      generalize pushRuleId target (some property.1) version env c = pushed at hround hpush
      cases hpush with
      | ok =>
        dsimp only at hpoint
        rw [hpoint] at h
        refine cleanRun_cons ?_ hpoint (ih hids (not_push_of_map h))
        rw [hround, ← hentry]
        rfl
      | @copy c' =>
        have hdone : getRuleInfoListStep (some property.1, property.2) lists env c =
            some (.done lists, c') := by
          rw [hround, ← hput]
          rfl
        exact cleanRun_done hdone hpoint
      | outside => exact absurd hpoint (h 0)
      | lost _ => exact absurd hpoint (h 0)

/-- **Failures that are not clean**: a run that fails at a push runs a destructor in front of a
list, or leaves fewer entries than those of the properties before. -/
theorem lost_of_push (hids : ∀ info ∈ lists.list, info.ruleId.isSome) {k : ℕ}
    (h : failurePoint env lists.list properties c = some (k, .push)) :
    getRuleInfoList (some (.object properties)) lists env c = none ∨
      ∃ lists' c', getRuleInfoList (some (.object properties)) lists env c =
          some (.done lists', c') ∧
        lists'.entries < (withEntries lists (properties.take k)).entries := by
  induction properties generalizing lists c k with
  | nil => cases h
  | cons property properties ih =>
    -- A round that goes on leaves the rest of the run with the entry of the property.
    have hrest {c' : Cursor}
        (hstep : getRuleInfoListStep (some property.1, property.2) lists env c =
          some (.yield (withEntries lists [property]), c'))
        (hpoint : ((failurePoint env lists.list properties c').map fun p => (p.1 + 1, p.2)) =
          some (k, .push)) :
        getRuleInfoList (some (.object (property :: properties))) lists env c = none ∨
          ∃ lists' c', getRuleInfoList (some (.object (property :: properties))) lists env c =
              some (.done lists', c') ∧
            lists'.entries < (withEntries lists ((property :: properties).take k)).entries := by
      obtain ⟨⟨j, failure⟩, hj, hk⟩ := Option.map_eq_some_iff.mp hpoint
      obtain ⟨rfl, rfl⟩ := Prod.mk.inj hk
      have hlost := @ih (withEntries lists [property]) c' hids j hj
      rw [getRuleInfoList_cons_yield hstep, List.take_succ_cons,
        withEntries_cons lists property (properties.take j)]
      exact hlost
    rcases getRuleInfoListStep_round hids property with
      ⟨hversion, -⟩ | ⟨hversion, hnone, hstep⟩ |
      @⟨hversion, hsome, version, target, put, hstep, hput, hentry, hless⟩
    · rw [failurePoint_unreadable lists.list c hversion] at h
      cases h
    · rw [failurePoint_skipped env properties c hversion hnone] at h
      exact hrest (by rw [hstep]; rfl) h
    · rw [failurePoint_appended env properties c hversion hsome] at h
      have hpush := pushRuleId_spec env target property.1 version c
      have hround := congrFun (congrFun hstep env) c
      rw [bind_apply] at hround
      generalize allocateEntry env property.1 c = allocated at h hpush
      generalize pushRuleId target (some property.1) version env c = pushed at hround hpush
      cases hpush with
      | ok =>
        refine hrest ?_ h
        rw [hround, ← hentry]
        rfl
      | copy => cases h
      | outside => exact Or.inl (getRuleInfoList_cons_none hround)
      | @lost list' c' hlt =>
        obtain ⟨rfl, -⟩ := Prod.mk.inj (Option.some.inj h)
        rw [List.take_zero, withEntries_nil]
        exact Or.inr ⟨put list', c', getRuleInfoList_cons_done hround, hless _ hlt⟩

end Run

/-- **`GetRuleInfoList` fails cleanly exactly when it does not fail at a push.**  A store's rules
have ids.  A version that cannot be read and an id that cannot be copied leave the entries of the
properties before them. -/
theorem getRuleInfoList_clean_iff (env : Env) (lists : RuleLists)
    (properties : List (String × CJson)) (c : Cursor)
    (hids : ∀ info ∈ lists.list, info.ruleId.isSome) :
    CleanRun env lists properties c ↔
      ∀ k, failurePoint env lists.list properties c ≠ some (k, .push) := by
  refine ⟨?_, cleanRun_of_not_push hids⟩
  intro hclean k hpush
  unfold CleanRun at hclean
  rw [hpush] at hclean
  obtain ⟨c', hrun⟩ := hclean
  rcases lost_of_push hids hpush with hnone | ⟨lists', c'', hdone, hlt⟩
  · rw [hrun] at hnone
    cases hnone
  · rw [hrun] at hdone
    have hlists : withEntries lists (properties.take k) = lists' := by
      injection (Prod.mk.inj (Option.some.inj hdone)).1
    rw [hlists] at hlt
    exact absurd hlt (lt_irrefl _)

/-- A shadow that marks two rules. -/
def markTwo : List (String × CJson) :=
  [("a", .object [("version", .number (-1))]), ("b", .object [("version", .number (-1))])]

/-- The allocation that constructs the second entry fails. -/
def secondRuleFails : Env := { Env.plentiful with mallocs := fun i => i != 5 }

theorem getRuleInfoList_clean_iff_markTwo :
    CleanRun { Env.plentiful with mallocs := fun i => i != 7 }
      { list := [idOnly "a" 3] } markTwo default := by
  refine (getRuleInfoList_clean_iff _ { list := [idOnly "a" 3] } markTwo default ?_).mpr ?_
  · intro info hinfo
    rw [List.mem_singleton.mp hinfo]
    rfl
  · have hpoint : failurePoint { Env.plentiful with mallocs := fun i => i != 7 } [idOnly "a" 3]
        markTwo default = some (1, .copy) := by
      decide +kernel
    intro k hk
    rw [hpoint] at hk
    cases hk

/-- The push for the second rule fails, and the entry of the first is gone. -/
theorem failed_push_loses_entry :
    ¬∀ (env : Env) (lists : RuleLists) (properties : List (String × CJson)) (c : Cursor),
      (∀ info ∈ lists.list, info.ruleId.isSome) → CleanRun env lists properties c := by
  intro hclaim
  have hclean := hclaim secondRuleFails { list := [] } markTwo default (by simp)
  have hpoint : failurePoint secondRuleFails [] markTwo default = some (1, .push) := by
    decide +kernel
  unfold CleanRun at hclean
  rw [hpoint] at hclean
  obtain ⟨c', hrun⟩ := hclean
  have hleft : (getRuleInfoList (some (.object markTwo)) { list := [] } secondRuleFails
      default).map (fun r => (stepValue r.1).delList.length) = some 0 := by
    decide +kernel
  rw [hrun] at hleft
  exact absurd (show 1 = 0 from Option.some.inj hleft) one_ne_zero

end IotDeviceSdk.DeviceRule
