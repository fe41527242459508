import IotDeviceSdk.DeviceRule.Equiv.RuleDetermined
import IotDeviceSdk.DeviceRule.Equiv.RuleStore

/-!
# A message merges into the store

When every entry of a message parses, `ParseDeviceRuleWithHook` is the merge of a store of
versioned items (`insertNewer`, keyed by rule id): for each id the store then holds the winner
among the stored rule and the entries of that id.

The order of the entries and how they are split over messages do not matter.  The argument compares
the runs on *candidates*, a stored rule or an entry not parsed yet, because parsing one entry twice
may give two rules: a timestamp with missing components takes them from uninitialised memory.
-/

namespace IotDeviceSdk.DeviceRule

open CJson Prog VersionedStore

variable {env : Env} {τ : Type} {hook : Option (ParseDeviceRuleHook τ)} {I : τ → Prop}
  {infos : List RuleInfo} {target : Option τ} {paras : Option CJson}

/-- `ParseSingleRule` succeeds on the entry. -/
def Parses (env : Env) (rule : CJson) : Prop :=
  Returns env (parseSingleRule {} rule) fun result => result.2 = 0

theorem Parses.exists_parsedFrom {rule : CJson} (h : Parses env rule) :
    ∃ info : RuleInfo, info.ParsedFrom rule := by
  obtain ⟨⟨info, result⟩, hout, rfl⟩ := Returns.exists_outcome h
  exact ⟨info, env, hout⟩

theorem RuleInfo.ParsedFrom.readable {info : RuleInfo} {rule : CJson} (h : info.ParsedFrom rule) :
    ¬(getString (some rule) "ruleId" = none ∨ entryVersion rule = none) := by
  have hread := h.readFrom
  rintro (hnone | hnone)
  · have hid := hread.wellFormed.ruleId
    rw [hread.ruleId, hnone] at hid
    simp at hid
  · have hversion := hread.version
    rw [← entryVersion, hnone] at hversion
    simp at hversion

theorem Parses.accepted {rule : CJson} (h : Parses env rule) (hA : env.AllocsSucceed) :
    ruleAccepted rule = true := by
  obtain ⟨result, hout, h0⟩ := Returns.exists_outcome h
  have hans := (parseSingleRule_returns rule).yields result hout
  exact (hans.2 hA).mp h0

theorem parses_of_accepted {rule : CJson} (hA : env.AllocsSucceed)
    (h : ruleAccepted rule = true) : Parses env rule :=
  (parseSingleRule_returns rule).mono fun _ hans => (hans.2 hA).mpr h

/-! ### The run is a fold of `insertNewer` -/

/-- The rules are what `ParseSingleRule` makes of the entries, one by one. -/
abbrev AllParsedFrom (rules : List CJson) (parsed : List RuleInfo) : Prop :=
  List.Forall₂ (fun rule (info : RuleInfo) => info.ParsedFrom rule) rules parsed

/-- The store after the rules arrived one by one. -/
abbrev merge (infos parsed : List RuleInfo) : List RuleInfo :=
  parsed.foldl (insertNewer RuleInfo.ruleId RuleInfo.ruleVersionInShadow) infos

/-- An entry that parses never ends the message, and is inserted when it is newer. -/
theorem EntryOutcome.merge {rule : CJson} {r : ForInStep (List RuleInfo × Option τ)}
    (h : EntryOutcome env hook rule infos target r) (hinfos : DistinctIds infos)
    (hA : env.AllocsSucceed) (hrule : Parses env rule) :
    ∃ info state, info.ParsedFrom rule ∧ r = .yield state ∧
      state.1 = insertNewer RuleInfo.ruleId RuleInfo.ruleVersionInShadow infos info := by
  obtain ⟨some', hsome'⟩ := hrule.exists_parsedFrom
  have hread := hsome'.readFrom
  cases h with
  | unreadable hnone => exact absurd hnone hsome'.readable
  | @stale ruleId version old hid hversion hold hk hle =>
    -- the entry is not parsed in this run, so any rule made of it will do
    refine ⟨some', _, hsome', rfl, ?_⟩
    have hv : version = some'.ruleVersionInShadow :=
      Option.some.inj (hversion.symm.trans hread.version)
    have hkey : old.ruleId = some'.ruleId := by rw [hk, hread.ruleId, hid]
    rw [insertNewer_of_stale hinfos.nodup hold hkey (hv ▸ hle)]
  | @inserted ruleId version info target' hid hversion hnew _ hinfo _ =>
    refine ⟨info, _, hinfo, rfl, ?_⟩
    have hv : version = info.ruleVersionInShadow :=
      Option.some.inj (hversion.symm.trans hinfo.readFrom.version)
    have hkey : info.ruleId = some ruleId := hinfo.readFrom.ruleId.trans hid
    rw [insertNewer_of_forall_lt hinfos.nodup, hkey]
    intro x hx hxk
    rw [← hv]
    exact hnew x hx (hxk.trans hkey)
  | rejected _ _ _ _ hacc =>
    have hyes := hrule.accepted hA
    rw [hacc hA] at hyes
    exact absurd hyes (by decide)

theorem forEach_merge {rules : List CJson} (hA : env.AllocsSucceed) (hinfos : DistinctIds infos)
    (hhook : HookKeeps env hook I) (ht : ∀ t ∈ target, I t)
    (hrules : ∀ rule ∈ rules, Parses env rule) :
    Returns env (forEach (parseDeviceRuleStep hook) rules (infos, target)) fun r =>
      DistinctIds (stepValue r).1 ∧ (∀ t ∈ (stepValue r).2, I t) ∧
        ∃ parsed, AllParsedFrom rules parsed ∧ (stepValue r).1 = merge infos parsed := by
  induction rules generalizing infos target with
  | nil => exact returns_pure ⟨hinfos, ht, [], List.Forall₂.nil, rfl⟩
  | cons rule rules ih =>
    apply (parseDeviceRuleStep_returns hinfos hhook ht).bind
    intro r hr
    have hdistinct := hr.1.distinctIds hinfos
    -- the loop goes on with the store the abstract insertion gives
    obtain ⟨info, ⟨infos', target'⟩, hinfo, rfl, rfl⟩ :=
      hr.1.merge hinfos hA (hrules rule (by simp))
    apply (ih hdistinct hr.2 fun x hx => hrules x (by simp [hx])).mono
    intro r' hr'
    obtain ⟨hdistinct', ht', parsed, hparsed, heq⟩ := hr'
    exact ⟨hdistinct', ht', info :: parsed, List.Forall₂.cons hinfo hparsed, heq⟩

theorem parseDeviceRuleWithHook_foldl (hA : env.AllocsSucceed) (hinfos : DistinctIds infos)
    (hhook : HookKeeps env hook I) (ht : ∀ t ∈ target, I t)
    (hrules : ∀ rule ∈ rulesInfos paras, Parses env rule) :
    Returns env (parseDeviceRuleWithHook hook paras (infos, target)) fun state =>
      DistinctIds state.1 ∧ (∀ t ∈ state.2, I t) ∧
        ∃ parsed, AllParsedFrom (rulesInfos paras) parsed ∧ state.1 = merge infos parsed :=
  (forEach_merge hA hinfos hhook ht hrules).bind fun _ hr => returns_pure hr

/-- Several messages one after the other are one fold over all their entries. -/
theorem messages_foldl {messages : List (Option CJson)} (hA : env.AllocsSucceed)
    (hinfos : DistinctIds infos) (hhook : HookKeeps env hook I) (ht : ∀ t ∈ target, I t)
    (hrules : ∀ rule ∈ messages.flatMap rulesInfos, Parses env rule) :
    Returns env (messages.foldlM (fun state paras => parseDeviceRuleWithHook hook paras state)
      (infos, target)) fun state =>
        ∃ parsed, AllParsedFrom (messages.flatMap rulesInfos) parsed ∧
          state.1 = merge infos parsed := by
  induction messages generalizing infos target with
  | nil => exact returns_pure ⟨[], List.Forall₂.nil, rfl⟩
  | cons paras messages ih =>
    rw [List.foldlM_cons]
    rw [List.flatMap_cons] at hrules
    -- the entries of the first message, then those of the others
    have hfirst : ∀ rule ∈ rulesInfos paras, Parses env rule :=
      fun rule hrule => hrules rule (List.mem_append_left _ hrule)
    apply (parseDeviceRuleWithHook_foldl hA hinfos hhook ht hfirst).bind
    intro state hstate
    obtain ⟨infos', target'⟩ := state
    obtain ⟨hinfos', ht', parsed, hparsed, heq⟩ := hstate
    have hrest : ∀ rule ∈ messages.flatMap rulesInfos, Parses env rule :=
      fun rule hrule => hrules rule (List.mem_append_right _ hrule)
    apply (ih hinfos' ht' hrest).mono
    intro state' hstate'
    obtain ⟨parsed', hparsed', heq'⟩ := hstate'
    refine ⟨parsed ++ parsed', ?_, ?_⟩
    · rw [List.flatMap_cons]
      exact List.rel_append hparsed hparsed'
    · dsimp only at heq
      rw [heq', heq, merge, merge, merge, List.foldl_append]

/-! ### A second delivery -/

/-- Two lists related to the same list item by item. -/
theorem forall₂_of_common {α β γ : Type} {R : α → β → Prop} {S : α → γ → Prop} {xs : List α}
    {ys : List β} {zs : List γ} (hR : List.Forall₂ R xs ys) (hS : List.Forall₂ S xs zs) :
    List.Forall₂ (fun y z => ∃ x, R x y ∧ S x z) ys zs := by
  induction hR generalizing zs with
  | nil =>
    cases hS
    exact List.Forall₂.nil
  | @cons x y xs ys hxy _ ih =>
    cases hS with
    | cons hxz hrest => exact List.Forall₂.cons ⟨x, hxy, hxz⟩ (ih hrest)

/-- Rules read from the same entries as the merged ones find themselves in the store. -/
theorem merge_again {rules : List CJson} {parsed parsed' : List RuleInfo}
    (hinfos : DistinctIds infos) (hparsed : AllParsedFrom rules parsed)
    (hparsed' : AllParsedFrom rules parsed') :
    merge (merge infos parsed) parsed' = merge infos parsed := by
  refine foldl_insertNewer_of_forall_stale (nodup_foldl_insertNewer _ hinfos.nodup _) ?_
  intro info' hinfo'
  -- the entry of `info'` gave a rule of the same id and version in the first run
  have htwice := forall₂_of_common hparsed hparsed'
  obtain ⟨info, hinfo, rule, hrule, hrule'⟩ : ∃ info ∈ parsed, ∃ rule,
      info.ParsedFrom rule ∧ info'.ParsedFrom rule := by
    obtain ⟨i, hi, rfl⟩ := List.getElem_of_mem hinfo'
    have hlen := htwice.length_eq
    exact ⟨parsed[i], List.getElem_mem _, htwice.get (hlen ▸ hi) hi⟩
  have hk : info.ruleId = info'.ruleId := hrule.readFrom.ruleId.trans hrule'.readFrom.ruleId.symm
  have hv : info.ruleVersionInShadow = info'.ruleVersionInShadow :=
    hrule.version_eq hrule'.readFrom.version
  -- so its id has a winner that is as new
  obtain ⟨w, hw, hwk⟩ := exists_isWinner RuleInfo.ruleId RuleInfo.ruleVersionInShadow
    (List.mem_append_right infos hinfo)
  refine ⟨w, (mem_foldl_insertNewer hinfos.nodup).mpr hw, hwk.trans hk, ?_⟩
  rw [← hv]
  exact hw.ver_le (List.mem_append_right _ hinfo) hwk.symm

/-! ### Splits and permutations -/

/-- No two different entries share id and version. -/
def Unambiguous (rules : List CJson) : Prop :=
  ∀ a ∈ rules, ∀ b ∈ rules, getString (some a) "ruleId" = getString (some b) "ruleId" →
    entryVersion a = entryVersion b → a = b

/-- The rules are the same one, or made of the same entry. -/
def SameRule (rules : List CJson) (info info' : RuleInfo) : Prop :=
  info = info' ∨ ∃ rule ∈ rules, info.ParsedFrom rule ∧ info'.ParsedFrom rule

/-- The stores hold the same rules up to order. -/
def SameStore (rules : List CJson) (infos infos' : List RuleInfo) : Prop :=
  ∃ l : List RuleInfo, List.Forall₂ (SameRule rules) infos l ∧ l.Perm infos'

/-- The id of a stored rule or of an entry. -/
def candidateId : RuleInfo ⊕ CJson → Option String :=
  Sum.elim RuleInfo.ruleId fun rule => getString (some rule) "ruleId"

/-- The version of a stored rule or of an entry. -/
def candidateVersion : RuleInfo ⊕ CJson → ℤ :=
  Sum.elim RuleInfo.ruleVersionInShadow fun rule => (entryVersion rule).getD 0

/-- What a candidate is in the store: itself, or a rule made of the entry. -/
def Realizes (rules : List CJson) : RuleInfo ⊕ CJson → RuleInfo → Prop
  | .inl old, info => info = old
  | .inr rule, info => rule ∈ rules ∧ info.ParsedFrom rule

theorem Realizes.key_ver {rules : List CJson} {c : RuleInfo ⊕ CJson} {info : RuleInfo}
    (h : Realizes rules c info) :
    candidateId c = info.ruleId ∧ candidateVersion c = info.ruleVersionInShadow := by
  cases c with
  | inl old =>
    obtain rfl : info = old := h
    exact ⟨rfl, rfl⟩
  | inr rule =>
    have hread := h.2.readFrom
    refine ⟨hread.ruleId.symm, ?_⟩
    have hversion : entryVersion rule = some info.ruleVersionInShadow := hread.version
    show (entryVersion rule).getD 0 = info.ruleVersionInShadow
    rw [hversion, Option.getD_some]

/-- The store of candidates after the entries arrived. -/
def mergeCandidates (infos : List RuleInfo) (rules : List CJson) : List (RuleInfo ⊕ CJson) :=
  (rules.map Sum.inr).foldl (insertNewer candidateId candidateVersion) (infos.map Sum.inl)

/-- **Simulation**: the store holds the candidates the abstract store holds, in the same order. -/
theorem merge_realizes (infos : List RuleInfo) {rules rules' : List CJson}
    {parsed : List RuleInfo} (hsub : ∀ rule ∈ rules', rule ∈ rules)
    (hparsed : AllParsedFrom rules' parsed) :
    List.Forall₂ (Realizes rules) (mergeCandidates infos rules') (merge infos parsed) := by
  refine forall₂_foldl_insertNewer (fun _ _ h => h.key_ver) ?_ ?_
  · rw [List.forall₂_map_left_iff, List.forall₂_same]
    exact fun _ _ => rfl
  · rw [List.forall₂_map_left_iff]
    exact (List.forall₂_and_left _ _).mpr ⟨hsub, hparsed⟩

/-- The order in which unambiguous entries arrive does not matter. -/
theorem merge_perm {rules rules' : List CJson} {parsed parsed' : List RuleInfo}
    (hinfos : DistinctIds infos) (hperm : rules'.Perm rules) (hunamb : Unambiguous rules)
    (hparsed : AllParsedFrom rules parsed) (hparsed' : AllParsedFrom rules' parsed') :
    SameStore rules (merge infos parsed) (merge infos parsed') := by
  have hversion : ∀ rule ∈ rules, ∃ version, entryVersion rule = some version := by
    intro rule hrule
    obtain ⟨i, hi, rfl⟩ := List.getElem_of_mem hrule
    have hlen := hparsed.length_eq
    exact ⟨_, (hparsed.get hi (hlen ▸ hi)).readFrom.version⟩
  have hcandidates : (mergeCandidates infos rules').Perm (mergeCandidates infos rules) := by
    refine (foldl_insertNewer_perm ?_ ?_ ?_).symm
    · rw [List.map_map]
      exact hinfos.nodup
    · intro c
      exact (hperm.map Sum.inr).mem_iff.symm
    · intro x hx y hy hk hv
      obtain ⟨a, ha, rfl⟩ := List.mem_map.mp hx
      obtain ⟨b, hb, rfl⟩ := List.mem_map.mp hy
      obtain ⟨va, hva⟩ := hversion a ha
      obtain ⟨vb, hvb⟩ := hversion b hb
      have hvv : va = vb := by simpa [candidateVersion, hva, hvb] using hv
      rw [hunamb a ha b hb hk (by rw [hva, hvb, hvv])]
  have hreal := merge_realizes infos (fun _ h => h) hparsed
  have hreal' := merge_realizes infos (fun rule h => hperm.mem_iff.mp h) hparsed'
  obtain ⟨l, hl, hlperm⟩ := List.perm_comp_forall₂ hcandidates.symm hreal'
  -- `l` realises the candidates of the first run in the order of the first run
  refine ⟨l, (forall₂_of_common hreal hl).imp fun info info' h => ?_, hlperm⟩
  obtain ⟨c, hc, hc'⟩ := h
  cases c with
  | inl old => exact Or.inl (Eq.trans hc (Eq.symm hc'))
  | inr rule => exact Or.inr ⟨rule, hc.1, hc.2, hc'.2⟩

theorem SameStore.perm {rules : List CJson} {infos infos' : List RuleInfo}
    (h : SameStore rules infos infos') (hrules : ∀ rule ∈ rules, Determined rule) :
    infos.Perm infos' := by
  obtain ⟨l, hl, hperm⟩ := h
  have heq : List.Forall₂ (· = ·) infos l := by
    refine hl.imp fun info info' hsame => ?_
    rcases hsame with heq | ⟨rule, hrule, hinfo, hinfo'⟩
    · exact heq
    · exact hrules rule hrule info info' hinfo hinfo'
  rw [List.forall₂_eq_eq_eq] at heq
  rwa [heq]

/-- **A message that parses merges into the store.**  For each id the store then holds exactly one
rule, the one of highest version among the stored rule and the entries, stored before entry and
earlier before later entry among equals; delivering the message again changes nothing; and every
way to split and to order unambiguous entries leaves the same store up to order. -/
theorem parseDeviceRuleWithHook_merge (hA : env.AllocsSucceed) (hinfos : DistinctIds infos)
    (hhook : HookKeeps env hook I) (ht : ∀ t ∈ target, I t)
    (hrules : ∀ rule ∈ rulesInfos paras, Parses env rule) :
    Returns env (parseDeviceRuleWithHook hook paras (infos, target)) fun state =>
      (DistinctIds state.1 ∧ ∃ parsed, AllParsedFrom (rulesInfos paras) parsed ∧
        (∀ x ∈ infos ++ parsed, ∃ info ∈ state.1, info.ruleId = x.ruleId) ∧
        ∀ info, info ∈ state.1 ↔
          IsWinner RuleInfo.ruleId RuleInfo.ruleVersionInShadow (infos ++ parsed) info) ∧
      Returns env (parseDeviceRuleWithHook hook paras state) (fun again => again.1 = state.1) ∧
      ∀ messages : List (Option CJson), (messages.flatMap rulesInfos).Perm (rulesInfos paras) →
        Unambiguous (rulesInfos paras) →
          Returns env (messages.foldlM (fun state paras => parseDeviceRuleWithHook hook paras state)
            (infos, target)) fun split =>
              SameStore (rulesInfos paras) state.1 split.1 ∧
                ((∀ rule ∈ rulesInfos paras, timestampsComplete rule = true) →
                  state.1.Perm split.1) := by
  apply (parseDeviceRuleWithHook_foldl hA hinfos hhook ht hrules).mono
  intro state hstate
  obtain ⟨infos', target'⟩ := state
  obtain ⟨hinfos', ht', parsed, hparsed, heq⟩ := hstate
  dsimp only at hinfos' ht' heq ⊢
  have hmem : ∀ info, info ∈ infos' ↔
      IsWinner RuleInfo.ruleId RuleInfo.ruleVersionInShadow (infos ++ parsed) info := by
    intro info
    rw [heq]
    exact mem_foldl_insertNewer hinfos.nodup
  refine ⟨⟨hinfos', parsed, hparsed, fun x hx => ?_, hmem⟩, ?_, fun messages hperm hunamb => ?_⟩
  · -- every id has a winner
    obtain ⟨w, hw, hwk⟩ := exists_isWinner RuleInfo.ruleId RuleInfo.ruleVersionInShadow hx
    exact ⟨w, (hmem w).mpr hw, hwk⟩
  · -- the same entries again
    apply (parseDeviceRuleWithHook_foldl hA hinfos' hhook ht' hrules).mono
    intro again hagain
    obtain ⟨-, -, parsed', hparsed', heq'⟩ := hagain
    rw [heq', heq, merge_again hinfos hparsed hparsed']
  · -- another split and another order of them
    have hsplit : ∀ rule ∈ messages.flatMap rulesInfos, Parses env rule :=
      fun rule hrule => hrules rule (hperm.mem_iff.mp hrule)
    apply (messages_foldl hA hinfos hhook ht hsplit).mono
    intro split hs
    obtain ⟨parsed', hparsed', heq'⟩ := hs
    have hsame : SameStore (rulesInfos paras) infos' split.1 := by
      rw [heq, heq']
      exact merge_perm hinfos hperm hunamb hparsed hparsed'
    refine ⟨hsame, fun hcomplete => hsame.perm fun rule hrule => ?_⟩
    exact determined_of_timestampsComplete (hcomplete rule hrule)

/-- A message that updates rule `a` twice and adds rule `b`. -/
def twoVersionsMessage : CJson :=
  ruleMessage [bareEntry "a" 2 .null, bareEntry "b" 1 .null, bareEntry "a" 3 .null]

theorem parseDeviceRuleWithHook_merge_twoVersions :
    Returns Env.plentiful (parseDeviceRuleWithHook (none : Option (ParseDeviceRuleHook Unit))
      (some twoVersionsMessage) ([{ ruleId := some "a", ruleVersionInShadow := 1 }], none))
      fun state => DistinctIds state.1 ∧
        Returns Env.plentiful (parseDeviceRuleWithHook (none : Option (ParseDeviceRuleHook Unit))
          (some twoVersionsMessage) state) fun again => again.1 = state.1 := by
  have hdistinct : DistinctIds [{ ruleId := some "a", ruleVersionInShadow := 1 }] :=
    ⟨by simp, by simp⟩
  have haccepted : ∀ rule ∈ rulesInfos (some twoVersionsMessage), ruleAccepted rule = true := by
    decide +kernel
  have hhook : HookKeeps Env.plentiful (none : Option (ParseDeviceRuleHook Unit))
      (fun _ => True) := hookKeeps_none
  have htarget : ∀ t ∈ (none : Option Unit), True := fun _ _ => trivial
  have hmerge := parseDeviceRuleWithHook_merge Env.plentiful_allocsSucceed hdistinct hhook htarget
    fun rule hrule => parses_of_accepted Env.plentiful_allocsSucceed (haccepted rule hrule)
  exact hmerge.mono fun state h => ⟨h.1.1, h.2.1⟩

end IotDeviceSdk.DeviceRule
