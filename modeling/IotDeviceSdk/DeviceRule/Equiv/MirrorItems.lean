import IotDeviceSdk.CJson.Equiv.ChildrenRun
import IotDeviceSdk.DeviceRule.MirrorItems
import IotDeviceSdk.DeviceRule.RuleManager
import IotDeviceSdk.Prog.Simulates

/-!
# The mirror of the rules as items

* `wrapMirror_defined_iff`: printing the mirror leaves its items as they are, but a key that cannot
  be copied makes `cJSON_DetachItemViaPointer` read through `NULL`, as `ruleJSONObjSaveToFile` says.
* `delItemById_holdsRest`: `RuleJSONObjDelById` on items does what it does on the list of entries.
-/

namespace IotDeviceSdk.DeviceRule

open CJson Json Json.Nodes Prog

variable {s : Nodes} {t : Lists} {mirror : ℕ}

/-! ### Printing the mirror -/

/-- What wrapping the mirror leaves. -/
def Unwrapped (t : Lists) (s' : Nodes) : Prop :=
  ∃ t' : Lists, Represents s' t' ∧ t'.below = t.below

/-- Taking out an item that has just been added. -/
theorem below_detach_add {root : ℕ} (hroot : t.below root = []) (hne : root ≠ mirror) :
    ((t.add root mirror).2.detach root mirror).below = t.below := by
  unfold Lists.detach Lists.add Lists.setBelow
  rw [if_neg hne]
  show Function.update (Function.update t.below root (t.below root ++ [mirror])) root
    ((Function.update t.below root (t.below root ++ [mirror]) root).erase mirror) = t.below
  rw [Function.update_idem, Function.update_self, hroot, List.nil_append, List.erase_cons_head,
    ← hroot, Function.update_eq_self]

/-- The mirror has not been added, and taking it out of the object reads through `NULL`. -/
theorem wrapMirror_refused {root : ℕ} (h : Represents s t) (hmirror : t.IsFree mirror)
    (hempty : t.below root = []) : wrapMirror (some root) false mirror s = none := by
  have hchild : s.child root = none := by
    rw [(h.children root).child, hempty]
    rfl
  have hrefused : (root = mirror || !false) = true := by simp
  simp only [wrapMirror, addItemToObject, if_pos hrefused, detachItemViaPointer, skipItem, hchild,
    reduceCtorEq, if_false, (h.free mirror hmirror).2, Option.map_none, Option.bind_eq_bind,
    Option.bind_none]

/-- The mirror is added, and taken out again. -/
theorem wrapMirror_copied {root : ℕ} (h : Represents s t) (hmirror : t.IsFree mirror)
    (hempty : t.below root = []) (hne : root ≠ mirror) :
    ∃ s', wrapMirror (some root) true mirror s = some s' ∧ Unwrapped t s' := by
  have haccepted : ¬(root = mirror || !true) = true := by simpa using hne
  obtain ⟨s₁, hadd, h₁⟩ := (h.setString mirror (some "rulesInfos")).add root hmirror
  have hmem : mirror ∈
      ((t.setString mirror (some "rulesInfos")).add root mirror).2.below root := by
    rw [Lists.add, if_neg hne]
    show mirror ∈ Function.update t.below root (t.below root ++ [mirror]) root
    rw [Function.update_self]
    exact List.mem_append_right _ (List.mem_singleton_self mirror)
  obtain ⟨s', hdetach, h'⟩ := h₁.detach hmem
  refine ⟨s', ?_, _, h', ?_⟩
  · simp only [wrapMirror, addItemToObject, if_neg haccepted, hadd, hdetach, Option.bind_eq_bind,
      Option.bind_some]
    rfl
  · exact @below_detach_add (t.setString mirror (some "rulesInfos")) mirror root hempty hne

/-- **Printing the mirror** is defined exactly when there is no object for it or its key can be
copied, and leaves the lists as they are. -/
theorem wrapMirror_defined_iff {root : Option ℕ} {copied : Bool} (h : Represents s t)
    (hmirror : t.IsFree mirror) (hroot : ∀ a ∈ root, t.below a = [] ∧ a ≠ mirror) :
    (∃ s', wrapMirror root copied mirror s = some s' ∧ Unwrapped t s') ↔
      (root = none ∨ copied = true) := by
  cases root with
  | none =>
    refine iff_of_true ⟨s, rfl, t, h, rfl⟩ (.inl rfl)
  | some root =>
    obtain ⟨hempty, hne⟩ := hroot root rfl
    cases copied with
    | false =>
      refine iff_of_false ?_ (by simp)
      rintro ⟨s', hs', -⟩
      rw [wrapMirror_refused h hmirror hempty] at hs'
      cases hs'
    | true => exact iff_of_true (wrapMirror_copied h hmirror hempty hne) (.inr rfl)

/-- The mirror is the item 1, and the items 2 and 4 are its entries. -/
def twoEntries : List Op := [.addItemToArray 1 2, .addItemToArray 1 4]

/-- An object whose key cannot be copied, and one whose key can: the mirror has its two entries
afterwards. -/
theorem wrapMirror_defined_iff_key :
    ∃ answers s, runAll twoEntries Nodes.empty = some (answers, s) ∧
      (¬∃ s', wrapMirror (some 3) false 1 s = some s' ∧
        Unwrapped (applyAll twoEntries Lists.empty).2 s') ∧
      ∃ s', wrapMirror (some 3) true 1 s = some s' ∧
        s'.getArraySize 2 (some 1) = some 2 ∧ s'.getArrayItem (some 1) 1 = some 4 := by
  have hempty : Lists.empty.OnlyBelowOne := fun _ _ => rfl
  have hfirst := hempty.setBelow [2]
  have hboth : (applyAll twoEntries Lists.empty).2.OnlyBelowOne := hfirst.setBelow [2, 4]
  have hadmits : AdmitsAll twoEntries Lists.empty :=
    ⟨⟨id, hempty.isFree (by decide), id⟩, ⟨id, hfirst.isFree (by decide), id⟩, trivial⟩
  obtain ⟨s, hrun, h⟩ := represents_runAll represents_empty hadmits
  have hfree : (applyAll twoEntries Lists.empty).2.IsFree 1 := hboth.isFree (by decide)
  have hroot : ∀ a ∈ some 3, (applyAll twoEntries Lists.empty).2.below a = [] ∧ a ≠ 1 := by
    rintro a hroot
    obtain rfl := Option.some.inj hroot
    exact ⟨hboth 3 (by decide), by decide⟩
  refine ⟨_, s, hrun, fun hdefined => ?_, ?_⟩
  · exact absurd ((wrapMirror_defined_iff h hfree hroot).mp hdefined) (by simp)
  · obtain ⟨s', hs', t', h', hbelow⟩ := (wrapMirror_defined_iff h hfree hroot).mpr (.inr rfl)
    have hentries : t'.below 1 = [2, 4] := by
      rw [hbelow]
      rfl
    have hreads := h'.reads 1
    refine ⟨s', hs', ?_, ?_⟩
    · rw [hreads.getArraySize 2 (by rw [hentries]; rfl), hentries]
      rfl
    · rw [hreads.getArrayItem, hentries]
      rfl

/-! ### Taking an entry out -/

theorem go_cons (ruleId : String) (rule : CJson) (rules : List CJson) :
    ruleJSONObjDelById.go ruleId (rule :: rules) =
      strcmpEq (getString rule "ruleId") ruleId >>= fun found =>
        if found then pure rules
        else ruleJSONObjDelById.go ruleId rules >>= fun rest => pure (rule :: rest) := by
  rw [ruleJSONObjDelById.go]

/-- The items `s'` hold the mirror with the entries `rules`, which are some of those of `t`, and the
other lists of `t`. -/
def HoldsRest (t : Lists) (mirror : ℕ) (entry : ℕ → CJson) (s' : Nodes) (rules : List CJson) :
    Prop :=
  ∃ t', Represents s' t' ∧ (t'.below mirror).map entry = rules ∧
    (t'.below mirror).Sublist (t.below mirror) ∧ ∀ parent ≠ mirror, t'.below parent = t.below parent

/-- The loop of `RuleJSONObjDelById` behind the items that it has passed. -/
theorem delFrom_simulates {env : Env} {entry : ℕ → CJson} {ruleId : String} {fuel : ℕ}
    {done l : List ℕ} (h : Represents s t) (hl : t.below mirror = done ++ l)
    (hfuel : l.length ≤ fuel) :
    Simulates env (fun s' rest => HoldsRest t mirror entry s' (done.map entry ++ rest))
      (delFrom entry mirror ruleId fuel l.head? s)
      (ruleJSONObjDelById.go ruleId (l.map entry)) := by
  induction l generalizing done fuel with
  | nil =>
    rw [List.append_nil] at hl
    have hsame : HoldsRest t mirror entry s (done.map entry ++ []) := by
      refine ⟨t, h, ?_, .refl _, fun _ _ => rfl⟩
      rw [hl, List.append_nil]
    cases fuel <;> exact .pure hsame
  | cons a l ih =>
    cases fuel with
    | zero => cases hfuel
    | succ fuel =>
      rw [List.map_cons, go_cons, List.head?_cons, delFrom]
      have hnodup := (h.children mirror).linked.nodup
      have hseg := (h.children mirror).linked.seg
      rw [hl] at hnodup hseg
      have hnext : s.next a = l.head? := (hseg.of_mem.2).trans (Option.or_none ..)
      refine .bind_same fun found => ?_
      cases found with
      | true =>
        have hmem : a ∈ t.below mirror := hl ▸ List.mem_append_right _ List.mem_cons_self
        have hdone : a ∉ done := fun hd =>
          (List.nodup_append'.mp hnodup).2.2 hd List.mem_cons_self
        obtain ⟨s', hdetach, h'⟩ := h.detach hmem
        have hbelow : (t.detach mirror a).below mirror = done ++ l := by
          show Function.update t.below mirror ((t.below mirror).erase a) mirror = _
          rw [Function.update_self, hl, List.erase_append_right _ hdone, List.erase_cons_head]
        rw [if_pos rfl, if_pos rfl, hdetach]
        refine .pure ⟨t.detach mirror a, h', ?_, ?_, fun parent hparent => ?_⟩
        · rw [hbelow, List.map_append]
        · rw [hbelow, hl]
          exact (List.sublist_cons_self a l).append_left done
        · exact Function.update_of_ne hparent ..
      | false =>
        have hl' : t.below mirror = done ++ [a] ++ l := by
          rw [hl, List.append_assoc, List.singleton_append]
        have hrest := ih hl' (Nat.le_of_succ_le_succ hfuel)
        rw [if_neg Bool.false_ne_true, if_neg Bool.false_ne_true, hnext,
          ← bind_pure (delFrom entry mirror ruleId fuel l.head? s)]
        refine hrest.bind fun s' rest hs' => .pure ?_
        rwa [List.map_append, List.append_assoc] at hs'

/-- **`RuleJSONObjDelById` on items** is undefined for the same entries, takes the same entry out of
the mirror, and nothing out of other lists. -/
theorem delItemById_holdsRest {env : Env} (entry : ℕ → CJson) (ruleId : Option String) {fuel : ℕ}
    (h : Represents s t) (hfuel : (t.below mirror).length ≤ fuel) :
    Simulates env (HoldsRest t mirror entry) (delItemById entry mirror ruleId fuel s)
      (ruleJSONObjDelById ((t.below mirror).map entry) ruleId) := by
  cases ruleId with
  | none => exact .pure ⟨t, h, rfl, .refl _, fun _ _ => rfl⟩
  | some ruleId =>
    have hchild : s.child mirror = (t.below mirror).head? := (h.children mirror).child
    have hloop := @delFrom_simulates s t mirror env entry ruleId fuel [] (t.below mirror) h rfl
      hfuel
    rw [← hchild] at hloop
    exact hloop

end IotDeviceSdk.DeviceRule
