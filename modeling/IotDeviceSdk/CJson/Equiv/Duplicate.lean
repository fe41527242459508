import IotDeviceSdk.CJson.Duplicate
import IotDeviceSdk.CJson.Equiv.Item
import IotDeviceSdk.CJson.Render
import IotDeviceSdk.Prog.Wp

/-!
# Correctness of `cJSON_Duplicate`

`duplicate_spec`: the copy stands for the same value, is printed as the same text and owns new
blocks, whatever texts and items the original only refers to; when an allocation fails, nothing is
left of it.
-/

namespace IotDeviceSdk.Json

open Copying Prog

variable {mallocs : ℕ → Bool} {heap : Heap} {base : List ℕ}

/-! ### Items of one content -/

/-- Two texts of the same characters, or none. -/
def SameText (copy string : Option TextBlock) : Prop :=
  copy.map (fun block => cString block.bytes) = string.map fun block => cString block.bytes

/-- Two items that stand for the same value and are printed alike. -/
structure SameItem (copy item : Item) : Prop where
  value : copy.value = item.value
  text : ∀ format depth, copy.text format depth = item.text format depth

/-- Two lists of items that stand for the same values and are printed alike. -/
structure SameItems (copies items : List Item) : Prop where
  isEmpty : copies.isEmpty = items.isEmpty
  elements : Item.elementValues copies = Item.elementValues items
  members : Item.memberValues copies = Item.memberValues items
  elementsText : ∀ format depth,
    Item.elementsText format depth copies = Item.elementsText format depth items
  membersText : ∀ format depth,
    Item.membersText format depth copies = Item.membersText format depth items

namespace SameText

variable {copy string : Option TextBlock}

theorem map_text (h : SameText copy string) :
    copy.map TextBlock.text = string.map TextBlock.text := by
  have htext := congrArg (Option.map textOfBytes) h
  rwa [Option.map_map, Option.map_map] at htext

theorem map_string (h : SameText copy string) :
    (copy.map fun block => CJson.string block.text) =
      string.map fun block => CJson.string block.text := by
  have hstring := congrArg (Option.map CJson.string) h.map_text
  rwa [Option.map_map, Option.map_map] at hstring

theorem quoted (h : SameText copy string) : quoted copy = quoted string := by
  cases copy with
  | none =>
    cases string with
    | none => rfl
    | some string => cases h
  | some copy =>
    cases string with
    | none => cases h
    | some string =>
      have hchars : cString copy.bytes = cString string.bytes := Option.some.inj h
      unfold Json.quoted stringBody
      rw [Option.elim_some, Option.elim_some, hchars]

theorem strdup (string : TextBlock) (address : ℕ) :
    SameText (some ⟨address, cString string.bytes ++ [0]⟩) (some string) :=
  congrArg some (cString_append_zero (zero_not_mem_cString string.bytes))

end SameText

theorem SameItems.refl (items : List Item) : SameItems items items :=
  ⟨rfl, rfl, rfl, fun _ _ => rfl, fun _ _ => rfl⟩

/-- The content of an item depends on the items below it and on its text. -/
theorem sameItem {address address' : ℕ} {type : ItemType}
    {isReference isReference' stringIsConst stringIsConst' : Bool}
    {valuestring valuestring' string string' : Option TextBlock} {valueint : ℤ} {valuedouble : ℚ}
    {child child' : List Item} (hvalue : SameText valuestring' valuestring)
    (hchild : SameItems child' child) :
    SameItem ⟨address', type, isReference', stringIsConst', valuestring', valueint, valuedouble,
      string', child'⟩ ⟨address, type, isReference, stringIsConst, valuestring, valueint,
      valuedouble, string, child⟩ := by
  constructor
  · unfold Item.value
    cases type with
    | string => exact hvalue.map_string
    | array => exact congrArg (Option.map CJson.array) hchild.elements
    | object => exact congrArg (Option.map CJson.object) hchild.members
    | _ => rfl
  · intro format depth
    unfold Item.text
    cases type with
    | raw => exact hvalue
    | string => exact congrArg some hvalue.quoted
    | array => exact congrArg (Option.map _) (hchild.elementsText format (depth + 1))
    | object => exact congrArg (Option.map _) (hchild.membersText format (depth + 1))
    | _ => rfl

theorem memberValues_cons_congr {item copy : Item} {next newnext : List Item}
    (hkey : SameText copy.string item.string) (hvalue : copy.value = item.value)
    (hnext : Item.memberValues newnext = Item.memberValues next) :
    Item.memberValues (copy :: newnext) = Item.memberValues (item :: next) := by
  have hbind := congrArg (fun key : Option String => key.bind fun key =>
    item.value.bind fun first =>
      (Item.memberValues next).bind fun rest => some ((key, first) :: rest)) hkey.map_text
  simp only [Option.bind_map] at hbind
  show (copy.string.bind fun key => copy.value.bind fun first =>
    (Item.memberValues newnext).bind fun rest => some ((key.text, first) :: rest)) = _
  rw [hvalue, hnext]
  exact hbind

/-- Copies one after the other. -/
theorem SameItems.cons {item copy : Item} {next newnext : List Item}
    (hkey : SameText copy.string item.string) (hitem : SameItem copy item)
    (hnext : SameItems newnext next) : SameItems (copy :: newnext) (item :: next) := by
  refine ⟨rfl, ?_, memberValues_cons_congr hkey hitem.value hnext.members, ?_, ?_⟩
  · show (copy.value.bind fun first => (Item.elementValues newnext).bind fun rest =>
      some (first :: rest)) = _
    rw [hitem.value, hnext.elements]
    rfl
  · intro format depth
    simp only [Item.elementsText]
    rw [hitem.text, hnext.elementsText, hnext.isEmpty]
  · intro format depth
    simp only [Item.membersText, keyText]
    rw [hitem.text, hnext.membersText, hnext.isEmpty, hkey.quoted]

/-! ### Steps -/

theorem wp_allocateCopy {Q : Option ℕ → Heap → Prop} (h : heap.live.Perm base)
    (hsome : ∀ address heap', heap'.live.Perm (address :: base) → Q (some address) heap')
    (hnone : ∀ heap', heap'.live.Perm base → (∃ n, mallocs n = false) → Q none heap') :
    Wp mallocs Copying.allocate Q heap := by
  rcases heap.allocate_cases mallocs with
    ⟨address, heap', hallocate, hlive⟩ | ⟨heap', hallocate, hlive, hmallocs⟩
  · refine ⟨some address, heap', congrArg some hallocate, hsome address heap' ?_⟩
    rw [hlive]
    exact h.cons address
  · exact ⟨none, heap', congrArg some hallocate, hnone heap' (hlive ▸ h) hmallocs⟩

/-- What has been copied so far can be deleted. -/
theorem wp_fail {newitem : Item} {Q : Option Item → Heap → Prop}
    (h : heap.live.Perm (newitem.blocks ++ base))
    (hQ : ∀ heap', heap'.live.Perm base → Q none heap') : Wp mallocs (fail newitem) Q heap := by
  have hlist : heap.live.Perm (Item.listBlocks [newitem] ++ base) := by
    show heap.live.Perm (newitem.blocks ++ [] ++ base)
    rwa [List.append_nil]
  obtain ⟨heap', hdelete, hlive⟩ := delete_of_perm hlist
  refine ⟨none, heap', ?_, hQ heap' hlive⟩
  show (delete [newitem] heap).map _ = _
  rw [hdelete]
  rfl

theorem wp_copyText {kept : Bool} {string : Option TextBlock}
    {Q : Bool × Option TextBlock → Heap → Prop} (h : heap.live.Perm base)
    (hcopied : ∀ copy heap', heap'.live.Perm (Item.ownedText kept copy ++ base) →
      SameText copy string → Q (true, copy) heap')
    (hnone : ∀ heap', heap'.live.Perm base → (∃ n, mallocs n = false) → Q (false, none) heap') :
    Wp mallocs (copyText kept string) Q heap := by
  cases string with
  | none =>
    rw [copyText, wp_pure]
    refine hcopied none heap ?_ rfl
    cases kept <;> exact h
  | some string =>
    cases kept with
    | true =>
      rw [copyText, if_pos rfl, wp_pure]
      exact hcopied (some string) heap h rfl
    | false =>
      rw [copyText, if_neg Bool.false_ne_true, wp_bind, strdup, wp_bind]
      apply wp_allocateCopy h
      · intro address heap' hlive
        rw [Option.map_some, wp_pure, wp_pure]
        exact hcopied _ heap' hlive (.strdup string address)
      · intro heap' hlive hmallocs
        rw [Option.map_none, wp_pure, wp_pure]
        exact hnone heap' hlive hmallocs

/-! ### The copy -/

/-- What a copy of an item leaves, beside the blocks `base`. -/
structure Duplicated (mallocs : ℕ → Bool) (recurse : Bool) (item : Item) (base : List ℕ)
    (result : Option Item) (heap' : Heap) : Prop where
  live : heap'.live.Perm (Item.listBlocks result.toList ++ base)
  key : ∀ copy ∈ result, SameText copy.string item.string
  same : ∀ copy ∈ result, recurse = true ∨ item.child = [] → SameItem copy item
  refused : result = none → ∃ n, mallocs n = false

/-- What a copy of a list of items leaves. -/
structure DuplicatedChildren (mallocs : ℕ → Bool) (items : List Item) (base : List ℕ)
    (result : Bool × List Item) (heap' : Heap) : Prop where
  live : heap'.live.Perm (Item.listBlocks result.2 ++ base)
  same : result.1 = true → SameItems result.2 items
  refused : result.1 = false → ∃ n, mallocs n = false

/-- The blocks of a new item, in the order they have been allocated in. -/
theorem perm_blocks (below value key base : List ℕ) (address : ℕ) :
    (below ++ (key ++ (value ++ address :: base))).Perm
      (below ++ (value ++ (key ++ [address])) ++ base) := by
  refine List.perm_iff_count.mpr fun a => ?_
  simp only [List.count_append, List.count_cons, List.count_nil]
  omega

theorem wp_fail_duplicated {recurse : Bool} {item newitem : Item}
    (h : heap.live.Perm (newitem.blocks ++ base)) (hmallocs : ∃ n, mallocs n = false) :
    Wp mallocs (fail newitem) (Duplicated mallocs recurse item base) heap := by
  apply wp_fail h
  intro heap' hlive
  refine ⟨hlive, ?_, ?_, fun _ => hmallocs⟩
  · intro copy hcopy
    cases hcopy
  · intro copy hcopy
    cases hcopy

theorem duplicated_some {recurse : Bool} {item copy : Item} {heap' : Heap}
    (hlive : heap'.live.Perm (copy.blocks ++ base))
    (hkey : SameText copy.string item.string)
    (hsame : recurse = true ∨ item.child = [] → SameItem copy item) :
    Duplicated mallocs recurse item base (some copy) heap' := by
  refine ⟨?_, ?_, ?_, fun hnone => by cases hnone⟩
  · show heap'.live.Perm (copy.blocks ++ [] ++ base)
    rwa [List.append_nil]
  · intro copy' hcopy
    cases hcopy
    exact hkey
  · intro copy' hcopy
    cases hcopy
    exact hsame

/-- The copy of an item, when the items below it can be copied. -/
theorem wp_duplicate {recurse : Bool} {item : Item} (h : heap.live.Perm base)
    (hduplicateChildren : ∀ (base : List ℕ) (heap : Heap), heap.live.Perm base →
      Wp mallocs (duplicateChildren item.child) (DuplicatedChildren mallocs item.child base) heap) :
    Wp mallocs (duplicate recurse item) (Duplicated mallocs recurse item base) heap := by
  obtain ⟨address, type, isReference, stringIsConst, valuestring, valueint, valuedouble, string,
    child⟩ := item
  rw [duplicate, wp_bind]
  apply wp_allocateCopy h
  · intro newaddress heap₁ h₁
    dsimp only
    rw [wp_bind]
    apply wp_copyText h₁
    · intro newvalue heap₂ h₂ hvalue
      simp only [Bool.not_true, Bool.false_eq_true, if_false]
      rw [wp_bind]
      apply wp_copyText h₂
      · intro newstring heap₃ h₃ hstring
        simp only [Bool.not_true, Bool.false_eq_true, if_false]
        cases recurse with
        | false =>
          -- the copy has no children
          simp only [Bool.not_false, if_true]
          rw [wp_pure]
          refine duplicated_some (h₃.trans (perm_blocks [] _ _ base newaddress)) hstring ?_
          rintro (hrecurse | hchild)
          · cases hrecurse
          · obtain rfl : child = [] := hchild
            exact sameItem hvalue (.refl [])
        | true =>
          simp only [Bool.not_true, Bool.false_eq_true, if_false]
          -- the children are copied into a list of their own
          rw [wp_bind]
          refine (hduplicateChildren _ heap₃ h₃).mono ?_
          rintro ⟨copied, newchild⟩ heap₄ hchildren
          have h₄ := hchildren.live.trans (perm_blocks _ _ _ base newaddress)
          cases copied with
          | false =>
            simp only [Bool.not_false, if_true]
            refine wp_fail_duplicated ?_ (hchildren.refused rfl)
            exact h₄
          | true =>
            simp only [Bool.not_true, Bool.false_eq_true, if_false]
            rw [wp_pure]
            exact duplicated_some h₄ hstring fun _ =>
              sameItem hvalue (hchildren.same rfl)
      · intro heap₃ h₃ hmallocs
        -- no memory for the key: the copy is freed, and its value with it
        simp only [Bool.not_false, if_true]
        refine wp_fail_duplicated ?_ hmallocs
        cases stringIsConst <;> exact h₃.trans (perm_blocks [] _ [] base newaddress)
    · intro heap₂ h₂ hmallocs
      simp only [Bool.not_false, if_true]
      refine wp_fail_duplicated ?_ hmallocs
      cases stringIsConst <;> exact h₂
  · intro heap₁ h₁ hmallocs
    dsimp only
    rw [wp_pure]
    refine ⟨h₁, ?_, ?_, fun _ => hmallocs⟩
    · intro copy hcopy
      cases hcopy
    · intro copy hcopy
      cases hcopy

/-- The copies of a list of items, when the first one and those behind it can be copied. -/
theorem wp_duplicateChildren_cons {item : Item} {next : List Item}
    (hitem : Wp mallocs (duplicate true item) (Duplicated mallocs true item base) heap)
    (hnext : ∀ (base : List ℕ) (heap : Heap), heap.live.Perm base →
      Wp mallocs (duplicateChildren next) (DuplicatedChildren mallocs next base) heap) :
    Wp mallocs (duplicateChildren (item :: next)) (DuplicatedChildren mallocs (item :: next) base)
      heap := by
  rw [duplicateChildren, wp_bind]
  refine hitem.mono ?_
  rintro (_ | newchild) heap₁ hcopy
  · dsimp only
    rw [wp_pure]
    refine ⟨hcopy.live, ?_, fun _ => hcopy.refused rfl⟩
    intro hfalse
    cases hfalse
  · dsimp only
    have h₁ : heap₁.live.Perm (newchild.blocks ++ base) := by
      have hlive := hcopy.live
      rwa [Option.toList_some, Item.listBlocks, Item.listBlocks, List.append_nil] at hlive
    rw [wp_bind]
    refine (hnext _ heap₁ h₁).mono ?_
    rintro ⟨copied, newnext⟩ heap₂ hchildren
    rw [wp_pure]
    have hkey := hcopy.key newchild rfl
    have hsame := hcopy.same newchild rfl (.inl rfl)
    refine ⟨?_, fun hcopied => .cons hkey hsame (hchildren.same hcopied), hchildren.refused⟩
    refine hchildren.live.trans ?_
    show (Item.listBlocks newnext ++ (newchild.blocks ++ base)).Perm
      (newchild.blocks ++ Item.listBlocks newnext ++ base)
    rw [← List.append_assoc]
    exact List.perm_append_comm.append_right base

/-- Copies of items and of lists of items. -/
theorem duplicate_correct :
    (∀ item, ∀ (recurse : Bool) (base : List ℕ) (heap : Heap), heap.live.Perm base →
      Wp mallocs (duplicate recurse item) (Duplicated mallocs recurse item base) heap) ∧
    ∀ items, ∀ (base : List ℕ) (heap : Heap), heap.live.Perm base →
      Wp mallocs (duplicateChildren items) (DuplicatedChildren mallocs items base) heap := by
  apply Item.both_induction
  · intro item ih recurse base heap h
    exact wp_duplicate h ih
  · intro base heap h
    rw [duplicateChildren, wp_pure]
    refine ⟨h, fun _ => .refl [], ?_⟩
    intro hfalse
    cases hfalse
  · intro item next hitem hnext base heap h
    exact wp_duplicateChildren_cons (hitem true base heap h) hnext

/-- **`cJSON_Duplicate`.** -/
theorem duplicate_spec (mallocs : ℕ → Bool) (recurse : Bool) (item : Item) (heap : Heap) :
    ∃ result heap', duplicate recurse item mallocs heap = some (result, heap') ∧
      Duplicated mallocs recurse item heap.live result heap' :=
  duplicate_correct.1 item recurse heap.live heap (.refl _)

end IotDeviceSdk.Json
