import IotDeviceSdk.CJson.Equiv.Parse
import IotDeviceSdk.CJson.Equiv.Print
import IotDeviceSdk.CJson.Equiv.Render

/-!
# Printing and parsing

* `parse_printItem`: what has been printed, formatted or not, is parsed to the value that has been
  printed, up to the numbers `print_number` shortens.
* `parse_printItem_again`: printing and parsing once more changes nothing.
-/

namespace IotDeviceSdk

namespace CJson

variable {P Q : ℚ → Prop}

mutual

/-- What holds of all numbers in a value. -/
def AllNumbers (P : ℚ → Prop) : CJson → Prop
  | .null => True
  | .bool _ => True
  | .number d => P d
  | .string _ => True
  | .array child => ElementsNumbers P child
  | .object child => MembersNumbers P child
termination_by structural v => v

def ElementsNumbers (P : ℚ → Prop) : List CJson → Prop
  | [] => True
  | v :: vs => AllNumbers P v ∧ ElementsNumbers P vs
termination_by structural vs => vs

def MembersNumbers (P : ℚ → Prop) : List (String × CJson) → Prop
  | [] => True
  | (_, v) :: members => AllNumbers P v ∧ MembersNumbers P members
termination_by structural members => members

end

/-- Induction over values, elements and members. -/
theorem all_induction {P : CJson → Prop} {E : List CJson → Prop} {M : List (String × CJson) → Prop}
    (hnull : P .null) (hbool : ∀ b, P (.bool b)) (hnumber : ∀ d, P (.number d))
    (hstring : ∀ s, P (.string s)) (harray : ∀ child, E child → P (.array child))
    (hobject : ∀ child, M child → P (.object child)) (hE : E [])
    (hcons : ∀ v vs, P v → E vs → E (v :: vs)) (hM : M [])
    (hmember : ∀ key v members, P v → M members → M ((key, v) :: members)) : ∀ v, P v := by
  intro v
  exact @CJson.rec P E M (fun m => P m.2) hnull hbool hnumber hstring harray hobject hE hcons hM
    (fun m members hm hmembers => hmember m.1 m.2 members hm hmembers) (fun _ _ hv => hv) v

/-- **Reading back** keeps what has been read back. -/
theorem reprinted_reprinted (v : CJson) (h : v.reprinted.AllNumbers fun d => isInf d = false) :
    v.reprinted.reprinted = v.reprinted := by
  revert h
  apply all_induction (P := fun v => v.reprinted.AllNumbers (fun d => isInf d = false) →
      v.reprinted.reprinted = v.reprinted)
    (E := fun vs => ElementsNumbers (fun d => isInf d = false) (reprintedElements vs) →
      reprintedElements (reprintedElements vs) = reprintedElements vs)
    (M := fun members => MembersNumbers (fun d => isInf d = false) (reprintedMembers members) →
      reprintedMembers (reprintedMembers members) = reprintedMembers members)
  · exact fun _ => rfl
  · exact fun _ _ => rfl
  · intro d h
    have hnumber : (number d).reprinted = if isInf d then .null else .number (Json.rereadNumber d) :=
      rfl
    rw [hnumber] at h ⊢
    split_ifs at h ⊢ with hinf
    · rfl
    · have hfin : isInf (Json.rereadNumber d) = false := h
      show (if isInf (Json.rereadNumber d) then CJson.null
        else .number (Json.rereadNumber (Json.rereadNumber d))) = _
      rw [hfin, if_neg Bool.false_ne_true, Json.rereadNumber_idem hfin]
  · exact fun _ _ => rfl
  · exact fun child ih h => congrArg array (ih h)
  · exact fun child ih h => congrArg object (ih h)
  · exact fun _ => rfl
  · rintro v vs hv hvs ⟨h, hs⟩
    show v.reprinted.reprinted :: reprintedElements (reprintedElements vs) = _
    rw [hv h, hvs hs]
    rfl
  · exact fun _ => rfl
  · rintro key v members hv hmembers ⟨h, hs⟩
    show (key, v.reprinted.reprinted) :: reprintedMembers (reprintedMembers members) = _
    rw [hv h, hmembers hs]
    rfl

/-- The numbers that are read back are doubles. -/
theorem allNumbers_reprinted (v : CJson) (h : v.AllNumbers IsDouble) :
    v.reprinted.AllNumbers IsDouble := by
  revert h
  apply all_induction (P := fun v => v.AllNumbers IsDouble → v.reprinted.AllNumbers IsDouble)
    (E := fun vs => ElementsNumbers IsDouble vs → ElementsNumbers IsDouble (reprintedElements vs))
    (M := fun members => MembersNumbers IsDouble members →
      MembersNumbers IsDouble (reprintedMembers members))
  · exact fun h => h
  · exact fun _ h => h
  · intro d h
    have hnumber : (number d).reprinted = if isInf d then .null else .number (Json.rereadNumber d) :=
      rfl
    rw [hnumber]
    split_ifs
    · trivial
    · show IsDouble (Json.rereadNumber d)
      unfold Json.rereadNumber
      split_ifs
      · exact h
      · exact isDouble_toDouble _
      · exact h
  · exact fun _ h => h
  · exact fun _ ih h => ih h
  · exact fun _ ih h => ih h
  · exact fun h => h
  · exact fun _ _ hv hvs h => ⟨hv h.1, hvs h.2⟩
  · exact fun h => h
  · exact fun _ _ _ hv hmembers h => ⟨hv h.1, hmembers h.2⟩

/-- A value stays nested as deep as it was. -/
theorem nesting_reprinted (v : CJson) : v.reprinted.nesting = v.nesting := by
  apply all_induction (P := fun v => v.reprinted.nesting = v.nesting)
    (E := fun vs => elementsNesting (reprintedElements vs) = elementsNesting vs)
    (M := fun members => membersNesting (reprintedMembers members) = membersNesting members)
  · rfl
  · exact fun _ => rfl
  · intro d
    have hnumber : (number d).reprinted = if isInf d then .null else .number (Json.rereadNumber d) :=
      rfl
    rw [hnumber]
    split_ifs <;> rfl
  · exact fun _ => rfl
  · exact fun _ ih => congrArg (· + 1) ih
  · exact fun _ ih => congrArg (· + 1) ih
  · rfl
  · exact fun _ _ hv hvs => congrArg₂ max hv hvs
  · rfl
  · exact fun _ _ _ hv hmembers => congrArg₂ max hv hmembers

end CJson

namespace Json

variable {item : Item} {v : CJson}

theorem doubleToInt_bounds (d : ℚ) : INT_MIN ≤ doubleToInt d ∧ doubleToInt d ≤ INT_MAX := by
  unfold doubleToInt
  split_ifs with hhigh hlow
  · exact ⟨by decide, le_rfl⟩
  · exact ⟨le_rfl, by decide⟩
  · rw [not_le] at hhigh hlow
    unfold truncate
    split_ifs with hsign
    · have hlt : ⌊d⌋ < INT_MAX := Int.floor_lt.mpr hhigh
      have hnonneg : 0 ≤ ⌊d⌋ := Int.floor_nonneg.mpr hsign
      have hmin : INT_MIN ≤ 0 := by decide
      exact ⟨hmin.trans hnonneg, hlt.le⟩
    · have hlt : ⌊-d⌋ < -INT_MIN := by
        apply Int.floor_lt.mpr
        rw [Int.cast_neg]
        exact neg_lt_neg hlow
      have hnonneg : 0 ≤ ⌊-d⌋ := Int.floor_nonneg.mpr (by linarith)
      have hmax : 0 ≤ INT_MAX := by decide
      have hsame : (-d).floor = ⌊-d⌋ := rfl
      rw [hsame]
      omega

/-- The numbers of an item are those of its value. -/
theorem allNumbers_value_aux :
    (∀ item : Item, item.Typed → ∀ v, item.value = some v → v.AllNumbers IsDouble) ∧
    ∀ items, Item.ListTyped items →
      (∀ vs, Item.elementValues items = some vs → CJson.ElementsNumbers IsDouble vs) ∧
      ∀ members, Item.memberValues items = some members →
        CJson.MembersNumbers IsDouble members := by
  apply Item.both_induction
  · rintro ⟨address, type, isReference, stringIsConst, valuestring, valueint, valuedouble, string,
      child⟩ ih ⟨hnumber, hchild⟩ v hvalue
    cases type with
    | invalid => cases hvalue
    | raw => cases hvalue
    | false =>
      obtain rfl := Option.some.inj hvalue
      trivial
    | true =>
      obtain rfl := Option.some.inj hvalue
      trivial
    | null =>
      obtain rfl := Option.some.inj hvalue
      trivial
    | number =>
      -- an item with a value holds the double itself
      change (if valueint = doubleToInt valuedouble then _ else _) = _ at hvalue
      split_ifs at hvalue
      obtain rfl := Option.some.inj hvalue
      exact (hnumber rfl).2.2
    | string =>
      obtain ⟨block, -, rfl⟩ := Option.map_eq_some_iff.mp hvalue
      trivial
    | array =>
      obtain ⟨vs, hvs, rfl⟩ := Option.map_eq_some_iff.mp hvalue
      exact (ih (hchild (.inl rfl))).1 vs hvs
    | object =>
      obtain ⟨members, hmembers, rfl⟩ := Option.map_eq_some_iff.mp hvalue
      exact (ih (hchild (.inr rfl))).2 members hmembers
  · intro _
    constructor
    · intro vs hvs
      obtain rfl := Option.some.inj hvs
      trivial
    · intro members hmembers
      obtain rfl := Option.some.inj hmembers
      trivial
  · rintro item next hitem hnext ⟨htyped, htyped'⟩
    constructor
    · intro vs hvs
      obtain ⟨v, vs', hv, hvs', rfl⟩ := Item.elementValues_cons hvs
      exact ⟨hitem htyped v hv, (hnext htyped').1 vs' hvs'⟩
    · intro members hmembers
      obtain ⟨key, v, members', -, hv, hmembers', rfl⟩ := Item.memberValues_cons hmembers
      exact ⟨hitem htyped v hv, (hnext htyped').2 members' hmembers'⟩

/-- An item that stands for a value is typed when the numbers of the value are. -/
theorem typed_of_value_aux :
    (∀ item : Item, ∀ v, item.value = some v → v.AllNumbers IsDouble → item.Typed) ∧
    ∀ items,
      (∀ vs, Item.elementValues items = some vs → CJson.ElementsNumbers IsDouble vs →
        Item.ListTyped items) ∧
      ∀ members, Item.memberValues items = some members →
        CJson.MembersNumbers IsDouble members → Item.ListTyped items := by
  apply Item.both_induction
  · rintro ⟨address, type, isReference, stringIsConst, valuestring, valueint, valuedouble, string,
      child⟩ ih v hvalue hv
    constructor
    · rintro rfl
      change (if valueint = doubleToInt valuedouble then _ else _) = _ at hvalue
      split_ifs at hvalue with hsame
      obtain rfl := Option.some.inj hvalue
      obtain ⟨hlow, hhigh⟩ := doubleToInt_bounds valuedouble
      rw [hsame]
      exact ⟨hlow, hhigh, hv⟩
    · rintro (rfl | rfl)
      · obtain ⟨vs, hvs, rfl⟩ := Option.map_eq_some_iff.mp hvalue
        exact ih.1 vs hvs hv
      · obtain ⟨members, hmembers, rfl⟩ := Option.map_eq_some_iff.mp hvalue
        exact ih.2 members hmembers hv
  · exact ⟨fun _ _ _ => trivial, fun _ _ _ => trivial⟩
  · rintro item next hitem hnext
    constructor
    · intro vs hvs hnumbers
      obtain ⟨v, vs', hv, hvs', rfl⟩ := Item.elementValues_cons hvs
      exact ⟨hitem v hv hnumbers.1, hnext.1 vs' hvs' hnumbers.2⟩
    · intro members hmembers hnumbers
      obtain ⟨key, v, members', -, hv, hmembers', rfl⟩ := Item.memberValues_cons hmembers
      exact ⟨hitem v hv hnumbers.1, hnext.2 members' hmembers' hnumbers.2⟩

/-- What has been printed as JSON is parsed. -/
theorem parse_text {mallocs : ℕ → Bool} (hmallocs : ∀ n, mallocs n = true) (text : CString)
    (hvalue : strict.Value CJSON_NESTING_LIMIT (text.bytes ++ [0]) v [0]) (heap : Heap) :
    ∃ item heap', parse mallocs text heap = some (some item, heap') ∧ item.value = some v := by
  have hcontent : text.bytes ++ [0] = [] ++ ([] ++ (text.bytes ++ [0])) := rfl
  have hblank : ∀ b ∈ ([] : List UInt8), strict.Blank b := by simp
  obtain ⟨item, parse_end, heap', hparse, hitem⟩ := parseWithLengthOpts_complete hmallocs hcontent
    (.inl rfl) (.inl rfl) hblank hvalue (fun hno => absurd hno Bool.false_ne_true) heap
  refine ⟨item, heap', ?_, hitem⟩
  unfold parse parseWithOpts
  rw [hparse]
  rfl

/-- What has been printed is a C string of JSON, in a block of its own size. -/
theorem printItem_strict {hooks : Hooks} {format : Bool} {heap heap' : Heap} {block : Block}
    (htyped : item.Typed) (hvalue : item.value = some v) (hlevel : v.nesting ≤ CJSON_NESTING_LIMIT)
    (hprint : printItem hooks format item heap = some (some block, heap')) :
    ∃ text : CString, block.bytes = terminated text.bytes ∧
      strict.Value CJSON_NESTING_LIMIT (text.bytes ++ [0]) v.reprinted [0] := by
  obtain ⟨printed, s', hprint', hprinted⟩ :=
    @print_spec ⟨false, format, hooks.reallocates, hooks.mallocs⟩ item heap rfl htyped
  unfold printItem at hprint
  rw [hprint'] at hprint
  obtain ⟨rfl, rfl⟩ := Prod.mk.inj (Option.some.inj hprint)
  obtain ⟨text, htext, hbytes, -⟩ := hprinted.printed block rfl
  obtain ⟨text', htext', hstrict⟩ := strict_text format htyped hvalue hlevel 0
  obtain rfl := Option.some.inj (htext.symm.trans htext')
  have hzero := (zero_not_mem_text format).1 item htyped 0 text htext
  exact ⟨⟨text, hzero⟩, hbytes, hstrict [0] (endsNumber_cons (by decide) [])⟩

theorem terminated_injective {text text' : CString}
    (h : terminated text.bytes = terminated text'.bytes) : text = text' := by
  have hbytes := List.map_injective_iff.mpr (Option.some_injective UInt8) h
  have hbytes' := List.append_cancel_right hbytes
  cases text
  cases text'
  cases hbytes'
  rfl

/-- **Printing and parsing** gives the value back, formatted or not, up to the numbers that are
shortened. -/
theorem parse_printItem {hooks : Hooks} {format : Bool} {heap heap' : Heap} {block : Block}
    (htyped : item.Typed) (hvalue : item.value = some v) (hlevel : v.nesting ≤ CJSON_NESTING_LIMIT)
    (hprint : printItem hooks format item heap = some (some block, heap'))
    {mallocs : ℕ → Bool} (hmallocs : ∀ n, mallocs n = true) :
    ∃ text : CString, block.bytes = terminated text.bytes ∧ ∀ heap'', ∃ item' heap''',
      parse mallocs text heap'' = some (some item', heap''') ∧
        item'.value = some v.reprinted := by
  obtain ⟨text, htext, hstrict⟩ := printItem_strict htyped hvalue hlevel hprint
  exact ⟨text, htext, parse_text hmallocs text hstrict⟩

theorem parse_printItem_nullList :
    ∃ text : CString, terminated (ascii "[null]") = terminated text.bytes ∧ ∀ heap'', ∃ item' heap''',
      parse (fun _ => true) text heap'' = some (some item', heap''') ∧
        item'.value = some (.array [.null]) := by
  have hprint : printItem ⟨false, fun _ => true⟩ false nullList ⟨2, [1, 0]⟩ =
      some (some ⟨3, terminated (ascii "[null]")⟩, ⟨4, [3, 1, 0]⟩) := by decide +kernel
  exact parse_printItem typed_nullList (v := .array [.null]) rfl (by decide) hprint fun _ => rfl

/-- **Once more changes nothing**: what has been printed and parsed is printed to a text that is
parsed to the same value, unless a number has become infinite. -/
theorem parse_printItem_again {hooks hooks' : Hooks} {format format' : Bool}
    {heap heap₁ heap₂ heap₃ : Heap} {block block' : Block} {text : CString} {item' : Item}
    (htyped : item.Typed) (hvalue : item.value = some v) (hlevel : v.nesting ≤ CJSON_NESTING_LIMIT)
    (hfinite : v.reprinted.AllNumbers fun d => isInf d = false)
    {mallocs : ℕ → Bool} (hmallocs : ∀ n, mallocs n = true)
    (hprint : printItem hooks format item heap = some (some block, heap₁))
    (htext : block.bytes = terminated text.bytes)
    (hparse : parse mallocs text heap₁ = some (some item', heap₂))
    (hprint' : printItem hooks' format' item' heap₂ = some (some block', heap₃)) :
    ∃ text' : CString, block'.bytes = terminated text'.bytes ∧ ∀ heap₄, ∃ item'' heap₅,
      parse mallocs text' heap₄ = some (some item'', heap₅) ∧ item''.value = item'.value := by
  obtain ⟨text₁, htext₁, hstrict⟩ := printItem_strict htyped hvalue hlevel hprint
  obtain rfl := terminated_injective (htext₁.symm.trans htext)
  obtain ⟨item₁, heap₁', hparse₁, hvalue₁⟩ := parse_text hmallocs text₁ hstrict heap₁
  rw [hparse] at hparse₁
  obtain ⟨hitem, rfl⟩ := Prod.mk.inj (Option.some.inj hparse₁)
  obtain rfl := Option.some.inj hitem
  have hnumbers := allNumbers_value_aux.1 item htyped v hvalue
  have htyped' := typed_of_value_aux.1 item' _ hvalue₁ (CJson.allNumbers_reprinted v hnumbers)
  have hlevel' : v.reprinted.nesting ≤ CJSON_NESTING_LIMIT := by rwa [CJson.nesting_reprinted]
  obtain ⟨text', htext', hstrict'⟩ := printItem_strict htyped' hvalue₁ hlevel' hprint'
  rw [CJson.reprinted_reprinted v hfinite] at hstrict'
  refine ⟨text', htext', fun heap₄ => ?_⟩
  rw [hvalue₁]
  exact parse_text hmallocs text' hstrict' heap₄

theorem parse_printItem_again_nullList :
    ∃ text' : CString, terminated (ascii "[null]") = terminated text'.bytes ∧
      ∀ heap₄, ∃ item'' heap₅, parse (fun _ => true) text' heap₄ = some (some item'', heap₅) ∧
        item''.value = some (.array [.null]) := by
  have hprint : printItem ⟨false, fun _ => true⟩ false nullList ⟨2, [1, 0]⟩ =
      some (some ⟨3, terminated (ascii "[null]")⟩, ⟨4, [3, 1, 0]⟩) := by decide +kernel
  have hparse : parse (fun _ => true) ⟨[91, 110, 117, 108, 108, 93], by decide⟩ ⟨4, [3, 1, 0]⟩ =
      some (some { Item.blank 4 with
        type := .array, child := [{ Item.blank 5 with type := .null }] }, ⟨6, [5, 4, 3, 1, 0]⟩) := rfl
  have hprint' : printItem ⟨true, fun _ => true⟩ false { Item.blank 4 with
      type := .array, child := [{ Item.blank 5 with type := .null }] } ⟨6, [5, 4, 3, 1, 0]⟩ =
      some (some ⟨7, terminated (ascii "[null]")⟩, ⟨8, [7, 5, 4, 3, 1, 0]⟩) := by
    decide +kernel
  exact parse_printItem_again (v := .array [.null]) typed_nullList rfl (by decide) ⟨trivial, trivial⟩
    (fun _ => rfl) hprint rfl hparse hprint'

end Json

end IotDeviceSdk
