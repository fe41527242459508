import IotDeviceSdk.CJson.Env
import IotDeviceSdk.CJson.Equiv.RoundTrip

/-!
# What has been printed in an environment

* `text_of_value`: all items that stand for a value have its text, so that what an environment prints
  is what `cJSON_Print` prints for each of them.
* `exists_printJson`: an environment with the text functions of `cJSON` prints what fits their
  buffers.
* `parseJson_printJson`: it parses what it prints.
-/

namespace IotDeviceSdk

open Json (Item)

namespace CJson

/-- The formatted text of a value fits the buffers of `cJSON_Print`, whose sizes are ints. -/
def FitsBuffers (v : CJson) : Prop :=
  ∀ text, v.item.text true 0 = some text → text.length + 2 ≤ INT_MAX.toNat

instance (v : CJson) : Decidable v.FitsBuffers :=
  decidable_of_iff ((v.item.text true 0).all fun text => decide (text.length + 2 ≤ INT_MAX.toNat))
    (by simp [FitsBuffers, Option.all_eq_true])

/-! ### Texts of bytes -/

/-- A text of bytes other than zero, as C strings hold it. -/
def IsByteText (s : String) : Prop := ∀ c ∈ s.toList, 0 < c.toNat ∧ c.toNat < 256

theorem ascii_textOfBytes (bytes : List UInt8) : ascii (textOfBytes bytes) = bytes := by
  unfold ascii textOfBytes
  rw [String.toList_ofList]
  exact Json.bytesOfChars_charsOfBytes bytes

theorem textOfBytes_ascii {s : String} (h : IsByteText s) : textOfBytes (ascii s) = s := by
  have hchars := Json.charsOfBytes_bytesOfChars fun c hc => (h c hc).2
  exact (congrArg String.ofList hchars).trans String.ofList_toList

theorem zero_not_mem_ascii {s : String} (h : IsByteText s) : 0 ∉ ascii s := by
  intro hzero
  obtain ⟨c, hc, hbyte⟩ := List.mem_map.mp hzero
  obtain ⟨hlow, hhigh⟩ := h c hc
  have hnat := congrArg UInt8.toNat hbyte
  rw [show (UInt8.ofNat c.toNat).toNat = c.toNat from Nat.mod_eq_of_lt hhigh] at hnat
  exact absurd hnat hlow.ne'

theorem text_textBlock {s : String} (h : IsByteText s) : (textBlock s).text = s := by
  show textOfBytes (cString (ascii s)) = s
  rw [cString_of_zero_not_mem (zero_not_mem_ascii h), textOfBytes_ascii h]

mutual

/-- The texts in a value are texts of bytes. -/
def IsBytes : CJson → Prop
  | .null => True
  | .bool _ => True
  | .number _ => True
  | .string s => IsByteText s
  | .array child => ElementsBytes child
  | .object child => MembersBytes child
termination_by structural v => v

def ElementsBytes : List CJson → Prop
  | [] => True
  | v :: vs => IsBytes v ∧ ElementsBytes vs
termination_by structural vs => vs

def MembersBytes : List (String × CJson) → Prop
  | [] => True
  | (key, v) :: members => (IsByteText key ∧ IsBytes v) ∧ MembersBytes members
termination_by structural members => members

end

theorem value_withString (item : Item) (key : Option Json.TextBlock) :
    Item.value { item with string := key } = item.value := by
  cases item
  rfl

/-- The item of a value stands for it. -/
theorem value_item (v : CJson) (h : v.IsBytes) : v.item.value = some v := by
  revert h
  apply all_induction (P := fun v => v.IsBytes → v.item.value = some v)
    (E := fun vs => ElementsBytes vs → Item.elementValues (elementItems vs) = some vs)
    (M := fun members => MembersBytes members →
      Item.memberValues (memberItems members) = some members)
  · exact fun _ => rfl
  · intro b _
    cases b <;> rfl
  · exact fun d _ => if_pos rfl
  · exact fun s h => congrArg (fun s => some (CJson.string s)) (text_textBlock h)
  · exact fun child ih h => congrArg (Option.map CJson.array) (ih h)
  · exact fun child ih h => congrArg (Option.map CJson.object) (ih h)
  · exact fun _ => rfl
  · rintro v vs hv hvs ⟨h, hs⟩
    show (v.item.value.bind fun first => (Item.elementValues (elementItems vs)).bind fun rest =>
      some (first :: rest)) = _
    rw [hv h, hvs hs]
    rfl
  · exact fun _ => rfl
  · rintro key v members hv hmembers ⟨⟨hkey, h⟩, hs⟩
    show (Item.value { v.item with string := some (textBlock key) }).bind (fun first =>
      (Item.memberValues (memberItems members)).bind fun rest =>
        some (((textBlock key).text, first) :: rest)) = _
    rw [value_withString, hv h, hmembers hs, text_textBlock hkey]
    rfl

/-! ### Items of the same value -/

theorem quoted_textBlock (block : Json.TextBlock) :
    Json.quoted (some (textBlock block.text)) = Json.quoted (some block) := by
  have hbytes : cString (textBlock block.text).bytes = cString block.bytes := by
    show cString (ascii (textOfBytes (cString block.bytes))) = _
    rw [ascii_textOfBytes, cString_of_zero_not_mem (zero_not_mem_cString _)]
  unfold Json.quoted Json.stringBody
  show 34 :: ((cString (textBlock block.text).bytes).flatMap Json.escaped ++ [34]) = _
  rw [hbytes]
  rfl

theorem text_withString (item : Item) (key : Option Json.TextBlock) (format : Bool) (depth : ℕ) :
    Item.text format depth { item with string := key } = Item.text format depth item := by
  cases item
  rfl

theorem isEmpty_elementItems {items : List Item} {vs : List CJson}
    (h : Item.elementValues items = some vs) : (elementItems vs).isEmpty = items.isEmpty := by
  cases items with
  | nil =>
    obtain rfl := Option.some.inj h
    rfl
  | cons item next =>
    obtain ⟨v, vs', -, -, rfl⟩ := Json.Item.elementValues_cons h
    rfl

theorem isEmpty_memberItems {items : List Item} {members : List (String × CJson)}
    (h : Item.memberValues items = some members) :
    (memberItems members).isEmpty = items.isEmpty := by
  cases items with
  | nil =>
    obtain rfl := Option.some.inj h
    rfl
  | cons item next =>
    obtain ⟨key, v, members', -, -, -, rfl⟩ := Json.Item.memberValues_cons h
    rfl

/-- **The items that stand for a value** are printed as the same text. -/
theorem text_of_value (format : Bool) :
    (∀ item : Item, ∀ v depth, item.value = some v →
      v.item.text format depth = item.text format depth) ∧
    ∀ items, (∀ vs depth, Item.elementValues items = some vs →
        Item.elementsText format depth (elementItems vs) = Item.elementsText format depth items) ∧
      ∀ members depth, Item.memberValues items = some members →
        Item.membersText format depth (memberItems members) =
          Item.membersText format depth items := by
  apply Item.both_induction
  · rintro ⟨address, type, isReference, stringIsConst, valuestring, valueint, valuedouble, string,
      child⟩ ih v depth hvalue
    cases type with
    | invalid => cases hvalue
    | raw => cases hvalue
    | false =>
      obtain rfl := Option.some.inj hvalue
      rfl
    | true =>
      obtain rfl := Option.some.inj hvalue
      rfl
    | null =>
      obtain rfl := Option.some.inj hvalue
      rfl
    | number =>
      -- the integer is that of the double, so the text is that of the double
      change (if valueint = doubleToInt valuedouble then _ else _) = _ at hvalue
      split_ifs at hvalue with hsame
      obtain rfl := Option.some.inj hvalue
      rw [hsame]
      rfl
    | string =>
      obtain ⟨block, hblock, rfl⟩ := Option.map_eq_some_iff.mp hvalue
      obtain rfl : valuestring = some block := hblock
      exact congrArg some (quoted_textBlock block)
    | array =>
      obtain ⟨vs, hvs, rfl⟩ := Option.map_eq_some_iff.mp hvalue
      exact congrArg (Option.map _) (ih.1 vs (depth + 1) hvs)
    | object =>
      obtain ⟨members, hmembers, rfl⟩ := Option.map_eq_some_iff.mp hvalue
      exact congrArg (Option.map _) (ih.2 members (depth + 1) hmembers)
  · constructor
    · intro vs depth hvs
      obtain rfl := Option.some.inj hvs
      rfl
    · intro members depth hmembers
      obtain rfl := Option.some.inj hmembers
      rfl
  · rintro item next hitem ⟨helements, hmembers⟩
    constructor
    · intro vs depth hvs
      obtain ⟨v, vs', hv, hvs', rfl⟩ := Json.Item.elementValues_cons hvs
      show (v.item.text format depth).bind (fun first =>
        (Item.elementsText format depth (elementItems vs')).map fun rest =>
          first ++ (Json.comma format (!(elementItems vs').isEmpty) ++ rest)) = _
      rw [hitem v depth hv, helements vs' depth hvs', isEmpty_elementItems hvs']
      rfl
    · intro members depth hvs
      obtain ⟨key, v, members', hkey, hv, hmembers', rfl⟩ := Json.Item.memberValues_cons hvs
      show (Item.text format depth { v.item with string := some (textBlock key.text) }).bind
        (fun first => (Item.membersText format depth (memberItems members')).map fun rest =>
          Json.keyText format depth (some (textBlock key.text)) ++
            (first ++ (Json.memberEnd format (!(memberItems members').isEmpty) ++ rest))) = _
      rw [text_withString, hitem v depth hv, hmembers members' depth hmembers',
        isEmpty_memberItems hmembers']
      unfold Json.keyText
      rw [quoted_textBlock, ← hkey]
      rfl

end CJson

namespace Env

variable {env : Env} {v : CJson} {content : String}

theorem text_terminated {block : Json.Block} {text : CString}
    (h : block.bytes = Json.terminated text.bytes) : block.text = textOfBytes text.bytes := by
  have hbytes : block.bytes.reduceOption = text.bytes ++ [0] := by
    rw [h, Json.terminated]
    change ((text.bytes ++ [0]).map some).filterMap id = text.bytes ++ [0]
    rw [List.filterMap_map]
    exact List.filterMap_some
  rw [Json.Block.text, hbytes, cString_append_zero text.zero_not_mem]

/-- What is printed for a value. -/
theorem exists_printItem (h : env.withCJson.printJson v = some content) :
    ∃ block heap, Json.printItem ⟨true, fun _ => true⟩ true v.item ⟨0, []⟩ =
      some (some block, heap) ∧ block.text = content := by
  obtain ⟨⟨printed, heap⟩, hprint, hcontent⟩ := Option.bind_eq_some_iff.mp h
  obtain ⟨block, rfl, hblock⟩ := Option.map_eq_some_iff.mp hcontent
  exact ⟨block, heap, hprint, hblock⟩

/-- What fits the buffers is printed, as no allocation fails. -/
theorem exists_printJson (hbytes : v.IsBytes) (hnumbers : v.AllNumbers IsDouble)
    (hfits : v.FitsBuffers) : ∃ content, env.withCJson.printJson v = some content := by
  have hvalue := CJson.value_item v hbytes
  have htyped := Json.typed_of_value_aux.1 v.item v hvalue hnumbers
  obtain ⟨text, htext, -⟩ := Json.strict_text true htyped hvalue le_rfl 0
  obtain ⟨printed, heap', hprint, hprinted⟩ :=
    Json.printItem_spec ⟨true, fun _ => true⟩ true ⟨0, []⟩ htyped
  cases printed with
  | none =>
    rcases (hprinted.failed rfl).2 text htext with hlong | ⟨n, hn⟩
    · exact absurd (hfits text htext) (by omega)
    · cases hn
  | some block =>
    refine ⟨block.text, ?_⟩
    show (Json.printItem ⟨true, fun _ => true⟩ true v.item ⟨0, []⟩).bind _ = _
    rw [hprint]
    rfl

/-- **What has been printed is parsed** to the value, up to the numbers that are shortened. -/
theorem parseJson_printJson (hbytes : v.IsBytes) (hnumbers : v.AllNumbers IsDouble)
    (hlevel : v.nesting ≤ Json.CJSON_NESTING_LIMIT)
    (hprint : env.withCJson.printJson v = some content) :
    env.withCJson.parseJson content = some v.reprinted := by
  have hvalue := CJson.value_item v hbytes
  have htyped := Json.typed_of_value_aux.1 v.item v hvalue hnumbers
  obtain ⟨block, heap, hitem, hcontent⟩ := exists_printItem hprint
  obtain ⟨text, htext, hstrict⟩ := Json.printItem_strict htyped hvalue hlevel hitem
  obtain ⟨item, heap', hparse, hread⟩ := Json.parse_text (fun _ => rfl) text hstrict ⟨0, []⟩
  have hascii : ascii content = text.bytes := by
    rw [← hcontent, text_terminated htext, CJson.ascii_textOfBytes]
  have hzero : 0 ∉ ascii content := by
    rw [hascii]
    exact text.zero_not_mem
  have hsame : (⟨ascii content, hzero⟩ : CString) = text := by
    cases text
    cases hascii
    rfl
  show (if h : 0 ∉ ascii content then _ else _) = _
  rw [dif_pos hzero, hsame, hparse]
  exact hread

/-- What an environment prints is the text of every item that stands for the value. -/
theorem text_of_printJson (hbytes : v.IsBytes) (hnumbers : v.AllNumbers IsDouble)
    (hprint : env.withCJson.printJson v = some content) {item : Item} (hitem : item.value = some v) :
    item.text true 0 = some (ascii content) := by
  have htyped := Json.typed_of_value_aux.1 v.item v (CJson.value_item v hbytes) hnumbers
  obtain ⟨block, heap, hprint', hcontent⟩ := exists_printItem hprint
  obtain ⟨printed, s', hprinted, hblock⟩ :=
    @Json.print_spec ⟨false, true, true, fun _ => true⟩ v.item ⟨0, []⟩ rfl htyped
  unfold Json.printItem at hprint'
  rw [hprinted] at hprint'
  obtain ⟨rfl, rfl⟩ := Prod.mk.inj (Option.some.inj hprint')
  obtain ⟨text, htext, hbytes', -⟩ := hblock.printed block rfl
  have hzero := (Json.zero_not_mem_text true).1 v.item htyped 0 text htext
  have hsame : block.text = textOfBytes text :=
    @text_terminated block ⟨text, hzero⟩ hbytes'
  rw [← (CJson.text_of_value true).1 item v 0 hitem, htext, ← hcontent, hsame,
    CJson.ascii_textOfBytes]

end Env

end IotDeviceSdk
