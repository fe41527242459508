import IotDeviceSdk.CJson.Parse
import IotDeviceSdk.CJson.Print
import IotDeviceSdk.Env

/-!
# The text functions of an environment

`Env.withCJson` is an environment whose `cJSON_Parse` and `cJSON_Print` are those of the source, with
an allocator that does not fail them.  They are functions of values there: `CJson.item` is an item
that stands for a value.
-/

namespace IotDeviceSdk

namespace CJson

open Json (Item)

/-- The block with a text. -/
def textBlock (s : String) : Json.TextBlock := ⟨0, ascii s⟩

mutual

/-- An item that stands for the value. -/
def item : CJson → Item
  | .null => { Item.blank 0 with type := .null }
  | .bool false => { Item.blank 0 with type := .false }
  | .bool true => { Item.blank 0 with type := .true, valueint := 1 }
  | .number d =>
    { Item.blank 0 with type := .number, valueint := doubleToInt d, valuedouble := d }
  | .string s => { Item.blank 0 with type := .string, valuestring := some (textBlock s) }
  | .array child => { Item.blank 0 with type := .array, child := elementItems child }
  | .object child => { Item.blank 0 with type := .object, child := memberItems child }
termination_by structural v => v

def elementItems : List CJson → List Item
  | [] => []
  | v :: vs => item v :: elementItems vs
termination_by structural vs => vs

def memberItems : List (String × CJson) → List Item
  | [] => []
  | (key, v) :: members =>
    { item v with string := some (textBlock key) } :: memberItems members
termination_by structural members => members

end

end CJson

namespace Json

/-- The C string in a block. -/
def Block.text (block : Block) : String := textOfBytes (cString block.bytes.reduceOption)

end Json

namespace Env

/-- The environment with the text functions of `cJSON`. -/
def withCJson (env : Env) : Env :=
  { env with
    parseJson := fun text =>
      if h : 0 ∉ ascii text then
        (Json.parse (fun _ => true) ⟨ascii text, h⟩ ⟨0, []⟩).bind fun (item, _) =>
          item.bind Json.Item.value
      else none
    printJson := fun v =>
      (Json.printItem ⟨true, fun _ => true⟩ true v.item ⟨0, []⟩).bind fun (printed, _) =>
        printed.map Json.Block.text }

end Env

end IotDeviceSdk
