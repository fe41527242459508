import IotDeviceSdk.CJson.Basic
import IotDeviceSdk.Libc.Bytes

/-!
# The items of `cJSON` in memory

`Item` is `struct cJSON`: the list a `child` pointer leads to is a list of items (`next` and `prev`
are its links), and a text is the block that holds it.  `Heap` is the allocator behind the global
hooks; an allocation may fail, and freeing what is not allocated is undefined.

`Item.value` is the JSON value an item stands for, `Item.blocks` the blocks `cJSON_Delete` frees.
-/

namespace IotDeviceSdk.Json

/-! ### Memory -/

/-- The allocator: how many blocks have been asked for, and the addresses of the live ones. -/
structure Heap where
  asked : ℕ
  live : List ℕ
  deriving DecidableEq

namespace Heap

/-- `hooks.allocate`: the address of the new block, none for `NULL`. -/
def allocate (mallocs : ℕ → Bool) (heap : Heap) : Option ℕ × Heap :=
  if mallocs heap.asked then (some heap.asked, ⟨heap.asked + 1, heap.asked :: heap.live⟩)
  else (none, ⟨heap.asked + 1, heap.live⟩)

/-- `hooks.deallocate`, undefined for a block that is not live. -/
def deallocate (heap : Heap) (address : ℕ) : Option Heap :=
  if address ∈ heap.live then some { heap with live := heap.live.erase address } else none

end Heap

/-- A block with a C string in it. -/
structure TextBlock where
  address : ℕ
  bytes : List UInt8

/-- The C string as a text with one character for each byte. -/
def TextBlock.text (block : TextBlock) : String := textOfBytes (cString block.bytes)

/-! ### Items -/

/-- The low byte of the field `type`. -/
inductive ItemType where
  | invalid
  | false
  | true
  | null
  | number
  | string
  | array
  | object
  | raw
  deriving DecidableEq

/-- `cJSON`. -/
structure Item where
  address : ℕ
  type : ItemType
  isReference : Bool
  stringIsConst : Bool
  valuestring : Option TextBlock
  valueint : ℤ
  valuedouble : ℚ
  string : Option TextBlock
  child : List Item

namespace Item

/-- An item as `cJSON_New_Item` leaves it: all zeros. -/
def blank (address : ℕ) : Item where
  address := address
  type := .invalid
  isReference := Bool.false
  stringIsConst := Bool.false
  valuestring := none
  valueint := 0
  valuedouble := 0
  string := none
  child := []

/-! ### Deleting -/

/-- The address of a text an item owns, nothing for one it only refers to. -/
def ownedText (kept : Bool) (block : Option TextBlock) : List ℕ :=
  if kept then [] else (block.map TextBlock.address).toList

mutual

/-- The blocks an item owns, in the order `cJSON_Delete` frees them. -/
def blocks : Item → List ℕ
  | ⟨address, _, isReference, stringIsConst, valuestring, _, _, string, child⟩ =>
    (if isReference then [] else listBlocks child) ++ (ownedText isReference valuestring ++
      (ownedText stringIsConst string ++ [address]))
termination_by structural item => item

/-- The blocks a list of items owns. -/
def listBlocks : List Item → List ℕ
  | [] => []
  | item :: next => blocks item ++ listBlocks next
termination_by structural items => items

end

end Item

/-- Freeing blocks one after the other. -/
def deallocateAll (heap : Heap) (addresses : List ℕ) : Option Heap :=
  addresses.foldlM Heap.deallocate heap

/-- Freeing a text, unless it is kept or missing. -/
def deallocateText (kept : Bool) (block : Option TextBlock) (heap : Heap) : Option Heap :=
  match kept, block with
  | false, some block => heap.deallocate block.address
  | _, _ => some heap

mutual

/-- One round of the loop of `cJSON_Delete`. -/
def deleteItem : Item → Heap → Option Heap
  | ⟨address, _, isReference, stringIsConst, valuestring, _, _, string, child⟩, heap =>
    (if !isReference && !child.isEmpty then delete child heap else some heap).bind fun heap =>
    (deallocateText isReference valuestring heap).bind fun heap =>
    (deallocateText stringIsConst string heap).bind fun heap =>
    heap.deallocate address
termination_by structural item => item

/-- `cJSON_Delete` of an item and those behind it in its list. -/
def delete : List Item → Heap → Option Heap
  | [], heap => some heap
  | item :: next, heap => (deleteItem item heap).bind (delete next)
termination_by structural items => items

end

/-! ### Values -/

namespace Item

mutual

/-- The value an item stands for: none when an item in it has no type, is raw text, lacks its text
or its key, or has a `valueint` that is not its number. -/
def value : Item → Option CJson
  | ⟨_, type, _, _, valuestring, valueint, valuedouble, _, child⟩ =>
    match type with
    | .invalid => none
    | .false => some (.bool Bool.false)
    | .true => some (.bool Bool.true)
    | .null => some .null
    | .number => if valueint = doubleToInt valuedouble then some (.number valuedouble) else none
    | .string => valuestring.map fun block => .string block.text
    | .array => (elementValues child).map .array
    | .object => (memberValues child).map .object
    | .raw => none
termination_by structural item => item

/-- The values of the items of an array. -/
def elementValues : List Item → Option (List CJson)
  | [] => some []
  | item :: next => do
    let first ← value item
    let rest ← elementValues next
    return first :: rest
termination_by structural items => items

/-- The members of an object. -/
def memberValues : List Item → Option (List (String × CJson))
  | [] => some []
  | item :: next => do
    let key ← item.string
    let first ← value item
    let rest ← memberValues next
    return (key.text, first) :: rest
termination_by structural items => items

end

end Item

end IotDeviceSdk.Json
