import IotDeviceSdk.CJson.Basic
import IotDeviceSdk.Libc.Time
import IotDeviceSdk.Links.Basic

/-!
# The links between the items of `cJSON`

`Item` holds the items below an item as a list.  `Nodes` are the pointers behind such lists: a
`child` leads to the first item, whose `prev` leads to the last one, and `next` from an item to the
one behind it.  A pointer is an address, none for `NULL`; reading through `NULL` is undefined.
-/

namespace IotDeviceSdk.Json

/-- The fields `next`, `prev`, `child` and `string` of all items. -/
structure Nodes extends Links ℕ where
  child : ℕ → Option ℕ
  string : ℕ → Option String

namespace Nodes

/-- `item->next = next`. -/
def setNext (s : Nodes) (item : ℕ) (next : Option ℕ) : Nodes :=
  { s with toLinks := s.toLinks.setNext item next }

/-- `item->prev = prev`. -/
def setPrev (s : Nodes) (item : ℕ) (prev : Option ℕ) : Nodes :=
  { s with toLinks := s.toLinks.setPrev item prev }

/-- `item->child = child`. -/
def setChild (s : Nodes) (item : ℕ) (child : Option ℕ) : Nodes :=
  { s with child := Function.update s.child item child }

/-- `item->string = string`. -/
def setString (s : Nodes) (item : ℕ) (string : Option String) : Nodes :=
  { s with string := Function.update s.string item string }

/-! ### Reading -/

/-- The loop of `cJSON_GetArraySize`, none when it takes more than `fuel` rounds. -/
def sizeFrom (s : Nodes) : ℕ → Option ℕ → Option ℕ
  | _, none => some 0
  | 0, some _ => none
  | fuel + 1, some child => (s.sizeFrom fuel (s.next child)).map (· + 1)

/-- `cJSON_GetArraySize`. -/
def getArraySize (s : Nodes) (fuel : ℕ) (array : Option ℕ) : Option ℤ :=
  match array with
  | none => some 0
  | some array => (s.sizeFrom fuel (s.child array)).map fun size => cInt size

/-- The loop of `get_array_item`. -/
def itemFrom (s : Nodes) : ℕ → Option ℕ → Option ℕ
  | _, none => none
  | 0, some current_child => some current_child
  | index + 1, some current_child => s.itemFrom index (s.next current_child)

/-- `get_array_item`. -/
def getArrayItem (s : Nodes) (array : Option ℕ) (index : ℕ) : Option ℕ :=
  array.bind fun array => s.itemFrom index (s.child array)

/-- The loop of `get_object_item` on names in any case, none when it takes more than `fuel` rounds.
-/
def namedFrom (s : Nodes) (name : String) : ℕ → Option ℕ → Option (Option ℕ)
  | _, none => some none
  | 0, some _ => none
  | fuel + 1, some current_element =>
    if (s.string current_element).any fun string => CJson.caseInsensitiveEq name string then
      some (some current_element)
    else s.namedFrom name fuel (s.next current_element)

/-- `cJSON_GetObjectItem`. -/
def getObjectItem (s : Nodes) (fuel : ℕ) (object : Option ℕ) (name : Option String) :
    Option (Option ℕ) :=
  match object, name with
  | some object, some name => s.namedFrom name fuel (s.child object)
  | _, _ => some none

/-! ### Adding -/

/-- `suffix_object`. -/
def suffixObject (s : Nodes) (prev item : ℕ) : Nodes :=
  (s.setNext prev (some item)).setPrev item (some prev)

/-- `add_item_to_array`. -/
def addItemToArray (array item : Option ℕ) (s : Nodes) : Bool × Nodes :=
  match array, item with
  | some array, some item =>
    if array = item then (false, s)
    else
      match s.child array with
      | none => (true, ((s.setChild array (some item)).setPrev item (some item)).setNext item none)
      | some child =>
        match s.prev child with
        | none => (true, s)
        | some last => (true, (s.suffixObject last item).setPrev child (some item))
  | _, _ => (false, s)

/-- `add_item_to_object` for a key that is copied; `copied` says whether `cJSON_strdup` succeeds. -/
def addItemToObject (copied : Bool) (object : Option ℕ) (string : Option String) (item : Option ℕ)
    (s : Nodes) : Bool × Nodes :=
  match object, string, item with
  | some object, some string, some item =>
    if object = item || !copied then (false, s)
    else addItemToArray object item (s.setString item (some string))
  | _, _, _ => (false, s)

/-! ### Taking out, putting in and exchanging -/

/-- The branches of `cJSON_DetachItemViaPointer` that set the `next` in front of the item. -/
def skipItem (parent item : ℕ) (s : Nodes) : Option Nodes :=
  if s.child parent = some item then some s
  else (s.prev item).map fun prev => s.setNext prev (s.next item)

/-- The last branches of `cJSON_DetachItemViaPointer`. -/
def moveChild (parent item : ℕ) (s : Nodes) : Option Nodes :=
  if s.child parent = some item then some (s.setChild parent (s.next item))
  else if s.next item = none then (s.child parent).map fun child => s.setPrev child (s.prev item)
  else some s

/-- `cJSON_DetachItemViaPointer`. -/
def detachItemViaPointer (parent item : Option ℕ) (s : Nodes) : Option (Option ℕ × Nodes) :=
  match parent, item with
  | some parent, some item => do
    let s ← skipItem parent item s
    let s := match s.next item with
      | some next => s.setPrev next (s.prev item)
      | none => s
    let s ← moveChild parent item s
    return (some item, (s.setPrev item none).setNext item none)
  | _, _ => some (none, s)

/-- `cJSON_DetachItemFromArray`. -/
def detachItemFromArray (array : Option ℕ) (which : ℤ) (s : Nodes) : Option (Option ℕ × Nodes) :=
  if which < 0 then some (none, s)
  else detachItemViaPointer array (s.getArrayItem array which.toNat) s

/-- `cJSON_DetachItemFromObject`. -/
def detachItemFromObject (fuel : ℕ) (object : Option ℕ) (string : Option String) (s : Nodes) :
    Option (Option ℕ × Nodes) := do
  let to_detach ← s.getObjectItem fuel object string
  detachItemViaPointer object to_detach s

/-- The writes of `cJSON_InsertItemInArray` that link the new item in front of another. -/
def linkBefore (after_inserted newitem : ℕ) (s : Nodes) : Nodes :=
  let s := s.setNext newitem (some after_inserted)
  let s := s.setPrev newitem (s.prev after_inserted)
  s.setPrev after_inserted (some newitem)

/-- `cJSON_InsertItemInArray`. -/
def insertItemInArray (array : Option ℕ) (which : ℤ) (newitem : Option ℕ) (s : Nodes) :
    Option (Bool × Nodes) :=
  if which < 0 then some (false, s)
  else
    match array, s.getArrayItem array which.toNat with
    | some array, some after_inserted => do
      let newitem ← newitem
      let s := linkBefore after_inserted newitem s
      if s.child array = some after_inserted then return (true, s.setChild array (some newitem))
      let prev ← s.prev newitem
      return (true, s.setNext prev (some newitem))
    | _, _ => some (addItemToArray array newitem s)

/-- The first writes of `cJSON_ReplaceItemViaPointer`. -/
def takeLinks (item replacement : ℕ) (s : Nodes) : Nodes :=
  let s := s.setNext replacement (s.next item)
  let s := s.setPrev replacement (s.prev item)
  match s.next replacement with
  | some next => s.setPrev next (some replacement)
  | none => s

/-- The branch of `cJSON_ReplaceItemViaPointer` for a first item. -/
def replaceFirst (parent replacement child : ℕ) (s : Nodes) : Nodes :=
  (if s.prev child = some child then s.setPrev replacement (some replacement)
    else s).setChild parent (some replacement)

/-- Its other branch. -/
def replaceLater (parent replacement : ℕ) (s : Nodes) : Option Nodes :=
  let s := match s.prev replacement with
    | some prev => s.setNext prev (some replacement)
    | none => s
  if s.next replacement = none then
    (s.child parent).map fun child => s.setPrev child (some replacement)
  else some s

/-- `cJSON_ReplaceItemViaPointer`, with the item that it hands to `cJSON_Delete`. -/
def replaceItemViaPointer (parent item replacement : Option ℕ) (s : Nodes) :
    Option (Bool × Option ℕ × Nodes) :=
  match parent, item, replacement with
  | some parent, some item, some replacement =>
    if replacement = item then some (true, none, s)
    else do
      let s := takeLinks item replacement s
      let s ← if s.child parent = some item then some (replaceFirst parent replacement item s)
        else replaceLater parent replacement s
      return (true, some item, (s.setNext item none).setPrev item none)
  | _, _, _ => some (false, none, s)

/-- `cJSON_ReplaceItemInArray`. -/
def replaceItemInArray (array : Option ℕ) (which : ℤ) (newitem : Option ℕ) (s : Nodes) :
    Option (Bool × Option ℕ × Nodes) :=
  if which < 0 then some (false, none, s)
  else replaceItemViaPointer array (s.getArrayItem array which.toNat) newitem s

end Nodes

end IotDeviceSdk.Json
