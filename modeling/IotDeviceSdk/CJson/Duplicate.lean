import IotDeviceSdk.CJson.Item
import IotDeviceSdk.Prog.Basic

/-!
# `cJSON_Duplicate`

The copy of an item with its texts and, recursively, with the items below it.  When an allocation
fails, what has been copied so far is deleted.
-/

namespace IotDeviceSdk.Json

/-- Code that allocates, in an environment that says which allocations succeed. -/
abbrev Copying (α : Type) : Type := Prog (ℕ → Bool) Heap α

namespace Copying

/-- `hooks->allocate`. -/
def allocate : Copying (Option ℕ) := fun mallocs heap => some (heap.allocate mallocs)

/-- `cJSON_Delete` of an item, the end of `cJSON_Duplicate` behind its label `fail`. -/
def fail (newitem : Item) : Copying (Option Item) := fun _ heap =>
  (delete [newitem] heap).map fun heap => (none, heap)

/-- `cJSON_strdup`. -/
def strdup (string : TextBlock) : Copying (Option TextBlock) :=
  return (← allocate).map fun address => ⟨address, cString string.bytes ++ [0]⟩

/-- A text of the copy, with whether there is one where the item has one. -/
def copyText (kept : Bool) (string : Option TextBlock) : Copying (Bool × Option TextBlock) :=
  match string with
  | none => return (true, none)
  | some string => do
    if kept then return (true, some string)
    let copy ← strdup string
    return (copy.isSome, copy)

end Copying

open Copying Prog

mutual

/-- `cJSON_Duplicate`. -/
def duplicate (recurse : Bool) : Item → Copying (Option Item)
  | ⟨_, type, _, stringIsConst, valuestring, valueint, valuedouble, string, child⟩ => do
    let some address ← allocate | return none
    let newitem : Item := { Item.blank address with
      type := type
      stringIsConst := stringIsConst
      valueint := valueint
      valuedouble := valuedouble }
    let (copied, newvalue) ← copyText Bool.false valuestring
    let newitem := { newitem with valuestring := newvalue }
    if !copied then return ← fail newitem
    let (copied, newstring) ← copyText stringIsConst string
    let newitem := { newitem with string := newstring }
    if !copied then return ← fail newitem
    if !recurse then return some newitem
    let (copied, newchild) ← duplicateChildren child
    let newitem := { newitem with child := newchild }
    if !copied then return ← fail newitem
    return some newitem
termination_by structural item => item

/-- The loop of `cJSON_Duplicate`: whether all items have been copied, and the copies. -/
def duplicateChildren : List Item → Copying (Bool × List Item)
  | [] => return (Bool.true, [])
  | child :: next => do
    let some newchild ← duplicate Bool.true child | return (Bool.false, [])
    let (copied, newnext) ← duplicateChildren next
    return (copied, newchild :: newnext)
termination_by structural items => items

end

end IotDeviceSdk.Json
