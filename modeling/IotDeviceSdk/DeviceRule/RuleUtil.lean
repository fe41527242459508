import IotDeviceSdk.Env

/-!
# `rule_util.c`

Copies of texts, integers of JSON items, and the dynamic arrays the rule engine stores its rules,
conditions and actions in.

An array is the list of its items.  What `DynamicArrayPush` does to the block behind the items
(growing it by `calloc` and `memcpy_s`) shows only in whether it succeeds, so a push asks once
for memory before it runs the constructor of the item; shrinking the block in
`DynamicArrayPopNoDtor` never changes the items and is left out.
-/

namespace IotDeviceSdk.DeviceRule

open CJson

/-- `ERRVAL`. -/
def ERRVAL : ℤ := -1

/-- `INT32_MAX`. -/
def INT32_MAX : ℕ := 2147483647

/-- `GetIntValueFromJson`. -/
def getIntValueFromJson (item : Option CJson) : Option ℤ :=
  match item with
  | some (.number valuedouble) => some (doubleToInt valuedouble)
  | _ => none

/-- `CStrDuplicate`: the new value of `*self`, or `none` when it fails and leaves `*self`. -/
def cStrDuplicate (s : Option String) : Sdk (Option (Option String)) :=
  match s with
  | none => pure (some none)
  | some s => do
    if s.length + 1 ≥ INT32_MAX then return none
    if ← malloc then return some (some s) else return none

/-- `CStrDuplicateNotNULL`: the copy, or `none` when it fails. -/
def cStrDuplicateNotNULL (s : Option String) : Sdk (Option String) :=
  match s with
  | none => pure none
  | some s => do
    match ← cStrDuplicate (some s) with
    | some copy => return copy
    | none => return none

/-- `cJSON_Duplicate` of a possibly missing item; its allocations succeed or fail together. -/
def cJsonDuplicate (item : Option CJson) : Sdk (Option CJson) :=
  match item with
  | none => pure none
  | some item => do
    if ← malloc then return some item else return none

/-- `strcmp(s, t) == 0`, undefined on a `NULL` pointer. -/
def strcmpEq (s t : Option String) : Sdk Bool :=
  match s, t with
  | some s, some t => pure (s == t)
  | _, _ => Prog.undefined

theorem strcmpEq_yields {env : Env} (s t : Option String) :
    Prog.Yields env (strcmpEq s t) fun b => ∃ a c, s = some a ∧ t = some c ∧ b = (a == c) := by
  cases s with
  | none => exact Prog.yields_undefined
  | some a =>
    cases t with
    | none => exact Prog.yields_undefined
    | some c => exact Prog.yields_pure ⟨a, c, rfl, rfl, rfl⟩

/-! ### Dynamic arrays -/

variable {α : Type}

/-- `DynamicArrayPush`: the array with the constructed item at its end, and that item, or `none`
when the array is left as it was. -/
def dynamicArrayPush (items : List α) (funcItemCtor : Sdk (Option α)) :
    Sdk (Option (List α × α)) := do
  if !(← malloc) then return none
  match ← funcItemCtor with
  | some item => return some (items ++ [item], item)
  | none => return none

/-- Writing an item through the pointer `DynamicArrayPush` returned: the last item. -/
def dynamicArrayWriteLast (items : List α) (item : α) : List α := items.dropLast ++ [item]

/-- `DynamicArrayRemoveItem` on the item at index `i`. -/
def dynamicArrayRemoveItem (items : List α) (i : ℕ) : List α := items.eraseIdx i

/-- `DynamicArrayPop`; on an empty array it runs the destructor outside the block. -/
def dynamicArrayPop (items : List α) : Sdk (List α) :=
  match items with
  | [] => Prog.undefined
  | items => pure items.dropLast

@[simp] theorem dynamicArrayWriteLast_append (items : List α) (a b : α) :
    dynamicArrayWriteLast (items ++ [a]) b = items ++ [b] := by
  simp [dynamicArrayWriteLast]

@[simp] theorem dynamicArrayPop_append (items : List α) (a : α) :
    dynamicArrayPop (items ++ [a]) = pure items := by
  rw [dynamicArrayPop.eq_def]
  split
  · rename_i h
    simp at h
  · rw [List.dropLast_concat]

end IotDeviceSdk.DeviceRule
