import IotDeviceSdk.Libc.Memory
import Mathlib.Algebra.Group.Nat.Defs
import Mathlib.Data.UInt

/-!
# The blocks behind the arrays of `rule_util.c`

`RuleUtil` has a dynamic array as the list of its items.  Here it is what the code works on: a block
of `reservedSize` items of `itemSize` bytes each, the first `size` of which are in use.  A pointer
to an item is its offset in the block.

Every function is given what it finds outside itself (`Outside`) and the state it starts in, which
also has the items `funcItemDtor` was called on and the errors that were logged.  `none` is an
access outside the block.
-/

namespace IotDeviceSdk.DeviceRule

/-- `SIZE_MAX`. -/
def SIZE_MAX : ℕ := 2 ^ 64 - 1

/-- A number as a `size_t`. -/
def sizeT (n : ℕ) : ℕ := n % 2 ^ 64

/-- A difference of two `size_t`. -/
def sizeTSub (n m : ℕ) : ℕ := sizeT (n + 2 ^ 64 - m)

/-- `EXPEND_SIZE`. -/
def EXPEND_SIZE : ℕ := 8

/-- `DEFAULT_RESERVE_SIZE`. -/
def DEFAULT_RESERVE_SIZE : ℕ := 2

/-- `DynamicArray`, with the bytes of the block `items` points to. -/
structure DynamicArray where
  size : ℕ
  reservedSize : ℕ
  items : List UInt8
  deriving DecidableEq

/-- What `DEVICE_RULE_ERROR` reports. -/
inductive ArrayError where
  | pushMemcpy
  | removeMemmove (result : ℕ)
  | popMemcpy
  deriving DecidableEq

/-- The text of an error. -/
def ArrayError.text : ArrayError → String
  | pushMemcpy => "[push]memcpy_s failed\n"
  | removeMemmove result => s!"memmove_s failed due to error:{result}\n"
  | popMemcpy => "[pop]memcpy_s failed\n"

/-- What a call finds outside itself: whether `calloc` succeeds, and what the constructor and the
destructor leave in the bytes of the item they are given. -/
structure Outside where
  allocated : Bool
  funcItemCtor : List UInt8 → Bool × List UInt8
  funcItemDtor : List UInt8 → List UInt8
  length_ctor : ∀ item, (funcItemCtor item).2.length = item.length
  length_dtor : ∀ item, (funcItemDtor item).length = item.length

/-- An array, the items `funcItemDtor` was called on, and the errors logged. -/
structure ArrayState where
  arr : DynamicArray
  destroyed : List (List UInt8) := []
  errors : List ArrayError := []
  deriving DecidableEq

/-- The state after a write to the block. -/
def ArrayState.write (s : ArrayState) (element : ℕ) (bytes : List UInt8) : ArrayState :=
  { s with arr := { s.arr with items := overwrite s.arr.items element bytes } }

/-- The state after a write to `arr->size`. -/
def ArrayState.setSize (s : ArrayState) (size : ℕ) : ArrayState :=
  { s with arr := { s.arr with size := size } }

/-- The state after a move to another block. -/
def ArrayState.setBlock (s : ArrayState) (newBlock : List UInt8) (reservedSize : ℕ) : ArrayState :=
  { s with arr := { s.arr with items := newBlock, reservedSize := reservedSize } }

/-- The state after a `DEVICE_RULE_ERROR`. -/
def ArrayState.report (s : ArrayState) (error : ArrayError) : ArrayState :=
  { s with errors := s.errors ++ [error] }

/-- `calloc`. -/
def calloc (count itemSize : ℕ) : List UInt8 := List.replicate (count * itemSize) 0

namespace DynamicArray

/-- `DynamicArrayGetItem`, from `arr->items` on. -/
def getItem (i itemSize : ℕ) : ℕ := sizeT (i * itemSize)

/-- `DynamicArrayCtor`: `none` for `HW_FALSE`. -/
def ctor (itemSize : ℕ) (outside : Outside) : Option ArrayState :=
  if outside.allocated then
    some
      { arr :=
          { size := 0
            reservedSize := DEFAULT_RESERVE_SIZE
            items := calloc DEFAULT_RESERVE_SIZE itemSize } }
  else none

/-- `funcItemCtor` on the item at an offset. -/
def callItemCtor (element itemSize : ℕ) (outside : Outside) (s : ArrayState) :
    Option (Bool × ArrayState) :=
  if element + itemSize > s.arr.items.length then none
  else
    let constructed := outside.funcItemCtor (slice s.arr.items element itemSize)
    some (constructed.1, s.write element constructed.2)

/-- `funcItemDtor` on the item at an offset. -/
def callItemDtor (element itemSize : ℕ) (outside : Outside) (s : ArrayState) :
    Option ArrayState :=
  if element + itemSize > s.arr.items.length then none
  else
    let item := slice s.arr.items element itemSize
    some { s.write element (outside.funcItemDtor item) with destroyed := s.destroyed ++ [item] }

/-- The part of `DynamicArrayPush` that makes room for one more item: whether it goes on. -/
def expend (itemSize : ℕ) (outside : Outside) (s : ArrayState) : Option (Bool × ArrayState) :=
  if s.arr.reservedSize > SIZE_MAX - EXPEND_SIZE then some (false, s)
  else
    let targetReservedSize := s.arr.reservedSize + EXPEND_SIZE
    if itemSize = 0 then some (false, s)
    else if SIZE_MAX / itemSize < targetReservedSize then some (false, s)
    else if !outside.allocated then some (false, s)
    else
      let newBlock := calloc targetReservedSize itemSize
      if s.arr.reservedSize ≠ 0 then do
        let (newBlock, result) ← memcpyS newBlock (sizeT (targetReservedSize * itemSize))
          s.arr.items (sizeT (s.arr.reservedSize * itemSize))
        if result ≠ EOK then
          return (false, s.report .pushMemcpy)
        return (true, s.setBlock newBlock targetReservedSize)
      else
        some (true, s.setBlock newBlock targetReservedSize)

/-- `DynamicArrayPush`: the pointer it returns, `none` for `NULL`. -/
def push (itemSize : ℕ) (outside : Outside) (s : ArrayState) :
    Option (Option ℕ × ArrayState) := do
  let index := s.arr.size
  let (expended, s) ←
    if index = s.arr.reservedSize then expend itemSize outside s else some (true, s)
  if !expended then
    return (none, s)
  let (constructed, s) ← callItemCtor (getItem index itemSize) itemSize outside s
  if !constructed then
    return (none, s)
  return (some (getItem index itemSize), s.setSize (s.arr.size + 1))

/-- The part of `DynamicArrayRemoveItem` that moves the `size` bytes from `start` on. -/
def closeGap (element start size : ℕ) (s : ArrayState) : Option ArrayState := do
  if size = 0 then
    return s
  let (items, result) ← memmoveS s.arr.items element size start size
  let s := s.setBlock items s.arr.reservedSize
  if result ≠ EOK then
    return s.report (.removeMemmove result)
  return s

/-- `DynamicArrayRemoveItem`. -/
def removeItem (element itemSize : ℕ) (outside : Outside) (s : ArrayState) :
    Option ArrayState := do
  let s ← callItemDtor element itemSize outside s
  let itemsEnd := getItem s.arr.size itemSize
  let start := element + itemSize
  let size := sizeTSub itemsEnd start
  closeGap element start size (s.setSize (sizeTSub s.arr.size 1))

/-- `DynamicArrayPopNoDtor`. -/
def popNoDtor (itemSize : ℕ) (outside : Outside) (s : ArrayState) :
    Option (Bool × ArrayState) := do
  if s.arr.size = 0 then
    return (false, s)
  let s := s.setSize (s.arr.size - 1)
  if sizeTSub s.arr.reservedSize s.arr.size ≥ EXPEND_SIZE then
    if !outside.allocated then
      return (false, s)
    let (newBlock, result) ← memcpyS (calloc s.arr.size itemSize) (sizeT (s.arr.size * itemSize))
      s.arr.items (sizeT (s.arr.size * itemSize))
    if result ≠ EOK then
      return (false, s.report .popMemcpy)
    return (true, s.setBlock newBlock s.arr.size)
  return (true, s)

/-- `DynamicArrayPop`. -/
def pop (itemSize : ℕ) (outside : Outside) (s : ArrayState) : Option (Bool × ArrayState) := do
  let index := sizeTSub s.arr.size 1
  let s ← callItemDtor (getItem index itemSize) itemSize outside s
  popNoDtor itemSize outside s

end DynamicArray

/-! ### Runs -/

/-- A call on an array. -/
inductive ArrayCall where
  | push | removeItem (k : ℕ) | pop | popNoDtor
  deriving DecidableEq

/-- What a call answers. -/
inductive ArrayAnswer where
  | pushed (item : Option ℕ) | removed | popped (shrunk : Bool)
  deriving DecidableEq

/-- A call, on the `k`-th item where it takes an item. -/
def ArrayCall.exec (itemSize : ℕ) (call : ArrayCall) (outside : Outside) (s : ArrayState) :
    Option (ArrayAnswer × ArrayState) :=
  match call with
  | push => (DynamicArray.push itemSize outside s).map fun r => (.pushed r.1, r.2)
  | removeItem k =>
    (DynamicArray.removeItem (DynamicArray.getItem k itemSize) itemSize outside s).map fun s =>
      (.removed, s)
  | pop => (DynamicArray.pop itemSize outside s).map fun r => (.popped r.1, r.2)
  | popNoDtor => (DynamicArray.popNoDtor itemSize outside s).map fun r => (.popped r.1, r.2)

/-- The calls that may be made: on an element inside the array, and on an array that is not
empty. -/
def ArrayCall.Allowed (call : ArrayCall) (size : ℕ) : Prop :=
  match call with
  | push => True
  | removeItem k => k < size
  | pop | popNoDtor => 0 < size

/-- A call that may be made, with what it finds outside and what it answers. -/
def ArrayStep (itemSize : ℕ) (s : ArrayState) (event : ArrayCall × Outside × ArrayAnswer)
    (s' : ArrayState) : Prop :=
  event.1.Allowed s.arr.size ∧ event.1.exec itemSize event.2.1 s = some (event.2.2, s')

end IotDeviceSdk.DeviceRule
