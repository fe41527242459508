import IotDeviceSdk.CJson.Item
import IotDeviceSdk.Libc.Memory
import IotDeviceSdk.Prog.Basic

/-!
# The output of the printer

`printbuffer` is a block of memory with an offset into it.  `ensure` makes room at the offset, which
moves the block unless the caller owns it (`noalloc`).  A byte nothing has been written to has no
value (`none`); reading one that way, or outside the block, and writing outside it are undefined.
-/

namespace IotDeviceSdk.Json

/-- A block of memory. -/
structure Block where
  address : ℕ
  bytes : List (Option UInt8)
  deriving DecidableEq

/-- What a print does not change: the fields `noalloc` and `format`, whether there is a
`hooks.reallocate`, and which allocations succeed. -/
structure PrintEnv where
  noalloc : Bool
  format : Bool
  reallocates : Bool
  mallocs : ℕ → Bool

/-- The other fields of `printbuffer`, and the allocator. -/
structure PrintState where
  buffer : Option Block
  length : ℕ
  offset : ℕ
  depth : ℕ
  heap : Heap

/-- Code of the printer. -/
abbrev Print (α : Type) : Type := Prog PrintEnv PrintState α

namespace Heap

/-- `hooks.reallocate` of a live block: its new address, none for `NULL`. -/
def reallocate (mallocs : ℕ → Bool) (heap : Heap) (address : ℕ) : Option (Option ℕ × Heap) :=
  if address ∈ heap.live then
    some (if mallocs heap.asked then
      (some heap.asked, ⟨heap.asked + 1, heap.asked :: heap.live.erase address⟩)
    else (none, ⟨heap.asked + 1, heap.live⟩))
  else none

end Heap

/-! ### Memory -/

/-- `hooks.allocate`. -/
def allocateBlock : Print (Option ℕ) := fun env s =>
  let (address, heap) := s.heap.allocate env.mallocs
  some (address, { s with heap := heap })

/-- `hooks.deallocate`. -/
def freeBlock (address : ℕ) : Print Unit := fun _ s =>
  (s.heap.deallocate address).map fun heap => ((), { s with heap := heap })

/-- `hooks.reallocate`. -/
def reallocateBlock (address : ℕ) : Print (Option ℕ) := fun env s =>
  (s.heap.reallocate env.mallocs address).map fun (address, heap) =>
    (address, { s with heap := heap })

/-- The first bytes of a block in one of another size. -/
def resize (bytes : List (Option UInt8)) (size : ℕ) : List (Option UInt8) :=
  bytes.take size ++ List.replicate (size - bytes.length) none

/-- `strlen`, undefined without a terminator. -/
def strlen : List (Option UInt8) → Option ℕ
  | [] => none
  | none :: _ => none
  | some b :: bytes => if b = 0 then some 0 else (strlen bytes).map (· + 1)

/-! ### Room -/

/-- The end of `ensure` when the block could not be moved. -/
def dropBuffer (address : ℕ) : Print Bool := do
  freeBlock address
  modify fun s => { s with buffer := none, length := 0 }
  return false

/-- The block of the printer in a block of another size. -/
def moveBuffer (block : Block) (newsize : ℕ) : Print Bool := do
  if (← read).reallocates then
    match ← reallocateBlock block.address with
    | none => dropBuffer block.address
    | some address =>
      modify fun s =>
        { s with buffer := some ⟨address, resize block.bytes newsize⟩, length := newsize }
      return true
  else
    match ← allocateBlock with
    | none => dropBuffer block.address
    | some address =>
      let count := (← get).offset + 1
      if count ≤ block.bytes.length ∧ count ≤ newsize then
        freeBlock block.address
        modify fun s =>
          { s with
            buffer := some ⟨address, resize (block.bytes.take count) newsize⟩, length := newsize }
        return true
      else Prog.undefined

/-- `ensure`: whether there is room for `needed` bytes at the offset. -/
def ensure (needed : ℕ) : Print Bool := do
  let s ← get
  match s.buffer with
  | none => return false
  | some block =>
    if 0 < s.length ∧ s.length ≤ s.offset then return false
    else if INT_MAX.toNat < needed then return false
    else if needed + s.offset + 1 ≤ s.length then return true
    else if (← read).noalloc then return false
    else if INT_MAX.toNat / 2 < needed + s.offset + 1 then
      if needed + s.offset + 1 ≤ INT_MAX.toNat then moveBuffer block INT_MAX.toNat
      else return false
    else moveBuffer block ((needed + s.offset + 1) * 2)

/-! ### Writing -/

/-- Writing bytes at a position of the block. -/
def write (position : ℕ) (bytes : List UInt8) : Print Unit := fun _ s =>
  s.buffer.bind fun block =>
    if position + bytes.length ≤ block.bytes.length then
      some ((), { s with
        buffer := some ⟨block.address, overwrite block.bytes position (bytes.map some)⟩ })
    else none

/-- `offset += n`. -/
def moveOffset (n : ℕ) : Print Unit := modify fun s => { s with offset := s.offset + n }

/-- `update_offset`. -/
def updateOffset : Print Unit := do
  match (← get).buffer with
  | none => pure ()
  | some block => moveOffset (← Prog.ofOption (strlen (block.bytes.drop (← get).offset)))

/-- `depth++`. -/
def deepen : Print Unit := modify fun s => { s with depth := s.depth + 1 }

/-- `depth--`. -/
def flatten : Print Unit := modify fun s => { s with depth := s.depth - 1 }

end IotDeviceSdk.Json
