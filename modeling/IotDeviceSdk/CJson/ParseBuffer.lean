import IotDeviceSdk.CJson.Item
import IotDeviceSdk.Libc.Memory
import IotDeviceSdk.Prog.Basic

/-!
# The input of the parser

`parse_buffer` is a buffer of `length` bytes with an offset into it and the nesting depth at that
offset.  The buffer does not change during a parse; reading outside it is undefined.
-/

namespace IotDeviceSdk.Json

/-- `CJSON_NESTING_LIMIT`. -/
def CJSON_NESTING_LIMIT : ℕ := 1000

/-- What a parse does not change: the bytes of the buffer, and which allocations succeed. -/
structure ParseEnv where
  content : List UInt8
  mallocs : ℕ → Bool

/-- The offset and the depth of the buffer, and the allocator. -/
structure ParseState where
  offset : ℕ
  depth : ℕ
  heap : Heap

/-- Code of the parser. -/
abbrev Parse (α : Type) : Type := Prog ParseEnv ParseState α

/-! ### Reading -/

/-- `buffer_at_offset(buffer)[i]`. -/
def byteAt (i : ℕ) : Parse UInt8 := fun env s =>
  (env.content[s.offset + i]?).map fun b => (b, s)

/-- `can_read`. -/
def canRead (size : ℕ) : Parse Bool := fun env s =>
  some (s.offset + size ≤ env.content.length, s)

/-- `can_access_at_index`. -/
def canAccessAtIndex (index : ℕ) : Parse Bool := fun env s =>
  some (s.offset + index < env.content.length, s)

/-- `strncmp(buffer_at_offset(buffer), text, strlen(text)) == 0`. -/
def strncmpEq (text : List UInt8) : Parse Bool := fun env s =>
  if s.offset + text.length ≤ env.content.length then
    some (slice env.content s.offset text.length = text, s)
  else none

/-- `can_access_at_index(buffer, 0) && (buffer_at_offset(buffer)[0] == c)`. -/
def isAt (c : UInt8) : Parse Bool := do
  if ← canAccessAtIndex 0 then return (← byteAt 0) == c else return false

/-- `can_read` for a text, and the text is there. -/
def readsText (text : List UInt8) : Parse Bool := do
  if ← canRead text.length then strncmpEq text else return false

/-- Whether the byte at the offset is white space. -/
def isWhitespace (b : UInt8) : Bool := b ≤ 32

/-! ### Moving -/

/-- `offset += n`. -/
def advance (n : ℕ) : Parse Unit := modify fun s => { s with offset := s.offset + n }

/-- `offset--`. -/
def stepBack : Parse Unit := modify fun s => { s with offset := s.offset - 1 }

/-- `depth++`. -/
def enter : Parse Unit := modify fun s => { s with depth := s.depth + 1 }

/-- `depth--`. -/
def leave : Parse Unit := modify fun s => { s with depth := s.depth - 1 }

/-- The white space at an offset of the buffer: the bytes its loop passes. -/
def whitespaceFrom (content : List UInt8) (offset : ℕ) : ℕ :=
  ((content.drop offset).takeWhile isWhitespace).length

/-- `buffer_skip_whitespace`. -/
def bufferSkipWhitespace : Parse Unit := do
  if ← canAccessAtIndex 0 then
    advance (whitespaceFrom (← read).content (← get).offset)
    if (← get).offset == (← read).content.length then stepBack

/-- The UTF-8 byte order mark. -/
def byteOrderMark : List UInt8 := [0xEF, 0xBB, 0xBF]

/-- `skip_utf8_bom`, at the start of the buffer. -/
def skipUtf8Bom : Parse Unit := do
  if ← canAccessAtIndex 4 then
    if ← strncmpEq byteOrderMark then advance byteOrderMark.length

/-! ### Memory -/

/-- `hooks.allocate`. -/
def allocate : Parse (Option ℕ) := fun env s =>
  let (address, heap) := s.heap.allocate env.mallocs
  some (address, { s with heap := heap })

/-- `hooks.deallocate`. -/
def deallocate (address : ℕ) : Parse Unit := fun _ s =>
  (s.heap.deallocate address).map fun heap => ((), { s with heap := heap })

/-- `cJSON_New_Item`, none for `NULL`. -/
def newItem : Parse (Option Item) := return (← allocate).map Item.blank

/-- `cJSON_Delete`. -/
def deleteItems (items : List Item) : Parse Unit := fun _ s =>
  (delete items s.heap).map fun heap => ((), { s with heap := heap })

end IotDeviceSdk.Json
