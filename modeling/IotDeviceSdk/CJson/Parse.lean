import IotDeviceSdk.CJson.ParseString
import IotDeviceSdk.Libc.Strtod

/-!
# The parser

`parse_value` and the functions it calls.  A function that fails leaves the item it was given alone
and answers none (`false`).  `parse_array` and `parse_object` differ in how they read a member; the
rest of both is `parseItems`, with the loop over the members in `itemsLoop`.

The recursion of the source is bounded by the nesting limit, and its loops by the length of the
buffer; the model counts both down and is undefined when they run out.
-/

namespace IotDeviceSdk.Json

/-! ### Numbers -/

/-- The bytes `parse_number` copies: digits, `+`, `-`, `e`, `E` and `.`. -/
def isNumberByte (b : UInt8) : Bool :=
  (48 ≤ b && b ≤ 57) || b == 43 || b == 45 || b == 101 || b == 69 || b == 46

/-- `number_c_string`: at most 63 bytes of the buffer from an offset on. -/
def numberCString (content : List UInt8) (offset : ℕ) : List UInt8 :=
  ((content.drop offset).take 63).takeWhile isNumberByte

/-- The characters of bytes. -/
def charsOfBytes (bytes : List UInt8) : List Char := bytes.map fun b => Char.ofNat b.toNat

/-- `parse_number`. -/
def parseNumber (item : Item) : Parse (Option Item) := do
  let number_c_string := charsOfBytes (numberCString (← read).content (← get).offset)
  let (value, after_end) := strtod number_c_string
  if after_end.length = number_c_string.length then return none
  else
    match value with
    | .nan => Prog.undefined -- the conversion to an `int`
    | .num number =>
      advance (number_c_string.length - after_end.length)
      return some { item with
        valuedouble := number, valueint := doubleToInt number, type := .number }

/-! ### Arrays and objects -/

/-- The loop of `parse_array` and `parse_object`: the list of items in front of the one that is not
followed by a comma, and that one. -/
def itemsLoop (parseMember : Item → Parse (Bool × Item)) : ℕ → List Item →
    Parse (Option (List Item))
  | 0, _ => Prog.undefined
  | n + 1, head => do
    match ← newItem with
    | none =>
      deleteItems head
      return none
    | some new_item =>
      advance 1
      bufferSkipWhitespace
      let (parsed, current_item) ← parseMember new_item
      if !parsed then
        deleteItems (head ++ [current_item])
        return none
      else
        bufferSkipWhitespace
        if ← isAt 44 then itemsLoop parseMember n (head ++ [current_item])
        else return some (head ++ [current_item])

/-- `success` of `parse_array` and `parse_object`. -/
def finishItems (type : ItemType) (item : Item) (head : List Item) : Parse (Option Item) := do
  leave
  advance 1
  return some { item with type := type, child := head }

/-- `parse_array` and `parse_object`, from the test of the first byte, the closing byte, the type
and the reading of a member. -/
def parseItems (opens : Parse Bool) (closing : UInt8) (type : ItemType)
    (parseMember : Item → Parse (Bool × Item)) (item : Item) : Parse (Option Item) := do
  if (← get).depth ≥ CJSON_NESTING_LIMIT then return none
  else
    enter
    if !(← opens) then return none
    else
      advance 1
      bufferSkipWhitespace
      if ← isAt closing then finishItems type item []
      else if !(← canAccessAtIndex 0) then
        stepBack
        return none
      else
        stepBack
        match ← itemsLoop parseMember ((← read).content.length + 1) [] with
        | none => return none
        | some head =>
          if !(← isAt closing) then
            deleteItems head
            return none
          else finishItems type item head

/-- An element of an array: whether it could be parsed, and the item as it is then. -/
def parseElement (parseValue : Item → Parse (Option Item)) (item : Item) : Parse (Bool × Item) := do
  match ← parseValue item with
  | none => return (false, item)
  | some item => return (true, item)

/-- A member of an object, its name first. -/
def parseMember (parseValue : Item → Parse (Option Item)) (item : Item) : Parse (Bool × Item) := do
  match ← parseString item with
  | none => return (false, item)
  | some named =>
    bufferSkipWhitespace
    -- swap valuestring and string, because we parsed the name
    let item := { named with string := named.valuestring, valuestring := none }
    if !(← isAt 58) then return (false, item)
    else
      advance 1
      bufferSkipWhitespace
      parseElement parseValue item

/-- `parse_array`. -/
def parseArray (parseValue : Item → Parse (Option Item)) (item : Item) : Parse (Option Item) :=
  parseItems (return (← byteAt 0) == 91) 93 .array (parseElement parseValue) item

/-- `parse_object`. -/
def parseObject (parseValue : Item → Parse (Option Item)) (item : Item) : Parse (Option Item) :=
  parseItems (isAt 123) 125 .object (parseMember parseValue) item

/-! ### Values -/

/-- Whether a number starts with a byte. -/
def startsNumber (b : UInt8) : Bool := b == 45 || (48 ≤ b && b ≤ 57)

/-- `parse_value`, with a bound on the depth of its recursion. -/
def parseValue : ℕ → Item → Parse (Option Item)
  | 0, _ => Prog.undefined
  | fuel + 1, item => do
    if ← readsText (ascii "null") then
      advance 4
      return some { item with type := .null }
    else if ← readsText (ascii "false") then
      advance 5
      return some { item with type := .false }
    else if ← readsText (ascii "true") then
      advance 4
      return some { item with type := .true, valueint := 1 }
    else if ← isAt 34 then parseString item
    else if ← (do if ← canAccessAtIndex 0 then return startsNumber (← byteAt 0) else return false)
      then parseNumber item
    else if ← isAt 91 then parseArray (parseValue fuel) item
    else if ← isAt 123 then parseObject (parseValue fuel) item
    else return none

/-! ### Texts -/

/-- `cJSON_ParseWithLengthOpts` between the allocation of the root and the end of the text. -/
def parseRoot (require_null_terminated : Bool) : Parse (Option Item) := do
  match ← newItem with
  | none => return none
  | some item =>
    skipUtf8Bom
    bufferSkipWhitespace
    match ← parseValue (CJSON_NESTING_LIMIT + 1) item with
    | none =>
      deleteItems [item]
      return none
    | some item =>
      if require_null_terminated then
        bufferSkipWhitespace
        if !(← isAt 0) then
          deleteItems [item]
          return none
        else return some item
      else return some item

/-- What `cJSON_ParseWithLengthOpts` answers: the item, and how far into the text
`*return_parse_end` points.  After a failure this is also the position of `global_error`. -/
structure ParseResult where
  item : Option Item
  parse_end : ℕ

/-- `cJSON_ParseWithLengthOpts` of a text of `content.length` bytes. -/
def parseWithLengthOpts (mallocs : ℕ → Bool) (content : List UInt8)
    (require_null_terminated : Bool) (heap : Heap) : Option (ParseResult × Heap) :=
  if content.length = 0 then some (⟨none, 0⟩, heap)
  else
    (parseRoot require_null_terminated ⟨content, mallocs⟩ ⟨0, 0, heap⟩).map fun (item, s) =>
      match item with
      | some item => (⟨some item, s.offset⟩, s.heap)
      | none => (⟨none, if s.offset < content.length then s.offset else content.length - 1⟩, s.heap)

/-- `cJSON_ParseWithOpts` of a C string. -/
def parseWithOpts (mallocs : ℕ → Bool) (value : CString) (require_null_terminated : Bool)
    (heap : Heap) : Option (ParseResult × Heap) :=
  parseWithLengthOpts mallocs (value.bytes ++ [0]) require_null_terminated heap

/-- `cJSON_Parse`. -/
def parse (mallocs : ℕ → Bool) (value : CString) (heap : Heap) : Option (Option Item × Heap) :=
  (parseWithOpts mallocs value false heap).map fun (result, heap) => (result.item, heap)

end IotDeviceSdk.Json
