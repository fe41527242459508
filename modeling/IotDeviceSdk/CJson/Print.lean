import IotDeviceSdk.CJson.PrintBuffer
import IotDeviceSdk.Libc.FormatG

/-!
# The printer

`print_value` and the functions it calls, over the items of a tree.  Each answers whether it could
print; what it leaves behind the last offset is a C string, whose end `update_offset` finds.
-/

namespace IotDeviceSdk.Json

/-! ### Numbers -/

/-- `sprintf` into `number_buffer`, which has 26 bytes. -/
def sprintfNumber (text : List UInt8) : Option (List UInt8) :=
  if text.length < 26 then some text else none

/-- `%1.*g`. -/
def formatDouble (digits : ℕ) (d : ℚ) : List UInt8 :=
  (formatG digits d).map fun c => UInt8.ofNat c.toNat

/-- `sscanf` of `%lg`. -/
def sscanfDouble (text : List UInt8) : Option CDouble :=
  let chars := text.map fun b => Char.ofNat b.toNat
  if (strtod chars).2.length = chars.length then none else some (strtod chars).1

/-- `number_buffer` of `print_number`. -/
def numberBuffer (valueint : ℤ) (d : ℚ) : Option (List UInt8) :=
  if isInf d then sprintfNumber (ascii "null")
  else if d = valueint then sprintfNumber (decimalText valueint)
  else
    (sprintfNumber (formatDouble 15 d)).bind fun text =>
      match sscanfDouble text with
      | some (.num test) =>
        if compareDouble test d then some text else sprintfNumber (formatDouble 17 d)
      | _ => sprintfNumber (formatDouble 17 d)

/-- `print_number`. -/
def printNumber (valueint : ℤ) (valuedouble : ℚ) : Print Bool := do
  let number_buffer ← Prog.ofOption (numberBuffer valueint valuedouble)
  if 25 < number_buffer.length then return false
  else if !(← ensure (number_buffer.length + 1)) then return false
  else
    write (← get).offset (number_buffer ++ [0])
    moveOffset number_buffer.length
    return true

/-! ### Strings -/

/-- The letter of an escape of one character. -/
def escapeLetter (b : UInt8) : Option UInt8 :=
  if b = 92 then some 92
  else if b = 34 then some 34
  else if b = 8 then some 98
  else if b = 12 then some 102
  else if b = 10 then some 110
  else if b = 13 then some 114
  else if b = 9 then some 116
  else none

/-- The characters a byte needs in addition when it is escaped. -/
def escapeCharacters (b : UInt8) : ℕ :=
  if (escapeLetter b).isSome then 1 else if b < 32 then 5 else 0

/-- `%04x` of a byte. -/
def hexWord (b : UInt8) : List UInt8 := 48 :: 48 :: hexByte b

/-- The loop that copies a string, with the position of `output_pointer`. -/
def printCharacters : List UInt8 → ℕ → Print Unit
  | [], _ => pure ()
  | b :: input, position => do
    if 31 < b ∧ b ≠ 34 ∧ b ≠ 92 then
      write position [b]
      printCharacters input (position + 1)
    else
      write position [92]
      match escapeLetter b with
      | some letter =>
        write (position + 1) [letter]
        printCharacters input (position + 2)
      | none =>
        -- `sprintf` terminates what it prints
        write (position + 1) (117 :: hexWord b ++ [0])
        printCharacters input (position + 6)

/-- `print_string_ptr`. -/
def printStringPtr (input : Option TextBlock) : Print Bool := do
  match input with
  | none =>
    if !(← ensure 3) then return false
    else
      write (← get).offset [34, 34, 0]
      return true
  | some block =>
    let input := cString block.bytes
    let escape_characters := (input.map escapeCharacters).sum
    let output_length := input.length + escape_characters
    if !(← ensure (output_length + 3)) then return false
    else
      let output := (← get).offset
      write output [34]
      if escape_characters = 0 then write (output + 1) input else printCharacters input (output + 1)
      write (output + output_length + 1) [34]
      write (output + output_length + 2) [0]
      return true

/-! ### Values -/

/-- The literals and the raw text of `print_value`, which asks for `needed` bytes. -/
def printText (needed : ℕ) (text : List UInt8) : Print Bool := do
  if !(← ensure needed) then return false
  else
    write (← get).offset (text ++ [0])
    return true

/-- What `print_array` does behind an element. -/
def printComma (more : Bool) : Print Bool := do
  if more then
    let text : List UInt8 := if (← read).format then [44, 32] else [44]
    if !(← ensure (text.length + 1)) then return false
    else
      write (← get).offset (text ++ [0])
      moveOffset text.length
      return true
  else return true

/-- `print_array`, from the loop over the elements. -/
def printArray (printElements : Print Bool) : Print Bool := do
  if !(← ensure 1) then return false
  else
    write (← get).offset [91]
    moveOffset 1
    deepen
    if !(← printElements) then return false
    else if !(← ensure 2) then return false
    else
      write (← get).offset [93, 0]
      flatten
      return true

/-- The tabs of `print_object` in front of a name. -/
def printTabs : Print Bool := do
  if (← read).format then
    let depth := (← get).depth
    if !(← ensure depth) then return false
    else
      write (← get).offset (List.replicate depth 9)
      moveOffset depth
      return true
  else return true

/-- The colon of `print_object`. -/
def printColon : Print Bool := do
  let text : List UInt8 := if (← read).format then [58, 9] else [58]
  if !(← ensure text.length) then return false
  else
    write (← get).offset text
    moveOffset text.length
    return true

/-- The loop of `print_object` in front of the value of a member. -/
def printKey (string : Option TextBlock) : Print Bool := do
  if !(← printTabs) then return false
  else if !(← printStringPtr string) then return false
  else
    updateOffset
    printColon

/-- The loop of `print_object` behind the value of a member. -/
def printMemberEnd (more : Bool) : Print Bool := do
  let text : List UInt8 := (if more then [44] else []) ++ if (← read).format then [10] else []
  if !(← ensure (text.length + 1)) then return false
  else
    write (← get).offset (text ++ [0])
    moveOffset text.length
    return true

/-- `print_object`, from the loop over the members. -/
def printObject (printMembers : Print Bool) : Print Bool := do
  let format := (← read).format
  let text : List UInt8 := if format then [123, 10] else [123]
  if !(← ensure (text.length + 1)) then return false
  else
    write (← get).offset text
    deepen
    moveOffset text.length
    if !(← printMembers) then return false
    else
      let depth := (← get).depth
      if !(← ensure (if format then depth + 1 else 2)) then return false
      else
        let tabs := if format then depth - 1 else 0
        write (← get).offset (List.replicate tabs 9 ++ [125, 0])
        flatten
        return true

mutual

/-- `print_value`. -/
def printValue : Item → Print Bool
  | ⟨_, type, _, _, valuestring, valueint, valuedouble, _, child⟩ =>
    match type with
    | .null => printText 5 (ascii "null")
    | .false => printText 6 (ascii "false")
    | .true => printText 5 (ascii "true")
    | .number => printNumber valueint valuedouble
    | .raw =>
      match valuestring with
      | none => return false
      | some block => printText ((cString block.bytes).length + 1) (cString block.bytes)
    | .string => printStringPtr valuestring
    | .array => printArray (printElements child)
    | .object => printObject (printMembers child)
    | .invalid => return false
termination_by structural item => item

/-- The loop of `print_array`. -/
def printElements : List Item → Print Bool
  | [] => return true
  | item :: next => do
    if !(← printValue item) then return false
    else
      updateOffset
      if !(← printComma !next.isEmpty) then return false else printElements next
termination_by structural items => items

/-- The loop of `print_object`. -/
def printMembers : List Item → Print Bool
  | [] => return true
  | item :: next => do
    if !(← printKey item.string) then return false
    else if !(← printValue item) then return false
    else
      updateOffset
      if !(← printMemberEnd !next.isEmpty) then return false else printMembers next
termination_by structural items => items

end

/-! ### Texts -/

/-- `default_buffer_size` of `print`. -/
def defaultBufferSize : ℕ := 256

/-- A new block for the printer. -/
def startBuffer (address size : ℕ) : Print Unit := modify fun s =>
  { s with buffer := some ⟨address, List.replicate size none⟩, length := size }

/-- `fail` of `print`. -/
def failPrint : Print (Option Block) := do
  match (← get).buffer with
  | none => return none
  | some block =>
    freeBlock block.address
    return none

/-- `print` between the value and its result: the text in a block of its own size. -/
def finishPrint (block : Block) : Print (Option Block) := do
  let s ← get
  let size := s.offset + 1
  if (← read).reallocates then
    match ← reallocateBlock block.address with
    | none => failPrint
    | some printed =>
      modify fun s => { s with buffer := none }
      return some ⟨printed, resize block.bytes size⟩
  else
    match ← allocateBlock with
    | none => failPrint
    | some printed =>
      let count := min s.length size
      if count ≤ block.bytes.length then
        freeBlock block.address
        return some ⟨printed, (resize (block.bytes.take count) size).set s.offset (some 0)⟩
      else Prog.undefined

/-- `print`. -/
def print (item : Item) : Print (Option Block) := do
  match ← allocateBlock with
  | none => failPrint
  | some address =>
    startBuffer address defaultBufferSize
    if !(← printValue item) then failPrint
    else
      updateOffset
      match (← get).buffer with
      | none => Prog.undefined
      | some block => finishPrint block

/-- `cJSON_PrintBuffered`, when `prebuffer` is not negative. -/
def printBuffered (prebuffer : ℕ) (item : Item) : Print (Option Block) := do
  match ← allocateBlock with
  | none => return none
  | some address =>
    startBuffer address prebuffer
    if !(← printValue item) then failPrint
    else return (← get).buffer

/-- The hooks `cJSON_InitHooks` can leave: `reallocates` without hooks of the program's own. -/
structure Hooks where
  reallocates : Bool
  mallocs : ℕ → Bool

/-- The state every print starts in. -/
def startState (heap : Heap) : PrintState := ⟨none, 0, 0, 0, heap⟩

/-- `cJSON_Print` and `cJSON_PrintUnformatted`. -/
def printItem (hooks : Hooks) (format : Bool) (item : Item) (heap : Heap) :
    Option (Option Block × Heap) :=
  (print item ⟨false, format, hooks.reallocates, hooks.mallocs⟩ (startState heap)).map
    fun (printed, s) => (printed, s.heap)

/-- `cJSON_PrintBuffered`. -/
def printItemBuffered (hooks : Hooks) (prebuffer : ℤ) (format : Bool) (item : Item) (heap : Heap) :
    Option (Option Block × Heap) :=
  if prebuffer < 0 then some (none, heap)
  else
    (printBuffered prebuffer.toNat item ⟨false, format, hooks.reallocates, hooks.mallocs⟩
      (startState heap)).map fun (printed, s) => (printed, s.heap)

/-- `cJSON_PrintPreallocated` into a block, of which it may use `length` bytes: whether it printed,
and the block then. -/
def printPreallocated (hooks : Hooks) (buffer : Option Block) (length : ℤ) (format : Bool)
    (item : Item) (heap : Heap) : Option (Bool × Option Block × Heap) :=
  if length < 0 ∨ buffer.isNone then some (false, buffer, heap)
  else
    (printValue item ⟨true, format, hooks.reallocates, hooks.mallocs⟩
      ⟨buffer, length.toNat, 0, 0, heap⟩).map fun (printed, s) => (printed, s.buffer, s.heap)

end IotDeviceSdk.Json
