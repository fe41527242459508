import IotDeviceSdk.CJson.ParseBuffer

/-!
# Parsing strings

`parse_string` first looks for the quote that ends the string and counts the escapes in front of it
(`stringEnd`), which gives the size of the block for the decoded text.  Then it decodes the string
token by token (`stringToken`): a byte, an escape, or one or two UTF-16 units as `\uXXXX`, which
`utf16_literal_to_utf8` turns into UTF-8.  Each read and each write is checked against its block.
-/

namespace IotDeviceSdk.Json

/-- A hexadecimal digit as `parse_hex4` reads it. -/
def hexDigitValue (c : UInt8) : Option ℕ :=
  if 48 ≤ c ∧ c ≤ 57 then some (c.toNat - 48)
  else if 65 ≤ c ∧ c ≤ 70 then some (10 + c.toNat - 65)
  else if 97 ≤ c ∧ c ≤ 102 then some (10 + c.toNat - 97)
  else none

/-- The loop of `parse_hex4` with the digits still to read: 0 at a byte that is no digit. -/
def parseHex4.go : ℕ → ℕ → List UInt8 → Option ℕ
  | 0, h, _ => some h
  | _ + 1, _, [] => none
  | n + 1, h, c :: input =>
    match hexDigitValue c with
    | none => some 0
    | some digit => go n (if n = 0 then h + digit else (h + digit) <<< 4) input

/-- `parse_hex4`, undefined when the input ends early. -/
def parseHex4 (input : List UInt8) : Option ℕ := parseHex4.go 4 0 input

/-- The bytes of a codepoint behind its first one, from the last to the first, and what is left of
the codepoint. -/
def utf8Tail : ℕ → ℕ → List UInt8 → ℕ × List UInt8
  | 0, codepoint, output => (codepoint, output)
  | n + 1, codepoint, output =>
    utf8Tail n (codepoint >>> 6) (UInt8.ofNat ((codepoint ||| 0x80) &&& 0xBF) :: output)

/-- A codepoint in `utf8_length` bytes. -/
def utf8Bytes (utf8_length first_byte_mark codepoint : ℕ) : List UInt8 :=
  let (codepoint, tail) := utf8Tail (utf8_length - 1) codepoint []
  UInt8.ofNat (if utf8_length > 1 then (codepoint ||| first_byte_mark) &&& 0xFF
    else codepoint &&& 0x7F) :: tail

/-- The last part of `utf16_literal_to_utf8`: the length of the sequence, 0 for a codepoint out of
range, and the bytes it writes. -/
def encodeUtf8 (sequence_length codepoint : ℕ) : ℕ × List UInt8 :=
  if codepoint < 0x80 then (sequence_length, utf8Bytes 1 0 codepoint)
  else if codepoint < 0x800 then (sequence_length, utf8Bytes 2 0xC0 codepoint)
  else if codepoint < 0x10000 then (sequence_length, utf8Bytes 3 0xE0 codepoint)
  else if codepoint ≤ 0x10FFFF then (sequence_length, utf8Bytes 4 0xF0 codepoint)
  else (0, [])

/-- The codepoint of a surrogate pair. -/
def surrogatePair (first_code second_code : ℕ) : ℕ :=
  0x10000 + (((first_code &&& 0x3FF) <<< 10) ||| (second_code &&& 0x3FF))

/-- `utf16_literal_to_utf8` of the bytes from `input_pointer` to `input_end`: the length of the
sequence, 0 when it cannot be converted, and the bytes it writes. -/
def utf16LiteralToUtf8 (input : List UInt8) : Option (ℕ × List UInt8) :=
  if input.length < 6 then some (0, [])
  else
    (parseHex4 (input.drop 2)).bind fun first_code =>
    if 0xDC00 ≤ first_code ∧ first_code ≤ 0xDFFF then some (0, [])
    else if 0xD800 ≤ first_code ∧ first_code ≤ 0xDBFF then
      let second_sequence := input.drop 6
      if second_sequence.length < 6 then some (0, [])
      else if second_sequence[0]? ≠ some 92 ∨ second_sequence[1]? ≠ some 117 then some (0, [])
      else
        (parseHex4 (second_sequence.drop 2)).bind fun second_code =>
        if second_code < 0xDC00 ∨ 0xDFFF < second_code then some (0, [])
        else some (encodeUtf8 12 (surrogatePair first_code second_code))
    else some (encodeUtf8 6 first_code)

/-- What a backslash and a byte stand for: `\b`, `\f`, `\n`, `\r`, `\t`, `\"`, `\\` and `\/`. -/
def escapedByte (c : UInt8) : Option UInt8 :=
  if c = 98 then some 8
  else if c = 102 then some 12
  else if c = 110 then some 10
  else if c = 114 then some 13
  else if c = 116 then some 9
  else if c = 34 ∨ c = 92 ∨ c = 47 then some c
  else none

/-- One round of the loop of `parse_string`, from `input_pointer` on with the number of bytes up to
`input_end`: the length of the token and the bytes it writes, none inside for a malformed one. -/
def stringToken (input : List UInt8) (left : ℕ) : Option (Option (ℕ × List UInt8)) :=
  match input with
  | [] => none
  | c :: input' =>
    if c ≠ 92 then some (some (1, [c]))
    else
      match input' with
      | [] => none
      | e :: _ =>
        match escapedByte e with
        | some b => some (some (2, [b]))
        | none =>
          if e ≠ 117 then some none
          else
            (utf16LiteralToUtf8 (input.take left)).map fun (sequence_length, bytes) =>
              if sequence_length = 0 then none else some (sequence_length, bytes)

/-- Writing bytes behind those in a block, undefined when they do not fit. -/
def emit (capacity : ℕ) (output bytes : List UInt8) : Option (List UInt8) :=
  if output.length + bytes.length ≤ capacity then some (output ++ bytes) else none

/-- The loop of `parse_string`: what it has written, none inside at a malformed token, and the
number of bytes that are left then. -/
def unescape (capacity : ℕ) : ℕ → List UInt8 → ℕ → List UInt8 →
    Option (Option (List UInt8) × ℕ)
  | _, _, 0, output => some (some output, 0)
  | 0, _, _ + 1, _ => none
  | fuel + 1, input, left + 1, output =>
    (stringToken input (left + 1)).bind fun token =>
    match token with
    | none => some (none, left + 1)
    | some (length, bytes) =>
      (emit capacity output bytes).bind fun output =>
      unescape capacity fuel (input.drop length) (left + 1 - length) output

/-- The loop that looks for the end of a string: the bytes in front of the closing quote and the
escapes among them, none when the buffer ends first. -/
def stringEnd : List UInt8 → Option (ℕ × ℕ)
  | [] => none
  | c :: input =>
    if c = 34 then some (0, 0)
    else if c = 92 then
      match input with
      | [] => none
      | _ :: input => (stringEnd input).map fun (length, skipped) => (length + 2, skipped + 1)
    else (stringEnd input).map fun (length, skipped) => (length + 1, skipped)

/-- `goto fail` of `parse_string` with `input_pointer` at a position. -/
def failString (output : Option ℕ) (position : ℕ) : Parse (Option Item) := do
  match output with
  | some output => deallocate output
  | none => pure ()
  modify fun s => { s with offset := position }
  return none

/-- `parse_string`: the item with its text, none when it fails and leaves the item alone. -/
def parseString (item : Item) : Parse (Option Item) := do
  let start := (← get).offset + 1
  if (← byteAt 0) ≠ 34 then failString none start
  else
    let input := (← read).content.drop start
    match stringEnd input with
    | none => failString none start
    | some (length, skipped_bytes) =>
      let allocation_length := length + 1 - skipped_bytes
      match ← allocate with
      | none => failString none start
      | some output =>
        match ← Prog.ofOption (unescape (allocation_length + 1) length input length []) with
        | (none, left) => failString (some output) (start + length - left)
        | (some bytes, _) =>
          let bytes ← Prog.ofOption (emit (allocation_length + 1) bytes [0])
          modify fun s => { s with offset := start + length + 1 }
          return some { item with type := .string, valuestring := some ⟨output, bytes⟩ }

end IotDeviceSdk.Json
