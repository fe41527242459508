import IotDeviceSdk.CJson.Print

/-!
# The text of an item

`Item.text` is the text the printer prints for an item at a nesting depth, none when it cannot be
printed: an item without a type in it, or raw text that is missing.
-/

namespace IotDeviceSdk.Json

/-- A byte as it stands in a string. -/
def escaped (b : UInt8) : List UInt8 :=
  if 31 < b ∧ b ≠ 34 ∧ b ≠ 92 then [b]
  else match escapeLetter b with
    | some letter => [92, letter]
    | none => 92 :: 117 :: hexWord b

/-- The characters between the quotes of a string. -/
def stringBody (input : Option TextBlock) : List UInt8 :=
  (input.elim [] fun block => cString block.bytes).flatMap escaped

/-- A string with its quotes. -/
def quoted (input : Option TextBlock) : List UInt8 := 34 :: (stringBody input ++ [34])

/-- What stands between two elements. -/
def comma (format more : Bool) : List UInt8 :=
  if more then if format then [44, 32] else [44] else []

/-- The tabs in front of a name at a depth. -/
def tabs (format : Bool) (depth : ℕ) : List UInt8 := List.replicate (if format then depth else 0) 9

/-- What stands between a name and its value. -/
def colon (format : Bool) : List UInt8 := if format then [58, 9] else [58]

/-- A name in front of its value, at a depth. -/
def keyText (format : Bool) (depth : ℕ) (string : Option TextBlock) : List UInt8 :=
  tabs format depth ++ (quoted string ++ colon format)

/-- What stands behind the value of a member. -/
def memberEnd (format more : Bool) : List UInt8 :=
  (if more then [44] else []) ++ if format then [10] else []

/-- The opening of an object. -/
def objectStart (format : Bool) : List UInt8 := if format then [123, 10] else [123]

/-- The end of an object at a depth. -/
def objectEnd (format : Bool) (depth : ℕ) : List UInt8 :=
  tabs format depth ++ [125]

namespace Item

variable (format : Bool)

mutual

/-- The text of an item at a depth. -/
def text (depth : ℕ) : Item → Option (List UInt8)
  | ⟨_, type, _, _, valuestring, valueint, valuedouble, _, child⟩ =>
    match type with
    | .null => some (ascii "null")
    | .false => some (ascii "false")
    | .true => some (ascii "true")
    | .number => numberBuffer valueint valuedouble
    | .raw => valuestring.map fun block => cString block.bytes
    | .string => some (quoted valuestring)
    | .array => (elementsText (depth + 1) child).map fun t => 91 :: (t ++ [93])
    | .object => (membersText (depth + 1) child).map fun t =>
      objectStart format ++ (t ++ objectEnd format depth)
    | .invalid => none
termination_by structural item => item

/-- The elements of an array at the depth of its items. -/
def elementsText (depth : ℕ) : List Item → Option (List UInt8)
  | [] => some []
  | item :: next => (text depth item).bind fun first =>
    (elementsText depth next).map fun rest => first ++ (comma format (!next.isEmpty) ++ rest)
termination_by structural items => items

/-- The members of an object at the depth of its items. -/
def membersText (depth : ℕ) : List Item → Option (List UInt8)
  | [] => some []
  | item :: next => (text depth item).bind fun first =>
    (membersText depth next).map fun rest =>
      keyText format depth item.string ++ (first ++ (memberEnd format (!next.isEmpty) ++ rest))
termination_by structural items => items

end

end Item

end IotDeviceSdk.Json
