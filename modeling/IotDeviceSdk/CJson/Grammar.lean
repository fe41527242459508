import IotDeviceSdk.CJson.Equiv.ParseString
import IotDeviceSdk.CJson.Parse
import IotDeviceSdk.Libc.DecimalNumber
import IotDeviceSdk.Text.Separated

/-!
# The grammar of JSON

A `Dialect` says what is white space, a string and a number; `Dialect.Value` is the grammar over it.
Each relation is between the text in front, the value, and the text behind.  A value at a level has
at most so many arrays and objects around its scalars.

* `strict` is JSON, with no more than 63 bytes to a number and without the character `\u0000`.
* `lenient` is what the parser takes for JSON: control characters are white space and may stand in
  strings, a decimal number is any that `strtod` reads, a `\u` without its digits ends a string.
-/

namespace IotDeviceSdk.DecimalNumber

/-- A number as JSON has it: no sign but a minus, digits in front of the point and behind it, and
no zero in front of other digits. -/
structure IsJson (n : DecimalNumber) : Prop where
  blank : n.blank = []
  sign : n.sign ≠ ['+']
  whole : n.whole ≠ []
  leadingZero : n.whole.head? = some '0' → n.whole = ['0']
  fraction : n.fraction ≠ some []

end IotDeviceSdk.DecimalNumber

namespace IotDeviceSdk.Json

open Text

/-- What the scalars of a notation for JSON look like. -/
structure Dialect where
  Blank : UInt8 → Prop
  Str : List UInt8 → String → List UInt8 → Prop
  Num : List UInt8 → ℚ → List UInt8 → Prop

namespace Dialect

variable (d : Dialect)

/-- A value without parts. -/
inductive Scalar : List UInt8 → CJson → List UInt8 → Prop where
  | null {rest : List UInt8} : Scalar (ascii "null" ++ rest) .null rest
  | false {rest : List UInt8} : Scalar (ascii "false" ++ rest) (.bool false) rest
  | true {rest : List UInt8} : Scalar (ascii "true" ++ rest) (.bool true) rest
  | number {input rest : List UInt8} {q : ℚ} : d.Num input q rest → Scalar input (.number q) rest
  | string {input rest : List UInt8} {s : String} : d.Str input s rest →
    Scalar input (.string s) rest

/-- A member of an object. -/
inductive Member (Val : List UInt8 → CJson → List UInt8 → Prop) :
    List UInt8 → String × CJson → List UInt8 → Prop where
  | mk {input before after input' rest : List UInt8} {key : String} {v : CJson} :
    d.Str input key (before ++ 58 :: (after ++ input')) → (∀ b ∈ before, d.Blank b) →
    (∀ b ∈ after, d.Blank b) → Val input' v rest → Member Val input (key, v) rest

/-- An array or an object with values in it. -/
inductive Container (Val : List UInt8 → CJson → List UInt8 → Prop) :
    List UInt8 → CJson → List UInt8 → Prop where
  | array {input rest : List UInt8} {elements : List CJson} :
    Bracketed 91 93 d.Blank 44 Val input elements rest →
    Container Val input (.array elements) rest
  | object {input rest : List UInt8} {members : List (String × CJson)} :
    Bracketed 123 125 d.Blank 44 (d.Member Val) input members rest →
    Container Val input (.object members) rest

/-- A value with at most `level` arrays and objects around each scalar. -/
def Value : ℕ → List UInt8 → CJson → List UInt8 → Prop
  | 0 => d.Scalar
  | level + 1 => fun input v rest => d.Scalar input v rest ∨ d.Container (Value level) input v rest

/-- A text with a value in it, behind a byte order mark or none and white space. -/
def Document (level : ℕ) (content : List UInt8) (v : CJson) (rest : List UInt8) : Prop :=
  ∃ bom ws input, content = bom ++ (ws ++ input) ∧ (bom = [] ∨ bom = byteOrderMark) ∧
    (∀ b ∈ ws, d.Blank b) ∧ d.Value level input v rest

end Dialect

/-! ### Numbers and strings -/

/-- The bytes of a text of ASCII characters. -/
def bytesOfChars (chars : List Char) : List UInt8 := chars.map fun c => UInt8.ofNat c.toNat

/-- JSON as far as the parser can represent it. -/
def strict : Dialect where
  Blank b := b = 9 ∨ b = 10 ∨ b = 13 ∨ b = 32
  Str input s rest := ∃ body t, input = 34 :: (body ++ 34 :: rest) ∧ Closed body ∧ Spells body t ∧
    (∀ b ∈ body, 32 ≤ b) ∧ 0 ∉ t ∧ s = textOfBytes t
  Num input q rest := ∃ n : DecimalNumber, n.IsJson ∧ n.text.length ≤ 63 ∧
    input = bytesOfChars n.text ++ rest ∧ (∀ b ∈ rest.head?, isNumberByte b = false) ∧
    q = toDouble n.value

/-- The whole text is that of a value, with nothing but white space around it. -/
def IsTextOf (text : String) (v : CJson) : Prop :=
  ∃ level ws, (∀ b ∈ ws, strict.Blank b) ∧ strict.Document level (ascii text) v ws

/-- What the parser takes for JSON. -/
def lenient : Dialect where
  Blank b := isWhitespace b = true
  Str input s rest := ∃ body t, input = 34 :: (body ++ 34 :: rest) ∧ Closed body ∧
    Decodes body t ∧ s = textOfBytes (cString t)
  Num input q rest := ∃ n : DecimalNumber, n.text.length ≤ 63 ∧
    input = bytesOfChars n.text ++ rest ∧ q = toDouble n.value

end IotDeviceSdk.Json

namespace IotDeviceSdk.CJson

mutual

/-- The arrays and objects around the innermost scalar. -/
def nesting : CJson → ℕ
  | .null => 0
  | .bool _ => 0
  | .number _ => 0
  | .string _ => 0
  | .array child => elementsNesting child + 1
  | .object child => membersNesting child + 1
termination_by structural v => v

def elementsNesting : List CJson → ℕ
  | [] => 0
  | v :: vs => max (nesting v) (elementsNesting vs)
termination_by structural vs => vs

def membersNesting : List (String × CJson) → ℕ
  | [] => 0
  | (_, v) :: members => max (nesting v) (membersNesting members)
termination_by structural members => members

end

end IotDeviceSdk.CJson
