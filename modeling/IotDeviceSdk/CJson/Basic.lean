import Mathlib.Data.Rat.Floor

/-!
# JSON values as `cJSON` holds them

A `cJSON` item carries a type, a value, its children and, as a member of an object, its key.
`CJson` keeps the keys with the object; a text (`char *`) is a `String` with one character for
each byte, and a `double` is the rational number it stands for.

The accessors are those the SDK uses.  `cJSON_GetObjectItem` compares keys without regard to case
and finds the first match; every accessor takes a possibly missing item (a `NULL` pointer).
-/

namespace IotDeviceSdk

/-- A `cJSON` item without its own key. -/
inductive CJson where
  | null
  | bool (b : Bool)
  | number (valuedouble : ℚ)
  | string (valuestring : String)
  | array (child : List CJson)
  | object (child : List (String × CJson))
  deriving Inhabited

/-- `INT_MAX`. -/
def INT_MAX : ℤ := 2147483647

/-- `INT_MIN`. -/
def INT_MIN : ℤ := -2147483648

/-- The conversion of a `double` to `int` that drops the fraction. -/
def truncate (q : ℚ) : ℤ := if 0 ≤ q then q.floor else -(-q).floor

/-- The saturating conversion of a `double` to `int` in `parse_number` and in
`StrToPropertyValue`. -/
def doubleToInt (number : ℚ) : ℤ :=
  if (INT_MAX : ℚ) ≤ number then INT_MAX
  else if number ≤ (INT_MIN : ℚ) then INT_MIN
  else truncate number

namespace CJson

/-- `tolower` on both texts, then `strcmp(..) == 0`. -/
def caseInsensitiveEq (string1 string2 : String) : Bool :=
  string1.toList.map Char.toLower == string2.toList.map Char.toLower

/-- The items `cJSON_ArrayForEach` visits. -/
def children : CJson → List CJson
  | array child => child
  | object child => child.map Prod.snd
  | _ => []

/-- The items `cJSON_ArrayForEach` visits, each with its `string`: the key of a member of an
object, `NULL` for an item of an array. -/
def members : CJson → List (Option String × CJson)
  | array child => child.map fun item => (none, item)
  | object child => child.map fun item => (some item.1, item.2)
  | _ => []

/-- `cJSON_ArrayForEach` over a possibly missing item. -/
def forEachItems (item : Option CJson) : List CJson := (item.map children).getD []

/-- `cJSON_GetObjectItem`. -/
def getObjectItem (item : Option CJson) (name : String) : Option CJson :=
  match item with
  | some (object child) => (child.find? fun m => caseInsensitiveEq name m.1).map Prod.snd
  | _ => none

/-- `cJSON_GetStringValue`. -/
def getStringValue : Option CJson → Option String
  | some (string valuestring) => some valuestring
  | _ => none

/-- The texts of the members a function reads, `cJSON_GetStringValue` after
`cJSON_GetObjectItem`. -/
def getString (item : Option CJson) (name : String) : Option String :=
  getStringValue (getObjectItem item name)

/-- `valueint`: numbers keep their integer part, `true` keeps 1. -/
def valueint : CJson → ℤ
  | number valuedouble => doubleToInt valuedouble
  | bool true => 1
  | _ => 0

/-- `valuestring`, `NULL` for an item that is no text. -/
def valuestring : CJson → Option String
  | string valuestring => some valuestring
  | _ => none

/-- `cJSON_GetArraySize`: the number of items `cJSON_ArrayForEach` visits. -/
def getArraySize (item : CJson) : ℕ := item.children.length

@[simp] theorem forEachItems_none : forEachItems none = [] := rfl

@[simp] theorem forEachItems_some (item : CJson) : forEachItems (some item) = item.children := rfl

@[simp] theorem children_array (child : List CJson) : (array child).children = child := rfl

end CJson

end IotDeviceSdk
