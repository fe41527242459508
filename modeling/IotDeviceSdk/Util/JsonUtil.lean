import IotDeviceSdk.CJson.Basic

/-!
# `json_util.c`

The accessors with default values.  A key that is present but of another type does not take the
default: its `valueint` is 0 and its `valuestring` is `NULL`.
-/

namespace IotDeviceSdk

open CJson

/-- `JSON_GetIntFromObject`. -/
def jsonGetIntFromObject (object : Option CJson) (key : String) (defaultValue : ℤ) : ℤ :=
  match getObjectItem object key with
  | some t_object => t_object.valueint
  | none => defaultValue

/-- `JSON_GetStringFromObject`. -/
def jsonGetStringFromObject (object : Option CJson) (key : String)
    (defaultValue : Option String) : Option String :=
  match getObjectItem object key with
  | some t_object => t_object.valuestring
  | none => defaultValue

/-- `JSON_GetObjectFromObject`. -/
def jsonGetObjectFromObject (object : Option CJson) (key : String) : Option CJson :=
  getObjectItem object key

/-- `JSON_GetStringFromArray`. -/
def jsonGetStringFromArray (array : Option CJson) (index : ℕ) (defaultValue : Option String) :
    Option String :=
  match (forEachItems array)[index]? with
  | some t_object => t_object.valuestring
  | none => defaultValue

/-- `JSON_GetArraySize`. -/
def jsonGetArraySize (array : Option CJson) : ℕ :=
  match array with
  | some array => array.getArraySize
  | none => 0

theorem jsonGetArraySize_eq (array : Option CJson) :
    jsonGetArraySize array = (forEachItems array).length := by
  cases array <;> rfl

end IotDeviceSdk
