import IotDeviceSdk.Service.CallbackFunc.Messages

/-!
# `iota_payload.c`

The payload of a message report.  A content that `cJSON_Parse` reads is embedded as the JSON value
it reads, another one as a text.
-/

namespace IotDeviceSdk.Agentlite

open Service

/-- `cJSON_AddStringToObject` on the members of an object; a `NULL` text adds none. -/
def addStringToObject (object : List (String × CJson)) (name : String) (string : Option String) :
    List (String × CJson) :=
  match string with
  | none => object
  | some string => object ++ [(name, .string string)]

/-- The item `IOTA_MessageReportPayload` builds, `contentCjson` being the content it parsed. -/
def messageRoot (object_device_id name id content : Option String)
    (contentCjson : Option CJson) : CJson :=
  let root := addStringToObject [] "object_device_id" object_device_id
  let root := addStringToObject root "name" name
  let root := addStringToObject root "id" id
  match contentCjson with
  | some contentCjson => .object (root ++ [("content", contentCjson)])
  | none => .object (addStringToObject root "content" content)

/-- `IOTA_MessageReportPayload`, `none` for `NULL`. -/
def messageReportPayload (object_device_id name id content : Option String) :
    Sdk (Option String) := do
  let contentCjson ← match content with
    | some content => jsonParse content
    | none => pure none
  cJsonPrint (some (messageRoot object_device_id name id content contentCjson))

end IotDeviceSdk.Agentlite
