import IotDeviceSdk.Agentlite.IotaPayload
import IotDeviceSdk.CJson.Grammar

/-!
# Message reports and the system format

`GetMessageInSystemFormat` takes a message apart that `IOTA_MessageReportPayload` put together.
The two agree on the content when it is a text for both or an object for both; a content that
reads as a JSON number, literal or array is embedded as such and is then not in system format, and
of one that starts with an object what stands behind it is lost (`messageRoundTrips_iff`).

`cJSON_Parse` inverts `cJSON_Print` on the items a message is printed from (`PrintInverted`).
-/

namespace IotDeviceSdk.Agentlite

open Prog Service CJson

variable {env : Env} {object_device_id name id : Option String} {content : String}

/-- `cJSON_Print` gives a text of the item, and `cJSON_Parse` reads the item back from it. -/
def PrintInverted (env : Env) (item : CJson) : Prop :=
  ∃ text, env.printJson item = some text ∧ env.parseJson text = some item

/-- A message report, fed to the parser and to `GetMessageInSystemFormat`. -/
def reportThenDecode (object_device_id name id content : Option String) :
    Sdk (Option SystemFormat) := do
  let some payload ← messageReportPayload object_device_id name id content
    | return none
  getMessageInSystemFormat (← jsonParse payload)

/-- A content that comes back: as the same text, or, when the whole of it is the text of an object,
as a text of the same value. -/
def SameContent (env : Env) (content : String) (content' : Option String) : Prop :=
  content' = some content ∨
    ∃ child text, env.parseJson content = some (.object child) ∧
      Json.IsTextOf content (.object child) ∧ content' = some text ∧
      env.parseJson text = some (.object child)

/-- **Round trip of a message.** -/
def MessageRoundTrips (env : Env) (object_device_id name id : Option String)
    (content : String) : Prop :=
  Returns env (reportThenDecode object_device_id name id content) fun r =>
    ∃ format, r = some format ∧ format.objectDeviceId = object_device_id ∧ format.name = name ∧
      format.id = id ∧ SameContent env content format.content

/-- The contents that are embedded as what they are: a text that is no JSON, or one that is the text
of an object as a whole, or printed for it.  A JSON text may only stand for itself. -/
def EmbeddedFaithfully (env : Env) (content : String) : Prop :=
  match env.parseJson content with
  | none => True
  | some (.object child) =>
    Json.IsTextOf content (.object child) ∨ env.printJson (.object child) = some content
  | some (.string text) => text = content
  | some _ => False

/-! ### The item of a message -/

/-- The member that a text adds. -/
def stringMember (name : String) (value : Option String) : List (String × CJson) :=
  (value.map fun text => (name, CJson.string text)).toList

theorem addStringToObject_eq (object : List (String × CJson)) (name : String)
    (value : Option String) :
    addStringToObject object name value = object ++ stringMember name value := by
  cases value with
  | none => exact (List.append_nil object).symm
  | some text => rfl

/-- The item that is embedded as the content. -/
def embeddedContent (env : Env) (content : String) : CJson :=
  (env.parseJson content).getD (.string content)

/-- The members of a message. -/
def messageMembers (object_device_id name id : Option String) (content : CJson) :
    List (String × CJson) :=
  stringMember "object_device_id" object_device_id ++ (stringMember "name" name ++
    (stringMember "id" id ++ [("content", content)]))

theorem messageRoot_eq (env : Env) :
    messageRoot object_device_id name id (some content) (env.parseJson content) =
      .object (messageMembers object_device_id name id (embeddedContent env content)) := by
  unfold messageRoot messageMembers embeddedContent
  cases env.parseJson content <;>
    simp only [addStringToObject_eq, List.nil_append, List.append_assoc] <;> rfl

/-- A key that is not the name of the text. -/
theorem find?_stringMember_append {key name : String} {value : Option String}
    {rest : List (String × CJson)} (h : caseInsensitiveEq key name = false) :
    (stringMember name value ++ rest).find? (fun m => caseInsensitiveEq key m.1) =
      rest.find? fun m => caseInsensitiveEq key m.1 := by
  cases value with
  | none => rfl
  | some text => exact List.find?_cons_of_neg (by simp [h])

/-- A key that is the name of the text and of nothing after it. -/
theorem find?_stringMember_self {key : String} {value : Option String}
    {rest : List (String × CJson)} (hkey : caseInsensitiveEq key key = true)
    (hrest : rest.find? (fun m => caseInsensitiveEq key m.1) = none) :
    (stringMember key value ++ rest).find? (fun m => caseInsensitiveEq key m.1) =
      value.map fun text => (key, CJson.string text) := by
  cases value with
  | none => exact hrest
  | some text => exact List.find?_cons_of_pos hkey

/-- What the decoder finds under each of the four keys. -/
theorem getObjectItem_messageMembers (content : CJson) :
    let root := some (object (messageMembers object_device_id name id content))
    getObjectItem root "object_device_id" = object_device_id.map CJson.string ∧
      getObjectItem root "name" = name.map CJson.string ∧
      getObjectItem root "id" = id.map CJson.string ∧
      getObjectItem root "content" = some content := by
  have hcontent (key : String) (h : caseInsensitiveEq key "content" = false) :
      [("content", content)].find? (fun m => caseInsensitiveEq key m.1) = none :=
    List.find?_cons_of_neg (by simp [h])
  have hfind (key : String) (child : List (String × CJson)) :
      getObjectItem (some (object child)) key =
        (child.find? fun m => caseInsensitiveEq key m.1).map Prod.snd := rfl
  simp only [hfind, messageMembers]
  refine ⟨?_, ?_, ?_, ?_⟩
  · rw [find?_stringMember_self (by decide)]
    · cases object_device_id <;> rfl
    · rw [find?_stringMember_append (by decide), find?_stringMember_append (by decide)]
      exact hcontent _ (by decide)
  · rw [find?_stringMember_append (by decide), find?_stringMember_self (by decide)]
    · cases name <;> rfl
    · rw [find?_stringMember_append (by decide)]
      exact hcontent _ (by decide)
  · rw [find?_stringMember_append (by decide), find?_stringMember_append (by decide),
      find?_stringMember_self (by decide) (hcontent _ (by decide))]
    cases id <;> rfl
  · rw [find?_stringMember_append (by decide), find?_stringMember_append (by decide),
      find?_stringMember_append (by decide)]
    have hkey : caseInsensitiveEq "content" "content" = true := by decide
    have hself : [("content", content)].find? (fun m => caseInsensitiveEq "content" m.1) =
        some ("content", content) := List.find?_cons_of_pos hkey
    rw [hself]
    rfl

/-- The members have the keys of the system format. -/
theorem keys_messageMembers (content : CJson) :
    ((messageMembers object_device_id name id content).any fun kvInMessage =>
      !(["content", "object_device_id", "name", "id"].contains kvInMessage.1)) = false := by
  unfold messageMembers stringMember
  cases object_device_id <;> cases name <;> cases id <;> rfl

theorem isTextOrNull_map_string (value : Option String) :
    isTextOrNull (value.map CJson.string) = true := by
  cases value <;> rfl

theorem getStringValue_map_string (value : Option String) :
    getStringValue (value.map CJson.string) = value := by
  cases value <;> rfl

/-! ### The decoder -/

/-- What the decoder makes of an item that was embedded as the content: it refuses one that is
neither a text nor an object, and takes `null` for a missing content. -/
def decodedContent (env : Env) : CJson → Option (Option String)
  | .null => some none
  | .string text => some (some text)
  | .object child => some (env.printJson (.object child))
  | _ => none

theorem getMessageInSystemFormat_messageMembers (content : CJson) (s : Cursor) :
    getMessageInSystemFormat (some (.object (messageMembers object_device_id name id content)))
      env s = some ((decodedContent env content).map fun text =>
        { objectDeviceId := object_device_id
          name := name
          id := id
          content := text }, s) := by
  obtain ⟨hdevice, hname, hid, hcontent⟩ :=
    @getObjectItem_messageMembers object_device_id name id content
  unfold getMessageInSystemFormat
  simp only [keys_messageMembers, hdevice, hname, hid, hcontent, isTextOrNull_map_string,
    getStringValue_map_string]
  cases content <;> rfl

/-- What a message report is decoded to. -/
theorem reportThenDecode_eq (s : Cursor)
    (hroot : PrintInverted env
      (messageRoot object_device_id name id (some content) (env.parseJson content))) :
    reportThenDecode object_device_id name id (some content) env s =
      some ((decodedContent env (embeddedContent env content)).map fun text =>
        { objectDeviceId := object_device_id
          name := name
          id := id
          content := text }, s) := by
  obtain ⟨text, hprint, hparse⟩ := hroot
  rw [messageRoot_eq] at hprint hparse
  rw [← getMessageInSystemFormat_messageMembers]
  unfold reportThenDecode messageReportPayload
  simp only [jsonParse, cJsonPrint, ask, bind_apply, Option.bind_some, messageRoot_eq, hprint,
    hparse]

theorem messageRoundTrips_iff_sameContent
    (hroot : PrintInverted env
      (messageRoot object_device_id name id (some content) (env.parseJson content))) :
    MessageRoundTrips env object_device_id name id content ↔
      ∃ text, decodedContent env (embeddedContent env content) = some text ∧
        SameContent env content text := by
  unfold MessageRoundTrips Returns
  simp only [reportThenDecode_eq _ hroot]
  cases decodedContent env (embeddedContent env content) with
  | none => simp
  | some text => simp

/-- The content comes back exactly when it was embedded faithfully. -/
theorem sameContent_iff
    (hcontent : ∀ child, env.parseJson content = some (.object child) →
      PrintInverted env (.object child)) :
    (∃ text, decodedContent env (embeddedContent env content) = some text ∧
      SameContent env content text) ↔ EmbeddedFaithfully env content := by
  unfold EmbeddedFaithfully embeddedContent SameContent
  cases hparse : env.parseJson content with
  | none => simp [decodedContent]
  | some item =>
    cases item with
    | object child =>
      obtain ⟨text, hprint, hback⟩ := hcontent child hparse
      simp [decodedContent, hprint, hback, or_comm]
    | string text => simp [decodedContent]
    | null => simp [decodedContent]
    | bool b => simp [decodedContent]
    | number q => simp [decodedContent]
    | array child => simp [decodedContent]

/-- **Exactly the faithfully embedded contents come back.** -/
theorem messageRoundTrips_iff
    (hroot : PrintInverted env
      (messageRoot object_device_id name id (some content) (env.parseJson content)))
    (hcontent : ∀ child, env.parseJson content = some (.object child) →
      PrintInverted env (.object child)) :
    MessageRoundTrips env object_device_id name id content ↔ EmbeddedFaithfully env content := by
  rw [messageRoundTrips_iff_sameContent hroot, sameContent_iff hcontent]

/-! ### An object and a number -/

/-- `cJSON_Print` of the message with the content `{}`. -/
def objectPayload : String := "\x7b\n\t\"content\":\t\x7b\n\t\x7d\n\x7d"

/-- `cJSON_Print` of the message with the content `123`. -/
def numberPayload : String := "\x7b\n\t\"content\":\t123\n\x7d"

/-- An environment whose JSON functions know the two messages. -/
def sampleEnv : Env where
  __ := Env.plentiful
  parseJson text :=
    if text = "\x7b\x7d" ∨ text = "\x7b\x7dx" ∨ text = "\x7b\n\x7d" then some (.object [])
    else if text = objectPayload then some (.object [("content", .object [])])
    else if text = "123" then some (.number 123)
    else if text = numberPayload then some (.object [("content", .number 123)])
    else none
  printJson
    | .object [] => some "\x7b\n\x7d"
    | .object [("content", .object [])] => some objectPayload
    | .object [("content", .number q)] => if q = 123 then some numberPayload else none
    | _ => none

theorem sampleEnv_parseJson :
    sampleEnv.parseJson "\x7b\x7d" = some (.object []) ∧
      sampleEnv.parseJson "\x7b\x7dx" = some (.object []) ∧
      sampleEnv.parseJson "\x7b\n\x7d" = some (.object []) ∧
      sampleEnv.parseJson objectPayload = some (.object [("content", .object [])]) ∧
      sampleEnv.parseJson "123" = some (.number 123) ∧
      sampleEnv.parseJson numberPayload = some (.object [("content", .number 123)]) := by
  refine ⟨?_, ?_, ?_, ?_, ?_, ?_⟩ <;> simp [sampleEnv, objectPayload, numberPayload]

/-- The text of an empty object comes back. -/
theorem messageRoundTrips_object : MessageRoundTrips sampleEnv none none none "\x7b\x7d" := by
  obtain ⟨hobject, -, hprinted, hpayload, -, -⟩ := sampleEnv_parseJson
  have hroot : PrintInverted sampleEnv
      (messageRoot none none none (some "\x7b\x7d") (sampleEnv.parseJson "\x7b\x7d")) := by
    rw [hobject]
    exact ⟨objectPayload, rfl, hpayload⟩
  refine (messageRoundTrips_iff hroot fun child hchild => ?_).mpr ?_
  · rw [hobject] at hchild
    cases hchild
    exact ⟨_, rfl, hprinted⟩
  · have hwhole : Json.IsTextOf "\x7b\x7d" (.object []) :=
      ⟨1, [], by simp, [], [], ascii "\x7b\x7d", rfl, Or.inl rfl, by simp,
        Or.inr (.object (@Text.Bracketed.empty _ _ _ _ _ _ _ [] [] (by simp)))⟩
    unfold EmbeddedFaithfully
    rw [hobject]
    exact Or.inl hwhole

/-- What stands behind an object makes the text another one. -/
theorem not_isTextOf_trailing : ¬Json.IsTextOf "\x7b\x7dx" (.object []) := by
  have hascii : ascii "\x7b\x7dx" = [123, 125, 120] := rfl
  have hblank : ∀ b ∈ ascii "\x7b\x7dx", ¬Json.strict.Blank b := by
    rw [hascii]
    simp [Json.strict]
  rintro ⟨level, ws, hws, bom, before, input, hcontent, hbom, hbefore, hvalue⟩
  -- nothing stands in front of the object
  obtain rfl : bom = [] := by
    rcases hbom with rfl | rfl
    · rfl
    · simp [hascii, Json.byteOrderMark] at hcontent
  obtain rfl : before = [] := by
    cases before with
    | nil => rfl
    | cons b before => exact absurd (hbefore b (by simp)) (hblank b (by simp [hcontent]))
  obtain rfl : [123, 125, 120] = input := hcontent
  cases level with
  | zero => cases hvalue
  | succ level =>
    rcases hvalue with hscalar | hcontainer
    · cases hscalar
    · cases hcontainer with
      | object hbracketed =>
        obtain ⟨inner, hinner, hinput⟩ := hbracketed.eq_of_nil
        have hx : 120 ∈ inner ++ 125 :: ws := by
          rw [← (List.cons.inj hinput).2]
          simp
        rcases List.mem_append.mp hx with hx | hx
        · exact hblank 120 (by simp [hascii]) (hinner 120 hx)
        · rcases List.mem_cons.mp hx with hx | hx
          · exact absurd hx (by decide)
          · exact hblank 120 (by simp [hascii]) (hws 120 hx)

/-- A number is refused, and what stands behind an object is lost. -/
theorem messageRoundTrips_number_false :
    ¬MessageRoundTrips sampleEnv none none none "123" ∧
      ¬MessageRoundTrips sampleEnv none none none "\x7b\x7dx" := by
  obtain ⟨-, htrailing, -, hobject, hnumber, hpayload⟩ := sampleEnv_parseJson
  constructor
  · have hroot : PrintInverted sampleEnv
        (messageRoot none none none (some "123") (sampleEnv.parseJson "123")) := by
      have hprint : sampleEnv.printJson (.object [("content", .number 123)]) =
          some numberPayload := by simp [sampleEnv]
      rw [hnumber]
      exact ⟨numberPayload, hprint, hpayload⟩
    rw [messageRoundTrips_iff_sameContent hroot, embeddedContent, hnumber]
    rintro ⟨text, htext, -⟩
    cases htext
  · have hroot : PrintInverted sampleEnv
        (messageRoot none none none (some "\x7b\x7dx") (sampleEnv.parseJson "\x7b\x7dx")) := by
      rw [htrailing]
      exact ⟨objectPayload, rfl, hobject⟩
    rw [messageRoundTrips_iff_sameContent hroot, embeddedContent, htrailing]
    rintro ⟨text, htext, hsame⟩
    obtain rfl := Option.some.inj htext
    rcases hsame with hsame | ⟨child, text, hparse, hwhole, -, -⟩
    · exact absurd hsame (by decide)
    · rw [htrailing] at hparse
      cases hparse
      exact not_isTextOf_trailing hwhole

end IotDeviceSdk.Agentlite
