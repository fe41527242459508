import IotDeviceSdk.DeviceRule.RuleExecution
import IotDeviceSdk.Libc.DecimalNumber

/-!
# Ranges

The value of a condition `"between"` is a range: a number, a separator and a second number
(`RangeText`).  `CalculateDeviceDataRangeCodition` reads the two with `strtod`, logs that one of
them cannot be read, and goes on with 0.  A boundary is what `strtod` makes of the number: the
number itself when it is a `double`.

* `range_number`: the verdict on a number, for any text that goes on after its first number.
* `rangeRight_iff`: malformed ranges fail exactly when the text is a number, a word or empty, or
  the property gives no number.
-/

namespace IotDeviceSdk.DeviceRule

/-- The number of a property value. -/
def PropertyValue.number : PropertyValue → Option CDouble
  | .int i => some (.num i)
  | .double d => some d
  | .cstr _ => none

/-- **A range**: the longest number at the head of the text, one separator, and a second number. -/
def RangeText (text : List Char) (a b : ℚ) : Prop :=
  ∃ sep right, LongestNumber text a (sep :: right) ∧ IsNumber right b

section Verdicts

variable {condition : DeviceDataCondition} {callback : GetPropertyValueCallBack} {env : Env}
  {c c' : Cursor} {text : String} {read : PropertyRead} {v : PropertyValue} {sep : Char}
  {right : List Char} {a d : CDouble}

theorem range_undefined
    (h : getPropertyValueByPath condition.deviceInfo.path callback env c = none) :
    calculateDeviceDataRangeCodition { condition with value := some text } callback env c =
      none := by
  unfold calculateDeviceDataRangeCodition
  rw [Prog.bind_apply, h]
  rfl

theorem range_failed
    (h : getPropertyValueByPath condition.deviceInfo.path callback env c = some (.failed, c')) :
    calculateDeviceDataRangeCodition { condition with value := some text } callback env c =
      some (none, c') := by
  unfold calculateDeviceDataRangeCodition
  rw [Prog.bind_apply, h]
  rfl

/-- Without a right boundary there is no verdict. -/
theorem range_missing
    (h : getPropertyValueByPath condition.deviceInfo.path callback env c = some (read, c'))
    (htext : (strtod text.toList).2 = []) :
    calculateDeviceDataRangeCodition { condition with value := some text } callback env c =
      some (none, c') := by
  unfold calculateDeviceDataRangeCodition
  rw [Prog.bind_apply, h, Option.bind_some]
  cases read with
  | failed => rfl
  | unwritten =>
    dsimp only
    rw [htext]
    rfl
  | value v =>
    dsimp only
    rw [htext]
    rfl

theorem range_unwritten
    (h : getPropertyValueByPath condition.deviceInfo.path callback env c = some (.unwritten, c'))
    (htext : (strtod text.toList).2 = sep :: right) :
    calculateDeviceDataRangeCodition { condition with value := some text } callback env c =
      none := by
  unfold calculateDeviceDataRangeCodition
  rw [Prog.bind_apply, h, Option.bind_some]
  dsimp only
  rw [htext]
  rfl

/-- A text is not compared with a range. -/
theorem range_cstr (hv : v.number = none)
    (h : getPropertyValueByPath condition.deviceInfo.path callback env c = some (.value v, c')) :
    calculateDeviceDataRangeCodition { condition with value := some text } callback env c =
      some (none, c') := by
  cases htext : (strtod text.toList).2 with
  | nil => exact range_missing h htext
  | cons sep right =>
    unfold calculateDeviceDataRangeCodition
    rw [Prog.bind_apply, h, Option.bind_some]
    dsimp only
    rw [htext]
    cases v with
    | cstr s => rfl
    | int i => exact nomatch hv
    | double d => exact nomatch hv

/-- **The verdict** on a number: whatever stands after the first number of the text, the rest
without its first character is read as the right boundary. -/
theorem range_number (hv : v.number = some d)
    (h : getPropertyValueByPath condition.deviceInfo.path callback env c = some (.value v, c'))
    (htext : strtod text.toList = (a, sep :: right)) :
    calculateDeviceDataRangeCodition { condition with value := some text } callback env c =
      some (some (decide (a ≤ d ∧ d ≤ (strtod right).1)), c') := by
  unfold calculateDeviceDataRangeCodition
  rw [Prog.bind_apply, h, Option.bind_some]
  dsimp only
  rw [htext]
  cases v with
  | cstr s => exact nomatch hv
  | int i =>
    obtain rfl := Option.some.inj hv
    rfl
  | double d =>
    obtain rfl := Option.some.inj hv
    rfl

end Verdicts

/-- **Ranges are evaluated right** for a condition with a text as its value: a malformed range is a
failure, and a range gives the verdict on a number that is read, between the boundaries as they are
when a `double` can hold them. -/
structure RangeRight (condition : DeviceDataCondition) (text : String)
    (callback : GetPropertyValueCallBack) (env : Env) (c : Cursor) : Prop where
  malformed : (∀ a b, ¬RangeText text.toList a b) →
    ∃ c', calculateDeviceDataRangeCodition { condition with value := some text } callback env c =
      some (none, c')
  wellFormed : ∀ a b, RangeText text.toList a b → ∀ v d c',
    getPropertyValueByPath condition.deviceInfo.path callback env c = some (.value v, c') →
    v.number = some d →
    calculateDeviceDataRangeCodition { condition with value := some text } callback env c =
      some (some (decide (.num (toDouble a) ≤ d ∧ d ≤ .num (toDouble b))), c')
  exactly : ∀ a b, RangeText text.toList a b → IsDouble a → IsDouble b → ∀ v p c',
    getPropertyValueByPath condition.deviceInfo.path callback env c = some (.value v, c') →
    v.number = some (.num p) →
    calculateDeviceDataRangeCodition { condition with value := some text } callback env c =
      some (some (decide (a ≤ p ∧ p ≤ b)), c')

/-- The text ends where `strtod` stops: it is empty, a number or a word. -/
def EndsAtNumber (text : List Char) : Prop :=
  text = [] ∨ (∃ value, IsNumber text value) ∨ IsSignedWord text

/-- There is no verdict on what is read of a property: the callback fails or gives a text, or
nothing follows the first number of the condition's value. -/
def NoVerdict (text : String) : PropertyRead → Prop
  | .failed => True
  | .unwritten => EndsAtNumber text.toList
  | .value v => v.number = none ∨ EndsAtNumber text.toList

section Right

variable {condition : DeviceDataCondition} {callback : GetPropertyValueCallBack} {env : Env}
  {c : Cursor} {text : String} {a b : ℚ}

/-- The two numbers of a range. -/
theorem RangeText.strtod_eq (h : RangeText text.toList a b) :
    ∃ sep right, strtod text.toList = (.num (toDouble a), sep :: right) ∧
      (strtod right).1 = .num (toDouble b) := by
  obtain ⟨sep, right, hleft, hright⟩ := h
  exact ⟨sep, right, strtod_of_longest hleft, by rw [strtod_isNumber hright]⟩

theorem rangeRight_of_rangeText (h : RangeText text.toList a b) :
    RangeRight condition text callback env c := by
  have hverdict : ∀ a b, RangeText text.toList a b → ∀ v d c',
      getPropertyValueByPath condition.deviceInfo.path callback env c = some (.value v, c') →
      v.number = some d →
      calculateDeviceDataRangeCodition { condition with value := some text } callback env c =
        some (some (decide (.num (toDouble a) ≤ d ∧ d ≤ .num (toDouble b))), c') := by
    intro a b hrange v d c' hread hv
    obtain ⟨sep, right, htext, hright⟩ := hrange.strtod_eq
    rw [range_number hv hread htext, hright]
  refine ⟨fun hnone => absurd h (hnone a b), hverdict, ?_⟩
  intro a b hrange ha hb v p c' hread hv
  rw [hverdict a b hrange v _ c' hread hv, toDouble_of_isDouble ha, toDouble_of_isDouble hb]
  simp only [CDouble.num_le_num]

/-- What is read gives no verdict when the evaluation fails. -/
theorem noVerdict_of_failure {c' c'' : Cursor} {read : PropertyRead}
    (hread : getPropertyValueByPath condition.deviceInfo.path callback env c = some (read, c'))
    (hrun : calculateDeviceDataRangeCodition { condition with value := some text } callback env c =
      some (none, c'')) : NoVerdict text read := by
  cases htext : (strtod text.toList).2 with
  | nil =>
    have hempty := strtod_rest_eq_nil_iff.mp htext
    cases read with
    | failed => exact trivial
    | unwritten => exact hempty
    | value v => exact .inr hempty
  | cons sep right =>
    -- the code goes on to the property, with 0 for what it could not read
    cases read with
    | failed => exact trivial
    | unwritten =>
      rw [range_unwritten hread htext] at hrun
      exact nomatch hrun
    | value v =>
      left
      cases hv : v.number with
      | none => rfl
      | some d =>
        rw [range_number hv hread (Prod.ext rfl htext)] at hrun
        exact nomatch hrun

/-- The evaluation fails when what is read gives no verdict. -/
theorem failure_of_noVerdict {c' : Cursor} {read : PropertyRead}
    (hread : getPropertyValueByPath condition.deviceInfo.path callback env c = some (read, c'))
    (hverdict : NoVerdict text read) :
    calculateDeviceDataRangeCodition { condition with value := some text } callback env c =
      some (none, c') := by
  cases read with
  | failed => exact range_failed hread
  | unwritten => exact range_missing hread (strtod_rest_eq_nil_iff.mpr hverdict)
  | value v =>
    rcases hverdict with hv | hempty
    · exact range_cstr hv hread
    · exact range_missing hread (strtod_rest_eq_nil_iff.mpr hempty)

/-- **Malformed ranges** are failures exactly when there is no verdict on what is read. -/
theorem rangeRight_iff (condition : DeviceDataCondition) (text : String)
    (callback : GetPropertyValueCallBack) (env : Env) (c : Cursor) :
    RangeRight condition text callback env c ↔
      (∃ a b, RangeText text.toList a b) ∨
        ∃ read c', getPropertyValueByPath condition.deviceInfo.path callback env c =
          some (read, c') ∧ NoVerdict text read := by
  -- a range is always right; a malformed one when the evaluation fails
  by_cases hrange : ∃ a b, RangeText text.toList a b
  · obtain ⟨a, b, hrange⟩ := hrange
    exact ⟨fun _ => .inl ⟨a, b, hrange⟩, fun _ => rangeRight_of_rangeText hrange⟩
  · have hnone : ∀ a b, ¬RangeText text.toList a b := fun a b h => hrange ⟨a, b, h⟩
    rw [or_iff_right hrange]
    constructor
    · intro hright
      obtain ⟨c'', hrun⟩ := hright.malformed hnone
      cases hread : getPropertyValueByPath condition.deviceInfo.path callback env c with
      | none =>
        rw [range_undefined hread] at hrun
        exact nomatch hrun
      | some r => exact ⟨r.1, r.2, rfl, noVerdict_of_failure hread hrun⟩
    · rintro ⟨read, c', hread, hverdict⟩
      exact ⟨fun _ => ⟨c', failure_of_noVerdict hread hverdict⟩,
        fun a b h => absurd h (hnone a b), fun a b h => absurd h (hnone a b)⟩

end Right

/-- The boundaries may be hexadecimal. -/
example :
    (calculateDeviceDataRangeCodition
      { deviceInfo := { path := some "service/property" }, value := some "0x1,0x5" }
      (fun _ _ => some (.value (.int 3))) Env.plentiful { malloc := 0, frame := 0 }).map Prod.fst =
      some (some true) := by
  decide +kernel

/-- A text without a number is a range from 0 to 0 for the code. -/
theorem rangeRight_abc_false :
    ¬RangeRight { deviceInfo := { path := some "service/property" } } "abc"
      (fun _ _ => some (.value (.int 0))) Env.plentiful { malloc := 0, frame := 0 } := by
  have htext : strtod "abc".toList = (.num 0, "abc".toList) := by decide +kernel
  rintro ⟨hmalformed, -, -⟩
  have hnone : ∀ a b, ¬RangeText "abc".toList a b := by
    rintro a b ⟨sep, right, hleft, -⟩
    obtain ⟨-, hrest⟩ := Prod.mk.inj ((strtod_of_longest hleft).symm.trans htext)
    have hlt := hleft.length_lt
    rw [hrest] at hlt
    exact absurd hlt (lt_irrefl _)
  obtain ⟨c', hrun⟩ := hmalformed hnone
  rw [range_number rfl rfl htext] at hrun
  exact nomatch hrun

end IotDeviceSdk.DeviceRule
