import IotDeviceSdk.DeviceRule.Equiv.RangeCondition
import IotDeviceSdk.DeviceRule.Equiv.RuleTimers
import IotDeviceSdk.DeviceRule.Equiv.SimpleTimer

/-!
# The meaning of a rule

What a condition says of the properties and of the instant (`Condition.Says`), apart from how it is
evaluated: a data condition compares a property with the value its text stands for or looks whether
it lies in a range, a simple timer holds at the ends of its intervals, a daily timer in its minute
of a listed day.  A condition says nothing when it cannot be evaluated.

* `conditionVerdict_iff`: the evaluation finds what a condition says.
* `executed_iff_logicHolds`: the commands of a rule are executed when its logic asks for it.
-/

namespace IotDeviceSdk.DeviceRule

open CJson Prog

variable {env : Env} {callback : GetPropertyValueCallBack} {epochTime : ℤ}

/-! ### Comparisons -/

/-- What a condition may ask of a property and the value it expects. -/
inductive Comparison where
  | smaller | equal | bigger | atMost | atLeast

namespace Comparison

def operators : Comparison → List String
  | smaller => ["<"]
  | equal => ["=", "=="]
  | bigger => [">"]
  | atMost => ["<="]
  | atLeast => [">="]

/-- The comparison of what is read with what is expected.  `NAN` is neither smaller nor bigger than
anything, so it is equal to everything. -/
def Holds {α : Type} [LT α] (read expected : α) : Comparison → Prop
  | smaller => read < expected
  | equal => ¬read < expected ∧ ¬expected < read
  | bigger => expected < read
  | atMost => ¬expected < read
  | atLeast => ¬read < expected

theorem operator_ne_between {k : Comparison} {operator : String} (h : operator ∈ k.operators) :
    operator ≠ "between" := by
  rintro rfl
  cases k with
  | smaller => exact absurd h (by decide)
  | equal => exact absurd h (by decide)
  | bigger => exact absurd h (by decide)
  | atMost => exact absurd h (by decide)
  | atLeast => exact absurd h (by decide)

end Comparison

/-- **The operators** say of two values what their three-way comparison allows. -/
theorem compareByOperator_iff {α : Type} [LT α] {a b : α} {result : ℤ} (hlt : result < 0 ↔ a < b)
    (hgt : 0 < result ↔ b < a) {operator : String} {v : Bool} :
    compareByOperator operator result = some v ↔
      ∃ k : Comparison, operator ∈ k.operators ∧ (v = true ↔ k.Holds a b) := by
  constructor
  · intro h
    unfold compareByOperator at h
    split_ifs at h with hless hequal hgreater hle hge
    · obtain rfl := Option.some.inj h
      exact ⟨.smaller, by simp [Comparison.operators, hless], by simp [Comparison.Holds, hlt]⟩
    · obtain rfl := Option.some.inj h
      refine ⟨.equal, by simpa [Comparison.operators] using hequal, ?_⟩
      rw [decide_eq_true_eq, Comparison.Holds, ← hlt, ← hgt]
      omega
    · obtain rfl := Option.some.inj h
      exact ⟨.bigger, by simp [Comparison.operators, hgreater], by simp [Comparison.Holds, hgt]⟩
    · obtain rfl := Option.some.inj h
      refine ⟨.atMost, by simp [Comparison.operators, hle], ?_⟩
      rw [decide_eq_true_eq, Comparison.Holds, ← hgt]
      omega
    · obtain rfl := Option.some.inj h
      refine ⟨.atLeast, by simp [Comparison.operators, hge], ?_⟩
      rw [decide_eq_true_eq, Comparison.Holds, ← hlt]
      omega
  · rintro ⟨k, hoperator, hv⟩
    -- each operator tests the sign of the result
    have hdecide : ∀ {p : Prop} [Decidable p], (p ↔ k.Holds a b) → some (decide p) = some v := by
      intro p _ hp
      rw [Option.some_inj, Bool.eq_iff_iff, decide_eq_true_eq, hp, hv]
    cases k with
    | smaller =>
      obtain rfl := List.mem_singleton.mp hoperator
      exact hdecide hlt
    | equal =>
      have hsame : (result = 0) ↔ ¬a < b ∧ ¬b < a := by
        rw [← hlt, ← hgt]
        omega
      rcases List.mem_cons.mp hoperator with rfl | hoperator
      · exact hdecide hsame
      · obtain rfl := List.mem_singleton.mp hoperator
        exact hdecide hsame
    | bigger =>
      obtain rfl := List.mem_singleton.mp hoperator
      exact hdecide hgt
    | atMost =>
      obtain rfl := List.mem_singleton.mp hoperator
      exact hdecide (by rw [Comparison.Holds, ← hgt, not_lt])
    | atLeast =>
      obtain rfl := List.mem_singleton.mp hoperator
      exact hdecide (by rw [Comparison.Holds, ← hlt, not_lt])

/-! Three-way comparisons. -/

section ThreeWay

variable {α : Type} [LT α] [DecidableLT α] {a b : α}

theorem threeWay_neg : threeWay a b < 0 ↔ a < b := by
  unfold threeWay
  split_ifs with h h'
  · simp [h]
  · simp [h]
  · simp [h]

theorem threeWay_pos (hasymm : a < b → ¬b < a) : 0 < threeWay a b ↔ b < a := by
  unfold threeWay
  split_ifs with h h'
  · simp [hasymm h]
  · simp [h']
  · simp [h']

end ThreeWay

theorem CDouble.lt_asymm {a b : CDouble} (h : a < b) : ¬b < a := by
  cases a with
  | nan => cases h
  | num p =>
    cases b with
    | nan => cases h
    | num q =>
      rw [CDouble.num_lt_num] at h ⊢
      exact not_lt.mpr h.le

theorem strcmp_neg {s t : String} : strcmp s t < 0 ↔ s < t := by
  unfold strcmp
  split_ifs with heq hlt
  · simp [heq]
  · simp [hlt]
  · simp [hlt]

theorem strcmp_pos {s t : String} : 0 < strcmp s t ↔ t < s := by
  unfold strcmp
  split_ifs with heq hlt
  · simp [heq]
  · simp [String.lt_asymm hlt]
  · have hgt : t < s := by
      by_contra hge
      exact heq (String.le_antisymm (String.not_lt.mp hge) (String.not_lt.mp hlt))
    simp [hgt]

/-! ### Data conditions -/

/-- A number as an `int`: without its fraction, and no further than an `int` reaches. -/
def intOf (q : ℚ) : ℤ := max INT_MIN (min INT_MAX (if 0 ≤ q then ⌊q⌋ else ⌈q⌉))

/-- The value a text stands for, as one of the type of the property. -/
inductive Expected (text : String) : PropertyValueDataType → PropertyValue → Prop where
  | int {q : ℚ} {rest : List Char} (hread : strtod text.toList = (.num q, rest))
    (hnumber : rest ≠ text.toList) : Expected text .int (.int (intOf q))
  | double {d : CDouble} {rest : List Char} (hread : strtod text.toList = (d, rest))
    (hnumber : rest ≠ text.toList) : Expected text .double (.double d)
  | cstr : Expected text .cstr (.cstr text)

namespace DeviceDataCondition

/-- The path of the condition is a service and a property of which the callback knows the value. -/
def Reads (callback : GetPropertyValueCallBack) (data : DeviceDataCondition) (v : PropertyValue) :
    Prop :=
  ∃ service property : String, data.deviceInfo.path = some (service ++ "/" ++ property) ∧
    '/' ∉ service.toList ∧ callback service property = some (.value v)

/-- What the condition says of the value of its property. -/
inductive Judges (data : DeviceDataCondition) : PropertyValue → Prop → Prop where
  | int {k : Comparison} {operator text : String} {i j : ℤ}
    (hoperator : data.operator = some operator) (hk : operator ∈ k.operators)
    (hvalue : data.value = some text) (hexpected : Expected text .int (.int j)) :
    Judges data (.int i) (k.Holds i j)
  | double {k : Comparison} {operator text : String} {d e : CDouble}
    (hoperator : data.operator = some operator) (hk : operator ∈ k.operators)
    (hvalue : data.value = some text) (hexpected : Expected text .double (.double e)) :
    Judges data (.double d) (k.Holds d e)
  | cstr {k : Comparison} {operator text s : String}
    (hoperator : data.operator = some operator) (hk : operator ∈ k.operators)
    (hvalue : data.value = some text) : Judges data (.cstr s) (k.Holds s text)
  | between {text : String} {v : PropertyValue} {d a : CDouble} {sep : Char} {right : List Char}
    (hoperator : data.operator = some "between") (hvalue : data.value = some text)
    (hnumber : v.number = some d) (hleft : strtod text.toList = (a, sep :: right)) :
    Judges data v (a ≤ d ∧ d ≤ (strtod right).1)

end DeviceDataCondition

theorem doubleToInt_eq (q : ℚ) : doubleToInt q = intOf q := by
  have htruncate : truncate q = if 0 ≤ q then ⌊q⌋ else ⌈q⌉ := by
    unfold truncate
    split
    · rfl
    · rw [← neg_neg ⌈q⌉, ← Int.floor_neg]
      rfl
  unfold doubleToInt intOf
  rw [← htruncate]
  have hle : INT_MIN ≤ INT_MAX := by decide
  split_ifs with hhigh hlow
  · have hint : INT_MAX ≤ truncate q := by
      rw [htruncate, if_pos (le_trans (by norm_num [INT_MAX]) hhigh)]
      exact Int.le_floor.mpr hhigh
    rw [min_eq_left hint, max_eq_right hle]
  · have hint : truncate q ≤ INT_MIN := by
      have hneg : ¬0 ≤ q := by
        have hmin : (INT_MIN : ℚ) < 0 := by norm_num [INT_MIN]
        linarith
      rw [htruncate, if_neg hneg]
      exact Int.ceil_le.mpr hlow
    rw [min_eq_right (hint.trans hle), max_eq_left hint]
  · have hbounds : INT_MIN ≤ truncate q ∧ truncate q ≤ INT_MAX := by
      rw [htruncate]
      split
      · have hnonneg : 0 ≤ q := by assumption
        constructor
        · exact le_trans (by decide) (Int.floor_nonneg.mpr hnonneg)
        · exact_mod_cast (Int.floor_le q).trans (not_le.mp hhigh).le
      · constructor
        · exact_mod_cast (not_le.mp hlow).le.trans (Int.le_ceil q)
        · exact Int.ceil_le.mpr (not_le.mp hhigh).le
    rw [min_eq_right hbounds.2, max_eq_right hbounds.1]

/-! Reading the property. -/

section Path

variable {path service property : String}

/-- A path with a slash is what stands before the first one and what stands after it. -/
theorem path_eq (hslash : path.toList.length ≠ (path.toList.takeWhile (· ≠ '/')).length) :
    path = String.ofList (path.toList.takeWhile (· ≠ '/')) ++ "/" ++
      String.ofList (path.toList.drop ((path.toList.takeWhile (· ≠ '/')).length + 1)) := by
  have hsplit := List.takeWhile_append_dropWhile (p := (· ≠ '/')) (l := path.toList)
  cases hrest : path.toList.dropWhile (· ≠ '/') with
  | nil =>
    rw [hrest, List.append_nil] at hsplit
    exact absurd (congrArg List.length hsplit.symm) hslash
  | cons c rest =>
    have hc : c = '/' := by
      have hstop := List.head?_dropWhile_not (· ≠ '/') path.toList
      rw [hrest] at hstop
      simpa using hstop
    rw [hrest, hc] at hsplit
    have hdrop : path.toList.drop ((path.toList.takeWhile (· ≠ '/')).length + 1) = rest := by
      refine (congrArg (List.drop _) hsplit.symm).trans ?_
      rw [← List.drop_drop, List.drop_left]
      rfl
    apply String.toList_inj.mp
    rw [hdrop]
    simpa using hsplit.symm

theorem takeWhile_path (property : String) (hservice : '/' ∉ service.toList) :
    (service ++ "/" ++ property).toList.takeWhile (· ≠ '/') = service.toList := by
  have hrun : ∀ c ∈ service.toList, decide (c ≠ '/') = true := by
    intro c hc
    rw [decide_eq_true_eq]
    rintro rfl
    exact hservice hc
  have hstop : ∀ c ∈ ('/' :: property.toList).head?, decide (c ≠ '/') = false := by
    intro c hc
    obtain rfl := Option.some.inj hc
    rfl
  have htext : (service ++ "/" ++ property).toList = service.toList ++ '/' :: property.toList := by
    simp
  rw [htext, Text.takeWhile_run hrun hstop]

end Path

section Reads

variable {data : DeviceDataCondition} {v : PropertyValue}

/-- **`GetPropertyValueByPath`** splits the path at its first slash. -/
theorem reads_iff {c : Cursor} :
    (∃ c', getPropertyValueByPath data.deviceInfo.path callback Env.plentiful c =
      some (.value v, c')) ↔ data.Reads callback v := by
  constructor
  · rintro ⟨c', h⟩
    cases hpath : data.deviceInfo.path with
    | none =>
      rw [hpath] at h
      cases h
    | some path =>
      rw [hpath] at h
      by_cases hslash : path.toList.length = (path.toList.takeWhile (· ≠ '/')).length
      · have hfailed : getPropertyValueByPath (some path) callback = pure .failed := if_pos hslash
        rw [hfailed] at h
        cases h
      · rw [getPropertyValueByPath_apply hslash] at h
        have hnot : '/' ∉ path.toList.takeWhile (· ≠ '/') :=
          fun hmem => absurd (List.mem_takeWhile_imp hmem) (by simp)
        refine ⟨_, _, hpath.trans (congrArg some (path_eq hslash)), ?_, ?_⟩
        · rwa [String.toList_ofList]
        · exact ofOption_yields _ _ ⟨_, _, h⟩
  · rintro ⟨service, property, hpath, hservice, hcall⟩
    have htake := takeWhile_path property hservice
    have hslash : (service ++ "/" ++ property).toList.length ≠
        ((service ++ "/" ++ property).toList.takeWhile (· ≠ '/')).length := by
      rw [htake]
      simp
    have hdrop : (service ++ "/" ++ property).toList.drop (service.toList.length + 1) =
        property.toList := by
      simp
    refine ⟨{ c with malloc := c.malloc + 1 }, ?_⟩
    rw [hpath, getPropertyValueByPath_apply hslash, htake, hdrop, String.ofList_toList,
      String.ofList_toList, hcall]
    rfl

/-! What is expected of it. -/

theorem strToPropertyValue_eq {text : String} {type : PropertyValueDataType}
    (h : Expected text type v) : strToPropertyValue (some text) type = pure (some v) := by
  have hlength : ∀ {rest : List Char}, (strtod text.toList).2 = rest → rest ≠ text.toList →
      rest.length ≠ text.toList.length := by
    intro rest hrest hne hlength
    have hsuffix := strtod_suffix text.toList
    rw [hrest] at hsuffix
    exact hne (hsuffix.eq_of_length hlength)
  unfold strToPropertyValue
  dsimp only
  cases h with
  | int hread hnumber =>
    have hne := hlength (congrArg Prod.snd hread) hnumber
    rw [hread, ← doubleToInt_eq]
    exact if_neg hne
  | double hread hnumber =>
    have hne := hlength (congrArg Prod.snd hread) hnumber
    rw [hread]
    exact if_neg hne
  | cstr => rfl

theorem expected_of_strToPropertyValue {value : Option String} {type : PropertyValueDataType}
    {c c' : Cursor} (h : strToPropertyValue value type env c = some (some v, c')) :
    ∃ text, value = some text ∧ Expected text type v := by
  cases value with
  | none => cases h
  | some text =>
    refine ⟨text, rfl, ?_⟩
    unfold strToPropertyValue at h
    dsimp only at h
    rcases hread : strtod text.toList with ⟨number, rest⟩
    rw [hread] at h
    have hne : ∀ {p : Sdk (Option PropertyValue)},
        (if rest.length = text.toList.length then pure none else p) env c = some (some v, c') →
          rest ≠ text.toList ∧ p env c = some (some v, c') := by
      intro p hp
      split at hp
      · cases hp
      · rename_i hlength
        exact ⟨fun heq => hlength (congrArg List.length heq), hp⟩
    cases type with
    | int =>
      obtain ⟨hnumber, h⟩ := hne h
      cases number with
      | nan => cases h
      | num q =>
        obtain rfl := Option.some.inj (Prod.mk.inj (Option.some.inj h)).1
        rw [doubleToInt_eq]
        exact .int hread hnumber
    | double =>
      obtain ⟨hnumber, h⟩ := hne h
      obtain rfl := Option.some.inj (Prod.mk.inj (Option.some.inj h)).1
      exact .double hread hnumber
    | cstr =>
      obtain rfl := Option.some.inj (Prod.mk.inj (Option.some.inj h)).1
      exact .cstr

/-! The comparison. -/

/-- What is compared, when the comparison gives a verdict. -/
theorem exists_of_compare {c c' : Cursor} {b : Bool}
    (h : calculateDeviceDataCompareCodition data callback env c = some (some b, c')) :
    ∃ v c₁, getPropertyValueByPath data.deviceInfo.path callback env c = some (.value v, c₁) ∧
      ∃ text expected operator result, data.value = some text ∧ Expected text v.type expected ∧
        propertyValueCompare v expected = some result ∧ data.operator = some operator ∧
        compareByOperator operator result = some b := by
  obtain ⟨read, c₁, hread, h⟩ := bind_eq_some.mp h
  cases read with
  | failed => cases h
  | unwritten => cases h
  | value v =>
    obtain ⟨expected, c₂, hexpected, h⟩ := bind_eq_some.mp h
    cases expected with
    | none => cases h
    | some expected =>
      obtain ⟨text, hvalue, hexpected⟩ := expected_of_strToPropertyValue hexpected
      dsimp only at h
      cases hresult : propertyValueCompare v expected with
      | none =>
        rw [hresult] at h
        cases h
      | some result =>
        rw [hresult] at h
        cases hoperator : data.operator with
        | none =>
          rw [hoperator] at h
          cases h
        | some operator =>
          rw [hoperator] at h
          exact ⟨v, c₁, hread, text, expected, operator, result, hvalue, hexpected, hresult, rfl,
            (Prod.mk.inj (Option.some.inj h)).1⟩

theorem compare_eq {c c' : Cursor} {text operator : String} {expected : PropertyValue} {result : ℤ}
    (hread : getPropertyValueByPath data.deviceInfo.path callback env c = some (.value v, c'))
    (hvalue : data.value = some text) (hexpected : Expected text v.type expected)
    (hresult : propertyValueCompare v expected = some result)
    (hoperator : data.operator = some operator) :
    calculateDeviceDataCompareCodition data callback env c =
      some (compareByOperator operator result, c') := by
  unfold calculateDeviceDataCompareCodition
  rw [bind_apply, hread, Option.bind_some]
  dsimp only
  rw [hvalue, strToPropertyValue_eq hexpected, pure_bind]
  dsimp only
  rw [hresult, hoperator]
  rfl

/-- The verdict of a comparison is what the condition says. -/
theorem judges_of_compare {text operator : String} {expected : PropertyValue} {result : ℤ}
    {b : Bool} (hvalue : data.value = some text) (hexpected : Expected text v.type expected)
    (hresult : propertyValueCompare v expected = some result)
    (hoperator : data.operator = some operator)
    (hb : compareByOperator operator result = some b) :
    ∃ p, data.Judges v p ∧ (b = true ↔ p) := by
  cases v with
  | int i =>
    cases expected with
    | int j =>
      obtain rfl := Option.some.inj hresult
      obtain ⟨k, hk, hiff⟩ :=
        (compareByOperator_iff threeWay_neg (threeWay_pos fun h => not_lt.mpr h.le)).mp hb
      exact ⟨_, .int hoperator hk hvalue hexpected, hiff⟩
    | double e => cases hresult
    | cstr s => cases hresult
  | double d =>
    cases expected with
    | int j => cases hresult
    | double e =>
      obtain rfl := Option.some.inj hresult
      obtain ⟨k, hk, hiff⟩ :=
        (compareByOperator_iff threeWay_neg (threeWay_pos CDouble.lt_asymm)).mp hb
      exact ⟨_, .double hoperator hk hvalue hexpected, hiff⟩
    | cstr s => cases hresult
  | cstr s =>
    cases hexpected with
    | cstr =>
      obtain rfl := Option.some.inj hresult
      obtain ⟨k, hk, hiff⟩ := (compareByOperator_iff strcmp_neg strcmp_pos).mp hb
      exact ⟨_, .cstr hoperator hk hvalue, hiff⟩

/-! The range. -/

/-- The verdict on a number that is read, between what is read of the text. -/
theorem range_eq {c c' : Cursor} {text : String} {d a : CDouble} {sep : Char} {right : List Char}
    (hread : getPropertyValueByPath data.deviceInfo.path callback env c = some (.value v, c'))
    (hvalue : data.value = some text) (hnumber : v.number = some d)
    (hleft : strtod text.toList = (a, sep :: right)) :
    calculateDeviceDataRangeCodition data callback env c =
      some (some (decide (a ≤ d ∧ d ≤ (strtod right).1)), c') := by
  have hdata : data = { data with value := some text } := by rw [← hvalue]
  rw [hdata]
  exact range_number hnumber hread hleft

/-- What is compared with the range, when there is a verdict. -/
theorem exists_of_range {c c' : Cursor} {b : Bool}
    (h : calculateDeviceDataRangeCodition data callback env c = some (some b, c')) :
    ∃ v d text a sep right,
      (∃ c₁, getPropertyValueByPath data.deviceInfo.path callback env c = some (.value v, c₁)) ∧
        data.value = some text ∧ v.number = some d ∧ strtod text.toList = (a, sep :: right) ∧
          (b = true ↔ a ≤ d ∧ d ≤ (strtod right).1) := by
  obtain ⟨read, c₁, hread, hrest⟩ := bind_eq_some.mp h
  cases hvalue : data.value with
  | none =>
    rw [hvalue] at hrest
    cases read with
    | failed => cases hrest
    | unwritten => cases hrest
    | value v => cases hrest
  | some text =>
    have hdata : data = { data with value := some text } := by rw [← hvalue]
    have hverdict : ∀ {r : Option Bool} {c₂ : Cursor},
        calculateDeviceDataRangeCodition { data with value := some text } callback env c =
          some (r, c₂) → r = some b := by
      intro r c₂ hr
      rw [hdata, hr] at h
      exact (Prod.mk.inj (Option.some.inj h)).1
    rcases hleft : strtod text.toList with ⟨a, rest⟩
    cases rest with
    | nil => exact nomatch hverdict (range_missing hread (congrArg Prod.snd hleft))
    | cons sep right =>
      cases read with
      | failed => exact nomatch hverdict (range_failed hread)
      | unwritten =>
        rw [hdata, range_unwritten hread (congrArg Prod.snd hleft)] at h
        cases h
      | value v =>
        cases hnumber : v.number with
        | none => exact nomatch hverdict (range_cstr hnumber hread)
        | some d =>
          obtain rfl := Option.some.inj (hverdict (range_number hnumber hread hleft))
          exact ⟨v, d, text, a, sep, right, ⟨c₁, hread⟩, rfl, hnumber, hleft, decide_eq_true_iff⟩

/-- **What a data condition says** is the verdict of its evaluation. -/
theorem dataVerdict_iff {b : Bool} :
    dataVerdict callback data = some (some b) ↔
      ∃ v p, data.Reads callback v ∧ data.Judges v p ∧ (b = true ↔ p) := by
  -- what is judged does not depend on the counters
  have hrun : dataVerdict callback data = some (some b) ↔ ∃ c',
      calculateDeviceDataCondition data callback Env.plentiful default = some (some b, c') := by
    unfold dataVerdict
    rw [Option.map_eq_some_iff]
    constructor
    · rintro ⟨⟨r, c'⟩, hr, rfl⟩
      exact ⟨c', hr⟩
    · rintro ⟨c', hr⟩
      exact ⟨_, hr, rfl⟩
  have hcondition : ∀ {operator : String}, data.operator = some operator →
      calculateDeviceDataCondition data callback =
        if operator = "between" then calculateDeviceDataRangeCodition data callback
        else calculateDeviceDataCompareCodition data callback := by
    intro operator hoperator
    unfold calculateDeviceDataCondition
    rw [hoperator]
    show pure (operator == "between") >>= _ = _
    rw [pure_bind]
    simp only [beq_iff_eq]
  rw [hrun]
  constructor
  · rintro ⟨c', h⟩
    -- from the code to the meaning
    cases hoperator : data.operator with
    | none =>
      unfold calculateDeviceDataCondition at h
      rw [hoperator] at h
      cases h
    | some operator =>
      rw [hcondition hoperator] at h
      split at h
      · rename_i hbetween
        subst hbetween
        obtain ⟨v, d, text, a, sep, right, hread, hvalue, hnumber, hleft, hb⟩ := exists_of_range h
        exact ⟨v, _, reads_iff.mp hread, .between hoperator hvalue hnumber hleft, hb⟩
      · obtain ⟨v, c₁, hread, text, expected, operator', result, hvalue, hexpected, hresult,
          hoperator', hb⟩ := exists_of_compare h
        obtain ⟨p, hjudges, hiff⟩ := judges_of_compare hvalue hexpected hresult hoperator' hb
        exact ⟨v, p, reads_iff.mp ⟨c₁, hread⟩, hjudges, hiff⟩
  · rintro ⟨v, p, hreads, hjudges, hiff⟩
    -- each way to judge is one way through the code
    obtain ⟨c', hread⟩ := reads_iff.mpr hreads
    refine ⟨c', ?_⟩
    cases hjudges with
    | int hoperator hk hvalue hexpected =>
      rw [hcondition hoperator, if_neg (Comparison.operator_ne_between hk),
        compare_eq hread hvalue hexpected rfl hoperator, compareByOperator_iff threeWay_neg
          (threeWay_pos fun h => not_lt.mpr h.le) |>.mpr ⟨_, hk, hiff⟩]
    | double hoperator hk hvalue hexpected =>
      rw [hcondition hoperator, if_neg (Comparison.operator_ne_between hk),
        compare_eq hread hvalue hexpected rfl hoperator, compareByOperator_iff threeWay_neg
          (threeWay_pos CDouble.lt_asymm) |>.mpr ⟨_, hk, hiff⟩]
    | cstr hoperator hk hvalue =>
      rw [hcondition hoperator, if_neg (Comparison.operator_ne_between hk),
        compare_eq hread hvalue .cstr rfl hoperator,
        compareByOperator_iff strcmp_neg strcmp_pos |>.mpr ⟨_, hk, hiff⟩]
    | between hoperator hvalue hnumber hleft =>
      rw [hcondition hoperator, if_pos rfl, range_eq hread hvalue hnumber hleft,
        Bool.eq_iff_iff.mpr (decide_eq_true_iff.trans hiff.symm)]

end Reads

/-! ### Timers -/

namespace SimpleTimerCondition

/-- The end of one of the first intervals of the timer. -/
def Rings (data : SimpleTimerCondition) (epochTime : ℤ) : Prop :=
  data.startTime ≤ epochTime ∧
    ∃ k < data.repeatCount, epochTime = data.startTime + k * data.repeatInterval

/-- The evaluation is defined: an `int` holds the difference, and it is not divided by zero. -/
def Computes (data : SimpleTimerCondition) (epochTime : ℤ) : Prop :=
  epochTime < data.startTime ∨
    epochTime - data.startTime ≤ INT_MAX ∧ data.repeatInterval ≠ 0

end SimpleTimerCondition

theorem calculateSimpleTimerCondition_iff {data : SimpleTimerCondition} {b : Bool} :
    calculateSimpleTimerCondition data epochTime = some b ↔
      data.Computes epochTime ∧ (b = true ↔ data.Rings epochTime) := by
  unfold calculateSimpleTimerCondition SimpleTimerCondition.Computes SimpleTimerCondition.Rings
  by_cases hbefore : epochTime < data.startTime
  · rw [if_pos hbefore]
    -- before its start no timer rings
    simp [hbefore, not_le.mpr hbefore, eq_comm]
  · rw [if_neg hbefore]
    dsimp only
    by_cases hundefined : INT_MAX < epochTime - data.startTime ∨ data.repeatInterval = 0
    · rw [if_pos hundefined]
      constructor
      · intro h
        cases h
      · rintro ⟨hcomputes, -⟩
        omega
    · rw [if_neg hundefined]
      have hinterval : data.repeatInterval ≠ 0 := fun h => hundefined (.inr h)
      have hcomputes : epochTime < data.startTime ∨
          epochTime - data.startTime ≤ INT_MAX ∧ data.repeatInterval ≠ 0 := by omega
      rw [and_iff_right hcomputes]
      by_cases hdvd : data.repeatInterval ∣ epochTime - data.startTime
      · -- the timer is at the end of its interval of that number
        obtain ⟨k, hk⟩ := hdvd
        have hunique : (∃ k < data.repeatCount, epochTime =
            data.startTime + k * data.repeatInterval) ↔ k < data.repeatCount := by
          constructor
          · rintro ⟨j, hj, hepoch⟩
            have hsame : data.repeatInterval * j = data.repeatInterval * k := by
              rw [← hk, hepoch]
              ring
            rwa [← Int.eq_of_mul_eq_mul_left hinterval hsame]
          · intro hlt
            refine ⟨k, hlt, ?_⟩
            have hcomm := Int.mul_comm data.repeatInterval k
            omega
        rw [hk, Int.mul_tmod_right, if_neg (by decide), Int.mul_tdiv_cancel_left _ hinterval,
          hunique, Option.some_inj, and_iff_right (not_lt.mp hbefore), Bool.eq_iff_iff,
          decide_eq_true_eq]
        exact Iff.comm
      · have hrem : (epochTime - data.startTime).tmod data.repeatInterval ≠ 0 :=
          fun h => hdvd (Int.dvd_of_tmod_eq_zero h)
        have hnone : ¬∃ k < data.repeatCount, epochTime =
            data.startTime + k * data.repeatInterval := by
          rintro ⟨k, -, hepoch⟩
          exact hdvd ⟨k, by rw [hepoch]; ring⟩
        rw [if_pos hrem]
        simp [hnone, eq_comm]

/-- The timer is in its minute of a listed day, and was not executed in the last minute. -/
def DailyTimerCondition.Rings (data : DailyTimerCondition) (epochTime : ℤ) : Prop :=
  data.Window (epochTime / secondsPerDay) epochTime ∧
    data.lastExecutedTime (weekday epochTime) + 60 ≤ epochTime

theorem calculateDailyTimerCondition_iff_rings {data : DailyTimerCondition} :
    calculateDailyTimerCondition data epochTime = true ↔ data.Rings epochTime := by
  have hwindow := @DailyTimerCondition.windowAt_eq_some epochTime data (epochTime / secondsPerDay)
  unfold DailyTimerCondition.Rings
  rw [← hwindow, DailyTimerCondition.windowAt, Option.ite_none_right_eq_some,
    calculateDailyTimerCondition, Bool.and_eq_true, decide_eq_true_eq]
  have hweekday : (gmtime epochTime).tm_wday = weekday epochTime := rfl
  rw [hweekday]
  constructor
  · rintro ⟨hin, hlast⟩
    exact ⟨⟨hin, rfl⟩, by omega⟩
  · rintro ⟨⟨hin, -⟩, hlast⟩
    exact ⟨hin, by omega⟩

/-! ### Conditions -/

/-- **What a condition says** of the properties and the instant. -/
inductive Condition.Says (callback : GetPropertyValueCallBack) (epochTime : ℤ) :
    Condition → Prop → Prop where
  | deviceData {data : DeviceDataCondition} {v : PropertyValue} {p : Prop}
    (hreads : data.Reads callback v) (hjudges : data.Judges v p) :
    Says callback epochTime (.deviceData data) p
  | simpleTimer {data : SimpleTimerCondition} (hcomputes : data.Computes epochTime) :
    Says callback epochTime (.simpleTimer data) (data.Rings epochTime)
  | dailyTimer {data : DailyTimerCondition} :
    Says callback epochTime (.dailyTimer data) (data.Rings epochTime)

/-- **The verdict** of the evaluation is what the condition says. -/
theorem conditionVerdict_iff {c : Condition} {b : Bool} :
    conditionVerdict callback epochTime c = some (some b) ↔
      ∃ p, c.Says callback epochTime p ∧ (b = true ↔ p) := by
  cases c with
  | deviceData data =>
    rw [conditionVerdict, dataVerdict_iff]
    constructor
    · rintro ⟨v, p, hreads, hjudges, hb⟩
      exact ⟨p, .deviceData hreads hjudges, hb⟩
    · rintro ⟨p, hsays, hb⟩
      cases hsays with
      | deviceData hreads hjudges => exact ⟨_, p, hreads, hjudges, hb⟩
  | simpleTimer data =>
    have hsome : conditionVerdict callback epochTime (.simpleTimer data) = some (some b) ↔
        calculateSimpleTimerCondition data epochTime = some b := by
      simp [conditionVerdict]
    rw [hsome, calculateSimpleTimerCondition_iff]
    constructor
    · rintro ⟨hcomputes, hb⟩
      exact ⟨_, .simpleTimer hcomputes, hb⟩
    · rintro ⟨p, hsays, hb⟩
      cases hsays with
      | simpleTimer hcomputes => exact ⟨hcomputes, hb⟩
  | dailyTimer data =>
    have hsame : conditionVerdict callback epochTime (.dailyTimer data) = some (some b) ↔
        (b = true ↔ data.Rings epochTime) := by
      rw [← calculateDailyTimerCondition_iff_rings, ← Bool.eq_iff_iff]
      simp [conditionVerdict, eq_comm]
    rw [hsame]
    constructor
    · intro hb
      exact ⟨_, .dailyTimer, hb⟩
    · rintro ⟨p, hsays, hb⟩
      cases hsays with
      | dailyTimer => exact hb
  | empty =>
    constructor
    · intro h
      cases h
    · rintro ⟨p, hsays, -⟩
      cases hsays

/-- The condition can be evaluated. -/
def Condition.CanBeEvaluated (callback : GetPropertyValueCallBack) (epochTime : ℤ)
    (c : Condition) : Prop :=
  ∃ p, c.Says callback epochTime p

/-- The condition holds. -/
def Condition.IsTrue (callback : GetPropertyValueCallBack) (epochTime : ℤ) (c : Condition) : Prop :=
  ∃ p, c.Says callback epochTime p ∧ p

theorem evaluable_iff {c : Condition} :
    Evaluable callback epochTime c ↔ c.CanBeEvaluated callback epochTime := by
  constructor
  · rintro ⟨b, hb⟩
    obtain ⟨p, hsays, -⟩ := conditionVerdict_iff.mp hb
    exact ⟨p, hsays⟩
  · rintro ⟨p, hsays⟩
    classical
    exact ⟨decide p, conditionVerdict_iff.mpr ⟨p, hsays, decide_eq_true_iff⟩⟩

theorem holds_iff {c : Condition} :
    Holds callback epochTime c ↔ c.IsTrue callback epochTime := by
  unfold Holds Condition.IsTrue
  rw [conditionVerdict_iff]
  simp only [true_iff]

/-! ### The logic of a rule -/

/-- What the logic of a rule asks of its conditions. -/
def LogicHolds (callback : GetPropertyValueCallBack) (epochTime : ℤ) (rule : RuleInfo) : Prop :=
  if rule.logic = some "and" then ∀ c ∈ rule.conditions, c.IsTrue callback epochTime
  else (∀ c ∈ rule.conditions, c.CanBeEvaluated callback epochTime) ∧
    ∃ c ∈ rule.conditions, c.IsTrue callback epochTime

theorem fulfilled_iff_logicHolds {rule : RuleInfo} (hknown : ∀ c ∈ rule.conditions, c ≠ .empty) :
    Fulfilled callback epochTime rule ↔ LogicHolds callback epochTime rule := by
  unfold LogicHolds
  simp only [← evaluable_iff, ← holds_iff]
  constructor
  · intro h
    have hlogic := h.logic
    split
    · rename_i hand
      rw [if_pos hand] at hlogic
      exact fun c hc => hlogic c hc (hknown c hc)
    · rename_i hor
      rw [if_neg hor] at hlogic
      exact ⟨fun c hc => h.evaluable c hc (hknown c hc), hlogic⟩
  · intro h
    split at h
    · -- what holds can be evaluated
      rename_i hand
      refine ⟨fun c hc _ => ⟨true, h c hc⟩, ?_⟩
      rw [if_pos hand]
      exact fun c hc _ => h c hc
    · rename_i hor
      refine ⟨fun c hc _ => h.1 c hc, ?_⟩
      rw [if_neg hor]
      exact h.2

/-- **And/or meaning of a rule**: the enabled commands of a rule whose conditions are evaluated are
executed with logic `and` when all its conditions hold, and with any other logic when all of them
can be evaluated and one holds; an allocation that fails can only keep them from being executed, and
no others are.  The evaluation of a complete rule is defined when the one of every condition is. -/
theorem executed_iff_logicHolds {isTimerRule : Bool} {rule : RuleInfo}
    (hknown : ∀ c ∈ rule.conditions, c ≠ .empty) (hdue : due isTimerRule epochTime rule = true) :
    Yields env (checkRuleInfoAndExecute callback isTimerRule epochTime rule) (fun run =>
      (∀ calls, run.executed = some calls →
        calls = enabledCommands rule.actions ∧ LogicHolds callback epochTime rule) ∧
      (env.AllocsSucceed → (run.executed = some (enabledCommands rule.actions) ↔
        LogicHolds callback epochTime rule))) ∧
    (rule.Complete → (∀ c ∈ rule.conditions, conditionVerdict callback epochTime c ≠ none) →
      Returns env (checkRuleInfoAndExecute callback isTimerRule epochTime rule) fun _ => True) := by
  have hlogic : Fulfilled callback epochTime rule ↔ LogicHolds callback epochTime rule :=
    fulfilled_iff_logicHolds hknown
  constructor
  · refine (checkRuleInfoAndExecute_follows isTimerRule rule).mono fun run hrun => ?_
    have honly : ∀ calls, run.executed = some calls →
        calls = enabledCommands rule.actions ∧ LogicHolds callback epochTime rule := by
      intro calls hcalls
      have hexecuted : run.executed.isSome = true := by rw [hcalls]; rfl
      exact ⟨hrun.commands calls hcalls, hlogic.mp (hrun.fulfilled hexecuted)⟩
    refine ⟨honly, fun hA => ⟨fun hcalls => (honly _ hcalls).2, fun hholds => ?_⟩⟩
    have hexecuted := hrun.executed hA hdue (hlogic.mpr hholds)
    obtain ⟨calls, hcalls⟩ := Option.isSome_iff_exists.mp hexecuted
    rw [hcalls, (honly calls hcalls).1]
  · intro hcomplete hdefined
    exact checkRuleInfoAndExecute_returns hcomplete.status hcomplete.logic hdefined
      (executeActionList_returns hcomplete.actions)

/-- A condition on a property of the room. -/
def roomCondition (property operator value : String) : Condition :=
  .deviceData
    { operator := some operator
      value := some value
      deviceInfo := { deviceId := some "d", path := some ("room/" ++ property) } }

/-- A room of 25 degrees with a humidity of 0.1. -/
def room : GetPropertyValueCallBack := fun _ property =>
  if property = "temperature" then some (.value (.int 25))
  else some (.value (.double (.num (toDouble (1 / 10)))))

/-- A rule with a command that is enabled and one that is not. -/
def roomRule : RuleInfo :=
  { bareRule "and" [roomCondition "temperature" "between" "0x10,30",
      roomCondition "humidity" "==" "0.1", roomCondition "temperature" ">=" "25.9"] with
    actions := [fanAction "disable" "off", fanAction "enable" "on"] }

theorem executed_iff_logicHolds_roomRule :
    Returns Env.plentiful (checkRuleInfoAndExecute room false 0 roomRule) fun run =>
      run.executed = some [(some "d", fanCommand "on")] := by
  have hverdicts : ∀ c ∈ roomRule.conditions,
      c ≠ .empty ∧ c.Complete ∧ Holds room 0 c := by
    intro c hc
    rcases List.mem_cons.mp hc with rfl | hc
    · exact ⟨by simp [roomCondition], ⟨rfl, rfl, rfl, rfl⟩, by decide +kernel⟩
    · rcases List.mem_cons.mp hc with rfl | hc
      · exact ⟨by simp [roomCondition], ⟨rfl, rfl, rfl, rfl⟩, by decide +kernel⟩
      · rw [List.mem_singleton.mp hc]
        exact ⟨by simp [roomCondition], ⟨rfl, rfl, rfl, rfl⟩, by decide +kernel⟩
  have hknown : ∀ c ∈ roomRule.conditions, c ≠ .empty := fun c hc => (hverdicts c hc).1
  have hcomplete : roomRule.Complete :=
    ⟨rfl, rfl, fun c hc => (hverdicts c hc).2.1, fanRule_complete.actions⟩
  have hdefined : ∀ c ∈ roomRule.conditions, conditionVerdict room 0 c ≠ none := by
    intro c hc
    rw [(hverdicts c hc).2.2]
    simp
  have hholds : LogicHolds room 0 roomRule := by
    have hand : roomRule.logic = some "and" := rfl
    unfold LogicHolds
    rw [if_pos hand]
    exact fun c hc => holds_iff.mp (hverdicts c hc).2.2
  have hdue : due false 0 roomRule = true := by decide +kernel
  have hreturns : Returns Env.plentiful (checkRuleInfoAndExecute room false 0 roomRule)
      fun _ => True := (executed_iff_logicHolds hknown hdue).2 hcomplete hdefined
  apply (hreturns.and_yields (executed_iff_logicHolds hknown hdue).1).mono
  intro run hrun
  exact (hrun.2.2 Env.plentiful_allocsSucceed).mpr hholds

/-- A condition that cannot be evaluated, a path without slash, keeps the commands of an `or` rule
from being executed, although another of its conditions holds. -/
theorem unreadable_skips_or_rule :
    ¬∀ (env : Env) (isTimerRule : Bool) (rule : RuleInfo) (callback : GetPropertyValueCallBack)
      (epochTime : ℤ) (run : RuleRun), env.AllocsSucceed → rule.conditions ≠ [] →
        rule.Complete → due isTimerRule epochTime rule = true →
          Outcome env (checkRuleInfoAndExecute callback isTimerRule epochTime rule) run →
            (run.executed = some (enabledCommands rule.actions) ↔
              if rule.logic = some "and" then
                ∀ c ∈ rule.conditions, c.IsTrue callback epochTime
              else ∃ c ∈ rule.conditions, c.IsTrue callback epochTime) := by
  intro hclaim
  let noSlash : Condition := .deviceData
    { operator := some ">"
      value := some "20"
      deviceInfo := { deviceId := some "d", path := some "temperature" } }
  let rule : RuleInfo :=
    { bareRule "or" [noSlash, tooWarm] with actions := [fanAction "enable" "on"] }
  have hwarm : tooWarm.IsTrue (everywhere 25) 0 := holds_iff.mp (by decide +kernel)
  have hrun : ((checkRuleInfoAndExecute (everywhere 25) false 0 rule)
      Env.plentiful default).map (fun r => r.1.executed.isSome) = some false := by
    decide +kernel
  obtain ⟨⟨run, c⟩, hout, hexecuted⟩ := Option.map_eq_some_iff.mp hrun
  have hcomplete : rule.Complete := by
    refine ⟨rfl, rfl, fun c hc => ?_, fun a ha => fanRule_complete.actions a ?_⟩
    · rcases List.mem_cons.mp hc with rfl | hc
      · exact ⟨rfl, rfl, rfl, rfl⟩
      · rw [List.mem_singleton.mp hc]
        exact ⟨rfl, rfl, rfl, rfl⟩
    · exact List.mem_cons_of_mem _ ha
  have hdue : due false 0 rule = true := by decide +kernel
  have hiff := hclaim Env.plentiful false rule (everywhere 25) 0 run Env.plentiful_allocsSucceed
    (by simp [rule, bareRule]) hcomplete hdue ⟨_, _, hout⟩
  have hor : rule.logic ≠ some "and" := by decide
  rw [if_neg hor] at hiff
  -- the second condition holds, yet the rule was skipped
  have hyes := hiff.mpr ⟨tooWarm, by simp [rule, bareRule], hwarm⟩
  rw [hyes] at hexecuted
  cases hexecuted

end IotDeviceSdk.DeviceRule
