import IotDeviceSdk.Env
import IotDeviceSdk.Libc.Bytes
import IotDeviceSdk.Prog.Wlp
import IotDeviceSdk.Text.Search

/-!
# `string_util.c`

Searching, joining and reading numbers from texts.  A `char *` that may be `NULL` is an
`Option String`; a pointer into a text is the rest of the text from there on.  Lengths are those of
texts that fit an `int`.
-/

namespace IotDeviceSdk

open Prog

/-- `strstr`. -/
def strstr (str subStr : String) : Option String :=
  (Text.findFirst subStr.toList str.toList).map String.ofList

/-- `StringLength`. -/
def stringLength (str : Option String) : ℤ :=
  match str with
  | none => 0
  | some str => str.length

/-- `StrInStr`. -/
def strInStr (str subStr : Option String) : Option String :=
  match str, subStr with
  | some str, some subStr => strstr str subStr
  | _, _ => none

/-- The loop of `CombineStrings` over the arguments after the first; `NULL` ones are skipped. -/
def combineStrings.go : List (Option String) → String → Sdk (Option String)
  | [], result => pure (some result)
  | none :: args, result => go args result
  | some temStr :: args, result => do
    if !(← malloc) then return none
    go args (result ++ temStr)

/-- `CombineStrings` of `1 + args.length` strings. -/
def combineStrings (str1 : Option String) (args : List (Option String)) : Sdk (Option String) := do
  if stringLength str1 + 1 = 1 then return none
  if !(← malloc) then return none
  combineStrings.go args (str1.getD "")

/-- `LONG_LONG_MAX_LENGTH`. -/
def LONG_LONG_MAX_LENGTH : ℕ := 20

/-- `LLONG_MAX`. -/
def LLONG_MAX : ℤ := 2 ^ 63 - 1

/-- `strtoll` on digits: it saturates, and reads no digits as 0. -/
def strtollDigits (digits : List Char) : ℤ := min LLONG_MAX (digitsValue digits)

/-- `getLLongValueFromStr`: the first digits from the first occurrence of `subStr` on. -/
def getLLongValueFromStr (str subStr : Option String) : ℤ :=
  match str, subStr with
  | some str, some subStr =>
    match strstr str subStr with
    | none => -1
    | some version_tmp =>
      let buf := (version_tmp.toList.dropWhile fun c => !c.isDigit).takeWhile Char.isDigit
      if LONG_LONG_MAX_LENGTH < buf.length then -1 else strtollDigits buf
  | _, _ => -1

/-- `StrEndWith`. -/
def strEndWith (str suffix : Option String) : Bool :=
  match str, suffix with
  | some str, some suffix =>
    if str.length < suffix.length then false
    else str.toList.drop (str.length - suffix.length) = suffix.toList
  | _, _ => false

/-- `SUB_STERING_MAX_LENGTH`. -/
def SUB_STERING_MAX_LENGTH : ℕ := 20

/-- The loop of `GetSubStrIndex`, at the index `n` of the text. -/
def getSubStrIndex.go {α : Type} [DecidableEq α] (substr : List α) : List α → ℕ → ℤ
  | [], n => if substr = [] then n else -1
  | c :: str, n =>
    if substr.length ≤ (c :: str).length then
      if (c :: str).take substr.length = substr then n else go substr str (n + 1)
    else -1

/-- `GetSubStrIndex`, for texts of any characters. -/
def getSubStrIndex {α : Type} [DecidableEq α] (str substr : Option (List α)) : ℤ :=
  match str, substr with
  | some str, some substr =>
    if str.length = 0 ∨ SUB_STERING_MAX_LENGTH ≤ substr.length then -1
    else getSubStrIndex.go substr str 0
  | _, _ => -1

/-- `CopyStrValue` into `*dst`: its result, and `*dst` afterwards. -/
def copyStrValue (dst src : Option CharBlock) (length : ℤ) : Sdk (ℤ × Option CharBlock) := do
  if length ≤ 0 then return (0, dst)
  if !(← malloc) then return (-1, none)
  match src with
  | none => return (-1, none)
  | some src =>
    return (0, some (.padded (src.text.take length.toNat) length.toNat))

/-- The results of `CopyStrValue`. -/
inductive Copied (dst src : Option CharBlock) (length : ℤ) : ℤ × Option CharBlock → Prop where
  | nothing : length ≤ 0 → Copied dst src length (0, dst)
  | failed : 0 < length → Copied dst src length (-1, none)
  | copied {block : CharBlock} : 0 < length → src = some block →
    Copied dst src length (0, some (.padded (block.text.take length.toNat) length.toNat))

/-- `CLIENT_TIME_LENGTH`. -/
def CLIENT_TIME_LENGTH : ℕ := 10

/-- `%.2d`. -/
def twoDigits (n : ℤ) : List UInt8 :=
  if 0 ≤ n ∧ n < 10 then 48 :: decimalText n
  else if -10 < n ∧ n < 0 then 45 :: 48 :: decimalText (-n)
  else decimalText n

/-- `GetClientTimesStamp` on a result of `gmtime`; `none` for `NULL`. -/
def getClientTimesStamp (lt : Option Tm) : Sdk (Option CharBlock) := do
  let some lt := lt
    | return none
  if !(← malloc) then return none
  let dest_str ← ofOption <|
    (CharBlock.padded [] CLIENT_TIME_LENGTH).snprintfS (CLIENT_TIME_LENGTH + 1) CLIENT_TIME_LENGTH
      (decimalText (lt.tm_year + 1900) ++ twoDigits (lt.tm_mon + 1) ++ twoDigits lt.tm_mday ++
        twoDigits lt.tm_hour)
  return some dest_str

/-! ### Searching -/

theorem getSubStrIndex_go_eq {α : Type} [DecidableEq α] (substr str : List α) (n : ℕ) :
    getSubStrIndex.go substr str n =
      match Text.findFirst substr str with
      | none => -1
      | some rest => (n + (str.length - rest.length) : ℕ) := by
  induction str generalizing n with
  | nil =>
    unfold getSubStrIndex.go
    cases substr with
    | nil => rfl
    | cons c substr => rfl
  | cons c str ih =>
    have hstart : substr <+: c :: str ↔
        substr.length ≤ (c :: str).length ∧ (c :: str).take substr.length = substr := by
      rw [List.prefix_iff_eq_take, eq_comm]
      constructor
      · intro h
        refine ⟨?_, h⟩
        rw [← h, List.length_take]
        omega
      · exact fun h => h.2
    unfold getSubStrIndex.go
    by_cases h : substr <+: c :: str
    · rw [if_pos (hstart.mp h).1, if_pos (hstart.mp h).2, Text.findFirst_of_start h]
      simp
    · rw [Text.findFirst_cons_of_not_start h]
      by_cases hlength : substr.length ≤ (c :: str).length
      · rw [if_pos hlength, if_neg fun htake => h (hstart.mpr ⟨hlength, htake⟩), ih]
        cases hrest : Text.findFirst substr str with
        | none => rfl
        | some rest =>
          obtain ⟨before, hbefore, -⟩ := Text.findFirst_eq_some_iff.mp hrest
          have hle : rest.length ≤ str.length := by
            rw [hbefore, List.length_append]
            omega
          show ((n + 1 + (str.length - rest.length) : ℕ) : ℤ) =
            (n + ((str.length + 1) - rest.length) : ℕ)
          omega
      · -- too short for the pattern, and so is the rest
        have hnone : Text.findFirst substr str = none := by
          rw [Text.findFirst_eq_none]
          intro hinfix
          have := hinfix.length_le
          simp at hlength
          omega
        rw [if_neg hlength, hnone]

/-- **`GetSubStrIndex`** is the index of the first occurrence. -/
theorem getSubStrIndex_eq {α : Type} [DecidableEq α] {str substr : List α} (hstr : str ≠ [])
    (hsubstr : substr.length < SUB_STERING_MAX_LENGTH) :
    getSubStrIndex (some str) (some substr) =
      match Text.findFirst substr str with
      | none => -1
      | some rest => (str.length - rest.length : ℕ) := by
  have hguard : ¬(str.length = 0 ∨ SUB_STERING_MAX_LENGTH ≤ substr.length) := by
    rintro (h | h)
    · exact hstr (List.length_eq_zero_iff.mp h)
    · omega
  show (if str.length = 0 ∨ SUB_STERING_MAX_LENGTH ≤ substr.length then (-1 : ℤ)
    else getSubStrIndex.go substr str 0) = _
  rw [if_neg hguard, getSubStrIndex_go_eq]
  simp only [Nat.zero_add]

/-- `GetSubStrIndex` of a text that is not empty, in any text. -/
theorem getSubStrIndex_of_substr {α : Type} [DecidableEq α] {str substr : List α}
    (hne : substr ≠ []) (hsubstr : substr.length < SUB_STERING_MAX_LENGTH) :
    getSubStrIndex (some str) (some substr) =
      match Text.findFirst substr str with
      | none => -1
      | some rest => (str.length - rest.length : ℕ) := by
  by_cases hstr : str = []
  · have hnone : Text.findFirst substr [] = none := by
      rw [Text.findFirst_eq_none, List.infix_nil]
      exact hne
    rw [hstr, hnone]
    rfl
  · exact getSubStrIndex_eq hstr hsubstr

theorem strstr_eq_some_iff {str subStr rest : String} :
    strstr str subStr = some rest ↔ Text.findFirst subStr.toList str.toList = some rest.toList := by
  unfold strstr
  rw [Option.map_eq_some_iff]
  constructor
  · rintro ⟨cs, hcs, rfl⟩
    rw [hcs, String.toList_ofList]
  · intro h
    exact ⟨_, h, String.ofList_toList⟩

theorem strstr_eq_none_iff {str subStr : String} :
    strstr str subStr = none ↔ ¬subStr.toList <:+: str.toList := by
  rw [strstr, Option.map_eq_none_iff, Text.findFirst_eq_none]

/-- `StringLength(StrInStr(str, subStr)) > 0` asks whether a text occurs. -/
theorem stringLength_strInStr_pos {str subStr : String} (hne : subStr.toList ≠ []) :
    0 < stringLength (strInStr (some str) (some subStr)) ↔ subStr.toList <:+: str.toList := by
  show 0 < stringLength (strstr str subStr) ↔ _
  cases h : strstr str subStr with
  | none => simpa [stringLength] using strstr_eq_none_iff.mp h
  | some rest =>
    have hfirst := strstr_eq_some_iff.mp h
    obtain ⟨before, hsplit, hstart, -⟩ := Text.findFirst_eq_some_iff.mp hfirst
    have hoccurs : subStr.toList <:+: str.toList := by
      rw [← Text.findFirst_isSome, hfirst]
      rfl
    refine iff_of_true ?_ hoccurs
    have hlength := hstart.length_le
    have hpos := List.length_pos_iff.mpr hne
    show (0 : ℤ) < rest.length
    rw [← String.length_toList]
    omega

/-! ### Copying -/

theorem copyStrValue_wlp {env : Env} {c : Cursor} (dst src : Option CharBlock) (length : ℤ) :
    Wlp env (copyStrValue dst src length) (fun r _ => Copied dst src length r) c := by
  unfold copyStrValue
  rw [wlp_ite]
  refine ⟨fun hle => wlp_pure.mpr (.nothing hle), fun hlt => ?_⟩
  have hpos : 0 < length := by omega
  rw [wlp_bind]
  refine wlp_true fun allocated c' => ?_
  rw [wlp_ite]
  refine ⟨fun _ => wlp_pure.mpr (.failed hpos), fun _ => ?_⟩
  cases hsrc : src with
  | none => exact wlp_pure.mpr (.failed hpos)
  | some block => exact wlp_pure.mpr (.copied hpos rfl)

/-- `CopyStrValue` is defined, and copies a text when the allocation succeeds. -/
theorem copyStrValue_returns {env : Env} (dst src : Option CharBlock) (length : ℤ) :
    Returns env (copyStrValue dst src length) fun r =>
      Copied dst src length r ∧ (env.AllocsSucceed → 0 < length → src ≠ none → r.2 ≠ none) := by
  unfold copyStrValue
  by_cases hlength : length ≤ 0
  · rw [if_pos hlength]
    exact returns_pure ⟨.nothing hlength, fun _ hpos => absurd hlength (by omega)⟩
  · have hpos : 0 < length := by omega
    rw [if_neg hlength]
    refine malloc_returns.bind fun allocated hallocated => ?_
    cases allocated with
    | false => exact returns_pure ⟨.failed hpos, fun hA => absurd (hallocated hA) (by decide)⟩
    | true =>
      cases src with
      | none => exact returns_pure ⟨.failed hpos, fun _ _ h => absurd rfl h⟩
      | some block => exact returns_pure ⟨.copied hpos rfl, by simp⟩

/-- A copy has the text of the original, cut to the length. -/
theorem Copied.text_eq {dst src : Option CharBlock} {length : ℤ} {r : ℤ × Option CharBlock}
    (h : Copied dst src length r) (hlength : 0 < length) {copy : CharBlock} (hr : r.2 = some copy) :
    ∃ block, src = some block ∧ copy.text = block.text.take length.toNat := by
  cases h with
  | nothing hle => omega
  | failed => cases hr
  | copied _ hsrc =>
    obtain rfl := Option.some.inj hr
    refine ⟨_, hsrc, CharBlock.text_padded (fun hmem => ?_) _⟩
    exact CharBlock.zero_not_mem_text _ (List.mem_of_mem_take hmem)

/-- A copy of some length that is `NULL` has failed. -/
theorem Copied.of_none {dst src : Option CharBlock} {length : ℤ} {r : ℤ × Option CharBlock}
    (h : Copied dst src length r) (hlength : 0 < length) (hr : r.2 = none) : r.1 < 0 := by
  cases h with
  | nothing hle => omega
  | failed => decide
  | copied => cases hr

/-! ### Joining -/

theorem combineStrings_go_returns {env : Env} (args : List (Option String)) (result : String) :
    Returns env (combineStrings.go args result) fun r =>
      (∀ topic, r = some topic →
        topic.toList = result.toList ++ (args.map fun arg => (arg.getD "").toList).flatten) ∧
      (env.AllocsSucceed → r.isSome) := by
  induction args generalizing result with
  | nil => exact returns_pure ⟨by simp, fun _ => rfl⟩
  | cons arg args ih =>
    cases arg with
    | none =>
      show Returns env (combineStrings.go args result) _
      simpa using ih result
    | some temStr =>
      unfold combineStrings.go
      refine returns_allocated (by simp) ?_
      refine (ih (result ++ temStr)).mono fun r hr => ⟨fun topic htopic => ?_, hr.2⟩
      rw [hr.1 topic htopic]
      simp

/-- **`CombineStrings`** joins its texts. -/
theorem combineStrings_returns {env : Env} {str1 : String} (hne : str1 ≠ "")
    (args : List (Option String)) :
    Returns env (combineStrings (some str1) args) fun r =>
      (∀ topic, r = some topic →
        topic.toList = str1.toList ++ (args.map fun arg => (arg.getD "").toList).flatten) ∧
      (env.AllocsSucceed → r.isSome) := by
  have hlength : ¬stringLength (some str1) + 1 = 1 := by
    have hzero : str1.length ≠ 0 := by simpa [← String.length_toList] using hne
    show ¬(str1.length : ℤ) + 1 = 1
    omega
  unfold combineStrings
  rw [if_neg hlength]
  exact returns_allocated (by simp) (combineStrings_go_returns args str1)

end IotDeviceSdk
