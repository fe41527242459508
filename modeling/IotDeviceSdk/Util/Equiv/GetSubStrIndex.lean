import IotDeviceSdk.Util.Equiv.CombineStrings
import IotDeviceSdk.Util.GetSubStrIndex

/-!
# The windows of `GetSubStrIndex`

A round copies the window at its index whole, since the pattern leaves room for a terminator in the
buffer and a window is only copied where it does not reach past the string:
`getSubStrIndex_go_window`.

* `getSubStrIndex_refines`: on texts the function is the `getSubStrIndex` that the headers of an
  upgrade package are read with.
* `getSubStrIndex_least`: it gives the least index at which the pattern stands, -1 if there is none,
  and stays in both strings.
-/

namespace IotDeviceSdk.Blocks

open Prog Text

/-! ### Definitions -/

/-- The index of a pattern in a text: the least one at which it stands, -1 if there is none. -/
inductive IsSubStrIndex (str substr : List UInt8) : ℤ → Prop where
  | found {i : ℕ} : OccursAt substr str i → (∀ j < i, ¬OccursAt substr str j) →
    IsSubStrIndex str substr i
  | absent : (∀ i, ¬OccursAt substr str i) → IsSubStrIndex str substr (-1)

variable {str substr : CString} {tmp : List UInt8} {n rounds : ℕ}

theorem intStrlen_eq (h : str.bytes.length < 2 ^ 31) :
    intStrlen (stringBytes str) = pure (str.bytes.length : ℤ) := by
  have hlength : cInt str.bytes.length = str.bytes.length := cInt_eq (by omega) (by omega)
  rw [intStrlen, stringBytes, readString_append str.zero_not_mem, ofOption, pure_bind, hlength]

/-! ### One round -/

/-- The window at an index, as long as the pattern. -/
def window (str substr : CString) (n : ℕ) : List UInt8 :=
  (str.bytes.drop n).take substr.bytes.length

theorem length_window (h : n + substr.bytes.length ≤ str.bytes.length) :
    (window str substr n).length = substr.bytes.length := by
  rw [window, List.length_take, List.length_drop]
  omega

theorem zero_not_mem_window : 0 ∉ window str substr n :=
  fun h => str.zero_not_mem (List.mem_of_mem_drop (List.mem_of_mem_take h))

/-- The empty pattern stands everywhere. -/
theorem length_pos_of_window_ne (h : window str substr n ≠ substr.bytes) :
    0 < substr.bytes.length := by
  rw [List.length_pos_iff]
  intro hempty
  apply h
  rw [window, hempty]
  rfl

/-- What a round does to the buffer: the window, its terminator, and the bytes behind. -/
theorem copy_window (hwindow : n + substr.bytes.length ≤ str.bytes.length)
    (hsubstr : substr.bytes.length < SUB_STERING_MAX_LENGTH)
    (htmp : tmp.length = SUB_STERING_MAX_LENGTH) :
    strncpyS tmp SUB_STERING_MAX_LENGTH ((stringBytes str).drop n) substr.bytes.length =
      some (window str substr n ++ 0 :: tmp.drop (substr.bytes.length + 1), EOK) := by
  have hdrop : (stringBytes str).drop n = str.bytes.drop n ++ [0] :=
    List.drop_append_of_le_length (by omega)
  have hrest : substr.bytes.length ≤ (str.bytes.drop n).length := by
    rw [List.length_drop]
    omega
  rw [hdrop]
  exact strncpyS_eq (fun h => str.zero_not_mem (List.mem_of_mem_drop h)) hrest hsubstr
    (by decide) (le_of_eq htmp.symm)

/-- **A round of the loop** at an index with a window. -/
theorem getSubStrIndex_go_window (hstr : str.bytes.length < 2 ^ 31)
    (hwindow : n + substr.bytes.length ≤ str.bytes.length)
    (hsubstr : substr.bytes.length < SUB_STERING_MAX_LENGTH)
    (htmp : tmp.length = SUB_STERING_MAX_LENGTH) :
    getSubStrIndex.go (stringBytes str) (stringBytes substr) str.bytes.length substr.bytes.length
        (rounds + 1) n tmp =
      if window str substr n = substr.bytes then pure (n : ℤ)
      else getSubStrIndex.go (stringBytes str) (stringBytes substr) str.bytes.length
        substr.bytes.length rounds (n + 1 : ℕ)
        (window str substr n ++ 0 :: tmp.drop (substr.bytes.length + 1)) := by
  have hmax : INT_MAX = 2147483647 := rfl
  have hterminator := writeAt_terminator (window str substr n)
    (tmp.drop (substr.bytes.length + 1))
  rw [length_window hwindow] at hterminator
  obtain ⟨order, hcompare, horder⟩ := @strcmp_spec substr.bytes (window str substr n) []
    (tmp.drop (substr.bytes.length + 1)) substr.zero_not_mem zero_not_mem_window
  rw [getSubStrIndex.go, int_eq (by omega) (by omega), pure_bind,
    if_neg (not_not.mpr ⟨by omega, by omega⟩), Int.toNat_natCast, Int.toNat_natCast,
    copy_window hwindow hsubstr htmp, ofOption, pure_bind]
  dsimp only
  rw [if_neg (not_not.mpr rfl), hterminator, ofOption, pure_bind]
  show (ofOption (strcmp (substr.bytes ++ 0 :: []) _) >>= _) = _
  rw [hcompare, ofOption, pure_bind]
  by_cases hfound : window str substr n = substr.bytes
  · rw [if_pos (horder.mpr hfound.symm), if_pos hfound]
  · have hpos := length_pos_of_window_ne hfound
    have hnext : int ((n : ℤ) + 1) = pure ((n + 1 : ℕ) : ℤ) := int_eq (by omega) (by omega)
    rw [if_neg fun h => hfound (horder.mp h).symm, if_neg hfound, hnext, pure_bind]

/-- The loop ends at an index without a window. -/
theorem getSubStrIndex_go_end (hstr : str.bytes.length < 2 ^ 31) (hn : n ≤ str.bytes.length)
    (hwindow : ¬n + substr.bytes.length ≤ str.bytes.length) :
    getSubStrIndex.go (stringBytes str) (stringBytes substr) str.bytes.length substr.bytes.length
      (rounds + 1) n tmp = pure (-1) := by
  have hmax : INT_MAX = 2147483647 := rfl
  rw [getSubStrIndex.go, int_eq (by omega) (by omega), pure_bind, if_pos]
  rintro ⟨hleft, -⟩
  omega

/-! ### The loop -/

/-- A step of the search on texts. -/
theorem getSubStrIndex_go_unfold {α : Type} [DecidableEq α] (substr str : List α) (n : ℕ) :
    IotDeviceSdk.getSubStrIndex.go substr str n =
      if substr.length ≤ str.length then
        if str.take substr.length = substr then (n : ℤ)
        else IotDeviceSdk.getSubStrIndex.go substr str.tail (n + 1)
      else -1 := by
  cases str with
  | nil =>
    cases substr with
    | nil => rfl
    | cons c substr => rfl
  | cons c str => rfl

/-- The search on texts at an index with a window. -/
theorem search_window (hwindow : n + substr.bytes.length ≤ str.bytes.length) :
    IotDeviceSdk.getSubStrIndex.go substr.bytes (str.bytes.drop n) n =
      if window str substr n = substr.bytes then (n : ℤ)
      else IotDeviceSdk.getSubStrIndex.go substr.bytes (str.bytes.drop (n + 1)) (n + 1) := by
  have hrest : substr.bytes.length ≤ (str.bytes.drop n).length := by
    rw [List.length_drop]
    omega
  rw [getSubStrIndex_go_unfold, if_pos hrest, List.tail_drop]
  rfl

/-- The search on texts at an index without a window. -/
theorem search_end (hwindow : ¬n + substr.bytes.length ≤ str.bytes.length)
    (hn : n ≤ str.bytes.length) :
    IotDeviceSdk.getSubStrIndex.go substr.bytes (str.bytes.drop n) n = -1 := by
  rw [getSubStrIndex_go_unfold, if_neg]
  rw [List.length_drop]
  omega

/-- **The loop** is the search on texts from an index on; a round for each index that is left and
one more are enough. -/
theorem getSubStrIndex_go_refines (hstr : str.bytes.length < 2 ^ 31)
    (hsubstr : substr.bytes.length < SUB_STERING_MAX_LENGTH) (hn : n ≤ str.bytes.length)
    (htmp : tmp.length = SUB_STERING_MAX_LENGTH) (hrounds : str.bytes.length < n + rounds) :
    getSubStrIndex.go (stringBytes str) (stringBytes substr) str.bytes.length substr.bytes.length
        rounds n tmp =
      pure (IotDeviceSdk.getSubStrIndex.go substr.bytes (str.bytes.drop n) n) := by
  induction rounds generalizing n tmp with
  | zero => omega
  | succ rounds ih =>
    by_cases hwindow : n + substr.bytes.length ≤ str.bytes.length
    · rw [getSubStrIndex_go_window hstr hwindow hsubstr htmp, search_window hwindow]
      by_cases hfound : window str substr n = substr.bytes
      · rw [if_pos hfound, if_pos hfound]
      · have hpos := length_pos_of_window_ne hfound
        have hbuffer : (window str substr n ++ 0 :: tmp.drop (substr.bytes.length + 1)).length =
            SUB_STERING_MAX_LENGTH := by
          rw [List.length_append, length_window hwindow, List.length_cons, List.length_drop]
          omega
        rw [if_neg hfound, if_neg hfound, ih (by omega) hbuffer (by omega)]
    · rw [getSubStrIndex_go_end hstr hn hwindow, search_end hwindow hn]

/-! ### The function -/

/-- **On texts** the function is the one the headers of an upgrade package are read with. -/
theorem getSubStrIndex_refines (rounds : ℕ) (str substr : CString)
    (hstr : str.bytes.length < 2 ^ 31) (hsubstr : substr.bytes.length < 2 ^ 31)
    (hrounds : str.bytes.length < rounds) :
    getSubStrIndex rounds (some str) (some substr) =
      pure (IotDeviceSdk.getSubStrIndex (some str.bytes) (some substr.bytes)) := by
  rw [getSubStrIndex, intStrlen_eq hstr, pure_bind, intStrlen_eq hsubstr, pure_bind]
  show _ = pure (if str.bytes.length = 0 ∨ SUB_STERING_MAX_LENGTH ≤ substr.bytes.length then -1
    else IotDeviceSdk.getSubStrIndex.go substr.bytes (str.bytes.drop 0) 0)
  by_cases hguard : str.bytes.length = 0 ∨ SUB_STERING_MAX_LENGTH ≤ substr.bytes.length
  · rw [if_pos hguard, if_pos (by omega)]
  · rw [if_neg hguard, if_neg (by omega)]
    exact getSubStrIndex_go_refines hstr (by omega) (Nat.zero_le _) List.length_replicate
      (by omega)

/-- The search on texts gives the least index. -/
theorem isSubStrIndex_getSubStrIndex {str substr : List UInt8} (hne : substr ≠ [])
    (hsubstr : substr.length < SUB_STERING_MAX_LENGTH) :
    IsSubStrIndex str substr (IotDeviceSdk.getSubStrIndex (some str) (some substr)) := by
  rw [getSubStrIndex_of_substr hne hsubstr]
  cases hfirst : findFirst substr str with
  | none => exact .absent (not_occursAt_of_findFirst hfirst)
  | some rest =>
    obtain ⟨hoccurs, hleast⟩ := findFirst_occursAt hfirst
    exact .found hoccurs hleast

/-- **`GetSubStrIndex`** ends after at most a round for each index and one more, inside both
strings, with the least index at which the pattern stands, and with -1 when it stands nowhere. -/
theorem getSubStrIndex_least (str substr : CString) (hstr : str.bytes.length < 2 ^ 31)
    (hpos : 1 ≤ substr.bytes.length) (hsubstr : substr.bytes.length ≤ 19) :
    ∃ index, IsSubStrIndex str.bytes substr.bytes index ∧
      ∀ rounds > str.bytes.length,
        getSubStrIndex rounds (some str) (some substr) = pure index := by
  have hroom : substr.bytes.length < SUB_STERING_MAX_LENGTH := by
    unfold SUB_STERING_MAX_LENGTH
    omega
  have hne : substr.bytes ≠ [] := List.length_pos_iff.mp hpos
  refine ⟨_, isSubStrIndex_getSubStrIndex hne hroom, fun rounds hrounds => ?_⟩
  exact getSubStrIndex_refines rounds str substr hstr (by omega) hrounds

/-- A pattern whose start stands before it. -/
theorem getSubStrIndex_least_overlapping :
    IsSubStrIndex (ascii "aaab") (ascii "aab") 1 ∧
      ∀ rounds > 4, getSubStrIndex rounds (some ⟨ascii "aaab", by decide⟩)
        (some ⟨ascii "aab", by decide⟩) = pure 1 := by
  obtain ⟨index, hindex, hrun⟩ := getSubStrIndex_least ⟨ascii "aaab", by decide⟩
    ⟨ascii "aab", by decide⟩ (by decide) (by decide) (by decide)
  have hvalue : getSubStrIndex 5 (some ⟨ascii "aaab", by decide⟩) (some ⟨ascii "aab", by decide⟩)
      .plentiful default = some (1, default) := by decide +kernel
  rw [hrun 5 (by decide)] at hvalue
  obtain ⟨rfl, -⟩ := Prod.mk.inj (Option.some.inj hvalue)
  exact ⟨hindex, hrun⟩

end IotDeviceSdk.Blocks
