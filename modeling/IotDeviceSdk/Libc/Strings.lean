import IotDeviceSdk.Libc.Bytes
import IotDeviceSdk.Libc.Memory

/-!
# Copying and appending C strings

`strcpy_s`, `strcat_s` and `sprintf_s` of the security functions.  They never write past the size
they are given, and empty the destination when the text does not fit.  The destination is the block
of its bytes, the source a C string; a size larger than the block is undefined.

`strcpyS_eq`, `strcatS_eq` and `sprintfS_eq` are the blocks after a text that fits, `strcatS_reset`
the one after a text that does not.
-/

namespace IotDeviceSdk

/-- `SECUREC_STRING_MAX_LEN`. -/
def SECUREC_STRING_MAX_LEN : ℕ := 0x7fffffff

/-- `EINVAL_AND_RESET`. -/
def EINVAL_AND_RESET : ℕ := 150

/-- The C string in a block, `none` when reading it leaves the block. -/
def readString (block : List UInt8) : Option (List UInt8) :=
  if 0 ∈ block then some (cString block) else none

/-- `strcpy_s`: the destination and the error. -/
def strcpyS (strDest : List UInt8) (destMax : ℕ) (strSrc : List UInt8) : Option (List UInt8 × ℕ) :=
  if destMax = 0 ∨ destMax > SECUREC_STRING_MAX_LEN then some (strDest, ERANGE)
  else if destMax > strDest.length then none
  else if destMax ≤ strSrc.length then some (strDest.set 0 0, ERANGE_AND_RESET)
  else some (overwrite strDest 0 (strSrc ++ [0]), EOK)

/-- `strcat_s`: the destination and the error. -/
def strcatS (strDest : List UInt8) (destMax : ℕ) (strSrc : List UInt8) : Option (List UInt8 × ℕ) :=
  let destLen := (cString strDest).length
  if destMax = 0 ∨ destMax > SECUREC_STRING_MAX_LEN then some (strDest, ERANGE)
  else if destMax > strDest.length then none
  -- the destination has no terminator
  else if destMax ≤ destLen then some (strDest.set 0 0, EINVAL_AND_RESET)
  else if destMax ≤ destLen + strSrc.length then some (strDest.set 0 0, ERANGE_AND_RESET)
  else some (overwrite strDest destLen (strSrc ++ [0]), EOK)

/-- `sprintf_s` of a text: the destination and the number of characters, -1 for a failure. -/
def sprintfS (strDest : List UInt8) (destMax : ℕ) (text : List UInt8) : Option (List UInt8 × ℤ) :=
  if destMax = 0 ∨ destMax > SECUREC_STRING_MAX_LEN then some (strDest, -1)
  else if destMax > strDest.length then none
  else if destMax ≤ text.length then some (strDest.set 0 0, -1)
  else some (overwrite strDest 0 (text ++ [0]), text.length)

variable {strDest dest rest strSrc : List UInt8} {destMax : ℕ}

theorem readString_append (h : 0 ∉ dest) : readString (dest ++ 0 :: rest) = some dest := by
  rw [readString, if_pos (by simp), cString_append_zero h]

theorem readString_eq_some_iff :
    readString dest = some strSrc ↔ 0 ∉ strSrc ∧ ∃ rest, dest = strSrc ++ 0 :: rest := by
  constructor
  · intro h
    unfold readString at h
    split at h
    · rename_i hzero
      obtain ⟨before, after, rfl, hbefore⟩ := List.eq_append_cons_of_mem hzero
      rw [cString_append_zero hbefore] at h
      obtain rfl := Option.some.inj h
      exact ⟨hbefore, after, rfl⟩
    · exact absurd h (by simp)
  · rintro ⟨hzero, rest, rfl⟩
    exact readString_append hzero

/-- **A terminator** cuts the string in a block off. -/
theorem readString_set {i : ℕ} (h : readString dest = some strSrc) (hi : i < dest.length) :
    readString (dest.set i 0) = some (strSrc.take i) := by
  obtain ⟨hzero, rest, rfl⟩ := readString_eq_some_iff.mp h
  have htake : 0 ∉ strSrc.take i := fun hmem => hzero (List.mem_of_mem_take hmem)
  rcases Nat.lt_or_ge i strSrc.length with hlt | hge
  · rw [List.set_append_left _ _ hlt, List.set_eq_take_append_cons_drop, if_pos hlt,
      List.append_assoc, List.cons_append]
    exact readString_append htake
  · rw [List.take_of_length_le hge, List.set_append_right _ _ hge]
    cases i - strSrc.length with
    | zero => exact readString_append hzero
    | succ k => exact readString_append hzero

/-- A terminator at the start. -/
theorem readString_set_zero (h : dest ≠ []) : readString (dest.set 0 0) = some [] := by
  obtain ⟨b, dest, rfl⟩ := List.exists_cons_of_ne_nil h
  exact @readString_append [] dest List.not_mem_nil

theorem overwrite_start (strDest text : List UInt8) :
    overwrite strDest 0 (text ++ [0]) = text ++ 0 :: strDest.drop (text.length + 1) := by
  simp [overwrite]

/-- A copy that fits. -/
theorem strcpyS_eq (hmax : destMax ≤ SECUREC_STRING_MAX_LEN) (hblock : destMax ≤ strDest.length)
    (hfits : strSrc.length < destMax) :
    strcpyS strDest destMax strSrc =
      some (strSrc ++ 0 :: strDest.drop (strSrc.length + 1), EOK) := by
  rw [strcpyS, if_neg (by omega), if_neg (by omega), if_neg (by omega), overwrite_start]

/-- A text that is printed. -/
theorem sprintfS_eq (hmax : destMax ≤ SECUREC_STRING_MAX_LEN) (hblock : destMax ≤ strDest.length)
    (hfits : strSrc.length < destMax) :
    sprintfS strDest destMax strSrc =
      some (strSrc ++ 0 :: strDest.drop (strSrc.length + 1), (strSrc.length : ℤ)) := by
  rw [sprintfS, if_neg (by omega), if_neg (by omega), if_neg (by omega), overwrite_start]

theorem overwrite_append (bytes : List UInt8) :
    overwrite (dest ++ rest) dest.length bytes = dest ++ bytes ++ rest.drop bytes.length := by
  rw [overwrite, List.take_left, List.drop_append, List.drop_of_length_le (Nat.le_add_right _ _),
    List.nil_append, Nat.add_sub_cancel_left]

/-- A text that is appended. -/
theorem strcatS_eq (hdest : 0 ∉ dest) (hmax : destMax ≤ SECUREC_STRING_MAX_LEN)
    (hblock : destMax ≤ (dest ++ 0 :: rest).length)
    (hfits : dest.length + strSrc.length < destMax) :
    strcatS (dest ++ 0 :: rest) destMax strSrc =
      some (dest ++ strSrc ++ 0 :: rest.drop strSrc.length, EOK) := by
  have hover : overwrite (dest ++ 0 :: rest) dest.length (strSrc ++ [0]) =
      dest ++ strSrc ++ 0 :: rest.drop strSrc.length := by
    rw [overwrite_append]
    simp
  unfold strcatS
  simp only [cString_append_zero hdest]
  rw [if_neg (by omega), if_neg (by omega), if_neg (by omega), if_neg (by omega), hover]

/-- A text that does not fit empties the destination. -/
theorem strcatS_reset (hdest : 0 ∉ dest) (hmax : destMax ≤ SECUREC_STRING_MAX_LEN)
    (hblock : destMax ≤ (dest ++ 0 :: rest).length) (hlength : dest.length < destMax)
    (hlong : destMax ≤ dest.length + strSrc.length) :
    strcatS (dest ++ 0 :: rest) destMax strSrc =
      some ((dest ++ 0 :: rest).set 0 0, ERANGE_AND_RESET) := by
  unfold strcatS
  simp only [cString_append_zero hdest]
  rw [if_neg (by omega), if_neg (by omega), if_neg (by omega), if_pos hlong]

end IotDeviceSdk
