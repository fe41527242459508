import IotDeviceSdk.Libc.Strings

/-!
# Copying a part of a C string and comparing C strings

`strnlen`, `strncpy_s` and `strcmp` on the blocks their pointers point into, `none` where a read
would leave a block.  They need not read a terminator: `strncpy_s` stops after its count, and
`strcmp` at the first difference.

`strncpyS_eq` is the block after a part that fits, `strcmp_spec` the result on two strings.
-/

namespace IotDeviceSdk.Blocks

/-- `strnlen`: it reads up to the terminator, and `maxLen` bytes at most. -/
def strnlen : List UInt8 → ℕ → Option ℕ
  | _, 0 => some 0
  | [], _ + 1 => none
  | c :: str, maxLen + 1 => if c = 0 then some 0 else (strnlen str maxLen).map (· + 1)

/-- `strncpy_s`: the destination and the error.  The blocks do not overlap. -/
def strncpyS (strDest : List UInt8) (destMax : ℕ) (strSrc : List UInt8) (count : ℕ) :
    Option (List UInt8 × ℕ) :=
  if destMax = 0 ∨ destMax > SECUREC_STRING_MAX_LEN then some (strDest, ERANGE)
  else if destMax > strDest.length then none
  else if count > SECUREC_STRING_MAX_LEN then some (strDest.set 0 0, ERANGE_AND_RESET)
  else do
    let minCpLen ← strnlen strSrc (min count destMax)
    if minCpLen = destMax then return (strDest.set 0 0, ERANGE_AND_RESET)
    return (overwrite strDest 0 (strSrc.take minCpLen ++ [0]), EOK)

/-- `strcmp`: the difference of the first bytes that differ, of which only the sign is fixed. -/
def strcmp : List UInt8 → List UInt8 → Option ℤ
  | a :: s, b :: t =>
    if a ≠ b then some ((a.toNat : ℤ) - b.toNat) else if a = 0 then some 0 else strcmp s t
  | _, _ => none

variable {text text' rest rest' strDest : List UInt8} {destMax count : ℕ}

/-! ### Parts of a string -/

theorem strnlen_append (htext : 0 ∉ text) (maxLen : ℕ) :
    strnlen (text ++ 0 :: rest) maxLen = some (min maxLen text.length) := by
  induction text generalizing maxLen with
  | nil =>
    cases maxLen with
    | zero => rfl
    | succ maxLen => simp [strnlen]
  | cons c text ih =>
    rw [List.mem_cons, not_or] at htext
    cases maxLen with
    | zero => simp [strnlen]
    | succ maxLen =>
      rw [List.cons_append, strnlen, if_neg (Ne.symm htext.1), ih htext.2, Option.map_some,
        List.length_cons, Nat.succ_min_succ]

/-- A part of a string that leaves room for the terminator is copied. -/
theorem strncpyS_eq (htext : 0 ∉ text) (hcount : count ≤ text.length) (hroom : count < destMax)
    (hmax : destMax ≤ SECUREC_STRING_MAX_LEN) (hblock : destMax ≤ strDest.length) :
    strncpyS strDest destMax (text ++ 0 :: rest) count =
      some (text.take count ++ 0 :: strDest.drop (count + 1), EOK) := by
  have hread : strnlen (text ++ 0 :: rest) (min count destMax) = some count := by
    rw [strnlen_append htext]
    congr 1
    omega
  have htake : (text.take count).length = count := List.length_take_of_le hcount
  rw [strncpyS, if_neg (by omega), if_neg (by omega), if_neg (by omega), hread,
    Option.bind_eq_bind, Option.bind_some, if_neg (by omega), List.take_append_of_le_length hcount,
    overwrite_start, htake]
  rfl

/-- The terminator of a string is written again. -/
theorem writeAt_terminator (text rest : List UInt8) :
    writeAt (text ++ 0 :: rest) text.length 0 = some (text ++ 0 :: rest) := by
  rw [writeAt, if_pos (by simp), List.set_append_right _ _ (le_refl _), Nat.sub_self,
    List.set_cons_zero]

/-! ### Comparing -/

theorem difference_ne_zero {a b : UInt8} (h : a ≠ b) : (a.toNat : ℤ) - b.toNat ≠ 0 := by
  intro hzero
  apply h
  apply UInt8.toNat_inj.mp
  omega

/-- **`strcmp`** stays in both strings, and gives 0 for equal ones. -/
theorem strcmp_spec (htext : 0 ∉ text) (htext' : 0 ∉ text') :
    ∃ order, strcmp (text ++ 0 :: rest) (text' ++ 0 :: rest') = some order ∧
      (order = 0 ↔ text = text') := by
  induction text generalizing text' with
  | nil =>
    cases text' with
    | nil => exact ⟨0, rfl, by simp⟩
    | cons b text' =>
      -- the terminator is no character of the other string
      have hb : (0 : UInt8) ≠ b := fun h => htext' (by simp [h])
      exact ⟨_, if_pos hb, iff_of_false (difference_ne_zero hb) (by simp)⟩
  | cons a text ih =>
    have ha : a ≠ 0 := fun h => htext (by simp [h])
    cases text' with
    | nil => exact ⟨_, if_pos ha, iff_of_false (difference_ne_zero ha) (by simp)⟩
    | cons b text' =>
      by_cases hab : a = b
      · subst hab
        obtain ⟨order, hrun, horder⟩ := @ih text' (fun h => htext (by simp [h]))
          (fun h => htext' (by simp [h]))
        refine ⟨order, ?_, by rw [horder, List.cons.injEq, eq_self, true_and]⟩
        rw [List.cons_append, List.cons_append, strcmp, if_neg (not_not.mpr rfl), if_neg ha, hrun]
      · exact ⟨_, if_pos hab, iff_of_false (difference_ne_zero hab) (by simp [hab])⟩

end IotDeviceSdk.Blocks
