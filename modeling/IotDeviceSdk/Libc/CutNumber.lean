import IotDeviceSdk.Libc.Decimal
import Mathlib.Data.List.Induction

/-!
# Numbers that are cut off

`numberLength text` is how far `strtol` reads in a text.  When only the first characters of the
text are kept, `strtol` reads the same number exactly when it is kept whole, or is zero
(`strtol_take_eq_iff`).
-/

namespace IotDeviceSdk

/-- How many characters of a text `strtol` reads: those up to the last digit of the number. -/
def numberLength (text : List UInt8) : ℕ :=
  let s := (cString text).map fun b => Char.ofNat b.toNat
  let t := (scanSign (s.dropWhile isSpace)).2
  s.length - (t.dropWhile Char.isDigit).length

/-! ### Lists -/

section Lists

variable {α : Type} (p : α → Bool)

theorem takeWhile_take (l : List α) (n : ℕ) : (l.take n).takeWhile p = (l.takeWhile p).take n := by
  induction l generalizing n with
  | nil => simp
  | cons a l ih =>
    cases n with
    | zero => simp
    | succ n =>
      rw [List.take_succ_cons, List.takeWhile_cons, List.takeWhile_cons, ih]
      split
      · rfl
      · rfl

theorem dropWhile_take (l : List α) (n : ℕ) :
    (l.take n).dropWhile p = (l.dropWhile p).take (n - (l.takeWhile p).length) := by
  induction l generalizing n with
  | nil => simp
  | cons a l ih =>
    cases n with
    | zero => simp
    | succ n =>
      rw [List.take_succ_cons, List.dropWhile_cons, List.dropWhile_cons, List.takeWhile_cons]
      split
      · rw [ih, List.length_cons, Nat.add_sub_add_right]
      · simp

theorem length_takeWhile_add (l : List α) :
    (l.takeWhile p).length + (l.dropWhile p).length = l.length := by
  rw [← List.length_append, List.takeWhile_append_dropWhile]

end Lists

/-! ### Digits -/

theorem digitsValue_lt {ds : List Char} (h : ∀ c ∈ ds, c.isDigit = true) :
    digitsValue ds < 10 ^ ds.length := by
  induction ds using List.reverseRecOn with
  | nil => exact Nat.one_pos
  | append_singleton ds c ih =>
    have hinit := ih fun d hd => h d (by simp [hd])
    have hc := isDigit_bounds (h c (by simp))
    have hlast : digitsValue [c] ≤ 9 := by
      show 10 * 0 + (c.toNat - 48) ≤ 9
      omega
    rw [digitsValue_append, List.length_append, List.length_singleton, Nat.pow_one,
      Nat.pow_succ]
    omega

/-- Digits lose value when some are cut off, unless they are all zeros. -/
theorem digitsValue_take_eq_iff {ds : List Char} {m : ℕ} :
    digitsValue (ds.take m) = digitsValue ds ↔ ds.length ≤ m ∨ digitsValue ds = 0 := by
  have hsplit := digitsValue_append (ds.take m) (ds.drop m)
  rw [List.take_append_drop, List.length_drop] at hsplit
  by_cases hlength : ds.length ≤ m
  · rw [List.take_of_length_le hlength]
    simp [hlength]
  · -- with the digits that are cut off the number is ten times as large at least
    have hpow : 10 ^ 1 ≤ 10 ^ (ds.length - m) := Nat.pow_le_pow_right (by decide) (by omega)
    have hmul := Nat.mul_le_mul_right (digitsValue (ds.take m)) hpow
    omega

/-! ### The sign -/

/-- The digits after an optional sign. -/
def signedDigits (s : List Char) : List Char := (scanSign s).2.takeWhile Char.isDigit

theorem signedValue_eq (s : List Char) :
    signedValue s =
      if (scanSign s).1 then -(digitsValue (signedDigits s) : ℤ)
      else digitsValue (signedDigits s) :=
  rfl

theorem length_scanSign_le (s : List Char) : (scanSign s).2.length ≤ s.length := by
  unfold scanSign
  split <;> simp

/-- The sign is kept, or no digit is. -/
theorem scanSign_take (s : List Char) (m : ℕ) :
    (scanSign (s.take m)).2 = (scanSign s).2.take (m - (s.length - (scanSign s).2.length)) ∧
      ((scanSign (s.take m)).1 = (scanSign s).1 ∨ m = 0) := by
  cases m with
  | zero => simp [scanSign]
  | succ m =>
    cases s with
    | nil => simp [scanSign]
    | cons c s =>
      rw [List.take_succ_cons]
      by_cases hminus : c = '-'
      · subst hminus
        simp [scanSign]
      · by_cases hplus : c = '+'
        · subst hplus
          simp [scanSign]
        · rw [scanSign_of_ne hminus hplus, scanSign_of_ne hminus hplus]
          simp

theorem signedDigits_take (s : List Char) (m : ℕ) :
    signedDigits (s.take m) =
      (signedDigits s).take (m - (s.length - (scanSign s).2.length)) := by
  unfold signedDigits
  rw [(scanSign_take s m).1, takeWhile_take]

/-- **A signed number that is cut off** is the same one exactly when all of its digits are kept, or
it is zero. -/
theorem signedValue_take_eq_iff (s : List Char) (m : ℕ) :
    signedValue (s.take m) = signedValue s ↔
      s.length - (scanSign s).2.length + (signedDigits s).length ≤ m ∨ signedValue s = 0 := by
  have hdigits := @digitsValue_take_eq_iff (signedDigits s) (m - (s.length - (scanSign s).2.length))
  have hempty : (signedDigits s).length = 0 → digitsValue (signedDigits s) = 0 := by
    intro h
    rw [List.length_eq_zero_iff.mp h]
    rfl
  rw [← signedDigits_take] at hdigits
  have hsign : signedValue (s.take m) =
      if (scanSign s).1 then -(digitsValue (signedDigits (s.take m)) : ℤ)
      else digitsValue (signedDigits (s.take m)) := by
    rw [signedValue_eq]
    rcases (scanSign_take s m).2 with h | rfl
    · rw [h]
    · -- without a character there is no value to put a sign to
      have hzero : digitsValue (signedDigits (s.take 0)) = 0 := rfl
      simp only [hzero, Int.natCast_zero, Int.neg_zero, ite_self]
  rw [hsign, signedValue_eq]
  split
  · omega
  · omega

/-! ### Reading -/

theorem strtol_eq (text : List UInt8) :
    strtol text = saturateLong (signedValue
      (((cString text).map fun b => Char.ofNat b.toNat).dropWhile isSpace)) :=
  rfl

/-- Few characters give a number that does not saturate. -/
theorem natAbs_signedValue_lt (s : List Char) : (signedValue s).natAbs < 10 ^ s.length := by
  have hdigits : ∀ c ∈ signedDigits s, c.isDigit = true := fun c hc => List.mem_takeWhile_imp hc
  have hlength : (signedDigits s).length ≤ s.length :=
    (List.takeWhile_prefix _).length_le.trans (length_scanSign_le s)
  have hlt := (digitsValue_lt hdigits).trans_le (Nat.pow_le_pow_right (by decide) hlength)
  have habs : (signedValue s).natAbs = digitsValue (signedDigits s) := by
    rw [signedValue_eq]
    split
    · rw [Int.natAbs_neg, Int.natAbs_natCast]
    · rw [Int.natAbs_natCast]
  rwa [habs]

theorem saturateLong_eq_iff {x y : ℤ} (hx : x.natAbs < 10 ^ 18) :
    saturateLong x = saturateLong y ↔ x = y := by
  unfold saturateLong
  omega

/-- **A number that is cut off** in a text of which few characters are kept. -/
theorem strtol_take_eq_iff {text : List UInt8} {n : ℕ} (hshort : (text.take n).length ≤ 18) :
    strtol (text.take n) = strtol text ↔ numberLength text ≤ n ∨ strtol text = 0 := by
  rw [strtol_eq, strtol_eq]
  unfold numberLength
  dsimp only
  have hcut : cString (text.take n) = (cString text).take n := takeWhile_take _ text n
  rw [hcut, List.map_take]
  have hlength : (((cString text).map fun b => Char.ofNat b.toNat).take n).length ≤ 18 := by
    rw [← List.map_take, List.length_map, ← hcut]
    exact ((List.takeWhile_prefix _).length_le).trans hshort
  -- from here on a text of characters, cut into white space, sign and digits
  generalize (cString text).map (fun b => Char.ofNat b.toNat) = s at hlength ⊢
  have hbound := natAbs_signedValue_lt ((s.take n).dropWhile isSpace)
  have hsmall : 10 ^ ((s.take n).dropWhile isSpace).length ≤ 10 ^ 18 :=
    Nat.pow_le_pow_right (by decide) ((List.dropWhile_suffix _).length_le.trans hlength)
  have hzero : saturateLong (signedValue (s.dropWhile isSpace)) = 0 ↔
      signedValue (s.dropWhile isSpace) = 0 := by
    unfold saturateLong
    omega
  have hspaces := length_takeWhile_add isSpace s
  have hsign := length_scanSign_le (s.dropWhile isSpace)
  have hdigits := length_takeWhile_add Char.isDigit (scanSign (s.dropWhile isSpace)).2
  have htake := signedValue_take_eq_iff (s.dropWhile isSpace) (n - (s.takeWhile isSpace).length)
  rw [← dropWhile_take] at htake
  rw [saturateLong_eq_iff (hbound.trans_le hsmall), hzero, htake]
  have hvalue : (signedDigits (s.dropWhile isSpace)).length = 0 →
      signedValue (s.dropWhile isSpace) = 0 := by
    intro h
    rw [signedValue_eq, List.length_eq_zero_iff.mp h]
    simp [digitsValue]
  unfold signedDigits at hvalue ⊢
  omega

end IotDeviceSdk
