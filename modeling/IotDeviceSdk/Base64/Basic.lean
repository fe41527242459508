import Mathlib.Data.List.Basic
import Mathlib.Data.Nat.Bitwise

/-!
# Base64

The standard encoding of bytes with padding.  Three bytes are a number of 24 bits, which is written
with four digits to the base 64.  The last group may have one or two bytes only: zeros are put in
for the others, and `=` stands for the digits that come from zeros only.

* `length_encode`: four characters for each group that is begun.
* `encode_shape`: the characters of digits come first, then the padding.
* `firstByte_digits`, `secondByte_digits`, `thirdByte_digits`: the bytes of a group, joined from its
  digits.
-/

namespace IotDeviceSdk.Base64

/-- The character of a digit. -/
def digitChar (d : ℕ) : UInt8 :=
  if d < 26 then .ofNat (65 + d)
  else if d < 52 then .ofNat (97 + (d - 26))
  else if d < 62 then .ofNat (48 + (d - 52))
  else if d = 62 then 43
  else 47

/-- The character in the place of a missing digit. -/
def pad : UInt8 := 61

/-- The number of a group. -/
def groupValue (a b c : UInt8) : ℕ := a.toNat * 2 ^ 16 + b.toNat * 2 ^ 8 + c.toNat

/-- The digit of a number that `i` digits follow. -/
def digit (n i : ℕ) : ℕ := n / 64 ^ i % 64

/-- The encoding. -/
def encode : List UInt8 → List UInt8
  | [] => []
  | [a] =>
    let n := groupValue a 0 0
    [digitChar (digit n 3), digitChar (digit n 2), pad, pad]
  | [a, b] =>
    let n := groupValue a b 0
    [digitChar (digit n 3), digitChar (digit n 2), digitChar (digit n 1), pad]
  | a :: b :: c :: bytes =>
    let n := groupValue a b c
    digitChar (digit n 3) :: digitChar (digit n 2) :: digitChar (digit n 1) ::
      digitChar (digit n 0) :: encode bytes

example : encode [102, 111, 111, 98] = [90, 109, 57, 118, 89, 103, 61, 61] := by decide

/-! ### Digits -/

theorem digit_lt (n i : ℕ) : digit n i < 64 := Nat.mod_lt _ (by decide)

theorem digitChar_ne_pad {d : ℕ} (hd : d < 64) : digitChar d ≠ pad := by
  have hall : ∀ d < 64, digitChar d ≠ pad := by decide
  exact hall d hd

theorem digitChar_ne_zero {d : ℕ} (hd : d < 64) : digitChar d ≠ 0 := by
  have hall : ∀ d < 64, digitChar d ≠ 0 := by decide
  exact hall d hd

section Group

variable (a b c : UInt8)

theorem digit_three : digit (groupValue a b c) 3 = a.toNat / 4 := by
  have ha := a.toNat_lt
  have hb := b.toNat_lt
  have hc := c.toNat_lt
  unfold digit groupValue
  omega

theorem digit_two : digit (groupValue a b c) 2 = a.toNat % 4 * 16 + b.toNat / 16 := by
  have hb := b.toNat_lt
  have hc := c.toNat_lt
  unfold digit groupValue
  omega

theorem digit_one : digit (groupValue a b c) 1 = b.toNat % 16 * 4 + c.toNat / 64 := by
  have hc := c.toNat_lt
  unfold digit groupValue
  omega

theorem digit_zero : digit (groupValue a b c) 0 = c.toNat % 64 := by
  unfold digit groupValue
  omega

end Group

/-! ### Bits -/

theorem toNat_shiftLeft (x : UInt8) {k : UInt8} (hk : k.toNat < 8) :
    (x <<< k).toNat = x.toNat * 2 ^ k.toNat % 2 ^ 8 := by
  rw [UInt8.toNat_shiftLeft, Nat.mod_eq_of_lt hk, Nat.shiftLeft_eq]

theorem toNat_shiftRight (x : UInt8) {k : UInt8} (hk : k.toNat < 8) :
    (x >>> k).toNat = x.toNat / 2 ^ k.toNat := by
  rw [UInt8.toNat_shiftRight, Nat.mod_eq_of_lt hk, Nat.shiftRight_eq_div_pow]

/-- Bits that do not overlap are added. -/
theorem toNat_or_of_dvd {x y : UInt8} (k : ℕ) (hx : 2 ^ k ∣ x.toNat) (hy : y.toNat < 2 ^ k) :
    (x ||| y).toNat = x.toNat + y.toNat := by
  obtain ⟨m, hm⟩ := hx
  rw [UInt8.toNat_or, hm, Nat.two_pow_add_eq_or_of_lt hy]

/-- A byte that is joined from the low bits of one and the high bits of another. -/
theorem toNat_shift_or_shift (x y : UInt8) {k l : UInt8} (hk : k.toNat < 8) (hl : l.toNat < 8)
    (hy : y.toNat / 2 ^ l.toNat < 2 ^ k.toNat) :
    (x <<< k ||| y >>> l).toNat = x.toNat * 2 ^ k.toNat % 2 ^ 8 + y.toNat / 2 ^ l.toNat := by
  have hright := toNat_shiftRight y hl
  rw [toNat_or_of_dvd k.toNat, toNat_shiftLeft x hk, hright]
  · rw [toNat_shiftLeft x hk]
    exact (Nat.dvd_mod_iff (Nat.pow_dvd_pow 2 hk.le)).mpr (Nat.dvd_mul_left _ _)
  · rw [hright]
    exact hy

theorem toNat_ofNat_digit (n i : ℕ) : (UInt8.ofNat (digit n i)).toNat = digit n i := by
  have hlt := digit_lt n i
  exact UInt8.toNat_ofNat_of_lt' (show digit n i < 2 ^ 8 by omega)

/-! ### Joining the bytes of a group -/

section Join

variable (a b c : UInt8)

theorem firstByte_digits :
    UInt8.ofNat (digit (groupValue a b c) 3) <<< 2 |||
      UInt8.ofNat (digit (groupValue a b c) 2) >>> 4 = a := by
  have ha := a.toNat_lt
  have hb := b.toNat_lt
  have hhigh : (UInt8.ofNat (digit (groupValue a b c) 2)).toNat / 2 ^ (4 : UInt8).toNat =
      a.toNat % 4 := by
    rw [toNat_ofNat_digit, digit_two]
    show (a.toNat % 4 * 16 + b.toNat / 16) / 16 = a.toNat % 4
    omega
  apply UInt8.toNat_inj.mp
  rw [toNat_shift_or_shift _ _ (by decide) (by decide), hhigh, toNat_ofNat_digit, digit_three]
  · show a.toNat / 4 * 4 % 256 + a.toNat % 4 = a.toNat
    omega
  · rw [hhigh]
    exact Nat.mod_lt _ (by decide)

theorem secondByte_digits :
    UInt8.ofNat (digit (groupValue a b c) 2) <<< 4 |||
      UInt8.ofNat (digit (groupValue a b c) 1) >>> 2 = b := by
  have hb := b.toNat_lt
  have hc := c.toNat_lt
  have hhigh : (UInt8.ofNat (digit (groupValue a b c) 1)).toNat / 2 ^ (2 : UInt8).toNat =
      b.toNat % 16 := by
    rw [toNat_ofNat_digit, digit_one]
    show (b.toNat % 16 * 4 + c.toNat / 64) / 4 = b.toNat % 16
    omega
  apply UInt8.toNat_inj.mp
  rw [toNat_shift_or_shift _ _ (by decide) (by decide), hhigh, toNat_ofNat_digit, digit_two]
  · show (a.toNat % 4 * 16 + b.toNat / 16) * 16 % 256 + b.toNat % 16 = b.toNat
    omega
  · rw [hhigh]
    exact Nat.mod_lt _ (by decide)

theorem thirdByte_digits :
    UInt8.ofNat (digit (groupValue a b c) 1) <<< 6 |||
      UInt8.ofNat (digit (groupValue a b c) 0) = c := by
  have hc := c.toNat_lt
  have hleft : (UInt8.ofNat (digit (groupValue a b c) 1) <<< 6).toNat = c.toNat / 64 * 64 := by
    rw [toNat_shiftLeft _ (by decide), toNat_ofNat_digit, digit_one]
    show (b.toNat % 16 * 4 + c.toNat / 64) * 64 % 256 = c.toNat / 64 * 64
    omega
  apply UInt8.toNat_inj.mp
  rw [toNat_or_of_dvd 6, hleft, toNat_ofNat_digit, digit_zero]
  · omega
  · rw [hleft]
    exact Nat.dvd_mul_left _ _
  · rw [toNat_ofNat_digit]
    exact digit_lt _ _

end Join

/-! ### The encoding of a text -/

theorem length_encode (bytes : List UInt8) :
    (encode bytes).length = (bytes.length + 2) / 3 * 4 := by
  fun_induction encode bytes with
  | case1 => rfl
  | case2 => simp
  | case3 => simp
  | case4 a b c bytes n ih =>
    simp only [List.length_cons, ih]
    omega

/-- The number of the characters of padding. -/
def padding (bytes : List UInt8) : ℕ := (3 - bytes.length % 3) % 3

theorem padding_cons (a b c : UInt8) (bytes : List UInt8) :
    padding (a :: b :: c :: bytes) = padding bytes := by
  simp only [padding, List.length_cons]
  omega

/-- **The shape of an encoding**: characters of digits, then the padding. -/
theorem encode_shape (bytes : List UInt8) :
    ∃ digits : List ℕ, (∀ d ∈ digits, d < 64) ∧
      encode bytes = digits.map digitChar ++ List.replicate (padding bytes) pad := by
  fun_induction encode bytes with
  | case1 => exact ⟨[], by simp, rfl⟩
  | case2 a n => exact ⟨[digit n 3, digit n 2], by simp [digit_lt], rfl⟩
  | case3 a b n => exact ⟨[digit n 3, digit n 2, digit n 1], by simp [digit_lt], rfl⟩
  | case4 a b c bytes n ih =>
    obtain ⟨digits, hdigits, hencode⟩ := ih
    refine ⟨digit n 3 :: digit n 2 :: digit n 1 :: digit n 0 :: digits, ?_, ?_⟩
    · simpa [digit_lt] using hdigits
    · rw [padding_cons, hencode]
      rfl

theorem zero_not_mem_encode (bytes : List UInt8) : 0 ∉ encode bytes := by
  obtain ⟨digits, hdigits, hencode⟩ := encode_shape bytes
  rw [hencode, List.mem_append, List.mem_map, List.mem_replicate]
  rintro (⟨d, hd, hzero⟩ | ⟨-, hzero⟩)
  · exact digitChar_ne_zero (hdigits d hd) hzero
  · exact absurd hzero (by decide)

end IotDeviceSdk.Base64
