import IotDeviceSdk.Rounding.Basic
import Mathlib.Tactic.NormNum

/-!
# Doubles

A `double` is the rational number it stands for; the infinities are `HUGE_VAL` and its negative, the
least powers of two that are too large.  `toDouble` is the rounding of `strtod`, the IEEE format
with 53 binary digits; the sign of zero is not modelled.  `CDouble` is for the values that may also
be `NAN`.

* `isDouble_toDouble`, `toDouble_of_isDouble`: `toDouble` gives a double and keeps one.
* `toDouble_roundDigits`: seventeen significant decimal digits determine a double.
* `roundDigits_toDouble`: a double has the fifteen significant digits it has been read from.
* `eq_of_compareDouble`: where that fails, `compare_double` tells all doubles apart.
-/

namespace IotDeviceSdk

open Rounding

/-- The IEEE format of `double`, without its greatest exponent. -/
def binary64 : FloatFormat where
  base := 2
  digits := 53
  least := -1074
  one_lt_base := by decide
  digits_pos := by decide

/-- `HUGE_VAL`. -/
def HUGE_VAL : ℚ := 2 ^ 1024

/-- `DBL_EPSILON`. -/
def DBL_EPSILON : ℚ := 1 / 2 ^ 52

/-- The double nearest to a number. -/
def toDouble (q : ℚ) : ℚ := max (-HUGE_VAL) (min HUGE_VAL (binary64.round q))

/-- The values of type `double`. -/
def IsDouble (d : ℚ) : Prop := binary64.Representable d ∧ |d| ≤ HUGE_VAL

/-- A value of type `double`, which may be `NAN`. -/
inductive CDouble where
  | nan
  | num (value : ℚ)
  deriving DecidableEq

namespace CDouble

/-- The negative value. -/
def neg : CDouble → CDouble
  | nan => nan
  | num value => num (-value)

/-- `<`, which `NAN` never satisfies. -/
def lt : CDouble → CDouble → Bool
  | num a, num b => a < b
  | _, _ => false

/-- `<=`, which `NAN` never satisfies. -/
def le : CDouble → CDouble → Bool
  | num a, num b => a ≤ b
  | _, _ => false

instance : LT CDouble := ⟨fun a b => a.lt b = true⟩

instance : LE CDouble := ⟨fun a b => a.le b = true⟩

instance : DecidableLT CDouble := fun a b => inferInstanceAs (Decidable (a.lt b = true))

instance : DecidableLE CDouble := fun a b => inferInstanceAs (Decidable (a.le b = true))

@[simp] theorem num_lt_num {a b : ℚ} : num a < num b ↔ a < b := decide_eq_true_iff

@[simp] theorem num_le_num {a b : ℚ} : num a ≤ num b ↔ a ≤ b := decide_eq_true_iff

end CDouble

/-- `isinf`. -/
def isInf (d : ℚ) : Bool := HUGE_VAL ≤ |d|

/-- `compare_double`, with the rounding of its difference and its product.  The difference of an
infinite number and another one is infinite, or not a number when they are equal. -/
def compareDouble (a b : ℚ) : Bool :=
  if isInf a || isInf b then a ≠ b
  else toDouble |a - b| ≤ toDouble (max |a| |b| * DBL_EPSILON)

theorem hugeVal_pos : 0 < HUGE_VAL := pow_pos (by norm_num) 1024

theorem representable_hugeVal : binary64.Representable HUGE_VAL := by
  refine ⟨1, 1024, by decide, by decide, ?_⟩
  rw [Int.cast_one, one_mul, zpow_ofNat]
  rfl

theorem isDouble_toDouble (q : ℚ) : IsDouble (toDouble q) := by
  have hpos := hugeVal_pos
  unfold toDouble
  constructor
  · rcases max_choice (-HUGE_VAL) (min HUGE_VAL (binary64.round q)) with h | h
    · rw [h]
      exact representable_hugeVal.neg
    · rw [h]
      rcases min_choice HUGE_VAL (binary64.round q) with h' | h'
      · rw [h']
        exact representable_hugeVal
      · rw [h']
        exact FloatFormat.representable_round q
  · rw [abs_le]
    constructor
    · exact le_max_left _ _
    · exact max_le (by linarith) (min_le_left _ _)

/-- A number that the format rounds to a double. -/
theorem toDouble_of_round {q d : ℚ} (hd : |d| ≤ HUGE_VAL) (h : binary64.round q = d) :
    toDouble q = d := by
  obtain ⟨hlow, hhigh⟩ := abs_le.mp hd
  rw [toDouble, h, min_eq_right hhigh, max_eq_right hlow]

theorem toDouble_of_isDouble {d : ℚ} (h : IsDouble d) : toDouble d = d :=
  toDouble_of_round h.2 (FloatFormat.round_of_representable h.1)

/-- **Seventeen significant digits determine a double.** -/
theorem toDouble_roundDigits {d : ℚ} (h : IsDouble d) : toDouble (roundDigits 10 17 d) = d := by
  have hclose := @abs_roundDigits_sub_le 10 17 (by decide) d
  apply toDouble_of_round h.2
  apply FloatFormat.round_of_close h.1 hclose
  · positivity
  · show 2 * (((10 : ℕ) : ℚ) ^ (1 - ((17 : ℕ) : ℤ)) / 2) * ((2 : ℕ) : ℚ) ^ 53 <
      1 - ((10 : ℕ) : ℚ) ^ (1 - ((17 : ℕ) : ℤ)) / 2
    norm_num

theorem isDouble_intCast {n : ℤ} (h : |n| < 2 ^ 53) : IsDouble n := by
  refine ⟨⟨n, 0, ?_, by decide, ?_⟩, ?_⟩
  · exact_mod_cast h
  · rw [zpow_zero, mul_one]
  · have hcast : |(n : ℚ)| < 2 ^ 53 := by exact_mod_cast h
    have hle : (2 : ℚ) ^ 53 ≤ 2 ^ 1024 := pow_le_pow_right₀ (by norm_num) (by norm_num)
    show |(n : ℚ)| ≤ 2 ^ 1024
    exact hcast.le.trans hle

/-! ### Small numbers -/

theorem two_zpow_pos (n : ℤ) : (0 : ℚ) < 2 ^ n := zpow_pos (by norm_num) n

theorem unit_le {q : ℚ} (h : (2 : ℚ) ^ (-1024 : ℤ) ≤ |q|) :
    binary64.unit q ≤ (2 : ℚ) ^ (-50 : ℤ) * |q| := by
  have hpos : 0 < |q| := lt_of_lt_of_le (two_zpow_pos _) h
  show (2 : ℚ) ^ max (Int.log 2 |q| - (53 - 1)) (-1074) ≤ _
  have hlog := Int.zpow_log_le_self (b := 2) (by decide) hpos
  rw [Nat.cast_ofNat] at hlog
  rcases max_choice (Int.log 2 |q| - (53 - 1)) (-1074) with hmax | hmax
  · rw [hmax]
    calc (2 : ℚ) ^ (Int.log 2 |q| - (53 - 1)) = (2 : ℚ) ^ (-52 : ℤ) * 2 ^ Int.log 2 |q| := by
          rw [← zpow_add₀ (by decide)]
          congr 1
          ring
      _ ≤ (2 : ℚ) ^ (-50 : ℤ) * |q| :=
          mul_le_mul (zpow_le_zpow_right₀ (by norm_num) (by norm_num)) hlog (two_zpow_pos _).le
            (two_zpow_pos _).le
  · rw [hmax]
    calc (2 : ℚ) ^ (-1074 : ℤ) = (2 : ℚ) ^ (-50 : ℤ) * (2 : ℚ) ^ (-1024 : ℤ) := by
          rw [← zpow_add₀ (by decide)]
          rfl
      _ ≤ (2 : ℚ) ^ (-50 : ℤ) * |q| := mul_le_mul_of_nonneg_left h (two_zpow_pos _).le

theorem toDouble_of_finite {q : ℚ} (h : isInf (toDouble q) = false) :
    toDouble q = binary64.round q := by
  have hfin : |toDouble q| < HUGE_VAL := by
    rw [isInf, decide_eq_false_iff_not, not_le] at h
    exact h
  obtain ⟨hlow, hhigh⟩ := abs_lt.mp hfin
  unfold toDouble at hlow hhigh ⊢
  have hmin : min HUGE_VAL (binary64.round q) < HUGE_VAL := lt_of_le_of_lt (le_max_right _ _) hhigh
  have hround : min HUGE_VAL (binary64.round q) = binary64.round q := by
    rcases min_choice HUGE_VAL (binary64.round q) with h' | h'
    · rw [h'] at hmin
      exact absurd hmin (lt_irrefl _)
    · exact h'
  rw [hround] at hlow ⊢
  rcases max_choice (-HUGE_VAL) (binary64.round q) with h' | h'
  · rw [h'] at hlow
    exact absurd hlow (lt_irrefl _)
  · exact h'

/-- **Fifteen significant digits** are those of the double they are read as, down to some subnormal
numbers. -/
theorem roundDigits_toDouble {r : ℚ} (hr : IsShort 10 15 r) (hfin : isInf (toDouble r) = false)
    (hsmall : (2 : ℚ) ^ (-1024 : ℤ) ≤ |r|) : roundDigits 10 15 (toDouble r) = r := by
  have hclose : |toDouble r - r| ≤ (2 : ℚ) ^ (-51 : ℤ) * |r| := by
    calc |toDouble r - r| ≤ binary64.unit r / 2 := by
          rw [toDouble_of_finite hfin]
          exact abs_roundTo_sub_le (FloatFormat.unit_pos r)
      _ ≤ (2 : ℚ) ^ (-50 : ℤ) * |r| / 2 :=
          div_le_div_of_nonneg_right (unit_le hsmall) (by norm_num)
      _ = (2 : ℚ) ^ (-51 : ℤ) * |r| := by
          rw [show (-50 : ℤ) = -51 + 1 by decide, zpow_add_one₀ (by decide)]
          ring
  apply roundDigits_of_close (by decide) (by decide) hr hclose (two_zpow_pos _).le
  norm_num

theorem unit_of_small {q : ℚ} (hq : q ≠ 0) (h : |q| < (2 : ℚ) ^ (-1021 : ℤ)) :
    binary64.unit q = (2 : ℚ) ^ (-1074 : ℤ) := by
  show (2 : ℚ) ^ max (Int.log 2 |q| - (53 - 1)) (-1074) = _
  congr 1
  apply max_eq_right
  have hlog : Int.log 2 |q| < -1021 := by
    rw [← Int.lt_zpow_iff_log_lt (by decide) (abs_pos.mpr hq)]
    exact h
  omega

/-- Half of the least double. -/
theorem half_zpow : (2 : ℚ) ^ (-1074 : ℤ) / 2 = (2 : ℚ) ^ (-1075 : ℤ) := by
  rw [show (-1074 : ℤ) = -1075 + 1 by decide, zpow_add_one₀ (by decide)]
  ring

theorem toDouble_zero : toDouble 0 = 0 :=
  toDouble_of_isDouble ⟨FloatFormat.representable_zero, by rw [abs_zero]; exact hugeVal_pos.le⟩

/-- Small numbers change by less than the least double when they are rounded. -/
theorem abs_toDouble_sub_le_of_small {q : ℚ} (h : |q| < (2 : ℚ) ^ (-1021 : ℤ)) :
    |toDouble q - q| ≤ (2 : ℚ) ^ (-1075 : ℤ) := by
  by_cases hq : q = 0
  · rw [hq, toDouble_zero, sub_zero, abs_zero]
    exact (two_zpow_pos _).le
  have hround : |binary64.round q - q| ≤ (2 : ℚ) ^ (-1075 : ℤ) := by
    rw [← half_zpow, ← unit_of_small hq h]
    exact abs_roundTo_sub_le (FloatFormat.unit_pos q)
  have hle : |binary64.round q| ≤ HUGE_VAL := by
    have hone : ∀ n : ℤ, n ≤ 0 → (2 : ℚ) ^ n ≤ 1 :=
      fun n hn => zpow_le_one_of_nonpos₀ (by norm_num) hn
    have htwo : (2 : ℚ) ≤ HUGE_VAL := le_self_pow₀ (by norm_num) (by norm_num)
    have hone' := hone (-1021) (by norm_num)
    have hone'' := hone (-1075) (by norm_num)
    have htriangle := abs_sub_abs_le_abs_sub (binary64.round q) q
    refine le_trans ?_ htwo
    linarith
  have hsame : toDouble q = binary64.round q := toDouble_of_round hle rfl
  calc |toDouble q - q| = |binary64.round q - q| := by rw [hsame]
    _ ≤ (2 : ℚ) ^ (-1075 : ℤ) := hround

/-- A number below half of the least double is rounded to zero. -/
theorem toDouble_of_tiny {q : ℚ} (h : |q| < (2 : ℚ) ^ (-1075 : ℤ)) : toDouble q = 0 := by
  by_cases hq : q = 0
  · rw [hq, toDouble_zero]
  have hsmall : |q| < (2 : ℚ) ^ (-1021 : ℤ) :=
    h.trans (zpow_lt_zpow_right₀ (by norm_num) (by norm_num))
  apply toDouble_of_round (by rw [abs_zero]; exact hugeVal_pos.le)
  have hzero : |q - (0 : ℤ) * binary64.unit q| < binary64.unit q / 2 := by
    rw [Int.cast_zero, zero_mul, sub_zero, unit_of_small hq hsmall, half_zpow]
    exact h
  have hround := roundTo_eq (FloatFormat.unit_pos q) hzero
  rw [Int.cast_zero, zero_mul] at hround
  exact hround

/-- The doubles are multiples of the least one. -/
theorem exists_multiple {d : ℚ} (h : binary64.Representable d) :
    ∃ n : ℤ, d = n * (2 : ℚ) ^ (-1074 : ℤ) := by
  by_cases hd : d = 0
  · exact ⟨0, by rw [hd, Int.cast_zero, zero_mul]⟩
  · exact h.multiple hd (le_max_right _ _)

/-- **Small doubles that are not told apart are equal.** -/
theorem eq_of_compareDouble {a b : ℚ} (ha : binary64.Representable a)
    (hb : binary64.Representable b) (hfina : isInf a = false) (hfinb : isInf b = false)
    (hmax : max |a| |b| < (2 : ℚ) ^ (-1023 : ℤ)) (h : compareDouble a b = true) : a = b := by
  by_contra hne
  -- the difference is at least the least double, and what it is compared with is rounded to zero
  obtain ⟨n, hn⟩ := exists_multiple ha
  obtain ⟨m, hm⟩ := exists_multiple hb
  have hpos := two_zpow_pos (-1074)
  have hint : (1 : ℚ) ≤ |((n - m : ℤ) : ℚ)| := by
    have hsub : n - m ≠ 0 := by
      intro hzero
      apply hne
      rw [hn, hm, show n = m by omega]
    exact_mod_cast Int.one_le_abs hsub
  have hdiff : (2 : ℚ) ^ (-1074 : ℤ) ≤ |a - b| := by
    rw [hn, hm, ← sub_mul, abs_mul, abs_of_pos hpos]
    rw [Int.cast_sub] at hint
    exact le_mul_of_one_le_left hpos.le hint
  have htiny : toDouble (max |a| |b| * DBL_EPSILON) = 0 := by
    apply toDouble_of_tiny
    have heps : DBL_EPSILON = (2 : ℚ) ^ (-52 : ℤ) := by
      rw [DBL_EPSILON, zpow_neg, one_div]
      rfl
    have hnonneg : 0 ≤ max |a| |b| := le_max_of_le_left (abs_nonneg a)
    rw [heps, abs_of_nonneg (mul_nonneg hnonneg (two_zpow_pos _).le)]
    calc max |a| |b| * (2 : ℚ) ^ (-52 : ℤ) < (2 : ℚ) ^ (-1023 : ℤ) * (2 : ℚ) ^ (-52 : ℤ) :=
          mul_lt_mul_of_pos_right hmax (two_zpow_pos _)
      _ = (2 : ℚ) ^ (-1075 : ℤ) := by
          rw [← zpow_add₀ (by decide)]
          rfl
  have hle : toDouble |a - b| ≤ 0 := by
    unfold compareDouble at h
    rw [hfina, hfinb, Bool.or_false, if_neg Bool.false_ne_true, decide_eq_true_eq, htiny] at h
    exact h
  have hsmall : |a - b| < (2 : ℚ) ^ (-1021 : ℤ) := by
    have hdouble : (2 : ℚ) ^ (-1021 : ℤ) = 4 * (2 : ℚ) ^ (-1023 : ℤ) := by
      rw [show (-1021 : ℤ) = -1023 + 1 + 1 by decide, zpow_add_one₀ (by decide),
        zpow_add_one₀ (by decide)]
      ring
    have hpos' := two_zpow_pos (-1023)
    calc |a - b| ≤ |a| + |b| := abs_sub a b
      _ ≤ max |a| |b| + max |a| |b| := add_le_add (le_max_left _ _) (le_max_right _ _)
      _ < (2 : ℚ) ^ (-1021 : ℤ) := by
          rw [hdouble]
          linarith
  have hclose := abs_toDouble_sub_le_of_small (by rwa [abs_abs] : |(|a - b|)| < _)
  have hlow := (abs_le.mp hclose).1
  have hhalf := half_zpow
  linarith

end IotDeviceSdk
