import Mathlib.Algebra.Order.Floor.Ring
import Mathlib.Data.Int.Log
import Mathlib.Data.Rat.Floor
import Mathlib.Tactic.Linarith
import Mathlib.Tactic.NormNum
import Mathlib.Tactic.Positivity
import Mathlib.Tactic.Ring

/-!
# Rounding rational numbers

`roundHalfEven` rounds to an integer and `roundTo unit` to a multiple of a unit, both to the nearest
one and halfway to the even one.  A `FloatFormat` has a base, a number of digits and a least
exponent; its numbers are the `Representable` ones, and `FloatFormat.round` rounds to the unit in the
last of these digits (`FloatFormat.unit`).

* `representable_round`: what has been rounded is representable.
* `round_of_close`: a number that is closer to a representable one than half of the format's relative
  spacing is rounded to it.  In particular `round_of_representable`.
* `abs_roundDigits_sub_le`: rounding to `n` significant digits changes a number by at most half a
  unit in the last of them.
* `roundDigits_of_close`: a number that is close to one of `n` digits is rounded to it.
-/

namespace IotDeviceSdk.Rounding

/-! ### Integers -/

/-- The nearest integer, halfway between two of them the even one. -/
def roundHalfEven (q : ℚ) : ℤ :=
  if q - ⌊q⌋ < 1 / 2 then ⌊q⌋
  else if 1 / 2 < q - ⌊q⌋ then ⌊q⌋ + 1
  else if ⌊q⌋ % 2 = 0 then ⌊q⌋ else ⌊q⌋ + 1

theorem abs_roundHalfEven_sub_le (q : ℚ) : |(roundHalfEven q : ℚ) - q| ≤ 1 / 2 := by
  have hlow := Int.floor_le q
  have hhigh := Int.lt_floor_add_one q
  unfold roundHalfEven
  rw [abs_le]
  split_ifs <;> push_cast <;> constructor <;> linarith

/-- An integer closer than one half is the nearest. -/
theorem roundHalfEven_eq {q : ℚ} {n : ℤ} (h : |q - n| < 1 / 2) : roundHalfEven q = n := by
  have herr := abs_roundHalfEven_sub_le q
  have hlt : |(roundHalfEven q : ℚ) - n| < 1 := by
    calc |(roundHalfEven q : ℚ) - n| ≤ |(roundHalfEven q : ℚ) - q| + |q - n| := abs_sub_le _ _ _
      _ < 1 := by linarith
  have hint : |roundHalfEven q - n| < 1 := by exact_mod_cast hlt
  have hzero := Int.abs_lt_one_iff.mp hint
  omega

theorem abs_roundHalfEven_le {q : ℚ} {n : ℕ} (h : |q| < n) : |roundHalfEven q| ≤ n := by
  have herr := abs_roundHalfEven_sub_le q
  have hsum : |(roundHalfEven q : ℚ)| < n + 1 := by
    calc |(roundHalfEven q : ℚ)| = |((roundHalfEven q : ℚ) - q) + q| := by rw [sub_add_cancel]
      _ ≤ |(roundHalfEven q : ℚ) - q| + |q| := abs_add_le _ _
      _ < n + 1 := by linarith
  have hint : |roundHalfEven q| < n + 1 := by exact_mod_cast hsum
  omega

theorem le_roundHalfEven {q : ℚ} {n : ℕ} (h : (n : ℚ) ≤ q) : (n : ℤ) ≤ roundHalfEven q := by
  have hlow := (abs_le.mp (abs_roundHalfEven_sub_le q)).1
  have hsum : (n : ℚ) < roundHalfEven q + 1 := by linarith
  have hint : (n : ℤ) < roundHalfEven q + 1 := by exact_mod_cast hsum
  omega

theorem roundHalfEven_neg (q : ℚ) : roundHalfEven (-q) = -roundHalfEven q := by
  by_cases hint : q = ⌊q⌋
  · have hzero : |-q - ((-⌊q⌋ : ℤ) : ℚ)| < 1 / 2 := by
      push_cast
      rw [← hint]
      norm_num
    have hzero' : |q - (⌊q⌋ : ℚ)| < 1 / 2 := by
      rw [← hint]
      norm_num
    rw [roundHalfEven_eq hzero, roundHalfEven_eq hzero']
  · have hlow : (⌊q⌋ : ℚ) < q := lt_of_le_of_ne (Int.floor_le q) fun h => hint h.symm
    have hhigh := Int.lt_floor_add_one q
    have hfloor : ⌊-q⌋ = -⌊q⌋ - 1 := by
      rw [Int.floor_eq_iff]
      push_cast
      constructor <;> linarith
    unfold roundHalfEven
    rw [hfloor]
    push_cast
    split_ifs <;> first | omega | (exfalso; linarith)

/-! ### Multiples of a unit -/

/-- The nearest multiple of a unit. -/
def roundTo (unit q : ℚ) : ℚ := roundHalfEven (q / unit) * unit

theorem roundTo_neg (unit q : ℚ) : roundTo unit (-q) = -roundTo unit q := by
  rw [roundTo, neg_div, roundHalfEven_neg, Int.cast_neg, neg_mul, roundTo]

section Unit

variable {unit q : ℚ} (hunit : 0 < unit)

include hunit

theorem abs_roundTo_sub_le : |roundTo unit q - q| ≤ unit / 2 := by
  have herr := abs_roundHalfEven_sub_le (q / unit)
  have heq : roundTo unit q - q = ((roundHalfEven (q / unit) : ℚ) - q / unit) * unit := by
    rw [roundTo, sub_mul, div_mul_cancel₀ q hunit.ne']
  rw [heq, abs_mul, abs_of_pos hunit]
  calc |(roundHalfEven (q / unit) : ℚ) - q / unit| * unit ≤ 1 / 2 * unit :=
        mul_le_mul_of_nonneg_right herr hunit.le
    _ = unit / 2 := by ring

/-- A multiple that is closer than half a unit is the nearest. -/
theorem roundTo_eq {n : ℤ} (h : |q - n * unit| < unit / 2) : roundTo unit q = n * unit := by
  have hclose : |q / unit - n| < 1 / 2 := by
    have heq : q / unit - n = (q - n * unit) / unit := by
      rw [sub_div, mul_div_cancel_right₀ _ hunit.ne']
    rw [heq, abs_div, abs_of_pos hunit, div_lt_iff₀ hunit]
    linarith
  rw [roundTo, roundHalfEven_eq hclose]

end Unit

/-! ### Significant digits -/

/-- The exponent of the last of `digits` significant digits. -/
def lastPlace (base digits : ℕ) (q : ℚ) : ℤ := Int.log base |q| - (digits - 1)

/-- Rounded to a number of significant digits. -/
def roundDigits (base digits : ℕ) (q : ℚ) : ℚ := roundTo ((base : ℚ) ^ lastPlace base digits q) q

theorem roundDigits_neg (base digits : ℕ) (q : ℚ) :
    roundDigits base digits (-q) = -roundDigits base digits q := by
  rw [roundDigits, lastPlace, abs_neg, roundTo_neg]
  rfl

section Digits

variable {base digits : ℕ} {q : ℚ} (hbase : 1 < base)

include hbase

theorem base_pos : (0 : ℚ) < base := by
  exact_mod_cast Nat.zero_lt_of_lt hbase

theorem abs_lt_zpow_lastPlace (q : ℚ) :
    |q| < (base : ℚ) ^ digits * (base : ℚ) ^ lastPlace base digits q := by
  have hlog := Int.lt_zpow_succ_log_self hbase |q|
  rw [← zpow_natCast, ← zpow_add₀ (base_pos hbase).ne']
  rwa [show (digits : ℤ) + lastPlace base digits q = Int.log base |q| + 1 by
    rw [lastPlace]
    ring]

theorem zpow_lastPlace_le (hq : q ≠ 0) :
    (base : ℚ) ^ lastPlace base digits q * (base : ℚ) ^ ((digits : ℤ) - 1) ≤ |q| := by
  have hlog := Int.zpow_log_le_self hbase (abs_pos.mpr hq)
  rw [← zpow_add₀ (base_pos hbase).ne']
  rwa [show lastPlace base digits q + ((digits : ℤ) - 1) = Int.log base |q| by
    rw [lastPlace]
    ring]

/-- Rounding to significant digits changes a number by a small part of itself. -/
theorem abs_roundDigits_sub_le (q : ℚ) :
    |roundDigits base digits q - q| ≤ (base : ℚ) ^ (1 - (digits : ℤ)) / 2 * |q| := by
  by_cases hq : q = 0
  · rw [hq]
    simp [roundDigits, roundTo, roundHalfEven]
  · have hb := base_pos hbase
    have herr := @abs_roundTo_sub_le _ q (zpow_pos hb (lastPlace base digits q))
    have hone : (base : ℚ) ^ ((digits : ℤ) - 1) * (base : ℚ) ^ (1 - (digits : ℤ)) = 1 := by
      rw [← zpow_add₀ hb.ne']
      simp
    calc |roundDigits base digits q - q| ≤ (base : ℚ) ^ lastPlace base digits q / 2 := herr
      _ = (base : ℚ) ^ lastPlace base digits q * (base : ℚ) ^ ((digits : ℤ) - 1) *
            ((base : ℚ) ^ (1 - (digits : ℤ)) / 2) := by
          rw [mul_assoc, ← mul_div_assoc, hone]
          ring
      _ ≤ |q| * ((base : ℚ) ^ (1 - (digits : ℤ)) / 2) :=
          mul_le_mul_of_nonneg_right (zpow_lastPlace_le hbase hq)
            (half_pos (zpow_pos hb _)).le
      _ = _ := mul_comm _ _

end Digits

/-! ### Floating-point formats -/

/-- A base, a number of digits, and the least exponent of the last digit. -/
structure FloatFormat where
  base : ℕ
  digits : ℕ
  least : ℤ
  one_lt_base : 1 < base
  digits_pos : 0 < digits

namespace FloatFormat

variable (F : FloatFormat)

/-- The exponent of the last digit of a number. -/
def exponent (q : ℚ) : ℤ := max (lastPlace F.base F.digits q) F.least

/-- The unit in the last digit of a number. -/
def unit (q : ℚ) : ℚ := (F.base : ℚ) ^ F.exponent q

/-- The nearest number of the format. -/
def round (q : ℚ) : ℚ := roundTo (F.unit q) q

/-- The numbers of the format. -/
def Representable (q : ℚ) : Prop :=
  ∃ (m e : ℤ), |m| < (F.base : ℤ) ^ F.digits ∧ F.least ≤ e ∧ q = m * (F.base : ℚ) ^ e

variable {F}

theorem base_cast_pos : (0 : ℚ) < F.base := base_pos F.one_lt_base

theorem unit_pos (q : ℚ) : 0 < F.unit q := zpow_pos base_cast_pos _

theorem abs_lt_unit (q : ℚ) : |q| < (F.base : ℚ) ^ F.digits * F.unit q := by
  have hb : (1 : ℚ) ≤ F.base := by exact_mod_cast F.one_lt_base.le
  calc |q| < (F.base : ℚ) ^ F.digits * (F.base : ℚ) ^ lastPlace F.base F.digits q :=
        abs_lt_zpow_lastPlace F.one_lt_base q
    _ ≤ (F.base : ℚ) ^ F.digits * F.unit q :=
        mul_le_mul_of_nonneg_left (zpow_le_zpow_right₀ hb (le_max_left _ _))
          (pow_nonneg base_cast_pos.le _)

theorem representable_zero : F.Representable 0 := by
  refine ⟨0, F.least, ?_, le_rfl, by simp⟩
  have hb : (0 : ℤ) < F.base := by exact_mod_cast Nat.zero_lt_of_lt F.one_lt_base
  rw [abs_zero]
  exact pow_pos hb _

theorem Representable.neg {q : ℚ} (h : F.Representable q) : F.Representable (-q) := by
  obtain ⟨m, e, hm, he, rfl⟩ := h
  refine ⟨-m, e, ?_, he, ?_⟩
  · rwa [abs_neg]
  · push_cast
    ring

/-- A number of the format is a multiple of every unit up to its own one. -/
theorem Representable.multiple {q : ℚ} (h : F.Representable q) (hq : q ≠ 0) {e : ℤ}
    (he : e ≤ F.exponent q) : ∃ n : ℤ, q = n * (F.base : ℚ) ^ e := by
  obtain ⟨m, e', hm, hleast, rfl⟩ := h
  have hb := F.base_cast_pos
  -- the exponent of the number is not above the one it is written with
  have hlog : Int.log F.base |m * (F.base : ℚ) ^ e'| < F.digits + e' := by
    rw [← Int.lt_zpow_iff_log_lt F.one_lt_base (abs_pos.mpr hq), zpow_add₀ hb.ne', abs_mul,
      abs_of_pos (zpow_pos hb e'), zpow_natCast]
    have hm' : |(m : ℚ)| < (F.base : ℚ) ^ F.digits := by exact_mod_cast hm
    exact mul_lt_mul_of_pos_right hm' (zpow_pos hb e')
  have hexp : F.exponent (m * (F.base : ℚ) ^ e') ≤ e' := by
    rw [exponent, lastPlace, max_le_iff]
    exact ⟨by omega, hleast⟩
  obtain ⟨k, hk⟩ := Int.eq_ofNat_of_zero_le (show 0 ≤ e' - e by omega)
  refine ⟨m * (F.base : ℤ) ^ k, ?_⟩
  rw [show e' = (k : ℤ) + e by omega, zpow_add₀ hb.ne', zpow_natCast]
  push_cast
  ring

/-- **Rounding gives a number of the format.** -/
theorem representable_round (q : ℚ) : F.Representable (F.round q) := by
  have hb := F.base_cast_pos
  have hbase : (0 : ℤ) < F.base := by exact_mod_cast Nat.zero_lt_of_lt F.one_lt_base
  have hlt : |q / F.unit q| < ((F.base ^ F.digits : ℕ) : ℚ) := by
    rw [abs_div, abs_of_pos (unit_pos q), div_lt_iff₀ (unit_pos q)]
    exact_mod_cast abs_lt_unit q
  have hle := abs_roundHalfEven_le hlt
  push_cast at hle
  rcases lt_or_eq_of_le hle with hless | hfull
  · exact ⟨_, _, hless, le_max_right _ _, rfl⟩
  · -- a carry into one more digit, which is zero
    have hsplit : F.base ^ F.digits = F.base ^ (F.digits - 1) * F.base := by
      rw [← pow_succ, Nat.sub_add_cancel F.digits_pos]
    have hpow : (F.base : ℤ) ^ (F.digits - 1) < (F.base : ℤ) ^ F.digits := by
      exact_mod_cast Nat.pow_lt_pow_right F.one_lt_base (Nat.sub_lt F.digits_pos one_pos)
    obtain ⟨sign, hsign, hone⟩ : ∃ sign : ℤ,
        roundHalfEven (q / F.unit q) = sign * (F.base : ℤ) ^ F.digits ∧ |sign| = 1 := by
      rcases abs_eq (pow_pos hbase _).le |>.mp hfull with h | h
      · exact ⟨1, by rw [h, one_mul], rfl⟩
      · exact ⟨-1, by rw [h, neg_one_mul], rfl⟩
    refine ⟨sign * (F.base : ℤ) ^ (F.digits - 1), F.exponent q + 1, ?_, ?_, ?_⟩
    · rw [abs_mul, hone, one_mul, abs_of_pos (pow_pos hbase _)]
      exact hpow
    · have hleast : F.least ≤ F.exponent q := le_max_right _ _
      omega
    · have hcast : (F.base : ℚ) ^ F.digits = (F.base : ℚ) ^ (F.digits - 1) * F.base := by
        exact_mod_cast hsplit
      rw [round, roundTo, hsign, unit, zpow_add_one₀ hb.ne']
      push_cast
      rw [hcast]
      ring

/-- A number of the format that is below another one by a digit in its last place. -/
theorem Representable.add_unit_le {x y : ℚ} (hx : F.Representable x) (hx0 : x ≠ 0) (hy0 : y ≠ 0)
    (h : F.exponent x < F.exponent y) : |x| + F.unit x ≤ |y| := by
  have hb := F.base_cast_pos
  obtain ⟨n, hn⟩ := hx.multiple hx0 (le_refl (F.exponent x))
  have hxe : |x| = |(n : ℚ)| * F.unit x := by
    conv_lhs => rw [hn]
    rw [abs_mul, abs_of_pos (zpow_pos hb _)]
    rfl
  have hone : (1 : ℚ) ≤ |(n : ℚ)| := by
    have hn0 : n ≠ 0 := by
      rintro rfl
      exact hx0 (by rw [hn, Int.cast_zero, zero_mul])
    exact_mod_cast Int.one_le_abs hn0
  -- the first power of the base above `x`
  have htop : (F.base : ℚ) ^ (Int.log F.base |x| + 1) ≤ |y| := by
    have hleast : F.least ≤ F.exponent x := le_max_right _ _
    have hlast : lastPlace F.base F.digits x ≤ F.exponent x := le_max_left _ _
    have hy : F.exponent x < lastPlace F.base F.digits y :=
      (lt_max_iff.mp h).resolve_right (not_lt.mpr hleast)
    unfold lastPlace at hy hlast
    rw [Int.zpow_le_iff_le_log F.one_lt_base (abs_pos.mpr hy0)]
    omega
  obtain ⟨k, hk⟩ : ∃ k : ℕ, Int.log F.base |x| + 1 = k + F.exponent x := by
    have hlog : F.exponent x ≤ Int.log F.base |x| := by
      rw [← Int.zpow_le_iff_le_log F.one_lt_base (abs_pos.mpr hx0), hxe]
      exact le_mul_of_one_le_left (unit_pos x).le hone
    exact ⟨(Int.log F.base |x| + 1 - F.exponent x).toNat, by omega⟩
  have hlt : |(n : ℚ)| + 1 ≤ (F.base : ℚ) ^ k := by
    have hxlt := Int.lt_zpow_succ_log_self F.one_lt_base |x|
    rw [hk, zpow_add₀ hb.ne', zpow_natCast, hxe] at hxlt
    have hcast := lt_of_mul_lt_mul_right hxlt (unit_pos x).le
    exact_mod_cast hcast
  calc |x| + F.unit x = (|(n : ℚ)| + 1) * F.unit x := by
        rw [hxe]
        ring
    _ ≤ (F.base : ℚ) ^ k * F.unit x := mul_le_mul_of_nonneg_right hlt (unit_pos x).le
    _ = (F.base : ℚ) ^ (Int.log F.base |x| + 1) := by
        rw [hk, zpow_add₀ hb.ne', zpow_natCast]
        rfl
    _ ≤ |y| := htop

/-- **A number close to one of the format is rounded to it**: one whose distance from it, as a part
of it, is below half of the relative spacing. -/
theorem round_of_close {x y ε : ℚ} (hx : F.Representable x) (hy : |y - x| ≤ ε * |x|) (hε0 : 0 ≤ ε)
    (hε : 2 * ε * (F.base : ℚ) ^ F.digits < 1 - ε) : F.round y = x := by
  have hb := F.base_cast_pos
  have hpow : (0 : ℚ) < (F.base : ℚ) ^ F.digits := pow_pos hb _
  by_cases hx0 : x = 0
  · obtain rfl : y = 0 := by simpa [hx0] using hy
    rw [hx0]
    simp [round, roundTo, roundHalfEven]
  have hε1 : 0 < 1 - ε := lt_of_le_of_lt (by positivity) hε
  have hsum : (1 - ε) * |x| ≤ |y| := by
    have htriangle : |x| - |y| ≤ |y - x| := abs_sub_comm x y ▸ abs_sub_abs_le_abs_sub x y
    linarith
  have hy0 : y ≠ 0 := by
    rintro rfl
    have hpos := mul_pos hε1 (abs_pos.mpr hx0)
    rw [abs_zero] at hsum
    linarith
  -- the distance is below half a unit of `y`
  have hhalf : |y - x| < F.unit y / 2 := by
    have hscaled : 2 * |y - x| * (1 - ε) < F.unit y * (1 - ε) := by
      calc 2 * |y - x| * (1 - ε) ≤ 2 * (ε * |x|) * (1 - ε) :=
            mul_le_mul_of_nonneg_right (by linarith) hε1.le
        _ = 2 * ε * ((1 - ε) * |x|) := by ring
        _ ≤ 2 * ε * |y| := mul_le_mul_of_nonneg_left hsum (by linarith)
        _ ≤ 2 * ε * ((F.base : ℚ) ^ F.digits * F.unit y) :=
            mul_le_mul_of_nonneg_left (abs_lt_unit y).le (by linarith)
        _ = 2 * ε * (F.base : ℚ) ^ F.digits * F.unit y := by ring
        _ < (1 - ε) * F.unit y := mul_lt_mul_of_pos_right hε (unit_pos y)
        _ = F.unit y * (1 - ε) := mul_comm _ _
    have hless := lt_of_mul_lt_mul_right hscaled hε1.le
    linarith
  -- and `x` is a multiple of that unit
  have hexp : F.exponent y ≤ F.exponent x := by
    by_contra hnot
    have hgap := hx.add_unit_le hx0 hy0 (not_le.mp hnot)
    have hfar : |y| - |x| ≤ |y - x| := abs_sub_abs_le_abs_sub y x
    have hnear : 2 * (ε * |x|) ≤ (1 - ε) * F.unit x := by
      calc 2 * (ε * |x|) = 2 * ε * |x| := by ring
        _ ≤ 2 * ε * ((F.base : ℚ) ^ F.digits * F.unit x) :=
            mul_le_mul_of_nonneg_left (abs_lt_unit x).le (by linarith)
        _ = 2 * ε * (F.base : ℚ) ^ F.digits * F.unit x := by ring
        _ ≤ (1 - ε) * F.unit x := mul_le_mul_of_nonneg_right hε.le (unit_pos x).le
    have hunit := unit_pos (F := F) x
    nlinarith [mul_nonneg hε0 hunit.le]
  obtain ⟨n, hn⟩ := hx.multiple hx0 hexp
  have hnear : |y - n * F.unit y| < F.unit y / 2 := by
    rw [unit, ← hn]
    exact hhalf
  show roundTo (F.unit y) y = x
  rw [roundTo_eq (unit_pos y) hnear]
  exact hn.symm

theorem round_of_representable {x : ℚ} (hx : F.Representable x) : F.round x = x := by
  have hsame : |x - x| ≤ 0 * |x| := by simp
  exact round_of_close hx hsame le_rfl (by simp)

end FloatFormat

/-! ### Numbers of few digits -/

section Short

variable {base digits : ℕ}

/-- A number of so many digits in a base. -/
def IsShort (base digits : ℕ) (q : ℚ) : Prop :=
  ∃ m k : ℤ, |m| < (base : ℤ) ^ digits ∧ q = m * (base : ℚ) ^ k

/-- The format of the numbers of so many digits, down to some exponent. -/
def formatDownTo (hbase : 1 < base) (hdigits : 0 < digits) (least : ℤ) : FloatFormat where
  base := base
  digits := digits
  least := least
  one_lt_base := hbase
  digits_pos := hdigits

theorem round_formatDownTo (hbase : 1 < base) (hdigits : 0 < digits) {least : ℤ} {q : ℚ}
    (h : least ≤ lastPlace base digits q) :
    (formatDownTo hbase hdigits least).round q = roundDigits base digits q := by
  have hexp : (formatDownTo hbase hdigits least).exponent q = lastPlace base digits q :=
    max_eq_left h
  unfold FloatFormat.round FloatFormat.unit
  rw [hexp]
  rfl

/-- **Rounding to digits leaves so many of them.** -/
theorem isShort_roundDigits (hbase : 1 < base) (hdigits : 0 < digits) (q : ℚ) :
    IsShort base digits (roundDigits base digits q) := by
  have hround := round_formatDownTo hbase hdigits (le_refl (lastPlace base digits q))
  obtain ⟨m, e, hm, -, he⟩ := @FloatFormat.representable_round
    (formatDownTo hbase hdigits (lastPlace base digits q)) q
  rw [hround] at he
  exact ⟨m, e, hm, he⟩

/-- A number close to one of so many digits is rounded to it. -/
theorem roundDigits_of_close (hbase : 1 < base) (hdigits : 0 < digits) {x y ε : ℚ}
    (hx : IsShort base digits x) (hy : |y - x| ≤ ε * |x|) (hε0 : 0 ≤ ε)
    (hε : 2 * ε * (base : ℚ) ^ digits < 1 - ε) : roundDigits base digits y = x := by
  obtain ⟨m, k, hm, hk⟩ := hx
  rw [← round_formatDownTo hbase hdigits (min_le_right k _)]
  exact FloatFormat.round_of_close ⟨m, k, hm, min_le_left _ _, hk⟩ hy hε0 hε

end Short

end IotDeviceSdk.Rounding
