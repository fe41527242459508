import IotDeviceSdk.Libc.DecimalNumber
import IotDeviceSdk.Libc.Double
import Mathlib.Data.List.DropRight

/-!
# The conversion `%g`

`formatG digits d` is the text `%1.*g` prints for a finite number: its significant digits without
the zeros at their end, with an exponent when that is below -4 or not below the number of digits.

* `formatG_eq_text`: it is a decimal number, of the value of `d` rounded to these digits.
* `strtod_formatG`: so `strtod` reads it whole.
* `length_formatG_le`: it is short when the number is not too far from one.
-/

namespace IotDeviceSdk

open Rounding

/-! ### The text -/

/-- The significant digits of a positive number as one integer, and the decimal exponent of the
first of them. -/
def scientific (digits : ℕ) (a : ℚ) : ℕ × ℤ :=
  let m := (roundHalfEven (a / (10 : ℚ) ^ lastPlace 10 digits a)).toNat
  if m = 10 ^ digits then (10 ^ (digits - 1), Int.log 10 a + 1) else (m, Int.log 10 a)

/-- The digits in front of the point and behind it, and the exponent that is printed. -/
def layout (digits m : ℕ) (x : ℤ) : List Char × List Char × Option ℤ :=
  let ds := Nat.toDigits 10 m
  if x < -4 ∨ digits ≤ x then (ds.take 1, ds.drop 1, some x)
  else if x < 0 then (['0'], List.replicate (-x - 1).toNat '0' ++ ds, none)
  else (ds.take (x + 1).toNat, ds.drop (x + 1).toNat, none)

/-- The digits behind the point that are kept. -/
def keptDigits (fraction : List Char) : List Char := fraction.rdropWhile (· == '0')

/-- The digits of an exponent, two at least. -/
def exponentDigits (x : ℤ) : List Char :=
  if x.natAbs < 10 then '0' :: Nat.toDigits 10 x.natAbs else Nat.toDigits 10 x.natAbs

/-- The parts of the text of a positive number. -/
def layoutOf (digits : ℕ) (a : ℚ) : List Char × List Char × Option ℤ :=
  layout digits (scientific digits a).1 (scientific digits a).2

/-- The sign of a number that may be negative. -/
def minusSign (d : ℚ) : List Char := if d < 0 then ['-'] else []

/-- The digits behind the point with the point, nothing without digits. -/
def fractionText (digits : List Char) : List Char := if digits = [] then [] else '.' :: digits

/-- An exponent, when one is printed. -/
def exponentText : Option ℤ → List Char
  | some x => 'e' :: ((if x < 0 then ['-'] else ['+']) ++ exponentDigits x)
  | none => []

/-- `%1.*g` of a finite number. -/
def formatG (digits : ℕ) (d : ℚ) : List Char :=
  if d = 0 then ['0']
  else
    let (whole, fraction, exponent) := layoutOf digits |d|
    minusSign d ++ ((whole ++ fractionText (keptDigits fraction)) ++ exponentText exponent)

/-! ### Digits -/

theorem digitsValue_replicate_zero (k : ℕ) : digitsValue (List.replicate k '0') = 0 := by
  induction k with
  | zero => rfl
  | succ k ih =>
    rw [List.replicate_succ', digitsValue_append, ih]
    rfl

/-- Zeros at the end of a fraction say nothing. -/
theorem exists_zeros (fraction : List Char) :
    ∃ k, fraction = keptDigits fraction ++ List.replicate k '0' := by
  induction fraction using List.reverseRecOn with
  | nil => exact ⟨0, rfl⟩
  | append_singleton l c ih =>
    by_cases hc : c = '0'
    · obtain ⟨k, hk⟩ := ih
      refine ⟨k + 1, ?_⟩
      rw [keptDigits, List.rdropWhile_concat_pos _ _ _ (by simp [hc]), List.replicate_succ',
        ← List.append_assoc, hc]
      congr 1
    · refine ⟨0, ?_⟩
      rw [keptDigits, List.rdropWhile_concat_neg _ _ _ (by simp [hc]), List.replicate_zero,
        List.append_nil]

theorem digitsValue_kept (whole fraction : List Char) (e : ℤ) :
    (digitsValue (whole ++ keptDigits fraction) : ℚ) *
        (10 : ℚ) ^ (e - ((keptDigits fraction).length : ℤ)) =
      (digitsValue (whole ++ fraction) : ℚ) * (10 : ℚ) ^ (e - (fraction.length : ℤ)) := by
  obtain ⟨k, hk⟩ := exists_zeros fraction
  generalize keptDigits fraction = kept at hk
  rw [hk, ← List.append_assoc, digitsValue_append (whole ++ kept), digitsValue_replicate_zero,
    List.length_append, List.length_replicate]
  push_cast
  rw [show e - (kept.length : ℤ) = e - (kept.length + k) + (k : ℤ) by ring,
    zpow_add₀ (by norm_num : (10 : ℚ) ≠ 0), zpow_natCast]
  ring

theorem length_toDigits_eq {digits m : ℕ} (hdigits : 0 < digits) (hlow : 10 ^ (digits - 1) ≤ m)
    (hhigh : m < 10 ^ digits) : (Nat.toDigits 10 m).length = digits := by
  have hle := (Nat.length_toDigits_le_iff (b := 10) (by decide) hdigits).mpr hhigh
  apply le_antisymm hle
  by_contra hlt
  rcases Nat.eq_zero_or_pos (digits - 1) with h | h
  · have hpos := Nat.length_toDigits_pos (b := 10) (n := m)
    omega
  · have hshort := (Nat.length_toDigits_le_iff (b := 10) (n := m) (by decide) h).mp (by omega)
    omega

/-! ### The significant digits -/

section Scientific

variable {digits : ℕ} {a : ℚ} (hdigits : 0 < digits) (ha : 0 < a)

include hdigits ha

theorem scientific_spec :
    10 ^ (digits - 1) ≤ (scientific digits a).1 ∧ (scientific digits a).1 < 10 ^ digits ∧
      ((scientific digits a).1 : ℚ) * (10 : ℚ) ^ ((scientific digits a).2 - ((digits : ℤ) - 1)) =
        roundDigits 10 digits a ∧
      Int.log 10 a ≤ (scientific digits a).2 ∧ (scientific digits a).2 ≤ Int.log 10 a + 1 := by
  have hunit : (0 : ℚ) < (10 : ℚ) ^ lastPlace 10 digits a := zpow_pos (by norm_num) _
  have habs : |a / (10 : ℚ) ^ lastPlace 10 digits a| = a / (10 : ℚ) ^ lastPlace 10 digits a :=
    abs_of_pos (div_pos ha hunit)
  have hlow : ((10 ^ (digits - 1) : ℕ) : ℚ) ≤ a / (10 : ℚ) ^ lastPlace 10 digits a := by
    have hle := @zpow_lastPlace_le 10 digits _ (by decide) ha.ne'
    rw [abs_of_pos ha] at hle
    rw [le_div_iff₀ hunit]
    push_cast at hle ⊢
    rw [mul_comm]
    rwa [show ((digits : ℤ) - 1) = ((digits - 1 : ℕ) : ℤ) by omega, zpow_natCast] at hle
  have hhigh : |a / (10 : ℚ) ^ lastPlace 10 digits a| < ((10 ^ digits : ℕ) : ℚ) := by
    have hlt := @abs_lt_zpow_lastPlace 10 digits (by decide) a
    rw [abs_of_pos ha] at hlt
    rw [habs, div_lt_iff₀ hunit]
    exact_mod_cast hlt
  have hmlow := le_roundHalfEven hlow
  have hmhigh := (abs_le.mp (abs_roundHalfEven_le hhigh)).2
  have hvalue : roundDigits 10 digits a =
      (roundHalfEven (a / (10 : ℚ) ^ lastPlace 10 digits a) : ℚ) *
        (10 : ℚ) ^ (Int.log 10 a - ((digits : ℤ) - 1)) := by
    -- the place of the last digit that is printed
    have hplace : lastPlace 10 digits a = Int.log 10 a - ((digits : ℤ) - 1) := by
      rw [lastPlace, abs_of_pos ha]
    show (roundHalfEven (a / ((10 : ℕ) : ℚ) ^ lastPlace 10 digits a) : ℚ) *
      ((10 : ℕ) : ℚ) ^ lastPlace 10 digits a = _
    rw [hplace]
    rfl
  obtain ⟨m, hm⟩ := Int.eq_ofNat_of_zero_le ((Int.natCast_nonneg _).trans hmlow)
  rw [hvalue]
  unfold scientific
  rw [hm] at hmlow hmhigh ⊢
  dsimp only [Int.toNat_natCast]
  have hpow : 10 ^ (digits - 1) * 10 = 10 ^ digits := by
    rw [← pow_succ, Nat.sub_add_cancel hdigits]
  split
  · -- the digits were rounded up to the next power of ten
    rename_i hfull
    refine ⟨le_rfl, ?_, ?_, by dsimp only; omega, le_rfl⟩
    · dsimp only
      have hpos : 0 < 10 ^ (digits - 1) := pow_pos (by decide) _
      omega
    · dsimp only
      rw [hfull, ← hpow, show Int.log 10 a + 1 - ((digits : ℤ) - 1) =
        Int.log 10 a - ((digits : ℤ) - 1) + 1 by ring, zpow_add_one₀ (by norm_num)]
      push_cast
      ring
  · -- the digits stay below the next power of ten
    rename_i hless
    refine ⟨?_, ?_, rfl, le_rfl, by dsimp only; omega⟩
    · dsimp only
      exact_mod_cast hmlow
    · dsimp only
      have hmle : m ≤ 10 ^ digits := by exact_mod_cast hmhigh
      omega

end Scientific

/-! ### The number that is printed -/

section Layout

variable {digits m : ℕ} {x : ℤ} (hlength : (Nat.toDigits 10 m).length = digits)

include hlength

theorem layout_value :
    (digitsValue ((layout digits m x).1 ++ (layout digits m x).2.1) : ℚ) *
        (10 : ℚ) ^ ((layout digits m x).2.2.getD 0 - ((layout digits m x).2.1.length : ℤ)) =
      m * (10 : ℚ) ^ (x - ((digits : ℤ) - 1)) := by
  unfold layout
  dsimp only
  split_ifs with hexp hneg
  · dsimp only
    rw [List.take_append_drop, digitsValue_toDigits, List.length_drop, hlength]
    have hpos := Nat.length_toDigits_pos (b := 10) (n := m)
    rw [Option.getD_some, show ((digits - 1 : ℕ) : ℤ) = (digits : ℤ) - 1 by omega]
  · dsimp only
    rw [← List.append_assoc, digitsValue_append, digitsValue_toDigits, List.singleton_append,
      ← List.replicate_succ, digitsValue_replicate_zero, List.length_append,
      List.length_replicate, hlength, Option.getD_none, mul_zero, zero_add]
    congr 2
    push_cast
    omega
  · dsimp only
    rw [List.take_append_drop, digitsValue_toDigits, List.length_drop, hlength, Option.getD_none]
    congr 2
    omega

end Layout

theorem isDigit_layout (digits m : ℕ) (x : ℤ) :
    ∀ c ∈ (layout digits m x).1 ++ (layout digits m x).2.1, c.isDigit = true := by
  have hdigit : ∀ c ∈ Nat.toDigits 10 m, c.isDigit = true :=
    fun c hc => Nat.isDigit_of_mem_toDigits (by decide) (by decide) hc
  intro c hc
  unfold layout at hc
  dsimp only at hc
  split_ifs at hc with hexp hneg
  · dsimp only at hc
    rw [List.take_append_drop] at hc
    exact hdigit c hc
  · simp only [List.mem_append, List.mem_singleton, List.mem_replicate] at hc
    rcases hc with rfl | ⟨-, rfl⟩ | hc
    · rfl
    · rfl
    · exact hdigit c hc
  · dsimp only at hc
    rw [List.take_append_drop] at hc
    exact hdigit c hc

theorem layout_whole_ne_nil (digits m : ℕ) (x : ℤ) : (layout digits m x).1 ≠ [] := by
  have hpos := Nat.length_toDigits_pos (b := 10) (n := m)
  unfold layout
  dsimp only
  split_ifs with hexp hneg
  · exact List.ne_nil_of_length_pos (by rw [List.length_take]; omega)
  · exact List.cons_ne_nil _ _
  · exact List.ne_nil_of_length_pos (by rw [List.length_take]; omega)

/-- An exponent as `%g` prints it. -/
def exponentOf (x : ℤ) : Exponent .decimal where
  letter := 'e'
  sign := if x < 0 then ['-'] else ['+']
  digits := exponentDigits x
  isLetter := rfl
  sign_eq := by
    split
    · exact .inr (.inr rfl)
    · exact .inr (.inl rfl)
  digits_ne := by
    unfold exponentDigits
    split
    · exact List.cons_ne_nil _ _
    · exact List.ne_nil_of_length_pos Nat.length_toDigits_pos
  isDigit := by
    have hdigit : ∀ c ∈ Nat.toDigits 10 x.natAbs, c.isDigit = true :=
      fun c hc => Nat.isDigit_of_mem_toDigits (by decide) (by decide) hc
    unfold exponentDigits
    split
    · intro c hc
      rcases List.mem_cons.mp hc with rfl | hc
      · rfl
      · exact hdigit c hc
    · exact hdigit

theorem exponentOf_value (x : ℤ) : (exponentOf x).value = x := by
  have hdigits : digitsValue (exponentDigits x) = x.natAbs := by
    unfold exponentDigits
    split
    · rw [← List.singleton_append, digitsValue_append, digitsValue_toDigits]
      simp [digitsValue]
    · exact digitsValue_toDigits _
  show (if (if x < 0 then ['-'] else ['+']) = ['-'] then -(digitsValue (exponentDigits x) : ℤ)
    else digitsValue (exponentDigits x)) = x
  rw [hdigits]
  by_cases hx : x < 0
  · rw [if_pos hx, if_pos rfl]
    omega
  · rw [if_neg hx, if_neg (by decide)]
    omega

theorem keptDigits_starts (fraction : List Char) : keptDigits fraction <+: fraction :=
  List.rdropWhile_prefix _ fraction

/-- What `%1.*g` prints for a finite number that is not zero. -/
def numberG (digits : ℕ) (d : ℚ) : DecimalNumber where
  blank := []
  sign := minusSign d
  whole := (layoutOf digits |d|).1
  fraction :=
    if keptDigits (layoutOf digits |d|).2.1 = [] then none
    else some (keptDigits (layoutOf digits |d|).2.1)
  exponent := (layoutOf digits |d|).2.2.map exponentOf
  isSpace := by simp
  sign_eq := by
    unfold minusSign
    split
    · exact .inr (.inr rfl)
    · exact .inl rfl
  isDigit := by
    intro c hc
    apply isDigit_layout digits _ (scientific digits |d|).2 c
    rcases List.mem_append.mp hc with hc | hc
    · exact List.mem_append_left _ hc
    · split at hc
      · cases hc
      · exact List.mem_append_right _ ((keptDigits_starts _).subset hc)
  digits_ne := List.append_ne_nil_of_left_ne_nil (layout_whole_ne_nil _ _ _) _

theorem numberG_fraction (digits : ℕ) (d : ℚ) :
    (numberG digits d).fraction.getD [] = keptDigits (layoutOf digits |d|).2.1 := by
  show (if keptDigits (layoutOf digits |d|).2.1 = [] then none
    else some (keptDigits (layoutOf digits |d|).2.1)).getD [] = _
  split
  · rename_i h
    rw [h]
    rfl
  · rfl

/-- **The text of `%g` is a decimal number.** -/
theorem formatG_eq_text {d : ℚ} (hd : d ≠ 0) (digits : ℕ) :
    formatG digits d = (numberG digits d).text := by
  have hfraction : (numberG digits d).mantissa =
      (layoutOf digits |d|).1 ++ fractionText (keptDigits (layoutOf digits |d|).2.1) := by
    show _ ++ (if keptDigits (layoutOf digits |d|).2.1 = [] then none
      else some (keptDigits (layoutOf digits |d|).2.1)).elim [] _ = _
    unfold fractionText
    split <;> rfl
  have hexponent : (numberG digits d).exponentText = exponentText (layoutOf digits |d|).2.2 := by
    show ((layoutOf digits |d|).2.2.map exponentOf).elim [] Exponent.text = _
    cases (layoutOf digits |d|).2.2 <;> rfl
  show formatG digits d = [] ++ (minusSign d ++ ((numberG digits d).mantissa ++ _))
  rw [hfraction, hexponent, formatG, if_neg hd]
  rfl

/-- **Its value** is the number, rounded to the digits that are printed. -/
theorem numberG_value {digits : ℕ} (hdigits : 0 < digits) {d : ℚ} (hd : d ≠ 0) :
    (numberG digits d).value = roundDigits 10 digits d := by
  have hpos : 0 < |d| := abs_pos.mpr hd
  obtain ⟨hlow, hhigh, hvalue, -, -⟩ := scientific_spec hdigits hpos
  have hlayout := layout_value (x := (scientific digits |d|).2)
    (length_toDigits_eq hdigits hlow hhigh)
  have hexponent : (numberG digits d).exponent.elim 0 Exponent.value =
      (layoutOf digits |d|).2.2.getD 0 := by
    show ((layoutOf digits |d|).2.2.map exponentOf).elim 0 Exponent.value = _
    cases (layoutOf digits |d|).2.2 with
    | none => rfl
    | some x => exact exponentOf_value x
  have habs : (digitsValue ((layoutOf digits |d|).1 ++ keptDigits (layoutOf digits |d|).2.1) : ℚ) *
      (10 : ℚ) ^ ((layoutOf digits |d|).2.2.getD 0 -
        ((keptDigits (layoutOf digits |d|).2.1).length : ℤ)) = roundDigits 10 digits |d| := by
    rw [digitsValue_kept]
    exact hlayout.trans hvalue
  rw [DecimalNumber.value_eq, numberG_fraction, hexponent]
  show (if minusSign d = ['-'] then _ else _) = _
  rw [show (numberG digits d).whole = (layoutOf digits |d|).1 from rfl, habs]
  unfold minusSign
  by_cases hneg : d < 0
  · rw [if_pos hneg, if_pos rfl, abs_of_neg hneg, roundDigits_neg, neg_neg]
  · rw [if_neg hneg, if_neg (by decide), abs_of_nonneg (not_lt.mp hneg)]

/-- **`strtod` reads what `%g` prints**, up to the digits that are not printed. -/
theorem strtod_formatG {digits : ℕ} (hdigits : 0 < digits) (d : ℚ) :
    strtod (formatG digits d) = (.num (toDouble (roundDigits 10 digits d)), []) := by
  by_cases hd : d = 0
  · rw [hd, formatG, if_pos rfl]
    have hzero : roundDigits 10 digits 0 = 0 := by simp [roundDigits, roundTo, roundHalfEven]
    rw [hzero]
    decide +kernel
  · rw [formatG_eq_text hd, DecimalNumber.strtod_text, numberG_value hdigits hd]

/-! ### Its length -/

theorem length_layoutOf {digits : ℕ} (hdigits : 0 < digits) {a : ℚ} (ha : 0 < a) :
    (layoutOf digits a).1.length + (layoutOf digits a).2.1.length ≤ digits + 4 ∧
      ((layoutOf digits a).2.2.isSome →
        (layoutOf digits a).1.length + (layoutOf digits a).2.1.length = digits) := by
  obtain ⟨hlow, hhigh, -, -, -⟩ := scientific_spec hdigits ha
  have hlength := length_toDigits_eq hdigits hlow hhigh
  unfold layoutOf layout
  dsimp only
  split_ifs with hexp hneg
  · simp only [List.length_take, List.length_drop, hlength]
    exact ⟨by omega, fun _ => by omega⟩
  · simp only [List.length_append, List.length_replicate, List.length_singleton, hlength]
    exact ⟨by omega, fun h => absurd h (by simp)⟩
  · simp only [List.length_take, List.length_drop, hlength]
    exact ⟨by omega, fun h => absurd h (by simp)⟩

theorem layoutOf_exponent {digits : ℕ} {a : ℚ} {x : ℤ} (h : (layoutOf digits a).2.2 = some x) :
    x = (scientific digits a).2 := by
  unfold layoutOf layout at h
  dsimp only at h
  split_ifs at h
  exact (Option.some.inj h).symm

theorem length_exponentText_le {x : ℤ} (hx : x.natAbs < 1000) :
    (exponentText (some x)).length ≤ 5 := by
  have hdigits : (exponentDigits x).length ≤ 3 := by
    unfold exponentDigits
    split
    · rename_i hsmall
      have hone := (Nat.length_toDigits_le_iff (b := 10) (k := 1) (by decide) (by decide)).mpr hsmall
      rw [List.length_cons]
      omega
    · exact (Nat.length_toDigits_le_iff (b := 10) (k := 3) (by decide) (by decide)).mpr hx
  show ('e' :: ((if x < 0 then ['-'] else ['+']) ++ exponentDigits x)).length ≤ 5
  have hsign : (if x < 0 then ['-'] else ['+']).length = 1 := by split <;> rfl
  rw [List.length_cons, List.length_append, hsign]
  omega

theorem length_fractionText_le (fraction : List Char) :
    (fractionText (keptDigits fraction)).length ≤ fraction.length + 1 := by
  have hkept := (keptDigits_starts fraction).length_le
  unfold fractionText
  split
  · exact Nat.zero_le _
  · rw [List.length_cons]
    omega

/-- The text of a number whose exponent has three digits at most. -/
theorem length_formatG_le {digits : ℕ} (hdigits : 0 < digits) {d : ℚ}
    (hlog : (Int.log 10 |d|).natAbs < 999) : (formatG digits d).length ≤ digits + 7 := by
  by_cases hd : d = 0
  · rw [formatG, if_pos hd, List.length_singleton]
    omega
  · have hpos : 0 < |d| := abs_pos.mpr hd
    obtain ⟨-, -, -, hxlow, hxhigh⟩ := scientific_spec hdigits hpos
    obtain ⟨hparts, hwithExponent⟩ := length_layoutOf hdigits hpos
    have hfraction := length_fractionText_le (layoutOf digits |d|).2.1
    have hsign : (minusSign d).length ≤ 1 := by
      unfold minusSign
      split <;> decide
    have htext : (formatG digits d).length = (minusSign d).length +
        (((layoutOf digits |d|).1.length +
          (fractionText (keptDigits (layoutOf digits |d|).2.1)).length) +
            (exponentText (layoutOf digits |d|).2.2).length) := by
      rw [formatG, if_neg hd]
      simp only [List.length_append]
    rw [htext]
    cases hexp : (layoutOf digits |d|).2.2 with
    | none =>
      show _ + (_ + 0) ≤ _
      omega
    | some x =>
      have hx := layoutOf_exponent hexp
      have hshort := length_exponentText_le (show x.natAbs < 1000 by omega)
      have heq := hwithExponent (by rw [hexp]; rfl)
      omega

/-- Powers of two against powers of ten. -/
theorem two_pow_le_ten_pow (k : ℕ) : (2 : ℚ) ^ (3 * k) ≤ 10 ^ k := by
  rw [pow_mul]
  exact pow_le_pow_left₀ (by norm_num) (by norm_num) k

/-- The decimal exponent of a double is small. -/
theorem log_of_isDouble {d : ℚ} (h : IsDouble d) (hd : d ≠ 0) :
    -400 ≤ Int.log 10 |d| ∧ Int.log 10 |d| ≤ 400 := by
  have hpos : 0 < |d| := abs_pos.mpr hd
  constructor
  · rw [← Int.zpow_le_iff_le_log (by decide) hpos]
    obtain ⟨n, hn⟩ := h.1.multiple hd (show (-1074 : ℤ) ≤ _ from le_max_right _ _)
    have hone : (1 : ℚ) ≤ |(n : ℚ)| := by
      have hn0 : n ≠ 0 := by
        rintro rfl
        exact hd (by rw [hn, Int.cast_zero, zero_mul])
      exact_mod_cast Int.one_le_abs hn0
    have hunit : ((10 : ℕ) : ℚ) ^ (-400 : ℤ) ≤ ((2 : ℕ) : ℚ) ^ (-1074 : ℤ) := by
      rw [zpow_neg, zpow_neg, zpow_ofNat, zpow_ofNat]
      apply inv_anti₀ (pow_pos (by norm_num) _)
      exact (two_pow_le_ten_pow 358).trans (pow_le_pow_right₀ (by norm_num) (by norm_num))
    rw [hn, abs_mul, abs_of_pos (zpow_pos FloatFormat.base_cast_pos _)]
    exact hunit.trans (le_mul_of_one_le_left (zpow_pos (by norm_num) _).le hone)
  · have hlt : |d| < ((10 : ℕ) : ℚ) ^ (401 : ℤ) := by
      rw [zpow_ofNat]
      calc |d| ≤ 2 ^ 1024 := h.2
        _ ≤ 2 ^ (3 * 400) := pow_le_pow_right₀ (by norm_num) (by norm_num)
        _ ≤ 10 ^ 400 := two_pow_le_ten_pow 400
        _ < 10 ^ 401 := pow_lt_pow_right₀ (by norm_num) (by norm_num)
    have hlog := (Int.lt_zpow_iff_log_lt (by decide) hpos).mp hlt
    omega

end IotDeviceSdk
