import IotDeviceSdk.CJson.Equiv.Grammar
import IotDeviceSdk.CJson.Print
import IotDeviceSdk.Libc.CutNumber

/-!
# Printing numbers

`numberBuffer_spec`: a number is printed as JSON in at most 25 bytes, which fit `number_buffer`, an
infinite one as `null`.  What it is read back as is `rereadNumber`: the number itself, or one that
`compare_double` does not tell apart from it.
-/

namespace IotDeviceSdk

open Rounding

/-! ### Integers -/

/-- Only zero starts with a zero. -/
theorem toDigits_head_ne_zero {m : ℕ} (hm : 0 < m) : (Nat.toDigits 10 m).head? ≠ some '0' := by
  intro h
  obtain ⟨ds, hds⟩ := List.head?_eq_some_iff.mp h
  have hdigit : ∀ c ∈ Nat.toDigits 10 m, c.isDigit = true :=
    fun c hc => Nat.isDigit_of_mem_toDigits (by decide) (by decide) hc
  have hvalue := digitsValue_toDigits m
  rw [hds, ← List.singleton_append, digitsValue_append] at hvalue
  have hlt : digitsValue ds < 10 ^ ds.length := by
    apply digitsValue_lt
    intro c hc
    exact hdigit c (by rw [hds]; exact List.mem_cons_of_mem _ hc)
  have hzero : digitsValue ['0'] = 0 := by decide
  rw [hzero, Nat.mul_zero, Nat.zero_add] at hvalue
  rw [hvalue] at hlt
  rcases Nat.eq_zero_or_pos ds.length with hnil | hpos
  · rw [hnil] at hlt
    omega
  · have hle := (Nat.length_toDigits_le_iff (b := 10) (by decide) hpos).mpr hlt
    rw [hds, List.length_cons] at hle
    omega

theorem isSpace_nil : ∀ c ∈ ([] : List Char), isSpace c = true := by simp

/-- What `%d` prints. -/
def numberInt (n : ℤ) : DecimalNumber where
  blank := []
  sign := if n < 0 then ['-'] else []
  whole := Nat.toDigits 10 n.natAbs
  fraction := none
  exponent := none
  isSpace := isSpace_nil
  sign_eq := by
    split
    · exact .inr (.inr rfl)
    · exact .inl rfl
  isDigit := by
    intro c hc
    rw [Option.getD_none, List.append_nil] at hc
    exact Nat.isDigit_of_mem_toDigits (by decide) (by decide) hc
  digits_ne := List.append_ne_nil_of_left_ne_nil (List.length_pos_iff.mp Nat.length_toDigits_pos) _

theorem numberInt_text (n : ℤ) : decimalText n = Json.bytesOfChars (numberInt n).text := by
  have htext : (numberInt n).text =
      (if n < 0 then ['-'] else []) ++ Nat.toDigits 10 n.natAbs := by
    show [] ++ (_ ++ ((_ ++ []) ++ [])) = _
    rw [List.nil_append, List.append_nil, List.append_nil]
    rfl
  rw [htext, Json.bytesOfChars_append]
  unfold decimalText
  split <;> rfl

theorem numberInt_value (n : ℤ) : (numberInt n).value = n := by
  have hvalue : (numberInt n).value = if (numberInt n).sign = ['-'] then
      -((digitsValue (Nat.toDigits 10 n.natAbs ++ []) : ℚ) * (10 : ℚ) ^ ((0 : ℤ) - ((0 : ℕ) : ℤ)))
      else (digitsValue (Nat.toDigits 10 n.natAbs ++ []) : ℚ) *
        (10 : ℚ) ^ ((0 : ℤ) - ((0 : ℕ) : ℤ)) := (numberInt n).value_eq
  rw [hvalue, List.append_nil, digitsValue_toDigits, Nat.cast_zero, sub_zero, zpow_zero, mul_one]
  show (if (if n < 0 then ['-'] else []) = ['-'] then _ else _) = _
  by_cases hn : n < 0
  · have habs : ((n.natAbs : ℕ) : ℤ) = -n := Int.ofNat_natAbs_of_nonpos hn.le
    rw [if_pos hn, if_pos rfl, ← Int.cast_natCast, habs, Int.cast_neg, neg_neg]
  · have habs : ((n.natAbs : ℕ) : ℤ) = n := Int.natAbs_of_nonneg (not_lt.mp hn)
    rw [if_neg hn, if_neg (by decide), ← Int.cast_natCast, habs]

theorem numberInt_isJson (n : ℤ) : (numberInt n).IsJson where
  blank := rfl
  sign := by
    show (if n < 0 then ['-'] else []) ≠ ['+']
    split <;> decide
  whole := List.length_pos_iff.mp Nat.length_toDigits_pos
  leadingZero := by
    intro h
    rcases Nat.eq_zero_or_pos n.natAbs with hzero | hpos
    · show Nat.toDigits 10 n.natAbs = ['0']
      rw [hzero]
      rfl
    · exact absurd h (toDigits_head_ne_zero hpos)
  fraction := by
    intro h
    cases h

theorem length_numberInt_le {n : ℤ} (hlow : INT_MIN ≤ n) (hhigh : n ≤ INT_MAX) :
    (numberInt n).text.length ≤ 11 := by
  have hlength := congrArg List.length (numberInt_text n)
  rw [Json.length_bytesOfChars] at hlength
  have hdigits : (Nat.toDigits 10 n.natAbs).length ≤ 10 := by
    apply (Nat.length_toDigits_le_iff (by decide) (by decide)).mpr
    unfold INT_MIN at hlow
    unfold INT_MAX at hhigh
    omega
  rw [← hlength]
  unfold decimalText
  rw [List.length_append, List.length_map]
  split
  · rw [List.length_singleton]
    omega
  · rw [List.length_nil]
    omega

/-! ### Fractions -/

theorem numberG_isJson {digits : ℕ} (hdigits : 0 < digits) {d : ℚ} (hd : d ≠ 0) :
    (numberG digits d).IsJson where
  blank := rfl
  sign := by
    show minusSign d ≠ ['+']
    unfold minusSign
    split <;> decide
  whole := layout_whole_ne_nil _ _ _
  leadingZero := by
    obtain ⟨hlow, -, -, -, -⟩ := scientific_spec hdigits (abs_pos.mpr hd)
    have hhead := toDigits_head_ne_zero (lt_of_lt_of_le (Nat.pow_pos (by decide)) hlow)
    show (layout digits _ _).1.head? = some '0' → (layout digits _ _).1 = ['0']
    unfold layout
    dsimp only
    split_ifs with hexp hneg
    · intro h
      rw [List.head?_take] at h
      split at h
      · cases h
      · exact absurd h hhead
    · exact fun _ => rfl
    · intro h
      rw [List.head?_take] at h
      split at h
      · cases h
      · exact absurd h hhead
  fraction := by
    show (if keptDigits (layoutOf digits |d|).2.1 = [] then none
      else some (keptDigits (layoutOf digits |d|).2.1)) ≠ some []
    split
    · rename_i h
      intro hno
      cases hno
    · rename_i h
      intro hno
      exact h (Option.some.inj hno)

namespace Json

/-- What a number is read back as when it has been printed. -/
def rereadNumber (d : ℚ) : ℚ :=
  if d = doubleToInt d then d
  else if compareDouble (toDouble (roundDigits 10 15 d)) d then toDouble (roundDigits 10 15 d) else d

/-- It is not told apart from the number. -/
theorem rereadNumber_close (d : ℚ) :
    rereadNumber d = d ∨ compareDouble (rereadNumber d) d = true := by
  unfold rereadNumber
  split_ifs with hint hclose
  · exact .inl rfl
  · exact .inr hclose
  · exact .inl rfl

theorem zpow_lt_hugeVal : (2 : ℚ) ^ (-1023 : ℤ) < HUGE_VAL := by
  have hpow : HUGE_VAL = (2 : ℚ) ^ (1024 : ℤ) := (zpow_natCast 2 1024).symm
  rw [hpow]
  exact zpow_lt_zpow_right₀ (by norm_num) (by norm_num)

/-- A small number stays small when it is read, printed with fifteen digits and read again. -/
theorem abs_reread_lt {r : ℚ} (h : |r| < (2 : ℚ) ^ (-1024 : ℤ)) :
    |toDouble (roundDigits 10 15 (toDouble r))| < (2 : ℚ) ^ (-1023 : ℤ) ∧
      |toDouble r| < (2 : ℚ) ^ (-1023 : ℤ) := by
  have hpos := two_zpow_pos (-1075)
  have hpow : ∀ n : ℕ, (2 : ℚ) ^ (-1075 + n : ℤ) = 2 ^ n * (2 : ℚ) ^ (-1075 : ℤ) := by
    intro n
    rw [zpow_add₀ (by norm_num), zpow_natCast, mul_comm]
  have h1024 := hpow 51
  have h1023 := hpow 52
  have h1021 := hpow 54
  norm_num only at h1024 h1023 h1021
  set e := toDouble r with he
  set r' := roundDigits 10 15 e with hr'
  have hread : |e - r| ≤ (2 : ℚ) ^ (-1075 : ℤ) := by
    apply abs_toDouble_sub_le_of_small
    linarith
  have hle : |e| ≤ |r| + (2 : ℚ) ^ (-1075 : ℤ) := by
    have htriangle := abs_sub_abs_le_abs_sub e r
    linarith
  have hdigits : |r'| ≤ |e| + |e| / 10 := by
    have hround := @abs_roundDigits_sub_le 10 15 (by decide) e
    have htriangle := abs_sub_abs_le_abs_sub r' e
    have hpart : (((10 : ℕ) : ℚ) ^ (1 - ((15 : ℕ) : ℤ)) / 2) * |e| ≤ 1 / 10 * |e| := by
      apply mul_le_mul_of_nonneg_right _ (abs_nonneg e)
      norm_num
    linarith
  have hback : |toDouble r' - r'| ≤ (2 : ℚ) ^ (-1075 : ℤ) := by
    apply abs_toDouble_sub_le_of_small
    linarith
  have htriangle := abs_sub_abs_le_abs_sub (toDouble r') r'
  constructor <;> linarith

/-- A number that has been read from fifteen digits is read back as it is. -/
theorem rereadNumber_toDouble {r : ℚ} (hr : IsShort 10 15 r) (hfin : isInf (toDouble r) = false) :
    rereadNumber (toDouble r) = toDouble r := by
  unfold rereadNumber
  split_ifs with hint hclose
  · rfl
  · by_cases hlarge : (2 : ℚ) ^ (-1024 : ℤ) ≤ |r|
    · rw [roundDigits_toDouble hr hfin hlarge]
    · -- too small for fifteen digits, but then `compare_double` tells the doubles apart
      obtain ⟨hback, hmax⟩ := abs_reread_lt (not_le.mp hlarge)
      have hfin' : isInf (toDouble (roundDigits 10 15 (toDouble r))) = false := by
        rw [isInf, decide_eq_false_iff_not, not_le]
        exact hback.trans zpow_lt_hugeVal
      exact eq_of_compareDouble (isDouble_toDouble _).1 (isDouble_toDouble _).1 hfin' hfin
        (max_lt hback hmax) hclose
  · rfl

/-- **What has been read back** is read back as it is. -/
theorem rereadNumber_idem {d : ℚ} (hfin : isInf (rereadNumber d) = false) :
    rereadNumber (rereadNumber d) = rereadNumber d := by
  have hcases : rereadNumber d = d ∨ rereadNumber d = toDouble (roundDigits 10 15 d) := by
    unfold rereadNumber
    split_ifs
    · exact .inl rfl
    · exact .inr rfl
    · exact .inl rfl
  rcases hcases with h | h
  · rw [h, h]
  · rw [h] at hfin ⊢
    exact rereadNumber_toDouble (isShort_roundDigits (by decide) (by decide) d) hfin

theorem sscanfDouble_formatDouble {digits : ℕ} (hdigits : 0 < digits) {d : ℚ} (hd : d ≠ 0) :
    sscanfDouble (formatDouble digits d) = some (.num (toDouble (roundDigits 10 digits d))) := by
  have hchars : (formatDouble digits d).map (fun b => Char.ofNat b.toNat) = formatG digits d := by
    apply charsOfBytes_bytesOfChars
    rw [formatG_eq_text hd]
    exact fun c hc => (isNumberChar_of_mem rfl c hc).toNat_lt
  have hpos : (formatG digits d).length ≠ 0 := by
    rw [formatG_eq_text hd]
    exact (List.length_pos_iff.mpr (numberG digits d).text_ne_nil).ne'
  unfold sscanfDouble
  dsimp only
  rw [hchars, strtod_formatG hdigits]
  exact if_neg hpos.symm

theorem length_formatDouble_le {digits : ℕ} (hdigits : 0 < digits) {d : ℚ} (h : IsDouble d)
    (hd : d ≠ 0) : (formatDouble digits d).length ≤ digits + 7 := by
  have hlog := log_of_isDouble h hd
  rw [formatDouble, List.length_map]
  exact length_formatG_le hdigits (by omega)

theorem sprintfNumber_of_length {text : List UInt8} (h : text.length < 26) :
    sprintfNumber text = some text := if_pos h

/-- A number that is no integer is printed with 15 digits, or with 17. -/
theorem numberBuffer_fraction {valueint : ℤ} {d : ℚ} (hd : IsDouble d) (hinf : isInf d = false)
    (hint : d ≠ valueint) (hzero : d ≠ 0) :
    numberBuffer valueint d = some (formatDouble
      (if compareDouble (toDouble (roundDigits 10 15 d)) d then 15 else 17) d) := by
  have hshort := length_formatDouble_le (show 0 < 15 by decide) hd hzero
  have hlong := length_formatDouble_le (show 0 < 17 by decide) hd hzero
  unfold numberBuffer
  rw [hinf, if_neg Bool.false_ne_true, if_neg hint, sprintfNumber_of_length (by omega),
    Option.bind_some, sscanfDouble_formatDouble (by decide) hzero]
  dsimp only
  split
  · rfl
  · exact sprintfNumber_of_length (by omega)

/-- Zero is printed as such also when the integer is another. -/
theorem numberBuffer_zero (valueint : ℤ) : numberBuffer valueint 0 = some [48] := by
  have hformat : ∀ digits, formatDouble digits 0 = [48] := by
    intro digits
    rw [formatDouble, formatG, if_pos rfl]
    rfl
  have hinf : isInf 0 = false := by
    rw [isInf, abs_zero, decide_eq_false_iff_not, not_le]
    exact hugeVal_pos
  unfold numberBuffer
  rw [hinf, if_neg Bool.false_ne_true]
  split
  · rename_i hint
    have hzero : valueint = 0 := by exact_mod_cast hint.symm
    rw [hzero]
    decide
  · rw [hformat, hformat, sprintfNumber_of_length (by decide), Option.bind_some]
    split
    · split <;> rfl
    · rfl

/-- **A number is printed** as a number of JSON that is read back as `rereadNumber`. -/
theorem numberBuffer_spec {valueint : ℤ} {d : ℚ} (hlow : INT_MIN ≤ valueint)
    (hhigh : valueint ≤ INT_MAX) (hd : IsDouble d) (hinf : isInf d = false) :
    ∃ n : DecimalNumber, n.IsJson ∧ n.text.length ≤ 25 ∧
      numberBuffer valueint d = some (bytesOfChars n.text) ∧
      (valueint = doubleToInt d → toDouble n.value = rereadNumber d) := by
  by_cases hint : d = valueint
  · -- an integer is printed with `%d`
    have hlength := length_numberInt_le hlow hhigh
    refine ⟨numberInt valueint, numberInt_isJson valueint, by omega, ?_, ?_⟩
    · unfold numberBuffer
      rw [hinf, if_neg Bool.false_ne_true, if_pos hint, numberInt_text]
      apply sprintfNumber_of_length
      rw [length_bytesOfChars]
      omega
    · intro hsame
      rw [rereadNumber, ← hsame, if_pos hint, numberInt_value, ← hint]
      exact toDouble_of_isDouble hd
  by_cases hzero : d = 0
  · subst hzero
    refine ⟨numberInt 0, numberInt_isJson 0, by decide, numberBuffer_zero valueint, ?_⟩
    intro hsame
    have hint0 : doubleToInt 0 = 0 := by decide +kernel
    exact absurd (by rw [hsame, hint0, Int.cast_zero]) hint
  · have hbuffer := numberBuffer_fraction hd hinf hint hzero
    have htext : ∀ digits, formatDouble digits d = bytesOfChars (numberG digits d).text := by
      intro digits
      rw [← formatG_eq_text hzero]
      rfl
    rw [htext] at hbuffer
    have hlength : ∀ digits, 0 < digits → digits ≤ 17 → (numberG digits d).text.length ≤ 25 := by
      intro digits hpos hle
      have hformat := length_formatDouble_le hpos hd hzero
      rw [htext, length_bytesOfChars] at hformat
      omega
    have hreread : valueint = doubleToInt d → rereadNumber d =
        if compareDouble (toDouble (roundDigits 10 15 d)) d then toDouble (roundDigits 10 15 d)
        else d := by
      intro hsame
      rw [hsame] at hint
      exact if_neg hint
    -- 15 digits are enough when they are read back as the same number
    by_cases hclose : compareDouble (toDouble (roundDigits 10 15 d)) d = true
    · rw [if_pos hclose] at hbuffer hreread
      refine ⟨_, numberG_isJson (by decide) hzero, hlength 15 (by decide) (by decide), hbuffer, ?_⟩
      intro hsame
      rw [hreread hsame, numberG_value (by decide) hzero]
    · rw [if_neg hclose] at hbuffer hreread
      refine ⟨_, numberG_isJson (by decide) hzero, hlength 17 (by decide) (by decide), hbuffer, ?_⟩
      intro hsame
      rw [hreread hsame, numberG_value (by decide) hzero]
      exact toDouble_roundDigits hd

end Json

end IotDeviceSdk
