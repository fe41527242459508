import IotDeviceSdk.CJson.ParseString

/-!
# UTF-16 literals

What `parse_hex4` and `utf16_literal_to_utf8` compute.

* `parseHex4_append`: four hexadecimal digits are their value, anything else is 0.
* `encodeUtf8_eq`: a character is written as its UTF-8 encoding.
* `surrogatePair_eq`: the codepoint of a surrogate pair.
-/

namespace IotDeviceSdk.Json

/-! ### Hexadecimal digits -/

/-- The value of hexadecimal digits, none when one of the bytes is no digit. -/
def hexValue (digits : List UInt8) : Option ℕ :=
  digits.foldlM (fun n c => (hexDigitValue c).map fun digit => 16 * n + digit) 0

theorem hexDigitValue_lt {c : UInt8} {digit : ℕ} (h : hexDigitValue c = some digit) :
    digit < 16 := by
  have hc := c.toNat_lt
  unfold hexDigitValue at h
  simp only [UInt8.le_iff_toNat_le] at h
  split_ifs at h with h₁ h₂ h₃
  · obtain rfl := Option.some.inj h
    have := h₁.2
    simp only [UInt8.toNat_ofNat] at this
    omega
  · obtain rfl := Option.some.inj h
    have := h₂.2
    simp only [UInt8.toNat_ofNat] at this
    omega
  · obtain rfl := Option.some.inj h
    have := h₃.2
    simp only [UInt8.toNat_ofNat] at this
    omega

/-- Four hexadecimal digits are their value, four other bytes are 0. -/
theorem parseHex4_append {digits : List UInt8} (h : digits.length = 4) (rest : List UInt8) :
    parseHex4 (digits ++ rest) = some ((hexValue digits).getD 0) := by
  obtain ⟨a, b, c, d, rfl⟩ := List.length_eq_four.mp h
  unfold parseHex4 hexValue
  simp only [List.cons_append, List.nil_append, parseHex4.go, List.foldlM_cons, List.foldlM_nil]
  cases hexDigitValue a with
  | none => rfl
  | some a =>
    cases hexDigitValue b with
    | none => rfl
    | some b =>
      cases hexDigitValue c with
      | none => rfl
      | some c =>
        cases hexDigitValue d with
        | none => rfl
        | some d =>
          simp only [Option.map_some, Option.bind_eq_bind, Option.bind_some, Option.pure_def,
            Option.getD_some, Nat.shiftLeft_eq]
          congr 1
          simp
          omega

/-! ### UTF-8 -/

theorem continuationByte_eq (codepoint : ℕ) :
    (codepoint ||| 0x80) &&& 0xBF = codepoint % 0x40 + 0x80 := by
  have hall : ∀ m < 256, (m ||| 0x80) &&& 0xBF = m % 0x40 + 0x80 := by decide +kernel
  have hmod : (codepoint ||| 0x80) &&& 0xBF = (codepoint % 2 ^ 8 ||| 0x80) &&& 0xBF := by
    have hlt : (codepoint ||| 0x80) &&& 0xBF < 2 ^ 8 :=
      lt_of_le_of_lt Nat.and_le_right (by decide)
    rw [← Nat.mod_eq_of_lt hlt, Nat.and_mod_two_pow, Nat.or_mod_two_pow]
  rw [hmod, hall (codepoint % 2 ^ 8) (Nat.mod_lt _ (by decide))]
  omega

theorem firstByte_two {n : ℕ} (h : n < 0x20) : (n ||| 0xC0) &&& 0xFF = n % 0x20 + 0xC0 := by
  have hall : ∀ n < 0x20, (n ||| 0xC0) &&& 0xFF = n % 0x20 + 0xC0 := by decide
  exact hall n h

theorem firstByte_three {n : ℕ} (h : n < 0x10) : (n ||| 0xE0) &&& 0xFF = n % 0x10 + 0xE0 := by
  have hall : ∀ n < 0x10, (n ||| 0xE0) &&& 0xFF = n % 0x10 + 0xE0 := by decide
  exact hall n h

theorem firstByte_four {n : ℕ} (h : n < 0x8) : (n ||| 0xF0) &&& 0xFF = n % 0x8 + 0xF0 := by
  have hall : ∀ n < 0x8, (n ||| 0xF0) &&& 0xFF = n % 0x8 + 0xF0 := by decide
  exact hall n h

/-- **A character is written as its UTF-8 encoding.** -/
theorem encodeUtf8_eq (sequence_length : ℕ) (c : Char) :
    encodeUtf8 sequence_length c.toNat = (sequence_length, String.utf8EncodeChar c) := by
  have hvalid : c.toNat < 0x110000 := by
    rcases c.valid with h | h
    · exact h.trans (by decide)
    · exact h.2
  unfold encodeUtf8 String.utf8EncodeChar
  rw [show c.val.toNat = c.toNat from rfl]
  generalize c.toNat = n at hvalid
  simp only [utf8Bytes, utf8Tail, continuationByte_eq, Nat.shiftRight_eq_div_pow]
  by_cases h₁ : n < 0x80
  · rw [if_pos h₁, if_pos (show n ≤ 0x7F by omega), if_neg (show ¬1 > 1 by decide)]
    have hmask : n &&& 0x7F = n := (Nat.and_two_pow_sub_one_eq_mod n 7).trans (Nat.mod_eq_of_lt h₁)
    show (sequence_length, [UInt8.ofNat (n &&& 0x7F)]) = _
    rw [hmask]
  rw [if_neg h₁, if_neg (show ¬n ≤ 0x7F by omega)]
  by_cases h₂ : n < 0x800
  · rw [if_pos h₂, if_pos (show n ≤ 0x7FF by omega), if_pos (show 2 > 1 by decide)]
    rw [firstByte_two (by omega)]
  rw [if_neg h₂, if_neg (show ¬n ≤ 0x7FF by omega)]
  by_cases h₃ : n < 0x10000
  · rw [if_pos h₃, if_pos (show n ≤ 0xFFFF by omega), if_pos (show 3 > 1 by decide)]
    rw [firstByte_three (by omega), Nat.div_div_eq_div_mul]
  · rw [if_neg h₃, if_neg (show ¬n ≤ 0xFFFF by omega), if_pos (show n ≤ 0x10FFFF by omega),
      if_pos (show 4 > 1 by decide)]
    rw [firstByte_four (by omega), Nat.div_div_eq_div_mul n (2 ^ 6) (2 ^ 6),
      Nat.div_div_eq_div_mul n (2 ^ 6 * 2 ^ 6) (2 ^ 6)]

/-- The codepoint of a surrogate pair. -/
theorem surrogatePair_eq {high low : ℕ} (hhigh : 0xD800 ≤ high ∧ high ≤ 0xDBFF)
    (hlow : 0xDC00 ≤ low ∧ low ≤ 0xDFFF) :
    surrogatePair high low = 0x10000 + (high - 0xD800) * 0x400 + (low - 0xDC00) := by
  unfold surrogatePair
  rw [show 0x3FF = 2 ^ 10 - 1 by decide, Nat.and_two_pow_sub_one_eq_mod,
    Nat.and_two_pow_sub_one_eq_mod, ← Nat.shiftLeft_add_eq_or_of_lt (Nat.mod_lt _ (by decide)),
    Nat.shiftLeft_eq]
  omega

end IotDeviceSdk.Json
