import IotDeviceSdk.Libc.Bytes

/-!
# Decimal texts

What `strtol` reads in a decimal text of which only the first characters have been kept: the number
itself, or at most a tenth of it (`strtol_decimalText_take`).  So the text of a number near another
one is never cut down to the text of that one (`decimalText_take_ne`).
-/

namespace IotDeviceSdk

/-! ### Digits -/

theorem digitsValue_append (ds es : List Char) :
    digitsValue (ds ++ es) = 10 ^ es.length * digitsValue ds + digitsValue es := by
  show Nat.ofDigitChars 10 (ds ++ es) 0 = _
  rw [Nat.ofDigitChars_append, Nat.ofDigitChars_eq_ofDigitChars_zero]
  rfl

theorem digitsValue_toDigits (n : ℕ) : digitsValue (Nat.toDigits 10 n) = n :=
  Nat.ofDigitChars_ten_toDigits

/-- The digits that are left out are a factor of ten at least. -/
theorem ten_mul_digitsValue_take_le {n m : ℕ} (hm : m < (Nat.toDigits 10 n).length) :
    10 * digitsValue ((Nat.toDigits 10 n).take m) ≤ n := by
  have hsplit := digitsValue_append ((Nat.toDigits 10 n).take m) ((Nat.toDigits 10 n).drop m)
  rw [List.take_append_drop, digitsValue_toDigits, List.length_drop] at hsplit
  have hpow : 10 ^ 1 ≤ 10 ^ ((Nat.toDigits 10 n).length - m) :=
    Nat.pow_le_pow_right (by decide) (by omega)
  have hmul := Nat.mul_le_mul_right (digitsValue ((Nat.toDigits 10 n).take m)) hpow
  omega

/-- The first digits of a number. -/
theorem digitsValue_take (n : ℕ) {m : ℕ} (hm : 0 < m) :
    digitsValue ((Nat.toDigits 10 n).take m) = n ∨
      (10 * digitsValue ((Nat.toDigits 10 n).take m) ≤ n ∧ 10 ^ m ≤ n) := by
  by_cases hlength : (Nat.toDigits 10 n).length ≤ m
  · rw [List.take_of_length_le hlength, digitsValue_toDigits]
    exact .inl rfl
  · have hlarge : 10 ^ m ≤ n := by
      by_contra hlt
      exact hlength ((Nat.length_toDigits_le_iff (by decide) hm).mpr (by omega))
    exact .inr ⟨ten_mul_digitsValue_take_le (not_le.mp hlength), hlarge⟩

/-- With a digit less a number is smaller. -/
theorem digitsValue_take_lt {n m : ℕ} (hn : 0 < n) (hm : m < (Nat.toDigits 10 n).length) :
    digitsValue ((Nat.toDigits 10 n).take m) < n := by
  have hle := ten_mul_digitsValue_take_le hm
  omega

theorem isDigit_of_mem_take {n m : ℕ} {c : Char} (h : c ∈ (Nat.toDigits 10 n).take m) :
    c.isDigit = true :=
  Nat.isDigit_of_mem_toDigits (by decide) (by decide) (List.mem_of_mem_take h)

/-- Digits are small. -/
theorem isDigit_bounds {c : Char} (h : c.isDigit = true) : 48 ≤ c.toNat ∧ c.toNat ≤ 57 := by
  simp only [Char.isDigit, Bool.and_eq_true, decide_eq_true_eq] at h
  exact ⟨h.1, h.2⟩

/-- A digit as a byte, and back. -/
theorem charOfByte_digit {c : Char} (h : c.isDigit = true) :
    Char.ofNat (UInt8.ofNat c.toNat).toNat = c := by
  have hbounds := isDigit_bounds h
  have hbyte : (UInt8.ofNat c.toNat).toNat = c.toNat := by
    rw [UInt8.toNat_ofNat']
    omega
  rw [hbyte, Char.ofNat_toNat]

theorem charsOfBytes_digits {ds : List Char} (h : ∀ c ∈ ds, c.isDigit = true) :
    (ds.map fun c => UInt8.ofNat c.toNat).map (fun b => Char.ofNat b.toNat) = ds := by
  rw [List.map_map]
  calc ds.map _ = ds.map id := List.map_congr_left fun c hc => charOfByte_digit (h c hc)
    _ = ds := List.map_id ds

theorem isSpace_of_isDigit {c : Char} (h : c.isDigit = true) : isSpace c = false := by
  have hbounds := isDigit_bounds h
  have hne : ∀ d : Char, d.toNat < 48 → c ≠ d := by
    rintro d hd rfl
    omega
  simp [isSpace, hne ' ' (by decide), hne '\t' (by decide), hne '\n' (by decide),
    hne '\x0b' (by decide), hne '\x0c' (by decide), hne '\r' (by decide)]

theorem scanSign_of_ne {c : Char} (hminus : c ≠ '-') (hplus : c ≠ '+') (s : List Char) :
    scanSign (c :: s) = (false, c :: s) := by
  unfold scanSign
  split
  · exact absurd (List.cons.inj ‹_›).1 hminus
  · exact absurd (List.cons.inj ‹_›).1 hplus
  · rfl

theorem scanSign_of_isDigit {c : Char} (h : c.isDigit = true) (s : List Char) :
    scanSign (c :: s) = (false, c :: s) := by
  refine scanSign_of_ne ?_ ?_ s
  · rintro rfl
    exact absurd h (by decide)
  · rintro rfl
    exact absurd h (by decide)

/-- Digits have no sign. -/
theorem scanSign_digits {ds : List Char} (h : ∀ c ∈ ds, c.isDigit = true) :
    scanSign ds = (false, ds) := by
  cases ds with
  | nil => rfl
  | cons c ds => exact scanSign_of_isDigit (h c (by simp)) ds

/-! ### Reading -/

theorem saturateLong_eq {n : ℤ} (hlow : -2 ^ 63 ≤ n) (hhigh : n < 2 ^ 63) : saturateLong n = n := by
  unfold saturateLong
  omega

theorem takeWhile_digits {ds : List Char} (h : ∀ c ∈ ds, c.isDigit = true) :
    ds.takeWhile Char.isDigit = ds :=
  List.takeWhile_eq_self_iff.mpr h

/-- Digits without a sign. -/
theorem strtol_digits {buffer : List UInt8} {ds : List Char} (h : ∀ c ∈ ds, c.isDigit = true)
    (hbuffer : cString buffer = ds.map fun c => UInt8.ofNat c.toNat) :
    strtol buffer = saturateLong (digitsValue ds) := by
  have hspace : ds.dropWhile isSpace = ds := by
    cases ds with
    | nil => rfl
    | cons c ds => rw [List.dropWhile_cons, isSpace_of_isDigit (h c (by simp))]; rfl
  unfold strtol
  rw [hbuffer, charsOfBytes_digits h]
  dsimp only
  rw [hspace, scanSign_digits h]
  show saturateLong (digitsValue (ds.takeWhile Char.isDigit)) = _
  rw [takeWhile_digits h]

/-- Digits after a minus. -/
theorem strtol_minus_digits {buffer : List UInt8} {ds : List Char}
    (h : ∀ c ∈ ds, c.isDigit = true)
    (hbuffer : cString buffer = 45 :: ds.map fun c => UInt8.ofNat c.toNat) :
    strtol buffer = saturateLong (-digitsValue ds) := by
  have hminus : (Char.ofNat (45 : UInt8).toNat) = '-' := by decide
  unfold strtol
  rw [hbuffer, List.map_cons, charsOfBytes_digits h, hminus]
  show saturateLong (-digitsValue (ds.takeWhile Char.isDigit)) = _
  rw [takeWhile_digits h]

/-! ### Reading a prefix -/

theorem takeWhile_prefix_mono {α : Type} {l l' : List α} (p : α → Bool) (h : l <+: l') :
    l.takeWhile p <+: l'.takeWhile p := by
  obtain ⟨more, rfl⟩ := h
  rw [List.takeWhile_append]
  split
  · rename_i hall
    rw [(List.takeWhile_prefix p).eq_of_length hall]
    exact List.prefix_append _ _
  · exact List.prefix_refl _

theorem digitsValue_mono {ds ds' : List Char} (h : ds <+: ds') :
    digitsValue ds ≤ digitsValue ds' := by
  obtain ⟨es, rfl⟩ := h
  have hpow : 10 ^ 0 ≤ 10 ^ es.length := Nat.pow_le_pow_right (by decide) (Nat.zero_le _)
  have hmul := Nat.mul_le_mul_right (digitsValue ds) hpow
  rw [digitsValue_append]
  omega

/-- What `strtol` reads after the white space. -/
def signedValue (s : List Char) : ℤ :=
  let (negative, s) := scanSign s
  let value : ℤ := digitsValue (s.takeWhile Char.isDigit)
  if negative then -value else value

theorem signedValue_prefix_le {s s' : List Char} (h : s <+: s') (hpos : 0 < signedValue s') :
    signedValue s ≤ signedValue s' := by
  have hdigits : ∀ {w w' : List Char}, w <+: w' → (digitsValue (w.takeWhile Char.isDigit) : ℤ) ≤
      digitsValue (w'.takeWhile Char.isDigit) := by
    intro w w' hw
    exact_mod_cast digitsValue_mono (takeWhile_prefix_mono _ hw)
  cases s with
  | nil => exact hpos.le
  | cons c w =>
    obtain ⟨w', rfl, hw⟩ : ∃ w', s' = c :: w' ∧ w <+: w' := by
      cases s' with
      | nil => exact absurd (List.prefix_nil.mp h) (by simp)
      | cons d w' =>
        obtain ⟨rfl, hw⟩ := List.cons_prefix_cons.mp h
        exact ⟨w', rfl, hw⟩
    by_cases hminus : c = '-'
    · subst hminus
      -- a number with a minus is not positive
      have hvalue : signedValue ('-' :: w') = -digitsValue (w'.takeWhile Char.isDigit) := rfl
      omega
    · by_cases hplus : c = '+'
      · subst hplus
        exact hdigits hw
      · unfold signedValue
        rw [scanSign_of_ne hminus hplus, scanSign_of_ne hminus hplus]
        exact hdigits h

/-- The first characters of a text with a positive number are those of a number not larger. -/
theorem strtol_prefix_le {text text' : List UInt8} (h : text' <+: text) (hpos : 0 < strtol text) :
    strtol text' ≤ strtol text := by
  have heq : ∀ buffer, strtol buffer = saturateLong (signedValue
      (((cString buffer).map fun b => Char.ofNat b.toNat).dropWhile isSpace)) := fun _ => rfl
  obtain ⟨more, hmore⟩ := (takeWhile_prefix_mono (· ≠ 0) h).map fun b => Char.ofNat b.toNat
  rw [heq] at hpos
  rw [heq, heq]
  unfold cString at hpos ⊢
  rw [← hmore, List.dropWhile_append] at hpos ⊢
  split at hpos
  · rename_i hempty
    rw [if_pos hempty, List.isEmpty_iff.mp hempty]
    exact hpos.le
  · rename_i hne
    rw [if_neg hne]
    have hsaturate : ∀ x y : ℤ, (0 < y → x ≤ y) → 0 < saturateLong y →
        saturateLong x ≤ saturateLong y := by
      unfold saturateLong
      intro x y hle hy
      have := hle (by omega)
      omega
    exact hsaturate _ _ (signedValue_prefix_le (List.prefix_append _ _)) hpos

/-! ### Reading a decimal text -/

/-- A decimal text has no zero byte. -/
theorem zero_not_mem_decimalText (n : ℤ) : 0 ∉ decimalText n := by
  unfold decimalText
  rw [List.mem_append, not_or]
  constructor
  · split <;> simp
  · rw [List.mem_map]
    rintro ⟨c, hc, hzero⟩
    have hbounds := isDigit_bounds (Nat.isDigit_of_mem_toDigits (by decide) (by decide) hc)
    have hbyte := congrArg UInt8.toNat hzero
    rw [UInt8.toNat_ofNat'] at hbyte
    have hmod : c.toNat % 2 ^ 8 = c.toNat := Nat.mod_eq_of_lt (by omega)
    rw [hmod] at hbyte
    simp at hbyte
    omega

theorem decimalText_natCast (n : ℕ) :
    decimalText n = (Nat.toDigits 10 n).map fun c => UInt8.ofNat c.toNat := by
  unfold decimalText
  rw [if_neg (by omega), List.nil_append, Int.natAbs_natCast]

/-- The first digits of a number are read as they stand. -/
theorem strtol_take_decimalText {n : ℕ} (hn : (n : ℤ) < 2 ^ 63) (m : ℕ) :
    strtol ((decimalText n).take m) = digitsValue ((Nat.toDigits 10 n).take m) := by
  have hdigits : ∀ c ∈ (Nat.toDigits 10 n).take m, c.isDigit = true := fun c => isDigit_of_mem_take
  have htext : cString ((decimalText n).take m) =
      ((Nat.toDigits 10 n).take m).map fun c => UInt8.ofNat c.toNat := by
    rw [cString_of_zero_not_mem fun h => zero_not_mem_decimalText n (List.mem_of_mem_take h),
      decimalText_natCast, List.map_take]
  rw [strtol_digits hdigits htext]
  have hle := digitsValue_mono (List.take_prefix m (Nat.toDigits 10 n))
  rw [digitsValue_toDigits] at hle
  exact saturateLong_eq (by omega) (by omega)

theorem strtol_decimalText {n : ℕ} (hn : (n : ℤ) < 2 ^ 63) : strtol (decimalText n) = n := by
  have h := strtol_take_decimalText hn (decimalText n).length
  rw [List.take_length, List.take_of_length_le (by rw [decimalText_natCast, List.length_map]),
    digitsValue_toDigits] at h
  exact h

/-- **Reading back** the first characters of a decimal text. -/
theorem strtol_decimalText_take {buffer : List UInt8} {n : ℤ} {m : ℕ} (hm : 2 ≤ m)
    (hbuffer : cString buffer = (decimalText n).take m) (hlow : -2 ^ 63 ≤ n) (hhigh : n < 2 ^ 63) :
    strtol buffer = n ∨
      (10 * (strtol buffer).natAbs ≤ n.natAbs ∧ 10 ^ (m - 1) ≤ n.natAbs) := by
  unfold decimalText at hbuffer
  by_cases hn : n < 0
  · -- a minus and one digit less
    obtain ⟨m, rfl⟩ : ∃ m', m = m' + 1 := ⟨m - 1, by omega⟩
    rw [if_pos hn, List.singleton_append, List.take_succ_cons, ← List.map_take] at hbuffer
    have hvalue := digitsValue_take n.natAbs (show 0 < m by omega)
    rw [strtol_minus_digits (fun c hc => isDigit_of_mem_take hc) hbuffer, saturateLong_eq (by omega)
      (by omega)]
    rcases hvalue with heq | ⟨hten, hlarge⟩
    · left
      omega
    · right
      rw [Int.natAbs_neg, Int.natAbs_natCast]
      exact ⟨hten, hlarge⟩
  · rw [if_neg hn, List.nil_append, ← List.map_take] at hbuffer
    have hvalue := digitsValue_take n.natAbs (show 0 < m by omega)
    rw [strtol_digits (fun c hc => isDigit_of_mem_take hc) hbuffer, saturateLong_eq (by omega)
      (by omega)]
    rcases hvalue with heq | ⟨hten, hlarge⟩
    · left
      omega
    · right
      rw [Int.natAbs_natCast]
      have hpow : 10 ^ (m - 1) ≤ 10 ^ m := Nat.pow_le_pow_right (by decide) (by omega)
      exact ⟨hten, hpow.trans hlarge⟩

/-- The text of a number near the one read is never cut down to the text it was read from. -/
theorem decimalText_take_ne {buffer : List UInt8} {k : ℤ} (hpos : 0 < k) (hk : k < 100)
    (hhigh : strtol buffer + k < 2 ^ 63) :
    cString buffer ≠ (decimalText (strtol buffer + k)).take 10 := by
  intro hbuffer
  have hlow : -2 ^ 63 ≤ strtol buffer := by
    unfold strtol saturateLong
    exact le_max_left _ _
  rcases strtol_decimalText_take (by decide) hbuffer (by omega) hhigh with h | ⟨hten, hlarge⟩
  · omega
  · omega

end IotDeviceSdk
