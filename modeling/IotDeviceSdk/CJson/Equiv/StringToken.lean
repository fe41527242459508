import IotDeviceSdk.CJson.Equiv.Utf8

/-!
# The tokens of a string

`Token text bytes` says what a token of a JSON string looks like and what it is decoded to.  The
parser takes one text more, which is no token (`Malformed`): four bytes behind `\u` that are no
hexadecimal digits stand for the character 0.

* `stringToken_cases`: a round of the loop of `parse_string` stays inside its input, and it takes a
  token or fails.
* `stringToken_of_token`: it takes every token in front of it.
-/

namespace IotDeviceSdk.Json

/-- The text of a token, and the bytes it is decoded to. -/
inductive Token : List UInt8 → List UInt8 → Prop where
  | byte {b : UInt8} : b ≠ 92 → Token [b] [b]
  | escape {e b : UInt8} : escapedByte e = some b → Token [92, e] [b]
  | unit {digits : List UInt8} {c : Char} : digits.length = 4 → hexValue digits = some c.toNat →
    Token (92 :: 117 :: digits) (String.utf8EncodeChar c)
  | pair {digits digits' : List UInt8} {high low : ℕ} {c : Char} :
    digits.length = 4 → digits'.length = 4 →
    hexValue digits = some high → hexValue digits' = some low →
    0xD800 ≤ high ∧ high ≤ 0xDBFF → 0xDC00 ≤ low ∧ low ≤ 0xDFFF →
    c.toNat = 0x10000 + (high - 0xD800) * 0x400 + (low - 0xDC00) →
    Token (92 :: 117 :: digits ++ 92 :: 117 :: digits') (String.utf8EncodeChar c)

/-- Four bytes that are no hexadecimal digits behind `\u`. -/
def Malformed (text : List UInt8) : Prop :=
  ∃ digits : List UInt8, text = 92 :: 117 :: digits ∧ digits.length = 4 ∧ hexValue digits = none

/-- What the parser takes for a token. -/
def Taken (text bytes : List UInt8) : Prop := Token text bytes ∨ Malformed text ∧ bytes = [0]

/-! ### Characters -/

theorem hexValue_lt {digits : List UInt8} (h : digits.length = 4) {code : ℕ}
    (hcode : hexValue digits = some code) : code < 0x10000 := by
  obtain ⟨a, b, c, d, rfl⟩ := List.length_eq_four.mp h
  unfold hexValue at hcode
  simp only [List.foldlM_cons, List.foldlM_nil, Option.bind_eq_bind, Option.bind_eq_some_iff,
    Option.map_eq_some_iff, Option.pure_def] at hcode
  obtain ⟨_, ⟨a', ha, rfl⟩, _, ⟨b', hb, rfl⟩, _, ⟨c', hc, rfl⟩, _, ⟨d', hd, rfl⟩, hsum⟩ := hcode
  have ha' := hexDigitValue_lt ha
  have hb' := hexDigitValue_lt hb
  have hc' := hexDigitValue_lt hc
  have hd' := hexDigitValue_lt hd
  have heq := Option.some.inj hsum
  omega

/-- A codepoint that is no surrogate is a character. -/
theorem exists_char {code : ℕ} (h : code < 0xD800 ∨ 0xDFFF < code ∧ code < 0x110000) :
    ∃ c : Char, c.toNat = code := by
  refine ⟨Char.ofNat code, ?_⟩
  rw [Char.ofNat, dif_pos h]
  rfl

theorem not_surrogate (c : Char) : ¬(0xD800 ≤ c.toNat ∧ c.toNat ≤ 0xDFFF) := by
  intro hc
  rcases c.valid with h | h
  · have hlt : c.toNat < 0xD800 := h
    omega
  · have hlt : 0xDFFF < c.toNat := h.1
    omega

/-! ### UTF-16 literals -/

section Literal

variable {digits rest : List UInt8}

theorem utf16_first (h : digits.length = 4) :
    utf16LiteralToUtf8 (92 :: 117 :: (digits ++ rest)) =
      if 0xDC00 ≤ (hexValue digits).getD 0 ∧ (hexValue digits).getD 0 ≤ 0xDFFF then some (0, [])
      else if 0xD800 ≤ (hexValue digits).getD 0 ∧ (hexValue digits).getD 0 ≤ 0xDBFF then
        if rest.length < 6 then some (0, [])
        else if rest[0]? ≠ some 92 ∨ rest[1]? ≠ some 117 then some (0, [])
        else
          (parseHex4 (rest.drop 2)).bind fun second_code =>
          if second_code < 0xDC00 ∨ 0xDFFF < second_code then some (0, [])
          else some (encodeUtf8 12 (surrogatePair ((hexValue digits).getD 0) second_code))
      else some (encodeUtf8 6 ((hexValue digits).getD 0)) := by
  have hsecond : (92 :: 117 :: (digits ++ rest)).drop 6 = rest := by
    show (digits ++ rest).drop 4 = rest
    rw [← h]
    exact List.drop_left
  unfold utf16LiteralToUtf8
  rw [if_neg (by simp only [List.length_cons, List.length_append]; omega), hsecond,
    show (92 :: 117 :: (digits ++ rest)).drop 2 = digits ++ rest from rfl, parseHex4_append h,
    Option.bind_some]

theorem utf16_unit (h : digits.length = 4) {c : Char} (hc : hexValue digits = some c.toNat) :
    utf16LiteralToUtf8 (92 :: 117 :: (digits ++ rest)) = some (6, String.utf8EncodeChar c) := by
  have hsurrogate := not_surrogate c
  rw [utf16_first h, hc, Option.getD_some, if_neg (by omega), if_neg (by omega), encodeUtf8_eq]

theorem utf16_malformed (h : digits.length = 4) (hnone : hexValue digits = none) :
    utf16LiteralToUtf8 (92 :: 117 :: (digits ++ rest)) = some (6, [0]) := by
  rw [utf16_first h, hnone, Option.getD_none, if_neg (by decide), if_neg (by decide)]
  decide

theorem utf16_pair (h : digits.length = 4) {high : ℕ} (hhigh : hexValue digits = some high)
    (hrange : 0xD800 ≤ high ∧ high ≤ 0xDBFF) {digits' : List UInt8} (h' : digits'.length = 4)
    {low : ℕ} (hlow : hexValue digits' = some low) (hrange' : 0xDC00 ≤ low ∧ low ≤ 0xDFFF)
    {c : Char} (hc : c.toNat = 0x10000 + (high - 0xD800) * 0x400 + (low - 0xDC00)) :
    utf16LiteralToUtf8 (92 :: 117 :: (digits ++ 92 :: 117 :: (digits' ++ rest))) =
      some (12, String.utf8EncodeChar c) := by
  rw [utf16_first h, hhigh, Option.getD_some, if_neg (by omega), if_pos hrange,
    if_neg (by simp only [List.length_cons, List.length_append]; omega), if_neg (by simp),
    show (92 :: 117 :: (digits' ++ rest)).drop 2 = digits' ++ rest from rfl, parseHex4_append h',
    Option.bind_some, hlow, Option.getD_some, if_neg (by omega), surrogatePair_eq hrange hrange',
    ← hc, encodeUtf8_eq]

end Literal

/-- **What `utf16_literal_to_utf8` does** with the bytes up to the end of a string. -/
theorem utf16_cases (s : List UInt8) :
    utf16LiteralToUtf8 (92 :: 117 :: s) = some (0, []) ∨
      ∃ text rest bytes, 92 :: 117 :: s = text ++ rest ∧ Taken text bytes ∧ 0 < text.length ∧
        utf16LiteralToUtf8 (92 :: 117 :: s) = some (text.length, bytes) := by
  by_cases hshort : s.length < 4
  · refine .inl (if_pos ?_)
    simp only [List.length_cons]
    omega
  -- the first unit
  obtain ⟨digits, rest, rfl, hdigits⟩ : ∃ digits rest, s = digits ++ rest ∧ digits.length = 4 :=
    ⟨s.take 4, s.drop 4, (List.take_append_drop 4 s).symm, by rw [List.length_take]; omega⟩
  cases hvalue : hexValue digits with
  | none =>
    refine .inr ⟨92 :: 117 :: digits, rest, [0], rfl, .inr ⟨⟨digits, rfl, hdigits, hvalue⟩, rfl⟩,
      by simp, ?_⟩
    rw [utf16_malformed hdigits hvalue, List.length_cons, List.length_cons, hdigits]
  | some code =>
    have hcode := hexValue_lt hdigits hvalue
    by_cases hlowFirst : 0xDC00 ≤ code ∧ code ≤ 0xDFFF
    · left
      rw [utf16_first hdigits, hvalue, Option.getD_some, if_pos hlowFirst]
    by_cases hhigh : 0xD800 ≤ code ∧ code ≤ 0xDBFF
    · -- the second one
      rw [utf16_first hdigits, hvalue, Option.getD_some, if_neg hlowFirst, if_pos hhigh]
      by_cases hlength : rest.length < 6
      · exact .inl (if_pos hlength)
      obtain ⟨a, b, digits', rest', rfl, hdigits'⟩ : ∃ a b digits' rest',
          rest = a :: b :: (digits' ++ rest') ∧ digits'.length = 4 := by
        obtain _ | ⟨a, _ | ⟨b, rest⟩⟩ := rest
        · exact absurd (by decide) hlength
        · exact absurd (by simp) hlength
        · simp only [List.length_cons] at hlength
          exact ⟨a, b, rest.take 4, rest.drop 4, by rw [List.take_append_drop],
            by rw [List.length_take]; omega⟩
      rw [if_neg hlength]
      by_cases hab : a = 92 ∧ b = 117
      · obtain ⟨rfl, rfl⟩ := hab
        rw [if_neg (by simp),
          show (92 :: 117 :: (digits' ++ rest')).drop 2 = digits' ++ rest' from rfl,
          parseHex4_append hdigits', Option.bind_some]
        by_cases hout : (hexValue digits').getD 0 < 0xDC00 ∨ 0xDFFF < (hexValue digits').getD 0
        · exact .inl (if_pos hout)
        · have hrange : 0xDC00 ≤ (hexValue digits').getD 0 ∧ (hexValue digits').getD 0 ≤ 0xDFFF := by
            omega
          cases hvalue' : hexValue digits' with
          | none =>
            rw [hvalue'] at hrange
            exact absurd hrange.1 (by decide)
          | some low =>
            rw [hvalue', Option.getD_some] at hrange hout
            obtain ⟨c, hc⟩ := @exists_char (0x10000 + (code - 0xD800) * 0x400 + (low - 0xDC00))
              (.inr (by omega))
            refine .inr ⟨92 :: 117 :: digits ++ 92 :: 117 :: digits', rest',
              String.utf8EncodeChar c, by simp,
              .inl (.pair hdigits hdigits' hvalue hvalue' hhigh hrange hc), by simp, ?_⟩
            rw [Option.getD_some, if_neg hout, surrogatePair_eq hhigh hrange, ← hc, encodeUtf8_eq]
            simp [hdigits, hdigits']
      · refine .inl (if_pos ?_)
        by_contra hhead
        apply hab
        simpa using hhead
    · obtain ⟨c, rfl⟩ := @exists_char code (by omega)
      refine .inr ⟨92 :: 117 :: digits, rest, _, rfl, .inl (.unit hdigits hvalue), by simp, ?_⟩
      rw [utf16_unit hdigits hvalue, List.length_cons, List.length_cons, hdigits]

/-! ### One round of the loop -/

theorem Taken.length_pos {text bytes : List UInt8} (h : Taken text bytes) : 0 < text.length := by
  rcases h with h | ⟨⟨digits, rfl, -, -⟩, -⟩
  · cases h <;> simp
  · simp

section Round

variable {b e : UInt8} {s : List UInt8} {left : ℕ}

theorem stringToken_byte (hb : b ≠ 92) : stringToken (b :: s) left = some (some (1, [b])) :=
  if_pos hb

theorem stringToken_escape (he : escapedByte e = some b) :
    stringToken (92 :: e :: s) left = some (some (2, [b])) := by
  simp only [stringToken, ne_eq, not_true_eq_false, if_false, he]

theorem stringToken_other (he : escapedByte e = none) (hu : e ≠ 117) :
    stringToken (92 :: e :: s) left = some none := by
  simp only [stringToken, ne_eq, not_true_eq_false, if_false, he]
  exact if_pos hu

theorem stringToken_unicode :
    stringToken (92 :: 117 :: s) left =
      (utf16LiteralToUtf8 ((92 :: 117 :: s).take left)).map fun r =>
        if r.1 = 0 then none else some r :=
  rfl

end Round

/-- **A round of the loop of `parse_string`**: it is defined while the end of the string lies inside
the input, and it takes a token or fails. -/
theorem stringToken_cases {input : List UInt8} {left : ℕ} (hleft : 0 < left)
    (hlength : left < input.length) :
    stringToken input left = some none ∨
      ∃ text rest bytes, input = text ++ rest ∧ Taken text bytes ∧
        (text.length ≤ left ∨ text.length = 2 ∧ left = 1) ∧
        stringToken input left = some (some (text.length, bytes)) := by
  obtain _ | ⟨c, _ | ⟨e, s⟩⟩ := input
  · exact absurd hlength (by simp)
  · simp only [List.length_singleton] at hlength
    omega
  by_cases hc : c = 92
  · subst hc
    cases he : escapedByte e with
    | some b =>
      refine .inr ⟨[92, e], s, [b], rfl, .inl (.escape he), ?_, stringToken_escape he⟩
      show 2 ≤ left ∨ 2 = 2 ∧ left = 1
      omega
    | none =>
      by_cases hu : e = 117
      · subst hu
        rw [stringToken_unicode]
        by_cases hone : left = 1
        · left
          subst hone
          rfl
        · obtain ⟨n, rfl⟩ : ∃ n, left = n + 2 := ⟨left - 2, by omega⟩
          rw [show (92 :: 117 :: s).take (n + 2) = 92 :: 117 :: s.take n from rfl]
          rcases utf16_cases (s.take n) with hfail | ⟨text, rest, bytes, htext, htoken, hpos, heq⟩
          · left
            rw [hfail]
            rfl
          · right
            have hshort : text.length ≤ n + 2 := by
              have hlen := congrArg List.length htext
              simp only [List.length_cons, List.length_append, List.length_take] at hlen
              omega
            refine ⟨text, rest ++ s.drop n, bytes, ?_, htoken, .inl hshort, ?_⟩
            · rw [← List.append_assoc, ← htext]
              simp
            · rw [heq, Option.map_some, if_neg (show ¬text.length = 0 by omega)]
      · exact .inl (stringToken_other he hu)
  · exact .inr ⟨[c], e :: s, [c], rfl, .inl (.byte hc), .inl hleft, stringToken_byte hc⟩

/-- **Every token in front of the loop is taken.** -/
theorem stringToken_of_token {text bytes : List UInt8} (h : Token text bytes) {left : ℕ}
    (hleft : text.length ≤ left) (rest : List UInt8) :
    stringToken (text ++ rest) left = some (some (text.length, bytes)) := by
  have htake : ∀ text' : List UInt8, text'.length ≤ left →
      (text' ++ rest).take left = text' ++ rest.take (left - text'.length) := by
    intro text' htext'
    rw [List.take_append, List.take_of_length_le htext']
  cases h with
  | byte hb => exact stringToken_byte hb
  | escape he => exact stringToken_escape he
  | @unit digits c hdigits hvalue =>
    show stringToken (92 :: 117 :: (digits ++ rest)) left = _
    rw [stringToken_unicode, show 92 :: 117 :: (digits ++ rest) = 92 :: 117 :: digits ++ rest from rfl,
      htake _ hleft]
    show Option.map _ (utf16LiteralToUtf8 (92 :: 117 :: (digits ++ _))) = _
    rw [utf16_unit hdigits hvalue]
    simp [hdigits]
  | @pair digits digits' high low c hdigits hdigits' hhigh hlow hrange hrange' hc =>
    show stringToken (92 :: 117 :: (digits ++ 92 :: 117 :: digits' ++ rest)) left = _
    rw [stringToken_unicode, show 92 :: 117 :: (digits ++ 92 :: 117 :: digits' ++ rest) =
      92 :: 117 :: digits ++ 92 :: 117 :: digits' ++ rest from rfl, htake _ hleft]
    generalize rest.take _ = rest'
    rw [show 92 :: 117 :: digits ++ 92 :: 117 :: digits' ++ rest' =
      92 :: 117 :: (digits ++ 92 :: 117 :: (digits' ++ rest')) by simp]
    rw [utf16_pair hdigits hhigh hrange hdigits' hlow hrange' hc]
    simp [hdigits, hdigits']

end IotDeviceSdk.Json
