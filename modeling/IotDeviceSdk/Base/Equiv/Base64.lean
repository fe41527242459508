import IotDeviceSdk.Base.HmacSha256
import IotDeviceSdk.Base64.Basic
import IotDeviceSdk.Text.Search

/-!
# `base64_encode` and `base64_decode`

`base64_encode` is the standard encoding, and `base64_decode` takes it back.

* `base64Encode_encode`: the text of the result is `Base64.encode` of the bytes.
* `base64Decode_encode`: the block of the result holds the bytes and a terminator.
* `base64Encode_roundTrip`: a text that went through both functions is the same text.
-/

namespace IotDeviceSdk.Base

open Prog Base64

variable {env : Env}

/-! ### Encoding -/

theorem base64EncodeTable_eq {d : ℕ} (hd : d < 64) :
    base64EncodeTable[d]? = some (digitChar d) := by
  have hall : ∀ d < 64, base64EncodeTable[d]? = some (digitChar d) := by
    decide +kernel
  exact hall d hd

theorem base64EncodeTable_digit {x : UInt8} {n i : ℕ} (h : x.toNat = digit n i) :
    base64EncodeTable[x.toNat]? = some (digitChar (digit n i)) := by
  rw [h]
  exact base64EncodeTable_eq (digit_lt n i)

/-- The low bits of a byte. -/
theorem toNat_and_mask (x mask : UInt8) (k : ℕ) (hmask : mask.toNat = 2 ^ k - 1) :
    (x &&& mask).toNat = x.toNat % 2 ^ k := by
  rw [UInt8.toNat_and, hmask, Nat.and_two_pow_sub_one_eq_mod]

/-- **One round** of the loop writes the four digits of a group. -/
theorem base64EncodeGroups_cons (n : ℕ) (a b c : UInt8) (str : List UInt8) :
    base64EncodeGroups (n + 1) (a :: b :: c :: str) =
      (base64EncodeGroups n str).map fun res =>
        digitChar (digit (groupValue a b c) 3) :: digitChar (digit (groupValue a b c) 2) ::
          digitChar (digit (groupValue a b c) 1) ::
            digitChar (digit (groupValue a b c) 0) :: res := by
  have hb := b.toNat_lt
  have hc := c.toNat_lt
  have h₃ : (a >>> 2).toNat = digit (groupValue a b c) 3 := by
    rw [digit_three, toNat_shiftRight a (by decide)]
    rfl
  have h₂ : ((a &&& 0x3) <<< 4 ||| b >>> 4).toNat = digit (groupValue a b c) 2 := by
    rw [digit_two, toNat_shift_or_shift _ b (by decide) (by decide), toNat_and_mask a 0x3 2 rfl]
    · show a.toNat % 4 * 16 % 256 + b.toNat / 16 = a.toNat % 4 * 16 + b.toNat / 16
      omega
    · show b.toNat / 16 < 16
      omega
  have h₁ : ((b &&& 0xf) <<< 2 ||| c >>> 6).toNat = digit (groupValue a b c) 1 := by
    rw [digit_one, toNat_shift_or_shift _ c (by decide) (by decide), toNat_and_mask b 0xf 4 rfl]
    · show b.toNat % 16 * 4 % 256 + c.toNat / 64 = b.toNat % 16 * 4 + c.toNat / 64
      omega
    · show c.toNat / 64 < 4
      omega
  have h₀ : (c &&& 0x3f).toNat = digit (groupValue a b c) 0 := by
    rw [digit_zero, toNat_and_mask c 0x3f 6 rfl]
    rfl
  rw [base64EncodeGroups, base64EncodeTable_digit h₃, base64EncodeTable_digit h₂,
    base64EncodeTable_digit h₁, base64EncodeTable_digit h₀]
  cases base64EncodeGroups n str with
  | none => rfl
  | some res => rfl

/-- A group takes a round. -/
theorem rounds_cons (a b c : UInt8) (bytes : List UInt8) :
    ((a :: b :: c :: bytes).length + 2) / 3 = (bytes.length + 2) / 3 + 1 := by
  simp only [List.length_cons]
  omega

/-- What the loop of `base64_encode` leaves: the encoding, with other characters in the place of the
padding. -/
structure EncodesUpToPadding (bytes res : List UInt8) : Prop where
  length_eq : res.length = (encode bytes).length
  encode_eq : encode bytes =
    res.take (res.length - padding bytes) ++ List.replicate (padding bytes) pad

/-- **The loop** of `base64_encode`. -/
theorem base64EncodeGroups_encode (bytes : List UInt8) (past : UInt8) :
    ∃ res, base64EncodeGroups ((bytes.length + 2) / 3) (bytes ++ [0, past]) = some res ∧
      EncodesUpToPadding bytes res := by
  fun_induction encode bytes with
  -- the cases are the ends of `encode`: nothing, one byte, two bytes, a whole group
  | case1 => exact ⟨[], rfl, rfl, rfl⟩
  | case2 a n =>
    have hrounds : ([a].length + 2) / 3 = 0 + 1 := by simp
    -- the first two digits do not depend on what is behind the text
    have h₃ : digit (groupValue a 0 past) 3 = digit n 3 := by rw [digit_three, digit_three]
    have h₂ : digit (groupValue a 0 past) 2 = digit n 2 := by rw [digit_two, digit_two]
    rw [hrounds]
    refine ⟨_, base64EncodeGroups_cons 0 a 0 past [], by simp [encode], ?_⟩
    rw [h₃, h₂]
    simp [encode, padding, n]
  | case3 a b n =>
    have hrounds : ([a, b].length + 2) / 3 = 0 + 1 := by simp
    rw [hrounds]
    refine ⟨_, base64EncodeGroups_cons 0 a b 0 [past], by simp [encode], ?_⟩
    simp [encode, padding]
  | case4 a b c bytes n ih =>
    obtain ⟨res, hres, hlength, hencode⟩ := ih
    have htake : res.length + 4 - padding bytes = (res.length - padding bytes) + 4 := by
      rw [hlength, length_encode]
      unfold padding
      omega
    have hloop := base64EncodeGroups_cons ((bytes.length + 2) / 3) a b c (bytes ++ [0, past])
    rw [hres, Option.map_some] at hloop
    rw [rounds_cons]
    refine ⟨_, hloop, ?_, ?_⟩
    · simp only [encode, List.length_cons, hlength]
    · rw [padding_cons]
      simp only [encode, List.length_cons]
      rw [htake, hencode]
      rfl

/-- **The padding** is written over the last characters. -/
theorem EncodesUpToPadding.padded {bytes res : List UInt8} (h : EncodesUpToPadding bytes res)
    (hne : bytes ≠ []) : base64Pad bytes.length res = encode bytes := by
  have hpos := List.length_pos_iff.mpr hne
  have hlength := h.length_eq
  have hmod := Nat.mod_lt bytes.length (show 3 > 0 by decide)
  rw [length_encode] at hlength
  rw [h.encode_eq]
  unfold base64Pad padding
  match hrest : bytes.length % 3 with
  | 0 => simp
  | 1 =>
    -- two characters are replaced
    obtain ⟨before, x, y, rfl⟩ : ∃ before x y, res = before ++ [x, y] := by
      have htwo : (res.drop (res.length - 2)).length = 2 := by
        rw [List.length_drop]
        omega
      obtain ⟨x, y, hxy⟩ := List.length_eq_two.mp htwo
      exact ⟨res.take (res.length - 2), x, y, by rw [← hxy, List.take_append_drop]⟩
    simp [pad]
  | 2 =>
    show res.set (res.length - 1) 61 = res.take (res.length - 1) ++ [61]
    rw [List.set_eq_take_append_cons_drop, if_pos (by omega), List.drop_of_length_le (by omega)]
  | k + 3 => omega

/-- **`base64_encode` is the standard encoding** of a text that is not empty. -/
theorem base64Encode_encode (str : CString) (past : UInt8) (hne : str.bytes ≠ []) :
    Returns env (base64Encode str past) fun code =>
      (∀ block, code = some block → block.text = encode str.bytes) ∧
        (env.AllocsSucceed → code ≠ none) := by
  have hpos := List.length_pos_iff.mpr hne
  obtain ⟨res, hres, hencodes⟩ := base64EncodeGroups_encode str.bytes past
  have hlen : (if str.bytes.length % 3 = 0 then str.bytes.length / 3 * 4
      else (str.bytes.length / 3 + 1) * 4) = (str.bytes.length + 2) / 3 * 4 := by
    split <;> omega
  have hrounds : ((str.bytes.length + 2) / 3 * 4 + 1) / 4 = (str.bytes.length + 2) / 3 := by omega
  unfold base64Encode
  dsimp only
  rw [hlen, hrounds, hres, if_neg (by omega)]
  refine returns_allocated (by simp) (returns_pure ⟨?_, by simp⟩)
  rintro _ ⟨⟩
  rw [hencodes.padded hne]
  exact CharBlock.text_ofBytes (zero_not_mem_encode _)

/-! ### Decoding -/

theorem base64Table_eq {d : ℕ} (hd : d < 64) :
    base64Table[(digitChar d).toNat]? = some (UInt8.ofNat d) := by
  have hall : ∀ d < 64, base64Table[(digitChar d).toNat]? = some (UInt8.ofNat d) := by
    decide +kernel
  exact hall d hd

theorem base64Table_pad {n i : ℕ} (h : digit n i = 0) :
    base64Table[pad.toNat]? = some (UInt8.ofNat (digit n i)) := by
  rw [h]
  decide +kernel

/-- **One round** of the loop joins the bytes of a group. -/
theorem base64Groups_cons {a b c : UInt8} {c₀ c₁ c₂ c₃ : UInt8}
    (h₀ : base64Table[c₀.toNat]? = some (UInt8.ofNat (digit (groupValue a b c) 3)))
    (h₁ : base64Table[c₁.toNat]? = some (UInt8.ofNat (digit (groupValue a b c) 2)))
    (h₂ : base64Table[c₂.toNat]? = some (UInt8.ofNat (digit (groupValue a b c) 1)))
    (h₃ : base64Table[c₃.toNat]? = some (UInt8.ofNat (digit (groupValue a b c) 0)))
    (n : ℕ) (code : List UInt8) :
    base64Groups (n + 1) (c₀ :: c₁ :: c₂ :: c₃ :: code) =
      (base64Groups n code).map fun res => a :: b :: c :: res := by
  rw [base64Groups, h₀, h₁, h₂, h₃]
  simp only [Option.bind_eq_bind, Option.bind_some, firstByte_digits, secondByte_digits,
    thirdByte_digits]
  cases base64Groups n code with
  | none => rfl
  | some res => rfl

/-- **The loop** of `base64_decode` on an encoding. -/
theorem base64Groups_encode (bytes rest : List UInt8) :
    base64Groups ((bytes.length + 2) / 3) (encode bytes ++ rest) =
      some (bytes ++ List.replicate (padding bytes) 0) := by
  have hchar : ∀ n i,
      base64Table[(digitChar (digit n i)).toNat]? = some (UInt8.ofNat (digit n i)) :=
    fun n i => base64Table_eq (digit_lt n i)
  fun_induction encode bytes with
  | case1 => rfl
  | case2 a n =>
    have hrounds : ([a].length + 2) / 3 = 0 + 1 := by simp
    -- the table has zero for `=`, as for the digits that come from zeros
    have h₁ : digit n 1 = 0 := digit_one a 0 0
    have h₀ : digit n 0 = 0 := digit_zero a 0 0
    rw [hrounds]
    exact base64Groups_cons (hchar n 3) (hchar n 2) (base64Table_pad h₁) (base64Table_pad h₀) 0 rest
  | case3 a b n =>
    have hrounds : ([a, b].length + 2) / 3 = 0 + 1 := by simp
    have h₀ : digit n 0 = 0 := digit_zero a b 0
    rw [hrounds]
    exact base64Groups_cons (hchar n 3) (hchar n 2) (hchar n 1) (base64Table_pad h₀) 0 rest
  | case4 a b c bytes n ih =>
    have hround := base64Groups_cons (hchar n 3) (hchar n 2) (hchar n 1) (hchar n 0)
      ((bytes.length + 2) / 3) (encode bytes ++ rest)
    rw [ih, Option.map_some] at hround
    rw [rounds_cons, padding_cons]
    exact hround

/-- The padding of an encoding is recognised. -/
theorem infix_encode_iff (bytes : List UInt8) (pat : List UInt8) :
    pad :: pat <:+: encode bytes ↔ pad :: pat <:+: List.replicate (padding bytes) pad := by
  obtain ⟨digits, hdigits, hencode⟩ := encode_shape bytes
  rw [hencode]
  apply Text.infix_append_of_not_mem
  rw [List.mem_map]
  rintro ⟨d, hd, hpad⟩
  exact digitChar_ne_pad (hdigits d hd) hpad

theorem padding_encode (bytes : List UInt8) [Decidable (ascii "==" <:+: encode bytes)]
    [Decidable (ascii "=" <:+: encode bytes)] :
    (if ascii "==" <:+: encode bytes then 2 else if ascii "=" <:+: encode bytes then 1 else 0 : ℤ) =
      padding bytes := by
  have hcases : padding bytes = 0 ∨ padding bytes = 1 ∨ padding bytes = 2 := by
    unfold padding
    omega
  have htwo : ascii "==" <:+: encode bytes ↔ _ := infix_encode_iff bytes [pad]
  have hone : ascii "=" <:+: encode bytes ↔ _ := infix_encode_iff bytes []
  -- the digits have no `=`, so the search in the whole text finds the padding only
  rcases hcases with h | h | h
  · rw [h] at htwo hone ⊢
    rw [if_neg (htwo.not.mpr (by decide)), if_neg (hone.not.mpr (by decide))]
    rfl
  · rw [h] at htwo hone ⊢
    rw [if_neg (htwo.not.mpr (by decide)), if_pos (hone.mpr (by decide))]
    rfl
  · rw [h] at htwo ⊢
    rw [if_pos (htwo.mpr (by decide))]
    rfl

/-- **`base64_decode` takes an encoding back**: the block of its result holds the bytes and a
terminator. -/
theorem base64Decode_encode {bytes : List UInt8} (hne : bytes ≠ []) {code : CharBlock}
    (hcode : code.text = encode bytes) :
    Returns env (base64Decode code) fun res =>
      (∀ block, res = some block → block.bytes = bytes ++ [0]) ∧
        (env.AllocsSucceed → res ≠ none) := by
  have hpos := List.length_pos_iff.mpr hne
  have hlen := length_encode bytes
  have hrounds : ((encode bytes).length + 1) / 4 = (bytes.length + 2) / 3 := by omega
  have hstr : (((encode bytes).length / 4 * 3 : ℕ) : ℤ) - padding bytes = bytes.length := by
    unfold padding
    omega
  -- the zeros of the last group are where the terminator is
  have hres : (bytes ++ List.replicate (padding bytes) 0 ++ [0]).take (bytes.length + 1) =
      bytes ++ [0] := by
    rw [List.append_assoc, ← List.replicate_succ', List.replicate_succ,
      List.take_length_add_append]
    rfl
  unfold base64Decode
  rw [hcode]
  dsimp only
  rw [padding_encode, hstr, hrounds, base64Groups_encode, if_neg (by omega)]
  refine returns_allocated (by simp) ?_
  have hzero : (0 : UInt8) ∈ bytes ++ [0] := by simp
  rw [if_neg (by omega)]
  refine Returns.bind (returns_pure rfl) ?_
  rintro _ rfl
  simp only [Int.toNat_natCast, hres, hzero, dif_pos]
  exact returns_pure ⟨by simp, by simp⟩

/-- A text that went through both functions. -/
structure RoundTrip (env : Env) (bytes : List UInt8) (code : CharBlock) : Prop where
  encode_eq : code.text = encode bytes
  decode_eq : Returns env (base64Decode code) fun res =>
    (∀ block, res = some block → block.text = bytes) ∧ (env.AllocsSucceed → res ≠ none)

/-- **The round trip** of a text that is not empty. -/
theorem base64Encode_roundTrip (env : Env) (str : CString) (past : UInt8) (hne : str.bytes ≠ []) :
    Returns env (base64Encode str past) fun code =>
      (∀ block, code = some block → RoundTrip env str.bytes block) ∧
        (env.AllocsSucceed → code ≠ none) := by
  refine (base64Encode_encode str past hne).mono fun code hcode => ⟨?_, hcode.2⟩
  intro block hblock
  have hencode := hcode.1 block hblock
  refine ⟨hencode, (base64Decode_encode hne hencode).mono fun res hres => ⟨?_, hres.2⟩⟩
  intro decoded hdecoded
  rw [CharBlock.text, hres.1 decoded hdecoded]
  exact cString_append_zero str.zero_not_mem

/-- A text whose last group has one byte. -/
theorem base64Encode_roundTrip_foob :
    Returns Env.plentiful (base64Encode ⟨ascii "foob", by decide⟩ 7) fun code =>
      ∃ block, code = some block ∧ block.text = ascii "Zm9vYg==" ∧
        RoundTrip Env.plentiful (ascii "foob") block := by
  refine (base64Encode_roundTrip Env.plentiful ⟨ascii "foob", by decide⟩ 7 (by decide)).mono ?_
  rintro code ⟨htrip, hsome⟩
  obtain ⟨block, rfl⟩ := Option.ne_none_iff_exists'.mp (hsome Env.plentiful_allocsSucceed)
  have hencode : encode (ascii "foob") = ascii "Zm9vYg==" := by decide +kernel
  exact ⟨block, rfl, (htrip block rfl).encode_eq.trans hencode, htrip block rfl⟩

end IotDeviceSdk.Base
