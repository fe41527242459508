import IotDeviceSdk.Base.Equiv.HmacSha256

/-!
# Time stamps as keys of `EncryptWithHMac`

The key is a time stamp of ten digits, so that each of the hundred keys has ten digits as well
(`keyAt_timestamp`).

* `encryptWithHMac_timestamp`: the result is the digest keyed by the first of these texts whose
  digest has no zero byte.
-/

namespace IotDeviceSdk.Base

variable {hmacs : Hmacs} {hmac : Hmac} {data : List UInt8} {block : CharBlock} {checkTimestamp : ℤ}
  {ts : ℕ}

/-! ### Texts of ten digits -/

/-- The number of the digits of a number of ten digits. -/
theorem length_decimalText {n : ℕ} (hlow : 10 ^ 9 ≤ n) (hhigh : n < 10 ^ 10) :
    (decimalText n).length = TIME_STAMP_LENGTH := by
  have hle : (Nat.toDigits 10 n).length ≤ 10 :=
    (Nat.length_toDigits_le_iff (by decide) (by decide)).mpr hhigh
  have hlt : ¬(Nat.toDigits 10 n).length ≤ 9 := by
    rw [Nat.length_toDigits_le_iff (by decide) (by decide)]
    omega
  rw [decimalText_natCast, List.length_map]
  unfold TIME_STAMP_LENGTH
  omega

/-- A block starts with its text and a terminator. -/
theorem bytes_eq_text_append (block : CharBlock) :
    ∃ rest, block.bytes = block.text ++ 0 :: rest := by
  have hsplit := List.takeWhile_append_dropWhile (p := (· ≠ 0)) (l := block.bytes)
  cases hrest : block.bytes.dropWhile (· ≠ 0) with
  | nil =>
    -- the text does not go to the end
    rw [hrest, List.append_nil] at hsplit
    have hzero := block.zero_mem
    rw [← hsplit] at hzero
    exact absurd hzero block.zero_not_mem_text
  | cons c rest =>
    have hhead := List.head?_dropWhile_not (fun c : UInt8 => decide (c ≠ 0)) block.bytes
    rw [hrest] at hhead hsplit
    obtain rfl : c = 0 := by simpa using hhead
    exact ⟨rest, hsplit.symm⟩

theorem strtol_text (block : CharBlock) : strtol block.bytes = strtol block.text := by
  have htext : cString block.text = cString block.bytes :=
    cString_of_zero_not_mem block.zero_not_mem_text
  unfold strtol
  rw [htext]

/-! ### The keys -/

/-- A block that holds a number of ten digits. -/
structure HoldsTimestamp (block : CharBlock) (n : ℕ) : Prop where
  low : 10 ^ 9 ≤ n
  high : n < 10 ^ 10
  text : block.text = decimalText n

theorem HoldsTimestamp.firstBytes (h : HoldsTimestamp block ts) :
    block.firstBytes TIME_STAMP_LENGTH = some (decimalText ts) := by
  obtain ⟨rest, hbytes⟩ := bytes_eq_text_append block
  have hlength := length_decimalText h.low h.high
  rw [h.text] at hbytes
  have hroom : TIME_STAMP_LENGTH ≤ block.bytes.length := by
    rw [hbytes, List.length_append, hlength]
    omega
  rw [CharBlock.firstBytes, if_pos hroom, hbytes, ← hlength, List.take_left]

/-- The next number is printed over the old one. -/
theorem HoldsTimestamp.print (h : HoldsTimestamp block ts) {n : ℕ} (hlow : 10 ^ 9 ≤ n)
    (hhigh : n < 10 ^ 10) :
    ∃ block', block.snprintfS (TIME_STAMP_LENGTH + 1) TIME_STAMP_LENGTH (decimalText n) =
        some block' ∧ HoldsTimestamp block' n := by
  obtain ⟨rest, hbytes⟩ := bytes_eq_text_append block
  have hlength := length_decimalText hlow hhigh
  have hroom : min (decimalText n).length TIME_STAMP_LENGTH < block.bytes.length := by
    rw [hbytes, List.length_append, h.text, length_decimalText h.low h.high, hlength]
    simp
  refine ⟨_, if_pos hroom, hlow, hhigh, ?_⟩
  rw [CharBlock.text_of_snprintfS (if_pos hroom) (by decide) (zero_not_mem_decimalText n),
    ← hlength, List.take_length]

/-- **The keys are the time stamps** from the first one on. -/
theorem keyAt_timestamp (checkTimestamp : ℤ) (h : HoldsTimestamp block ts) {k : ℕ}
    (hk : ts + k < 10 ^ 10) :
    ∃ inputKey, keyAt block checkTimestamp k = some (inputKey, decimalText (ts + k : ℕ)) ∧
      HoldsTimestamp inputKey (ts + k) := by
  have htime : strtol block.bytes = ts := by
    have hhigh := h.high
    rw [strtol_text, h.text, strtol_decimalText (by omega)]
  induction k with
  | zero =>
    refine ⟨block, ?_, h⟩
    have hfirst : firstKey block checkTimestamp = some (decimalText ts) := by
      rw [firstKey, h.firstBytes, h.text, ite_self]
    rw [keyAt, hfirst]
    rfl
  | succ k ih =>
    obtain ⟨inputKey, hkey, hholds⟩ := ih (by omega)
    have hlow := h.low
    obtain ⟨inputKey', hprint, hholds'⟩ :=
      hholds.print (n := ts + (k + 1)) (by omega) hk
    refine ⟨inputKey', ?_, hholds'⟩
    -- the next number does not overflow, and has ten digits too
    have hnext : nextLong (strtol block.bytes + k) = some ((ts + (k + 1) : ℕ) : ℤ) := by
      rw [htime, nextLong, if_pos (by omega)]
      push_cast
      rw [add_assoc]
    rw [keyAt, hkey, Option.bind_eq_bind, Option.bind_some]
    dsimp only
    rw [hnext, Option.bind_eq_bind, Option.bind_some, hprint, Option.bind_eq_bind, Option.bind_some,
      hholds'.firstBytes]
    rfl

/-! ### The digests -/

/-- A digest looks short when it has a zero byte. -/
theorem looksShort_iff {digest : List UInt8} (hlength : digest.length = SHA256_ENCRYPTION_LENGRH) :
    looksShort digest = true ↔ 0 ∈ digest := by
  unfold looksShort
  rw [decide_eq_true_iff]
  by_cases hzero : 0 ∈ digest
  · refine iff_of_true ?_ hzero
    obtain ⟨before, after, rfl, hbefore⟩ := List.eq_append_cons_of_mem hzero
    have htext : cString (before ++ 0 :: after ++ List.replicate 32 0) = before := by
      rw [List.append_assoc]
      exact cString_append_zero hbefore
    rw [htext]
    rw [List.length_append, List.length_cons] at hlength
    omega
  · refine iff_of_false (fun hne => hne ?_) hzero
    have htext : cString (digest ++ List.replicate 32 0) = digest := cString_append_zero hzero
    rw [htext, hlength]

/-- The loop ends when there is a key for each try. -/
theorem tryKeys_defined (hmac : Hmac) (data : List UInt8) {tries k : ℕ} {inputKey : CharBlock}
    {key : List UInt8} (hkey : keyAt block checkTimestamp k = some (inputKey, key))
    (hkeys : ∀ j ≤ k + tries, ∃ next, keyAt block checkTimestamp j = some next) :
    ∃ r, tryKeys hmac data tries (strtol block.bytes + k) inputKey (hmac.digest key data) =
      some r := by
  induction tries generalizing k inputKey key with
  | zero =>
    rw [tryKeys]
    split
    · exact ⟨_, rfl⟩
    · exact ⟨_, rfl⟩
  | succ tries ih =>
    -- a digest that looks short is followed by the next key
    cases hshort : looksShort (hmac.digest key data) with
    | true =>
      obtain ⟨⟨inputKey₁, key₁⟩, hkey₁⟩ := hkeys (k + 1) (by omega)
      rw [tryKeys_of_short hkey hshort, hkey₁, Option.bind_some]
      exact ih hkey₁ fun j hj => hkeys j (by omega)
    | false => exact ⟨_, tryKeys_of_good hshort⟩

/-- The digest keyed by the text of a number. -/
def digestAt (hmac : Hmac) (data : List UInt8) (n : ℕ) : List UInt8 :=
  hmac.digest (decimalText n) data

theorem looksShort_digestAt (n : ℕ) :
    looksShort (digestAt hmac data n) = true ↔ 0 ∈ digestAt hmac data n :=
  looksShort_iff (hmac.length_digest _ _)

theorem looksShortAt_timestamp (h : HoldsTimestamp block ts) {k : ℕ} (hk : ts + k < 10 ^ 10)
    (short : Bool) :
    LooksShortAt hmac data block checkTimestamp k short ↔
      looksShort (digestAt hmac data (ts + k)) = short := by
  obtain ⟨inputKey, hkey, -⟩ := keyAt_timestamp checkTimestamp h hk
  constructor
  · rintro ⟨inputKey', key', hkey', hshort⟩
    obtain ⟨-, rfl⟩ := Prod.mk.inj (Option.some.inj (hkey.symm.trans hkey'))
    exact hshort
  · exact fun hshort => ⟨_, _, hkey, hshort⟩

/-- The `k`-th number after a time stamp is the first whose digest has no zero byte. -/
structure IsFirstGoodTimestamp (hmac : Hmac) (data : List UInt8) (ts k : ℕ) : Prop where
  good : 0 ∉ digestAt hmac data (ts + k)
  first : ∀ j < k, 0 ∈ digestAt hmac data (ts + j)

theorem isFirstGood_timestamp (h : HoldsTimestamp block ts) {k : ℕ} (hk : ts + k < 10 ^ 10) :
    IsFirstGood hmac data block checkTimestamp k ↔ IsFirstGoodTimestamp hmac data ts k := by
  have hshort : ∀ j ≤ k, (LooksShortAt hmac data block checkTimestamp j true ↔
      0 ∈ digestAt hmac data (ts + j)) := by
    intro j hj
    rw [looksShortAt_timestamp h (by omega), looksShort_digestAt]
  have hgood : LooksShortAt hmac data block checkTimestamp k false ↔
      0 ∉ digestAt hmac data (ts + k) := by
    rw [looksShortAt_timestamp h hk, ← Bool.not_eq_true, looksShort_digestAt]
  constructor
  · exact fun hfirst => ⟨hgood.mp hfirst.good, fun j hj => (hshort j hj.le).mp (hfirst.first j hj)⟩
  · exact fun hfirst =>
      ⟨hgood.mpr hfirst.good, fun j hj => (hshort j hj.le).mpr (hfirst.first j hj)⟩

/-- There is a first number when there is one. -/
theorem exists_isFirstGoodTimestamp_iff :
    (∃ k < TRY_MAX_TIME, IsFirstGoodTimestamp hmac data ts k) ↔
      ∃ k < TRY_MAX_TIME, 0 ∉ digestAt hmac data (ts + k) := by
  constructor
  · exact fun ⟨k, hk, hfirst⟩ => ⟨k, hk, hfirst.good⟩
  · intro hex
    obtain ⟨hk, hgood⟩ := Nat.find_spec hex
    refine ⟨Nat.find hex, hk, hgood, fun j hj => ?_⟩
    by_contra hzero
    exact Nat.find_min hex hj ⟨by omega, hzero⟩

/-- What `EncryptWithHMac` does with a time stamp as the key. -/
structure EncryptsTimestamp (hmac : Hmac) (data : List UInt8) (ts : ℕ) (encryption : Encryption) :
    Prop where
  success_iff : encryption.result = IOTA_SUCCESS ↔
    ∃ k < TRY_MAX_TIME, 0 ∉ digestAt hmac data (ts + k)
  result : ∀ k < TRY_MAX_TIME, IsFirstGoodTimestamp hmac data ts k →
    encryption.inputKey.map CharBlock.text = some (decimalText (ts + k : ℕ)) ∧
      encryption.outData.map CharBlock.text = some (hexText (digestAt hmac data (ts + k)))

theorem encryptWithHMac_defined (hmacs : Hmacs) (inputData : CharBlock) {inputKey : CharBlock}
    (checkTimestamp : ℤ) (inEncryDataLen : ℕ) (h : HoldsTimestamp inputKey ts)
    (hdigits : ∀ k < TRY_MAX_TIME, ts + k < 10 ^ 10) :
    ∃ encryption, encryptWithHMac hmacs (some inputData) (some inputKey) inEncryDataLen true
      checkTimestamp = some encryption := by
  have hkeys : ∀ j ≤ 0 + (TRY_MAX_TIME - 1),
      ∃ next, keyAt inputKey checkTimestamp j = some next := by
    intro j hj
    have hlt : j < TRY_MAX_TIME := by
      unfold TRY_MAX_TIME at hj ⊢
      omega
    obtain ⟨inputKey', hkey, -⟩ := keyAt_timestamp checkTimestamp h
      (hdigits j hlt)
    exact ⟨_, hkey⟩
  obtain ⟨⟨_, key⟩, hkey⟩ := hkeys 0 (Nat.zero_le _)
  obtain ⟨key, hfirst, hpair⟩ := Option.bind_eq_some_iff.mp hkey
  obtain ⟨rfl, rfl⟩ := Prod.mk.inj (Option.some.inj hpair)
  obtain ⟨⟨inputKey', temp⟩, htry⟩ :=
    tryKeys_defined (hmacs.select checkTimestamp) inputData.text hkey hkeys
  rw [Nat.cast_zero, add_zero] at htry
  unfold encryptWithHMac
  dsimp only
  rw [hfirst, Option.bind_eq_bind, Option.bind_some, htry, Option.bind_eq_bind, Option.bind_some]
  cases temp with
  | none => exact ⟨_, rfl⟩
  | some temp => exact ⟨_, rfl⟩

/-- **A key that is a time stamp** of ten digits, small enough for its successors to have ten
digits: `EncryptWithHMac` succeeds exactly when the digest keyed by one of the hundred texts from it
on has no zero byte, and leaves the first of these texts in the key and the digest in hexadecimal.
-/
theorem encryptWithHMac_timestamp (hmacs : Hmacs) (inputData inputKey : CharBlock)
    (checkTimestamp : ℤ) (ts : ℕ) (hlow : 10 ^ 9 ≤ ts) (hhigh : ts ≤ 9999999899)
    (htext : inputKey.text = decimalText ts) :
    ∃ encryption, encryptWithHMac hmacs (some inputData) (some inputKey) SHA256_ENCRYPTION_LENGRH
        true checkTimestamp = some encryption ∧
      EncryptsTimestamp (hmacs.select checkTimestamp) inputData.text ts encryption := by
  have hholds : HoldsTimestamp inputKey ts := ⟨hlow, by omega, htext⟩
  have hdigits : ∀ k < TRY_MAX_TIME, ts + k < 10 ^ 10 := by
    unfold TRY_MAX_TIME
    omega
  obtain ⟨encryption, hencryption⟩ := encryptWithHMac_defined hmacs inputData checkTimestamp
    SHA256_ENCRYPTION_LENGRH hholds hdigits
  have hsuccess : encryption.result = IOTA_SUCCESS ↔
      ∃ k < TRY_MAX_TIME,
        IsFirstGoodTimestamp (hmacs.select checkTimestamp) inputData.text ts k := by
    have hiff := @encryptWithHMac_success_iff checkTimestamp hmacs SHA256_ENCRYPTION_LENGRH
      inputData inputKey
    rw [hencryption] at hiff
    rw [← exists_congr fun k => and_congr_right fun hk =>
        isFirstGood_timestamp hholds (hdigits k hk),
      ← hiff]
    exact ⟨fun h => ⟨_, rfl, h⟩, fun ⟨_, heq, h⟩ => Option.some.inj heq ▸ h⟩
  refine ⟨encryption, hencryption, hsuccess.trans exists_isFirstGoodTimestamp_iff, ?_⟩
  intro k hk hfirst
  obtain ⟨_, _, k', hdata, hinput, hwith⟩ :=
    encryptWithHMac_success hencryption (hsuccess.mpr ⟨k, hk, hfirst⟩)
  cases hdata
  cases hinput
  -- there is one first key
  obtain rfl : k' = k :=
    hwith.isFirstGood.eq ((isFirstGood_timestamp hholds (hdigits k hk)).mpr hfirst)
  obtain ⟨inputKey', key, hkey, rfl⟩ := hwith.encryption_eq
  obtain ⟨inputKey'', hkey', hholds'⟩ :=
    keyAt_timestamp checkTimestamp hholds (hdigits k' hk)
  obtain ⟨rfl, rfl⟩ := Prod.mk.inj (Option.some.inj (hkey.symm.trans hkey'))
  have hdigest := (hmacs.select checkTimestamp).length_digest (decimalText (ts + k' : ℕ))
    inputData.text
  refine ⟨congrArg some hholds'.text, ?_⟩
  rw [Option.map_some, ← hdigest, List.take_length, CharBlock.text_ofBytes (zero_not_mem_hexText _)]
  rfl

/-- Digests that are zero with one key. -/
def firstKeyZeroHmac : Hmac where
  digest key _ := List.replicate 32 (if key = ascii "2024010100" then 0 else 1)
  length_digest _ _ := rfl

/-- The second time stamp is used when the first one has a digest with a zero byte. -/
theorem encryptWithHMac_timestamp_second :
    ∃ encryption, encryptWithHMac ⟨firstKeyZeroHmac, firstKeyZeroHmac⟩
        (some (.ofBytes (ascii "secret"))) (some (.ofBytes (ascii "2024010100")))
        SHA256_ENCRYPTION_LENGRH true 0 = some encryption ∧
      encryption.result = IOTA_SUCCESS ∧
      encryption.inputKey.map CharBlock.text = some (ascii "2024010101") := by
  obtain ⟨encryption, hencryption, hresult⟩ := encryptWithHMac_timestamp
    ⟨firstKeyZeroHmac, firstKeyZeroHmac⟩ (.ofBytes (ascii "secret"))
    (.ofBytes (ascii "2024010100")) 0 2024010100 (by decide) (by decide) (by decide)
  have hgood : 0 ∉ digestAt firstKeyZeroHmac (ascii "secret") (2024010100 + 1) := by decide
  have hshort : 0 ∈ digestAt firstKeyZeroHmac (ascii "secret") (2024010100 + 0) := by decide
  have hfirst : IsFirstGoodTimestamp firstKeyZeroHmac (ascii "secret") 2024010100 1 := by
    refine ⟨hgood, fun j hj => ?_⟩
    obtain rfl : j = 0 := by omega
    exact hshort
  refine ⟨encryption, hencryption, hresult.success_iff.mpr ⟨1, by decide, hgood⟩, ?_⟩
  exact (hresult.result 1 (by decide) hfirst).1

end IotDeviceSdk.Base
