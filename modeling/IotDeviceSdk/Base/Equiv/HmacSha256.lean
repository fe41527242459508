import IotDeviceSdk.Base.HmacSha256
import IotDeviceSdk.Libc.Decimal

/-!
# The keys of `EncryptWithHMac`

`keyAt` is the `k`-th key that `EncryptWithHMac` tries: the block of the key, and the bytes of it
that `HMAC` is called with.  The result is the digest with the first of a hundred keys whose digest
has no zero byte (`encryptWithHMac_success_iff`), and the block of the key is left with that key in
it.  A key that is not the first is another text than the first (`keyAt_ne`).
-/

namespace IotDeviceSdk.Base

variable {hmac : Hmac} {data : List UInt8} {block : CharBlock} {checkTimestamp : ℤ}

/-- The `k`-th key: its block, and the bytes that are passed to `HMAC`. -/
def keyAt (block : CharBlock) (checkTimestamp : ℤ) : ℕ → Option (CharBlock × List UInt8)
  | 0 => do
    let key ← firstKey block checkTimestamp
    return (block, key)
  | k + 1 => do
    let (inputKey, _) ← keyAt block checkTimestamp k
    let timeTmp ← nextLong (strtol block.bytes + k)
    let inputKey ←
      inputKey.snprintfS (TIME_STAMP_LENGTH + 1) TIME_STAMP_LENGTH (decimalText timeTmp)
    let key ← inputKey.firstBytes TIME_STAMP_LENGTH
    return (inputKey, key)

/-- The digest with the `k`-th key looks short, or it does not. -/
def LooksShortAt (hmac : Hmac) (data : List UInt8) (block : CharBlock) (checkTimestamp : ℤ) (k : ℕ)
    (short : Bool) : Prop :=
  ∃ inputKey key, keyAt block checkTimestamp k = some (inputKey, key) ∧
    looksShort (hmac.digest key data) = short

/-- The `k`-th key is the first whose digest has no zero byte. -/
structure IsFirstGood (hmac : Hmac) (data : List UInt8) (block : CharBlock) (checkTimestamp : ℤ)
    (k : ℕ) : Prop where
  good : LooksShortAt hmac data block checkTimestamp k false
  first : ∀ j < k, LooksShortAt hmac data block checkTimestamp j true

theorem LooksShortAt.eq {k : ℕ} {short short' : Bool}
    (h : LooksShortAt hmac data block checkTimestamp k short)
    (h' : LooksShortAt hmac data block checkTimestamp k short') : short = short' := by
  obtain ⟨inputKey, key, hkey, hshort⟩ := h
  obtain ⟨inputKey', key', hkey', hshort'⟩ := h'
  obtain ⟨rfl, rfl⟩ := Prod.mk.inj (Option.some.inj (hkey.symm.trans hkey'))
  exact hshort.symm.trans hshort'

/-- There is one first key at most. -/
theorem IsFirstGood.eq {k k' : ℕ} (h : IsFirstGood hmac data block checkTimestamp k)
    (h' : IsFirstGood hmac data block checkTimestamp k') : k = k' := by
  rcases Nat.lt_trichotomy k k' with hlt | heq | hlt
  · exact absurd (h.good.eq (h'.first k hlt)) (by decide)
  · exact heq
  · exact absurd (h'.good.eq (h.first k' hlt)) (by decide)

/-! ### The loop -/

theorem tryKeys_of_good {tries : ℕ} {timeTmp : ℤ} {inputKey : CharBlock} {temp : List UInt8}
    (h : looksShort temp = false) :
    tryKeys hmac data tries timeTmp inputKey temp = some (inputKey, some temp) := by
  cases tries <;> simp [tryKeys, h]

/-- The next key. -/
theorem tryKeys_of_short {tries k : ℕ} {inputKey : CharBlock} {key : List UInt8}
    (hkey : keyAt block checkTimestamp k = some (inputKey, key))
    (h : looksShort (hmac.digest key data) = true) :
    tryKeys hmac data (tries + 1) (strtol block.bytes + k) inputKey (hmac.digest key data) =
      (keyAt block checkTimestamp (k + 1)).bind fun next =>
        tryKeys hmac data tries (strtol block.bytes + (k + 1 : ℕ)) next.1
          (hmac.digest next.2 data) := by
  rw [tryKeys, if_pos h, keyAt, hkey]
  unfold nextLong
  by_cases hlong : strtol block.bytes + k + 1 < 2 ^ 63
  · simp only [if_pos hlong, Option.bind_eq_bind, Option.bind_some, Option.bind_assoc,
      Option.pure_def]
    push_cast
    rw [add_assoc]
  · simp only [if_neg hlong, Option.bind_eq_bind, Option.bind_some, Option.bind_none]

/-- **The loop** ends with the first good key from the `k`-th on. -/
theorem tryKeys_success {tries k : ℕ} {inputKey inputKey' : CharBlock} {key temp : List UInt8}
    (hkey : keyAt block checkTimestamp k = some (inputKey, key))
    (h : tryKeys hmac data tries (strtol block.bytes + k) inputKey (hmac.digest key data) =
      some (inputKey', some temp))
    (hfirst : ∀ j < k, LooksShortAt hmac data block checkTimestamp j true) :
    ∃ k' ≤ k + tries, IsFirstGood hmac data block checkTimestamp k' ∧
      ∃ key', keyAt block checkTimestamp k' = some (inputKey', key') ∧
        temp = hmac.digest key' data := by
  induction tries generalizing k inputKey key with
  | zero =>
    cases hshort : looksShort (hmac.digest key data) with
    | true =>
      rw [tryKeys, if_pos hshort] at h
      cases h
    | false =>
      rw [tryKeys_of_good hshort] at h
      cases h
      exact ⟨k, le_refl _, ⟨⟨_, _, hkey, hshort⟩, hfirst⟩, key, hkey, rfl⟩
  | succ tries ih =>
    cases hshort : looksShort (hmac.digest key data) with
    | true =>
      rw [tryKeys_of_short hkey hshort] at h
      obtain ⟨⟨inputKey₁, key₁⟩, hkey₁, h₁⟩ := Option.bind_eq_some_iff.mp h
      have hfirst₁ : ∀ j < k + 1, LooksShortAt hmac data block checkTimestamp j true := by
        intro j hj
        rcases Nat.lt_succ_iff_lt_or_eq.mp hj with hlt | rfl
        · exact hfirst j hlt
        · exact ⟨_, _, hkey, hshort⟩
      obtain ⟨k', hk', hgood⟩ := ih hkey₁ h₁ hfirst₁
      exact ⟨k', by omega, hgood⟩
    | false =>
      rw [tryKeys_of_good hshort] at h
      cases h
      exact ⟨k, by omega, ⟨⟨_, _, hkey, hshort⟩, hfirst⟩, key, hkey, rfl⟩

/-- The loop reaches the first good key when it has tries enough. -/
theorem tryKeys_of_isFirstGood {tries k k' : ℕ} {inputKey inputKey' : CharBlock}
    {key key' : List UInt8} (hkey : keyAt block checkTimestamp k = some (inputKey, key))
    (hgood : IsFirstGood hmac data block checkTimestamp k')
    (hkey' : keyAt block checkTimestamp k' = some (inputKey', key')) (hle : k ≤ k')
    (htries : k' ≤ k + tries) :
    tryKeys hmac data tries (strtol block.bytes + k) inputKey (hmac.digest key data) =
      some (inputKey', some (hmac.digest key' data)) := by
  induction tries generalizing k inputKey key with
  | zero =>
    obtain rfl : k = k' := by omega
    obtain ⟨rfl, rfl⟩ := Prod.mk.inj (Option.some.inj (hkey.symm.trans hkey'))
    exact tryKeys_of_good (LooksShortAt.eq ⟨_, _, hkey, rfl⟩ hgood.good)
  | succ tries ih =>
    rcases Nat.lt_or_eq_of_le hle with hlt | rfl
    · have hshort : looksShort (hmac.digest key data) = true :=
        LooksShortAt.eq ⟨_, _, hkey, rfl⟩ (hgood.first k hlt)
      have hnext : ∃ next, keyAt block checkTimestamp (k + 1) = some next := by
        rcases Nat.lt_or_eq_of_le (show k + 1 ≤ k' from hlt) with hlt' | heq
        · obtain ⟨inputKey₁, key₁, hkey₁, -⟩ := hgood.first _ hlt'
          exact ⟨_, hkey₁⟩
        · exact ⟨_, heq ▸ hkey'⟩
      obtain ⟨⟨inputKey₁, key₁⟩, hkey₁⟩ := hnext
      rw [tryKeys_of_short hkey hshort, hkey₁, Option.bind_some]
      exact ih hkey₁ hlt (by omega)
    · obtain ⟨rfl, rfl⟩ := Prod.mk.inj (Option.some.inj (hkey.symm.trans hkey'))
      exact tryKeys_of_good (LooksShortAt.eq ⟨_, _, hkey, rfl⟩ hgood.good)

/-! ### The result -/

/-- A success with the `k`-th key. -/
structure EncryptsWith (hmacs : Hmacs) (inputData : CharBlock) (inputKey : CharBlock)
    (inEncryDataLen : ℕ) (checkTimestamp : ℤ) (k : ℕ) (encryption : Encryption) : Prop where
  tries : k < TRY_MAX_TIME
  isFirstGood : IsFirstGood (hmacs.select checkTimestamp) inputData.text inputKey checkTimestamp k
  encryption_eq : ∃ inputKey' key, keyAt inputKey checkTimestamp k = some (inputKey', key) ∧
    encryption = {
      result := IOTA_SUCCESS
      inputKey := some inputKey'
      outData := some (.ofBytes (hexText
        (((hmacs.select checkTimestamp).digest key inputData.text).take inEncryDataLen))) }

variable {hmacs : Hmacs} {inEncryDataLen : ℕ}

theorem encryptWithHMac_success {inputData inputKey : Option CharBlock} {outData : Bool}
    {encryption : Encryption}
    (h : encryptWithHMac hmacs inputData inputKey inEncryDataLen outData checkTimestamp =
      some encryption)
    (hresult : encryption.result = IOTA_SUCCESS) :
    ∃ inputData' inputKey' k, inputData = some inputData' ∧ inputKey = some inputKey' ∧
      EncryptsWith hmacs inputData' inputKey' inEncryDataLen checkTimestamp k encryption := by
  have hfailure : IOTA_FAILURE ≠ IOTA_SUCCESS := by decide
  unfold encryptWithHMac at h
  split at h
  · rename_i inputData' inputKey'
    obtain ⟨key, hkey, h⟩ := Option.bind_eq_some_iff.mp h
    obtain ⟨⟨inputKey₁, temp⟩, htry, h⟩ := Option.bind_eq_some_iff.mp h
    cases temp with
    | none =>
      obtain rfl := Option.some.inj h
      exact absurd hresult hfailure
    | some temp =>
      obtain rfl := Option.some.inj h
      have hfirst : keyAt inputKey' checkTimestamp 0 = some (inputKey', key) := by
        rw [keyAt, hkey]
        rfl
      have htry₀ : tryKeys (hmacs.select checkTimestamp) inputData'.text (TRY_MAX_TIME - 1)
          (strtol inputKey'.bytes + (0 : ℕ)) inputKey'
          ((hmacs.select checkTimestamp).digest key inputData'.text) =
            some (inputKey₁, some temp) := by
        rw [Nat.cast_zero, add_zero]
        exact htry
      obtain ⟨k, hk, hgood, key', hkey', rfl⟩ := tryKeys_success hfirst htry₀ (by simp)
      have hlt : k < TRY_MAX_TIME := by
        unfold TRY_MAX_TIME at hk ⊢
        omega
      exact ⟨inputData', inputKey', k, rfl, rfl, hlt, hgood, inputKey₁, key', hkey', rfl⟩
  · obtain rfl := Option.some.inj h
    exact absurd hresult hfailure

/-- **`EncryptWithHMac` succeeds** exactly when one of a hundred keys has a digest without a zero
byte, each key before it having one with a zero byte. -/
theorem encryptWithHMac_success_iff {inputData inputKey : CharBlock} :
    (∃ encryption, encryptWithHMac hmacs inputData inputKey inEncryDataLen true checkTimestamp =
      some encryption ∧ encryption.result = IOTA_SUCCESS) ↔
    ∃ k < TRY_MAX_TIME,
      IsFirstGood (hmacs.select checkTimestamp) inputData.text inputKey checkTimestamp k := by
  constructor
  · rintro ⟨encryption, h, hresult⟩
    obtain ⟨_, _, k, hdata, hkey, hwith⟩ := encryptWithHMac_success h hresult
    cases hdata
    cases hkey
    exact ⟨k, hwith.tries, hwith.isFirstGood⟩
  · rintro ⟨k, hk, hgood⟩
    obtain ⟨inputKey', key', hkey', -⟩ := hgood.good
    have hfirst : ∃ key, firstKey inputKey checkTimestamp = some key := by
      have hat : ∃ next, keyAt inputKey checkTimestamp 0 = some next := by
        rcases Nat.eq_zero_or_pos k with rfl | hpos
        · exact ⟨_, hkey'⟩
        · obtain ⟨_, _, h₀, -⟩ := hgood.first 0 hpos
          exact ⟨_, h₀⟩
      obtain ⟨next, hnext⟩ := hat
      obtain ⟨key, hkey, -⟩ := Option.bind_eq_some_iff.mp hnext
      exact ⟨key, hkey⟩
    obtain ⟨key, hkey⟩ := hfirst
    have htry : tryKeys (hmacs.select checkTimestamp) inputData.text (TRY_MAX_TIME - 1)
        (strtol inputKey.bytes + (0 : ℕ)) inputKey _ = _ :=
      tryKeys_of_isFirstGood (by rw [keyAt, hkey]; rfl) hgood hkey' (Nat.zero_le _)
        (by unfold TRY_MAX_TIME at hk ⊢; omega)
    rw [Nat.cast_zero, add_zero] at htry
    unfold encryptWithHMac
    simp only [hkey, htry, Option.bind_eq_bind, Option.bind_some, Option.pure_def]
    exact ⟨_, rfl, rfl⟩

/-! ### Other keys -/

/-- The text of a key that is not the first. -/
theorem keyAt_text {k : ℕ} {inputKey : CharBlock} {key : List UInt8}
    (h : keyAt block checkTimestamp (k + 1) = some (inputKey, key)) :
    inputKey.text = (decimalText (strtol block.bytes + k + 1)).take TIME_STAMP_LENGTH ∧
      strtol block.bytes + k + 1 < 2 ^ 63 := by
  rw [keyAt] at h
  obtain ⟨⟨inputKey₀, key₀⟩, -, h⟩ := Option.bind_eq_some_iff.mp h
  obtain ⟨timeTmp, htime, h⟩ := Option.bind_eq_some_iff.mp h
  obtain ⟨inputKey₁, hprint, h⟩ := Option.bind_eq_some_iff.mp h
  obtain ⟨key₁, -, h⟩ := Option.bind_eq_some_iff.mp h
  obtain ⟨rfl, -⟩ := Prod.mk.inj (Option.some.inj h)
  obtain ⟨hlong, htime⟩ := Option.ite_none_right_eq_some.mp htime
  obtain rfl := Option.some.inj htime
  exact ⟨CharBlock.text_of_snprintfS hprint (by decide) (zero_not_mem_decimalText _), hlong⟩

/-- **A key that is not the first** is another text than the first. -/
theorem keyAt_ne {k : ℕ} {inputKey : CharBlock} {key : List UInt8} (hpos : 0 < k)
    (hk : k < TRY_MAX_TIME) (h : keyAt block checkTimestamp k = some (inputKey, key)) :
    inputKey ≠ block := by
  rintro rfl
  obtain ⟨k, rfl⟩ := Nat.exists_eq_succ_of_ne_zero (Nat.pos_iff_ne_zero.mp hpos)
  obtain ⟨htext, hlong⟩ := keyAt_text h
  rw [add_assoc] at htext hlong
  unfold TRY_MAX_TIME at hk
  exact decimalText_take_ne (by omega) (by omega) hlong htext

end IotDeviceSdk.Base
