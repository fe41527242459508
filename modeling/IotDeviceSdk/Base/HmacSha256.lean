import IotDeviceSdk.Env
import IotDeviceSdk.Libc.Bytes
import IotDeviceSdk.Util.ErrorType
import Mathlib.Data.List.Infix

/-!
# `hmac_sha256.c`

`EncryptWithHMac`, `base64_encode` and `base64_decode`.  `HMAC` is a parameter: a function of a key
and of data with digests of 32 bytes.

`HMAC` leaves its digest in a static buffer of 64 bytes, of which the other 32 stay zero; the code
reads it as a C string, so a digest with a zero byte looks too short and another key is tried.
-/

namespace IotDeviceSdk.Base

open Prog

/-- `TIME_STAMP_LENGTH`. -/
def TIME_STAMP_LENGTH : ℕ := 10

/-- `TRY_MAX_TIME`. -/
def TRY_MAX_TIME : ℕ := 100

/-- `SHA256_ENCRYPTION_LENGRH`. -/
def SHA256_ENCRYPTION_LENGRH : ℕ := 32

/-- `EN_IOTA_CFG_CHECK_STAMP_SHA256`. -/
def EN_IOTA_CFG_CHECK_STAMP_SHA256 : ℤ := 1

/-- `HMAC` with one of its hash functions. -/
structure Hmac where
  digest : List UInt8 → List UInt8 → List UInt8
  length_digest : ∀ key data, (digest key data).length = SHA256_ENCRYPTION_LENGRH

/-- The two hash functions the code calls `HMAC` with. -/
structure Hmacs where
  sha256 : Hmac
  sm3 : Hmac

/-- The one chosen by `checkTimestamp`. -/
def Hmacs.select (hmacs : Hmacs) (checkTimestamp : ℤ) : Hmac :=
  if checkTimestamp ≤ EN_IOTA_CFG_CHECK_STAMP_SHA256 then hmacs.sha256 else hmacs.sm3

/-- `strlen(temp) != SHA256_ENCRYPTION_LENGRH` for the static buffer with a digest. -/
def looksShort (digest : List UInt8) : Bool :=
  (cString (digest ++ List.replicate 32 0)).length ≠ SHA256_ENCRYPTION_LENGRH

/-- The bytes of the first key: the text, or the first ten bytes of its block. -/
def firstKey (inputKey : CharBlock) (checkTimestamp : ℤ) : Option (List UInt8) :=
  if checkTimestamp ≤ EN_IOTA_CFG_CHECK_STAMP_SHA256 then some inputKey.text
  else inputKey.firstBytes TIME_STAMP_LENGTH

/-- `timeTmp++` for a `long`, undefined when it overflows. -/
def nextLong (timeTmp : ℤ) : Option ℤ :=
  if timeTmp + 1 < 2 ^ 63 then some (timeTmp + 1) else none

/-- The loop of `EncryptWithHMac` with so many tries left: the block of the key afterwards, and the
digest if there is one without a zero byte. -/
def tryKeys (hmac : Hmac) (inputData : List UInt8) :
    ℕ → ℤ → CharBlock → List UInt8 → Option (CharBlock × Option (List UInt8))
  | tries, timeTmp, inputKey, temp =>
    if looksShort temp then
      match tries with
      | 0 => some (inputKey, none)
      | tries + 1 => do
        let timeTmp ← nextLong timeTmp
        -- the new key is printed over the old one
        let inputKey ← inputKey.snprintfS (TIME_STAMP_LENGTH + 1) TIME_STAMP_LENGTH
          (decimalText timeTmp)
        let key ← inputKey.firstBytes TIME_STAMP_LENGTH
        tryKeys hmac inputData tries timeTmp inputKey (hmac.digest key inputData)
    else some (inputKey, some temp)

/-- What `EncryptWithHMac` returns and leaves: the block of the key, and the text in `outData`. -/
structure Encryption where
  result : ℤ
  inputKey : Option CharBlock
  outData : Option CharBlock

/-- `EncryptWithHMac`; `outData` says whether there is a buffer for the text. -/
def encryptWithHMac (hmacs : Hmacs) (inputData inputKey : Option CharBlock) (inEncryDataLen : ℕ)
    (outData : Bool) (checkTimestamp : ℤ) : Option Encryption :=
  match inputData, inputKey, outData with
  | some inputData, some inputKey, true => do
    let hmac := hmacs.select checkTimestamp
    let key ← firstKey inputKey checkTimestamp
    let (inputKey, temp) ← tryKeys hmac inputData.text (TRY_MAX_TIME - 1) (strtol inputKey.bytes)
      inputKey (hmac.digest key inputData.text)
    match temp with
    | none => return { result := IOTA_FAILURE, inputKey := some inputKey, outData := none }
    | some temp =>
      return { result := IOTA_SUCCESS, inputKey := some inputKey
               outData := some (.ofBytes (hexText (temp.take inEncryDataLen))) }
  | _, inputKey, _ => some { result := IOTA_FAILURE, inputKey := inputKey, outData := none }

/-! ### Base64 -/

/-- `base64_table` of `base64_encode`. -/
def base64EncodeTable : List UInt8 :=
  ascii "ABCDEFGHIJKLMNOPQRSTUVWXYZabcdefghijklmnopqrstuvwxyz0123456789+/"

/-- The loop of `base64_encode` over so many groups of three bytes. -/
def base64EncodeGroups : ℕ → List UInt8 → Option (List UInt8)
  | 0, _ => some []
  | n + 1, s₀ :: s₁ :: s₂ :: str => do
    let r₀ ← base64EncodeTable[(s₀ >>> 2).toNat]?
    let r₁ ← base64EncodeTable[((s₀ &&& 0x3) <<< 4 ||| s₁ >>> 4).toNat]?
    let r₂ ← base64EncodeTable[((s₁ &&& 0xf) <<< 2 ||| s₂ >>> 6).toNat]?
    let r₃ ← base64EncodeTable[(s₂ &&& 0x3f).toNat]?
    let res ← base64EncodeGroups n str
    return r₀ :: r₁ :: r₂ :: r₃ :: res
  | _ + 1, _ => none

/-- The `switch` of `base64_encode`, which writes `=` over the last characters. -/
def base64Pad (str_len : ℕ) (res : List UInt8) : List UInt8 :=
  let i := res.length
  match str_len % 3 with
  | 1 => (res.set (i - 2) 61).set (i - 1) 61
  | 2 => res.set (i - 1) 61
  | _ => res

/-- `base64_encode`, `none` for `NULL`; `past` is the byte behind the terminator of the text. -/
def base64Encode (str : CString) (past : UInt8) : Sdk (Option CharBlock) := do
  let str_len := str.bytes.length
  let len := if str_len % 3 = 0 then str_len / 3 * 4 else (str_len / 3 + 1) * 4
  if !(← malloc) then return none
  -- `len - 2` wraps around, and the loop leaves the text
  if len < 2 then undefined
  let res ← ofOption (base64EncodeGroups ((len + 1) / 4) (str.bytes ++ [0, past]))
  return some (.ofBytes (base64Pad str_len res))

/-- `table` of `base64_decode`. -/
def base64Table : List UInt8 :=
  List.replicate 43 0 ++ [62, 0, 0, 0, 63, 52, 53, 54, 55, 56, 57, 58, 59, 60, 61] ++
    List.replicate 7 0 ++ (List.range 26).map UInt8.ofNat ++ List.replicate 6 0 ++
    (List.range 26).map fun i => UInt8.ofNat (26 + i)

/-- The loop of `base64_decode` over so many groups of four characters; a character without an entry
in the table is undefined. -/
def base64Groups : ℕ → List UInt8 → Option (List UInt8)
  | 0, _ => some []
  | n + 1, c₀ :: c₁ :: c₂ :: c₃ :: code => do
    let t₀ ← base64Table[c₀.toNat]?
    let t₁ ← base64Table[c₁.toNat]?
    let t₂ ← base64Table[c₂.toNat]?
    let t₃ ← base64Table[c₃.toNat]?
    let res ← base64Groups n code
    return (t₀ <<< 2 ||| t₁ >>> 4) :: (t₁ <<< 4 ||| t₂ >>> 2) :: (t₂ <<< 6 ||| t₃) :: res
  | _ + 1, _ => none

/-- `base64_decode`, `none` for `NULL`.  What is written past the end of the result is left out. -/
def base64Decode (code : CharBlock) : Sdk (Option CharBlock) := do
  let len := code.text.length
  let padding := if ascii "==" <:+: code.text then 2 else if ascii "=" <:+: code.text then 1 else 0
  let str_len : ℤ := (len / 4 * 3 : ℕ) - padding
  -- the largest `size_t`, which cannot be allocated
  if str_len = -2 then return none
  if !(← malloc) then return none
  if str_len < 0 ∨ len < 2 then undefined
  let decoded ← ofOption (base64Groups ((len + 1) / 4) (code.text ++ [0]))
  let res := (decoded ++ [0]).take (str_len.toNat + 1)
  if h : 0 ∈ res then return some ⟨res, h⟩ else undefined

end IotDeviceSdk.Base
