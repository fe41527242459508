import IotDeviceSdk.Libc.StringBlocks
import IotDeviceSdk.Util.CombineStrings
import IotDeviceSdk.Util.StringUtil

/-!
# `string_util.c`: the windows of `GetSubStrIndex`

`GetSubStrIndex` as it copies a window of the string into a buffer at each index and compares the
buffer with the pattern.  A string is its bytes and the terminator: reading past the terminator is
undefined, and so is reading or writing past the buffer.
-/

namespace IotDeviceSdk.Blocks

open Prog

/-- The bytes a pointer to a string points to, up to the terminator. -/
def stringBytes (str : CString) : List UInt8 := str.bytes ++ [0]

/-- `strlen` into an `int`. -/
def intStrlen (str : List UInt8) : Sdk ℤ := do
  let text ← ofOption (readString str)
  return cInt text.length

/-- The loop of `GetSubStrIndex` at an index, with the rounds that are left; without any it has not
ended. -/
def getSubStrIndex.go (str substr : List UInt8) (len subLen : ℤ) : ℕ → ℤ → List UInt8 → Sdk ℤ
  | 0, _, _ => undefined
  | rounds + 1, n, tmp => do
    let left ← int (len - n)
    if ¬(subLen ≤ left ∧ 0 ≤ subLen) then return -1
    let (tmp, ret) ← ofOption (strncpyS tmp SUB_STERING_MAX_LENGTH (str.drop n.toNat) subLen.toNat)
    if ret ≠ EOK then return -1
    let tmp ← ofOption (writeAt tmp subLen.toNat 0)
    let order ← ofOption (strcmp substr tmp)
    if order = 0 then return n
    let n ← int (n + 1)
    go str substr len subLen rounds n tmp

/-- `GetSubStrIndex`, with a bound on the rounds of its loop. -/
def getSubStrIndex (rounds : ℕ) (str substr : Option CString) : Sdk ℤ :=
  match str, substr with
  | some str, some substr => do
    let len ← intStrlen (stringBytes str)
    let subLen ← intStrlen (stringBytes substr)
    -- `substr == 0` asks for `NULL` once more
    if len = 0 ∨ subLen ≥ SUB_STERING_MAX_LENGTH then return -1
    getSubStrIndex.go (stringBytes str) (stringBytes substr) len subLen rounds 0
      (List.replicate SUB_STERING_MAX_LENGTH 0)
  | _, _ => pure (-1)

end IotDeviceSdk.Blocks
