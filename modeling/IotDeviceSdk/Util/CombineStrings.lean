import IotDeviceSdk.Env
import IotDeviceSdk.Libc.Strings

/-!
# `string_util.c`: the buffers of `CombineStrings`

`CombineStrings` as it copies its texts from buffer to buffer: each buffer has room for the texts so
far and a terminator.  The content of a new block is indeterminate, and a text that is not `NULL` is
the block it lies in.  With its result the function gives the calls of `strcpy_s` and `strcat_s` it
made.
-/

namespace IotDeviceSdk.Blocks

open Prog

/-- A result of arithmetic on `int`. -/
def int (n : ℤ) : Sdk ℤ := if INT_MIN ≤ n ∧ n ≤ INT_MAX then pure n else undefined

/-- The indeterminate bytes of new blocks, for each allocation of a run. -/
abbrev Fresh : Type := ℕ → ℕ → UInt8

/-- `malloc` of a block of bytes, `none` for `NULL`. -/
def mallocBlock (fresh : Fresh) (size : ℕ) : Sdk (Option (List UInt8)) := fun env c =>
  some (if env.mallocs c.malloc then some ((List.range size).map (fresh c.malloc)) else none,
    { c with malloc := c.malloc + 1 })

/-- The loop of `StringLength`; it must not leave the block. -/
def stringLength.go : List UInt8 → ℤ → Sdk ℤ
  | [], _ => undefined
  | c :: temp_str, len => if c ≠ 0 then int (len + 1) >>= go temp_str else pure len

/-- `StringLength`. -/
def stringLength (str : Option CharBlock) : Sdk ℤ :=
  match str with
  | none => pure 0
  | some str => stringLength.go str.bytes 0

/-- A call of `strcpy_s` or `strcat_s`: the size of the destination, the C strings in the
destination and at the source, and the result. -/
inductive StringCall where
  | strcpy (destMax : ℕ) (strSrc : List UInt8) (error : ℕ)
  | strcat (destMax : ℕ) (strDest strSrc : List UInt8) (error : ℕ)
  deriving DecidableEq

/-- The result of `CombineStrings`, `none` for `NULL`, and its calls. -/
abbrev Combined : Type := Option (List UInt8) × List StringCall

/-- The loop of `CombineStrings` over the remaining arguments. -/
def combineStrings.go (fresh : Fresh) :
    ℕ → List (Option CharBlock) → ℤ → List UInt8 → List StringCall → Sdk Combined
  | 0, _, _, result, calls => pure (some result, calls)
  -- `va_arg` without an argument
  | _ + 1, [], _, _, _ => undefined
  | strAmount + 1, none :: args, length, result, calls =>
    go fresh strAmount args length result calls
  | strAmount + 1, some temStr :: args, length, result, calls => do
    let length ← int (length + (← stringLength (some temStr)))
    let some p ← mallocBlock fresh length.toNat
      | return (none, calls)
    let text ← ofOption (readString result)
    let (p, ret) ← ofOption (strcpyS p length.toNat text)
    let calls := calls ++ [.strcpy length.toNat text ret]
    if ret ≠ EOK then return (none, calls)
    let (joined, ret) ← ofOption (strcatS p length.toNat temStr.text)
    let calls := calls ++ [.strcat length.toNat (cString p) temStr.text ret]
    if ret ≠ EOK then return (none, calls)
    go fresh strAmount args length joined calls

/-- `CombineStrings(strAmount, str1, ...)`. -/
def combineStrings (fresh : Fresh) (strAmount : ℕ) (str1 : Option CharBlock)
    (args : List (Option CharBlock)) : Sdk Combined := do
  let length ← int ((← stringLength str1) + 1)
  if length = 1 then return (none, [])
  let some result ← mallocBlock fresh length.toNat
    | return (none, [])
  let text := (str1.map CharBlock.text).getD []
  let (result, ret) ← ofOption (strcpyS result length.toNat text)
  let calls := [.strcpy length.toNat text ret]
  if ret ≠ EOK then return (none, calls)
  combineStrings.go fresh (strAmount - 1) args length result calls

end IotDeviceSdk.Blocks
