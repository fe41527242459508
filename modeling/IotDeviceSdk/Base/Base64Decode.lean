import IotDeviceSdk.Base.HmacSha256
import IotDeviceSdk.Libc.Memory

/-!
# `base64_decode` on its blocks

`base64_decode` once more, with each access to the text, to the table and to the block of the
result; an access outside of them is undefined.  A text in memory is so short that the only numbers
to wrap around are those below zero.
-/

namespace IotDeviceSdk.Base

open Prog

/-- `(unsigned char)table[code[i]]`. -/
def base64Entry (code : List UInt8) (i : ℕ) : Option UInt8 := do
  let c ← code[i]?
  base64Table[c.toNat]?

/-- The body of the loop of `base64_decode`: the block of the result after it. -/
def base64Round (code : List UInt8) (i j : ℕ) (res : List UInt8) : Option (List UInt8) := do
  let t₀ ← base64Entry code i
  let t₁ ← base64Entry code (i + 1)
  let t₂ ← base64Entry code (i + 2)
  let t₃ ← base64Entry code (i + 3)
  let res ← writeAt res j (t₀ <<< 2 ||| t₁ >>> 4)
  let res ← writeAt res (j + 1) (t₁ <<< 4 ||| t₂ >>> 2)
  writeAt res (j + 2) (t₂ <<< 6 ||| t₃)

/-- The loop of `base64_decode`; `bound` is `len - 2`. -/
def base64Loop (code : List UInt8) (bound i j : ℕ) (res : List UInt8) : Option (List UInt8) :=
  if i < bound then do
    let res ← base64Round code i j res
    base64Loop code bound (i + 4) (j + 3) res
  else some res
termination_by bound - i

/-- `str_len`, before it wraps around. -/
def base64StrLen (code : List UInt8) : ℤ :=
  let len := code.length
  if ascii "==" <:+: code then (len / 4 * 3 : ℕ) - 2
  else if ascii "=" <:+: code then (len / 4 * 3 : ℕ) - 1
  else (len / 4 * 3 : ℕ)

/-- `len - 2` for a `size_t`. -/
def base64Bound (len : ℕ) : ℕ := if len < 2 then len + 2 ^ 64 - 2 else len - 2

/-- What `base64_decode` writes into the block of its result, which holds `fresh` at first. -/
def base64Fill (code : List UInt8) (fresh : ℕ → UInt8) : Option (List UInt8) := do
  let str_len := base64StrLen code
  let res := (List.range (str_len + 1).toNat).map fresh
  -- `str_len` is the largest `size_t` for `-1`, and the block is empty
  let res ← if str_len < 0 then none else writeAt res str_len.toNat 0
  base64Loop (code ++ [0]) (base64Bound code.length) 0 0 res

/-- `base64_decode`, `none` for `NULL`. -/
def base64DecodeBlock (code : CString) (fresh : ℕ → UInt8) : Sdk (Option (List UInt8)) := do
  -- the largest `size_t`, which cannot be allocated
  if base64StrLen code.bytes + 1 < 0 then return none
  if !(← malloc) then return none
  let res ← ofOption (base64Fill code.bytes fresh)
  return some res

end IotDeviceSdk.Base
