import IotDeviceSdk.Util.ErrorType
import IotDeviceSdk.Util.GZIPCompress

/-!
# `data_trans.c`: compressed reports

`ReportCompressedData` compresses a payload and publishes it.  The block is as long as two payloads.
`malloc` may fail, and what `MqttBase_publish` returns is an input.
-/

namespace IotDeviceSdk.Service

open Util

/-- What `MqttBase_publish` is called with; the payload is the first `len` bytes of its block. -/
structure CompressedMessage (κ π : Type) where
  topic : List UInt8
  payload : List UInt8
  len : ℤ
  context : κ
  properties : π

/-- The product of two `int`. -/
def intProduct (n m : ℤ) : Option ℤ :=
  if -2 ^ 31 ≤ n * m ∧ n * m < 2 ^ 31 then some (n * m) else none

/-- `StringMalloc` on a pointer that is `NULL`. -/
def stringMalloc (malloc : ℕ → Bool) (length : ℤ) : Option (List UInt8) :=
  if length ≤ 0 then none
  else if malloc length.toNat then some (List.replicate length.toNat 0)
  else none

variable {κ π : Type}

/-- `ReportCompressedData`: its result and the calls of `MqttBase_publish`. -/
def reportCompressedData (z : ZlibCalls) (malloc : ℕ → Bool) (publish : CompressedMessage κ π → ℤ)
    (topic payload : List UInt8) (context : κ) (properties : π) :
    Option (ℤ × List (CompressedMessage κ π)) := do
  let len := cInt payload.length
  let size ← intProduct len 2
  let some compressed := stringMalloc malloc size | return (IOTA_FAILURE, [])
  let (gz_size, block) ← gZIPCompress z (some payload) len (some compressed) size
  let message := {
    topic := topic, payload := block.getD [], len := gz_size, context := context,
    properties := properties }
  let ret := publish message
  if ret < 0 then return (IOTA_FAILURE, [message])
  return (IOTA_SUCCESS, [message])

end IotDeviceSdk.Service
