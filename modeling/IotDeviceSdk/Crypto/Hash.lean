import Mathlib.Data.List.Basic

/-!
# Incremental hash functions

A hash function that takes its message in parts: a context, an update with some bytes, and the
digest of a context.  The two laws of `update` make the digest one of the whole message, however it
is cut.
-/

namespace IotDeviceSdk.Crypto

/-- A hash function with digests of `size` bytes, fed in parts. -/
structure IncrementalHash (size : ℕ) where
  Context : Type
  init : Context
  update : Context → List UInt8 → Context
  final : Context → List UInt8
  update_nil : ∀ context, update context [] = context
  update_append : ∀ context first second,
    update (update context first) second = update context (first ++ second)
  length_final : ∀ context, (final context).length = size

namespace IncrementalHash

variable {size : ℕ} (hash : IncrementalHash size)

/-- The digest of a message. -/
def digest (message : List UInt8) : List UInt8 := hash.final (hash.update hash.init message)

@[simp] theorem length_digest (message : List UInt8) : (hash.digest message).length = size :=
  hash.length_final _

/-- The first bytes of a message, then the rest. -/
theorem update_take_drop (context : hash.Context) (n : ℕ) (message : List UInt8) :
    hash.update (hash.update context (message.take n)) (message.drop n) =
      hash.update context message := by
  rw [hash.update_append, List.take_append_drop]

end IncrementalHash

end IotDeviceSdk.Crypto
