import IotDeviceSdk.Libc.Memory
import IotDeviceSdk.Libc.Time
import IotDeviceSdk.Zlib.Basic

/-!
# `string_util.c`: compressing

`gZIPCompress` compresses a text into a block.  Its loops get as many rounds as there are bytes of
input and of room, and one more; reading or writing outside the blocks is undefined.
-/

namespace IotDeviceSdk.Util

variable {z : ZlibCalls}

/-- The loop of `gZIPCompress` over the input, with the rounds that are left: whether it goes on,
and the stream. -/
def gZIPCompress.feed (destLength : ℕ) : ℕ → ZStream z → Option (Bool × ZStream z)
  | 0, _ => none
  | rounds + 1, c_stream =>
    if c_stream.avail_in ≠ 0 ∧ c_stream.total_out < destLength then
      let (ret, c_stream) := c_stream.deflate .noFlush
      if ret ≠ Z_OK then some (false, c_stream) else feed destLength rounds c_stream
    else some (true, c_stream)

/-- The loop of `gZIPCompress` that ends the stream. -/
def gZIPCompress.finish : ℕ → ZStream z → Option (Bool × ZStream z)
  | 0, _ => none
  | rounds + 1, c_stream =>
    let (ret, c_stream) := c_stream.deflate .finish
    if ret = Z_STREAM_END then some (true, c_stream)
    else if ret ≠ Z_OK then some (false, c_stream)
    else finish rounds c_stream

/-- The rest of `gZIPCompress` after the first loop: its result, and the stream. -/
def gZIPCompress.afterFeed (rounds : ℕ) (c_stream : ZStream z) : Option (ℤ × ZStream z) := do
  if c_stream.avail_in ≠ 0 then return (cInt c_stream.avail_in, c_stream)
  let (ended, c_stream) ← finish rounds c_stream
  if !ended then return (-1, c_stream)
  if z.deflateEnd c_stream.state ≠ Z_OK then return (-1, c_stream)
  return (cInt c_stream.total_out, c_stream)

/-- `gZIPCompress`: its result and the block at `dest`. -/
def gZIPCompress (z : ZlibCalls) (src : Option (List UInt8)) (srcLength : ℤ)
    (dest : Option (List UInt8)) (destLength : ℤ) : Option (ℤ × Option (List UInt8)) :=
  match src, dest with
  | some src, some block =>
    if srcLength > 0 ∧ destLength ≥ 0 then
      if srcLength > src.length ∨ destLength > block.length then none
      else if z.deflateInit2.1 ≠ Z_OK then some (-1, some block)
      else do
        let rounds := srcLength.toNat + destLength.toNat + 1
        let c_stream := ZStream.start z (src.take srcLength.toNat) destLength.toNat
        let (fed, c_stream) ← gZIPCompress.feed destLength.toNat rounds c_stream
        let (ret, c_stream) ←
          (if fed then gZIPCompress.afterFeed rounds c_stream else some (-1, c_stream))
        return (ret, some (overwrite block 0 c_stream.written))
    else some (-1, some block)
  | _, block => some (-1, block)

end IotDeviceSdk.Util
