import IotDeviceSdk.Libc.Memory
import Mathlib.Tactic.Ring

/-!
# Little-endian integers

The bytes of an unsigned integer, the least significant first, and the value of such bytes.
`leValue_leBytes`: an integer of `width` bytes is read as it was written.
-/

namespace IotDeviceSdk

/-- The value of little-endian bytes. -/
def leValue : List UInt8 → ℕ
  | [] => 0
  | b :: bytes => b.toNat + 256 * leValue bytes

/-- The `width` lowest bytes of an integer. -/
def leBytes : ℕ → ℕ → List UInt8
  | 0, _ => []
  | width + 1, n => UInt8.ofNat n :: leBytes width (n / 256)

@[simp] theorem length_leBytes (width n : ℕ) : (leBytes width n).length = width := by
  induction width generalizing n with
  | zero => rfl
  | succ width ih => rw [leBytes, List.length_cons, ih]

theorem leValue_leBytes {width n : ℕ} (h : n < 256 ^ width) : leValue (leBytes width n) = n := by
  induction width generalizing n with
  | zero =>
    rw [pow_zero] at h
    show 0 = n
    omega
  | succ width ih =>
    have hrest : n / 256 < 256 ^ width := by
      rw [pow_succ] at h
      omega
    rw [leBytes, leValue, ih hrest, UInt8.toNat_ofNat']
    omega

/-- The 32-bit integer at an offset of a block. -/
def word32 (block : List UInt8) (offset : ℕ) : UInt32 :=
  UInt32.ofNat (leValue (slice block offset 4))

/-- The bytes of a 32-bit integer. -/
def wordBytes (n : UInt32) : List UInt8 := leBytes 4 n.toNat

@[simp] theorem length_wordBytes (n : UInt32) : (wordBytes n).length = 4 := length_leBytes _ _

theorem slice_append {block before bytes after : List UInt8} {offset : ℕ}
    (hblock : block = before ++ (bytes ++ after)) (hoffset : offset = before.length) :
    slice block offset bytes.length = bytes := by
  rw [slice, hblock, hoffset, List.drop_left, List.take_left]

/-- A word is read as it was written. -/
theorem word32_append {block before after : List UInt8} {offset : ℕ} {n : UInt32}
    (hblock : block = before ++ (wordBytes n ++ after)) (hoffset : offset = before.length) :
    word32 block offset = n := by
  have hslice := slice_append hblock hoffset
  rw [length_wordBytes] at hslice
  rw [word32, hslice, wordBytes, leValue_leBytes n.toNat_lt, UInt32.ofNat_toNat]

end IotDeviceSdk
