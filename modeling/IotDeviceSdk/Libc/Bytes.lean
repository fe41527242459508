import IotDeviceSdk.Libc.Scan
import Mathlib.Data.List.TakeWhile

/-!
# Bytes

A buffer of the code is a list of bytes.  A pointer into it, read as a C string, is the bytes up to
the first zero byte (`cString`); a text that is only ever used as a C string is a `CString`.

`snprintfS` is the bounded printing of the security functions, `hexByte` the conversion `%02x`,
`decimalText` the conversion `%ld` and `strtol` that of a decimal text.  A `CharBlock` is a block of
memory with a C string in it, as the code allocates, prints into and reads past the terminator of.
-/

namespace IotDeviceSdk

/-- The C string at the head of a buffer. -/
def cString (buffer : List UInt8) : List UInt8 := buffer.takeWhile (· ≠ 0)

/-- The bytes of an ASCII text, without a terminating zero. -/
def ascii (text : String) : List UInt8 := text.toList.map fun c => UInt8.ofNat c.toNat

/-- A C string, without its terminator. -/
structure CString where
  bytes : List UInt8
  zero_not_mem : 0 ∉ bytes
  deriving DecidableEq

/-- The same bytes as a text with one character for each byte. -/
def textOfBytes (bytes : List UInt8) : String :=
  String.ofList (bytes.map fun b => Char.ofNat b.toNat)

/-- `strtol` in base 10 on the C string at the head of a buffer: 0 without digits. -/
def strtol (buffer : List UInt8) : ℤ :=
  let text := (cString buffer).map fun b => Char.ofNat b.toNat
  let (negative, s) := scanSign (text.dropWhile isSpace)
  let value : ℤ := digitsValue (s.takeWhile Char.isDigit)
  saturateLong (if negative then -value else value)

/-- A lowercase hexadecimal digit. -/
def hexDigit (n : ℕ) : UInt8 := UInt8.ofNat (if n < 10 then 48 + n else 87 + n)

/-- `%02x` of a byte. -/
def hexByte (b : UInt8) : List UInt8 := [hexDigit (b.toNat / 16), hexDigit (b.toNat % 16)]

/-- The hexadecimal text of bytes. -/
def hexText (bytes : List UInt8) : List UInt8 := bytes.flatMap hexByte

/-- `snprintf_s(dest, destMax, count, ..)` of a text: the buffer after it, and the result.  A text
that is longer than `count` is cut; a text that does not fit `destMax` empties the buffer. -/
def snprintfS (dest : List UInt8) (destMax count : ℕ) (text : List UInt8) : List UInt8 × ℤ :=
  if text.length < destMax ∧ text.length ≤ count then
    (text ++ 0 :: dest.drop (text.length + 1), text.length)
  else if count < destMax then (text.take count ++ 0 :: dest.drop (count + 1), -1)
  else (0 :: dest.tail, -1)

/-- `%ld`. -/
def decimalText (n : ℤ) : List UInt8 :=
  (if n < 0 then [45] else []) ++ (Nat.toDigits 10 n.natAbs).map fun c => UInt8.ofNat c.toNat

@[simp] theorem length_hexText (bytes : List UInt8) :
    (hexText bytes).length = 2 * bytes.length := by
  induction bytes with
  | nil => rfl
  | cons b bytes ih =>
    show (hexByte b ++ hexText bytes).length = 2 * (bytes.length + 1)
    rw [List.length_append, ih, hexByte, List.length_cons, List.length_singleton]
    omega

theorem hexDigit_ne_zero {n : ℕ} (hn : n < 16) : hexDigit n ≠ 0 := by
  have hall : ∀ n < 16, hexDigit n ≠ 0 := by decide
  exact hall n hn

theorem zero_not_mem_hexText (bytes : List UInt8) : 0 ∉ hexText bytes := by
  unfold hexText
  rw [List.mem_flatMap]
  rintro ⟨b, -, hzero⟩
  have hb := b.toNat_lt
  simp only [hexByte, List.mem_cons, List.not_mem_nil, or_false] at hzero
  rcases hzero with h | h
  · exact hexDigit_ne_zero (by omega) h.symm
  · exact hexDigit_ne_zero (by omega) h.symm

theorem cString_of_zero_not_mem {text : List UInt8} (h : 0 ∉ text) : cString text = text := by
  rw [cString, List.takeWhile_eq_self_iff]
  intro b hb
  have hne : b ≠ 0 := fun hb0 => h (hb0 ▸ hb)
  simpa using hne

theorem zero_not_mem_cString (buffer : List UInt8) : 0 ∉ cString buffer := by
  intro h
  simpa using List.mem_takeWhile_imp h

theorem cString_append_zero {text rest : List UInt8} (h : 0 ∉ text) :
    cString (text ++ 0 :: rest) = text := by
  rw [cString, List.takeWhile_append_of_pos]
  · simp
  · intro b hb
    have hne : b ≠ 0 := fun hb0 => h (hb0 ▸ hb)
    simpa using hne

theorem zero_mem_snprintfS (dest : List UInt8) (destMax count : ℕ) (text : List UInt8) :
    0 ∈ (snprintfS dest destMax count text).1 := by
  unfold snprintfS
  split
  · simp
  · split <;> simp

/-! ### Blocks -/

/-- A block of memory that holds a C string. -/
structure CharBlock where
  bytes : List UInt8
  zero_mem : 0 ∈ bytes
  deriving DecidableEq

namespace CharBlock

/-- The C string. -/
def text (block : CharBlock) : List UInt8 := cString block.bytes

/-- The C string as a text with one character for each byte. -/
def string (block : CharBlock) : String := textOfBytes block.text

/-- A block that holds bytes and a terminator. -/
def ofBytes (bytes : List UInt8) : CharBlock := ⟨bytes ++ [0], by simp⟩

/-- A block of `n + 1` bytes that holds bytes and zeros after them. -/
def padded (bytes : List UInt8) (n : ℕ) : CharBlock :=
  ⟨bytes ++ 0 :: List.replicate (n - bytes.length) 0, by simp⟩

/-- The first bytes of a block; reading past its end is undefined. -/
def firstBytes (block : CharBlock) (n : ℕ) : Option (List UInt8) :=
  if n ≤ block.bytes.length then some (block.bytes.take n) else none

/-- `snprintf_s` into a block; writing past its end is undefined. -/
def snprintfS (block : CharBlock) (destMax count : ℕ) (text : List UInt8) : Option CharBlock :=
  if min text.length count < block.bytes.length then
    some ⟨_, zero_mem_snprintfS block.bytes destMax count text⟩
  else none

@[simp] theorem bytes_ofBytes (bytes : List UInt8) : (ofBytes bytes).bytes = bytes ++ [0] := rfl

theorem text_ofBytes {bytes : List UInt8} (h : 0 ∉ bytes) : (ofBytes bytes).text = bytes :=
  cString_append_zero h

theorem text_padded {bytes : List UInt8} (h : 0 ∉ bytes) (n : ℕ) : (padded bytes n).text = bytes :=
  cString_append_zero h

/-- What has been printed, when it fits. -/
theorem text_of_snprintfS {block block' : CharBlock} {destMax count : ℕ} {text : List UInt8}
    (h : block.snprintfS destMax count text = some block') (hcount : count < destMax)
    (htext : 0 ∉ text) : block'.text = text.take count := by
  obtain ⟨-, h⟩ := Option.ite_none_right_eq_some.mp h
  obtain rfl := Option.some.inj h
  show cString (IotDeviceSdk.snprintfS block.bytes destMax count text).1 = _
  unfold IotDeviceSdk.snprintfS
  by_cases hlength : text.length ≤ count
  · rw [if_pos ⟨by omega, hlength⟩, List.take_of_length_le hlength]
    exact cString_append_zero htext
  · rw [if_neg fun hshort => hlength hshort.2, if_pos hcount]
    exact cString_append_zero fun hmem => htext (List.mem_of_mem_take hmem)

theorem zero_not_mem_text (block : CharBlock) : 0 ∉ block.text := zero_not_mem_cString _

end CharBlock

end IotDeviceSdk
