import IotDeviceSdk.Libc.Search
import IotDeviceSdk.Libc.Strings

/-!
# `detect_anomaly.c`: the addresses of connections

`NetWorkInfoLineToIPString` looks for the remote address in a line of `/proc/net/tcp` and its
siblings and prints it.  The line is the text of its bytes, and a pointer into it the text from
there on; going on from a `NULL` and reading past the end are undefined.
-/

namespace IotDeviceSdk.Service

/-- `IP_STR_MAX_LEN`. -/
def IP_STR_MAX_LEN : ℕ := 40

/-- A `char`, which is signed. -/
def charValue (c : UInt8) : ℤ := (c.toNat : ℤ).bmod (2 ^ 8)

/-- The loop of `Bytes2Int`, on a `uint16_t`. -/
def bytes2Int.go : List UInt8 → ℕ → ℕ → Option ℕ
  | _, 0, ret => some ret
  | [], _ + 1, _ => none
  | c :: str, len + 1, ret => go str len ((ret * 16 + charValue c - 48) % 2 ^ 16).toNat

/-- `Bytes2Int`. -/
def bytes2Int (str : List UInt8) (len : ℕ) : Option ℕ := bytes2Int.go str len 0

/-- `strstr(line, s) + 1` for a text of one character. -/
def pastNext (line : List UInt8) (c : UInt8) : Option (List UInt8) :=
  (strchr line c).map List.tail

/-- The loop of `NetWorkInfoLineToIPString` with the rounds that are left, and the end of the
function: its result and the buffer. -/
def printDigits (line : List UInt8) (ipNibbleCnt : ℕ) (ipDigitSplitter : UInt8) (bufferLen : ℕ) :
    ℕ → List UInt8 → ℕ → Bool → Option (Bool × List UInt8)
  | 0, ip, offset, notAllZero =>
    if offset = 0 then none
    else (writeAt ip (offset - 1) 0).map fun ip => (notAllZero, ip)
  | rounds + 1, ip, offset, notAllZero => do
    -- `line` is where it was in the round before
    let ipDigit ← bytes2Int line ipNibbleCnt
    let notAllZero := notAllZero || ipDigit ≠ 0
    let (printed, ret) ←
      sprintfS (ip.drop offset) (bufferLen - offset) (decimalText ipDigit ++ [ipDigitSplitter])
    let ip := ip.take offset ++ printed
    if ret = -1 then return (false, ip)
    printDigits line ipNibbleCnt ipDigitSplitter bufferLen rounds ip (offset + ret.toNat) notAllZero

/-- `NetWorkInfoLineToIPString`. -/
def netWorkInfoLineToIPString (lineIn : List UInt8) (isIpv6 : Bool) (ip : List UInt8)
    (bufferLen : ℕ) : Option (Bool × List UInt8) := do
  let ipDigitCnt := if isIpv6 then 8 else 4
  let ipNibbleCnt := if isIpv6 then 4 else 2
  let ipDigitSplitter := if isIpv6 then 58 else 46
  let line ← pastNext lineIn 58
  let line ← pastNext line 58
  let line ← pastNext line 32
  printDigits line ipNibbleCnt ipDigitSplitter bufferLen ipDigitCnt ip 0 false

end IotDeviceSdk.Service
