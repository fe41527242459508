import IotDeviceSdk.Libc.Time
import Mathlib.Data.Rat.Defs

/-!
# Reading integers from texts

`sscanf_s` for formats of `%d`, literal characters and blanks.  A text is the list of its characters
without the terminating zero.
-/

namespace IotDeviceSdk

/-- `isspace`. -/
def isSpace (c : Char) : Bool :=
  c = ' ' || c = '\t' || c = '\n' || c = '\x0b' || c = '\x0c' || c = '\r'

/-- The value of a list of decimal digits. -/
def digitsValue (digits : List Char) : ℕ :=
  digits.foldl (fun n c => 10 * n + (c.toNat - '0'.toNat)) 0

/-- An optional sign: whether it is a minus, and the rest. -/
def scanSign : List Char → Bool × List Char
  | '-' :: s => (true, s)
  | '+' :: s => (false, s)
  | s => (false, s)

/-- One item of a `sscanf_s` format. -/
inductive ScanDirective where
  /-- `%d` -/
  | int
  /-- a character that must match -/
  | lit (c : Char)
  /-- a blank, which matches any run of white space -/
  | blank

/-- `strtol` saturates. -/
def saturateLong (n : ℤ) : ℤ := max (-2 ^ 63) (min (2 ^ 63 - 1) n)

/-- The decimal integer at the head of a text, as `%d` converts it, and the rest of the text: the
value of `strtol` cut down to an `int`. -/
def scanInt (s : List Char) : Option (ℤ × List Char) :=
  let (negative, s) := scanSign s
  match s.takeWhile Char.isDigit with
  | [] => none
  | digits =>
    let value : ℤ := digitsValue digits
    some (cInt (saturateLong (if negative then -value else value)), s.dropWhile Char.isDigit)

/-- `sscanf_s` with `%d` conversions: the values assigned, in order, or `none` for `-1`, the end
of the input before the first conversion.  A sign is read before the digits, so a text that ends
behind it has ended as well. -/
def sscanf (format : List ScanDirective) (s : List Char) : Option (List ℤ) :=
  go format s []
where
  /-- The directives still to come, with the values assigned so far. -/
  go : List ScanDirective → List Char → List ℤ → Option (List ℤ)
    | [], _, assigned => some assigned
    | .int :: format, s, assigned =>
      let s := s.dropWhile isSpace
      if (scanSign s).2.isEmpty then if assigned.isEmpty then none else some assigned
      else
        match scanInt s with
        | none => some assigned
        | some (value, s) => go format s (assigned ++ [value])
    | .lit c :: format, s, assigned =>
      match s with
      | [] => if assigned.isEmpty then none else some assigned
      | d :: s => if d = c then go format s assigned else some assigned
    | .blank :: format, s, assigned => go format (s.dropWhile isSpace) assigned

end IotDeviceSdk
