import IotDeviceSdk.Libc.Double
import IotDeviceSdk.Libc.Scan

/-!
# `strtod`

What stands for a number is white space, a sign and digits in decimal or, after `0x`, hexadecimal
notation, or one of the words `inf`, `infinity` and `nan`.  A `Radix` is a notation; a number is
rounded when it is stored as a `double`.
-/

namespace IotDeviceSdk

/-! ### Notations -/

/-- How the numbers of a notation are written: its digits, the letters in front of an exponent, and
what the exponent is one of. -/
structure Radix where
  base : ℕ
  isDigit : Char → Bool
  digitValue : Char → ℕ
  isLetter : Char → Bool
  exponentBase : ℚ
  isDigit_point : isDigit '.' = false
  isLetter_point : isLetter '.' = false
  isDigit_of_isLetter : ∀ c, isLetter c = true → isDigit c = false

namespace Radix

/-- Decimal notation. -/
def decimal : Radix where
  base := 10
  isDigit := Char.isDigit
  digitValue c := c.toNat - '0'.toNat
  isLetter c := c = 'e' || c = 'E'
  exponentBase := 10
  isDigit_point := rfl
  isLetter_point := rfl
  isDigit_of_isLetter c hc := by
    rcases Bool.or_eq_true_iff.mp hc with h | h <;> rw [of_decide_eq_true h] <;> rfl

/-- `isxdigit`. -/
def isHexDigit (c : Char) : Bool :=
  c.isDigit || ('a' ≤ c && c ≤ 'f') || ('A' ≤ c && c ≤ 'F')

/-- Hexadecimal notation, with an exponent of two in decimal digits. -/
def hexadecimal : Radix where
  base := 16
  isDigit := isHexDigit
  digitValue c :=
    if c.isDigit then c.toNat - '0'.toNat
    else if c ≤ 'F' then c.toNat - 'A'.toNat + 10
    else c.toNat - 'a'.toNat + 10
  isLetter c := c = 'p' || c = 'P'
  exponentBase := 2
  isDigit_point := rfl
  isLetter_point := rfl
  isDigit_of_isLetter c hc := by
    rcases Bool.or_eq_true_iff.mp hc with h | h <;> rw [of_decide_eq_true h] <;> rfl

variable (r : Radix)

/-- The number that digits stand for. -/
def value (digits : List Char) : ℕ := digits.foldl (fun n c => r.base * n + r.digitValue c) 0

/-- The exponent at the head of a text, its letter, a sign and decimal digits; zero when there is
none. -/
def scanExponent (s : List Char) : ℤ × List Char :=
  match s with
  | e :: s' =>
    if r.isLetter e then
      let (negative, t) := scanSign s'
      match t.takeWhile Char.isDigit with
      | [] => (0, s)
      | digits =>
        let value : ℤ := digitsValue digits
        (if negative then -value else value, t.dropWhile Char.isDigit)
    else (0, s)
  | [] => (0, s)

/-- The digits before and after the point at the head of a text, and the rest. -/
def scanMantissa (t : List Char) : List Char × List Char × List Char :=
  match t.dropWhile r.isDigit with
  | '.' :: t' => (t.takeWhile r.isDigit, t'.takeWhile r.isDigit, t'.dropWhile r.isDigit)
  | t' => (t.takeWhile r.isDigit, [], t')

/-- The number at the head of a text without its sign, and the rest. -/
def scanNumber (t : List Char) : Option (ℚ × List Char) :=
  let (whole, fraction, t) := r.scanMantissa t
  if whole.isEmpty && fraction.isEmpty then none
  else
    let (exponent, t) := r.scanExponent t
    some ((r.value (whole ++ fraction) : ℚ) / (r.base : ℚ) ^ fraction.length *
      r.exponentBase ^ exponent, t)

end Radix

/-- The number behind `0x` at the head of a text. -/
def scanHexadecimal (t : List Char) : Option (ℚ × List Char) :=
  match t with
  | '0' :: x :: t => if x = 'x' ∨ x = 'X' then Radix.hexadecimal.scanNumber t else none
  | _ => none

/-! ### Words -/

/-- What stands behind a word at the head of a text, in letters of either case. -/
def stripWord (word : String) (t : List Char) : Option (List Char) :=
  if (t.take word.length).map Char.toLower = word.toList then some (t.drop word.length) else none

/-- The characters that may stand in brackets behind `nan`. -/
def isNanChar (c : Char) : Bool := c.isAlphanum || c = '_'

/-- What follows `nan` and the characters in brackets that belong to it. -/
def dropNanChars (t : List Char) : List Char :=
  match t with
  | '(' :: s =>
    match s.dropWhile isNanChar with
    | ')' :: rest => rest
    | _ => t
  | _ => t

/-- The word for a value that is no number, and the rest. -/
def scanWord (t : List Char) : Option (CDouble × List Char) :=
  match stripWord "infinity" t with
  | some rest => some (.num HUGE_VAL, rest)
  | none =>
    match stripWord "inf" t with
    | some rest => some (.num HUGE_VAL, rest)
    | none => (stripWord "nan" t).map fun rest => (.nan, dropNanChars rest)

/-! ### `strtod` -/

/-- `strtod`: the value of the number at the head of the text, and the rest of the text (`endptr`),
which is the whole text when no number could be read. -/
def strtod (s : List Char) : CDouble × List Char :=
  let (negative, t) := scanSign (s.dropWhile isSpace)
  match (scanHexadecimal t).or (Radix.decimal.scanNumber t) with
  | some (magnitude, t) => (.num (toDouble (if negative then -magnitude else magnitude)), t)
  | none =>
    match scanWord t with
    | some (value, t) => (if negative then value.neg else value, t)
    | none => (.num 0, s)

example : strtod "0.1,5".toList = (.num (3602879701896397 / 2 ^ 55), ",5".toList) := by
  decide +kernel

example : strtod " -0x1.8P3".toList = (.num (-12), []) := by decide +kernel

example : strtod "0x".toList = (.num 0, "x".toList) := by decide +kernel

example : strtod "NaN(1)e5".toList = (.nan, "e5".toList) := by decide +kernel

end IotDeviceSdk
