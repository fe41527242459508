import IotDeviceSdk.Libc.Time

/-!
# Arithmetic of `int` with its traps

Operations of C that are undefined on some operands, each with the fault it commits there.
-/

namespace IotDeviceSdk

/-- The faults of `int` arithmetic. -/
inductive IntTrap where
  /-- a conversion of a value that does not fit -/
  | conversion
  /-- a division or remainder by zero -/
  | divisionByZero
  /-- the quotient of the least `int` and `-1` -/
  | divisionOverflow
  deriving DecidableEq

/-- `(int)difftime(later, earlier)`.  Only differences far out of range are rounded. -/
def intOfDifftime (later earlier : ℤ) : Except IntTrap ℤ :=
  let diff := later - earlier
  if diff < -2 ^ 31 ∨ 2 ^ 31 ≤ diff then .error .conversion else .ok diff

/-- The operands of a division on which it is defined. -/
def intDivide (op : ℤ → ℤ → ℤ) (a b : ℤ) : Except IntTrap ℤ :=
  if b = 0 then .error .divisionByZero
  else if a = -2 ^ 31 ∧ b = -1 then .error .divisionOverflow
  else .ok (op a b)

/-- `a / b` on `int`. -/
def intDiv (a b : ℤ) : Except IntTrap ℤ := intDivide Int.tdiv a b

/-- `a % b` on `int`. -/
def intRem (a b : ℤ) : Except IntTrap ℤ := intDivide Int.tmod a b

theorem intOfDifftime_of_lt {later earlier : ℤ} (hle : earlier ≤ later)
    (hlt : later - earlier < 2 ^ 31) : intOfDifftime later earlier = .ok (later - earlier) :=
  if_neg (by omega)

theorem intOfDifftime_of_le {later earlier : ℤ} (hle : 2 ^ 31 ≤ later - earlier) :
    intOfDifftime later earlier = .error .conversion :=
  if_pos (Or.inr hle)

/-- A dividend that is not negative overflows no division. -/
theorem intDivide_of_nonneg (op : ℤ → ℤ → ℤ) {a b : ℤ} (ha : 0 ≤ a) (hb : b ≠ 0) :
    intDivide op a b = .ok (op a b) := by
  unfold intDivide
  rw [if_neg hb, if_neg (by omega)]

end IotDeviceSdk
