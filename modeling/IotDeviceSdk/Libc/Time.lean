import Mathlib.Algebra.Group.Int.Defs
import Mathlib.Algebra.Group.Nat.Defs
import Mathlib.Data.Fin.Basic
import Mathlib.Data.Int.Basic

/-!
# Calendar time

`gmtime_r` and `timegm` of the C library: the broken-down UTC time of an epoch second and the
epoch second of a broken-down time.  Both use the proleptic Gregorian calendar without leap
seconds; `timegm` accepts components outside their ranges.
-/

namespace IotDeviceSdk

/-- A C `int` result: the value wraps around at 32 bits. -/
def cInt (n : ℤ) : ℤ := n.bmod (2 ^ 32)

theorem cInt_eq {n : ℤ} (hlow : -2 ^ 31 ≤ n) (hhigh : n < 2 ^ 31) : cInt n = n :=
  Int.bmod_eq_of_le (by omega) (by omega)

/-- `struct tm`, the components `timegm` reads. -/
structure Tm where
  tm_sec : ℤ
  tm_min : ℤ
  tm_hour : ℤ
  tm_mday : ℤ
  tm_mon : ℤ
  tm_year : ℤ
  deriving DecidableEq, Inhabited

/-- Seconds in a day. -/
def secondsPerDay : ℤ := 86400

/-- The day count from 1970-01-01 to the given day of the Gregorian calendar; years start in
March, so that the leap day is the last day of a year. -/
def daysFromCivil (year mon mday : ℤ) : ℤ :=
  let y := if mon ≤ 2 then year - 1 else year
  let era := y / 400
  let yoe := y - era * 400
  let doy := (153 * (if 2 < mon then mon - 3 else mon + 9) + 2) / 5 + mday - 1
  let doe := yoe * 365 + yoe / 4 - yoe / 100 + doy
  era * 146097 + doe - 719468

/-- `timegm`. -/
def timegm (tm : Tm) : ℤ :=
  daysFromCivil (tm.tm_year + 1900 + tm.tm_mon / 12) (tm.tm_mon % 12 + 1) 1 * secondsPerDay
    + (tm.tm_mday - 1) * secondsPerDay + tm.tm_hour * 3600 + tm.tm_min * 60 + tm.tm_sec

example : timegm ⟨5, 4, 3, 29, 1, 124⟩ = 1709175845 := by decide

/-- The day of the week of an epoch second; 1970-01-01 was a Thursday. -/
def weekday (epochTime : ℤ) : Fin 7 := Fin.ofNat 7 ((epochTime / secondsPerDay + 4) % 7).toNat

/-- The part of `gmtime_r` the rule engine reads: the time of day and the day of the week. -/
structure ClockTime where
  tm_hour : ℤ
  tm_min : ℤ
  tm_sec : ℤ
  tm_wday : Fin 7
  deriving DecidableEq

/-- `gmtime_r`, as far as the rule engine reads its result. -/
def gmtime (epochTime : ℤ) : ClockTime where
  tm_hour := epochTime % secondsPerDay / 3600
  tm_min := epochTime % secondsPerDay % 3600 / 60
  tm_sec := epochTime % secondsPerDay % 60
  tm_wday := weekday epochTime

end IotDeviceSdk
