import Mathlib.Data.Int.Basic

/-!
# `detect_anomaly.c`: local logins

`LocalLoginCheckProcessLog` reads the login records that are new in the log and reports whether one
of them is a login of a user from no network address.  Of `inet_pton` the code relies on its result
being 1 for an address and 0 for any other text.
-/

namespace IotDeviceSdk.Service

/-- `AF_INET` and `AF_INET6`. -/
inductive AddressFamily where
  | inet
  | inet6
  deriving DecidableEq

/-- `inet_pton` of these families. -/
structure InetPton where
  inet_pton : AddressFamily → String → ℤ
  valid : ∀ family src, inet_pton family src = 0 ∨ inet_pton family src = 1

/-- `USER_PROCESS`. -/
def USER_PROCESS : ℤ := 7

/-- `struct utmpx`, as far as the check reads it. -/
structure Utmpx where
  ut_type : ℤ
  ut_host : String
  deriving DecidableEq

/-- `LocalLoginCheckUtmpxItem`, with whether it prints a local login. -/
def localLoginCheckUtmpxItem (net : InetPton) (ut : Utmpx) : Bool × Bool :=
  let localLoginFlag := false
  if ut.ut_type = USER_PROCESS ∧ net.inet_pton .inet ut.ut_host = 0 ∧
      net.inet_pton .inet6 ut.ut_host = 0 then
    (localLoginFlag, true)
  else (localLoginFlag, false)

/-- What a check finds of the log. -/
structure UtmpxLog where
  /-- Whether `fopen` succeeds. -/
  opened : Bool
  /-- The size `fstat` gives, `none` when it fails. -/
  st_size : Option ℤ
  /-- Whether `fseek` succeeds. -/
  sought : Bool
  /-- The records `fread` reads from the offset on. -/
  records : List Utmpx
  /-- `ftello` at the end. -/
  currentFileSize : ℤ

/-- The loop of `LocalLoginCheckProcessLog`. -/
def localLoginFlag (net : InetPton) (records : List Utmpx) : Bool :=
  records.foldl (fun flag utmpxItem => flag || (localLoginCheckUtmpxItem net utmpxItem).1) false

/-- What a check leaves: its result, `login_local_alarm` when it is reported, and the offset. -/
structure LocalLoginChecked where
  ret : Bool
  login_local_alarm : Option Bool
  startOffset : ℤ
  deriving DecidableEq

/-- `LocalLoginCheckProcessLog`. -/
def localLoginCheckProcessLog (net : InetPton) (log : UtmpxLog) (startOffset : ℤ) :
    LocalLoginChecked :=
  if !log.opened then ⟨false, none, startOffset⟩
  else
    match log.st_size with
    | none => ⟨true, some false, startOffset⟩
    | some st_size =>
      if st_size = startOffset then ⟨true, some false, startOffset⟩
      else
        { ret := true
          login_local_alarm :=
            some (localLoginFlag net (if log.sought then log.records else []))
          startOffset :=
            if log.currentFileSize ≠ -1 ∧ log.currentFileSize ≠ startOffset then log.currentFileSize
            else st_size }

end IotDeviceSdk.Service
