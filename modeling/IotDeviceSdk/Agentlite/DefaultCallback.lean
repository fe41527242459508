import IotDeviceSdk.Libc.Time

/-!
# `iota_defaultCallback.c`: reconnecting

The default callbacks of a connection.  `IOTA_HandleConnectFailure` waits before it connects again,
the longer the more often it has been called: its counter `retryTimes` is a static variable.  It is
the callback of failed connections and of lost ones.

Arithmetic on `unsigned long` wraps, on `long` and `int` it is undefined where it overflows.  The
results of `rand` are inputs; what `IOTA_Connect` does comes back as a later event.
-/

namespace IotDeviceSdk.Agentlite

/-- `IOTA_DEFAULE_BACKOFF`. -/
def IOTA_DEFAULE_BACKOFF : ℕ := 1000

/-- `IOTA_MIN_BACKOFF`. -/
def IOTA_MIN_BACKOFF : ℤ := 1000

/-- `IOTA_MAX_BACKOFF`. -/
def IOTA_MAX_BACKOFF : ℤ := 30 * 1000

/-- `RAND_MAX`. -/
def RAND_MAX : ℕ := 2 ^ 31 - 1

/-- A result of `rand`. -/
abbrev Rand : Type := Fin (RAND_MAX + 1)

/-- A result of arithmetic on `unsigned long`. -/
def unsignedLong (n : ℕ) : ℕ := n % 2 ^ 64

/-- The conversion of an `unsigned long` to `long`. -/
def longOfUnsigned (n : ℕ) : ℤ := (n : ℤ).bmod (2 ^ 64)

/-- A result of arithmetic on `long`. -/
def long (n : ℤ) : Option ℤ := if -2 ^ 63 ≤ n ∧ n < 2 ^ 63 then some n else none

/-- `(unsigned long)(IOTA_DEFAULE_BACKOFF * 0.8)`; the product is 800 as a `double`, too. -/
def lowBound : ℕ := IOTA_DEFAULE_BACKOFF * 8 / 10

/-- `(unsigned long)(IOTA_DEFAULE_BACKOFF * 1.0)`. -/
def highBound : ℕ := IOTA_DEFAULE_BACKOFF

/-- `randomBackOff`. -/
def randomBackOff (rand : Rand) : ℕ := unsignedLong (rand.val % (highBound - lowBound) + lowBound)

/-- `power`. -/
def backoffPower (retryTimes : ℕ) : ℕ := if retryTimes ≥ 32 then 31 else retryTimes

/-- `powParameter`. -/
def powParameter (retryTimes : ℕ) : ℕ := unsignedLong (2 ^ backoffPower retryTimes)

/-- `backOffWithJitter`. -/
def backOffWithJitter (retryTimes : ℕ) (rand : Rand) : ℤ :=
  longOfUnsigned
    (unsignedLong (powParameter retryTimes * unsignedLong (randomBackOff rand + lowBound)))

/-- `waitTimeUntilNextRetry`. -/
def waitTimeUntilNextRetry (retryTimes : ℕ) (rand : Rand) : Option ℤ := do
  let time ← long (IOTA_MIN_BACKOFF + backOffWithJitter retryTimes rand)
  return if time > IOTA_MAX_BACKOFF then IOTA_MAX_BACKOFF else time

/-- `TimeSleep`: the microseconds `usleep` is called with. -/
def timeSleep (ms : ℤ) : Option ℤ :=
  let us := cInt ms * 1000
  if -2 ^ 31 ≤ us ∧ us < 2 ^ 31 then some us else none

/-- The static counter, and the waiting times so far. -/
structure BackoffState where
  retryTimes : ℕ := 0
  waits : List ℤ := []
  deriving DecidableEq

/-- `IOTA_HandleConnectFailure`. -/
def iotaHandleConnectFailure (rand : Rand) (s : BackoffState) : Option BackoffState := do
  let wait ← waitTimeUntilNextRetry s.retryTimes rand
  let _ ← timeSleep wait
  -- `retryTimes++`
  let retryTimes ← long (s.retryTimes + 1)
  return { retryTimes := retryTimes.toNat, waits := s.waits ++ [wait] }

/-- `IOTA_HandleConnectSuccess`, which prints a line. -/
def iotaHandleConnectSuccess (s : BackoffState) : Option BackoffState := some s

/-- What happens to the connection: `EN_CALLBACK_CONNECT_SUCCESS`, `EN_CALLBACK_CONNECT_FAILURE` and
`EN_CALLBACK_CONNECTION_LOST`. -/
inductive ConnectItem where
  | connectSuccess
  | connectFailure
  | connectionLost
  deriving DecidableEq

/-- The callbacks `IOTA_DefaultCallbackInit` sets, with the result `rand` has in them. -/
def iotaDefaultCallbackInit (item : ConnectItem) (rand : Rand) :
    BackoffState → Option BackoffState :=
  match item with
  | .connectSuccess => iotaHandleConnectSuccess
  | .connectFailure => iotaHandleConnectFailure rand
  | .connectionLost => iotaHandleConnectFailure rand

/-- An event of the connection, and the result of `rand` in its callback. -/
structure ConnectEvent where
  item : ConnectItem
  rand : Rand
  deriving DecidableEq

/-- The callback of an event. -/
def connectEvent (s : BackoffState) (event : ConnectEvent) : Option BackoffState :=
  iotaDefaultCallbackInit event.item event.rand s

/-- The callbacks of some events, one after the other. -/
def connectEvents (events : List ConnectEvent) (s : BackoffState) : Option BackoffState :=
  events.foldlM connectEvent s

end IotDeviceSdk.Agentlite
