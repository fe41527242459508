import IotDeviceSdk.Libc.LittleEndian

/-!
# `detect_anomaly.c`: reading inotify events

`InotifyReadEventsAndIterate` reads from the inotify descriptor into a buffer and hands the events
in it to a callback.  What `read` gives is an input; the function may ask for more of it than there
is. The callback sees an event in the buffer, so a call stands for the read that filled the buffer,
the offset of the event and what is found there.
-/

namespace IotDeviceSdk.Service

/-- `struct inotify_event` with its name. -/
structure InotifyEvent where
  wd : UInt32
  mask : UInt32
  cookie : UInt32
  len : UInt32
  name : List UInt8
  deriving DecidableEq

/-- `EVENT_SIZE`. -/
def EVENT_SIZE : ℕ := 16

/-- `EVENT_PER_LOOP`. -/
def EVENT_PER_LOOP : ℕ := 4

/-- `EVENT_BUF_LEN`. -/
def EVENT_BUF_LEN : ℕ := EVENT_PER_LOOP * EVENT_SIZE

/-- `EAGAIN`. -/
def EAGAIN : ℤ := 11

/-- The event at an offset of the buffer, with as much of its name as the buffer holds; a header
outside the buffer is undefined. -/
def eventAt (buf : List UInt8) (i : ℕ) : Option InotifyEvent :=
  if i + EVENT_SIZE ≤ buf.length then
    let len := word32 buf (i + 12)
    some
      { wd := word32 buf i
        mask := word32 buf (i + 4)
        cookie := word32 buf (i + 8)
        len := len
        name := slice buf (i + EVENT_SIZE) len.toNat }
  else none

/-- A call of the callback: the number of the read, the offset in the buffer and the event there. -/
structure EventCall where
  read : ℕ
  offset : ℕ
  event : InotifyEvent
  deriving DecidableEq

/-- The inner loop: whether the callback went along, the offset and the calls.  Each round takes the
offset further, so as many rounds as there are bytes are enough. -/
def iterateEvents (eventCallback : InotifyEvent → Bool) (read length : ℕ) (buf : List UInt8) :
    ℕ → ℕ → List EventCall → Option (Bool × ℕ × List EventCall)
  | 0, i, calls => if i < length then none else some (true, i, calls)
  | rounds + 1, i, calls =>
    if i < length then do
      let event ← eventAt buf i
      let calls := calls ++ [⟨read, i, event⟩]
      if !eventCallback event then return (false, i, calls)
      iterateEvents eventCallback read length buf rounds (i + (EVENT_SIZE + event.len.toNat)) calls
    else some (true, i, calls)

/-- A result of `read`: bytes, or -1 with `errno`. -/
inductive ReadResult where
  | bytes (bytes : List UInt8)
  | error (errno : ℤ)
  deriving DecidableEq

/-- How far the function gets: it returns with some results of `read` left, or asks for another
one. -/
inductive InotifyOutcome where
  | returned (ret : Bool) (calls : List EventCall) (left : List ReadResult)
  | reading (calls : List EventCall)
  deriving DecidableEq

/-- The buffer after a `read`, which gives no more bytes than there is room for. -/
def fillBuffer (buf bytes : List UInt8) : Option (List UInt8) :=
  if bytes.length ≤ buf.length then some (overwrite buf 0 bytes) else none

/-- The outer loop, from the `read`-th call of `read` on. -/
def inotifyLoop (eventCallback : InotifyEvent → Bool) :
    ℕ → ℕ → List UInt8 → List EventCall → List ReadResult → Option InotifyOutcome
  | _, _, _, calls, [] => some (.reading calls)
  | read, i, buf, calls, .error errno :: reads =>
    if errno = EAGAIN then some (.returned false calls reads)
    -- the length is -1, and `i` is not below it
    else inotifyLoop eventCallback (read + 1) i buf calls reads
  | read, i, buf, calls, .bytes bytes :: reads => do
    let buf ← fillBuffer buf bytes
    let (goOn, i, calls) ←
      iterateEvents eventCallback read bytes.length buf bytes.length i calls
    if !goOn then return .returned false calls reads
    inotifyLoop eventCallback (read + 1) i buf calls reads

/-- `InotifyReadEventsAndIterate`, with the indeterminate content of `buf`. -/
def inotifyReadEventsAndIterate (eventCallback : InotifyEvent → Bool) (buf : List UInt8)
    (reads : List ReadResult) : Option InotifyOutcome :=
  inotifyLoop eventCallback 0 0 buf [] reads

end IotDeviceSdk.Service
