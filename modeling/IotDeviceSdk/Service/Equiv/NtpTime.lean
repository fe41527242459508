import IotDeviceSdk.Service.Equiv.EventNumbers

/-!
# The time of the platform

`OnEventsDownNtpArrived` takes three times from the message and adds two of them to its own clock.
The times have at most twenty digits each and are saturated at `LLONG_MAX`, so two of them can be
too much for a `long long`.

* `onEventsDownNtpArrived_accepted`: an accepted response goes on with the sum.
* `sumsFit_iff`: the step that adds the clock has the largest sum.
* `ntpExact_iff`: the sum stays a `long long`, and the time set is the exact one, exactly when the
  digits of the two times of the platform and the clock are small enough (`TimesFit`).
-/

namespace IotDeviceSdk.Service

open CJson Prog

variable {env : Env} {c : Cursor} {message : String} {now : ℕ} {loop : EventLoop}

/-! ### Definitions -/

/-- `device_send_time`. -/
def deviceSendTime (message : String) : ℤ := getLLongValueFromStr message DEVICE_SEND_TIME_JSON

/-- `server_recv_time`. -/
def serverRecvTime (message : String) : ℤ := getLLongValueFromStr message SERVER_RECV_TIME_JSON

/-- `server_send_time`. -/
def serverSendTime (message : String) : ℤ := getLLongValueFromStr message SERVER_SEND_TIME_JSON

/-- The conversion of an `unsigned long long` to `HW_LLONG`. -/
def hwLLong (n : ℕ) : ℤ := (n : ℤ).bmod (2 ^ 64)

/-- The three times of a message are accepted. -/
structure TimesAccepted (message : String) : Prop where
  device_send_time : 0 ≤ deviceSendTime message
  server_recv_time : 0 ≤ serverRecvTime message
  server_send_time : 0 ≤ serverSendTime message

/-- The values of a `long long`. -/
def IsLLong (n : ℤ) : Prop := -2 ^ 63 ≤ n ∧ n ≤ LLONG_MAX

/-- The steps of the sum. -/
structure SumsFit (message : String) (now : ℕ) : Prop where
  server : IsLLong (serverRecvTime message + serverSendTime message)
  clock : IsLLong (serverRecvTime message + serverSendTime message + now)
  device : IsLLong (serverRecvTime message + serverSendTime message + now - deviceSendTime message)

/-- The exact halved value. -/
def deviceRealTime (message : String) (now : ℕ) : ℤ :=
  (serverRecvTime message + serverSendTime message + now - deviceSendTime message).tdiv 2

/-- No step of the sum overflows, and the handler of a response sets the exact time. -/
structure NtpExact (env : Env) (c : Cursor) (message : String) (now : ℕ) (loop : EventLoop) :
    Prop where
  sums : SumsFit message now
  real_time : ∃ loop' c' slot,
    onEventsDownNtpArrived "time_sync_response" message (hwLLong now) loop env c =
        some ((loop', 1), c') ∧
      loop'.services[loop.i.toNat]? = some slot ∧
      slot.ntp_device_real_time = some (some (deviceRealTime message now))

/-- The digits of the two times of the platform denote numbers, saturated, whose sum with the clock
is at most `LLONG_MAX`. -/
def TimesFit (message : String) (now : ℕ) : Prop :=
  ∃ recv send, FirstDigits message.toList SERVER_RECV_TIME_JSON.toList recv ∧
    FirstDigits message.toList SERVER_SEND_TIME_JSON.toList send ∧
    min LLONG_MAX (digitsValue recv) + min LLONG_MAX (digitsValue send) + now ≤ LLONG_MAX

/-! ### The handler -/

theorem llong_eq {n : ℤ} (h : IsLLong n) : llong n = pure n := if_pos h

theorem hwLLong_of_lt (h : now < 2 ^ 62) : hwLLong now = now := by
  unfold hwLLong
  rw [Int.bmod_eq_of_le] <;> omega

theorem write_eq_pure (hlow : 0 ≤ loop.i) (hhigh : loop.i < loop.services.length)
    (f : ServiceEvent → ServiceEvent) :
    loop.write f = pure { loop with services := loop.services.modify loop.i.toNat f } := by
  unfold EventLoop.write modifySlot
  rw [if_pos ⟨hlow, hhigh⟩]
  rfl

/-- The sum and what is done with it. -/
def addTimes (message : String) (now : ℕ) (loop : EventLoop) : Sdk Handled := do
  let sum ← llong (serverRecvTime message + serverSendTime message)
  let sum ← llong (sum + now)
  let sum ← llong (sum - deviceSendTime message)
  let loop ← loop.write fun slot => { slot with ntp_device_real_time := some (some (sum.tdiv 2)) }
  return (loop, 1)

/-- The slot of the response before its time is set. -/
def ntpSlot (slot : ServiceEvent) : ServiceEvent :=
  { slot with
    ntp_device_real_time := some none
    event_type := some EN_IOTA_EVENT_GET_TIME_SYNC_RESPONSE }

/-- An accepted response that gets its memory goes on with the sum. -/
theorem onEventsDownNtpArrived_accepted (hmemory : env.mallocs c.malloc = true)
    (hlow : 0 ≤ loop.i) (hhigh : loop.i < loop.services.length) (htimes : TimesAccepted message) :
    onEventsDownNtpArrived "time_sync_response" message now loop env c =
      addTimes message now { loop with services := loop.services.modify loop.i.toNat ntpSlot } env
        { c with malloc := c.malloc + 1 } := by
  obtain ⟨hdevice, hrecv, hsend⟩ := htimes
  have haccepted : ¬(deviceSendTime message < 0 ∨ serverRecvTime message < 0 ∨
      serverSendTime message < 0) := by omega
  have hsecond := @write_eq_pure
    { loop with services := loop.services.modify loop.i.toNat fun slot =>
        { slot with ntp_device_real_time := some none } }
    hlow (by rw [List.length_modify]; exact hhigh)
  have hmalloc : malloc env c = some (true, { c with malloc := c.malloc + 1 }) := by
    rw [← hmemory]
    rfl
  unfold onEventsDownNtpArrived
  rw [bind_apply, hmalloc, Option.bind_some, write_eq_pure hlow hhigh]
  simp only [Bool.not_true, Bool.false_eq_true, if_false, if_true, pure_bind]
  rw [hsecond]
  simp only [pure_bind]
  rw [List.modify_modify_eq]
  show (if deviceSendTime message < 0 ∨ serverRecvTime message < 0 ∨ serverSendTime message < 0 then
    _ else _ : Sdk Handled) env _ = _
  rw [if_neg haccepted]
  rfl

theorem addTimes_of_sums (h : SumsFit message now) (hlow : 0 ≤ loop.i)
    (hhigh : loop.i < loop.services.length) :
    addTimes message now loop =
      pure ({ loop with services := loop.services.modify loop.i.toNat fun slot =>
        { slot with ntp_device_real_time := some (some (deviceRealTime message now)) } }, 1) := by
  unfold addTimes
  rw [llong_eq h.server, pure_bind, llong_eq h.clock, pure_bind, llong_eq h.device, pure_bind,
    write_eq_pure hlow hhigh, pure_bind]
  rfl

/-- **The sum and the time** of an accepted response. -/
theorem ntpExact_iff_sumsFit (hmemory : env.mallocs c.malloc = true) (hlow : 0 ≤ loop.i)
    (hhigh : loop.i < loop.services.length) (htimes : TimesAccepted message) (hnow : now < 2 ^ 62) :
    NtpExact env c message now loop ↔ SumsFit message now := by
  refine ⟨fun h => h.sums, fun h => ⟨h, ?_⟩⟩
  have hindex : loop.i.toNat < loop.services.length := by omega
  have hadd := @addTimes_of_sums message now
    { loop with services := loop.services.modify loop.i.toNat ntpSlot } h hlow
    (by rw [List.length_modify]; exact hhigh)
  rw [hwLLong_of_lt hnow, onEventsDownNtpArrived_accepted hmemory hlow hhigh htimes, hadd]
  refine ⟨_, _, { ntpSlot loop.services[loop.i.toNat] with
    ntp_device_real_time := some (some (deviceRealTime message now)) }, rfl, ?_, rfl⟩
  · show ((loop.services.modify loop.i.toNat ntpSlot).modify loop.i.toNat _)[loop.i.toNat]? = _
    rw [List.getElem?_modify_eq, List.getElem?_modify_eq, List.getElem?_eq_getElem hindex]
    rfl

/-! ### The digits -/

theorem sumsFit_iff (htimes : TimesAccepted message) :
    SumsFit message now ↔ serverRecvTime message + serverSendTime message + now ≤ LLONG_MAX := by
  obtain ⟨hdevice, hrecv, hsend⟩ := htimes
  have hmax : deviceSendTime message ≤ LLONG_MAX := by
    obtain ⟨digits, -, -, hread⟩ := firstDigits_of_nonneg (noDigit_of_all (by decide)) hdevice
    rw [deviceSendTime, hread]
    exact min_le_left _ _
  constructor
  · exact fun h => h.clock.2
  · intro h
    unfold LLONG_MAX at hmax h
    refine ⟨⟨?_, ?_⟩, ⟨?_, h⟩, ⟨?_, ?_⟩⟩ <;> (try unfold LLONG_MAX) <;> omega

theorem eq_strtollDigits_of_firstDigits {key : String} {digits : List Char}
    (hkey : ∀ c ∈ key.toList, c.isDigit = false)
    (hdigits : FirstDigits message.toList key.toList digits)
    (hnonneg : 0 ≤ getLLongValueFromStr message key) :
    getLLongValueFromStr message key = min LLONG_MAX (digitsValue digits) := by
  have hread := getLLongValueFromStr_of_firstDigits hkey hdigits
  split at hread
  · omega
  · exact hread

theorem timesFit_iff (htimes : TimesAccepted message) :
    TimesFit message now ↔ serverRecvTime message + serverSendTime message + now ≤ LLONG_MAX := by
  have hrecvKey := noDigit_of_all (show SERVER_RECV_TIME_JSON.toList.all _ = true by decide)
  have hsendKey := noDigit_of_all (show SERVER_SEND_TIME_JSON.toList.all _ = true by decide)
  constructor
  · rintro ⟨recv, send, hrecv, hsend, hsum⟩
    rw [serverRecvTime, serverSendTime,
      eq_strtollDigits_of_firstDigits hrecvKey hrecv htimes.server_recv_time,
      eq_strtollDigits_of_firstDigits hsendKey hsend htimes.server_send_time]
    exact hsum
  · intro hsum
    obtain ⟨recv, hrecv, -, hrecvTime⟩ := firstDigits_of_nonneg hrecvKey htimes.server_recv_time
    obtain ⟨send, hsend, -, hsendTime⟩ := firstDigits_of_nonneg hsendKey htimes.server_send_time
    refine ⟨recv, send, hrecv, hsend, ?_⟩
    rw [serverRecvTime, serverSendTime, hrecvTime, hsendTime] at hsum
    exact hsum

/-- **The sum of an accepted response** overflows exactly when the times are too large. -/
theorem ntpExact_iff (env : Env) (c : Cursor) (message : String) (now : ℕ) (loop : EventLoop)
    (hmemory : env.mallocs c.malloc = true) (hlow : 0 ≤ loop.i)
    (hhigh : loop.i < loop.services.length) (htimes : TimesAccepted message)
    (hnow : now < 2 ^ 62) : NtpExact env c message now loop ↔ TimesFit message now := by
  rw [ntpExact_iff_sumsFit hmemory hlow hhigh htimes hnow, sumsFit_iff htimes, timesFit_iff htimes]

/-- A response with short times. -/
def shortTimes : String :=
  "\x7b\"device_send_time\":10,\"server_recv_time\":20,\"server_send_time\":22\x7d"

theorem ntpExact_iff_short :
    TimesAccepted shortTimes ∧
      (NtpExact .plentiful default shortTimes 12 { services := [{}] } ↔
        TimesFit shortTimes 12) := by
  have htimes : TimesAccepted shortTimes :=
    ⟨by decide +kernel, by decide +kernel, by decide +kernel⟩
  exact ⟨htimes, ntpExact_iff _ _ _ _ _ rfl (by decide) (by decide) htimes (by decide)⟩

/-- A response with times of twenty digits. -/
def longTimes : String :=
  "\x7b\"device_send_time\":10,\"server_recv_time\":99999999999999999999," ++
    "\"server_send_time\":99999999999999999999\x7d"

/-- The sum of two saturated times overflows. -/
theorem not_ntpExact_longTimes :
    ¬∀ env c message now loop, env.mallocs c.malloc = true → 0 ≤ loop.i →
      loop.i < loop.services.length → TimesAccepted message → now < 2 ^ 62 →
      NtpExact env c message now loop := by
  intro h
  have htimes : TimesAccepted longTimes :=
    ⟨by decide +kernel, by decide +kernel, by decide +kernel⟩
  have hexact := h .plentiful default longTimes 0 { services := [{}] } rfl (by decide) (by decide)
    htimes (by decide)
  exact absurd hexact.sums.server.2 (by decide +kernel)

end IotDeviceSdk.Service
