import IotDeviceSdk.Agentlite.DefaultCallback
import IotDeviceSdk.Backoff.Basic

/-!
# The waiting times before reconnecting

* `waitTimeUntilNextRetry_eq`: the waiting time of a callback is a delay of a capped exponential
  backoff, with no wrap and no overflow (`Exact`).
* `connectEvents_failing`: what a run of failures does.
* `reconnect_backoff`: its waiting times stay within their bounds and do not shrink.
* `restartsAfterSuccess_iff`: since nothing resets `retryTimes`, the first failure after a success
  waits as the first of all does exactly when no failure came before that success.
-/

namespace IotDeviceSdk.Agentlite

open Backoff

variable {s s' : BackoffState} {events : List ConnectEvent}

/-! ### One failure -/

/-- The jitter of a callback, `randomBackOff + lowBound`. -/
def jitter (rand : Rand) : ℕ := rand.val % 200 + 1600

/-- The exact values of a callback's products and sums fit their types. -/
structure Exact (retryTimes : ℕ) (rand : Rand) : Prop where
  random : rand.val % (highBound - lowBound) + lowBound < 2 ^ 64
  pow : 2 ^ backoffPower retryTimes < 2 ^ 64
  sum : randomBackOff rand + lowBound < 2 ^ 64
  product : powParameter retryTimes * (randomBackOff rand + lowBound) < 2 ^ 63
  wait : IOTA_MIN_BACKOFF + backOffWithJitter retryTimes rand < 2 ^ 63
  count : retryTimes + 1 < 2 ^ 63

theorem backoffPower_eq (retryTimes : ℕ) : backoffPower retryTimes = min retryTimes 31 := by
  unfold backoffPower
  split <;> omega

theorem unsignedLong_of_lt {n : ℕ} (h : n < 2 ^ 64) : unsignedLong n = n := Nat.mod_eq_of_lt h

theorem longOfUnsigned_of_lt {n : ℕ} (h : n < 2 ^ 63) : longOfUnsigned n = n := by
  unfold longOfUnsigned
  rw [Int.bmod_eq_of_le] <;> omega

theorem long_of_lt {n : ℤ} (hlow : -2 ^ 63 ≤ n) (hhigh : n < 2 ^ 63) : long n = some n :=
  if_pos ⟨hlow, hhigh⟩

theorem randomBackOff_eq (rand : Rand) : randomBackOff rand = rand.val % 200 + 800 := by
  show unsignedLong (rand.val % 200 + 800) = _
  exact unsignedLong_of_lt (by omega)

theorem two_pow_backoffPower_le (retryTimes : ℕ) : 2 ^ backoffPower retryTimes ≤ 2 ^ 31 := by
  rw [backoffPower_eq]
  exact Nat.pow_le_pow_right (by omega) (Nat.min_le_right _ _)

theorem powParameter_eq (retryTimes : ℕ) :
    powParameter retryTimes = 2 ^ backoffPower retryTimes := by
  have hpow := two_pow_backoffPower_le retryTimes
  exact unsignedLong_of_lt (by omega)

theorem powParameter_mul_jitter_lt (retryTimes : ℕ) (rand : Rand) :
    powParameter retryTimes * jitter rand < 2 ^ 42 := by
  have hpow := two_pow_backoffPower_le retryTimes
  have hjitter : jitter rand ≤ 1799 := by
    unfold jitter
    omega
  have hmul := Nat.mul_le_mul hpow hjitter
  rw [powParameter_eq]
  omega

theorem backOffWithJitter_eq (retryTimes : ℕ) (rand : Rand) :
    backOffWithJitter retryTimes rand = (powParameter retryTimes * jitter rand : ℕ) := by
  have hproduct := powParameter_mul_jitter_lt retryTimes rand
  have hsum : unsignedLong (randomBackOff rand + lowBound) = jitter rand := by
    rw [randomBackOff_eq]
    show unsignedLong (rand.val % 200 + 800 + 800) = rand.val % 200 + 1600
    exact unsignedLong_of_lt (by omega)
  unfold backOffWithJitter
  rw [hsum, unsignedLong_of_lt (by omega), longOfUnsigned_of_lt (by omega)]

/-- **Nothing overflows** in a callback. -/
theorem exact_of_lt {retryTimes : ℕ} (rand : Rand) (hcount : retryTimes + 1 < 2 ^ 63) :
    Exact retryTimes rand := by
  have hpow := two_pow_backoffPower_le retryTimes
  have hproduct := powParameter_mul_jitter_lt retryTimes rand
  have hjitter : randomBackOff rand + lowBound = jitter rand := by
    rw [randomBackOff_eq]
    show rand.val % 200 + 800 + 800 = rand.val % 200 + 1600
    omega
  refine ⟨?_, by omega, ?_, ?_, ?_, hcount⟩
  · show rand.val % 200 + 800 < 2 ^ 64
    omega
  · rw [hjitter, jitter]
    omega
  · rw [hjitter]
    omega
  · rw [backOffWithJitter_eq]
    show (1000 : ℤ) + _ < _
    omega

/-- The waiting time as a delay of the backoff. -/
theorem waitTimeUntilNextRetry_eq (retryTimes : ℕ) (rand : Rand) :
    waitTimeUntilNextRetry retryTimes rand =
      some (delay 1000 30000 31 retryTimes (jitter rand) : ℤ) := by
  have hproduct := powParameter_mul_jitter_lt retryTimes rand
  unfold waitTimeUntilNextRetry
  rw [backOffWithJitter_eq]
  have hlong : long (IOTA_MIN_BACKOFF + (powParameter retryTimes * jitter rand : ℕ)) =
      some (1000 + (powParameter retryTimes * jitter rand : ℕ)) := by
    show long (1000 + _) = _
    exact long_of_lt (by omega) (by omega)
  have hmax : IOTA_MAX_BACKOFF = 30000 := by decide
  rw [hlong, hmax, powParameter_eq, backoffPower_eq, delay]
  simp only [Option.bind_eq_bind, Option.bind_some, Option.pure_def]
  refine congrArg some ?_
  split <;> omega

theorem timeSleep_returns {ms : ℕ} (h : ms ≤ 30000) : (timeSleep ms).isSome := by
  unfold timeSleep
  rw [cInt_eq (by omega) (by omega), if_pos (by omega)]
  rfl

/-- **`IOTA_HandleConnectFailure`** waits for the next delay and counts. -/
theorem iotaHandleConnectFailure_eq (rand : Rand) (hcount : s.retryTimes + 1 < 2 ^ 63) :
    iotaHandleConnectFailure rand s =
      some { retryTimes := s.retryTimes + 1
             waits := s.waits ++ [(delay 1000 30000 31 s.retryTimes (jitter rand) : ℤ)] } := by
  obtain ⟨us, hus⟩ := Option.isSome_iff_exists.mp
    (timeSleep_returns (delay_le 1000 30000 31 s.retryTimes (jitter rand)))
  have hlong : long ((s.retryTimes : ℤ) + 1) = some ((s.retryTimes : ℤ) + 1) :=
    long_of_lt (by omega) (by omega)
  have hnext : ((s.retryTimes : ℤ) + 1).toNat = s.retryTimes + 1 := by omega
  unfold iotaHandleConnectFailure
  rw [waitTimeUntilNextRetry_eq, Option.bind_eq_bind, Option.bind_some, hus, Option.bind_some,
    hlong,
    Option.bind_some, hnext]
  rfl

theorem connectEvent_of_failure {event : ConnectEvent} (hitem : event.item ≠ .connectSuccess)
    (s : BackoffState) : connectEvent s event = iotaHandleConnectFailure event.rand s := by
  unfold connectEvent
  cases hevent : event.item with
  | connectSuccess => exact absurd hevent hitem
  | connectFailure => rfl
  | connectionLost => rfl

theorem connectEvent_of_success {event : ConnectEvent} (hitem : event.item = .connectSuccess)
    (s : BackoffState) : connectEvent s event = some s := by
  unfold connectEvent
  rw [hitem]
  rfl

/-! ### Runs of failures -/

theorem jitter_bounds (rand : Rand) : 1600 ≤ jitter rand ∧ jitter rand ≤ 2 * 1600 := by
  unfold jitter
  omega

theorem connectEvents_failing (hfailing : ∀ event ∈ events, event.item ≠ .connectSuccess)
    (hcount : s.retryTimes + events.length < 2 ^ 63) :
    connectEvents events s =
      some { retryTimes := s.retryTimes + events.length
             waits := s.waits ++ (delays 1000 30000 31 s.retryTimes
               (events.map fun event => jitter event.rand)).map Nat.cast } := by
  induction events generalizing s with
  | nil =>
    show some s = _
    rw [List.map_nil, delays, List.map_nil, List.append_nil]
    rfl
  | cons event events ih =>
    rw [List.length_cons] at hcount
    have htail : ∀ event ∈ events, event.item ≠ .connectSuccess :=
      fun e he => hfailing e (List.mem_cons_of_mem _ he)
    unfold connectEvents
    rw [List.foldlM_cons, connectEvent_of_failure (hfailing event List.mem_cons_self),
      iotaHandleConnectFailure_eq _ (by omega)]
    show connectEvents events _ = _
    rw [ih htail (by show s.retryTimes + 1 + events.length < 2 ^ 63; omega)]
    simp only [List.map_cons, delays, List.length_cons, List.append_assoc, List.singleton_append,
      Nat.add_assoc, Nat.add_comm 1]

/-- **Reconnect backoff**: in every run of consecutive failures the waiting times stay within their
limits and do not shrink, and nothing overflows. -/
theorem reconnect_backoff (s : BackoffState) (events : List ConnectEvent)
    (hfailing : ∀ event ∈ events, event.item ≠ .connectSuccess)
    (hcount : s.retryTimes + events.length < 2 ^ 63) :
    ∃ waits : List ℤ,
      connectEvents events s =
        some { retryTimes := s.retryTimes + events.length, waits := s.waits ++ waits } ∧
      waits.length = events.length ∧
      (∀ wait ∈ waits, 2600 ≤ wait ∧ wait ≤ 30000) ∧
      waits.Pairwise (· ≤ ·) ∧
      ∀ i (hi : i < events.length), Exact (s.retryTimes + i) events[i].rand := by
  refine ⟨_, connectEvents_failing hfailing hcount, ?_, ?_, ?_, ?_⟩
  · rw [List.length_map, length_delays, List.length_map]
  · intro wait hwait
    obtain ⟨d, hd, rfl⟩ := List.mem_map.mp hwait
    have hbounds := delays_bounds (show 1000 + 1600 ≤ 30000 by omega) ?_ hd
    · omega
    · intro j hj
      obtain ⟨event, -, rfl⟩ := List.mem_map.mp hj
      exact (jitter_bounds event.rand).1
  · refine List.Pairwise.map _ (fun a b hab => Int.ofNat_le.mpr hab) ?_
    refine @delays_pairwise 1000 30000 31 1600 s.retryTimes _ (by omega) fun j hj => ?_
    obtain ⟨event, -, rfl⟩ := List.mem_map.mp hj
    exact jitter_bounds event.rand
  · exact fun i hi => exact_of_lt _ (by omega)

/-- Two failures in a row, of a process that has just started. -/
theorem reconnect_backoff_started :
    (∀ event ∈ [ConnectEvent.mk .connectFailure 7, .mk .connectionLost 5],
      event.item ≠ .connectSuccess) ∧
    ∃ waits : List ℤ,
      connectEvents [.mk .connectFailure 7, .mk .connectionLost 5] {} =
        some { retryTimes := 2, waits := waits } ∧
      waits.Pairwise (· ≤ ·) := by
  have hfailing : ∀ event ∈ [ConnectEvent.mk .connectFailure 7, .mk .connectionLost 5],
      event.item ≠ .connectSuccess := by decide
  obtain ⟨waits, hrun, -, -, hpairwise, -⟩ := reconnect_backoff {} _ hfailing (by decide)
  exact ⟨hfailing, waits, hrun, hpairwise⟩

/-! ### Failures after a success -/

/-- The failures and losses among some events. -/
def failures (events : List ConnectEvent) : ℕ :=
  events.countP fun event => event.item ≠ .connectSuccess

/-- A defined failure has counted without overflow. -/
theorem count_of_iotaHandleConnectFailure {rand : Rand}
    (h : iotaHandleConnectFailure rand s = some s') : s.retryTimes + 1 < 2 ^ 63 := by
  unfold iotaHandleConnectFailure at h
  obtain ⟨wait, -, h⟩ := Option.bind_eq_some_iff.mp h
  obtain ⟨us, -, h⟩ := Option.bind_eq_some_iff.mp h
  obtain ⟨retryTimes, hlong, -⟩ := Option.bind_eq_some_iff.mp h
  unfold long at hlong
  obtain ⟨⟨-, hfits⟩, -⟩ := Option.ite_none_right_eq_some.mp hlong
  omega

theorem retryTimes_of_connectEvent {event : ConnectEvent} (h : connectEvent s event = some s') :
    s'.retryTimes = s.retryTimes + failures [event] := by
  by_cases hitem : event.item = .connectSuccess
  · rw [connectEvent_of_success hitem] at h
    obtain rfl := Option.some.inj h
    have hnone : failures [event] = 0 := by simp [failures, hitem]
    rw [hnone, Nat.add_zero]
  · have hone : failures [event] = 1 := by simp [failures, hitem]
    rw [connectEvent_of_failure hitem] at h
    rw [iotaHandleConnectFailure_eq _ (count_of_iotaHandleConnectFailure h)] at h
    obtain rfl := Option.some.inj h
    rw [hone]

/-- The counter counts all failures. -/
theorem retryTimes_of_connectEvents (h : connectEvents events s = some s') :
    s'.retryTimes = s.retryTimes + failures events := by
  induction events generalizing s with
  | nil =>
    obtain rfl := Option.some.inj h
    rfl
  | cons event events ih =>
    unfold connectEvents at h
    rw [List.foldlM_cons] at h
    obtain ⟨s₁, hfirst, hrest⟩ := Option.bind_eq_some_iff.mp h
    rw [ih hrest, retryTimes_of_connectEvent hfirst, Nat.add_assoc]
    unfold failures
    rw [← List.countP_append, List.singleton_append]

theorem connectEvents_append (before after : List ConnectEvent) (s : BackoffState) :
    connectEvents (before ++ after) s = (connectEvents before s).bind (connectEvents after) :=
  List.foldlM_append

/-- Each failure that follows a success waits as long as the first failure of the process with the
same random number does. -/
def RestartsAfterSuccess (events : List ConnectEvent) : Prop :=
  ∀ before success failure after, events = before ++ success :: failure :: after →
    success.item = .connectSuccess → failure.item ≠ .connectSuccess →
    ∀ s s' first, connectEvents (before ++ [success]) {} = some s →
      connectEvent s failure = some s' → connectEvent {} failure = some first →
      s'.waits = s.waits ++ first.waits

/-- No failure comes before a success that a failure follows. -/
def FailsOnlyAtFirst (events : List ConnectEvent) : Prop :=
  ∀ before success failure after, events = before ++ success :: failure :: after →
    success.item = .connectSuccess → failure.item ≠ .connectSuccess →
    ∀ event ∈ before, event.item = .connectSuccess

theorem failures_eq_zero :
    failures events = 0 ↔ ∀ event ∈ events, event.item = .connectSuccess := by
  simp [failures, List.countP_eq_zero]

/-- Nothing has been counted at a success when nothing has failed before it. -/
theorem retryTimes_eq_zero {before : List ConnectEvent} {success : ConnectEvent}
    (hsuccess : success.item = .connectSuccess)
    (hs : connectEvents (before ++ [success]) {} = some s) :
    s.retryTimes = 0 ↔ ∀ event ∈ before, event.item = .connectSuccess := by
  have hcount : s.retryTimes = 0 + failures (before ++ [success]) := retryTimes_of_connectEvents hs
  have hlast : failures [success] = 0 := by simp [failures, hsuccess]
  unfold failures at hcount hlast
  rw [List.countP_append, hlast, Nat.zero_add, Nat.add_zero] at hcount
  rw [hcount]
  exact failures_eq_zero

/-- A failure waits as long as the first of the process does when nothing has been counted. -/
theorem waits_of_failure {failure : ConnectEvent} {first : BackoffState}
    (hitem : failure.item ≠ .connectSuccess) (hs' : connectEvent s failure = some s')
    (hfirst : connectEvent {} failure = some first) :
    s'.waits = s.waits ++ first.waits ↔ s.retryTimes = 0 := by
  rw [connectEvent_of_failure hitem] at hs' hfirst
  rw [iotaHandleConnectFailure_eq _ (count_of_iotaHandleConnectFailure hs')] at hs'
  rw [iotaHandleConnectFailure_eq _ (by decide)] at hfirst
  obtain rfl := Option.some.inj hs'
  obtain rfl := Option.some.inj hfirst
  show s.waits ++ [((delay 1000 30000 31 s.retryTimes (jitter failure.rand) : ℕ) : ℤ)] =
    s.waits ++ ([] ++ [((delay 1000 30000 31 0 (jitter failure.rand) : ℕ) : ℤ)]) ↔ _
  rw [List.nil_append, List.append_cancel_left_eq, List.cons.injEq, Int.ofNat_inj]
  constructor
  · rintro ⟨hdelay, -⟩
    by_contra hne
    have hjitter : 1600 ≤ jitter failure.rand ∧ jitter failure.rand ≤ 1799 := by
      unfold jitter
      omega
    have hlt := @delay_zero_lt_delay 1000 30000 31 s.retryTimes (jitter failure.rand) (by omega)
      (by omega) (by omega) (by omega)
    omega
  · intro hzero
    rw [hzero]
    exact ⟨rfl, rfl⟩

/-- **Backoff after a success**: in a run of the default callbacks each first failure after a
success waits the base backoff exactly when no failure came before that success. -/
theorem restartsAfterSuccess_iff (events : List ConnectEvent) (final : BackoffState)
    (hrun : connectEvents events {} = some final) :
    RestartsAfterSuccess events ↔ FailsOnlyAtFirst events := by
  constructor
  · intro h before success failure after hevents hsuccess hfailure
    have hparts := hrun
    rw [hevents, List.append_cons, connectEvents_append] at hparts
    obtain ⟨s, hs, hrest⟩ := Option.bind_eq_some_iff.mp hparts
    unfold connectEvents at hrest
    rw [List.foldlM_cons] at hrest
    obtain ⟨s', hs', -⟩ := Option.bind_eq_some_iff.mp hrest
    have hfirst := connectEvent_of_failure hfailure {}
    rw [iotaHandleConnectFailure_eq _ (by decide)] at hfirst
    have hwaits := h before success failure after hevents hsuccess hfailure s s' _ hs hs' hfirst
    have hzero := (waits_of_failure hfailure hs' hfirst).mp hwaits
    exact (retryTimes_eq_zero hsuccess hs).mp hzero
  · intro h before success failure after hevents hsuccess hfailure s s' first hs hs' hfirst
    have hbefore := h before success failure after hevents hsuccess hfailure
    exact (waits_of_failure hfailure hs' hfirst).mpr ((retryTimes_eq_zero hsuccess hs).mpr hbefore)

/-- A success after a success, and then a loss. -/
theorem restartsAfterSuccess_iff_connected :
    connectEvents [.mk .connectSuccess 0, .mk .connectSuccess 0, .mk .connectionLost 5] {} =
      some { retryTimes := 1, waits := [2605] } ∧
    (RestartsAfterSuccess [.mk .connectSuccess 0, .mk .connectSuccess 0, .mk .connectionLost 5] ↔
      FailsOnlyAtFirst [.mk .connectSuccess 0, .mk .connectSuccess 0, .mk .connectionLost 5]) := by
  have hrun : connectEvents [.mk .connectSuccess 0, .mk .connectSuccess 0, .mk .connectionLost 5]
      {} = some { retryTimes := 1, waits := [2605] } := by decide +kernel
  exact ⟨hrun, restartsAfterSuccess_iff _ _ hrun⟩

/-- One failed attempt, a success, and the loss of that connection. -/
theorem not_restartsAfterSuccess :
    ¬∀ events final, connectEvents events {} = some final → RestartsAfterSuccess events := by
  intro h
  have hrun : connectEvents [.mk .connectFailure 0, .mk .connectSuccess 0, .mk .connectionLost 0]
      {} = some { retryTimes := 2, waits := [2600, 4200] } := by decide +kernel
  have hwaits := h _ _ hrun [.mk .connectFailure 0] (.mk .connectSuccess 0) (.mk .connectionLost 0)
    [] rfl rfl (by decide) { retryTimes := 1, waits := [2600] }
    { retryTimes := 2, waits := [2600, 4200] } { retryTimes := 1, waits := [2600] }
    (by decide +kernel) (by decide +kernel) (by decide +kernel)
  exact absurd hwaits (by decide)

end IotDeviceSdk.Agentlite
