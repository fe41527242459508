import IotDeviceSdk.Service.DetectAnomaly.Inotify

/-!
# The delivery of inotify events

The kernel fills the buffer with whole events (`Batch`).  The offset of the inner loop is not set
back for a new batch, and the outer loop is left on `EAGAIN` only.

* `iterateEvents_eq`: from an offset where an event starts the inner loop delivers the rest of a
  batch.
* `inotifyLoop_new`: a later batch is never read from its start once the offset is positive.
* `inotify_deliveredOnce_iff`: each event is delivered once, and the function returns at the first
  failing read, exactly when that read fails with `EAGAIN` and at most one batch holds events.
-/

namespace IotDeviceSdk.Service

variable {eventCallback : InotifyEvent → Bool} {read length rounds i j : ℕ} {buf : List UInt8}
  {calls calls' : List EventCall}

/-! ### Batches -/

/-- The bytes of an event. -/
def InotifyEvent.bytes (event : InotifyEvent) : List UInt8 :=
  wordBytes event.wd ++ wordBytes event.mask ++ wordBytes event.cookie ++ wordBytes event.len ++
    event.name

/-- What one `read` gives: whole events that fit the buffer. -/
structure Batch where
  events : List InotifyEvent
  complete : ∀ event ∈ events, event.name.length = event.len.toNat
  fits : (events.flatMap InotifyEvent.bytes).length ≤ EVENT_BUF_LEN

/-- The bytes of a batch. -/
def Batch.bytes (batch : Batch) : List UInt8 := batch.events.flatMap InotifyEvent.bytes

/-- The calls for the events of a batch from an offset on. -/
def deliveriesFrom (read : ℕ) : ℕ → List InotifyEvent → List EventCall
  | _, [] => []
  | offset, event :: events =>
    ⟨read, offset, event⟩ :: deliveriesFrom read (offset + (EVENT_SIZE + event.len.toNat)) events

/-- One call for each event of the batches, in order, the first batch being given by the `read`-th
call of `read`. -/
def deliveries : ℕ → List Batch → List EventCall
  | _, [] => []
  | read, batch :: batches => deliveriesFrom read 0 batch.events ++ deliveries (read + 1) batches

/-- What `read` gives until it fails, and after that. -/
def readResults (batches : List Batch) (errno : ℤ) (later : List ReadResult) : List ReadResult :=
  batches.map (fun batch => .bytes batch.bytes) ++ .error errno :: later

/-- The function calls the callback once for each event, in order, and returns at the first read
that fails. -/
def DeliveredOnce (buf : List UInt8) (batches : List Batch) (errno : ℤ) (later : List ReadResult) :
    Prop :=
  ∃ ret, inotifyReadEventsAndIterate (fun _ => true) buf (readResults batches errno later) =
    some (.returned ret (deliveries 0 batches) later)

theorem length_bytes {event : InotifyEvent} (h : event.name.length = event.len.toNat) :
    event.bytes.length = EVENT_SIZE + event.len.toNat := by
  simp only [InotifyEvent.bytes, List.length_append, length_wordBytes, h]
  rfl

/-! ### One batch -/

theorem iterateEvents_end (h : length ≤ i) :
    iterateEvents eventCallback read length buf rounds i calls = some (true, i, calls) := by
  cases rounds with
  | zero => rw [iterateEvents, if_neg (by omega)]
  | succ rounds => rw [iterateEvents, if_neg (by omega)]

/-- An event in the buffer is read as it was written. -/
theorem eventAt_bytes (before after : List UInt8) {event : InotifyEvent}
    (h : event.name.length = event.len.toNat) :
    eventAt (before ++ event.bytes ++ after) before.length = some event := by
  have hblock : before ++ event.bytes ++ after =
      before ++ (wordBytes event.wd ++ (wordBytes event.mask ++ (wordBytes event.cookie ++
        (wordBytes event.len ++ (event.name ++ after))))) := by
    simp only [InotifyEvent.bytes, List.append_assoc]
  have hwd := word32_append hblock rfl
  have hmask : word32 (before ++ event.bytes ++ after) (before.length + 4) = event.mask := by
    refine @word32_append _ (before ++ wordBytes event.wd)
      (wordBytes event.cookie ++ (wordBytes event.len ++ (event.name ++ after))) _ _ ?_ (by simp)
    rw [hblock, List.append_assoc]
  have hcookie : word32 (before ++ event.bytes ++ after) (before.length + 8) = event.cookie := by
    refine @word32_append _ (before ++ wordBytes event.wd ++ wordBytes event.mask)
      (wordBytes event.len ++ (event.name ++ after)) _ _ ?_ (by simp)
    rw [hblock, List.append_assoc, List.append_assoc]
  have hlen : word32 (before ++ event.bytes ++ after) (before.length + 12) = event.len := by
    refine @word32_append _ (before ++ wordBytes event.wd ++ wordBytes event.mask ++
      wordBytes event.cookie) (event.name ++ after) _ _ ?_ (by simp)
    rw [hblock, List.append_assoc, List.append_assoc, List.append_assoc]
  have hname : slice (before ++ event.bytes ++ after) (before.length + EVENT_SIZE)
      event.name.length = event.name := by
    refine @slice_append (before ++ event.bytes ++ after) (before ++ wordBytes event.wd ++
      wordBytes event.mask ++ wordBytes event.cookie ++ wordBytes event.len) event.name after _ ?_
      (by simp [EVENT_SIZE])
    rw [hblock, List.append_assoc, List.append_assoc, List.append_assoc, List.append_assoc]
  have hinside : before.length + EVENT_SIZE ≤ (before ++ event.bytes ++ after).length := by
    rw [List.length_append, List.length_append, length_bytes h]
    omega
  rw [eventAt, if_pos hinside, hwd, hmask, hcookie]
  simp only [hlen]
  rw [← h, hname]

/-- **The inner loop** delivers the events from the offset where one of them starts. -/
theorem iterateEvents_eq (events : List InotifyEvent) (before after : List UInt8)
    (hcomplete : ∀ event ∈ events, event.name.length = event.len.toNat)
    (hlength : length = before.length + (events.flatMap InotifyEvent.bytes).length)
    (hrounds : length ≤ before.length + rounds) :
    iterateEvents (fun _ => true) read length
        (before ++ events.flatMap InotifyEvent.bytes ++ after) rounds before.length calls =
      some (true, length, calls ++ deliveriesFrom read before.length events) := by
  induction events generalizing before rounds calls with
  | nil =>
    have hend : before.length = length := by
      rw [hlength]
      simp
    rw [iterateEvents_end (by omega), deliveriesFrom, List.append_nil, hend]
  | cons event events ih =>
    have hevent : event.name.length = event.len.toNat := hcomplete event List.mem_cons_self
    have hrest : ∀ event ∈ events, event.name.length = event.len.toNat :=
      fun e he => hcomplete e (List.mem_cons_of_mem _ he)
    rw [List.flatMap_cons, List.length_append, length_bytes hevent] at hlength
    have hnext : (before ++ event.bytes).length =
        before.length + (EVENT_SIZE + event.len.toNat) := by
      rw [List.length_append, length_bytes hevent]
    have hblock : before ++ (event :: events).flatMap InotifyEvent.bytes ++ after =
        before ++ event.bytes ++ events.flatMap InotifyEvent.bytes ++ after := by
      rw [List.flatMap_cons, List.append_assoc before event.bytes]
    unfold EVENT_SIZE at hlength hnext
    cases rounds with
    | zero => omega
    | succ rounds =>
      -- the event at the head, then the loop from the next one on
      have hloop := @ih rounds (calls ++ [⟨read, before.length, event⟩]) (before ++ event.bytes)
        hrest (by omega) (by omega)
      rw [hblock, iterateEvents, if_pos (by omega), List.append_assoc (before ++ event.bytes),
        eventAt_bytes before _ hevent]
      rw [← List.append_assoc (before ++ event.bytes)]
      show iterateEvents _ _ _ _ _ (before.length + (EVENT_SIZE + event.len.toNat)) _ = _
      unfold EVENT_SIZE
      rw [← hnext, hloop, hnext, deliveriesFrom, List.append_assoc, List.singleton_append]
      rfl

/-- The new calls of the inner loop are at offsets from the first one on. -/
theorem iterateEvents_new {goOn : Bool}
    (h : iterateEvents eventCallback read length buf rounds i calls = some (goOn, j, calls')) :
    i ≤ j ∧ ∃ new, calls' = calls ++ new ∧ ∀ call ∈ new, call.read = read ∧ i ≤ call.offset := by
  induction rounds generalizing i calls with
  | zero =>
    rw [iterateEvents] at h
    obtain ⟨-, h⟩ := Option.ite_none_left_eq_some.mp h
    obtain ⟨-, rfl, rfl⟩ := h
    exact ⟨le_refl _, [], by simp, by simp⟩
  | succ rounds ih =>
    rw [iterateEvents] at h
    by_cases hlt : i < length
    · rw [if_pos hlt] at h
      obtain ⟨event, -, h⟩ := Option.bind_eq_some_iff.mp h
      by_cases hgoes : eventCallback event = true
      · -- this call and those of the rounds that follow
        rw [hgoes] at h
        obtain ⟨hle, new, rfl, hnew⟩ := ih h
        refine ⟨by omega, ⟨read, i, event⟩ :: new, by simp, fun call hcall => ?_⟩
        rcases List.mem_cons.mp hcall with rfl | hcall
        · exact ⟨rfl, le_refl _⟩
        · obtain ⟨hread, hoffset⟩ := hnew call hcall
          exact ⟨hread, by omega⟩
      · rw [Bool.not_eq_true _ |>.mp hgoes] at h
        obtain ⟨-, rfl, rfl⟩ := h
        exact ⟨le_refl _, [⟨read, _, event⟩], rfl, by simp⟩
    · rw [if_neg hlt] at h
      obtain ⟨-, rfl, rfl⟩ := h
      exact ⟨le_refl _, [], by simp, by simp⟩

/-! ### All batches -/

variable {reads left later : List ReadResult} {ret : Bool} {batch : Batch} {batches : List Batch}
  {errno : ℤ}

/-- The calls are for reads from one on, and those for this read at offsets from one on. -/
def CallsFrom (read offset : ℕ) (calls : List EventCall) : Prop :=
  ∀ call ∈ calls, read ≤ call.read ∧ (call.read = read → offset ≤ call.offset)

theorem CallsFrom.of_later (h : CallsFrom (read + 1) j calls) : CallsFrom read i calls := by
  intro call hcall
  have hread := (h call hcall).1
  exact ⟨by omega, fun heq => by omega⟩

/-- What the outer loop adds when it returns: fewer results of `read` are left, and the calls for
the first of them are at offsets from the present one on. -/
theorem inotifyLoop_new
    (h : inotifyLoop eventCallback read i buf calls reads = some (.returned ret calls' left)) :
    left.length < reads.length ∧ ∃ new, calls' = calls ++ new ∧ CallsFrom read i new := by
  induction reads generalizing read i buf calls with
  | nil =>
    rw [inotifyLoop] at h
    cases h
  | cons result reads ih =>
    cases result with
    | error errno =>
      rw [inotifyLoop] at h
      by_cases hagain : errno = EAGAIN
      · rw [if_pos hagain] at h
        obtain ⟨rfl, rfl, rfl⟩ := InotifyOutcome.returned.inj (Option.some.inj h)
        exact ⟨Nat.lt_succ_self _, [], by simp, by simp [CallsFrom]⟩
      · -- the buffer and the offset stay as they are
        rw [if_neg hagain] at h
        obtain ⟨hleft, new, rfl, hnew⟩ := ih h
        exact ⟨Nat.lt_succ_of_lt hleft, new, rfl, hnew.of_later⟩
    | bytes bytes =>
      rw [inotifyLoop] at h
      obtain ⟨buf', -, h⟩ := Option.bind_eq_some_iff.mp h
      obtain ⟨⟨goOn, i', calls₁⟩, hinner, h⟩ := Option.bind_eq_some_iff.mp h
      obtain ⟨-, new, rfl, hnew⟩ := iterateEvents_new hinner
      have hfirst : CallsFrom read i new := fun call hcall =>
        ⟨le_of_eq (hnew call hcall).1.symm, fun _ => (hnew call hcall).2⟩
      cases goOn with
      | false =>
        obtain ⟨rfl, rfl, rfl⟩ := InotifyOutcome.returned.inj (Option.some.inj h)
        exact ⟨Nat.lt_succ_self _, new, rfl, hfirst⟩
      | true =>
        obtain ⟨hleft, new', rfl, hnew'⟩ := ih h
        refine ⟨Nat.lt_succ_of_lt hleft, new ++ new', List.append_assoc _ _ _, ?_⟩
        intro call hcall
        rcases List.mem_append.mp hcall with hcall | hcall
        · exact hfirst call hcall
        · exact hnew'.of_later call hcall

theorem fillBuffer_eq (hbuf : buf.length = EVENT_BUF_LEN) :
    fillBuffer buf batch.bytes = some (batch.bytes ++ buf.drop batch.bytes.length) := by
  have hover : overwrite buf 0 batch.bytes = batch.bytes ++ buf.drop batch.bytes.length := by
    simp [overwrite]
  rw [fillBuffer, if_pos (by rw [hbuf]; exact batch.fits), hover]

/-- A batch that is read from its start. -/
theorem inotifyLoop_batch (hbuf : buf.length = EVENT_BUF_LEN) :
    inotifyLoop (fun _ => true) read 0 buf calls (.bytes batch.bytes :: reads) =
      inotifyLoop (fun _ => true) (read + 1) batch.bytes.length
        (batch.bytes ++ buf.drop batch.bytes.length)
        (calls ++ deliveriesFrom read 0 batch.events) reads := by
  have hinner := @iterateEvents_eq read batch.bytes.length batch.bytes.length calls batch.events []
    (buf.drop batch.bytes.length) batch.complete (by simp [Batch.bytes]) (by simp)
  rw [List.nil_append, List.length_nil] at hinner
  rw [inotifyLoop, fillBuffer_eq hbuf]
  show (iterateEvents _ _ _ (batch.events.flatMap InotifyEvent.bytes ++ _) _ _ _ >>= _) = _
  rw [hinner]
  rfl

/-- A batch without events changes nothing. -/
theorem inotifyLoop_empty (hempty : batch.events = []) :
    inotifyLoop eventCallback read i buf calls (.bytes batch.bytes :: reads) =
      inotifyLoop eventCallback (read + 1) i buf calls reads := by
  have hbytes : batch.bytes = [] := by rw [Batch.bytes, hempty, List.flatMap_nil]
  have hfill : fillBuffer buf [] = some buf := by simp [fillBuffer, overwrite]
  rw [hbytes, inotifyLoop, hfill, Option.bind_eq_bind, Option.bind_some, List.length_nil,
    iterateEvents_end (Nat.zero_le _)]
  rfl

/-- Only `EAGAIN` makes the function return at a failing read. -/
theorem inotifyLoop_error :
    inotifyLoop eventCallback read i buf calls (.error errno :: later) =
      some (.returned ret calls' later) ↔ errno = EAGAIN ∧ ret = false ∧ calls' = calls := by
  rw [inotifyLoop]
  by_cases hagain : errno = EAGAIN
  · rw [if_pos hagain]
    constructor
    · intro h
      obtain ⟨rfl, rfl, -⟩ := InotifyOutcome.returned.inj (Option.some.inj h)
      exact ⟨hagain, rfl, rfl⟩
    · rintro ⟨-, rfl, rfl⟩
      rfl
  · rw [if_neg hagain]
    refine iff_of_false (fun h => ?_) fun h => hagain h.1
    exact absurd (inotifyLoop_new h).1 (Nat.lt_irrefl _)

/-- The rest of a run delivers the rest of the batches. -/
def DeliversFrom (read i : ℕ) (buf : List UInt8) (calls : List EventCall) (batches : List Batch)
    (errno : ℤ) (later : List ReadResult) : Prop :=
  ∃ ret, inotifyLoop (fun _ => true) read i buf calls (readResults batches errno later) =
    some (.returned ret (calls ++ deliveries read batches) later)

theorem deliversFrom_nil :
    DeliversFrom read i buf calls [] errno later ↔ errno = EAGAIN := by
  unfold DeliversFrom readResults
  simp only [List.map_nil, List.nil_append, inotifyLoop_error, deliveries, List.append_nil]
  simp

theorem deliversFrom_empty (hempty : batch.events = []) :
    DeliversFrom read i buf calls (batch :: batches) errno later ↔
      DeliversFrom (read + 1) i buf calls batches errno later := by
  unfold DeliversFrom readResults
  rw [List.map_cons, List.cons_append, inotifyLoop_empty hempty, deliveries, hempty, deliveriesFrom,
    List.nil_append]

/-- Once the offset is positive no event is delivered any more. -/
theorem deliversFrom_of_pos (hi : 0 < i) :
    DeliversFrom read i buf calls batches errno later ↔
      errno = EAGAIN ∧ ∀ batch ∈ batches, batch.events = [] := by
  induction batches generalizing read with
  | nil => simp [deliversFrom_nil]
  | cons batch batches ih =>
    by_cases hempty : batch.events = []
    · rw [deliversFrom_empty hempty, ih]
      simp [hempty]
    · refine iff_of_false ?_ fun h => hempty (h.2 batch List.mem_cons_self)
      rintro ⟨ret, h⟩
      obtain ⟨event, events, hevents⟩ := List.exists_cons_of_ne_nil hempty
      obtain ⟨-, new, hnew, hfrom⟩ := inotifyLoop_new h
      -- the first event would have to be delivered at offset 0
      have hfirst : (⟨read, 0, event⟩ : EventCall) ∈ new := by
        rw [← List.append_cancel_left hnew, deliveries, hevents, deliveriesFrom]
        simp
      exact absurd ((hfrom _ hfirst).2 rfl) (by show ¬i ≤ 0; omega)

/-- From offset 0 the first batch with events is delivered, and no other one. -/
theorem deliversFrom_start (hbuf : buf.length = EVENT_BUF_LEN) :
    DeliversFrom read 0 buf calls batches errno later ↔
      errno = EAGAIN ∧ (batches.filter fun batch => batch.events ≠ []).length ≤ 1 := by
  induction batches generalizing read with
  | nil => simp [deliversFrom_nil]
  | cons batch batches ih =>
    by_cases hempty : batch.events = []
    · rw [deliversFrom_empty hempty, ih]
      simp [hempty]
    · have hrest : DeliversFrom read 0 buf calls (batch :: batches) errno later ↔
          DeliversFrom (read + 1) batch.bytes.length
            (batch.bytes ++ buf.drop batch.bytes.length)
            (calls ++ deliveriesFrom read 0 batch.events) batches errno later := by
        unfold DeliversFrom readResults
        rw [List.map_cons, List.cons_append, inotifyLoop_batch hbuf, deliveries, List.append_assoc]
      have hpos : 0 < batch.bytes.length := by
        obtain ⟨event, events, hevents⟩ := List.exists_cons_of_ne_nil hempty
        have hcomplete := batch.complete event (by rw [hevents]; exact List.mem_cons_self)
        rw [Batch.bytes, hevents, List.flatMap_cons, List.length_append, length_bytes hcomplete]
        unfold EVENT_SIZE
        omega
      rw [hrest, deliversFrom_of_pos hpos]
      simp [hempty]

/-- **The delivery of inotify events** is right exactly when the failing read has `EAGAIN` and at
most one of the batches holds events. -/
theorem inotify_deliveredOnce_iff (buf : List UInt8) (hbuf : buf.length = EVENT_BUF_LEN)
    (batches : List Batch) (errno : ℤ) (later : List ReadResult) :
    DeliveredOnce buf batches errno later ↔
      errno = EAGAIN ∧ (batches.filter fun batch => batch.events ≠ []).length ≤ 1 :=
  deliversFrom_start hbuf

/-- An event without a name. -/
def plainEvent (wd : UInt32) : InotifyEvent := ⟨wd, 2, 0, 0, []⟩

/-- A batch of one event. -/
def plainBatch (wd : UInt32) : Batch where
  events := [plainEvent wd]
  complete := by simp [plainEvent]
  fits := by simp [plainEvent, InotifyEvent.bytes, EVENT_BUF_LEN, EVENT_PER_LOOP, EVENT_SIZE]

/-- An event with a name of some bytes, the rest of which are zeros. -/
def namedEvent (wd : UInt32) (name : List UInt8) : InotifyEvent :=
  ⟨wd, 2, 0, name.length.toUInt32, name⟩

/-- A batch of three events, of 16, 32 and 16 bytes. -/
def threeEvents : Batch where
  events := [plainEvent 1, namedEvent 2 (97 :: List.replicate 15 0), plainEvent 3]
  complete := by simp [plainEvent, namedEvent]
  fits := by decide

/-- The batch of three events, in a buffer of zeros. -/
theorem inotify_deliveredOnce_iff_threeEvents :
    DeliveredOnce (List.replicate EVENT_BUF_LEN 0) [threeEvents] EAGAIN [] := by
  have hbuf : (List.replicate EVENT_BUF_LEN (0 : UInt8)).length = EVENT_BUF_LEN :=
    List.length_replicate
  exact (inotify_deliveredOnce_iff _ hbuf _ _ _).mpr ⟨rfl, by decide⟩

/-- The event of a second batch is not delivered. -/
theorem not_deliveredOnce_twoBatches :
    ¬∀ buf batches errno later, buf.length = EVENT_BUF_LEN →
      DeliveredOnce buf batches errno later := by
  intro h
  obtain ⟨ret, hrun⟩ := h (List.replicate EVENT_BUF_LEN 0) [plainBatch 1, plainBatch 2] EAGAIN []
    List.length_replicate
  have hreal : inotifyReadEventsAndIterate (fun _ => true) (List.replicate EVENT_BUF_LEN 0)
      (readResults [plainBatch 1, plainBatch 2] EAGAIN []) =
        some (.returned false [⟨0, 0, plainEvent 1⟩] []) := by decide
  rw [hreal] at hrun
  exact absurd (InotifyOutcome.returned.inj (Option.some.inj hrun)).2.1 (by decide)

end IotDeviceSdk.Service
