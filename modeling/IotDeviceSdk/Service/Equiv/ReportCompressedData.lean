import IotDeviceSdk.Service.ReportCompressedData
import IotDeviceSdk.Util.Equiv.GZIPCompress
import IotDeviceSdk.Zlib.Recording

/-!
# Compressed reports

`ReportCompressedData` publishes whatever `gZIPCompress` returns.

* `reportCompressedData_sent`: one message is published as soon as there is a block.
* `completeOrNotSent_iff`: the published message is the whole stream exactly when zlib gets through.

A message counts as published when it is handed to `MqttBase_publish`, which may still refuse it.
-/

namespace IotDeviceSdk.Service

open Util

variable {κ π : Type} {z : Zlib} {malloc : ℕ → Bool} {publish : CompressedMessage κ π → ℤ}
  {topic payload : List UInt8} {context : κ} {properties : π}

/-- One message is handed to `MqttBase_publish`, which is the whole stream of the payload, or none and
the result is a failure. -/
def CompleteOrNotSent (z : Zlib) (malloc : ℕ → Bool) (publish : CompressedMessage κ π → ℤ)
    (topic payload : List UInt8) (context : κ) (properties : π) : Prop :=
  ∃ result sent,
    reportCompressedData z.toZlibCalls malloc publish topic payload context properties =
      some (result, sent) ∧
    ((sent = [] ∧ result = IOTA_FAILURE) ∨
      ∃ message stream, sent = [message] ∧ z.WholeStream payload stream ∧
        message.len = stream.length ∧ message.payload.take stream.length = stream)

/-- A positive length is not more than the text has. -/
theorem cInt_le {n : ℕ} (h : 0 < cInt n) : cInt n ≤ n := by
  rw [cInt, Int.bmod_def] at h ⊢
  split at h <;> split <;> omega

/-- **The message** that is published when there is a block. -/
theorem reportCompressedData_sent {n : ℕ} (hlen : cInt payload.length = n) (hpos : 0 < n)
    (hint : n < 2 ^ 30) (hmalloc : malloc (n * 2) = true) :
    ∃ result message,
      reportCompressedData z.toZlibCalls malloc publish topic payload context properties =
        some (result, [message]) ∧
      ((ZStream.Compresses z.toZlibCalls (payload.take n) (n * 2) ∧
          ∃ stream, z.WholeStream (payload.take n) stream ∧ message.len = stream.length ∧
            message.payload.take stream.length = stream) ∨
        (¬ZStream.Compresses z.toZlibCalls (payload.take n) (n * 2) ∧
          (message.len = -1 ∨ UnreadInput z n (n * 2) message.len message.payload))) := by
  have hn : n ≤ payload.length := by
    have hle := @cInt_le payload.length (by omega)
    omega
  obtain ⟨ret, block, hrun, hresult⟩ := gZIPCompress_eq z hpos hn (by omega)
    (List.length_replicate (n := n * 2) (a := (0 : UInt8))) (by omega)
  have hproduct : intProduct n 2 = some ((n * 2 : ℕ) : ℤ) := by
    rw [intProduct, if_pos (by omega)]
    refine congrArg some ?_
    omega
  have halloc : stringMalloc malloc ((n * 2 : ℕ) : ℤ) = some (List.replicate (n * 2) 0) := by
    rw [stringMalloc, if_neg (by omega), Int.toNat_natCast, if_pos hmalloc]
  unfold reportCompressedData
  dsimp only
  rw [hlen, hproduct, Option.bind_eq_bind, Option.bind_some, halloc]
  dsimp only
  rw [hrun, Option.bind_eq_bind, Option.bind_some]
  dsimp only [Option.getD_some]
  -- what `gZIPCompress` returns is the length of the message, whatever it is
  by_cases hret : publish ⟨topic, block, ret, context, properties⟩ < 0
  · rw [if_pos hret]
    exact ⟨_, _, rfl, hresult⟩
  · rw [if_neg hret]
    exact ⟨_, _, rfl, hresult⟩

/-- What is left of the input is not the length of the stream. -/
theorem not_wholeStream_of_unreadInput {n room : ℕ} {len : ℤ} {block stream : List UInt8}
    (h : UnreadInput z n room len block) (hn : n ≤ room) (hlen : len = stream.length)
    (hblock : block.take stream.length = stream) (src : List UInt8) :
    ¬z.WholeStream src stream := by
  obtain ⟨k, read, written, state, hk, hkn, hsession, hwritten, htake⟩ := h
  intro hwhole
  refine z.self_delimiting hsession hwhole ?_
  rw [← hblock, htake _ (by omega)]
  exact List.take_prefix _ _

/-- Nothing is published without a block. -/
theorem reportCompressedData_notSent (hlow : -2 ^ 30 ≤ cInt payload.length)
    (hhigh : cInt payload.length < 2 ^ 30)
    (hnone : cInt payload.length ≤ 0 ∨ malloc (cInt payload.length * 2).toNat = false) :
    reportCompressedData z.toZlibCalls malloc publish topic payload context properties =
      some (IOTA_FAILURE, []) := by
  have hproduct : intProduct (cInt payload.length) 2 = some (cInt payload.length * 2) :=
    if_pos (by omega)
  have halloc : stringMalloc malloc (cInt payload.length * 2) = none := by
    unfold stringMalloc
    split_ifs with hsize hmalloc
    · rfl
    · rcases hnone with hnone | hnone
      · exact absurd (by omega) hsize
      · rw [hnone] at hmalloc
        exact absurd hmalloc (by decide)
    · rfl
  unfold reportCompressedData
  dsimp only
  rw [hproduct, Option.bind_eq_bind, Option.bind_some, halloc]
  rfl

/-- With a block, the report is complete exactly when zlib gets through with the whole payload. -/
theorem completeOrNotSent_iff_of_block {n : ℕ} (hlen : cInt payload.length = n) (hpos : 0 < n)
    (hint : n < 2 ^ 30) (hmalloc : malloc (n * 2) = true) :
    CompleteOrNotSent z malloc publish topic payload context properties ↔
      n = payload.length ∧ ZStream.Compresses z.toZlibCalls payload (n * 2) := by
  have hn : n ≤ payload.length := by
    have hle := @cInt_le payload.length (by omega)
    omega
  obtain ⟨result, message, hrun, hresult⟩ := @reportCompressedData_sent κ π z malloc publish topic
    payload context properties n hlen hpos hint hmalloc
  constructor
  · rintro ⟨result', sent, hrun', ⟨hsent, -⟩ | ⟨message', stream, hsent, hwhole, hlength, htake⟩⟩
    · rw [hrun] at hrun'
      obtain ⟨-, rfl⟩ := Prod.mk.inj (Option.some.inj hrun')
      exact absurd hsent (List.cons_ne_nil _ _)
    · rw [hrun] at hrun'
      obtain ⟨-, rfl⟩ := Prod.mk.inj (Option.some.inj hrun')
      obtain rfl := List.singleton_injective hsent
      rcases hresult with ⟨hcompresses, stream', hwhole', hlength', htake'⟩ | ⟨-, hret | hleft⟩
      · -- the same stream gives the same payload back
        have hstream : stream = stream' := by
          rw [← htake, ← htake', show stream.length = stream'.length by omega]
        have hsrc := z.lossless hwhole (hstream ▸ hwhole')
        have heq : n = payload.length := by
          have hlengths := congrArg List.length hsrc
          rw [List.length_take] at hlengths
          omega
        rw [← hsrc] at hcompresses
        exact ⟨heq, hcompresses⟩
      · omega
      · exact absurd hwhole (not_wholeStream_of_unreadInput hleft (by omega) hlength htake payload)
  · rintro ⟨heq, hcompresses⟩
    have htake : payload.take n = payload := by rw [heq, List.take_length]
    rw [htake] at hresult
    rcases hresult with ⟨-, stream, hwhole, hlength, htake⟩ | ⟨hnot, -⟩
    · exact ⟨result, [message], hrun, Or.inr ⟨message, stream, rfl, hwhole, hlength, htake⟩⟩
    · exact absurd hcompresses hnot

/-- **A compressed report** is complete or not sent exactly when there is nothing to send, no memory
to compress it in, or zlib gets through with it in the room of two payloads. -/
theorem completeOrNotSent_iff (z : Zlib) (malloc : ℕ → Bool) (publish : CompressedMessage κ π → ℤ)
    (topic payload : List UInt8) (context : κ) (properties : π) :
    CompleteOrNotSent z malloc publish topic payload context properties ↔
      -2 ^ 30 ≤ cInt payload.length ∧ cInt payload.length < 2 ^ 30 ∧
      (cInt payload.length ≤ 0 ∨ malloc (cInt payload.length * 2).toNat = false ∨
        (cInt payload.length = payload.length ∧
          ZStream.Compresses z.toZlibCalls payload (payload.length * 2))) := by
  by_cases hint : -2 ^ 30 ≤ cInt payload.length ∧ cInt payload.length < 2 ^ 30
  · rw [← and_assoc, and_iff_right hint]
    by_cases hnone : cInt payload.length ≤ 0 ∨ malloc (cInt payload.length * 2).toNat = false
    · refine ⟨fun _ => ?_, fun _ => ⟨_, _, reportCompressedData_notSent hint.1 hint.2 hnone,
        Or.inl ⟨rfl, rfl⟩⟩⟩
      rw [← or_assoc]
      exact Or.inl hnone
    · rw [← or_assoc, or_iff_right hnone]
      rw [not_or, not_le, Bool.not_eq_false] at hnone
      obtain ⟨n, hlen⟩ := Int.eq_ofNat_of_zero_le hnone.1.le
      have hmalloc := hnone.2
      rw [hlen, show ((n : ℤ) * 2).toNat = n * 2 by omega] at hmalloc
      rw [completeOrNotSent_iff_of_block hlen (by omega) (by omega) hmalloc, hlen]
      constructor
      · rintro ⟨rfl, hcompresses⟩
        exact ⟨rfl, hcompresses⟩
      · rintro ⟨heq, hcompresses⟩
        obtain rfl : n = payload.length := by omega
        exact ⟨rfl, hcompresses⟩
  · -- the size of the block overflows
    have hproduct : intProduct (cInt payload.length) 2 = none := if_neg (by omega)
    refine ⟨fun ⟨result, sent, hrun, _⟩ => ?_, fun h => absurd ⟨h.1, h.2.1⟩ hint⟩
    unfold reportCompressedData at hrun
    dsimp only at hrun
    rw [hproduct] at hrun
    exact absurd hrun (by simp)

/-! ### Two reports -/

/-- Twelve letters: the header, then the rest of the stream. -/
def twelveLetters : Recording where
  src := List.replicate 12 97
  room := 24
  consumed := 12
  first := [31, 139, 8, 0, 0, 0, 0, 0, 0, 3]
  last := [75, 76, 68, 0, 0, 118, 10, 227, 246, 12, 0, 0, 0]
  consumed_le := by decide
  first_ne_nil := by decide
  length_first_le := by decide

/-- One letter: the room is used up by the header. -/
def oneLetter : Recording where
  src := [97]
  room := 2
  consumed := 0
  first := [31, 139]
  last := []
  consumed_le := by decide
  first_ne_nil := by decide
  length_first_le := by decide

/-- The report of twelve letters. -/
theorem completeOrNotSent_twelveLetters :
    CompleteOrNotSent twelveLetters.zlib (fun _ => true) (fun _ => 1) [116]
      (List.replicate 12 97) () () :=
  (completeOrNotSent_iff twelveLetters.zlib (fun _ => true) (fun _ => 1) [116]
    (List.replicate 12 97) () ()).mpr
    ⟨by decide, by decide, Or.inr (Or.inr ⟨by decide,
      twelveLetters.compresses (by decide) rfl (by decide) (by decide)⟩)⟩

/-- The report of one letter is one byte of a header. -/
theorem not_completeOrNotSent_oneLetter :
    ¬∀ (z : Zlib) (malloc : ℕ → Bool) (publish : CompressedMessage Unit Unit → ℤ)
      (topic payload : List UInt8), CompleteOrNotSent z malloc publish topic payload () () := by
  intro hall
  have hreport := hall oneLetter.zlib (fun _ => true) (fun _ => 1) [116] [97]
  obtain ⟨-, hcompresses⟩ :=
    (completeOrNotSent_iff_of_block (n := 1) (by decide) (by decide) (by decide) rfl).mp hreport
  have hend : ∀ x, ¬oneLetter.afterFirst.Feed x :=
    fun _ hfeed => absurd hfeed.2.1 (show ¬0 < 2 - 2 by decide)
  obtain ⟨hnil, -⟩ := hcompresses.afterFeed (.single (oneLetter.feed_start (by decide))) hend
  exact absurd hnil (show ¬[(97 : UInt8)] = [] by decide)

end IotDeviceSdk.Service
