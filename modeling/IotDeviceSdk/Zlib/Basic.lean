import Mathlib.Data.List.Infix
import Mathlib.Logic.Relation

/-!
# zlib

The calls with which a program compresses through a `z_stream`, as it sees them: each has a result
and takes input and gives output as it likes.  `Zlib` is any library that does what the
documentation says of these calls.

* `Session`: some calls that went well, with what they have taken and given.
* `WholeStream`: the stream a session gives for its input when the last call ends it.
* `Stepped`: where the `z_stream` stands in a session; `Stepped.step` keeps it.
-/

namespace IotDeviceSdk

open Relation

/-- `Z_OK`. -/
def Z_OK : ℤ := 0

/-- `Z_STREAM_END`. -/
def Z_STREAM_END : ℤ := 1

/-- `Z_STREAM_ERROR`. -/
def Z_STREAM_ERROR : ℤ := -2

/-- `Z_NO_FLUSH` and `Z_FINISH`. -/
inductive ZFlush where
  | noFlush
  | finish
  deriving DecidableEq

/-- What a call of `deflate` does. -/
structure Deflated (σ : Type) where
  ret : ℤ
  consumed : ℕ
  output : List UInt8
  state : σ

/-- The calls, with the internal state of the library.  `deflate` is given what is left of the input
and how much room there is. -/
structure ZlibCalls where
  State : Type
  deflateInit2 : ℤ × State
  deflate : State → List UInt8 → ℕ → ZFlush → Deflated State
  deflateEnd : State → ℤ

namespace ZlibCalls

/-- Some calls that went well: what has been read and written, and the state after them. -/
inductive Session (z : ZlibCalls) : List UInt8 → List UInt8 → z.State → Prop where
  | init (h : z.deflateInit2.1 = Z_OK) : Session z [] [] z.deflateInit2.2
  | deflate {read written : List UInt8} {state : z.State} (h : Session z read written state)
      (input : List UInt8) (availOut : ℕ) (flush : ZFlush)
      (hret : (z.deflate state input availOut flush).ret = Z_OK) :
      Session z (read ++ input.take (z.deflate state input availOut flush).consumed)
        (written ++ (z.deflate state input availOut flush).output)
        (z.deflate state input availOut flush).state

/-- The stream of a source: a session that has read it and ends. -/
def WholeStream (z : ZlibCalls) (src stream : List UInt8) : Prop :=
  ∃ (read written : List UInt8) (state : z.State) (input : List UInt8) (availOut : ℕ),
    Session z read written state ∧
    (z.deflate state input availOut .finish).ret = Z_STREAM_END ∧
    src = read ++ input.take (z.deflate state input availOut .finish).consumed ∧
    stream = written ++ (z.deflate state input availOut .finish).output

end ZlibCalls

/-- A library that keeps to its documentation. -/
structure Zlib extends ZlibCalls where
  /-- only input that is there is read -/
  consumed_le : ∀ state input availOut flush,
    (deflate state input availOut flush).consumed ≤ input.length
  /-- no more is written than there is room for -/
  length_output_le : ∀ state input availOut flush,
    (deflate state input availOut flush).output.length ≤ availOut
  /-- `Z_OK` is for calls that make progress -/
  progress : ∀ state input availOut flush, (deflate state input availOut flush).ret = Z_OK →
    0 < (deflate state input availOut flush).consumed +
      (deflate state input availOut flush).output.length
  /-- streams are self-delimiting: one that has not ended does not start with one that has -/
  self_delimiting : ∀ {read written state src stream},
    toZlibCalls.Session read written state → toZlibCalls.WholeStream src stream →
      ¬stream <+: written
  /-- streams give their sources back -/
  lossless : ∀ {src src' stream}, toZlibCalls.WholeStream src stream →
    toZlibCalls.WholeStream src' stream → src = src'

/-- `z_stream`: the input that is left, what has been written, the room that is left and the
internal state. -/
structure ZStream (z : ZlibCalls) where
  next_in : List UInt8
  written : List UInt8
  avail_out : ℕ
  state : z.State

namespace ZStream

variable {z : ZlibCalls}

/-- `avail_in`. -/
def avail_in (c : ZStream z) : ℕ := c.next_in.length

/-- `total_out`. -/
def total_out (c : ZStream z) : ℕ := c.written.length

/-- A new stream for an input and some room. -/
def start (z : ZlibCalls) (src : List UInt8) (room : ℕ) : ZStream z where
  next_in := src
  written := []
  avail_out := room
  state := z.deflateInit2.2

/-- `deflate`: its result and the stream after it. -/
def deflate (c : ZStream z) (flush : ZFlush) : ℤ × ZStream z :=
  let call := z.deflate c.state c.next_in c.avail_out flush
  (call.ret,
    { next_in := c.next_in.drop call.consumed
      written := c.written ++ call.output
      avail_out := c.avail_out - call.output.length
      state := call.state })

/-- A call that goes well. -/
def Step (flush : ZFlush) (c c' : ZStream z) : Prop := c.deflate flush = (Z_OK, c')

/-- The stream stands in a session for a source, with some room. -/
def Stepped (src : List UInt8) (room : ℕ) (c : ZStream z) : Prop :=
  c.total_out + c.avail_out = room ∧
    ∃ read, z.Session read c.written c.state ∧ src = read ++ c.next_in

theorem stepped_start (src : List UInt8) (room : ℕ) (h : z.deflateInit2.1 = Z_OK) :
    (start z src room).Stepped src room :=
  ⟨Nat.zero_add room, [], .init h, rfl⟩

/-- The bytes that are read and those that are left. -/
theorem read_append (c : ZStream z) (flush : ZFlush) (read : List UInt8) :
    read ++ c.next_in.take (z.deflate c.state c.next_in c.avail_out flush).consumed ++
      (c.deflate flush).2.next_in = read ++ c.next_in := by
  rw [List.append_assoc]
  exact congrArg (read ++ ·) (List.take_append_drop _ _)

/-! ### Calls one after the other -/

/-- A call while there is input and room. -/
def Feed (c c' : ZStream z) : Prop := c.next_in ≠ [] ∧ 0 < c.avail_out ∧ c.Step .noFlush c'

/-- The source is fed, the stream is ended, and the state is released. -/
def Compresses (z : ZlibCalls) (src : List UInt8) (room : ℕ) : Prop :=
  z.deflateInit2.1 = Z_OK ∧ ∃ c c' c'' : ZStream z,
    ReflTransGen Feed (start z src room) c ∧ c.next_in = [] ∧
    ReflTransGen (Step .finish) c c' ∧ c'.deflate .finish = (Z_STREAM_END, c'') ∧
    z.deflateEnd c''.state = Z_OK

theorem step_rightUnique (flush : ZFlush) : Relator.RightUnique (@Step z flush) := by
  intro c c' c'' h h'
  exact (Prod.mk.inj (Eq.trans (Eq.symm h) h')).2

theorem feed_rightUnique : Relator.RightUnique (@Feed z) :=
  fun _ _ _ h h' => step_rightUnique .noFlush h.2.2 h'.2.2

/-- Steps that can only be done in one way end in one place. -/
theorem end_unique {α : Type} {r : α → α → Prop} (hr : Relator.RightUnique r) {a b b' : α}
    (h : ReflTransGen r a b) (h' : ReflTransGen r a b') (hend : ∀ x, ¬r b x)
    (hend' : ∀ x, ¬r b' x) : b = b' := by
  rcases ReflTransGen.total_of_right_unique hr h h' with h | h
  · rcases ReflTransGen.cases_head h with rfl | ⟨x, hx, -⟩
    · rfl
    · exact absurd hx (hend x)
  · rcases ReflTransGen.cases_head h with rfl | ⟨x, hx, -⟩
    · rfl
    · exact absurd hx (hend' x)

variable {src : List UInt8} {room : ℕ} {c c' c₁ c₂ : ZStream z}

theorem not_feed_of_nil (h : c.next_in = []) (x : ZStream z) : ¬c.Feed x := fun hfeed => hfeed.1 h

theorem not_step_of_end (h : c.deflate .finish = (Z_STREAM_END, c')) (x : ZStream z) :
    ¬c.Step .finish x :=
  fun hstep => absurd (congrArg Prod.fst (Eq.trans (Eq.symm h) hstep)) (show ¬(1 : ℤ) = 0 by decide)

/-- **Where the calls have come to** when a source is compressed: no input is left. -/
theorem Compresses.afterFeed (h : Compresses z src room)
    (hfeed : ReflTransGen Feed (start z src room) c) (hend : ∀ x, ¬c.Feed x) :
    c.next_in = [] ∧ ∃ c' c'' : ZStream z, ReflTransGen (Step .finish) c c' ∧
      c'.deflate .finish = (Z_STREAM_END, c'') ∧ z.deflateEnd c''.state = Z_OK := by
  obtain ⟨-, c₁, c', c'', hfeed', hnil, hrest⟩ := h
  obtain rfl := end_unique feed_rightUnique hfeed hfeed' hend (not_feed_of_nil hnil)
  exact ⟨hnil, c', c'', hrest⟩

/-- The stream has ended. -/
theorem Compresses.afterFinish (h : Compresses z src room)
    (hfeed : ReflTransGen Feed (start z src room) c₁) (hend : ∀ x, ¬c₁.Feed x)
    (hfinish : ReflTransGen (Step .finish) c₁ c₂) (hend' : ∀ x, ¬c₂.Step .finish x) :
    ∃ c : ZStream z, c₂.deflate .finish = (Z_STREAM_END, c) ∧ z.deflateEnd c.state = Z_OK := by
  obtain ⟨-, c', c'', hfinish', hlast, hreleased⟩ := h.afterFeed hfeed hend
  obtain rfl := end_unique (step_rightUnique .finish) hfinish hfinish' hend' (not_step_of_end hlast)
  exact ⟨c'', hlast, hreleased⟩

section Documented

variable {z : Zlib} {c c' : ZStream z.toZlibCalls} {flush : ZFlush} {src : List UInt8} {room : ℕ}

theorem total_out_deflate (c : ZStream z.toZlibCalls) (flush : ZFlush) :
    (c.deflate flush).2.total_out + (c.deflate flush).2.avail_out =
      c.total_out + c.avail_out := by
  have hle := z.length_output_le c.state c.next_in c.avail_out flush
  simp only [total_out, deflate, List.length_append]
  omega

/-- **A call** that goes well goes on with the session. -/
theorem Stepped.step (h : c.Stepped src room) (hstep : c.Step flush c') :
    c'.Stepped src room := by
  obtain ⟨hroom, read, hsession, hsrc⟩ := h
  have hret := congrArg Prod.fst hstep
  obtain rfl := congrArg Prod.snd hstep
  refine ⟨(total_out_deflate c flush).trans hroom, _, hsession.deflate _ _ _ hret, ?_⟩
  rw [c.read_append, hsrc]

theorem Stepped.steps {r : ZStream z.toZlibCalls → ZStream z.toZlibCalls → Prop}
    (hr : ∀ {c c'}, r c c' → ∃ flush, c.Step flush c') (h : c.Stepped src room)
    (hsteps : ReflTransGen r c c') : c'.Stepped src room := by
  induction hsteps with
  | refl => exact h
  | tail _ hstep ih =>
    obtain ⟨flush, hflush⟩ := hr hstep
    exact ih.step hflush

/-- It has less input or room left. -/
theorem left_lt_of_step (hstep : c.Step flush c') :
    c'.avail_in + c'.avail_out < c.avail_in + c.avail_out := by
  have hprogress := z.progress c.state c.next_in c.avail_out flush (congrArg Prod.fst hstep)
  have hread := z.consumed_le c.state c.next_in c.avail_out flush
  have hwritten := z.length_output_le c.state c.next_in c.avail_out flush
  obtain rfl := congrArg Prod.snd hstep
  simp only [avail_in, deflate, List.length_drop]
  omega

/-- **A stream that ends** when all input has been read is the stream of the source. -/
theorem Stepped.wholeStream (h : c.Stepped src room) (hread : c.next_in = [])
    (hend : c.deflate .finish = (Z_STREAM_END, c')) :
    z.WholeStream src c'.written ∧ c'.total_out ≤ room := by
  obtain ⟨hroom, read, hsession, hsrc⟩ := h
  have htotal := total_out_deflate c .finish
  have hret := congrArg Prod.fst hend
  obtain rfl := congrArg Prod.snd hend
  refine ⟨⟨read, c.written, c.state, c.next_in, c.avail_out, hsession, hret, ?_, rfl⟩, by omega⟩
  rw [hread, List.append_nil] at hsrc
  rw [hread, List.take_nil, List.append_nil, hsrc]

end Documented

end ZStream

end IotDeviceSdk
