import IotDeviceSdk.Zlib.Basic
import Mathlib.Tactic.SplitIfs

/-!
# Recorded runs of zlib

A library that does again what was recorded of one run on one source with some room, and fails on
every other call.  `Recording.zlib` keeps to the documentation, and `Recording.compresses` says when
the run is one that gets through.
-/

namespace IotDeviceSdk

/-- A run of the library on one source with some room: what the first call reads and writes, and
what the last one writes, if there is one. -/
structure Recording where
  src : List UInt8
  room : ℕ
  consumed : ℕ
  first : List UInt8
  last : List UInt8
  consumed_le : consumed ≤ src.length
  first_ne_nil : first ≠ []
  length_first_le : first.length ≤ room

namespace Recording

variable (r : Recording)

/-- The calls of the run; another call is an error. -/
def deflate (fed : Bool) (input : List UInt8) (availOut : ℕ) (flush : ZFlush) : Deflated Bool :=
  if fed = false ∧ input = r.src ∧ availOut = r.room ∧ flush = .noFlush then
    ⟨Z_OK, r.consumed, r.first, true⟩
  else if fed = true ∧ input = [] ∧ r.last ≠ [] ∧ r.last.length ≤ availOut ∧ flush = .finish then
    ⟨Z_STREAM_END, 0, r.last, true⟩
  else ⟨Z_STREAM_ERROR, 0, [], fed⟩

/-- The state says whether the first call has been made. -/
def calls : ZlibCalls where
  State := Bool
  deflateInit2 := (Z_OK, false)
  deflate := r.deflate
  deflateEnd := fun _ => Z_OK

theorem deflate_eq_of_ok {fed : Bool} {input : List UInt8} {availOut : ℕ} {flush : ZFlush}
    (h : (r.deflate fed input availOut flush).ret = Z_OK) :
    fed = false ∧ input = r.src ∧
      r.deflate fed input availOut flush = ⟨Z_OK, r.consumed, r.first, true⟩ := by
  unfold deflate at h ⊢
  split_ifs at h ⊢ with hfirst hlast
  · exact ⟨hfirst.1, hfirst.2.1, rfl⟩
  · exact absurd h (show ¬(1 : ℤ) = 0 by decide)
  · exact absurd h (show ¬(-2 : ℤ) = 0 by decide)

theorem deflate_eq_of_end {fed : Bool} {input : List UInt8} {availOut : ℕ} {flush : ZFlush}
    (h : (r.deflate fed input availOut flush).ret = Z_STREAM_END) :
    fed = true ∧ r.last ≠ [] ∧
      r.deflate fed input availOut flush = ⟨Z_STREAM_END, 0, r.last, true⟩ := by
  unfold deflate at h ⊢
  split_ifs at h ⊢ with hfirst hlast
  · exact absurd h (show ¬(0 : ℤ) = 1 by decide)
  · exact ⟨hlast.1, hlast.2.2.1, rfl⟩
  · exact absurd h (show ¬(-2 : ℤ) = 1 by decide)

/-- Nothing has been written, or what the first call writes. -/
theorem session_cases {read written : List UInt8} {state : r.calls.State}
    (h : r.calls.Session read written state) :
    (state = (false : Bool) ∧ read = [] ∧ written = []) ∨
      (state = (true : Bool) ∧ read = r.src.take r.consumed ∧ written = r.first) := by
  induction h with
  | init => exact Or.inl ⟨rfl, rfl, rfl⟩
  | deflate _ input availOut flush hret ih =>
    obtain ⟨hfed, rfl, hcall⟩ := r.deflate_eq_of_ok hret
    rcases ih with ⟨-, rfl, rfl⟩ | ⟨htrue, -, -⟩
    · refine Or.inr ⟨congrArg Deflated.state hcall, ?_, congrArg Deflated.output hcall⟩
      exact congrArg (fun call => r.src.take call.consumed) hcall
    · exact absurd (hfed.symm.trans htrue) (by decide)

theorem wholeStream_eq {src stream : List UInt8} (h : r.calls.WholeStream src stream) :
    src = r.src.take r.consumed ∧ stream = r.first ++ r.last ∧ r.last ≠ [] := by
  obtain ⟨read, written, state, input, availOut, hsession, hret, rfl, rfl⟩ := h
  obtain ⟨htrue, hne, hcall⟩ := r.deflate_eq_of_end hret
  rcases r.session_cases hsession with ⟨hfalse, -, -⟩ | ⟨-, rfl, rfl⟩
  · exact absurd (hfalse.symm.trans htrue) Bool.false_ne_true
  · refine ⟨?_, congrArg (fun call => r.first ++ call.output) hcall, hne⟩
    have hnone : (r.deflate state input availOut .finish).consumed = 0 :=
      congrArg Deflated.consumed hcall
    show _ ++ input.take (r.deflate state input availOut .finish).consumed = _
    rw [hnone, List.take_zero, List.append_nil]

/-- The library of this run keeps to its documentation. -/
def zlib : Zlib where
  toZlibCalls := r.calls
  consumed_le := by
    intro fed input availOut flush
    show (r.deflate fed input availOut flush).consumed ≤ input.length
    unfold deflate
    split_ifs with hfirst
    · rw [hfirst.2.1]
      exact r.consumed_le
    · exact Nat.zero_le _
    · exact Nat.zero_le _
  length_output_le := by
    intro fed input availOut flush
    show (r.deflate fed input availOut flush).output.length ≤ availOut
    unfold deflate
    split_ifs with hfirst hlast
    · rw [hfirst.2.2.1]
      exact r.length_first_le
    · exact hlast.2.2.2.1
    · exact Nat.zero_le _
  progress := by
    intro fed input availOut flush hret
    obtain ⟨-, -, hcall⟩ := r.deflate_eq_of_ok hret
    show 0 < (r.deflate fed input availOut flush).consumed +
      (r.deflate fed input availOut flush).output.length
    rw [hcall]
    exact Nat.add_pos_right _ (List.length_pos_of_ne_nil r.first_ne_nil)
  self_delimiting := by
    intro read written state src stream hsession hwhole hprefix
    obtain ⟨-, rfl, hne⟩ := r.wholeStream_eq hwhole
    have hlast := List.length_pos_of_ne_nil hne
    have hfirst := List.length_pos_of_ne_nil r.first_ne_nil
    have hle := hprefix.length_le
    rw [List.length_append] at hle
    rcases r.session_cases hsession with ⟨-, -, rfl⟩ | ⟨-, -, rfl⟩
    · rw [List.length_nil] at hle
      omega
    · omega
  lossless := by
    intro src src' stream hwhole hwhole'
    rw [(r.wholeStream_eq hwhole).1, (r.wholeStream_eq hwhole').1]

/-- The stream after the first call. -/
def afterFirst : ZStream r.calls where
  next_in := r.src.drop r.consumed
  written := r.first
  avail_out := r.room - r.first.length
  state := (true : Bool)

theorem feed_start (hsrc : r.src ≠ []) :
    (ZStream.start r.calls r.src r.room).Feed r.afterFirst := by
  have hroom : 0 < r.room :=
    (List.length_pos_of_ne_nil r.first_ne_nil).trans_le r.length_first_le
  have hcall : r.deflate false r.src r.room .noFlush = ⟨Z_OK, r.consumed, r.first, true⟩ :=
    if_pos ⟨rfl, rfl, rfl, rfl⟩
  have hstream : (ZStream.start r.calls r.src r.room).deflate .noFlush =
      ((r.deflate false r.src r.room .noFlush).ret,
        ⟨r.src.drop (r.deflate false r.src r.room .noFlush).consumed,
          [] ++ (r.deflate false r.src r.room .noFlush).output,
          r.room - (r.deflate false r.src r.room .noFlush).output.length,
          (r.deflate false r.src r.room .noFlush).state⟩) := rfl
  rw [hcall] at hstream
  exact ⟨hsrc, hroom, hstream⟩

/-- **A run with a last call** compresses its source. -/
theorem compresses (hsrc : r.src ≠ []) (hread : r.consumed = r.src.length) (hlast : r.last ≠ [])
    (hroom : r.last.length ≤ r.room - r.first.length) :
    ZStream.Compresses r.calls r.src r.room := by
  have hnil : r.afterFirst.next_in = [] := by
    show r.src.drop r.consumed = []
    rw [hread, List.drop_length]
  have hcall : r.deflate true r.afterFirst.next_in (r.room - r.first.length) .finish =
      ⟨Z_STREAM_END, 0, r.last, true⟩ := by
    rw [hnil, deflate, if_neg (by simp), if_pos ⟨rfl, rfl, hlast, hroom, rfl⟩]
  exact ⟨rfl, r.afterFirst, r.afterFirst, _, .single (r.feed_start hsrc), hnil, .refl,
    Prod.ext (congrArg Deflated.ret hcall) rfl, rfl⟩

end Recording

end IotDeviceSdk
