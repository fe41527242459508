import IotDeviceSdk.Util.GZIPCompress

/-!
# Compressing a text

* `feed_eq`, `finish_eq`: the loops come to their ends, and where.
* `gZIPCompress_eq`: the result is the length of the stream when there is one.  Otherwise it is -1,
  or the number of bytes of input that have not been read.
-/

namespace IotDeviceSdk.Util

open Relation

variable {z : Zlib} {c : ZStream z.toZlibCalls} {src block : List UInt8} {rounds room n : ℕ}

/-- **The first loop** feeds the input until it is read, the room is used up or a call fails. -/
theorem feed_eq (h : c.Stepped src room) (hrounds : c.avail_in + c.avail_out < rounds) :
    ∃ c' : ZStream z.toZlibCalls, ReflTransGen ZStream.Feed c c' ∧ (∀ x, ¬c'.Feed x) ∧
      ((gZIPCompress.feed room rounds c = some (true, c') ∧ (c'.next_in ≠ [] → c'.avail_out = 0)) ∨
        (c'.next_in ≠ [] ∧ ∃ c'', gZIPCompress.feed room rounds c = some (false, c''))) := by
  induction rounds generalizing c with
  | zero => exact absurd hrounds (Nat.not_lt_zero _)
  | succ rounds ih =>
    have hroom := h.1
    have hmore : (c.avail_in ≠ 0 ∧ c.total_out < room) ↔ (c.next_in ≠ [] ∧ 0 < c.avail_out) := by
      rw [ZStream.avail_in, ne_eq, List.length_eq_zero_iff]
      refine and_congr_right fun _ => ?_
      omega
    by_cases hgoes : c.next_in ≠ [] ∧ 0 < c.avail_out
    · rw [gZIPCompress.feed, if_pos (hmore.mpr hgoes)]
      by_cases hret : (c.deflate .noFlush).1 = Z_OK
      · -- the rest of the loop, after a call that went well
        have hstep : c.Step .noFlush (c.deflate .noFlush).2 := Prod.ext hret rfl
        have hleft := ZStream.left_lt_of_step hstep
        obtain ⟨c', hfeed, hend, hresult⟩ := ih (h.step hstep) (by omega)
        refine ⟨c', .head ⟨hgoes.1, hgoes.2, hstep⟩ hfeed, hend, ?_⟩
        dsimp only
        rw [if_neg (not_not.mpr hret)]
        exact hresult
      · refine ⟨c, .refl, fun x hx => hret (congrArg Prod.fst hx.2.2), 
          Or.inr ⟨hgoes.1, (c.deflate .noFlush).2, if_pos hret⟩⟩
    · rw [gZIPCompress.feed, if_neg fun hmore' => hgoes (hmore.mp hmore')]
      refine ⟨c, .refl, fun x hx => hgoes ⟨hx.1, hx.2.1⟩, Or.inl ⟨rfl, fun hne => ?_⟩⟩
      by_contra hpos
      exact hgoes ⟨hne, Nat.pos_of_ne_zero hpos⟩

/-- **The second loop** ends the stream or meets a call that fails. -/
theorem finish_eq (hrounds : c.avail_in + c.avail_out < rounds) :
    ∃ c' : ZStream z.toZlibCalls, ReflTransGen (ZStream.Step .finish) c c' ∧
      (∀ x, ¬c'.Step .finish x) ∧
      ((∃ c'', c'.deflate .finish = (Z_STREAM_END, c'') ∧
          gZIPCompress.finish rounds c = some (true, c'')) ∨
        ((c'.deflate .finish).1 ≠ Z_STREAM_END ∧
          ∃ c'', gZIPCompress.finish rounds c = some (false, c''))) := by
  induction rounds generalizing c with
  | zero => exact absurd hrounds (Nat.not_lt_zero _)
  | succ rounds ih =>
    rw [gZIPCompress.finish]
    by_cases hend : (c.deflate .finish).1 = Z_STREAM_END
    · have hcall : c.deflate .finish = (Z_STREAM_END, (c.deflate .finish).2) := Prod.ext hend rfl
      refine ⟨c, .refl, ZStream.not_step_of_end hcall, Or.inl ⟨_, hcall, if_pos hend⟩⟩
    · by_cases hret : (c.deflate .finish).1 = Z_OK
      · -- there is more to write
        have hstep : c.Step .finish (c.deflate .finish).2 := Prod.ext hret rfl
        have hleft := ZStream.left_lt_of_step hstep
        obtain ⟨c', hfinish, hstuck, hresult⟩ := @ih (c.deflate .finish).2 (by omega)
        refine ⟨c', .head hstep hfinish, hstuck, ?_⟩
        dsimp only
        rw [if_neg hend, if_neg (not_not.mpr hret)]
        exact hresult
      · refine ⟨c, .refl, fun x hx => hret (congrArg Prod.fst hx), 
          Or.inr ⟨hend, (c.deflate .finish).2, ?_⟩⟩
        dsimp only
        rw [if_neg hend, if_pos hret]

theorem next_in_nil_of_steps {c' : ZStream z.toZlibCalls} {flush : ZFlush} (hnil : c.next_in = [])
    (h : ReflTransGen (ZStream.Step flush) c c') : c'.next_in = [] := by
  induction h with
  | refl => exact hnil
  | tail _ hstep ih =>
    obtain rfl := congrArg Prod.snd hstep
    show List.drop _ _ = []
    rw [ih, List.drop_nil]

/-- **After the input is read**, the result is the length of the stream or -1. -/
theorem afterFeed_eq (hinit : z.deflateInit2.1 = Z_OK)
    (hfeed : ReflTransGen ZStream.Feed (ZStream.start z.toZlibCalls src room) c)
    (hend : ∀ x, ¬c.Feed x) (hstepped : c.Stepped src room) (hnil : c.next_in = [])
    (hroom : room < 2 ^ 31) (hrounds : c.avail_in + c.avail_out < rounds) :
    ∃ ret c', gZIPCompress.afterFeed rounds c = some (ret, c') ∧
      ((ZStream.Compresses z.toZlibCalls src room ∧ z.WholeStream src c'.written ∧
          ret = c'.total_out) ∨
        (¬ZStream.Compresses z.toZlibCalls src room ∧ ret = -1)) := by
  obtain ⟨c₁, hfinish, hstuck, hresult⟩ := finish_eq hrounds
  have havail : ¬c.avail_in ≠ 0 := by rw [ZStream.avail_in, hnil]; exact not_not.mpr rfl
  unfold gZIPCompress.afterFeed
  rw [if_neg havail]
  rcases hresult with ⟨c₂, hcall, hrun⟩ | ⟨hret, c₂, hrun⟩
  · obtain ⟨hwhole, hle⟩ := (hstepped.steps (fun h => ⟨_, h⟩) hfinish).wholeStream
      (next_in_nil_of_steps hnil hfinish) hcall
    rw [hrun, Option.bind_eq_bind, Option.bind_some]
    dsimp only
    rw [if_neg (by decide)]
    -- the stream has ended, and `deflateEnd` decides
    by_cases hreleased : z.deflateEnd c₂.state = Z_OK
    · rw [if_neg (not_not.mpr hreleased), cInt_eq (by omega) (by omega)]
      exact ⟨_, c₂, rfl, Or.inl ⟨⟨hinit, c, c₁, c₂, hfeed, hnil, hfinish, hcall, hreleased⟩,
        hwhole, rfl⟩⟩
    · rw [if_pos hreleased]
      refine ⟨-1, c₂, rfl, Or.inr ⟨fun h => ?_, rfl⟩⟩
      obtain ⟨_, hlast, hreleased'⟩ := h.afterFinish hfeed hend hfinish hstuck
      obtain ⟨-, rfl⟩ := Prod.mk.inj (hcall.symm.trans hlast)
      exact hreleased hreleased'
  · rw [hrun]
    refine ⟨-1, c₂, rfl, Or.inr ⟨fun h => ?_, rfl⟩⟩
    obtain ⟨_, hlast, -⟩ := h.afterFinish hfeed hend hfinish hstuck
    exact hret (congrArg Prod.fst hlast)

/-- What is written fits the block. -/
theorem take_overwrite {written : List UInt8} {k : ℕ} (h : k ≤ written.length) :
    (overwrite block 0 written).take k = written.take k := by
  rw [overwrite, List.take_zero, List.nil_append, List.take_append_of_le_length h]

/-- Some of the input is left, with no room for more output. -/
def UnreadInput (z : Zlib) (n room : ℕ) (ret : ℤ) (block : List UInt8) : Prop :=
  ∃ (k : ℕ) (read written : List UInt8) (state : z.State), ret = k ∧ k ≤ n ∧
    z.Session read written state ∧ written.length = room ∧
    ∀ i ≤ room, block.take i = written.take i

/-- The first loop stops before the input is read: the room is used up. -/
theorem unreadInput_of_stepped (h : c.Stepped src room) (hfull : c.avail_out = 0)
    (hlength : src.length = n) :
    UnreadInput z n room c.avail_in (overwrite block 0 c.written) := by
  obtain ⟨hroom, read, hsession, hsrc⟩ := h
  have hk : c.avail_in ≤ n := by
    rw [← hlength, hsrc, List.length_append]
    exact Nat.le_add_left _ _
  have hwritten : c.written.length = room := by
    rw [ZStream.total_out] at hroom
    omega
  exact ⟨c.avail_in, read, c.written, c.state, rfl, hk, hsession, hwritten,
    fun i hi => take_overwrite (hi.trans_eq hwritten.symm)⟩

/-- **The result**: the length of the stream when there is one; otherwise -1 or the number of bytes
that have not been read. -/
theorem gZIPCompress_eq (z : Zlib) (hpos : 0 < n) (hn : n ≤ src.length) (hint : n < 2 ^ 31)
    (hblock : block.length = room) (hroom : room < 2 ^ 31) :
    ∃ ret block', gZIPCompress z.toZlibCalls (some src) n (some block) room =
        some (ret, some block') ∧
      ((ZStream.Compresses z.toZlibCalls (src.take n) room ∧
          ∃ stream, z.WholeStream (src.take n) stream ∧ ret = stream.length ∧
            block'.take stream.length = stream) ∨
        (¬ZStream.Compresses z.toZlibCalls (src.take n) room ∧
          (ret = -1 ∨ UnreadInput z n room ret block'))) := by
  have hinside : ¬((n : ℤ) > src.length ∨ (room : ℤ) > block.length) := by omega
  have hlength : (src.take n).length = n := List.length_take_of_le hn
  unfold gZIPCompress
  dsimp only
  rw [if_pos (by omega), if_neg hinside]
  by_cases hinit : z.deflateInit2.1 = Z_OK
  · rw [if_neg (not_not.mpr hinit), Int.toNat_natCast, Int.toNat_natCast]
    have hstart := ZStream.stepped_start (src.take n) room hinit
    -- each round reads or writes, so the rounds are enough
    have hrounds : (ZStream.start z.toZlibCalls (src.take n) room).avail_in +
        (ZStream.start z.toZlibCalls (src.take n) room).avail_out < n + room + 1 := by
      show (src.take n).length + room < _
      omega
    obtain ⟨c, hfeed, hend, hresult⟩ := feed_eq hstart hrounds
    have hstepped := hstart.steps (fun h => ⟨_, h.2.2⟩) hfeed
    rcases hresult with ⟨hrun, hfull⟩ | ⟨hne, c', hrun⟩
    · rw [hrun, Option.bind_eq_bind, Option.bind_some]
      dsimp only
      rw [if_pos rfl]
      by_cases hnil : c.next_in = []
      · -- the input is read
        have hleft : c.avail_in + c.avail_out < n + room + 1 := by
          have hsum := hstepped.1
          rw [ZStream.avail_in, hnil, List.length_nil]
          omega
        obtain ⟨ret, c', hafter, hresult⟩ :=
          afterFeed_eq hinit hfeed hend hstepped hnil hroom hleft
        rw [hafter, Option.bind_eq_bind, Option.bind_some]
        refine ⟨ret, _, rfl, ?_⟩
        rcases hresult with ⟨hcompresses, hwhole, hret⟩ | ⟨hnot, hret⟩
        · refine Or.inl ⟨hcompresses, c'.written, hwhole, hret, ?_⟩
          rw [take_overwrite (le_refl _), List.take_length]
        · exact Or.inr ⟨hnot, Or.inl hret⟩
      · -- some input is left
        have havail : c.avail_in ≠ 0 := fun h => hnil (List.length_eq_zero_iff.mp h)
        have hunread := @unreadInput_of_stepped z c _ block room n hstepped (hfull hnil) hlength
        have hint' : c.avail_in < 2 ^ 31 := by
          obtain ⟨k, -, -, -, hk, hle, -⟩ := hunread
          omega
        have hafter : gZIPCompress.afterFeed (n + room + 1) c = some ((c.avail_in : ℤ), c) := by
          rw [gZIPCompress.afterFeed, if_pos havail, cInt_eq (by omega) (by omega)]
          rfl
        rw [hafter, Option.bind_eq_bind, Option.bind_some]
        exact ⟨_, _, rfl, Or.inr ⟨fun h => hnil (h.afterFeed hfeed hend).1, Or.inr hunread⟩⟩
    · -- deflate has failed
      rw [hrun, Option.bind_eq_bind, Option.bind_some]
      exact ⟨-1, _, rfl, Or.inr ⟨fun h => hne (h.afterFeed hfeed hend).1, Or.inl rfl⟩⟩
  · rw [if_pos hinit]
    exact ⟨-1, block, rfl, Or.inr ⟨fun h => hinit h.1, Or.inl rfl⟩⟩

end IotDeviceSdk.Util
