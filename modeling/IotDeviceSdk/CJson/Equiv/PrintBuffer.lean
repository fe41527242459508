import IotDeviceSdk.CJson.Equiv.Item
import IotDeviceSdk.CJson.PrintBuffer
import IotDeviceSdk.Prog.Wp

/-!
# Writing the buffer

`At env f acc tail s` says where a print stands: the text `acc` is in front of the offset and `tail`
behind it.  The steps of the printer move from one such state to the next, and none of them touches
what the frame `f` holds: the blocks of others, and in a buffer of the caller's the bytes behind
the length.

* `wp_ensure`: room is refused (`Refused`) only to a text that does not fit.
* `wp_write`, `wp_moveOffset`, `wp_updateOffset`: writing a text and stepping over it.
-/

namespace IotDeviceSdk.Json

open Prog

variable {env : PrintEnv} {s : PrintState}

/-! ### Blocks -/

theorem length_resize (bytes : List (Option UInt8)) (size : ℕ) :
    (resize bytes size).length = size := by
  rw [resize, List.length_append, List.length_take, List.length_replicate]
  omega

/-- What a block holds in its first bytes it holds in another size. -/
theorem prefix_resize {text bytes : List (Option UInt8)} {size : ℕ} (h : text <+: bytes)
    (hsize : text.length ≤ size) : text <+: resize bytes size := by
  have htake : text <+: bytes.take size := List.prefix_take_iff.mpr ⟨h, hsize⟩
  exact htake.trans (List.prefix_append _ _)

theorem drop_overwrite {α : Type} {block bytes : List α} {offset n : ℕ}
    (h : offset + bytes.length ≤ n) (hblock : n ≤ block.length) :
    (overwrite block offset bytes).drop n = block.drop n := by
  have hlength : (block.take offset ++ bytes).length = offset + bytes.length := by
    rw [List.length_append, List.length_take]
    omega
  rw [overwrite, List.drop_append, List.drop_of_length_le (by omega), List.nil_append, hlength,
    List.drop_drop, show offset + bytes.length + (n - (offset + bytes.length)) = n by omega]

/-- A text in a block goes on with what is written behind a part of it. -/
theorem prefix_overwrite {α : Type} {block text bytes : List α} {k : ℕ} (h : text <+: block)
    (hk : k ≤ text.length) : text.take k ++ bytes <+: overwrite block k bytes := by
  obtain ⟨rest, rfl⟩ := h
  rw [overwrite, List.take_append_of_le_length hk]
  exact List.prefix_append _ _

theorem strlen_append {text : List UInt8} (h : 0 ∉ text) (rest : List (Option UInt8)) :
    strlen ((text ++ [0]).map some ++ rest) = some text.length := by
  induction text with
  | nil => rfl
  | cons b text ih =>
    rw [List.mem_cons, not_or] at h
    show (if b = 0 then some 0 else (strlen ((text ++ [0]).map some ++ rest)).map (· + 1)) = _
    rw [if_neg fun hb => h.1 hb.symm, ih h.2]
    rfl

/-! ### States -/

/-- What a print leaves alone: the blocks that are not its own, and with a buffer of the caller's,
of which it may use `length` bytes, the heap, the address and the bytes behind. -/
structure Frame where
  heap : Heap
  address : ℕ
  length : ℕ
  rest : List (Option UInt8)

/-- The frame is as it was. -/
def Frame.Holds (f : Frame) (env : PrintEnv) (s : PrintState) : Prop :=
  if env.noalloc then
    s.heap = f.heap ∧ s.length = f.length ∧
      ∃ block, s.buffer = some block ∧ block.address = f.address ∧ block.bytes.drop f.length = f.rest
  else s.heap.live.Perm ((s.buffer.map Block.address).toList ++ f.heap.live)

/-- A text is in front of the offset, another behind it, and the frame is as it was. -/
structure At (env : PrintEnv) (f : Frame) (acc tail : List UInt8) (s : PrintState) : Prop where
  block : ∃ block, s.buffer = some block ∧ s.length ≤ block.bytes.length ∧
    (acc ++ tail).map some <+: block.bytes
  offset : s.offset = acc.length
  inside : s.offset < s.length ∨
    s.length = 0 ∧ s.offset = 0 ∧ (env.noalloc = true ∨ env.reallocates = true)
  limit : s.length ≤ INT_MAX.toNat
  frame : f.Holds env s

/-- There is no room for a text that ends in front of `size`. -/
def Refused (env : PrintEnv) (f : Frame) (size : ℕ) : Prop :=
  if env.noalloc then f.length < size else INT_MAX.toNat < size ∨ ∃ n, env.mallocs n = false

theorem Refused.mono {f : Frame} {size size' : ℕ} (h : Refused env f size) (hle : size ≤ size') :
    Refused env f size' := by
  unfold Refused at h ⊢
  split_ifs at h ⊢
  · exact h.trans_le hle
  · exact h.imp_left fun hlt => hlt.trans_le hle

section Steps

variable {f : Frame} {acc tail : List UInt8}

theorem At.weaken (h : At env f acc tail s) : At env f acc [] s := by
  obtain ⟨block, hblock, hlength, hstart⟩ := h.block
  refine ⟨⟨block, hblock, hlength, ?_⟩, h.offset, h.inside, h.limit, h.frame⟩
  rw [List.append_nil]
  rw [List.map_append] at hstart
  exact (List.prefix_append _ _).trans hstart

/-! ### Room -/

theorem wp_allocateBlock {Q : Option ℕ → PrintState → Prop}
    (hsome : ∀ address heap, heap.live = address :: s.heap.live →
      Q (some address) { s with heap := heap })
    (hnone : ∀ heap, heap.live = s.heap.live → (∃ n, env.mallocs n = false) →
      Q none { s with heap := heap }) : Wp env allocateBlock Q s := by
  rcases s.heap.allocate_cases env.mallocs with
    ⟨address, heap, hallocate, hlive⟩ | ⟨heap, hallocate, hlive, hmallocs⟩
  · refine ⟨some address, { s with heap := heap }, ?_, hsome address heap hlive⟩
    simp only [allocateBlock, hallocate]
  · refine ⟨none, { s with heap := heap }, ?_, hnone heap hlive hmallocs⟩
    simp only [allocateBlock, hallocate]

theorem wp_freeBlock {address : ℕ} {base : List ℕ} {Q : Unit → PrintState → Prop}
    (h : s.heap.live.Perm (address :: base))
    (hQ : ∀ heap, heap.live.Perm base → Q () { s with heap := heap }) :
    Wp env (freeBlock address) Q s := by
  obtain ⟨heap, hheap, hperm⟩ := deallocate_of_perm h
  refine ⟨(), { s with heap := heap }, ?_, hQ heap hperm⟩
  show (s.heap.deallocate address).map _ = _
  rw [hheap]
  rfl

theorem wp_reallocateBlock {address : ℕ} {base : List ℕ} {Q : Option ℕ → PrintState → Prop}
    (h : s.heap.live.Perm (address :: base))
    (hsome : ∀ address' heap, heap.live.Perm (address' :: base) →
      Q (some address') { s with heap := heap })
    (hnone : ∀ heap, heap.live = s.heap.live → (∃ n, env.mallocs n = false) →
      Q none { s with heap := heap }) : Wp env (reallocateBlock address) Q s := by
  have hmem : address ∈ s.heap.live := h.mem_iff.mpr List.mem_cons_self
  have herase : (s.heap.live.erase address).Perm base := by
    have hperm := h.erase address
    rwa [List.erase_cons_head] at hperm
  by_cases hmalloc : env.mallocs s.heap.asked = true
  · refine ⟨some s.heap.asked, { s with
      heap := ⟨s.heap.asked + 1, s.heap.asked :: s.heap.live.erase address⟩ }, ?_, ?_⟩
    · show (Heap.reallocate env.mallocs s.heap address).map _ = _
      rw [Heap.reallocate, if_pos hmem, if_pos hmalloc]
      rfl
    · exact hsome _ _ (herase.cons _)
  · refine ⟨none, { s with heap := ⟨s.heap.asked + 1, s.heap.live⟩ }, ?_, ?_⟩
    · show (Heap.reallocate env.mallocs s.heap address).map _ = _
      rw [Heap.reallocate, if_pos hmem, if_neg hmalloc]
      rfl
    · exact hnone _ rfl ⟨s.heap.asked, by simpa using hmalloc⟩

/-- The end of `ensure` when the block could not be moved. -/
theorem wp_dropBuffer {block : Block} {Q : Bool → PrintState → Prop} (hnoalloc : env.noalloc = false)
    (hlive : s.heap.live.Perm (block.address :: f.heap.live))
    (hQ : ∀ s', f.Holds env s' → Q false s') : Wp env (dropBuffer block.address) Q s := by
  unfold dropBuffer
  rw [wp_bind]
  apply wp_freeBlock hlive
  intro heap hheap
  rw [wp_bind, wp_modify, wp_pure]
  apply hQ
  rw [Frame.Holds, hnoalloc]
  exact hheap

/-- Moving the block keeps the text in front of the offset. -/
theorem wp_moveBuffer {block : Block} {newsize : ℕ} {Q : Bool → PrintState → Prop}
    (hnoalloc : env.noalloc = false) (h : At env f acc [] s) (hblock : s.buffer = some block)
    (hsize : s.offset < newsize) (hlimit : newsize ≤ INT_MAX.toNat)
    (htrue : ∀ s', At env f acc [] s' → s'.length = newsize → s'.depth = s.depth → Q true s')
    (hfalse : ∀ s', f.Holds env s' → (∃ n, env.mallocs n = false) → Q false s') :
    Wp env (moveBuffer block newsize) Q s := by
  obtain ⟨block', hblock', hlength, hstart⟩ := h.block
  obtain rfl := Option.some.inj (hblock.symm.trans hblock')
  have hoffset := h.offset
  have hlive : s.heap.live.Perm (block.address :: f.heap.live) := by
    have hframe := h.frame
    rwa [Frame.Holds, hnoalloc, hblock] at hframe
  rw [List.append_nil] at hstart
  -- the bytes already printed are the start of the larger buffer
  have hat : ∀ address bytes heap, heap.live.Perm (address :: f.heap.live) → acc.map some <+: bytes →
      At env f acc [] { s with
        buffer := some ⟨address, resize bytes newsize⟩, length := newsize, heap := heap } := by
    intro address bytes heap hheap hbytes
    refine ⟨⟨_, rfl, (length_resize _ _).ge, ?_⟩, hoffset, .inl hsize, hlimit, ?_⟩
    · rw [List.append_nil]
      apply prefix_resize hbytes
      rw [List.length_map]
      omega
    · rw [Frame.Holds, hnoalloc]
      exact hheap
  unfold moveBuffer
  rw [wp_bind, wp_read, wp_ite]
  constructor
  · intro hreallocates
    -- realloc keeps the bytes
    rw [wp_bind]
    apply wp_reallocateBlock hlive
    · intro address heap hheap
      dsimp only
      rw [wp_bind, wp_modify, wp_pure]
      exact htrue _ (hat address block.bytes heap hheap hstart) rfl rfl
    · intro heap hheap hmallocs
      refine wp_dropBuffer (f := f) hnoalloc ?_ fun s' hs' => hfalse s' hs' hmallocs
      rw [hheap]
      exact hlive
  · intro hreallocates
    rw [wp_bind]
    apply wp_allocateBlock
    · intro address heap hheap
      -- malloc, a copy of what is printed with its terminator, and free
      have hcount : s.offset + 1 ≤ block.bytes.length := by
        rcases h.inside with hlt | ⟨-, -, hno | hno⟩
        · omega
        · rw [hnoalloc] at hno
          cases hno
        · exact absurd hno hreallocates
      have hstart' : acc.map some <+: block.bytes.take (s.offset + 1) := by
        apply List.prefix_take_iff.mpr
        refine ⟨hstart, ?_⟩
        rw [List.length_map]
        omega
      dsimp only
      rw [wp_bind, wp_get, wp_ite]
      refine ⟨fun _ => ?_, fun hno => absurd ⟨hcount, hsize⟩ hno⟩
      rw [wp_bind]
      refine @wp_freeBlock _ _ block.address (address :: f.heap.live) _ ?_ ?_
      · show heap.live.Perm _
        rw [hheap]
        exact (hlive.cons address).trans (List.Perm.swap _ _ _)
      · intro heap' hheap'
        rw [wp_bind, wp_modify, wp_pure]
        exact htrue _ (hat address _ heap' hheap' hstart') rfl rfl
    · intro heap hheap hmallocs
      refine wp_dropBuffer (f := f) hnoalloc ?_ fun s' hs' => hfalse s' hs' hmallocs
      rw [hheap]
      exact hlive

/-- **`ensure`** keeps the text, and refuses room only to a text that does not fit. -/
theorem wp_ensure {needed : ℕ} {Q : Bool → PrintState → Prop} (h : At env f acc tail s)
    (htrue : ∀ s', At env f acc [] s' → acc.length + needed + 1 ≤ s'.length →
      s'.depth = s.depth → Q true s')
    (hfalse : ∀ s', f.Holds env s' → Refused env f (acc.length + needed + 1) → Q false s') :
    Wp env (ensure needed) Q s := by
  obtain ⟨block, hblock, hlength, -⟩ := h.block
  have hoffset := h.offset
  have hlimit := h.limit
  have hlengthOf : env.noalloc = true → s.length = f.length := by
    intro hnoalloc
    have hframe := h.frame
    rw [Frame.Holds, if_pos hnoalloc] at hframe
    exact hframe.2.1
  unfold ensure
  rw [wp_bind, wp_get, hblock]
  dsimp only
  rw [wp_ite]
  refine ⟨fun hno => ?_, fun _ => ?_⟩
  · rcases h.inside with hlt | ⟨hzero, -, -⟩
    · omega
    · omega
  rw [wp_ite, wp_pure]
  refine ⟨fun hlarge => ?_, fun hsmall => ?_⟩
  · apply hfalse s h.frame
    unfold Refused
    split_ifs with hnoalloc
    · rw [← hlengthOf hnoalloc]
      omega
    · exact .inl (by omega)
  rw [wp_ite, wp_pure]
  refine ⟨fun hfits => htrue s h.weaken (by omega) rfl, fun hfull => ?_⟩
  rw [wp_bind, wp_read, wp_ite, wp_pure]
  refine ⟨fun hnoalloc => ?_, fun halloc => ?_⟩
  · apply hfalse s h.frame
    rw [Refused, if_pos hnoalloc, ← hlengthOf hnoalloc]
    omega
  have halloc' : env.noalloc = false := Bool.eq_false_iff.mpr halloc
  have hmoved : ∀ s', f.Holds env s' → (∃ n, env.mallocs n = false) → Q false s' := by
    intro s' hs' hmallocs
    apply hfalse s' hs'
    rw [Refused, if_neg halloc]
    exact .inr hmallocs
  rw [wp_ite]
  refine ⟨fun hhalf => ?_, fun hhalf => ?_⟩
  · rw [wp_ite, wp_pure]
    refine ⟨fun hmax => ?_, fun hmax => ?_⟩
    · apply wp_moveBuffer halloc' h.weaken hblock (by omega) le_rfl _ hmoved
      intro s' hs' hsize hdepth
      exact htrue s' hs' (by omega) hdepth
    · apply hfalse s h.frame
      rw [Refused, if_neg halloc]
      exact .inl (by omega)
  · apply wp_moveBuffer halloc' h.weaken hblock (by omega) (by omega) _ hmoved
    intro s' hs' hsize hdepth
    exact htrue s' hs' (by omega) hdepth

/-! ### Writing -/

/-- Writing behind a part of what stands behind the offset. -/
theorem wp_write {position k : ℕ} {bytes : List UInt8} {Q : Unit → PrintState → Prop}
    (h : At env f acc tail s) (hposition : position = acc.length + k) (hk : k ≤ tail.length)
    (hroom : position + bytes.length ≤ s.length)
    (hQ : ∀ s', At env f acc (tail.take k ++ bytes) s' → s'.length = s.length →
      s'.depth = s.depth → s'.offset = s.offset → Q () s') : Wp env (write position bytes) Q s := by
  obtain ⟨block, hblock, hlength, hstart⟩ := h.block
  have hfits : position + bytes.length ≤ block.bytes.length := by omega
  refine ⟨(), { s with
    buffer := some ⟨block.address, overwrite block.bytes position (bytes.map some)⟩ }, ?_, ?_⟩
  · show s.buffer.bind _ = _
    rw [hblock]
    exact if_pos hfits
  · refine hQ _ ⟨⟨_, rfl, ?_, ?_⟩, h.offset, h.inside, h.limit, ?_⟩ rfl rfl rfl
    · show s.length ≤ (overwrite block.bytes position (bytes.map some)).length
      rw [length_overwrite (by rwa [List.length_map])]
      exact hlength
    · have hlong : position ≤ ((acc ++ tail).map some).length := by
        rw [List.length_map, List.length_append]
        omega
      have hpart := @prefix_overwrite _ _ _ (bytes.map some) _ hstart hlong
      have htake : (acc ++ tail).take position = acc ++ tail.take k := by
        rw [hposition, List.take_append, List.take_of_length_le (by omega), Nat.add_sub_cancel_left]
      rwa [← List.map_take, htake, ← List.map_append, List.append_assoc] at hpart
    · have hframe := h.frame
      unfold Frame.Holds at hframe ⊢
      split_ifs at hframe ⊢
      · obtain ⟨hlive, hsame, block', hblock', haddress, hrest⟩ := hframe
        obtain rfl := Option.some.inj (hblock.symm.trans hblock')
        refine ⟨hlive, hsame, _, rfl, haddress, ?_⟩
        rw [← hrest]
        exact drop_overwrite (by rw [List.length_map]; omega) (by omega)
      · rw [hblock] at hframe
        exact hframe

/-- Writing at the offset. -/
theorem wp_write_offset {bytes : List UInt8} {Q : Unit → PrintState → Prop}
    (h : At env f acc [] s) (hroom : acc.length + bytes.length ≤ s.length)
    (hQ : ∀ s', At env f acc bytes s' → s'.length = s.length → s'.depth = s.depth → Q () s') :
    Wp env (write s.offset bytes) Q s := by
  apply wp_write (k := 0) h h.offset (Nat.zero_le _) (by rw [h.offset]; exact hroom)
  intro s' hs' hlength hdepth _
  exact hQ s' hs' hlength hdepth

/-- Stepping over what has been written. -/
theorem wp_moveOffset {text : List UInt8} {Q : Unit → PrintState → Prop}
    (h : At env f acc (text ++ tail) s) (hroom : acc.length + text.length < s.length)
    (hQ : ∀ s', At env f (acc ++ text) tail s' → s'.length = s.length → s'.depth = s.depth →
      Q () s') : Wp env (moveOffset text.length) Q s := by
  unfold moveOffset
  rw [wp_modify]
  obtain ⟨block, hblock, hlength, hstart⟩ := h.block
  have hoffset := h.offset
  refine hQ _ ⟨⟨block, hblock, hlength, ?_⟩, ?_, .inl ?_, h.limit, h.frame⟩ rfl rfl
  · rw [List.append_assoc]
    exact hstart
  · show s.offset + text.length = _
    rw [List.length_append, hoffset]
  · show s.offset + text.length < s.length
    omega

/-- **`update_offset`** steps over the C string at the offset. -/
theorem wp_updateOffset {text : List UInt8} {Q : Unit → PrintState → Prop}
    (h : At env f acc (text ++ [0]) s) (htext : 0 ∉ text)
    (hroom : acc.length + text.length < s.length)
    (hQ : ∀ s', At env f (acc ++ text) [0] s' → s'.length = s.length → s'.depth = s.depth →
      Q () s') : Wp env updateOffset Q s := by
  obtain ⟨block, hblock, -, hstart⟩ := id h.block
  obtain ⟨rest, hrest⟩ := hstart
  have hdrop : block.bytes.drop s.offset = (text ++ [0]).map some ++ rest := by
    rw [← hrest, List.map_append, List.append_assoc, List.drop_left']
    rw [List.length_map, h.offset]
  unfold updateOffset
  rw [wp_bind, wp_get, hblock]
  dsimp only
  rw [wp_bind, wp_get, wp_bind, wp_ofOption]
  refine ⟨_, ?_, wp_moveOffset h hroom hQ⟩
  rw [hdrop]
  exact strlen_append htext rest

end Steps

end IotDeviceSdk.Json
