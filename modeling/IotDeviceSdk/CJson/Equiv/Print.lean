import IotDeviceSdk.CJson.Equiv.PrintValue

/-!
# `cJSON_Print`, `cJSON_PrintBuffered` and `cJSON_PrintPreallocated`

* `printItem_spec`: printing is defined for every tree of items, whatever the hooks and the
  allocations do.  It returns the text of the item in a block of its own size, or `NULL` without
  anything left behind; and it refuses only a text that is too long, or for want of memory.
* `printItemBuffered_spec`: the same in a block of another size, unless the hooks cannot reallocate
  and the block to start with is empty.
* `printPreallocated_spec`: printing into a buffer of the caller's succeeds exactly when the text,
  its terminator and one more byte fit, and touches nothing behind the length.
-/

namespace IotDeviceSdk.Json

open Prog

variable {env : PrintEnv} {s : PrintState} {hooks : Hooks} {format : Bool} {item : Item} {heap : Heap}

/-- The frame of a print into blocks of its own. -/
def ownFrame (heap : Heap) : Frame := ⟨heap, 0, 0, []⟩

/-- A printed text as it is in its block. -/
def terminated (text : List UInt8) : List (Option UInt8) := (text ++ [0]).map some

/-- What a print with blocks of its own leaves, with `Holds` between a text and its block. -/
structure PrintedBlock (mallocs : ℕ → Bool) (t : Option (List UInt8)) (live : List ℕ)
    (Holds : List UInt8 → List (Option UInt8) → Prop) (r : Option Block) (live' : List ℕ) :
    Prop where
  printed : ∀ block, r = some block →
    ∃ text, t = some text ∧ Holds text block.bytes ∧ live'.Perm (block.address :: live)
  failed : r = none → live'.Perm live ∧
    ∀ text, t = some text → INT_MAX.toNat < text.length + 2 ∨ ∃ n, mallocs n = false

theorem printedBlock_some {mallocs : ℕ → Bool} {text : List UInt8} {live live' : List ℕ}
    {Holds : List UInt8 → List (Option UInt8) → Prop} {block : Block}
    (hbytes : Holds text block.bytes) (hlive : live'.Perm (block.address :: live)) :
    PrintedBlock mallocs (some text) live Holds (some block) live' := by
  refine ⟨fun block' hblock => ?_, fun hno => by cases hno⟩
  obtain rfl := Option.some.inj hblock
  exact ⟨text, rfl, hbytes, hlive⟩

theorem printedBlock_none {mallocs : ℕ → Bool} {t : Option (List UInt8)} {live live' : List ℕ}
    {Holds : List UInt8 → List (Option UInt8) → Prop} (hlive : live'.Perm live)
    (hwhy : ∀ text, t = some text → INT_MAX.toNat < text.length + 2 ∨ ∃ n, mallocs n = false) :
    PrintedBlock mallocs t live Holds none live' := by
  refine ⟨fun _ hno => ?_, fun _ => ⟨hlive, hwhy⟩⟩
  cases hno

/-! ### Blocks of its own -/

/-- The state a print starts in, with a new block. -/
theorem at_startBuffer {address size : ℕ} {live : Heap} (hnoalloc : env.noalloc = false)
    (hsize : size ≤ INT_MAX.toNat) (hroom : 0 < size ∨ env.reallocates = true)
    (hlive : live.live = address :: heap.live) :
    At env (ownFrame heap) [] [] { startState live with
      buffer := some ⟨address, List.replicate size none⟩, length := size } := by
  refine ⟨⟨_, rfl, ?_, List.nil_prefix⟩, rfl, ?_, hsize, ?_⟩
  · rw [List.length_replicate]
  · rcases Nat.eq_zero_or_pos size with hzero | hpos
    · refine .inr ⟨hzero, rfl, .inr (hroom.resolve_left ?_)⟩
      omega
    · exact .inl hpos
  · rw [Frame.Holds, hnoalloc]
    show live.live.Perm (address :: heap.live)
    rw [hlive]

theorem wp_failPrint {f : Frame} {Q : Option Block → PrintState → Prop}
    (hnoalloc : env.noalloc = false) (h : f.Holds env s)
    (hQ : ∀ s', s'.heap.live.Perm f.heap.live → Q none s') : Wp env failPrint Q s := by
  rw [Frame.Holds, hnoalloc] at h
  unfold failPrint
  rw [wp_bind, wp_get]
  cases hbuffer : s.buffer with
  | none =>
    rw [hbuffer] at h
    rw [wp_pure]
    exact hQ s h
  | some block =>
    rw [hbuffer] at h
    dsimp only
    rw [wp_bind]
    apply wp_freeBlock h
    intro heap hheap
    rw [wp_pure]
    exact hQ _ hheap

/-- A printed text fills a block of its own size. -/
theorem resize_terminated {text : List UInt8} {bytes : List (Option UInt8)}
    (h : terminated text <+: bytes) : resize bytes (text.length + 1) = terminated text := by
  obtain ⟨rest, rfl⟩ := h
  have hlength : (terminated text).length = text.length + 1 := by
    rw [terminated, List.length_map, List.length_append, List.length_singleton]
  rw [resize, ← hlength, List.take_left, List.length_append, Nat.sub_add_eq, Nat.sub_self,
    Nat.zero_sub, List.replicate_zero, List.append_nil]

/-- Writing the terminator once more. -/
theorem set_terminated (text : List UInt8) :
    (terminated text).set text.length (some 0) = terminated text := by
  rw [terminated, List.map_append, List.set_append_right _ _ (by rw [List.length_map]),
    List.length_map, Nat.sub_self]
  rfl

/-- The end of `print` gives the text in a block of its own size. -/
theorem finishPrint_spec {text : List UInt8} {block : Block} (hnoalloc : env.noalloc = false)
    (h : At env (ownFrame heap) text [0] s) (hblock : s.buffer = some block)
    (hroom : text.length + 2 ≤ s.length) :
    Wp env (finishPrint block) (fun printed s' => PrintedBlock env.mallocs (some text) heap.live
      (fun text bytes => bytes = terminated text) printed s'.heap.live) s := by
  obtain ⟨block', hblock', hlength, hstart⟩ := h.block
  obtain rfl := Option.some.inj (hblock.symm.trans hblock')
  have hoffset := h.offset
  have hlive : s.heap.live.Perm (block.address :: heap.live) := by
    have hframe := h.frame
    rwa [Frame.Holds, hnoalloc, hblock] at hframe
  -- a failure frees the buffer the text was printed to
  have hfail : ∀ s' : PrintState, s'.heap.live = s.heap.live → s'.buffer = some block →
      (∃ n, env.mallocs n = false) →
      Wp env failPrint (fun printed s' => PrintedBlock env.mallocs (some text) heap.live
        (fun text bytes => bytes = terminated text) printed s'.heap.live) s' := by
    intro s' hs' hbuffer hmallocs
    refine wp_failPrint (f := ownFrame heap) hnoalloc ?_ ?_
    · rw [Frame.Holds, hnoalloc, hbuffer, hs']
      exact hlive
    · intro s'' hs''
      exact printedBlock_none hs'' fun _ _ => .inr hmallocs
  unfold finishPrint
  rw [wp_bind, wp_get, hoffset, wp_bind, wp_read, wp_ite]
  constructor
  · intro hreallocates
    rw [wp_bind]
    apply wp_reallocateBlock hlive
    · intro address heap' hheap'
      dsimp only
      rw [wp_bind, wp_modify, wp_pure]
      exact printedBlock_some (resize_terminated hstart) hheap'
    · intro heap' hheap' hmallocs
      exact hfail _ hheap' hblock hmallocs
  · intro hreallocates
    rw [wp_bind]
    apply wp_allocateBlock
    · intro address heap' hheap'
      -- what was printed is copied with its terminator
      have hcount : min s.length (text.length + 1) = text.length + 1 := by omega
      dsimp only
      rw [hcount, wp_ite]
      refine ⟨fun _ => ?_, fun hno => absurd (by omega) hno⟩
      rw [wp_bind]
      refine @wp_freeBlock _ _ block.address (address :: heap.live) _ ?_ ?_
      · show heap'.live.Perm _
        rw [hheap']
        exact (hlive.cons address).trans (List.Perm.swap _ _ _)
      · intro heap'' hheap''
        rw [wp_pure]
        refine printedBlock_some ?_ hheap''
        have hstart' : terminated text <+: block.bytes.take (text.length + 1) := by
          refine List.prefix_take_iff.mpr ⟨hstart, ?_⟩
          rw [terminated, List.length_map, List.length_append, List.length_singleton]
        rw [resize_terminated hstart', set_terminated]
    · intro heap' hheap' hmallocs
      exact hfail _ hheap' hblock hmallocs

/-- A printed value is a text in front of the end of the buffer. -/
theorem Printed.text_of_true {f : Frame} {s' : PrintState} (htyped : item.Typed)
    (h : Printed env f [] (item.text env.format s.depth) s true s') :
    ∃ text, item.text env.format s.depth = some text ∧ text.length + 2 ≤ s'.length ∧
      f.Holds env s' ∧ (∃ block, s'.buffer = some block ∧ terminated text <+: block.bytes) ∧
      Wp env updateOffset (fun _ s'' => At env f text [0] s'' ∧ s''.length = s'.length) s' := by
  obtain ⟨done, pending, htext, hat, -, hroom⟩ := h.printed rfl
  rw [List.nil_append] at hat
  rw [List.length_nil, Nat.zero_add] at hroom
  have hzero := (zero_not_mem_text env.format).1 item htyped s.depth _ htext
  rw [List.mem_append, not_or] at hzero
  obtain ⟨block, hblock, -, hstart⟩ := hat.block
  refine ⟨_, htext, hroom, hat.frame, ⟨block, hblock, ?_⟩, ?_⟩
  · rwa [terminated, List.append_assoc]
  · rw [List.length_append] at hroom
    apply wp_updateOffset hat hzero.2 (by omega)
    intro s'' hat' hlength _
    exact ⟨hat', hlength⟩

theorem print_spec (hnoalloc : env.noalloc = false) (htyped : item.Typed) :
    Wp env (print item) (fun printed s' => PrintedBlock env.mallocs (item.text env.format 0)
      heap.live (fun text bytes => bytes = terminated text) printed s'.heap.live)
      (startState heap) := by
  -- a failure frees the buffer
  have hfail : ∀ s', (ownFrame heap).Holds env s' → (∀ text, item.text env.format 0 = some text →
      INT_MAX.toNat < text.length + 2 ∨ ∃ n, env.mallocs n = false) →
      Wp env failPrint (fun printed s' => PrintedBlock env.mallocs (item.text env.format 0)
        heap.live (fun text bytes => bytes = terminated text) printed s'.heap.live) s' := by
    intro s' hs' hwhy
    refine wp_failPrint hnoalloc hs' ?_
    intro s'' hs''
    exact printedBlock_none hs'' hwhy
  unfold print
  rw [wp_bind]
  apply wp_allocateBlock
  · intro address heap' hheap'
    -- the value is printed, and then the buffer is cut to its text
    have hat := @at_startBuffer env heap address defaultBufferSize heap' hnoalloc (by decide)
      (.inl (by decide)) hheap'
    dsimp only
    unfold startBuffer
    rw [wp_bind, wp_modify, wp_bind]
    refine Wp.mono (printValue_spec.1 item htyped [] [] _ hat) ?_
    intro printed s₁ hprinted
    rw [wp_ite]
    cases printed with
    | true =>
      refine ⟨fun hno => absurd hno Bool.false_ne_true, fun _ => ?_⟩
      obtain ⟨text, htext, hroom, -, -, hoffset⟩ := hprinted.text_of_true htyped
      rw [wp_bind]
      refine Wp.mono hoffset ?_
      rintro - s₂ ⟨hat₂, hlength₂⟩
      obtain ⟨block, hblock, -⟩ := id hat₂.block
      rw [wp_bind, wp_get, hblock]
      change item.text env.format 0 = some text at htext
      rw [htext]
      exact finishPrint_spec hnoalloc hat₂ hblock (by omega)
    | false =>
      refine ⟨fun _ => ?_, fun hno => absurd rfl hno⟩
      obtain ⟨hframe, hrefused⟩ := hprinted.failed rfl
      apply hfail s₁ hframe
      intro text htext
      have hwhy := hrefused text htext
      rw [Refused, hnoalloc, List.length_nil, Nat.zero_add] at hwhy
      exact hwhy
  · intro heap' hheap' hmallocs
    apply hfail
    · rw [Frame.Holds, hnoalloc]
      exact .of_eq hheap'
    · exact fun _ _ => .inr hmallocs

/-- The list `[null]`. -/
def nullList : Item :=
  { Item.blank 0 with type := .array, child := [{ Item.blank 1 with type := .null }] }

theorem typed_nullList : nullList.Typed := by
  refine ⟨fun hno => ?_, fun _ => ⟨⟨fun hno => ?_, fun hno => ?_⟩, trivial⟩⟩
  · cases hno
  · cases hno
  · rcases hno with hno | hno <;> cases hno

/-- **`cJSON_Print` and `cJSON_PrintUnformatted`.** -/
theorem printItem_spec (hooks : Hooks) (format : Bool) (heap : Heap) (htyped : item.Typed) :
    ∃ printed heap', printItem hooks format item heap = some (printed, heap') ∧
      PrintedBlock hooks.mallocs (item.text format 0) heap.live
        (fun text bytes => bytes = terminated text) printed heap'.live := by
  obtain ⟨printed, s', hprint, hprinted⟩ :=
    @print_spec ⟨false, format, hooks.reallocates, hooks.mallocs⟩ item heap rfl htyped
  refine ⟨printed, s'.heap, ?_, hprinted⟩
  rw [printItem, hprint]
  rfl

theorem printItem_spec_nullList :
    ∃ printed heap', printItem ⟨false, fun n => n ≠ 3⟩ true nullList ⟨2, [1, 0]⟩ =
        some (printed, heap') ∧
      PrintedBlock (fun n => n ≠ 3) (nullList.text true 0) [1, 0]
        (fun text bytes => bytes = terminated text) printed heap'.live :=
  printItem_spec ⟨false, fun n => n ≠ 3⟩ true ⟨2, [1, 0]⟩ typed_nullList

/-- **`cJSON_PrintBuffered`.** -/
theorem printItemBuffered_spec (hooks : Hooks) {prebuffer : ℤ} (format : Bool) (heap : Heap)
    (htyped : item.Typed) (hpos : 0 ≤ prebuffer) (hmax : prebuffer ≤ INT_MAX)
    (hroom : prebuffer ≠ 0 ∨ hooks.reallocates = true) :
    ∃ printed heap', printItemBuffered hooks prebuffer format item heap = some (printed, heap') ∧
      PrintedBlock hooks.mallocs (item.text format 0) heap.live
        (fun text bytes => terminated text <+: bytes) printed heap'.live := by
  set env : PrintEnv := ⟨false, format, hooks.reallocates, hooks.mallocs⟩ with henv
  have hprint : Wp env (printBuffered prebuffer.toNat item) (fun printed s' =>
      PrintedBlock hooks.mallocs (item.text format 0) heap.live
        (fun text bytes => terminated text <+: bytes) printed s'.heap.live) (startState heap) := by
    unfold printBuffered
    rw [wp_bind]
    apply wp_allocateBlock
    · intro address heap' hheap'
      have hat := @at_startBuffer env heap address prebuffer.toNat heap' rfl (by omega)
        (hroom.imp_left (by omega)) hheap'
      dsimp only
      unfold startBuffer
      rw [wp_bind, wp_modify, wp_bind]
      refine Wp.mono (printValue_spec.1 item htyped [] [] _ hat) ?_
      intro printed s₁ hprinted
      rw [wp_ite]
      cases printed with
      | true =>
        refine ⟨fun hno => absurd hno Bool.false_ne_true, fun _ => ?_⟩
        obtain ⟨text, htext, -, hframe, ⟨block, hblock, hstart⟩, -⟩ :=
          hprinted.text_of_true htyped
        change item.text format 0 = some text at htext
        rw [wp_bind, wp_get, wp_pure, hblock, htext]
        refine printedBlock_some hstart ?_
        rwa [Frame.Holds, hblock] at hframe
      | false =>
        refine ⟨fun _ => ?_, fun hno => absurd rfl hno⟩
        obtain ⟨hframe, hrefused⟩ := hprinted.failed rfl
        refine wp_failPrint rfl hframe ?_
        intro s₂ hs₂
        refine printedBlock_none hs₂ fun text htext => ?_
        have hwhy := hrefused text htext
        rwa [Refused, List.length_nil, Nat.zero_add] at hwhy
    · intro heap' hheap' hmallocs
      dsimp only
      rw [wp_pure]
      exact printedBlock_none (.of_eq hheap') fun _ _ => .inr hmallocs
  obtain ⟨printed, s', hprint, hprinted⟩ := hprint
  refine ⟨printed, s'.heap, ?_, hprinted⟩
  rw [printItemBuffered, if_neg (by omega), hprint]
  rfl

theorem printItemBuffered_spec_nullList :
    ∃ printed heap', printItemBuffered ⟨false, fun _ => true⟩ 1 false nullList ⟨2, [1, 0]⟩ =
        some (printed, heap') ∧
      PrintedBlock (fun _ => true) (nullList.text false 0) [1, 0]
        (fun text bytes => terminated text <+: bytes) printed heap'.live :=
  printItemBuffered_spec ⟨false, fun _ => true⟩ false ⟨2, [1, 0]⟩ typed_nullList (by decide)
    (by decide) (.inl (by decide))

/-! ### A buffer of the caller's -/

/-- **`cJSON_PrintPreallocated`** prints exactly the texts that fit with two bytes to spare. -/
theorem printPreallocated_spec (hooks : Hooks) (format : Bool) (heap : Heap) {block : Block}
    {length : ℤ} (htyped : item.Typed) (hpos : 0 ≤ length) (hmax : length ≤ INT_MAX)
    (hlength : length ≤ block.bytes.length) :
    ∃ printed block',
      printPreallocated hooks (some block) length format item heap =
        some (printed, some block', heap) ∧
      block'.address = block.address ∧
      block'.bytes.drop length.toNat = block.bytes.drop length.toNat ∧
      (printed = true ↔ ∃ text, item.text format 0 = some text ∧ text.length + 2 ≤ length) ∧
      ∀ text, item.text format 0 = some text → printed = true →
        terminated text <+: block'.bytes := by
  set env : PrintEnv := ⟨true, format, hooks.reallocates, hooks.mallocs⟩ with henv
  -- behind the length the caller's block is not touched
  let f : Frame := ⟨heap, block.address, length.toNat, block.bytes.drop length.toNat⟩
  have hat : At env f [] [] ⟨some block, length.toNat, 0, 0, heap⟩ := by
    have hlength' : length.toNat ≤ block.bytes.length := by omega
    have hlimit : length.toNat ≤ INT_MAX.toNat := by omega
    refine ⟨⟨block, rfl, hlength', List.nil_prefix⟩, rfl, ?_, hlimit, rfl, rfl, block, rfl, rfl,
      rfl⟩
    rcases Nat.eq_zero_or_pos length.toNat with hzero | hpos
    · exact .inr ⟨hzero, rfl, .inl rfl⟩
    · exact .inl hpos
  obtain ⟨printed, s', hprint, hprinted⟩ := printValue_spec.1 item htyped [] [] _ hat
  -- nothing was allocated, so the heap is the caller's
  have hresult : ∀ block', s'.buffer = some block' → s'.heap = heap →
      printPreallocated hooks (some block) length format item heap =
        some (printed, some block', heap) := by
    intro block' hblock' hheap
    have hno : ¬(length < 0 ∨ (some block).isNone = true) :=
      not_or.mpr ⟨by omega, Bool.false_ne_true⟩
    rw [printPreallocated, if_neg hno, hprint, ← hblock', ← hheap]
    rfl
  cases printed with
  | true =>
    obtain ⟨text, htext, hroom, ⟨hheap, hsame, block', hblock', haddress, hrest⟩,
      ⟨block'', hblock'', hstart⟩, -⟩ := hprinted.text_of_true htyped
    obtain rfl := Option.some.inj (hblock'.symm.trans hblock'')
    change item.text format 0 = some text at htext
    refine ⟨true, block', hresult block' hblock' hheap, haddress, hrest, ?_, ?_⟩
    · refine ⟨fun _ => ⟨text, htext, ?_⟩, fun _ => rfl⟩
      have hlength' : s'.length = length.toNat := hsame
      omega
    · intro text' htext' _
      obtain rfl := Option.some.inj (htext.symm.trans htext')
      exact hstart
  | false =>
    obtain ⟨⟨hheap, -, block', hblock', haddress, hrest⟩, hrefused⟩ := hprinted.failed rfl
    refine ⟨false, block', hresult block' hblock' hheap, haddress, hrest, ?_, ?_⟩
    · refine ⟨fun hno => absurd hno Bool.false_ne_true, ?_⟩
      rintro ⟨text, htext, hfits⟩
      have hwhy := hrefused text htext
      rw [Refused, List.length_nil, Nat.zero_add] at hwhy
      have hshort : length.toNat < text.length + 2 := hwhy
      omega
    · exact fun _ _ hno => absurd hno Bool.false_ne_true

/-- The text `[null]` in a buffer of eight bytes. -/
theorem printPreallocated_spec_nullList :
    ∃ block', printPreallocated ⟨true, fun _ => true⟩ (some ⟨5, List.replicate 9 none⟩) 8 false
        nullList ⟨2, [1, 0]⟩ = some (true, some block', ⟨2, [1, 0]⟩) ∧
      terminated (ascii "[null]") <+: block'.bytes := by
  obtain ⟨printed, block', hprint, -, -, hiff, htext⟩ := printPreallocated_spec
    ⟨true, fun _ => true⟩ false ⟨2, [1, 0]⟩ typed_nullList (show (0 : ℤ) ≤ 8 by decide) (by decide)
    (show (8 : ℤ) ≤ (Block.mk 5 (List.replicate 9 none)).bytes.length by decide)
  obtain rfl : printed = true := hiff.mpr ⟨ascii "[null]", rfl, by decide⟩
  exact ⟨block', hprint, htext _ rfl rfl⟩

end IotDeviceSdk.Json
