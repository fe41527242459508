import IotDeviceSdk.CJson.Equiv.Item
import IotDeviceSdk.CJson.ParseBuffer
import IotDeviceSdk.Prog.Wp

/-!
# Reading the buffer

What the steps of the parser do to its state, as weakest preconditions.  What is left of the buffer
at an offset is `content.drop offset`; `drop_skipTo` and `skipTo_of_append` say how
`buffer_skip_whitespace` moves over it, which never leaves the buffer and stops at its last byte.
-/

namespace IotDeviceSdk.Json

open Prog

variable {env : ParseEnv} {s : ParseState}

/-! ### White space -/

/-- Where `buffer_skip_whitespace` leaves the offset. -/
def skipTo (content : List UInt8) (offset : ℕ) : ℕ :=
  if offset < content.length then
    if offset + whitespaceFrom content offset = content.length then
      offset + whitespaceFrom content offset - 1
    else offset + whitespaceFrom content offset
  else offset

section SkipTo

variable {content : List UInt8} {offset : ℕ}

theorem whitespaceFrom_le (content : List UInt8) (offset : ℕ) :
    whitespaceFrom content offset ≤ content.length - offset := by
  have hle := (List.takeWhile_prefix (l := content.drop offset) isWhitespace).length_le
  rwa [List.length_drop] at hle

theorem le_skipTo : offset ≤ skipTo content offset := by
  unfold skipTo
  split_ifs <;> omega

theorem skipTo_lt (h : offset < content.length) : skipTo content offset < content.length := by
  have hle := whitespaceFrom_le content offset
  unfold skipTo
  split_ifs <;> omega

theorem skipTo_of_le (h : content.length ≤ offset) : skipTo content offset = offset :=
  if_neg (not_lt.mpr h)

theorem skipTo_le (h : offset ≤ content.length) : skipTo content offset ≤ content.length := by
  rcases Nat.lt_or_ge offset content.length with hlt | hge
  · exact (skipTo_lt hlt).le
  · rw [skipTo_of_le hge]
    exact h

/-- Only white space is skipped. -/
theorem drop_skipTo (content : List UInt8) (offset : ℕ) :
    ∃ ws, content.drop offset = ws ++ content.drop (skipTo content offset) ∧
      ∀ b ∈ ws, isWhitespace b = true := by
  have hle := whitespaceFrom_le content offset
  refine ⟨(content.drop offset).take (skipTo content offset - offset), ?_, ?_⟩
  · have hge : offset ≤ skipTo content offset := le_skipTo
    conv_lhs => rw [← List.take_append_drop (skipTo content offset - offset) (content.drop offset)]
    rw [List.drop_drop, show offset + (skipTo content offset - offset) = skipTo content offset by
      omega]
  · intro b hb
    have hstart : (content.drop offset).take (skipTo content offset - offset) <+:
        (content.drop offset).takeWhile isWhitespace := by
      apply List.prefix_of_prefix_length_le (List.take_prefix _ _) (List.takeWhile_prefix _)
      rw [List.length_take, List.length_drop]
      show _ ≤ whitespaceFrom content offset
      unfold skipTo
      split_ifs <;> omega
    exact List.mem_takeWhile_imp (hstart.subset hb)

/-- White space in front of another byte is skipped. -/
theorem skipTo_of_append {ws rest : List UInt8} {c : UInt8}
    (h : content.drop offset = ws ++ c :: rest) (hws : ∀ b ∈ ws, isWhitespace b = true)
    (hc : isWhitespace c = false) : skipTo content offset = offset + ws.length := by
  have hlength := congrArg List.length h
  rw [List.length_drop, List.length_append, List.length_cons] at hlength
  have hfrom : whitespaceFrom content offset = ws.length := by
    rw [whitespaceFrom, h, List.takeWhile_append_of_pos hws, List.takeWhile_cons_of_neg (by simp [hc]),
      List.append_nil]
  rw [skipTo, if_pos (by omega), hfrom, if_neg (by omega)]

/-- White space up to the end is skipped but for its last byte. -/
theorem drop_skipTo_of_end {ws : List UInt8} {c : UInt8} (h : content.drop offset = ws ++ [c])
    (hws : ∀ b ∈ ws ++ [c], isWhitespace b = true) : content.drop (skipTo content offset) = [c] := by
  have hlength := congrArg List.length h
  rw [List.length_drop, List.length_append, List.length_singleton] at hlength
  have hfrom : whitespaceFrom content offset = ws.length + 1 := by
    rw [whitespaceFrom, h, List.takeWhile_eq_self_iff.mpr hws, List.length_append,
      List.length_singleton]
  rw [skipTo, if_pos (by omega), hfrom, if_pos (by omega), ← Nat.add_assoc, Nat.add_sub_cancel,
    ← List.drop_drop, h, List.drop_left]

end SkipTo

/-! ### Reading -/

section Steps

variable {Q : Bool → ParseState → Prop} {R : Unit → ParseState → Prop}

/-- Whether a byte is the next one. -/
def nextIs (content : List UInt8) (offset : ℕ) (c : UInt8) : Bool := content[offset]? == some c

theorem nextIs_iff {content : List UInt8} {offset : ℕ} {c : UInt8} :
    nextIs content offset c = true ↔ ∃ rest, content.drop offset = c :: rest := by
  show (content[offset]? == some c) = true ↔ _
  rw [beq_iff_eq]
  constructor
  · intro h
    obtain ⟨hlt, hget⟩ := List.getElem?_eq_some_iff.mp h
    exact ⟨content.drop (offset + 1), by rw [← hget]; exact List.drop_eq_getElem_cons hlt⟩
  · rintro ⟨rest, hrest⟩
    rw [← Nat.add_zero offset, ← List.getElem?_drop, hrest]
    rfl

theorem wp_byteAt {i : ℕ} {Q : UInt8 → ParseState → Prop} :
    Wp env (byteAt i) Q s ↔ ∃ b, env.content[s.offset + i]? = some b ∧ Q b s := by
  unfold Wp byteAt
  cases env.content[s.offset + i]? with
  | none => simp
  | some b =>
    constructor
    · rintro ⟨a, s', h, hQ⟩
      obtain ⟨rfl, rfl⟩ := Prod.mk.inj (Option.some.inj h)
      exact ⟨b, rfl, hQ⟩
    · rintro ⟨b', hb, hQ⟩
      obtain rfl := Option.some.inj hb
      exact ⟨b, s, rfl, hQ⟩

theorem wp_canRead {size : ℕ} :
    Wp env (canRead size) Q s ↔ Q (s.offset + size ≤ env.content.length) s :=
  @wp_pure _ _ _ env s Q _

theorem wp_canAccessAtIndex {index : ℕ} :
    Wp env (canAccessAtIndex index) Q s ↔ Q (s.offset + index < env.content.length) s :=
  @wp_pure _ _ _ env s Q _

theorem wp_isAt {c : UInt8} : Wp env (isAt c) Q s ↔ Q (nextIs env.content s.offset c) s := by
  unfold isAt nextIs
  rw [wp_bind, wp_canAccessAtIndex, wp_ite, wp_bind, wp_byteAt, wp_pure, decide_eq_true_eq,
    Nat.add_zero]
  by_cases h : s.offset < env.content.length
  · simp [h]
  · simp [h]

theorem wp_strncmpEq {text : List UInt8} (h : s.offset + text.length ≤ env.content.length) :
    Wp env (strncmpEq text) Q s ↔ Q (text.isPrefixOf (env.content.drop s.offset)) s := by
  have hif : strncmpEq text env s =
      some (decide (slice env.content s.offset text.length = text), s) := if_pos h
  have hdecide : decide (slice env.content s.offset text.length = text) =
      text.isPrefixOf (env.content.drop s.offset) := by
    rw [Bool.eq_iff_iff, decide_eq_true_eq, List.isPrefixOf_iff_prefix, List.prefix_iff_eq_take]
    exact eq_comm
  unfold Wp
  rw [hif, hdecide]
  exact @wp_pure _ _ _ env s Q _

theorem wp_readsText {text : List UInt8} (htext : text ≠ []) :
    Wp env (readsText text) Q s ↔ Q (text.isPrefixOf (env.content.drop s.offset)) s := by
  unfold readsText
  rw [wp_bind, wp_canRead, wp_ite, decide_eq_true_eq, wp_pure]
  by_cases h : s.offset + text.length ≤ env.content.length
  · simp only [h, true_implies, not_true_eq_false, false_implies, and_true]
    exact wp_strncmpEq h
  · have hno : text.isPrefixOf (env.content.drop s.offset) = false := by
      rw [Bool.eq_false_iff, ne_eq, List.isPrefixOf_iff_prefix]
      intro hstart
      have hle := hstart.length_le
      have hpos := List.length_pos_iff.mpr htext
      rw [List.length_drop] at hle
      omega
    simp only [h, false_implies, not_false_eq_true, true_implies, true_and]
    rw [hno]

/-! ### Moving -/

theorem wp_advance {n : ℕ} :
    Wp env (advance n) R s ↔ R () { s with offset := s.offset + n } := wp_modify

theorem wp_stepBack : Wp env stepBack R s ↔ R () { s with offset := s.offset - 1 } := wp_modify

theorem wp_enter : Wp env enter R s ↔ R () { s with depth := s.depth + 1 } := wp_modify

theorem wp_leave : Wp env leave R s ↔ R () { s with depth := s.depth - 1 } := wp_modify

theorem wp_bufferSkipWhitespace :
    Wp env bufferSkipWhitespace R s ↔
      R () { s with offset := skipTo env.content s.offset } := by
  unfold bufferSkipWhitespace skipTo
  rw [wp_bind, wp_canAccessAtIndex, wp_ite, decide_eq_true_eq, Nat.add_zero, wp_pure]
  by_cases h : s.offset < env.content.length
  · simp only [wp_bind, wp_read, wp_get, wp_advance, wp_ite, wp_stepBack, wp_pure, h, true_implies,
      not_true_eq_false, false_implies, and_true, if_true, beq_iff_eq]
    split_ifs with hend
    · simp only [hend, true_implies, not_true_eq_false, false_implies, and_true]
    · simp only [hend, false_implies, not_false_eq_true, true_implies, true_and]
  · simp only [h, false_implies, not_false_eq_true, true_implies, true_and, if_false]

/-- What is left of a text behind its byte order mark. -/
def bomLength (content : List UInt8) : ℕ :=
  if 4 < content.length ∧ byteOrderMark <+: content then byteOrderMark.length else 0

theorem wp_skipUtf8Bom (h : s.offset = 0) :
    Wp env skipUtf8Bom R s ↔ R () { s with offset := bomLength env.content } := by
  unfold skipUtf8Bom bomLength
  have hs : s = { s with offset := 0 } := by rw [← h]
  rw [wp_bind, wp_canAccessAtIndex, wp_ite, decide_eq_true_eq, wp_pure, h, Nat.zero_add]
  by_cases hlength : 4 < env.content.length
  · have hinside : s.offset + byteOrderMark.length ≤ env.content.length := by
      rw [h]
      exact hlength.le.trans' (by decide)
    simp only [hlength, true_implies, not_true_eq_false, false_implies, and_true, true_and, wp_bind,
      wp_strncmpEq hinside, wp_ite, wp_advance, wp_pure, List.isPrefixOf_iff_prefix, h,
      List.drop_zero, Nat.zero_add]
    split_ifs with hbom
    · simp only [hbom, true_implies, not_true_eq_false, false_implies, and_true]
    · simp only [hbom, false_implies, not_false_eq_true, true_implies, true_and, ← hs]
  · simp only [hlength, false_implies, not_false_eq_true, true_implies, true_and, false_and, if_false,
      ← hs]

/-! ### Memory -/

theorem wp_allocate {Q : Option ℕ → ParseState → Prop}
    (hsome : ∀ address heap, heap.live = address :: s.heap.live →
      Q (some address) { s with heap := heap })
    (hnone : ∀ heap, heap.live = s.heap.live → (∃ n, env.mallocs n = false) →
      Q none { s with heap := heap }) : Wp env allocate Q s := by
  rcases s.heap.allocate_cases env.mallocs with
    ⟨address, heap, hallocate, hlive⟩ | ⟨heap, hallocate, hlive, hmallocs⟩
  · refine ⟨some address, { s with heap := heap }, ?_, hsome address heap hlive⟩
    simp only [allocate, hallocate]
  · refine ⟨none, { s with heap := heap }, ?_, hnone heap hlive hmallocs⟩
    simp only [allocate, hallocate]

theorem wp_newItem {Q : Option Item → ParseState → Prop}
    (hsome : ∀ address heap, heap.live = address :: s.heap.live →
      Q (some (.blank address)) { s with heap := heap })
    (hnone : ∀ heap, heap.live = s.heap.live → (∃ n, env.mallocs n = false) →
      Q none { s with heap := heap }) : Wp env newItem Q s := by
  unfold newItem
  rw [wp_bind]
  apply wp_allocate
  · intro address heap hheap
    rw [wp_pure]
    exact hsome address heap hheap
  · intro heap hheap hmallocs
    rw [wp_pure]
    exact hnone heap hheap hmallocs

theorem wp_deallocate {address : ℕ} {base : List ℕ} (h : s.heap.live.Perm (address :: base))
    (hR : ∀ heap, heap.live.Perm base → R () { s with heap := heap }) :
    Wp env (deallocate address) R s := by
  obtain ⟨heap, hheap, hperm⟩ := deallocate_of_perm h
  refine ⟨(), { s with heap := heap }, ?_, hR heap hperm⟩
  show (s.heap.deallocate address).map _ = _
  rw [hheap]
  rfl

/-- Items that own live blocks can be deleted, which leaves the other blocks. -/
theorem wp_deleteItems {items : List Item} {base : List ℕ}
    (h : s.heap.live.Perm (Item.listBlocks items ++ base))
    (hR : ∀ heap, heap.live.Perm base → R () { s with heap := heap }) :
    Wp env (deleteItems items) R s := by
  obtain ⟨heap, hheap, hperm⟩ := delete_of_perm h
  refine ⟨(), { s with heap := heap }, ?_, hR heap hperm⟩
  show (delete items s.heap).map _ = _
  rw [hheap]
  rfl

end Steps

end IotDeviceSdk.Json
