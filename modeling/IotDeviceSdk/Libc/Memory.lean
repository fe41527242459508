import Mathlib.Data.List.Basic

/-!
# Blocks of memory

A block is the list of its bytes.  `slice` reads a part of it and `overwrite` writes one, `writeAt`
writes a byte; `memcpyS` and `memmoveS` are the bounds-checked copies, `none` where they would leave
a block.

A block can hold records of one size behind each other (`record`, `records`).  `records_set` writes
a record, `records_moved` closes the gap of a removed one.
-/

namespace IotDeviceSdk

variable {α : Type}

/-! ### Parts of a block -/

/-- `count` bytes from `offset` on. -/
def slice (block : List α) (offset count : ℕ) : List α := (block.drop offset).take count

/-- The block with other bytes from `offset` on. -/
def overwrite (block : List α) (offset : ℕ) (bytes : List α) : List α :=
  block.take offset ++ bytes ++ block.drop (offset + bytes.length)

/-- A write of one byte, `none` outside the block. -/
def writeAt (block : List α) (i : ℕ) (a : α) : Option (List α) :=
  if i < block.length then some (block.set i a) else none

theorem of_writeAt {block block' : List α} {i : ℕ} {a : α} (h : writeAt block i a = some block') :
    i < block.length ∧ block' = block.set i a := by
  unfold writeAt at h
  split at h
  · exact ⟨‹_›, (Option.some.inj h).symm⟩
  · exact absurd h (by simp)

theorem length_slice {block : List α} {offset count : ℕ} (h : offset + count ≤ block.length) :
    (slice block offset count).length = count := by
  rw [slice, List.length_take, List.length_drop]
  omega

theorem getElem?_slice (block : List α) (offset count i : ℕ) :
    (slice block offset count)[i]? = if i < count then block[offset + i]? else none := by
  rw [slice, List.getElem?_take, List.getElem?_drop]

theorem length_overwrite {block bytes : List α} {offset : ℕ}
    (h : offset + bytes.length ≤ block.length) :
    (overwrite block offset bytes).length = block.length := by
  simp only [overwrite, List.length_append, List.length_take, List.length_drop]
  omega

theorem getElem?_overwrite {block bytes : List α} {offset : ℕ}
    (h : offset + bytes.length ≤ block.length) (i : ℕ) :
    (overwrite block offset bytes)[i]? =
      if offset ≤ i ∧ i < offset + bytes.length then bytes[i - offset]? else block[i]? := by
  have htake : (block.take offset).length = offset := by
    rw [List.length_take]
    omega
  unfold overwrite
  by_cases hlow : i < offset
  · rw [List.append_assoc, List.getElem?_append_left (by omega), List.getElem?_take,
      if_pos hlow, if_neg (by omega)]
  · by_cases hhigh : i < offset + bytes.length
    · rw [List.getElem?_append_left (by rw [List.length_append]; omega),
        List.getElem?_append_right (by omega), htake, if_pos ⟨by omega, hhigh⟩]
    · rw [List.getElem?_append_right (by rw [List.length_append]; omega), List.length_append, htake,
        List.getElem?_drop, if_neg (by omega)]
      congr 1
      omega

theorem slice_overwrite {block bytes : List α} {offset : ℕ}
    (h : offset + bytes.length ≤ block.length) :
    slice (overwrite block offset bytes) offset bytes.length = bytes := by
  apply List.ext_getElem?
  intro i
  rw [getElem?_slice, getElem?_overwrite h]
  by_cases hi : i < bytes.length
  · rw [if_pos hi, if_pos (by omega), Nat.add_sub_cancel_left]
  · rw [if_neg hi, List.getElem?_eq_none (by omega)]

/-! ### Bounds-checked copies -/

/-- `SECUREC_MEM_MAX_LEN`. -/
def SECUREC_MEM_MAX_LEN : ℕ := 0x7fffffff

/-- `EOK`. -/
def EOK : ℕ := 0

/-- `ERANGE`. -/
def ERANGE : ℕ := 34

/-- `ERANGE_AND_RESET`. -/
def ERANGE_AND_RESET : ℕ := 162

/-- Whether the sizes of a bounds-checked copy are in order. -/
def CopyInRange (destMax count : ℕ) : Prop :=
  destMax ≠ 0 ∧ destMax ≤ SECUREC_MEM_MAX_LEN ∧ count ≤ destMax

instance (destMax count : ℕ) : Decidable (CopyInRange destMax count) :=
  inferInstanceAs (Decidable (_ ∧ _ ∧ _))

/-- `memmove_s` of `count` bytes from `src` to `dest` in one block: the block and the error.  Too
many bytes clear the destination. -/
def memmoveS [Zero α] (block : List α) (dest destMax src count : ℕ) : Option (List α × ℕ) :=
  if destMax = 0 ∨ destMax > SECUREC_MEM_MAX_LEN then some (block, ERANGE)
  else if dest + destMax > block.length then none
  else if count > destMax then
    some (overwrite block dest (List.replicate destMax 0), ERANGE_AND_RESET)
  else if src + count > block.length then none
  else some (overwrite block dest (slice block src count), EOK)

/-- `memcpy_s` of the first `count` bytes of a block to the start of another: that block and the
error.  Too many bytes clear the destination. -/
def memcpyS [Zero α] (dest : List α) (destMax : ℕ) (src : List α) (count : ℕ) :
    Option (List α × ℕ) :=
  if destMax = 0 ∨ destMax > SECUREC_MEM_MAX_LEN then some (dest, ERANGE)
  else if destMax > dest.length then none
  else if count > destMax then some (overwrite dest 0 (List.replicate destMax 0), ERANGE_AND_RESET)
  else if count > src.length then none
  else some (overwrite dest 0 (slice src 0 count), EOK)

theorem memmoveS_eq [Zero α] {block : List α} {dest destMax src count : ℕ}
    (h : CopyInRange destMax count) (hdest : dest + destMax ≤ block.length)
    (hsrc : src + count ≤ block.length) :
    memmoveS block dest destMax src count =
      some (overwrite block dest (slice block src count), EOK) := by
  obtain ⟨hne, hmax, hcount⟩ := h
  rw [memmoveS, if_neg (by omega), if_neg (by omega), if_neg (by omega), if_neg (by omega)]

theorem memcpyS_eq [Zero α] {dest src : List α} {destMax count : ℕ}
    (h : CopyInRange destMax count) (hdest : destMax ≤ dest.length) (hsrc : count ≤ src.length) :
    memcpyS dest destMax src count = some (overwrite dest 0 (slice src 0 count), EOK) := by
  obtain ⟨hne, hmax, hcount⟩ := h
  rw [memcpyS, if_neg (by omega), if_neg (by omega), if_neg (by omega), if_neg (by omega)]

/-- A copy with sizes out of range fails. -/
theorem memcpyS_error [Zero α] {dest : List α} (src : List α) {destMax count : ℕ}
    (h : ¬CopyInRange destMax count) (hdest : destMax ≤ dest.length) :
    ∃ dest' error, memcpyS dest destMax src count = some (dest', error) ∧ error ≠ EOK := by
  unfold CopyInRange at h
  unfold memcpyS
  by_cases hrange : destMax = 0 ∨ destMax > SECUREC_MEM_MAX_LEN
  · exact ⟨dest, ERANGE, if_pos hrange, by decide⟩
  · refine ⟨overwrite dest 0 (List.replicate destMax 0), ERANGE_AND_RESET, ?_, by decide⟩
    rw [if_neg hrange, if_neg (by omega), if_pos (by omega)]

/-! ### Records -/

/-- The `i`-th record of `width` bytes. -/
def record (block : List α) (width i : ℕ) : List α := slice block (i * width) width

/-- The first `n` records. -/
def records (block : List α) (width n : ℕ) : List (List α) :=
  (List.range n).map (record block width)

variable {block : List α} {width n : ℕ}

theorem length_records (block : List α) (width n : ℕ) : (records block width n).length = n := by
  rw [records, List.length_map, List.length_range]

theorem getElem?_records (block : List α) (width n i : ℕ) :
    (records block width n)[i]? = if i < n then some (record block width i) else none := by
  rw [records, List.getElem?_map]
  by_cases hi : i < n
  · rw [List.getElem?_range hi, if_pos hi]
    rfl
  · rw [List.getElem?_eq_none (by rw [List.length_range]; omega), if_neg hi]
    rfl

theorem records_succ (block : List α) (width n : ℕ) :
    records block width (n + 1) = records block width n ++ [record block width n] := by
  rw [records, List.range_succ, List.map_append]
  rfl

theorem records_dropLast (block : List α) (width n : ℕ) :
    (records block width n).dropLast = records block width (n - 1) := by
  cases n with
  | zero => rfl
  | succ n => rw [records_succ, List.dropLast_concat, Nat.add_sub_cancel]

theorem records_eraseIdx_last (block : List α) (width k : ℕ) :
    (records block width (k + 1)).eraseIdx k = records block width k := by
  have hdrop := records_dropLast block width (k + 1)
  rw [← List.eraseIdx_length_sub_one, length_records] at hdrop
  exact hdrop

/-- A record lies in front of the next one. -/
theorem record_end_le {i k : ℕ} (h : i < k) (width : ℕ) : i * width + width ≤ k * width := by
  rw [← Nat.succ_mul]
  exact Nat.mul_le_mul_right width h

theorem record_congr {block' : List α} {i k : ℕ}
    (h : ∀ j < width, block'[k * width + j]? = block[i * width + j]?) :
    record block' width k = record block width i := by
  apply List.ext_getElem?
  intro j
  rw [record, record, getElem?_slice, getElem?_slice]
  by_cases hj : j < width
  · rw [if_pos hj, if_pos hj, h j hj]
  · rw [if_neg hj, if_neg hj]

/-- Records depend on their own bytes only. -/
theorem records_congr {block' : List α} (h : ∀ p < n * width, block'[p]? = block[p]?) :
    records block' width n = records block width n := by
  unfold records
  apply List.map_congr_left
  intro i hi
  apply record_congr
  intro j hj
  have hend := record_end_le (List.mem_range.mp hi) width
  exact h _ (by omega)

/-- **Writing a record** leaves the others. -/
theorem records_set {bytes : List α} {k : ℕ} (hk : k < n) (hbytes : bytes.length = width)
    (hfits : n * width ≤ block.length) :
    records (overwrite block (k * width) bytes) width n = (records block width n).set k bytes := by
  subst hbytes
  have hend := record_end_le hk bytes.length
  apply List.ext_getElem?
  intro i
  rw [List.getElem?_set, getElem?_records, getElem?_records, length_records]
  by_cases hki : k = i
  · subst hki
    rw [if_pos hk, if_pos rfl, if_pos hk, record, slice_overwrite (by omega)]
  · rw [if_neg hki]
    congr 2
    apply record_congr
    intro j hj
    rw [getElem?_overwrite (by omega), if_neg]
    rcases Nat.lt_or_gt_of_ne hki with hlt | hlt
    · have hend := record_end_le hlt bytes.length
      omega
    · have hend := record_end_le hlt bytes.length
      omega

/-- Records are kept by a copy of the bytes they are in. -/
theorem records_copy {dest : List α} {count : ℕ} (hn : n * width ≤ count)
    (hdest : count ≤ dest.length) (hblock : count ≤ block.length) :
    records (overwrite dest 0 (slice block 0 count)) width n = records block width n := by
  have hlength : (slice block 0 count).length = count := length_slice (by omega)
  apply records_congr
  intro p hp
  rw [getElem?_overwrite (by omega), if_pos (by omega), getElem?_slice, if_pos (by omega)]
  congr 1
  omega

/-- **Closing the gap of a removed record**: the records behind it move to the front by one. -/
theorem records_moved {k : ℕ} (hk : k < n) (hfits : n * width ≤ block.length) :
    records (overwrite block (k * width)
        (slice block ((k + 1) * width) (n * width - (k + 1) * width))) width (n - 1) =
      (records block width n).eraseIdx k := by
  have hnext := Nat.mul_le_mul_right width (show k + 1 ≤ n by omega)
  have hgap : (k + 1) * width = k * width + width := Nat.succ_mul k width
  have hlength : (slice block ((k + 1) * width) (n * width - (k + 1) * width)).length =
      n * width - (k + 1) * width := length_slice (by omega)
  apply List.ext_getElem?
  intro i
  rw [getElem?_records, List.getElem?_eraseIdx, getElem?_records, getElem?_records]
  by_cases hik : i < k
  · have hend := record_end_le hik width
    rw [if_pos hik, if_pos (by omega), if_pos (by omega)]
    congr 1
    apply record_congr
    intro j hj
    rw [getElem?_overwrite (by omega), if_neg (by omega)]
  · rw [if_neg hik]
    by_cases hin : i + 1 < n
    · have hend := record_end_le hin width
      have hstart := Nat.mul_le_mul_right width (show k ≤ i by omega)
      have hmove : (i + 1) * width = i * width + width := Nat.succ_mul i width
      rw [if_pos (by omega), if_pos hin]
      congr 1
      apply record_congr
      intro j hj
      rw [getElem?_overwrite (by omega), if_pos (by omega), getElem?_slice, if_pos (by omega)]
      congr 1
      omega
    · rw [if_neg (by omega), if_neg hin]

end IotDeviceSdk
