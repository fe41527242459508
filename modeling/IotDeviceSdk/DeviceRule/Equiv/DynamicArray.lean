import IotDeviceSdk.DeviceRule.DynamicArray
import IotDeviceSdk.DeviceRule.RuleUtil
import IotDeviceSdk.Prog.Run

/-!
# A dynamic array is a list

`ListStep` is what the calls on a dynamic array do to the list of its items.  `Related` relates the
block to that list: `size` records of it are the items, and the block is small enough for the copies
that are bounds-checked.  Each function keeps the relation, also where an allocation, a copy or a
constructor fails.

`dynamicArray_refines`: every run of calls on a constructed array is one on a list, the destructor
runs once on each item that is removed, `size` stays below `reservedSize`, no move of a removal
fails, and no call leaves the block.
-/

namespace IotDeviceSdk.DeviceRule

/-! ### Lists -/

/-- The items of an array and those the destructor was called on. -/
structure ListState where
  items : List (List UInt8) := []
  destroyed : List (List UInt8) := []

/-- The calls on a list.  A push appends what the constructor makes of some bytes, or does
nothing. -/
inductive ListStep (itemSize : ℕ) :
    ListState → ArrayCall × Outside × ArrayAnswer → ListState → Prop
  | pushed {items destroyed : List (List UInt8)} {outside : Outside} {slot item : List UInt8}
    (hslot : slot.length = itemSize) (hctor : outside.funcItemCtor slot = (true, item)) :
    ListStep itemSize ⟨items, destroyed⟩
      (.push, outside, .pushed (some (items.length * itemSize))) ⟨items ++ [item], destroyed⟩
  | notPushed {t : ListState} {outside : Outside} :
    ListStep itemSize t (.push, outside, .pushed none) t
  | removed {items destroyed : List (List UInt8)} {outside : Outside} {k : ℕ} {item : List UInt8}
    (hk : items[k]? = some item) :
    ListStep itemSize ⟨items, destroyed⟩ (.removeItem k, outside, .removed)
      ⟨items.eraseIdx k, destroyed ++ [item]⟩
  | popped {items destroyed : List (List UInt8)} {outside : Outside} {item : List UInt8}
    {shrunk : Bool} :
    ListStep itemSize ⟨items ++ [item], destroyed⟩ (.pop, outside, .popped shrunk)
      ⟨items, destroyed ++ [item]⟩
  | poppedNoDtor {items destroyed : List (List UInt8)} {outside : Outside} {item : List UInt8}
    {shrunk : Bool} :
    ListStep itemSize ⟨items ++ [item], destroyed⟩ (.popNoDtor, outside, .popped shrunk)
      ⟨items, destroyed⟩

/-- The list functions of `RuleUtil` do these calls. -/
theorem ListStep.ruleUtil {itemSize : ℕ} {t t' : ListState} {call : ArrayCall} {outside : Outside}
    {answer : ArrayAnswer} (h : ListStep itemSize t (call, outside, answer) t') :
    match call with
    | .push => ∃ env item pushed, Prog.Outcome env (dynamicArrayPush t.items (pure item)) pushed ∧
        t'.items = (pushed.map Prod.fst).getD t.items
    | .removeItem k => t'.items = dynamicArrayRemoveItem t.items k
    | .pop | .popNoDtor => dynamicArrayPop t.items = pure t'.items := by
  cases h with
  | pushed _ _ => exact ⟨Env.plentiful, some _, _, ⟨default, _, rfl⟩, rfl⟩
  | notPushed => exact ⟨Env.plentiful, none, _, ⟨default, _, rfl⟩, rfl⟩
  | removed _ => rfl
  | popped => exact dynamicArrayPop_append ..
  | poppedNoDtor => exact dynamicArrayPop_append ..

/-! ### The relation -/

/-- The items in use. -/
def DynamicArray.contents (itemSize : ℕ) (arr : DynamicArray) : List (List UInt8) :=
  records arr.items itemSize arr.size

/-- The sizes of an array: one that has never grown reserves two items of any size, and one that has
is small enough for `memcpy_s`. -/
structure DynamicArray.Fits (itemSize : ℕ) (arr : DynamicArray) : Prop where
  size_le : arr.size ≤ arr.reservedSize
  reserved_pos : 0 < arr.reservedSize
  length : arr.items.length = arr.reservedSize * itemSize
  bounded : arr.reservedSize = DEFAULT_RESERVE_SIZE ∨
    arr.reservedSize * itemSize ≤ SECUREC_MEM_MAX_LEN

/-- The block of an array and the list of its items. -/
structure Related (itemSize : ℕ) (s : ArrayState) (t : ListState) : Prop where
  fits : s.arr.Fits itemSize
  items : s.arr.contents itemSize = t.items
  destroyed : s.destroyed = t.destroyed
  errors : ∀ result, .removeMemmove result ∉ s.errors

section Arithmetic

theorem sizeT_of_lt {n : ℕ} (h : n < 2 ^ 64) : sizeT n = n := Nat.mod_eq_of_lt h

theorem sizeTSub_of_le {n m : ℕ} (hle : m ≤ n) (h : n < 2 ^ 64) : sizeTSub n m = n - m := by
  have hsub : n + 2 ^ 64 - m = (n - m) + 2 ^ 64 := by omega
  rw [sizeTSub, sizeT, hsub, Nat.add_mod_right, Nat.mod_eq_of_lt (by omega)]

variable {itemSize : ℕ} {arr : DynamicArray}

theorem DynamicArray.Fits.small (h : arr.Fits itemSize) (hmax : itemSize ≤ SECUREC_MEM_MAX_LEN) :
    arr.reservedSize * itemSize < 2 ^ 64 := by
  unfold SECUREC_MEM_MAX_LEN at hmax
  rcases h.bounded with htwo | hle
  · rw [htwo]
    unfold DEFAULT_RESERVE_SIZE
    omega
  · unfold SECUREC_MEM_MAX_LEN at hle
    omega

theorem DynamicArray.Fits.getItem_eq (h : arr.Fits itemSize)
    (hmax : itemSize ≤ SECUREC_MEM_MAX_LEN) {i : ℕ} (hi : i ≤ arr.reservedSize) :
    DynamicArray.getItem i itemSize = i * itemSize := by
  have hle := Nat.mul_le_mul_right itemSize hi
  exact sizeT_of_lt (Nat.lt_of_le_of_lt hle (h.small hmax))

theorem DynamicArray.Fits.reservedSize_lt (h : arr.Fits itemSize) (hpos : 1 ≤ itemSize)
    (hmax : itemSize ≤ SECUREC_MEM_MAX_LEN) : arr.reservedSize < 2 ^ 64 :=
  Nat.lt_of_le_of_lt (Nat.le_mul_of_pos_right _ hpos) (h.small hmax)

/-- The items behind a removed one are few enough for `memmove_s`. -/
theorem DynamicArray.Fits.gap_le (h : arr.Fits itemSize) (hmax : itemSize ≤ SECUREC_MEM_MAX_LEN)
    (k : ℕ) : arr.size * itemSize - (k * itemSize + itemSize) ≤ SECUREC_MEM_MAX_LEN := by
  have hsize := Nat.mul_le_mul_right itemSize h.size_le
  rcases h.bounded with htwo | hle
  · rw [htwo] at hsize
    unfold DEFAULT_RESERVE_SIZE at hsize
    omega
  · omega

end Arithmetic

/-! ### What keeps the relation -/

section Related

variable {itemSize : ℕ} {s : ArrayState} {t : ListState}

theorem Related.size_eq (h : Related itemSize s t) : s.arr.size = t.items.length := by
  rw [← h.items, DynamicArray.contents, length_records]

theorem Related.report (h : Related itemSize s t) {error : ArrayError}
    (hne : ∀ result, error ≠ .removeMemmove result) : Related itemSize (s.report error) t := by
  refine ⟨h.fits, h.items, h.destroyed, ?_⟩
  intro result hmem
  rcases List.mem_append.mp hmem with hmem | hmem
  · exact h.errors result hmem
  · exact hne result (List.mem_singleton.mp hmem).symm

/-- A copy to a block of another size keeps the items. -/
theorem Related.setBlock (h : Related itemSize s t) {newBlock : List UInt8} {reservedSize count : ℕ}
    (hcount : s.arr.size * itemSize ≤ count) (hold : count ≤ s.arr.items.length)
    (hnew : newBlock.length = reservedSize * itemSize) (hfit : count ≤ newBlock.length)
    (hsize : s.arr.size ≤ reservedSize) (hpos : 0 < reservedSize)
    (hbounded : reservedSize * itemSize ≤ SECUREC_MEM_MAX_LEN) :
    Related itemSize
      (s.setBlock (overwrite newBlock 0 (slice s.arr.items 0 count)) reservedSize) t := by
  have hslice : (slice s.arr.items 0 count).length = count := length_slice (by omega)
  refine ⟨⟨hsize, hpos, ?_, Or.inr hbounded⟩, ?_, h.destroyed, h.errors⟩
  · exact (length_overwrite (by omega)).trans hnew
  · exact (records_copy hcount hfit hold).trans h.items

end Related

/-! ### The item functions -/

namespace DynamicArray

variable {itemSize : ℕ} {outside : Outside} {s : ArrayState} {t : ListState}

theorem Fits.write {arr : DynamicArray} {element : ℕ} {bytes : List UInt8} (h : arr.Fits itemSize)
    (hwrite : element + bytes.length ≤ arr.items.length) :
    Fits itemSize { arr with items := overwrite arr.items element bytes } :=
  ⟨h.size_le, h.reserved_pos, (length_overwrite hwrite).trans h.length, h.bounded⟩

/-- The constructor works on the first item that is not in use. -/
theorem callItemCtor_spec (hmax : itemSize ≤ SECUREC_MEM_MAX_LEN) (h : Related itemSize s t)
    (hroom : s.arr.size < s.arr.reservedSize) (outside : Outside) :
    ∃ slot s', slot.length = itemSize ∧
      callItemCtor (getItem s.arr.size itemSize) itemSize outside s =
        some ((outside.funcItemCtor slot).1, s') ∧
      s'.arr.size = s.arr.size ∧ Related itemSize s' t ∧
      Related itemSize (s'.setSize (s.arr.size + 1))
        { t with items := t.items ++ [(outside.funcItemCtor slot).2] } := by
  have hend := record_end_le hroom itemSize
  have hlength := h.fits.length
  obtain ⟨slot, hslot⟩ : ∃ slot, slice s.arr.items (s.arr.size * itemSize) itemSize = slot :=
    ⟨_, rfl⟩
  have hsize : slot.length = itemSize := by
    rw [← hslot, length_slice (by omega)]
  have hbytes : (outside.funcItemCtor slot).2.length = itemSize := by
    rw [outside.length_ctor, hsize]
  have hfits := h.fits.write
    (show s.arr.size * itemSize + (outside.funcItemCtor slot).2.length ≤ s.arr.items.length by
      omega)
  have hrecords : records (overwrite s.arr.items (s.arr.size * itemSize)
      (outside.funcItemCtor slot).2) itemSize (s.arr.size + 1) =
        t.items ++ [(outside.funcItemCtor slot).2] := by
    have hfit : (s.arr.size + 1) * itemSize ≤ s.arr.items.length := by
      rw [Nat.succ_mul]
      omega
    rw [records_set (Nat.lt_succ_self s.arr.size) hbytes hfit, records_succ,
      List.set_append_right _ _ (Nat.le_of_eq (length_records ..)), length_records, Nat.sub_self,
      ← h.items]
    rfl
  refine ⟨slot, s.write (s.arr.size * itemSize) (outside.funcItemCtor slot).2, hsize, ?_, rfl, ?_,
    ?_⟩
  · rw [h.fits.getItem_eq hmax h.fits.size_le, callItemCtor, if_neg (by omega), hslot]
  · have hdrop := congrArg List.dropLast hrecords
    rw [records_dropLast, List.dropLast_concat] at hdrop
    exact ⟨hfits, hdrop, h.destroyed, h.errors⟩
  · exact ⟨⟨hroom, hfits.reserved_pos, hfits.length, hfits.bounded⟩, hrecords, h.destroyed,
      h.errors⟩

/-- The destructor works on an item in use. -/
theorem callItemDtor_spec (hmax : itemSize ≤ SECUREC_MEM_MAX_LEN) (h : Related itemSize s t) {k : ℕ}
    {item : List UInt8} (hk : t.items[k]? = some item) (outside : Outside) :
    ∃ s', callItemDtor (getItem k itemSize) itemSize outside s = some s' ∧
      s'.arr.size = s.arr.size ∧
      Related itemSize s'
        ⟨t.items.set k (outside.funcItemDtor item), t.destroyed ++ [item]⟩ := by
  have hlength := h.fits.length
  rw [← h.items, contents, getElem?_records] at hk
  obtain ⟨hlt, hrecord⟩ : k < s.arr.size ∧ record s.arr.items itemSize k = item := by
    split at hk
    · exact ⟨‹_›, Option.some.inj hk⟩
    · cases hk
  have hend := record_end_le hlt itemSize
  have hblock := Nat.mul_le_mul_right itemSize h.fits.size_le
  have hbytes : (outside.funcItemDtor item).length = itemSize := by
    rw [outside.length_dtor, ← hrecord, record, length_slice (by omega)]
  refine ⟨{ s.write (k * itemSize) (outside.funcItemDtor item) with
    destroyed := s.destroyed ++ [item] }, ?_, rfl, ?_, ?_, ?_, h.errors⟩
  · have hle : k ≤ s.arr.reservedSize := by
      have := h.fits.size_le
      omega
    rw [h.fits.getItem_eq hmax hle, callItemDtor, if_neg (by omega), ← hrecord]
    rfl
  · exact h.fits.write (by omega)
  · rw [← h.items]
    have hfit : s.arr.size * itemSize ≤ s.arr.items.length := by omega
    exact records_set hlt hbytes hfit
  · exact congrArg (· ++ [item]) h.destroyed

/-! ### The calls -/

/-- A full array gets room for more items, or stays as it is. -/
theorem expend_spec (hmax : itemSize ≤ SECUREC_MEM_MAX_LEN) (h : Related itemSize s t)
    (hfull : s.arr.size = s.arr.reservedSize) (outside : Outside) :
    ∃ expended s', expend itemSize outside s = some (expended, s') ∧ s'.arr.size = s.arr.size ∧
      Related itemSize s' t ∧ (expended = true → s'.arr.size < s'.arr.reservedSize) := by
  -- an expansion that fails changes nothing
  have hunchanged : ∃ expended s', some (false, s) = some (expended, s') ∧
      s'.arr.size = s.arr.size ∧ Related itemSize s' t ∧
        (expended = true → s'.arr.size < s'.arr.reservedSize) :=
    ⟨false, s, rfl, rfl, h, by simp⟩
  unfold expend
  by_cases hroom : s.arr.reservedSize > SIZE_MAX - EXPEND_SIZE
  · rwa [if_pos hroom]
  by_cases hzero : itemSize = 0
  · rwa [if_neg hroom, if_pos hzero]
  by_cases hover : SIZE_MAX / itemSize < s.arr.reservedSize + EXPEND_SIZE
  · rwa [if_neg hroom, if_neg hzero, if_pos hover]
  cases hallocated : outside.allocated with
  | false => rwa [if_neg hroom, if_neg hzero, if_neg hover, if_pos (by simp)]
  | true =>
    rw [if_neg hroom, if_neg hzero, if_neg hover, if_neg (by simp),
      if_pos (Nat.pos_iff_ne_zero.mp h.fits.reserved_pos)]
    -- the number of bytes does not overflow
    have htarget : (s.arr.reservedSize + EXPEND_SIZE) * itemSize < 2 ^ 64 := by
      have hle := (Nat.le_div_iff_mul_le (Nat.pos_of_ne_zero hzero)).mp (Nat.not_lt.mp hover)
      unfold SIZE_MAX at hle
      omega
    have hnew : (calloc (s.arr.reservedSize + EXPEND_SIZE) itemSize).length =
        (s.arr.reservedSize + EXPEND_SIZE) * itemSize := List.length_replicate
    have hmore : s.arr.reservedSize * itemSize ≤ (s.arr.reservedSize + EXPEND_SIZE) * itemSize :=
      Nat.mul_le_mul_right itemSize (Nat.le_add_right ..)
    rw [sizeT_of_lt htarget, sizeT_of_lt (h.fits.small hmax)]
    by_cases hrange : CopyInRange ((s.arr.reservedSize + EXPEND_SIZE) * itemSize)
        (s.arr.reservedSize * itemSize)
    · rw [memcpyS_eq hrange (by omega) (Nat.le_of_eq h.fits.length.symm)]
      refine ⟨true, _, rfl, rfl, ?_, ?_⟩
      · refine Related.setBlock h ?_ ?_ hnew ?_ ?_ ?_ hrange.2.1
        · exact Nat.mul_le_mul_right itemSize h.fits.size_le
        · exact Nat.le_of_eq h.fits.length.symm
        · omega
        · omega
        · exact Nat.lt_add_right _ h.fits.reserved_pos
      · intro _
        show s.arr.size < s.arr.reservedSize + EXPEND_SIZE
        unfold EXPEND_SIZE
        omega
    · obtain ⟨dest, error, herror, hne⟩ :=
        memcpyS_error s.arr.items hrange (Nat.le_of_eq hnew.symm)
      rw [herror]
      refine ⟨false, s.report .pushMemcpy, ?_, rfl, Related.report h (by simp), by simp⟩
      show (if error ≠ EOK then _ else _ : Option (Bool × ArrayState)) = _
      rw [if_pos hne]
      rfl

/-- `DynamicArrayPush` after the room for one more item is made. -/
theorem push_eq {s₁ : ArrayState} {expended : Bool}
    (h : (if s.arr.size = s.arr.reservedSize then expend itemSize outside s else some (true, s)) =
      some (expended, s₁)) :
    push itemSize outside s =
      if !expended then some (none, s₁)
      else (callItemCtor (getItem s.arr.size itemSize) itemSize outside s₁).bind fun r =>
        if !r.1 then some (none, r.2)
        else some (some (getItem s.arr.size itemSize), r.2.setSize (r.2.arr.size + 1)) := by
  unfold push
  dsimp only
  by_cases hfull : s.arr.size = s.arr.reservedSize
  · rw [if_pos hfull] at h ⊢
    rw [h]
    cases expended <;> rfl
  · rw [if_neg hfull] at h ⊢
    rw [h]
    cases expended <;> rfl

/-- **`DynamicArrayPush`** appends what the constructor makes, or leaves the items. -/
theorem push_spec (hmax : itemSize ≤ SECUREC_MEM_MAX_LEN) (h : Related itemSize s t)
    (outside : Outside) :
    ∃ pushed s' t', push itemSize outside s = some (pushed, s') ∧ Related itemSize s' t' ∧
      ListStep itemSize t (.push, outside, .pushed pushed) t' := by
  have hexpend : ∃ expended s₁, (if s.arr.size = s.arr.reservedSize then expend itemSize outside s
      else some (true, s)) = some (expended, s₁) ∧ s₁.arr.size = s.arr.size ∧
        Related itemSize s₁ t ∧ (expended = true → s₁.arr.size < s₁.arr.reservedSize) := by
    by_cases hfull : s.arr.size = s.arr.reservedSize
    · rw [if_pos hfull]
      exact expend_spec hmax h hfull outside
    · rw [if_neg hfull]
      have hle := h.fits.size_le
      exact ⟨true, s, rfl, rfl, h, fun _ => by omega⟩
  obtain ⟨expended, s₁, hexpended, hsize, h₁, hroom⟩ := hexpend
  rw [push_eq hexpended]
  cases expended with
  | false => exact ⟨none, s₁, t, rfl, h₁, .notPushed⟩
  | true =>
    obtain ⟨slot, s₂, hslot, hctor, hsize₂, hkept, happended⟩ :=
      callItemCtor_spec hmax h₁ (hroom rfl) outside
    rw [← hsize, if_neg (by simp), hctor, Option.bind_some]
    cases hconstructed : (outside.funcItemCtor slot).1 with
    | false => exact ⟨none, s₂, t, rfl, hkept, .notPushed⟩
    | true =>
      refine ⟨_, _, _, rfl, hsize₂ ▸ happended, ?_⟩
      rw [h₁.fits.getItem_eq hmax h₁.fits.size_le, hsize, h.size_eq]
      exact .pushed hslot (Prod.ext hconstructed rfl)

/-- **`DynamicArrayPopNoDtor`** removes the last item, also when the block cannot shrink. -/
theorem popNoDtor_spec (hpos : 1 ≤ itemSize) (hmax : itemSize ≤ SECUREC_MEM_MAX_LEN)
    (h : Related itemSize s t) (hne : 0 < s.arr.size) (outside : Outside) :
    ∃ shrunk s', popNoDtor itemSize outside s = some (shrunk, s') ∧
      Related itemSize s' { t with items := t.items.dropLast } := by
  have hsmall := h.fits.reservedSize_lt hpos hmax
  have hsizes := h.fits.size_le
  -- the record is gone before the block is made smaller
  have hdropped : Related itemSize (s.setSize (s.arr.size - 1))
      { t with items := t.items.dropLast } := by
    refine ⟨⟨?_, h.fits.reserved_pos, h.fits.length, h.fits.bounded⟩, ?_, h.destroyed, h.errors⟩
    · show s.arr.size - 1 ≤ s.arr.reservedSize
      omega
    · rw [← h.items]
      exact (records_dropLast ..).symm
  have hbytes : (s.arr.size - 1) * itemSize ≤ s.arr.items.length := by
    rw [h.fits.length]
    exact Nat.mul_le_mul_right itemSize (by omega)
  have hshort : (s.arr.size - 1) * itemSize < 2 ^ 64 := by
    have hlt := h.fits.small hmax
    rw [← h.fits.length] at hlt
    omega
  have hnew : (calloc (s.arr.size - 1) itemSize).length = (s.arr.size - 1) * itemSize :=
    List.length_replicate
  unfold popNoDtor
  rw [if_neg (by omega)]
  show ∃ shrunk s', (if sizeTSub s.arr.reservedSize (s.arr.size - 1) ≥ EXPEND_SIZE then
    if !outside.allocated then some (false, s.setSize (s.arr.size - 1))
    else (memcpyS (calloc (s.arr.size - 1) itemSize) (sizeT ((s.arr.size - 1) * itemSize))
      s.arr.items (sizeT ((s.arr.size - 1) * itemSize))).bind _
    else some (true, s.setSize (s.arr.size - 1))) = some (shrunk, s') ∧ _
  by_cases hmany : sizeTSub s.arr.reservedSize (s.arr.size - 1) ≥ EXPEND_SIZE
  · rw [if_pos hmany]
    cases outside.allocated with
    | false => exact ⟨false, _, rfl, hdropped⟩
    | true =>
      rw [if_neg (by simp), sizeT_of_lt hshort]
      by_cases hrange : CopyInRange ((s.arr.size - 1) * itemSize) ((s.arr.size - 1) * itemSize)
      · rw [memcpyS_eq hrange (Nat.le_of_eq hnew.symm) hbytes]
        refine ⟨true, _, rfl, ?_⟩
        have hremaining : 0 < s.arr.size - 1 := Nat.pos_of_mul_pos_right
          (Nat.pos_of_ne_zero hrange.1)
        exact hdropped.setBlock (Nat.le_refl _) hbytes hnew (Nat.le_of_eq hnew.symm) (Nat.le_refl _)
          hremaining hrange.2.1
      · -- memcpy_s refuses to copy: the old block is kept
        obtain ⟨dest, error, herror, hne⟩ :=
          memcpyS_error s.arr.items hrange (Nat.le_of_eq hnew.symm)
        rw [herror]
        refine ⟨false, (s.setSize (s.arr.size - 1)).report .popMemcpy, ?_,
          hdropped.report (by simp)⟩
        show (if error ≠ EOK then _ else _ : Option (Bool × ArrayState)) = _
        rw [if_pos hne]
        rfl
  · rw [if_neg hmany]
    exact ⟨true, _, rfl, hdropped⟩

/-- **`DynamicArrayPop`** runs the destructor on the last item and removes it. -/
theorem pop_spec (hpos : 1 ≤ itemSize) (hmax : itemSize ≤ SECUREC_MEM_MAX_LEN)
    (h : Related itemSize s t) {items : List (List UInt8)} {item : List UInt8}
    (hitems : t.items = items ++ [item]) (outside : Outside) :
    ∃ shrunk s', pop itemSize outside s = some (shrunk, s') ∧
      Related itemSize s' ⟨items, t.destroyed ++ [item]⟩ := by
  have hsize : s.arr.size = items.length + 1 := by
    rw [h.size_eq, hitems, List.length_append]
    rfl
  have hsmall := h.fits.reservedSize_lt hpos hmax
  have hle := h.fits.size_le
  have hindex : sizeTSub s.arr.size 1 = items.length := by
    rw [sizeTSub_of_le (by omega) (by omega), hsize, Nat.add_sub_cancel]
  have hlast : t.items[items.length]? = some item := by
    rw [hitems, List.getElem?_append_right (Nat.le_refl _), Nat.sub_self]
    rfl
  obtain ⟨s₁, hdtor, hsize₁, h₁⟩ := callItemDtor_spec hmax h hlast outside
  obtain ⟨shrunk, s₂, hpop, h₂⟩ := popNoDtor_spec hpos hmax h₁ (by omega) outside
  refine ⟨shrunk, s₂, ?_, ?_⟩
  · unfold pop
    dsimp only
    rw [hindex, hdtor]
    exact hpop
  · rw [hitems, List.set_append_right _ _ (Nat.le_refl _), Nat.sub_self] at h₂
    dsimp only at h₂
    rwa [List.set_cons_zero, List.dropLast_concat] at h₂

/-- Closing the gap of the `k`-th item. -/
theorem closeGap_spec (hpos : 1 ≤ itemSize) (hmax : itemSize ≤ SECUREC_MEM_MAX_LEN)
    (h : Related itemSize s t) {k : ℕ} (hlt : k < s.arr.size) :
    ∃ s', closeGap (k * itemSize) (k * itemSize + itemSize)
        (s.arr.size * itemSize - (k * itemSize + itemSize)) (s.setSize (s.arr.size - 1)) = some s' ∧
      Related itemSize s' { t with items := t.items.eraseIdx k } := by
  have hsizes := h.fits.size_le
  have hlength := h.fits.length
  have hend := record_end_le hlt itemSize
  have hblock := Nat.mul_le_mul_right itemSize hsizes
  have hgap := h.fits.gap_le hmax k
  have hfits : ∀ items : List UInt8, items.length = s.arr.items.length →
      DynamicArray.Fits itemSize
        { size := s.arr.size - 1, reservedSize := s.arr.reservedSize, items := items } := by
    intro items hitems
    have hless : s.arr.size - 1 ≤ s.arr.reservedSize := by omega
    exact ⟨hless, h.fits.reserved_pos, hitems.trans hlength, h.fits.bounded⟩
  unfold closeGap
  by_cases hzero : s.arr.size * itemSize - (k * itemSize + itemSize) = 0
  · -- The last item: nothing is behind it.
    rw [if_pos hzero]
    have hlast : s.arr.size = k + 1 := by
      by_contra hne
      have hnext := record_end_le (show k + 1 < s.arr.size by omega) itemSize
      rw [Nat.succ_mul] at hnext
      omega
    refine ⟨_, rfl, hfits _ rfl, ?_, h.destroyed, h.errors⟩
    show records s.arr.items itemSize (s.arr.size - 1) = t.items.eraseIdx k
    rw [← h.items, contents, hlast, records_eraseIdx_last, Nat.add_sub_cancel]
  · rw [if_neg hzero]
    refine ⟨(s.setSize (s.arr.size - 1)).setBlock (overwrite s.arr.items (k * itemSize)
      (slice s.arr.items (k * itemSize + itemSize)
        (s.arr.size * itemSize - (k * itemSize + itemSize)))) s.arr.reservedSize, ?_,
      hfits _ (length_overwrite ?_), ?_, h.destroyed, h.errors⟩
    · show (memmoveS s.arr.items (k * itemSize) _ _ _).bind _ = _
      rw [memmoveS_eq ⟨hzero, hgap, Nat.le_refl _⟩ (by omega) (by omega)]
      rfl
    · rw [length_slice (by omega)]
      omega
    · have hmoved := records_moved hlt (show s.arr.size * itemSize ≤ s.arr.items.length by omega)
      rw [Nat.succ_mul] at hmoved
      rw [← h.items]
      exact hmoved

/-- **`DynamicArrayRemoveItem`** runs the destructor on the `k`-th item and moves those behind it to
the front by one. -/
theorem removeItem_spec (hpos : 1 ≤ itemSize) (hmax : itemSize ≤ SECUREC_MEM_MAX_LEN)
    (h : Related itemSize s t) {k : ℕ} {item : List UInt8} (hk : t.items[k]? = some item)
    (outside : Outside) :
    ∃ s', removeItem (getItem k itemSize) itemSize outside s = some s' ∧
      Related itemSize s' ⟨t.items.eraseIdx k, t.destroyed ++ [item]⟩ := by
  obtain ⟨s₁, hdtor, hsize₁, h₁⟩ := callItemDtor_spec hmax h hk outside
  have hlt : k < s₁.arr.size := by
    rw [hsize₁, h.size_eq]
    exact (List.getElem?_eq_some_iff.mp hk).1
  have hsizes := h₁.fits.size_le
  have hend := record_end_le hlt itemSize
  have hblock := Nat.mul_le_mul_right itemSize hsizes
  have hsmall := h₁.fits.small hmax
  have hreserved := h₁.fits.reservedSize_lt hpos hmax
  obtain ⟨s₂, hgap, h₂⟩ := closeGap_spec hpos hmax h₁ hlt
  refine ⟨s₂, ?_, ?_⟩
  · have helement : getItem k itemSize = k * itemSize := h₁.fits.getItem_eq hmax (by omega)
    have hitemsEnd : getItem s₁.arr.size itemSize = s₁.arr.size * itemSize :=
      h₁.fits.getItem_eq hmax hsizes
    have hsize : sizeTSub s₁.arr.size 1 = s₁.arr.size - 1 := sizeTSub_of_le (by omega) (by omega)
    have hbytes : sizeTSub (s₁.arr.size * itemSize) (k * itemSize + itemSize) =
        s₁.arr.size * itemSize - (k * itemSize + itemSize) := sizeTSub_of_le hend (by omega)
    unfold removeItem
    rw [hdtor, Option.bind_eq_bind, Option.bind_some]
    dsimp only
    rw [helement, hitemsEnd, hsize, hbytes]
    exact hgap
  · rw [List.eraseIdx_set_eq] at h₂
    exact h₂

end DynamicArray

/-! ### Runs -/

section Run

variable {itemSize : ℕ} {s s' : ArrayState} {t : ListState} {outside : Outside}

theorem exists_concat {items : List (List UInt8)} (h : 0 < items.length) :
    ∃ front item, items = front ++ [item] :=
  ⟨_, _, (List.dropLast_append_getLast (List.ne_nil_of_length_pos h)).symm⟩

/-- **One call**: a call that may be made stays in the block and is one on the list. -/
theorem call_spec (hpos : 1 ≤ itemSize) (hmax : itemSize ≤ SECUREC_MEM_MAX_LEN)
    (h : Related itemSize s t) {call : ArrayCall} (hcall : call.Allowed s.arr.size)
    (outside : Outside) :
    ∃ answer s' t', call.exec itemSize outside s = some (answer, s') ∧ Related itemSize s' t' ∧
      ListStep itemSize t (call, outside, answer) t' := by
  obtain ⟨items, destroyed⟩ := t
  have hsize := h.size_eq
  cases call with
  | push =>
    obtain ⟨pushed, s', t', hpush, h', hstep⟩ := DynamicArray.push_spec hmax h outside
    exact ⟨_, s', t', congrArg (Option.map _) hpush, h', hstep⟩
  | removeItem k =>
    have hk : k < s.arr.size := hcall
    have hlt : k < items.length := hsize ▸ hk
    have hitem : items[k]? = some items[k] := List.getElem?_eq_getElem hlt
    obtain ⟨s', hremove, h'⟩ := DynamicArray.removeItem_spec hpos hmax h hitem outside
    exact ⟨_, s', _, congrArg (Option.map _) hremove, h', .removed hitem⟩
  | pop =>
    have hne : 0 < s.arr.size := hcall
    obtain ⟨front, item, rfl⟩ := exists_concat (hsize ▸ hne : 0 < items.length)
    obtain ⟨shrunk, s', hpop, h'⟩ := DynamicArray.pop_spec hpos hmax h rfl outside
    exact ⟨_, s', _, congrArg (Option.map _) hpop, h', .popped⟩
  | popNoDtor =>
    have hne : 0 < s.arr.size := hcall
    obtain ⟨front, item, rfl⟩ := exists_concat (hsize ▸ hne : 0 < items.length)
    obtain ⟨shrunk, s', hpop, h'⟩ := DynamicArray.popNoDtor_spec hpos hmax h hne outside
    dsimp only at h'
    rw [List.dropLast_concat] at h'
    exact ⟨_, s', _, congrArg (Option.map _) hpop, h', .poppedNoDtor⟩

theorem related_ctor (h : DynamicArray.ctor itemSize outside = some s) :
    Related itemSize s {} := by
  unfold DynamicArray.ctor at h
  split at h
  · obtain rfl := Option.some.inj h
    exact ⟨⟨Nat.zero_le _, Nat.two_pos, List.length_replicate, Or.inl rfl⟩, rfl, rfl, by simp⟩
  · cases h

end Run

/-- **A dynamic array refines a list.** -/
theorem dynamicArray_refines {itemSize : ℕ} (hpos : 1 ≤ itemSize) (hmax : itemSize ≤ 2 ^ 31 - 1)
    {outside : Outside} {s₀ s : ArrayState}
    {steps : List (ArrayState × ArrayCall × Outside × ArrayAnswer)}
    (hctor : DynamicArray.ctor itemSize outside = some s₀)
    (hrun : Run (ArrayStep itemSize) s₀ steps s) :
    s.arr.size ≤ s.arr.reservedSize ∧
      (∃ listSteps, Run (ListStep itemSize) {} listSteps ⟨s.arr.contents itemSize, s.destroyed⟩ ∧
        listSteps.map Prod.snd = steps.map Prod.snd) ∧
      (∀ result, .removeMemmove result ∉ s.errors) ∧
      ∀ (call : ArrayCall) (outside : Outside), call.Allowed s.arr.size →
        ∃ answer s', ArrayStep itemSize s (call, outside, answer) s' := by
  have hstep : ∀ s event s' t, Related itemSize s t → ArrayStep itemSize s event s' →
      ∃ t', ListStep itemSize t event t' ∧ Related itemSize s' t' := by
    rintro s ⟨call, outside, answer⟩ s' t h ⟨hcall, hexec⟩
    obtain ⟨answer', s'', t', hexec', h', hlist⟩ := call_spec hpos hmax h hcall outside
    dsimp only at hexec
    rw [hexec] at hexec'
    obtain ⟨rfl, rfl⟩ := Prod.mk.inj (Option.some.inj hexec')
    exact ⟨t', hlist, h'⟩
  obtain ⟨listSteps, t, hlist, h, hevents⟩ := hrun.simulation hstep (related_ctor hctor)
  refine ⟨h.fits.size_le, ⟨listSteps, ?_, hevents⟩, h.errors, ?_⟩
  · rw [h.items, h.destroyed]
    exact hlist
  · intro call outside hcall
    obtain ⟨answer, s', -, hexec, -⟩ := call_spec hpos hmax h hcall outside
    exact ⟨answer, s', hcall, hexec⟩

/-- Items that need no constructor, and memory for them. -/
def plainItems : Outside where
  allocated := true
  funcItemCtor := fun item => (true, item)
  funcItemDtor := fun item => item
  length_ctor := fun _ => rfl
  length_dtor := fun _ => rfl

/-- An array of two-byte items with some bytes in its block. -/
def smallArray (size : ℕ) : ArrayState :=
  { arr := { size := size, reservedSize := 2, items := [0, 0, 0, 0] } }

theorem dynamicArray_refines_pushPop :
    ∃ listSteps, Run (ListStep 2) {} listSteps ⟨[], [[0, 0]]⟩ ∧
      listSteps.map Prod.snd = [(.push, plainItems, .pushed (some 0)),
        (.pop, plainItems, .popped true)] := by
  have hpush : ArrayStep 2 (smallArray 0) (.push, plainItems, .pushed (some 0)) (smallArray 1) :=
    ⟨trivial, by decide +kernel⟩
  have hpop : ArrayStep 2 (smallArray 1) (.pop, plainItems, .popped true)
      { smallArray 0 with destroyed := [[0, 0]] } :=
    ⟨Nat.one_pos, by decide +kernel⟩
  exact (dynamicArray_refines (by decide) (by decide) (show DynamicArray.ctor 2 plainItems =
    some (smallArray 0) from rfl) (.snoc (.snoc .nil hpush) hpop)).2.1

end IotDeviceSdk.DeviceRule
