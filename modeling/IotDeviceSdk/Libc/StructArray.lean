import Mathlib.Data.List.Basic

/-!
# Arrays of structures

A block of `malloc` with the pointers that have been stored in it, wherever they fall.  A store that
leaves the block is seen in the stores (`Block.InBounds`), and nothing is read back from outside
(`Block.read`).

`storeArray` is the loop that fills an array of structures, one for each item of a list, with some
of the fields of each.  In a block of the size of the array it stays inside (`inBounds_storeArray`),
and what is read back is what was written, field by field (`read_storeArray`).
-/

namespace IotDeviceSdk

variable {α κ ι : Type}

/-- `sizeof` of a pointer. -/
def POINTER_SIZE : ℕ := 8

/-- A block: its size, and the pointers stored at offsets in it, the last store first. -/
structure Block (α : Type) where
  size : ℕ
  stores : List (ℕ × α)

namespace Block

/-- `malloc`: nothing is initialised. -/
def alloc (size : ℕ) : Block α := ⟨size, []⟩

def store (b : Block α) (offset : ℕ) (a : α) : Block α :=
  { b with stores := (offset, a) :: b.stores }

/-- Every store is inside the block. -/
def InBounds (b : Block α) : Prop := ∀ s ∈ b.stores, s.1 + POINTER_SIZE ≤ b.size

/-- The pointer at an offset, `none` when it is not initialised or not inside. -/
def read (b : Block α) (offset : ℕ) : Option α :=
  if offset + POINTER_SIZE ≤ b.size then b.stores.lookup offset else none

theorem read_eq {b : Block α} {offset : ℕ} (h : offset + POINTER_SIZE ≤ b.size) :
    b.read offset = b.stores.lookup offset :=
  if_pos h

theorem read_of_outside {b : Block α} {offset : ℕ} (h : b.size < offset + POINTER_SIZE) :
    b.read offset = none :=
  if_neg (Nat.not_le.mpr h)

end Block

/-! ### Structures -/

/-- The fields of a structure of pointers, in order. -/
structure Layout (κ : Type) where
  fields : List κ

namespace Layout

variable [DecidableEq κ] (layout : Layout κ)

/-- `sizeof`. -/
def sizeof (layout : Layout κ) : ℕ := POINTER_SIZE * layout.fields.length

/-- Where a field of the structure at an index of an array is. -/
def offset (index : ℕ) (field : κ) : ℕ :=
  index * layout.sizeof + POINTER_SIZE * layout.fields.idxOf field

variable {layout} {field field' : κ} {i j n : ℕ}

theorem offset_add_le (hfield : field ∈ layout.fields) (hi : i < n) :
    layout.offset i field + POINTER_SIZE ≤ layout.sizeof * n := by
  have hidx := List.idxOf_lt_length_of_mem hfield
  have hstruct : POINTER_SIZE * (layout.fields.idxOf field + 1) ≤ layout.sizeof :=
    Nat.mul_le_mul_left _ hidx
  have harray : (i + 1) * layout.sizeof ≤ n * layout.sizeof := Nat.mul_le_mul_right _ hi
  rw [Nat.add_mul, Nat.one_mul, Nat.mul_comm n] at harray
  rw [Nat.mul_add, Nat.mul_one] at hstruct
  unfold offset
  omega

/-- Different fields, and the fields of different structures, are at different places. -/
theorem offset_inj (hfield : field ∈ layout.fields) (hfield' : field' ∈ layout.fields)
    (h : layout.offset i field = layout.offset j field') : i = j ∧ field = field' := by
  have hidx := List.idxOf_lt_length_of_mem hfield
  have hidx' := List.idxOf_lt_length_of_mem hfield'
  have hpos : 0 < layout.fields.length := by omega
  have hoffset : ∀ k f, layout.offset k f =
      POINTER_SIZE * (layout.fields.idxOf f + layout.fields.length * k) := by
    intro k f
    unfold offset sizeof
    rw [Nat.mul_add, Nat.add_comm, Nat.mul_comm k, Nat.mul_assoc]
  rw [hoffset, hoffset] at h
  have hsum := Nat.eq_of_mul_eq_mul_left (show 0 < POINTER_SIZE by decide) h
  -- the quotient is the index of the structure, the remainder that of the field
  have hdiv := congrArg (· / layout.fields.length) hsum
  have hmod := congrArg (· % layout.fields.length) hsum
  simp only [Nat.add_mul_div_left _ _ hpos, Nat.add_mul_mod_self_left, Nat.div_eq_of_lt hidx,
    Nat.div_eq_of_lt hidx', Nat.mod_eq_of_lt hidx, Nat.mod_eq_of_lt hidx', Nat.zero_add]
    at hdiv hmod
  exact ⟨hdiv, (List.idxOf_inj hfield).mp hmod⟩

end Layout

/-! ### Filling an array -/

section Fill

variable [DecidableEq κ] (layout : Layout κ)

/-- Store some fields of the structure at an index. -/
def storeFields (index : ℕ) (value : κ → α) : List κ → Block α → Block α
  | [], b => b
  | field :: fields, b =>
    storeFields index value fields (b.store (layout.offset index field) (value field))

/-- Store some fields of one structure for each item, from an index on. -/
def storeArray (written : List κ) (value : ι → κ → α) : List ι → ℕ → Block α → Block α
  | [], _, b => b
  | item :: items, index, b =>
    storeArray written value items (index + 1) (storeFields layout index (value item) written b)

variable {layout} {written : List κ} {value : ι → κ → α} {items : List ι} {item : ι} {field : κ}
  {i j : ℕ} {b : Block α}

@[simp] theorem size_storeFields (g : κ → α) (b : Block α) :
    (storeFields layout i g written b).size = b.size := by
  induction written generalizing b with
  | nil => rfl
  | cons field written ih => exact ih _

@[simp] theorem size_storeArray (b : Block α) :
    (storeArray layout written value items i b).size = b.size := by
  induction items generalizing i b with
  | nil => rfl
  | cons item items ih => exact (ih _).trans (size_storeFields _ _)

theorem mem_stores_storeFields {g : κ → α} {s : ℕ × α} :
    s ∈ (storeFields layout i g written b).stores ↔
      s ∈ b.stores ∨ ∃ f ∈ written, s = (layout.offset i f, g f) := by
  induction written generalizing b with
  | nil => simp [storeFields]
  | cons field written ih =>
    rw [storeFields, ih]
    simp only [Block.store, List.mem_cons, exists_eq_or_imp]
    constructor
    · rintro ((h | h) | h)
      · exact .inr (.inl h)
      · exact .inl h
      · exact .inr (.inr h)
    · rintro (h | h | h)
      · exact .inl (.inr h)
      · exact .inl (.inl h)
      · exact .inr h

/-- What is stored: the fields of each item. -/
theorem mem_stores_storeArray {s : ℕ × α} :
    s ∈ (storeArray layout written value items i b).stores ↔
      s ∈ b.stores ∨ ∃ k item, items[k]? = some item ∧
        ∃ f ∈ written, s = (layout.offset (i + k) f, value item f) := by
  induction items generalizing i b with
  | nil => simp [storeArray]
  | cons first items ih =>
    rw [storeArray, ih, mem_stores_storeFields]
    constructor
    · rintro ((h | h) | ⟨k, item, hitem, h⟩)
      · exact .inl h
      · exact .inr ⟨0, first, rfl, h⟩
      · refine .inr ⟨k + 1, item, hitem, ?_⟩
        rwa [show i + (k + 1) = i + 1 + k by omega]
    · rintro (h | ⟨k, item, hitem, h⟩)
      · exact .inl (.inl h)
      · cases k with
        | zero =>
          obtain rfl := Option.some.inj hitem
          exact .inl (.inr h)
        | succ k =>
          refine .inr ⟨k, item, hitem, ?_⟩
          rwa [show i + 1 + k = i + (k + 1) by omega]

/-- The fields of other structures, and those that are not written, stay. -/
theorem lookup_storeFields_of_ne {g : κ → α} (hwritten : written ⊆ layout.fields)
    (hfield : field ∈ layout.fields) (h : j ≠ i ∨ field ∉ written) :
    (storeFields layout i g written b).stores.lookup (layout.offset j field) =
      b.stores.lookup (layout.offset j field) := by
  induction written generalizing b with
  | nil => rfl
  | cons first written ih =>
    have hne : layout.offset j field ≠ layout.offset i first := by
      intro heq
      obtain ⟨rfl, rfl⟩ := Layout.offset_inj hfield (hwritten (List.mem_cons_self ..)) heq
      rcases h with h | h
      · exact h rfl
      · exact h (List.mem_cons_self ..)
    rw [storeFields, ih (fun f hf => hwritten (List.mem_cons_of_mem _ hf))
      (h.imp_right fun hnot hf => hnot (List.mem_cons_of_mem _ hf))]
    exact List.lookup_cons.trans (by rw [beq_false_of_ne hne])

theorem lookup_storeFields {g : κ → α} (hwritten : written ⊆ layout.fields)
    (hfield : field ∈ written) :
    (storeFields layout i g written b).stores.lookup (layout.offset i field) = some (g field) := by
  induction written generalizing b with
  | nil => exact absurd hfield List.not_mem_nil
  | cons first written ih =>
    have hrest : written ⊆ layout.fields := fun f hf => hwritten (List.mem_cons_of_mem _ hf)
    -- a field that is written twice has its last value
    by_cases hmem : field ∈ written
    · exact ih hrest hmem
    · obtain rfl : field = first := (List.mem_cons.mp hfield).resolve_right hmem
      rw [storeFields,
        lookup_storeFields_of_ne hrest (hwritten (List.mem_cons_self ..)) (.inr hmem)]
      exact List.lookup_cons_self

theorem lookup_storeArray_of_ne (hwritten : written ⊆ layout.fields)
    (hfield : field ∈ layout.fields) (h : j < i ∨ field ∉ written) :
    (storeArray layout written value items i b).stores.lookup (layout.offset j field) =
      b.stores.lookup (layout.offset j field) := by
  induction items generalizing i b with
  | nil => rfl
  | cons item items ih =>
    rw [storeArray, ih (h.imp_left fun hlt => Nat.lt_succ_of_lt hlt),
      lookup_storeFields_of_ne hwritten hfield (h.imp_left Nat.ne_of_lt)]

theorem lookup_storeArray (hwritten : written ⊆ layout.fields) {k : ℕ}
    (hitem : items[k]? = some item) (hfield : field ∈ written) :
    (storeArray layout written value items i b).stores.lookup (layout.offset (i + k) field) =
      some (value item field) := by
  induction items generalizing i b k with
  | nil => exact nomatch hitem
  | cons first items ih =>
    cases k with
    -- the structures that follow leave the first one as it is
    | zero =>
      obtain rfl := Option.some.inj hitem
      rw [storeArray, lookup_storeArray_of_ne hwritten (hwritten hfield)
        (.inl (Nat.lt_succ_self _)), Nat.add_zero, lookup_storeFields hwritten hfield]
    | succ k =>
      have hrest := @ih (i + 1) (storeFields layout i (value first) written b) k hitem
      rwa [show i + 1 + k = i + (k + 1) by omega] at hrest

/-- **An array stays in a block of its size.** -/
theorem inBounds_storeArray (hwritten : written ⊆ layout.fields) :
    (storeArray layout written value items 0
      (Block.alloc (layout.sizeof * items.length))).InBounds := by
  intro s hs
  rw [size_storeArray]
  rcases mem_stores_storeArray.mp hs with hs | ⟨k, item, hitem, f, hf, rfl⟩
  · exact absurd hs List.not_mem_nil
  · obtain ⟨hk, -⟩ := List.getElem?_eq_some_iff.mp hitem
    rw [Nat.zero_add]
    exact Layout.offset_add_le (hwritten hf) hk

/-- **What is read back** of a field: what was written, if it was written. -/
theorem read_storeArray {size k : ℕ} (hwritten : written ⊆ layout.fields)
    (hitem : items[k]? = some item) (hfield : field ∈ layout.fields)
    (hinside : layout.offset k field + POINTER_SIZE ≤ size) :
    (storeArray layout written value items 0 (Block.alloc size)).read (layout.offset k field) =
      if field ∈ written then some (value item field) else none := by
  rw [Block.read_eq (by rwa [size_storeArray])]
  split
  · rename_i hmem
    have hlookup := @lookup_storeArray α κ ι _ layout written value items item field 0
      (Block.alloc size) hwritten k hitem hmem
    rwa [Nat.zero_add] at hlookup
  · rename_i hmem
    rw [lookup_storeArray_of_ne hwritten hfield (.inr hmem)]
    rfl

end Fill

end IotDeviceSdk
