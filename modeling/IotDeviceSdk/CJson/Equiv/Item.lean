import IotDeviceSdk.CJson.Item
import Mathlib.Data.List.Perm.Basic

/-!
# Memory of items

* `Item.both_induction`: induction over items and lists of items.
* `delete_eq`: `cJSON_Delete` frees the blocks of its list, one after the other.
* `delete_of_perm`: when those blocks are live it is defined, and the others stay.
-/

namespace IotDeviceSdk.Json

/-- Induction over items and lists of items. -/
theorem Item.both_induction {P : Item → Prop} {Q : List Item → Prop}
    (hitem : ∀ item, Q item.child → P item) (hnil : Q [])
    (hcons : ∀ item next, P item → Q next → Q (item :: next)) :
    (∀ item, P item) ∧ ∀ items, Q items := by
  have hmk : ∀ address type isReference stringIsConst valuestring valueint valuedouble string child,
      Q child → P ⟨address, type, isReference, stringIsConst, valuestring, valueint, valuedouble,
        string, child⟩ :=
    fun _ _ _ _ _ _ _ _ _ hchild => hitem _ hchild
  constructor
  · exact fun item => @Item.rec P Q hmk hnil hcons item
  · exact fun items => @Item.rec_1 P Q hmk hnil hcons items

/-! ### Blocks -/

theorem deallocate_of_perm {heap : Heap} {address : ℕ} {rest : List ℕ}
    (h : heap.live.Perm (address :: rest)) :
    ∃ heap', heap.deallocate address = some heap' ∧ heap'.live.Perm rest := by
  refine ⟨{ heap with live := heap.live.erase address }, ?_, ?_⟩
  · exact if_pos (h.mem_iff.mpr List.mem_cons_self)
  · show (heap.live.erase address).Perm rest
    have herase := h.erase address
    rwa [List.erase_cons_head] at herase

/-- An allocation gives a further live block, or fails and leaves the blocks as they are. -/
theorem Heap.allocate_cases (mallocs : ℕ → Bool) (heap : Heap) :
    (∃ address heap', heap.allocate mallocs = (some address, heap') ∧
      heap'.live = address :: heap.live) ∨
    ∃ heap', heap.allocate mallocs = (none, heap') ∧ heap'.live = heap.live ∧
      ∃ n, mallocs n = false := by
  unfold allocate
  split_ifs with h
  · exact .inl ⟨_, _, rfl, rfl⟩
  · exact .inr ⟨_, rfl, rfl, heap.asked, by simpa using h⟩

theorem deallocateAll_append (heap : Heap) (addresses more : List ℕ) :
    deallocateAll heap (addresses ++ more) =
      (deallocateAll heap addresses).bind fun heap => deallocateAll heap more := by
  show List.foldlM _ _ _ = _
  rw [List.foldlM_append]
  rfl

/-- Live blocks can be freed, and the others stay. -/
theorem deallocateAll_of_perm {heap : Heap} {addresses rest : List ℕ}
    (h : heap.live.Perm (addresses ++ rest)) :
    ∃ heap', deallocateAll heap addresses = some heap' ∧ heap'.live.Perm rest := by
  induction addresses generalizing heap with
  | nil => exact ⟨heap, rfl, h⟩
  | cons address addresses ih =>
    obtain ⟨heap₁, hfirst, hlive⟩ := deallocate_of_perm h
    obtain ⟨heap₂, hrest, hlive'⟩ := ih hlive
    refine ⟨heap₂, ?_, hlive'⟩
    show (heap.deallocate address).bind (fun heap => deallocateAll heap addresses) = _
    rw [hfirst]
    exact hrest

/-! ### Deleting -/

theorem deallocateAll_singleton (heap : Heap) (address : ℕ) :
    deallocateAll heap [address] = heap.deallocate address := by
  show (heap.deallocate address).bind some = _
  exact Option.bind_fun_some _

theorem deallocateText_eq (kept : Bool) (block : Option TextBlock) (heap : Heap) :
    deallocateText kept block heap = deallocateAll heap (Item.ownedText kept block) := by
  cases kept with
  | true => rfl
  | false =>
    cases block with
    | none => rfl
    | some block => exact (deallocateAll_singleton heap block.address).symm

/-- `cJSON_Delete` frees the blocks of its list in their order. -/
theorem delete_eq :
    (∀ item heap, deleteItem item heap = deallocateAll heap item.blocks) ∧
      ∀ items heap, delete items heap = deallocateAll heap (Item.listBlocks items) := by
  apply Item.both_induction
  · rintro ⟨address, type, isReference, stringIsConst, valuestring, valueint, valuedouble, string,
      child⟩ ih heap
    have hchild : (if !isReference && !child.isEmpty then delete child heap else some heap) =
        deallocateAll heap (if isReference then [] else Item.listBlocks child) := by
      cases isReference with
      | true => rfl
      | false =>
        cases child with
        | nil => rfl
        | cons item next => exact ih heap
    unfold deleteItem Item.blocks
    simp only [deallocateText_eq, hchild, deallocateAll_append, deallocateAll_singleton]
  · exact fun heap => rfl
  · intro item next hitem hnext heap
    show (deleteItem item heap).bind (delete next) = _
    rw [hitem, show Item.listBlocks (item :: next) = item.blocks ++ Item.listBlocks next from rfl,
      deallocateAll_append]
    congr 1
    exact funext hnext

theorem delete_of_perm {items : List Item} {heap : Heap} {rest : List ℕ}
    (h : heap.live.Perm (Item.listBlocks items ++ rest)) :
    ∃ heap', delete items heap = some heap' ∧ heap'.live.Perm rest := by
  rw [delete_eq.2]
  exact deallocateAll_of_perm h

end IotDeviceSdk.Json
