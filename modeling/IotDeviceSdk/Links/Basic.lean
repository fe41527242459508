import Mathlib.Data.List.Basic
import Mathlib.Data.List.Nodup
import Mathlib.Logic.Function.Basic

/-!
# Doubly linked lists

`Links` are the links of nodes, `Seg links p l q` says that the nodes of `l` are linked one after
the other, behind `p` and in front of `q`.

* `seg_append`: a segment can be cut anywhere.
* `seg_congr`: a segment depends on the links of its own nodes alone.
* `Seg.setNext_last`, `Seg.setPrev_head`: its two ends can be moved.

A `LastLinked` list ends in no node, and its first node leads back to the last one.
-/

namespace IotDeviceSdk

variable {α : Type}

/-- The links of nodes. -/
structure Links (α : Type) where
  next : α → Option α
  prev : α → Option α

namespace Links

/-- The nodes of a list are linked, behind `p` and in front of `q`. -/
def Seg (links : Links α) (p : Option α) : List α → Option α → Prop
  | [], _ => True
  | a :: l, q => links.prev a = p ∧ links.next a = l.head?.or q ∧ Seg links (some a) l q

variable {links links' : Links α} {p p' q q' : Option α} {a b : α} {xs ys l : List α}

@[simp] theorem seg_nil : Seg links p [] q := trivial

theorem seg_cons : Seg links p (a :: l) q ↔
    links.prev a = p ∧ links.next a = l.head?.or q ∧ Seg links (some a) l q :=
  Iff.rfl

@[simp] theorem seg_singleton : Seg links p [a] q ↔ links.prev a = p ∧ links.next a = q := by
  simp [seg_cons]

/-- **Cutting a segment.** -/
theorem seg_append : Seg links p (xs ++ ys) q ↔
    Seg links p xs (ys.head?.or q) ∧ Seg links (xs.getLast?.or p) ys q := by
  induction xs generalizing p with
  | nil => simp
  | cons a xs ih =>
    have hlast : (a :: xs).getLast?.or p = xs.getLast?.or (some a) := by
      rw [List.getLast?_cons]
      cases xs.getLast? <;> rfl
    have hhead : (xs ++ ys).head?.or q = xs.head?.or (ys.head?.or q) := by
      rw [List.head?_append, Option.or_assoc]
    rw [List.cons_append, seg_cons, seg_cons, ih, hlast, hhead, and_assoc, and_assoc]

/-- **Frame**: other nodes do not matter. -/
theorem seg_congr (h : ∀ a ∈ l, links'.next a = links.next a ∧ links'.prev a = links.prev a) :
    Seg links' p l q ↔ Seg links p l q := by
  induction l generalizing p with
  | nil => rfl
  | cons a l ih =>
    obtain ⟨hnext, hprev⟩ := h a List.mem_cons_self
    rw [seg_cons, seg_cons, hnext, hprev, ih fun b hb => h b (List.mem_cons_of_mem a hb)]

/-- The links of a node inside a segment. -/
theorem Seg.of_mem (h : Seg links p (xs ++ a :: ys) q) :
    links.prev a = xs.getLast?.or p ∧ links.next a = ys.head?.or q := by
  obtain ⟨-, hrest⟩ := seg_append.mp h
  obtain ⟨hprev, hnext, -⟩ := seg_cons.mp hrest
  exact ⟨hprev, hnext⟩

/-- A list that ends in no node, whose first node leads back to the last one. -/
structure LastLinked (links : Links α) (l : List α) : Prop where
  nodup : l.Nodup
  seg : Seg links l.getLast? l none

variable [DecidableEq α]

/-- `a->next = b`. -/
def setNext (links : Links α) (a : α) (b : Option α) : Links α :=
  { links with next := Function.update links.next a b }

/-- `a->prev = b`. -/
def setPrev (links : Links α) (a : α) (b : Option α) : Links α :=
  { links with prev := Function.update links.prev a b }

@[simp] theorem prev_setNext : (links.setNext a p).prev = links.prev := rfl

@[simp] theorem next_setPrev : (links.setPrev a p).next = links.next := rfl

@[simp] theorem next_setNext_self : (links.setNext a p).next a = p := Function.update_self ..

@[simp] theorem prev_setPrev_self : (links.setPrev a p).prev a = p := Function.update_self ..

theorem next_setNext_of_ne (h : b ≠ a) : (links.setNext a p).next b = links.next b :=
  Function.update_of_ne h ..

theorem prev_setPrev_of_ne (h : b ≠ a) : (links.setPrev a p).prev b = links.prev b :=
  Function.update_of_ne h ..

/-- Moving a node that is not in a segment. -/
@[simp] theorem seg_setNext_of_not_mem (h : a ∉ l) : Seg (links.setNext a p') p l q ↔
    Seg links p l q := by
  apply seg_congr
  intro b hb
  exact ⟨next_setNext_of_ne (ne_of_mem_of_not_mem hb h), rfl⟩

@[simp] theorem seg_setPrev_of_not_mem (h : a ∉ l) : Seg (links.setPrev a p') p l q ↔
    Seg links p l q := by
  apply seg_congr
  intro b hb
  exact ⟨rfl, prev_setPrev_of_ne (ne_of_mem_of_not_mem hb h)⟩

/-- **The end of a segment** moves with the link behind its last node. -/
theorem Seg.setNext_last (h : Seg links p l q) (hnodup : l.Nodup) (hb : l.getLast? = some b) :
    Seg (links.setNext b q') p l q' := by
  obtain ⟨xs, rfl⟩ := List.getLast?_eq_some_iff.mp hb
  obtain ⟨hxs, hlast⟩ := seg_append.mp h
  have hmem : b ∉ xs := by
    intro hmem
    exact List.disjoint_of_nodup_append hnodup hmem (List.mem_singleton_self b)
  refine seg_append.mpr ⟨(seg_setNext_of_not_mem hmem).mpr hxs, ?_⟩
  rw [seg_singleton] at hlast ⊢
  exact ⟨hlast.1, next_setNext_self⟩

/-- **The start of a segment** moves with the link in front of its first node. -/
theorem Seg.setPrev_head (h : Seg links p l q) (hnodup : l.Nodup) (hb : l.head? = some b) :
    Seg (links.setPrev b p') p' l q := by
  obtain ⟨ys, rfl⟩ := List.head?_eq_some_iff.mp hb
  obtain ⟨-, hnext, hys⟩ := seg_cons.mp h
  have hmem : b ∉ ys := (List.nodup_cons.mp hnodup).1
  exact seg_cons.mpr ⟨prev_setPrev_self, hnext, (seg_setPrev_of_not_mem hmem).mpr hys⟩

end Links

end IotDeviceSdk
