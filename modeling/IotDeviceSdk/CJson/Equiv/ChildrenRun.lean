import IotDeviceSdk.CJson.Equiv.Children
import Mathlib.Data.List.Basic

/-!
# Runs of the operations on the links between items

`Lists` is what the links are for: below each item there is a list of items, each item has a key,
and some items have been handed to `cJSON_Delete`.  `Nodes.Represents` says that the links hold such lists, which share no item, and that an item
in none of them has no links.

* `Op.run_refines`: each operation does to the links what `Op.apply` does to the lists, and answers
  the same.
* `runAll_refines`: so does every run of operations, and what is read afterwards is what the lists
  hold.
-/

namespace IotDeviceSdk.Json

/-- The lists of the items below the items, their keys, and the items that were handed to
`cJSON_Delete`. -/
structure Lists where
  below : ℕ → List ℕ
  string : ℕ → Option String
  deleted : ℕ → Prop

namespace Lists

/-- An item that is in no list. -/
def IsFree (t : Lists) (item : ℕ) : Prop := ∀ parent, item ∉ t.below parent

/-- An item that may be put into a list: it is in none, and not deleted. -/
def IsUsable (t : Lists) (item : ℕ) : Prop := t.IsFree item ∧ ¬t.deleted item

/-- An item, or one that is below it. -/
inductive Reaches (t : Lists) (item : ℕ) : ℕ → Prop
  | self : Reaches t item item
  | child {a b : ℕ} (h : Reaches t item a) (hb : b ∈ t.below a) : Reaches t item b

/-- An item goes to `cJSON_Delete` with everything below it. -/
def delete (t : Lists) (item : ℕ) : Lists :=
  { t with deleted := fun a => t.deleted a ∨ t.Reaches item a }

/-- The first item of a list that has a name, in any case. -/
def named (t : Lists) (object : ℕ) (name : String) : Option ℕ :=
  (t.below object).find? fun item =>
    (t.string item).any fun string => CJson.caseInsensitiveEq name string

/-- Another list below an item. -/
def setBelow (t : Lists) (parent : ℕ) (l : List ℕ) : Lists :=
  { t with below := Function.update t.below parent l }

/-- Another key of an item. -/
def setString (t : Lists) (item : ℕ) (string : Option String) : Lists :=
  { t with string := Function.update t.string item string }

/-- Add an item at the end of a list, unless it is the item the list is below of. -/
def add (t : Lists) (array item : ℕ) : Bool × Lists :=
  if array = item then (false, t) else (true, t.setBelow array (t.below array ++ [item]))

/-- Take an item out of a list. -/
def detach (t : Lists) (parent item : ℕ) : Lists :=
  t.setBelow parent ((t.below parent).erase item)

/-- Exchange an item of a list for another, and delete it. -/
def replace (t : Lists) (parent item replacement : ℕ) : Lists :=
  (t.setBelow parent
    ((t.below parent).set ((t.below parent).idxOf item) replacement)).delete item

end Lists

/-! ### Operations -/

/-- The operations that change the links. -/
inductive Op where
  | addItemToArray (array item : ℕ)
  | addItemToObject (copied : Bool) (object : ℕ) (string : String) (item : ℕ)
  | insertItemInArray (array : ℕ) (which : ℤ) (newitem : ℕ)
  | detachItemViaPointer (parent item : ℕ)
  | detachItemFromArray (array : ℕ) (which : ℤ)
  | detachItemFromObject (fuel object : ℕ) (string : String)
  | replaceItemViaPointer (parent item replacement : ℕ)
  | replaceItemInArray (array : ℕ) (which : ℤ) (newitem : ℕ)

/-- What an operation answers: whether it has been done, and the item that it returns or hands to
`cJSON_Delete`. -/
structure Answer where
  done : Bool
  item : Option ℕ
  deriving DecidableEq

namespace Op

/-- The operation on the links. -/
def run (s : Nodes) : Op → Option (Answer × Nodes)
  | addItemToArray array item =>
    let (done, s) := Nodes.addItemToArray array item s
    some (⟨done, none⟩, s)
  | addItemToObject copied object string item =>
    let (done, s) := Nodes.addItemToObject copied object string item s
    some (⟨done, none⟩, s)
  | insertItemInArray array which newitem => do
    let (done, s) ← Nodes.insertItemInArray array which newitem s
    return (⟨done, none⟩, s)
  | detachItemViaPointer parent item => do
    let (item, s) ← Nodes.detachItemViaPointer parent item s
    return (⟨item.isSome, item⟩, s)
  | detachItemFromArray array which => do
    let (item, s) ← Nodes.detachItemFromArray array which s
    return (⟨item.isSome, item⟩, s)
  | detachItemFromObject fuel object string => do
    let (item, s) ← Nodes.detachItemFromObject fuel object string s
    return (⟨item.isSome, item⟩, s)
  | replaceItemViaPointer parent item replacement => do
    let (done, deleted, s) ← Nodes.replaceItemViaPointer parent item replacement s
    return (⟨done, deleted⟩, s)
  | replaceItemInArray array which newitem => do
    let (done, deleted, s) ← Nodes.replaceItemInArray array which newitem s
    return (⟨done, deleted⟩, s)

/-- The item at a place of a list, none before its start and behind its end. -/
def itemAt (l : List ℕ) (which : ℤ) : Option ℕ := if which < 0 then none else l[which.toNat]?

/-- The operation on the lists. -/
def apply (t : Lists) : Op → Answer × Lists
  | addItemToArray array item => (⟨(t.add array item).1, none⟩, (t.add array item).2)
  | addItemToObject copied object string item =>
    if object = item || !copied then (⟨false, none⟩, t)
    else (⟨true, none⟩, ((t.setString item (some string)).add object item).2)
  | insertItemInArray array which newitem =>
    if which < 0 then (⟨false, none⟩, t)
    else if which.toNat < (t.below array).length then
      (⟨true, none⟩, t.setBelow array ((t.below array).insertIdx which.toNat newitem))
    else (⟨(t.add array newitem).1, none⟩, (t.add array newitem).2)
  | detachItemViaPointer parent item => (⟨true, some item⟩, t.detach parent item)
  | detachItemFromArray array which =>
    match itemAt (t.below array) which with
    | some item => (⟨true, some item⟩, t.detach array item)
    | none => (⟨false, none⟩, t)
  | detachItemFromObject _ object string =>
    match t.named object string with
    | some item => (⟨true, some item⟩, t.detach object item)
    | none => (⟨false, none⟩, t)
  | replaceItemViaPointer parent item replacement =>
    if replacement = item then (⟨true, none⟩, t)
    else (⟨true, some item⟩, t.replace parent item replacement)
  | replaceItemInArray array which newitem =>
    match itemAt (t.below array) which with
    | some item =>
      if newitem = item then (⟨true, none⟩, t)
      else (⟨true, some item⟩, t.replace array item newitem)
    | none => (⟨false, none⟩, t)

/-- What a caller has to know: nothing that was deleted is used, an item that is put into a list is
in none, or replaces itself, and one that is taken out or replaced by its pointer is in the list.
A search by a name has rounds for the whole list. -/
def Admits (t : Lists) : Op → Prop
  | addItemToArray array item | addItemToObject _ array _ item | insertItemInArray array _ item =>
    ¬t.deleted array ∧ t.IsUsable item
  | detachItemViaPointer parent item => ¬t.deleted parent ∧ item ∈ t.below parent
  | detachItemFromArray array _ => ¬t.deleted array
  | detachItemFromObject fuel object _ => ¬t.deleted object ∧ (t.below object).length ≤ fuel
  | replaceItemViaPointer parent item replacement =>
    ¬t.deleted parent ∧ item ∈ t.below parent ∧ (replacement ≠ item → t.IsUsable replacement)
  | replaceItemInArray array which newitem =>
    ¬t.deleted array ∧
      ∀ item ∈ itemAt (t.below array) which, newitem ≠ item → t.IsUsable newitem

end Op

/-- The answers of a run, and the links behind it. -/
def runAll : List Op → Nodes → Option (List Answer × Nodes)
  | [], s => some ([], s)
  | op :: ops, s => do
    let (answer, s) ← op.run s
    let (answers, s) ← runAll ops s
    return (answer :: answers, s)

/-- The answers of the same run on lists. -/
def applyAll : List Op → Lists → List Answer × Lists
  | [], t => ([], t)
  | op :: ops, t => ((op.apply t).1 :: (applyAll ops (op.apply t).2).1,
      (applyAll ops (op.apply t).2).2)

/-- A run whose operations are all admitted. -/
def AdmitsAll : List Op → Lists → Prop
  | [], _ => True
  | op :: ops, t => op.Admits t ∧ AdmitsAll ops (op.apply t).2

/-! ### The links hold lists -/

namespace Nodes

variable {s s' : Nodes} {t : Lists} {parent array item a : ℕ} {l l' m : List ℕ}

/-- The links hold the lists. -/
structure Represents (s : Nodes) (t : Lists) : Prop where
  children : ∀ p, Children s p (t.below p)
  disjoint : ∀ p q a, a ∈ t.below p → a ∈ t.below q → p = q
  free : ∀ a, t.IsFree a → Free s a
  string : s.string = t.string

/-- Lists below other items stay. -/
theorem Children.of_same {q : ℕ} (h : Children s q l) (hsame : SameOutside parent m s s')
    (hq : q ≠ parent) (hm : ∀ a ∈ l, a ∉ m) : Children s' q l := by
  refine ⟨(hsame.child q hq).trans h.child, h.linked.nodup, ?_⟩
  exact (Links.seg_congr fun a ha => hsame.links a (hm a ha)).mpr h.linked.seg

/-- **One list changes.**  `m` are the items whose links are written. -/
theorem Represents.update (h : Represents s t) (hsame : SameOutside parent m s s')
    (hchildren : Children s' parent l') (hbelow : ∀ a ∈ t.below parent, a ∈ m)
    (hm : ∀ a ∈ m, a ∈ t.below parent ∨ t.IsFree a) (hl' : ∀ a ∈ l', a ∈ m)
    (hgone : ∀ a ∈ m, a ∉ l' → Free s' a) : Represents s' (t.setBelow parent l') := by
  have hother : ∀ q ≠ parent, ∀ a ∈ t.below q, a ∉ m := by
    intro q hq a ha hmem
    rcases hm a hmem with hp | hfree
    · exact hq (h.disjoint q parent a ha hp)
    · exact hfree q ha
  have hself : (t.setBelow parent l').below parent = l' := Function.update_self ..
  have hne : ∀ q ≠ parent, (t.setBelow parent l').below q = t.below q :=
    fun q hq => Function.update_of_ne hq ..
  refine ⟨fun q => ?_, fun p q a hp hq => ?_, fun a hfree => ?_, hsame.string.trans h.string⟩
  · by_cases hq : q = parent
    · rw [hq, hself]
      exact hchildren
    · rw [hne q hq]
      exact (h.children q).of_same hsame hq (hother q hq)
  · by_cases hpp : p = parent <;> by_cases hqp : q = parent
    · rw [hpp, hqp]
    · rw [hpp, hself] at hp
      rw [hne q hqp] at hq
      exact absurd (hl' a hp) (hother q hqp a hq)
    · rw [hqp, hself] at hq
      rw [hne p hpp] at hp
      exact absurd (hl' a hq) (hother p hpp a hp)
    · rw [hne p hpp] at hp
      rw [hne q hqp] at hq
      exact h.disjoint p q a hp hq
  · have hal' : a ∉ l' := hself ▸ hfree parent
    by_cases ha : a ∈ m
    · exact hgone a ha hal'
    · have hfree' : t.IsFree a := by
        intro q hq
        by_cases hqp : q = parent
        · exact ha (hbelow a (hqp ▸ hq))
        · exact hfree q ((hne q hqp).symm ▸ hq)
      obtain ⟨hnext, hprev⟩ := hsame.links a ha
      exact ⟨hnext.trans (h.free a hfree').1, hprev.trans (h.free a hfree').2⟩

/-- A free item is put into a list. -/
theorem Represents.attach (h : Represents s t) (hfree : t.IsFree item)
    (hattached : Attached parent item (t.below parent) l' s s')
    (hl' : l'.Perm (item :: t.below parent)) : Represents s' (t.setBelow parent l') := by
  refine h.update hattached.same hattached.children (fun a ha => List.mem_cons_of_mem item ha) ?_
    (fun a ha => hl'.mem_iff.mp ha) fun a ha hal' => absurd (hl'.mem_iff.mpr ha) hal'
  intro a ha
  rcases List.mem_cons.mp ha with rfl | ha
  · exact .inr hfree
  · exact .inl ha

theorem Represents.add (h : Represents s t) (array : ℕ) (hfree : t.IsFree item) :
    ∃ s', addItemToArray (some array) (some item) s = ((t.add array item).1, s') ∧
      Represents s' (t.add array item).2 := by
  unfold Lists.add
  split_ifs with hself
  · exact ⟨s, if_pos hself, h⟩
  · obtain ⟨s', hadd, hattached⟩ :=
      (h.children array).add (hfree array) (h.free item hfree).1 hself
    exact ⟨s', hadd, h.attach hfree hattached (List.perm_append_singleton item _)⟩

theorem Represents.setString (h : Represents s t) (item : ℕ) (string : Option String) :
    Represents (s.setString item string) (t.setString item string) := by
  refine ⟨fun p => ⟨(h.children p).child, (h.children p).linked⟩, h.disjoint, h.free, ?_⟩
  show Function.update s.string item string = Function.update t.string item string
  rw [h.string]

/-- Deleting changes no links. -/
theorem Represents.delete (h : Represents s t) (item : ℕ) : Represents s (t.delete item) :=
  ⟨h.children, h.disjoint, h.free, h.string⟩

theorem Represents.getObjectItem (h : Represents s t) {fuel object : ℕ}
    (hfuel : (t.below object).length ≤ fuel) (name : String) :
    s.getObjectItem fuel (some object) (some name) = some (t.named object name) := by
  have hchildren := h.children object
  show s.namedFrom name fuel (s.child object) = _
  rw [hchildren.child, namedFrom_seg hchildren.linked.seg hfuel, h.string]
  rfl

theorem insertIdx_append (xs ys : List ℕ) :
    (xs ++ ys).insertIdx xs.length item = xs ++ item :: ys := by
  induction xs with
  | nil => rfl
  | cons x xs ih =>
    rw [List.cons_append, List.length_cons, List.insertIdx_succ_cons, ih]
    rfl

theorem Represents.insert {which : ℤ} (h : Represents s t) (hpos : ¬which < 0)
    (hlt : which.toNat < (t.below array).length) (hfree : t.IsFree item) :
    ∃ s', insertItemInArray (some array) which (some item) s = some (true, s') ∧
      Represents s' (t.setBelow array ((t.below array).insertIdx which.toNat item)) := by
  obtain ⟨xs, a, ys, hl, hxs⟩ : ∃ xs a ys, t.below array = xs ++ a :: ys ∧
      which.toNat = xs.length := by
    refine ⟨(t.below array).take which.toNat, (t.below array)[which.toNat],
      (t.below array).drop (which.toNat + 1), ?_, ?_⟩
    · rw [List.getElem_cons_drop, List.take_append_drop]
    · rw [List.length_take, min_eq_left hlt.le]
  have hchildren := h.children array
  have hwhich : which = xs.length := by omega
  rw [hl] at hchildren
  obtain ⟨s', hinsert, hattached⟩ := hchildren.insert hwhich (hl ▸ hfree array)
  refine ⟨s', hinsert, ?_⟩
  rw [hxs, hl, insertIdx_append]
  rw [← hl] at hattached
  exact h.attach hfree hattached (hl ▸ List.perm_middle)

/-- An item of a list is taken out. -/
theorem Represents.detach (h : Represents s t) (hitem : item ∈ t.below parent) :
    ∃ s', detachItemViaPointer (some parent) (some item) s = some (some item, s') ∧
      Represents s' (t.detach parent item) := by
  have hchildren := h.children parent
  obtain ⟨xs, ys, hl, hxs⟩ := List.eq_append_cons_of_mem hitem
  have herase : (t.below parent).erase item = xs ++ ys := by
    rw [hl, List.erase_append_right _ hxs, List.erase_cons_head]
  rw [hl] at hchildren
  obtain ⟨s', hdetach, hdetached⟩ := hchildren.detach
  refine ⟨s', hdetach, ?_⟩
  unfold Lists.detach
  rw [← hl, ← herase] at hdetached
  refine h.update hdetached.same hdetached.children (fun a ha => ha) (fun a ha => .inl ha)
    (fun a ha => List.mem_of_mem_erase ha) ?_
  intro a ha hgone
  by_cases hai : a = item
  · exact hai ▸ hdetached.free
  · exact absurd ((List.mem_erase_of_ne hai).mpr ha) hgone

/-- An item of a list is exchanged for a free one. -/
theorem Represents.replace {new : ℕ} (h : Represents s t) (hitem : item ∈ t.below parent)
    (hfree : t.IsFree new) :
    ∃ s', replaceItemViaPointer (some parent) (some item) (some new) s =
        some (true, some item, s') ∧
      Represents s' (t.replace parent item new) := by
  have hchildren := h.children parent
  obtain ⟨xs, ys, hl, hxs⟩ := List.eq_append_cons_of_mem hitem
  have hset : (t.below parent).set ((t.below parent).idxOf item) new = xs ++ new :: ys := by
    rw [hl, List.idxOf_append_of_notMem hxs, List.idxOf_cons_self, Nat.add_zero,
      List.set_append_right _ _ le_rfl, Nat.sub_self, List.set_cons_zero]
  rw [hl] at hchildren
  obtain ⟨s', hreplace, hreplaced⟩ := hchildren.replace (hl ▸ hfree parent)
  refine ⟨s', hreplace, ?_⟩
  unfold Lists.replace
  rw [hset]
  refine Represents.delete (h.update hreplaced.same hreplaced.children
    (fun a ha => .tail _ (hl ▸ ha)) ?_ ?_ ?_) item
  · intro a ha
    rcases List.mem_cons.mp ha with rfl | ha
    · exact .inr hfree
    · exact .inl (hl ▸ ha)
  · intro a ha
    simp only [List.mem_append, List.mem_cons] at ha ⊢
    tauto
  · intro a ha hgone
    have hai : a = item := by
      simp only [List.mem_append, List.mem_cons, not_or] at ha hgone
      tauto
    exact hai ▸ hreplaced.free

end Nodes

/-! ### Steps and runs -/

namespace Op

open Nodes

variable {s s' : Nodes} {t : Lists}

theorem mem_of_itemAt {l : List ℕ} {which : ℤ} {item : ℕ} (h : itemAt l which = some item) :
    item ∈ l := by
  unfold itemAt at h
  split_ifs at h
  exact List.mem_of_getElem? h

/-- The operation with a place is the one with the item that is there. -/
theorem run_detachItemFromArray (h : Represents s t) (array : ℕ) (which : ℤ) :
    (detachItemFromArray array which).run s =
      (itemAt (t.below array) which).elim (some (⟨false, none⟩, s))
        fun item => (detachItemViaPointer array item).run s := by
  by_cases hneg : which < 0
  · simp only [run, itemAt, Nodes.detachItemFromArray, if_pos hneg]
    rfl
  · rw [itemAt, if_neg hneg, ← (h.children array).getArrayItem]
    simp only [run, Nodes.detachItemFromArray, if_neg hneg]
    cases s.getArrayItem (some array) which.toNat with
    | none => rfl
    | some item => rfl

/-- The operation with a name is the one with the item that has it. -/
theorem run_detachItemFromObject (h : Represents s t) {fuel object : ℕ}
    (hfuel : (t.below object).length ≤ fuel) (string : String) :
    (detachItemFromObject fuel object string).run s =
      (t.named object string).elim (some (⟨false, none⟩, s))
        fun item => (detachItemViaPointer object item).run s := by
  simp only [run, Nodes.detachItemFromObject, h.getObjectItem hfuel]
  cases t.named object string with
  | none => rfl
  | some item => rfl

theorem run_replaceItemInArray (h : Represents s t) (array : ℕ) (which : ℤ) (newitem : ℕ) :
    (replaceItemInArray array which newitem).run s =
      (itemAt (t.below array) which).elim (some (⟨false, none⟩, s))
        fun item => (replaceItemViaPointer array item newitem).run s := by
  by_cases hneg : which < 0
  · simp only [run, itemAt, Nodes.replaceItemInArray, if_pos hneg]
    rfl
  · rw [itemAt, if_neg hneg, ← (h.children array).getArrayItem]
    simp only [run, Nodes.replaceItemInArray, if_neg hneg]
    cases s.getArrayItem (some array) which.toNat with
    | none => rfl
    | some item => rfl

theorem run_detachItemViaPointer {parent item : ℕ} (h : Represents s t)
    (hitem : item ∈ t.below parent) :
    ∃ s', (detachItemViaPointer parent item).run s = some (⟨true, some item⟩, s') ∧
      Represents s' (t.detach parent item) := by
  obtain ⟨s', hdetach, h'⟩ := h.detach hitem
  refine ⟨s', ?_, h'⟩
  simp only [run, hdetach]
  rfl

theorem run_replaceItemViaPointer {parent item replacement : ℕ} (h : Represents s t)
    (hitem : item ∈ t.below parent) (hfree : replacement ≠ item → t.IsFree replacement) :
    ∃ s', (replaceItemViaPointer parent item replacement).run s =
        some ((apply t (replaceItemViaPointer parent item replacement)).1, s') ∧
      Represents s' (apply t (replaceItemViaPointer parent item replacement)).2 := by
  rw [apply]
  split_ifs with hself
  · refine ⟨s, ?_, h⟩
    simp only [run, Nodes.replaceItemViaPointer, if_pos hself]
    rfl
  · obtain ⟨s', hreplace, h'⟩ := h.replace hitem (hfree hself)
    refine ⟨s', ?_, h'⟩
    simp only [run, hreplace]
    rfl

/-- **An operation on the links does what it does to the lists.** -/
theorem run_refines (op : Op) (h : Represents s t) (hadmits : op.Admits t) :
    ∃ s', op.run s = some ((op.apply t).1, s') ∧ Represents s' (op.apply t).2 := by
  cases op with
  | addItemToArray array item =>
    obtain ⟨s', hadd, h'⟩ := h.add array hadmits.2.1
    refine ⟨s', ?_, h'⟩
    simp only [run, hadd]
    rfl
  | addItemToObject copied object string item =>
    -- an object is not added to itself, and no key is set without memory for its copy
    by_cases hrefused : (object = item || !copied) = true
    · refine ⟨s, ?_, ?_⟩
      · simp only [run, apply, Nodes.addItemToObject, if_pos hrefused]
      · rw [apply, if_pos hrefused]
        exact h
    · have hne : object ≠ item := by
        rintro rfl
        simp at hrefused
      obtain ⟨s', hadd, h'⟩ := (h.setString item (some string)).add object hadmits.2.1
      have hdone : ((t.setString item (some string)).add object item).1 = true := by
        rw [Lists.add, if_neg hne]
      refine ⟨s', ?_, ?_⟩
      · simp only [run, apply, Nodes.addItemToObject, if_neg hrefused, hadd, hdone]
      · rw [apply, if_neg hrefused]
        exact h'
  | insertItemInArray array which newitem =>
    -- behind the last item an insertion is an addition
    by_cases hneg : which < 0
    · refine ⟨s, ?_, ?_⟩
      · simp only [run, apply, Nodes.insertItemInArray, if_pos hneg]
        rfl
      · rw [apply, if_pos hneg]
        exact h
    · by_cases hlt : which.toNat < (t.below array).length
      · obtain ⟨s', hinsert, h'⟩ := h.insert hneg hlt hadmits.2.1
        refine ⟨s', ?_, ?_⟩
        · simp only [run, apply, hinsert, if_neg hneg, if_pos hlt]
          rfl
        · rw [apply, if_neg hneg, if_pos hlt]
          exact h'
      · have hnone : s.getArrayItem (some array) which.toNat = none := by
          rw [(h.children array).getArrayItem, List.getElem?_eq_none (not_lt.mp hlt)]
        obtain ⟨s', hadd, h'⟩ := h.add array hadmits.2.1
        refine ⟨s', ?_, ?_⟩
        · simp only [run, apply, Nodes.insertItemInArray, if_neg hneg, if_neg hlt, hnone, hadd]
          rfl
        · rw [apply, if_neg hneg, if_neg hlt]
          exact h'
  | detachItemViaPointer parent item => exact run_detachItemViaPointer h hadmits.2
  | detachItemFromArray array which =>
    rw [run_detachItemFromArray h, apply]
    cases hitem : itemAt (t.below array) which with
    | none => exact ⟨s, rfl, h⟩
    | some item => exact run_detachItemViaPointer h (mem_of_itemAt hitem)
  | detachItemFromObject fuel object string =>
    rw [run_detachItemFromObject h hadmits.2, apply]
    cases hitem : t.named object string with
    | none => exact ⟨s, rfl, h⟩
    | some item => exact run_detachItemViaPointer h (List.mem_of_find?_eq_some hitem)
  | replaceItemViaPointer parent item replacement =>
    exact run_replaceItemViaPointer h hadmits.2.1 fun hne => (hadmits.2.2 hne).1
  | replaceItemInArray array which newitem =>
    rw [run_replaceItemInArray h, apply]
    cases hitem : itemAt (t.below array) which with
    | none => exact ⟨s, rfl, h⟩
    | some item =>
      exact run_replaceItemViaPointer h (mem_of_itemAt hitem) fun hne =>
        (hadmits.2 item hitem hne).1

end Op

open Nodes

variable {s : Nodes} {t : Lists}

theorem represents_runAll {ops : List Op} (h : Represents s t) (hadmits : AdmitsAll ops t) :
    ∃ s', runAll ops s = some ((applyAll ops t).1, s') ∧ Represents s' (applyAll ops t).2 := by
  induction ops generalizing s t with
  | nil => exact ⟨s, rfl, h⟩
  | cons op ops ih =>
    obtain ⟨s₁, hop, h₁⟩ := op.run_refines h hadmits.1
    obtain ⟨s', hops, h'⟩ := ih h₁ hadmits.2
    refine ⟨s', ?_, h'⟩
    simp only [runAll, hop, hops, Option.bind_eq_bind, Option.bind_some]
    rfl

/-- What the reading functions have to find below an item. -/
structure Nodes.Reads (s : Nodes) (t : Lists) (array : ℕ) : Prop where
  getArraySize : ∀ fuel, (t.below array).length ≤ fuel →
    s.getArraySize fuel (some array) = some (cInt (t.below array).length)
  getArrayItem : ∀ index, s.getArrayItem (some array) index = (t.below array)[index]?
  getObjectItem : ∀ fuel name, (t.below array).length ≤ fuel →
    s.getObjectItem fuel (some array) (some name) = some (t.named array name)

theorem Nodes.Represents.reads (h : Represents s t) (array : ℕ) : s.Reads t array := by
  have hchildren := h.children array
  refine ⟨fun fuel hfuel => ?_, hchildren.getArrayItem, fun fuel name hfuel =>
    h.getObjectItem hfuel name⟩
  show (s.sizeFrom fuel (s.child array)).map (fun size => cInt size) = _
  rw [hchildren.child, sizeFrom_seg hchildren.linked.seg hfuel]
  rfl

/-- **A run of operations on the links does what it does to the lists**: it is defined, each
operation answers the same, and what is read afterwards is what the lists hold. -/
theorem runAll_refines {ops : List Op} (h : Represents s t) (hadmits : AdmitsAll ops t) :
    ∃ s', runAll ops s = some ((applyAll ops t).1, s') ∧
      ∀ array, s'.Reads (applyAll ops t).2 array := by
  obtain ⟨s', hrun, h'⟩ := represents_runAll h hadmits
  exact ⟨s', hrun, h'.reads⟩

/-- No item is below another. -/
def Nodes.empty : Nodes := ⟨⟨fun _ => none, fun _ => none⟩, fun _ => none, fun _ => none⟩

def Lists.empty : Lists := ⟨fun _ => [], fun _ => none, fun _ => False⟩

theorem Nodes.represents_empty : Represents Nodes.empty Lists.empty :=
  ⟨fun _ => ⟨rfl, List.nodup_nil, trivial⟩, fun _ _ _ ha => absurd ha List.not_mem_nil,
    fun _ _ => ⟨rfl, rfl⟩, rfl⟩

/-- Two items are put below the item 1, the first one is replaced, and the second one is taken out
by its key. -/
def twoItems : List Op :=
  [.addItemToObject true 1 "on" 2, .insertItemInArray 1 0 3, .replaceItemInArray 1 0 4,
    .detachItemFromObject 2 1 "ON"]

/-- All lists but the one below the item 1 are empty. -/
def Lists.OnlyBelowOne (t : Lists) : Prop := ∀ parent ≠ 1, t.below parent = []

theorem Lists.OnlyBelowOne.setBelow {t : Lists} (h : t.OnlyBelowOne) (l : List ℕ) :
    (t.setBelow 1 l).OnlyBelowOne := by
  intro parent hparent
  show Function.update t.below 1 l parent = []
  rw [Function.update_of_ne hparent]
  exact h parent hparent

theorem Lists.OnlyBelowOne.isFree {t : Lists} (h : t.OnlyBelowOne) {item : ℕ}
    (hitem : item ∉ t.below 1) : t.IsFree item := by
  intro parent
  by_cases hparent : parent = 1
  · rw [hparent]
    exact hitem
  · rw [h parent hparent]
    exact List.not_mem_nil

theorem runAll_refines_twoItems :
    ∃ s', runAll twoItems Nodes.empty =
        some ([⟨true, none⟩, ⟨true, none⟩, ⟨true, some 3⟩, ⟨true, some 2⟩], s') ∧
      s'.getArraySize 1 (some 1) = some 1 ∧ s'.getArrayItem (some 1) 0 = some 4 := by
  have hempty : Lists.empty.OnlyBelowOne := fun _ _ => rfl
  have hadded : (Op.apply Lists.empty (.addItemToObject true 1 "on" 2)).2.OnlyBelowOne :=
    Lists.OnlyBelowOne.setBelow (t := Lists.empty.setString 2 (some "on")) (fun _ _ => rfl) [2]
  have hinserted := hadded.setBelow [3, 2]
  have hadmits : AdmitsAll twoItems Lists.empty := by
    refine ⟨⟨id, hempty.isFree (by decide), id⟩, ⟨id, hadded.isFree (by decide), id⟩,
      ⟨id, fun item _ _ => ⟨hinserted.isFree (by decide), id⟩⟩, ⟨?_, by decide⟩, trivial⟩
    -- only the item 3 has been deleted, and the item 1 is below none
    rintro (hdeleted | hreaches)
    · exact hdeleted
    · cases hreaches with
      | child _ hbelow =>
        have hone : Lists.IsFree _ 1 := (hinserted.setBelow [4, 2]).isFree (by decide)
        exact hone _ hbelow
  obtain ⟨s', hrun, h⟩ := runAll_refines Nodes.represents_empty hadmits
  have hbelow : (applyAll twoItems Lists.empty).2.below 1 = [4] := rfl
  have hsize := (h 1).getArraySize 1
  have hitem := (h 1).getArrayItem 0
  rw [hbelow] at hsize hitem
  exact ⟨s', hrun, (hsize le_rfl).trans (by decide), hitem⟩

end IotDeviceSdk.Json
