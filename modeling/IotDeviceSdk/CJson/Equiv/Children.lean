import IotDeviceSdk.CJson.Children
import Mathlib.Data.List.Basic

/-!
# What the operations on the links between items do

`Children s parent l` says that `l` are the items below `parent`: the `child` leads to the first
one, whose `prev` leads to the last one. `SameOutside` says which links an operation leaves as they
are.

* `Children.add`, `Children.insert`, `Children.detach`, `Children.replace`: the items below the
  parent after each operation.
* `Children.getArrayItem`, `sizeFrom_seg`, `namedFrom_seg`: what is read of them.
-/

namespace IotDeviceSdk.Json.Nodes

open Links

variable {s s' : Nodes} {parent item a b : ℕ} {p : Option ℕ} {l xs ys : List ℕ}

/-! ### Writes -/

@[simp] theorem toLinks_setNext : (s.setNext a p).toLinks = s.toLinks.setNext a p := rfl

@[simp] theorem toLinks_setPrev : (s.setPrev a p).toLinks = s.toLinks.setPrev a p := rfl

@[simp] theorem toLinks_setChild : (s.setChild a p).toLinks = s.toLinks := rfl

@[simp] theorem child_setNext : (s.setNext a p).child = s.child := rfl

@[simp] theorem child_setPrev : (s.setPrev a p).child = s.child := rfl

@[simp] theorem child_setChild_self : (s.setChild a p).child a = p := Function.update_self ..

/-- Two states agree outside the children of one item. -/
structure SameOutside (parent : ℕ) (l : List ℕ) (s s' : Nodes) : Prop where
  links : ∀ a ∉ l, s'.next a = s.next a ∧ s'.prev a = s.prev a
  child : ∀ q ≠ parent, s'.child q = s.child q
  string : s'.string = s.string

namespace SameOutside

theorem refl (parent : ℕ) (l : List ℕ) (s : Nodes) : SameOutside parent l s s :=
  ⟨fun _ _ => ⟨rfl, rfl⟩, fun _ _ => rfl, rfl⟩

theorem setNext (h : SameOutside parent l s s') (ha : a ∈ l) :
    SameOutside parent l s (s'.setNext a p) := by
  refine ⟨fun b hb => ⟨?_, (h.links b hb).2⟩, h.child, h.string⟩
  exact (next_setNext_of_ne (ne_of_mem_of_not_mem ha hb).symm).trans (h.links b hb).1

theorem setPrev (h : SameOutside parent l s s') (ha : a ∈ l) :
    SameOutside parent l s (s'.setPrev a p) := by
  refine ⟨fun b hb => ⟨(h.links b hb).1, ?_⟩, h.child, h.string⟩
  exact (prev_setPrev_of_ne (ne_of_mem_of_not_mem ha hb).symm).trans (h.links b hb).2

theorem setChild (h : SameOutside parent l s s') : SameOutside parent l s (s'.setChild parent p) :=
  ⟨h.links, fun q hq => (Function.update_of_ne hq ..).trans (h.child q hq), h.string⟩

end SameOutside

/-- The items below an item. -/
structure Children (s : Nodes) (parent : ℕ) (l : List ℕ) : Prop where
  child : s.child parent = l.head?
  linked : s.toLinks.LastLinked l

/-- A node that is in no list. -/
def Free (s : Nodes) (a : ℕ) : Prop := s.next a = none ∧ s.prev a = none

/-! ### Reading -/

theorem itemFrom_seg {index : ℕ} (h : Seg s.toLinks p l none) :
    s.itemFrom index l.head? = l[index]? := by
  induction l generalizing p index with
  | nil => cases index <;> rfl
  | cons a l ih =>
    obtain ⟨-, hnext, hl⟩ := seg_cons.mp h
    cases index with
    | zero => rfl
    | succ index =>
      show s.itemFrom index (s.next a) = l[index]?
      rw [hnext, Option.or_none, ih hl]

theorem Children.getArrayItem (h : Children s parent l) (index : ℕ) :
    s.getArrayItem (some parent) index = l[index]? := by
  show s.itemFrom index (s.child parent) = _
  rw [h.child, itemFrom_seg h.linked.seg]

theorem sizeFrom_seg {fuel : ℕ} (h : Seg s.toLinks p l none) (hfuel : l.length ≤ fuel) :
    s.sizeFrom fuel l.head? = some l.length := by
  induction l generalizing p fuel with
  | nil => cases fuel <;> rfl
  | cons a l ih =>
    obtain ⟨-, hnext, hl⟩ := seg_cons.mp h
    cases fuel with
    | zero => cases hfuel
    | succ fuel =>
      show (s.sizeFrom fuel (s.next a)).map (· + 1) = _
      rw [hnext, Option.or_none, ih hl (Nat.le_of_succ_le_succ hfuel)]
      rfl

theorem namedFrom_seg {name : String} {fuel : ℕ} (h : Seg s.toLinks p l none)
    (hfuel : l.length ≤ fuel) : s.namedFrom name fuel l.head? =
      some (l.find? fun a => (s.string a).any fun string =>
        CJson.caseInsensitiveEq name string) := by
  induction l generalizing p fuel with
  | nil => cases fuel <;> rfl
  | cons a l ih =>
    obtain ⟨-, hnext, hl⟩ := seg_cons.mp h
    cases fuel with
    | zero => cases hfuel
    | succ fuel =>
      rw [List.head?_cons, namedFrom, hnext, Option.or_none,
        ih hl (Nat.le_of_succ_le_succ hfuel), List.find?_cons]
      cases (s.string a).any fun string => CJson.caseInsensitiveEq name string <;> rfl

/-- A list that ends in a node starts with one. -/
theorem exists_head (ws : List ℕ) (b : ℕ) :
    ∃ c, (ws ++ [b]).head? = some c ∧ c ∈ ws ++ [b] := by
  cases ws with
  | nil => exact ⟨b, rfl, List.mem_singleton_self b⟩
  | cons c ws => exact ⟨c, rfl, List.mem_cons_self⟩

/-! ### Detaching -/

/-- What detaching an item leaves. -/
structure Detached (parent item : ℕ) (l l' : List ℕ) (s s' : Nodes) : Prop where
  children : Children s' parent l'
  free : Free s' item
  same : SameOutside parent l s s'

/-- The end of `cJSON_DetachItemViaPointer`, when the other items have been linked. -/
theorem detached_of_seg {l l' : List ℕ} (hchild : s'.child parent = l'.head?) (hnodup : l'.Nodup)
    (hseg : Seg s'.toLinks l'.getLast? l' none) (hitem : item ∉ l') (hmem : item ∈ l)
    (hsame : SameOutside parent l s s') :
    Detached parent item l l' s ((s'.setPrev item none).setNext item none) := by
  refine ⟨⟨hchild, hnodup, ?_⟩, ⟨next_setNext_self, prev_setPrev_self⟩, ?_⟩
  · exact (seg_setNext_of_not_mem hitem).mpr ((seg_setPrev_of_not_mem hitem).mpr hseg)
  · exact (hsame.setPrev hmem).setNext hmem

theorem Children.detach_first {ys : List ℕ} (h : Children s parent (item :: ys)) :
    ∃ s', detachItemViaPointer (some parent) (some item) s = some (some item, s') ∧
      Detached parent item (item :: ys) ys s s' := by
  obtain ⟨hchild, hnodup, hseg⟩ := h
  obtain ⟨hprev, hnext, hys⟩ := seg_cons.mp hseg
  obtain ⟨hitem, hnodup'⟩ := List.nodup_cons.mp hnodup
  have hmem : item ∈ item :: ys := List.mem_cons_self
  have hsame := SameOutside.refl parent (item :: ys) s
  have hfirst : s.child parent = some item := hchild
  rw [Option.or_none] at hnext
  cases ys with
  | nil =>
    have hnone : s.next item = none := hnext
    refine ⟨((s.setChild parent none).setPrev item none).setNext item none, ?_,
      detached_of_seg child_setChild_self List.nodup_nil seg_nil List.not_mem_nil hmem
        hsame.setChild⟩
    simp only [detachItemViaPointer, skipItem, moveChild, hfirst, hnone, if_true,
      Option.bind_eq_bind, Option.bind_some]
    rfl
  | cons y ys =>
    have hsome : s.next item = some y := hnext
    have hy : y ∈ item :: y :: ys := List.mem_cons_of_mem item List.mem_cons_self
    refine ⟨(((s.setPrev y (s.prev item)).setChild parent (some y)).setPrev item none).setNext
      item none, ?_, detached_of_seg child_setChild_self hnodup' ?_ hitem hmem
        (hsame.setPrev hy).setChild⟩
    · simp only [detachItemViaPointer, skipItem, moveChild, hfirst, hsome, if_true,
        Option.bind_eq_bind, Option.bind_some, child_setPrev, toLinks_setPrev, next_setPrev]
      rfl
    · rw [hprev]
      exact hys.setPrev_head hnodup' rfl

/-- Detaching an item behind others. -/
theorem Children.detach_later {ws : List ℕ} (h : Children s parent (ws ++ [b] ++ item :: ys)) :
    ∃ s', detachItemViaPointer (some parent) (some item) s = some (some item, s') ∧
      Detached parent item (ws ++ [b] ++ item :: ys) (ws ++ [b] ++ ys) s s' := by
  obtain ⟨hchild, hnodup, hseg⟩ := h
  obtain ⟨hprev, hnext⟩ := hseg.of_mem
  obtain ⟨hfront, hback⟩ := seg_append.mp hseg
  obtain ⟨hxs, hrest, hdisjoint⟩ := List.nodup_append'.mp hnodup
  obtain ⟨hitem, hys⟩ := List.nodup_cons.mp hrest
  have hback := (seg_cons.mp hback).2.2
  have hmem : item ∈ ws ++ [b] ++ item :: ys := List.mem_append_right _ List.mem_cons_self
  have hb : b ∈ ws ++ [b] ++ item :: ys := by simp
  have hsame := SameOutside.refl parent (ws ++ [b] ++ item :: ys) s
  -- the item is not among those before it, so it is not the first
  have hitem' : item ∉ ws ++ [b] := fun hxs => hdisjoint hxs List.mem_cons_self
  have hne : item ≠ b := by
    rintro rfl
    exact hitem' (by simp)
  obtain ⟨c, hc, hcmem⟩ := exists_head ws b
  have hfirst : s.child parent = some c := by
    rw [hchild, List.head?_append, hc]
    rfl
  have hlater : ¬c = item := fun hci => hitem' (hci ▸ hcmem)
  have hbys : b ∉ ys := fun hb => hdisjoint (by simp) (List.mem_cons_of_mem item hb)
  rw [List.getLast?_concat] at hprev
  have hprevb : s.prev item = some b := hprev
  rw [Option.or_none] at hnext
  -- the neighbour before the item now leads to those behind it
  have hsame : SameOutside parent (ws ++ [b] ++ item :: ys) s (s.setNext b ys.head?) :=
    hsame.setNext hb
  have hkeep : (s.setNext b ys.head?).next item = ys.head? :=
    (next_setNext_of_ne hne).trans hnext
  have hskip : skipItem parent item s = some (s.setNext b ys.head?) := by
    simp only [skipItem, hfirst, hprevb, hnext, Option.some.injEq, if_neg hlater, Option.map_some]
  have hfront : Seg (s.toLinks.setNext b ys.head?) (ws ++ [b] ++ item :: ys).getLast? (ws ++ [b])
      ys.head? :=
    hfront.setNext_last hxs List.getLast?_concat
  have hback : Seg (s.toLinks.setNext b ys.head?) (some item) ys none :=
    (seg_setNext_of_not_mem hbys).mpr hback
  cases ys with
  | nil =>
    -- nothing is behind the item: the first child leads back to the neighbour
    have hnone : (s.setNext b none).next item = none := hkeep
    have hcl : c ∈ ws ++ [b] ++ [item] := List.mem_append_left _ hcmem
    refine ⟨(((s.setNext b none).setPrev c (some b)).setPrev item none).setNext item none, ?_,
      detached_of_seg ?_ ?_ ?_ ?_ hmem (hsame.setPrev hcl)⟩
    · simp only [detachItemViaPointer, hskip, moveChild, List.head?_nil, hnone, child_setNext,
        hfirst, Option.some.injEq, if_neg hlater, if_true, Option.map_some, Option.bind_eq_bind,
        Option.bind_some]
      rw [toLinks_setNext, prev_setNext, hprevb]
      rfl
    · rw [List.append_nil, hc]
      exact hfirst
    · rw [List.append_nil]
      exact hxs
    · rw [List.append_nil, List.getLast?_concat]
      exact hfront.setPrev_head hxs hc
    · rw [List.append_nil]
      exact hitem'
  | cons y ys =>
    -- the item behind it leads back to the neighbour
    have hsome : (s.setNext b (some y)).next item = some y := hkeep
    have hy : y ∈ ws ++ [b] ++ item :: y :: ys := by simp
    have hyxs : y ∉ ws ++ [b] := fun hy => hdisjoint hy (by simp)
    refine ⟨(((s.setNext b (some y)).setPrev y (some b)).setPrev item none).setNext item none, ?_,
      detached_of_seg ?_ ?_ ?_ ?_ hmem (hsame.setPrev hy)⟩
    · simp only [detachItemViaPointer, hskip, moveChild, List.head?_cons, hsome, child_setNext,
        child_setPrev, hfirst, Option.some.injEq, if_neg hlater, Option.bind_eq_bind,
        Option.bind_some, toLinks_setPrev, next_setPrev, reduceCtorEq, if_false]
      rw [toLinks_setNext, prev_setNext, hprevb]
      rfl
    · rw [List.head?_append, hc]
      exact hfirst
    · exact hnodup.sublist (List.Sublist.append_left (List.sublist_cons_self item _) _)
    · have hlast : (ws ++ [b] ++ y :: ys).getLast? =
          (ws ++ [b] ++ item :: y :: ys).getLast? := by simp
      refine seg_append.mpr ⟨?_, ?_⟩
      · rw [hlast]
        exact (seg_setPrev_of_not_mem hyxs).mpr hfront
      · rw [List.getLast?_concat]
        exact hback.setPrev_head hys rfl
    · intro hmem'
      rcases List.mem_append.mp hmem' with hmem' | hmem'
      · exact hitem' hmem'
      · exact hitem hmem'

/-- **Detaching an item.** -/
theorem Children.detach (h : Children s parent (xs ++ item :: ys)) :
    ∃ s', detachItemViaPointer (some parent) (some item) s = some (some item, s') ∧
      Detached parent item (xs ++ item :: ys) (xs ++ ys) s s' := by
  rcases List.eq_nil_or_concat' xs with rfl | ⟨ws, b, rfl⟩
  · exact h.detach_first
  · exact h.detach_later

/-! ### Adding -/

/-- What putting an item into a list leaves. -/
structure Attached (parent item : ℕ) (l l' : List ℕ) (s s' : Nodes) : Prop where
  children : Children s' parent l'
  same : SameOutside parent (item :: l) s s'

/-- **Adding an item** that is in no list. -/
theorem Children.add (h : Children s parent l) (hnew : item ∉ l) (hfree : s.next item = none)
    (hne : parent ≠ item) :
    ∃ s', addItemToArray (some parent) (some item) s = (true, s') ∧
      Attached parent item l (l ++ [item]) s s' := by
  obtain ⟨hchild, hnodup, hseg⟩ := h
  have hitem : item ∈ item :: l := List.mem_cons_self
  have hsame := SameOutside.refl parent (item :: l) s
  rcases List.eq_nil_or_concat' l with rfl | ⟨ws, b, rfl⟩
  · have hempty : s.child parent = none := hchild
    refine ⟨((s.setChild parent (some item)).setPrev item (some item)).setNext item none, ?_,
      ⟨child_setChild_self, List.nodup_singleton item, ?_⟩,
      (hsame.setChild.setPrev hitem).setNext hitem⟩
    · simp only [addItemToArray, if_neg hne, hempty]
    · exact seg_singleton.mpr ⟨prev_setPrev_self, next_setNext_self⟩
  · obtain ⟨c, hc, hcmem⟩ := exists_head ws b
    have hfirst : s.child parent = some c := hchild.trans hc
    have hlast : s.prev c = some b := by
      obtain ⟨ys, hys⟩ := List.head?_eq_some_iff.mp hc
      rw [List.getLast?_concat, hys] at hseg
      exact (seg_cons.mp hseg).1
    have hb : item ≠ b := by
      rintro rfl
      exact hnew (by simp)
    have hcitem : item ≠ c := (ne_of_mem_of_not_mem hcmem hnew).symm
    refine ⟨(s.suffixObject b item).setPrev c (some item), ?_, ⟨?_, ?_, ?_⟩, ?_⟩
    · simp only [addItemToArray, if_neg hne, hfirst, hlast]
    · rw [List.head?_append, hc]
      exact hfirst
    · exact List.nodup_append'.mpr ⟨hnodup, List.nodup_singleton item, by simpa using hnew⟩
    · refine seg_append.mpr ⟨?_, ?_⟩
      · have hend := @Seg.setNext_last _ _ _ _ (some item) _ _ _ hseg hnodup List.getLast?_concat
        rw [List.getLast?_concat]
        exact ((seg_setPrev_of_not_mem hnew).mpr hend).setPrev_head hnodup hc
      · rw [List.getLast?_concat, seg_singleton]
        refine ⟨?_, (next_setNext_of_ne hb).trans hfree⟩
        exact (prev_setPrev_of_ne hcitem).trans prev_setPrev_self
    · have hbmem : b ∈ item :: (ws ++ [b]) := by simp
      exact ((hsame.setNext hbmem).setPrev hitem).setPrev (List.mem_cons_of_mem item hcmem)

/-! ### Putting in -/

theorem linkBefore_seg (hseg : Seg s.toLinks p (a :: ys) none) (hnodup : (a :: ys).Nodup)
    (hnew : item ∉ a :: ys) : Seg (linkBefore a item s).toLinks p (item :: a :: ys) none := by
  have ha : item ≠ a := fun h => hnew (h ▸ List.mem_cons_self)
  refine seg_cons.mpr ⟨?_, next_setNext_self, ?_⟩
  · exact (prev_setPrev_of_ne ha).trans (prev_setPrev_self.trans (seg_cons.mp hseg).1)
  · have hkeep : Seg ((s.setNext item (some a)).setPrev item (s.prev a)).toLinks p (a :: ys) none :=
      (seg_setPrev_of_not_mem hnew).mpr ((seg_setNext_of_not_mem hnew).mpr hseg)
    exact hkeep.setPrev_head hnodup rfl

theorem linkBefore_same {l : List ℕ} (ha : a ∈ l) :
    SameOutside parent (item :: l) s (linkBefore a item s) := by
  have hitem : item ∈ item :: l := List.mem_cons_self
  have hsame := SameOutside.refl parent (item :: l) s
  exact ((hsame.setNext hitem).setPrev hitem).setPrev (List.mem_cons_of_mem item ha)

/-- **Putting an item in** front of another. -/
theorem Children.insert {which : ℤ} (h : Children s parent (xs ++ a :: ys))
    (hwhich : which = xs.length) (hnew : item ∉ xs ++ a :: ys) :
    ∃ s', insertItemInArray (some parent) which (some item) s = some (true, s') ∧
      Attached parent item (xs ++ a :: ys) (xs ++ item :: a :: ys) s s' := by
  have hget : s.getArrayItem (some parent) which.toNat = some a := by
    rw [h.getArrayItem, hwhich, Int.toNat_natCast, List.getElem?_append_right le_rfl, Nat.sub_self]
    rfl
  have hpos : ¬which < 0 := by omega
  obtain ⟨hchild, hnodup, hseg⟩ := h
  obtain ⟨hprev, -⟩ := hseg.of_mem
  obtain ⟨hfront, hback⟩ := seg_append.mp hseg
  obtain ⟨hxs, hrest, hdisjoint⟩ := List.nodup_append'.mp hnodup
  have hxsnew : item ∉ xs := fun hx => hnew (List.mem_append_left _ hx)
  have hysnew : item ∉ a :: ys := fun hy => hnew (List.mem_append_right _ hy)
  have ha : a ∈ xs ++ a :: ys := List.mem_append_right xs List.mem_cons_self
  have haxs : a ∉ xs := fun hx => hdisjoint hx List.mem_cons_self
  -- the new item stands before `a`
  have hnodup' : (xs ++ item :: a :: ys).Nodup :=
    List.nodup_middle.mpr (List.nodup_cons.mpr ⟨hnew, hnodup⟩)
  have hlast : (xs ++ item :: a :: ys).getLast? = (xs ++ a :: ys).getLast? := by simp
  have hsame := @linkBefore_same s parent item a _ ha
  have hback := linkBefore_seg hback hrest hysnew
  have hfront : Seg (linkBefore a item s).toLinks (xs ++ a :: ys).getLast? xs (some a) :=
    (seg_setPrev_of_not_mem haxs).mpr
      ((seg_setPrev_of_not_mem hxsnew).mpr ((seg_setNext_of_not_mem hxsnew).mpr hfront))
  rcases List.eq_nil_or_concat' xs with rfl | ⟨ws, b, rfl⟩
  · -- `a` was the first child
    have hfirst : (linkBefore a item s).child parent = some a := hchild
    refine ⟨(linkBefore a item s).setChild parent (some item), ?_,
      ⟨child_setChild_self, hnodup', ?_⟩, hsame.setChild⟩
    · simp only [insertItemInArray, if_neg hpos, hget, hfirst, if_true, Option.bind_eq_bind,
        Option.bind_some]
      rfl
    · rw [hlast]
      exact hback
  · -- `a` has a neighbour, which leads to the new item
    have hb : b ∈ item :: (ws ++ [b] ++ a :: ys) := by simp
    obtain ⟨c, hc, hcmem⟩ := exists_head ws b
    have hlater : ¬c = a := fun hca => haxs (hca ▸ hcmem)
    have hfirst : (linkBefore a item s).child parent = some c := by
      show s.child parent = some c
      rw [hchild, List.head?_append, hc]
      rfl
    have hprevb : (linkBefore a item s).prev item = some b := by
      rw [(seg_cons.mp hback).1, List.getLast?_concat]
      rfl
    have hbback : b ∉ item :: a :: ys := by
      rw [List.mem_cons, not_or]
      exact ⟨fun hbi => hxsnew (hbi ▸ by simp), fun hb => hdisjoint (by simp) hb⟩
    refine ⟨(linkBefore a item s).setNext b (some item), ?_, ⟨?_, hnodup', ?_⟩, hsame.setNext hb⟩
    · simp only [insertItemInArray, if_neg hpos, hget, hfirst, hprevb, Option.some.injEq,
        if_neg hlater, Option.bind_eq_bind, Option.bind_some]
      rfl
    · rw [List.head?_append, hc]
      exact hfirst
    · rw [hlast]
      refine seg_append.mpr ⟨hfront.setNext_last hxs List.getLast?_concat, ?_⟩
      rw [List.getLast?_concat] at hback ⊢
      exact (seg_setNext_of_not_mem hbback).mpr hback

/-! ### Exchanging -/

theorem takeLinks_eq {new : ℕ} (hnext : s.next item = ys.head?) : takeLinks item new s =
    match ys.head? with
    | some y => ((s.setNext new ys.head?).setPrev new (s.prev item)).setPrev y (some new)
    | none => (s.setNext new ys.head?).setPrev new (s.prev item) := by
  have hnew : (s.setNext new ys.head?).next new = ys.head? := next_setNext_self
  unfold takeLinks
  simp only [toLinks_setPrev, next_setPrev, hnext, hnew]
  rfl

theorem takeLinks_seg {new : ℕ} (hseg : Seg s.toLinks p (item :: ys) none) (hnodup : ys.Nodup)
    (hnew : new ∉ ys) : Seg (takeLinks item new s).toLinks p (new :: ys) none := by
  obtain ⟨hprev, hnext, hys⟩ := seg_cons.mp hseg
  rw [Option.or_none] at hnext
  rw [takeLinks_eq hnext]
  cases ys with
  | nil => exact seg_singleton.mpr ⟨prev_setPrev_self.trans hprev, next_setNext_self⟩
  | cons y ys =>
    have hy : new ≠ y := fun h => hnew (h ▸ List.mem_cons_self)
    have hkeep : Seg ((s.setNext new (some y)).setPrev new (s.prev item)).toLinks (some item)
        (y :: ys) none :=
      (seg_setPrev_of_not_mem hnew).mpr ((seg_setNext_of_not_mem hnew).mpr hys)
    refine seg_cons.mpr ⟨?_, next_setNext_self, hkeep.setPrev_head hnodup rfl⟩
    exact (prev_setPrev_of_ne hy).trans (prev_setPrev_self.trans hprev)

/-- Segments of other nodes stay. -/
theorem takeLinks_seg_of_disjoint {new : ℕ} {q : Option ℕ} (hnext : s.next item = ys.head?)
    (hseg : Seg s.toLinks p xs q) (hnew : new ∉ xs) (hdisjoint : xs.Disjoint ys) :
    Seg (takeLinks item new s).toLinks p xs q := by
  have hkeep : Seg ((s.setNext new ys.head?).setPrev new (s.prev item)).toLinks p xs q :=
    (seg_setPrev_of_not_mem hnew).mpr ((seg_setNext_of_not_mem hnew).mpr hseg)
  rw [takeLinks_eq hnext]
  cases ys with
  | nil => exact hkeep
  | cons y ys =>
    exact (seg_setPrev_of_not_mem fun hy => hdisjoint hy List.mem_cons_self).mpr hkeep

theorem takeLinks_same {new : ℕ} {l : List ℕ} (hnext : s.next item = ys.head?)
    (hys : ∀ y ∈ ys, y ∈ l) : SameOutside parent (new :: l) s (takeLinks item new s) := by
  have hnew : new ∈ new :: l := List.mem_cons_self
  have hsame := SameOutside.refl parent (new :: l) s
  rw [takeLinks_eq hnext]
  cases ys with
  | nil => exact (hsame.setNext hnew).setPrev hnew
  | cons y ys =>
    exact ((hsame.setNext hnew).setPrev hnew).setPrev
      (List.mem_cons_of_mem new (hys y List.mem_cons_self))

theorem takeLinks_prev {new : ℕ} (hnext : s.next item = ys.head?) (hitem : item ∉ ys)
    (hne : item ≠ new) : (takeLinks item new s).prev item = s.prev item := by
  have hkeep : ((s.setNext new ys.head?).setPrev new (s.prev item)).prev item = s.prev item :=
    prev_setPrev_of_ne hne
  rw [takeLinks_eq hnext]
  cases ys with
  | nil => exact hkeep
  | cons y ys => exact (prev_setPrev_of_ne (List.ne_of_not_mem_cons hitem)).trans hkeep

theorem takeLinks_child {new : ℕ} (hnext : s.next item = ys.head?) :
    (takeLinks item new s).child = s.child := by
  rw [takeLinks_eq hnext]
  cases ys <;> rfl

/-- What exchanging an item leaves. -/
structure Replaced (parent item new : ℕ) (l l' : List ℕ) (s s' : Nodes) : Prop
    extends Attached parent new l l' s s' where
  free : Free s' item

/-- The end of `cJSON_ReplaceItemViaPointer`, when the new item has been linked. -/
theorem replaced_of_seg {new : ℕ} {l l' : List ℕ} (hchild : s'.child parent = l'.head?)
    (hnodup : l'.Nodup) (hseg : Seg s'.toLinks l'.getLast? l' none) (hitem : item ∉ l')
    (hmem : item ∈ l) (hsame : SameOutside parent (new :: l) s s') :
    Replaced parent item new l l' s ((s'.setNext item none).setPrev item none) := by
  refine ⟨⟨⟨hchild, hnodup, ?_⟩, ?_⟩, next_setNext_self, prev_setPrev_self⟩
  · exact (seg_setPrev_of_not_mem hitem).mpr ((seg_setNext_of_not_mem hitem).mpr hseg)
  · have hitem' := List.mem_cons_of_mem new hmem
    exact (hsame.setNext hitem').setPrev hitem'

/-- Exchanging the first item. -/
theorem Children.replace_first {new : ℕ} (h : Children s parent (item :: ys))
    (hnew : new ∉ item :: ys) :
    ∃ s', replaceItemViaPointer (some parent) (some item) (some new) s =
        some (true, some item, s') ∧
      Replaced parent item new (item :: ys) (new :: ys) s s' := by
  obtain ⟨hchild, hnodup, hseg⟩ := h
  obtain ⟨hprev, hnext, -⟩ := seg_cons.mp hseg
  obtain ⟨hitem, hys⟩ := List.nodup_cons.mp hnodup
  rw [Option.or_none] at hnext
  have hne : new ≠ item := List.ne_of_not_mem_cons hnew
  have hnew' : new ∉ ys := List.not_mem_of_not_mem_cons hnew
  have hitem' : item ∉ new :: ys := List.not_mem_cons_of_ne_of_not_mem hne.symm hitem
  have hnodup' : (new :: ys).Nodup := List.nodup_cons.mpr ⟨hnew', hys⟩
  have hfirst : (takeLinks item new s).child parent = some item := by
    rw [takeLinks_child hnext]
    exact hchild
  have hprev' := (takeLinks_prev hnext hitem hne.symm).trans hprev
  have htake := takeLinks_seg hseg hys hnew'
  have hsame : SameOutside parent (new :: item :: ys) s (takeLinks item new s) :=
    takeLinks_same hnext fun y hy => List.mem_cons_of_mem item hy
  refine ⟨((replaceFirst parent new item (takeLinks item new s)).setNext item none).setPrev item
    none, ?_, replaced_of_seg ?_ hnodup' ?_ hitem' List.mem_cons_self ?_⟩
  · simp only [replaceItemViaPointer, if_neg hne, hfirst, if_true, Option.bind_eq_bind,
      Option.bind_some]
    rfl
  · exact child_setChild_self
  · unfold replaceFirst
    cases ys with
    | nil =>
      have hself : (takeLinks item new s).prev item = some item := hprev'
      rw [if_pos hself]
      exact htake.setPrev_head hnodup' rfl
    | cons y ys =>
      have hself : ¬(takeLinks item new s).prev item = some item := by
        rw [hprev', List.getLast?_cons_cons]
        exact fun hlast => hitem (List.mem_of_mem_getLast? hlast)
      rw [if_neg hself]
      rw [List.getLast?_cons_cons] at htake ⊢
      exact htake
  · unfold replaceFirst
    split_ifs
    · exact (hsame.setPrev List.mem_cons_self).setChild
    · exact hsame.setChild

/-- The writes that lead from the items in front to the new item, and back to it when it is the last
one. -/
theorem replaceLater_linked {s₀ : Nodes} {new c : ℕ} {ws m : List ℕ}
    (hfirst : s.child parent = some c) (hc : (ws ++ [b]).head? = some c)
    (hfront : Seg s.toLinks (ws ++ [b] ++ item :: ys).getLast? (ws ++ [b]) (some item))
    (hback : Seg s.toLinks (some b) (new :: ys) none) (hnodup : (ws ++ [b] ++ new :: ys).Nodup)
    (hsame : SameOutside parent m s₀ s) (hm : ∀ a ∈ ws ++ [b], a ∈ m) :
    ∃ s', replaceLater parent new s = some s' ∧ s'.child = s.child ∧
      Seg s'.toLinks (ws ++ [b] ++ new :: ys).getLast? (ws ++ [b] ++ new :: ys) none ∧
      SameOutside parent m s₀ s' := by
  obtain ⟨hxs, -, hdisjoint⟩ := List.nodup_append'.mp hnodup
  obtain ⟨hprev, hnext, -⟩ := seg_cons.mp hback
  rw [Option.or_none] at hnext
  have hbnew : b ∉ new :: ys := fun hb => hdisjoint (by simp) hb
  have hb := hsame.setNext (p := some new) (hm b (by simp))
  have hnext' : (s.setNext b (some new)).next new = ys.head? :=
    (next_setNext_of_ne (List.ne_of_not_mem_cons hbnew).symm).trans hnext
  have hfront' : Seg (s.setNext b (some new)).toLinks (ws ++ [b] ++ item :: ys).getLast?
      (ws ++ [b]) (some new) := hfront.setNext_last hxs List.getLast?_concat
  have hback' : Seg (s.setNext b (some new)).toLinks (some b) (new :: ys) none :=
    (seg_setNext_of_not_mem hbnew).mpr hback
  cases ys with
  | nil =>
    have hcmem : c ∈ ws ++ [b] := List.mem_of_mem_head? hc
    have hcnew : c ∉ [new] := fun hcn => hdisjoint hcmem hcn
    refine ⟨(s.setNext b (some new)).setPrev c (some new), ?_, rfl, ?_, hb.setPrev (hm c hcmem)⟩
    · have hnone : (s.setNext b (some new)).next new = none := hnext'
      simp only [replaceLater, hprev, hnone, child_setNext, hfirst, if_true, Option.map_some]
    · rw [List.getLast?_concat]
      refine seg_append.mpr ⟨hfront'.setPrev_head hxs hc, ?_⟩
      rw [List.getLast?_concat]
      exact (seg_setPrev_of_not_mem hcnew).mpr hback'
  | cons y ys =>
    refine ⟨s.setNext b (some new), ?_, rfl, ?_, hb⟩
    · have hsome : (s.setNext b (some new)).next new = some y := hnext'
      simp only [replaceLater, hprev, hsome, reduceCtorEq, if_false]
    · have hlast : (ws ++ [b] ++ new :: y :: ys).getLast? =
          (ws ++ [b] ++ item :: y :: ys).getLast? := by simp
      rw [hlast]
      refine seg_append.mpr ⟨hfront', ?_⟩
      rw [List.getLast?_concat]
      exact hback'

/-- Exchanging an item behind others. -/
theorem Children.replace_later {new : ℕ} {ws : List ℕ}
    (h : Children s parent (ws ++ [b] ++ item :: ys)) (hnew : new ∉ ws ++ [b] ++ item :: ys) :
    ∃ s', replaceItemViaPointer (some parent) (some item) (some new) s =
        some (true, some item, s') ∧
      Replaced parent item new (ws ++ [b] ++ item :: ys) (ws ++ [b] ++ new :: ys) s s' := by
  obtain ⟨hchild, hnodup, hseg⟩ := h
  obtain ⟨-, hnext⟩ := hseg.of_mem
  obtain ⟨hfront, hback⟩ := seg_append.mp hseg
  obtain ⟨hxs, hrest, hdisjoint⟩ := List.nodup_append'.mp hnodup
  obtain ⟨hitem, hys⟩ := List.nodup_cons.mp hrest
  rw [Option.or_none] at hnext
  have hmem : item ∈ ws ++ [b] ++ item :: ys := List.mem_append_right _ List.mem_cons_self
  have hxsnew : new ∉ ws ++ [b] := fun hx => hnew (List.mem_append_left _ hx)
  have hysnew : new ∉ item :: ys := fun hy => hnew (List.mem_append_right _ hy)
  have hne : new ≠ item := List.ne_of_not_mem_cons hysnew
  have hysnew := List.not_mem_of_not_mem_cons hysnew
  have hitem' : item ∉ ws ++ [b] := fun hx => hdisjoint hx List.mem_cons_self
  have hdisjoint' : (ws ++ [b]).Disjoint ys := fun _ hx hy => hdisjoint hx (.tail _ hy)
  obtain ⟨c, hc, hcmem⟩ := exists_head ws b
  have hlater : ¬c = item := fun hci => hitem' (hci ▸ hcmem)
  have hfirst : (takeLinks item new s).child parent = some c := by
    rw [takeLinks_child hnext, hchild, List.head?_append, hc]
    rfl
  have hsame : SameOutside parent (new :: (ws ++ [b] ++ item :: ys)) s (takeLinks item new s) :=
    takeLinks_same hnext fun y hy => List.mem_append_right _ (List.mem_cons_of_mem item hy)
  have hfront := takeLinks_seg_of_disjoint hnext hfront hxsnew hdisjoint'
  have hback := takeLinks_seg hback hys hysnew
  rw [List.getLast?_concat] at hback
  have hnodup' : (ws ++ [b] ++ new :: ys).Nodup := by
    refine List.nodup_append'.mpr ⟨hxs, List.nodup_cons.mpr ⟨hysnew, hys⟩, ?_⟩
    exact List.disjoint_cons_right.mpr ⟨hxsnew, hdisjoint'⟩
  have hgone : item ∉ ws ++ [b] ++ new :: ys := by
    rw [List.mem_append, List.mem_cons]
    rintro (hx | hn | hy)
    · exact hitem' hx
    · exact hne hn.symm
    · exact hitem hy
  have hm : ∀ a ∈ ws ++ [b], a ∈ new :: (ws ++ [b] ++ item :: ys) :=
    fun a ha => List.mem_cons_of_mem new (List.mem_append_left _ ha)
  obtain ⟨t, ht, htchild, htseg, htsame⟩ :=
    replaceLater_linked hfirst hc hfront hback hnodup' hsame hm
  refine ⟨(t.setNext item none).setPrev item none, ?_,
    replaced_of_seg ?_ hnodup' htseg hgone hmem htsame⟩
  · simp only [replaceItemViaPointer, if_neg hne, hfirst, Option.some.injEq, if_neg hlater, ht,
      Option.bind_eq_bind, Option.bind_some]
    rfl
  · rw [htchild, hfirst, List.head?_append, hc]
    rfl

/-- **Exchanging an item** for another. -/
theorem Children.replace {new : ℕ} (h : Children s parent (xs ++ item :: ys))
    (hnew : new ∉ xs ++ item :: ys) :
    ∃ s', replaceItemViaPointer (some parent) (some item) (some new) s =
        some (true, some item, s') ∧
      Replaced parent item new (xs ++ item :: ys) (xs ++ new :: ys) s s' := by
  rcases List.eq_nil_or_concat' xs with rfl | ⟨ws, b, rfl⟩
  · exact h.replace_first hnew
  · exact h.replace_later hnew

end IotDeviceSdk.Json.Nodes
