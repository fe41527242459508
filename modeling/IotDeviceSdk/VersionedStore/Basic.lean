import Mathlib.Data.List.Induction
import Mathlib.Data.List.Nodup
import Mathlib.Data.List.Perm.Basic
import Mathlib.Order.Lattice

/-!
# Stores of versioned items

A store is a list of items with pairwise distinct keys; an arriving item replaces the stored one
of its key when its version is higher and is dropped otherwise (`insertNewer`).

* `mem_foldl_insertNewer`: after the items `rs` arrived one by one, the store holds exactly the
  winners of `s ++ rs`, the items that come first among those of highest version of their key.
* `foldl_insertNewer_of_forall_stale`: items that are not newer than the stored ones change
  nothing.
* `foldl_insertNewer_perm`: when key and version determine an arriving item, the store depends only
  on which items arrived, not on their order.
* `forall₂_foldl_insertNewer`: two runs on items that agree in key and version keep their stores
  related item by item.

Without versions the last item of a key counts (`insertLast`, `find?_foldl_insertLast`).
-/

namespace IotDeviceSdk.VersionedStore

variable {ρ κ ν : Type} [LinearOrder ν]

/-! ### Winners -/

/-- `r` wins its key in `l`: it is newer than every earlier item of its key and no later item of
its key is newer. -/
def IsWinner (key : ρ → κ) (ver : ρ → ν) (l : List ρ) (r : ρ) : Prop :=
  ∃ pre post, l = pre ++ r :: post ∧
    (∀ x ∈ pre, key x = key r → ver x < ver r) ∧ ∀ x ∈ post, key x = key r → ver x ≤ ver r

variable {key : ρ → κ} {ver : ρ → ν} {s l rs : List ρ} {r : ρ} {k : κ}

/-- An arriving item is inserted or finds a stored item of its key that is as new. -/
theorem newer_or_stale (key : ρ → κ) (ver : ρ → ν) (s : List ρ) (r : ρ) :
    (∀ x ∈ s, key x = key r → ver x < ver r) ∨ ∃ old ∈ s, key old = key r ∧ ver r ≤ ver old := by
  by_cases h : ∃ old ∈ s, key old = key r ∧ ver r ≤ ver old
  · exact Or.inr h
  · refine Or.inl fun x hx hk => ?_
    by_contra hv
    exact h ⟨x, hx, hk, not_lt.mp hv⟩

theorem IsWinner.mem (h : IsWinner key ver l r) : r ∈ l := by
  obtain ⟨pre, post, rfl, -, -⟩ := h
  simp

/-- A winner has the highest version of its key. -/
theorem IsWinner.ver_le (h : IsWinner key ver l r) {x : ρ} (hx : x ∈ l) (hk : key x = key r) :
    ver x ≤ ver r := by
  obtain ⟨pre, post, rfl, hpre, hpost⟩ := h
  rcases List.mem_append.mp hx with hx | hx
  · exact (hpre x hx hk).le
  · rcases List.mem_cons.mp hx with rfl | hx
    · exact le_rfl
    · exact hpost x hx hk

/-- In a list with distinct keys every item wins. -/
theorem isWinner_of_nodup (h : (s.map key).Nodup) : IsWinner key ver s r ↔ r ∈ s := by
  refine ⟨IsWinner.mem, fun hr => ?_⟩
  obtain ⟨pre, post, rfl⟩ := List.append_of_mem hr
  rw [List.map_append, List.map_cons, List.nodup_append'] at h
  obtain ⟨-, hpost, hdisj⟩ := h
  refine ⟨pre, post, rfl, fun x hx hk => ?_, fun x hx hk => ?_⟩
  · exact absurd (List.mem_cons_self ..) (hk ▸ hdisj (List.mem_map_of_mem hx))
  · exact absurd (hk ▸ List.mem_map_of_mem hx) (List.nodup_cons.mp hpost).1

/-- Winners after one more item: the old winners it does not beat, and the item itself when it
beats all the items of its key. -/
theorem isWinner_append_singleton {x : ρ} :
    IsWinner key ver (l ++ [x]) r ↔
      (IsWinner key ver l r ∧ (key x = key r → ver x ≤ ver r)) ∨
        (r = x ∧ ∀ y ∈ l, key y = key x → ver y < ver x) := by
  constructor
  · rintro ⟨pre, post, heq, hpre, hpost⟩
    rcases List.eq_nil_or_concat post with rfl | ⟨post', y, rfl⟩
    · -- `r` is the last item
      have hinj := List.append_inj' heq rfl
      obtain ⟨rfl, hrx⟩ := hinj
      obtain rfl : x = r := by simpa using hrx
      exact Or.inr ⟨rfl, hpre⟩
    · -- `r` is an earlier item
      rw [List.concat_eq_append] at heq hpost
      have heq' : l ++ [x] = (pre ++ r :: post') ++ [y] := by simpa using heq
      obtain ⟨rfl, hxy⟩ := List.append_inj' heq' rfl
      obtain rfl : x = y := by simpa using hxy
      exact Or.inl ⟨⟨pre, post', rfl, hpre, fun z hz => hpost z (by simp [hz])⟩,
        hpost x (by simp)⟩
  · rintro (⟨⟨pre, post, rfl, hpre, hpost⟩, hx⟩ | ⟨rfl, hlt⟩)
    · refine ⟨pre, post ++ [x], by simp, hpre, fun z hz hk => ?_⟩
      rcases List.mem_append.mp hz with hz | hz
      · exact hpost z hz hk
      · obtain rfl : z = x := by simpa using hz
        exact hx hk
    · exact ⟨l, [], rfl, hlt, by simp⟩

/-- Every key that occurs has a winner. -/
theorem exists_isWinner (key : ρ → κ) (ver : ρ → ν) {x : ρ} (hx : x ∈ l) :
    ∃ w, IsWinner key ver l w ∧ key w = key x := by
  induction l using List.reverseRecOn generalizing x with
  | nil => simp at hx
  | append_singleton l y ih =>
    rcases newer_or_stale key ver l y with hlt | ⟨old, hold, hk, hv⟩
    · -- `y` wins its key
      by_cases hxy : key x = key y
      · exact ⟨y, isWinner_append_singleton.mpr (Or.inr ⟨rfl, hlt⟩), hxy.symm⟩
      · have hxl : x ∈ l := by
          rcases List.mem_append.mp hx with h | h
          · exact h
          · exact absurd (congrArg key (by simpa using h)) hxy
        obtain ⟨w, hw, hwx⟩ := ih hxl
        refine ⟨w, isWinner_append_singleton.mpr (Or.inl ⟨hw, fun h => ?_⟩), hwx⟩
        exact absurd (hwx.symm.trans h.symm) hxy
    · -- `y` loses to `old`, and the winners stay
      obtain ⟨w, hw, hwx⟩ : ∃ w, IsWinner key ver l w ∧ key w = key x := by
        rcases List.mem_append.mp hx with h | h
        · exact ih h
        · obtain rfl : x = y := by simpa using h
          obtain ⟨w, hw, hwo⟩ := ih hold
          exact ⟨w, hw, hwo.trans hk⟩
      refine ⟨w, isWinner_append_singleton.mpr (Or.inl ⟨hw, fun h => ?_⟩), hwx⟩
      exact hv.trans (hw.ver_le hold (hk.trans h))

/-- Winners among a store with distinct keys and arriving items of which no two different ones share
key and version: the stored items no arriving one beats, and the arriving items that beat the
stored one of their key and are beaten by no arriving one. -/
theorem isWinner_append_iff (hs : (s.map key).Nodup)
    (hinj : ∀ x ∈ rs, ∀ y ∈ rs, key x = key y → ver x = ver y → x = y) :
    IsWinner key ver (s ++ rs) r ↔
      (r ∈ s ∧ ∀ x ∈ rs, key x = key r → ver x ≤ ver r) ∨
        (r ∈ rs ∧ (∀ x ∈ s, key x = key r → ver x < ver r) ∧
          ∀ x ∈ rs, key x = key r → ver x ≤ ver r) := by
  constructor
  · rintro ⟨pre, post, heq, hpre, hpost⟩
    rcases List.append_eq_append_iff.mp heq with ⟨rs', rfl, rfl⟩ | ⟨s', rfl, heq'⟩
    · -- the winner arrived
      refine Or.inr ⟨by simp, fun x hx => hpre x (by simp [hx]), fun x hx hk => ?_⟩
      rcases List.mem_append.mp hx with hx | hx
      · exact (hpre x (by simp [hx]) hk).le
      · rcases List.mem_cons.mp hx with rfl | hx
        · exact le_rfl
        · exact hpost x hx hk
    · cases s' with
      | nil =>
        -- the winner is the first item that arrived
        obtain rfl : r :: post = rs := by simpa using heq'
        refine Or.inr ⟨by simp, fun x hx => hpre x (by simpa using hx), fun x hx hk => ?_⟩
        rcases List.mem_cons.mp hx with rfl | hx
        · exact le_rfl
        · exact hpost x hx hk
      | cons y s' =>
        -- the winner was stored
        obtain ⟨rfl, rfl⟩ : r = y ∧ post = s' ++ rs := by simpa using heq'
        exact Or.inl ⟨by simp, fun x hx => hpost x (by simp [hx])⟩
  · rintro (⟨hr, hle⟩ | ⟨hr, hlt, hle⟩)
    · have hwin : IsWinner key ver s r := (isWinner_of_nodup hs).mpr hr
      obtain ⟨pre, post, rfl, hpre, hpost⟩ := hwin
      refine ⟨pre, post ++ rs, by simp, hpre, fun x hx hk => ?_⟩
      rcases List.mem_append.mp hx with hx | hx
      · exact hpost x hx hk
      · exact hle x hx hk
    · -- before the first copy of `r` every arriving item of its key is older
      obtain ⟨pre, post, rfl, hnot⟩ := List.eq_append_cons_of_mem hr
      refine ⟨s ++ pre, post, by simp, fun x hx hk => ?_, fun x hx => hle x (by simp [hx])⟩
      rcases List.mem_append.mp hx with hx | hx
      · exact hlt x hx hk
      · refine lt_of_le_of_ne (hle x (by simp [hx]) hk) fun hv => hnot ?_
        rwa [← hinj x (by simp [hx]) r (by simp) hk hv]

/-! ### Keys -/

variable [DecidableEq κ]

/-- The items whose key is not `k`. -/
def without (key : ρ → κ) (s : List ρ) (k : κ) : List ρ := s.filter fun x => key x ≠ k

/-- An item arrives: it is appended when its key is new, it replaces the stored item of its key
when it has a higher version, and it is dropped otherwise. -/
def insertNewer (key : ρ → κ) (ver : ρ → ν) (s : List ρ) (r : ρ) : List ρ :=
  match s.find? fun x => key x = key r with
  | none => s ++ [r]
  | some old => if ver old < ver r then without key s (key r) ++ [r] else s

@[simp] theorem mem_without {x : ρ} : x ∈ without key s k ↔ x ∈ s ∧ key x ≠ k := by
  simp [without]

theorem without_eq_self (h : ∀ x ∈ s, key x ≠ k) : without key s k = s := by
  rw [without, List.filter_eq_self]
  intro x hx
  simpa using h x hx

theorem nodup_without (h : (s.map key).Nodup) : ((without key s k).map key).Nodup :=
  h.sublist (List.filter_sublist.map key)

/-- Removing the first item with a key from a store removes the only one. -/
theorem eraseIdx_eq_without {i : ℕ} (h : (s.map key).Nodup) (hi : s[i]? = some r) :
    s.eraseIdx i = without key s (key r) := by
  induction s generalizing i with
  | nil => simp at hi
  | cons x s ih =>
    rw [List.map_cons, List.nodup_cons] at h
    cases i with
    | zero =>
      -- no later item has the key
      obtain rfl : x = r := by simpa using hi
      have hne : ∀ y ∈ s, key y ≠ key x := fun y hy heq =>
        h.1 (heq ▸ List.mem_map_of_mem hy)
      rw [List.eraseIdx_cons_zero, ← without_eq_self hne, without, without, List.filter_cons]
      simp
    | succ i =>
      have hi' : s[i]? = some r := by simpa using hi
      have hne : key x ≠ key r := fun heq =>
        h.1 (heq ▸ List.mem_map_of_mem (List.mem_of_getElem? hi'))
      rw [List.eraseIdx_cons_succ, ih h.2 hi', without, without, List.filter_cons]
      simp [hne]

/-- Searching for the first item with a key and removing it removes the only one. -/
theorem eraseP_eq_without (h : (s.map key).Nodup) (k : κ) :
    s.eraseP (fun x => decide (key x = k)) = without key s k := by
  induction s with
  | nil => rfl
  | cons x s ih =>
    rw [List.map_cons, List.nodup_cons] at h
    by_cases hk : key x = k
    · have hne : ∀ y ∈ s, key y ≠ k := fun y hy heq =>
        h.1 (hk ▸ heq ▸ List.mem_map_of_mem hy)
      rw [List.eraseP_cons_of_pos (by simpa using hk), ← without_eq_self hne, without, without,
        List.filter_cons]
      simp [hk]
    · rw [List.eraseP_cons_of_neg (by simpa using hk), ih h.2, without, without, List.filter_cons]
      simp [hk]

/-- Removing keys one by one removes the items with those keys. -/
theorem foldl_without (s : List ρ) (ks : List κ) [DecidablePred fun x => key x ∉ ks] :
    ks.foldl (without key) s = s.filter fun x => key x ∉ ks := by
  have hkeys : ∀ (ks : List κ) (s : List ρ),
      ks.foldl (without key) s = s.filter fun x => key x ∉ ks := by
    intro ks
    induction ks with
    | nil => simp
    | cons k ks ih =>
      intro s
      rw [List.foldl_cons, ih, without, List.filter_filter]
      apply List.filter_congr
      intro x _
      by_cases hk : key x = k
      · simp [hk]
      · simp [hk]
  rw [hkeys]
  exact List.filter_congr fun _ _ => decide_eq_decide.mpr Iff.rfl

theorem find?_key_eq_none : (s.find? fun x => key x = k) = none ↔ ∀ x ∈ s, key x ≠ k := by
  simp [List.find?_eq_none]

theorem find?_key_eq_some (h : (s.map key).Nodup) :
    (s.find? fun x => key x = k) = some r ↔ r ∈ s ∧ key r = k := by
  constructor
  · intro hf
    exact ⟨List.mem_of_find?_eq_some hf, by simpa using List.find?_some hf⟩
  · rintro ⟨hr, rfl⟩
    cases hf : s.find? fun x => key x = key r with
    | none => exact absurd rfl (find?_key_eq_none.mp hf r hr)
    | some r' =>
      have hk : key r' = key r := by simpa using List.find?_some hf
      rw [List.inj_on_of_nodup_map h (List.mem_of_find?_eq_some hf) hr hk]

omit [DecidableEq κ] in
theorem nodup_append_singleton (h : (s.map key).Nodup) (hr : ∀ x ∈ s, key x ≠ key r) :
    ((s ++ [r]).map key).Nodup := by
  rw [List.map_append, List.nodup_append']
  refine ⟨h, by simp, ?_⟩
  intro k hk hk'
  obtain ⟨x, hx, rfl⟩ := List.mem_map.mp hk
  exact hr x hx (by simpa using hk')

/-! ### One arriving item -/

theorem insertNewer_of_absent (h : ∀ x ∈ s, key x ≠ key r) :
    insertNewer key ver s r = s ++ [r] := by
  rw [insertNewer, find?_key_eq_none.mpr h]

theorem insertNewer_of_newer {old : ρ} (h : (s.map key).Nodup) (hold : old ∈ s)
    (hk : key old = key r) (hv : ver old < ver r) :
    insertNewer key ver s r = without key s (key r) ++ [r] := by
  rw [insertNewer, (find?_key_eq_some h).mpr ⟨hold, hk⟩]
  simp [hv]

theorem insertNewer_of_stale {old : ρ} (h : (s.map key).Nodup) (hold : old ∈ s)
    (hk : key old = key r) (hv : ver r ≤ ver old) : insertNewer key ver s r = s := by
  rw [insertNewer, (find?_key_eq_some h).mpr ⟨hold, hk⟩]
  simp [not_lt.mpr hv]

/-- The item is inserted when every stored item of its key is older. -/
theorem insertNewer_of_forall_lt (h : (s.map key).Nodup)
    (hlt : ∀ x ∈ s, key x = key r → ver x < ver r) :
    insertNewer key ver s r = without key s (key r) ++ [r] := by
  by_cases hex : ∃ old ∈ s, key old = key r
  · obtain ⟨old, hold, hk⟩ := hex
    exact insertNewer_of_newer h hold hk (hlt old hold hk)
  · have habs : ∀ x ∈ s, key x ≠ key r := fun x hx hk => hex ⟨x, hx, hk⟩
    rw [insertNewer_of_absent habs, without_eq_self habs]

theorem nodup_insertNewer (h : (s.map key).Nodup) (r : ρ) :
    ((insertNewer key ver s r).map key).Nodup := by
  rcases newer_or_stale key ver s r with hlt | ⟨old, hold, hk, hv⟩
  · rw [insertNewer_of_forall_lt h hlt]
    exact nodup_append_singleton (nodup_without h) fun x hx => (mem_without.mp hx).2
  · rwa [insertNewer_of_stale h hold hk hv]

theorem nodup_foldl_insertNewer (ver : ρ → ν) (h : (s.map key).Nodup) (rs : List ρ) :
    ((rs.foldl (insertNewer key ver) s).map key).Nodup := by
  induction rs generalizing s with
  | nil => exact h
  | cons r rs ih => exact ih (nodup_insertNewer h r)

/-- Items that find a stored item as new as themselves change nothing. -/
theorem foldl_insertNewer_of_forall_stale (h : (s.map key).Nodup)
    (hrs : ∀ r ∈ rs, ∃ old ∈ s, key old = key r ∧ ver r ≤ ver old) :
    rs.foldl (insertNewer key ver) s = s := by
  induction rs with
  | nil => rfl
  | cons r rs ih =>
    obtain ⟨old, hold, hk, hv⟩ := hrs r (by simp)
    rw [List.foldl_cons, insertNewer_of_stale h hold hk hv]
    exact ih fun x hx => hrs x (by simp [hx])

/-! ### Runs -/

/-- **The store holds the winners**: after the items `rs` arrived, exactly the winners of
`s ++ rs` are stored. -/
theorem mem_foldl_insertNewer (h : (s.map key).Nodup) :
    r ∈ rs.foldl (insertNewer key ver) s ↔ IsWinner key ver (s ++ rs) r := by
  induction rs using List.reverseRecOn generalizing r with
  | nil => rw [List.foldl_nil, List.append_nil, isWinner_of_nodup h]
  | append_singleton rs x ih =>
    have hnd := nodup_foldl_insertNewer ver h rs
    rw [List.foldl_append, List.foldl_cons, List.foldl_nil, ← List.append_assoc,
      isWinner_append_singleton]
    rcases newer_or_stale key ver (s ++ rs) x with hlt | ⟨old, hold, hk, hv⟩
    · -- `x` beats every item of its key, so it replaces the stored winner
      rw [insertNewer_of_forall_lt hnd fun y hy => hlt y (ih.mp hy).mem, List.mem_append,
        mem_without, ih, List.mem_singleton]
      refine or_congr (and_congr_right fun hr => ?_) ?_
      · refine ⟨fun hne hxr => absurd hxr.symm hne, fun hle hrx => ?_⟩
        exact absurd (hle hrx.symm) (not_le.mpr (hlt r hr.mem hrx))
      · exact ⟨fun hrx => ⟨hrx, hlt⟩, fun hrx => hrx.1⟩
    · -- some item of its key is as new, so the stored winner is, and `x` is dropped
      obtain ⟨w, hw, hwk⟩ := exists_isWinner key ver hold
      have hxw : ver x ≤ ver w := hv.trans (hw.ver_le hold hwk.symm)
      rw [insertNewer_of_stale hnd (ih.mpr hw) (hwk.trans hk) hxw, ih]
      constructor
      · refine fun hr => Or.inl ⟨hr, fun hxr => ?_⟩
        exact hv.trans (hr.ver_le hold (hk.trans hxr))
      · rintro (⟨hr, -⟩ | ⟨rfl, hlt⟩)
        · exact hr
        · exact absurd (hlt old hold hk) (not_lt.mpr hv)

/-- **Order does not matter**: when key and version determine an arriving item, two lists with the
same items leave the same store, up to order. -/
theorem foldl_insertNewer_perm {rs' : List ρ} (h : (s.map key).Nodup)
    (hmem : ∀ r, r ∈ rs ↔ r ∈ rs')
    (hinj : ∀ x ∈ rs, ∀ y ∈ rs, key x = key y → ver x = ver y → x = y) :
    (rs.foldl (insertNewer key ver) s).Perm (rs'.foldl (insertNewer key ver) s) := by
  have hinj' : ∀ x ∈ rs', ∀ y ∈ rs', key x = key y → ver x = ver y → x = y :=
    fun x hx y hy => hinj x ((hmem x).mpr hx) y ((hmem y).mpr hy)
  rw [List.perm_ext_iff_of_nodup (nodup_foldl_insertNewer ver h rs).of_map
    (nodup_foldl_insertNewer ver h rs').of_map]
  intro r
  rw [mem_foldl_insertNewer h, mem_foldl_insertNewer h, isWinner_append_iff h hinj,
    isWinner_append_iff h hinj']
  simp only [hmem]

/-! ### Last items -/

/-- An item arrives and replaces the stored item of its key. -/
def insertLast (key : ρ → κ) (s : List ρ) (r : ρ) : List ρ := without key s (key r) ++ [r]

theorem nodup_insertLast (h : (s.map key).Nodup) (r : ρ) :
    ((insertLast key s r).map key).Nodup :=
  nodup_append_singleton (nodup_without h) fun _ hx => (mem_without.mp hx).2

theorem find?_without {k' : κ} (hk : k ≠ k') :
    (without key s k).find? (fun x => key x = k') = s.find? fun x => key x = k' := by
  rw [without, List.find?_filter]
  congr 1
  funext x
  by_cases hx : key x = k'
  · simp [hx, hk.symm]
  · simp [hx]

theorem find?_insertLast (s : List ρ) (r : ρ) (k : κ) :
    (insertLast key s r).find? (fun x => key x = k) =
      if key r = k then some r else s.find? fun x => key x = k := by
  rw [insertLast, List.find?_append]
  split
  · rename_i hk
    subst hk
    rw [find?_key_eq_none.mpr fun x hx => (mem_without.mp hx).2]
    simp
  · rename_i hk
    rw [find?_without hk]
    simp [hk]

/-- After some items arrived, the store holds the last one of each key that arrived, and the item it
had for every other key. -/
theorem find?_foldl_insertLast_or (s rs : List ρ) (k : κ) :
    (rs.foldl (insertLast key) s).find? (fun x => key x = k) =
      ((rs.filter fun x => key x = k).getLast?).or (s.find? fun x => key x = k) := by
  induction rs using List.reverseRecOn with
  | nil => rfl
  | append_singleton rs r ih =>
    rw [List.foldl_append, List.foldl_cons, List.foldl_nil, find?_insertLast, ih,
      List.filter_append]
    by_cases hk : key r = k
    · simp [hk]
    · simp [hk]

/-- After some items arrived in an empty store, it holds the last item of each key. -/
theorem find?_foldl_insertLast (rs : List ρ) (k : κ) :
    (rs.foldl (insertLast key) []).find? (fun x => key x = k) =
      (rs.filter fun x => key x = k).getLast? := by
  rw [find?_foldl_insertLast_or, List.find?_nil, Option.or_none]

/-! ### Simulation -/

section Simulation

variable {ρ' : Type} {key' : ρ' → κ} {ver' : ρ' → ν} {R : ρ → ρ' → Prop} {s' rs' : List ρ'}

/-- Items related by a relation that keeps keys and versions are inserted, kept and dropped alike.
-/
theorem forall₂_insertNewer (hR : ∀ x y, R x y → key x = key' y ∧ ver x = ver' y)
    (hs : List.Forall₂ R s s') {r : ρ} {r' : ρ'} (hr : R r r') :
    List.Forall₂ R (insertNewer key ver s r) (insertNewer key' ver' s' r') := by
  have hwithout : ∀ {s s'}, List.Forall₂ R s s' →
      List.Forall₂ R (without key s (key r)) (without key' s' (key r)) := by
    intro s s' hs
    refine List.rel_filter (fun {x y} hxy => ?_) hs
    dsimp only
    rw [(hR x y hxy).1]
  -- the searches find related items, or none
  have hfind :
      Option.Rel R (s.find? fun x => key x = key r) (s'.find? fun x => key' x = key r) := by
    induction hs with
    | nil => exact Option.Rel.none
    | @cons x y s s' hxy _ ih =>
      rw [List.find?_cons, List.find?_cons, (hR x y hxy).1]
      by_cases hk : key' y = key r
      · simpa [hk] using hxy
      · simpa [hk] using ih
  rw [insertNewer, insertNewer, ← (hR r r' hr).1, ← (hR r r' hr).2]
  generalize (s.find? fun x => key x = key r) = old at hfind ⊢
  generalize (s'.find? fun x => key' x = key r) = old' at hfind ⊢
  cases hfind with
  | none => exact List.rel_append hs (List.Forall₂.cons hr List.Forall₂.nil)
  | @some x y hxy =>
    dsimp only
    rw [(hR x y hxy).2]
    split
    · exact List.rel_append (hwithout hs) (List.Forall₂.cons hr List.Forall₂.nil)
    · exact hs

/-- Runs over related items keep the stores related. -/
theorem forall₂_foldl_insertNewer (hR : ∀ x y, R x y → key x = key' y ∧ ver x = ver' y)
    (hs : List.Forall₂ R s s') (hrs : List.Forall₂ R rs rs') :
    List.Forall₂ R (rs.foldl (insertNewer key ver) s)
      (rs'.foldl (insertNewer key' ver') s') := by
  have hstep : Relator.LiftFun (List.Forall₂ R) (Relator.LiftFun R (List.Forall₂ R))
      (insertNewer key ver) (insertNewer key' ver') :=
    fun _ _ hs _ _ hr => forall₂_insertNewer hR hs hr
  exact List.rel_foldl hstep hs hrs

end Simulation

end IotDeviceSdk.VersionedStore
