import IotDeviceSdk.Forest.Basic
import IotDeviceSdk.Service.DetectAnomaly.ListDir
import IotDeviceSdk.Text.Search

/-!
# The walk of a directory tree

`ListDir` extends and cuts back one block.  A `strcat_s` that fails empties it, and writing a
terminator at the old length does not bring the old path back.

* `readString_set`: a terminator cuts the string in a block off.
* `enter_of_fits`, `enter_of_long`: a subdirectory whose path fits, and one whose path does not.
* `loop_of_fits`: when all paths fit, the loop visits them in preorder and restores the path.
* `loop_of_long`: otherwise the path is empty in the end.
* `listDir_visits_iff`: the walk is right exactly when all paths fit.
-/

namespace IotDeviceSdk.Service

variable {α : Type} {block path name : List UInt8} {entries : List Dirent} {d_name : FileName}
  {opendir : List UInt8 → Option (List Dirent)} {callback : List UInt8 → α → α} {arg : α}

/-! ### Directory trees -/

/-- An entry that the walk goes into. -/
def Dirent.IsSubdir (dirInfo : Dirent) : Prop :=
  ¬(dirInfo.d_name.bytes = [46] ∨ dirInfo.d_name.bytes = [46, 46] ∨ dirInfo.d_type ≠ DT_DIR)

instance (dirInfo : Dirent) : Decidable dirInfo.IsSubdir := inferInstanceAs (Decidable (¬_))

/-- The names of the subdirectories of a directory; one that does not open has none. -/
def subdirNames (dirObj : Option (List Dirent)) : List FileName :=
  ((dirObj.getD []).filter (·.IsSubdir)).map Dirent.d_name

/-- The path of a directory. -/
def pathOf (root : List UInt8) (route : List FileName) : List UInt8 :=
  root ++ route.flatMap fun name => 47 :: name.bytes

/-- The directories below a path are those of a forest.  What is below a path that is too long
cannot be opened. -/
def HoldsBelow (opendir : List UInt8 → Option (List Dirent)) (root : List UInt8) :
    List FileName → Forest FileName → Prop
  | _, .nil => True
  | route, .node name below next =>
    ((pathOf root (route ++ [name])).length < PATH_MAX →
      subdirNames (opendir (pathOf root (route ++ [name]))) = below.names ∧
        HoldsBelow opendir root (route ++ [name]) below) ∧
    HoldsBelow opendir root route next

/-- A directory tree. -/
def HoldsTree (opendir : List UInt8 → Option (List Dirent)) (root : List UInt8)
    (tree : Forest FileName) : Prop :=
  subdirNames (opendir root) = tree.names ∧ HoldsBelow opendir root [] tree

/-- The paths of a tree that fit, in preorder. -/
def visited (root : List UInt8) (tree : Forest FileName) : List (List UInt8) :=
  (([] :: tree.routes []).map (pathOf root)).filter fun path => path.length < PATH_MAX

/-- The calls of a callback. -/
def callAll (callback : List UInt8 → α → α) (paths : List (List UInt8)) (arg : α) : α :=
  paths.foldl (fun arg path => callback path arg) arg

/-- The walk comes to its end, calls the callback for the paths that fit and leaves the path as it
was. -/
def VisitsAndRestores (opendir : List UInt8 → Option (List Dirent)) (callback : List UInt8 → α → α)
    (root : List UInt8) (tree : Forest FileName) (path : List UInt8) (arg : α) : Prop :=
  ∃ depth, ∀ depth' ≥ depth, ∃ path',
    listDir opendir callback depth' path arg =
      some (path', callAll callback (visited root tree) arg) ∧
    readString path' = some root

/-- With a slash behind each, a path starts with another only when its route goes on from the
other's. -/
theorem prefix_of_pathOf {r r' : List FileName}
    (h : (r'.flatMap fun name => 47 :: name.bytes) ++ [47] <+:
      (r.flatMap fun name => 47 :: name.bytes) ++ [47]) : r' <+: r := by
  have hslash : ∀ r : List FileName, ∃ rest,
      (r.flatMap fun name => 47 :: name.bytes) ++ [47] = 47 :: rest := by
    intro r
    cases r with
    | nil => exact ⟨[], rfl⟩
    | cons name r => exact ⟨_, rfl⟩
  have hcons : ∀ (name : FileName) (r : List FileName),
      ((name :: r).flatMap fun name => 47 :: name.bytes) ++ [47] =
        47 :: (name.bytes ++ ((r.flatMap fun name => 47 :: name.bytes) ++ [47])) := by
    intro name r
    simp
  induction r' generalizing r with
  | nil => exact List.nil_prefix
  | cons name' r' ih =>
    obtain ⟨after, hafter⟩ := h
    obtain ⟨rest', hrest'⟩ := hslash r'
    rw [hcons, hrest'] at hafter
    cases r with
    | nil => exact absurd (congrArg List.length hafter) (by simp)
    | cons name r =>
      obtain ⟨rest, hrest⟩ := hslash r
      rw [hcons, hrest, List.cons_append, List.append_assoc, List.cons_append] at hafter
      obtain ⟨hname, htail⟩ := Text.append_cons_inj name'.slash_not_mem name.slash_not_mem
        (List.cons.inj hafter).2
      have hsame : name' = name := by
        cases name'
        cases name
        simpa using hname
      rw [hsame, List.cons_prefix_cons]
      refine ⟨rfl, ih ⟨after, ?_⟩⟩
      rw [hrest', hrest, List.cons_append, htail]

/-- **Each directory once, and parents first**: no path that is visited later is one visited before
or above one. -/
theorem visited_pairwise {root : List UInt8} {tree : Forest FileName} (h : tree.Distinct) :
    (visited root tree).Pairwise fun path path' => ¬path' ++ [47] <+: path ++ [47] := by
  refine List.Pairwise.filter _ (List.pairwise_map.mpr ((Forest.routes_pairwise h []).imp ?_))
  intro r r' hroutes hprefix
  rw [pathOf, pathOf, List.append_assoc, List.append_assoc, List.prefix_append_right_inj] at hprefix
  exact hroutes (prefix_of_pathOf hprefix)

/-! ### The loop -/

/-- The block of the path holds a string. -/
structure PathIs (path name : List UInt8) : Prop where
  string : readString path = some name
  length : path.length = PATH_MAX

/-- One round of the loop, on the block and the argument. -/
def enterStep (walk : List UInt8 → α → Option (List UInt8 × α)) (state : List UInt8 × α)
    (d_name : FileName) : Option (List UInt8 × α) := listDir.enter walk state.1 state.2 d_name

/-- The loop goes into the subdirectories. -/
theorem loop_eq (walk : List UInt8 → α → Option (List UInt8 × α)) (entries : List Dirent)
    (path : List UInt8) (arg : α) :
    listDir.loop walk entries path arg =
      (subdirNames (some entries)).foldlM (enterStep walk) (path, arg) := by
  induction entries generalizing path arg with
  | nil => rfl
  | cons dirInfo entries ih =>
    have hnames : subdirNames (some (dirInfo :: entries)) =
        if dirInfo.IsSubdir then dirInfo.d_name :: subdirNames (some entries)
        else subdirNames (some entries) := by
      by_cases hdir : dirInfo.IsSubdir <;> simp [subdirNames, hdir]
    rw [listDir.loop, hnames]
    by_cases hdir : dirInfo.IsSubdir
    · rw [if_neg hdir, if_pos hdir, List.foldlM_cons]
      exact bind_congr fun state => ih state.1 state.2
    · rw [if_pos (not_not.mp hdir), if_neg hdir]
      exact ih path arg

/-- **A call** runs the callback and goes into the subdirectories. -/
theorem listDir_succ {depth : ℕ} (h : PathIs path name) :
    listDir opendir callback (depth + 1) path arg =
      (subdirNames (opendir name)).foldlM (enterStep (listDir opendir callback depth))
        (path, callback name arg) := by
  rw [listDir, h.string, Option.bind_eq_bind, Option.bind_some]
  cases opendir name with
  | none => rfl
  | some entries => exact loop_eq _ entries path _

/-- The name is cut off. -/
theorem PathIs.cut {n : ℕ} (h : PathIs path name) (hn : n < PATH_MAX) :
    ∃ path', writeAt path n 0 = some path' ∧ PathIs path' (name.take n) := by
  have hblock : n < path.length := by rw [h.length]; exact hn
  refine ⟨path.set n 0, by rw [writeAt, if_pos hblock], readString_set h.string hblock, ?_⟩
  rw [List.length_set, h.length]

theorem PathIs.length_lt (h : PathIs path name) : name.length < PATH_MAX := by
  obtain ⟨-, rest, hpath⟩ := readString_eq_some_iff.mp h.string
  rw [← h.length, hpath, List.length_append, List.length_cons]
  omega

/-- What is appended. -/
theorem PathIs.strcatS_of_fits (h : PathIs path name) {text : List UInt8} (hzero : 0 ∉ text)
    (hfits : name.length + text.length < PATH_MAX) :
    ∃ path', strcatS path PATH_MAX text = some (path', EOK) ∧ PathIs path' (name ++ text) := by
  obtain ⟨hname, rest, rfl⟩ := readString_eq_some_iff.mp h.string
  have hlength := h.length
  rw [List.length_append, List.length_cons] at hlength
  refine ⟨_, strcatS_eq hname (by decide) (le_of_eq h.length.symm) hfits, ?_, ?_⟩
  · refine readString_append ?_
    rw [List.mem_append, not_or]
    exact ⟨hname, hzero⟩
  · rw [List.length_append, List.length_append, List.length_cons, List.length_drop]
    omega

/-- A text that does not fit empties the path. -/
theorem PathIs.strcatS_of_long (h : PathIs path name) (text : List UInt8)
    (hlong : PATH_MAX ≤ name.length + text.length) :
    ∃ path', strcatS path PATH_MAX text = some (path', ERANGE_AND_RESET) ∧ PathIs path' [] := by
  have hlt := h.length_lt
  obtain ⟨hname, rest, rfl⟩ := readString_eq_some_iff.mp h.string
  refine ⟨_, strcatS_reset hname (by decide) (le_of_eq h.length.symm) hlt hlong, ?_, ?_⟩
  · exact readString_set_zero (by simp)
  · rw [List.length_set, h.length]

theorem appendName_of_fits (h : PathIs path name)
    (hfits : (name ++ 47 :: d_name.bytes).length < PATH_MAX) :
    ∃ path', listDir.appendName path d_name = some (path', true) ∧
      PathIs path' (name ++ 47 :: d_name.bytes) := by
  rw [List.length_append, List.length_cons] at hfits
  obtain ⟨path₁, hslash, hpath₁⟩ := h.strcatS_of_fits (show 0 ∉ [(47 : UInt8)] by decide)
    (by rw [List.length_singleton]; omega)
  obtain ⟨path₂, hname, hpath₂⟩ := hpath₁.strcatS_of_fits d_name.zero_not_mem
    (by rw [List.length_append, List.length_singleton]; omega)
  rw [List.append_assoc, List.singleton_append] at hpath₂
  refine ⟨path₂, ?_, hpath₂⟩
  rw [listDir.appendName, hslash]
  dsimp only [Option.bind_eq_bind, Option.bind_some]
  rw [if_neg (not_not.mpr rfl), hname]
  rfl

theorem appendName_of_long (h : PathIs path name)
    (hlong : PATH_MAX ≤ (name ++ 47 :: d_name.bytes).length) :
    ∃ path', listDir.appendName path d_name = some (path', false) ∧ PathIs path' [] := by
  rw [List.length_append, List.length_cons] at hlong
  by_cases hslash : name.length + 1 < PATH_MAX
  · obtain ⟨path₁, hfirst, hpath₁⟩ := h.strcatS_of_fits (show 0 ∉ [(47 : UInt8)] by decide) hslash
    obtain ⟨path₂, hsecond, hpath₂⟩ := hpath₁.strcatS_of_long d_name.bytes
      (by rw [List.length_append, List.length_singleton]; omega)
    refine ⟨path₂, ?_, hpath₂⟩
    rw [listDir.appendName, hfirst]
    dsimp only [Option.bind_eq_bind, Option.bind_some]
    rw [if_neg (not_not.mpr rfl), hsecond]
    rfl
  · obtain ⟨path₁, hfirst, hpath₁⟩ := h.strcatS_of_long [47]
      (by rw [List.length_singleton]; omega)
    refine ⟨path₁, ?_, hpath₁⟩
    rw [listDir.appendName, hfirst]
    rfl

/-- **A subdirectory whose path fits** is called with its path, and its name is cut off
afterwards. -/
theorem enter_of_fits (h : PathIs path name)
    (hfits : (name ++ 47 :: d_name.bytes).length < PATH_MAX) :
    ∃ path₁, PathIs path₁ (name ++ 47 :: d_name.bytes) ∧
      ∀ walk : List UInt8 → α → Option (List UInt8 × α),
        enterStep walk (path, arg) d_name = (walk path₁ arg).bind fun state =>
          (writeAt state.1 name.length 0).map fun path => (path, state.2) := by
  obtain ⟨path₁, happend, hpath₁⟩ := appendName_of_fits h hfits
  refine ⟨path₁, hpath₁, fun walk => ?_⟩
  rw [enterStep, listDir.enter, h.string, Option.bind_eq_bind, Option.bind_some, happend]
  rfl

/-- **A subdirectory whose path does not fit** leaves no path. -/
theorem enter_of_long (h : PathIs path name)
    (hlong : PATH_MAX ≤ (name ++ 47 :: d_name.bytes).length)
    (walk : List UInt8 → α → Option (List UInt8 × α)) :
    ∃ path', enterStep walk (path, arg) d_name = some (path', arg) ∧ PathIs path' [] := by
  obtain ⟨path₁, happend, hpath₁⟩ := appendName_of_long h hlong
  obtain ⟨path', hwrite, hpath'⟩ := hpath₁.cut h.length_lt
  rw [List.take_nil] at hpath'
  refine ⟨path', ?_, hpath'⟩
  rw [enterStep, listDir.enter, h.string, Option.bind_eq_bind, Option.bind_some, happend]
  show (writeAt path₁ name.length 0).map _ = _
  rw [hwrite, Option.map_some]

/-- **An empty path** stays empty: the terminator is written at the start, whatever the call has
left. -/
theorem enter_of_empty {walk : List UInt8 → α → Option (List UInt8 × α)}
    {state state' : List UInt8 × α} (h : readString state.1 = some [])
    (hrun : enterStep walk state d_name = some state') : readString state'.1 = some [] := by
  rw [enterStep, listDir.enter, h, Option.bind_eq_bind, Option.bind_some] at hrun
  obtain ⟨_, -, hrun⟩ := Option.bind_eq_some_iff.mp hrun
  obtain ⟨state₂, -, hrun⟩ := Option.bind_eq_some_iff.mp hrun
  obtain ⟨path', hwrite, rfl⟩ := Option.map_eq_some_iff.mp hrun
  obtain ⟨hlt, rfl⟩ := of_writeAt hwrite
  exact readString_set_zero (List.ne_nil_of_length_pos hlt)

theorem readString_of_writeAt {n : ℕ} (h : readString block = some [])
    (hwrite : writeAt block n 0 = some path) : readString path = some [] := by
  obtain ⟨hlt, rfl⟩ := of_writeAt hwrite
  rw [readString_set h hlt, List.take_nil]

theorem foldlM_of_empty {walk : List UInt8 → α → Option (List UInt8 × α)}
    {names : List FileName} {state state' : List UInt8 × α} (h : readString state.1 = some [])
    (hrun : names.foldlM (enterStep walk) state = some state') :
    readString state'.1 = some [] := by
  induction names generalizing state with
  | nil =>
    obtain rfl := Option.some.inj hrun
    exact h
  | cons d_name names ih =>
    rw [List.foldlM_cons] at hrun
    obtain ⟨state₁, henter, hrest⟩ := Option.bind_eq_some_iff.mp hrun
    exact ih (enter_of_empty h henter) hrest

/-! ### The walk -/

variable {root : List UInt8} {tree : Forest FileName} {route : List FileName} {depth : ℕ}

theorem pathOf_concat (root : List UInt8) (route : List FileName) (name : FileName) :
    pathOf root (route ++ [name]) = pathOf root route ++ 47 :: name.bytes := by
  simp [pathOf]

/-- **When all paths fit**, the loop visits them in preorder and leaves the path as it was. -/
theorem foldlM_of_fits (hbelow : HoldsBelow opendir root route tree)
    (hfits : ∀ r ∈ tree.routes route, (pathOf root r).length < PATH_MAX)
    (hdepth : tree.depth ≤ depth)
    (hpath : PathIs path (pathOf root route)) :
    ∃ path', tree.names.foldlM (enterStep (listDir opendir callback depth)) (path, arg) =
        some (path', callAll callback ((tree.routes route).map (pathOf root)) arg) ∧
      PathIs path' (pathOf root route) := by
  induction tree generalizing route path arg depth with
  | nil => exact ⟨path, rfl, hpath⟩
  | node name below next ihBelow ihNext =>
    obtain ⟨hchild, hnext⟩ := hbelow
    rw [Forest.depth, Nat.max_le] at hdepth
    obtain ⟨depth, rfl⟩ := Nat.exists_eq_add_of_le' (Nat.le_of_add_left_le hdepth.1)
    have hmem : ∀ r, r ∈ (Forest.node name below next).routes route ↔
        r = route ++ [name] ∨ r ∈ below.routes (route ++ [name]) ∨ r ∈ next.routes route := by
      intro r
      rw [Forest.routes, List.mem_cons, List.mem_append]
    have hname := hfits _ ((hmem _).mpr (Or.inl rfl))
    obtain ⟨hnames, hbelow⟩ := hchild hname
    rw [pathOf_concat] at hname
    obtain ⟨path₁, hpath₁, henter⟩ := @enter_of_fits α path _ name arg hpath hname
    rw [← pathOf_concat] at hpath₁
    -- the subdirectory, with what is below it
    obtain ⟨path₂, hwalk, hpath₂⟩ := @ihBelow path₁
      (callback (pathOf root (route ++ [name])) arg) (route ++ [name]) depth hbelow
      (fun r hr => hfits r ((hmem r).mpr (Or.inr (Or.inl hr)))) (by omega) hpath₁
    obtain ⟨path₃, hwrite, hpath₃⟩ := hpath₂.cut hpath.length_lt
    rw [pathOf_concat, List.take_left] at hpath₃
    -- its siblings
    obtain ⟨path', hrest, hpath'⟩ := @ihNext path₃
      (callAll callback ((below.routes (route ++ [name])).map (pathOf root))
        (callback (pathOf root (route ++ [name])) arg)) route (depth + 1) hnext
      (fun r hr => hfits r ((hmem r).mpr (Or.inr (Or.inr hr)))) hdepth.2 hpath₃
    refine ⟨path', ?_, hpath'⟩
    rw [Forest.names, List.foldlM_cons, henter, listDir_succ hpath₁, hnames, hwalk,
      Option.bind_some, hwrite, Option.map_some, Option.bind_eq_bind, Option.bind_some, hrest]
    simp [Forest.routes, callAll]

/-- **When one does not fit**, the path is empty in the end. -/
theorem foldlM_of_long (hbelow : HoldsBelow opendir root route tree)
    (hlong : ¬∀ r ∈ tree.routes route, (pathOf root r).length < PATH_MAX)
    (hdepth : tree.depth ≤ depth)
    (hpath : PathIs path (pathOf root route)) {state : List UInt8 × α}
    (hrun : tree.names.foldlM (enterStep (listDir opendir callback depth)) (path, arg) =
      some state) :
    readString state.1 = some [] := by
  induction tree generalizing route path arg depth state with
  | nil => exact absurd (fun r hr => absurd hr List.not_mem_nil) hlong
  | node name below next ihBelow ihNext =>
    obtain ⟨hchild, hnext⟩ := hbelow
    have hdepth' := hdepth
    rw [Forest.depth, Nat.max_le] at hdepth
    obtain ⟨depth, rfl⟩ := Nat.exists_eq_add_of_le' (Nat.le_of_add_left_le hdepth.1)
    rw [Forest.names, List.foldlM_cons] at hrun
    obtain ⟨state₁, henter, hrest⟩ := Option.bind_eq_some_iff.mp hrun
    by_cases hname : (pathOf root (route ++ [name])).length < PATH_MAX
    · -- the name fits: its subdirectory is walked
      obtain ⟨hnames, hbelow⟩ := hchild hname
      rw [pathOf_concat] at hname
      obtain ⟨path₁, hpath₁, hcall⟩ := @enter_of_fits α path _ name arg hpath hname
      rw [← pathOf_concat] at hpath₁
      rw [hcall, listDir_succ hpath₁, hnames] at henter
      obtain ⟨state₂, hwalk, hcut⟩ := Option.bind_eq_some_iff.mp henter
      by_cases hfits : ∀ r ∈ below.routes (route ++ [name]), (pathOf root r).length < PATH_MAX
      · -- the subdirectory is fine, so one of its siblings is not
        obtain ⟨path₂, hwalk', hpath₂⟩ := @foldlM_of_fits α path₁ opendir callback
          (callback (pathOf root (route ++ [name])) arg) root below (route ++ [name]) depth
          hbelow hfits (by omega) hpath₁
        obtain rfl := Option.some.inj (hwalk'.symm.trans hwalk)
        obtain ⟨path₃, hwrite, hpath₃⟩ := hpath₂.cut hpath.length_lt
        rw [pathOf_concat, List.take_left] at hpath₃
        rw [hwrite, Option.map_some] at hcut
        obtain rfl := Option.some.inj hcut
        refine ihNext hnext (fun hall => hlong fun r hr => ?_) hdepth.2 hpath₃ hrest
        rw [Forest.routes, List.mem_cons, List.mem_append] at hr
        rcases hr with rfl | hr | hr
        · rw [pathOf_concat]
          exact hname
        · exact hfits r hr
        · exact hall r hr
      · have hempty := ihBelow hbelow hfits (by omega) hpath₁ hwalk
        -- the subdirectory has emptied the path
        obtain ⟨path₃, hwrite, rfl⟩ := Option.map_eq_some_iff.mp hcut
        exact foldlM_of_empty (readString_of_writeAt hempty hwrite) hrest
    · -- the name does not fit: the path is empty from here on
      rw [pathOf_concat, not_lt] at hname
      obtain ⟨path', hcall, hpath'⟩ := @enter_of_long α path _ name arg hpath hname
        (listDir opendir callback (depth + 1))
      obtain rfl := Option.some.inj (hcall.symm.trans henter)
      exact foldlM_of_empty hpath'.string hrest

/-- The paths that fit are all of them. -/
theorem visited_of_fits (hroot : root.length < PATH_MAX)
    (hfits : ∀ r ∈ tree.routes [], (pathOf root r).length < PATH_MAX) :
    visited root tree = root :: (tree.routes []).map (pathOf root) := by
  have hempty : pathOf root [] = root := List.append_nil root
  rw [visited, List.map_cons, hempty]
  refine List.filter_eq_self.mpr fun path hmem => decide_eq_true ?_
  rcases List.mem_cons.mp hmem with rfl | hmem
  · exact hroot
  · obtain ⟨r, hr, rfl⟩ := List.mem_map.mp hmem
    exact hfits r hr

theorem visitsAndRestores_of_fits (htree : HoldsTree opendir root tree) (hpath : PathIs path root)
    (hfits : ∀ r ∈ tree.routes [], (pathOf root r).length < PATH_MAX) :
    VisitsAndRestores opendir callback root tree path arg := by
  have hempty : pathOf root [] = root := List.append_nil root
  refine ⟨tree.depth + 1, fun depth hdepth => ?_⟩
  obtain ⟨depth, rfl⟩ := Nat.exists_eq_add_of_le' (Nat.one_le_of_lt hdepth)
  have hroot : PathIs path (pathOf root []) := by
    rw [hempty]
    exact hpath
  obtain ⟨path', hrun, hpath'⟩ := @foldlM_of_fits α path opendir callback (callback root arg) root
    tree [] depth htree.2 hfits (by omega) hroot
  rw [hempty] at hpath'
  refine ⟨path', ?_, hpath'.string⟩
  rw [listDir_succ hpath, htree.1, hrun, visited_of_fits hpath.length_lt hfits]
  rfl

theorem not_visitsAndRestores_of_long (hopendir : opendir [] = none)
    (htree : HoldsTree opendir root tree) (hpath : PathIs path root)
    (hlong : ¬∀ r ∈ tree.routes [], (pathOf root r).length < PATH_MAX) :
    ¬VisitsAndRestores opendir callback root tree path arg := by
  rintro ⟨depth, hall⟩
  have hempty : pathOf root [] = root := List.append_nil root
  have hroot : PathIs path (pathOf root []) := by
    rw [hempty]
    exact hpath
  obtain ⟨path', hrun, hrestored⟩ := hall (max depth tree.depth + 1) (by omega)
  rw [listDir_succ hpath, htree.1] at hrun
  have hlost := foldlM_of_long htree.2 hlong (Nat.le_max_right depth _) hroot hrun
  obtain rfl := Option.some.inj (hlost.symm.trans hrestored)
  -- the empty path has no subdirectories
  have hnames := htree.1
  rw [hopendir] at hnames
  cases tree with
  | nil => exact hlong fun r hr => absurd hr List.not_mem_nil
  | node name below next => exact absurd hnames (by simp [subdirNames, Forest.names])

/-- **The walk** visits the directories of a tree in preorder and leaves the path as it was exactly
when all their paths fit. -/
theorem listDir_visits_iff (hopendir : opendir [] = none) (htree : HoldsTree opendir root tree)
    (hpath : PathIs path root) :
    VisitsAndRestores opendir callback root tree path arg ↔
      ∀ r ∈ tree.routes [], (pathOf root r).length < PATH_MAX :=
  ⟨fun h => not_not.mp fun hlong => not_visitsAndRestores_of_long hopendir htree hpath hlong h,
    visitsAndRestores_of_fits htree hpath⟩

/-- A name that is one letter some times. -/
def sameLetter (b : UInt8) (n : ℕ) (hzero : b ≠ 0) (hslash : b ≠ 47) : FileName where
  bytes := List.replicate n b
  zero_not_mem := fun h => hzero (List.eq_of_mem_replicate h).symm
  slash_not_mem := fun h => hslash (List.eq_of_mem_replicate h).symm

/-- A directory with one subdirectory. -/
def oneSubdir (root : List UInt8) (name : FileName) : List UInt8 → Option (List Dirent) :=
  fun path => if path = root then some [⟨name, DT_DIR⟩] else none

theorem holdsTree_oneSubdir (root : List UInt8) {name : FileName} (hdot : name.bytes ≠ [46])
    (hdots : name.bytes ≠ [46, 46]) :
    HoldsTree (oneSubdir root name) root (.node name .nil .nil) := by
  have hpath : pathOf root ([] ++ [name]) ≠ root := by
    intro heq
    rw [pathOf_concat] at heq
    exact absurd (congrArg List.length heq) (by simp [pathOf])
  refine ⟨?_, fun _ => ⟨?_, trivial⟩, trivial⟩
  · rw [oneSubdir, if_pos rfl]
    simp [subdirNames, Forest.names, Dirent.IsSubdir, hdot, hdots]
  · rw [oneSubdir, if_neg hpath]
    rfl

/-- A path in its block. -/
def pathBlock (name : List UInt8) : List UInt8 :=
  name ++ 0 :: List.replicate (PATH_MAX - (name.length + 1)) 0

theorem pathIs_pathBlock (hzero : 0 ∉ name) (hlength : name.length < PATH_MAX) :
    PathIs (pathBlock name) name := by
  refine ⟨readString_append hzero, ?_⟩
  rw [pathBlock, List.length_append, List.length_cons, List.length_replicate]
  omega

/-- The directories `/a` and `/a/b`. -/
theorem visitsAndRestores_oneSubdir :
    VisitsAndRestores (oneSubdir [47, 97] (sameLetter 98 1 (by decide) (by decide)))
      (fun name calls => calls ++ [name]) [47, 97]
      (.node (sameLetter 98 1 (by decide) (by decide)) .nil .nil) (pathBlock [47, 97])
      ([] : List (List UInt8)) :=
  (listDir_visits_iff (by decide) (holdsTree_oneSubdir [47, 97] (by decide) (by decide))
    (pathIs_pathBlock (by decide) (by decide))).mpr (by decide)

/-- A path of 4080 bytes, of names of 254 letters. -/
def longRoot : List UInt8 := (List.replicate 16 (47 :: List.replicate 254 97)).flatten

theorem length_longRoot : longRoot.length = 4080 := by
  rw [longRoot, List.length_flatten, List.map_replicate, List.length_cons, List.length_replicate]
  rfl

theorem zero_not_mem_longRoot : 0 ∉ longRoot := by
  intro h
  obtain ⟨component, hcomponent, hmem⟩ := List.mem_flatten.mp h
  rw [List.eq_of_mem_replicate hcomponent, List.mem_cons] at hmem
  rcases hmem with hmem | hmem
  · exact absurd hmem (by decide)
  · exact absurd (List.eq_of_mem_replicate hmem) (by decide)

/-- Behind this path, a subdirectory with a name of 20 letters does not fit, and the path is
lost. -/
theorem not_visitsAndRestores_long :
    ¬∀ (opendir : List UInt8 → Option (List Dirent)) (root path : List UInt8)
      (tree : Forest FileName), opendir [] = none → HoldsTree opendir root tree → PathIs path root →
      VisitsAndRestores opendir (fun name calls => calls ++ [name]) root tree path
        ([] : List (List UInt8)) := by
  intro hall
  have hopendir : oneSubdir longRoot (sameLetter 98 20 (by decide) (by decide)) [] = none := by
    refine if_neg fun heq => ?_
    have hlength := length_longRoot
    rw [← heq] at hlength
    exact absurd hlength (by decide)
  have htree := holdsTree_oneSubdir longRoot
    (show (sameLetter 98 20 (by decide) (by decide)).bytes ≠ [46] by decide) (by decide)
  have hpath := pathIs_pathBlock zero_not_mem_longRoot (by rw [length_longRoot]; decide)
  refine not_visitsAndRestores_of_long hopendir htree hpath (fun hfits => ?_)
    (hall _ _ _ _ hopendir htree hpath)
  have hfit := hfits _ (List.mem_cons_self)
  rw [pathOf_concat, List.length_append, pathOf, List.flatMap_nil, List.append_nil,
    length_longRoot] at hfit
  exact absurd hfit (by decide)

end IotDeviceSdk.Service
