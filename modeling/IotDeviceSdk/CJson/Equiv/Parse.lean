import IotDeviceSdk.CJson.Equiv.ParseComplete

/-!
# `cJSON_ParseWithLengthOpts`

* `parseWithLengthOpts_safe`: a parse of a buffer that does not end in a comma reads and writes
  inside its blocks only, and all it allocates belongs to the item it returns.
* `parseWithLengthOpts_sound`: the item it returns stands for the value the text has.
* `parseWithLengthOpts_complete`: it accepts JSON when no allocation fails.

A buffer with the terminator of its text in it does not end in a comma.  In one that does, in an
object, `parse_string` would look for the quote of the next name behind the end.
-/

namespace IotDeviceSdk.Json

open Prog

variable {env : ParseEnv} {s : ParseState} {base : List ℕ}

/-- What `skip_utf8_bom` passes is a byte order mark or nothing. -/
theorem bom_of_drop (content : List UInt8) :
    ∃ bom, content = bom ++ content.drop (bomLength content) ∧
      (bom = [] ∨ bom = byteOrderMark) := by
  unfold bomLength
  split_ifs with h
  · obtain ⟨rest, hrest⟩ := h.2
    refine ⟨byteOrderMark, ?_, .inr rfl⟩
    rw [← hrest, List.drop_left]
  · exact ⟨[], rfl, .inl rfl⟩

/-- What `cJSON_ParseWithLengthOpts` leaves when it succeeds. -/
structure RootParsed (content : List UInt8) (require_null_terminated : Bool) (base : List ℕ)
    (item : Item) (s' : ParseState) : Prop where
  offset_le : s'.offset ≤ content.length
  live : s'.heap.live.Perm (item.blocks ++ base)
  value : ∃ v ws, item.value = some v ∧ (∀ b ∈ ws, lenient.Blank b) ∧
    lenient.Document CJSON_NESTING_LIMIT content v (ws ++ content.drop s'.offset)
  terminated : require_null_terminated = true → ∃ rest, content.drop s'.offset = 0 :: rest

theorem parseRoot_sound (hlast : env.content.getLast? ≠ some 44) {require_null_terminated : Bool}
    (hoffset : s.offset = 0) (hdepth : s.depth = 0) (hlive : s.heap.live.Perm base) :
    Wp env (parseRoot require_null_terminated) (fun r s' => r.elim (s'.heap.live.Perm base) fun item =>
      RootParsed env.content require_null_terminated base item s') s := by
  unfold parseRoot
  rw [wp_bind]
  apply wp_newItem
  · intro address heap hheap
    have hlive₁ : heap.live.Perm ((Item.blank address).blocks ++ base) := by
      rw [hheap]
      exact hlive.cons address
    have hbom : bomLength env.content ≤ env.content.length := by
      unfold bomLength
      split_ifs with h
      · exact h.2.length_le
      · exact Nat.zero_le _
    obtain ⟨bom, hcontent, hbom'⟩ := bom_of_drop env.content
    obtain ⟨ws, hws, hblank⟩ := drop_skipTo env.content (bomLength env.content)
    dsimp only
    rw [wp_bind, wp_skipUtf8Bom (s := { s with heap := heap }) hoffset, wp_bind,
      wp_bufferSkipWhitespace, wp_bind]
    dsimp only
    have hparse := @parseValue_sound env 0 hlast (CJSON_NESTING_LIMIT + 1) (Nat.le_refl _)
      (Nat.zero_le _)
    refine Wp.mono (hparse (.blank address) _ base (Item.fresh_blank address) (skipTo_le hbom)
      hdepth hlive₁) ?_
    intro r s₂ hr
    cases r with
    -- the root is freed with what was parsed
    | none =>
      dsimp only
      rw [wp_bind]
      refine @wp_deleteItems _ _ _ [Item.blank address] _ hr ?_
      intro heap' hheap'
      rw [wp_pure]
      exact hheap'
    | some item =>
      obtain ⟨-, hle, -, -, hlive₂, v, hv, hvalue⟩ := hr
      -- the byte order mark, the blanks and the value are a document
      have hdocument : lenient.Document CJSON_NESTING_LIMIT env.content v
          (env.content.drop s₂.offset) := by
        refine ⟨bom, ws, _, ?_, hbom', hblank, hvalue⟩
        rw [← hws]
        exact hcontent
      dsimp only
      rw [wp_ite, wp_pure]
      refine ⟨fun hrequire => ?_, fun hrequire => ?_⟩
      · -- what follows may be blank up to the terminator
        rw [wp_bind, wp_bufferSkipWhitespace, wp_bind, wp_isAt, wp_ite, wp_pure]
        obtain ⟨ws', hws', hblank'⟩ := drop_skipTo env.content s₂.offset
        constructor
        · intro _
          rw [wp_bind]
          refine @wp_deleteItems _ _ _ [item] base ?_ ?_
          · rw [Item.listBlocks_singleton]
            exact hlive₂
          · intro heap' hheap'
            rw [wp_pure]
            exact hheap'
        · intro hzero
          simp only [Bool.not_eq_true, Bool.not_eq_false'] at hzero
          rw [hws'] at hdocument
          exact ⟨skipTo_le hle, hlive₂, ⟨v, ws', hv, hblank', hdocument⟩,
            fun _ => nextIs_iff.mp hzero⟩
      · refine ⟨hle, hlive₂, ⟨v, [], hv, ?_, hdocument⟩, fun h => absurd h hrequire⟩
        intro b hb
        cases hb
  · intro heap hheap _
    dsimp only
    rw [wp_pure]
    show heap.live.Perm base
    rw [hheap]
    exact hlive

/-- The state `cJSON_ParseWithLengthOpts` leaves. -/
theorem parseWithLengthOpts_spec (mallocs : ℕ → Bool) {content : List UInt8}
    (hlast : content.getLast? ≠ some 44) (require_null_terminated : Bool) (heap : Heap) :
    ∃ result heap', parseWithLengthOpts mallocs content require_null_terminated heap =
        some (result, heap') ∧ result.parse_end ≤ content.length ∧
      result.item.elim (heap'.live.Perm heap.live) fun item => ∃ depth,
        RootParsed content require_null_terminated heap.live item ⟨result.parse_end, depth, heap'⟩ := by
  unfold parseWithLengthOpts
  split_ifs with hempty
  · exact ⟨_, heap, rfl, Nat.zero_le _, List.Perm.refl _⟩
  · obtain ⟨r, s', hroot, hr⟩ := @parseRoot_sound ⟨content, mallocs⟩ ⟨0, 0, heap⟩ heap.live hlast
      require_null_terminated rfl rfl (List.Perm.refl _)
    rw [hroot]
    cases r with
    | none =>
      refine ⟨_, s'.heap, rfl, ?_, hr⟩
      dsimp only
      split_ifs with hlt
      · exact hlt.le
      · exact Nat.sub_le _ _
    | some item => exact ⟨_, s'.heap, rfl, hr.offset_le, s'.depth, hr⟩

/-- **A parse is memory safe**: it is defined, which is to say that no access leaves its block, and
what it leaves allocated is what `cJSON_Delete` of its result frees. -/
theorem parseWithLengthOpts_safe (mallocs : ℕ → Bool) {content : List UInt8}
    (hlast : content.getLast? ≠ some 44) (require_null_terminated : Bool) (heap : Heap) :
    ∃ result heap', parseWithLengthOpts mallocs content require_null_terminated heap =
        some (result, heap') ∧ result.parse_end ≤ content.length ∧
      ∃ heap'', delete result.item.toList heap' = some heap'' ∧ heap''.live.Perm heap.live := by
  obtain ⟨result, heap', hparse, hle, hr⟩ :=
    parseWithLengthOpts_spec mallocs hlast require_null_terminated heap
  refine ⟨result, heap', hparse, hle, ?_⟩
  cases hitem : result.item with
  | none =>
    rw [hitem] at hr
    exact ⟨heap', rfl, hr⟩
  | some item =>
    rw [hitem] at hr
    obtain ⟨depth, hr⟩ := hr
    apply delete_of_perm
    show heap'.live.Perm (Item.listBlocks [item] ++ heap.live)
    rw [Item.listBlocks_singleton]
    exact hr.live

/-- The list `[1,2]` with a third allocation that fails. -/
theorem parseWithLengthOpts_safe_list :
    ∃ result heap', parseWithLengthOpts (fun n => n ≠ 2) [91, 49, 44, 50, 93, 0] true ⟨0, []⟩ =
        some (result, heap') ∧ result.parse_end ≤ 6 ∧
      ∃ heap'', delete result.item.toList heap' = some heap'' ∧ heap''.live.Perm [] :=
  parseWithLengthOpts_safe _ (by decide) true ⟨0, []⟩

/-- In a buffer that ends in a comma a name is looked for behind the end. -/
example : parseWithLengthOpts (fun _ => true) [123, 34, 97, 34, 58, 110, 117, 108, 108, 44] false
    ⟨0, []⟩ = none := rfl

/-- **A parse is sound**: the item stands for a value that the text has in front of the position the
parse ends at, and that is not nested deeper than the limit. -/
theorem parseWithLengthOpts_sound {mallocs : ℕ → Bool} {content : List UInt8}
    (hlast : content.getLast? ≠ some 44) {require_null_terminated : Bool} {heap heap' : Heap}
    {item : Item} {parse_end : ℕ}
    (h : parseWithLengthOpts mallocs content require_null_terminated heap =
      some (⟨some item, parse_end⟩, heap')) :
    ∃ v ws, item.value = some v ∧ v.nesting ≤ CJSON_NESTING_LIMIT ∧ (∀ b ∈ ws, lenient.Blank b) ∧
      lenient.Document CJSON_NESTING_LIMIT content v (ws ++ content.drop parse_end) ∧
      (require_null_terminated = true → ∃ rest, content.drop parse_end = 0 :: rest) := by
  obtain ⟨result, heap'', hparse, -, hr⟩ :=
    parseWithLengthOpts_spec mallocs hlast require_null_terminated heap
  rw [h] at hparse
  obtain ⟨rfl, rfl⟩ := Prod.mk.inj (Option.some.inj hparse)
  obtain ⟨depth, hr⟩ := hr
  obtain ⟨v, ws, hv, hws, hdocument⟩ := hr.value
  obtain ⟨bom, before, input, hcontent, hbom, hblank, hvalue⟩ := id hdocument
  exact ⟨v, ws, hv, Dialect.Value.nesting_le hvalue, hws, hdocument, hr.terminated⟩

/-- The list `[null]`. -/
theorem parseWithLengthOpts_sound_list :
    ∃ v ws, v.nesting ≤ CJSON_NESTING_LIMIT ∧ (∀ b ∈ ws, lenient.Blank b) ∧
      lenient.Document CJSON_NESTING_LIMIT [91, 110, 117, 108, 108, 93, 0] v (ws ++ [0]) := by
  have hparse : parseWithLengthOpts (fun _ => true) [91, 110, 117, 108, 108, 93, 0] true ⟨0, []⟩ =
      some (⟨some { Item.blank 0 with
        type := .array, child := [{ Item.blank 1 with type := .null }] }, 6⟩, ⟨2, [1, 0]⟩) := rfl
  obtain ⟨v, ws, -, hnesting, hws, hdocument, -⟩ := parseWithLengthOpts_sound (by decide) hparse
  exact ⟨v, ws, hnesting, hws, hdocument⟩

/-! ### Completeness -/

/-- What stands behind the byte order mark of a text. -/
theorem drop_bomLength {bom ws input content rest : List UInt8} {level : ℕ} {v : CJson}
    (hcontent : content = bom ++ (ws ++ input)) (hbom : bom = [] ∨ bom = byteOrderMark)
    (hlength : bom = [] ∨ 4 < content.length) (hws : ∀ b ∈ ws, strict.Blank b)
    (hvalue : strict.Value level input v rest) :
    content.drop (bomLength content) = ws ++ input := by
  rcases hbom with rfl | rfl
  · -- no text starts with a byte order mark
    have hno : ¬byteOrderMark <+: content := by
      rintro ⟨more, hmore⟩
      obtain ⟨c, input', rfl, hc⟩ := strict_head hvalue
      rw [hcontent, List.nil_append] at hmore
      cases ws with
      | nil =>
        obtain ⟨rfl, -⟩ := List.cons.inj hmore
        cases hc with
        | number hc => exact absurd hc (by decide)
      | cons b ws =>
        obtain ⟨rfl, -⟩ := List.cons.inj hmore
        exact absurd (isWhitespace_of_strict (hws _ List.mem_cons_self)) (by decide)
    rw [bomLength, if_neg fun h => hno h.2]
    exact hcontent
  · have hlong : 4 < content.length := hlength.resolve_left (by decide)
    rw [bomLength, if_pos ⟨hlong, ⟨_, hcontent.symm⟩⟩, hcontent, List.drop_left]

theorem parseRoot_complete (hmallocs : ∀ n, env.mallocs n = true) {require_null_terminated : Bool}
    {bom before input rest : List UInt8} {v : CJson}
    (hcontent : env.content = bom ++ (before ++ input)) (hbom : bom = [] ∨ bom = byteOrderMark)
    (hlength : bom = [] ∨ 4 < env.content.length) (hbefore : ∀ b ∈ before, strict.Blank b)
    (hvalue : strict.Value CJSON_NESTING_LIMIT input v rest)
    (hrest : require_null_terminated = true → ∃ ws, rest = ws ++ [0] ∧ ∀ b ∈ ws, strict.Blank b)
    (hoffset : s.offset = 0) (hdepth : s.depth = 0) :
    Wp env (parseRoot require_null_terminated) (fun r _ => ∃ item, r = some item ∧
      item.value = some v) s := by
  have hbehind := drop_bomLength hcontent hbom hlength hbefore hvalue
  obtain ⟨c, input', rfl, hc⟩ := strict_head hvalue
  have hskip := drop_skipTo_of_append hbehind hbefore hc.not_whitespace
  unfold parseRoot
  rw [wp_bind]
  apply wp_newItem
  · intro address heap hheap
    dsimp only
    rw [wp_bind, wp_skipUtf8Bom (s := { s with heap := heap }) hoffset, wp_bind,
      wp_bufferSkipWhitespace, wp_bind]
    dsimp only
    have hparse := @parseValue_complete env 0 hmallocs CJSON_NESTING_LIMIT (CJSON_NESTING_LIMIT + 1)
      (Nat.le_refl _) (Nat.lt_succ_self _)
    rw [← hskip] at hvalue
    refine Wp.mono (hparse (.blank address) _ v rest (lt_of_drop_cons hskip).le hdepth hvalue) ?_
    rintro r _ ⟨item, rfl, hitem, -, -, hle₂, hrest₂⟩
    dsimp only
    rw [wp_ite, wp_pure]
    refine ⟨fun hrequire => ?_, fun _ => ⟨item, rfl, hitem⟩⟩
    obtain ⟨ws, rfl, hws⟩ := hrest hrequire
    have hblank : ∀ b ∈ ws ++ [0], isWhitespace b = true := by
      intro b hb
      rcases List.mem_append.mp hb with hb | hb
      · exact isWhitespace_of_strict (hws b hb)
      · obtain rfl := List.mem_singleton.mp hb
        decide
    rw [wp_bind, wp_bufferSkipWhitespace, wp_bind, wp_isAt, wp_ite, wp_pure,
      nextIs_of_drop 0 (drop_skipTo_of_end hrest₂ hblank)]
    exact ⟨fun hno => absurd hno (by decide), fun _ => ⟨item, rfl, hitem⟩⟩
  · rintro heap - ⟨k, hk⟩
    rw [hmallocs k] at hk
    cases hk

/-- **A parse is complete**: JSON that is not nested deeper than the limit is accepted with its
value, when no allocation fails. -/
theorem parseWithLengthOpts_complete {mallocs : ℕ → Bool} (hmallocs : ∀ n, mallocs n = true)
    {content bom before input rest : List UInt8} {v : CJson}
    (hcontent : content = bom ++ (before ++ input)) (hbom : bom = [] ∨ bom = byteOrderMark)
    (hlength : bom = [] ∨ 4 < content.length) (hbefore : ∀ b ∈ before, strict.Blank b)
    (hvalue : strict.Value CJSON_NESTING_LIMIT input v rest) {require_null_terminated : Bool}
    (hrest : require_null_terminated = true → ∃ ws, rest = ws ++ [0] ∧ ∀ b ∈ ws, strict.Blank b)
    (heap : Heap) :
    ∃ item parse_end heap', parseWithLengthOpts mallocs content require_null_terminated heap =
      some (⟨some item, parse_end⟩, heap') ∧ item.value = some v := by
  obtain ⟨r, s', hroot, item, rfl, hitem⟩ := @parseRoot_complete ⟨content, mallocs⟩ ⟨0, 0, heap⟩
    hmallocs require_null_terminated bom before input rest v hcontent hbom hlength hbefore hvalue
    hrest rfl rfl
  have hempty : content.length ≠ 0 := by
    intro hzero
    obtain ⟨c, input', rfl, -⟩ := strict_head hvalue
    rw [hcontent] at hzero
    simp at hzero
  refine ⟨item, s'.offset, s'.heap, ?_, hitem⟩
  rw [parseWithLengthOpts, if_neg hempty, hroot]
  rfl

/-- **Every JSON text is accepted** with its value, when no allocation fails: as a C string, behind a
byte order mark or none, with more text behind it unless the terminator has to follow. -/
theorem parseWithOpts_complete {mallocs : ℕ → Bool} (hmallocs : ∀ n, mallocs n = true)
    {value : CString} {after : List UInt8} {v : CJson} {require_null_terminated : Bool}
    (hvalue : strict.Document CJSON_NESTING_LIMIT (value.bytes ++ [0]) v (after ++ [0]))
    (hafter : require_null_terminated = true → ∀ b ∈ after, strict.Blank b) (heap : Heap) :
    ∃ item parse_end heap', parseWithOpts mallocs value require_null_terminated heap =
      some (⟨some item, parse_end⟩, heap') ∧ item.value = some v := by
  obtain ⟨bom, before, input, hcontent, hbom, hbefore, hinput⟩ := hvalue
  have hlength : bom = [] ∨ 4 < (value.bytes ++ [0]).length := by
    have hlt := strict_length_lt hinput
    rcases hbom with rfl | rfl
    · exact .inl rfl
    · right
      rw [hcontent, List.length_append, List.length_append]
      have hthree : byteOrderMark.length = 3 := rfl
      rw [List.length_append, List.length_singleton] at hlt
      omega
  exact parseWithLengthOpts_complete hmallocs hcontent hbom hlength hbefore hinput
    (fun hrequire => ⟨after, rfl, hafter hrequire⟩) heap

/-- The element `null`, and an object with an empty array below its key, with blanks around each
token and behind the text. -/
theorem parseWithOpts_complete_nested :
    ∃ item parse_end heap', parseWithOpts (fun _ => true)
      ⟨ascii " [ null , \x7b \"a\" : [ ] \x7d ] ", by decide⟩ true ⟨0, []⟩ =
        some (⟨some item, parse_end⟩, heap') ∧
      item.value = some (.array [.null, .object [("a", .array [])]]) := by
  have hblank : ∀ b ∈ [(32 : UInt8)], strict.Blank b := by
    rintro b hb
    rw [List.mem_singleton.mp hb]
    exact .inr (.inr (.inr rfl))
  have hkey : strict.Str (ascii "\"a\" : [ ] \x7d ] " ++ [0]) "a"
      ([32] ++ 58 :: ([32] ++ (ascii "[ ] \x7d ] " ++ [0]))) :=
    ⟨[97], [97], rfl, .byte (by decide) (by decide) .nil, .token (.byte (by decide)) .nil,
      List.forall_mem_singleton.mpr (by decide), by decide, by decide⟩
  have hempty : strict.Value 998 (ascii "[ ] \x7d ] " ++ [0]) (.array [])
      ([32] ++ 125 :: (ascii " ] " ++ [0])) :=
    (Dialect.Container.array (.empty hblank)).value rfl
  have hmember : strict.Member (strict.Value 998) (ascii "\"a\" : [ ] \x7d ] " ++ [0])
      ("a", .array []) ([32] ++ 125 :: (ascii " ] " ++ [0])) :=
    .mk hkey hblank hblank hempty
  have hobject : strict.Value 999 (ascii "\x7b \"a\" : [ ] \x7d ] " ++ [0])
      (.object [("a", .array [])]) ([32] ++ 93 :: ([32] ++ [0])) :=
    (Dialect.Container.object (.filled (.last hblank hmember hblank))).value rfl
  have hnull : strict.Value 999 (ascii "null , \x7b \"a\" : [ ] \x7d ] " ++ [0]) .null
      ([32] ++ 44 :: ([32] ++ (ascii "\x7b \"a\" : [ ] \x7d ] " ++ [0]))) :=
    Dialect.Scalar.null.value 999
  have harray : strict.Value CJSON_NESTING_LIMIT
      (ascii "[ null , \x7b \"a\" : [ ] \x7d ] " ++ [0])
      (.array [.null, .object [("a", .array [])]]) ([32] ++ [0]) :=
    (Dialect.Container.array
      (.filled (.more hblank hnull hblank (.last hblank hobject hblank)))).value rfl
  exact parseWithOpts_complete (fun _ => rfl)
    ⟨[], [32], _, rfl, .inl rfl, hblank, harray⟩ (fun _ => hblank) ⟨0, []⟩

end IotDeviceSdk.Json
