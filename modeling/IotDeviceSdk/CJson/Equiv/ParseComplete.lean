import IotDeviceSdk.CJson.Equiv.ParseValue

/-!
# The parser accepts JSON

When no allocation fails, `parse_value` reads every value of `strict` that is not nested deeper than
the nesting limit, and leaves what stands behind it.
-/

namespace IotDeviceSdk.Json

open Prog Text

variable {env : ParseEnv} {s : ParseState}

/-! ### Offsets -/

/-- What is left in front of the offset after a step over a text. -/
theorem drop_add_of_append {content text rest : List UInt8} {offset : ℕ}
    (h : content.drop offset = text ++ rest) : content.drop (offset + text.length) = rest := by
  rw [← List.drop_drop, h, List.drop_left]

theorem add_le_of_append {content text rest : List UInt8} {offset : ℕ}
    (h : content.drop offset = text ++ rest) (hoffset : offset ≤ content.length) :
    offset + text.length ≤ content.length := by
  have hlength := congrArg List.length h
  rw [List.length_append, List.length_drop] at hlength
  omega

theorem lt_of_drop_cons {content rest : List UInt8} {offset : ℕ} {c : UInt8}
    (h : content.drop offset = c :: rest) : offset < content.length :=
  lt_of_nextIs (nextIs_iff.mpr ⟨rest, h⟩)

/-- White space in front of another byte is skipped. -/
theorem drop_skipTo_of_append {content ws rest : List UInt8} {offset : ℕ} {c : UInt8}
    (h : content.drop offset = ws ++ c :: rest) (hws : ∀ b ∈ ws, strict.Blank b)
    (hc : isWhitespace c = false) : content.drop (skipTo content offset) = c :: rest := by
  rw [skipTo_of_append h (fun b hb => isWhitespace_of_strict (hws b hb)) hc]
  exact drop_add_of_append h

theorem nextIs_of_drop {content rest : List UInt8} {offset : ℕ} {b : UInt8} (c : UInt8)
    (h : content.drop offset = b :: rest) : nextIs content offset c = (b == c) := by
  rw [Bool.eq_iff_iff, nextIs_iff, beq_iff_eq, h]
  constructor
  · rintro ⟨rest', hrest⟩
    exact (List.cons.inj hrest).1
  · rintro rfl
    exact ⟨rest, rfl⟩

/-! ### Strings and numbers -/

/-- **`parse_string`** accepts every string of JSON. -/
theorem parseString_complete (hmallocs : ∀ n, env.mallocs n = true) {item : Item} {key : String}
    {rest : List UInt8} (h : strict.Str (env.content.drop s.offset) key rest) :
    Wp env (parseString item) (fun r s' => ∃ block,
      r = some { item with type := .string, valuestring := some block } ∧ block.text = key ∧
        s'.depth = s.depth ∧ s'.offset ≤ env.content.length ∧
        env.content.drop s'.offset = rest) s := by
  obtain ⟨body, t, hinput, hclosed, hspells, -, hzero, rfl⟩ := h
  have hoffset := lt_of_drop_cons hinput
  have hbody : env.content.drop (s.offset + 1) = body ++ 34 :: rest := by
    rw [← List.drop_drop, hinput]
    rfl
  have hrest : env.content.drop (s.offset + 1 + body.length + 1) = rest := by
    rw [← List.drop_drop, drop_add_of_append hbody]
    rfl
  have hle : s.offset + 1 + body.length + 1 ≤ env.content.length := by
    have hlength := congrArg List.length hbody
    rw [List.length_drop, List.length_append, List.length_cons] at hlength
    omega
  have hbyte : env.content[s.offset + 0]? = some 34 := by
    rw [← List.getElem?_drop, hinput]
    rfl
  unfold parseString
  rw [wp_bind, wp_get, wp_bind, wp_byteAt]
  refine ⟨34, hbyte, ?_⟩
  rw [wp_ite]
  refine ⟨fun hne => absurd rfl hne, fun _ => ?_⟩
  rw [wp_bind, wp_read, hbody]
  dsimp only
  rw [stringEnd_append hclosed rest]
  dsimp only
  rw [wp_bind]
  apply wp_allocate
  · intro address heap hheap
    -- the buffer has room for the decoded text and its terminator
    have hroom := hspells.room
    have hescapes : escapes body ≤ escapeBound body := le_max_left _ _
    have hunescape := @unescape_of_spells (body.length + 1 - escapes body + 1) body.length body t []
      hspells rest le_rfl (by rw [List.length_nil]; omega)
    have hemit : emit (body.length + 1 - escapes body + 1) t [0] = some (t ++ [0]) := by
      apply if_pos
      rw [List.length_singleton]
      omega
    dsimp only
    rw [wp_bind, wp_ofOption]
    refine ⟨_, hunescape, ?_⟩
    dsimp only
    rw [wp_bind, wp_ofOption]
    refine ⟨_, hemit, ?_⟩
    rw [wp_bind, wp_modify, wp_pure]
    refine ⟨⟨address, t ++ [0]⟩, rfl, ?_, rfl, hle, hrest⟩
    show textOfBytes (cString (t ++ [0])) = _
    rw [cString_append_zero hzero]
  · rintro heap - ⟨n, hn⟩
    rw [hmallocs n] at hn
    cases hn

/-- **`parse_number`** accepts every number of JSON with at most 63 bytes. -/
theorem parseNumber_complete {item : Item} {q : ℚ} {rest : List UInt8}
    (h : strict.Num (env.content.drop s.offset) q rest) (hoffset : s.offset ≤ env.content.length) :
    Wp env (parseNumber item) (fun r s' =>
      r = some { item with valuedouble := q, valueint := doubleToInt q, type := .number } ∧
        s'.depth = s.depth ∧ s'.offset ≤ env.content.length ∧
        env.content.drop s'.offset = rest) s := by
  obtain ⟨n, hn, hshort, hinput, hstop, rfl⟩ := h
  have hnumber : numberCString env.content s.offset = bytesOfChars n.text := by
    have hall : ∀ b ∈ bytesOfChars n.text, isNumberByte b = true := by
      intro b hb
      obtain ⟨c, hc, rfl⟩ := List.mem_map.mp hb
      exact (isNumberChar_of_mem hn.blank c hc).isNumberByte
    have hlength := length_bytesOfChars n.text
    unfold numberCString
    rw [hinput, List.take_append, List.take_of_length_le (by omega),
      List.takeWhile_append_of_pos hall]
    have hnil : (rest.take (63 - (bytesOfChars n.text).length)).takeWhile isNumberByte = [] := by
      cases rest with
      | nil => simp
      | cons b rest =>
        have hb := hstop b rfl
        cases 63 - (bytesOfChars n.text).length with
        | zero => rfl
        | succ k => rw [List.take_succ_cons, List.takeWhile_cons_of_neg (by simp [hb])]
    rw [hnil, List.append_nil]
  have hchars : charsOfBytes (numberCString env.content s.offset) = n.text := by
    rw [hnumber]
    exact charsOfBytes_bytesOfChars fun c hc => (isNumberChar_of_mem hn.blank c hc).toNat_lt
  have hpos := List.length_pos_iff.mpr n.text_ne_nil
  unfold parseNumber
  rw [wp_bind, wp_read, wp_bind, wp_get]
  dsimp only
  rw [hchars, n.strtod_text]
  dsimp only
  rw [wp_ite]
  refine ⟨fun hnone => absurd hnone hpos.ne, fun _ => ?_⟩
  rw [wp_bind, wp_advance, wp_pure, List.length_nil, Nat.sub_zero, ← length_bytesOfChars]
  exact ⟨rfl, rfl, add_le_of_append hinput hoffset, drop_add_of_append hinput⟩

/-! ### Arrays and objects -/

/-- A parser of values that accepts what `G` allows. -/
def CompleteValue (env : ParseEnv) (depth : ℕ) (G : List UInt8 → CJson → List UInt8 → Prop)
    (p : Item → Parse (Option Item)) : Prop :=
  ∀ item s v rest, s.offset ≤ env.content.length → s.depth = depth →
    G (env.content.drop s.offset) v rest →
    Wp env (p item) (fun r s' => ∃ item', r = some item' ∧ item'.value = some v ∧
      item'.string = item.string ∧ s'.depth = depth ∧ s'.offset ≤ env.content.length ∧
      env.content.drop s'.offset = rest) s

/-- The same of a parser of members. -/
def CompleteMember {β : Type} (env : ParseEnv) (depth : ℕ) (G : List UInt8 → β → List UInt8 → Prop)
    (val : Item → Option β) (p : Item → Parse (Bool × Item)) : Prop :=
  ∀ address s b rest, s.offset ≤ env.content.length → s.depth = depth →
    G (env.content.drop s.offset) b rest →
    Wp env (p (.blank address)) (fun r s' => r.1 = true ∧ val r.2 = some b ∧ s'.depth = depth ∧
      s'.offset ≤ env.content.length ∧ env.content.drop s'.offset = rest) s

section Members

variable {depth level : ℕ} {parseValue : Item → Parse (Option Item)}

theorem parseElement_complete {G : List UInt8 → CJson → List UInt8 → Prop}
    (h : CompleteValue env depth G parseValue) :
    CompleteMember env depth G Item.value (parseElement parseValue) := by
  intro address s b rest hoffset hdepth hG
  unfold parseElement
  rw [wp_bind]
  apply (h (.blank address) s b rest hoffset hdepth hG).mono
  rintro r s' ⟨item, rfl, hvalue, -, hs'⟩
  dsimp only
  rw [wp_pure]
  exact ⟨rfl, hvalue, hs'⟩

theorem parseMember_complete (hmallocs : ∀ n, env.mallocs n = true)
    (h : CompleteValue env depth (strict.Value level) parseValue) :
    CompleteMember env depth (strict.Member (strict.Value level)) Item.memberValue
      (parseMember parseValue) := by
  intro address s b rest hoffset hdepth hG
  generalize hinput : env.content.drop s.offset = input at hG
  cases hG with
  | @mk before after input' _ key v hstring hbefore hafter hv =>
    rw [← hinput] at hstring
    obtain ⟨c, input'', rfl, hc⟩ := strict_head hv
    unfold parseMember
    rw [wp_bind]
    apply (parseString_complete hmallocs hstring).mono
    rintro r s₁ ⟨block, rfl, rfl, hdepth₁, hle₁, hrest₁⟩
    have hcolon := drop_skipTo_of_append hrest₁ hbefore (by decide)
    have hinside := lt_of_drop_cons hcolon
    dsimp only
    rw [wp_bind, wp_bufferSkipWhitespace, wp_bind, wp_isAt, wp_ite, nextIs_of_drop 58 hcolon]
    refine ⟨fun hno => absurd hno (by decide), fun _ => ?_⟩
    rw [wp_bind, wp_advance, wp_bind, wp_bufferSkipWhitespace]
    have hbehind : env.content.drop (skipTo env.content s₁.offset + 1) = after ++ c :: input'' := by
      rw [← List.drop_drop, hcolon]
      rfl
    have hvalue := drop_skipTo_of_append hbehind hafter hc.not_whitespace
    unfold parseElement
    rw [wp_bind]
    rw [← hvalue] at hv
    refine Wp.mono (h _ _ v rest (lt_of_drop_cons hvalue).le (hdepth₁.trans hdepth) hv) ?_
    rintro r s' ⟨item, rfl, hitem, hkey, hs'⟩
    dsimp only
    rw [wp_pure]
    refine ⟨rfl, ?_, hs'⟩
    unfold Item.memberValue
    rw [hkey, hitem]
    rfl

end Members

section Items

variable {β : Type} {depth : ℕ} {G : List UInt8 → β → List UInt8 → Prop} {val : Item → Option β}
  {parseMember : Item → Parse (Bool × Item)}

/-- One round of the loop, with the byte behind the member and its blanks. -/
theorem itemsLoop_round (hmallocs : ∀ n, env.mallocs n = true)
    (hmember : CompleteMember env depth G val parseMember)
    (hhead : ∀ input b rest, G input b rest → ∃ c input', input = c :: input' ∧
      isWhitespace c = false) {before input after rest : List UInt8} {b : β} {c : UInt8}
    (hinput : env.content.drop (s.offset + 1) = before ++ input)
    (hbefore : ∀ b ∈ before, strict.Blank b) (hb : G input b (after ++ c :: rest))
    (hafter : ∀ b ∈ after, strict.Blank b) (hc : isWhitespace c = false) (hdepth : s.depth = depth)
    {n : ℕ} {head : List Item} {Q : Option (List Item) → ParseState → Prop}
    (hQ : ∀ item s', val item = some b → s'.depth = depth → s'.offset ≤ env.content.length →
      env.content.drop s'.offset = c :: rest →
      (c = 44 → Wp env (itemsLoop parseMember n (head ++ [item])) Q s') ∧
        (c ≠ 44 → Q (some (head ++ [item])) s')) :
    Wp env (itemsLoop parseMember (n + 1) head) Q s := by
  obtain ⟨first, input', rfl, hfirst⟩ := hhead _ _ _ hb
  have hskip := drop_skipTo_of_append hinput hbefore hfirst
  rw [itemsLoop, wp_bind]
  apply wp_newItem
  · intro address heap hheap
    dsimp only
    rw [wp_bind, wp_advance, wp_bind, wp_bufferSkipWhitespace, wp_bind]
    rw [← hskip] at hb
    refine Wp.mono (hmember address _ b (after ++ c :: rest) (lt_of_drop_cons hskip).le hdepth hb) ?_
    rintro ⟨parsed, item⟩ s₂ ⟨rfl, hitem, hdepth₂, hle₂, hrest₂⟩
    have hnext := drop_skipTo_of_append hrest₂ hafter hc
    obtain ⟨hcomma, hother⟩ := hQ item { s₂ with offset := skipTo env.content s₂.offset } hitem
      hdepth₂ (lt_of_drop_cons hnext).le hnext
    dsimp only
    rw [wp_ite]
    refine ⟨fun hfalse => absurd hfalse Bool.false_ne_true, fun _ => ?_⟩
    rw [wp_bind, wp_bufferSkipWhitespace, wp_bind, wp_isAt, wp_ite, wp_pure, nextIs_of_drop 44 hnext,
      beq_iff_eq]
    exact ⟨hcomma, hother⟩
  · rintro heap - ⟨k, hk⟩
    rw [hmallocs k] at hk
    cases hk

/-- **The loop of `parse_array` and `parse_object`** reads all members up to the closing byte. -/
theorem itemsLoop_complete (hmallocs : ∀ n, env.mallocs n = true)
    (hmember : CompleteMember env depth G val parseMember)
    (hhead : ∀ input b rest, G input b rest → ∃ c input', input = c :: input' ∧
      isWhitespace c = false) {input rest : List UInt8} {bs : List β} {closing : UInt8}
    (hclosing : isWhitespace closing = false ∧ closing ≠ 44)
    (h : Separated strict.Blank 44 G input bs (closing :: rest)) {n : ℕ} (hn : bs.length ≤ n)
    {head : List Item} {as : List β} (hvals : head.mapM val = some as) (hdepth : s.depth = depth)
    (hinput : env.content.drop (s.offset + 1) = input) :
    Wp env (itemsLoop parseMember n head) (fun r s' => ∃ items, r = some items ∧
      items.mapM val = some (as ++ bs) ∧ s'.depth = depth ∧ s'.offset ≤ env.content.length ∧
      env.content.drop s'.offset = closing :: rest) s := by
  generalize hend : closing :: rest = last at h
  induction h generalizing s n head as with
  | @last before input after last b hbefore hb hafter =>
    subst hend
    obtain ⟨n, rfl⟩ := Nat.exists_eq_add_of_le' hn
    apply itemsLoop_round hmallocs hmember hhead hinput hbefore hb hafter hclosing.1 hdepth
    intro item s' hitem hdepth' hle' hrest'
    exact ⟨fun hcomma => absurd hcomma hclosing.2, fun _ =>
      ⟨_, rfl, mapM_append_singleton hvals hitem, hdepth', hle', hrest'⟩⟩
  | @more before input after next last b bs hbefore hb hafter hnext ih =>
    rw [List.length_cons] at hn
    obtain ⟨n, rfl⟩ : ∃ k, n = k + 1 := ⟨n - 1, by omega⟩
    apply itemsLoop_round hmallocs hmember hhead hinput hbefore hb hafter (by decide) hdepth
    intro item s' hitem hdepth' hle' hrest'
    refine ⟨fun _ => ?_, fun hno => absurd rfl hno⟩
    have hbehind : env.content.drop (s'.offset + 1) = next := by
      rw [← List.drop_drop, hrest']
      rfl
    have hvals' := mapM_append_singleton hvals hitem
    apply (ih (Nat.le_of_succ_le_succ hn) hvals' hdepth' hbehind hend).mono
    rintro r s'' ⟨items, rfl, hitems, hs''⟩
    rw [List.append_assoc] at hitems
    exact ⟨items, rfl, hitems, hs''⟩

/-- **`parse_array` and `parse_object`**, which differ in how they read a member. -/
theorem parseItems_complete (hmallocs : ∀ n, env.mallocs n = true)
    (hmember : CompleteMember env (depth + 1) G val parseMember)
    {opening closing : UInt8} (hhead : ∀ input b rest, G input b rest → ∃ c input',
      input = c :: input' ∧ isWhitespace c = false ∧ c ≠ closing)
    (hlength : ∀ input b rest, G input b rest → rest.length < input.length)
    {opens : Parse Bool} (hopens : ∀ Q s, s.offset < env.content.length →
      (Wp env opens Q s ↔ Q (nextIs env.content s.offset opening) s))
    (hclosing : isWhitespace closing = false ∧ closing ≠ 44) {type : ItemType} {item : Item}
    {bs : List β} {rest : List UInt8} (hlimit : depth < CJSON_NESTING_LIMIT)
    (hdepth : s.depth = depth)
    (h : Bracketed opening closing strict.Blank 44 G (env.content.drop s.offset) bs rest) :
    Wp env (parseItems opens closing type parseMember item) (fun r s' => ∃ head,
      r = some { item with type := type, child := head } ∧ head.mapM val = some bs ∧
      s'.depth = depth ∧ s'.offset ≤ env.content.length ∧ env.content.drop s'.offset = rest) s := by
  generalize hinput : env.content.drop s.offset = input at h
  obtain ⟨input', rfl⟩ : ∃ input', input = opening :: input' := by
    cases h with
    | empty => exact ⟨_, rfl⟩
    | filled => exact ⟨_, rfl⟩
  have hoffset := lt_of_drop_cons hinput
  have hbehind : env.content.drop (s.offset + 1) = input' := by
    rw [← List.drop_drop, hinput]
    rfl
  unfold parseItems
  rw [wp_bind, wp_get, wp_ite, hdepth]
  refine ⟨fun hno => absurd hno (not_le.mpr hlimit), fun _ => ?_⟩
  rw [wp_bind, wp_enter, wp_bind, hopens _ { s with depth := s.depth + 1 } hoffset, wp_ite,
    nextIs_of_drop opening hinput]
  refine ⟨fun hno => absurd hno (by simp), fun _ => ?_⟩
  rw [wp_bind, wp_advance, wp_bind, wp_bufferSkipWhitespace, wp_bind, wp_isAt, wp_ite]
  cases h with
  | @empty ws rest hws =>
    -- behind the blanks stands the closing bracket
    have hnext := drop_skipTo_of_append hbehind hws hclosing.1
    dsimp only
    rw [nextIs_of_drop closing hnext]
    refine ⟨fun _ => ?_, fun hno => absurd (beq_self_eq_true closing) hno⟩
    unfold finishItems
    rw [wp_bind, wp_leave, wp_bind, wp_advance, wp_pure]
    refine ⟨[], rfl, rfl, hdepth, lt_of_drop_cons hnext, ?_⟩
    show env.content.drop (skipTo env.content (s.offset + 1) + 1) = rest
    rw [← List.drop_drop, hnext]
    rfl
  | filled hsep =>
    obtain ⟨before, input'', rfl, hbefore, hsep', b, rest', hb⟩ := hsep.split
    obtain ⟨c, more, rfl, hc, hne⟩ := hhead _ _ _ hb
    have hnext := drop_skipTo_of_append hbehind hbefore hc
    have hinside := lt_of_drop_cons hnext
    -- behind the blanks the first member starts
    have hskip : s.offset + 1 ≤ skipTo env.content (s.offset + 1) := le_skipTo
    dsimp only
    rw [nextIs_of_drop closing hnext]
    refine ⟨fun hno => absurd (beq_iff_eq.mp hno) hne, fun _ => ?_⟩
    rw [wp_bind, wp_canAccessAtIndex, wp_ite]
    refine ⟨fun hno => absurd hno (by simp [hinside]), fun _ => ?_⟩
    rw [wp_bind, wp_stepBack, wp_bind, wp_read, wp_bind]
    have hback : skipTo env.content (s.offset + 1) - 1 + 1 =
        skipTo env.content (s.offset + 1) := by omega
    -- each member takes at least one byte
    have hfuel : bs.length ≤ env.content.length + 1 := by
      have hle := hsep'.length_le hlength
      have hcongr := congrArg List.length hnext
      rw [List.length_drop] at hcongr
      omega
    have hdepth' : s.depth + 1 = depth + 1 := by rw [hdepth]
    rw [← hback] at hnext
    refine Wp.mono (@itemsLoop_complete env _ β (depth + 1) G val parseMember hmallocs hmember
      (fun input b rest hb => ?_) _ rest bs closing hclosing hsep' _ hfuel [] [] rfl hdepth' hnext) ?_
    · obtain ⟨c, input', hinput, hc, -⟩ := hhead input b rest hb
      exact ⟨c, input', hinput, hc⟩
    rintro r s₂ ⟨head, rfl, hhead, hdepth₂, hle₂, hrest₂⟩
    dsimp only
    rw [wp_bind, wp_isAt, wp_ite, nextIs_of_drop closing hrest₂]
    refine ⟨fun hno => absurd hno (by simp), fun _ => ?_⟩
    unfold finishItems
    rw [wp_bind, wp_leave, wp_bind, wp_advance, wp_pure]
    refine ⟨head, rfl, hhead, ?_, lt_of_drop_cons hrest₂, ?_⟩
    · show s₂.depth - 1 = depth
      omega
    · show env.content.drop (s₂.offset + 1) = rest
      rw [← List.drop_drop, hrest₂]
      rfl

end Items

/-! ### Values -/

section Values

variable {depth : ℕ} {item : Item}

/-- A text is not in front of one that starts with another byte. -/
theorem isPrefixOf_of_ne {first c : UInt8} (h : first ≠ c) (text rest : List UInt8) :
    (first :: text).isPrefixOf (c :: rest) = false := by
  rw [List.isPrefixOf_cons_cons, beq_false_of_ne h, Bool.false_and]

/-- What `parse_value` does at a byte that starts no literal. -/
theorem wp_parseValue_of_head {fuel : ℕ} {c : UInt8} {input : List UInt8}
    (hinput : env.content.drop s.offset = c :: input) (hc : c ≠ 110 ∧ c ≠ 102 ∧ c ≠ 116)
    {Q : Option Item → ParseState → Prop}
    (h : Wp env (if c = 34 then parseString item else if startsNumber c then parseNumber item
      else if c = 91 then parseArray (parseValue fuel) item
      else if c = 123 then parseObject (parseValue fuel) item else pure none) Q s) :
    Wp env (parseValue (fuel + 1) item) Q s := by
  have hbyte : env.content[s.offset]? = some c := by
    rw [← Nat.add_zero s.offset, ← List.getElem?_drop, hinput]
    rfl
  unfold parseValue
  rw [wp_bind, wp_readsText (by decide), wp_ite]
  refine ⟨fun hno => ?_, fun _ => ?_⟩
  · rw [hinput, show ascii "null" = 110 :: ascii "ull" by decide, isPrefixOf_of_ne (Ne.symm hc.1)] at hno
    cases hno
  rw [wp_bind, wp_readsText (by decide), wp_ite]
  refine ⟨fun hno => ?_, fun _ => ?_⟩
  · rw [hinput, show ascii "false" = 102 :: ascii "alse" by decide, isPrefixOf_of_ne (Ne.symm hc.2.1)] at hno
    cases hno
  rw [wp_bind, wp_readsText (by decide), wp_ite]
  refine ⟨fun hno => ?_, fun _ => ?_⟩
  · rw [hinput, show ascii "true" = 116 :: ascii "rue" by decide, isPrefixOf_of_ne (Ne.symm hc.2.2)] at hno
    cases hno
  simp only [wp_ite] at h
  rw [wp_bind, wp_isAt, wp_ite, nextIs_of_drop 34 hinput, beq_iff_eq]
  refine ⟨h.1, fun hquote => ?_⟩
  rw [wp_bind, wp_startsNumber, wp_ite, numberAt, hbyte]
  refine ⟨(h.2 hquote).1, fun hnumber => ?_⟩
  rw [wp_bind, wp_isAt, wp_ite, nextIs_of_drop 91 hinput, beq_iff_eq]
  refine ⟨((h.2 hquote).2 hnumber).1, fun harray => ?_⟩
  rw [wp_bind, wp_isAt, wp_ite, nextIs_of_drop 123 hinput, beq_iff_eq]
  exact ((h.2 hquote).2 hnumber).2 harray

/-- A literal at the offset. -/
theorem advance_literal {text rest : List UInt8} {v : CJson} {item' : Item}
    (hinput : env.content.drop s.offset = text ++ rest) (hoffset : s.offset ≤ env.content.length)
    (hvalue : item'.value = some v) (hstring : item'.string = item.string) :
    Wp env (do advance text.length; return some item') (fun r s' => ∃ item', r = some item' ∧
      item'.value = some v ∧ item'.string = item.string ∧ s'.depth = s.depth ∧
      s'.offset ≤ env.content.length ∧ env.content.drop s'.offset = rest) s := by
  rw [wp_bind, wp_advance, wp_pure]
  exact ⟨item', rfl, hvalue, hstring, rfl, add_le_of_append hinput hoffset,
    drop_add_of_append hinput⟩

theorem isPrefixOf_of_append {content text rest : List UInt8} (h : content = text ++ rest) :
    text.isPrefixOf content = true := by
  rw [h, List.isPrefixOf_iff_prefix]
  exact List.prefix_append text rest

/-- **`parse_value`** accepts the scalars of JSON. -/
theorem parseScalar_complete (hmallocs : ∀ n, env.mallocs n = true) {fuel : ℕ} {v : CJson}
    {rest : List UInt8} (hoffset : s.offset ≤ env.content.length)
    (h : strict.Scalar (env.content.drop s.offset) v rest) :
    Wp env (parseValue (fuel + 1) item) (fun r s' => ∃ item', r = some item' ∧
      item'.value = some v ∧ item'.string = item.string ∧ s'.depth = s.depth ∧
      s'.offset ≤ env.content.length ∧ env.content.drop s'.offset = rest) s := by
  generalize hinput : env.content.drop s.offset = input at h
  cases h with
  | null =>
    unfold parseValue
    rw [wp_bind, wp_readsText (by decide), wp_ite, isPrefixOf_of_append hinput]
    refine ⟨fun _ => ?_, fun hno => absurd rfl hno⟩
    exact advance_literal hinput hoffset rfl rfl
  | false =>
    unfold parseValue
    rw [wp_bind, wp_readsText (by decide), wp_ite]
    refine ⟨fun hno => ?_, fun _ => ?_⟩
    · rw [hinput, show ascii "null" = 110 :: ascii "ull" by decide,
        show ascii "false" = 102 :: ascii "alse" by decide, List.cons_append, isPrefixOf_of_ne (by decide)] at hno
      cases hno
    rw [wp_bind, wp_readsText (by decide), wp_ite, isPrefixOf_of_append hinput]
    refine ⟨fun _ => ?_, fun hno => absurd rfl hno⟩
    exact advance_literal hinput hoffset rfl rfl
  | true =>
    unfold parseValue
    rw [wp_bind, wp_readsText (by decide), wp_ite]
    refine ⟨fun hno => ?_, fun _ => ?_⟩
    · rw [hinput, show ascii "null" = 110 :: ascii "ull" by decide,
        show ascii "true" = 116 :: ascii "rue" by decide, List.cons_append, isPrefixOf_of_ne (by decide)] at hno
      cases hno
    rw [wp_bind, wp_readsText (by decide), wp_ite]
    refine ⟨fun hno => ?_, fun _ => ?_⟩
    · rw [hinput, show ascii "false" = 102 :: ascii "alse" by decide,
        show ascii "true" = 116 :: ascii "rue" by decide, List.cons_append, isPrefixOf_of_ne (by decide)] at hno
      cases hno
    rw [wp_bind, wp_readsText (by decide), wp_ite, isPrefixOf_of_append hinput]
    refine ⟨fun _ => ?_, fun hno => absurd rfl hno⟩
    exact advance_literal hinput hoffset rfl rfl
  | @number _ _ q hnumber =>
    obtain ⟨n, hn, -, hsplit, -, -⟩ := id hnumber
    obtain ⟨c, text, htext, hstarts⟩ := startsNumber_of_isJson hn
    -- the first byte of a number starts no literal and no string
    rw [htext] at hsplit
    rw [← hinput] at hnumber
    have hne : UInt8.ofNat c.toNat ≠ 110 ∧ UInt8.ofNat c.toNat ≠ 102 ∧ UInt8.ofNat c.toNat ≠ 116 ∧
        UInt8.ofNat c.toNat ≠ 34 := by
      refine ⟨?_, ?_, ?_, ?_⟩ <;> intro heq <;> rw [heq] at hstarts <;>
        exact absurd hstarts (by decide)
    apply wp_parseValue_of_head (hinput.trans hsplit) ⟨hne.1, hne.2.1, hne.2.2.1⟩
    rw [if_neg hne.2.2.2, if_pos hstarts]
    apply (parseNumber_complete hnumber hoffset).mono
    rintro r s' ⟨rfl, hs'⟩
    refine ⟨_, rfl, ?_, rfl, hs'⟩
    show (if doubleToInt q = doubleToInt q then _ else _) = _
    rw [if_pos rfl]
  | string hstring =>
    obtain ⟨body, t, hsplit, -⟩ := id hstring
    rw [← hinput] at hstring
    apply wp_parseValue_of_head (hinput.trans hsplit) (by decide)
    rw [if_pos rfl]
    apply (parseString_complete hmallocs hstring).mono
    rintro r s' ⟨block, rfl, rfl, hs'⟩
    exact ⟨_, rfl, rfl, rfl, hs'⟩

/-- **`parse_value`** accepts every value of JSON up to the nesting limit. -/
theorem parseValue_complete (hmallocs : ∀ n, env.mallocs n = true) {level fuel : ℕ}
    (hlevel : level + depth ≤ CJSON_NESTING_LIMIT) (hfuel : level < fuel) :
    CompleteValue env depth (strict.Value level) (parseValue fuel) := by
  induction level generalizing depth fuel with
  | zero =>
    obtain ⟨fuel, rfl⟩ := Nat.exists_eq_add_of_le' hfuel
    intro item s v rest hoffset hdepth h
    rw [← hdepth]
    exact parseScalar_complete hmallocs hoffset h
  | succ level ih =>
    obtain ⟨fuel, rfl⟩ : ∃ k, fuel = k + 1 := ⟨fuel - 1, by omega⟩
    intro item s v rest hoffset hdepth h
    rcases h with h | h
    · rw [← hdepth]
      exact parseScalar_complete hmallocs hoffset h
    · have hinner : CompleteValue env (depth + 1) (strict.Value level) (parseValue fuel) :=
        ih (by omega) (by omega)
      have hlimit : depth < CJSON_NESTING_LIMIT := by omega
      -- every value takes some of the input
      have hlength : ∀ input v rest, strict.Value level input v rest → rest.length < input.length :=
        fun input v rest hv => strict_length_lt hv
      cases h with
      | @array _ elements h =>
        obtain ⟨input', hinput⟩ : ∃ input', env.content.drop s.offset = 91 :: input' := by
          generalize env.content.drop s.offset = input at h
          cases h with
          | empty => exact ⟨_, rfl⟩
          | filled => exact ⟨_, rfl⟩
        apply wp_parseValue_of_head hinput (by decide)
        rw [if_neg (by decide), if_neg (by decide), if_pos rfl]
        unfold parseArray
        refine Wp.mono (parseItems_complete hmallocs (parseElement_complete hinner)
          (fun input v rest hv => ?_) hlength (fun Q s hs => wp_opensArray hs) (by decide) hlimit
          hdepth h) ?_
        · obtain ⟨c, input', rfl, hc⟩ := strict_head hv
          exact ⟨c, input', rfl, hc.not_whitespace, hc.ne_closing⟩
        rintro r s' ⟨head, rfl, hhead, hs'⟩
        refine ⟨_, rfl, ?_, rfl, hs'⟩
        show (Item.elementValues head).map CJson.array = _
        rw [Item.elementValues_eq, hhead]
        rfl
      | @object _ members h =>
        obtain ⟨input', hinput⟩ : ∃ input', env.content.drop s.offset = 123 :: input' := by
          generalize env.content.drop s.offset = input at h
          cases h with
          | empty => exact ⟨_, rfl⟩
          | filled => exact ⟨_, rfl⟩
        apply wp_parseValue_of_head hinput (by decide)
        rw [if_neg (by decide), if_neg (by decide), if_neg (by decide), if_pos rfl]
        unfold parseObject
        refine Wp.mono (parseItems_complete hmallocs (parseMember_complete hmallocs hinner)
          (fun input m rest hm => ?_) (fun input m rest hm => member_length_lt hm hlength)
          (fun Q s _ => wp_isAt) (by decide) hlimit hdepth h) ?_
        · cases hm with
          | mk hstring =>
            obtain ⟨body, t, rfl, -⟩ := hstring
            exact ⟨34, _, rfl, by decide, by decide⟩
        rintro r s' ⟨head, rfl, hhead, hs'⟩
        refine ⟨_, rfl, ?_, rfl, hs'⟩
        show (Item.memberValues head).map CJson.object = _
        rw [Item.memberValues_eq, hhead]
        rfl

end Values

end IotDeviceSdk.Json
