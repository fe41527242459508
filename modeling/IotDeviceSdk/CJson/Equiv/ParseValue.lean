import IotDeviceSdk.CJson.Equiv.Grammar
import IotDeviceSdk.CJson.Equiv.ParseBuffer

/-!
# What the parser accepts
-/

namespace IotDeviceSdk.Json

open Prog Text

variable {env : ParseEnv} {s : ParseState} {base : List ℕ}

/-! ### Items -/

/-- An item that is yet to get a value. -/
structure Item.Fresh (item : Item) : Prop where
  isReference : item.isReference = false
  stringIsConst : item.stringIsConst = false
  valuestring : item.valuestring = none
  child : item.child = []

theorem Item.fresh_blank (address : ℕ) : (Item.blank address).Fresh := ⟨rfl, rfl, rfl, rfl⟩

theorem Item.blocks_eq (item : Item) :
    item.blocks = (if item.isReference then [] else listBlocks item.child) ++
      (ownedText item.isReference item.valuestring ++
        (ownedText item.stringIsConst item.string ++ [item.address])) := by
  cases item
  rfl

theorem Item.listBlocks_append (items more : List Item) :
    listBlocks (items ++ more) = listBlocks items ++ listBlocks more := by
  induction items with
  | nil => rfl
  | cons item items ih =>
    show item.blocks ++ listBlocks (items ++ more) = item.blocks ++ listBlocks items ++ _
    rw [ih, List.append_assoc]

theorem Item.listBlocks_singleton (item : Item) : listBlocks [item] = item.blocks :=
  List.append_nil _

/-- A member of an object: its key and its value. -/
def Item.memberValue (item : Item) : Option (String × CJson) := do
  let key ← item.string
  let v ← item.value
  return (key.text, v)

theorem Item.elementValues_eq (items : List Item) :
    elementValues items = items.mapM value := by
  induction items with
  | nil => rfl
  | cons item items ih =>
    rw [List.mapM_cons, ← ih]
    rfl

theorem Item.memberValues_eq (items : List Item) :
    memberValues items = items.mapM memberValue := by
  induction items with
  | nil => rfl
  | cons item items ih =>
    rw [List.mapM_cons, ← ih]
    show item.string.bind _ = (item.string.bind _).bind _
    cases item.string with
    | none => rfl
    | some key =>
      show item.value.bind _ = (item.value.bind _).bind _
      cases item.value with
      | none => rfl
      | some v => rfl

/-! ### Strings -/

theorem wp_failString {output : Option ℕ} {position : ℕ} {Q : Option Item → ParseState → Prop}
    (h : s.heap.live.Perm (output.toList ++ base))
    (hQ : ∀ heap, heap.live.Perm base → Q none { s with offset := position, heap := heap }) :
    Wp env (failString output position) Q s := by
  cases output with
  | none =>
    show Wp env (modify _ >>= fun _ => pure none) Q s
    rw [wp_bind, wp_modify, wp_pure]
    exact hQ s.heap h
  | some output =>
    show Wp env (deallocate output >>= fun _ => modify _ >>= fun _ => pure none) Q s
    rw [wp_bind]
    apply wp_deallocate h
    intro heap hheap
    rw [wp_bind, wp_modify, wp_pure]
    exact hQ heap hheap

/-- Behind its first zero byte a buffer can hold anything. -/
theorem cString_append_of_mem {text : List UInt8} (h : 0 ∈ text) (rest : List UInt8) :
    cString (text ++ rest) = cString text := by
  obtain ⟨before, after, rfl⟩ := List.append_of_mem h
  rw [List.append_assoc, List.cons_append]
  unfold cString
  simp only [List.takeWhile_append, List.takeWhile_cons, ne_eq, not_true_eq_false, decide_false,
    Bool.false_eq_true, if_false]

/-- The decoded text in its block, as a C string. -/
theorem cString_of_decoded {t out : List UInt8} (hstart : t <+: out) (h : out = t ∨ 0 ∈ t) :
    cString (out ++ [0]) = cString t := by
  by_cases hzero : 0 ∈ t
  · obtain ⟨more, rfl⟩ := hstart
    rw [List.append_assoc, cString_append_of_mem hzero]
  · obtain rfl := h.resolve_right hzero
    rw [cString_append_zero hzero, cString_of_zero_not_mem hzero]

/-- What `parse_string` leaves when it succeeds: the item with a text in a block of its own. -/
structure StringParsed (env : ParseEnv) (base : List ℕ) (item : Item) (s : ParseState)
    (block : TextBlock) (item' : Item) (s' : ParseState) : Prop where
  item_eq : item' = { item with type := .string, valuestring := some block }
  offset_lt : s.offset < s'.offset
  offset_le : s'.offset ≤ env.content.length
  depth : s'.depth = s.depth
  live : s'.heap.live.Perm (block.address :: base)

/-- **`parse_string`** stays inside the buffer and inside its block, and gives the decoded text. -/
theorem parseString_sound {item : Item} (hoffset : s.offset < env.content.length)
    (hlive : s.heap.live.Perm base) :
    Wp env (parseString item) (fun r s' => r.elim (s'.heap.live.Perm base) fun item' =>
      ∃ block, StringParsed env base item s block item' s' ∧
        lenient.Str (env.content.drop s.offset) block.text (env.content.drop s'.offset)) s := by
  -- every failure frees the output
  have hfail : ∀ output heap position, heap.live.Perm (output.toList ++ base) →
      Wp env (failString output position)
        (fun r s' => r.elim (s'.heap.live.Perm base) fun item' =>
          ∃ block, StringParsed env base item s block item' s' ∧
            lenient.Str (env.content.drop s.offset) block.text (env.content.drop s'.offset))
        { s with heap := heap } :=
    fun output heap position h => wp_failString h fun heap' hheap' => hheap'
  unfold parseString
  rw [wp_bind, wp_get, wp_bind, wp_byteAt]
  refine ⟨_, List.getElem?_eq_getElem (by omega), ?_⟩
  rw [wp_ite]
  refine ⟨fun _ => hfail none s.heap _ hlive, fun hquote => ?_⟩
  rw [ne_eq, not_not] at hquote
  rw [wp_bind, wp_read]
  have hdrop : env.content.drop s.offset = 34 :: env.content.drop (s.offset + 1) := by
    rw [List.drop_eq_getElem_cons hoffset, ← hquote]
    rfl
  dsimp only
  cases hend : stringEnd (env.content.drop (s.offset + 1)) with
  | none => exact hfail none s.heap _ hlive
  | some r =>
    obtain ⟨length, skipped⟩ := r
    obtain ⟨body, rest, hbody, hclosed, rfl, rfl⟩ := stringEnd_eq_some_iff.mp hend
    have hlength := congrArg List.length hbody
    rw [List.length_drop, List.length_append, List.length_cons] at hlength
    dsimp only
    rw [wp_bind]
    apply wp_allocate
    · intro address heap hheap
      have hlive' : heap.live.Perm (address :: base) := by
        rw [hheap]
        exact hlive.cons address
      -- what is allocated is enough for the decoded text and its terminator
      have hbound := escapeBound_le_length body
      have hescapes : escapes body ≤ escapeBound body := le_max_left _ _
      obtain ⟨⟨out, left⟩, hunescape, hroom⟩ := @unescape_spec (body.length + 1 - escapes body + 1)
        body.length body [] rest le_rfl (by rw [List.length_nil]; omega)
      rw [hbody]
      dsimp only
      rw [wp_bind, wp_ofOption]
      refine ⟨_, hunescape, ?_⟩
      cases out with
      | none => exact hfail (some address) heap _ hlive'
      | some out =>
        obtain ⟨t, hdecodes, hstart, heq⟩ := unescape_decodes hclosed hunescape
        have hcString := cString_of_decoded hstart heq
        have hemit : emit (body.length + 1 - escapes body + 1) out [0] = some (out ++ [0]) :=
          if_pos (hroom out rfl)
        dsimp only
        rw [wp_bind, wp_ofOption]
        refine ⟨_, hemit, ?_⟩
        rw [wp_bind, wp_modify, wp_pure]
        refine ⟨⟨address, out ++ [0]⟩, ⟨rfl, ?_, ?_, rfl, hlive'⟩, body, t, ?_, hclosed, hdecodes,
          ?_⟩
        · show s.offset < s.offset + 1 + body.length + 1
          omega
        · show s.offset + 1 + body.length + 1 ≤ env.content.length
          omega
        · have hrest : env.content.drop (s.offset + 1 + (body.length + 1)) = rest := by
            rw [← List.drop_drop, hbody, List.append_cons, List.drop_left' (by simp)]
          rw [hdrop, hbody]
          show _ = 34 :: (body ++ 34 :: env.content.drop (s.offset + 1 + body.length + 1))
          rw [Nat.add_assoc (s.offset + 1), hrest]
        · show textOfBytes (cString (out ++ [0])) = _
          rw [hcString, List.nil_append]
    · intro heap hheap _
      apply hfail none heap
      rw [hheap]
      exact hlive

/-! ### Numbers -/

theorem numberCString_starts (content : List UInt8) (offset : ℕ) :
    numberCString content offset <+: content.drop offset :=
  (List.takeWhile_prefix _).trans (List.take_prefix _ _)

/-- No byte of a number is a letter of a word, or the marker of hexadecimal numbers. -/
theorem not_letter_of_isNumberByte {b : UInt8} (h : isNumberByte b = true) :
    let c := Char.ofNat b.toNat
    (c ≠ 'x' ∧ c ≠ 'X') ∧ c.toLower ≠ 'i' ∧ c.toLower ≠ 'n' := by
  have hall : ∀ k < 256, isNumberByte (UInt8.ofNat k) = true →
      (Char.ofNat k ≠ 'x' ∧ Char.ofNat k ≠ 'X') ∧
        (Char.ofNat k).toLower ≠ 'i' ∧ (Char.ofNat k).toLower ≠ 'n' := by
    decide +kernel
  apply hall b.toNat b.toNat_lt
  rwa [UInt8.ofNat_toNat]

/-- **`parse_number`** reads the number `strtod` finds. -/
theorem parseNumber_sound {item : Item} (hoffset : s.offset ≤ env.content.length) :
    Wp env (parseNumber item) (fun r s' => r.elim (s' = s) fun item' =>
      ∃ q, item' = { item with valuedouble := q, valueint := doubleToInt q, type := .number } ∧
        lenient.Num (env.content.drop s.offset) q (env.content.drop s'.offset) ∧
        s.offset ≤ s'.offset ∧ s'.offset ≤ env.content.length ∧
        s'.depth = s.depth ∧ s'.heap = s.heap) s := by
  unfold parseNumber
  rw [wp_bind, wp_read, wp_bind, wp_get]
  obtain ⟨more, hmore⟩ := numberCString_starts env.content s.offset
  have hshort : (charsOfBytes (numberCString env.content s.offset)).length ≤ 63 := by
    rw [charsOfBytes, List.length_map]
    exact (List.takeWhile_prefix _).length_le.trans (List.length_take_le _ _)
  have hlength := congrArg List.length hmore
  rw [List.length_append, List.length_drop] at hlength
  have hsame : (charsOfBytes (numberCString env.content s.offset)).length =
      (numberCString env.content s.offset).length := List.length_map _
  dsimp only
  have hletters : ∀ c ∈ charsOfBytes (numberCString env.content s.offset),
      (c ≠ 'x' ∧ c ≠ 'X') ∧ c.toLower ≠ 'i' ∧ c.toLower ≠ 'n' := by
    intro c hc
    obtain ⟨b, hb, rfl⟩ := List.mem_map.mp hc
    exact not_letter_of_isNumberByte (List.mem_takeWhile_imp hb)
  rcases strtod_decimal_cases hletters with ⟨n, after, hn, hstrtod⟩ | hstrtod
  · rw [hstrtod]
    dsimp only
    rw [wp_ite, wp_pure]
    refine ⟨fun _ => rfl, fun hread => ?_⟩
    have htotal := congrArg List.length hn
    rw [List.length_append] at htotal
    rw [wp_bind, wp_advance, wp_pure]
    refine ⟨toDouble n.value, rfl, ⟨n, by omega, ?_, rfl⟩, Nat.le_add_right _ _, ?_, rfl, rfl⟩
    · have hsplit : env.content.drop s.offset =
          bytesOfChars n.text ++ (bytesOfChars after ++ more) := by
        rw [← List.append_assoc, ← bytesOfChars_append, ← hn, bytesOfChars_charsOfBytes, hmore]
      show _ = _ ++ env.content.drop (s.offset + (_ - after.length))
      rw [← List.drop_drop, hsplit, List.drop_left']
      rw [bytesOfChars, List.length_map]
      omega
    · show s.offset + (_ - after.length) ≤ env.content.length
      omega
  · rw [hstrtod]
    dsimp only
    rw [if_pos rfl, wp_pure]
    rfl

/-! ### Members -/

/-- An item owns its blocks whatever its type and its number. -/
theorem Item.blocks_scalar (item : Item) (type : ItemType) (valueint : ℤ) (valuedouble : ℚ) :
    Item.blocks { item with type := type, valueint := valueint, valuedouble := valuedouble } =
      item.blocks := by
  cases item
  rfl

/-- The blocks of a fresh item are its own and its key's. -/
theorem Item.Fresh.blocks {item : Item} (h : item.Fresh) :
    item.blocks = ownedText item.stringIsConst item.string ++ [item.address] := by
  rw [blocks_eq, h.isReference, h.valuestring, h.child]
  rfl

theorem Item.Fresh.blocks_string {item : Item} (h : item.Fresh) (block : TextBlock) :
    Item.blocks { item with type := .string, valuestring := some block } =
      block.address :: item.blocks := by
  rw [h.blocks, blocks_eq]
  dsimp only
  rw [h.isReference, h.child]
  rfl

theorem Item.Fresh.blocks_child {item : Item} (h : item.Fresh) (type : ItemType)
    (head : List Item) :
    Item.blocks { item with type := type, child := head } = listBlocks head ++ item.blocks := by
  rw [h.blocks, blocks_eq]
  dsimp only
  rw [h.isReference, h.valuestring]
  rfl

/-- What a parse of a value leaves when it succeeds: an item that owns its blocks, for the value in
front of the offset it leaves. -/
structure Parsed (env : ParseEnv) (G : List UInt8 → CJson → List UInt8 → Prop) (base : List ℕ)
    (item : Item) (s : ParseState) (item' : Item) (s' : ParseState) : Prop where
  offset_lt : s.offset ≤ s'.offset
  offset_le : s'.offset ≤ env.content.length
  depth : s'.depth = s.depth
  string : item'.string = item.string
  live : s'.heap.live.Perm (item'.blocks ++ base)
  value : ∃ v, item'.value = some v ∧ G (env.content.drop s.offset) v (env.content.drop s'.offset)

/-- A parser of values that reads what `G` allows, at a depth, and gives back what it allocates when
it fails. -/
def SoundValue (env : ParseEnv) (depth : ℕ) (G : List UInt8 → CJson → List UInt8 → Prop)
    (p : Item → Parse (Option Item)) : Prop :=
  ∀ item s base, item.Fresh → s.offset ≤ env.content.length → s.depth = depth →
    s.heap.live.Perm (item.blocks ++ base) →
    Wp env (p item) (fun r s' => r.elim (s'.heap.live.Perm (item.blocks ++ base)) fun item' =>
      Parsed env G base item s item' s') s

/-- The same of a parser of members, which owns the item also when it fails. -/
def SoundMember {β : Type} (env : ParseEnv) (depth : ℕ) (G : List UInt8 → β → List UInt8 → Prop)
    (val : Item → Option β) (p : Item → Parse (Bool × Item)) : Prop :=
  ∀ address s base, s.offset < env.content.length → s.depth = depth →
    s.heap.live.Perm (address :: base) →
    Wp env (p (.blank address)) (fun r s' => s'.heap.live.Perm (r.2.blocks ++ base) ∧
      (r.1 = true → s.offset ≤ s'.offset ∧ s'.offset ≤ env.content.length ∧ s'.depth = depth ∧
        ∃ b, val r.2 = some b ∧
          G (env.content.drop s.offset) b (env.content.drop s'.offset))) s

section Members

variable {depth : ℕ} {G : List UInt8 → CJson → List UInt8 → Prop}
  {parseValue : Item → Parse (Option Item)}

theorem parseElement_sound (h : SoundValue env depth G parseValue) :
    SoundMember env depth G Item.value (parseElement parseValue) := by
  intro address s base hoffset hdepth hlive
  unfold parseElement
  rw [wp_bind]
  apply (h (.blank address) s base (Item.fresh_blank address) hoffset.le hdepth hlive).mono
  intro r s' hr
  cases r with
  | none =>
    rw [wp_pure]
    exact ⟨hr, fun hfalse => by cases hfalse⟩
  | some item =>
    obtain ⟨hle, hle', hdepth', -, hlive', hvalue⟩ := hr
    rw [wp_pure]
    exact ⟨hlive', fun _ => ⟨hle, hle', hdepth'.trans hdepth, hvalue⟩⟩

theorem parseMember_sound (h : SoundValue env depth G parseValue) :
    SoundMember env depth (lenient.Member G) Item.memberValue (parseMember parseValue) := by
  intro address s base hoffset hdepth hlive
  unfold parseMember
  rw [wp_bind]
  apply (parseString_sound hoffset hlive).mono
  intro r s₁ hr
  cases r with
  | none =>
    rw [wp_pure]
    exact ⟨hr, fun hfalse => by cases hfalse⟩
  | some named =>
    obtain ⟨block, ⟨rfl, hlt, hle, hdepth₁, hlive₁⟩, hstring⟩ := hr
    dsimp only
    rw [wp_bind, wp_bufferSkipWhitespace]
    obtain ⟨ws, hws, hblank⟩ := drop_skipTo env.content s₁.offset
    have hskip : s₁.offset ≤ skipTo env.content s₁.offset := le_skipTo
    rw [wp_bind, wp_isAt, wp_ite, wp_pure]
    constructor
    · intro _
      exact ⟨hlive₁, fun hfalse => by cases hfalse⟩
    · intro hcolon
      simp only [Bool.not_eq_true, Bool.not_eq_false'] at hcolon
      obtain ⟨rest, hrest⟩ := nextIs_iff.mp hcolon
      have hinside : skipTo env.content s₁.offset < env.content.length := by
        by_contra hno
        rw [List.drop_of_length_le (not_lt.mp hno)] at hrest
        cases hrest
      rw [wp_bind, wp_advance, wp_bind, wp_bufferSkipWhitespace]
      dsimp only
      obtain ⟨ws', hws', hblank'⟩ := drop_skipTo env.content (skipTo env.content s₁.offset + 1)
      have hskip' : skipTo env.content s₁.offset + 1 ≤
          skipTo env.content (skipTo env.content s₁.offset + 1) := le_skipTo
      have hnext : rest = env.content.drop (skipTo env.content s₁.offset + 1) := by
        rw [← List.drop_drop, hrest]
        rfl
      unfold parseElement
      rw [wp_bind]
      refine Wp.mono (h _ _ base ⟨rfl, rfl, rfl, rfl⟩ (skipTo_le (Nat.succ_le_of_lt hinside))
        (hdepth₁.trans hdepth) hlive₁) ?_
      intro r s' hr
      cases r with
      | none =>
        rw [wp_pure]
        exact ⟨hr, fun hfalse => by cases hfalse⟩
      | some item =>
        obtain ⟨hle₂, hle', hdepth', hkey, hlive', v, hv, hG⟩ := hr
        rw [wp_pure]
        refine ⟨hlive', fun _ => ⟨?_, hle', hdepth'.trans (hdepth₁.trans hdepth), (block.text, v), ?_,
          ?_⟩⟩
        · exact hlt.le.trans (hskip.trans ((Nat.le_succ _).trans (hskip'.trans hle₂)))
        · unfold Item.memberValue
          rw [hkey, hv]
          rfl
        · rw [hws, hrest, hnext, hws'] at hstring
          exact .mk hstring hblank hblank' hG

end Members

/-! ### Arrays and objects -/

/-- The next byte of a buffer is inside it, and not its last one when that is another. -/
theorem lt_of_nextIs {content : List UInt8} {offset : ℕ} {c : UInt8}
    (h : nextIs content offset c = true) : offset < content.length := by
  obtain ⟨rest, hrest⟩ := nextIs_iff.mp h
  by_contra hno
  rw [List.drop_of_length_le (not_lt.mp hno)] at hrest
  cases hrest

theorem succ_lt_of_nextIs {content : List UInt8} {offset : ℕ} {c : UInt8}
    (h : nextIs content offset c = true) (hlast : content.getLast? ≠ some c) :
    offset + 1 < content.length := by
  have hlt := lt_of_nextIs h
  by_contra hno
  apply hlast
  rw [List.getLast?_eq_getElem?, show content.length - 1 = offset by omega]
  exact beq_iff_eq.mp h

theorem drop_succ_of_nextIs {content : List UInt8} {offset : ℕ} {c : UInt8}
    (h : nextIs content offset c = true) :
    content.drop offset = c :: content.drop (offset + 1) := by
  obtain ⟨rest, hrest⟩ := nextIs_iff.mp h
  rw [hrest, ← List.drop_drop, hrest]
  rfl

theorem mapM_append_singleton {β : Type} {val : Item → Option β} {items : List Item} {item : Item}
    {bs : List β} {b : β} (hitems : items.mapM val = some bs) (hitem : val item = some b) :
    (items ++ [item]).mapM val = some (bs ++ [b]) := by
  rw [List.mapM_append, hitems]
  show ((val item).bind _).bind _ = _
  rw [hitem]
  rfl

section Items

variable {β : Type} {depth : ℕ} {G : List UInt8 → β → List UInt8 → Prop} {val : Item → Option β}
  {parseMember : Item → Parse (Bool × Item)}

/-- **The loop of `parse_array` and `parse_object`** reads members with commas between them, and
gives back all of them when one is no member. -/
theorem itemsLoop_sound (hlast : env.content.getLast? ≠ some 44)
    (hmember : SoundMember env depth G val parseMember) {n : ℕ} {head : List Item} {bs : List β}
    (hfuel : env.content.length ≤ s.offset + n) (hoffset : s.offset + 1 < env.content.length)
    (hdepth : s.depth = depth) (hvals : head.mapM val = some bs)
    (hlive : s.heap.live.Perm (Item.listBlocks head ++ base)) :
    Wp env (itemsLoop parseMember n head) (fun r s' => r.elim (s'.heap.live.Perm base) fun items =>
      s.offset < s'.offset ∧ s'.offset ≤ env.content.length ∧ s'.depth = depth ∧
        s'.heap.live.Perm (Item.listBlocks items ++ base) ∧
        ∃ bs', items.mapM val = some (bs ++ bs') ∧
          Separated lenient.Blank 44 G (env.content.drop (s.offset + 1)) bs'
            (env.content.drop s'.offset)) s := by
  induction n generalizing s head bs with
  -- inside the content the fuel is not spent
  | zero => omega
  | succ n ih =>
    rw [itemsLoop, wp_bind]
    apply wp_newItem
    · intro address heap hheap
      dsimp only
      rw [wp_bind, wp_advance, wp_bind, wp_bufferSkipWhitespace, wp_bind]
      dsimp only
      obtain ⟨ws, hws, hblank⟩ := drop_skipTo env.content (s.offset + 1)
      have hskip : s.offset + 1 ≤ skipTo env.content (s.offset + 1) := le_skipTo
      have hlive₁ : heap.live.Perm (address :: (Item.listBlocks head ++ base)) := by
        rw [hheap]
        exact hlive.cons address
      refine Wp.mono (hmember address _ (Item.listBlocks head ++ base) (skipTo_lt hoffset) hdepth
        hlive₁) ?_
      rintro ⟨parsed, item⟩ s₂ ⟨hlive₂, hparsed⟩
      have hlive' : s₂.heap.live.Perm (Item.listBlocks (head ++ [item]) ++ base) := by
        rw [Item.listBlocks_append, Item.listBlocks_singleton, List.append_assoc]
        exact hlive₂.trans (List.perm_append_comm_assoc _ _ _)
      dsimp only at hparsed ⊢
      cases parsed with
      | false =>
        -- a member that is refused frees those before it
        rw [wp_ite]
        refine ⟨fun _ => ?_, fun hfalse => absurd rfl hfalse⟩
        rw [wp_bind]
        apply wp_deleteItems hlive'
        intro heap' hheap'
        rw [wp_pure]
        exact hheap'
      | true =>
        obtain ⟨hle, hle', hdepth₂, b, hb, hG⟩ := hparsed rfl
        rw [wp_ite]
        refine ⟨fun hfalse => absurd hfalse Bool.false_ne_true, fun _ => ?_⟩
        rw [wp_bind, wp_bufferSkipWhitespace, wp_bind, wp_isAt, wp_ite, wp_pure]
        obtain ⟨ws', hws', hblank'⟩ := drop_skipTo env.content s₂.offset
        have hskip' : s₂.offset ≤ skipTo env.content s₂.offset := le_skipTo
        have hvals' := mapM_append_singleton hvals hb
        constructor
        · -- one more round behind the comma
          intro hcomma
          have hinside := succ_lt_of_nextIs hcomma hlast
          refine Wp.mono (ih (show env.content.length ≤ skipTo env.content s₂.offset + n by omega)
            hinside hdepth₂ hvals' hlive') ?_
          intro r s' hr
          cases r with
          | none => exact hr
          | some items =>
            obtain ⟨hlt, hle₃, hdepth₃, hlive₃, bs', hbs', hsep⟩ := hr
            refine ⟨?_, hle₃, hdepth₃, hlive₃, b :: bs', ?_, ?_⟩
            · have hlt' : skipTo env.content s₂.offset < s'.offset := hlt
              omega
            · rw [hbs', List.append_assoc]
              rfl
            · rw [hws', drop_succ_of_nextIs hcomma] at hG
              rw [hws]
              exact .more hblank hG hblank' hsep
        · -- without a comma the list ends here
          intro _
          refine ⟨?_, skipTo_le hle', hdepth₂, hlive', [b], hvals', ?_⟩
          · show s.offset < skipTo env.content s₂.offset
            omega
          · rw [hws'] at hG
            rw [hws]
            exact .last hblank hG hblank'
    · -- without memory for a member the others are freed
      intro heap hheap _
      dsimp only
      rw [wp_bind]
      refine @wp_deleteItems _ _ _ _ base ?_ ?_
      · rw [hheap]
        exact hlive
      · intro heap' hheap'
        rw [wp_pure]
        exact hheap'

/-- **`parse_array` and `parse_object`**, which differ in how they read a member. -/
theorem parseItems_sound (hlast : env.content.getLast? ≠ some 44)
    (hmember : depth < CJSON_NESTING_LIMIT → SoundMember env (depth + 1) G val parseMember)
    {opens : Parse Bool}
    {opening closing : UInt8} {type : ItemType} {item : Item}
    (hopens : ∀ Q s, s.offset < env.content.length →
      (Wp env opens Q s ↔ Q (nextIs env.content s.offset opening) s))
    (hoffset : s.offset < env.content.length) (hdepth : s.depth = depth)
    (hlive : s.heap.live.Perm base) :
    Wp env (parseItems opens closing type parseMember item)
      (fun r s' => r.elim (s'.heap.live.Perm base) fun item' =>
        depth < CJSON_NESTING_LIMIT ∧ ∃ head bs, item' = { item with type := type, child := head } ∧
          head.mapM val = some bs ∧ s.offset ≤ s'.offset ∧ s'.offset ≤ env.content.length ∧
          s'.depth = s.depth ∧ s'.heap.live.Perm (Item.listBlocks head ++ base) ∧
          Bracketed opening closing lenient.Blank 44 G (env.content.drop s.offset) bs
            (env.content.drop s'.offset)) s := by
  unfold parseItems
  rw [wp_bind, wp_get, wp_ite, wp_pure]
  refine ⟨fun _ => hlive, fun hlimit => ?_⟩
  rw [not_le, hdepth] at hlimit
  rw [wp_bind, wp_enter, wp_bind, hopens _ { s with depth := s.depth + 1 } hoffset,
    wp_ite, wp_pure]
  refine ⟨fun _ => hlive, fun hopening => ?_⟩
  simp only [Bool.not_eq_true, Bool.not_eq_false'] at hopening
  have hdrop := drop_succ_of_nextIs hopening
  rw [wp_bind, wp_advance, wp_bind, wp_bufferSkipWhitespace, wp_bind, wp_isAt, wp_ite]
  dsimp only at hdrop ⊢
  obtain ⟨ws, hws, hblank⟩ := drop_skipTo env.content (s.offset + 1)
  have hskip : s.offset + 1 ≤ skipTo env.content (s.offset + 1) := le_skipTo
  have hskip' : skipTo env.content (s.offset + 1) ≤ env.content.length :=
    skipTo_le (Nat.succ_le_of_lt hoffset)
  constructor
  · -- nothing between the brackets
    intro hclosing
    have hinside := lt_of_nextIs hclosing
    unfold finishItems
    rw [wp_bind, wp_leave, wp_bind, wp_advance, wp_pure]
    refine ⟨hlimit, [], [], rfl, rfl, ?_, ?_, rfl, hlive, ?_⟩
    · show s.offset ≤ skipTo env.content (s.offset + 1) + 1
      omega
    · exact hinside
    · rw [hdrop, hws, drop_succ_of_nextIs hclosing]
      exact .empty hblank
  · intro _
    rw [wp_bind, wp_canAccessAtIndex, wp_ite]
    constructor
    · intro _
      rw [wp_bind, wp_stepBack, wp_pure]
      exact hlive
    · intro haccess
      simp only [Bool.not_eq_true, Bool.not_eq_false', decide_eq_true_eq, Nat.add_zero] at haccess
      rw [wp_bind, wp_stepBack, wp_bind, wp_read, wp_bind]
      -- the loop starts one byte in front of the first member
      have hback : skipTo env.content (s.offset + 1) - 1 + 1 =
          skipTo env.content (s.offset + 1) := by omega
      have hfuel : env.content.length ≤
          skipTo env.content (s.offset + 1) - 1 + (env.content.length + 1) := by omega
      have hstart : skipTo env.content (s.offset + 1) - 1 + 1 < env.content.length := by omega
      have hdepth₁ : s.depth + 1 = depth + 1 := by rw [hdepth]
      refine Wp.mono (@itemsLoop_sound env _ base β (depth + 1) G val parseMember hlast
        (hmember hlimit) _ [] [] hfuel hstart hdepth₁ rfl hlive) ?_
      intro r s₂ hr
      cases r with
      | none =>
        rw [wp_pure]
        exact hr
      | some head =>
        obtain ⟨hlt, hle, hdepth₂, hlive₂, bs, hbs, hsep⟩ := hr
        dsimp only at hlt hsep ⊢
        rw [hback] at hsep
        rw [wp_bind, wp_isAt, wp_ite]
        constructor
        · intro _
          rw [wp_bind]
          apply wp_deleteItems hlive₂
          intro heap hheap
          rw [wp_pure]
          exact hheap
        · intro hclosing
          simp only [Bool.not_eq_true, Bool.not_eq_false'] at hclosing
          have hinside := lt_of_nextIs hclosing
          unfold finishItems
          rw [wp_bind, wp_leave, wp_bind, wp_advance, wp_pure]
          refine ⟨hlimit, head, bs, rfl, hbs, ?_, hinside, ?_, hlive₂, ?_⟩
          · show s.offset ≤ s₂.offset + 1
            omega
          · show s₂.depth - 1 = s.depth
            omega
          · rw [hdrop, hws]
            rw [drop_succ_of_nextIs hclosing] at hsep
            exact .filled (hsep.prepend hblank)

end Items

/-! ### Values -/

/-- The level of the values at a depth. -/
theorem level_of_depth {depth : ℕ} (h : depth < CJSON_NESTING_LIMIT) :
    CJSON_NESTING_LIMIT - depth = CJSON_NESTING_LIMIT - (depth + 1) + 1 := by omega

/-- Whether a number starts at an offset. -/
def numberAt (content : List UInt8) (offset : ℕ) : Bool := (content[offset]?).any startsNumber

theorem wp_startsNumber {Q : Bool → ParseState → Prop} :
    Wp env (do if ← canAccessAtIndex 0 then return startsNumber (← byteAt 0) else return false) Q s ↔
      Q (numberAt env.content s.offset) s := by
  unfold numberAt
  rw [wp_bind, wp_canAccessAtIndex, wp_ite, wp_bind, wp_byteAt, wp_pure, decide_eq_true_eq,
    Nat.add_zero]
  by_cases h : s.offset < env.content.length
  · simp [h]
  · simp [h]

section Values

variable {depth : ℕ} {item : Item} {G : List UInt8 → CJson → List UInt8 → Prop}

theorem wp_opensArray {Q : Bool → ParseState → Prop} (h : s.offset < env.content.length) :
    Wp env (do return (← byteAt 0) == 91) Q s ↔ Q (nextIs env.content s.offset 91) s := by
  unfold nextIs
  rw [wp_bind, wp_byteAt, Nat.add_zero]
  simp [h]

theorem parseArray_sound (hlast : env.content.getLast? ≠ some 44)
    {parseValue : Item → Parse (Option Item)}
    (h : depth < CJSON_NESTING_LIMIT → SoundValue env (depth + 1)
      (lenient.Value (CJSON_NESTING_LIMIT - (depth + 1))) parseValue)
    (hfresh : item.Fresh) (hoffset : s.offset < env.content.length) (hdepth : s.depth = depth)
    (hlive : s.heap.live.Perm (item.blocks ++ base)) :
    Wp env (parseArray parseValue item)
      (fun r s' => r.elim (s'.heap.live.Perm (item.blocks ++ base)) fun item' =>
        Parsed env (lenient.Value (CJSON_NESTING_LIMIT - depth)) base item s item' s') s := by
  unfold parseArray
  refine Wp.mono (parseItems_sound hlast (fun hlimit => parseElement_sound (h hlimit))
    (fun Q s hs => wp_opensArray hs) hoffset hdepth hlive) ?_
  intro r s' hr
  cases r with
  | none => exact hr
  | some item' =>
    obtain ⟨hlimit, head, bs, rfl, hbs, hle, hle', hdepth', hlive', hbracketed⟩ := hr
    refine ⟨hle, hle', hdepth', rfl, ?_, .array bs, ?_, ?_⟩
    · rw [hfresh.blocks_child, List.append_assoc]
      exact hlive'
    · show (Item.elementValues head).map CJson.array = _
      rw [Item.elementValues_eq, hbs]
      rfl
    · exact (Dialect.Container.array hbracketed).value (level_of_depth hlimit)

theorem parseObject_sound (hlast : env.content.getLast? ≠ some 44)
    {parseValue : Item → Parse (Option Item)}
    (h : depth < CJSON_NESTING_LIMIT → SoundValue env (depth + 1)
      (lenient.Value (CJSON_NESTING_LIMIT - (depth + 1))) parseValue)
    (hfresh : item.Fresh) (hoffset : s.offset < env.content.length) (hdepth : s.depth = depth)
    (hlive : s.heap.live.Perm (item.blocks ++ base)) :
    Wp env (parseObject parseValue item)
      (fun r s' => r.elim (s'.heap.live.Perm (item.blocks ++ base)) fun item' =>
        Parsed env (lenient.Value (CJSON_NESTING_LIMIT - depth)) base item s item' s') s := by
  unfold parseObject
  refine Wp.mono (parseItems_sound hlast (fun hlimit => parseMember_sound (h hlimit))
    (fun Q s _ => wp_isAt) hoffset hdepth hlive) ?_
  intro r s' hr
  cases r with
  | none => exact hr
  | some item' =>
    obtain ⟨hlimit, head, bs, rfl, hbs, hle, hle', hdepth', hlive', hbracketed⟩ := hr
    refine ⟨hle, hle', hdepth', rfl, ?_, .object bs, ?_, ?_⟩
    · rw [hfresh.blocks_child, List.append_assoc]
      exact hlive'
    · show (Item.memberValues head).map CJson.object = _
      rw [Item.memberValues_eq, hbs]
      rfl
    · exact (Dialect.Container.object hbracketed).value (level_of_depth hlimit)

/-- The text in front of the offset. -/
theorem drop_of_isPrefixOf {content text : List UInt8} {offset : ℕ}
    (h : text.isPrefixOf (content.drop offset) = true) (hoffset : offset ≤ content.length) :
    content.drop offset = text ++ content.drop (offset + text.length) ∧
      offset + text.length ≤ content.length := by
  obtain ⟨rest, hrest⟩ := List.isPrefixOf_iff_prefix.mp h
  have hlength := congrArg List.length hrest
  rw [List.length_append, List.length_drop] at hlength
  constructor
  · rw [← List.drop_drop, ← hrest, List.drop_left]
  · omega

/-- A literal at the offset, for an item that differs in its type and its number only. -/
theorem parsed_literal {text : List UInt8} {item' : Item} {v : CJson}
    (htext : text.isPrefixOf (env.content.drop s.offset) = true)
    (hoffset : s.offset ≤ env.content.length) (hlive : s.heap.live.Perm (item.blocks ++ base))
    (hblocks : item'.blocks = item.blocks) (hstring : item'.string = item.string)
    (hvalue : item'.value = some v) (level : ℕ)
    (hscalar : ∀ rest, lenient.Scalar (text ++ rest) v rest) :
    Parsed env (lenient.Value level) base item s item'
      { s with offset := s.offset + text.length } := by
  obtain ⟨hdrop, hle⟩ := drop_of_isPrefixOf htext hoffset
  refine ⟨Nat.le_add_right _ _, hle, rfl, hstring, ?_, v, hvalue, ?_⟩
  · rw [hblocks]
    exact hlive
  · rw [hdrop]
    exact (hscalar _).value level

/-- **`parse_value`** is defined on every buffer that does not end in a comma, reads a value, and
gives back what it has allocated when it fails. -/
theorem parseValue_sound (hlast : env.content.getLast? ≠ some 44) {fuel : ℕ}
    (hfuel : CJSON_NESTING_LIMIT + 1 ≤ fuel + depth) (hdepth : depth ≤ CJSON_NESTING_LIMIT) :
    SoundValue env depth (lenient.Value (CJSON_NESTING_LIMIT - depth)) (parseValue fuel) := by
  induction fuel generalizing depth with
  | zero => omega
  | succ fuel ih =>
    intro item s base hfresh hoffset hs hlive
    -- an array or an object hands on one level less
    have hinner : depth < CJSON_NESTING_LIMIT → SoundValue env (depth + 1)
        (lenient.Value (CJSON_NESTING_LIMIT - (depth + 1))) (parseValue fuel) :=
      fun hlimit => ih (by omega) hlimit
    unfold parseValue
    rw [wp_bind, wp_readsText (by decide), wp_ite]
    refine ⟨fun hnull => ?_, fun _ => ?_⟩
    · rw [wp_bind, wp_advance, wp_pure]
      exact parsed_literal hnull hoffset hlive (Item.blocks_scalar _ _ _ _) rfl rfl _
        fun rest => .null
    rw [wp_bind, wp_readsText (by decide), wp_ite]
    refine ⟨fun hfalse => ?_, fun _ => ?_⟩
    · rw [wp_bind, wp_advance, wp_pure]
      exact parsed_literal hfalse hoffset hlive (Item.blocks_scalar _ _ _ _) rfl rfl _
        fun rest => .false
    rw [wp_bind, wp_readsText (by decide), wp_ite]
    refine ⟨fun htrue => ?_, fun _ => ?_⟩
    · rw [wp_bind, wp_advance, wp_pure]
      exact parsed_literal htrue hoffset hlive (Item.blocks_scalar _ _ _ _) rfl rfl _
        fun rest => .true
    rw [wp_bind, wp_isAt, wp_ite]
    refine ⟨fun hquote => ?_, fun _ => ?_⟩
    · -- a string
      refine Wp.mono (parseString_sound (lt_of_nextIs hquote) hlive) ?_
      intro r s' hr
      cases r with
      | none => exact hr
      | some item' =>
        obtain ⟨block, ⟨rfl, hlt, hle, hdepth', hlive'⟩, hstring⟩ := hr
        refine ⟨hlt.le, hle, hdepth', rfl, ?_, .string block.text, rfl, ?_⟩
        · rw [hfresh.blocks_string]
          exact hlive'
        · exact (Dialect.Scalar.string hstring).value _
    rw [wp_bind, wp_startsNumber, wp_ite]
    refine ⟨fun _ => ?_, fun _ => ?_⟩
    · -- a number
      refine Wp.mono (parseNumber_sound hoffset) ?_
      intro r s' hr
      cases r with
      | none =>
        obtain rfl : s' = s := hr
        exact hlive
      | some item' =>
        obtain ⟨q, rfl, hnumber, hle, hle', hdepth', hheap⟩ := hr
        refine ⟨hle, hle', hdepth', rfl, ?_, .number q, ?_, ?_⟩
        · rw [hheap, Item.blocks_scalar]
          exact hlive
        · show (if doubleToInt q = doubleToInt q then _ else _) = _
          rw [if_pos rfl]
        · exact (Dialect.Scalar.number hnumber).value _
    rw [wp_bind, wp_isAt, wp_ite]
    refine ⟨fun hopening => ?_, fun _ => ?_⟩
    · exact parseArray_sound hlast hinner hfresh (lt_of_nextIs hopening) hs hlive
    rw [wp_bind, wp_isAt, wp_ite]
    refine ⟨fun hopening => ?_, fun _ => ?_⟩
    · exact parseObject_sound hlast hinner hfresh (lt_of_nextIs hopening) hs hlive
    rw [wp_pure]
    exact hlive

end Values

end IotDeviceSdk.Json
