import IotDeviceSdk.CJson.Equiv.Grammar
import IotDeviceSdk.CJson.Equiv.PrintValue

/-!
# The text of an item is JSON

`strict_text`: the text of an item that stands for a value is JSON for the value with its numbers
as they are read back (`CJson.reprinted`), formatted or not.

A string is the tokens of its bytes (`spells_flatMap`); elements and members are `Separated` by the
commas between them, with the blanks of the format around them.
-/

namespace IotDeviceSdk

open Text

namespace CJson

mutual

/-- What a value is read back as when it has been printed. -/
def reprinted : CJson → CJson
  | .null => .null
  | .bool b => .bool b
  | .number d => if isInf d then .null else .number (Json.rereadNumber d)
  | .string s => .string s
  | .array child => .array (reprintedElements child)
  | .object child => .object (reprintedMembers child)
termination_by structural v => v

def reprintedElements : List CJson → List CJson
  | [] => []
  | v :: vs => reprinted v :: reprintedElements vs
termination_by structural vs => vs

def reprintedMembers : List (String × CJson) → List (String × CJson)
  | [] => []
  | (key, v) :: members => (key, reprinted v) :: reprintedMembers members
termination_by structural members => members

end

end CJson

namespace Json

/-! ### Strings -/

theorem escapedByte_of_escapeLetter {b letter : UInt8} (h : escapeLetter b = some letter) :
    escapedByte letter = some b := by
  have hall := forall_byte
    (P := fun b => ((escapeLetter b).all fun letter => escapedByte letter == some b) = true)
    (by decide +kernel) b
  rw [h] at hall
  exact eq_of_beq hall

theorem hexValue_hexWord (b : UInt8) : hexValue (hexWord b) = some b.toNat :=
  forall_byte (P := fun b => hexValue (hexWord b) = some b.toNat) (by decide +kernel) b

theorem hexWord_plain (b : UInt8) : ∀ c ∈ hexWord b, c ≠ 34 ∧ c ≠ 92 ∧ 32 ≤ c :=
  fun c hc => of_decide_eq_true (List.all_eq_true.mp (forall_byte
    (P := fun b => ((hexWord b).all fun c => decide (c ≠ 34 ∧ c ≠ 92 ∧ 32 ≤ c)) = true)
    (by decide +kernel) b) c hc)

/-- A byte without a letter that has to be escaped is a control character. -/
theorem lt_of_escapeLetter_none {b : UInt8} (h : ¬(31 < b ∧ b ≠ 34 ∧ b ≠ 92))
    (hletter : escapeLetter b = none) : b.toNat < 128 :=
  forall_byte (P := fun b => ¬(31 < b ∧ b ≠ 34 ∧ b ≠ 92) → escapeLetter b = none → b.toNat < 128)
    (by decide +kernel) b h hletter

theorem utf8EncodeChar_byte {b : UInt8} (h : b.toNat < 128) :
    String.utf8EncodeChar (Char.ofNat b.toNat) = [b] :=
  forall_byte (P := fun b => b.toNat < 128 → String.utf8EncodeChar (Char.ofNat b.toNat) = [b])
    (by decide +kernel) b h

/-- A byte is a token when it has been escaped. -/
theorem token_escaped (b : UInt8) : Token (escaped b) [b] := by
  unfold escaped
  split_ifs with hplain
  · exact .byte hplain.2.2
  · cases hletter : escapeLetter b with
    | some letter => exact .escape (escapedByte_of_escapeLetter hletter)
    | none =>
      have hlt := lt_of_escapeLetter_none hplain hletter
      rw [← utf8EncodeChar_byte hlt]
      refine .unit rfl ?_
      rw [toNat_charOfByte]
      exact hexValue_hexWord b

theorem spells_flatMap (bytes : List UInt8) : Spells (bytes.flatMap escaped) bytes := by
  induction bytes with
  | nil => exact .nil
  | cons b bytes ih => exact .token (token_escaped b) ih

theorem closed_append {text body : List UInt8} (h : ∀ c ∈ text, c ≠ 34 ∧ c ≠ 92)
    (hbody : Closed body) : Closed (text ++ body) := by
  induction text with
  | nil => exact hbody
  | cons c text ih =>
    obtain ⟨hquote, hslash⟩ := h c List.mem_cons_self
    exact .byte hquote hslash (ih fun c' hc' => h c' (List.mem_cons_of_mem _ hc'))

theorem closed_escaped (b : UInt8) {body : List UInt8} (h : Closed body) :
    Closed (escaped b ++ body) := by
  unfold escaped
  split_ifs with hplain
  · exact .byte hplain.2.1 hplain.2.2 h
  · cases hletter : escapeLetter b with
    | some letter => exact .escape h
    | none =>
      refine .escape (closed_append ?_ h)
      intro c hc
      obtain ⟨hquote, hslash, -⟩ := hexWord_plain b c hc
      exact ⟨hquote, hslash⟩

theorem closed_flatMap (bytes : List UInt8) : Closed (bytes.flatMap escaped) := by
  induction bytes with
  | nil => exact .nil
  | cons b bytes ih => exact closed_escaped b ih

theorem escaped_ge (b : UInt8) : ∀ c ∈ escaped b, 32 ≤ c :=
  fun c hc => of_decide_eq_true (List.all_eq_true.mp (forall_byte
    (P := fun b => ((escaped b).all fun c => decide (32 ≤ c)) = true) (by decide +kernel) b) c hc)

/-- **A printed string is a string of JSON** with the bytes it has been printed from. -/
theorem strict_quoted (block : TextBlock) (rest : List UInt8) :
    strict.Str (quoted (some block) ++ rest) block.text rest := by
  refine ⟨stringBody (some block), cString block.bytes, ?_, closed_flatMap _, spells_flatMap _, ?_,
    zero_not_mem_cString _, rfl⟩
  · unfold quoted
    rw [List.cons_append, List.append_assoc]
    rfl
  · intro c hc
    obtain ⟨b, -, hb⟩ := List.mem_flatMap.mp hc
    exact escaped_ge b c hb

/-! ### Blanks -/

/-- A blank where the text is formatted. -/
def blankIf (format : Bool) (b : UInt8) : List UInt8 := if format then [b] else []

theorem blank_of_mem_blankIf (format : Bool) {b : UInt8} (hb : strict.Blank b) :
    ∀ c ∈ blankIf format b, strict.Blank c := by
  intro c hc
  unfold blankIf at hc
  split_ifs at hc
  · obtain rfl := List.mem_singleton.mp hc
    exact hb
  · cases hc

theorem blank_of_mem_tabs (format : Bool) (depth : ℕ) :
    ∀ b ∈ tabs format depth, strict.Blank b :=
  fun _ hb => .inl (List.eq_of_mem_replicate hb)

theorem blank_append {ws ws' : List UInt8} (h : ∀ b ∈ ws, strict.Blank b)
    (h' : ∀ b ∈ ws', strict.Blank b) : ∀ b ∈ ws ++ ws', strict.Blank b :=
  fun b hb => (List.mem_append.mp hb).elim (h b) (h' b)

theorem comma_eq (format : Bool) : comma format true = 44 :: blankIf format 32 := by
  cases format <;> rfl

theorem memberEnd_eq (format : Bool) : memberEnd format true = 44 :: blankIf format 10 := by
  cases format <;> rfl

theorem colon_eq (format : Bool) : colon format = 58 :: blankIf format 9 := by
  cases format <;> rfl

theorem objectStart_eq (format : Bool) : objectStart format = 123 :: blankIf format 10 := by
  cases format <;> rfl

theorem strict_blank_newline : strict.Blank 10 := .inr (.inl rfl)

theorem strict_blank_tab : strict.Blank 9 := .inl rfl

theorem strict_blank_space : strict.Blank 32 := .inr (.inr (.inr rfl))

/-! ### Items -/

/-- The next byte is none of a number. -/
def EndsNumber (rest : List UInt8) : Prop := ∀ b ∈ rest.head?, isNumberByte b = false

/-- The text of an item is JSON for the value it stands for. -/
def ItemText (format : Bool) (item : Item) : Prop :=
  ∀ v level depth, item.value = some v → v.nesting ≤ level →
    ∃ text, item.text format depth = some text ∧ ∀ rest, EndsNumber rest →
      strict.Value level (text ++ rest) v.reprinted rest

/-- The texts of items are JSON for the elements of an array, and for the members of an object. -/
structure ListText (format : Bool) (items : List Item) : Prop where
  elements : ∀ vs level depth, Item.elementValues items = some vs →
    CJson.elementsNesting vs ≤ level → items ≠ [] →
    ∃ text, Item.elementsText format depth items = some text ∧ ∀ rest,
      Separated strict.Blank 44 (strict.Value level) (text ++ 93 :: rest)
        (CJson.reprintedElements vs) (93 :: rest)
  members : ∀ members level depth, Item.memberValues items = some members →
    CJson.membersNesting members ≤ level → items ≠ [] →
    ∃ text, Item.membersText format depth items = some text ∧ ∀ ws rest,
      (∀ b ∈ ws, strict.Blank b) →
      Separated strict.Blank 44 (strict.Member (strict.Value level)) (text ++ (ws ++ 125 :: rest))
        (CJson.reprintedMembers members) (125 :: rest)

variable {format : Bool}

theorem numberBuffer_strict {valueint : ℤ} {d : ℚ} (hlow : INT_MIN ≤ valueint)
    (hhigh : valueint ≤ INT_MAX) (hd : IsDouble d) (hsame : valueint = doubleToInt d) (level : ℕ) :
    ∃ text, numberBuffer valueint d = some text ∧ ∀ rest, EndsNumber rest →
      strict.Value level (text ++ rest) (CJson.number d).reprinted rest := by
  cases hinf : isInf d with
  | true =>
    refine ⟨ascii "null", ?_, fun rest _ => ?_⟩
    · rw [numberBuffer, if_pos hinf]
      exact sprintfNumber_of_length (by decide)
    · have hnull : (CJson.number d).reprinted = .null := if_pos hinf
      rw [hnull]
      exact Dialect.Scalar.null.value level
  | false =>
    obtain ⟨n, hn, hlength, hbuffer, hreread⟩ := numberBuffer_spec hlow hhigh hd hinf
    refine ⟨_, hbuffer, fun rest hrest => ?_⟩
    have hnumber : (CJson.number d).reprinted = .number (rereadNumber d) :=
      if_neg (by rw [hinf]; exact Bool.false_ne_true)
    rw [hnumber, ← hreread hsame]
    have hnum : strict.Num (bytesOfChars n.text ++ rest) (toDouble n.value) rest :=
      ⟨n, hn, by omega, rfl, hrest, rfl⟩
    exact (Dialect.Scalar.number hnum).value level

/-- The members behind the first one, with the blanks that follow the comma. -/
theorem separated_cons {β : Type} {G : List UInt8 → β → List UInt8 → Prop}
    {first ws next rest : List UInt8} {b : β} {bs : List β} (hws : ∀ c ∈ ws, strict.Blank c)
    (hfirst : G (first ++ 44 :: (ws ++ next)) b (44 :: (ws ++ next)))
    (hnext : Separated strict.Blank 44 G next bs rest) :
    Separated strict.Blank 44 G (first ++ 44 :: (ws ++ next)) (b :: bs) rest :=
  @Separated.more _ _ _ _ _ [] _ [] _ _ _ _ (by simp) hfirst (by simp) (hnext.prepend hws)

theorem separated_last {β : Type} {G : List UInt8 → β → List UInt8 → Prop}
    {first ws rest : List UInt8} {b : β} (hws : ∀ c ∈ ws, strict.Blank c)
    (hfirst : G (first ++ (ws ++ rest)) b (ws ++ rest)) :
    Separated strict.Blank 44 G (first ++ (ws ++ rest)) [b] rest :=
  @Separated.last _ _ _ _ _ [] _ ws _ _ (by simp) hfirst hws

theorem Item.elementValues_cons {item : Item} {next : List Item} {vs : List CJson}
    (h : elementValues (item :: next) = some vs) :
    ∃ v vs', item.value = some v ∧ elementValues next = some vs' ∧ vs = v :: vs' := by
  obtain ⟨v, hv, h⟩ := Option.bind_eq_some_iff.mp h
  obtain ⟨vs', hvs', h⟩ := Option.bind_eq_some_iff.mp h
  exact ⟨v, vs', hv, hvs', (Option.some.inj h).symm⟩

theorem Item.memberValues_cons {item : Item} {next : List Item} {members : List (String × CJson)}
    (h : memberValues (item :: next) = some members) :
    ∃ key v members', item.string = some key ∧ item.value = some v ∧
      memberValues next = some members' ∧ members = (key.text, v) :: members' := by
  obtain ⟨key, hkey, h⟩ := Option.bind_eq_some_iff.mp h
  obtain ⟨v, hv, h⟩ := Option.bind_eq_some_iff.mp h
  obtain ⟨members', hmembers', h⟩ := Option.bind_eq_some_iff.mp h
  exact ⟨key, v, members', hkey, hv, hmembers', (Option.some.inj h).symm⟩

theorem endsNumber_blank {ws rest : List UInt8} (hws : ∀ b ∈ ws, strict.Blank b)
    (hrest : EndsNumber rest) : EndsNumber (ws ++ rest) := by
  cases ws with
  | nil => exact hrest
  | cons c ws =>
    intro b hb
    obtain rfl := Option.some.inj hb
    rcases hws c List.mem_cons_self with rfl | rfl | rfl | rfl <;> decide

theorem endsNumber_cons {b : UInt8} (h : isNumberByte b = false) (rest : List UInt8) :
    EndsNumber (b :: rest) := by
  intro c hc
  obtain rfl := Option.some.inj hc
  exact h

/-- An item in front of the others of an array. -/
theorem ItemText.elements {item : Item} {next : List Item} (hitem : ItemText format item)
    (hnext : ListText format next) {vs : List CJson} {level : ℕ} (depth : ℕ)
    (hvalues : Item.elementValues (item :: next) = some vs)
    (hlevel : CJson.elementsNesting vs ≤ level) :
    ∃ text, Item.elementsText format depth (item :: next) = some text ∧ ∀ rest,
      Separated strict.Blank 44 (strict.Value level) (text ++ 93 :: rest)
        (CJson.reprintedElements vs) (93 :: rest) := by
  obtain ⟨v, vs', hv, hvs', rfl⟩ := Item.elementValues_cons hvalues
  obtain ⟨hfirst, hrest⟩ := max_le_iff.mp hlevel
  obtain ⟨text, htext, hvalue⟩ := hitem v level depth hv hfirst
  cases next with
  | nil =>
    obtain rfl := Option.some.inj hvs'
    refine ⟨text, ?_, fun rest => ?_⟩
    · show (item.text format depth).bind _ = _
      rw [htext]
      exact congrArg some (List.append_nil text)
    · exact @separated_last _ _ _ [] _ _ (by simp) (hvalue _ (endsNumber_cons (by decide) rest))
  | cons item' next =>
    obtain ⟨more, hmore, hseparated⟩ := hnext.elements vs' level depth hvs' hrest (by simp)
    refine ⟨text ++ (comma format true ++ more), ?_, fun rest => ?_⟩
    · show (item.text format depth).bind _ = _
      rw [htext, Option.bind_some, hmore]
      rfl
    · rw [comma_eq, List.append_assoc, List.append_assoc, List.cons_append]
      exact separated_cons (blank_of_mem_blankIf format strict_blank_space)
        (hvalue _ (endsNumber_cons (by decide) _)) (hseparated rest)

/-- A name in front of its value. -/
theorem strict_member (format : Bool) (key : TextBlock) {v : CJson} {level : ℕ}
    {text rest : List UInt8}
    (hvalue : strict.Value level (text ++ rest) v rest) :
    strict.Member (strict.Value level) (quoted (some key) ++ (colon format ++ (text ++ rest)))
      (key.text, v) rest := by
  rw [colon_eq, List.cons_append]
  refine @Dialect.Member.mk _ _ _ [] _ (text ++ rest) rest _ v (strict_quoted key _) (by simp)
    (blank_of_mem_blankIf format strict_blank_tab) hvalue

/-- An item in front of the others of an object. -/
theorem ItemText.members {item : Item} {next : List Item} (hitem : ItemText format item)
    (hnext : ListText format next) {members : List (String × CJson)} {level : ℕ} (depth : ℕ)
    (hvalues : Item.memberValues (item :: next) = some members)
    (hlevel : CJson.membersNesting members ≤ level) :
    ∃ text, Item.membersText format depth (item :: next) = some text ∧ ∀ ws rest,
      (∀ b ∈ ws, strict.Blank b) →
      Separated strict.Blank 44 (strict.Member (strict.Value level)) (text ++ (ws ++ 125 :: rest))
        (CJson.reprintedMembers members) (125 :: rest) := by
  obtain ⟨key, v, members', hkey, hv, hmembers', rfl⟩ := Item.memberValues_cons hvalues
  obtain ⟨hfirst, hrest⟩ := max_le_iff.mp hlevel
  obtain ⟨text, htext, hvalue⟩ := hitem v level depth hv hfirst
  have hnewline := blank_of_mem_blankIf format strict_blank_newline
  cases next with
  | nil =>
    obtain rfl := Option.some.inj hmembers'
    refine ⟨keyText format depth (some key) ++ (text ++ (blankIf format 10 ++ [])), ?_, ?_⟩
    · show (item.text format depth).bind _ = _
      rw [htext, hkey]
      rfl
    · intro ws rest hws
      have hblank := blank_append hnewline hws
      have hclosing : isNumberByte 125 = false := by decide
      have hends := endsNumber_blank hblank (endsNumber_cons hclosing rest)
      have hmember := strict_member format key (hvalue _ hends)
      have hlast := @separated_last _ _ (quoted (some key) ++ (colon format ++ text)) _ _ _ hblank
        (by simpa only [List.append_assoc] using hmember)
      have hall := hlast.prepend (blank_of_mem_tabs format depth)
      simpa only [keyText, List.append_assoc, List.append_nil, CJson.reprintedMembers] using hall
  | cons item' next =>
    obtain ⟨more, hmore, hseparated⟩ := hnext.members members' level depth hmembers' hrest (by simp)
    refine ⟨keyText format depth (some key) ++ (text ++ (memberEnd format true ++ more)), ?_, ?_⟩
    · show (item.text format depth).bind _ = _
      rw [htext, Option.bind_some, hmore, hkey]
      rfl
    · intro ws rest hws
      have hmember := strict_member format key
        (hvalue (44 :: (blankIf format 10 ++ (more ++ (ws ++ 125 :: rest))))
          (endsNumber_cons (by decide) _))
      have hmore' := @separated_cons _ _ (quoted (some key) ++ (colon format ++ text)) _ _ _ _ _
        hnewline (by simpa only [List.append_assoc] using hmember) (hseparated ws rest hws)
      have hall := hmore'.prepend (blank_of_mem_tabs format depth)
      simpa only [keyText, memberEnd_eq, List.append_assoc, List.cons_append,
        CJson.reprintedMembers] using hall

theorem strict_text_aux (format : Bool) :
    (∀ item : Item, item.Typed → ItemText format item) ∧
    ∀ items, Item.ListTyped items → ListText format items := by
  apply Item.both_induction
  · rintro ⟨address, type, isReference, stringIsConst, valuestring, valueint, valuedouble, string,
      child⟩ ih ⟨hnumber, hchild⟩ v level depth hvalue hlevel
    cases type with
    | invalid => cases hvalue
    | raw => cases hvalue
    | false =>
      obtain rfl := Option.some.inj hvalue
      exact ⟨_, rfl, fun rest _ => Dialect.Scalar.false.value level⟩
    | true =>
      obtain rfl := Option.some.inj hvalue
      exact ⟨_, rfl, fun rest _ => Dialect.Scalar.true.value level⟩
    | null =>
      obtain rfl := Option.some.inj hvalue
      exact ⟨_, rfl, fun rest _ => Dialect.Scalar.null.value level⟩
    | number =>
      obtain ⟨hlow, hhigh, hdouble⟩ := hnumber rfl
      -- an item has a value when its integer is that of its double
      change (if valueint = doubleToInt valuedouble then _ else _) = _ at hvalue
      split_ifs at hvalue with hsame
      obtain rfl := Option.some.inj hvalue
      exact numberBuffer_strict hlow hhigh hdouble hsame level
    | string =>
      obtain ⟨block, hblock, rfl⟩ := Option.map_eq_some_iff.mp hvalue
      obtain rfl : valuestring = some block := hblock
      exact ⟨_, rfl, fun rest _ => (Dialect.Scalar.string (strict_quoted block rest)).value level⟩
    | array =>
      obtain ⟨vs, hvs, rfl⟩ := Option.map_eq_some_iff.mp hvalue
      obtain ⟨level', rfl⟩ := Nat.exists_eq_add_of_le' (Nat.le_of_add_left_le hlevel)
      have hlevel' : CJson.elementsNesting vs ≤ level' := Nat.le_of_succ_le_succ hlevel
      cases child with
      -- brackets with nothing between them
      | nil =>
        obtain rfl := Option.some.inj hvs
        refine ⟨[91, 93], rfl, fun rest _ => .inr (.array ?_)⟩
        exact @Bracketed.empty _ _ _ _ _ _ _ [] rest (by simp)
      | cons item next =>
        obtain ⟨text, htext, hseparated⟩ :=
          (ih (hchild (.inl rfl))).elements vs level' (depth + 1) hvs hlevel' (by simp)
        refine ⟨91 :: (text ++ [93]), congrArg (Option.map _) htext, fun rest _ => ?_⟩
        refine .inr (.array ?_)
        rw [List.cons_append, List.append_assoc]
        exact .filled (hseparated rest)
    | object =>
      obtain ⟨members, hmembers, rfl⟩ := Option.map_eq_some_iff.mp hvalue
      obtain ⟨level', rfl⟩ := Nat.exists_eq_add_of_le' (Nat.le_of_add_left_le hlevel)
      have hlevel' : CJson.membersNesting members ≤ level' := Nat.le_of_succ_le_succ hlevel
      have hnewline := blank_of_mem_blankIf format strict_blank_newline
      have htabs := blank_of_mem_tabs format depth
      cases child with
      -- an empty object keeps its newline and its tabs
      | nil =>
        obtain rfl := Option.some.inj hmembers
        refine ⟨objectStart format ++ ([] ++ objectEnd format depth), rfl, fun rest _ => ?_⟩
        refine .inr (.object ?_)
        have hempty := @Bracketed.empty _ _ 123 125 strict.Blank 44
          (strict.Member (strict.Value level')) _ rest (blank_append hnewline htabs)
        simpa only [objectStart_eq, objectEnd, List.append_assoc, List.cons_append,
          List.nil_append, CJson.reprintedMembers] using hempty
      | cons item next =>
        obtain ⟨text, htext, hseparated⟩ :=
          (ih (hchild (.inr rfl))).members members level' (depth + 1) hmembers hlevel' (by simp)
        refine ⟨objectStart format ++ (text ++ objectEnd format depth),
          congrArg (Option.map _) htext, fun rest _ => ?_⟩
        refine .inr (.object ?_)
        have hfilled := @Bracketed.filled _ _ 123 125 _ _ _ _ _ _
          ((hseparated (tabs format depth) rest htabs).prepend hnewline)
        simpa only [objectStart_eq, objectEnd, List.append_assoc, List.cons_append,
          List.nil_append] using hfilled
  · intro _
    exact ⟨fun _ _ _ _ _ hne => absurd rfl hne, fun _ _ _ _ _ hne => absurd rfl hne⟩
  · rintro item next hitem hnext ⟨htyped, htyped'⟩
    exact ⟨fun vs level depth hvs hlevel _ =>
        (hitem htyped).elements (hnext htyped') depth hvs hlevel,
      fun members level depth hmembers hlevel _ =>
        (hitem htyped).members (hnext htyped') depth hmembers hlevel⟩

/-- **A printed value is JSON** for the value with its numbers as they are read back. -/
theorem strict_text (format : Bool) {item : Item} (htyped : item.Typed) {v : CJson}
    (hvalue : item.value = some v) {level : ℕ} (hlevel : v.nesting ≤ level) (depth : ℕ) :
    ∃ text, item.text format depth = some text ∧ ∀ rest, EndsNumber rest →
      strict.Value level (text ++ rest) v.reprinted rest :=
  (strict_text_aux format).1 item htyped v level depth hvalue hlevel

end Json

end IotDeviceSdk
