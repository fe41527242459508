import IotDeviceSdk.CJson.Grammar
import IotDeviceSdk.Libc.Decimal

/-!
# Facts about the grammar of JSON

* `Value.nesting_le`: a value at a level has no more arrays and objects around a scalar.
* `strict_head`: a value of JSON starts with a byte that says what it is, and is no white space.
-/

namespace IotDeviceSdk

open Text

namespace Json.Dialect

variable {d : Dialect}

/-! ### Levels -/

theorem Scalar.value {input rest : List UInt8} {v : CJson} (h : d.Scalar input v rest)
    (level : ℕ) : d.Value level input v rest := by
  cases level with
  | zero => exact h
  | succ level => exact .inl h

theorem Container.value {input rest : List UInt8} {v : CJson} {level level' : ℕ}
    (h : d.Container (d.Value level) input v rest) (hlevel : level' = level + 1) :
    d.Value level' input v rest := by
  subst hlevel
  exact .inr h

theorem elementsNesting_le {n : ℕ} {vs : List CJson} (h : ∀ v ∈ vs, v.nesting ≤ n) :
    CJson.elementsNesting vs ≤ n := by
  induction vs with
  | nil => exact Nat.zero_le _
  | cons v vs ih =>
    exact max_le (h v List.mem_cons_self) (ih fun v' hv' => h v' (List.mem_cons_of_mem _ hv'))

theorem membersNesting_le {n : ℕ} {members : List (String × CJson)}
    (h : ∀ m ∈ members, m.2.nesting ≤ n) : CJson.membersNesting members ≤ n := by
  induction members with
  | nil => exact Nat.zero_le _
  | cons m members ih =>
    exact max_le (h m List.mem_cons_self) (ih fun m' hm' => h m' (List.mem_cons_of_mem _ hm'))

theorem Scalar.nesting {input rest : List UInt8} {v : CJson} (h : d.Scalar input v rest) :
    v.nesting = 0 := by
  cases h <;> rfl

/-- **A value at a level** has no more arrays and objects around a scalar. -/
theorem Value.nesting_le {level : ℕ} {input rest : List UInt8} {v : CJson}
    (h : d.Value level input v rest) : v.nesting ≤ level := by
  induction level generalizing input v rest with
  | zero => exact (Scalar.nesting h).le
  | succ level ih =>
    rcases h with h | h
    · exact (Scalar.nesting h).le.trans (Nat.zero_le _)
    · cases h with
      | array h =>
        exact Nat.succ_le_succ (elementsNesting_le (h.forall fun input v rest hv => ih hv))
      | object h =>
        have hmember : ∀ input m rest, d.Member (d.Value level) input m rest →
            m.2.nesting ≤ level := by
          intro input m rest hm
          cases hm with
          | mk _ _ _ hv => exact ih hv
        exact Nat.succ_le_succ (membersNesting_le (h.forall hmember))

end Json.Dialect

namespace Json

/-! ### Bytes -/

theorem length_bytesOfChars (chars : List Char) : (bytesOfChars chars).length = chars.length :=
  List.length_map _

theorem bytesOfChars_append (chars more : List Char) :
    bytesOfChars (chars ++ more) = bytesOfChars chars ++ bytesOfChars more :=
  List.map_append

theorem toNat_charOfByte (b : UInt8) : (Char.ofNat b.toNat).toNat = b.toNat := by
  have hb := b.toNat_lt
  rw [Char.ofNat, dif_pos (Or.inl (by omega))]
  rfl

theorem bytesOfChars_charsOfBytes (bytes : List UInt8) :
    bytesOfChars (charsOfBytes bytes) = bytes := by
  unfold bytesOfChars charsOfBytes
  rw [List.map_map]
  apply List.map_id''
  intro b
  show UInt8.ofNat (Char.ofNat b.toNat).toNat = b
  rw [toNat_charOfByte, UInt8.ofNat_toNat]

/-- The characters of a number are bytes. -/
theorem charsOfBytes_bytesOfChars {chars : List Char} (h : ∀ c ∈ chars, c.toNat < 256) :
    charsOfBytes (bytesOfChars chars) = chars := by
  unfold bytesOfChars charsOfBytes
  rw [List.map_map]
  conv_rhs => rw [← List.map_id chars]
  apply List.map_congr_left
  intro c hc
  have hbyte : (UInt8.ofNat c.toNat).toNat = c.toNat := Nat.mod_eq_of_lt (h c hc)
  show Char.ofNat (UInt8.ofNat c.toNat).toNat = c
  rw [hbyte, Char.ofNat_toNat]

/-! ### JSON -/

theorem isWhitespace_of_strict {b : UInt8} (h : strict.Blank b) : isWhitespace b = true := by
  rcases h with rfl | rfl | rfl | rfl <;> decide

/-- A character of a number. -/
def IsNumberChar (c : Char) : Prop := c.isDigit = true ∨ c ∈ ['+', '-', 'e', 'E', '.']

theorem IsNumberChar.toNat_lt {c : Char} (h : IsNumberChar c) : c.toNat < 256 := by
  rcases h with h | h
  · have hhigh := (isDigit_bounds h).2
    omega
  · have hall : (['+', '-', 'e', 'E', '.'].all fun c => decide (c.toNat < 256)) = true := by decide
    exact of_decide_eq_true (List.all_eq_true.mp hall c h)

theorem IsNumberChar.isNumberByte {c : Char} (h : IsNumberChar c) :
    isNumberByte (UInt8.ofNat c.toNat) = true := by
  rcases h with h | h
  · have hall : ∀ k < 58, 48 ≤ k → Json.isNumberByte (UInt8.ofNat k) = true := by decide
    obtain ⟨hlow, hhigh⟩ := isDigit_bounds h
    exact hall c.toNat (by omega) hlow
  · have hall : (['+', '-', 'e', 'E', '.'].all fun c =>
        Json.isNumberByte (UInt8.ofNat c.toNat)) = true := by decide
    exact List.all_eq_true.mp hall c h

theorem isNumberChar_of_sign {sign : List Char} (h : sign = [] ∨ sign = ['+'] ∨ sign = ['-']) :
    ∀ c ∈ sign, IsNumberChar c := by
  intro c hc
  right
  rcases h with rfl | rfl | rfl
  · cases hc
  · obtain rfl := List.mem_singleton.mp hc
    decide
  · obtain rfl := List.mem_singleton.mp hc
    decide

theorem isNumberChar_of_mem {n : DecimalNumber} (h : n.blank = []) :
    ∀ c ∈ n.text, IsNumberChar c := by
  intro c hc
  unfold DecimalNumber.text Magnitude.text at hc
  rw [h, List.nil_append, List.mem_append, List.mem_append] at hc
  rcases hc with hc | hc | hc
  · exact isNumberChar_of_sign n.sign_eq c hc
  · unfold Magnitude.mantissa at hc
    rcases List.mem_append.mp hc with hc | hc
    · exact .inl (n.isDigit_whole c hc)
    · cases hfraction : n.fraction with
      | none =>
        rw [hfraction] at hc
        cases hc
      | some fraction =>
        rw [hfraction] at hc
        rcases List.mem_cons.mp hc with rfl | hc
        · exact .inr (by decide)
        · exact .inl (n.isDigit_of_fraction hfraction c hc)
  · cases hexponent : n.exponent with
    | none =>
      rw [n.exponentText_none hexponent] at hc
      cases hc
    | some x =>
      rw [n.exponentText_some hexponent] at hc
      rcases List.mem_cons.mp hc with rfl | hc
      · right
        rcases Bool.or_eq_true_iff.mp x.isLetter with hletter | hletter
        · rw [of_decide_eq_true hletter]
          decide
        · rw [of_decide_eq_true hletter]
          decide
      · rcases List.mem_append.mp hc with hc | hc
        · exact isNumberChar_of_sign x.sign_eq c hc
        · exact .inl (x.isDigit c hc)

/-- The first byte of a number. -/
theorem startsNumber_of_isJson {n : DecimalNumber} (h : n.IsJson) :
    ∃ c text, n.text = c :: text ∧ startsNumber (UInt8.ofNat c.toNat) = true := by
  obtain ⟨c, whole, hwhole⟩ := List.exists_cons_of_ne_nil h.whole
  unfold DecimalNumber.text Magnitude.text Magnitude.mantissa
  rw [h.blank, List.nil_append, hwhole]
  rcases n.sign_eq with hsign | hsign | hsign
  · rw [hsign]
    have hall : ∀ k < 58, 48 ≤ k → startsNumber (UInt8.ofNat k) = true := by decide
    obtain ⟨hlow, hhigh⟩ := isDigit_bounds (n.isDigit_whole c (by rw [hwhole]; simp))
    exact ⟨c, _, rfl, hall c.toNat (by omega) hlow⟩
  · exact absurd hsign h.sign
  · rw [hsign]
    exact ⟨'-', _, rfl, by decide⟩

/-- The bytes a value starts with. -/
inductive StartsValue : UInt8 → Prop where
  | nullLiteral : StartsValue 110
  | falseLiteral : StartsValue 102
  | trueLiteral : StartsValue 116
  | string : StartsValue 34
  | number {b : UInt8} : startsNumber b = true → StartsValue b
  | array : StartsValue 91
  | object : StartsValue 123

theorem StartsValue.not_whitespace {b : UInt8} (h : StartsValue b) : isWhitespace b = false := by
  cases h with
  | number h =>
    have hb := b.toNat_lt
    unfold startsNumber at h
    unfold isWhitespace
    simp only [Bool.or_eq_true, beq_iff_eq, Bool.and_eq_true, decide_eq_true_eq,
      UInt8.le_iff_toNat_le, ← UInt8.toNat_inj] at h
    rw [decide_eq_false_iff_not, UInt8.le_iff_toNat_le]
    change ¬b.toNat ≤ 32
    change b.toNat = 45 ∨ 48 ≤ b.toNat ∧ b.toNat ≤ 57 at h
    omega
  | _ => decide

theorem StartsValue.ne_closing {b : UInt8} (h : StartsValue b) : b ≠ 93 := by
  rintro rfl
  cases h with
  | number h => exact absurd h (by decide)

/-- **A value of JSON** starts with a byte that says what it is. -/
theorem strict_head {level : ℕ} {input rest : List UInt8} {v : CJson}
    (h : strict.Value level input v rest) : ∃ c input', input = c :: input' ∧ StartsValue c := by
  have hscalar : strict.Scalar input v rest → ∃ c input', input = c :: input' ∧ StartsValue c := by
    intro h
    cases h with
    | null => exact ⟨_, _, rfl, .nullLiteral⟩
    | false => exact ⟨_, _, rfl, .falseLiteral⟩
    | true => exact ⟨_, _, rfl, .trueLiteral⟩
    | number h =>
      obtain ⟨n, hn, -, rfl, -, -⟩ := h
      obtain ⟨c, text, htext, hstarts⟩ := startsNumber_of_isJson hn
      rw [htext]
      exact ⟨_, _, rfl, .number hstarts⟩
    | string h =>
      obtain ⟨body, t, rfl, -⟩ := h
      exact ⟨_, _, rfl, .string⟩
  cases level with
  | zero => exact hscalar h
  | succ level =>
    rcases h with h | h
    · exact hscalar h
    · cases h with
      | array h =>
        cases h with
        | empty => exact ⟨_, _, rfl, .array⟩
        | filled => exact ⟨_, _, rfl, .array⟩
      | object h =>
        cases h with
        | empty => exact ⟨_, _, rfl, .object⟩
        | filled => exact ⟨_, _, rfl, .object⟩

theorem strict_scalar_length_lt {input rest : List UInt8} {v : CJson}
    (h : strict.Scalar input v rest) : rest.length < input.length := by
  have hliteral : ∀ text : List UInt8, 0 < text.length → ∀ rest : List UInt8,
      rest.length < (text ++ rest).length := by
    intro text hpos rest
    rw [List.length_append]
    omega
  cases h with
  | null => exact hliteral _ (by decide) rest
  | false => exact hliteral _ (by decide) rest
  | true => exact hliteral _ (by decide) rest
  | number h =>
    obtain ⟨n, -, -, rfl, -, -⟩ := h
    have hpos := List.length_pos_iff.mpr n.text_ne_nil
    rw [List.length_append, length_bytesOfChars]
    omega
  | string h =>
    obtain ⟨body, t, rfl, -⟩ := h
    simp only [List.length_cons, List.length_append]
    omega

/-- Members that are not empty leave less than they start with. -/
theorem bracketed_length_lt {β : Type} {opening closing : UInt8} {Blank : UInt8 → Prop}
    {G : List UInt8 → β → List UInt8 → Prop} {input rest : List UInt8} {bs : List β}
    (h : Bracketed opening closing Blank 44 G input bs rest)
    (hG : ∀ input b rest, G input b rest → rest.length < input.length) :
    rest.length < input.length := by
  cases h with
  | empty =>
    simp only [List.length_cons, List.length_append]
    omega
  | filled h =>
    have hle := h.length_le hG
    simp only [List.length_cons] at hle ⊢
    omega

theorem member_length_lt {G : List UInt8 → CJson → List UInt8 → Prop} {input rest : List UInt8}
    {m : String × CJson} (h : strict.Member G input m rest)
    (hG : ∀ input v rest, G input v rest → rest.length < input.length) :
    rest.length < input.length := by
  cases h with
  | mk hstring _ _ hv =>
    obtain ⟨body, t, rfl, -⟩ := hstring
    have hlt := hG _ _ _ hv
    simp only [List.length_cons, List.length_append]
    omega

theorem strict_length_lt {level : ℕ} {input rest : List UInt8} {v : CJson}
    (h : strict.Value level input v rest) : rest.length < input.length := by
  induction level generalizing input v rest with
  | zero => exact strict_scalar_length_lt h
  | succ level ih =>
    rcases h with h | h
    · exact strict_scalar_length_lt h
    · cases h with
      | array h => exact bracketed_length_lt h fun input v rest hv => ih hv
      | object h =>
        exact bracketed_length_lt h fun input m rest hm =>
          member_length_lt hm fun input v rest hv => ih hv

end Json

end IotDeviceSdk
