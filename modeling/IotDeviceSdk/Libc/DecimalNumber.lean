import IotDeviceSdk.Libc.Magnitude

/-!
# The numbers `strtod` reads

`IsNumber s value` says that a text is a number: white space, a sign, and a number in decimal or,
behind `0x`, hexadecimal notation; `IsWord` are the words `inf`, `infinity` and `nan`.  A
`DecimalNumber` is a number in decimal notation with its parts.

* `strtod_of_longest`: `strtod` reads the longest number at the head of a text, and rounds it to a
  `double`.
* `strtod_rest_eq_nil_iff`: it reads the whole of a number and of a word, and of no other text.
* `strtod_decimal_cases`: what it reads in a text of the characters of decimal numbers.
-/

namespace IotDeviceSdk

/-! ### Numbers -/

/-- White space and a sign, as they are written. -/
structure NumberFront where
  blank : List Char
  sign : List Char
  isSpace : ∀ c ∈ blank, isSpace c = true
  sign_eq : sign = [] ∨ sign = ['+'] ∨ sign = ['-']

namespace NumberFront

def front (f : NumberFront) : List Char := f.blank ++ f.sign

/-- A number with the sign. -/
def signed (f : NumberFront) (q : ℚ) : ℚ := if f.sign = ['-'] then -q else q

end NumberFront

/-- The text is a number without a sign. -/
inductive IsUnsigned : List Char → ℚ → Prop where
  | decimal (m : Magnitude .decimal) : IsUnsigned m.text m.value
  | hexadecimal (m : Magnitude .hexadecimal) {x : Char} (hx : x = 'x' ∨ x = 'X') :
    IsUnsigned ('0' :: x :: m.text) m.value

/-- The text is a number. -/
def IsNumber (s : List Char) (value : ℚ) : Prop :=
  ∃ (f : NumberFront) (t : List Char) (q : ℚ), IsUnsigned t q ∧ f.front ++ t = s ∧
    f.signed q = value

/-- The longest number at the head of a text: its value, and what follows it. -/
def LongestNumber (s : List Char) (value : ℚ) (rest : List Char) : Prop :=
  ∃ number, s = number ++ rest ∧ IsNumber number value ∧
    ∀ number' value', number' <+: s → IsNumber number' value' → number'.length ≤ number.length

/-- The text is a word for what is no number. -/
inductive IsWord : List Char → Prop where
  | inf {w : List Char} (hw : w.map Char.toLower = "inf".toList) : IsWord w
  | infinity {w : List Char} (hw : w.map Char.toLower = "infinity".toList) : IsWord w
  | nan {w : List Char} (hw : w.map Char.toLower = "nan".toList) : IsWord w
  | nanChars {w cs : List Char} (hw : w.map Char.toLower = "nan".toList)
    (hcs : ∀ c ∈ cs, isNanChar c = true) : IsWord (w ++ '(' :: (cs ++ [')']))

/-- A decimal number, as it is written. -/
structure DecimalNumber extends NumberFront, Magnitude .decimal

namespace DecimalNumber

def text (n : DecimalNumber) : List Char := n.blank ++ (n.sign ++ n.toMagnitude.text)

def value (n : DecimalNumber) : ℚ := n.signed n.toMagnitude.value

theorem isNumber (n : DecimalNumber) : IsNumber n.text n.value :=
  ⟨n.toNumberFront, _, _, .decimal n.toMagnitude, List.append_assoc _ _ _, rfl⟩

end DecimalNumber

/-! ### Without a sign -/

/-- The number at the head of a text without its sign. -/
def scanUnsigned (t : List Char) : Option (ℚ × List Char) :=
  (scanHexadecimal t).or (Radix.decimal.scanNumber t)

section Unsigned

variable {t rest u more : List Char} {q : ℚ} {x : Char}

theorem scanHexadecimal_cons (hx : x = 'x' ∨ x = 'X') (t : List Char) :
    scanHexadecimal ('0' :: x :: t) = Radix.hexadecimal.scanNumber t :=
  if_pos hx

/-- What is read in hexadecimal notation stands behind the marker. -/
theorem exists_of_scanHexadecimal (h : scanHexadecimal t = some (q, rest)) :
    ∃ x t', (x = 'x' ∨ x = 'X') ∧ t = '0' :: x :: t' ∧
      Radix.hexadecimal.scanNumber t' = some (q, rest) := by
  unfold scanHexadecimal at h
  split at h
  · rename_i x t'
    obtain ⟨hx, h⟩ := Option.ite_none_right_eq_some.mp h
    exact ⟨x, t', hx, rfl, h⟩
  · cases h

/-- In decimal notation the marker of hexadecimal numbers ends a number. -/
theorem scanNumber_marker (hx : x = 'x' ∨ x = 'X') (t : List Char) :
    ∃ q, Radix.decimal.scanNumber ('0' :: x :: t) = some (q, x :: t) := by
  rcases hx with rfl | rfl <;> exact ⟨_, rfl⟩

/-- A number without a sign starts with a digit or the point. -/
theorem IsUnsigned.exists_eq_cons (h : IsUnsigned u q) :
    ∃ c t, u = c :: t ∧ (c.isDigit = true ∨ c = '.') := by
  cases h with
  | decimal m => exact m.exists_text_eq_cons
  | @hexadecimal m x hx => exact ⟨'0', x :: m.text, rfl, .inl rfl⟩

/-- The whole of a number is read. -/
theorem IsUnsigned.scanUnsigned_eq (h : IsUnsigned u q) : scanUnsigned u = some (q, []) := by
  unfold scanUnsigned
  cases h with
  | decimal m =>
    have hread := m.scanNumber_text
    cases hhex : scanHexadecimal m.text with
    | none => rw [Option.none_or, hread]
    | some r =>
      obtain ⟨x, t, hx, ht, -⟩ := exists_of_scanHexadecimal hhex
      obtain ⟨q', hmarker⟩ := scanNumber_marker hx t
      rw [ht, hmarker] at hread
      cases hread
  | hexadecimal m hx => rw [scanHexadecimal_cons hx, m.scanNumber_text, Option.some_or]

/-- A number at the head of a text is read at least. -/
theorem IsUnsigned.exists_scanUnsigned (h : IsUnsigned u q) :
    ∃ q' rest, scanUnsigned (u ++ more) = some (q', rest) ∧ rest.length ≤ more.length := by
  unfold scanUnsigned
  cases h with
  | decimal m =>
    obtain ⟨q', rest, hread, hlength⟩ := @Magnitude.exists_scanNumber _ m more
    cases hhex : scanHexadecimal (m.text ++ more) with
    | none => exact ⟨q', rest, hread, hlength⟩
    | some r =>
      -- the number is the zero of the marker
      obtain ⟨x, t, hx, ht, hhexadecimal⟩ := exists_of_scanHexadecimal hhex
      obtain ⟨q'', hmarker⟩ := scanNumber_marker hx t
      rw [ht, hmarker] at hread
      obtain ⟨-, rfl⟩ := Prod.mk.inj (Option.some.inj hread)
      refine ⟨r.1, r.2, rfl, le_trans ?_ hlength⟩
      rcases scanNumber_cases Radix.hexadecimal t with ⟨k, rest, rfl, hk⟩ | ⟨hnone, -⟩
      · rw [hk] at hhexadecimal
        obtain ⟨-, rfl⟩ := Prod.mk.inj (Option.some.inj hhexadecimal)
        simp only [List.length_cons, List.length_append]
        omega
      · rw [hnone] at hhexadecimal
        cases hhexadecimal
  | hexadecimal m hx =>
    obtain ⟨q', rest, hread, hlength⟩ := @Magnitude.exists_scanNumber _ m more
    rw [List.cons_append, List.cons_append, scanHexadecimal_cons hx, hread]
    exact ⟨q', rest, rfl, hlength⟩

/-- What is read is a number at the head of the text. -/
theorem isUnsigned_of_scanUnsigned (h : scanUnsigned t = some (q, rest)) :
    ∃ u, t = u ++ rest ∧ IsUnsigned u q := by
  unfold scanUnsigned at h
  rcases Option.or_eq_some_iff.mp h with hhex | ⟨-, hdecimal⟩
  · obtain ⟨x, t, hx, rfl, hread⟩ := exists_of_scanHexadecimal hhex
    rcases scanNumber_cases Radix.hexadecimal t with ⟨m, rest', rfl, hm⟩ | ⟨hnone, -⟩
    · rw [hm] at hread
      obtain ⟨rfl, rfl⟩ := Prod.mk.inj (Option.some.inj hread)
      exact ⟨'0' :: x :: m.text, rfl, .hexadecimal m hx⟩
    · rw [hnone] at hread
      cases hread
  · rcases scanNumber_cases Radix.decimal t with ⟨m, rest', rfl, hm⟩ | ⟨hnone, -⟩
    · rw [hm] at hdecimal
      obtain ⟨rfl, rfl⟩ := Prod.mk.inj (Option.some.inj hdecimal)
      exact ⟨m.text, rfl, .decimal m⟩
    · rw [hnone] at hdecimal
      cases hdecimal

end Unsigned

/-! ### The sign -/

section Sign

variable {s t body : List Char} {q value : ℚ}

/-- The text goes on with neither white space nor a sign. -/
def StartsNumber (body : List Char) : Prop :=
  ∀ c ∈ body.head?, isSpace c = false ∧ c ≠ '-' ∧ c ≠ '+'

theorem startsNumber_of_isDigit {c : Char} (hc : c.isDigit = true ∨ c = '.') (t : List Char) :
    StartsNumber (c :: t) := by
  intro d hd
  obtain rfl := Option.some.inj hd
  rcases hc with hdigit | rfl
  · refine ⟨isSpace_of_isDigit hdigit, ?_, ?_⟩
    · rintro rfl
      exact absurd hdigit (by decide)
    · rintro rfl
      exact absurd hdigit (by decide)
  · decide

theorem IsUnsigned.startsNumber (h : IsUnsigned t q) (more : List Char) :
    StartsNumber (t ++ more) := by
  obtain ⟨c, t', rfl, hc⟩ := h.exists_eq_cons
  exact startsNumber_of_isDigit hc _

/-- The white space and the sign. -/
theorem scanSign_front (f : NumberFront) (hbody : StartsNumber body) :
    scanSign ((f.front ++ body).dropWhile isSpace) = (decide (f.sign = ['-']), body) := by
  -- the white space ends at the sign, or at the number
  have hstart : ∀ d ∈ (f.sign ++ body).head?, isSpace d = false := by
    intro d hd
    rcases f.sign_eq with hsign | hsign | hsign <;> rw [hsign] at hd
    · exact (hbody d hd).1
    · obtain rfl := Option.some.inj hd
      rfl
    · obtain rfl := Option.some.inj hd
      rfl
  rw [NumberFront.front, List.append_assoc, Text.dropWhile_run f.isSpace hstart]
  rcases f.sign_eq with hsign | hsign | hsign <;> rw [hsign]
  · cases body with
    | nil => rfl
    | cons c body => exact scanSign_of_ne (hbody c rfl).2.1 (hbody c rfl).2.2 _
  · rfl
  · rfl

/-- The white space and the sign at the head of a text. -/
theorem exists_front (s : List Char) :
    ∃ f : NumberFront, s = f.front ++ (scanSign (s.dropWhile isSpace)).2 ∧
      ((scanSign (s.dropWhile isSpace)).1 = true ↔ f.sign = ['-']) := by
  obtain ⟨sign, hsplit, hsign, hminus⟩ := exists_sign (s.dropWhile isSpace)
  refine ⟨⟨s.takeWhile isSpace, sign, fun c hc => List.mem_takeWhile_imp hc, hsign⟩, ?_, hminus⟩
  rw [NumberFront.front, List.append_assoc, ← hsplit, List.takeWhile_append_dropWhile]

theorem strtod_eq (s : List Char) :
    strtod s =
      match scanUnsigned (scanSign (s.dropWhile isSpace)).2 with
      | some (q, t) =>
        (.num (toDouble (if (scanSign (s.dropWhile isSpace)).1 then -q else q)), t)
      | none =>
        match scanWord (scanSign (s.dropWhile isSpace)).2 with
        | some (value, t) => (if (scanSign (s.dropWhile isSpace)).1 then value.neg else value, t)
        | none => (.num 0, s) :=
  rfl

/-- A number has one value. -/
theorem IsNumber.unique {value' : ℚ} (h : IsNumber s value) (h' : IsNumber s value') :
    value = value' := by
  obtain ⟨f, t, q, ht, rfl, rfl⟩ := h
  obtain ⟨f', t', q', ht', htext, rfl⟩ := h'
  have hsign := scanSign_front f (List.append_nil t ▸ ht.startsNumber [])
  rw [← htext, scanSign_front f' (List.append_nil t' ▸ ht'.startsNumber [])] at hsign
  obtain ⟨hminus, rfl⟩ := Prod.mk.inj hsign
  obtain ⟨rfl, -⟩ := Prod.mk.inj (Option.some.inj
    (ht.scanUnsigned_eq.symm.trans ht'.scanUnsigned_eq))
  unfold NumberFront.signed
  simp only [decide_eq_decide] at hminus
  simp only [hminus]

theorem IsNumber.ne_nil (h : IsNumber s value) : s ≠ [] := by
  obtain ⟨f, t, q, ht, rfl, -⟩ := h
  obtain ⟨c, t', rfl, -⟩ := ht.exists_eq_cons
  simp

end Sign

/-! ### The longest number -/

section Longest

variable {s rest : List Char} {value : ℚ}

/-- **A number** at the head of a text is read as far as the longest one goes, and rounded. -/
theorem strtod_of_prefix {number : List Char} (h : IsNumber number value) (hstart : number <+: s) :
    ∃ value' rest, LongestNumber s value' rest ∧ strtod s = (.num (toDouble value'), rest) := by
  obtain ⟨more, rfl⟩ := hstart
  obtain ⟨f, t, q, ht, rfl, rfl⟩ := h
  have hsign := scanSign_front f (ht.startsNumber more)
  obtain ⟨q', rest, hread, -⟩ := @IsUnsigned.exists_scanUnsigned _ more _ ht
  obtain ⟨u, hu, hnumber⟩ := isUnsigned_of_scanUnsigned hread
  have hsplit : f.front ++ t ++ more = f.front ++ u ++ rest := by
    rw [List.append_assoc, hu, List.append_assoc]
  refine ⟨f.signed q', rest, ⟨f.front ++ u, hsplit, ⟨f, u, q', hnumber, rfl, rfl⟩, ?_⟩, ?_⟩
  · -- any other number has the same front
    rintro number' value' ⟨more', hmore'⟩ ⟨f', t', q'', ht', rfl, -⟩
    have hsign' := scanSign_front f' (ht'.startsNumber more')
    rw [List.append_assoc, List.append_assoc] at hmore'
    rw [hmore', hsign] at hsign'
    obtain ⟨-, hbody⟩ := Prod.mk.inj hsign'
    obtain ⟨_, rest', hread', hlength⟩ := @IsUnsigned.exists_scanUnsigned _ more' _ ht'
    rw [← hbody, hread] at hread'
    obtain ⟨-, rfl⟩ := Prod.mk.inj (Option.some.inj hread')
    have htotal := congrArg List.length hmore'
    have htotal' := congrArg List.length hu
    simp only [List.length_append] at htotal htotal' ⊢
    omega
  · rw [strtod_eq, List.append_assoc, hsign, hread]
    unfold NumberFront.signed
    simp only [decide_eq_true_eq]

/-- There is one longest number at most. -/
theorem LongestNumber.unique {rest' : List Char} {value' : ℚ} (h : LongestNumber s value rest)
    (h' : LongestNumber s value' rest') : value = value' ∧ rest = rest' := by
  obtain ⟨number, hs, hnumber, hmax⟩ := h
  obtain ⟨number', hs', hnumber', hmax'⟩ := h'
  -- each is as long as the other, so they are the same text, which has one value
  have hlength : number.length = number'.length :=
    le_antisymm (hmax' _ _ ⟨rest, hs.symm⟩ hnumber) (hmax _ _ ⟨rest', hs'.symm⟩ hnumber')
  obtain ⟨rfl, hrest⟩ := List.append_inj (hs.symm.trans hs') hlength
  exact ⟨hnumber.unique hnumber', hrest⟩

/-- A number is not empty. -/
theorem LongestNumber.length_lt (h : LongestNumber s value rest) : rest.length < s.length := by
  obtain ⟨number, rfl, hnumber, -⟩ := h
  rw [List.length_append]
  exact Nat.lt_add_of_pos_left (List.length_pos_iff.mpr hnumber.ne_nil)

/-- **`strtod` reads the longest number** at the head of a text, and rounds it. -/
theorem strtod_of_longest (h : LongestNumber s value rest) :
    strtod s = (.num (toDouble value), rest) := by
  obtain ⟨number, hs, hnumber, -⟩ := id h
  obtain ⟨value', rest', hlongest, hread⟩ := strtod_of_prefix hnumber ⟨rest, hs.symm⟩
  obtain ⟨rfl, rfl⟩ := hlongest.unique h
  exact hread

theorem strtod_isNumber (h : IsNumber s value) : strtod s = (.num (toDouble value), []) := by
  refine strtod_of_longest ⟨s, (List.append_nil s).symm, h, ?_⟩
  intro number' _ hstart _
  exact hstart.length_le

end Longest

/-! ### Words -/

section Words

variable {s t w rest : List Char} {v : CDouble}

theorem stripWord_eq_some {word : String} :
    stripWord word t = some rest ↔
      ∃ w, t = w ++ rest ∧ w.map Char.toLower = word.toList := by
  unfold stripWord
  rw [Option.ite_none_right_eq_some, Option.some_inj]
  constructor
  · rintro ⟨hword, rfl⟩
    exact ⟨t.take word.length, (List.take_append_drop _ t).symm, hword⟩
  · rintro ⟨w, rfl, hword⟩
    have hlength : w.length = word.length := by
      rw [← List.length_map Char.toLower, hword, String.length_toList]
    rw [← hlength, List.take_left, List.drop_left]
    exact ⟨hword, rfl⟩

/-- What may follow `nan` is left out when it is the end of the text. -/
theorem dropNanChars_eq_nil :
    dropNanChars t = [] ↔
      t = [] ∨ ∃ cs, t = '(' :: (cs ++ [')']) ∧ ∀ c ∈ cs, isNanChar c = true := by
  constructor
  · intro h
    unfold dropNanChars at h
    split at h
    · rename_i t
      split at h
      · rename_i rest hclosed
        rw [h] at hclosed
        refine .inr ⟨t.takeWhile isNanChar, ?_, fun c hc => List.mem_takeWhile_imp hc⟩
        rw [← hclosed, List.takeWhile_append_dropWhile]
      · cases h
    · exact .inl h
  · rintro (rfl | ⟨cs, rfl, hcs⟩)
    · rfl
    · have hstop : ∀ c ∈ [')'].head?, isNanChar c = false := by
        intro c hc
        obtain rfl := Option.some.inj hc
        decide
      simp only [dropNanChars, Text.dropWhile_run hcs hstop]

theorem dropNanChars_suffix (t : List Char) : dropNanChars t <:+ t := by
  unfold dropNanChars
  split
  · rename_i t
    split
    · rename_i rest hclosed
      have hrest : rest <:+ t.dropWhile isNanChar := hclosed ▸ List.suffix_cons _ _
      exact (hrest.trans (List.dropWhile_suffix _)).trans (List.suffix_cons _ _)
    · exact List.suffix_rfl
  · exact List.suffix_rfl

theorem suffix_of_stripWord {word : String} (h : stripWord word t = some rest) : rest <:+ t := by
  obtain ⟨w, rfl, -⟩ := stripWord_eq_some.mp h
  exact List.suffix_append _ _

theorem suffix_of_scanWord (h : scanWord t = some (v, rest)) : rest <:+ t := by
  unfold scanWord at h
  split at h
  · rename_i hinfinity
    obtain ⟨-, rfl⟩ := Prod.mk.inj (Option.some.inj h)
    exact suffix_of_stripWord hinfinity
  · split at h
    · rename_i hinf
      obtain ⟨-, rfl⟩ := Prod.mk.inj (Option.some.inj h)
      exact suffix_of_stripWord hinf
    · obtain ⟨after, hnan, heq⟩ := Option.map_eq_some_iff.mp h
      obtain ⟨-, rfl⟩ := Prod.mk.inj heq
      exact (dropNanChars_suffix _).trans (suffix_of_stripWord hnan)

/-- A text that starts with another letter does not start with the word. -/
theorem stripWord_eq_none {word : String} {c : Char} {cs : List Char}
    (hword : word.toList = c :: cs) (h : ∀ d ∈ t.head?, d.toLower ≠ c) : stripWord word t = none := by
  rw [Option.eq_none_iff_forall_ne_some]
  intro rest hrest
  obtain ⟨w, rfl, hw⟩ := stripWord_eq_some.mp hrest
  rw [hword] at hw
  cases w with
  | nil => cases hw
  | cons d w =>
    obtain ⟨hd, -⟩ := List.cons.inj hw
    exact h d rfl hd

/-- What starts with `nan` starts with neither of the other words. -/
theorem scanWord_nan (hw : w.map Char.toLower = "nan".toList) (rest : List Char) :
    scanWord (w ++ rest) = some (.nan, dropNanChars rest) := by
  have hstart : ∀ d ∈ (w ++ rest).head?, d.toLower ≠ 'i' := by
    intro d hd
    cases w with
    | nil => cases hw
    | cons c w =>
      obtain rfl := Option.some.inj hd
      obtain ⟨hc, -⟩ := List.cons.inj hw
      rw [hc]
      decide
  unfold scanWord
  rw [stripWord_eq_none rfl hstart, stripWord_eq_none rfl hstart,
    stripWord_eq_some.mpr ⟨w, rfl, hw⟩]
  rfl

/-- A word is read as a whole exactly when the text is one. -/
theorem scanWord_rest_eq_nil_iff : (∃ v, scanWord t = some (v, [])) ↔ IsWord t := by
  constructor
  · rintro ⟨v, h⟩
    have hwhole : ∀ {word : String}, stripWord word t = some [] →
        t.map Char.toLower = word.toList := by
      intro word hword
      obtain ⟨w, rfl, hw⟩ := stripWord_eq_some.mp hword
      rwa [List.append_nil]
    unfold scanWord at h
    split at h
    · rename_i rest hinfinity
      obtain ⟨-, rfl⟩ := Prod.mk.inj (Option.some.inj h)
      exact .infinity (hwhole hinfinity)
    · split at h
      · rename_i rest hinf
        obtain ⟨-, rfl⟩ := Prod.mk.inj (Option.some.inj h)
        exact .inf (hwhole hinf)
      · obtain ⟨rest, hnan, heq⟩ := Option.map_eq_some_iff.mp h
        obtain ⟨-, hrest⟩ := Prod.mk.inj heq
        obtain ⟨w, rfl, hw⟩ := stripWord_eq_some.mp hnan
        rcases dropNanChars_eq_nil.mp hrest with rfl | ⟨cs, rfl, hcs⟩
        · rw [List.append_nil]
          exact .nan hw
        · exact .nanChars hw hcs
  · intro h
    cases h with
    | inf hw =>
      -- `infinity` is longer
      have hshort : stripWord "infinity" t = none := by
        rw [Option.eq_none_iff_forall_ne_some]
        intro rest hrest
        obtain ⟨w, rfl, hinfinity⟩ := stripWord_eq_some.mp hrest
        have hlength := congrArg List.length hw
        have hlength' := congrArg List.length hinfinity
        rw [List.length_map] at hlength hlength'
        rw [List.length_append, hlength'] at hlength
        simp at hlength
        omega
      refine ⟨.num HUGE_VAL, ?_⟩
      unfold scanWord
      rw [hshort, stripWord_eq_some.mpr ⟨t, (List.append_nil t).symm, hw⟩]
    | infinity hw =>
      refine ⟨.num HUGE_VAL, ?_⟩
      unfold scanWord
      rw [stripWord_eq_some.mpr ⟨t, (List.append_nil t).symm, hw⟩]
    | nan hw =>
      have hread := scanWord_nan hw []
      rw [List.append_nil] at hread
      exact ⟨.nan, hread⟩
    | nanChars hw hcs =>
      refine ⟨.nan, ?_⟩
      rw [scanWord_nan hw, dropNanChars_eq_nil.mpr (.inr ⟨_, rfl, hcs⟩)]

/-- Without a letter that a word starts with there is none. -/
theorem scanWord_eq_none (h : ∀ c ∈ t.head?, c.toLower ≠ 'i' ∧ c.toLower ≠ 'n') :
    scanWord t = none := by
  have hi : ∀ c ∈ t.head?, c.toLower ≠ 'i' := fun c hc => (h c hc).1
  have hn : ∀ c ∈ t.head?, c.toLower ≠ 'n' := fun c hc => (h c hc).2
  unfold scanWord
  rw [stripWord_eq_none rfl hi, stripWord_eq_none rfl hi, stripWord_eq_none rfl hn]
  rfl

/-- A word starts with one of two letters. -/
theorem IsWord.exists_eq_cons (h : IsWord w) :
    ∃ c w', w = c :: w' ∧ (c.toLower = 'i' ∨ c.toLower = 'n') := by
  have hfirst : ∀ {w : List Char} {word : String} {c : Char} {cs : List Char},
      w.map Char.toLower = word.toList → word.toList = c :: cs →
      ∃ d w', w = d :: w' ∧ d.toLower = c := by
    intro w word c cs hw hword
    rw [hword] at hw
    cases w with
    | nil => cases hw
    | cons d w => exact ⟨d, w, rfl, (List.cons.inj hw).1⟩
  cases h with
  | inf hw =>
    obtain ⟨d, w', rfl, hd⟩ := hfirst hw rfl
    exact ⟨d, w', rfl, .inl hd⟩
  | infinity hw =>
    obtain ⟨d, w', rfl, hd⟩ := hfirst hw rfl
    exact ⟨d, w', rfl, .inl hd⟩
  | nan hw =>
    obtain ⟨d, w', rfl, hd⟩ := hfirst hw rfl
    exact ⟨d, w', rfl, .inr hd⟩
  | nanChars hw hcs =>
    obtain ⟨d, w', rfl, hd⟩ := hfirst hw rfl
    exact ⟨d, _, rfl, .inr hd⟩

/-- A letter stands behind the digits, the signs and white space in the character set. -/
theorem le_toNat_of_toLower {c : Char} (h : c.toLower = 'i' ∨ c.toLower = 'n') : 65 ≤ c.toNat := by
  by_contra hlt
  have hsame : c.toLower = c := by
    refine dif_neg fun hupper => hlt ?_
    exact UInt32.le_iff_toNat_le.mp hupper.1
  rw [hsame] at h
  rcases h with rfl | rfl
  · exact hlt (by decide)
  · exact hlt (by decide)

theorem IsWord.startsNumber (h : IsWord w) : StartsNumber w := by
  obtain ⟨c, w', rfl, hc⟩ := h.exists_eq_cons
  have hle := le_toNat_of_toLower hc
  intro d hd
  obtain rfl := Option.some.inj hd
  refine ⟨?_, ?_, ?_⟩
  · unfold isSpace
    simp only [Bool.or_eq_false_iff, decide_eq_false_iff_not]
    refine ⟨⟨⟨⟨⟨?_, ?_⟩, ?_⟩, ?_⟩, ?_⟩, ?_⟩ <;>
    · rintro rfl
      exact absurd hle (by decide)
  · rintro rfl
    exact absurd hle (by decide)
  · rintro rfl
    exact absurd hle (by decide)

theorem IsWord.scanUnsigned_eq (h : IsWord w) : scanUnsigned w = none := by
  obtain ⟨c, w', rfl, hc⟩ := h.exists_eq_cons
  have hle := le_toNat_of_toLower hc
  rw [Option.eq_none_iff_forall_ne_some]
  rintro ⟨q, rest⟩ hread
  obtain ⟨u, hu, hnumber⟩ := isUnsigned_of_scanUnsigned hread
  obtain ⟨d, u', rfl, hd⟩ := hnumber.exists_eq_cons
  obtain ⟨rfl, -⟩ := List.cons.inj hu
  rcases hd with hdigit | rfl
  · have hbounds := isDigit_bounds hdigit
    omega
  · exact absurd hle (by decide)

end Words

/-! ### The whole of a text -/

section Whole

variable {s : List Char}

/-- The text is a word, behind white space and a sign. -/
def IsSignedWord (s : List Char) : Prop :=
  ∃ (f : NumberFront) (w : List Char), IsWord w ∧ f.front ++ w = s

/-- `endptr` points into the text. -/
theorem strtod_suffix (s : List Char) : (strtod s).2 <:+ s := by
  obtain ⟨f, hs, -⟩ := exists_front s
  have hbody : (scanSign (s.dropWhile isSpace)).2 <:+ s := by
    conv_rhs => rw [hs]
    exact List.suffix_append _ _
  rw [strtod_eq]
  cases hread : scanUnsigned (scanSign (s.dropWhile isSpace)).2 with
  | some r =>
    obtain ⟨u, hu, -⟩ := isUnsigned_of_scanUnsigned hread
    have hrest : r.2 <:+ (scanSign (s.dropWhile isSpace)).2 := hu ▸ List.suffix_append _ _
    exact hrest.trans hbody
  | none =>
    dsimp only
    cases hword : scanWord (scanSign (s.dropWhile isSpace)).2 with
    | some r => exact (suffix_of_scanWord hword).trans hbody
    | none => exact List.suffix_rfl

/-- **`strtod` leaves nothing** of a number and of a word, and of the empty text. -/
theorem strtod_rest_eq_nil_iff :
    (strtod s).2 = [] ↔ s = [] ∨ (∃ value, IsNumber s value) ∨ IsSignedWord s := by
  constructor
  · intro h
    obtain ⟨f, hs, -⟩ := exists_front s
    rw [strtod_eq] at h
    cases hread : scanUnsigned (scanSign (s.dropWhile isSpace)).2 with
    | some r =>
      obtain ⟨u, hu, hnumber⟩ := isUnsigned_of_scanUnsigned hread
      rw [hread] at h
      change r.2 = [] at h
      rw [hu, h, List.append_nil] at hs
      exact .inr (.inl ⟨_, f, u, r.1, hnumber, hs.symm, rfl⟩)
    | none =>
      rw [hread] at h
      dsimp only at h
      cases hword : scanWord (scanSign (s.dropWhile isSpace)).2 with
      | some r =>
        rw [hword] at h
        have hrest : r = (r.1, []) := Prod.ext rfl h
        rw [hrest] at hword
        exact .inr (.inr ⟨f, _, scanWord_rest_eq_nil_iff.mp ⟨_, hword⟩, hs.symm⟩)
      | none =>
        rw [hword] at h
        exact .inl h
  · rintro (rfl | ⟨value, hnumber⟩ | ⟨f, w, hw, rfl⟩)
    · rfl
    · rw [strtod_isNumber hnumber]
    · obtain ⟨v, hread⟩ := scanWord_rest_eq_nil_iff.mpr hw
      rw [strtod_eq, scanSign_front f hw.startsNumber]
      dsimp only
      rw [hw.scanUnsigned_eq, hread]

/-- **Without a number** at the head of a text, and without a letter that a word starts with,
`strtod` returns 0 and consumes nothing. -/
theorem strtod_of_none (h : ∀ number value, IsNumber number value → ¬number <+: s)
    (hword : ∀ c ∈ s, c.toLower ≠ 'i' ∧ c.toLower ≠ 'n') : strtod s = (.num 0, s) := by
  obtain ⟨f, hs, -⟩ := exists_front s
  have hread : scanUnsigned (scanSign (s.dropWhile isSpace)).2 = none := by
    rw [Option.eq_none_iff_forall_ne_some]
    rintro ⟨q, rest⟩ hread
    obtain ⟨u, hu, hnumber⟩ := isUnsigned_of_scanUnsigned hread
    rw [hu, ← List.append_assoc] at hs
    exact h _ _ ⟨f, u, q, hnumber, rfl, rfl⟩ ⟨rest, hs.symm⟩
  have hnone : scanWord (scanSign (s.dropWhile isSpace)).2 = none := by
    apply scanWord_eq_none
    intro c hc
    apply hword
    rw [hs]
    exact List.mem_append_right _ (List.mem_of_mem_head? hc)
  rw [strtod_eq, hread]
  dsimp only
  rw [hnone]

end Whole

/-! ### Decimal numbers -/

namespace DecimalNumber

variable (n : DecimalNumber)

theorem text_ne_nil : n.text ≠ [] := n.isNumber.ne_nil

/-- The value, with the digits of the fraction in the exponent. -/
theorem value_eq :
    n.value = n.signed ((digitsValue (n.whole ++ n.fraction.getD []) : ℚ) *
      10 ^ (n.exponent.elim 0 Exponent.value - ((n.fraction.getD []).length : ℤ))) := by
  have hpow : ((Radix.decimal.base : ℕ) : ℚ) ^ (n.fraction.getD []).length =
      (10 : ℚ) ^ ((n.fraction.getD []).length : ℤ) := (zpow_natCast _ _).symm
  unfold value Magnitude.value
  rw [hpow, zpow_sub₀ (by decide : (10 : ℚ) ≠ 0), mul_div_assoc', div_mul_eq_mul_div]
  rfl

/-- The whole of a decimal number is read. -/
theorem strtod_text : strtod n.text = (.num (toDouble n.value), []) := strtod_isNumber n.isNumber

end DecimalNumber

/-- A number without the marker is a decimal one. -/
theorem IsNumber.exists_decimal {s : List Char} {value : ℚ} (h : IsNumber s value)
    (hmarker : ∀ c ∈ s, c ≠ 'x' ∧ c ≠ 'X') :
    ∃ n : DecimalNumber, n.text = s ∧ n.value = value := by
  obtain ⟨f, t, q, ht, rfl, rfl⟩ := h
  cases ht with
  | decimal m => exact ⟨⟨f, m⟩, (List.append_assoc _ _ _).symm, rfl⟩
  | @hexadecimal m x hx =>
    have hmem : x ∈ f.front ++ '0' :: x :: m.text := by simp
    obtain ⟨hlower, hupper⟩ := hmarker x hmem
    exact absurd hx (not_or.mpr ⟨hlower, hupper⟩)

/-- **What `strtod` reads** in a text of the characters of decimal numbers is one, or there is
none. -/
theorem strtod_decimal_cases {s : List Char}
    (h : ∀ c ∈ s, (c ≠ 'x' ∧ c ≠ 'X') ∧ c.toLower ≠ 'i' ∧ c.toLower ≠ 'n') :
    (∃ (n : DecimalNumber) (rest : List Char), s = n.text ++ rest ∧
        strtod s = (.num (toDouble n.value), rest)) ∨
      strtod s = (.num 0, s) := by
  by_cases hnumber : ∃ number value, IsNumber number value ∧ number <+: s
  · obtain ⟨number, value, hnumber, hstart⟩ := hnumber
    obtain ⟨value', rest, ⟨number', hs, hnumber', -⟩, hread⟩ := strtod_of_prefix hnumber hstart
    have hmarker : ∀ c ∈ number', c ≠ 'x' ∧ c ≠ 'X' := by
      intro c hc
      refine (h c ?_).1
      rw [hs]
      exact List.mem_append_left _ hc
    obtain ⟨n, rfl, rfl⟩ := hnumber'.exists_decimal hmarker
    exact .inl ⟨n, rest, hs, hread⟩
  · refine .inr (strtod_of_none ?_ fun c hc => (h c hc).2)
    intro number value hvalue hstart
    exact hnumber ⟨number, value, hvalue, hstart⟩

end IotDeviceSdk
