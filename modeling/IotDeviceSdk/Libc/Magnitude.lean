import IotDeviceSdk.Libc.Numeral
import IotDeviceSdk.Libc.Strtod

/-!
# The numbers of a notation

A `Magnitude` is a number without its sign as it is written in a notation: digits with a point in
them or not, and an exponent or none.

* `scanNumber_cases`: `scanNumber` reads a number at the head of a text, or there is none.
* `Magnitude.scanNumber_text`, `Magnitude.exists_scanNumber`: it reads the whole of a number, and
  goes as far as a number whatever follows.
-/

namespace IotDeviceSdk

variable {r : Radix}

/-! ### Numbers -/

/-- The exponent of a number, as it is written. -/
structure Exponent (r : Radix) where
  letter : Char
  sign : List Char
  digits : List Char
  isLetter : r.isLetter letter = true
  sign_eq : sign = [] ∨ sign = ['+'] ∨ sign = ['-']
  digits_ne : digits ≠ []
  isDigit : ∀ c ∈ digits, c.isDigit = true

namespace Exponent

def text (x : Exponent r) : List Char := x.letter :: (x.sign ++ x.digits)

def value (x : Exponent r) : ℤ :=
  if x.sign = ['-'] then -(digitsValue x.digits : ℤ) else digitsValue x.digits

end Exponent

/-- A number without its sign, as it is written. -/
structure Magnitude (r : Radix) where
  whole : List Char
  /-- the digits after the point, when there is one -/
  fraction : Option (List Char)
  exponent : Option (Exponent r)
  isDigit : ∀ c ∈ whole ++ fraction.getD [], r.isDigit c = true
  digits_ne : whole ++ fraction.getD [] ≠ []

namespace Magnitude

/-- The digits and the point. -/
def mantissa (m : Magnitude r) : List Char :=
  m.whole ++ m.fraction.elim [] fun fraction => '.' :: fraction

def exponentText (m : Magnitude r) : List Char := m.exponent.elim [] Exponent.text

def text (m : Magnitude r) : List Char := m.mantissa ++ m.exponentText

/-- The fraction is as many digits of the base, and the exponent one of the base of exponents. -/
def value (m : Magnitude r) : ℚ :=
  (r.value (m.whole ++ m.fraction.getD []) : ℚ) / (r.base : ℚ) ^ (m.fraction.getD []).length *
    r.exponentBase ^ m.exponent.elim 0 Exponent.value

end Magnitude

/-! ### The parts of a number -/

section Parts

variable {t more : List Char}

theorem dropWhile_digits_append {p : Char → Bool} {ds : List Char} (h : ∀ c ∈ ds, p c = true) :
    (ds ++ more).dropWhile p = more.dropWhile p :=
  List.dropWhile_append_of_pos h

theorem length_dropWhile_digits_le (p : Char → Bool) (s : List Char) :
    (s.dropWhile p).length ≤ s.length :=
  (List.dropWhile_suffix _).length_le

theorem isEmpty_and_iff {l l' : List Char} : (l.isEmpty && l'.isEmpty) = true ↔ l ++ l' = [] := by
  simp

/-! Exponents. -/

theorem letter_stops {c : Char} (h : r.isLetter c = true) : r.isDigit c = false ∧ c ≠ '.' := by
  refine ⟨r.isDigit_of_isLetter c h, ?_⟩
  rintro rfl
  rw [r.isLetter_point] at h
  cases h

theorem scanSign_append_digits {sign digits : List Char}
    (hsign : sign = [] ∨ sign = ['+'] ∨ sign = ['-']) (hne : digits ≠ [])
    (hdigits : ∀ c ∈ digits, c.isDigit = true) :
    scanSign (sign ++ digits ++ more) = (decide (sign = ['-']), digits ++ more) := by
  obtain ⟨c, digits, rfl⟩ := List.exists_cons_of_ne_nil hne
  rcases hsign with rfl | rfl | rfl
  · exact scanSign_of_isDigit (hdigits c (by simp)) _
  · rfl
  · rfl

theorem scanExponent_text (x : Exponent r) :
    r.scanExponent (x.text ++ more) =
      let digits := (x.digits ++ more).takeWhile Char.isDigit
      (if x.sign = ['-'] then -(digitsValue digits : ℤ) else digitsValue digits,
        more.dropWhile Char.isDigit) := by
  have hscan := @scanSign_append_digits more _ _ x.sign_eq x.digits_ne x.isDigit
  unfold Exponent.text
  rw [List.cons_append, Radix.scanExponent, if_pos x.isLetter, hscan]
  dsimp only
  rw [dropWhile_digits_append x.isDigit]
  obtain ⟨c, digits, hdigits⟩ := List.exists_cons_of_ne_nil x.digits_ne
  have hc := x.isDigit c (by simp [hdigits])
  have htake : (x.digits ++ more).takeWhile Char.isDigit =
      c :: (digits ++ more).takeWhile Char.isDigit := by
    rw [hdigits, List.cons_append, List.takeWhile_cons, if_pos hc]
  rw [htake]
  simp only [decide_eq_true_eq]

/-- The exponent behind its letter. -/
theorem scanExponent_cons {e : Char} (hletter : r.isLetter e = true) (s : List Char) :
    r.scanExponent (e :: s) =
      match (scanSign s).2.takeWhile Char.isDigit with
      | [] => (0, e :: s)
      | digits =>
        (if (scanSign s).1 then -(digitsValue digits : ℤ) else digitsValue digits,
          (scanSign s).2.dropWhile Char.isDigit) :=
  if_pos hletter

/-- The exponent of a text is one, or is none. -/
theorem exists_exponent (r : Radix) (t : List Char) :
    ∃ exponent : Option (Exponent r), t = exponent.elim [] Exponent.text ++ (r.scanExponent t).2 ∧
      exponent.elim 0 Exponent.value = (r.scanExponent t).1 := by
  -- without a letter, and without digits after it, the exponent is none
  have hnone : r.scanExponent t = (0, t) → ∃ exponent : Option (Exponent r),
      t = exponent.elim [] Exponent.text ++ (r.scanExponent t).2 ∧
        exponent.elim 0 Exponent.value = (r.scanExponent t).1 := by
    intro h
    rw [h]
    exact ⟨none, rfl, rfl⟩
  cases t with
  | nil => exact hnone rfl
  | cons e s =>
    by_cases hletter : r.isLetter e = true
    · obtain ⟨sign, hsplit, hsign, hminus⟩ := exists_sign s
      have heq := scanExponent_cons hletter s
      cases hdigits : (scanSign s).2.takeWhile Char.isDigit with
      | nil =>
        rw [hdigits] at heq
        exact hnone heq
      | cons c digits =>
        rw [hdigits] at heq
        have hall : ∀ d ∈ c :: digits, d.isDigit = true := by
          intro d hd
          rw [← hdigits] at hd
          exact List.mem_takeWhile_imp hd
        let x : Exponent r := ⟨e, sign, c :: digits, hletter, hsign, List.cons_ne_nil _ _, hall⟩
        refine ⟨some x, ?_, ?_⟩
        · rw [heq]
          show e :: s = e :: (sign ++ (c :: digits)) ++ (scanSign s).2.dropWhile Char.isDigit
          rw [← hdigits, List.cons_append, List.append_assoc, List.takeWhile_append_dropWhile,
            ← hsplit]
        · rw [heq]
          show (if sign = ['-'] then _ else _ : ℤ) = if (scanSign s).1 = true then _ else _
          simp only [hminus]
          rfl
    · exact hnone (if_neg hletter)

theorem length_scanExponent_le (r : Radix) (t : List Char) :
    (r.scanExponent t).2.length ≤ t.length := by
  obtain ⟨exponent, htext, -⟩ := exists_exponent r t
  conv_rhs => rw [htext, List.length_append]
  exact Nat.le_add_left _ _

/-! Mantissas. -/

/-- The digits of a text, with a point in them or not. -/
theorem exists_mantissa (r : Radix) (t : List Char) :
    ∃ fraction : Option (List Char),
      t = (r.scanMantissa t).1 ++ (fraction.elim [] fun f => '.' :: f) ++ (r.scanMantissa t).2.2 ∧
        fraction.getD [] = (r.scanMantissa t).2.1 := by
  have hsplit := List.takeWhile_append_dropWhile (p := r.isDigit) (l := t)
  unfold Radix.scanMantissa
  split
  · rename_i t' hpoint
    refine ⟨some (t'.takeWhile r.isDigit), ?_, rfl⟩
    show t =
      t.takeWhile r.isDigit ++ '.' :: t'.takeWhile r.isDigit ++ t'.dropWhile r.isDigit
    rw [List.append_assoc, List.cons_append, List.takeWhile_append_dropWhile, ← hpoint, hsplit]
  · refine ⟨none, ?_, rfl⟩
    show t = t.takeWhile r.isDigit ++ [] ++ t.dropWhile r.isDigit
    rw [List.append_nil, hsplit]

theorem isDigit_of_mem_scanMantissa (r : Radix) (t : List Char) :
    ∀ c ∈ (r.scanMantissa t).1 ++ (r.scanMantissa t).2.1, r.isDigit c = true := by
  intro c hc
  unfold Radix.scanMantissa at hc
  split at hc
  · rcases List.mem_append.mp hc with hc | hc
    · exact List.mem_takeWhile_imp hc
    · exact List.mem_takeWhile_imp hc
  · rw [List.append_nil] at hc
    exact List.mem_takeWhile_imp hc

end Parts

namespace Magnitude

variable (m : Magnitude r) {more : List Char}

theorem isDigit_whole : ∀ c ∈ m.whole, r.isDigit c = true :=
  fun c hc => m.isDigit c (List.mem_append_left _ hc)

theorem isDigit_fraction : ∀ c ∈ m.fraction.getD [], r.isDigit c = true :=
  fun c hc => m.isDigit c (List.mem_append_right _ hc)

theorem isDigit_of_fraction {fraction : List Char} (h : m.fraction = some fraction) :
    ∀ c ∈ fraction, r.isDigit c = true := by
  have hdigits := m.isDigit_fraction
  rwa [h] at hdigits

theorem mantissa_of_fraction {fraction : List Char} (h : m.fraction = some fraction) :
    m.mantissa = m.whole ++ '.' :: fraction := by
  unfold mantissa
  rw [h]
  rfl

theorem mantissa_of_no_fraction (h : m.fraction = none) : m.mantissa = m.whole := by
  unfold mantissa
  rw [h]
  exact List.append_nil _

/-- A mantissa starts with a digit or the point. -/
theorem exists_mantissa_eq_cons :
    ∃ c t, m.mantissa = c :: t ∧ (r.isDigit c = true ∨ c = '.') := by
  cases hwhole : m.whole with
  | cons c whole =>
    exact ⟨c, _, by unfold mantissa; rw [hwhole]; rfl, .inl (m.isDigit_whole c (by simp [hwhole]))⟩
  | nil =>
    cases hfraction : m.fraction with
    | none => exact absurd (by rw [hwhole, hfraction]; rfl) m.digits_ne
    | some fraction => exact ⟨'.', fraction, by rw [m.mantissa_of_fraction hfraction, hwhole]; rfl,
        .inr rfl⟩

/-- A number starts with a digit or the point. -/
theorem exists_text_eq_cons : ∃ c t, m.text = c :: t ∧ (r.isDigit c = true ∨ c = '.') := by
  obtain ⟨c, t, hmantissa, hc⟩ := m.exists_mantissa_eq_cons
  exact ⟨c, t ++ m.exponentText, by rw [text, hmantissa]; rfl, hc⟩

/-- The digits, when what follows is neither a digit nor a point. -/
theorem scanMantissa_eq (hmore : ∀ c ∈ more.head?, r.isDigit c = false ∧ c ≠ '.') :
    r.scanMantissa (m.mantissa ++ more) = (m.whole, m.fraction.getD [], more) := by
  have hstop : ∀ c ∈ more.head?, r.isDigit c = false := fun c hc => (hmore c hc).1
  unfold Radix.scanMantissa
  cases hfraction : m.fraction with
  | some fraction =>
    have hdigits := m.isDigit_of_fraction hfraction
    have hpoint : ∀ c ∈ ('.' :: (fraction ++ more)).head?, r.isDigit c = false := by
      intro c hc
      obtain rfl := Option.some.inj hc
      exact r.isDigit_point
    rw [m.mantissa_of_fraction hfraction, List.append_assoc, List.cons_append,
      Text.dropWhile_run m.isDigit_whole hpoint, Text.takeWhile_run m.isDigit_whole hpoint]
    show (m.whole, (fraction ++ more).takeWhile r.isDigit,
      (fraction ++ more).dropWhile r.isDigit) = _
    rw [Text.dropWhile_run hdigits hstop, Text.takeWhile_run hdigits hstop]
    rfl
  | none =>
    rw [m.mantissa_of_no_fraction hfraction, Text.dropWhile_run m.isDigit_whole hstop,
      Text.takeWhile_run m.isDigit_whole hstop]
    split
    · exact absurd rfl (hmore '.' rfl).2
    · rfl

/-- The digits go as far as those of the number, whatever follows. -/
theorem length_scanMantissa_le :
    (r.scanMantissa (m.mantissa ++ more)).2.2.length ≤ more.length := by
  unfold Radix.scanMantissa
  cases hfraction : m.fraction with
  | some fraction =>
    have hdigits := m.isDigit_of_fraction hfraction
    have hpoint : ('.' :: fraction ++ more).dropWhile r.isDigit = '.' :: (fraction ++ more) := by
      rw [List.cons_append, List.dropWhile_cons_of_neg]
      rw [r.isDigit_point]
      exact Bool.false_ne_true
    rw [m.mantissa_of_fraction hfraction, List.append_assoc,
      dropWhile_digits_append m.isDigit_whole, hpoint]
    show ((fraction ++ more).dropWhile r.isDigit).length ≤ _
    rw [dropWhile_digits_append hdigits]
    exact length_dropWhile_digits_le _ more
  | none =>
    rw [m.mantissa_of_no_fraction hfraction, dropWhile_digits_append m.isDigit_whole]
    have hle := length_dropWhile_digits_le r.isDigit more
    -- a point that follows is read too
    split
    · rename_i t' hpoint
      have hle' := length_dropWhile_digits_le r.isDigit t'
      rw [hpoint, List.length_cons] at hle
      exact hle'.trans (Nat.le_of_succ_le hle)
    · exact hle

/-- There are digits. -/
theorem scanMantissa_ne :
    (r.scanMantissa (m.mantissa ++ more)).1 ++ (r.scanMantissa (m.mantissa ++ more)).2.1 ≠ [] := by
  have hne := m.digits_ne
  cases hwhole : m.whole with
  | cons c whole =>
    have hc := m.isDigit_whole c (by simp [hwhole])
    unfold mantissa Radix.scanMantissa
    rw [hwhole, List.cons_append, List.cons_append, List.takeWhile_cons, if_pos hc]
    split
    · exact List.cons_ne_nil _ _
    · exact List.cons_ne_nil _ _
  | nil =>
    cases hfraction : m.fraction with
    | none => exact absurd (by rw [hwhole, hfraction]; rfl) hne
    | some fraction =>
      rw [hwhole, hfraction] at hne
      obtain ⟨c, fraction, rfl⟩ := List.exists_cons_of_ne_nil hne
      have hc := m.isDigit_fraction c (by simp [hfraction])
      have hpoint : ('.' :: (c :: fraction ++ more)).dropWhile r.isDigit =
          '.' :: (c :: fraction ++ more) := by
        rw [List.dropWhile_cons_of_neg]
        rw [r.isDigit_point]
        exact Bool.false_ne_true
      rw [m.mantissa_of_fraction hfraction, hwhole]
      unfold Radix.scanMantissa
      rw [List.nil_append, List.cons_append, hpoint]
      show ('.' :: (c :: fraction ++ more)).takeWhile r.isDigit ++
        (c :: (fraction ++ more)).takeWhile r.isDigit ≠ []
      rw [List.takeWhile_cons (a := c), if_pos hc]
      simp

/-! ### Reading -/

theorem exponentText_none (h : m.exponent = none) : m.exponentText = [] := by
  unfold exponentText
  rw [h]
  rfl

theorem exponentText_some {x : Exponent r} (h : m.exponent = some x) :
    m.exponentText = x.text := by
  unfold exponentText
  rw [h]
  rfl

/-- A text with a number at its head has one, which goes as far, whatever follows. -/
theorem exists_scanNumber :
    ∃ value rest, r.scanNumber (m.text ++ more) = some (value, rest) ∧
      rest.length ≤ more.length := by
  have hne := @scanMantissa_ne r m (m.exponentText ++ more)
  have hdigits : ((r.scanMantissa (m.mantissa ++ (m.exponentText ++ more))).1.isEmpty &&
      (r.scanMantissa (m.mantissa ++ (m.exponentText ++ more))).2.1.isEmpty) ≠ true := by
    rwa [ne_eq, isEmpty_and_iff]
  -- with an exponent the mantissa ends at its letter; without one more may be read
  have hexponent : (r.scanExponent
      (r.scanMantissa (m.mantissa ++ (m.exponentText ++ more))).2.2).2.length ≤ more.length := by
    cases hx : m.exponent with
    | none =>
      rw [m.exponentText_none hx, List.nil_append]
      exact (length_scanExponent_le _ _).trans m.length_scanMantissa_le
    | some x =>
      have hstop : ∀ c ∈ (x.text ++ more).head?, r.isDigit c = false ∧ c ≠ '.' := by
        intro c hc
        obtain rfl := Option.some.inj hc
        exact letter_stops x.isLetter
      rw [m.exponentText_some hx, m.scanMantissa_eq hstop, scanExponent_text]
      exact length_dropWhile_digits_le _ more
  have hread : ∃ value, r.scanNumber (m.text ++ more) = some (value,
      (r.scanExponent (r.scanMantissa (m.mantissa ++ (m.exponentText ++ more))).2.2).2) := by
    rw [text, List.append_assoc]
    exact ⟨_, if_neg hdigits⟩
  obtain ⟨value, hread⟩ := hread
  exact ⟨value, _, hread, hexponent⟩

/-- The whole of a number is read. -/
theorem scanNumber_text : r.scanNumber m.text = some (m.value, []) := by
  have hstop : ∀ c ∈ m.exponentText.head?, r.isDigit c = false ∧ c ≠ '.' := by
    intro c hc
    cases hx : m.exponent with
    | none =>
      rw [m.exponentText_none hx] at hc
      exact nomatch hc
    | some x =>
      rw [m.exponentText_some hx] at hc
      obtain rfl := Option.some.inj hc
      exact letter_stops x.isLetter
  have hexponent : r.scanExponent m.exponentText = (m.exponent.elim 0 Exponent.value, []) := by
    cases hx : m.exponent with
    | none =>
      rw [m.exponentText_none hx]
      rfl
    | some x =>
      have htext := @scanExponent_text r [] x
      rw [List.append_nil, List.append_nil, takeWhile_digits x.isDigit] at htext
      rw [m.exponentText_some hx, htext]
      rfl
  have hdigits : (m.whole.isEmpty && (m.fraction.getD []).isEmpty) ≠ true := by
    rw [ne_eq, isEmpty_and_iff]
    exact m.digits_ne
  unfold Radix.scanNumber text
  rw [m.scanMantissa_eq hstop]
  dsimp only
  rw [if_neg hdigits, hexponent]
  rfl

end Magnitude

/-- **What is read** is a number at the head of the text, or there is none. -/
theorem scanNumber_cases (r : Radix) (t : List Char) :
    (∃ (m : Magnitude r) (rest : List Char), t = m.text ++ rest ∧
        r.scanNumber t = some (m.value, rest)) ∨
      (r.scanNumber t = none ∧ ∀ m : Magnitude r, ¬m.text <+: t) := by
  obtain ⟨fraction, hmantissa, hfraction⟩ := exists_mantissa r t
  obtain ⟨exponent, hexponent, hvalue⟩ := exists_exponent r (r.scanMantissa t).2.2
  by_cases hempty : (r.scanMantissa t).1 ++ (r.scanMantissa t).2.1 = []
  · right
    constructor
    · rw [← isEmpty_and_iff] at hempty
      exact if_pos hempty
    · rintro m ⟨more, rfl⟩
      rw [Magnitude.text, List.append_assoc] at hempty
      exact m.scanMantissa_ne hempty
  · left
    have hdigits := isDigit_of_mem_scanMantissa r t
    rw [← hfraction] at hempty hdigits
    let m : Magnitude r :=
      { whole := (r.scanMantissa t).1
        fraction := fraction
        exponent := exponent
        isDigit := hdigits
        digits_ne := hempty }
    refine ⟨m, (r.scanExponent (r.scanMantissa t).2.2).2, ?_, ?_⟩
    · calc t = m.mantissa ++ (r.scanMantissa t).2.2 := hmantissa
        _ = m.mantissa ++ (m.exponentText ++ _) := congrArg (m.mantissa ++ ·) hexponent
        _ = m.text ++ _ := (List.append_assoc _ _ _).symm
    · rw [hfraction, ← isEmpty_and_iff] at hempty
      unfold Radix.scanNumber
      dsimp only
      rw [if_neg hempty, ← hvalue, ← hfraction]
      rfl

end IotDeviceSdk
