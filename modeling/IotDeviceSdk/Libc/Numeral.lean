import IotDeviceSdk.Libc.Decimal
import IotDeviceSdk.Libc.Scan
import IotDeviceSdk.Text.GappedRuns
import Mathlib.Data.List.DropRight

/-!
# The numerals `sscanf_s` reads

`Numeral s n rest` says that a text starts with a numeral, of any size, after optional white space.
`%d` reads the numerals and cuts their values down to an `int` (`cutToInt`).

* `sscanf_go_int`, `sscanf_go_int_none`: one `%d` of a format.
* `sscanf_eq_none_iff`: a format that starts with a `%d` answers `-1` on white space, also with a
  sign behind it, and on nothing else.
-/

namespace IotDeviceSdk

/-- The text starts with a numeral: white space, a sign and digits, which the rest does not
continue. -/
def Numeral (s : List Char) (n : ℤ) (rest : List Char) : Prop :=
  ∃ blank sign digits, s = blank ++ (sign ++ (digits ++ rest)) ∧
    (∀ c ∈ blank, isSpace c = true) ∧ (sign = [] ∨ sign = ['+'] ∨ sign = ['-']) ∧
    digits ≠ [] ∧ (∀ c ∈ digits, c.isDigit = true) ∧ (∀ c ∈ rest.head?, c.isDigit = false) ∧
    n = if sign = ['-'] then -(digitsValue digits : ℤ) else digitsValue digits

/-- The text ends before the digits of a numeral: white space, and at most a sign. -/
def Blank (s : List Char) : Prop :=
  ∃ blank sign, s = blank ++ sign ∧ (∀ c ∈ blank, isSpace c = true) ∧
    (sign = [] ∨ sign = ['+'] ∨ sign = ['-'])

/-- The value `%d` stores for a numeral. -/
def cutToInt (n : ℤ) : ℤ := cInt (saturateLong n)

/-- A value that fits an `int` is stored as it is. -/
theorem cutToInt_eq {n : ℤ} (hlow : -2 ^ 31 ≤ n) (hhigh : n < 2 ^ 31) : cutToInt n = n := by
  rw [cutToInt, saturateLong_eq (by omega) (by omega)]
  exact cInt_eq hlow hhigh

/-! ### `%d` -/

/-- The sign at the head of a text. -/
theorem exists_sign (s : List Char) :
    ∃ sign, s = sign ++ (scanSign s).2 ∧ (sign = [] ∨ sign = ['+'] ∨ sign = ['-']) ∧
      ((scanSign s).1 = true ↔ sign = ['-']) := by
  unfold scanSign
  split
  · exact ⟨['-'], rfl, by simp, by simp⟩
  · exact ⟨['+'], rfl, by simp, by simp⟩
  · exact ⟨[], rfl, by simp, by simp⟩

/-- `%d` reads the numerals. -/
theorem scanInt_of_numeral {s rest : List Char} {n : ℤ} (h : Numeral s n rest) :
    scanInt (s.dropWhile isSpace) = some (cutToInt n, rest) := by
  obtain ⟨blank, sign, digits, rfl, hblank, hsign, hne, hdigits, hrest, rfl⟩ := h
  obtain ⟨c, digits, rfl⟩ := List.exists_cons_of_ne_nil hne
  have hc : c.isDigit = true := hdigits c (by simp)
  have htake : (c :: (digits ++ rest)).takeWhile Char.isDigit = c :: digits :=
    Text.takeWhile_run hdigits hrest
  have hdrop : (c :: (digits ++ rest)).dropWhile Char.isDigit = rest :=
    Text.dropWhile_run hdigits hrest
  have hstart : ∀ d ∈ (sign ++ (c :: digits ++ rest)).head?, isSpace d = false := by
    intro d hd
    rcases hsign with rfl | rfl | rfl
    · obtain rfl := Option.some.inj hd
      exact isSpace_of_isDigit hc
    · obtain rfl := Option.some.inj hd
      rfl
    · obtain rfl := Option.some.inj hd
      rfl
  rw [Text.dropWhile_run hblank hstart]
  have hsplit : scanSign (sign ++ (c :: digits ++ rest)) =
      (decide (sign = ['-']), c :: (digits ++ rest)) := by
    rcases hsign with rfl | rfl | rfl
    · exact scanSign_of_isDigit hc _
    · rfl
    · rfl
  unfold scanInt
  rw [hsplit]
  dsimp only
  rw [htake, hdrop]
  simp only [decide_eq_true_eq]
  rfl

/-- `%d` reads nothing else. -/
theorem numeral_of_scanInt {s rest : List Char} {v : ℤ}
    (h : scanInt (s.dropWhile isSpace) = some (v, rest)) :
    ∃ n, Numeral s n rest ∧ v = cutToInt n := by
  obtain ⟨sign, hsplit, hsign, hminus⟩ := exists_sign (s.dropWhile isSpace)
  unfold scanInt at h
  generalize scanSign (s.dropWhile isSpace) = r at h hsplit hminus
  obtain ⟨negative, t⟩ := r
  dsimp only at h hsplit hminus
  cases hdigits : t.takeWhile Char.isDigit with
  | nil =>
    rw [hdigits] at h
    cases h
  | cons c digits =>
    rw [hdigits] at h
    obtain ⟨hvalue, hrest⟩ := Prod.mk.inj (Option.some.inj h)
    have htext := List.takeWhile_append_dropWhile (p := Char.isDigit) (l := t)
    have hspace := List.takeWhile_append_dropWhile (p := isSpace) (l := s)
    rw [hdigits, hrest] at htext
    refine ⟨_, ⟨s.takeWhile isSpace, sign, c :: digits, ?_, ?_, hsign, by simp, ?_, ?_, rfl⟩, ?_⟩
    · rw [htext, ← hsplit, hspace]
    · exact fun d hd => List.mem_takeWhile_imp hd
    · intro d hd
      rw [← hdigits] at hd
      exact List.mem_takeWhile_imp hd
    · intro d hd
      have hhead := List.head?_dropWhile_not Char.isDigit t
      rw [hrest, Option.mem_def.mp hd] at hhead
      simpa using hhead
    · rw [← hvalue, cutToInt]
      simp only [hminus]

/-! ### Formats -/

variable {format : List ScanDirective} {s rest : List Char} {assigned : List ℤ} {n : ℤ}

/-- A text with a numeral does not end at its sign. -/
theorem scanSign_ne_nil_of_scanInt {value : ℤ} (h : scanInt s = some (value, rest)) :
    (scanSign s).2.isEmpty = false := by
  rw [List.isEmpty_eq_false_iff]
  intro hnil
  unfold scanInt at h
  generalize scanSign s = r at h hnil
  obtain ⟨negative, t⟩ := r
  dsimp only at h hnil
  rw [hnil] at h
  cases h

theorem sscanf_go_int_eq :
    sscanf.go (.int :: format) s assigned =
      if (scanSign (s.dropWhile isSpace)).2.isEmpty then
        if assigned.isEmpty then none else some assigned
      else
        match scanInt (s.dropWhile isSpace) with
        | none => some assigned
        | some (value, s) => sscanf.go format s (assigned ++ [value]) :=
  rfl

/-- A `%d` that finds a numeral. -/
theorem sscanf_go_int (h : Numeral s n rest) :
    sscanf.go (.int :: format) s assigned = sscanf.go format rest (assigned ++ [cutToInt n]) := by
  have hscan := scanInt_of_numeral h
  rw [sscanf_go_int_eq, scanSign_ne_nil_of_scanInt hscan, hscan]
  rfl

/-- A `%d` that finds none ends the scan. -/
theorem sscanf_go_int_none (h : ¬∃ n rest, Numeral s n rest) (hassigned : assigned ≠ []) :
    sscanf.go (.int :: format) s assigned = some assigned := by
  have hscan : scanInt (s.dropWhile isSpace) = none := by
    by_contra hsome
    obtain ⟨⟨v, rest⟩, hv⟩ := Option.ne_none_iff_exists'.mp hsome
    obtain ⟨n, hn, -⟩ := numeral_of_scanInt hv
    exact h ⟨n, rest, hn⟩
  have hempty : assigned.isEmpty = false := by simpa using hassigned
  rw [sscanf_go_int_eq, hscan, hempty]
  exact ite_self _

theorem sscanf_go_lit {c : Char} :
    sscanf.go (.lit c :: format) (c :: s) assigned = sscanf.go format s assigned :=
  if_pos rfl

/-- A character that does not match ends the scan. -/
theorem sscanf_go_lit_none {c : Char} (h : ∀ t, s ≠ c :: t) (hassigned : assigned ≠ []) :
    sscanf.go (.lit c :: format) s assigned = some assigned := by
  cases s with
  | nil =>
    have hempty : assigned.isEmpty = false := by simpa using hassigned
    unfold sscanf.go
    dsimp only
    rw [hempty]
    rfl
  | cons d s =>
    have hne : d ≠ c := by
      rintro rfl
      exact h s rfl
    exact if_neg hne

/-- A blank before a `%d` does nothing. -/
theorem sscanf_go_blank_int :
    sscanf.go (.blank :: .int :: format) s assigned = sscanf.go (.int :: format) s assigned := by
  have hblank : sscanf.go (.blank :: .int :: format) s assigned =
      sscanf.go (.int :: format) (s.dropWhile isSpace) assigned := rfl
  rw [hblank, sscanf_go_int_eq, sscanf_go_int_eq, List.dropWhile_idempotent]

/-- Once a value is assigned, the scan does not answer `-1`. -/
theorem sscanf_go_ne_none (format : List ScanDirective) (s : List Char) {assigned : List ℤ}
    (h : assigned ≠ []) : sscanf.go format s assigned ≠ none := by
  have hempty : assigned.isEmpty = false := by simpa using h
  induction format generalizing s assigned with
  | nil => simp [sscanf.go]
  | cons directive format ih =>
    cases directive with
    | int =>
      rw [sscanf_go_int_eq, hempty]
      split
      · simp
      · cases scanInt (s.dropWhile isSpace) with
        | none => simp
        | some r => exact ih r.2 (by simp) (by simp)
    | lit c =>
      cases s with
      | nil => simp [sscanf.go, hempty]
      | cons d s =>
        unfold sscanf.go
        dsimp only
        split
        · exact ih s h hempty
        · simp
    | blank => exact ih _ h hempty

/-- The white space and the sign of a blank text are all of it. -/
theorem blank_iff : Blank s ↔ (scanSign (s.dropWhile isSpace)).2 = [] := by
  constructor
  · rintro ⟨blank, sign, rfl, hblank, hsign⟩
    have hstart : ∀ d ∈ sign.head?, isSpace d = false := by
      rcases hsign with rfl | rfl | rfl <;> simp [isSpace]
    rw [Text.dropWhile_run hblank hstart]
    rcases hsign with rfl | rfl | rfl <;> rfl
  · intro hnil
    obtain ⟨sign, hsplit, hsign, -⟩ := exists_sign (s.dropWhile isSpace)
    rw [hnil, List.append_nil] at hsplit
    refine ⟨s.takeWhile isSpace, sign, ?_, fun c hc => List.mem_takeWhile_imp hc, hsign⟩
    rw [← hsplit, List.takeWhile_append_dropWhile]

/-- **`-1`** is the answer to a text that ends before its first number, for a format that starts
with `%d`. -/
theorem sscanf_eq_none_iff : sscanf (.int :: format) s = none ↔ Blank s := by
  rw [blank_iff, ← List.isEmpty_iff]
  unfold sscanf
  rw [sscanf_go_int_eq]
  cases (scanSign (s.dropWhile isSpace)).2.isEmpty with
  | true => simp
  | false =>
    cases scanInt (s.dropWhile isSpace) with
    | none => simp
    | some r => simpa using sscanf_go_ne_none format r.2 (by simp)

end IotDeviceSdk
