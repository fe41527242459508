import IotDeviceSdk.DeviceRule.RuleInfo
import IotDeviceSdk.Libc.Decimal
import IotDeviceSdk.Text.GappedRuns

/-!
# The weekday lists `SaveDaysOfWeek` accepts

A weekday list is a list of numbers with separators between them.  `SaveDaysOfWeek` looks at the
first digit of each number and skips the others.

* `saveDaysOfWeek_eq_some_iff`: it accepts the lists of numbers that start with a digit from 1 to 7,
  and sets the bits of these digits.
* `saveDaysOfWeek_grammar_iff`: it accepts just the lists of the numbers from 1 to 7, except that a
  number of several digits may pass for its first one.
-/

namespace IotDeviceSdk.DeviceRule

open Text

/-! ### The grammar -/

/-- The separators of `SaveDaysOfWeek`. -/
def isSeparator (c : Char) : Bool := c = ' ' || c = ','

/-- Decimal numbers separated, and optionally preceded, by blanks or commas. -/
abbrev NumberList (numbers : List (GappedRun Char)) : Prop :=
  GappedRuns isSeparator Char.isDigit numbers

/-- The first digit of a number. -/
def firstDigit (number : GappedRun Char) : ℕ := digitsValue (number.run.take 1)

/-- A number without further digits is one of these. -/
def IsDay (number : GappedRun Char) : Prop :=
  number.run.length = 1 ∧ 1 ≤ digitsValue number.run ∧ digitsValue number.run ≤ 7

/-- The number starts like a day. -/
def StartsLikeDay (number : GappedRun Char) : Prop := 1 ≤ firstDigit number ∧ firstDigit number ≤ 7

/-- The text is a list of days. -/
structure DayList (s : String) (days : List (GappedRun Char)) : Prop where
  list : NumberList days
  text : runsText days = s.toList
  days : ∀ number ∈ days, IsDay number

theorem isDigit_of_isSeparator {c : Char} (h : isSeparator c = true) : c.isDigit = false := by
  simp only [isSeparator, Bool.or_eq_true, decide_eq_true_eq] at h
  rcases h with rfl | rfl
  · rfl
  · rfl

theorem IsDay.firstDigit_eq {number : GappedRun Char} (h : IsDay number) :
    firstDigit number = digitsValue number.run := by
  rw [firstDigit, List.take_of_length_le h.1.le]

theorem IsDay.startsLikeDay {number : GappedRun Char} (h : IsDay number) :
    StartsLikeDay number := by
  unfold StartsLikeDay
  rw [h.firstDigit_eq]
  exact h.2

/-! ### The mask -/

/-- The mask after a number. -/
def addDay (daysOfWeek : DaysOfWeekRecord) (number : GappedRun Char) : DaysOfWeekRecord :=
  daysOfWeek ||| (1 <<< firstDigit number)

theorem getLsbD_addDay {daysOfWeek : DaysOfWeekRecord} {number : GappedRun Char}
    (h : StartsLikeDay number) (d : ℕ) :
    (addDay daysOfWeek number).getLsbD d = true ↔
      daysOfWeek.getLsbD d = true ∨ firstDigit number = d := by
  obtain ⟨-, hhigh⟩ := h
  unfold addDay
  rw [BitVec.getLsbD_or, Bool.or_eq_true, BitVec.natCast_eq_ofNat, BitVec.getLsbD_ofNat,
    Nat.one_shiftLeft, Nat.testBit_two_pow, Bool.and_eq_true, decide_eq_true_eq, decide_eq_true_eq]
  exact or_congr_right (by omega)

/-- **The mask of a list** has the bits of its first digits. -/
theorem getLsbD_foldl_addDay {numbers : List (GappedRun Char)}
    (h : ∀ number ∈ numbers, StartsLikeDay number) (daysOfWeek : DaysOfWeekRecord) (d : ℕ) :
    (numbers.foldl addDay daysOfWeek).getLsbD d = true ↔
      daysOfWeek.getLsbD d = true ∨ ∃ number ∈ numbers, firstDigit number = d := by
  induction numbers generalizing daysOfWeek with
  | nil => simp
  | cons number numbers ih =>
    rw [List.foldl_cons, ih (fun x hx => h x (by simp [hx])), getLsbD_addDay (h number (by simp)),
      or_assoc]
    simp only [List.mem_cons, exists_eq_or_imp]

/-! ### The scan -/

/-- The test of `SaveDaysOfWeek` on a character. -/
theorem day_iff {c : Char} :
    '1' ≤ c ∧ c ≤ '7' ↔ 1 ≤ c.toNat - '0'.toNat ∧ c.toNat - '0'.toNat ≤ 7 := by
  have hzero : '0'.toNat = 48 := rfl
  have hone : '1'.toNat = 49 := rfl
  have hseven : '7'.toNat = 55 := rfl
  rw [Char.le_def, Char.le_def, UInt32.le_iff_toNat_le, UInt32.le_iff_toNat_le]
  show '1'.toNat ≤ c.toNat ∧ c.toNat ≤ '7'.toNat ↔ _
  omega

theorem firstDigit_eq {number : GappedRun Char} {c : Char} {rest : List Char}
    (h : number.run = c :: rest) : firstDigit number = c.toNat - '0'.toNat := by
  rw [firstDigit, h]
  show 10 * 0 + (c.toNat - '0'.toNat) = _
  omega

/-- One round of the scan. -/
theorem saveDaysOfWeek_go_succ {fuel : ℕ} {s : List Char} {daysOfWeek : DaysOfWeekRecord}
    (hs : s ≠ []) :
    saveDaysOfWeek.go (fuel + 1) s daysOfWeek =
      match s.dropWhile isSeparator with
      | [] => none
      | c :: rest =>
        if '1' ≤ c ∧ c ≤ '7' then
          saveDaysOfWeek.go fuel ((c :: rest).dropWhile Char.isDigit)
            (daysOfWeek ||| (1 <<< (c.toNat - '0'.toNat)))
        else none := by
  cases s with
  | nil => exact absurd rfl hs
  | cons d s => rfl

/-- **The scan of a list of numbers**, with enough rounds for it. -/
theorem saveDaysOfWeek_go_runsText {numbers : List (GappedRun Char)} (h : NumberList numbers)
    (hdays : ∀ number ∈ numbers, StartsLikeDay number) {fuel : ℕ}
    (hfuel : (runsText numbers).length ≤ fuel) (daysOfWeek : DaysOfWeekRecord) :
    saveDaysOfWeek.go fuel (runsText numbers) daysOfWeek =
      some (numbers.foldl addDay daysOfWeek) := by
  induction numbers generalizing fuel daysOfWeek with
  | nil => cases fuel <;> rfl
  | cons number numbers ih =>
    obtain ⟨c, rest, hrun, -⟩ := h.run_eq_cons
    have hgap := (h.cut_gap fun c => isDigit_of_isSeparator).1
    have hafter := (h.cut_run fun c => isDigit_of_isSeparator).1
    have hday : '1' ≤ c ∧ c ≤ '7' := by
      rw [day_iff, ← firstDigit_eq hrun]
      exact hdays number (by simp)
    have hlength : (runsText numbers).length < (runsText (number :: numbers)).length := by
      rw [runsText_cons, hrun]
      simp only [List.length_append, List.length_cons]
      omega
    obtain ⟨fuel, rfl⟩ : ∃ m, fuel = m + 1 := ⟨fuel - 1, by omega⟩
    have hne : runsText (number :: numbers) ≠ [] := by
      intro hnil
      rw [hnil] at hlength
      cases hlength
    rw [hrun, List.cons_append] at hgap hafter
    rw [saveDaysOfWeek_go_succ hne, hgap]
    dsimp only
    rw [if_pos hday, hafter, ih h.tail (fun x hx => hdays x (by simp [hx])) (by omega),
      List.foldl_cons, addDay, firstDigit_eq hrun]

/-- **What the scan accepts** is a list of numbers that start like days. -/
theorem numberList_of_saveDaysOfWeek_go {fuel : ℕ} {s : List Char}
    {daysOfWeek mask : DaysOfWeekRecord} (hfuel : s.length ≤ fuel)
    (h : saveDaysOfWeek.go fuel s daysOfWeek = some mask) :
    ∃ numbers, NumberList numbers ∧ runsText numbers = s ∧
      (∀ number ∈ numbers, StartsLikeDay number) ∧ mask = numbers.foldl addDay daysOfWeek := by
  induction fuel generalizing s daysOfWeek with
  | zero =>
    obtain rfl := List.length_eq_zero_iff.mp (Nat.le_zero.mp hfuel)
    obtain rfl := Option.some.inj h
    exact ⟨[], .nil, rfl, by simp, rfl⟩
  | succ fuel ih =>
    by_cases hs : s = []
    · subst hs
      obtain rfl := Option.some.inj h
      exact ⟨[], .nil, rfl, by simp, rfl⟩
    rw [saveDaysOfWeek_go_succ hs] at h
    have hsplit := List.takeWhile_append_dropWhile (p := isSeparator) (l := s)
    cases hstart : s.dropWhile isSeparator with
    | nil =>
      rw [hstart] at h
      cases h
    | cons c rest =>
      rw [hstart] at h hsplit
      obtain ⟨hday, h⟩ := Option.ite_none_right_eq_some.mp h
      -- a day is one of the digits 1 to 7
      have hdigit : c.isDigit = true := by
        have hzero : '0'.toNat = 48 := rfl
        have hnine : '9'.toNat = 57 := rfl
        have hbounds := day_iff.mp hday
        rw [Char.isDigit_iff_toNat]
        omega
      have hafter : (c :: rest).dropWhile Char.isDigit = rest.dropWhile Char.isDigit :=
        List.dropWhile_cons_of_pos hdigit
      have hrun : (c :: rest).takeWhile Char.isDigit = c :: rest.takeWhile Char.isDigit :=
        List.takeWhile_cons_of_pos hdigit
      have hlength := congrArg List.length hsplit
      rw [List.length_append, List.length_cons] at hlength
      have hshort := List.length_dropWhile_le Char.isDigit rest
      obtain ⟨numbers, hlist, htext, hdays, hmask⟩ := ih (by rw [hafter]; omega) h
      -- the separators and the digits that were skipped are one number of the list
      let number : GappedRun Char := ⟨s.takeWhile isSeparator, (c :: rest).takeWhile Char.isDigit⟩
      have hfirst : firstDigit number = c.toNat - '0'.toNat := firstDigit_eq hrun
      refine ⟨number :: numbers, hlist.cons (fun d hd => List.mem_takeWhile_imp hd)
        (fun d hd => List.mem_takeWhile_imp hd) (by simp [number, hrun]) (fun d hd => ?_), ?_, ?_,
        ?_⟩
      · -- the digits were skipped to their end
        rw [htext] at hd
        have hhead := List.head?_dropWhile_not Char.isDigit (c :: rest)
        rw [Option.mem_def.mp hd] at hhead
        simpa using hhead
      · rw [runsText_cons, htext, List.takeWhile_append_dropWhile, hsplit]
      · intro x hx
        rcases List.mem_cons.mp hx with rfl | hx
        · rw [StartsLikeDay, hfirst]
          exact day_iff.mp hday
        · exact hdays x hx
      · rw [List.foldl_cons, hmask, addDay, hfirst]

theorem length_runsText_le {s : String} {numbers : List (GappedRun Char)}
    (h : runsText numbers = s.toList) : (runsText numbers).length ≤ s.length := by
  rw [h, String.length_toList]

/-- **What `SaveDaysOfWeek` accepts**, and the mask it gives. -/
theorem saveDaysOfWeek_eq_some_iff {s : String} {mask : DaysOfWeekRecord} :
    saveDaysOfWeek (some s) = some mask ↔
      ∃ numbers, NumberList numbers ∧ runsText numbers = s.toList ∧
        (∀ number ∈ numbers, StartsLikeDay number) ∧ mask = numbers.foldl addDay 0 := by
  constructor
  · intro h
    exact numberList_of_saveDaysOfWeek_go String.length_toList.le h
  · rintro ⟨numbers, hlist, htext, hdays, rfl⟩
    show saveDaysOfWeek.go s.length s.toList 0 = _
    rw [← htext]
    exact saveDaysOfWeek_go_runsText hlist hdays (length_runsText_le htext) 0

/-- More rounds do not change the result. -/
theorem saveDaysOfWeek_go_eq {s : String} {fuel : ℕ} (hfuel : s.length ≤ fuel) :
    saveDaysOfWeek.go fuel s.toList 0 = saveDaysOfWeek (some s) := by
  ext mask
  have hlength : s.toList.length = s.length := String.length_toList
  rw [saveDaysOfWeek_eq_some_iff]
  constructor
  · exact numberList_of_saveDaysOfWeek_go (by omega)
  · rintro ⟨numbers, hlist, htext, hdays, rfl⟩
    rw [← htext]
    exact saveDaysOfWeek_go_runsText hlist hdays ((length_runsText_le htext).trans hfuel) 0

/-! ### The grammar and the scan -/

/-- The scan accepts the text when it is a list of days, and then gives the mask of these days. -/
structure FollowsGrammar (s : String) : Prop where
  accepts : (saveDaysOfWeek (some s)).isSome ↔ ∃ days, DayList s days
  mask : ∀ mask days, saveDaysOfWeek (some s) = some mask → DayList s days →
    ∀ d, mask.getLsbD d = true ↔ ∃ number ∈ days, digitsValue number.run = d

/-- No number of several digits passes for its first one: if the text is a list of numbers that
start with a digit from 1 to 7, each of them is just this digit. -/
def NoLongNumbers (s : String) : Prop :=
  ∀ numbers, NumberList numbers → runsText numbers = s.toList →
    (∀ number ∈ numbers, StartsLikeDay number) → ∀ number ∈ numbers, number.run.length = 1

theorem isDay_of_length {number : GappedRun Char} (hlength : number.run.length = 1)
    (h : StartsLikeDay number) : IsDay number := by
  rw [StartsLikeDay, firstDigit, List.take_of_length_le hlength.le] at h
  exact ⟨hlength, h⟩

/-- Lists of days are accepted, with their mask. -/
theorem DayList.accepted {s : String} {days : List (GappedRun Char)} (h : DayList s days) :
    saveDaysOfWeek (some s) = some (days.foldl addDay 0) :=
  saveDaysOfWeek_eq_some_iff.mpr
    ⟨days, h.list, h.text, fun number hnumber => (h.days number hnumber).startsLikeDay, rfl⟩

theorem DayList.mask {s : String} {days : List (GappedRun Char)} (h : DayList s days) (d : ℕ) :
    (days.foldl addDay (0 : DaysOfWeekRecord)).getLsbD d = true ↔
      ∃ number ∈ days, digitsValue number.run = d := by
  rw [getLsbD_foldl_addDay fun number hnumber => (h.days number hnumber).startsLikeDay]
  have hzero : (0 : DaysOfWeekRecord).getLsbD d = false := BitVec.getLsbD_zero
  rw [hzero]
  constructor
  · rintro (hfalse | ⟨number, hnumber, hfirst⟩)
    · cases hfalse
    · exact ⟨number, hnumber, by rw [← (h.days number hnumber).firstDigit_eq, hfirst]⟩
  · rintro ⟨number, hnumber, hvalue⟩
    exact Or.inr ⟨number, hnumber, by rw [(h.days number hnumber).firstDigit_eq, hvalue]⟩

/-- **`SaveDaysOfWeek`** terminates, and accepts just the lists of the numbers from 1 to 7, with the
bits of these numbers, exactly when no number of several digits passes for its first one. -/
theorem saveDaysOfWeek_grammar_iff (s : String) :
    (∀ fuel, s.length ≤ fuel → saveDaysOfWeek.go fuel s.toList 0 = saveDaysOfWeek (some s)) ∧
      (FollowsGrammar s ↔ NoLongNumbers s) := by
  refine ⟨fun fuel => saveDaysOfWeek_go_eq, ?_, ?_⟩
  · intro h numbers hlist htext hdays number hnumber
    have haccepted := saveDaysOfWeek_eq_some_iff.mpr ⟨numbers, hlist, htext, hdays, rfl⟩
    obtain ⟨days, hgrammar⟩ := h.accepts.mp (by rw [haccepted]; rfl)
    -- the text can be read in one way only
    have hsame : numbers = days := hlist.unique (fun c => isDigit_of_isSeparator) hgrammar.list
      (htext.trans hgrammar.text.symm)
    rw [hsame] at hnumber
    exact (hgrammar.days number hnumber).1
  · intro h
    constructor
    · constructor
      · intro hsome
        obtain ⟨mask, hmask⟩ := Option.isSome_iff_exists.mp hsome
        obtain ⟨numbers, hlist, htext, hdays, -⟩ := saveDaysOfWeek_eq_some_iff.mp hmask
        refine ⟨numbers, hlist, htext, fun number hnumber => ?_⟩
        exact isDay_of_length (h numbers hlist htext hdays number hnumber) (hdays number hnumber)
      · rintro ⟨days, hgrammar⟩
        rw [hgrammar.accepted]
        rfl
    · intro mask days hmask hgrammar d
      rw [hgrammar.accepted] at hmask
      rw [← Option.some.inj hmask]
      exact hgrammar.mask d

/-- The list `10` is accepted, as Sunday. -/
theorem ten_passes_for_one : ¬∀ s, FollowsGrammar s := by
  intro hclaim
  have haccepted : (saveDaysOfWeek (some "10")).isSome = true := by decide +kernel
  obtain ⟨days, hgrammar⟩ := (hclaim "10").accepts.mp haccepted
  have hten : NumberList [⟨[], ['1', '0']⟩] :=
    GappedRuns.nil.cons (by simp) (by simp) (by simp) (by simp [runsText])
  have hsame : [⟨[], ['1', '0']⟩] = days :=
    hten.unique (fun c => isDigit_of_isSeparator) hgrammar.list
      (by rw [hgrammar.text]; decide)
  have hday := hgrammar.days ⟨[], ['1', '0']⟩ (by rw [← hsame]; simp)
  exact absurd hday.1 (by decide)

end IotDeviceSdk.DeviceRule
