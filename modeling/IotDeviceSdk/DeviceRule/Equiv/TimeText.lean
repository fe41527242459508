import IotDeviceSdk.DeviceRule.RuleInfo
import IotDeviceSdk.Env
import IotDeviceSdk.Libc.Numeral

/-!
# The times `ConvertTimeStrToSeconds` and `GMTTimestampFromStr` read

Both functions accept every text in which `sscanf_s` does not meet the end before the first number,
so a text that is not a time is accepted as well.

* `timeTexts_denote_iff`: what they accept denotes a time when the text is blank, and so is refused,
  or starts with a time of day, or with a date whose components fit an `int`.
-/

namespace IotDeviceSdk.DeviceRule

open Prog

/-! ### Times in texts -/

/-- The text starts with `H:M:S`, or with `H:M` and no third number, for which `S` is zero. -/
def StartsWithTime (s : String) (H M S : ℤ) : Prop :=
  ∃ s₁ s₂, Numeral s.toList H (':' :: s₁) ∧ Numeral s₁ M s₂ ∧
    ((∃ s₃ s₄, s₂ = ':' :: s₃ ∧ Numeral s₃ S s₄) ∨
      S = 0 ∧ ¬∃ s₃ n s₄, s₂ = ':' :: s₃ ∧ Numeral s₃ n s₄)

/-- The components of a time of day. -/
structure TimeOfDay (H M S : ℤ) : Prop where
  hour : 0 ≤ H ∧ H < 24
  minute : 0 ≤ M ∧ M < 60
  second : 0 ≤ S ∧ S < 60

/-- The components of a date with a time. -/
structure DateTime where
  year : ℤ
  month : ℤ
  day : ℤ
  hour : ℤ
  minute : ℤ
  second : ℤ

namespace DateTime

/-- The UTC epoch time of a date. -/
def epochTime (date : DateTime) : ℤ :=
  timegm
    { tm_year := date.year - 1900
      tm_mon := date.month - 1
      tm_mday := date.day
      tm_hour := date.hour
      tm_min := date.minute
      tm_sec := date.second }

/-- The epoch time of a date whose components are stored as `int`s. -/
def storedTime (date : DateTime) : ℤ :=
  timegm
    { tm_year := cInt (cutToInt date.year - 1900)
      tm_mon := cInt (cutToInt date.month - 1)
      tm_mday := cutToInt date.day
      tm_hour := cutToInt date.hour
      tm_min := cutToInt date.minute
      tm_sec := cutToInt date.second }

/-- The components fit the `int` fields of a `struct tm`, which counts the years from 1900 and the
months from 0. -/
structure Fits (date : DateTime) : Prop where
  year : -2 ^ 31 ≤ date.year - 1900 ∧ date.year < 2 ^ 31
  month : -2 ^ 31 ≤ date.month - 1 ∧ date.month < 2 ^ 31
  day : -2 ^ 31 ≤ date.day ∧ date.day < 2 ^ 31
  hour : -2 ^ 31 ≤ date.hour ∧ date.hour < 2 ^ 31
  minute : -2 ^ 31 ≤ date.minute ∧ date.minute < 2 ^ 31
  second : -2 ^ 31 ≤ date.second ∧ date.second < 2 ^ 31

/-- Components that fit keep the instant. -/
theorem Fits.storedTime_eq {date : DateTime} (h : date.Fits) :
    date.storedTime = date.epochTime := by
  obtain ⟨hyear, hmonth, hday, hhour, hminute, hsecond⟩ := h
  unfold storedTime epochTime
  rw [cutToInt_eq (n := date.year) (by omega) hyear.2, cutToInt_eq (n := date.month) (by omega)
    hmonth.2, cutToInt_eq hday.1 hday.2, cutToInt_eq hhour.1 hhour.2,
    cutToInt_eq hminute.1 hminute.2, cutToInt_eq hsecond.1 hsecond.2, cInt_eq hyear.1 (by omega),
    cInt_eq hmonth.1 (by omega)]

/-- The day count of the first day of a month, counted from 0 in the years from 1900. -/
def firstOfMonth (year month : ℤ) : ℤ :=
  daysFromCivil (year + 1900 + month / 12) (month % 12 + 1) 1

/-- The days by which a date is off when its year, month and day are stored as `int`s. -/
def lostDays (date : DateTime) : ℤ :=
  firstOfMonth (date.year - 1900) (date.month - 1) -
    firstOfMonth (cInt (cutToInt date.year - 1900)) (cInt (cutToInt date.month - 1)) +
    (date.day - cutToInt date.day)

/-- What the components lose when they are stored as `int`s makes up for each other. -/
def LossesCancel (date : DateTime) : Prop :=
  date.lostDays * secondsPerDay + (date.hour - cutToInt date.hour) * 3600 +
    (date.minute - cutToInt date.minute) * 60 + (date.second - cutToInt date.second) = 0

theorem storedTime_eq_iff {date : DateTime} :
    date.storedTime = date.epochTime ↔ date.LossesCancel := by
  have hlost : date.epochTime - date.storedTime =
      date.lostDays * secondsPerDay + (date.hour - cutToInt date.hour) * 3600 +
        (date.minute - cutToInt date.minute) * 60 + (date.second - cutToInt date.second) := by
    unfold epochTime storedTime timegm lostDays firstOfMonth
    ring
  rw [LossesCancel, ← hlost, sub_eq_zero, eq_comm]

/-- The text starts with `Y-M-D h:m:s`. -/
def At (date : DateTime) (s : String) : Prop :=
  ∃ s₁ s₂ s₃ s₄ s₅ s₆, Numeral s.toList date.year ('-' :: s₁) ∧ Numeral s₁ date.month ('-' :: s₂) ∧
    Numeral s₂ date.day s₃ ∧ Numeral s₃ date.hour (':' :: s₄) ∧
    Numeral s₄ date.minute (':' :: s₅) ∧ Numeral s₅ date.second s₆

end DateTime

/-- What `ConvertTimeStrToSeconds` accepts is a time of day, and the result its second of the
day. -/
def TimeDenotes (s : String) : Prop :=
  ∀ secondInDay, convertTimeStrToSeconds (some s) = some secondInDay →
    (∃ H M S, StartsWithTime s H M S ∧ TimeOfDay H M S ∧ secondInDay = 3600 * H + 60 * M + S) ∧
      0 ≤ secondInDay ∧ secondInDay < 86400

/-- What `GMTTimestampFromStr` accepts is a date with a time, and the result its epoch time,
whatever the stack held. -/
def DateDenotes (s : String) : Prop :=
  ∀ env time, Outcome env (gmtTimestampFromStr (some s)) (some time) →
    (∃ date : DateTime, date.At s ∧ time = date.epochTime) ∧
      ∀ env', Returns env' (gmtTimestampFromStr (some s)) fun r => r = some time

/-! ### Times of day -/

/-- The format `%d:%d:%d`. -/
abbrev timeFormat : List ScanDirective := [.int, .lit ':', .int, .lit ':', .int]

theorem convertTimeStrToSeconds_eq_none_iff {s : String} :
    convertTimeStrToSeconds (some s) = none ↔ Blank s.toList := by
  have hfirst : sscanf timeFormat s.toList = none ↔ Blank s.toList := sscanf_eq_none_iff
  have hsecond : sscanf [.int, .lit ':', .int] s.toList = none ↔ Blank s.toList :=
    sscanf_eq_none_iff
  unfold convertTimeStrToSeconds
  dsimp only
  rw [Option.map_eq_none_iff]
  cases hscan : sscanf timeFormat s.toList with
  | none => exact hsecond
  | some values =>
    rw [hscan] at hfirst
    simpa using hfirst

/-- The values `sscanf_s` reads from a time. -/
theorem convertTimeStrToSeconds_of_time {s : String} {H M S : ℤ} (h : StartsWithTime s H M S) :
    convertTimeStrToSeconds (some s) =
      some (hhmmssToSecond (cutToInt H) (cutToInt M) (cutToInt S)) := by
  obtain ⟨s₁, s₂, hH, hM, hS⟩ := h
  have hscan : sscanf timeFormat s.toList =
      sscanf.go [.lit ':', .int] s₂ [cutToInt H, cutToInt M] := by
    unfold sscanf
    rw [sscanf_go_int hH, sscanf_go_lit, sscanf_go_int hM]
    rfl
  unfold convertTimeStrToSeconds
  dsimp only
  rw [hscan]
  rcases hS with ⟨s₃, s₄, rfl, hS⟩ | ⟨rfl, hnone⟩
  · rw [sscanf_go_lit, sscanf_go_int hS]
    rfl
  · have hzero : cutToInt 0 = 0 := by decide
    have hstop : sscanf.go [.lit ':', .int] s₂ [cutToInt H, cutToInt M] =
        some [cutToInt H, cutToInt M] := by
      by_cases hcolon : ∃ s₃, s₂ = ':' :: s₃
      · obtain ⟨s₃, rfl⟩ := hcolon
        rw [sscanf_go_lit, sscanf_go_int_none _ (by simp)]
        rintro ⟨n, s₄, hn⟩
        exact hnone ⟨s₃, n, s₄, rfl, hn⟩
      · exact sscanf_go_lit_none (fun t ht => hcolon ⟨t, ht⟩) (by simp)
    rw [hstop, hzero]
    rfl

theorem TimeOfDay.second_eq {H M S : ℤ} (h : TimeOfDay H M S) :
    hhmmssToSecond (cutToInt H) (cutToInt M) (cutToInt S) = 3600 * H + 60 * M + S := by
  obtain ⟨⟨hH, hH'⟩, ⟨hM, hM'⟩, ⟨hS, hS'⟩⟩ := h
  rw [cutToInt_eq (by omega) (by omega), cutToInt_eq (by omega) (by omega),
    cutToInt_eq (by omega) (by omega), hhmmssToSecond,
    cInt_eq (by omega) (by omega)]
  omega

theorem timeDenotes_iff (s : String) :
    TimeDenotes s ↔ Blank s.toList ∨ ∃ H M S, StartsWithTime s H M S ∧ TimeOfDay H M S := by
  constructor
  · intro h
    by_cases hblank : Blank s.toList
    · exact Or.inl hblank
    · have hsome := mt convertTimeStrToSeconds_eq_none_iff.mp hblank
      obtain ⟨secondInDay, hsecond⟩ := Option.ne_none_iff_exists'.mp hsome
      obtain ⟨⟨H, M, S, hstarts, htime, -⟩, -⟩ := h secondInDay hsecond
      exact Or.inr ⟨H, M, S, hstarts, htime⟩
  · rintro (hblank | ⟨H, M, S, hstarts, htime⟩) secondInDay hsecond
    · rw [convertTimeStrToSeconds_eq_none_iff.mpr hblank] at hsecond
      cases hsecond
    · rw [convertTimeStrToSeconds_of_time hstarts, htime.second_eq] at hsecond
      obtain ⟨⟨hH, hH'⟩, ⟨hM, hM'⟩, ⟨hS, hS'⟩⟩ := htime
      obtain rfl := Option.some.inj hsecond
      exact ⟨⟨H, M, S, hstarts, ⟨⟨hH, hH'⟩, ⟨hM, hM'⟩, ⟨hS, hS'⟩⟩, rfl⟩, by omega, by omega⟩

/-! ### Dates -/

/-- The format `%d-%d-%d %d:%d:%d`. -/
abbrev dateFormat : List ScanDirective :=
  [.int, .lit '-', .int, .lit '-', .int, .blank, .int, .lit ':', .int, .lit ':', .int]

/-- What `GMTTimestampFromStr` makes of the values read. -/
def timeOfValues (timeStruct : Tm) (values : List ℤ) : ℤ :=
  timegm
    { tm_year := cInt (values[0]?.getD timeStruct.tm_year - 1900)
      tm_mon := cInt (values[1]?.getD timeStruct.tm_mon - 1)
      tm_mday := values[2]?.getD timeStruct.tm_mday
      tm_hour := values[3]?.getD timeStruct.tm_hour
      tm_min := values[4]?.getD timeStruct.tm_min
      tm_sec := values[5]?.getD timeStruct.tm_sec }

variable {env : Env}

theorem gmtTimestampFromStr_returns (s : String) :
    Returns env (gmtTimestampFromStr (some s)) fun r =>
      ∃ timeStruct, r = (sscanf dateFormat s.toList).map (timeOfValues timeStruct) := by
  apply uninitialisedTm_returns.bind
  intro timeStruct _
  dsimp only [dateFormat]
  cases sscanf [.int, .lit '-', .int, .lit '-', .int, .blank, .int, .lit ':', .int, .lit ':', .int]
    s.toList with
  | none => exact returns_pure ⟨timeStruct, rfl⟩
  | some values => exact returns_pure ⟨timeStruct, rfl⟩

theorem gmtTimestampFromStr_blank {s : String} (hblank : Blank s.toList) :
    Returns env (gmtTimestampFromStr (some s)) fun r => r = none := by
  have hscan : sscanf dateFormat s.toList = none := sscanf_eq_none_iff.mpr hblank
  refine (gmtTimestampFromStr_returns s).mono fun r hr => ?_
  obtain ⟨timeStruct, hr⟩ := hr
  rw [hr, hscan]
  rfl

/-- With all six components the stack is not read. -/
theorem gmtTimestampFromStr_of_date {s : String} {date : DateTime} (h : date.At s) :
    Returns env (gmtTimestampFromStr (some s)) fun r => r = some date.storedTime := by
  obtain ⟨s₁, s₂, s₃, s₄, s₅, s₆, hyear, hmonth, hday, hhour, hminute, hsecond⟩ := h
  have hscan : sscanf dateFormat s.toList = some [cutToInt date.year, cutToInt date.month,
      cutToInt date.day, cutToInt date.hour, cutToInt date.minute, cutToInt date.second] := by
    unfold sscanf
    rw [sscanf_go_int hyear, sscanf_go_lit, sscanf_go_int hmonth, sscanf_go_lit, sscanf_go_int hday,
      sscanf_go_blank_int, sscanf_go_int hhour, sscanf_go_lit, sscanf_go_int hminute, sscanf_go_lit,
      sscanf_go_int hsecond]
    rfl
  refine (gmtTimestampFromStr_returns s).mono fun r hr => ?_
  obtain ⟨timeStruct, hr⟩ := hr
  rw [hr, hscan]
  rfl

theorem dateDenotes_iff (s : String) :
    DateDenotes s ↔
      Blank s.toList ∨ ∃ date : DateTime, date.At s ∧ (date.Fits ∨ date.LossesCancel) := by
  have hkeeps : ∀ date : DateTime,
      (date.Fits ∨ date.LossesCancel) ↔ date.storedTime = date.epochTime := by
    intro date
    rw [← DateTime.storedTime_eq_iff]
    exact or_iff_right_of_imp DateTime.Fits.storedTime_eq
  simp only [hkeeps]
  constructor
  · intro h
    by_cases hblank : Blank s.toList
    · exact Or.inl hblank
    · -- a text that is not blank is accepted
      have hsome : sscanf dateFormat s.toList ≠ none := mt sscanf_eq_none_iff.mp hblank
      obtain ⟨values, hvalues⟩ := Option.ne_none_iff_exists'.mp hsome
      have hreturns : Returns Env.plentiful (gmtTimestampFromStr (some s)) fun r =>
          ∃ timeStruct, r = (sscanf dateFormat s.toList).map (timeOfValues timeStruct) :=
        gmtTimestampFromStr_returns s
      obtain ⟨r, hout, timeStruct, hr⟩ := hreturns.exists_outcome
      rw [hvalues, Option.map_some] at hr
      rw [hr] at hout
      obtain ⟨⟨date, hat, htime⟩, -⟩ := h _ _ hout
      have hstored := (gmtTimestampFromStr_of_date hat).yields _ hout
      exact Or.inr ⟨date, hat, (Option.some.inj hstored).symm.trans htime⟩
  · rintro (hblank | ⟨date, hat, hstored⟩) env time hout
    · have hnone := (gmtTimestampFromStr_blank hblank).yields _ hout
      cases hnone
    · have htime := Option.some.inj ((gmtTimestampFromStr_of_date hat).yields _ hout)
      subst htime
      exact ⟨⟨date, hat, hstored⟩, fun env' => gmtTimestampFromStr_of_date hat⟩

/-- **The texts the two functions accept** denote times exactly when they start with a time of day,
or with a date whose components fit an `int`, or lose nothing in sum; a blank text is refused. -/
theorem timeTexts_denote_iff (s : String) :
    (TimeDenotes s ↔ Blank s.toList ∨ ∃ H M S, StartsWithTime s H M S ∧ TimeOfDay H M S) ∧
      (DateDenotes s ↔
        Blank s.toList ∨ ∃ date : DateTime, date.At s ∧ (date.Fits ∨ date.LossesCancel)) :=
  ⟨timeDenotes_iff s, dateDenotes_iff s⟩

/-- Both functions accept a text without a number. -/
theorem letters_accepted : (¬∀ s, TimeDenotes s) ∧ ¬∀ s, DateDenotes s := by
  have hnone : ∀ n rest, ¬Numeral "abc".toList n rest := by
    intro n rest hnumeral
    have hscan := scanInt_of_numeral hnumeral
    have hletters : scanInt ("abc".toList.dropWhile isSpace) = none := by decide +kernel
    rw [hletters] at hscan
    cases hscan
  constructor
  · intro hclaim
    have haccepted : convertTimeStrToSeconds (some "abc") = some 0 := by decide +kernel
    obtain ⟨⟨H, M, S, ⟨s₁, s₂, hnumeral, -⟩, -⟩, -⟩ := hclaim "abc" 0 haccepted
    exact hnone _ _ hnumeral
  · intro hclaim
    have haccepted : (gmtTimestampFromStr (some "abc") Env.plentiful default).map
        (fun r => r.1.isSome) = some true := by
      decide +kernel
    obtain ⟨⟨r, c⟩, hrun, hsome⟩ := Option.map_eq_some_iff.mp haccepted
    obtain ⟨time, rfl⟩ := Option.isSome_iff_exists.mp hsome
    obtain ⟨⟨date, ⟨s₁, s₂, s₃, s₄, s₅, s₆, hnumeral, -⟩, -⟩, -⟩ :=
      hclaim "abc" Env.plentiful time ⟨_, _, hrun⟩
    exact hnone _ _ hnumeral

end IotDeviceSdk.DeviceRule
