import IotDeviceSdk.Agentlite.Equiv.OtaResponse

/-!
# Success of an OTA download

`IOTA_IotRead` should be defined and return 0 only when all the bytes that the header announces have
been read and written (`SucceedsOnlyComplete`).

Its result is that of the first read: nothing that happens afterwards changes it.  So the download
succeeds only complete exactly when the first read is refused, the file is not opened, or the bytes
happen to arrive (`succeedsOnlyComplete_iff`).
-/

namespace IotDeviceSdk.Agentlite

open Prog Text

variable {env : OtaEnv} {c : Cursor} {otaFilePath : Option String} {otaFileNameOut : List UInt8}
  {reads : List ReadResult} {writes : List (Option ℕ)}

/-- All the bytes that the header announces have been read and written. -/
structure Complete (response file : List UInt8) : Prop where
  read : contentLength response ≤ (responseBody response).length
  written : (responseBody response).take (contentLength response) <+: file

/-- **Success only for a complete file.** -/
def SucceedsOnlyComplete (env : OtaEnv) (c : Cursor) (reads : List ReadResult)
    (writes : List (Option ℕ)) (otaFilePath : Option String) (otaFileNameOut : List UInt8) : Prop :=
  ∃ run c', iotRead reads writes otaFilePath otaFileNameOut env c = some (run, c') ∧
    (run.result = 0 → Complete (received reads) (run.file.getD []))

/-- The bytes that are announced arrive, for a first read and the reads and writes after it. -/
inductive Arrives (response : List UInt8) (fileSize : ℤ) (first : List UInt8)
    (reads : List ReadResult) (writes : List (Option ℕ)) : Prop where
  /-- with the first read the code is done, and it has written enough -/
  | inFirstRead {body : List UInt8} (blankLine : after OTA_CRLF first = some body)
    (last : ¬FullWrite (writes.headD none) body.length ∨ fileSize ≤ body.length)
    (enough : contentLength response ≤ (fwrite (writes.headD none) body).length)
  /-- what is missing after the first read is delivered -/
  | inReads {body : List UInt8} (blankLine : after OTA_CRLF first = some body)
    (full : FullWrite (writes.headD none) body.length) (missing : body.length < fileSize)
    (noError : ¬MeetsError (fileSize - body.length).toNat reads writes.tail)
    (delivers : 0 < contentLength response →
      Delivers (fileSize - body.length).toNat reads writes.tail)
  /-- no blank line in the first read, and nothing is announced -/
  | nothing (noBlankLine : after OTA_CRLF first = none) (last : fileSize ≤ 0)
    (enough : contentLength response = 0)
  /-- no blank line in the first read, and what follows it happens to be like the body -/
  | shifted (noBlankLine : after OTA_CRLF first = none) (missing : 0 < fileSize)
    (noError : ¬MeetsError fileSize.toNat reads writes)
    (delivers : 0 < contentLength response →
      fileSize = contentLength response ∧ Delivers fileSize.toNat reads writes ∧
        contentLength response ≤ (responseBody response).length ∧
        (received reads).take (contentLength response) =
          (responseBody response).take (contentLength response))

/-- What the reads and writes of a run have to meet. -/
inductive SucceedsWhen (env : OtaEnv) (c : Cursor) (reads : List ReadResult)
    (writes : List (Option ℕ)) (otaFilePath : Option String) (otaFileNameOut : List UInt8) :
    Prop where
  | refused {flag : HeaderFlag} (flag_eq : firstFlag reads otaFileNameOut = some flag)
    (result : flag.result < 0)
  | unnamed {flag : HeaderFlag} (flag_eq : firstFlag reads otaFileNameOut = some flag)
    (name : ¬NameFits flag.fileName) (nothing : contentLength (received reads) = 0)
  | unopened {flag : HeaderFlag} (flag_eq : firstFlag reads otaFileNameOut = some flag)
    (name : NameFits flag.fileName) (unopened : ¬Opened env c otaFilePath flag.fileName)
  | arrives {flag : HeaderFlag} {first : ReadBytes} {rest : List ReadResult}
    (reads_eq : reads = .data first :: rest)
    (flag_eq : firstFlag reads otaFileNameOut = some flag)
    (name : NameFits flag.fileName) (opened : Opened env c otaFilePath flag.fileName)
    (arrives : Arrives (received reads) flag.fileSize first.bytes rest writes)

/-! ### The header -/

/-- A response is its header and nothing, or a blank line after it. -/
theorem responseHeader_append (response : List UInt8) :
    ∃ tail : List UInt8, response = responseHeader response ++ tail ∧
      (tail = [] ∨ ∃ tail', tail = 13 :: tail') := by
  unfold responseHeader
  cases hblank : findFirst OTA_CRLF response with
  | none => exact ⟨[], (List.append_nil _).symm, .inl rfl⟩
  | some rest =>
    obtain ⟨before, rfl, ⟨tail, rfl⟩, -⟩ := findFirst_eq_some_iff.mp hblank
    refine ⟨OTA_CRLF ++ tail, ?_, .inr ⟨_, rfl⟩⟩
    dsimp only
    rw [List.length_append, Nat.add_sub_cancel, List.take_left]

/-- The blank line in the first read. -/
theorem response_of_blankLine {first body : List UInt8} (h : after OTA_CRLF first = some body)
    (more : List UInt8) :
    responseBody (first ++ more) = body ++ more ∧
      first = responseHeader (first ++ more) ++ (OTA_CRLF ++ body) := by
  obtain ⟨before, hbytes, -, hfirst, -⟩ := after_eq_some (by decide) (by decide) h
  have hblank := @findFirst_append_right _ _ _ _ _ more hfirst
  unfold responseBody responseHeader
  rw [hblank]
  dsimp only
  rw [List.append_assoc, List.drop_left]
  refine ⟨rfl, ?_⟩
  conv_rhs => rw [hbytes]
  rw [List.append_assoc, List.append_assoc, List.length_append, Nat.add_sub_cancel, List.take_left]
  exact hbytes

/-- What follows the name of a field in the first read and in the whole response. -/
theorem contentLength_of_field {first field more : List UInt8}
    (h : after OTA_CONTENT_LENGTH first = some field) (hpos : 0 < contentLength (first ++ more)) :
    (contentLength (first ++ more) : ℤ) = strtol (fieldValue (field ++ more)) ∧
      ∀ tail, first ++ more = responseHeader (first ++ more) ++ tail →
        ∃ value, field ++ more = value ++ tail := by
  obtain ⟨before, hbytes, -, hfirst, -⟩ := after_eq_some (by decide) (by decide) h
  have hresponse := @findFirst_append_right _ _ _ _ _ more hfirst
  obtain ⟨tail, hsplit, htail⟩ := responseHeader_append (first ++ more)
  unfold contentLength at hpos ⊢
  cases hheader : findFirst OTA_CONTENT_LENGTH (responseHeader (first ++ more)) with
  | none =>
    rw [hheader] at hpos
    exact absurd hpos (lt_irrefl 0)
  | some rest =>
    obtain ⟨before', hbefore', ⟨value, rfl⟩, -⟩ := findFirst_eq_some_iff.mp hheader
    have hsame := @findFirst_append_right _ _ _ _ _ tail hheader
    rw [← hsplit, hresponse, List.append_assoc, List.append_assoc] at hsame
    have hvalue := List.append_cancel_left (Option.some.inj hsame)
    rw [hheader] at hpos
    dsimp only at hpos ⊢
    rw [List.drop_left] at hpos ⊢
    rw [hvalue, fieldValue_append htail]
    refine ⟨by omega, fun tail' htail' => ⟨value, ?_⟩⟩
    rw [List.append_cancel_left (hsplit.symm.trans htail')]

/-- The number found in the first read is not more than the announced one. -/
theorem strtol_lengthText_le {first pkgSize more : List UInt8} (h : lengthText first = some pkgSize)
    (hpos : 0 < contentLength (first ++ more)) :
    strtol pkgSize ≤ contentLength (first ++ more) := by
  obtain ⟨field, hfield, rfl⟩ := Option.map_eq_some_iff.mp h
  obtain ⟨hlength, -⟩ := contentLength_of_field hfield hpos
  rw [hlength]
  have hprefix : field.dropLast <+: field ++ more :=
    (List.dropLast_prefix field).trans (List.prefix_append _ _)
  exact strtol_prefix_le (takeWhile_prefix_mono _ hprefix) (by omega)

/-- With the blank line in the first read it is the announced one. -/
theorem strtol_lengthText_eq {first pkgSize body more : List UInt8}
    (h : lengthText first = some pkgSize) (hblank : after OTA_CRLF first = some body)
    (hpos : 0 < contentLength (first ++ more)) :
    strtol pkgSize = contentLength (first ++ more) := by
  obtain ⟨field, hfield, rfl⟩ := Option.map_eq_some_iff.mp h
  obtain ⟨hlength, htail⟩ := contentLength_of_field hfield hpos
  obtain ⟨-, hheader⟩ := response_of_blankLine hblank more
  obtain ⟨value, hvalue⟩ := htail (OTA_CRLF ++ body ++ more) (by
    rw [← List.append_assoc, ← hheader])
  rw [← List.append_assoc] at hvalue
  have hfieldEq : field = value ++ 13 :: ([10, 13, 10] ++ body) := List.append_cancel_right hvalue
  have hdropLast : field.dropLast = value ++ 13 :: ([10, 13, 10] ++ body).dropLast := by
    rw [hfieldEq, List.dropLast_append_of_ne_nil (by simp), List.dropLast_cons_of_ne_nil (by simp)]
  have hline : OTA_CRLF ++ body ++ more = 13 :: ([10, 13, 10] ++ body ++ more) := rfl
  rw [hlength, hdropLast, hvalue, List.append_assoc, hline, fieldValue_append (.inr ⟨_, rfl⟩),
    fieldValue_append (.inr ⟨_, rfl⟩)]

/-! ### The file -/

variable {response file : List UInt8}

/-- A complete file is not shorter than announced. -/
theorem Complete.length_le (h : Complete response file) : contentLength response ≤ file.length := by
  have hle := h.written.length_le
  rw [List.length_take, Nat.min_eq_left h.read] at hle
  exact hle

/-- A file that starts like the body is complete when it is long enough. -/
theorem complete_iff_of_start (h : file <+: responseBody response) :
    Complete response file ↔ contentLength response ≤ file.length := by
  have hlength := h.length_le
  refine ⟨Complete.length_le, fun hle => ⟨by omega, ?_⟩⟩
  refine List.prefix_of_prefix_length_le (List.take_prefix _ _) h ?_
  rw [List.length_take]
  omega

/-- When nothing is announced, nothing is missing. -/
theorem complete_of_nothing (h : contentLength response = 0) : Complete response file := by
  refine ⟨by omega, ?_⟩
  rw [h, List.take_zero]
  exact List.nil_prefix

variable {fileSize : ℤ} {first body : List UInt8}

theorem arrives_iff_of_blankLine (hblank : after OTA_CRLF first = some body) :
    Arrives response fileSize first reads writes ↔
      ((¬FullWrite (writes.headD none) body.length ∨ fileSize ≤ body.length) ∧
        contentLength response ≤ (fwrite (writes.headD none) body).length) ∨
      (FullWrite (writes.headD none) body.length ∧ body.length < fileSize ∧
        ¬MeetsError (fileSize - body.length).toNat reads writes.tail ∧
        (0 < contentLength response →
          Delivers (fileSize - body.length).toNat reads writes.tail)) := by
  constructor
  · intro h
    cases h with
    | inFirstRead hblank' hlast henough =>
      obtain rfl := Option.some.inj (hblank.symm.trans hblank')
      exact .inl ⟨hlast, henough⟩
    | inReads hblank' hfull hmissing hnoError hdelivers =>
      obtain rfl := Option.some.inj (hblank.symm.trans hblank')
      exact .inr ⟨hfull, hmissing, hnoError, hdelivers⟩
    | nothing hnone => exact nomatch hblank.symm.trans hnone
    | shifted hnone => exact nomatch hblank.symm.trans hnone
  · rintro (⟨hlast, henough⟩ | ⟨hfull, hmissing, hnoError, hdelivers⟩)
    · exact .inFirstRead hblank hlast henough
    · exact .inReads hblank hfull hmissing hnoError hdelivers

/-- The rounds after the first complete a file that starts like the body. -/
theorem iotReadRest_complete_iff {start : List UInt8} {wanted : ℕ} (hwanted : 0 < wanted)
    (hstart : start ++ received reads <+: responseBody response)
    (hsize : 0 < contentLength response → start.length + wanted = contentLength response) :
    (∃ file, iotReadRest (start.length + wanted) reads writes start.length start = some file ∧
      Complete response file) ↔
      ¬MeetsError wanted reads writes ∧
        (0 < contentLength response → Delivers wanted reads writes) := by
  rcases iotReadRest_spec hwanted reads writes start.length start with
    ⟨herror, hnone⟩ | ⟨hnoError, k, hk, hsome, hlength, hdelivers⟩
  · rw [hnone]
    constructor
    · rintro ⟨file, hfile, -⟩
      cases hfile
    · exact fun h => absurd herror h.1
  · have hfile : start ++ (received reads).take k <+: responseBody response :=
      ((List.prefix_append_right_inj start).mpr (List.take_prefix _ _)).trans hstart
    have hlengthFile : (start ++ (received reads).take k).length = start.length + k := by
      rw [List.length_append, List.length_take, Nat.min_eq_left hlength]
    rw [hsome]
    constructor
    · rintro ⟨file, heq, hcomplete⟩
      obtain rfl := Option.some.inj heq
      have hle := hcomplete.length_le
      refine ⟨hnoError, fun hannounced => hdelivers.mp ?_⟩
      have := hsize hannounced
      omega
    · rintro ⟨-, hdelivered⟩
      refine ⟨_, rfl, (complete_iff_of_start hfile).mpr ?_⟩
      rcases Nat.eq_zero_or_pos (contentLength response) with hzero | hannounced
      · omega
      · have := hsize hannounced
        have := hdelivers.mpr (hdelivered hannounced)
        omega

/-- **The file**, with a blank line in the first read. -/
theorem download_complete_iff_of_blankLine (hblank : after OTA_CRLF first = some body)
    (hsize : 0 < contentLength (first ++ received reads) →
      fileSize = contentLength (first ++ received reads)) :
    (∃ file, download fileSize first reads writes = some file ∧
      Complete (first ++ received reads) file) ↔
      Arrives (first ++ received reads) fileSize first reads writes := by
  obtain ⟨hbody, -⟩ := response_of_blankLine hblank (received reads)
  have hwritten : fwrite (writes.headD none) body <+: responseBody (first ++ received reads) := by
    rw [fwrite_eq_take, hbody]
    exact (List.take_prefix _ _).trans (List.prefix_append _ _)
  rw [arrives_iff_of_blankLine hblank]
  unfold download
  rw [hblank]
  dsimp only
  by_cases hfull : FullWrite (writes.headD none) body.length
  · rw [fwrite_of_full hfull] at hwritten ⊢
    simp only [hfull, not_true_eq_false, false_or, true_and, lt_irrefl]
    by_cases hlast : fileSize ≤ body.length
    · -- the first read is the last one
      rw [if_pos hlast]
      constructor
      · rintro ⟨file, hfile, hcomplete⟩
        obtain rfl := Option.some.inj hfile
        exact .inl ⟨hlast, hcomplete.length_le⟩
      · rintro (⟨-, henough⟩ | ⟨hmissing, -⟩)
        · exact ⟨_, rfl, (complete_iff_of_start hwritten).mpr henough⟩
        · exact absurd hlast (not_le.mpr hmissing)
    · obtain ⟨wanted, rfl⟩ : ∃ wanted : ℕ, fileSize = body.length + wanted :=
        ⟨(fileSize - body.length).toNat, by omega⟩
      have htoNat : ((body.length : ℤ) + wanted - body.length).toNat = wanted := by omega
      have hmissing : (body.length : ℤ) < body.length + wanted := not_le.mp hlast
      have hstart : body ++ received reads <+: responseBody (first ++ received reads) := by
        rw [hbody]
      rw [if_neg hlast, htoNat, iotReadRest_complete_iff (by omega) hstart
        fun hannounced => by have := hsize hannounced; omega]
      simp only [hlast, hmissing, false_and, false_or, true_and]
  · -- a short write ends the download
    have hshort := not_not.mp fun h => hfull (fullWrite_iff.mpr h)
    rw [if_pos (.inl hshort)]
    simp only [hfull, not_false_eq_true, true_or, true_and, false_and, or_false]
    constructor
    · rintro ⟨file, hfile, hcomplete⟩
      obtain rfl := Option.some.inj hfile
      exact hcomplete.length_le
    · exact fun henough => ⟨_, rfl, (complete_iff_of_start hwritten).mpr henough⟩

theorem arrives_iff_of_noBlankLine (hblank : after OTA_CRLF first = none) :
    Arrives response fileSize first reads writes ↔
      (fileSize ≤ 0 ∧ contentLength response = 0) ∨
      (0 < fileSize ∧ ¬MeetsError fileSize.toNat reads writes ∧
        (0 < contentLength response →
          fileSize = contentLength response ∧ Delivers fileSize.toNat reads writes ∧
            contentLength response ≤ (responseBody response).length ∧
            (received reads).take (contentLength response) =
              (responseBody response).take (contentLength response))) := by
  constructor
  · intro h
    cases h with
    | inFirstRead hsome => exact nomatch hblank.symm.trans hsome
    | inReads hsome => exact nomatch hblank.symm.trans hsome
    | nothing _ hlast henough => exact .inl ⟨hlast, henough⟩
    | shifted _ hmissing hnoError hdelivers => exact .inr ⟨hmissing, hnoError, hdelivers⟩
  · rintro (⟨hlast, henough⟩ | ⟨hmissing, hnoError, hdelivers⟩)
    · exact .nothing hblank hlast henough
    · exact .shifted hblank hmissing hnoError hdelivers

/-- **The file**, without a blank line in the first read. -/
theorem download_complete_iff_of_noBlankLine (hblank : after OTA_CRLF first = none)
    (hsize : 0 < contentLength response → fileSize ≤ contentLength response) :
    (∃ file, download fileSize first reads writes = some file ∧ Complete response file) ↔
      Arrives response fileSize first reads writes := by
  rw [arrives_iff_of_noBlankLine hblank]
  unfold download
  rw [hblank]
  dsimp only
  by_cases hlast : fileSize ≤ 0
  · rw [if_pos hlast]
    constructor
    · rintro ⟨file, hfile, hcomplete⟩
      obtain rfl := Option.some.inj hfile
      -- the file has no bytes, so the response announces none
      exact .inl ⟨hlast, Nat.le_zero.mp hcomplete.length_le⟩
    · rintro (⟨-, hnothing⟩ | ⟨hmissing, -⟩)
      · exact ⟨_, rfl, complete_of_nothing hnothing⟩
      · omega
  · rw [if_neg hlast]
    obtain ⟨wanted, rfl⟩ : ∃ wanted : ℕ, fileSize = wanted := ⟨fileSize.toNat, by omega⟩
    rw [Int.toNat_natCast]
    have hpos : 0 < wanted := by omega
    have hspec := iotReadRest_spec hpos reads writes 0 []
    rw [zero_add] at hspec
    rcases hspec with ⟨herror, hnone⟩ | ⟨hnoError, k, hk, hsome, hlength, hdelivers⟩
    · rw [hnone]
      constructor
      · rintro ⟨file, hfile, -⟩
        cases hfile
      · rintro (⟨hle, -⟩ | ⟨-, hnoError, -⟩)
        · exact absurd hle hlast
        · exact absurd herror hnoError
    · rw [hsome, List.nil_append]
      have hlengthFile : ((received reads).take k).length = k := by
        rw [List.length_take, Nat.min_eq_left hlength]
      constructor
      · rintro ⟨file, heq, hcomplete⟩
        obtain rfl := Option.some.inj heq
        refine .inr ⟨by omega, hnoError, fun hannounced => ?_⟩
        have hle := hcomplete.length_le
        have hsize := hsize hannounced
        -- the file has the announced length and holds what was read
        obtain rfl : k = contentLength response := by omega
        refine ⟨by omega, hdelivers.mp (by omega), hcomplete.read, ?_⟩
        refine (hcomplete.written.eq_of_length ?_).symm
        rw [hlengthFile, List.length_take, Nat.min_eq_left hcomplete.read]
      · rintro (⟨hle, -⟩ | ⟨-, -, hdelivered⟩)
        · exact absurd hle hlast
        · refine ⟨_, rfl, ?_⟩
          rcases Nat.eq_zero_or_pos (contentLength response) with hzero | hannounced
          · exact complete_of_nothing hzero
          · obtain ⟨heq, hdelivered, hread, hsame⟩ := hdelivered hannounced
            -- what arrived has the announced length
            obtain rfl : k = contentLength response := by
              have := hdelivers.mpr hdelivered
              omega
            refine ⟨hread, ?_⟩
            rw [hsame]

/-- **The file** that the code writes once it is open. -/
theorem arrives_of_opened {read : ReadBytes} {pkgSize : List UInt8}
    (hpkgSize : lengthText read.bytes = some pkgSize) (hsize : fileSize = strtol pkgSize) :
    (∃ file, download fileSize read.bytes reads writes = some file ∧
      Complete (received (.data read :: reads)) file) ↔
      Arrives (received (.data read :: reads)) fileSize read.bytes reads writes := by
  have hreceived : received (.data read :: reads) = read.bytes ++ received reads := rfl
  rw [hreceived, hsize]
  cases hblank : after OTA_CRLF read.bytes with
  | none => exact download_complete_iff_of_noBlankLine hblank (strtol_lengthText_le hpkgSize)
  | some body =>
    exact download_complete_iff_of_blankLine hblank (strtol_lengthText_eq hpkgSize hblank)

/-! ### The run -/

/-- A header that is not refused is that of a read with an announced number. -/
theorem firstFlag_of_accepted {flag : HeaderFlag} (h : firstFlag reads otaFileNameOut = some flag)
    (hresult : ¬flag.result < 0) :
    ∃ first rest pkgSize, reads = .data first :: rest ∧ lengthText first.bytes = some pkgSize ∧
      flag.fileSize = strtol pkgSize ∧ flag.result = 0 := by
  have hfailure : IOTA_FAILURE < 0 := by decide
  by_cases hdata : ∃ first rest, reads = .data first :: rest
  · obtain ⟨first, rest, rfl⟩ := hdata
    have hflag : headerFlag first.bytes otaFileNameOut = some flag := by
      rw [← iotReadHeaderFlag_data]
      exact h
    unfold headerFlag at hflag
    cases hlength : lengthText first.bytes with
    | none =>
      rw [hlength] at hflag
      obtain rfl := Option.some.inj hflag
      exact absurd hfailure hresult
    | some pkgSize =>
      rw [hlength] at hflag
      obtain ⟨-, hflag⟩ := Option.ite_none_left_eq_some.mp hflag
      obtain ⟨name, -, rfl⟩ := Option.map_eq_some_iff.mp hflag
      refine ⟨first, rest, pkgSize, rfl, hlength, rfl, ?_⟩
      dsimp only at hresult ⊢
      unfold statusResult at hresult ⊢
      split_ifs at hresult ⊢
      · exact absurd hfailure hresult
      · rfl
      · exact absurd hfailure hresult
  · have hread : ∀ read, reads.headD .closed ≠ .data read := by
      intro read heq
      cases reads with
      | nil => cases heq
      | cons first rest => exact hdata ⟨read, rest, congrArg (· :: rest) heq⟩
    unfold firstFlag at h
    rw [iotReadHeaderFlag_no_data hread] at h
    obtain rfl := Option.some.inj h
    exact absurd hfailure hresult

/-- What is asked of a run whose first read is not refused. -/
theorem succeedsWhen_iff {flag : HeaderFlag} {first : ReadBytes} {rest : List ReadResult}
    (hflag : firstFlag (.data first :: rest) otaFileNameOut = some flag)
    (hresult : ¬flag.result < 0) :
    SucceedsWhen env c (.data first :: rest) writes otaFilePath otaFileNameOut ↔
      (¬NameFits flag.fileName ∧ contentLength (received (.data first :: rest)) = 0) ∨
      (NameFits flag.fileName ∧ ¬Opened env c otaFilePath flag.fileName) ∨
      (NameFits flag.fileName ∧ Opened env c otaFilePath flag.fileName ∧
        Arrives (received (.data first :: rest)) flag.fileSize first.bytes rest writes) := by
  constructor
  · intro h
    cases h with
    | refused hflag' hrefused =>
      obtain rfl := Option.some.inj (hflag.symm.trans hflag')
      exact absurd hrefused hresult
    | unnamed hflag' hname hnothing =>
      obtain rfl := Option.some.inj (hflag.symm.trans hflag')
      exact .inl ⟨hname, hnothing⟩
    | unopened hflag' hname hunopened =>
      obtain rfl := Option.some.inj (hflag.symm.trans hflag')
      exact .inr (.inl ⟨hname, hunopened⟩)
    | arrives hreads hflag' hname hopened harrives =>
      obtain rfl := Option.some.inj (hflag.symm.trans hflag')
      obtain ⟨hdata, rfl⟩ := List.cons.inj hreads
      obtain rfl := ReadResult.data.inj hdata
      exact .inr (.inr ⟨hname, hopened, harrives⟩)
  · rintro (⟨hname, hnothing⟩ | ⟨hname, hunopened⟩ | ⟨hname, hopened, harrives⟩)
    · exact .unnamed hflag hname hnothing
    · exact .unopened hflag hname hunopened
    · exact .arrives rfl hflag hname hopened harrives

/-- **Success only for a complete file** exactly under `SucceedsWhen`. -/
theorem succeedsOnlyComplete_iff :
    SucceedsOnlyComplete env c reads writes otaFilePath otaFileNameOut ↔
      SucceedsWhen env c reads writes otaFilePath otaFileNameOut := by
  unfold SucceedsOnlyComplete
  cases hflag : firstFlag reads otaFileNameOut with
  | none =>
    rw [iotRead_undefined hflag]
    constructor
    · rintro ⟨run, c', h, -⟩
      cases h
    · intro h
      cases h <;> exact nomatch hflag.symm.trans ‹firstFlag reads otaFileNameOut = some _›
  | some flag =>
    by_cases hresult : flag.result < 0
    · -- a refused header is reported as a failure
      rw [iotRead_refused hflag (.inr hresult)]
      refine iff_of_true ⟨_, _, rfl, fun hzero => ?_⟩ (.refused hflag hresult)
      dsimp only at hzero
      omega
    · obtain ⟨first, rest, pkgSize, rfl, hpkgSize, hsize, hzero⟩ :=
        firstFlag_of_accepted hflag hresult
      rw [succeedsWhen_iff hflag hresult]
      by_cases hfits : NameFits flag.fileName
      · simp only [hfits, not_true_eq_false, false_and, true_and, false_or]
        by_cases hopened : Opened env c otaFilePath flag.fileName
        · obtain ⟨c', hrun⟩ := @iotRead_opened env c otaFilePath otaFileNameOut rest writes flag
            first hflag hfits hresult hopened
          simp only [hopened, not_true_eq_false, true_and, false_or]
          rw [hrun, ← arrives_of_opened hpkgSize hsize]
          constructor
          · rintro ⟨run, c'', h, hcomplete⟩
            obtain ⟨file, hdownload, heq⟩ := Option.map_eq_some_iff.mp h
            obtain ⟨rfl, -⟩ := Prod.mk.inj heq
            exact ⟨file, hdownload, hcomplete hzero⟩
          · rintro ⟨file, hdownload, hcomplete⟩
            rw [hdownload]
            exact ⟨_, _, rfl, fun _ => hcomplete⟩
        · -- a file that is not opened is reported as a failure
          obtain ⟨c', hrun⟩ := @iotRead_unopened env c otaFilePath otaFileNameOut
            (.data first :: rest) writes flag hflag hfits hresult hopened
          have hfailure : IOTA_FAILURE ≠ 0 := by decide
          rw [hrun]
          exact iff_of_true ⟨_, _, rfl, fun h => absurd h hfailure⟩ (.inl hopened)
      · rw [iotRead_refused hflag (.inl hfits)]
        simp only [hfits, not_false_eq_true, true_and, false_and, or_false]
        constructor
        · rintro ⟨run, c', h, hcomplete⟩
          obtain ⟨rfl, -⟩ := Prod.mk.inj (Option.some.inj h)
          exact Nat.le_zero.mp (hcomplete hzero).length_le
        · exact fun hnothing => ⟨_, _, rfl, fun _ => complete_of_nothing hnothing⟩

/-! ### A sample download -/

/-- A read that announces five bytes and has two of them. -/
def sampleFirstRead : ReadBytes where
  bytes := ascii "HTTP/1.1 200 OK\r\nContent-Length: 5\r\n\r\nab"
  nonempty := by decide
  length_lt := by decide

/-- The connection is closed after two of five bytes, and the download succeeds. -/
theorem succeedsOnlyComplete_closed_false :
    ¬∀ env c reads writes otaFilePath otaFileNameOut,
      SucceedsOnlyComplete env c reads writes otaFilePath otaFileNameOut := by
  intro h
  obtain ⟨run, c', hrun, hcomplete⟩ :=
    h sampleFiles ⟨0, 0⟩ [.data sampleFirstRead, .closed] [] none (ascii "p")
  have heval : (iotRead [.data sampleFirstRead, .closed] [] none (ascii "p") sampleFiles ⟨0, 0⟩).map
      Prod.fst = some { result := 0, fileName := ascii "p", file := some (ascii "ab") } := by
    decide +kernel
  rw [hrun] at heval
  obtain rfl := Option.some.inj heval
  have hread := (hcomplete rfl).read
  revert hread
  decide +kernel

end IotDeviceSdk.Agentlite
