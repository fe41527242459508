import IotDeviceSdk.Agentlite.Equiv.OtaResponse
import IotDeviceSdk.Libc.CutNumber

/-!
# The header of an OTA response, in bounds

`IOTA_IotReadHeaderFlag` copies the text of `Content-Length` to `pkgSize` and the name of the file
to `fileName`, each up to the end of its line and up to the last but one byte of the read.  Only the
second copy looks at the size of its destination.

* `pkgSizeText_eq_some_iff`, `fileNameText_ne_none_iff`: when each copy stays in its buffers.
* `headerParsed_iff`: the header is parsed in bounds, with the file size that it announces, exactly
  when `HeaderReadable`.
-/

namespace IotDeviceSdk.Agentlite

/-! ### The copies -/

/-- A copy up to the end of a line, of so many characters at most, stays in the bytes that are
there. -/
def StaysInside (bytes : List UInt8) (count : ℕ) : Prop :=
  count ≤ bytes.length ∨ (fieldValue bytes).length < bytes.length

section Copies

variable {c : UInt8} {bytes : List UInt8} {count : ℕ}

theorem fieldValue_cons_of_ends (h : endsValue c = true) : fieldValue (c :: bytes) = [] := by
  simp [fieldValue, h]

theorem fieldValue_cons_of_not_ends (h : endsValue c = false) :
    fieldValue (c :: bytes) = c :: fieldValue bytes := by
  simp [fieldValue, h]

theorem staysInside_zero : StaysInside bytes 0 := .inl (Nat.zero_le _)

theorem not_staysInside_nil : ¬StaysInside [] (count + 1) := by
  simp [StaysInside, fieldValue]

theorem staysInside_cons_of_ends (h : endsValue c = true) : StaysInside (c :: bytes) count := by
  right
  rw [fieldValue_cons_of_ends h]
  exact Nat.succ_pos _

theorem staysInside_cons_of_not_ends (h : endsValue c = false) :
    StaysInside (c :: bytes) (count + 1) ↔ StaysInside bytes count := by
  unfold StaysInside
  rw [fieldValue_cons_of_not_ends h, List.length_cons, List.length_cons, Nat.add_le_add_iff_right,
    Nat.add_lt_add_iff_right]

/-- **The copy to `pkgSize`** stays in the buffer and leaves room for the terminator. -/
theorem pkgSizeText_eq_some_iff {pkgSize text : List UInt8} :
    pkgSizeText bytes count pkgSize = some text ↔
      StaysInside bytes count ∧ text = pkgSize ++ (fieldValue bytes).take count ∧
        text.length < PKG_LENGTH := by
  induction count generalizing bytes pkgSize with
  | zero =>
    rw [pkgSizeText, List.take_zero, List.append_nil]
    split
    · rename_i hfull
      refine ⟨fun h => absurd h.symm (Option.some_ne_none _), ?_⟩
      rintro ⟨-, rfl, hfits⟩
      omega
    · rename_i hfits
      refine ⟨fun h => ?_, fun h => congrArg some h.2.1.symm⟩
      obtain rfl := Option.some.inj h
      exact ⟨staysInside_zero, rfl, by omega⟩
  | succ count ih =>
    cases bytes with
    -- the copy goes on behind the buffer
    | nil =>
      have hnone : pkgSizeText [] (count + 1) pkgSize = none := by
        rw [pkgSizeText]
        exact ite_self _
      rw [hnone]
      exact ⟨fun h => absurd h.symm (Option.some_ne_none _),
        fun h => absurd h.1 not_staysInside_nil⟩
    | cons c bytes =>
      rw [pkgSizeText]
      split
      · rename_i hfull
        refine ⟨fun h => absurd h.symm (Option.some_ne_none _), ?_⟩
        rintro ⟨-, rfl, hfits⟩
        rw [List.length_append] at hfits
        omega
      · rename_i hfits
        -- the end of the line ends the copy
        cases hends : endsValue c with
        | true =>
          rw [if_pos rfl, fieldValue_cons_of_ends hends, List.take_nil, List.append_nil]
          refine ⟨fun h => ?_, fun h => congrArg some h.2.1.symm⟩
          obtain rfl := Option.some.inj h
          exact ⟨staysInside_cons_of_ends hends, rfl, by omega⟩
        | false =>
          rw [if_neg Bool.false_ne_true, ih, staysInside_cons_of_not_ends hends,
            fieldValue_cons_of_not_ends hends, List.take_succ_cons, List.append_assoc]
          rfl

/-- **The copy to `fileName`** stays in the buffer, or stops at the limit. -/
theorem fileNameText_ne_none_iff {fileName : List UInt8} :
    fileNameText bytes count fileName ≠ none ↔
      PKGNAME_MAX ≤ fileName.length + (fieldValue bytes).length ∨ StaysInside bytes count := by
  induction count generalizing bytes fileName with
  | zero =>
    rw [fileNameText]
    exact ⟨fun _ => .inr staysInside_zero, fun _ => Option.some_ne_none _⟩
  | succ count ih =>
    cases bytes with
    | nil =>
      rw [fileNameText]
      split
      · rename_i hfull
        exact ⟨fun _ => .inl hfull, fun _ => Option.some_ne_none _⟩
      · rename_i hfull
        refine ⟨fun h => absurd rfl h, fun h => ?_⟩
        exact absurd h (not_or.mpr ⟨hfull, not_staysInside_nil⟩)
    | cons c bytes =>
      rw [fileNameText]
      split
      · rename_i hfull
        exact ⟨fun _ => .inl (by omega), fun _ => Option.some_ne_none _⟩
      · cases hends : endsValue c with
        | true =>
          rw [if_pos rfl]
          exact ⟨fun _ => .inr (staysInside_cons_of_ends hends), fun _ => Option.some_ne_none _⟩
        | false =>
          rw [if_neg Bool.false_ne_true, ih, staysInside_cons_of_not_ends hends,
            fieldValue_cons_of_not_ends hends, List.length_append, List.length_cons,
            List.length_cons, List.length_nil, Nat.zero_add, Nat.add_assoc, Nat.add_comm 1]

/-- The name of the file leaves room for its terminator. -/
theorem length_fileNameText_le {fileName name : List UInt8} {tooLong : Bool}
    (hfits : fileName.length ≤ PKGNAME_MAX)
    (h : fileNameText bytes count fileName = some (tooLong, name)) : name.length ≤ PKGNAME_MAX := by
  induction count generalizing bytes fileName with
  | zero =>
    rw [fileNameText] at h
    obtain ⟨-, rfl⟩ := Prod.mk.inj (Option.some.inj h)
    exact hfits
  | succ count ih =>
    cases bytes with
    | nil =>
      rw [fileNameText] at h
      split at h
      · obtain ⟨-, rfl⟩ := Prod.mk.inj (Option.some.inj h)
        exact hfits
      · exact absurd h.symm (Option.some_ne_none _)
    | cons c bytes =>
      rw [fileNameText] at h
      split at h
      · obtain ⟨-, rfl⟩ := Prod.mk.inj (Option.some.inj h)
        exact hfits
      · split at h
        · obtain ⟨-, rfl⟩ := Prod.mk.inj (Option.some.inj h)
          exact hfits
        · refine ih ?_ h
          rw [List.length_append, List.length_singleton]
          omega

end Copies

/-! ### The header -/

/-- The first read buffer: zeroed, and filled up to its last byte at most. -/
structure ReadBuffer where
  bytes : List UInt8
  length_eq : bytes.length = BUFSIZE
  terminated : bytes.getLast? = some 0

/-- The buffer after a read. -/
def ReadResult.readBuffer (read : ReadResult) : ReadBuffer where
  bytes := read.buf
  length_eq := by
    cases read with
    | data read =>
      have hlt := read.length_lt
      rw [ReadResult.buf, List.length_append, List.length_replicate]
      omega
    | closed => exact List.length_replicate
    | error code => exact List.length_replicate
  terminated := by
    cases read with
    | data read =>
      have hpos : BUFSIZE - read.bytes.length ≠ 0 := by
        have := read.length_lt
        omega
      rw [ReadResult.buf, List.getLast?_append, List.getLast?_replicate, if_neg hpos]
      rfl
    | closed => exact List.getLast?_replicate
    | error code => exact List.getLast?_replicate

/-- How many bytes of what follows a text in the buffer are looked at: the last byte of the read is
not. -/
def lookedAt (buf field : List UInt8) (readLength : ℤ) : ℕ :=
  toULong (readLength - 1) - (buf.length - field.length)

/-- **The header is parsed in bounds**: no access leaves `buf` or `pkgSize`, what is written to
`fileName` fits with its terminator, and the file size is the value of the text of
`Content-Length`. -/
structure HeaderParsed (buf : ReadBuffer) (readLength : ℤ) (fileName : List UInt8)
    (flag : HeaderFlag) : Prop where
  run : iotReadHeaderFlag buf.bytes readLength fileName = some flag
  fileName_fits : flag.fileName = fileName ∨ flag.fileName.length < PKGNAME_MAX + 1
  fileSize : ∀ field, after OTA_CONTENT_LENGTH buf.bytes = some field →
    flag.fileSize = strtol (fieldValue field)

/-- The text of `Content-Length` can be read: the copy of it ends in the buffer, is shorter than
`pkgSize` and holds its number, when that is not zero. -/
structure LengthReadable (field : List UInt8) (count : ℕ) : Prop where
  inside : StaysInside field count
  fits : ((fieldValue field).take count).length < PKG_LENGTH
  whole : numberLength (fieldValue field) ≤ count ∨ strtol (fieldValue field) = 0

/-- The name of the file can be read: the copy of it ends in the buffer, or at the limit. -/
def NameReadable (field : List UInt8) (count : ℕ) : Prop :=
  PKGNAME_MAX ≤ (fieldValue field).length ∨ StaysInside field count

/-- What follows `Content-Length` in a buffer can be read, and what follows `filename=` then too. -/
def HeaderReadable (buf : ReadBuffer) (readLength : ℤ) : Prop :=
  ∀ field, after OTA_CONTENT_LENGTH buf.bytes = some field →
    LengthReadable field (lookedAt buf.bytes field readLength) ∧
      ∀ name, after FILE_NAME_EQUAL buf.bytes = some name →
        NameReadable name (lookedAt buf.bytes name readLength)

/-- Where the copies start. -/
theorem drop_index_of_after {text bytes field : List UInt8} (hne : text ≠ [])
    (hlength : text.length < SUB_STERING_MAX_LENGTH) (h : after text bytes = some field) :
    ¬getSubStrIndex (some (cString bytes)) (some text) < 0 ∧
      (getSubStrIndex (some (cString bytes)) (some text)).toNat + text.length =
        bytes.length - field.length ∧
      bytes.drop (bytes.length - field.length) = field := by
  obtain ⟨before, hbytes, -, -, hindex⟩ := after_eq_some hne hlength h
  have hstart : bytes.length - field.length = (before ++ text).length := by
    rw [hbytes, List.length_append, List.length_append, List.length_append]
    omega
  refine ⟨by omega, ?_, ?_⟩
  · rw [hindex, hstart, List.length_append, Int.toNat_natCast]
  · rw [hstart]
    conv_lhs => rw [hbytes, ← List.append_assoc, List.drop_left]

section Run

variable {buf : List UInt8} {readLength : ℤ} {fileName field name : List UInt8}

theorem iotReadHeaderFlag_no_length (h : after OTA_CONTENT_LENGTH buf = none) :
    iotReadHeaderFlag buf readLength fileName =
      some { result := IOTA_FAILURE, fileName := fileName, fileSize := 0 } := by
  unfold iotReadHeaderFlag
  dsimp only
  rw [after_eq_none (by decide) (by decide) h]
  rfl

/-- A header without the name of a file. -/
theorem iotReadHeaderFlag_no_name (h : after OTA_CONTENT_LENGTH buf = some field)
    (hname : after FILE_NAME_EQUAL buf = none) :
    iotReadHeaderFlag buf readLength fileName =
      (pkgSizeText field (lookedAt buf field readLength) []).map fun pkgSize =>
        { result := statusResult buf, fileName := fileName, fileSize := strtol pkgSize } := by
  obtain ⟨hfound, hstart, hdrop⟩ := drop_index_of_after (by decide) (by decide) h
  unfold iotReadHeaderFlag
  dsimp only
  rw [if_neg hfound, hstart, hdrop, after_eq_none (by decide) (by decide) hname]
  show (pkgSizeText field (lookedAt buf field readLength) []).bind _ = _
  cases pkgSizeText field (lookedAt buf field readLength) [] with
  | none => rfl
  | some pkgSize => rfl

/-- A header with the name of a file. -/
theorem iotReadHeaderFlag_name (h : after OTA_CONTENT_LENGTH buf = some field)
    (hname : after FILE_NAME_EQUAL buf = some name) :
    iotReadHeaderFlag buf readLength fileName =
      (pkgSizeText field (lookedAt buf field readLength) []).bind fun pkgSize =>
        (fileNameText name (lookedAt buf name readLength) []).map fun copied =>
          { result := if copied.1 then IOTA_FAILURE else statusResult buf
            fileName := copied.2
            fileSize := strtol pkgSize } := by
  obtain ⟨hfound, hstart, hdrop⟩ := drop_index_of_after (by decide) (by decide) h
  obtain ⟨hfound', hstart', hdrop'⟩ := drop_index_of_after (by decide) (by decide) hname
  unfold iotReadHeaderFlag
  dsimp only
  rw [if_neg hfound, hstart, hdrop]
  show (pkgSizeText field (lookedAt buf field readLength) []).bind _ = _
  cases pkgSizeText field (lookedAt buf field readLength) [] with
  | none => rfl
  | some pkgSize =>
    rw [Option.bind_some, Option.bind_some, if_neg hfound', hstart', hdrop']
    show (fileNameText name (lookedAt buf name readLength) []).bind _ = _
    cases fileNameText name (lookedAt buf name readLength) [] with
    | none => rfl
    | some copied => rfl

end Run

/-- The file size is the value of the text of `Content-Length` when the text can be read. -/
theorem lengthReadable_iff {field : List UInt8} {count : ℕ} :
    LengthReadable field count ↔
      ∃ pkgSize, pkgSizeText field count [] = some pkgSize ∧
        strtol pkgSize = strtol (fieldValue field) := by
  simp only [pkgSizeText_eq_some_iff, List.nil_append]
  constructor
  · rintro ⟨hinside, hfits, hwhole⟩
    have hshort : ((fieldValue field).take count).length ≤ 18 := hfits.le.trans (by decide)
    exact ⟨_, ⟨hinside, rfl, hfits⟩, (strtol_take_eq_iff hshort).mpr hwhole⟩
  · rintro ⟨_, ⟨hinside, rfl, hfits⟩, hvalue⟩
    have hshort : ((fieldValue field).take count).length ≤ 18 := hfits.le.trans (by decide)
    exact ⟨hinside, hfits, (strtol_take_eq_iff hshort).mp hvalue⟩

theorem nameReadable_iff {field : List UInt8} {count : ℕ} :
    NameReadable field count ↔ ∃ copied, fileNameText field count [] = some copied := by
  rw [← Option.ne_none_iff_exists', fileNameText_ne_none_iff, List.length_nil, Nat.zero_add]
  rfl

/-- **The header of a response** is parsed in bounds, with the file size that it announces, exactly
when its two texts can be read. -/
theorem headerParsed_iff (buf : ReadBuffer) (readLength : ℤ) (fileName : List UInt8) :
    (∃ flag, HeaderParsed buf readLength fileName flag) ↔ HeaderReadable buf readLength := by
  unfold HeaderReadable
  cases hlength : after OTA_CONTENT_LENGTH buf.bytes with
  | none =>
    refine ⟨fun _ => nofun, fun _ => ?_⟩
    exact ⟨_, iotReadHeaderFlag_no_length hlength, .inl rfl, by simp [hlength]⟩
  | some field =>
    have hfield : ∀ P : List UInt8 → Prop, (∀ f, some field = some f → P f) ↔ P field := by
      simp
    rw [hfield, lengthReadable_iff]
    cases hname : after FILE_NAME_EQUAL buf.bytes with
    | none =>
      have hrun := @iotReadHeaderFlag_no_name _ readLength fileName _ hlength hname
      constructor
      · rintro ⟨flag, hflag, -, hsize⟩
        rw [hrun] at hflag
        obtain ⟨pkgSize, htext, rfl⟩ := Option.map_eq_some_iff.mp hflag
        exact ⟨⟨pkgSize, htext, hsize field hlength⟩, nofun⟩
      · rintro ⟨⟨pkgSize, htext, hsize⟩, -⟩
        rw [htext] at hrun
        refine ⟨_, hrun, .inl rfl, ?_⟩
        rw [hlength, hfield]
        exact hsize
    | some name =>
      have hrun := @iotReadHeaderFlag_name _ readLength fileName _ _ hlength hname
      have hnames : ∀ P : List UInt8 → Prop, (∀ f, some name = some f → P f) ↔ P name := by
        simp
      rw [hnames, nameReadable_iff]
      constructor
      · rintro ⟨flag, hflag, -, hsize⟩
        rw [hrun] at hflag
        obtain ⟨pkgSize, htext, hrest⟩ := Option.bind_eq_some_iff.mp hflag
        obtain ⟨copied, hcopied, rfl⟩ := Option.map_eq_some_iff.mp hrest
        exact ⟨⟨pkgSize, htext, hsize field hlength⟩, copied, hcopied⟩
      · rintro ⟨⟨pkgSize, htext, hsize⟩, ⟨tooLong, copied⟩, hcopied⟩
        rw [htext, Option.bind_some, hcopied] at hrun
        have hfits := length_fileNameText_le (Nat.zero_le _) hcopied
        refine ⟨_, hrun, .inr (Nat.lt_succ_of_le hfits), ?_⟩
        rw [hlength, hfield]
        exact hsize

/-- A header with a `Content-Length` of ten digits. -/
def tenDigitsRead : ReadBytes where
  bytes := ascii "HTTP/1.1 200 OK\r\nContent-Length: 1234567890\r\n\r\n"
  nonempty := by decide
  length_lt := by decide

/-- Ten digits leave no room for the terminator in `pkgSize`. -/
theorem headerParsed_tenDigits_false :
    ¬∃ flag, HeaderParsed (ReadResult.data tenDigitsRead).readBuffer
      (ReadResult.data tenDigitsRead).readLength [] flag := by
  rintro ⟨flag, hrun, -⟩
  have hnone : headerFlag tenDigitsRead.bytes [] = none := by decide +kernel
  have hflag := (iotReadHeaderFlag_data tenDigitsRead []).symm.trans hrun
  rw [hnone] at hflag
  cases hflag

end IotDeviceSdk.Agentlite
