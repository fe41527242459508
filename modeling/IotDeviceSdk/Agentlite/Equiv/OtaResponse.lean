import IotDeviceSdk.Agentlite.Equiv.OtaSign
import IotDeviceSdk.Libc.Decimal

/-!
# OTA responses

A response is the bytes that arrive: a header, a blank line and a body (`responseHeader`,
`responseBody`), with a number of bytes announced in the header (`contentLength`).

`IOTA_IotRead` looks for all of this in the first read only.  This file says what it finds there
(`iotReadHeaderFlag_data`, `iotReadHeaderData_data`), what the rounds after the first one write
(`iotReadRest_spec`), and what a whole run is (`iotRead_opened`).
-/

namespace IotDeviceSdk.Agentlite

open Prog Text

/-! ### Responses -/

/-- The bytes that arrive before the connection is closed or fails. -/
def received : List ReadResult → List UInt8
  | .data read :: reads => read.bytes ++ received reads
  | _ => []

/-- What stands before the first blank line. -/
def responseHeader (response : List UInt8) : List UInt8 :=
  match findFirst OTA_CRLF response with
  | none => response
  | some rest => response.take (response.length - rest.length)

/-- What stands after the first blank line. -/
def responseBody (response : List UInt8) : List UInt8 :=
  match findFirst OTA_CRLF response with
  | none => []
  | some rest => rest.drop OTA_CRLF.length

/-- The value of a field of the header, given what follows its name. -/
def fieldValue (field : List UInt8) : List UInt8 := field.takeWhile fun c => !endsValue c

/-- The number of bytes that the header announces, 0 when it announces none. -/
def contentLength (response : List UInt8) : ℕ :=
  match findFirst OTA_CONTENT_LENGTH (responseHeader response) with
  | none => 0
  | some rest => (strtol (fieldValue (rest.drop OTA_CONTENT_LENGTH.length))).toNat

/-- The value of a field ends with its line. -/
theorem fieldValue_append {field tail : List UInt8} (h : tail = [] ∨ ∃ tail', tail = 13 :: tail') :
    fieldValue (field ++ tail) = fieldValue field := by
  rcases h with rfl | ⟨tail', rfl⟩
  · rw [List.append_nil]
  · unfold fieldValue
    rw [List.takeWhile_append]
    split
    · rename_i hall
      rw [(List.takeWhile_prefix _).eq_of_length hall]
      simp [endsValue]
    · rfl

/-! ### Texts in the first read -/

/-- What follows the first occurrence of a text in the C string at the head of a buffer. -/
def after (text bytes : List UInt8) : Option (List UInt8) :=
  (findFirst text (cString bytes)).map fun rest =>
    (rest ++ bytes.dropWhile (· ≠ 0)).drop text.length

/-- The text of `Content-Length` in the first read; its last byte is not looked at. -/
def lengthText (bytes : List UInt8) : Option (List UInt8) :=
  (after OTA_CONTENT_LENGTH bytes).map fun field => fieldValue field.dropLast

/-- The name of the file in the first read, and whether it is too long; without one it is as it
was. -/
def nameText (bytes fileName : List UInt8) : Option (Bool × List UInt8) :=
  match after FILE_NAME_EQUAL bytes with
  | none => some (false, fileName)
  | some field => fileNameText field.dropLast field.dropLast.length []

theorem cString_append_zeros (bytes : List UInt8) (k : ℕ) :
    cString (bytes ++ List.replicate k 0) = cString bytes := by
  unfold cString
  rw [List.takeWhile_append]
  split
  · rename_i hall
    rw [(List.takeWhile_prefix _).eq_of_length hall]
    simp
  · rfl

theorem cString_append_dropWhile (bytes : List UInt8) :
    cString bytes ++ bytes.dropWhile (· ≠ 0) = bytes :=
  List.takeWhile_append_dropWhile

theorem after_eq_none {text bytes : List UInt8} (hne : text ≠ [])
    (hlength : text.length < SUB_STERING_MAX_LENGTH) (h : after text bytes = none) :
    getSubStrIndex (some (cString bytes)) (some text) = -1 := by
  rw [getSubStrIndex_of_substr hne hlength, Option.map_eq_none_iff.mp h]

/-- **The first occurrence** of a text in a read: its index, and what follows it. -/
theorem after_eq_some {text bytes field : List UInt8} (hne : text ≠ [])
    (hlength : text.length < SUB_STERING_MAX_LENGTH) (h : after text bytes = some field) :
    ∃ before : List UInt8, bytes = before ++ (text ++ field) ∧ 0 ∉ before ++ text ∧
      findFirst text bytes = some (text ++ field) ∧
      getSubStrIndex (some (cString bytes)) (some text) = before.length := by
  obtain ⟨rest, hrest, rfl⟩ := Option.map_eq_some_iff.mp h
  obtain ⟨before, hsplit, ⟨tail, rfl⟩, -⟩ := findFirst_eq_some_iff.mp hrest
  have hdrop : (text ++ tail ++ bytes.dropWhile (· ≠ 0)).drop text.length =
      tail ++ bytes.dropWhile (· ≠ 0) := by
    rw [List.append_assoc, List.drop_left]
  rw [hdrop]
  refine ⟨before, ?_, fun hzero => ?_, ?_, ?_⟩
  · conv_lhs => rw [← cString_append_dropWhile bytes, hsplit]
    simp only [List.append_assoc]
  · refine zero_not_mem_cString bytes ?_
    rw [hsplit, ← List.append_assoc]
    exact List.mem_append_left _ hzero
  · have hfirst := @findFirst_append_right _ _ _ _ _ (bytes.dropWhile (· ≠ 0)) hrest
    rwa [cString_append_dropWhile, List.append_assoc] at hfirst
  · rw [getSubStrIndex_of_substr hne hlength, hrest]
    show (((cString bytes).length - (text ++ tail).length : ℕ) : ℤ) = before.length
    rw [hsplit, List.length_append, Nat.add_sub_cancel]

/-- A text before any zero byte is found. -/
theorem after_of_findFirst {text before field : List UInt8} (hzero : 0 ∉ before ++ text)
    (h : findFirst text (before ++ (text ++ field)) = some (text ++ field)) :
    after text (before ++ (text ++ field)) = some field := by
  have hne : ∀ b ∈ before ++ text, decide (b ≠ 0) = true :=
    fun b hb => decide_eq_true fun hb0 => hzero (hb0 ▸ hb)
  have htake : cString (before ++ (text ++ field)) = before ++ (text ++ cString field) := by
    unfold cString
    rw [← List.append_assoc, List.takeWhile_append_of_pos hne, List.append_assoc]
  have hdrop : (before ++ (text ++ field)).dropWhile (· ≠ 0) = field.dropWhile (· ≠ 0) := by
    rw [← List.append_assoc, List.dropWhile_append_of_pos hne]
  unfold after
  rw [htake, findFirst_of_same_start h, hdrop]
  show some ((text ++ cString field ++ field.dropWhile (· ≠ 0)).drop text.length) = some field
  rw [List.append_assoc, List.drop_left, cString_append_dropWhile]

/-! ### The first read -/

/-- The value of a field is looked for in so many bytes. -/
theorem pkgSizeText_eq {buf pkgSize : List UInt8} {count : ℕ} (hcount : count ≤ buf.length) :
    pkgSizeText buf count pkgSize =
      if PKG_LENGTH ≤ (pkgSize ++ fieldValue (buf.take count)).length then none
      else some (pkgSize ++ fieldValue (buf.take count)) := by
  induction count generalizing buf pkgSize with
  | zero =>
    rw [pkgSizeText, List.take_zero]
    simp [fieldValue]
  | succ count ih =>
    obtain ⟨c, buf, rfl⟩ := List.exists_cons_of_length_pos (l := buf) (by omega)
    rw [pkgSizeText]
    by_cases hfull : PKG_LENGTH ≤ pkgSize.length
    · rw [if_pos hfull, if_pos]
      rw [List.length_append]
      omega
    · rw [if_neg hfull]
      unfold fieldValue
      rw [List.take_succ_cons, List.takeWhile_cons]
      cases hends : endsValue c with
      | true => simp [hfull]
      | false =>
        have hrest := @ih buf (pkgSize ++ [c]) (by simpa using hcount)
        rw [List.append_assoc] at hrest
        exact hrest

theorem fileNameText_eq {buf fileName : List UInt8} {count : ℕ} (hcount : count ≤ buf.length) :
    fileNameText buf count fileName = fileNameText (buf.take count) count fileName ∧
      fileNameText buf count fileName ≠ none := by
  induction count generalizing buf fileName with
  | zero => simp [fileNameText]
  | succ count ih =>
    obtain ⟨c, buf, rfl⟩ := List.exists_cons_of_length_pos (l := buf) (by omega)
    have hrest := @ih buf (fileName ++ [c]) (by simpa using hcount)
    rw [List.take_succ_cons, fileNameText, fileNameText]
    by_cases hfull : PKGNAME_MAX ≤ fileName.length
    · rw [if_pos hfull, if_pos hfull]
      simp
    · rw [if_neg hfull, if_neg hfull]
      cases hends : endsValue c with
      | true => simp
      | false => exact hrest

theorem length_dropLast_le (field more : List UInt8) :
    field.dropLast.length ≤ (field ++ more).length := by
  rw [List.length_dropLast, List.length_append]
  omega

theorem take_dropLast_append (field more : List UInt8) :
    (field ++ more).take field.dropLast.length = field.dropLast := by
  rw [List.take_append_of_le_length (by simp), List.length_dropLast, ← List.dropLast_eq_take]

theorem fileNameText_dropLast (field more : List UInt8) :
    fileNameText (field ++ more) field.dropLast.length [] =
      fileNameText field.dropLast field.dropLast.length [] := by
  have hcount := length_dropLast_le field more
  have htake := (@fileNameText_eq (field ++ more) [] _ hcount).1
  rwa [take_dropLast_append] at htake

/-- The result of the status of a response. -/
def statusResult (bytes : List UInt8) : ℤ :=
  if (cString (bytes.drop OTA_HTTP_RESPONSE_VERSION.length)).take HTTP_STATUS_LENGTH = HTTP_OK then
    IOTA_SUCCESS
  else IOTA_FAILURE

/-- The header as it is found in a read. -/
def headerFlag (bytes fileName : List UInt8) : Option HeaderFlag :=
  match lengthText bytes with
  | none => some { result := IOTA_FAILURE, fileName := fileName, fileSize := 0 }
  | some pkgSize =>
    if PKG_LENGTH ≤ pkgSize.length then none
    else
      (nameText bytes fileName).map fun name =>
        { result := if name.1 then IOTA_FAILURE else statusResult bytes
          fileName := name.2
          fileSize := strtol pkgSize }

/-- The bytes of a read that follow a text, in its buffer and up to the last but one. -/
theorem buf_drop_field {read : ReadBytes} {before text field : List UInt8}
    (h : read.bytes = before ++ (text ++ field)) :
    ∃ zeros : List UInt8,
      (ReadResult.data read).buf.drop ((before.length : ℤ).toNat + text.length) = field ++ zeros ∧
      toULong ((ReadResult.data read).readLength - 1) - ((before.length : ℤ).toNat + text.length) =
        field.dropLast.length := by
  have hlt := read.length_lt
  have hlength : read.bytes.length = before.length + (text.length + field.length) := by
    rw [h, List.length_append, List.length_append]
  have hpos : 0 < read.bytes.length := List.length_pos_iff.mpr read.nonempty
  refine ⟨List.replicate (BUFSIZE - read.bytes.length) 0, ?_, ?_⟩
  · show (read.bytes ++ List.replicate (BUFSIZE - read.bytes.length) 0).drop _ = _
    generalize List.replicate (BUFSIZE - read.bytes.length) (0 : UInt8) = zeros
    rw [h, Int.toNat_natCast, ← List.append_assoc, List.append_assoc, ← List.length_append,
      List.drop_left]
  · have hlimit : toULong ((ReadResult.data read).readLength - 1) = read.bytes.length - 1 := by
      show ((read.bytes.length - 1 : ℤ) % 2 ^ 64).toNat = _
      unfold BUFSIZE at hlt
      omega
    rw [hlimit, Int.toNat_natCast, List.length_dropLast]
    omega

theorem cString_buf (read : ReadBytes) :
    cString (ReadResult.data read).buf = cString read.bytes :=
  cString_append_zeros _ _

/-- **The header in the first read.** -/
theorem iotReadHeaderFlag_data (read : ReadBytes) (fileName : List UInt8) :
    iotReadHeaderFlag (ReadResult.data read).buf (ReadResult.data read).readLength fileName =
      headerFlag read.bytes fileName := by
  have hstatus : (cString ((ReadResult.data read).buf.drop OTA_HTTP_RESPONSE_VERSION.length)) =
      cString (read.bytes.drop OTA_HTTP_RESPONSE_VERSION.length) := by
    show cString ((read.bytes ++ List.replicate _ 0).drop _) = _
    rw [List.drop_append, List.drop_replicate, cString_append_zeros]
  unfold iotReadHeaderFlag headerFlag lengthText statusResult
  rw [cString_buf, hstatus]
  dsimp only
  cases hlength : after OTA_CONTENT_LENGTH read.bytes with
  | none =>
    rw [after_eq_none (by decide) (by decide) hlength]
    rfl
  | some field =>
    obtain ⟨before, hbytes, -, -, hindex⟩ := after_eq_some (by decide) (by decide) hlength
    obtain ⟨zeros, hfield, hcount⟩ := buf_drop_field hbytes
    have hnonneg : ¬(before.length : ℤ) < 0 := by omega
    rw [hindex, if_neg hnonneg, hfield, hcount, pkgSizeText_eq (length_dropLast_le field zeros),
      take_dropLast_append]
    show ((if PKG_LENGTH ≤ (fieldValue field.dropLast).length then none
      else some (fieldValue field.dropLast)).bind _) = _
    by_cases hlong : PKG_LENGTH ≤ (fieldValue field.dropLast).length
    · rw [if_pos hlong]
      exact (if_pos hlong).symm
    · rw [if_neg hlong]
      refine Eq.trans ?_ (if_neg hlong).symm
      unfold nameText
      rw [Option.bind_some]
      cases hname : after FILE_NAME_EQUAL read.bytes with
      | none =>
        rw [after_eq_none (by decide) (by decide) hname]
        rfl
      | some field' =>
        obtain ⟨before', hbytes', -, -, hindex'⟩ := after_eq_some (by decide) (by decide) hname
        obtain ⟨zeros', hfield', hcount'⟩ := buf_drop_field hbytes'
        have hnonneg' : ¬(before'.length : ℤ) < 0 := by omega
        rw [hindex', if_neg hnonneg', hfield', hcount', fileNameText_dropLast]
        dsimp only
        cases fileNameText field'.dropLast field'.dropLast.length [] with
        | none => rfl
        | some name => rfl

/-- A first read without data is refused. -/
theorem iotReadHeaderFlag_no_data {first : ReadResult} (h : ∀ read, first ≠ .data read)
    (fileName : List UInt8) :
    iotReadHeaderFlag first.buf first.readLength fileName =
      some { result := IOTA_FAILURE, fileName := fileName, fileSize := 0 } := by
  have hbuf : first.buf = List.replicate BUFSIZE 0 := by
    cases first with
    | data read => exact absurd rfl (h read)
    | closed => rfl
    | error code => rfl
  have hempty : cString (List.replicate BUFSIZE 0) = [] := rfl
  unfold iotReadHeaderFlag
  rw [hbuf, hempty]
  rfl

/-- **The start of the body in the first read.** -/
theorem iotReadHeaderData_data (read : ReadBytes) (limit : Option ℕ) :
    iotReadHeaderData (ReadResult.data read).buf (ReadResult.data read).readLength limit =
      match after OTA_CRLF read.bytes with
      | none => (IOTA_PARAMETER_EMPTY, none, [])
      | some body =>
        (if (fwrite limit body).length < body.length then IOTA_FAILURE else IOTA_SUCCESS,
          some (fwrite limit body).length, fwrite limit body) := by
  unfold iotReadHeaderData
  rw [cString_buf]
  cases hblank : after OTA_CRLF read.bytes with
  | none =>
    rw [after_eq_none (by decide) (by decide) hblank]
    rfl
  | some body =>
    obtain ⟨before, hbytes, -, -, hindex⟩ := after_eq_some (by decide) (by decide) hblank
    obtain ⟨zeros, hbody, -⟩ := buf_drop_field hbytes
    have hlength : (ReadResult.data read).readLength - (before.length + OTA_CRLF.length : ℤ) =
        body.length := by
      show (read.bytes.length : ℤ) - _ = _
      rw [hbytes, List.length_append, List.length_append]
      push_cast
      ring
    have hdrop : ((before.length : ℤ) + OTA_CRLF.length).toNat =
        (before.length : ℤ).toNat + OTA_CRLF.length := by omega
    have hnonneg : ¬(before.length : ℤ) < 0 := by omega
    rw [hindex, if_neg hnonneg]
    dsimp only
    rw [hlength, hdrop, hbody, Int.toNat_natCast, List.take_left]
    simp only [Nat.cast_lt]

/-! ### The rounds after the first -/

/-- A `fwrite` of so many bytes is full. -/
def FullWrite (limit : Option ℕ) (n : ℕ) : Prop := ∀ k, limit = some k → n ≤ k

theorem fwrite_of_full {limit : Option ℕ} {data : List UInt8} (h : FullWrite limit data.length) :
    fwrite limit data = data := by
  cases limit with
  | none => rfl
  | some k => exact List.take_of_length_le (h k rfl)

theorem fullWrite_iff {limit : Option ℕ} {data : List UInt8} :
    FullWrite limit data.length ↔ ¬(fwrite limit data).length < data.length := by
  cases limit with
  | none => simp [FullWrite, fwrite]
  | some k => simp [FullWrite, fwrite]

theorem fwrite_eq_take (limit : Option ℕ) (data : List UInt8) :
    fwrite limit data = data.take (fwrite limit data).length := by
  cases limit with
  | none => exact (List.take_length).symm
  | some k => simp [fwrite]

/-- The reads and writes deliver so many bytes before anything else happens. -/
def Delivers : ℕ → List ReadResult → List (Option ℕ) → Prop
  | wanted, .data read :: reads, writes =>
    FullWrite (writes.headD none) (min wanted read.bytes.length) ∧
      (read.bytes.length < wanted →
        Delivers (wanted - read.bytes.length) reads writes.tail)
  | _, _, _ => False

/-- A read fails while so many bytes are still wanted. -/
def MeetsError : ℕ → List ReadResult → List (Option ℕ) → Prop
  | _, .error _ :: _, _ => True
  | wanted, .data read :: reads, writes =>
    read.bytes.length < wanted ∧ FullWrite (writes.headD none) read.bytes.length ∧
      MeetsError (wanted - read.bytes.length) reads writes.tail
  | _, _, _ => False

theorem length_fwrite_le (limit : Option ℕ) (data : List UInt8) :
    (fwrite limit data).length ≤ data.length := by
  have htake := congrArg List.length (fwrite_eq_take limit data)
  rw [List.length_take] at htake
  omega

section Round

variable {wanted : ℕ} {read : ReadBytes} {limits : List (Option ℕ)} (more : List ReadResult)
  (writeSize : ℤ) (file : List UInt8)

/-- A round that is not the last one: all of the read is written. -/
theorem iotReadRest_goesOn (hmore : read.bytes.length < wanted)
    (hfull : FullWrite (limits.headD none) read.bytes.length) :
    iotReadRest (writeSize + wanted) (.data read :: more) limits writeSize file =
      iotReadRest (writeSize + read.bytes.length + (wanted - read.bytes.length : ℕ)) more
        limits.tail (writeSize + read.bytes.length) (file ++ read.bytes) := by
  have hround : writeSize + (read.bytes.length : ℤ) < writeSize + wanted := by omega
  have hsize : writeSize + (wanted : ℤ) =
      writeSize + read.bytes.length + (wanted - read.bytes.length : ℕ) := by omega
  rw [iotReadRest, if_pos hround, fwrite_of_full hfull, if_neg (lt_irrefl _), hsize]

/-- A short write ends the loop. -/
theorem iotReadRest_short (hmore : read.bytes.length < wanted)
    (hshort : ¬FullWrite (limits.headD none) read.bytes.length) :
    iotReadRest (writeSize + wanted) (.data read :: more) limits writeSize file =
      some (file ++ fwrite (limits.headD none) read.bytes) := by
  have hround : writeSize + (read.bytes.length : ℤ) < writeSize + wanted := by omega
  have hlt := not_not.mp fun h => hshort (fullWrite_iff.mpr h)
  rw [iotReadRest, if_pos hround, if_pos (by exact_mod_cast hlt)]

/-- The last round: as many bytes as are wanted. -/
theorem iotReadRest_last (hwanted : 0 < wanted) (hlast : wanted ≤ read.bytes.length) :
    iotReadRest (writeSize + wanted) (.data read :: more) limits writeSize file =
      some (file ++ fwrite (limits.headD none) (read.bytes.take wanted)) := by
  have hround : ¬writeSize + (read.bytes.length : ℤ) < writeSize + wanted := by omega
  have hmissing : writeSize < writeSize + (wanted : ℤ) := by omega
  have hsize : (writeSize + (wanted : ℤ) - writeSize).toNat = wanted := by omega
  rw [iotReadRest, if_neg hround, if_pos hmissing, hsize]

end Round

/-- **The rounds after the first** are undefined when a read fails; else they write the first bytes
that arrive, and all that are wanted exactly when these are delivered. -/
theorem iotReadRest_spec {wanted : ℕ} (hwanted : 0 < wanted) (reads : List ReadResult)
    (writes : List (Option ℕ)) (writeSize : ℤ) (file : List UInt8) :
    (MeetsError wanted reads writes ∧
        iotReadRest (writeSize + wanted) reads writes writeSize file = none) ∨
      (¬MeetsError wanted reads writes ∧ ∃ k ≤ wanted,
        iotReadRest (writeSize + wanted) reads writes writeSize file =
          some (file ++ (received reads).take k) ∧
        k ≤ (received reads).length ∧ (k = wanted ↔ Delivers wanted reads writes)) := by
  induction reads generalizing wanted writes writeSize file with
  | nil =>
    -- nothing more is read: the file is left as it is
    refine .inr ⟨id, 0, Nat.zero_le _, by simp [iotReadRest], Nat.zero_le _, ?_⟩
    simp [Delivers, hwanted.ne]
  | cons first reads ih =>
    cases first with
    | closed =>
      refine .inr ⟨id, 0, Nat.zero_le _, by simp [iotReadRest], Nat.zero_le _, ?_⟩
      simp [Delivers, hwanted.ne]
    | error code =>
      refine .inl ⟨trivial, ?_⟩
      rw [iotReadRest, if_pos]
      show writeSize + -((code : ℤ) + 1) < _
      omega
    | data read =>
      have hreceived : received (.data read :: reads) = read.bytes ++ received reads := rfl
      rw [hreceived, List.length_append]
      by_cases hmore : read.bytes.length < wanted
      · -- the body goes on with the next read
        by_cases hfull : FullWrite (writes.headD none) read.bytes.length
        · have hrest := ih (show 0 < wanted - read.bytes.length by omega) writes.tail
            (writeSize + read.bytes.length) (file ++ read.bytes)
          rw [iotReadRest_goesOn _ _ _ hmore hfull]
          rcases hrest with ⟨herror, hnone⟩ | ⟨herror, k, hk, hsome, hlength, hdelivers⟩
          · exact .inl ⟨⟨hmore, hfull, herror⟩, hnone⟩
          · refine .inr ⟨fun h => herror h.2.2, read.bytes.length + k, by omega, ?_, by omega, ?_⟩
            · rw [hsome, List.append_assoc, List.take_length_add_append]
            · have hiff : read.bytes.length + k = wanted ↔ k = wanted - read.bytes.length := by
                omega
              rw [hiff, hdelivers, Delivers, Nat.min_eq_right hmore.le]
              exact ⟨fun h => ⟨hfull, fun _ => h⟩, fun h => h.2 hmore⟩
        · -- a short write ends the loop
          have hlt := not_not.mp fun h => hfull (fullWrite_iff.mpr h)
          rw [iotReadRest_short _ _ _ hmore hfull]
          refine .inr ⟨fun h => hfull h.2.1, (fwrite (writes.headD none) read.bytes).length,
            by omega, ?_, by omega, ?_⟩
          · rw [List.take_append_of_le_length hlt.le, ← fwrite_eq_take]
          · rw [Delivers, Nat.min_eq_right hmore.le]
            exact ⟨fun h => by omega, fun h => absurd h.1 hfull⟩
      · -- the rest of the body is in this read
        have hlength : (read.bytes.take wanted).length = wanted := by
          rw [List.length_take]
          omega
        have hle := length_fwrite_le (writes.headD none) (read.bytes.take wanted)
        rw [hlength] at hle
        rw [iotReadRest_last _ _ _ hwanted (by omega)]
        refine .inr ⟨fun h => hmore h.1,
          (fwrite (writes.headD none) (read.bytes.take wanted)).length, hle, ?_, by omega, ?_⟩
        · rw [List.take_append_of_le_length (by omega)]
          conv_lhs => rw [fwrite_eq_take, List.take_take, Nat.min_eq_left hle]
        · have hfull := @fullWrite_iff (writes.headD none) (read.bytes.take wanted)
          rw [hlength] at hfull
          rw [Delivers, Nat.min_eq_left (by omega), hfull]
          exact ⟨fun h => ⟨by omega, fun h' => absurd h' hmore⟩, fun h => by omega⟩

/-! ### Runs -/

variable {env : OtaEnv} {c : Cursor} {otaFilePath : Option String} {otaFileNameOut : List UInt8}
  {reads : List ReadResult} {writes : List (Option ℕ)} {flag : HeaderFlag}

/-- The header as the first read gives it. -/
def firstFlag (reads : List ReadResult) (otaFileNameOut : List UInt8) : Option HeaderFlag :=
  iotReadHeaderFlag (reads.headD .closed).buf (reads.headD .closed).readLength otaFileNameOut

/-- The name of the file is not too long. -/
def NameFits (fileName : List UInt8) : Prop := (cString fileName).length ≤ PATH_MAX

/-- There is memory for the path of the file, and it is opened. -/
def Opened (env : OtaEnv) (c : Cursor) (otaFilePath : Option String) (fileName : List UInt8) :
    Prop :=
  ∃ path c', canonicalFilePath otaFilePath (textOfBytes (cString fileName)) env c =
    some (some path, c') ∧ env.opens path = true

/-- What is written to the file once it is open. -/
def download (fileSize : ℤ) (first : List UInt8) (reads : List ReadResult)
    (writes : List (Option ℕ)) : Option (List UInt8) :=
  match after OTA_CRLF first with
  | none => if fileSize ≤ 0 then some [] else iotReadRest fileSize reads writes 0 []
  | some body =>
    let written := fwrite (writes.headD none) body
    if written.length < body.length ∨ fileSize ≤ written.length then some written
    else iotReadRest fileSize reads writes.tail written.length written

theorem canonicalFilePath_defined (otaFilePath : Option String) (otaFilename : String) :
    Returns env (canonicalFilePath otaFilePath otaFilename) fun _ => True := by
  unfold canonicalFilePath
  apply read_returns.bind
  rintro _ rfl
  cases otaFilePath with
  | none => exact returns_pure trivial
  | some path =>
    have hjoin : ∀ args, Returns env.sdk (combineStrings (some path) args) fun _ => True := by
      intro args
      by_cases hpath : path = ""
      · rw [hpath]
        exact returns_pure trivial
      · exact (combineStrings_returns hpath args).mono fun _ _ => trivial
    have hpath : Returns env (liftSdk <|
        if strEndWith (some path) (some "/") then combineStrings (some path) [some otaFilename]
        else combineStrings (some path) [some "/", some otaFilename]) fun _ => True := by
      apply liftSdk_returns
      split
      · exact hjoin _
      · exact hjoin _
    exact hpath.bind fun _ _ => returns_pure trivial

theorem iotRead_undefined (h : firstFlag reads otaFileNameOut = none) :
    iotRead reads writes otaFilePath otaFileNameOut env c = none := by
  unfold firstFlag at h
  unfold iotRead
  dsimp only
  rw [h]
  rfl

theorem iotRead_refused (h : firstFlag reads otaFileNameOut = some flag)
    (hrefused : ¬NameFits flag.fileName ∨ flag.result < 0) :
    iotRead reads writes otaFilePath otaFileNameOut env c =
      some ({ result := flag.result, fileName := flag.fileName, file := none }, c) := by
  unfold firstFlag at h
  unfold NameFits at hrefused
  rw [not_le] at hrefused
  unfold iotRead
  dsimp only
  rw [h]
  simp only [ofOption, pure_bind, if_pos hrefused, pure_apply]

theorem goesOn_of_fits (hfits : NameFits flag.fileName) (hresult : ¬flag.result < 0) :
    ¬(PATH_MAX < (cString flag.fileName).length ∨ flag.result < 0) := by
  rw [not_or]
  exact ⟨not_lt.mpr hfits, hresult⟩

theorem iotRead_unopened (h : firstFlag reads otaFileNameOut = some flag)
    (hfits : NameFits flag.fileName) (hresult : ¬flag.result < 0)
    (hopened : ¬Opened env c otaFilePath flag.fileName) :
    ∃ c', iotRead reads writes otaFilePath otaFileNameOut env c =
      some ({ result := IOTA_FAILURE, fileName := flag.fileName, file := none }, c') := by
  have hdefined : Returns env (canonicalFilePath otaFilePath (textOfBytes (cString flag.fileName)))
      fun _ => True := canonicalFilePath_defined _ _
  obtain ⟨r, c', hr, -⟩ := hdefined c
  unfold firstFlag at h
  refine ⟨c', ?_⟩
  unfold iotRead
  dsimp only
  rw [h]
  simp only [ofOption, pure_bind, if_neg (goesOn_of_fits hfits hresult)]
  rw [bind_apply, hr]
  cases r with
  | none => rfl
  | some path =>
    have hclosed : env.opens path = false :=
      Bool.eq_false_iff.mpr fun hopens => hopened ⟨path, c', hr, hopens⟩
    show (if (!env.opens path) = true then _ else _ : Ota ReadRun) env c' = _
    rw [hclosed]
    rfl

/-- **The run** with an open file. -/
theorem iotRead_opened {first : ReadBytes}
    (h : firstFlag (.data first :: reads) otaFileNameOut = some flag)
    (hfits : NameFits flag.fileName) (hresult : ¬flag.result < 0)
    (hopened : Opened env c otaFilePath flag.fileName) :
    ∃ c', iotRead (.data first :: reads) writes otaFilePath otaFileNameOut env c =
      (download flag.fileSize first.bytes reads writes).map fun file =>
        ({ result := flag.result, fileName := flag.fileName, file := some file }, c') := by
  obtain ⟨path, c', hr, hopens⟩ := hopened
  unfold firstFlag at h
  refine ⟨c', ?_⟩
  have hpositive : ¬(ReadResult.data first).readLength < 0 ∧
      (ReadResult.data first).readLength ≠ 0 := by
    have hpos := List.length_pos_iff.mpr first.nonempty
    show ¬(first.bytes.length : ℤ) < 0 ∧ (first.bytes.length : ℤ) ≠ 0
    omega
  unfold iotRead download
  dsimp only
  rw [h]
  simp only [ofOption, pure_bind, if_neg (goesOn_of_fits hfits hresult)]
  rw [bind_apply, hr]
  show (if (!env.opens path) = true then _ else _ : Ota ReadRun) env c' = _
  rw [hopens]
  simp only [List.headD_cons, iotReadHeaderData_data]
  have hempty : IOTA_PARAMETER_EMPTY ≠ IOTA_FAILURE := by decide
  have hrest : ∀ file : Option (List UInt8),
      ((ofOption file >>= fun file =>
        pure { result := flag.result, fileName := flag.fileName, file := some file } :
          Ota ReadRun)) env c' =
      file.map fun file =>
        ({ result := flag.result, fileName := flag.fileName, file := some file }, c') := by
    intro file
    cases file with
    | none => rfl
    | some file => rfl
  cases hblank : after OTA_CRLF first.bytes with
  | none =>
    simp only [Bool.not_true, Bool.false_eq_true, if_false, hempty, Option.getD_none]
    by_cases hsize : flag.fileSize ≤ 0
    · rw [if_pos hsize, if_pos hsize]
      rfl
    · rw [if_neg hsize, if_neg hsize, if_neg hpositive.1, if_neg hpositive.2]
      exact hrest _
  | some body =>
    simp only [Bool.not_true, Bool.false_eq_true, if_false, Option.getD_some]
    by_cases hshort : (fwrite (writes.headD none) body).length < body.length
    · rw [if_pos hshort, if_pos rfl, if_pos (Or.inl hshort)]
      rfl
    · have hwritten : IOTA_SUCCESS ≠ IOTA_FAILURE := by decide
      rw [if_neg hshort, if_neg hwritten]
      by_cases hsize : flag.fileSize ≤ (fwrite (writes.headD none) body).length
      · rw [if_pos hsize, if_pos (Or.inr hsize)]
        rfl
      · rw [if_neg hsize, if_neg (not_or.mpr ⟨hshort, hsize⟩), if_neg hpositive.1,
          if_neg hpositive.2]
        exact hrest _

end IotDeviceSdk.Agentlite
