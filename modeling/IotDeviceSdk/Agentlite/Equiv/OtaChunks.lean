import IotDeviceSdk.Agentlite.Equiv.OtaResponse

/-!
# An OTA download and its reads

A response with status 200 and a body of the announced length should be downloaded whole, however
its bytes are split into reads (`DownloadsBody`).

The code looks for the status, the number of bytes, the name of the file and the blank line in the
first read only.  So the body is downloaded exactly when the name is no obstacle and the first read
has the whole header and the blank line in it; or it has at least the number of bytes, with one more
byte, and what follows it happens to start with the body (`downloadsBody_iff`).
-/

namespace IotDeviceSdk.Agentlite

open Prog Text

variable {env : OtaEnv} {c : Cursor} {otaFilePath : Option String} {otaFileNameOut : List UInt8}
  {reads : List ReadBytes}

/-- The header of a response with status 200 that announces `n` bytes. -/
def okHeader (version before : List UInt8) (n : ℕ) (rest : List UInt8) : List UInt8 :=
  version ++ HTTP_OK ++ before ++ (OTA_CONTENT_LENGTH ++ (decimalText n ++ rest))

/-- A response with status 200 and as many bytes in its body as its header announces. -/
structure OkResponse where
  /-- as many bytes as `OTA_HTTP_RESPONSE_VERSION` has -/
  version : List UInt8
  /-- what stands before and after the field with the number of bytes -/
  before : List UInt8
  rest : List UInt8
  body : List UInt8
  length_version : version.length = OTA_HTTP_RESPONSE_VERSION.length
  body_ne : 0 < body.length
  length_body : body.length < 10 ^ 9
  zero_not_mem : 0 ∉ okHeader version before body.length rest
  /-- the number ends with its line -/
  ends_line : rest = [] ∨ ∃ rest', rest = 13 :: rest'
  /-- the header has no other `Content-Length` before it -/
  first_field : findFirst OTA_CONTENT_LENGTH (okHeader version before body.length rest) =
    some (OTA_CONTENT_LENGTH ++ (decimalText body.length ++ rest))
  /-- the header ends with the first blank line -/
  first_blankLine : findFirst OTA_CRLF (okHeader version before body.length rest ++ OTA_CRLF) =
    some OTA_CRLF

namespace OkResponse

/-- The header. -/
def header (r : OkResponse) : List UInt8 := okHeader r.version r.before r.body.length r.rest

/-- The bytes of the response. -/
def bytes (r : OkResponse) : List UInt8 := r.header ++ (OTA_CRLF ++ r.body)

/-- What stands before the field with the number of bytes. -/
def beforeField (r : OkResponse) : List UInt8 := r.version ++ HTTP_OK ++ r.before

/-- How many bytes there are to the end of the number of bytes. -/
def lengthEnd (r : OkResponse) : ℕ :=
  r.beforeField.length + OTA_CONTENT_LENGTH.length + (decimalText r.body.length).length

/-- How many bytes there are to the end of the blank line. -/
def headerEnd (r : OkResponse) : ℕ := r.header.length + OTA_CRLF.length

end OkResponse

/-- Every file can be opened, and there is memory for its path. -/
structure OpensFiles (env : OtaEnv) (otaFilePath : Option String) : Prop where
  allocsSucceed : env.sdk.AllocsSucceed
  path_ne : otaFilePath ≠ some ""
  opens : ∀ path, env.opens path = true

/-- **The body is downloaded**, from these reads and with full writes. -/
def DownloadsBody (env : OtaEnv) (c : Cursor) (r : OkResponse) (reads : List ReadBytes)
    (otaFilePath : Option String) (otaFileNameOut : List UInt8) : Prop :=
  ∃ run c', iotRead (reads.map .data) [] otaFilePath otaFileNameOut env c = some (run, c') ∧
    run.result = 0 ∧ run.file = some r.body

/-- The name of the file that the first read gives is not too long. -/
def NameAccepted (first otaFileNameOut : List UInt8) : Prop :=
  ∃ fileName, nameText first otaFileNameOut = some (false, fileName) ∧ NameFits fileName

/-- The first read is long enough, or what follows it starts with the body. -/
structure SplitsWell (r : OkResponse) (first otaFileNameOut : List UInt8) : Prop where
  name : NameAccepted first otaFileNameOut
  header : r.headerEnd ≤ first.length ∨
    (r.lengthEnd < first.length ∧ (r.bytes.drop first.length).take r.body.length = r.body)

/-! ### The reads after the first -/

theorem received_map (reads : List ReadBytes) :
    received (reads.map .data) = (reads.map ReadBytes.bytes).flatten := by
  induction reads with
  | nil => rfl
  | cons read reads ih =>
    show read.bytes ++ received (reads.map .data) = _
    rw [ih]
    rfl

theorem not_meetsError (wanted : ℕ) (reads : List ReadBytes) (writes : List (Option ℕ)) :
    ¬MeetsError wanted (reads.map .data) writes := by
  induction reads generalizing wanted writes with
  | nil => exact id
  | cons read reads ih => exact fun h => ih _ _ h.2.2

/-- Full writes deliver what arrives. -/
theorem delivers_of_length {wanted : ℕ} (hpos : 0 < wanted) (reads : List ReadBytes)
    (h : wanted ≤ (received (reads.map .data)).length) : Delivers wanted (reads.map .data) [] := by
  induction reads generalizing wanted with
  | nil => exact absurd h (by simpa [received] using hpos.ne')
  | cons read reads ih =>
    have hlength : (received ((read :: reads).map .data)).length =
        read.bytes.length + (received (reads.map .data)).length := List.length_append
    refine ⟨nofun, fun hmore => ih (by omega) (by omega)⟩

/-- **The rounds after the first** write all that is wanted. -/
theorem iotReadRest_data {wanted : ℕ} (hpos : 0 < wanted) (reads : List ReadBytes)
    (h : wanted ≤ (received (reads.map .data)).length) (writeSize : ℤ) (file : List UInt8) :
    iotReadRest (writeSize + wanted) (reads.map .data) [] writeSize file =
      some (file ++ (received (reads.map .data)).take wanted) := by
  rcases iotReadRest_spec hpos (reads.map .data) [] writeSize file with
    ⟨herror, -⟩ | ⟨-, k, -, hsome, -, hdelivers⟩
  · exact absurd herror (not_meetsError _ _ _)
  · rw [hsome, hdelivers.mpr (delivers_of_length hpos reads h)]

/-! ### The number of bytes -/

/-- A digit does not end a value. -/
theorem endsValue_digit {n : ℕ} {b : UInt8} (h : b ∈ decimalText n) : endsValue b = false := by
  rw [decimalText_natCast, List.mem_map] at h
  obtain ⟨d, hd, rfl⟩ := h
  have hbounds := isDigit_bounds (Nat.isDigit_of_mem_toDigits (by decide) (by decide) hd)
  have hbyte : (UInt8.ofNat d.toNat).toNat = d.toNat := by
    rw [UInt8.toNat_ofNat']
    omega
  have hne : ∀ k : UInt8, k.toNat < 48 ∨ 57 < k.toNat → UInt8.ofNat d.toNat ≠ k := by
    rintro k hk rfl
    omega
  simp [endsValue, hne 13 (by decide), hne 10 (by decide), hne 59 (by decide)]

theorem fieldValue_digits (n m : ℕ) :
    fieldValue ((decimalText n).take m) = (decimalText n).take m := by
  unfold fieldValue
  rw [List.takeWhile_eq_self_iff]
  intro b hb
  rw [endsValue_digit (List.mem_of_mem_take hb)]
  rfl

theorem length_decimalText_lt {n : ℕ} (hn : n < 10 ^ 9) : (decimalText n).length < PKG_LENGTH := by
  have hle : (Nat.toDigits 10 n).length ≤ 9 :=
    (Nat.length_toDigits_le_iff (by decide) (by decide)).mpr hn
  rw [decimalText_natCast, List.length_map]
  unfold PKG_LENGTH
  omega

variable {n : ℕ} {field line more : List UInt8}

/-- The number is read right when one more byte of its line is there. -/
theorem fieldValue_whole (hsplit : decimalText n ++ 13 :: line = field ++ more)
    (hlength : (decimalText n).length < field.length) :
    fieldValue field.dropLast = decimalText n := by
  have hprefix : decimalText n <+: field :=
    List.prefix_of_prefix_length_le ⟨_, hsplit⟩ (List.prefix_append _ _) hlength.le
  obtain ⟨tail, rfl⟩ := hprefix
  rw [List.append_assoc] at hsplit
  have htail := List.append_cancel_left hsplit
  cases tail with
  | nil =>
    rw [List.append_nil] at hlength
    exact absurd hlength (lt_irrefl _)
  | cons b tail =>
    obtain ⟨rfl, -⟩ := List.cons.inj htail
    have hend : (13 :: tail).dropLast = [] ∨ ∃ tail', (13 :: tail).dropLast = 13 :: tail' := by
      cases tail with
      | nil => exact .inl rfl
      | cons b tail => exact .inr ⟨_, rfl⟩
    have hdigits := fieldValue_digits n (decimalText n).length
    rw [List.take_length] at hdigits
    rw [List.dropLast_append_of_ne_nil (by simp), fieldValue_append hend, hdigits]

/-- The number is too small when it is cut. -/
theorem strtol_fieldValue_cut (hn : 0 < n) (hn' : n < 10 ^ 9)
    (hsplit : decimalText n ++ 13 :: line = field ++ more)
    (hlength : field.length ≤ (decimalText n).length) : strtol (fieldValue field.dropLast) < n := by
  have hprefix : field <+: decimalText n :=
    List.prefix_of_prefix_length_le (List.prefix_append field more) ⟨_, hsplit⟩ hlength
  have hdropLast : field.dropLast = (decimalText n).take (field.length - 1) := by
    rw [List.dropLast_eq_take, List.prefix_iff_eq_take.mp hprefix, List.take_take, List.length_take]
    congr 1
    omega
  have hlt : field.length - 1 < (Nat.toDigits 10 n).length := by
    have hpos : 0 < (Nat.toDigits 10 n).length := Nat.length_toDigits_pos
    rw [decimalText_natCast, List.length_map] at hlength
    omega
  rw [hdropLast, fieldValue_digits, strtol_take_decimalText (by omega)]
  exact_mod_cast digitsValue_take_lt hn hlt

/-! ### The first read -/

/-- **A text of the header** is found in the first read exactly when that has all of it. -/
theorem after_first {text before tail first more : List UInt8} (hne : text ≠ [])
    (hlength : text.length < SUB_STERING_MAX_LENGTH)
    (hsplit : first ++ more = before ++ (text ++ tail)) (hzero : 0 ∉ before ++ text)
    (hfirst : findFirst text (before ++ (text ++ tail)) = some (text ++ tail)) :
    (first.length < before.length + text.length ∧ after text first = none) ∨
      (before.length + text.length ≤ first.length ∧ ∃ field, after text first = some field ∧
        tail = field ++ more) := by
  rcases Nat.lt_or_ge first.length (before.length + text.length) with hlt | hle
  · refine .inl ⟨hlt, ?_⟩
    cases hafter : after text first with
    | none => rfl
    | some field =>
      -- an occurrence in the first read is the first one of the response
      obtain ⟨before', hbefore', -, hfirst', -⟩ := after_eq_some hne hlength hafter
      have hresponse := @findFirst_append_right _ _ _ _ _ more hfirst'
      rw [hsplit, hfirst] at hresponse
      have hrest := congrArg List.length (Option.some.inj hresponse)
      have htotal := congrArg List.length hsplit
      have hread := congrArg List.length hbefore'
      simp only [List.length_append] at hrest htotal hread
      omega
  · refine .inr ⟨hle, ?_⟩
    have hprefix : before ++ text <+: first := by
      refine List.prefix_of_prefix_length_le ?_ (List.prefix_append first more) ?_
      · rw [hsplit, ← List.append_assoc]
        exact List.prefix_append _ _
      · rw [List.length_append]
        exact hle
    obtain ⟨field, rfl⟩ := hprefix
    rw [List.append_assoc, List.append_assoc] at hsplit
    have htail := List.append_cancel_left (List.append_cancel_left hsplit)
    rw [List.append_assoc]
    refine ⟨field, after_of_findFirst hzero ?_, htail.symm⟩
    exact findFirst_of_same_start hfirst

namespace OkResponse

variable (r : OkResponse)

theorem bytes_eq_field : r.bytes = r.beforeField ++
    (OTA_CONTENT_LENGTH ++ (decimalText r.body.length ++ (r.rest ++ (OTA_CRLF ++ r.body)))) := by
  simp only [bytes, header, okHeader, beforeField, List.append_assoc]

theorem findFirst_field : findFirst OTA_CONTENT_LENGTH r.bytes = some (OTA_CONTENT_LENGTH ++
    (decimalText r.body.length ++ (r.rest ++ (OTA_CRLF ++ r.body)))) := by
  have hfirst := @findFirst_append_right _ _ _ _ _ (OTA_CRLF ++ r.body) r.first_field
  simp only [List.append_assoc] at hfirst
  exact hfirst

theorem findFirst_blankLine : findFirst OTA_CRLF r.bytes = some (OTA_CRLF ++ r.body) := by
  have hfirst := @findFirst_append_right _ _ _ _ _ r.body r.first_blankLine
  rw [List.append_assoc] at hfirst
  exact hfirst

theorem zero_not_mem_field : 0 ∉ r.beforeField ++ OTA_CONTENT_LENGTH := by
  intro h
  refine r.zero_not_mem ?_
  unfold okHeader
  rw [← List.append_assoc]
  exact List.mem_append_left _ h

theorem zero_not_mem_blankLine : 0 ∉ r.header ++ OTA_CRLF := by
  rw [List.mem_append, not_or]
  exact ⟨r.zero_not_mem, by decide⟩

theorem lengthEnd_lt_headerEnd : r.lengthEnd < r.headerEnd := by
  have hpos : OTA_CRLF.length = 4 := rfl
  unfold lengthEnd headerEnd header okHeader beforeField
  simp only [List.length_append]
  omega

/-- What follows the number of bytes starts with the end of its line. -/
theorem line_eq : ∃ line : List UInt8, r.rest ++ (OTA_CRLF ++ r.body) = 13 :: line := by
  rcases r.ends_line with hrest | ⟨rest', hrest⟩
  · exact ⟨[10, 13, 10] ++ r.body, by rw [hrest]; rfl⟩
  · exact ⟨rest' ++ (OTA_CRLF ++ r.body), by rw [hrest]; rfl⟩

variable {r} {first more : List UInt8}

/-- **The field** is found in the first read when that has its name. -/
theorem after_field (hsplit : first ++ more = r.bytes) :
    (first.length < r.beforeField.length + OTA_CONTENT_LENGTH.length ∧
        after OTA_CONTENT_LENGTH first = none) ∨
      ∃ field line, after OTA_CONTENT_LENGTH first = some field ∧
        decimalText r.body.length ++ 13 :: line = field ++ more ∧
        first.length = r.beforeField.length + OTA_CONTENT_LENGTH.length + field.length := by
  obtain ⟨line, hline⟩ := r.line_eq
  have hbytes := r.bytes_eq_field
  have hfirst := r.findFirst_field
  rw [hbytes] at hfirst
  rcases after_first (by decide) (by decide) (hsplit.trans hbytes) r.zero_not_mem_field hfirst with
    hnone | ⟨-, field, hfield, htail⟩
  · exact .inl hnone
  · refine .inr ⟨field, line, hfield, by rw [← hline, htail], ?_⟩
    have htotal := congrArg List.length (hsplit.trans hbytes)
    have hrest := congrArg List.length htail
    simp only [List.length_append] at htotal hrest
    omega

/-- A first read that has the number, and a byte more, gives it. -/
theorem lengthText_whole (hsplit : first ++ more = r.bytes) (hlength : r.lengthEnd < first.length) :
    lengthText first = some (decimalText r.body.length) := by
  unfold lengthEnd at hlength
  rcases after_field hsplit with ⟨hshort, -⟩ | ⟨field, line, hfield, hline, hfirst⟩
  · omega
  · unfold lengthText
    rw [hfield]
    exact congrArg some (fieldValue_whole hline (by omega))

/-- A first read that has less gives a smaller number, or none. -/
theorem lengthText_cut (hsplit : first ++ more = r.bytes) (hlength : first.length ≤ r.lengthEnd)
    {pkgSize : List UInt8} (h : lengthText first = some pkgSize) :
    strtol pkgSize < r.body.length := by
  unfold lengthEnd at hlength
  unfold lengthText at h
  rcases after_field hsplit with ⟨-, hnone⟩ | ⟨field, line, hfield, hline, hfirst⟩
  · rw [hnone] at h
    cases h
  · rw [hfield] at h
    obtain rfl := Option.some.inj h
    exact strtol_fieldValue_cut r.body_ne r.length_body hline (by omega)

/-- The status is found in a first read that has the number. -/
theorem statusResult_whole (hsplit : first ++ more = r.bytes)
    (hlength : r.lengthEnd < first.length) : statusResult first = IOTA_SUCCESS := by
  have hprefix : r.version ++ HTTP_OK <+: first := by
    refine List.prefix_of_prefix_length_le ?_ (List.prefix_append first more) ?_
    · rw [hsplit, bytes_eq_field, beforeField]
      simp only [List.append_assoc, List.prefix_append_right_inj]
      exact List.prefix_append _ _
    · unfold lengthEnd beforeField at hlength
      simp only [List.length_append] at hlength ⊢
      omega
  obtain ⟨tail, rfl⟩ := hprefix
  have hne : ∀ b ∈ HTTP_OK, decide (b ≠ 0) = true := by decide +kernel
  have hdrop : (r.version ++ HTTP_OK ++ tail).drop OTA_HTTP_RESPONSE_VERSION.length =
      HTTP_OK ++ tail := by
    rw [← r.length_version, List.append_assoc, List.drop_left]
  have hstatus : (cString (HTTP_OK ++ tail)).take HTTP_STATUS_LENGTH = HTTP_OK := by
    unfold cString
    rw [List.takeWhile_append_of_pos hne]
    exact @List.take_left _ HTTP_OK _
  unfold statusResult
  rw [hdrop, if_pos hstatus]

/-- **The header** in a first read that has the number. -/
theorem headerFlag_whole (hsplit : first ++ more = r.bytes) (hlength : r.lengthEnd < first.length)
    (fileName : List UInt8) :
    ∃ tooLong name, nameText first fileName = some (tooLong, name) ∧
      headerFlag first fileName = some {
        result := if tooLong then IOTA_FAILURE else IOTA_SUCCESS
        fileName := name
        fileSize := r.body.length } := by
  have hfits := length_decimalText_lt r.length_body
  have hname : nameText first fileName ≠ none := by
    unfold nameText
    split
    · exact nofun
    · exact (fileNameText_eq le_rfl).2
  obtain ⟨⟨tooLong, name⟩, hname⟩ := Option.ne_none_iff_exists'.mp hname
  refine ⟨tooLong, name, hname, ?_⟩
  unfold headerFlag
  rw [lengthText_whole hsplit hlength, hname, statusResult_whole hsplit hlength]
  dsimp only
  rw [strtol_decimalText (by have := r.length_body; omega), if_neg (by omega)]
  rfl

/-- The blank line is found in a first read that has it. -/
theorem after_blankLine (hsplit : first ++ more = r.bytes) :
    (first.length < r.headerEnd ∧ after OTA_CRLF first = none) ∨
      (r.headerEnd ≤ first.length ∧ ∃ start, after OTA_CRLF first = some start ∧
        r.body = start ++ more) :=
  after_first (by decide) (by decide) hsplit r.zero_not_mem_blankLine r.findFirst_blankLine

end OkResponse

/-! ### The file -/

variable {r : OkResponse} {first : ReadBytes} {rest : List ReadBytes}

/-- **What is downloaded** when the number of bytes is read right. -/
theorem download_whole (hsplit : first.bytes ++ received (rest.map .data) = r.bytes) :
    download r.body.length first.bytes (rest.map .data) [] = some r.body ↔
      r.headerEnd ≤ first.bytes.length ∨
        (r.bytes.drop first.bytes.length).take r.body.length = r.body := by
  unfold download
  rcases OkResponse.after_blankLine hsplit with ⟨hshort, hblank⟩ | ⟨hlong, start, hblank, hbody⟩
  · have hmore : r.bytes.drop first.bytes.length = received (rest.map .data) := by
      rw [← hsplit, List.drop_left]
    have henough : r.body.length ≤ (received (rest.map .data)).length := by
      have htotal := congrArg List.length hsplit
      unfold OkResponse.bytes at htotal
      unfold OkResponse.headerEnd at hshort
      simp only [List.length_append] at htotal
      omega
    have hpos : ¬(r.body.length : ℤ) ≤ 0 := by
      have hne := r.body_ne
      omega
    have hrest := iotReadRest_data r.body_ne rest henough 0 []
    rw [zero_add, List.nil_append] at hrest
    rw [hblank, hmore]
    dsimp only
    rw [if_neg hpos, hrest, or_iff_right (not_le.mpr hshort)]
    exact Option.some_inj
  · refine iff_of_true ?_ (.inl hlong)
    have htotal := congrArg List.length hbody
    rw [List.length_append] at htotal
    rw [hblank]
    dsimp only [fwrite, List.headD_nil, List.tail_nil]
    by_cases hlast : r.body.length ≤ start.length
    · have hnil : received (rest.map .data) = [] := List.length_eq_zero_iff.mp (by omega)
      rw [if_pos (.inr (by exact_mod_cast hlast)), hbody, hnil, List.append_nil]
    · have hwanted : (r.body.length : ℤ) =
          start.length + (received (rest.map .data)).length := by omega
      have hrest := iotReadRest_data (by omega) rest le_rfl start.length start
      rw [List.take_length] at hrest
      rw [if_neg (by omega), hwanted, hrest, hbody]

/-- **Less is downloaded** when the first read has less than the number of bytes. -/
theorem download_cut (hsplit : first.bytes ++ received (rest.map .data) = r.bytes)
    (hlength : first.bytes.length ≤ r.lengthEnd) {pkgSize : List UInt8}
    (hpkgSize : lengthText first.bytes = some pkgSize) :
    download (strtol pkgSize) first.bytes (rest.map .data) [] ≠ some r.body := by
  have hsmaller := OkResponse.lengthText_cut hsplit hlength hpkgSize
  have hends := r.lengthEnd_lt_headerEnd
  have hblank : after OTA_CRLF first.bytes = none := by
    rcases OkResponse.after_blankLine hsplit with ⟨-, hnone⟩ | ⟨hlong, -⟩
    · exact hnone
    · omega
  intro h
  unfold download at h
  rw [hblank] at h
  dsimp only at h
  by_cases hlast : strtol pkgSize ≤ 0
  · rw [if_pos hlast] at h
    have hempty := congrArg List.length (Option.some.inj h)
    have hne := r.body_ne
    rw [← hempty] at hne
    exact absurd hne (lt_irrefl 0)
  · rw [if_neg hlast] at h
    obtain ⟨wanted, hwanted⟩ : ∃ wanted : ℕ, strtol pkgSize = wanted :=
      ⟨(strtol pkgSize).toNat, by omega⟩
    have hspec := iotReadRest_spec (show 0 < wanted by omega) (rest.map .data) [] 0 []
    rw [zero_add, ← hwanted, h] at hspec
    rcases hspec with ⟨-, hnone⟩ | ⟨-, k, hk, hsome, -, -⟩
    · cases hnone
    · have hfile := congrArg List.length (Option.some.inj hsome)
      rw [List.nil_append, List.length_take] at hfile
      omega

/-! ### The run -/

/-- A file can be opened under any name. -/
theorem OpensFiles.opened (hopens : OpensFiles env otaFilePath) (fileName : List UInt8) :
    Opened env c otaFilePath fileName := by
  obtain ⟨path, c', hpath, rfl⟩ :=
    canonicalFilePath_returns hopens.allocsSucceed hopens.path_ne c
  exact ⟨_, c', hpath, hopens.opens _⟩

/-- The body is downloaded when the header of the first read is accepted. -/
theorem downloadsBody_iff_download (hopens : OpensFiles env otaFilePath) :
    DownloadsBody env c r (first :: rest) otaFilePath otaFileNameOut ↔
      ∃ flag, headerFlag first.bytes otaFileNameOut = some flag ∧ flag.result = 0 ∧
        NameFits flag.fileName ∧
        download flag.fileSize first.bytes (rest.map .data) [] = some r.body := by
  have hfirst : firstFlag ((first :: rest).map .data) otaFileNameOut =
      headerFlag first.bytes otaFileNameOut := iotReadHeaderFlag_data first otaFileNameOut
  unfold DownloadsBody
  cases hflag : headerFlag first.bytes otaFileNameOut with
  | none =>
    rw [iotRead_undefined (hfirst.trans hflag)]
    simp
  | some flag =>
    have hfirst := hfirst.trans hflag
    by_cases hgoesOn : NameFits flag.fileName ∧ ¬flag.result < 0
    · obtain ⟨hfits, hresult⟩ := hgoesOn
      obtain ⟨c', hrun⟩ := @iotRead_opened env c otaFilePath otaFileNameOut (rest.map .data) []
        flag first hfirst hfits hresult (hopens.opened _)
      show (∃ run c', iotRead (.data first :: rest.map .data) [] otaFilePath otaFileNameOut env c =
        some (run, c') ∧ _) ↔ _
      rw [hrun]
      constructor
      · rintro ⟨run, c'', heq, hzero, hfile⟩
        obtain ⟨file, hdownload, heq⟩ := Option.map_eq_some_iff.mp heq
        obtain ⟨rfl, -⟩ := Prod.mk.inj heq
        exact ⟨flag, rfl, hzero, hfits, by rw [hdownload]; exact hfile⟩
      · rintro ⟨flag', heq, hzero, -, hdownload⟩
        obtain rfl := Option.some.inj heq
        rw [hdownload]
        exact ⟨_, _, rfl, hzero, rfl⟩
    · have hrefused : ¬NameFits flag.fileName ∨ flag.result < 0 := by
        rwa [not_and_or, not_not] at hgoesOn
      rw [iotRead_refused hfirst hrefused]
      constructor
      · rintro ⟨run, c', heq, -, hfile⟩
        obtain ⟨rfl, -⟩ := Prod.mk.inj (Option.some.inj heq)
        cases hfile
      · rintro ⟨flag', heq, hzero, hfits, -⟩
        obtain rfl := Option.some.inj heq
        exact absurd ⟨hfits, by omega⟩ hgoesOn

/-- **The body is downloaded** from a first read, and any reads after it, exactly when the first
read is long enough or happens to be followed by the body. -/
theorem downloadsBody_iff (hsplit : ((first :: rest).map ReadBytes.bytes).flatten = r.bytes)
    (hopens : OpensFiles env otaFilePath) :
    DownloadsBody env c r (first :: rest) otaFilePath otaFileNameOut ↔
      SplitsWell r first.bytes otaFileNameOut := by
  have hreceived : first.bytes ++ received (rest.map .data) = r.bytes := by
    rw [received_map]
    exact hsplit
  rw [downloadsBody_iff_download hopens]
  rcases Nat.lt_or_ge r.lengthEnd first.bytes.length with hlength | hlength
  · obtain ⟨tooLong, name, hname, hflag⟩ :=
      OkResponse.headerFlag_whole hreceived hlength otaFileNameOut
    rw [hflag]
    constructor
    · rintro ⟨flag, heq, hzero, hfits, hdownload⟩
      obtain rfl := Option.some.inj heq
      dsimp only at hzero hfits hdownload
      cases tooLong with
      | true => exact absurd hzero (by decide)
      | false =>
        refine ⟨⟨name, hname, hfits⟩, ?_⟩
        exact ((download_whole hreceived).mp hdownload).imp_right fun h => ⟨hlength, h⟩
    · rintro ⟨⟨name', hname', hfits⟩, hheader⟩
      obtain ⟨rfl, rfl⟩ := Prod.mk.inj (Option.some.inj (hname.symm.trans hname'))
      refine ⟨_, rfl, rfl, hfits, (download_whole hreceived).mpr ?_⟩
      exact hheader.imp_right And.right
  · have hends := r.lengthEnd_lt_headerEnd
    constructor
    · rintro ⟨flag, hflag, hzero, -, hdownload⟩
      unfold headerFlag at hflag
      cases hpkgSize : lengthText first.bytes with
      | none =>
        rw [hpkgSize] at hflag
        obtain rfl := Option.some.inj hflag
        exact absurd hzero (show IOTA_FAILURE ≠ 0 by decide)
      | some pkgSize =>
        rw [hpkgSize] at hflag
        obtain ⟨-, hflag⟩ := Option.ite_none_left_eq_some.mp hflag
        obtain ⟨name, -, rfl⟩ := Option.map_eq_some_iff.mp hflag
        exact absurd hdownload (download_cut hreceived hlength hpkgSize)
    · rintro ⟨-, hheader | ⟨hheader, -⟩⟩
      · omega
      · omega

/-! ### A sample response -/

/-- A response with a body of two bytes. -/
def sampleResponse : OkResponse where
  version := ascii "HTTP/1.1 "
  before := ascii " OK\r\n"
  rest := []
  body := ascii "ab"
  length_version := rfl
  body_ne := by decide
  length_body := by decide
  zero_not_mem := by decide +kernel
  ends_line := .inl rfl
  first_field := by decide +kernel
  first_blankLine := by decide +kernel

/-- A read of the header up to the end of the blank line. -/
def sampleHead : ReadBytes where
  bytes := ascii "HTTP/1.1 200 OK\r\nContent-Length: 2\r\n\r\n"
  nonempty := by decide
  length_lt := by decide

/-- Two reads of the body. -/
def sampleBody : List ReadBytes :=
  [⟨ascii "a", by decide, by decide⟩, ⟨ascii "b", by decide, by decide⟩]

/-- A read of the header and half of the blank line. -/
def sampleStart : ReadBytes where
  bytes := ascii "HTTP/1.1 200 OK\r\nContent-Length: 2\r\n"
  nonempty := by decide
  length_lt := by decide

/-- A read of what follows. -/
def sampleEnd : ReadBytes where
  bytes := ascii "\r\nab"
  nonempty := by decide
  length_lt := by decide

theorem sampleFiles_opensFiles : OpensFiles sampleFiles none where
  allocsSucceed := Env.plentiful_allocsSucceed
  path_ne := by decide
  opens _ := rfl

/-- In three reads, the first of which is the header, the body is downloaded. -/
theorem downloadsBody_threeReads :
    DownloadsBody sampleFiles ⟨0, 0⟩ sampleResponse (sampleHead :: sampleBody) none
      (ascii "p") := by
  refine (@downloadsBody_iff sampleFiles ⟨0, 0⟩ none (ascii "p") sampleResponse sampleHead
    sampleBody (by decide +kernel) sampleFiles_opensFiles).mpr
      ⟨⟨ascii "p", by decide +kernel, ?_⟩, .inl ?_⟩
  · unfold NameFits
    decide +kernel
  · decide +kernel

/-- In two reads, the first of which ends in the blank line, another text is. -/
theorem downloadsBody_split_false :
    ¬∀ env c (r : OkResponse) reads otaFilePath otaFileNameOut,
      (reads.map ReadBytes.bytes).flatten = r.bytes → OpensFiles env otaFilePath →
        DownloadsBody env c r reads otaFilePath otaFileNameOut := by
  intro h
  obtain ⟨run, c', hrun, -, hfile⟩ := h sampleFiles ⟨0, 0⟩ sampleResponse [sampleStart, sampleEnd]
    none (ascii "p") (by decide +kernel) sampleFiles_opensFiles
  have heval : (iotRead ([sampleStart, sampleEnd].map .data) [] none (ascii "p") sampleFiles
      ⟨0, 0⟩).map Prod.fst =
        some { result := 0, fileName := ascii "p", file := some (ascii "\r\n") } := by
    decide +kernel
  rw [hrun] at heval
  obtain rfl := Option.some.inj heval
  exact absurd hfile (by decide +kernel)

end IotDeviceSdk.Agentlite
