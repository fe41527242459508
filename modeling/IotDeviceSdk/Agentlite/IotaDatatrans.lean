import IotDeviceSdk.Crypto.Hash
import IotDeviceSdk.Libc.Bytes
import IotDeviceSdk.Prog.Basic
import IotDeviceSdk.Util.ErrorType
import IotDeviceSdk.Util.StringUtil

/-!
# `iota_datatrans.c`: OTA packages

`IOTA_IotRead` reads an HTTP response from a TLS connection and writes its body to a file;
`IOTA_OTAVerifySign` compares the SHA-256 of a file with a signature.

The results of `SSL_read` and of `fwrite` are inputs of a run: a read gives some bytes, finds the
connection closed or fails; a write is full or short.  What the buffers of the code cannot hold is
undefined.
-/

namespace IotDeviceSdk.Agentlite

open Prog

/-- `BUFSIZE`. -/
def BUFSIZE : ℕ := 4096

/-- `PKGNAME_MAX`. -/
def PKGNAME_MAX : ℕ := 1024

/-- `PKG_LENGTH`. -/
def PKG_LENGTH : ℕ := 10

/-- `PATH_MAX`. -/
def PATH_MAX : ℕ := 4096

/-- `HTTP_STATUS_LENGTH`. -/
def HTTP_STATUS_LENGTH : ℕ := 3

/-- `HTTP_OK`. -/
def HTTP_OK : List UInt8 := ascii "200"

/-- `OTA_HTTP_RESPONSE_VERSION`. -/
def OTA_HTTP_RESPONSE_VERSION : List UInt8 := ascii "HTTP/1.1 "

/-- `OTA_CONTENT_LENGTH`. -/
def OTA_CONTENT_LENGTH : List UInt8 := ascii "Content-Length: "

/-- `FILE_NAME_EQUAL`. -/
def FILE_NAME_EQUAL : List UInt8 := ascii "filename="

/-- `OTA_CRLF`. -/
def OTA_CRLF : List UInt8 := ascii "\r\n\r\n"

/-- The outside world of the OTA code. -/
structure OtaEnv where
  sdk : Env
  /-- What `realpath` leaves in the zeroed buffer. -/
  realpath : String → String
  /-- The content of a file that `fopen` opens in mode `"rb"`. -/
  files : String → Option (List UInt8)
  /-- Whether `fopen` opens a file in mode `"wb"`. -/
  opens : String → Bool

/-- OTA code. -/
abbrev Ota (α : Type) : Type := Prog OtaEnv Cursor α

/-- Code of the SDK as a part of OTA code. -/
def liftSdk {α : Type} (p : Sdk α) : Ota α := fun env c => p env.sdk c

/-- The path of a package, through `realpath`; `none` when there is no memory for it. -/
def canonicalFilePath (otaFilePath : Option String) (otaFilename : String) :
    Ota (Option String) := do
  let env ← read
  match otaFilePath with
  | none => return some (env.realpath otaFilename)
  | some path =>
    let fileNameWithPath ← liftSdk <|
      if strEndWith (some path) (some "/") then combineStrings path [otaFilename]
      else combineStrings path ["/", otaFilename]
    return fileNameWithPath.map env.realpath

/-! ### Reading the response -/

/-- The bytes of one `SSL_read`. -/
structure ReadBytes where
  bytes : List UInt8
  nonempty : bytes ≠ []
  length_lt : bytes.length < BUFSIZE

/-- The result of one `SSL_read`. -/
inductive ReadResult where
  | data (read : ReadBytes)
  /-- the connection is closed: 0 -/
  | closed
  /-- an error: `-(code + 1)` -/
  | error (code : ℕ)

/-- `readLength`. -/
def ReadResult.readLength : ReadResult → ℤ
  | data read => read.bytes.length
  | closed => 0
  | error code => -(code + 1)

/-- The buffer after a read: the bytes, and the zeros it was set to before. -/
def ReadResult.buf : ReadResult → List UInt8
  | data read => read.bytes ++ List.replicate (BUFSIZE - read.bytes.length) 0
  | _ => List.replicate BUFSIZE 0

/-- The bytes a `fwrite` writes; a short one stops after `k`. -/
def fwrite (limit : Option ℕ) (data : List UInt8) : List UInt8 :=
  match limit with
  | none => data
  | some k => data.take k

/-- The characters that end a value of the header. -/
def endsValue (c : UInt8) : Bool := c = 13 ∨ c = 10 ∨ c = 59

/-- The text of `Content-Length` in `pkgSize`, of which the first `count` characters of the buffer
may be part. -/
def pkgSizeText : List UInt8 → ℕ → List UInt8 → Option (List UInt8)
  | buf, count, pkgSize =>
    if PKG_LENGTH ≤ pkgSize.length then none
    else
      match count, buf with
      | 0, _ => some pkgSize
      | _ + 1, [] => none
      | count + 1, c :: buf =>
        if endsValue c then some pkgSize else pkgSizeText buf count (pkgSize ++ [c])

/-- The text of `filename=` in `fileName`, and whether it is too long. -/
def fileNameText : List UInt8 → ℕ → List UInt8 → Option (Bool × List UInt8)
  | _, 0, fileName => some (false, fileName)
  | buf, count + 1, fileName =>
    if PKGNAME_MAX ≤ fileName.length then some (true, fileName)
    else
      match buf with
      | [] => none
      | c :: buf =>
        if endsValue c then some (false, fileName) else fileNameText buf count (fileName ++ [c])

/-- What `IOTA_IotReadHeaderFlag` returns and leaves in its arguments. -/
structure HeaderFlag where
  result : ℤ
  fileName : List UInt8
  fileSize : ℤ
  deriving DecidableEq

/-- `(unsigned long)`. -/
def toULong (n : ℤ) : ℕ := (n % 2 ^ 64).toNat

/-- `IOTA_IotReadHeaderFlag` with `*fileSize` 0; an access outside a buffer is undefined. -/
def iotReadHeaderFlag (buf : List UInt8) (readLength : ℤ) (fileName : List UInt8) :
    Option HeaderFlag := do
  let rspStatusCode :=
    (cString (buf.drop OTA_HTTP_RESPONSE_VERSION.length)).take HTTP_STATUS_LENGTH
  let result := if rspStatusCode = HTTP_OK then IOTA_SUCCESS else IOTA_FAILURE
  -- get packageSize from Content-Length
  let content_Length_index := getSubStrIndex (some (cString buf)) (some OTA_CONTENT_LENGTH)
  if content_Length_index < 0 then
    return { result := IOTA_FAILURE, fileName := fileName, fileSize := 0 }
  let limit := toULong (readLength - 1)
  let k := content_Length_index.toNat + OTA_CONTENT_LENGTH.length
  let pkgSize ← pkgSizeText (buf.drop k) (limit - k) []
  let fileSize := strtol pkgSize
  -- get filename from Content-Disposition
  let filename_index := getSubStrIndex (some (cString buf)) (some FILE_NAME_EQUAL)
  if filename_index < 0 then
    return { result := result, fileName := fileName, fileSize := fileSize }
  let k := filename_index.toNat + FILE_NAME_EQUAL.length
  let (tooLong, fileName) ← fileNameText (buf.drop k) (limit - k) []
  return { result := if tooLong then IOTA_FAILURE else result
           fileName := fileName
           fileSize := fileSize }

/-- `IOTA_IotReadHeaderData`: its result, `*writeSize` when it is set, and what is written. -/
def iotReadHeaderData (buf : List UInt8) (readLength : ℤ) (limit : Option ℕ) :
    ℤ × Option ℤ × List UInt8 :=
  let httpHeaderLength := getSubStrIndex (some (cString buf)) (some OTA_CRLF)
  if httpHeaderLength < 0 then (IOTA_PARAMETER_EMPTY, none, [])
  else
    let httpHeaderLength := httpHeaderLength + OTA_CRLF.length
    let otaBodySize := readLength - httpHeaderLength
    let written := fwrite limit ((buf.drop httpHeaderLength.toNat).take otaBodySize.toNat)
    (if (written.length : ℤ) < otaBodySize then IOTA_FAILURE else IOTA_SUCCESS,
      some written.length, written)

/-- The rounds of the loop of `IOTA_IotRead` after the first: the file when it is left.  A `fwrite`
of a negative length is undefined. -/
def iotReadRest (fileSize : ℤ) :
    List ReadResult → List (Option ℕ) → ℤ → List UInt8 → Option (List UInt8)
  | [], _, _, file => some file
  | .closed :: _, _, _, file => some file
  | .error code :: _, _, writeSize, file =>
    if writeSize + (ReadResult.error code).readLength < fileSize then none else some file
  | .data read :: reads, writes, writeSize, file =>
    let readLength : ℤ := read.bytes.length
    if writeSize + readLength < fileSize then
      let written := fwrite (writes.headD none) read.bytes
      if (written.length : ℤ) < readLength then some (file ++ written)
      else
        iotReadRest fileSize reads writes.tail (writeSize + written.length) (file ++ written)
    else if writeSize < fileSize then
      some (file ++ fwrite (writes.headD none) (read.bytes.take (fileSize - writeSize).toNat))
    else some file

/-- What `IOTA_IotRead` returns and leaves behind, without a file when it opens none. -/
structure ReadRun where
  result : ℤ
  fileName : List UInt8
  file : Option (List UInt8)
  deriving DecidableEq

/-- `IOTA_IotRead` on the results of its reads and writes.  After the results given the connection
is closed and the writes are full. -/
def iotRead (reads : List ReadResult) (writes : List (Option ℕ)) (otaFilePath : Option String)
    (otaFileNameOut : List UInt8) : Ota ReadRun := do
  let first := reads.headD .closed
  let flag ← ofOption (iotReadHeaderFlag first.buf first.readLength otaFileNameOut)
  let name := cString flag.fileName
  if PATH_MAX < name.length ∨ flag.result < 0 then
    return { result := flag.result, fileName := flag.fileName, file := none }
  let some path ← canonicalFilePath otaFilePath (textOfBytes name)
    | return { result := IOTA_FAILURE, fileName := flag.fileName, file := none }
  if !(← read).opens path then
    return { result := IOTA_FAILURE, fileName := flag.fileName, file := none }
  let (ret, size, file) := iotReadHeaderData first.buf first.readLength (writes.headD none)
  let writeSize := size.getD 0
  let left : ReadRun := { result := flag.result, fileName := flag.fileName, file := some file }
  if ret = IOTA_FAILURE then return left
  if flag.fileSize ≤ writeSize then return left
  -- `buf[readLength]`, then the condition of the loop
  if first.readLength < 0 then undefined
  if first.readLength = 0 then return left
  let file ← ofOption (iotReadRest flag.fileSize reads.tail
    (if size.isSome then writes.tail else writes) writeSize file)
  return { left with file := some file }

/-! ### Verifying the signature -/

/-- `SHA256_DIGEST_LENGTH`. -/
def SHA256_DIGEST_LENGTH : ℕ := 32

/-- The loop of `fread` and `SHA256_Update`. -/
def hashFile (sha256 : Crypto.IncrementalHash SHA256_DIGEST_LENGTH) (context : sha256.Context)
    (file : List UInt8) : sha256.Context :=
  if file = [] then context
  else hashFile sha256 (sha256.update context (file.take 1024)) (file.drop 1024)
termination_by file.length
decreasing_by
  have hpos : file.length ≠ 0 := by simpa using ‹¬file = []›
  rw [List.length_drop]
  omega

/-- The loop over the digest: each byte is printed into `mac32`, of `sum` bytes, and compared with
the next two characters of the signature. -/
def compareSign (sum : ℕ) : List UInt8 → List UInt8 → List UInt8 → ℤ
  | [], _, _ => IOTA_SUCCESS
  | h :: hash, sign, mac32 =>
    let mac32 := (snprintfS mac32 sum sum (hexByte h)).1
    if sign.take 2 ≠ mac32.take 2 then IOTA_FAILURE
    else compareSign sum hash (sign.drop 2) mac32

/-- `IOTA_OTAVerifySign`. -/
def iotaOTAVerifySign (sha256 : Crypto.IncrementalHash SHA256_DIGEST_LENGTH)
    (sign : Option CString) (otaFilePath : Option String) (otaFilename : String) : Ota ℤ :=
  match sign with
  | none => pure 0
  | some sign => do
    if sign.bytes.length ≠ SHA256_DIGEST_LENGTH * 2 then return 0
    let some path ← canonicalFilePath otaFilePath otaFilename
      | return IOTA_FAILURE
    match (← read).files path with
    | none => return IOTA_RESOURCE_NOT_AVAILABLE
    | some file =>
      let hash := sha256.final (hashFile sha256 sha256.init file)
      return compareSign 2 hash sign.bytes [0, 0]

end IotDeviceSdk.Agentlite
