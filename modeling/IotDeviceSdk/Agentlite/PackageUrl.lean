import IotDeviceSdk.Libc.Bytes
import IotDeviceSdk.Libc.Memory
import IotDeviceSdk.Libc.Search
import IotDeviceSdk.Util.ErrorType
import Mathlib.Data.UInt

/-!
# `iota_datatrans.c`: the URLs of packages and files

`IOTA_GetUrlData` takes the host and the port from the URL of a package,
`IOTA_OTAv2GetFileNameFromUrl` and `getFileNameToUrl` the name of a file.  A pointer into a URL is
the text from there on or an index, and reading outside the URL or outside a buffer is undefined.
-/

namespace IotDeviceSdk.Agentlite

open Text

/-- `IP_LENGTH`. -/
def IP_LENGTH : ℕ := 50

/-- `PORT_LENGTH`. -/
def PORT_LENGTH : ℕ := 6

/-- `HTTP_URL_QUERY_START_MARK`. -/
def HTTP_URL_QUERY_START_MARK : List UInt8 := [questionMark]

/-- `DOUBLE_OBLIQUE_LINE`. -/
def DOUBLE_OBLIQUE_LINE : List UInt8 := [slash, slash]

/-- `SINGLE_SLANT`. -/
def SINGLE_SLANT : List UInt8 := [slash]

/-- `COLON`. -/
def COLON : List UInt8 := [colon]

/-- `SECUREC_STRING_MAX_LEN`. -/
def SECUREC_STRING_MAX_LEN : ℕ := 0x7fffffff

/-- `strncpy_s` of a C string into a buffer of `destMax` bytes: the buffer and the error. -/
def strncpyS (strDest : List UInt8) (strSrc : List UInt8) (count : ℕ) : List UInt8 × ℕ :=
  let destMax := strDest.length
  if destMax = 0 ∨ destMax > SECUREC_STRING_MAX_LEN then (strDest, ERANGE)
  else if count > SECUREC_STRING_MAX_LEN then (strDest.set 0 0, ERANGE_AND_RESET)
  else if destMax ≤ min count strSrc.length then (strDest.set 0 0, ERANGE_AND_RESET)
  else (overwrite strDest 0 (strSrc.take count ++ [0]), EOK)

/-! ### The name of a file -/

/-- The loop of `IOTA_OTAv2GetFileNameFromUrl`, which goes back from an index to the start of the
URL: the index of a `'/'`. -/
def slashIndex (url : List UInt8) : ℕ → Option (Option ℕ)
  | 0 => some none
  | start + 1 => do
    let c ← url[start + 1]?
    if c = slash then return some (start + 1) else slashIndex url start

/-- `IOTA_OTAv2GetFileNameFromUrl`: its result, and `fileName` afterwards. -/
def iotaOTAv2GetFileNameFromUrl (url : CString) (fileName : List UInt8) :
    Option (ℤ × List UInt8) :=
  match findFirst HTTP_URL_QUERY_START_MARK url.bytes with
  -- the loop starts at a `NULL`, and goes back from there
  | none => none
  | some rest => do
    let queryStringStart := url.bytes.length - rest.length
    match ← slashIndex url.bytes queryStringStart with
    | none => return (IOTA_FAILURE, fileName)
    | some start =>
      let start := start + 1
      let (fileName, ret) := strncpyS fileName (url.bytes.drop start) (queryStringStart - start)
      return (if ret ≠ EOK then IOTA_FAILURE else IOTA_SUCCESS, fileName)

/-- `getFileNameToUrl`: its result, and `fileName` afterwards. -/
def getFileNameToUrl (url : CString) (fileName : List UInt8) : Option (ℤ × List UInt8) :=
  match strchr url.bytes questionMark with
  | none => some (IOTA_FAILURE, fileName)
  | some begin => do
    let (data, ret) ← memcpyS (List.replicate 1024 0) 1024 url.bytes
      (url.bytes.length - begin.length)
    if ret ≠ 0 then return (IOTA_FAILURE, fileName)
    -- `strrchr` looks for the terminator
    if 0 ∉ data then none
    match strrchr (cString data) slash with
    | none => return (IOTA_FAILURE, fileName)
    | some begin =>
      let (fileName, ret) ← memcpyS fileName fileName.length begin.tail (begin.length - 1)
      return (if ret ≠ 0 then IOTA_FAILURE else IOTA_SUCCESS, fileName)

/-! ### The host and the port -/

/-- What `IOTA_GetUrlData` returns, `none` for `NULL`, and leaves in its buffers. -/
structure UrlData where
  uri : Option (List UInt8)
  port : List UInt8
  ip : List UInt8
  deriving DecidableEq

/-- `IOTA_GetUrlData`. -/
def iotaGetUrlData (url : CString) (port ip : List UInt8) : UrlData :=
  match findFirst DOUBLE_OBLIQUE_LINE url.bytes with
  | none => { uri := none, port := port, ip := ip }
  | some tmp =>
    match findFirst COLON tmp with
    | none => { uri := none, port := port, ip := ip }
    | some tmpContainsColon =>
      let (ip, ret) := strncpyS ip (tmp.drop DOUBLE_OBLIQUE_LINE.length)
        (tmp.length - tmpContainsColon.length - DOUBLE_OBLIQUE_LINE.length)
      if ret ≠ 0 then { uri := none, port := port, ip := ip }
      else
        match findFirst SINGLE_SLANT tmpContainsColon with
        | none =>
          -- the difference of a `NULL` and a pointer is a large `size_t`
          let (port, _) := strncpyS port (tmpContainsColon.drop 1) (SECUREC_STRING_MAX_LEN + 1)
          { uri := none, port := port, ip := ip }
        | some uri =>
          let (port, ret) := strncpyS port (tmpContainsColon.drop 1)
            (tmpContainsColon.length - uri.length - 1)
          if ret ≠ EOK then { uri := none, port := port, ip := ip }
          else { uri := some uri, port := port, ip := ip }

end IotDeviceSdk.Agentlite
