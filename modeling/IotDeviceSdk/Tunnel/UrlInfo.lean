import IotDeviceSdk.Libc.Search
import IotDeviceSdk.Util.ErrorType
import IotDeviceSdk.Util.StringUtil

/-!
# `wss_client.c`: the URL of the tunnel

`WssClientSplitUrl` takes the URL of a tunnel apart.  A pointer into the URL is the text from there
on, so that the difference of two pointers is one of lengths, the other way round.  A URL comes in a
message and is so short that these lengths are those of the `int` variables.
-/

namespace IotDeviceSdk.Tunnel

open Prog Text

/-- `TUNNEL_WSSCLIENT_DEFAULT_PORT`. -/
def TUNNEL_WSSCLIENT_DEFAULT_PORT : List UInt8 := ascii "443"

/-- `TUNNEL_WSSCLIENT_DEFAULT_PORT_LEN`. -/
def TUNNEL_WSSCLIENT_DEFAULT_PORT_LEN : ℤ := 3

/-- `URL_INFO`. -/
structure UrlInfo where
  site : Option CharBlock := none
  port : Option CharBlock := none
  path : Option CharBlock := none
  token : Option CharBlock := none

/-- What is copied into `site` and `port`: `siteLen`, `portHead` and `portLen`. -/
structure SiteAndPort where
  siteLen : ℤ
  portHead : List UInt8
  portLen : ℤ

/-- The branches on the first `':'`. -/
def siteAndPort (siteHead pathHead : List UInt8) : SiteAndPort :=
  match strchr siteHead colon with
  | none =>
    { siteLen := siteHead.length - pathHead.length
      portHead := TUNNEL_WSSCLIENT_DEFAULT_PORT
      portLen := TUNNEL_WSSCLIENT_DEFAULT_PORT_LEN }
  | some portHead =>
    { siteLen := siteHead.length - portHead.length
      portHead := portHead.tail
      portLen := portHead.tail.length - pathHead.length }

/-- `WssClientSplitUrl` with an `info` of `NULL`s, and `info` afterwards; the length of a `token`
that is `NULL` is undefined. -/
def wssClientSplitUrl (url token : Option CString) : Sdk (ℤ × UrlInfo) := do
  let token ← ofOption token
  let some url := url
    | return (IOTA_PARAMETER_ERROR, {})
  let protocol := ascii "wss://"
  if findFirst protocol url.bytes = none then return (IOTA_PARAMETER_ERROR, {})
  let siteHead := url.bytes.drop protocol.length
  let some pathHead := strchr siteHead slash
    | return (IOTA_PARAMETER_ERROR, {})
  let (ret, path) ← copyStrValue none (some (.ofBytes pathHead)) pathHead.length
  if ret ≠ IOTA_SUCCESS then return (IOTA_FAILURE, {})
  let parts := siteAndPort siteHead pathHead
  let (ret, site) ← copyStrValue none (some (.ofBytes siteHead)) parts.siteLen
  if ret ≠ IOTA_SUCCESS then return (IOTA_FAILURE, {})
  let (ret, port) ← copyStrValue none (some (.ofBytes parts.portHead)) parts.portLen
  if ret ≠ IOTA_SUCCESS then return (IOTA_FAILURE, {})
  if !(← malloc) then return (IOTA_FAILURE, {})
  let header := [13, 10] ++ ascii "tunnel_access_token:"
  return (IOTA_SUCCESS, {
    site := site
    port := port
    path := path
    token := some (.ofBytes (header ++ token.bytes)) })

end IotDeviceSdk.Tunnel
