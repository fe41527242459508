import IotDeviceSdk.Libc.Bytes
import IotDeviceSdk.Prog.Basic
import IotDeviceSdk.Util.JsonUtil

/-!
# `wss_client.c`: the message listener of the tunnel

The websocket library calls `WssClientListenerOnMsg` once for each frame.  The frames of a
fragmented message are to be joined and the message handled when its final frame arrives; the
local `preMsg`, into which they are joined, starts as `NULL` in each call.

The library itself is not part of the repository: `NoPoll` is what the listener uses of it.
-/

namespace IotDeviceSdk.Tunnel

open Prog

/-- What the listener reads of a `noPollMsg`. -/
structure NoPollMsg where
  payload : List UInt8
  isFragment : Bool
  isFinal : Bool
  deriving DecidableEq

/-- The payload of a message, `NULL` being the empty one. -/
def payloadOf (msg : Option NoPollMsg) : List UInt8 := (msg.map NoPollMsg.payload).getD []

/-- The websocket library. -/
structure NoPoll where
  /-- `nopoll_msg_join` -/
  msgJoin : Option NoPollMsg → Option NoPollMsg → Option NoPollMsg
  /-- Joining a message to what there is concatenates the payloads. -/
  msgJoin_payload : ∀ preMsg msg, ∃ joined, msgJoin preMsg (some msg) = some joined ∧
    joined.payload = payloadOf preMsg ++ msg.payload

/-- The calls the listener makes for a message. -/
inductive TunnelCall where
  /-- `WssClientSendRsp` -/
  | sendRsp (reqId : Option String) (opType : String)
  /-- `SSHClientCreate` -/
  | sshClientCreate (root : CJson)
  /-- `WssClientSendDisConn` -/
  | sendDisConn (reqId : Option String) (code msg : String)
  /-- `SSHClientRunCmd` -/
  | sshClientRunCmd (root : CJson)

/-- The outside world of the listener. -/
structure TunnelEnv where
  nopoll : NoPoll
  /-- `cJSON_Parse` of a C string, `none` for `NULL`. -/
  parseJson : List UInt8 → Option CJson
  /-- The result of `SSHClientCreate`. -/
  sshClientCreate : CJson → ℤ

/-- Code of the tunnel; the state is the calls made so far. -/
abbrev Listener (α : Type) : Type := Prog TunnelEnv (List TunnelCall) α

/-- Make a call. -/
def call (c : TunnelCall) : Listener Unit := fun _ calls => some ((), calls ++ [c])

/-- `strcmp(text, literal) == 0`; a `NULL` text is undefined behaviour. -/
def strcmpEq (text : Option String) (literal : String) : Listener Bool := do
  let text ← ofOption text
  return text = literal

/-- The first part of `WssClientListenerOnMsg`: the message that reaches the handling, `none` when
the call returns before. -/
def assembleMsg (nopoll : NoPoll) (msg : NoPollMsg) : Option NoPollMsg :=
  let preMsg : Option NoPollMsg := none
  if msg.isFragment then
    let preMsg := nopoll.msgJoin preMsg (some msg)
    if !msg.isFinal then none else preMsg
  else
    nopoll.msgJoin preMsg (some msg)

/-- The second part of `WssClientListenerOnMsg`: the handling of a message with its payload. -/
def handleMsg (content : List UInt8) : Listener Unit := fun env =>
  match env.parseJson (cString content) with
  | none => pure ()
  | some root => (do
    let serviceType := jsonGetStringFromObject (some root) "tunnel_service_type" none
    if !(← strcmpEq serviceType "ssh") then return ()
    let reqId := jsonGetStringFromObject (some root) "request_id" none
    let opType := jsonGetStringFromObject (some root) "operation_type" none
    if ← strcmpEq opType "connect" then
      call (.sendRsp reqId "connect_response")
      call (.sshClientCreate root)
      if env.sshClientCreate root ≠ 0 then
        call (.sendDisConn reqId "400" "WssClientListenerOnMsg: Create SSH channel failed")
    else if ← strcmpEq opType "command" then
      call (.sshClientRunCmd root) : Listener Unit) env

/-- `WssClientListenerOnMsg`. -/
def wssClientListenerOnMsg (msg : NoPollMsg) : Listener Unit := fun env =>
  match assembleMsg env.nopoll msg with
  | none => pure ()
  | some preMsg => handleMsg preMsg.payload env

/-- The library calls the listener once for each frame it receives. -/
def receiveFrames (frames : List NoPollMsg) : Listener Unit :=
  frames.forM wssClientListenerOnMsg

end IotDeviceSdk.Tunnel
