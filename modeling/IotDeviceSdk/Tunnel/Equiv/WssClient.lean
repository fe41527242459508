import IotDeviceSdk.Tunnel.WssClient

/-!
# Reassembly of tunnel messages

A message arrives in one frame or in several.  `Receives` is a run of the listener over frames, with
what each call hands to the handling; over a run of messages that should be nothing for each frame
but the last of a message and the whole content at the last (`Reassembles`).

The listener forgets the fragments of the calls before, so what it handles is the last fragment
(`receiveFrames_messages`), and the handling compares texts of the message that may be missing: a
run reassembles exactly when the fragments before the last one are empty and the texts are there
(`reassembles_iff`).
-/

namespace IotDeviceSdk.Tunnel

open Prog

/-- A message as it is sent: in one frame, or as a first, any number of continuation and a final
frame. -/
inductive TunnelMessage where
  | whole (content : List UInt8)
  | fragmented (first : List UInt8) (continuation : List (List UInt8)) (final : List UInt8)

namespace TunnelMessage

/-- The fragments before the last one. -/
def earlier : TunnelMessage → List (List UInt8)
  | whole _ => []
  | fragmented first continuation _ => first :: continuation

/-- The last fragment, which is the content of a message that is not fragmented. -/
def last : TunnelMessage → List UInt8
  | whole content => content
  | fragmented _ _ final => final

/-- The content: all fragments in order. -/
def content (m : TunnelMessage) : List UInt8 := m.earlier.flatten ++ m.last

/-- The frame of a message that carries its last fragment. -/
def lastFrame : TunnelMessage → NoPollMsg
  | whole content => ⟨content, false, true⟩
  | fragmented _ _ final => ⟨final, true, true⟩

/-- The frames of a message. -/
def frames (m : TunnelMessage) : List NoPollMsg :=
  m.earlier.map (fun fragment => ⟨fragment, true, false⟩) ++ [m.lastFrame]

/-- What is to be handled at each of the frames. -/
def handlings (m : TunnelMessage) : List (Option (List UInt8)) :=
  m.earlier.map (fun _ => none) ++ [some m.content]

/-- All fragments but the last are empty. -/
def OnlyLast (m : TunnelMessage) : Prop := ∀ fragment ∈ m.earlier, fragment = []

theorem content_eq_last_iff {m : TunnelMessage} : m.last = m.content ↔ m.OnlyLast := by
  rw [content, List.self_eq_append_left, List.flatten_eq_nil_iff, OnlyLast]

end TunnelMessage

/-- The content a call of the listener hands to the handling. -/
def handledContent (nopoll : NoPoll) (msg : NoPollMsg) : Option (List UInt8) :=
  (assembleMsg nopoll msg).map NoPollMsg.payload

/-- A run of the listener over frames, all of whose calls are defined, with what is handled in each
of them. -/
inductive Receives (env : TunnelEnv) :
    List TunnelCall → List NoPollMsg → List (Option (List UInt8)) → List TunnelCall → Prop
  | nil {calls : List TunnelCall} : Receives env calls [] [] calls
  | cons {calls calls₁ calls' : List TunnelCall} {msg : NoPollMsg} {frames : List NoPollMsg}
    {handlings : List (Option (List UInt8))}
    (hmsg : wssClientListenerOnMsg msg env calls = some ((), calls₁))
    (hframes : Receives env calls₁ frames handlings calls') :
    Receives env calls (msg :: frames) (handledContent env.nopoll msg :: handlings) calls'

/-- **Reassembly**: the listener gets through the frames, with one handling for each message, at its
last frame, of its whole content. -/
def Reassembles (env : TunnelEnv) (messages : List TunnelMessage) : Prop :=
  ∀ calls, ∃ calls', Receives env calls (messages.flatMap TunnelMessage.frames)
    (messages.flatMap TunnelMessage.handlings) calls'

/-- What the handling compares is there: the service type of the message, when its content can be
parsed, and for the service `ssh` its operation type. -/
def Comparable (env : TunnelEnv) (content : List UInt8) : Prop :=
  ∀ root ∈ env.parseJson (cString content),
    ∃ serviceType, jsonGetStringFromObject (some root) "tunnel_service_type" none =
        some serviceType ∧
      (serviceType = "ssh" →
        (jsonGetStringFromObject (some root) "operation_type" none).isSome)

/-! ### One call -/

/-- A call knows of no frame but its own. -/
theorem handledContent_eq (nopoll : NoPoll) (msg : NoPollMsg) :
    handledContent nopoll msg =
      if msg.isFragment && !msg.isFinal then none else some msg.payload := by
  obtain ⟨joined, hjoined, hpayload⟩ := nopoll.msgJoin_payload none msg
  have hown : joined.payload = msg.payload := hpayload
  unfold handledContent assembleMsg
  cases msg.isFragment <;> cases msg.isFinal <;> simp [hjoined, hown]

theorem wssClientListenerOnMsg_eq (env : TunnelEnv) (msg : NoPollMsg) :
    wssClientListenerOnMsg msg env =
      match handledContent env.nopoll msg with
      | none => (pure () : Listener Unit) env
      | some content => handleMsg content env := by
  unfold wssClientListenerOnMsg handledContent
  cases assembleMsg env.nopoll msg <;> rfl

/-! ### One message -/

theorem handledContent_earlier (nopoll : NoPoll) (fragment : List UInt8) :
    handledContent nopoll ⟨fragment, true, false⟩ = none := by
  rw [handledContent_eq]
  rfl

theorem handledContent_lastFrame (nopoll : NoPoll) (m : TunnelMessage) :
    handledContent nopoll m.lastFrame = some m.last := by
  rw [handledContent_eq]
  cases m <;> rfl

/-- The calls for one message handle its last fragment, at the last frame. -/
theorem handledContent_frames (nopoll : NoPoll) (m : TunnelMessage) :
    m.frames.map (handledContent nopoll) = m.earlier.map (fun _ => none) ++ [some m.last] := by
  have hearlier : handledContent nopoll ∘ (fun fragment => ⟨fragment, true, false⟩) =
      fun _ => none := by
    ext1 fragment
    exact handledContent_earlier nopoll fragment
  rw [TunnelMessage.frames, List.map_append, List.map_map, hearlier, List.map_singleton,
    handledContent_lastFrame]

theorem handledContent_frames_eq_handlings (nopoll : NoPoll) {m : TunnelMessage} :
    m.frames.map (handledContent nopoll) = m.handlings ↔ m.OnlyLast := by
  rw [handledContent_frames, TunnelMessage.handlings, List.append_cancel_left_eq,
    List.singleton_inj, Option.some_inj]
  exact TunnelMessage.content_eq_last_iff

theorem receiveFrames_append (frames frames' : List NoPollMsg) :
    receiveFrames (frames ++ frames') = receiveFrames frames >>= fun _ => receiveFrames frames' :=
  List.forM_append

/-- The calls for the fragments before the last do nothing. -/
theorem receiveFrames_earlier (fragments : List (List UInt8)) :
    receiveFrames (fragments.map fun fragment => ⟨fragment, true, false⟩) = pure () := by
  induction fragments with
  | nil => rfl
  | cons fragment fragments ih =>
    show (wssClientListenerOnMsg ⟨fragment, true, false⟩ >>= fun _ => receiveFrames _) = pure ()
    have hskip : wssClientListenerOnMsg ⟨fragment, true, false⟩ = pure () := by
      funext env
      rw [wssClientListenerOnMsg_eq, handledContent_earlier]
    rw [hskip, pure_bind, ih]

theorem receiveFrames_message (m : TunnelMessage) :
    receiveFrames m.frames = handleMsg m.last := by
  have hlast : wssClientListenerOnMsg m.lastFrame = handleMsg m.last := by
    funext env
    rw [wssClientListenerOnMsg_eq, handledContent_lastFrame]
  rw [TunnelMessage.frames, receiveFrames_append, receiveFrames_earlier, pure_bind]
  show (wssClientListenerOnMsg m.lastFrame >>= fun _ => pure ()) = _
  rw [bind_pure, hlast]

/-! ### Runs -/

/-- **What the listener does**: over any run of messages it handles the last fragment of each. -/
theorem receiveFrames_messages (messages : List TunnelMessage) :
    receiveFrames (messages.flatMap TunnelMessage.frames) =
      messages.forM fun m => handleMsg m.last := by
  induction messages with
  | nil => rfl
  | cons m messages ih =>
    rw [List.flatMap_cons, receiveFrames_append, receiveFrames_message, ih]
    rfl

/-- A run over frames is one of `receiveFrames`, and what is handled is determined by the frames. -/
theorem receives_iff {env : TunnelEnv} {calls calls' : List TunnelCall} {frames : List NoPollMsg}
    {handlings : List (Option (List UInt8))} :
    Receives env calls frames handlings calls' ↔
      handlings = frames.map (handledContent env.nopoll) ∧
        receiveFrames frames env calls = some ((), calls') := by
  constructor
  · intro h
    induction h with
    | nil => exact ⟨rfl, rfl⟩
    | cons hmsg _ ih =>
      obtain ⟨rfl, hframes⟩ := ih
      exact ⟨rfl, bind_eq_some.mpr ⟨(), _, hmsg, hframes⟩⟩
  · rintro ⟨rfl, hrun⟩
    induction frames generalizing calls with
    | nil =>
      obtain ⟨-, rfl⟩ := Prod.mk.inj (Option.some.inj hrun)
      exact .nil
    | cons msg frames ih =>
      obtain ⟨⟨⟩, calls₁, hmsg, hframes⟩ := bind_eq_some.mp hrun
      exact .cons hmsg (ih hframes)

theorem handlings_eq_iff (nopoll : NoPoll) (messages : List TunnelMessage) :
    messages.flatMap TunnelMessage.handlings =
        (messages.flatMap TunnelMessage.frames).map (handledContent nopoll) ↔
      ∀ m ∈ messages, m.OnlyLast := by
  induction messages with
  | nil => simp
  | cons m messages ih =>
    have hlength : m.handlings.length = (m.frames.map (handledContent nopoll)).length := by
      simp [TunnelMessage.frames, TunnelMessage.handlings]
    rw [List.flatMap_cons, List.flatMap_cons, List.map_append, List.forall_mem_cons, ← ih,
      ← handledContent_frames_eq_handlings nopoll]
    constructor
    · intro h
      obtain ⟨hm, hmessages⟩ := List.append_inj h hlength
      exact ⟨hm.symm, hmessages⟩
    · rintro ⟨hm, hmessages⟩
      rw [hm, hmessages]

theorem call_returns {env : TunnelEnv} (c : TunnelCall) : Returns env (call c) fun _ => True :=
  fun calls => ⟨(), calls ++ [c], rfl, trivial⟩

theorem strcmpEq_returns {env : TunnelEnv} {text : Option String} (htext : text ≠ none)
    (literal : String) :
    Returns env (strcmpEq text literal) fun b => b = true ↔ text = some literal := by
  unfold strcmpEq
  refine Returns.bind (ofOption_returns htext) fun t ht => returns_pure ?_
  subst ht
  simp

/-- The handling is defined when what it compares is there. -/
theorem handleMsg_returns {env : TunnelEnv} {content : List UInt8} (h : Comparable env content) :
    Returns env (handleMsg content) fun _ => True := by
  unfold Comparable at h
  cases hparse : env.parseJson (cString content) with
  | none =>
    intro calls
    refine ⟨(), calls, ?_, trivial⟩
    unfold handleMsg
    rw [hparse]
    rfl
  | some root =>
    obtain ⟨serviceType, hservice, htype⟩ := h root hparse
    intro calls
    unfold handleMsg
    rw [hparse]
    dsimp only
    have hssh : Returns env (strcmpEq (jsonGetStringFromObject (some root) "tunnel_service_type"
        none) "ssh") fun b => b = true ↔ serviceType = "ssh" := by
      rw [hservice]
      refine (strcmpEq_returns (Option.some_ne_none serviceType) "ssh").mono fun b hb => ?_
      rw [hb, Option.some_inj]
    refine hssh.bind (Q := fun _ => True) (fun isSsh hisSsh => ?_) calls
    cases isSsh with
    | false => exact returns_pure trivial
    | true =>
      have hop := Option.isSome_iff_ne_none.mp (htype (hisSsh.mp rfl))
      refine (strcmpEq_returns hop "connect").bind fun isConnect _ => ?_
      cases isConnect with
      | true =>
        refine (call_returns _).bind fun _ _ => (call_returns _).bind fun _ _ => ?_
        split
        · exact call_returns _
        · exact returns_pure trivial
      | false =>
        refine (strcmpEq_returns hop "command").bind fun isCommand _ => ?_
        cases isCommand with
        | true => exact call_returns _
        | false => exact returns_pure trivial

/-- The handling is undefined when a text that it compares is missing. -/
theorem comparable_of_handleMsg {env : TunnelEnv} {content : List UInt8}
    {calls calls' : List TunnelCall} (h : handleMsg content env calls = some ((), calls')) :
    Comparable env content := by
  intro root hparse
  unfold handleMsg at h
  rw [Option.mem_def.mp hparse] at h
  dsimp only at h
  cases hservice : jsonGetStringFromObject (some root) "tunnel_service_type" none with
  | none =>
    rw [hservice] at h
    cases h
  | some serviceType =>
    refine ⟨serviceType, rfl, fun hssh => ?_⟩
    subst hssh
    rw [hservice] at h
    cases htype : jsonGetStringFromObject (some root) "operation_type" none with
    | none =>
      rw [htype] at h
      cases h
    | some opType => rfl

/-- A run over messages is defined exactly when the handling of each of them is. -/
theorem receiveFrames_defined_iff (env : TunnelEnv) (messages : List TunnelMessage)
    (calls : List TunnelCall) :
    (∃ calls', receiveFrames (messages.flatMap TunnelMessage.frames) env calls =
        some ((), calls')) ↔ ∀ m ∈ messages, Comparable env m.last := by
  rw [receiveFrames_messages]
  induction messages generalizing calls with
  | nil => exact iff_of_true ⟨calls, rfl⟩ (by simp)
  | cons m messages ih =>
    rw [List.forall_mem_cons]
    constructor
    · rintro ⟨calls', hrun⟩
      obtain ⟨⟨⟩, calls₁, hm, hmessages⟩ := bind_eq_some.mp hrun
      exact ⟨comparable_of_handleMsg hm, (ih calls₁).mp ⟨calls', hmessages⟩⟩
    · rintro ⟨hm, hmessages⟩
      obtain ⟨⟨⟩, calls₁, hrun, -⟩ := handleMsg_returns hm calls
      obtain ⟨calls', hrest⟩ := (ih calls₁).mpr hmessages
      exact ⟨calls', bind_eq_some.mpr ⟨(), calls₁, hrun, hrest⟩⟩

/-- **Exactly the messages whose content is all in their last fragment are reassembled**, when the
handling of their content finds the texts that it compares. -/
theorem reassembles_iff (env : TunnelEnv) (messages : List TunnelMessage) :
    Reassembles env messages ↔ ∀ m ∈ messages, m.OnlyLast ∧ Comparable env m.content := by
  have hlast : (∀ m ∈ messages, m.OnlyLast ∧ Comparable env m.content) ↔
      (∀ m ∈ messages, m.OnlyLast) ∧ ∀ m ∈ messages, Comparable env m.last := by
    rw [← forall₂_and]
    refine forall₂_congr fun m _ => and_congr_right fun hlast => ?_
    rw [TunnelMessage.content_eq_last_iff.mpr hlast]
  rw [hlast, ← handlings_eq_iff env.nopoll]
  unfold Reassembles
  constructor
  · intro h
    obtain ⟨calls', hreceives⟩ := h []
    obtain ⟨hhandlings, hrun⟩ := receives_iff.mp hreceives
    exact ⟨hhandlings, (receiveFrames_defined_iff env messages []).mp ⟨calls', hrun⟩⟩
  · rintro ⟨hhandlings, hcomparable⟩ calls
    obtain ⟨calls', hrun⟩ := (receiveFrames_defined_iff env messages calls).mpr hcomparable
    exact ⟨calls', receives_iff.mpr ⟨hhandlings, hrun⟩⟩

/-- A library that joins two messages into one with the flags of the first. -/
def NoPoll.concatenating : NoPoll where
  msgJoin preMsg msg :=
    match preMsg, msg with
    | none, msg => msg
    | some preMsg, none => some preMsg
    | some preMsg, some msg => some { preMsg with payload := preMsg.payload ++ msg.payload }
  msgJoin_payload preMsg msg := by
    cases preMsg with
    | none => exact ⟨msg, rfl, rfl⟩
    | some preMsg => exact ⟨_, rfl, rfl⟩

/-- A tunnel whose messages are of the type `file`: of the texts it meets only the whole one can be
parsed. -/
def TunnelEnv.ofFile : TunnelEnv where
  nopoll := NoPoll.concatenating
  parseJson text :=
    if text = ascii "\x7b\"tunnel_service_type\":\"file\"\x7d" then
      some (.object [("tunnel_service_type", .string "file")])
    else none
  sshClientCreate _ := 0

/-- A message in two frames, cut before its last four bytes: only these are handled. -/
theorem reassembles_two_frames_false :
    ¬Reassembles TunnelEnv.ofFile
      [.fragmented (ascii "\x7b\"tunnel_service_type\":\"fi") [] (ascii "le\"\x7d")] := by
  intro h
  obtain ⟨calls', hreceives⟩ := h []
  have hhandlings := (receives_iff.mp hreceives).1
  exact absurd hhandlings (by decide)

end IotDeviceSdk.Tunnel
