import HandLiveRelay.Relay.Conn

/-!
This module contains the handling of the frames a device sends: routing wrappers, `HR` frames and
the `rv_join` and `rv_msg` control messages.
-/

namespace HandLiveRelay.Conn

open Fiber Wire

/--
Publish a forwarded frame. Nobody subscribed means that the peer is not connected.
-/
def publishForward (p : Pending) : ConnCode (Option End) := do
  let r ← ask (.publish p.dest p.bus)
  match r with
  | some 0 => sendError .notConnected (some p.dest)
  | some _ =>
    ask (.addEnvelope p.bytes)
    return none
  | none => sendError .notConnected (some p.dest)

variable (settings : Settings) (serde : Serde) (me : Ident)

/--
Check the pair, then publish now or after the bandwidth wait.
-/
def forward (dest : Uuid) (bus : BusMessage) (bytes : Nat) : ConnCode (Option End) := do
  let peer ← isPeer dest
  if !peer then
    sendError .notPaired (some dest)
  else
    let now ← ask .now
    let s ← Code.get
    let bucket := (s.buckets dest).getD (TokenBucket.new settings.pairBandwidthBytesPerSec now)
    let (bucket, wait) := bucket.take bytes now
    Code.modify fun s => { s with buckets := Function.update s.buckets dest (some bucket) }
    let pending := { dest, bus, bytes, deadline := now + wait }
    if wait = 0 then
      publishForward pending
    else
      Code.modify fun s => { s with pending := some pending }
      return none

def notifyOthers (text : String) : List Uuid → ConnCode (Option End)
  | [] => return none
  | other :: others => do
    let _ ← ask (.publish other (.control text))
    notifyOthers text others

def rvJoin (rvId : Option String) : ConnCode (Option End) :=
  match rvId.bind Rendezvous.canonicalRvId with
  | none => sendError .badRequest none
  | some rvId => do
    let joined ← ask (.rvJoin rvId)
    match joined with
    | none => sendError .notConnected none
    | some .full => sendError .badRequest none
    | some (.joined newly members) =>
      let peerPresent := members.length = 2
      let failed ← sendText (rvJoinedMessage rvId peerPresent)
      match failed with
      | some e => return some e
      | none =>
        let others := if peerPresent ∧ newly then members.filter (· ≠ me.deviceId) else []
        notifyOthers (rvJoinedMessage rvId true) others

def rvMsg (rvId : Option String) (env : Option String) : ConnCode (Option End) :=
  match rvId.bind Rendezvous.canonicalRvId, env with
  | some rvId, some env =>
    if !isObject env
        || !Rendezvous.rendezvousAllows serde.parseEnvHead serde.parsePairPayloadHead env then
      sendError .badRequest none
    else do
      let members ← ask (.rvMembers rvId)
      match members with
      | none => sendError .notConnected none
      | some members =>
        if me.deviceId ∉ members then
          sendError .badRequest none
        else
          match members.find? (· ≠ me.deviceId) with
          | none => sendError .notConnected none
          | some other =>
            let r ← ask (.publish other (.control (rvMsgMessage rvId env)))
            match r with
            | some 0 => sendError .notConnected none
            | some _ => return none
            | none => sendError .notConnected none
  | _, _ => sendError .badRequest none

def handleText (text : String) : ConnCode (Option End) :=
  match serde.parseInbound text with
  | none => sendError .badRequest none
  | some inbound =>
    let oversize := text.utf8ByteSize > maxFrameBytes
    match inbound.op with
    | some op =>
      if op = "rv_join" ∨ op = "rv_msg" then
        if oversize then
          sendError .payloadTooLarge none
        else if op = "rv_join" then
          rvJoin me inbound.rvId
        else
          rvMsg serde me inbound.rvId inbound.env
      else
        sendError .badRequest none
    | none =>
      match inbound.dest, inbound.env with
      | some dest, some env =>
        if isDeviceId dest ∧ isObject env then
          if oversize then
            sendError .payloadTooLarge (some dest)
          else
            let bus := .forwardText me.deviceId (forwardedText me.deviceId env)
            forward settings dest bus text.utf8ByteSize
        else
          -- a malformed wrapper never echoes its destination
          sendError .badRequest none
      | _, _ => sendError .badRequest none

def handleBinary (frame : List UInt8) : ConnCode (Option End) :=
  match (parseHr frame).filter isDeviceId with
  | none => sendError .badRequest none
  | some dest =>
    if frame.length > maxFrameBytes then
      sendError .payloadTooLarge (some dest)
    else
      let bus := .forwardBinary me.deviceId (rewriteHr frame me.deviceId)
      forward settings dest bus frame.length

end HandLiveRelay.Conn
