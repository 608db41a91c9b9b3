import HandLiveRelay.Relay.Inbound
import HandLiveRelay.Relay.Outbound

/-!
This module contains the life of a connection: opening, the branches of its event loop and the
cleanup.
-/

namespace HandLiveRelay

open Fiber

/--
A message from the device.
-/
inductive ClientMessage where
  | text (text : String)
  | binary (frame : List UInt8)
  | ping (bytes : List UInt8)
  | pong (bytes : List UInt8)
  | close
deriving DecidableEq

/--
What the event loop of a connection wakes up for.
-/
inductive Event where
  | kill
  | delivery (d : Delivery)
  /--
  Every sender to the queue is gone.
  -/
  | hungUp
  /--
  The wait of the frame that is held back is over.
  -/
  | deadline
  | client (msg : ClientMessage)
  /--
  The stream of the device ended.
  -/
  | clientGone
  /--
  The stream of the device broke the protocol.
  -/
  | clientError
  | ping
  | refresh
deriving DecidableEq

/--
What a task does when the code it runs is done: wait for the next event, clean up, or stop.
-/
inductive Next where
  | serve
  | finish (e : End)
  | stop
deriving DecidableEq

/--
What a connection is doing.
-/
inductive Stage where
  | opening
  | handling (e : Event)
  | finishing (e : End)
deriving DecidableEq

def Next.ofEnd? : Option End → Next
  | none => serve
  | some e => finish e

namespace Conn

/--
The revocations the device may not know of: those the database still has and those of deleted
pairs, which are taken from Redis. Then the peers are told.
-/
def sendRevoked (me : Ident) : ConnCode (Option UInt16) := do
  let revoked ← ask .recentlyRevoked
  let notices ← ask .takeRevokedNotices
  let statements := revoked.getD [] ++ notices.getD []
  let failed ← sendTexts (statements.map Wire.pairRevokedMessage)
  match failed with
  | some _ => return some closeInternal
  | none =>
    announce me true
    return none

/--
The messages that open a connection.
-/
def sendOpening (me : Ident) : ConnCode (Option UInt16) := do
  let reloaded ← reloadPeers
  if !reloaded then
    return some closeInternal
  else
    let s ← Code.get
    let online ← peerPresence s.pairs
    let failed ← sendTexts (presenceTexts s.pairs online)
    match failed with
    | some _ => return some closeInternal
    | none => sendRevoked me

/--
Subscribe, take over from older connections, publish presence and send the opening messages.
Returns the code to close with if one of them fails.
-/
def openConn (me : Ident) : ConnCode (Option UInt16) := do
  ask .subscribe
  let subscribed ← ask .subscribed
  if !subscribed then
    return some closeInternal
  else
    -- Presence first: an older connection on another instance that is told to close then finds
    -- the presence taken and stays silent.
    let claimed ← ask .claim
    match claimed with
    | none => return some closeInternal
    | some () =>
      let published ← ask (.publish me.deviceId (.replace me.connId))
      match published with
      | none => return some closeInternal
      | some _ => sendOpening me

def tellPrevious : Option Uuid → ConnCode Unit
  | some connId => ask (.tellPrevious connId)
  | none => return ()

/--
What `run` does up to its event loop: tell the connection that was registered before, and open.
-/
def start (me : Ident) (previous : Option Uuid) : ConnCode Next := do
  tellPrevious previous
  let failed ← openConn me
  match failed with
  | some code => return .finish (.close code)
  | none =>
    let now ← ask .now
    Code.modify fun s => { s with lastRx := now }
    return .serve

variable (settings : Settings) (serde : Serde) (me : Ident)

def onClientMessage : ClientMessage → ConnCode (Option End)
  | .text text => handleText settings serde me text
  | .binary frame => handleBinary settings me frame
  | .ping bytes => do
    let r ← ask (.pong bytes)
    return written r
  | .pong _ => return none
  | .close => return some .clientClosed

/--
A bus message that was taken from the queue no longer counts for the limit.
-/
def uncount : Delivery → ConnCode Unit
  | .bus msg => ask (.fetchSub msg.queuedLen)
  | .resync => return ()

/--
One turn of the event loop: the branch of an event.
-/
def onEvent : Event → ConnCode (Option End)
  | .kill => return some (.close closeInternal)
  | .delivery d => do
    uncount d
    onDelivery me d
  | .hungUp => return some (.close closeInternal)
  | .deadline => do
    let s ← Code.get
    match s.pending with
    | some p =>
      Code.modify fun s => { s with pending := none }
      publishForward p
    | none => return none
  | .client msg => do
    let now ← ask .now
    Code.modify fun s => { s with lastRx := now }
    onClientMessage settings serde me msg
  | .clientGone => do
    let now ← ask .now
    Code.modify fun s => { s with lastRx := now }
    return some .gone
  | .clientError => do
    let now ← ask .now
    Code.modify fun s => { s with lastRx := now }
    return some (.close closeBadRequest)
  | .ping => do
    let now ← ask .now
    let s ← Code.get
    if now - s.lastRx ≥ settings.idleTimeout then
      return some (.close closeIdle)
    else
      let r ← ask .ping
      return written r
  | .refresh => refreshPresence

def serve (e : Event) : ConnCode Next := do
  let failed ← onEvent settings serde me e
  return .ofEnd? failed

/--
Leave the registry, drop presence if it is still ours and tell the peers.
-/
def leave : ConnCode Unit := do
  let current ← ask .unregister
  if !current then
    return ()
  else
    ask .unsubscribe
    let released ← ask .release
    if released = some true then
      announce me false
    else
      return ()

/--
Close the socket with the code for the reason the loop ended.
-/
def closeSocket : End → ConnCode Unit
  | .gone => return ()
  | .clientClosed => ask (.closeSocket closeNormal)
  | .close code => ask (.closeSocket code)

def finish (e : End) : ConnCode Next := do
  leave me
  closeSocket e
  return .stop

end Conn
end HandLiveRelay
