import HandLiveRelay.Lib.Fiber
import HandLiveRelay.Relay.Bandwidth
import HandLiveRelay.Relay.Bus
import HandLiveRelay.Relay.Rendezvous
import HandLiveRelay.Relay.Wire

/-!
This module contains the state of a relay connection, the operations its task asks for, and the
code that the handling of frames and of bus messages share. Every operation is one interaction with
Redis, the database, the hub, the clock or the socket, and other tasks may run between any two.
-/

namespace HandLiveRelay

open Fiber

/--
Why the loop of a connection ended.
-/
inductive End where
  /--
  The socket is gone, there is nothing more to send.
  -/
  | gone
  /--
  The device sent a close frame.
  -/
  | clientClosed
  | close (code : UInt16)
deriving DecidableEq

/--
A frame held back by the bandwidth limit.
-/
structure Pending where
  dest : Uuid
  bus : BusMessage
  bytes : Nat
  deadline : Rat

/--
What does not change about a connection: its device, its own id and the instance it is on.
-/
structure Ident where
  deviceId : Uuid
  connId : Uuid
  inst : InstanceId

/--
The state of a connection. `pairs` are the valid pairs with their peers, `peers` the devices it may
exchange frames with. `lastRx` is when the device was last heard of.
-/
structure Conn where
  pairs : List (Uuid × Uuid)
  peers : List Uuid
  buckets : Uuid → Option TokenBucket
  pending : Option Pending
  lastMissReload : Option Rat
  lastRx : Rat

def Conn.new : Conn where
  pairs := []
  peers := []
  buckets := fun _ => none
  pending := none
  lastMissReload := none
  lastRx := 0

/--
What the hub hands to a connection.
-/
inductive Delivery where
  | bus (msg : BusMessage)
  /--
  Redis came back after a loss.
  -/
  | resync
deriving DecidableEq

/--
How a write to the socket ended: done, the session is closed, or stuck past the timeout.
-/
inductive Written where
  | ok
  | closed
  | timeout
deriving DecidableEq

/--
The operations a connection asks for.
-/
inductive Op where
  /--
  Tell the connection that was registered before, `previous.tx.send(..)`.
  -/
  | tellPrevious (connId : Uuid)
  | subscribe
  /--
  Wait for the answer to `subscribe`.
  -/
  | subscribed
  | unregister
  | unsubscribe
  | publish (dest : Uuid) (msg : BusMessage)
  /--
  Count the bytes of a message that was taken from the queue, `queued.fetch_sub(..)`.
  -/
  | fetchSub (len : Nat)
  | claim
  | refresh
  | release
  | online (devices : List Uuid)
  | takeRevokedNotices
  | rvJoin (rvId : String)
  | rvMembers (rvId : String)
  | activePeers
  | recentlyRevoked
  | addEnvelope (bytes : Nat)
  | now
  | sendText (text : String)
  | sendBinary (frame : List UInt8)
  | ping
  | pong (bytes : List UInt8)
  | closeSocket (code : UInt16)
deriving DecidableEq

/--
The answer to an operation. `none` is an error of Redis or of the database.
-/
abbrev Op.Res : Op → Type
  | tellPrevious _ | subscribe | unsubscribe | fetchSub _ | addEnvelope _ | closeSocket _ => Unit
  | subscribed | unregister => Bool
  | publish _ _ => Option Nat
  | claim => Option Unit
  | refresh | release => Option Bool
  | online _ => Option (List Bool)
  | takeRevokedNotices | recentlyRevoked => Option (List RevokeStatement)
  | rvJoin _ => Option Rendezvous.Join
  | rvMembers _ => Option (List Uuid)
  | activePeers => Option (List (Uuid × Uuid))
  | now => Rat
  | sendText _ | sendBinary _ | ping | pong _ => Written

/--
The parsers that `serde_json` provides for what a device sends.
-/
structure Serde where
  parseInbound : String → Option Wire.Inbound
  parseEnvHead : String → Option Rendezvous.EnvHead
  parsePairPayloadHead : List UInt8 → Option Rendezvous.PairPayloadHead

/--
The settings of an instance that its connections and its hub use, times in seconds.
-/
structure Settings where
  idleTimeout : Rat
  pairBandwidthBytesPerSec : Nat
  maxQueuedBytes : Nat

abbrev ConnCode := Code Conn Op Op.Res

def ask (o : Op) : ConnCode o.Res := Code.perform o

@[simp]
theorem start_ask (o : Op) (s : Conn) : (ask o).start s = .wait s o (fun r => .done s r) := rfl

namespace Conn

/--
The outcome of a bounded write: why the connection has to end, if it has to.
-/
def written : Written → Option End
  | .ok => none
  | .closed => some .gone
  | .timeout => some (.close closeInternal)

def sendText (text : String) : ConnCode (Option End) := do
  let r ← ask (.sendText text)
  return written r

def sendBinary (frame : List UInt8) : ConnCode (Option End) := do
  let r ← ask (.sendBinary frame)
  return written r

/--
Write one text after the other until one fails.
-/
def sendTexts : List String → ConnCode (Option End)
  | [] => return none
  | text :: texts => do
    let failed ← sendText text
    match failed with
    | some e => return some e
    | none => sendTexts texts

/--
Send the `error` op. A failed write ends the connection.
-/
def sendError (err : Wire.RelayError) (dest : Option Uuid) : ConnCode (Option End) :=
  sendText (Wire.errorMessage err dest)

/--
The state after the valid pairs were read again.
-/
def withPairs (s : Conn) (pairs : List (Uuid × Uuid)) : Conn :=
  let peers := pairs.map (·.2)
  { s with
    pairs
    peers
    buckets := fun peer => if peer ∈ peers then s.buckets peer else none }

/--
Reload the valid pairs from the database, `false` on a database error.
-/
def reloadPeers : ConnCode Bool := do
  let r ← ask .activePeers
  match r with
  | some pairs =>
    Code.modify (·.withPairs pairs)
    return true
  | none => return false

/--
The least time between two reloads caused by an unknown peer.
-/
def missReloadGap : Rat := 1

/--
Whether `peer` may exchange frames with this device. The pairs are reloaded, at most once a second,
when it is unknown.
-/
def isPeer (peer : Uuid) : ConnCode Bool := do
  let s ← Code.get
  if peer ∈ s.peers then
    return true
  else
    let now ← ask .now
    if s.lastMissReload.any (fun t => now - t < missReloadGap) then
      return false
    else
      Code.modify fun s => { s with lastMissReload := some now }
      let reloaded ← reloadPeers
      let s ← Code.get
      return reloaded && decide (peer ∈ s.peers)

/--
The online state of the peers of `pairs`, offline when Redis fails.
-/
def peerPresence (pairs : List (Uuid × Uuid)) : ConnCode (List Bool) := do
  let peers := pairs.map (·.2)
  -- an empty list of devices is answered without a command
  if peers = [] then
    return []
  else
    let r ← ask (.online peers)
    return r.getD (peers.map fun _ => false)

/--
The `presence` texts about the peers of `pairs`.
-/
def presenceTexts (pairs : List (Uuid × Uuid)) (online : List Bool) : List String :=
  List.zipWith (fun p b => Wire.presenceMessage p.1 p.2 b) pairs online

/--
Renew presence. A newer connection elsewhere means that this one is stale.
-/
def refreshPresence : ConnCode (Option End) := do
  let r ← ask .refresh
  match r with
  | some true => return none
  | some false => return some (.close closeReplaced)
  | none => return none

/--
Tell every peer of `pairs` that the device `deviceId` came online or went offline.
-/
def announceTo (deviceId : Uuid) (online : Bool) : List (Uuid × Uuid) → ConnCode Unit
  | [] => return ()
  | (pairId, peer) :: pairs => do
    let _ ← ask (.publish peer (.control (Wire.presenceMessage pairId deviceId online)))
    announceTo deviceId online pairs

def announce (me : Ident) (online : Bool) : ConnCode Unit := do
  let s ← Code.get
  announceTo me.deviceId online s.pairs

end Conn
end HandLiveRelay
