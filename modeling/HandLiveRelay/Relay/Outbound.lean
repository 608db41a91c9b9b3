import HandLiveRelay.Relay.Conn

/-!
This module contains the handling of the messages for the device of a connection.
-/

namespace HandLiveRelay.Conn

open Fiber

/--
Reload the pairs and send `presence` for each pair that appeared.
-/
def pairsChanged : ConnCode (Option End) := do
  let s ← Code.get
  let before := s.pairs.map (·.1)
  let reloaded ← reloadPeers
  if !reloaded then
    return none
  else
    let s ← Code.get
    let added := s.pairs.filter fun p => p.1 ∉ before
    let online ← peerPresence added
    sendTexts (presenceTexts added online)

/--
After Redis lost its data: claim presence again and reload the pairs.
-/
def resync : ConnCode (Option End) := do
  let stale ← refreshPresence
  match stale with
  | some e => return some e
  | none =>
    let _ ← reloadPeers
    return none

def onDelivery (me : Ident) : Delivery → ConnCode (Option End)
  | .resync => resync
  -- A frame from a device that is not a valid peer is dropped: the pair check holds on both ends.
  | .bus (.forwardText source text) => do
    let peer ← isPeer source
    if !peer then
      return none
    else
      sendText text
  | .bus (.forwardBinary source frame) => do
    let peer ← isPeer source
    if !peer then
      return none
    else
      sendBinary frame
  | .bus (.control text) => sendText text
  | .bus (.pairRevoked statement) => do
    let _ ← reloadPeers
    sendText (Wire.pairRevokedMessage statement)
  | .bus .pairsChanged => pairsChanged
  | .bus (.replace connId) =>
    if connId ≠ me.connId then
      return some (.close closeReplaced)
    else
      return none
  | .bus (.close code) => return some (.close code)

end HandLiveRelay.Conn
