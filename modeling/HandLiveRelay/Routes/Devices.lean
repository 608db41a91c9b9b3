import HandLiveRelay.Routes.Outcome

/-!
This module contains the handlers of `POST /v1/devices` and `DELETE /v1/devices/me`.
-/

namespace HandLiveRelay.Routes.Devices

open HandLiveRelay.Devices

/--
5 minutes between the clock of a device and the clock of the relay.
-/
def maxTsSkewMs : Int64 := 5 * 60 * 1000

def appVersionMaxChars : Nat := 32

structure RegisterRequest where
  deviceId : Uuid
  platform : String
  appVersion : String
  ikSigPub : String
  ts : Int64
  sig : String
deriving DecidableEq

variable (crypto : Crypto)

/--
Check shape, time and signature of a registration. Returns platform and public key.
-/
def verifyRegistration (req : RegisterRequest) (nowMs : Int64)
    : Except ApiError (Platform × Bytes 32) :=
  let chars := req.appVersion.length
  match Platform.ofStr? req.platform with
  | none => .error .badRequest
  | some platform =>
    if chars = 0 ∨ chars > appVersionMaxChars then
      .error .badRequest
    else do
      let ikSigPub ← B64u.decodeField 32 req.ikSigPub
      let sig ← B64u.decodeField 64 req.sig
      if (nowMs - req.ts).abs > maxTsSkewMs then
        .error .signatureInvalid
      else
        let msg := registrationMessage req.deviceId ikSigPub req.platform req.ts
        match verifyDeviceSignature crypto req.deviceId ikSigPub msg sig with
        | .ok () => .ok (platform, ikSigPub)
        | .error e => .error e

/--
The upsert changed nothing: the row is revoked, or holds another key.
-/
def rejectionReason (db : Db) (deviceId : Uuid) : ApiError :=
  match findKey db deviceId with
  | some key => if key.revoked then .deviceRevoked else .signatureInvalid
  | none => .signatureInvalid

/--
Register or refresh a device. `limit` is the verdict of the limits on new registrations, which
only a device that is not known yet has to pass.
-/
def register (db : Db) (nowMs : Int64) (limit : Option ApiError) (req : RegisterRequest)
    : Outcome :=
  match verifyRegistration crypto req nowMs with
  | .error e => .refused db e
  | .ok (platform, ikSigPub) =>
    let limited := if (findKey db req.deviceId).isNone then checkLimit limit else .ok ()
    match limited with
    | .error e => .refused db e
    | .ok () =>
      let new := { deviceId := req.deviceId, ikSigPub, platform, appVersion := req.appVersion }
      match upsert db new nowMs with
      | none => .refused db .internal
      | some (db', .created createdAtMs) => .accepted db' (.created createdAtMs) []
      | some (db', .updated createdAtMs) => .accepted db' (.ok createdAtMs) []
      | some (db', .rejected) => .refused db' (rejectionReason db' req.deviceId)

/--
What the relay still has to tell a peer of a deleted device: its statement now or when it next
connects, or silently that its pairs changed.
-/
def tellPeer : Uuid × Option RevokeStatement → List Action
  | (peer, some s) => [.addRevokedNotice peer s, .notify peer (.pairRevoked s)]
  | (peer, none) => [.notify peer .pairsChanged]

/--
What the check of `deleteWithPeers` returns: every peer to tell, with the statement made for it.
-/
def checkHeld (caller : Uuid) (ikSigPub : Bytes 32) (nowMs : Int64)
    (revocations : Option (List Revocation)) (held : List (Uuid × Uuid))
    : Except ApiError (List (Uuid × Option RevokeStatement)) :=
  match revocations with
  | some items => do
    let signed ← verifyRevocations crypto held items caller ikSigPub nowMs
    return signed.map fun (s, peer) => (peer, some s)
  | none => .ok (held.map fun (_, peer) => (peer, none))

/--
The calls of `verifyStatement` behind a check of held pairs that passed.
-/
def heldCalls (db : Db) (caller : Uuid) (ikSigPub : Bytes 32) (nowMs : Int64)
    (revocations : Option (List Revocation)) (held : List (Uuid × Uuid)) : List VerifyCall :=
  held.filterMap fun (pairId, _) => do
    let items ← revocations
    let item ← items.find? (·.pairId = pairId)
    return { db, pairId, caller, callerIkSigPub := ikSigPub, revokedAt := item.revokedAt
             sig := item.sig, nowMs }

/--
Remove the calling device from the relay. The body is read only if pairs are to be revoked, and is
an error if it is malformed.
-/
def deleteMe (db : Db) (nowMs : Int64) (caller : Uuid) (limit : Option ApiError)
    (revokePairs : Bool) (body : Except ApiError (List Revocation)) : Outcome :=
  match findKey db caller with
  | none => .accepted db .noContent []
  | some key =>
    if key.revoked then
      .refused db .deviceRevoked
    else
      let revocations : Except ApiError (Option (List Revocation)) := do
        checkLimit limit
        if revokePairs then
          let items ← body
          return some items
        else
          return none
      match revocations with
      | .error e => .refused db e
      | .ok revocations =>
        match deleteWithPeers db caller
            (checkHeld crypto caller key.ikSigPub nowMs revocations) with
        | (db', .error e) => .refused db' e
        | (db', .ok deleted) => {
            db := db'
            reply := .ok .noContent
            -- presence goes before the connection is closed, so that it announces nothing
            actions := deleted.flatMap tellPeer
              ++ [.delPresence caller, .notify caller (.close closeNormal)]
            verified := heldCalls db caller key.ikSigPub nowMs revocations (heldPairs db caller)
          }

end HandLiveRelay.Routes.Devices
