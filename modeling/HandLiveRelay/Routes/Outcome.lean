import HandLiveRelay.Relay.Bus
import HandLiveRelay.Store.Devices
import HandLiveRelay.Store.Pairs

/-!
This module contains what the handlers of the HTTP API have in common: what a request leaves
behind, and the authentication of its caller.
-/

namespace HandLiveRelay

/--
The answer to a request that succeeds.
-/
inductive Reply where
  | created (createdAtMs : Int64)
  | ok (createdAtMs : Int64)
  | noContent
deriving DecidableEq

/--
What a request does after its database work. A failure of one of these is only logged.
-/
inductive Action where
  | addRevokedNotice (peer : Uuid) (statement : RevokeStatement)
  | notify (deviceId : Uuid) (msg : BusMessage)
  | delPresence (deviceId : Uuid)
deriving DecidableEq

/--
A call of `verifyStatement`: its arguments, and the database when it was made.
-/
structure VerifyCall where
  db : Db
  pairId : Uuid
  caller : Uuid
  callerIkSigPub : Bytes 32
  revokedAt : Option Int64
  sig : Option String
  nowMs : Int64

def VerifyCall.result (crypto : Crypto) (call : VerifyCall) : Except ApiError RevokeStatement :=
  verifyStatement crypto call.pairId call.caller call.callerIkSigPub call.revokedAt call.sig
    call.nowMs

/--
What a request leaves behind: the database, the answer, what is still to be done, and the calls of
`verifyStatement` that returned a statement.
-/
structure Outcome where
  db : Db
  reply : Except ApiError Reply
  actions : List Action
  verified : List VerifyCall

namespace Outcome

def refused (db : Db) (e : ApiError) : Outcome :=
  { db, reply := .error e, actions := [], verified := [] }

def accepted (db : Db) (r : Reply) (actions : List Action) : Outcome :=
  { db, reply := .ok r, actions, verified := [] }

end Outcome

namespace Routes

/--
The key of a registered device that is not revoked.
-/
def usableKey (found : Option Devices.DeviceKey) : Except ApiError (Bytes 32) :=
  match found with
  | none => .error .deviceNotFound
  | some key =>
    if key.revoked then
      .error .deviceRevoked
    else
      .ok key.ikSigPub

/--
The extractor of endpoints that require a token: the device the token was issued to has to be
registered still.
-/
def authenticate (db : Db) (caller : Uuid) : Except ApiError (Bytes 32) :=
  usableKey (Devices.findKey db caller)

/--
The verdict of a rate limit, `none` if the request passes.
-/
def checkLimit (limit : Option ApiError) : Except ApiError Unit :=
  match limit with
  | none => .ok ()
  | some e => .error e

end Routes
end HandLiveRelay
