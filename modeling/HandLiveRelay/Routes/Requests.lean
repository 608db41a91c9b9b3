import HandLiveRelay.Lib.Lts
import HandLiveRelay.Routes.Devices
import HandLiveRelay.Routes.Pairs

/-!
This module contains the requests of all devices as steps of the database, each one atomic, and
the daily cleanup next to them.
-/

namespace HandLiveRelay

/--
A request with the verdict of its rate limit. The caller of a request that needs a token is the
device the token was issued to.
-/
inductive Request where
  | registerDevice (limit : Option ApiError) (req : Routes.Devices.RegisterRequest)
  | registerPair (caller : Uuid) (limit : Option ApiError) (req : Routes.Pairs.PairRequest)
  | revokePair (caller : Uuid) (limit : Option ApiError) (path : String) (req : RevokeRequest)
  | deleteMe (caller : Uuid) (limit : Option ApiError) (revokePairs : Bool)
      (body : Except ApiError (List Revocation))
  /--
  A token was issued, which counts as a sign of life.
  -/
  | token (deviceId : Uuid)
  | cleanup

namespace Request

variable (crypto : Crypto)

def handle (db : Db) (nowMs : Int64) : Request → Outcome
  | registerDevice limit req => Routes.Devices.register crypto db nowMs limit req
  | registerPair caller limit req => Routes.Pairs.register crypto db caller limit req
  | revokePair caller limit path req => Routes.Pairs.revoke crypto db nowMs caller limit path req
  | deleteMe caller limit revokePairs body =>
    Routes.Devices.deleteMe crypto db nowMs caller limit revokePairs body
  | token deviceId => .accepted (Devices.touchLastSeen db deviceId nowMs) .noContent []
  | cleanup => .accepted (Devices.deleteExpired db nowMs) .noContent []

/--
The step of the database that a request takes at a time of the relay's clock.
-/
def step (db : Db) (l : Int64 × Request) : Option Db :=
  some (l.2.handle crypto db l.1).db

end Request
end HandLiveRelay
