import HandLiveRelay.Lib.Pool
import HandLiveRelay.Routes.Requests
import HandLiveRelay.Store.Challenges

/-!
This module contains the handlers of `POST /v1/auth/challenge` and `POST /v1/auth/token`, and any
number of them at work at the same time. Every operation is one interaction with Redis, the
database, the clock or the random number generator, and other requests may come between any two.
-/

namespace HandLiveRelay

open Fiber

namespace Challenges

/--
Check the challenge a device presents against what was taken from Redis.
-/
def acceptPresented (stored : Option String) (presentedB64u : String)
    : Except ApiError (Bytes 32) :=
  match stored with
  | none => .error .challengeExpired
  | some stored =>
    match B64u.decodeFixed 32 stored, B64u.decodeFixed 32 presentedB64u with
    | some stored, some presented =>
      if stored = presented then .ok stored else .error .challengeExpired
    | _, _ => .error .challengeExpired

end Challenges

namespace Jwt

def jwtTtlSecs : Int64 := 900

/--
The claims of an access token.
-/
structure Claims where
  sub : String
  iat : Int64
  exp : Int64
  jti : String
deriving DecidableEq

def issue (deviceId : Uuid) (nowSecs : Int64) (jti : Uuid) : Claims where
  sub := deviceId.hyphenated
  iat := nowSecs
  exp := nowSecs + jwtTtlSecs
  jti := jti.hyphenated

end Jwt

namespace Routes.Auth

structure ChallengeRequest where
  deviceId : Uuid

structure TokenRequest where
  deviceId : Uuid
  challenge : String
  sig : String

/--
A request to one of the two endpoints.
-/
inductive AuthRequest where
  | challenge (req : ChallengeRequest)
  | token (req : TokenRequest)

inductive AuthReply where
  | challenge (challenge : String) (expiresAt : Int64)
  | token (accessToken : Jwt.Claims) (expiresIn : Int64)

/--
The operations of the two handlers. A command that fails is `none`.
-/
inductive AuthOp where
  | checkAuthIp
  | checkChallengeQuota (deviceId : Uuid)
  | findKey (deviceId : Uuid)
  | now
  | generate
  | put (deviceId : Uuid) (challenge : Bytes 32)
  | take (deviceId : Uuid) (challenge : Bytes 32)
  | touchLastSeen (deviceId : Uuid)
  | issue (deviceId : Uuid) (nowSecs : Int64)

def AuthOp.Res : AuthOp → Type
  | checkAuthIp | checkChallengeQuota _ => Except ApiError Unit
  | findKey _ => Option (Option Devices.DeviceKey)
  | now => Int64
  | generate => Option (Bytes 32)
  | put _ _ => Option Unit
  | take _ _ => Option (Option String)
  | touchLastSeen _ => Option Unit
  | issue _ _ => Option Jwt.Claims

abbrev AuthCode := Code Unit AuthOp AuthOp.Res (Except ApiError AuthReply)

/--
Do an operation and go on with its result.
-/
def call (o : AuthOp) (k : o.Res → AuthCode) : AuthCode :=
  Code.perform o >>= k

def answer (r : Except ApiError AuthReply) : AuthCode :=
  pure r

variable (crypto : Crypto)

/--
The check of a token request after its challenge was taken: the challenge has to match, the device
has to be registered, and the signature has to be made with its key.
-/
def checkTokenProof (storedChallenge : Option String) (req : TokenRequest) (sig : Bytes 64)
    (found : Option Devices.DeviceKey) : Except ApiError Unit := do
  let challenge ← Challenges.acceptPresented storedChallenge req.challenge
  let ikSigPub ← usableKey found
  verifyDeviceSignature crypto req.deviceId ikSigPub (authMessage challenge req.deviceId) sig

def challenge (req : ChallengeRequest) : AuthCode :=
  call .checkAuthIp fun
  | .error e => answer (.error e)
  | .ok () =>
    call (.checkChallengeQuota req.deviceId) fun
    | .error e => answer (.error e)
    | .ok () =>
      call (.findKey req.deviceId) fun
      | none => answer (.error .internal)
      | some found =>
        match usableKey found with
        | .error e => answer (.error e)
        | .ok _ =>
          call .now fun (now : Int64) =>
          call .generate fun
          | none => answer (.error .internal)
          | some challenge =>
            call (.put req.deviceId challenge) fun
            | none => answer (.error .internal)
            | some () =>
              answer (.ok (.challenge (B64u.encode challenge.toList)
                (now + Challenges.challengeTtlSecs * 1000)))

def token (req : TokenRequest) : AuthCode :=
  call .checkAuthIp fun
  | .error e => answer (.error e)
  | .ok () =>
    match B64u.decodeField 64 req.sig with
    | .error e => answer (.error e)
    | .ok sig =>
      match B64u.decodeFixed 32 req.challenge with
      -- a malformed challenge was never issued
      | none => answer (.error .challengeExpired)
      | some presented =>
        call (.take req.deviceId presented) fun
        | none => answer (.error .internal)
        | some none => answer (.error .challengeExpired)
        | some (some stored) =>
          call (.findKey req.deviceId) fun
          | none => answer (.error .internal)
          | some found =>
            match checkTokenProof crypto (some stored) req sig found with
            | .error e => answer (.error e)
            | .ok () =>
              call (.touchLastSeen req.deviceId) fun
              | none => answer (.error .internal)
              | some () =>
                call .now fun (now : Int64) =>
                call (.issue req.deviceId (now / 1000)) fun
                | none => answer (.error .internal)
                | some claims => answer (.ok (.token claims Jwt.jwtTtlSecs))

/--
What the requests share. `generated` is a record of the challenges that were generated, the newest
one first.
-/
structure AuthWorld where
  db : Db
  keys : Challenges.Keys
  nowMs : Int64
  generated : List (Bytes 32)

/--
What the surroundings choose for an operation: it is done, fails, or is done with its answer lost;
the verdict of a rate limit; random bytes.
-/
inductive Choice where
  | ok
  | fail
  | lost
  | verdict (v : Except ApiError Unit)
  | random (challenge : Bytes 32)
  | jti (jti : Uuid)

namespace AuthWorld

/--
The outcome of a command that leads to `done`.
-/
def command {α : Type} (w : AuthWorld) (f : Choice) (done : AuthWorld × α)
    : Option (AuthWorld × Option α) :=
  match f with
  | .ok => some (done.1, some done.2)
  | .fail => some (w, none)
  | .lost => some (done.1, none)
  | _ => none

def perform (w : AuthWorld) : (o : AuthOp) → Choice → Option (AuthWorld × o.Res)
  | .checkAuthIp, .verdict v => some (w, v)
  | .checkChallengeQuota _, .verdict v => some (w, v)
  | .findKey d, f => w.command f (w, Devices.findKey w.db d)
  | .now, .ok => some (w, w.nowMs)
  | .generate, .random c => some ({ w with generated := c :: w.generated }, some c)
  | .generate, .fail => some (w, none)
  | .put d c, f => w.command f ({ w with keys := Challenges.put w.keys w.nowMs d c }, ())
  | .take d c, f =>
    let (keys, stored) := Challenges.take w.keys d c
    w.command f ({ w with keys }, stored)
  | .touchLastSeen d, f =>
    w.command f ({ w with db := Devices.touchLastSeen w.db d w.nowMs }, ())
  | .issue d secs, .jti u => some (w, some (Jwt.issue d secs u))
  | .issue _ _, .fail => some (w, none)
  | _, _ => none

end AuthWorld

/--
What happens next to the requests: a key expires, another request is handled, time passes.
-/
inductive AuthEvent where
  | expire (key : String)
  | http (req : Request)
  | clock (nowMs : Int64)

def AuthWorld.happen (w : AuthWorld) : AuthEvent → Option AuthWorld
  | .expire key => some { w with keys := Function.update w.keys key none }
  | .http req => some { w with db := (req.handle crypto w.db w.nowMs).db }
  | .clock nowMs => some { w with nowMs }

/--
The two endpoints.
-/
def server : Server AuthWorld AuthRequest Choice AuthEvent AuthOp AuthOp.Res
    (Except ApiError AuthReply) where
  code
    | .challenge req => challenge req
    | .token req => token crypto req
  perform := AuthWorld.perform
  happen := AuthWorld.happen crypto

/--
No challenge is pending.
-/
def AuthWorld.init (db : Db) : AuthWorld where
  db := db
  keys := fun _ => none
  nowMs := 0
  generated := []

abbrev AuthPool := Pool AuthWorld AuthRequest AuthOp AuthOp.Res (Except ApiError AuthReply)

abbrev AuthLabel := Pool.Label AuthRequest Choice AuthEvent

abbrev runAuth (db : Db) (ls : List AuthLabel) : Option AuthPool :=
  Lts.run (Pool.step (server crypto)) (Pool.init (.init db)) ls

end Routes.Auth
end HandLiveRelay
