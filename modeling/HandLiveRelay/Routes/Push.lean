import HandLiveRelay.Lib.Pool
import HandLiveRelay.Lib.Ttl
import HandLiveRelay.Relay.Rendezvous
import HandLiveRelay.Routes.Requests

/-!
This module contains the handlers of `PUT /v1/devices/me/push-token` and `POST /v1/push`, and any
number of them at work at the same time. Every operation is one statement of the database, one
command of Redis or one call of a push provider, and other requests may come between any two.
-/

namespace HandLiveRelay

open Fiber Ttl

namespace PushProvider

def asStr : PushProvider → String
  | fcm => "fcm"
  | apns => "apns"
  | apnsSandbox => "apns_sandbox"

def ofStr? (s : String) : Option PushProvider :=
  [fcm, apns, apnsSandbox].find? (·.asStr = s)

end PushProvider

namespace Routes.Push

/-!
Registering a push token.
-/

def pushTokenMaxChars : Nat := 4096

def pushTopicMaxChars : Nat := 255

structure PushTokenRequest where
  provider : String
  token : String
  topic : Option String
deriving DecidableEq

def isAsciiGraphic (b : UInt8) : Bool :=
  0x21 ≤ b && b ≤ 0x7e

def isAsciiDigit (b : UInt8) : Bool :=
  0x30 ≤ b && b ≤ 0x39

def isAsciiHexdigit (b : UInt8) : Bool :=
  isAsciiDigit b || (0x41 ≤ b && b ≤ 0x46) || (0x61 ≤ b && b ≤ 0x66)

def isAsciiAlphanumeric (b : UInt8) : Bool :=
  isAsciiDigit b || (0x41 ≤ b && b ≤ 0x5a) || (0x61 ≤ b && b ≤ 0x7a)

/--
The bytes of a topic: letters, digits, `.`, `-` and `_`.
-/
def isTopicByte (b : UInt8) : Bool :=
  isAsciiAlphanumeric b || b = 0x2e || b = 0x2d || b = 0x5f

/--
A Mac never registers for push.
-/
def providerFits (platform : Platform) (provider : PushProvider) : Bool :=
  match platform with
  | .android => provider = .fcm
  | .ios | .ipados => provider = .apns || provider = .apnsSandbox
  | .macos => false

/--
Check a push registration. Returns provider, token and topic.
-/
def validatePushToken (platform : Platform) (req : PushTokenRequest)
    : Except ApiError (PushProvider × String × Option String) :=
  match PushProvider.ofStr? req.provider with
  | none => .error .badRequest
  | some provider =>
    if !providerFits platform provider || req.token.isEmpty
        || req.token.length > pushTokenMaxChars then
      .error .badRequest
    else if provider = .fcm then
      if (Utf8.encode req.token).all isAsciiGraphic then
        .ok (provider, req.token, none)
      else
        .error .badRequest
    else
      match req.topic with
      | none => .error .badRequest
      | some topic =>
        let topicOk := !topic.isEmpty && topic.length ≤ pushTopicMaxChars
          && (Utf8.encode topic).all isTopicByte
        if (Utf8.encode req.token).all isAsciiHexdigit && topicOk then
          .ok (provider, req.token, some topic)
        else
          .error .badRequest

/-!
Sending a push.
-/

def envB64MaxBytes : Nat := 3000

def collapseKeyMaxChars : Nat := 64

def ttlMaxS : Int64 := 86400

/--
A wake with the same reason for the same device within 5 minutes is accepted but not sent again.
-/
def wakeCoalesceSecs : Int := 300

inductive Kind where
  | wake
  | alert
deriving DecidableEq

inductive Reason where
  | userOpen
  | smsSend
  | callAction
  | smsNew
  | callIncoming
  | callMissed
deriving DecidableEq

namespace Reason

def asStr : Reason → String
  | userOpen => "user_open"
  | smsSend => "sms_send"
  | callAction => "call_action"
  | smsNew => "sms_new"
  | callIncoming => "call_incoming"
  | callMissed => "call_missed"

def parse (text : String) : Option Reason :=
  [userOpen, smsSend, callAction, smsNew, callIncoming, callMissed].find? (·.asStr = text)

def kind : Reason → Kind
  | userOpen | smsSend | callAction => .wake
  | smsNew | callIncoming | callMissed => .alert

def defaultTtlS : Reason → Nat
  | smsNew | callMissed => 86400
  | callIncoming => 30
  | userOpen | smsSend | callAction => 60

end Reason

structure PushRequest where
  pairId : Uuid
  dest : Uuid
  kind : String
  reason : String
  envB64 : Option String
  collapseKey : Option String
  ttlS : Option Int64
deriving DecidableEq

/--
A request that passed the checks of its shape.
-/
structure ValidPush where
  kind : Kind
  reason : Reason
  envB64 : Option String
  collapseKey : Option String
  ttlS : Nat

def validateKind (req : PushRequest) : Except ApiError Kind :=
  if req.kind = "wake" then .ok .wake
  else if req.kind = "alert" then .ok .alert
  else .error .badRequest

def validateReason (req : PushRequest) (kind : Kind) : Except ApiError Reason :=
  match (Reason.parse req.reason).filter (·.kind = kind) with
  | some reason => .ok reason
  | none => .error .badRequest

def validateCollapseKey (req : PushRequest) : Except ApiError (Option String) :=
  match req.collapseKey with
  | none => .ok none
  | some c =>
    if !c.isEmpty && c.utf8ByteSize ≤ collapseKeyMaxChars && (Utf8.encode c).all isAsciiGraphic then
      .ok (some c)
    else
      .error .badRequest

def validateTtl (req : PushRequest) (reason : Reason) : Except ApiError Nat :=
  match req.ttlS with
  | none => .ok reason.defaultTtlS
  | some t => if 0 ≤ t ∧ t ≤ ttlMaxS then .ok t.toInt.toNat else .error .badRequest

def validateEnv (req : PushRequest) (kind : Kind) : Except ApiError (Option String) :=
  match kind, req.envB64 with
  | .wake, none => .ok none
  | .wake, some _ | .alert, none => .error .badRequest
  | .alert, some env =>
    if env.utf8ByteSize > envB64MaxBytes then
      .error .payloadTooLarge
    else if env.isEmpty
        || (Base64.decodePadded Rendezvous.standard (Utf8.latin1 (Utf8.encode env))).isNone then
      .error .badRequest
    else
      .ok (some env)

def validatePush (req : PushRequest) : Except ApiError ValidPush := do
  let kind ← validateKind req
  let reason ← validateReason req kind
  let collapseKey ← validateCollapseKey req
  let ttlS ← validateTtl req reason
  let envB64 ← validateEnv req kind
  return { kind, reason, envB64, collapseKey, ttlS }

/--
`wake:<device_id>:<reason>`, set while a wake is coalesced.
-/
def wakeKey (dest : Uuid) (reason : Reason) : String :=
  "wake:" ++ dest.hyphenated ++ ":" ++ reason.asStr

/--
What goes to a push provider: a wake for an Android phone or an alert for an iPhone or iPad.
-/
inductive Notification where
  | wake (token : String) (pairId : Uuid) (reason : Reason) (ttlS : Nat)
  | alert (token topic : String) (sandbox : Bool) (pairId : Uuid) (reason : Reason)
      (envB64 : String) (collapseKey : Option String) (ttlS : Nat)

namespace Notification

def token : Notification → String
  | wake token _ _ _ => token
  | alert token _ _ _ _ _ _ _ => token

end Notification

/--
What a push provider answers.
-/
inductive Outcome where
  | sent
  | tokenInvalid
  | tooLarge
  | failed
deriving DecidableEq

/-!
The handlers.
-/

/--
The operations of the two handlers. A command that fails is `none`.
-/
inductive PushOp where
  | findKey (deviceId : Uuid)
  | checkDevice (deviceId : Uuid)
  | findPlatform (deviceId : Uuid)
  | setPushToken (deviceId : Uuid) (provider : PushProvider) (token : String)
      (topic : Option String)
  | pushTarget (pairId source dest : Uuid)
  | setWake (key : String)
  | send (push : Notification)
  | delWake (key : String)
  | addPush (deviceId : Uuid)
  | clearPushToken (deviceId : Uuid)

def PushOp.Res : PushOp → Type
  | findKey _ => Option (Option Devices.DeviceKey)
  | checkDevice _ => Except ApiError Unit
  | findPlatform _ => Option (Option (Platform × Bool))
  | setPushToken .. => Option Bool
  | pushTarget .. => Option (Option Devices.PushTarget)
  | setWake _ => Option Bool
  | send _ => Outcome
  | delWake _ => Option Unit
  | addPush _ => Unit
  | clearPushToken _ => Option Unit

inductive PushReply where
  | noContent
  | accepted
deriving DecidableEq

abbrev PushCode := Code Unit PushOp PushOp.Res (Except ApiError PushReply)

/--
Do an operation and go on with its result.
-/
def call (o : PushOp) (k : o.Res → PushCode) : PushCode :=
  Code.perform o >>= k

def answer (r : Except ApiError PushReply) : PushCode :=
  pure r

/--
A request, and the device its token was issued to.
-/
inductive Request where
  | putPushToken (caller : Uuid) (req : PushTokenRequest)
  | send (caller : Uuid) (req : PushRequest)
deriving DecidableEq

/--
The extractor and the limit that both handlers begin with.
-/
def authenticated (caller : Uuid) (k : PushCode) : PushCode :=
  call (.findKey caller) fun
  | none => answer (.error .internal)
  | some found =>
    match usableKey found with
    | .error e => answer (.error e)
    | .ok _ =>
      call (.checkDevice caller) fun
      | .error e => answer (.error e)
      | .ok () => k

/--
Register a push token. `apnsTopic` is the topic of the relay's own app, if APNs is configured.
-/
def putPushToken (apnsTopic : Option String) (caller : Uuid) (req : PushTokenRequest) : PushCode :=
  authenticated caller <|
    call (.findPlatform caller) fun
    | none => answer (.error .internal)
    | some none => answer (.error .deviceNotFound)
    | some (some (platform, _)) =>
      match validatePushToken platform req with
      | .error e => answer (.error e)
      | .ok (provider, token, topic) =>
        if topic.isSome ∧ topic ≠ apnsTopic then
          answer (.error .badRequest)
        else
          let token := if provider = .fcm then token else token.map Char.toLower
          call (.setPushToken caller provider token topic) fun
          | none => answer (.error .internal)
          | some false => answer (.error .deviceNotFound)
          | some true => answer (.ok .noContent)

/--
The part of `send` after the provider has answered.
-/
def afterOutcome (caller : Uuid) (req : PushRequest) : Outcome → PushCode
  | .sent => call (.addPush caller) fun _ => answer (.ok .accepted)
  | .tokenInvalid =>
    call (.clearPushToken req.dest) fun
    | none => answer (.error .internal)
    | some () => answer (.error .pushTokenMissing)
  | .tooLarge => answer (.error .payloadTooLarge)
  | .failed => answer (.error .pushProviderError)

/--
The part of `send` from the call of the provider on. A wake that was not sent is not coalesced
with later ones.
-/
def deliver (caller : Uuid) (req : PushRequest) (coalesce : Option String) (push : Notification)
    : PushCode :=
  call (.send push) fun (outcome : Outcome) =>
    match coalesce with
    | some key =>
      if outcome ≠ .sent then
        call (.delWake key) fun _ => afterOutcome caller req outcome
      else
        afterOutcome caller req outcome
    | none => afterOutcome caller req outcome

def platformFits (kind : Kind) (platform : Platform) : Bool :=
  match kind with
  | .wake => platform = .android
  | .alert => platform = .ios || platform = .ipados

def kindFits (kind : Kind) (provider : PushProvider) : Bool :=
  match kind with
  | .wake => provider = .fcm
  | .alert => provider = .apns || provider = .apnsSandbox

/--
Send a push to the other device of a pair.
-/
def send (caller : Uuid) (req : PushRequest) : PushCode :=
  authenticated caller <|
    match validatePush req with
    | .error e => answer (.error e)
    | .ok push =>
      call (.pushTarget req.pairId caller req.dest) fun
      | none => answer (.error .internal)
      | some none => answer (.error .notPaired)
      | some (some target) =>
        if !platformFits push.kind target.platform then
          answer (.error .badRequest)
        else
          match target.provider, target.token with
          | some provider, some token =>
            if !kindFits push.kind provider then
              answer (.error .pushTokenMissing)
            else
              match push.kind with
              | .wake =>
                let key := wakeKey req.dest push.reason
                call (.setWake key) fun
                | none => answer (.error .internal)
                | some false => answer (.ok .accepted)
                | some true =>
                  deliver caller req (some key) (.wake token req.pairId push.reason push.ttlS)
              | .alert =>
                deliver caller req none (.alert token (target.topic.getD "")
                  (provider = .apnsSandbox) req.pairId push.reason (push.envB64.getD "")
                  push.collapseKey push.ttlS)
          | _, _ => answer (.error .pushTokenMissing)

/--
What the requests share: the database and its clock, the keys of coalesced wakes and the clock of
Redis.
-/
structure PushWorld where
  db : Db
  nowMs : Int64
  wakes : Keyspace String Unit
  redisMs : Int

/--
What the surroundings choose for an operation: it is done, fails, or is done with its answer lost;
the verdict of a rate limit; the answer of a push provider.
-/
inductive Choice where
  | ok
  | fail
  | lost
  | verdict (v : Except ApiError Unit)
  | outcome (o : Outcome)

namespace PushWorld

/--
The outcome of a command that leads to `done`.
-/
def command {α : Type} (w : PushWorld) (f : Choice) (done : PushWorld × α)
    : Option (PushWorld × Option α) :=
  match f with
  | .ok => some (done.1, some done.2)
  | .fail => some (w, none)
  | .lost => some (done.1, none)
  | _ => none

def perform (w : PushWorld) : (o : PushOp) → Choice → Option (PushWorld × o.Res)
  | .findKey d, f => w.command f (w, Devices.findKey w.db d)
  | .checkDevice _, .verdict v => some (w, v)
  | .findPlatform d, f => w.command f (w, Devices.findPlatform w.db d)
  | .setPushToken d provider token topic, f =>
    let (db, stored) := Devices.setPushToken w.db d provider token topic w.nowMs
    w.command f ({ w with db }, stored)
  | .pushTarget pairId source dest, f =>
    w.command f (w, Devices.pushTarget w.db pairId source dest)
  | .setWake key, f =>
    let (wakes, first) := w.wakes.setNx w.redisMs key () (wakeCoalesceSecs * 1000)
    w.command f ({ w with wakes }, first)
  | .send _, .outcome o => some (w, o)
  | .delWake key, f => w.command f ({ w with wakes := w.wakes.del key }, ())
  | .addPush _, .ok => some (w, ())
  | .clearPushToken d, f => w.command f ({ w with db := Devices.clearPushToken w.db d }, ())
  | _, _ => none

end PushWorld

/--
What happens next to the requests: another request is handled, the clocks go on.
-/
inductive PushEvent where
  | http (req : HandLiveRelay.Request)
  | clock (nowMs : Int64)
  | tick (ms : Nat)

variable (crypto : Crypto) (apnsTopic : Option String)

def PushWorld.happen (w : PushWorld) : PushEvent → Option PushWorld
  | .http req => some { w with db := (req.handle crypto w.db w.nowMs).db }
  | .clock nowMs => some { w with nowMs }
  | .tick ms => some { w with redisMs := w.redisMs + ms }

/--
The two endpoints.
-/
def server : Server PushWorld Request Choice PushEvent PushOp PushOp.Res
    (Except ApiError PushReply) where
  code
    | .putPushToken caller req => putPushToken apnsTopic caller req
    | .send caller req => send caller req
  perform := PushWorld.perform
  happen := PushWorld.happen crypto

def PushWorld.init (db : Db) : PushWorld where
  db := db
  nowMs := 0
  wakes := .empty
  redisMs := 0

abbrev PushPool := Pool PushWorld Request PushOp PushOp.Res (Except ApiError PushReply)

abbrev PushLabel := Pool.Label Request Choice PushEvent

abbrev runPush (db : Db) (ls : List PushLabel) : Option PushPool :=
  Lts.run (Pool.step (server crypto apnsTopic)) (Pool.init (.init db)) ls

end Routes.Push
end HandLiveRelay
