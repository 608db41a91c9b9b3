import HandLiveRelay.Lib.Json
import HandLiveRelay.Routes.Push

/-!
This module contains the client of APNs: the request that an alert becomes, and one attempt to send
it, which signs a new provider token or tries again at most once each.
-/

namespace HandLiveRelay.Apns

open Fiber Routes.Push

/--
What to do with an answer of APNs.
-/
inductive Verdict where
  | sent
  | unregistered
  | renewToken
  | retry
  | reject
deriving DecidableEq

def verdict (status : UInt16) (reason : Option String) : Verdict :=
  if status = 200 then .sent
  else if status = 410 then .unregistered
  else if status = 403
      ∧ (reason = some "ExpiredProviderToken" ∨ reason = some "InvalidProviderToken") then
    .renewToken
  else if status = 500 ∨ status = 503 then .retry
  else .reject

def maxPayloadBytes : Nat := 4096

/--
`aps.alert.loc-key`, `interruption-level` and `thread-id` of a reason. Only alert reasons have them.
-/
def presentation : Reason → Option (String × String × String)
  | .smsNew => some ("push.sms_new", "active", "sms")
  | .callIncoming => some ("push.call_incoming", "time-sensitive", "calls")
  | .callMissed => some ("push.call_missed", "active", "calls")
  | .userOpen | .smsSend | .callAction => none

/--
The body of an alert. The members of an object are written in the order of their names.
-/
def payload (reason : Reason) (pairId : Uuid) (envB64 : String) : Option String :=
  (presentation reason).map fun (locKey, level, thread) =>
    Json.object [
      ("aps", Json.object [
        ("alert", Json.object [("loc-key", Json.quote locKey)]),
        ("interruption-level", Json.quote level),
        ("mutable-content", "1"),
        ("sound", Json.quote "default"),
        ("thread-id", Json.quote thread)]),
      ("hl", Json.quote envB64),
      ("p", Json.quote pairId.hyphenated)]

structure Alert where
  token : String
  topic : String
  sandbox : Bool
  pairId : Uuid
  reason : Reason
  envB64 : String
  collapseKey : Option String
  ttlS : Nat

structure ApnsClient where
  productionUrl : String
  sandboxUrl : String
  topic : String

structure Post where
  url : String
  headers : List (String × String)
  body : String

def Post.header (post : Post) (name : String) : Option String :=
  post.headers.lookup name

/--
The operations of an attempt: read the clock, get the provider token, send a request and read its
status and reason, wait. An operation that fails is `none`.
-/
inductive ApnsOp where
  | now
  | token (renew : Bool)
  | post (post : Post)
  | sleep (ms : Nat)

def ApnsOp.Res : ApnsOp → Type
  | now => Nat
  | token _ => Option String
  | post _ => Option (UInt16 × Option String)
  | sleep _ => Unit

abbrev ApnsCode := Code Unit ApnsOp ApnsOp.Res Routes.Push.Outcome

def retryDelayMs : Nat := 500

def request (alert : Alert) (url body : String) (expiration : Nat) (jwt : String) : Post where
  url := url
  headers := [
      ("authorization", "bearer " ++ jwt),
      ("apns-push-type", "alert"),
      ("apns-topic", alert.topic),
      ("apns-priority", "10"),
      ("apns-expiration", toString expiration),
      ("content-type", "application/json")]
    ++ (alert.collapseKey.map fun collapse => ("apns-collapse-id", collapse)).toList
  body := body

/--
The loop of an attempt, with what it has done once already.
-/
def attempt (post : String → Post) (renewed retried : Bool) : ApnsCode :=
  Code.perform (.token renewed) >>= fun (token : Option String) =>
  match token with
  | none => pure .failed
  | some jwt =>
    Code.perform (.post (post jwt)) >>= fun (answer : Option (UInt16 × Option String)) =>
    match answer with
    | none =>
      if retried then
        pure .failed
      else
        Code.perform (.sleep retryDelayMs) >>= fun _ => attempt post renewed true
    | some (status, reason) =>
      match verdict status (if status = 200 then none else reason) with
      | .sent => pure .sent
      | .unregistered => pure .tokenInvalid
      | .renewToken =>
        if renewed then
          pure .failed
        else
          attempt post true retried
      | .retry =>
        if retried then
          pure .failed
        else
          Code.perform (.sleep retryDelayMs) >>= fun _ => attempt post renewed true
      | .reject => pure .failed
termination_by renewed.not.toNat + retried.not.toNat
decreasing_by all_goals simp_all

def url (client : ApnsClient) (alert : Alert) : String :=
  (if alert.sandbox then client.sandboxUrl else client.productionUrl) ++ "/3/device/" ++ alert.token

def send (client : ApnsClient) (alert : Alert) : ApnsCode :=
  match payload alert.reason alert.pairId alert.envB64 with
  | none => pure .failed
  | some body =>
    if body.utf8ByteSize > maxPayloadBytes then
      pure .tooLarge
    else
      Code.perform .now >>= fun (now : Nat) =>
        attempt (request alert (url client alert) body (now + alert.ttlS)) false false

/--
Whatever APNs answers, an attempt only sends the one request, signed with some provider token.
-/
theorem asks_attempt {P : ApnsOp → Prop} {post : String → Post} (htoken : ∀ renew, P (.token renew))
    (hpost : ∀ jwt, P (.post (post jwt))) (hsleep : ∀ ms, P (.sleep ms)) (renewed retried : Bool)
    : (attempt post renewed retried).Asks P := by
  have hretry : (if retried then pure Routes.Push.Outcome.failed
      else Code.perform (.sleep retryDelayMs) >>= fun _ => attempt post renewed true
      : ApnsCode).Asks P := by
    split
    . exact Code.asks_pure _
    . refine .bind (Code.asks_perform (hsleep _)) ?_
      intro _
      exact asks_attempt htoken hpost hsleep renewed true
  unfold attempt
  refine .bind (Code.asks_perform (htoken _)) ?_
  intro token
  cases token with
  | none => exact Code.asks_pure _
  | some jwt =>
    refine .bind (Code.asks_perform (hpost jwt)) ?_
    intro answer
    cases answer with
    | none => exact hretry
    | some answer =>
      dsimp only
      split
      . exact Code.asks_pure _
      . exact Code.asks_pure _
      . split
        . exact Code.asks_pure _
        . exact asks_attempt htoken hpost hsleep true retried
      . exact hretry
      . exact Code.asks_pure _
termination_by renewed.not.toNat + retried.not.toNat
decreasing_by all_goals simp_all

/--
Every request for an alert goes to the path of its token and names its topic.
-/
theorem asks_send (client : ApnsClient) (alert : Alert)
    : (send client alert).Asks fun
      | .post post => post.url = url client alert ∧ post.header "apns-topic" = some alert.topic
      | _ => True := by
  unfold send
  split
  . exact Code.asks_pure _
  . split
    . exact Code.asks_pure _
    . refine .bind (Code.asks_perform trivial) ?_
      intro now
      refine asks_attempt (fun _ => trivial) ?_ (fun _ => trivial) false false
      intro jwt
      exact ⟨rfl, by simp [Post.header, request, List.lookup]⟩

end HandLiveRelay.Apns
