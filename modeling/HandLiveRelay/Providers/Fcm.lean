import HandLiveRelay.Providers.Attempt

/-!
This module contains the client of FCM: the request that a wake becomes, and one attempt to send
it. What holds of an attempt holds of both providers.
-/

namespace HandLiveRelay

open Fiber Routes.Push Attempt

namespace Fcm

/--
What to do with an answer of FCM, in the same cases as for APNs.
-/
abbrev Verdict := Apns.Verdict

def verdict (status : UInt16) (errorCode : Option String) : Verdict :=
  if status = 200 then .sent
  else if errorCode = some "UNREGISTERED" then .unregistered
  else if status = 401 then .renewToken
  else if status = 500 ∨ status = 503 then .retry
  else .reject

/--
A wake older than this is useless.
-/
def wakeTtlS : Nat := 60

/--
The body of a wake. The members of an object are written in the order of their names.
-/
def message (token : String) (pairId : Uuid) (reason : Reason) (ttlS : Nat) : String :=
  Json.object [
    ("message", Json.object [
      ("android", Json.object [
        ("collapse_key", Json.quote "wake"),
        ("priority", Json.quote "HIGH"),
        ("ttl", Json.quote (toString (min ttlS wakeTtlS) ++ "s"))]),
      ("data", Json.object [
        ("p", Json.quote pairId.hyphenated),
        ("r", Json.quote reason.asStr),
        ("t", Json.quote "wake")]),
      ("token", Json.quote token)])]

structure Wake where
  token : String
  pairId : Uuid
  reason : Reason
  ttlS : Nat

structure FcmClient where
  sendUrl : String

/--
The error in the body of an answer, with the `errorCode` of each detail.
-/
structure FcmError where
  status : Option String
  details : List (Option String)

def FcmError.code (error : FcmError) : Option String :=
  (error.details.findSome? id).or error.status

/--
A request with an access token.
-/
structure Post where
  url : String
  access : String
  body : String

/--
The operations of an attempt: get the access token, send a request and read its status and error,
wait. An operation that fails is `none`, and so is an error that cannot be read.
-/
inductive FcmOp where
  | accessToken (renew : Bool)
  | post (post : Post)
  | sleep (ms : Nat)

def FcmOp.Res : FcmOp → Type
  | accessToken _ => Option String
  | post _ => Option (UInt16 × Option FcmError)
  | sleep _ => Unit

abbrev FcmCode := Code Unit FcmOp FcmOp.Res

def retryDelayMs : Nat := 500

def accessToken (renew : Bool) : FcmCode (Option String) :=
  Code.perform (FcmOp.accessToken renew)

def sendPost (post : Post) : FcmCode (Option (UInt16 × Option FcmError)) :=
  Code.perform (FcmOp.post post)

def pause : FcmCode Unit :=
  Code.perform (FcmOp.sleep retryDelayMs)

def judge (answer : UInt16 × Option FcmError) : Verdict :=
  verdict answer.1 (if answer.1 = 200 then none else answer.2.bind FcmError.code)

def send (client : FcmClient) (wake : Wake) : FcmCode Routes.Push.Outcome :=
  let body := message wake.token wake.pairId wake.reason wake.ttlS
  loop accessToken (fun access => sendPost { url := client.sendUrl, access, body }) pause judge
    false false

/--
What the operations of an attempt tell.
-/
def happened? : Performed Unit FcmOp FcmOp.Res → Option (Happened (UInt16 × Option FcmError))
  | ⟨_, .accessToken renew, _⟩ => some (.token renew)
  | ⟨_, .post _, answer⟩ => some (.answer answer)
  | _ => none

abbrev FcmTrace := Trace Unit FcmOp FcmOp.Res

def happened (t : FcmTrace) : List (Happened (UInt16 × Option FcmError)) :=
  t.filterMap happened?

/--
A request is sent only if fewer than three were sent before.
-/
def Sparing : Contract Unit FcmOp FcmOp.Res
  | _, t, .post _ => (answers (happened t)).length < 3
  | _, _, _ => True

theorem sat_send (client : FcmClient) (wake : Wake)
    : ((send client wake).start ()).Sat Sparing
        (fun outcome _ t => Over judge outcome (happened t)) [] := by
  refine sat_loop ⟨?_, ?_, ?_⟩ false false .start
  . intro _ _ _
    exact ⟨trivial, fun _ => rfl⟩
  . intro _ _ _ hroom
    exact ⟨hroom, fun _ => rfl⟩
  . intro _ _
    exact ⟨trivial, fun _ => rfl⟩

theorem status_of_judge_sent {answer : UInt16 × Option FcmError} (h : judge answer = .sent)
    : answer.1 = 200 := by
  unfold judge verdict at h
  split at h
  . assumption
  . split at h
    . cases h
    . split at h
      . cases h
      . split at h <;> cases h

end Fcm

/-!
One attempt, with either provider.
-/

/--
Whatever the provider answers, an attempt sends a request only after fewer than three, and it is
over with `Sent` only after status 200 and with `TokenInvalid` only after an answer that says so. It
forces a new token at most once if and only if the provider does not answer the first request with a
refusal of the token and the second one with a failure.
-/
theorem push_attempt_is_bounded (apns : Apns.ApnsClient) (alert : Apns.Alert)
    (fcm : Fcm.FcmClient) (wake : Fcm.Wake)
    : ((Apns.send apns alert).start ()).Sat Apns.Sparing
        (fun outcome _ t => Over Apns.judge outcome (Apns.happened t)) []
      ∧ ((Fcm.send fcm wake).start ()).Sat Fcm.Sparing
        (fun outcome _ t => Over Fcm.judge outcome (Fcm.happened t)) []
      ∧ (∀ answer, Apns.judge answer = .sent → answer.1 = 200)
      ∧ ∀ answer, Fcm.judge answer = .sent → answer.1 = 200 :=
  ⟨Apns.sat_send _ _, Fcm.sat_send _ _, fun _ => Apns.status_of_judge_sent, fun _ => Fcm.status_of_judge_sent⟩

namespace Sample

/--
A provider that gives the answers of a list. The token is always there, and how it was asked for is
kept.
-/
def scriptedApns (w : List (Option (UInt16 × Option String)) × List Bool)
    : (o : Apns.ApnsOp) → (List (Option (UInt16 × Option String)) × List Bool) × o.Res
  | .now => (w, (0 : Nat))
  | .token renew => ((w.1, w.2 ++ [renew]), some "jwt")
  | .post _ => ((w.1.tail, w.2), w.1.head?.join)
  | .sleep _ => (w, ())

def alert : Apns.Alert where
  token := "00"
  topic := "app"
  sandbox := false
  pairId := Bytes.replicate 16 1
  reason := .smsNew
  envB64 := ""
  collapseKey := none
  ttlS := 60

def apnsClient : Apns.ApnsClient where
  productionUrl := "p"
  sandboxUrl := "s"
  topic := "app"

end Sample

/--
The provider refuses the token, then fails, then accepts. Each time after the refusal a new token is
forced.
-/
theorem server_error_forces_a_second_renewal
    : ((Apns.send Sample.apnsClient Sample.alert).start ()).alone Sample.scriptedApns
        ([some (403, some "ExpiredProviderToken"), some (503, none), some (200, none)], [])
      = (([], [false, true, true]), .sent) := by
  decide +kernel

end HandLiveRelay
