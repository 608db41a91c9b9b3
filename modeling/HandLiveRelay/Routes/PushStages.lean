import HandLiveRelay.Routes.Push

/-!
This module contains what the two handlers of push ask for and when: for every operation the record
of the request when it asks for it, and for the answer of a push request the record at its end. What
holds of requests at work is derived from here, without going through the handlers again.
-/

namespace HandLiveRelay.Routes.Push

open Fiber

abbrev PushTask := Task Request PushOp PushOp.Res (Except ApiError PushReply)

abbrev PushTrace := Trace Unit PushOp PushOp.Res

abbrev PushPerformed := Performed Unit PushOp PushOp.Res

/--
The record of a request that has passed the extractor and the limit.
-/
inductive Authenticated (caller : Uuid) : PushTrace → Prop where
  | mk (r) : Authenticated caller [⟨(), .checkDevice caller, .ok ()⟩, ⟨(), .findKey caller, r⟩]

/--
The record of `PUT /v1/devices/me/push-token` when it asks for an operation.
-/
inductive PutAt (apnsTopic : Option String) (caller : Uuid) (req : PushTokenRequest)
    : PushTrace → PushOp → Prop where
  | findKey : PutAt apnsTopic caller req [] (.findKey caller)
  | checkDevice (r)
      : PutAt apnsTopic caller req [⟨(), .findKey caller, r⟩] (.checkDevice caller)
  | findPlatform {trace : PushTrace} (hauth : Authenticated caller trace)
      : PutAt apnsTopic caller req trace (.findPlatform caller)
  | setPushToken {trace : PushTrace} {platform : Platform} {revoked : Bool}
      {provider : PushProvider} {token : String} {topic : Option String}
      (hvalid : validatePushToken platform req = .ok (provider, token, topic))
      (htopic : topic.isSome → topic = apnsTopic)
      : PutAt apnsTopic caller req
          (⟨(), .findPlatform caller, some (some (platform, revoked))⟩ :: trace)
          (.setPushToken caller provider
            (if provider = .fcm then token else token.map Char.toLower) topic)

/--
The request is one that may go to the push registration `target`.
-/
structure Targeted (req : PushRequest) (push : ValidPush) (target : Devices.PushTarget)
    (provider : PushProvider) (token : String) : Prop where
  valid : validatePush req = .ok push
  platform_fits : platformFits push.kind target.platform = true
  kind_fits : kindFits push.kind provider = true
  provider_eq : target.provider = some provider
  token_eq : target.token = some token

/--
The record of a push request when it calls the provider, and the key it has set for that.
-/
inductive Sending (caller : Uuid) (req : PushRequest)
    : Option String → Notification → PushTrace → Prop where
  | wake {push : ValidPush} {target : Devices.PushTarget} {provider : PushProvider}
      {token : String} {trace : PushTrace} (htarget : Targeted req push target provider token)
      (hkind : push.kind = .wake) (hauth : Authenticated caller trace)
      : Sending caller req (some (wakeKey req.dest push.reason))
          (.wake token req.pairId push.reason push.ttlS)
          (⟨(), .setWake (wakeKey req.dest push.reason), some true⟩
            :: ⟨(), .pushTarget req.pairId caller req.dest, some (some target)⟩ :: trace)
  | alert {push : ValidPush} {target : Devices.PushTarget} {provider : PushProvider}
      {token : String} {trace : PushTrace} (htarget : Targeted req push target provider token)
      (hkind : push.kind = .alert) (hauth : Authenticated caller trace)
      : Sending caller req none
          (.alert token (target.topic.getD "") (provider = .apnsSandbox) req.pairId push.reason
            (push.envB64.getD "") push.collapseKey push.ttlS)
          (⟨(), .pushTarget req.pairId caller req.dest, some (some target)⟩ :: trace)

/--
The record of a push request that takes in what the provider has answered.
-/
inductive Answered (caller : Uuid) (req : PushRequest) (outcome : Outcome) (push : Notification)
    : PushTrace → Prop where
  | kept {coalesce : Option String} {trace : PushTrace}
      (hsending : Sending caller req coalesce push trace)
      (hkeep : coalesce.isSome → outcome = .sent)
      : Answered caller req outcome push (⟨(), .send push, outcome⟩ :: trace)
  | deleted {key : String} {trace : PushTrace} (hsending : Sending caller req (some key) push trace)
      (hne : outcome ≠ .sent) (r)
      : Answered caller req outcome push
          (⟨(), .delWake key, r⟩ :: ⟨(), .send push, outcome⟩ :: trace)

/--
The record of `POST /v1/push` when it asks for an operation.
-/
inductive SendAt (caller : Uuid) (req : PushRequest) : PushTrace → PushOp → Prop where
  | findKey : SendAt caller req [] (.findKey caller)
  | checkDevice (r) : SendAt caller req [⟨(), .findKey caller, r⟩] (.checkDevice caller)
  | pushTarget {trace : PushTrace} (hauth : Authenticated caller trace)
      : SendAt caller req trace (.pushTarget req.pairId caller req.dest)
  | setWake {push : ValidPush} {target : Devices.PushTarget} {provider : PushProvider}
      {token : String} {trace : PushTrace} (htarget : Targeted req push target provider token)
      (hkind : push.kind = .wake) (hauth : Authenticated caller trace)
      : SendAt caller req
          (⟨(), .pushTarget req.pairId caller req.dest, some (some target)⟩ :: trace)
          (.setWake (wakeKey req.dest push.reason))
  | send {coalesce : Option String} {push : Notification} {trace : PushTrace}
      (hsending : Sending caller req coalesce push trace)
      : SendAt caller req trace (.send push)
  | delWake {key : String} {push : Notification} {outcome : Outcome} {trace : PushTrace}
      (hsending : Sending caller req (some key) push trace) (hne : outcome ≠ .sent)
      : SendAt caller req (⟨(), .send push, outcome⟩ :: trace) (.delWake key)
  | addPush {push : Notification} {trace : PushTrace}
      (hanswered : Answered caller req .sent push trace)
      : SendAt caller req trace (.addPush caller)
  | clearPushToken {push : Notification} {trace : PushTrace}
      (hanswered : Answered caller req .tokenInvalid push trace)
      : SendAt caller req trace (.clearPushToken req.dest)

/--
What the two handlers ask for.
-/
def Plan (apnsTopic : Option String) : Request → Contract Unit PushOp PushOp.Res
  | .putPushToken caller req, _, trace, o => PutAt apnsTopic caller req trace o
  | .send caller req, _, trace, o => SendAt caller req trace o

/--
The record of a push request at its end. A request that set a key and does not succeed has asked to
delete it again.
-/
inductive Replied (caller : Uuid) (req : PushRequest)
    : Except ApiError PushReply → PushTrace → Prop where
  | refused {trace : PushTrace} (e : ApiError)
      (hkeys : ∀ key, ⟨(), .setWake key, some true⟩ ∈ trace → ∃ r, ⟨(), .delWake key, r⟩ ∈ trace)
      : Replied caller req (.error e) trace
  | coalesced {push : ValidPush} {target : Devices.PushTarget} {provider : PushProvider}
      {token : String} {trace : PushTrace} (htarget : Targeted req push target provider token)
      (hkind : push.kind = .wake) (hauth : Authenticated caller trace)
      : Replied caller req (.ok .accepted)
          (⟨(), .setWake (wakeKey req.dest push.reason), some false⟩
            :: ⟨(), .pushTarget req.pairId caller req.dest, some (some target)⟩ :: trace)
  | sent {push : Notification} {trace : PushTrace} (hanswered : Answered caller req .sent push trace)
      : Replied caller req (.ok .accepted) (⟨(), .addPush caller, ()⟩ :: trace)

def Ends : Request → Except ApiError PushReply → Unit → PushTrace → Prop
  | .putPushToken _ _, _, _, _ => True
  | .send caller req, a, _, trace => Replied caller req a trace

/-!
The handlers keep to the plan.
-/

section

variable {caller : Uuid} {C : Contract Unit PushOp PushOp.Res}
  {Q : Except ApiError PushReply → Unit → PushTrace → Prop} {trace : PushTrace}

theorem sat_call {o : PushOp} {k : o.Res → PushCode} (hC : C () trace o)
    (hk : ∀ r, ((k r).start ()).Sat C Q (⟨(), o, r⟩ :: trace))
    : ((call o k).start ()).Sat C Q trace :=
  Prog.sat_perform hC hk

theorem sat_answer {r : Except ApiError PushReply} (h : Q r () trace)
    : ((answer r).start ()).Sat C Q trace :=
  h

theorem sat_authenticated {k : PushCode} (hkey : C () [] (.findKey caller))
    (hcheck : ∀ r, C () [⟨(), .findKey caller, r⟩] (.checkDevice caller))
    (hrefused : ∀ e trace, (∀ key r, (⟨(), .setWake key, r⟩ : PushPerformed) ∉ trace)
      → Q (.error e) () trace)
    (hk : ∀ trace, Authenticated caller trace → (k.start ()).Sat C Q trace)
    : ((authenticated caller k).start ()).Sat C Q [] := by
  refine sat_call hkey ?_
  intro r
  cases r with
  | none => exact sat_answer (hrefused _ _ nofun)
  | some found =>
    dsimp only
    split
    . exact sat_answer (hrefused _ _ nofun)
    . refine sat_call (hcheck _) ?_
      intro r
      cases r with
      | error e => exact sat_answer (hrefused _ _ nofun)
      | ok _ => exact hk _ (.mk _)

theorem sat_putPushToken (apnsTopic : Option String) (req : PushTokenRequest)
    : ((putPushToken apnsTopic caller req).start ()).Sat (Plan apnsTopic (.putPushToken caller req))
        (Ends (.putPushToken caller req)) [] := by
  refine sat_authenticated .findKey .checkDevice (fun _ _ _ => trivial) ?_
  intro trace hauth
  refine sat_call (.findPlatform hauth) ?_
  intro r
  match r with
  | none => exact sat_answer trivial
  | some none => exact sat_answer trivial
  | some (some (platform, _)) =>
    dsimp only
    split
    . exact sat_answer trivial
    . next provider token topic hvalid =>
      split
      . exact sat_answer trivial
      . next htopic =>
        refine sat_call (.setPushToken hvalid ?_) ?_
        . intro hsome
          exact not_not.mp fun hne => htopic ⟨hsome, hne⟩
        . intro r
          match r with
          | none => exact sat_answer trivial
          | some false => exact sat_answer trivial
          | some true => exact sat_answer trivial

end

section

variable {caller : Uuid} {req : PushRequest} {apnsTopic : Option String} {trace : PushTrace}
  {coalesce : Option String} {push : Notification} {outcome : Outcome}

theorem Authenticated.not_mem_setWake (h : Authenticated caller trace) (key : String) (r)
    : ⟨(), .setWake key, r⟩ ∉ trace := by
  cases h with
  | mk _ => nofun

theorem Authenticated.not_mem_delWake (h : Authenticated caller trace) (key : String) (r)
    : ⟨(), .delWake key, r⟩ ∉ trace := by
  cases h with
  | mk _ => nofun

/--
The only key a request sets is the one it calls the provider with.
-/
theorem Sending.key_of_mem (h : Sending caller req coalesce push trace) {key : String} {r}
    (hmem : ⟨(), .setWake key, r⟩ ∈ trace) : coalesce = some key := by
  cases h with
  | wake htarget hkind hauth =>
    cases List.mem_cons.mp hmem with
    | inl heq =>
      cases heq
      rfl
    | inr hmem =>
      exact absurd (Trace.mem_of_mem_cons hmem nofun) (hauth.not_mem_setWake key r)
  | alert htarget hkind hauth =>
    exact absurd (Trace.mem_of_mem_cons hmem nofun) (hauth.not_mem_setWake key r)

/--
A request that takes in anything but a success has asked to delete the key it set.
-/
theorem Answered.deleted_of_mem (h : Answered caller req outcome push trace)
    (hne : outcome ≠ .sent) {key : String} (hmem : ⟨(), .setWake key, some true⟩ ∈ trace)
    : ∃ r, ⟨(), .delWake key, r⟩ ∈ trace := by
  cases h with
  | kept hsending hkeep =>
    rw [hsending.key_of_mem (Trace.mem_of_mem_cons hmem nofun)] at hkeep
    exact absurd (hkeep rfl) hne
  | deleted hsending hne r =>
    have hmem := Trace.mem_of_mem_cons (Trace.mem_of_mem_cons hmem nofun) nofun
    cases hsending.key_of_mem hmem
    exact ⟨r, List.mem_cons_self⟩

/--
The provider is called with the push registration that the request has read.
-/
theorem Sending.target (h : Sending caller req coalesce push trace)
    : ∃ valid target provider, Targeted req valid target provider push.token
      ∧ ⟨(), .pushTarget req.pairId caller req.dest, some (some target)⟩ ∈ trace := by
  cases h with
  | wake htarget hkind hauth =>
    exact ⟨_, _, _, htarget, List.mem_cons_of_mem _ List.mem_cons_self⟩
  | alert htarget hkind hauth => exact ⟨_, _, _, htarget, List.mem_cons_self⟩

theorem Answered.sending (h : Answered caller req outcome push trace)
    : ∃ coalesce trace', Sending caller req coalesce push trace'
      ∧ ⟨(), .send push, outcome⟩ :: trace' <:+ trace := by
  cases h with
  | kept hsending hkeep => exact ⟨_, _, hsending, List.suffix_rfl⟩
  | deleted hsending hne r => exact ⟨_, _, hsending, List.suffix_cons _ _⟩

theorem sat_afterOutcome (h : Answered caller req outcome push trace)
    : ((afterOutcome caller req outcome).start ()).Sat (Plan apnsTopic (.send caller req))
        (Ends (.send caller req)) trace := by
  cases outcome with
  | sent =>
    refine sat_call (.addPush h) ?_
    intro r
    exact sat_answer (.sent h)
  | tokenInvalid =>
    refine sat_call (.clearPushToken h) ?_
    intro r
    have hkeys : ∀ key, ⟨(), .setWake key, some true⟩
        ∈ (⟨(), .clearPushToken req.dest, r⟩ : PushPerformed) :: trace
        → ∃ r', ⟨(), .delWake key, r'⟩
          ∈ (⟨(), .clearPushToken req.dest, r⟩ : PushPerformed) :: trace := by
      intro key hmem
      have ⟨r', hdel⟩ := h.deleted_of_mem nofun (Trace.mem_of_mem_cons hmem nofun)
      exact ⟨r', List.mem_cons_of_mem _ hdel⟩
    cases r with
    | none => exact sat_answer (.refused _ hkeys)
    | some _ => exact sat_answer (.refused _ hkeys)
  | tooLarge => exact sat_answer (.refused _ fun key => h.deleted_of_mem nofun)
  | failed => exact sat_answer (.refused _ fun key => h.deleted_of_mem nofun)

theorem sat_deliver (h : Sending caller req coalesce push trace)
    : ((deliver caller req coalesce push).start ()).Sat (Plan apnsTopic (.send caller req))
        (Ends (.send caller req)) trace := by
  refine sat_call (.send h) ?_
  intro outcome
  split
  . split
    . next hne =>
      refine sat_call (.delWake h hne) ?_
      intro r
      exact sat_afterOutcome (.deleted h hne r)
    . next hsent => exact sat_afterOutcome (.kept h fun _ => not_not.mp hsent)
  . exact sat_afterOutcome (.kept h nofun)

theorem sat_send
    : ((send caller req).start ()).Sat (Plan apnsTopic (.send caller req))
        (Ends (.send caller req)) [] := by
  refine sat_authenticated .findKey .checkDevice ?_ ?_
  . intro e trace hnone
    exact .refused e fun key hmem => absurd hmem (hnone key _)
  intro trace hauth
  have hrefused : ∀ (e : ApiError) (r), Replied caller req (.error e)
      (⟨(), .pushTarget req.pairId caller req.dest, r⟩ :: trace) := by
    intro e r
    refine .refused e ?_
    intro key hmem
    exact absurd (Trace.mem_of_mem_cons hmem nofun) (hauth.not_mem_setWake key _)
  split
  . exact sat_answer (.refused _ fun key hmem => absurd hmem (hauth.not_mem_setWake key _))
  . next push hvalid =>
    refine sat_call (.pushTarget hauth) ?_
    intro r
    match r with
    | none => exact sat_answer (hrefused _ _)
    | some none => exact sat_answer (hrefused _ _)
    | some (some target) =>
      dsimp only
      split
      . exact sat_answer (hrefused _ _)
      . next hplatform =>
        split
        . next provider token hprovider htoken =>
          split
          . exact sat_answer (hrefused _ _)
          . next hfits =>
            have htarget : Targeted req push target provider token := {
              valid := hvalid
              platform_fits := by simpa using hplatform
              kind_fits := by simpa using hfits
              provider_eq := hprovider
              token_eq := htoken
            }
            split
            . next hkind =>
              refine sat_call (.setWake htarget hkind hauth) ?_
              intro r
              match r with
              | none =>
                refine sat_answer (.refused _ ?_)
                intro key hmem
                rcases List.mem_cons.mp hmem with heq | hmem
                . cases heq
                . exact absurd (Trace.mem_of_mem_cons hmem nofun) (hauth.not_mem_setWake key _)
              | some false => exact sat_answer (.coalesced htarget hkind hauth)
              | some true => exact sat_deliver (.wake htarget hkind hauth)
            . next hkind => exact sat_deliver (.alert htarget hkind hauth)
        . exact sat_answer (hrefused _ _)

end

theorem sat_code {crypto : Crypto} {apnsTopic : Option String} (req : Request)
    : (((server crypto apnsTopic).code req).start ()).Sat (Plan apnsTopic req) (Ends req) [] := by
  cases req with
  | putPushToken caller req => exact sat_putPushToken apnsTopic req
  | send caller req => exact sat_send

theorem sending_of_plan {apnsTopic : Option String} {req : Request} {trace : PushTrace} {push : Notification}
    (h : Plan apnsTopic req () trace (.send push))
    : ∃ caller req' coalesce, req = .send caller req'
      ∧ Sending caller req' coalesce push trace := by
  cases req with
  | putPushToken caller req => cases h
  | send caller req =>
    cases h with
    | send hsending => exact ⟨caller, req, _, rfl, hsending⟩

end HandLiveRelay.Routes.Push
