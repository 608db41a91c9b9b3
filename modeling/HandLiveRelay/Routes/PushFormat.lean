import HandLiveRelay.Providers.Apns
import HandLiveRelay.Routes.PushRegistrations

/-!
This module contains the form of stored push registrations. Whatever the requests do, a registration
names a provider that fits the platform, with a token the provider's requests can carry, as long as
no request changes the devices between the check of a token and its write. So everything that goes
to a provider has that form too.
-/

namespace HandLiveRelay

/--
Printable ASCII without spaces.
-/
def FcmToken (token : String) : Prop :=
  token ≠ "" ∧ ∀ c ∈ token.toList, 0x21 ≤ c.toNat ∧ c.toNat ≤ 0x7e

def isLowerHexDigit (c : Char) : Bool :=
  ('0' ≤ c && c ≤ '9') || ('a' ≤ c && c ≤ 'f')

def ApnsToken (token : String) : Prop :=
  token ≠ "" ∧ ∀ c ∈ token.toList, isLowerHexDigit c = true

namespace Devices.PushTarget

/--
The form of a push registration, where `apnsTopic` is the topic of the relay's own app.
-/
structure WellFormed (apnsTopic : Option String) (reg : PushTarget) : Prop where
  provider_iff_token : reg.provider.isSome ↔ reg.token.isSome
  fcm : reg.provider = some .fcm
    → reg.platform = .android ∧ ∀ token, reg.token = some token → FcmToken token
  apns : reg.provider = some .apns ∨ reg.provider = some .apnsSandbox
    → (reg.platform = .ios ∨ reg.platform = .ipados)
      ∧ (∃ topic, apnsTopic = some topic ∧ reg.topic = some topic)
      ∧ ∀ token, reg.token = some token → ApnsToken token

theorem WellFormed.of_none {apnsTopic : Option String} {reg : PushTarget}
    (hprovider : reg.provider = none) (htoken : reg.token = none) : reg.WellFormed apnsTopic where
  provider_iff_token := by simp [hprovider, htoken]
  fcm := by simp [hprovider]
  apns := by simp [hprovider]

end Devices.PushTarget

namespace Routes.Push

open Fiber

/-!
What passes the checks has the right form.
-/

theorem fcmToken_of_graphic {token : String} (hne : token ≠ "")
    (h : (Utf8.encode token).all isAsciiGraphic = true) : FcmToken token := by
  have hbytes : ∀ b ∈ Utf8.encode token, 0x21 ≤ b.toNat ∧ b.toNat ≤ 0x7e := by
    intro b hb
    have hgraphic := List.all_eq_true.mp h b hb
    simp only [isAsciiGraphic, Bool.and_eq_true, decide_eq_true_eq] at hgraphic
    exact hgraphic
  refine ⟨hne, ?_⟩
  intro c hc
  have hascii : ∀ b ∈ Utf8.encode token, b.toNat < 128 := by
    intro b hb
    have hb := hbytes b hb
    omega
  have ⟨b, hb, heq⟩ := Utf8.exists_byte_of_mem hascii hc
  rw [← heq]
  exact hbytes b hb

theorem isLowerHexDigit_toLower {b : UInt8} {c : Char} (hb : isAsciiHexdigit b = true)
    (hc : b.toNat = c.toNat) : isLowerHexDigit c.toLower = true := by
  have hall : ∀ b : Fin 256, isAsciiHexdigit (UInt8.ofFin b) = true
      → isLowerHexDigit (Char.ofNat b.val).toLower = true := by
    decide +kernel
  have heq : Char.ofNat b.toFin.val = c := by
    change Char.ofNat b.toNat = c
    rw [hc, Char.ofNat_toNat]
  rw [← heq]
  exact hall b.toFin hb

theorem apnsToken_of_hex {token : String} (hne : token ≠ "")
    (h : (Utf8.encode token).all isAsciiHexdigit = true) : ApnsToken (token.map Char.toLower) := by
  have hascii : ∀ b ∈ Utf8.encode token, b.toNat < 128 := by
    have hall : ∀ b : Fin 256, isAsciiHexdigit (UInt8.ofFin b) = true → b.val < 128 := by
      decide +kernel
    intro b hb
    exact hall b.toFin (List.all_eq_true.mp h b hb)
  constructor
  . intro heq
    apply hne
    rw [← String.toList_eq_nil_iff] at heq ⊢
    rwa [String.toList_map, List.map_eq_nil_iff] at heq
  . intro c hc
    rw [String.toList_map] at hc
    have ⟨c', hc', heq⟩ := List.mem_map.mp hc
    have ⟨b, hb, hbc⟩ := Utf8.exists_byte_of_mem hascii hc'
    rw [← heq]
    exact isLowerHexDigit_toLower (List.all_eq_true.mp h b hb) hbc

/--
A registration that `PUT /v1/devices/me/push-token` accepts is well formed for the platform it was
checked with.
-/
theorem wellFormed_of_validate {apnsTopic : Option String} {platform : Platform}
    {req : PushTokenRequest} {provider : PushProvider} {token : String} {topic : Option String}
    (h : validatePushToken platform req = .ok (provider, token, topic))
    (htopic : topic.isSome → topic = apnsTopic)
    : Devices.PushTarget.WellFormed apnsTopic {
        platform
        provider := some provider
        token := some (if provider = .fcm then token else token.map Char.toLower)
        topic
      } := by
  unfold validatePushToken at h
  split at h
  . cases h
  . split at h
    . cases h
    . next p hp hfits =>
      simp only [Bool.or_eq_true, Bool.not_eq_true', decide_eq_true_eq, not_or,
        Bool.not_eq_false] at hfits
      have ⟨⟨hfit, hempty⟩, _⟩ := hfits
      have hne : req.token ≠ "" := by
        intro heq
        apply hempty
        rw [heq]
        rfl
      split at h
      . next hfcm =>
        split at h
        . next hgraphic =>
          cases h
          subst hfcm
          have hplatform : platform = .android := by
            cases platform <;> simp [providerFits] at hfit ⊢
          refine ⟨Iff.rfl, fun _ => ⟨hplatform, ?_⟩, by simp⟩
          intro token htoken
          cases htoken
          exact fcmToken_of_graphic hne hgraphic
        . cases h
      . next hfcm =>
        split at h
        . cases h
        . next topic hreq =>
          dsimp only at h
          split at h
          . next hok =>
            cases h
            have hplatform : platform = .ios ∨ platform = .ipados := by
              cases platform <;> simp [providerFits, hfcm] at hfit ⊢
            rw [Bool.and_eq_true] at hok
            refine ⟨Iff.rfl, ?_, fun _ => ⟨hplatform, ⟨topic, (htopic rfl).symm, rfl⟩, ?_⟩⟩
            . intro heq
              exact absurd (Option.some.inj heq) hfcm
            . intro token htoken
              rw [if_neg hfcm] at htoken
              cases htoken
              exact apnsToken_of_hex hne hok.1
          . cases h

/-!
The requests at work.
-/

/--
The request has checked a token and is about to store it.
-/
def storesToken (t : PushTask) : Bool :=
  match t.prog with
  | .wait _ (.setPushToken ..) _ => true
  | _ => false

/--
The step changes no device between the check of a token and its write.
-/
def checksHold (p : PushPool) : PushLabel → Bool
  | .happen (.http _) => p.tasks.all fun t => !storesToken t
  | _ => true

variable {crypto : Crypto} {apnsTopic : Option String} {p p' : PushPool} {l : PushLabel}

/--
The database after a write of the token would hold a well formed registration.
-/
def Fits (apnsTopic : Option String) (db : Db) (d : Uuid) (provider : PushProvider) (token : String)
    (topic : Option String) : Prop :=
  ∀ reg, db.registration d = some reg → Devices.PushTarget.WellFormed apnsTopic
    { reg with provider := some provider, token := some token, topic }

structure Formed (apnsTopic : Option String) (p : PushPool) : Prop where
  stored : ∀ d reg, p.world.db.registration d = some reg → reg.WellFormed apnsTopic
  storing : ∀ (k : Nat) (t : PushTask), p.tasks[k]? = some t →
    ∀ s d provider token topic cont, t.prog = .wait s (.setPushToken d provider token topic) cont →
      Fits apnsTopic p.world.db d provider token topic

/--
A step that is not one of another request keeps the platforms.
-/
theorem Fits.of_step {w : PushWorld} {o : PushOp} {db : Db} {d : Uuid} {provider : PushProvider}
    {token : String} {topic : Option String} (h : Fits apnsTopic w.db d provider token topic)
    (hstep : RegistrationStep w d o (db.registration d))
    : Fits apnsTopic db d provider token topic := by
  intro reg hreg
  rw [hreg] at hstep
  generalize hsome : some reg = r at hstep
  cases hstep with
  | same => exact h reg hsome.symm
  | @set before provider' token' topic' hbefore =>
    cases hsome
    exact h before hbefore
  | @clear before hbefore =>
    cases hsome
    exact h before hbefore

/--
A request that has just read the platform of its device may store the token it has checked.
-/
theorem fits_of_read {w w' : PushWorld} {f : Choice} {caller : Uuid} {req : PushTokenRequest}
    {o : PushOp} {r : o.Res} {trace : PushTrace} {s : Unit} {d : Uuid} {provider : PushProvider}
    {token : String} {topic : Option String} (hperform : w.perform o f = some (w', r))
    (hat : PutAt apnsTopic caller req (⟨s, o, r⟩ :: trace) (.setPushToken d provider token topic))
    : Fits apnsTopic w'.db d provider token topic := by
  generalize htrace : (⟨s, o, r⟩ : PushPerformed) :: trace = full at hat
  cases hat with
  | @setPushToken trace platform revoked provider token topic hvalid htopic =>
    cases htrace
    intro reg hreg
    rcases PushWorld.command_cases hperform with ⟨_, hnone⟩ | ⟨hw, hres | hres⟩
    . cases hnone
    . subst hw
      have hplatform : reg.platform = platform := by
        have hfound := (Option.some.inj hres).symm
        have ⟨row, hrow, heq⟩ := Option.map_eq_some_iff.mp hfound
        unfold Db.registration at hreg
        rw [hrow] at hreg
        cases hreg
        exact congrArg Prod.fst heq
      subst hplatform
      exact wellFormed_of_validate hvalid htopic
    . cases hres

theorem putAt_of_plan {req : Request} {trace : PushTrace} {d : Uuid} {provider : PushProvider}
    {token : String} {topic : Option String}
    (h : Plan apnsTopic req () trace (.setPushToken d provider token topic))
    : ∃ caller req', PutAt apnsTopic caller req' trace (.setPushToken d provider token topic) := by
  cases req with
  | putPushToken caller req => exact ⟨caller, req, h⟩
  | send caller req => cases h

theorem Formed.stored_step (h : Formed apnsTopic p)
    (hstep : p.step (server crypto apnsTopic) l = some p') {d : Uuid} {reg : Devices.PushTarget}
    (hreg : p'.world.db.registration d = some reg) : reg.WellFormed apnsTopic := by
  cases Pool.step_cases hstep with
  | start req => exact h.stored d reg hreg
  | @exec k f t s o cont w r htask hprog hperform =>
    have hreg' := registration_perform (d := d) hperform
    rw [hreg] at hreg'
    generalize hsome : some reg = after at hreg'
    cases hreg' with
    | same => exact h.stored d reg hsome.symm
    | set provider token topic hbefore =>
      cases hsome
      exact h.storing k t htask s d provider token topic cont hprog _ hbefore
    | clear hbefore =>
      cases hsome
      exact .of_none rfl rfl
  | @happen e w hhappen =>
    cases e with
    | tick ms =>
      cases hhappen
      exact h.stored d reg hreg
    | clock nowMs =>
      cases hhappen
      exact h.stored d reg hreg
    | http req =>
      cases hhappen
      have hchange := Request.registration_handle crypto p.world.db p.world.nowMs req d
      dsimp only at hreg
      rw [hreg] at hchange
      generalize hsome : some reg = after at hchange
      cases hchange with
      | same => exact h.stored d reg hsome.symm
      | gone => cases hsome
      | new platform hnone =>
        cases hsome
        exact .of_none rfl rfl

/--
A token that was checked before the step still fits after it.
-/
theorem Fits.step {d : Uuid} {provider : PushProvider} {token : String} {topic : Option String}
    (h : Fits apnsTopic p.world.db d provider token topic) {t : PushTask} {k : Nat}
    (htask : p.tasks[k]? = some t) (hstores : storesToken t = true) (hl : checksHold p l = true)
    (hstep : p.step (server crypto apnsTopic) l = some p')
    : Fits apnsTopic p'.world.db d provider token topic := by
  cases Pool.step_cases hstep with
  | start req => exact h
  | exec htask hprog hperform => exact h.of_step (registration_perform hperform)
  | @happen e w hhappen =>
    cases e with
    | tick ms =>
      cases hhappen
      exact h
    | clock nowMs =>
      cases hhappen
      exact h
    | http req =>
      have hnone := List.all_eq_true.mp hl t (List.mem_of_getElem? htask)
      rw [hstores] at hnone
      cases hnone

theorem Formed.step (h : Formed apnsTopic p) (hl : checksHold p l = true)
    (hplan : ∀ (k : Nat) (t : PushTask), p'.tasks[k]? = some t
      → t.prog.Sat (Plan apnsTopic t.req) (Ends t.req) t.trace)
    (hstep : p.step (server crypto apnsTopic) l = some p') : Formed apnsTopic p' := by
  refine ⟨fun d reg => h.stored_step hstep, ?_⟩
  intro k t ht s d provider token topic cont hprog
  have hsat := hplan k t ht
  rw [hprog] at hsat
  have ⟨caller, req, hat⟩ := putAt_of_plan hsat.1
  have htask := Pool.task_step hstep ht
  generalize hw : p'.world = w' at htask
  cases htask with
  | same htask =>
    rw [← hw]
    have hfits := h.storing k t htask s d provider token topic cont hprog
    exact hfits.step htask (by simp [storesToken, hprog]) hl hstep
  | new req hnone => cases hat
  | performed htask hprog hperform => exact fits_of_read hperform hat

theorem formed_run {ls : List PushLabel} (hrun : runPush crypto apnsTopic .empty ls = some p)
    (hchecks : Lts.Meets (Pool.step (server crypto apnsTopic)) (fun p l => checksHold p l = true)
      (Pool.init (.init .empty)) ls)
    : Formed apnsTopic p := by
  refine Lts.run_history (P := fun _ p => Formed apnsTopic p) ?_ ?_ hchecks hrun
  . constructor
    . intro d reg hreg
      cases hreg
    . intro k t ht
      simp [Pool.init] at ht
  . intro ls p l p' hrun h hl hstep
    have hrun' : runPush crypto apnsTopic .empty (ls ++ [l]) = some p' := by
      refine (Lts.run_append_eq_some _).mpr ⟨p, hrun, ?_⟩
      exact (Lts.run_cons_eq_some _).mpr ⟨p', hstep, rfl⟩
    exact h.step hl (fun k t ht => Pool.sat_run sat_code hrun' ht) hstep

/-!
What goes to the providers.
-/

def Notification.alert? : Notification → Option Apns.Alert
  | .wake .. => none
  | .alert token topic sandbox pairId reason envB64 collapseKey ttlS =>
    some { token, topic, sandbox, pairId, reason, envB64, collapseKey, ttlS }

/--
A request to APNs for the topic, to a path that ends in hex digits.
-/
def ApnsRequestOk (topic : String) : Apns.ApnsOp → Prop
  | .post post => post.header "apns-topic" = some topic
    ∧ ∃ base token, post.url = base ++ "/3/device/" ++ token ∧ ApnsToken token
  | _ => True

/--
A push registration that a request has read was stored at that time, and is well formed.
-/
theorem wellFormed_of_read {ls : List PushLabel}
    (hrun : runPush crypto apnsTopic .empty ls = some p)
    (hchecks : Lts.Meets (Pool.step (server crypto apnsTopic)) (fun p l => checksHold p l = true)
      (Pool.init (.init .empty)) ls)
    {k : Nat} {t : PushTask} (ht : p.tasks[k]? = some t) {pairId source dest : Uuid}
    {target : Devices.PushTarget}
    (hmem : ⟨(), .pushTarget pairId source dest, some (some target)⟩ ∈ t.trace)
    : target.WellFormed apnsTopic
      ∧ ∃ w, Pool.Did (server crypto apnsTopic) (.init .empty) ls k t.req
          (.pushTarget pairId source dest) (some (some target)) w
        ∧ w.db.registration dest = some target := by
  have ⟨w, hdid⟩ := Pool.did_of_mem_trace hrun ht hmem
  have ⟨ls1, f, ls2, p1, t1, s, cont, w', hls, hrun1, hw, ht1, hreq, hprog, hperform⟩ := hdid
  have ⟨_, hreg⟩ := registration_of_read hperform
  rw [hls] at hchecks
  have hformed := formed_run hrun1 (Lts.meets_append.mp hchecks).1
  refine ⟨hformed.stored dest target ?_, w, hdid, hreg⟩
  rw [hw]
  exact hreg

/--
In every state that the requests can reach, with no device changed between the check of a push token
and its write, the stored push registrations are well formed. An alert that is sent names the topic
of the relay's own app, and whatever APNs answers, every request for it goes to a path of hex digits.
A wake that is sent goes to the token of FCM that was stored for an Android device.
-/
theorem push_registrations_stay_well_formed {crypto : Crypto} {apnsTopic : Option String}
    {ls : List PushLabel} {p : PushPool} (hrun : runPush crypto apnsTopic .empty ls = some p)
    (hchecks : Lts.Meets (Pool.step (server crypto apnsTopic)) (fun p l => checksHold p l = true)
      (Pool.init (.init .empty)) ls)
    : (∀ row ∈ p.world.db.devices.rows, row.registration.WellFormed apnsTopic)
      ∧ ∀ (k : Nat) (t : PushTask), p.tasks[k]? = some t →
        ∀ s push cont, t.prog = .wait s (.send push) cont →
          (∀ alert, push.alert? = some alert →
            apnsTopic = some alert.topic ∧ ApnsToken alert.token
            ∧ ∀ client, (Apns.send client alert).Asks (ApnsRequestOk alert.topic))
          ∧ ∀ token pairId reason ttlS, push = .wake token pairId reason ttlS →
            ∃ caller req w reg, t.req = .send caller req
              ∧ Pool.Did (server crypto apnsTopic) (.init .empty) ls k t.req
                  (.pushTarget req.pairId caller req.dest) (some (some reg)) w
              ∧ w.db.registration req.dest = some reg
              ∧ reg.platform = .android ∧ reg.provider = some .fcm ∧ reg.token = some token
              ∧ FcmToken token := by
  have hformed := formed_run hrun hchecks
  constructor
  . intro row hrow
    refine hformed.stored row.deviceId row.registration ?_
    unfold Db.registration
    rw [Table.mem_rows_iff.mp hrow]
    rfl
  . intro k t ht s push cont hprog
    have hsat := Pool.sat_run sat_code hrun ht
    rw [hprog] at hsat
    have ⟨caller, req, coalesce, hreq, hsending⟩ := sending_of_plan hsat.1
    have hread : ∀ target, ⟨(), .pushTarget req.pairId caller req.dest, some (some target)⟩ ∈ t.trace
        → _ := fun target => wellFormed_of_read hrun hchecks ht
    generalize t.trace = trace at hsending hread
    cases hsending with
    | @wake valid target provider token trace htarget hkind hauth =>
      refine ⟨nofun, ?_⟩
      rintro _ _ _ _ ⟨⟩
      have ⟨hwf, w, hdid, hreg⟩ := hread target (List.mem_cons_of_mem _ List.mem_cons_self)
      have hfcm : target.provider = some .fcm := by
        have hfits := htarget.kind_fits
        rw [hkind] at hfits
        rw [htarget.provider_eq, of_decide_eq_true hfits]
      have ⟨hplatform, htoken⟩ := hwf.fcm hfcm
      exact ⟨caller, req, w, target, hreq, hdid, hreg, hplatform, hfcm, htarget.token_eq,
        htoken token htarget.token_eq⟩
    | @alert valid target provider token trace htarget hkind hauth =>
      refine ⟨?_, nofun⟩
      rintro _ ⟨⟩
      have ⟨hwf, _⟩ := hread target List.mem_cons_self
      have hprovider : target.provider = some .apns ∨ target.provider = some .apnsSandbox := by
        have hfits := htarget.kind_fits
        rw [hkind] at hfits
        simp only [kindFits, Bool.or_eq_true, decide_eq_true_eq] at hfits
        rw [htarget.provider_eq]
        exact hfits.imp (congrArg some) (congrArg some)
      have ⟨_, ⟨topic, htopic, hstored⟩, htoken⟩ := hwf.apns hprovider
      have htoken := htoken token htarget.token_eq
      rw [hstored, Option.getD_some]
      refine ⟨htopic, htoken, ?_⟩
      intro client
      refine (Apns.asks_send client _).mono ?_
      intro o ho
      cases o with
      | post post =>
        refine ⟨ho.2, _, token, ho.1, htoken⟩
      | now => trivial
      | token renew => trivial
      | sleep ms => trivial

namespace Sample

open HandLiveRelay.Sample

/--
The two devices are paired, each of them stores a push token, and each of them sends a push to the
other, up to the call of the provider.
-/
def pushes : List PushLabel :=
  [.happen (.http (registerDevice 1 "android")), .happen (.http (registerDevice 2 "ios")),
    .happen (.http registerPair),
    .start (.putPushToken (device 1) { provider := "fcm", token := "token:1", topic := none }),
    .exec 0 .ok, .exec 0 (.verdict (.ok ())), .exec 0 .ok, .exec 0 .ok,
    .start (.putPushToken (device 2)
      { provider := "apns", token := "C0FFEE", topic := some "app.topic" }),
    .exec 1 .ok, .exec 1 (.verdict (.ok ())), .exec 1 .ok, .exec 1 .ok,
    .start (.send (device 1) {
      pairId
      dest := device 2
      kind := "alert"
      reason := "sms_new"
      envB64 := some "AAAA"
      collapseKey := none
      ttlS := none
    }),
    .exec 2 .ok, .exec 2 (.verdict (.ok ())), .exec 2 .ok]

/--
The token of a task that is about to call the provider.
-/
def calledToken (t : PushTask) : Option String :=
  match t.prog with
  | .wait _ (.send push) _ => push.alert?.map (·.token)
  | _ => none

end Sample

theorem alert_goes_to_a_hex_path
    : ∃ p, runPush .sample (some "app.topic") .empty Sample.pushes = some p
        ∧ (∃ t ∈ p.tasks, Sample.calledToken t = some "c0ffee")
        ∧ ∀ row ∈ p.world.db.devices.rows, row.registration.WellFormed (some "app.topic") := by
  have hrun : (runPush .sample (some "app.topic") .empty Sample.pushes).any (fun p =>
      decide (∃ t ∈ p.tasks, Sample.calledToken t = some "c0ffee")) = true := by
    decide +kernel
  have hchecks : Lts.Meets (Pool.step (server .sample (some "app.topic")))
      (fun p l => checksHold p l = true) (Pool.init (.init .empty)) Sample.pushes := by
    decide +kernel
  simp only [Option.any_eq_true, decide_eq_true_eq] at hrun
  have ⟨p, hp, htoken⟩ := hrun
  exact ⟨p, hp, htoken, (push_registrations_stay_well_formed hp hchecks).1⟩

end Routes.Push
end HandLiveRelay
