import HandLiveRelay.System.Handover
import HandLiveRelay.System.Stages

/-!
This module contains the subscriptions of the instances while pub/sub connections are lost and
rebuilt. Once an instance has nothing left to do, what it is subscribed to and who is registered
there agree: no registered connection is deaf, and no subscription is left without a connection.
-/

namespace HandLiveRelay

open Fiber

/--
What an operation asks of the bus task.
-/
def Op.request? (me : Ident) : Op → Option BusRequest
  | .subscribe => some (.subscribe me.deviceId me.connId)
  | .unsubscribe => some (.unsubscribe me.deviceId)
  | _ => none

/--
Nothing changes for the bus task of an instance and its pub/sub connection, messages apart.
-/
structure SameBus (x x' : Instance) : Prop where
  requests : x'.requests = x.requests
  phase : x'.phase = x.phase
  subscribed : x'.subscribed = x.subscribed
  connected : x'.connected = x.connected
  channels : x'.channels = x.channels

theorem SameBus.rfl {x : Instance} : SameBus x x :=
  ⟨by rfl, by rfl, by rfl, by rfl, by rfl⟩

theorem SameBus.of_eq {x x' : Instance} (h : x' = x) : SameBus x x' :=
  h ▸ .rfl

theorem sameBus_deliver (x : Instance) (p : Packet) : SameBus x (x.deliver p) := by
  unfold Instance.deliver
  split
  . exact ⟨rfl, rfl, rfl, rfl, rfl⟩
  . exact .rfl

namespace World

variable {env : Env} {w w' : World} {i : InstanceId} {d : Uuid}

/--
What a step makes of the bus task of an instance.
-/
inductive BusStep (w : World) (i : InstanceId) : Label → Instance → Prop where
  | same {l x} (h : SameBus (w.insts i) x) : BusStep w i l x
  | asked {c f t s o k r} (hc : w.conns c = some t) (hprog : t.prog = .wait s o k)
      (hi : t.me.inst = i) (hr : o.request? t.me = some r)
      : BusStep w i (.exec c f) ((w.insts i).request r)
  | request {f w1} (hphase : (w.insts i).phase = .idle) (h : RequestStep w i f w1)
      : BusStep w i (.busRequest i f) (w1.insts i)
  | unsubscribed {f d} (hphase : (w.insts i).phase = .unsubscribing d)
      : BusStep w i (.busUnsubscribe i f) { w.insts i with
          channels :=
            if f = .fail then (w.insts i).channels
            else (w.insts i).channels.filter (· ≠ deviceChannel d)
          phase := .idle }
  | lost {keep} (hconn : (w.insts i).connected = true)
      : BusStep w i (.lose i keep) { w.insts i with
          connected := false
          channels := []
          stream := (w.insts i).stream.take keep }
  | ended (hphase : (w.insts i).phase = .idle) (hconn : (w.insts i).connected = false)
      : BusStep w i (.busLost i) { w.insts i with phase := .reconnecting }
  | reconnected {order} (hphase : (w.insts i).phase = .reconnecting)
      (horder : order.Perm (w.insts i).registeredDevices)
      : BusStep w i (.reconnect i order) { w.insts i with
          connected := true
          subscribed := []
          phase := .resubscribing order }
  | resubscribed {d todo} (hphase : (w.insts i).phase = .resubscribing (d :: todo))
      (hconn : (w.insts i).connected = true)
      : BusStep w i (.resubscribe i .ok)
          { (w.insts i).subscribe d with phase := .resubscribing todo }
  | unanswered {d todo} (hphase : (w.insts i).phase = .resubscribing (d :: todo))
      (hconn : (w.insts i).connected = true)
      : BusStep w i (.resubscribe i .lost) { w.insts i with
          channels := (w.insts i).channels.insert (deviceChannel d)
          phase := .resubscribing todo }
  | failed {d todo} (hphase : (w.insts i).phase = .resubscribing (d :: todo))
      : BusStep w i (.resubscribe i .fail) { w.insts i with phase := .resubscribing todo }
  | resynced (hphase : (w.insts i).phase = .resubscribing [])
      : BusStep w i (.resync i) { w.insts i with phase := .idle }

/--
A change of one instance, seen from any instance.
-/
theorem BusStep.modifyInst {l : Label} {j : InstanceId} {f : Instance → Instance}
    (h : i = j → BusStep w i l (f (w.insts i))) : BusStep w i l ((w.modifyInst j f).insts i) := by
  by_cases hij : i = j
  . subst hij
    rw [modifyInst_self]
    exact h rfl
  . rw [modifyInst_ne w f hij]
    exact .same .rfl

theorem requestStep_insts {j : InstanceId} {f : Fault} (h : RequestStep w j f w') (hij : i ≠ j)
    : w'.insts i = w.insts i := by
  cases h <;> exact Function.update_of_ne hij _ _

theorem bus_busStep {l : Label} (hl : l.ofBus) (h : w.step env l = some w') (i : InstanceId)
    : BusStep w i l (w'.insts i) := by
  cases l <;> try contradiction
  case busRequest j f =>
    have ⟨hphase, hreq⟩ := busRequest_eq_some h
    by_cases hij : i = j
    . subst hij
      exact .request hphase hreq
    . exact .same (.of_eq (requestStep_insts hreq hij))
  case busUnsubscribe j f =>
    unfold step busUnsubscribe at h
    dsimp only at h
    split at h
    next d hphase =>
      cases h
      apply BusStep.modifyInst
      rintro rfl
      exact .unsubscribed hphase
    . cases h
  case busMessage j =>
    have ⟨p, rest, _, _, hw'⟩ := busMessage_eq_some h
    have hinsts : w'.insts = (w.modifyInst j ({ · with stream := rest })).insts := by
      cases hw' with
      | inl hw' =>
        have ⟨d, msg, _, _, hw'⟩ := hw'
        rw [hw']
        unfold dispatch
        split <;> rfl
      | inr hw' => rw [hw'.2]
    rw [hinsts]
    apply BusStep.modifyInst
    intro _
    exact .same ⟨rfl, rfl, rfl, rfl, rfl⟩
  case lose j keep =>
    unfold step lose at h
    dsimp only at h
    split at h
    next hconn =>
      cases h
      apply BusStep.modifyInst
      rintro rfl
      exact .lost hconn
    . cases h
  case busLost j =>
    unfold step busLost at h
    dsimp only at h
    split at h
    next hlost =>
      cases h
      apply BusStep.modifyInst
      rintro rfl
      exact .ended hlost.1 hlost.2.2
    . cases h
  case reconnect j order =>
    unfold step reconnect at h
    dsimp only at h
    split at h
    next hre =>
      cases h
      apply BusStep.modifyInst
      rintro rfl
      exact .reconnected hre.1 (List.isPerm_iff.mp hre.2)
    . cases h
  case resubscribe j f =>
    unfold step resubscribe at h
    dsimp only at h
    split at h
    next d todo hphase =>
      split at h
      next hconn =>
        cases h
        rw [modifyInst_modifyInst]
        apply BusStep.modifyInst
        rintro rfl
        exact .resubscribed hphase hconn
      next hconn =>
        cases h
        rw [modifyInst_modifyInst]
        apply BusStep.modifyInst
        rintro rfl
        exact .unanswered hphase hconn
      . cases h
        apply BusStep.modifyInst
        rintro rfl
        exact .failed hphase
      . cases h
    . cases h
  case resync j =>
    have ⟨hphase, hw'⟩ := resync_eq_some h
    rw [hw', broadcastResync_insts]
    apply BusStep.modifyInst
    rintro rfl
    exact .resynced hphase

theorem step_busStep {l : Label} (h : w.step env l = some w') (i : InstanceId)
    : BusStep w i l (w'.insts i) := by
  cases step_view h with
  | @connect j c d _ _ hw' =>
    subst hw'
    apply BusStep.modifyInst (f := (·.register d c))
    intro _
    exact .same ⟨rfl, rfl, rfl, rfl, rfl⟩
  | @exec c f t s o k w1 r hc hprog hperf hw' =>
    subst hw'
    change BusStep w i _ (w1.insts i)
    cases perform_hub hperf with
    | other _ hi _ => exact .same (.of_eq (by rw [hi]))
    | tellPrevious => exact .same .rfl
    | subscribe =>
      apply BusStep.modifyInst
      intro hi
      exact .asked hc hprog hi.symm rfl
    | unregister _ =>
      apply BusStep.modifyInst (f := (·.unregister t.me.deviceId))
      intro _
      exact .same ⟨rfl, rfl, rfl, rfl, rfl⟩
    | superseded _ => exact .same .rfl
    | unsubscribe =>
      apply BusStep.modifyInst
      intro hi
      exact .asked hc hprog hi.symm rfl
    | publish => exact .same (sameBus_deliver _ _)
    | unpublished => exact .same .rfl
    | fetchSub => exact .same .rfl
  | event _ _ _ hw' =>
    subst hw'
    exact .same .rfl
  | bus hl _ => exact bus_busStep hl h i
  | @job k f a actions _ hw' =>
    subst hw'
    cases (act_frame env { w with jobs := w.jobs.set k actions } f a).2 with
    | inl hi => exact .same (.of_eq (by rw [hi]))
    | inr hi =>
      have ⟨dest, msg, _, hi⟩ := hi
      rw [hi]
      exact .same (sameBus_deliver _ _)
  | store _ hframe => exact .same (.of_eq (by rw [hframe.insts]))

/--
A command of the bus task fails though its pub/sub connection is not lost.
-/
def failsConnected (w : World) : Label → Bool
  | .busRequest i f =>
    match (w.insts i).requests with
    | .subscribe d _ :: _ =>
      decide (d ∉ (w.insts i).subscribed) && decide (f ≠ .ok) && (w.insts i).connected
    | _ => false
  | .busUnsubscribe i f | .resubscribe i f => decide (f ≠ .ok) && (w.insts i).connected
  | _ => false

/--
A connection asks for its subscription though it is not the registered one of its device.
-/
def asksOutOfTurn (w : World) : Label → Bool
  | .exec c _ =>
    match w.conns c with
    | none => false
    | some t =>
      match t.prog with
      | .wait _ .subscribe _ =>
        decide ((w.insts t.me.inst).current t.me.deviceId ≠ some t.me.connId)
      | _ => false
  | _ => false

end World

/--
A connection has left the registry and still has to ask for the end of its subscription.
-/
def ConnTask.owes (t : ConnTask) : Bool :=
  t.unregistered && t.trace.all (decide <| ·.op ≠ .unsubscribe)

theorem ConnTask.owes_iff {t : ConnTask}
    : t.owes ↔ Did t.trace .unregister true ∧ ¬ Did t.trace .unsubscribe () := by
  unfold owes
  rw [Bool.and_eq_true, ConnTask.unregistered_iff]
  refine and_congr_right fun _ => ?_
  simp only [List.all_eq_true, decide_eq_true_eq]
  constructor
  . rintro h ⟨s, hs⟩
    exact h _ hs rfl
  . rintro h ⟨s, o, r⟩ hp ⟨rfl⟩
    exact h ⟨s, hp⟩

/-!
What a bus task knows about its subscriptions.
-/

/--
The subscriptions that are still to be restored.
-/
def BusPhase.todo : BusPhase → List Uuid
  | resubscribing todo => todo
  | _ => []

/--
On a live pub/sub connection the bus task knows exactly what it is subscribed to.
-/
structure PubSubOk (x : Instance) : Prop where
  lost : x.connected = false → x.channels = []
  reconnecting : x.phase = .reconnecting → x.connected = false
  unsubscribing : ∀ d, x.phase = .unsubscribing d → d ∉ x.subscribed
  heard : x.connected = true → ∀ d ∈ x.subscribed, deviceChannel d ∈ x.channels
  known : ∀ d, deviceChannel d ∈ x.channels → d ∈ x.subscribed ∨ x.phase = .unsubscribing d

theorem SameBus.pubSubOk {x x' : Instance} (h : SameBus x x') (hx : PubSubOk x) : PubSubOk x' := by
  constructor
  . rw [h.connected, h.channels]
    exact hx.lost
  . rw [h.phase, h.connected]
    exact hx.reconnecting
  . rw [h.phase, h.subscribed]
    exact hx.unsubscribing
  . rw [h.connected, h.subscribed, h.channels]
    exact hx.heard
  . rw [h.channels, h.subscribed, h.phase]
    exact hx.known

namespace PubSubOk

variable {x : Instance} {d : Uuid}

theorem request (h : PubSubOk x) (requests : List BusRequest) : PubSubOk { x with requests } :=
  ⟨h.lost, h.reconnecting, h.unsubscribing, h.heard, h.known⟩

theorem subscribe (h : PubSubOk x) (hconn : x.connected = true) (phase : BusPhase)
    (hphase : phase ≠ .reconnecting) (hun : ∀ d, phase ≠ .unsubscribing d)
    (hold : ∀ d, x.phase ≠ .unsubscribing d) : PubSubOk { x.subscribe d with phase } where
  lost := by simp [Instance.subscribe, hconn]
  reconnecting heq := absurd heq hphase
  unsubscribing d' heq := absurd heq (hun d')
  heard _ d' hd' := by
    simp only [Instance.subscribe, List.mem_insert_iff] at hd' ⊢
    cases hd' with
    | inl heq => exact .inl (by rw [heq])
    | inr hd' => exact .inr (h.heard hconn d' hd')
  known d' hd' := by
    simp only [Instance.subscribe, List.mem_insert_iff] at hd' ⊢
    cases hd' with
    | inl heq => exact .inl (.inl (deviceChannel_injective heq))
    | inr hd' => exact .inl (.inr ((h.known d' hd').resolve_right (hold d')))

end PubSubOk

namespace World

variable {env : Env} {w w' : World} {i : InstanceId} {d : Uuid}

theorem not_lost_of_request {f : Fault} {c : Uuid} {rest : List BusRequest}
    (h : w.failsConnected (.busRequest i f) = false)
    (hreq : (w.insts i).requests = .subscribe d c :: rest) (hd : d ∉ (w.insts i).subscribed)
    (hconn : (w.insts i).connected = true) : f = .ok := by
  simpa [failsConnected, hreq, hd, hconn] using h

theorem BusStep.pubSubOk {l : Label} {x : Instance} (hstep : BusStep w i l x)
    (hl : w.failsConnected l = false) (h : PubSubOk (w.insts i)) : PubSubOk x := by
  cases hstep with
  | same hsame => exact hsame.pubSubOk h
  | asked _ _ _ _ => exact h.request _
  | @request f w1 hphase hreq =>
    cases hreq with
    | known _ _ =>
      rw [answer, modifyInst_self]
      exact h.request _
    | @subscribed d c rest hreq hd hconn =>
      rw [answer, modifyInst_self]
      have hsub := h.subscribe (d := d) hconn (w.insts i).phase (by simp [hphase]) (by simp [hphase])
        (by simp [hphase])
      exact hsub.request rest
    | lost hreq hd hconn => cases not_lost_of_request hl hreq hd hconn
    | failed _ _ =>
      rw [answer, modifyInst_self]
      exact h.request _
    | @unsubscribe _ d rest _ _ =>
      rw [modifyInst_self]
      constructor
      . exact h.lost
      . simp
      . rintro d' ⟨rfl⟩
        simp
      . intro hconn d' hd'
        exact h.heard hconn d' (List.mem_of_mem_filter hd')
      . intro d' hd'
        have hd' := (h.known d' hd').resolve_right (by simp [hphase])
        by_cases heq : d' = d
        . exact .inr (by rw [heq])
        . exact .inl (by simp [hd', heq])
    | ignored _ _ =>
      rw [modifyInst_self]
      exact h.request _
  | @unsubscribed f d hphase =>
    cases hconn : (w.insts i).connected with
    | false =>
      have hnil : (if f = .fail then (w.insts i).channels
          else (w.insts i).channels.filter (· ≠ deviceChannel d)) = [] := by
        rw [h.lost hconn]
        split <;> rfl
      constructor
      . exact fun _ => hnil
      . simp
      . simp
      . simp [hconn]
      . simp [h.lost hconn]
    | true =>
      have hf : f = .ok := by simpa [failsConnected, hconn] using hl
      subst hf
      rw [if_neg (by simp)]
      constructor
      . simp [hconn]
      . simp
      . simp
      . intro _ d' hd'
        have hne : d' ≠ d := by
          rintro rfl
          exact h.unsubscribing d' hphase hd'
        simp only [ne_eq, decide_not, List.mem_filter, Bool.not_eq_true', decide_eq_false_iff_not]
        exact ⟨h.heard hconn d' hd', fun heq => hne (deviceChannel_injective heq)⟩
      . intro d' hd'
        simp only [ne_eq, decide_not, List.mem_filter, Bool.not_eq_true',
          decide_eq_false_iff_not] at hd'
        refine .inl ((h.known d' hd'.1).resolve_right ?_)
        intro heq
        rw [hphase] at heq
        cases heq
        exact hd'.2 rfl
  | lost _ => exact ⟨fun _ => rfl, fun _ => rfl, h.unsubscribing, by simp, by simp⟩
  | ended _ hconn => exact ⟨h.lost, fun _ => hconn, by simp, h.heard, by simp [h.lost hconn]⟩
  | reconnected hphase _ =>
    have hchannels := h.lost (h.reconnecting hphase)
    exact ⟨by simp, by simp, by simp, by simp, by simp [hchannels]⟩
  | resubscribed hphase hconn =>
    exact h.subscribe hconn _ (by simp) (by simp) (by simp [hphase])
  | unanswered _ hconn => simp [failsConnected, hconn] at hl
  | failed hphase =>
    refine ⟨h.lost, by simp, by simp, h.heard, ?_⟩
    intro d' hd'
    exact .inl ((h.known d' hd').resolve_right (by simp [hphase]))
  | resynced hphase =>
    refine ⟨h.lost, by simp, by simp, h.heard, ?_⟩
    intro d' hd'
    exact .inl ((h.known d' hd').resolve_right (by simp [hphase]))

/-!
No registered connection is deaf.
-/

/--
The instance is subscribed for the device, or will be once it has dealt with a loss.
-/
def Hearing (w : World) (i : InstanceId) (d : Uuid) : Prop :=
  d ∈ (w.insts i).subscribed ∨ (w.insts i).connected = false ∨ d ∈ (w.insts i).phase.todo

theorem mem_registeredDevices {x : Instance} (h : x.current d ≠ none)
    : d ∈ x.registeredDevices := by
  have hsome : (x.registry.lookup d).isSome := Option.isSome_iff_ne_none.mpr h
  exact AList.mem_keys.mp (AList.lookup_isSome.mp hsome)

theorem Hearing.step {l : Label} (h : w.Hearing i d) (hl : w.failsConnected l = false)
    (hcur : (w.insts i).current d ≠ none) (hstep : BusStep w i l (w'.insts i))
    : w'.Hearing i d := by
  unfold Hearing
  generalize w'.insts i = x at hstep ⊢
  cases hstep with
  | same hsame =>
    rw [hsame.subscribed, hsame.connected, hsame.phase]
    exact h
  | asked _ _ _ _ => exact h
  | request hphase hreq =>
    cases hreq with
    | known _ _ =>
      rw [answer, modifyInst_self]
      exact h
    | subscribed _ _ _ =>
      rw [answer, modifyInst_self]
      exact h.imp_left List.mem_insert_of_mem
    | lost hreq hd hconn => cases not_lost_of_request hl hreq hd hconn
    | failed _ _ =>
      rw [answer, modifyInst_self]
      exact h
    | @unsubscribe _ d' _ _ hnone =>
      rw [modifyInst_self]
      have hne : d ≠ d' := by
        rintro rfl
        exact hcur hnone
      unfold Hearing at h
      simp only [hphase, BusPhase.todo, List.not_mem_nil, or_false] at h ⊢
      exact h.imp_left fun hd => by simp [hd, hne]
    | ignored _ _ =>
      rw [modifyInst_self]
      exact h
  | unsubscribed hphase =>
    unfold Hearing at h
    simp only [hphase, BusPhase.todo, List.not_mem_nil, or_false] at h ⊢
    exact h
  | lost _ => exact .inr (.inl rfl)
  | ended _ hconn => exact .inr (.inl hconn)
  | reconnected _ horder => exact .inr (.inr (horder.mem_iff.mpr (mem_registeredDevices hcur)))
  | resubscribed hphase _ =>
    unfold Hearing at h
    rw [hphase] at h
    simp only [Instance.subscribe, BusPhase.todo, List.mem_insert_iff, List.mem_cons] at h ⊢
    tauto
  | unanswered _ hconn => simp [failsConnected, hconn] at hl
  | failed hphase =>
    have hconn : (w.insts i).connected = false := by simpa [failsConnected] using hl
    exact .inr (.inl hconn)
  | resynced hphase =>
    unfold Hearing at h
    simp only [hphase, BusPhase.todo, List.not_mem_nil, or_false] at h ⊢
    exact h

theorem broadcastResync_answers (w : World) (i : InstanceId)
    : (w.broadcastResync i).answers = w.answers := by
  unfold broadcastResync
  generalize (w.insts i).registeredDevices = ds
  induction ds generalizing w with
  | nil => rfl
  | cons d ds ih =>
    rw [List.foldl_cons, ih]
    split
    . rfl
    . split <;> rfl

/--
An answer that says yes comes with the subscription.
-/
theorem step_answer_true {l : Label} (h : w.step env l = some w') {c : Uuid}
    (hc : w'.answers c = some true)
    : w.answers c = some true
      ∨ ∃ i d, .subscribe d c ∈ (w.insts i).requests ∧ d ∈ (w'.insts i).subscribed := by
  cases hbus : l.ofBus with
  | false => exact .inl (by rwa [(step_sameSubs hbus h).answers] at hc)
  | true =>
    cases l <;> try contradiction
    case busRequest i f =>
      have ⟨hphase, hreq⟩ := busRequest_eq_some h
      exact (SubsStep.request hphase hreq).answer hc
    case busMessage i => exact .inl (by rwa [(busMessage_sameSubs h).answers] at hc)
    case busUnsubscribe i f =>
      unfold step busUnsubscribe at h
      dsimp only at h
      split at h
      . cases h
        exact .inl hc
      . cases h
    case lose i keep =>
      rw [lose_eq_some h] at hc
      exact .inl hc
    case busLost i =>
      unfold step busLost at h
      dsimp only at h
      split at h
      . cases h
        exact .inl hc
      . cases h
    case reconnect i order =>
      unfold step reconnect at h
      dsimp only at h
      split at h
      . cases h
        exact .inl hc
      . cases h
    case resubscribe i f =>
      unfold step resubscribe at h
      dsimp only at h
      split at h
      . split at h
        . cases h
          exact .inl hc
        . cases h
          exact .inl hc
        . cases h
          exact .inl hc
        . cases h
      . cases h
    case resync i =>
      rw [(resync_eq_some h).2, broadcastResync_answers] at hc
      exact .inl hc

/-!
No subscription is left without a connection.
-/

/--
A connection of the device on the instance has left the registry and still has to ask for the end
of its subscription.
-/
def Owed (w : World) (i : InstanceId) (d : Uuid) : Prop :=
  ∃ c t, w.conns c = some t ∧ t.me.inst = i ∧ t.me.deviceId = d ∧ t.owes

/--
The request is in the queue, behind every request to subscribe.
-/
def Requested (x : Instance) (d : Uuid) : Prop :=
  ∃ before after, x.requests = before ++ .unsubscribe d :: after ∧ ∀ c, .subscribe d c ∉ after

/--
The instance neither is subscribed for the device nor is going to be.
-/
structure Unsubscribed (x : Instance) (d : Uuid) : Prop where
  requests : ∀ c, .subscribe d c ∉ x.requests
  subscribed : d ∉ x.subscribed
  todo : d ∉ x.phase.todo

theorem Unsubscribed.ask {x : Instance} {r : BusRequest} (h : Unsubscribed x d)
    (hr : ∀ c, r ≠ .subscribe d c) : Unsubscribed (x.request r) d where
  requests c hc := by
    cases List.mem_append.mp hc with
    | inl hc => exact h.requests c hc
    | inr hc => exact hr c (List.mem_singleton.mp hc).symm
  subscribed := h.subscribed
  todo := h.todo

theorem Requested.ask {x : Instance} {r : BusRequest} (h : Requested x d)
    (hr : ∀ c, r ≠ .subscribe d c) : Requested (x.request r) d := by
  have ⟨before, after, heq, hafter⟩ := h
  refine ⟨before, after ++ [r], by simp [Instance.request, heq], ?_⟩
  intro c hc
  cases List.mem_append.mp hc with
  | inl hc => exact hafter c hc
  | inr hc => exact hr c (List.mem_singleton.mp hc).symm

/--
A request that is taken leaves the one that matters in the queue, or is that one.
-/
theorem Requested.take {x : Instance} {r : BusRequest} {rest : List BusRequest}
    (h : Requested x d) (hreq : x.requests = r :: rest)
    : Requested { x with requests := rest } d ∨ r = .unsubscribe d ∧ ∀ c, .subscribe d c ∉ rest := by
  have ⟨before, after, heq, hafter⟩ := h
  rw [hreq] at heq
  cases before with
  | nil =>
    injection heq with hr hrest
    exact .inr ⟨hr, hrest ▸ hafter⟩
  | cons r' before =>
    injection heq with _ hrest
    exact .inl ⟨before, after, hrest, hafter⟩

/--
A request of a connection that asks in turn is not one to subscribe a device without a connection.
-/
theorem request_ne_subscribe {c c' : Uuid} {f : Fault} {t : ConnTask} {s : Conn} {o : Op}
    {k : o.Res → Prog Conn Op Op.Res Next} {r : BusRequest}
    (hl : w.asksOutOfTurn (.exec c f) = false) (hc : w.conns c = some t)
    (hprog : t.prog = .wait s o k) (hi : t.me.inst = i) (hr : o.request? t.me = some r)
    (hnone : (w.insts i).current d = none) : r ≠ .subscribe d c' := by
  rintro rfl
  cases o <;> cases hr
  subst hi
  simp [asksOutOfTurn, hc, hprog, hnone] at hl

/--
What the queue and the subscriptions owe to a device without a connection is not forgotten.
-/
theorem unsubscribed_step {l : Label} (hturn : w.asksOutOfTurn l = false)
    (hnone : (w.insts i).current d = none) (hstep : BusStep w i l (w'.insts i))
    (h : Requested (w.insts i) d ∨ Unsubscribed (w.insts i) d)
    : Requested (w'.insts i) d ∨ Unsubscribed (w'.insts i) d := by
  generalize w'.insts i = x at hstep ⊢
  -- the queue is the same, and the device does not come back
  have hsame : ∀ x : Instance, x.requests = (w.insts i).requests
      → (d ∉ (w.insts i).subscribed → d ∉ (w.insts i).phase.todo → d ∉ x.subscribed)
      → (d ∉ (w.insts i).phase.todo → d ∉ x.phase.todo)
      → Requested x d ∨ Unsubscribed x d := by
    intro x hreq hsub htodo
    cases h with
    | inl h => exact .inl (by rwa [Requested, hreq])
    | inr h =>
      exact .inr ⟨by rw [hreq]; exact h.requests, hsub h.subscribed h.todo, htodo h.todo⟩
  -- the first request is taken
  have htaken : ∀ (x : Instance) (r : BusRequest) (rest : List BusRequest),
      (w.insts i).requests = r :: rest → x.requests = rest
      → (r = .unsubscribe d → d ∉ x.subscribed)
      → (d ∉ (w.insts i).subscribed → (∀ c, r ≠ .subscribe d c) → d ∉ x.subscribed)
      → d ∉ x.phase.todo → Requested x d ∨ Unsubscribed x d := by
    intro x r rest hreq hrest hun hsub htodo
    subst hrest
    cases h with
    | inl h =>
      cases h.take hreq with
      | inl h => exact .inl h
      | inr h => exact .inr ⟨h.2, hun h.1, htodo⟩
    | inr h =>
      refine .inr ⟨?_, hsub h.subscribed ?_, htodo⟩
      . intro c hc
        exact h.requests c (hreq ▸ List.mem_cons_of_mem r hc)
      . rintro c rfl
        exact h.requests c (hreq ▸ List.mem_cons_self)
  cases hstep with
  | same hsame' =>
    apply hsame x hsame'.requests
    . rw [hsame'.subscribed]
      exact fun h _ => h
    . rw [hsame'.phase]
      exact id
  | asked hc hprog hi hr =>
    have hne : ∀ c', _ ≠ BusRequest.subscribe d c' := fun c' =>
      request_ne_subscribe hturn hc hprog hi hr hnone
    exact h.imp (·.ask hne) (·.ask hne)
  | request hphase hreq =>
    have htodo : d ∉ (w.insts i).phase.todo := by
      rw [hphase]
      exact List.not_mem_nil
    cases hreq with
    | known hreq _ =>
      rw [answer, modifyInst_self]
      exact htaken _ _ _ hreq rfl (by simp) (fun h _ => h) htodo
    | @subscribed d' c rest hreq _ _ =>
      rw [answer, modifyInst_self]
      refine htaken _ _ _ hreq rfl (by simp) ?_ htodo
      intro hd hne
      simp only [Instance.subscribe, List.mem_insert_iff, not_or]
      refine ⟨?_, hd⟩
      rintro rfl
      exact hne c rfl
    | lost hreq _ _ =>
      rw [answer, modifyInst_self]
      exact htaken _ _ _ hreq rfl (by simp) (fun h _ => h) htodo
    | failed hreq _ =>
      rw [answer, modifyInst_self]
      exact htaken _ _ _ hreq rfl (by simp) (fun h _ => h) htodo
    | @unsubscribe _ d' rest hreq _ =>
      rw [modifyInst_self]
      refine htaken _ _ _ hreq rfl ?_ ?_ List.not_mem_nil
      . rintro ⟨rfl⟩
        simp
      . intro hd _
        simp [hd]
    | ignored hreq hd =>
      rw [modifyInst_self]
      refine htaken _ _ _ hreq rfl ?_ (fun h _ => h) htodo
      rintro ⟨rfl⟩
      exact hd.resolve_left (fun hne => hne hnone)
  | unsubscribed _ => exact hsame _ rfl (fun h _ => h) (fun _ => List.not_mem_nil)
  | lost _ => exact hsame _ rfl (fun h _ => h) id
  | ended _ _ => exact hsame _ rfl (fun h _ => h) (fun _ => List.not_mem_nil)
  | reconnected _ horder =>
    refine hsame _ rfl (fun _ _ => List.not_mem_nil) ?_
    intro _ hd
    have hmem : d ∈ (w.insts i).registeredDevices := horder.mem_iff.mp hd
    have hsome := AList.lookup_isSome.mpr (AList.mem_keys.mpr hmem)
    change ((w.insts i).current d).isSome = true at hsome
    rw [hnone] at hsome
    cases hsome
  | @resubscribed d' todo hphase _ =>
    refine hsame _ rfl ?_ ?_
    . intro hd htodo
      rw [hphase] at htodo
      simp only [Instance.subscribe, List.mem_insert_iff, not_or]
      refine ⟨?_, hd⟩
      rintro rfl
      exact htodo List.mem_cons_self
    . rw [hphase]
      exact fun h hd => h (List.mem_cons_of_mem _ hd)
  | unanswered hphase _ =>
    refine hsame _ rfl (fun h _ => h) ?_
    rw [hphase]
    exact fun h hd => h (List.mem_cons_of_mem _ hd)
  | failed hphase =>
    refine hsame _ rfl (fun h _ => h) ?_
    rw [hphase]
    exact fun h hd => h (List.mem_cons_of_mem _ hd)
  | resynced _ => exact hsame _ rfl (fun h _ => h) (fun _ => List.not_mem_nil)

/--
A connection that owes its request goes on to ask.
-/
theorem Owed.step {l : Label} (h : Owed w i d) (hstep : w.step env l = some w')
    : Owed w' i d ∨ Requested (w'.insts i) d := by
  have ⟨c, t, hc, hi, hd, howes⟩ := h
  have ⟨hun, hno⟩ := ConnTask.owes_iff.mp howes
  have htask := step_task hstep c
  generalize hu : w'.conns c = u at htask
  cases htask with
  | same _ => exact .inl ⟨c, t, hu.trans hc, hi, hd, howes⟩
  | connected hnone =>
    rw [hc] at hnone
    cases hnone
  | @resumed f t1 s o k w1 r hc1 hprog hperf =>
    rw [hc] at hc1
    cases hc1
    by_cases ho : o = .unsubscribe
    . subst ho
      right
      have ⟨_, _, _, _, w2, _, hc2, hprog2, hperf2, hw'⟩ := exec_eq_some.mp hstep
      rw [hc] at hc2
      cases hc2
      rw [hprog] at hprog2
      cases hprog2
      rw [hw']
      change Requested (w2.insts i) d
      cases perform_hub hperf2 with
      | other ho => cases ho
      | unsubscribe =>
        subst hi hd
        rw [modifyInst_self]
        exact ⟨(w.insts t.me.inst).requests, [], rfl, by simp⟩
    . left
      refine ⟨c, _, hu, by rwa [ConnTask.resume_me], by rwa [ConnTask.resume_me], ?_⟩
      rw [ConnTask.owes_iff, ConnTask.resume_trace]
      exact ⟨hun.cons _, fun hdid => hno (did_of_cons ho hdid)⟩
  | @handled e t1 s hc1 _ _ =>
    rw [hc] at hc1
    cases hc1
    left
    refine ⟨c, _, hu, by rwa [ConnTask.handle_me], by rwa [ConnTask.handle_me], ?_⟩
    rw [ConnTask.owes_iff, ConnTask.handle_trace]
    exact ⟨hun, hno⟩

theorem not_unsubscribed_of_unregister {t : ConnTask} (h : t.Ok env) {s : Conn}
    {k : Bool → Prog Conn Op Op.Res Next} (hprog : t.prog = .wait s .unregister k)
    : ¬ Did t.trace .unsubscribe () := by
  intro hdid
  have ⟨mark, hat⟩ := h
  have ⟨stage, s', rest, hsuffix, hp⟩ := hat.permitted.did hdid
  have hfirst := (hat.obeys hprog).2
  generalize t.stage = stage' at hfirst
  cases hfirst with
  | unregister hfirst =>
    cases hp with
    | unsubscribe hun _ =>
      exact hfirst true (hun.of_suffix ((List.suffix_cons _ _).trans hsuffix))

/--
The connection that has just left the registry owes its request.
-/
theorem owed_of_unregister {c : Uuid} {f : Fault} {t : ConnTask} {s : Conn}
    {k : Bool → Prog Conn Op Op.Res Next} (hok : TasksOk env w) (hc : w.conns c = some t)
    (hprog : t.prog = .wait s .unregister k)
    (hcur : (w.insts t.me.inst).current t.me.deviceId = some t.me.connId)
    (hstep : w.step env (.exec c f) = some w') : Owed w' t.me.inst t.me.deviceId := by
  have ⟨t1, s1, o, k1, w1, r, hc1, hprog1, hperf, hw'⟩ := exec_eq_some.mp hstep
  rw [hc] at hc1
  cases hc1
  rw [hprog] at hprog1
  cases hprog1
  have hr : r = true := by
    cases perform_hub hperf with
    | other ho => cases ho
    | unregister _ => rfl
    | superseded hne => exact absurd hcur hne
  refine ⟨c, t.resume s .unregister k r, by rw [hw', setConn_self], by simp, by simp, ?_⟩
  rw [ConnTask.owes_iff, ConnTask.resume_trace, hr]
  refine ⟨did_cons_self _ _ _ _, fun hdid => ?_⟩
  exact not_unsubscribed_of_unregister (hok c t hc) hprog (did_of_cons (by simp) hdid)

/--
What holds in every run in which connections ask for their subscriptions in turn and commands only
fail on lost connections.
-/
structure PubSubSound (env : Env) (w : World) : Prop where
  sound : Sound env w
  known : ∀ i, PubSubOk (w.insts i)
  hearing : Told Hearing w
  left : ∀ i d, (w.insts i).current d = none
    → Owed w i d ∨ Requested (w.insts i) d ∨ Unsubscribed (w.insts i) d

theorem pubSubSound_init (env : Env) (db : Db) : PubSubSound env (init db) where
  sound := sound_init env db
  known i := ⟨by simp [init, Instance.new], by simp [init, Instance.new],
    by simp [init, Instance.new], by simp [init, Instance.new], by simp [init, Instance.new]⟩
  hearing := {
    answered := fun i d c hc => by cases hc
    served := fun c t hc => by cases hc
  }
  left i d _ := .inr (.inr ⟨by simp [init, Instance.new], by simp [init, Instance.new],
    by simp [init, Instance.new, BusPhase.todo]⟩)

theorem PubSubSound.step {l : Label} (h : PubSubSound env w) (hfails : w.failsConnected l = false)
    (hturn : w.asksOutOfTurn l = false) (hstep : w.step env l = some w')
    : PubSubSound env w' := by
  have hbus := step_busStep hstep
  refine ⟨h.sound.step hstep, fun i => (hbus i).pubSubOk hfails (h.known i), ?_, ?_⟩
  . refine h.hearing.step h.sound.wellFormed hstep ?_ ?_
    . intro i d hhearing hcur
      exact hhearing.step hfails hcur (hbus i)
    . intro c hc
      refine (step_answer_true hstep hc).imp_right ?_
      rintro ⟨i, d, hreq, hd⟩
      exact ⟨i, d, hreq, .inl hd⟩
  . intro i d hnone'
    have hcurrent := step_current hstep i d
    rw [hnone'] at hcurrent
    generalize hu : (none : Option Uuid) = u at hcurrent
    cases hcurrent with
    | same =>
      cases h.left i d hu.symm with
      | inl howed => exact (howed.step hstep).imp_right .inl
      | inr hrest => exact .inr (unsubscribed_step hturn hu.symm (hbus i) hrest)
    | registered _ => cases hu
    | unregistered hc hprog hi hd hcur =>
      subst hi hd
      exact .inl (owed_of_unregister h.sound.tasks hc hprog hcur hstep)

theorem pubSubSound_run {db : Db} {ls : List Label} (h : run env (init db) ls = some w)
    (hmeets : Lts.Meets (step env)
      (fun w l => w.failsConnected l = false ∧ w.asksOutOfTurn l = false) (init db) ls)
    : PubSubSound env w :=
  Lts.run_invariant (fun _ _ _ hsound hl hstep => hsound.step hl.1 hl.2 hstep)
    (pubSubSound_init env db) hmeets h

end World

/--
In every run in which a `SUBSCRIBE` or `UNSUBSCRIBE` fails only on a lost pub/sub connection, and
in which a connection asks for its subscription only while it is the registered one of its device:
when the bus task of an instance has no request left, its pub/sub connection is live and no
connection there is between leaving the registry and asking for the end of its subscription, then a
registered connection that got `true` from `subscribe` is subscribed, and a device without a
registered connection is not, neither in Redis nor for all the bus task knows.
-/
theorem subscriptions_match_the_registry {env : Env} {db : Db} {ls : List Label} {w : World}
    (hrun : run env (.init db) ls = some w)
    (hmeets : Lts.Meets (World.step env)
      (fun w l => w.failsConnected l = false ∧ w.asksOutOfTurn l = false) (.init db) ls)
    {i : InstanceId} (hphase : (w.insts i).phase = .idle) (hreq : (w.insts i).requests = [])
    (hconn : (w.insts i).connected = true)
    (howes : ∀ c t, w.conns c = some t → t.me.inst = i → t.owes = false)
    : (∀ c t, w.conns c = some t → t.me.inst = i → (w.insts i).current t.me.deviceId = some c
        → Did t.trace .subscribed true → deviceChannel t.me.deviceId ∈ (w.insts i).channels)
      ∧ ∀ d, (w.insts i).current d = none
        → d ∉ (w.insts i).subscribed ∧ deviceChannel d ∉ (w.insts i).channels := by
  have h := World.pubSubSound_run hrun hmeets
  constructor
  . rintro c t hc rfl hcur hdid
    have hhearing := h.hearing.served c t hc hdid hcur
    unfold World.Hearing at hhearing
    simp only [hconn, hphase, BusPhase.todo, List.not_mem_nil, or_false, Bool.true_eq_false] at hhearing
    exact (h.known t.me.inst).heard hconn _ hhearing
  . intro d hnone
    have hgone : World.Unsubscribed (w.insts i) d := by
      cases h.left i d hnone with
      | inl howed =>
        have ⟨c, t, hc, hi, _, ht⟩ := howed
        rw [howes c t hc hi] at ht
        cases ht
      | inr hrest =>
        refine hrest.resolve_left ?_
        rintro ⟨before, after, heq, _⟩
        rw [hreq] at heq
        simp at heq
    refine ⟨hgone.subscribed, fun hd => ?_⟩
    exact ((h.known i).known d hd).elim hgone.subscribed (by simp [hphase])

namespace Sample

/--
The pub/sub connection of an instance is lost and rebuilt.
-/
def rebuilds (i : InstanceId) (d : Uuid) : List Label :=
  [.lose i 0, .busLost i, .reconnect i [d], .resubscribe i .ok, .resync i]

/--
A device connects, the pub/sub connection breaks and comes back, and another device comes and goes.
-/
def recovers : List Label :=
  opens "a" (uuid 1) (uuid 9) ++ rebuilds "a" (uuid 9) ++ opens "a" (uuid 2) (uuid 8)
    ++ [Label.event (uuid 2) .clientGone] ++ execs 4 (uuid 2)
    ++ [Label.busRequest "a" .ok, .busUnsubscribe "a" .ok]

end Sample

theorem subscriptions_match_the_registry_after_a_loss
    : ∃ w t, run Sample.relay (.init .empty) Sample.recovers = some w
      ∧ w.conns (Sample.uuid 1) = some t
      ∧ deviceChannel (Sample.uuid 9) ∈ (w.insts "a").channels
      ∧ deviceChannel (Sample.uuid 8) ∉ (w.insts "a").channels := by
  have hrun : (run Sample.relay (.init .empty) Sample.recovers).any (fun w =>
      decide ((w.insts "a").phase = .idle) && decide ((w.insts "a").requests = [])
        && (w.insts "a").connected && decide ((w.insts "a").current (Sample.uuid 8) = none)
        && w.connects.all (fun c => (w.conns c).all (!·.owes))
        && (w.conns (Sample.uuid 1)).any (fun t =>
          decide (t.me.inst = "a") && decide (t.me.deviceId = Sample.uuid 9)
            && decide ((w.insts "a").current t.me.deviceId = some (Sample.uuid 1))
            && t.serving)) = true := by
    decide +kernel
  have hmeets : Lts.Meets (World.step Sample.relay)
      (fun w l => w.failsConnected l = false ∧ w.asksOutOfTurn l = false) (.init .empty)
      Sample.recovers := by
    decide +kernel
  simp only [Option.any_eq_true, Bool.and_eq_true, decide_eq_true_eq, List.all_eq_true] at hrun
  have ⟨w, hw, ⟨⟨⟨⟨hphase, hreq⟩, hconn⟩, hnone⟩, howes⟩, t, ht, ⟨⟨hinst, hdev⟩, hcur⟩, hserving⟩ :=
    hrun
  have hsound := World.sound_run hw
  have howes' : ∀ c t, w.conns c = some t → t.me.inst = "a" → t.owes = false := by
    intro c t hc _
    simpa [hc] using howes c (hsound.mem_connects hc)
  have ⟨s, hprog⟩ := ConnTask.serving_iff.mp hserving
  have hdid := ((hsound.tasks _ t ht).atRest hprog).opened.subscribed
  have ⟨hheard, hgone⟩ := subscriptions_match_the_registry hw hmeets hphase hreq hconn howes'
  exact ⟨w, t, hw, ht, hdev ▸ hheard _ t ht hinst hcur hdid, (hgone _ hnone).2⟩

namespace Sample

/--
Two connections of a device register. The newer one opens and its device leaves, and only then the
older one asks for its subscription, gets it, is told to end and ends.
-/
def overtakes : List Label :=
  [Label.connect "a" (uuid 1) (uuid 9), .connect "a" (uuid 2) (uuid 9)] ++ execs 2 (uuid 2)
    ++ [Label.busRequest "a" .ok] ++ execs 7 (uuid 2) ++ replaced "a" (uuid 2) (uuid 2)
    ++ [Label.event (uuid 2) .clientGone] ++ execs 4 (uuid 2)
    ++ [Label.busRequest "a" .ok, .busUnsubscribe "a" .ok]
    ++ [Label.exec (uuid 1) .ok, .busRequest "a" .ok] ++ execs 7 (uuid 1)
    ++ [Label.event (uuid 1) (.delivery (.bus (.replace (uuid 2))))] ++ execs 3 (uuid 1)

end Sample

/--
A subscription that nobody ends: the device has no registered connection, both of its connections
have ended and the bus task has nothing left to do. No command has failed.
-/
theorem overtaken_connection_leaks_its_subscription
    : Lts.Meets (World.step Sample.relay) (fun w l => w.failsConnected l = false) (.init .empty)
        Sample.overtakes
      ∧ (run Sample.relay (.init .empty) Sample.overtakes).any (fun w =>
        decide ((w.insts "a").phase = .idle) && decide ((w.insts "a").requests = [])
          && (w.insts "a").connected
          && (w.conns (Sample.uuid 1)).any (·.ended) && (w.conns (Sample.uuid 2)).any (·.ended)
          && decide ((w.insts "a").current (Sample.uuid 9) = none)
          && decide (Sample.uuid 9 ∈ (w.insts "a").subscribed)
          && decide (deviceChannel (Sample.uuid 9) ∈ (w.insts "a").channels)) = true := by
  constructor <;> decide +kernel

end HandLiveRelay
