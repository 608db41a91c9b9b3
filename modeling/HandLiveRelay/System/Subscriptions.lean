import HandLiveRelay.System.Messages

/-!
This module contains the subscriptions of the instances while no connection to Redis is lost: a
connection that was told it is subscribed stays so for as long as it is the registered one of its
device.
-/

namespace HandLiveRelay.World

open Fiber

variable {env : Env} {w w' : World}

/--
The step changes neither what an instance knows of its subscriptions nor the ones it has in Redis,
and answers no request.
-/
structure SameSubs (w w' : World) : Prop where
  answers : w'.answers = w.answers
  subscribed : ∀ i, (w'.insts i).subscribed = (w.insts i).subscribed
  channels : ∀ i, (w'.insts i).channels = (w.insts i).channels
  phase : ∀ i, (w'.insts i).phase = (w.insts i).phase
  connected : ∀ i, (w'.insts i).connected = (w.insts i).connected

theorem SameSubs.of_insts (ha : w'.answers = w.answers) (h : w'.insts = w.insts)
    : SameSubs w w' := by
  refine ⟨ha, ?_, ?_, ?_, ?_⟩ <;> intro i <;> rw [h]

theorem SameSubs.modifyInst (w : World) (i : InstanceId) (f : Instance → Instance)
    (hs : (f (w.insts i)).subscribed = (w.insts i).subscribed)
    (hc : (f (w.insts i)).channels = (w.insts i).channels)
    (hp : (f (w.insts i)).phase = (w.insts i).phase)
    (hn : (f (w.insts i)).connected = (w.insts i).connected)
    (ha : w'.answers = w.answers) (h : w'.insts = (w.modifyInst i f).insts) : SameSubs w w' := by
  refine ⟨ha, ?_, ?_, ?_, ?_⟩ <;> intro j <;> rw [h]
  . exact modifyInst_field (g := Instance.subscribed) hs j
  . exact modifyInst_field (g := Instance.channels) hc j
  . exact modifyInst_field (g := Instance.phase) hp j
  . exact modifyInst_field (g := Instance.connected) hn j

theorem SameSubs.publish (env : Env) {dest : Uuid} {msg : BusMessage}
    (ha : w'.answers = w.answers) (h : w'.insts = (w.publish env dest msg).1.insts) : SameSubs w w' := by
  have hdeliver : ∀ i, w'.insts i = (w.insts i).deliver ⟨deviceChannel dest, msg.encode⟩ := by
    intro i
    rw [h]
    rfl
  refine ⟨ha, ?_, ?_, ?_, ?_⟩ <;> intro i <;> rw [hdeliver] <;> unfold Instance.deliver <;> split <;> rfl

/--
Only the bus tasks change the subscriptions.
-/
theorem step_sameSubs {l : Label} (hl : l.ofBus = false) (h : w.step env l = some w')
    : SameSubs w w' := by
  cases step_view h with
  | @connect i c d _ _ hw' =>
    subst hw'
    exact .modifyInst w i (·.register d c) rfl rfl rfl rfl rfl rfl
  | @exec c f t s o k w1 r _ _ hperf hw' =>
    subst hw'
    have ha : w1.answers = w.answers := (perform_sameFrame hperf).answers
    cases perform_hub hperf with
    | other _ hi _ => exact .of_insts ha hi
    | tellPrevious => exact .of_insts rfl rfl
    | subscribe => exact .modifyInst w t.me.inst (·.request _) rfl rfl rfl rfl rfl rfl
    | unregister _ => exact .modifyInst w t.me.inst (·.unregister _) rfl rfl rfl rfl rfl rfl
    | superseded _ => exact .of_insts rfl rfl
    | unsubscribe => exact .modifyInst w t.me.inst (·.request _) rfl rfl rfl rfl rfl rfl
    | publish => exact .publish env rfl rfl
    | unpublished => exact .of_insts rfl rfl
    | fetchSub => exact .of_insts rfl rfl
  | event _ _ _ hw' =>
    subst hw'
    exact .of_insts rfl rfl
  | bus hbus _ =>
    rw [hl] at hbus
    cases hbus
  | @job k f a actions _ hw' =>
    subst hw'
    have ⟨hframe, hi⟩ := act_frame env { w with jobs := w.jobs.set k actions } f a
    cases hi with
    | inl hi => exact .of_insts hframe.answers hi
    | inr hi =>
      have ⟨dest, msg, _, hi⟩ := hi
      exact SameSubs.publish env (w := w) hframe.answers hi
  | store _ hframe => exact .of_insts hframe.answers hframe.insts

theorem busMessage_sameSubs {i : InstanceId} (h : w.busMessage env i = some w')
    : SameSubs w w' := by
  have ⟨p, rest, _, _, hw'⟩ := busMessage_eq_some h
  have hi : w'.insts = (w.modifyInst i ({ · with stream := rest })).insts
      ∧ w'.answers = w.answers := by
    cases hw' with
    | inl hw' =>
      have ⟨d, msg, _, _, hw'⟩ := hw'
      rw [hw']
      unfold dispatch
      split <;> exact ⟨rfl, rfl⟩
    | inr hw' =>
      rw [hw'.2]
      exact ⟨rfl, rfl⟩
  exact .modifyInst w i _ rfl rfl rfl rfl hi.2 hi.1

/--
The subscriptions of an instance that never lost its connection to Redis.
-/
structure InstOk (i : Instance) : Prop where
  connected : i.connected = true
  phase : i.phase = .idle ∨ ∃ d, i.phase = .unsubscribing d
  channels : ∀ d ∈ i.subscribed, deviceChannel d ∈ i.channels
  unsubscribing : ∀ d, i.phase = .unsubscribing d → d ∉ i.subscribed

theorem SameSubs.instOk (h : SameSubs w w') {i : InstanceId} (hi : InstOk (w.insts i))
    : InstOk (w'.insts i) where
  connected := by rw [h.connected, hi.connected]
  phase := by
    rw [h.phase]
    exact hi.phase
  channels := by
    rw [h.subscribed, h.channels]
    exact hi.channels
  unsubscribing := by
    rw [h.subscribed, h.phase]
    exact hi.unsubscribing

theorem instOk_modifyInst {i : InstanceId} (f : Instance → Instance) (h : ∀ i, InstOk (w.insts i))
    (hf : InstOk (f (w.insts i))) (j : InstanceId) : InstOk ((w.modifyInst i f).insts j) := by
  by_cases hj : j = i
  . subst hj
    rw [modifyInst_self]
    exact hf
  . rw [modifyInst_ne w f hj]
    exact h j

theorem instOk_request {i : InstanceId} {f : Fault} (h : ∀ i, InstOk (w.insts i))
    (hphase : (w.insts i).phase = .idle) (hreq : RequestStep w i f w') (j : InstanceId)
    : InstOk (w'.insts j) := by
  have hi := h i
  -- what only takes the request from the queue
  have htaken : ∀ requests, InstOk { w.insts i with requests } := fun _ =>
    ⟨hi.connected, hi.phase, hi.channels, hi.unsubscribing⟩
  cases hreq with
  | @known _ d c requests _ _ => exact instOk_modifyInst ({ · with requests }) h (htaken _) j
  | @subscribed d c requests _ _ _ =>
    apply instOk_modifyInst (fun i => { i.subscribe d with requests }) h
    refine ⟨hi.connected, hi.phase, ?_, ?_⟩
    . intro d' hd'
      simp only [Instance.subscribe, List.mem_insert_iff] at hd' ⊢
      cases hd' with
      | inl heq => exact .inl (by rw [heq])
      | inr hd' => exact .inr (hi.channels d' hd')
    . intro d' hd'
      simp [Instance.subscribe, hphase] at hd'
  | @lost d c requests _ _ _ =>
    apply instOk_modifyInst
      (fun i => { i with requests, channels := i.channels.insert (deviceChannel d) }) h
    refine ⟨hi.connected, hi.phase, ?_, hi.unsubscribing⟩
    intro d' hd'
    exact List.mem_insert_of_mem (hi.channels d' hd')
  | @failed d c requests _ _ => exact instOk_modifyInst ({ · with requests }) h (htaken _) j
  | @unsubscribe _ d requests _ _ =>
    refine instOk_modifyInst _ h ⟨hi.connected, .inr ⟨d, rfl⟩, ?_, ?_⟩ j
    . intro d' hd'
      exact hi.channels d' (List.mem_of_mem_filter hd')
    . rintro d' ⟨rfl⟩
      simp
  | @ignored _ d requests _ _ => exact instOk_modifyInst ({ · with requests }) h (htaken _) j

/--
What can become of the subscriptions while no connection to Redis is lost.
-/
inductive SubsStep (w : World) : Label → World → Prop where
  | same {l} {w1 : World} (h : SameSubs w w1) : SubsStep w l w1
  | request {i f} {w1 : World} (hphase : (w.insts i).phase = .idle) (h : RequestStep w i f w1)
      : SubsStep w (.busRequest i f) w1
  | unsubscribed {i d} (f : Fault) (hphase : (w.insts i).phase = .unsubscribing d)
      : SubsStep w (.busUnsubscribe i f) (w.modifyInst i fun i =>
          { i with
            channels := if f = .fail then i.channels else i.channels.filter (· ≠ deviceChannel d)
            phase := .idle })

theorem step_subs {l : Label} (h : ∀ i, InstOk (w.insts i)) (hl : ∀ i keep, l ≠ .lose i keep)
    (hstep : w.step env l = some w') : SubsStep w l w' := by
  have hphase : ∀ i, (w.insts i).phase ≠ .reconnecting
      ∧ ∀ todo, (w.insts i).phase ≠ .resubscribing todo := by
    intro i
    cases (h i).phase with
    | inl hidle => simp [hidle]
    | inr hun =>
      have ⟨d, hun⟩ := hun
      simp [hun]
  cases hbus : l.ofBus with
  | false => exact .same (step_sameSubs hbus hstep)
  | true =>
    cases l <;> try contradiction
    case busRequest i f =>
      have ⟨hidle, hreq⟩ := busRequest_eq_some hstep
      exact .request hidle hreq
    case busUnsubscribe i f =>
      unfold step busUnsubscribe at hstep
      dsimp only at hstep
      split at hstep
      next d hun =>
        cases hstep
        exact .unsubscribed f hun
      . cases hstep
    case busMessage i => exact .same (busMessage_sameSubs hstep)
    case lose i keep => exact absurd rfl (hl i keep)
    case busLost i => simp [step, busLost, (h i).connected] at hstep
    case reconnect i order => simp [step, reconnect, (hphase i).1] at hstep
    case resubscribe i f =>
      unfold step resubscribe at hstep
      dsimp only at hstep
      split at hstep
      next hre => exact absurd hre ((hphase i).2 _)
      . cases hstep
    case resync i => exact absurd (resync_eq_some hstep).1 ((hphase i).2 [])

theorem SubsStep.instOk {l : Label} (hstep : SubsStep w l w') (h : ∀ i, InstOk (w.insts i))
    (j : InstanceId)
    : InstOk (w'.insts j) := by
  cases hstep with
  | same hsame => exact hsame.instOk (h j)
  | request hphase hreq => exact instOk_request h hphase hreq j
  | @unsubscribed i d f hphase =>
    have hi := h i
    refine instOk_modifyInst _ h ⟨hi.connected, .inl rfl, ?_, by simp⟩ j
    intro d' hd'
    have hne : d' ≠ d := by
      rintro rfl
      exact hi.unsubscribing d' hphase hd'
    dsimp only
    split
    . exact hi.channels d' hd'
    . simp only [ne_eq, decide_not, List.mem_filter, Bool.not_eq_true', decide_eq_false_iff_not]
      exact ⟨hi.channels d' hd', fun heq => hne (deviceChannel_injective heq)⟩

/--
A registered device keeps its subscription.
-/
theorem SubsStep.subscribed {l : Label} (hstep : SubsStep w l w') {i : InstanceId} {d : Uuid}
    (hd : d ∈ (w.insts i).subscribed) (hcur : (w.insts i).current d ≠ none)
    : d ∈ (w'.insts i).subscribed := by
  -- a change of one instance that keeps the subscription
  have hmodify : ∀ (j : InstanceId) (f : Instance → Instance),
      (i = j → d ∈ (f (w.insts i)).subscribed) → d ∈ ((w.modifyInst j f).insts i).subscribed := by
    intro j f hf
    by_cases hij : i = j
    . subst hij
      rw [modifyInst_self]
      exact hf rfl
    . rwa [modifyInst_ne w f hij]
  cases hstep with
  | same hsame => rwa [hsame.subscribed]
  | @request j f w' _ hreq =>
    cases hreq with
    | @known _ _ _ requests _ _ => exact hmodify j ({ · with requests }) fun _ => hd
    | @subscribed d' c requests _ _ _ =>
      apply hmodify j (fun i => { i.subscribe d' with requests })
      intro _
      exact List.mem_insert_of_mem hd
    | @lost d' c requests _ _ _ =>
      exact hmodify j
        (fun i => { i with requests, channels := i.channels.insert (deviceChannel d') })
        fun _ => hd
    | @failed _ _ requests _ _ => exact hmodify j ({ · with requests }) fun _ => hd
    | @unsubscribe _ d' requests _ hnone =>
      apply hmodify j
      rintro rfl
      have hne : d ≠ d' := by
        rintro rfl
        exact hcur hnone
      simp [hd, hne]
    | @ignored _ _ requests _ _ => exact hmodify j ({ · with requests }) fun _ => hd
  | @unsubscribed j d' f _ => exact hmodify j _ fun _ => hd

/--
An answer that says yes comes with the subscription.
-/
theorem SubsStep.answer {l : Label} (hstep : SubsStep w l w') {c : Uuid}
    (hc : w'.answers c = some true)
    : w.answers c = some true
      ∨ ∃ i d, .subscribe d c ∈ (w.insts i).requests ∧ d ∈ (w'.insts i).subscribed := by
  -- an answer to the first request of an instance
  have hanswer : ∀ (j : InstanceId) (d c' : Uuid) (requests : List BusRequest)
      (f : Instance → Instance) (ok : Bool),
      (w.insts j).requests = .subscribe d c' :: requests
      → (ok = true → d ∈ (f (w.insts j)).subscribed)
      → Function.update w.answers c' (some ok) c = some true
      → w.answers c = some true
        ∨ ∃ i d, .subscribe d c ∈ (w.insts i).requests
          ∧ d ∈ ((w.modifyInst j f).insts i).subscribed := by
    intro j d c' requests f ok hreq hd hc
    by_cases hc' : c = c'
    . subst hc'
      rw [Function.update_self] at hc
      refine .inr ⟨j, d, by simp [hreq], ?_⟩
      rw [modifyInst_self]
      exact hd (Option.some.inj hc)
    . rw [Function.update_of_ne hc'] at hc
      exact .inl hc
  cases hstep with
  | same hsame => exact .inl (by rwa [hsame.answers] at hc)
  | @request j f w1 _ hreq =>
    cases hreq with
    | @known _ d c' requests hreq hd =>
      exact hanswer j d c' requests ({ · with requests }) true hreq (fun _ => hd) hc
    | @subscribed d c' requests hreq _ _ =>
      refine hanswer j d c' requests (fun i => { i.subscribe d with requests }) true hreq ?_ hc
      intro _
      exact List.mem_insert_self
    | @lost d c' requests hreq _ _ =>
      exact hanswer j d c' requests
        (fun i => { i with requests, channels := i.channels.insert (deviceChannel d) }) false hreq
        (by simp) hc
    | @failed d c' requests hreq _ =>
      exact hanswer j d c' requests ({ · with requests }) false hreq (by simp) hc
    | unsubscribe _ _ => exact .inl hc
    | ignored _ _ => exact .inl hc
  | unsubscribed _ _ => exact .inl hc

/--
What a request changes: it subscribes to more, or the instance begins to give up the subscription of
a device without a connection.
-/
theorem RequestStep.modified {i : InstanceId} {f : Fault} (h : RequestStep w i f w')
    : ∃ g : Instance → Instance, w'.insts = (w.modifyInst i g).insts
      ∧ (∀ channel ∈ (w.insts i).channels, channel ∈ (g (w.insts i)).channels)
      ∧ ((g (w.insts i)).phase = (w.insts i).phase
        ∨ ∃ d, (g (w.insts i)).phase = .unsubscribing d ∧ (w'.insts i).current d = none) := by
  cases h with
  | @known _ _ _ requests _ _ => exact ⟨({ · with requests }), rfl, fun _ h => h, .inl rfl⟩
  | @subscribed d c requests _ _ _ =>
    exact ⟨fun i => { i.subscribe d with requests }, rfl, fun _ h => List.mem_insert_of_mem h,
      .inl rfl⟩
  | @lost d c requests _ _ _ =>
    exact ⟨fun i => { i with requests, channels := i.channels.insert (deviceChannel d) }, rfl,
      fun _ h => List.mem_insert_of_mem h, .inl rfl⟩
  | @failed _ _ requests _ _ => exact ⟨({ · with requests }), rfl, fun _ h => h, .inl rfl⟩
  | @unsubscribe _ d requests _ hnone =>
    refine ⟨_, rfl, fun _ h => h, .inr ⟨d, rfl, ?_⟩⟩
    rw [modifyInst_self]
    exact hnone
  | @ignored _ _ requests _ _ => exact ⟨({ · with requests }), rfl, fun _ h => h, .inl rfl⟩

/--
The channel of a device is left only when its subscription is given up.
-/
theorem SubsStep.channel {l : Label} (hstep : SubsStep w l w') {i : InstanceId} {d : Uuid}
    (hd : deviceChannel d ∈ (w.insts i).channels)
    : deviceChannel d ∈ (w'.insts i).channels
      ∨ (w.insts i).phase = .unsubscribing d ∧ ∃ f, l = .busUnsubscribe i f := by
  cases hstep with
  | same hsame => exact .inl (by rwa [hsame.channels])
  | @request j f _ _ hreq =>
    have ⟨g, hw', hchannels, _⟩ := hreq.modified
    left
    rw [hw']
    by_cases hij : i = j
    . subst hij
      rw [modifyInst_self]
      exact hchannels _ hd
    . rwa [modifyInst_ne w g hij]
  | @unsubscribed j d' f hphase =>
    by_cases hij : i = j
    . subst hij
      rw [modifyInst_self]
      by_cases hdev : d = d'
      . subst hdev
        exact .inr ⟨hphase, f, rfl⟩
      . left
        dsimp only
        split
        . exact hd
        . simp only [ne_eq, decide_not, List.mem_filter, Bool.not_eq_true', decide_eq_false_iff_not]
          exact ⟨hd, fun heq => hdev (deviceChannel_injective heq)⟩
    . rw [modifyInst_ne w _ hij]
      exact .inl hd

/--
A subscription is given up only for a device without a connection.
-/
theorem SubsStep.unsubscribing {l : Label} (hstep : SubsStep w l w') {i : InstanceId} {d : Uuid}
    (hphase : (w'.insts i).phase = .unsubscribing d)
    : (w.insts i).phase = .unsubscribing d ∨ (w'.insts i).current d = none := by
  cases hstep with
  | same hsame => exact .inl (by rwa [hsame.phase] at hphase)
  | @request j f _ _ hreq =>
    have ⟨g, hw', _, hor⟩ := hreq.modified
    rw [hw'] at hphase
    by_cases hij : i = j
    . subst hij
      rw [modifyInst_self] at hphase
      cases hor with
      | inl hsame => exact .inl (hsame.symm.trans hphase)
      | inr hnone =>
        have ⟨d', hphase', hnone⟩ := hnone
        rw [hphase] at hphase'
        cases hphase'
        exact .inr hnone
    . rw [modifyInst_ne w g hij] at hphase
      exact .inl hphase
  | @unsubscribed j d' f _ =>
    by_cases hij : i = j
    . subst hij
      rw [modifyInst_self] at hphase
      cases hphase
    . rw [modifyInst_ne w _ hij] at hphase
      exact .inl hphase

/--
A connection that exists is registered only if it was before.
-/
theorem current_of_step {l : Label} {i : InstanceId} {d c : Uuid} (hstep : w.step env l = some w')
    (hex : w.conns c ≠ none) (hc : (w'.insts i).current d = some c)
    : (w.insts i).current d = some c := by
  have hcurrent := step_current hstep i d
  rw [hc] at hcurrent
  generalize hu : some c = u at hcurrent ⊢
  cases hcurrent with
  | same => rfl
  | registered hnone =>
    cases hu
    exact absurd hnone hex
  | unregistered => cases hu

theorem subscribed_true {me : Ident} {f : Fault} {w1 : World}
    (h : w.perform env me .subscribed f = some (w1, true)) : w.answers me.connId = some true := by
  cases f with
  | ok =>
    have ⟨b, hb, heq⟩ := Option.map_eq_some_iff.mp h
    cases heq
    exact hb
  | fail => cases h
  | lost => cases h

/--
`K` holds for the device and the instance of whoever was told it is subscribed, for as long as it
is the registered connection of its device.
-/
structure Told (K : World → InstanceId → Uuid → Prop) (w : World) : Prop where
  answered : ∀ i d c, w.answers c = some true → (w.insts i).current d = some c → K w i d
  served : ∀ c t, w.conns c = some t → Did t.trace .subscribed true
    → (w.insts t.me.inst).current t.me.deviceId = some c → K w t.me.inst t.me.deviceId

/--
It is enough that `K` lasts for registered devices, and that it comes with an answer that says yes.
-/
theorem Told.step {K : World → InstanceId → Uuid → Prop} {l : Label} (h : Told K w)
    (hwf : WellFormed w) (hstep : w.step env l = some w')
    (hkeep : ∀ i d, K w i d → (w.insts i).current d ≠ none → K w' i d)
    (hanswer : ∀ c, w'.answers c = some true → w.answers c = some true
      ∨ ∃ i d, .subscribe d c ∈ (w.insts i).requests ∧ K w' i d) : Told K w' := by
  constructor
  . intro i d c ha hc
    have hex : w.conns c ≠ none := by
      intro hnone
      cases hanswer c ha with
      | inl ha =>
        rw [hwf.answers c hnone] at ha
        cases ha
      | inr hreq =>
        obtain ⟨j, d', hreq, _⟩ := hreq
        obtain ⟨t, ht, _⟩ := hwf.requests j d' c hreq
        rw [hnone] at ht
        cases ht
    have hcur := current_of_step hstep hex hc
    cases hanswer c ha with
    | inl ha => exact hkeep i d (h.answered i d c ha hcur) (by simp [hcur])
    | inr hreq =>
      -- the request names the device and the instance of the connection
      obtain ⟨j, d', hreq, hd'⟩ := hreq
      obtain ⟨t, ht, hme⟩ := hwf.requests j d' c hreq
      obtain ⟨t', ht', hme'⟩ := hwf.current i d c hcur
      rw [ht] at ht'
      cases ht'
      rw [hme] at hme'
      cases hme'
      exact hd'
  . intro c t' hc' hdid hcur'
    have htask := step_task hstep c
    rw [hc'] at htask
    generalize hu : some t' = u at htask
    cases htask with
    | same _ =>
      have hcur := current_of_step hstep (by simp [← hu]) hcur'
      exact hkeep _ _ (h.served c t' hu.symm hdid hcur) (by simp [hcur])
    | connected _ =>
      cases hu
      obtain ⟨s, hs⟩ := hdid
      simp [ConnTask.new] at hs
    | @resumed f t s o k w1 r hc hprog hperf =>
      cases hu
      rw [ConnTask.resume_me] at hcur' ⊢
      rw [ConnTask.resume_trace] at hdid
      have hcur := current_of_step hstep (by simp [hc]) hcur'
      obtain ⟨s', hs'⟩ := hdid
      cases List.mem_cons.mp hs' with
      | inl heq =>
        cases heq
        have ha := subscribed_true hperf
        rw [hwf.ident c t hc] at ha
        exact hkeep _ _ (h.answered _ _ c ha hcur) (by simp [hcur])
      | inr hs' => exact hkeep _ _ (h.served c t hc ⟨s', hs'⟩ hcur) (by simp [hcur])
    | @handled e t s hc _ _ =>
      cases hu
      rw [ConnTask.handle_me] at hcur' ⊢
      rw [ConnTask.handle_trace] at hdid
      have hcur := current_of_step hstep (by simp [hc]) hcur'
      exact hkeep _ _ (h.served c t hc hdid hcur) (by simp [hcur])

/--
Whoever was told it is subscribed is, for as long as it is the registered connection of its device.
-/
structure Subscriptions (w : World) : Prop where
  inst : ∀ i, InstOk (w.insts i)
  answered : ∀ i d c, w.answers c = some true → (w.insts i).current d = some c
    → d ∈ (w.insts i).subscribed
  served : ∀ c t, w.conns c = some t → Did t.trace .subscribed true
    → (w.insts t.me.inst).current t.me.deviceId = some c
    → t.me.deviceId ∈ (w.insts t.me.inst).subscribed

theorem subscriptions_init (db : Db) : Subscriptions (init db) where
  inst i := ⟨rfl, .inl rfl, by simp [init, Instance.new], by simp [init, Instance.new]⟩
  answered i d c hc := by cases hc
  served c t hc := by cases hc

theorem Subscriptions.step {l : Label} (h : Subscriptions w) (hwf : WellFormed w)
    (hl : ∀ i keep, l ≠ .lose i keep) (hstep : w.step env l = some w') : Subscriptions w' := by
  have hsubs := step_subs h.inst hl hstep
  have htold := Told.step (K := fun w i d => d ∈ (w.insts i).subscribed) ⟨h.answered, h.served⟩
    hwf hstep (fun _ _ => hsubs.subscribed) (fun _ => hsubs.answer)
  exact ⟨hsubs.instOk h.inst, htold.answered, htold.served⟩

end HandLiveRelay.World
