import HandLiveRelay.System.Subscriptions

/-!
This module contains what becomes of several connections of one device. A newer connection tells an
older one of its own instance directly, and those of other instances through the bus, so that in
the end at most one of them is left.
-/

namespace HandLiveRelay

open Fiber

/--
The connection is handling what makes it end.
-/
def ConnTask.Replaced (t : ConnTask) : Prop :=
  t.stage = .handling .kill
    ∨ ∃ c, c ≠ t.me.connId ∧ t.stage = .handling (.delivery (.bus (.replace c)))

/--
The connection has told the older ones on other instances.
-/
def ConnTask.Published (t : ConnTask) : Prop :=
  ∃ n, Did t.trace (.publish t.me.deviceId (.replace t.me.connId)) (some n)

namespace World

variable {env : Env} {w w' : World}

/--
The connection has ended, or cannot but end.
-/
inductive Leaving (w : World) (c : Uuid) (t : ConnTask) : Prop where
  | dead (h : t.alive = false)
  | replaced (h : t.Replaced)
  | queued {c'} (hne : c' ≠ c) (h : .bus (.replace c') ∈ (w.boxes c).queue)
  | killed (h : (w.boxes c).kill = true)

theorem not_replaced_of_serving {t : ConnTask} {s : Conn} (h : t.Ok env)
    (hprog : t.prog = .done s .serve) : t.alive ∧ ¬ t.Replaced := by
  have ⟨mark, hat⟩ := h
  have ⟨_, _, hsurvives, hstage⟩ := hat.post hprog
  refine ⟨ConnTask.alive_iff.mpr hstage, ?_⟩
  intro hreplaced
  cases hreplaced with
  | inl hkill => exact hsurvives _ hkill
  | inr hreplace =>
    have ⟨c, hne, hreplace⟩ := hreplace
    exact hne (hsurvives _ hreplace)

theorem Leaving.step {l : Label} {c : Uuid} {t t' : ConnTask} (h : Leaving w c t)
    (hsound : Sound env w) (hstep : w.step env l = some w') (hc : w.conns c = some t)
    (hc' : w'.conns c = some t') : Leaving w' c t' := by
  have hconnect : ∀ i d, l ≠ .connect i c d := by
    rintro i d rfl
    have ⟨_, hnone, _⟩ := connect_eq_some.mp hstep
    rw [hc] at hnone
    cases hnone
  have htask := step_task hstep c
  rw [hc'] at htask
  generalize hu : some t' = u at htask
  cases htask with
  | same hl =>
    rw [hc] at hu
    cases hu
    cases h with
    | dead h => exact .dead h
    | replaced h => exact .replaced h
    | @queued c1 hne h =>
      refine .queued hne ?_
      have hq := step_queue hstep c
      generalize (w'.boxes c).queue = queue at hq ⊢
      cases hq with
      | same => exact h
      | fresh => exact absurd rfl (hconnect _ _)
      | taken _ => exact absurd rfl hl
      | told _ _ => exact List.mem_append_left _ h
      | dispatched _ _ _ _ => exact List.mem_append_left _ h
      | resync => exact List.mem_append_left _ h
    | killed h =>
      refine .killed (step_kill hstep h hconnect ?_)
      rintro rfl
      exact hl rfl
  | connected hnone =>
    rw [hc] at hnone
    cases hnone
  | @resumed f t1 s o k w1 r hc1 hprog _ =>
    rw [hc] at hc1
    cases hc1
    cases hu
    cases ConnTask.resume_stage t s o k r with
    | inr hfin =>
      have ⟨e, hfin⟩ := hfin
      exact .dead (by simp [ConnTask.alive, hfin])
    | inl hstage =>
      cases h with
      | dead h =>
        refine .dead ?_
        unfold ConnTask.alive at h ⊢
        rwa [hstage]
      | replaced h =>
        refine .replaced ?_
        unfold ConnTask.Replaced at h ⊢
        rwa [hstage, ConnTask.resume_me]
      | @queued c1 hne h =>
        refine .queued hne ?_
        have hq := step_queue hstep c
        generalize (w'.boxes c).queue = queue at hq ⊢
        cases hq with
        | same => exact h
        | told _ _ => exact List.mem_append_left _ h
      | killed h => exact .killed (step_kill hstep h hconnect (by simp))
  | @handled e t1 s hc1 hprog hready =>
    rw [hc] at hc1
    cases hc1
    cases hu
    have ⟨halive, hnot⟩ := not_replaced_of_serving (hsound.tasks c t hc) hprog
    cases ConnTask.handle_stage env t s e with
    | inr hfin =>
      have ⟨e', hfin⟩ := hfin
      exact .dead (by simp [ConnTask.alive, hfin])
    | inl hstage =>
      cases h with
      | dead h => simp [h] at halive
      | replaced h => exact absurd h hnot
      | @queued c1 hne h =>
        have hq := step_queue hstep c
        generalize hqueue : (w'.boxes c).queue = queue at hq
        cases hq with
        | same => exact .queued hne (hqueue ▸ h)
        | @taken d rest hold =>
          rw [hold] at h
          cases List.mem_cons.mp h with
          | inl heq =>
            refine .replaced (.inr ⟨c1, ?_, heq ▸ hstage⟩)
            rw [ConnTask.handle_me, hsound.wellFormed.ident c t hc]
            exact hne
          | inr h => exact .queued hne (hqueue ▸ h)
      | killed h =>
        have he : e = .kill := by
          cases e <;> simp_all [ready, quiet]
        subst he
        exact .replaced (.inl hstage)

/--
A connection that has ended is past its event loop.
-/
theorem not_alive_of_ended {t : ConnTask} (h : t.Ok env) (hended : t.ended) : t.alive = false := by
  have ⟨s, hprog⟩ := ConnTask.ended_iff.mp hended
  have ⟨mark, hat⟩ := h
  have ⟨_, e, hstage⟩ := hat.post hprog
  simp [ConnTask.alive, hstage]

/--
A newer connection is about to tell this one.
-/
def ToBeTold (w : World) (c : Uuid) : Prop :=
  ∃ c' t s k, w.conns c' = some t ∧ t.prog = .wait s (.tellPrevious c) k

/--
A connection that is not the registered one of its device any more leaves.
-/
def Superseded (w : World) : Prop :=
  ∀ c t, w.conns c = some t → (w.insts t.me.inst).current t.me.deviceId = some c
    ∨ Leaving w c t ∨ ToBeTold w c

theorem ToBeTold.step {l : Label} {c : Uuid} {t t' : ConnTask} (h : ToBeTold w c)
    (hsound : Sound env w) (hstep : w.step env l = some w') (hc : w.conns c = some t)
    (hc' : w'.conns c = some t') : Leaving w' c t' ∨ ToBeTold w' c := by
  have ⟨c1, t1, s1, k1, hc1, hprog1⟩ := h
  have htask := step_task hstep c1
  generalize hu : w'.conns c1 = u at htask
  cases htask with
  | same _ => exact .inr ⟨c1, t1, s1, k1, hu.trans hc1, hprog1⟩
  | connected hnone =>
    rw [hc1] at hnone
    cases hnone
  | @handled e t2 s hc2 hprog2 _ =>
    rw [hc1] at hc2
    cases hc2
    rw [hprog1] at hprog2
    cases hprog2
  | @resumed f t2 s o k w1 r hc2 hprog2 hperf =>
    left
    have ⟨hne, _⟩ := hsound.wellFormed.told c1 t1 s1 c k1 hc1 hprog1
    rw [hc1] at hc2
    cases hc2
    rw [hprog1] at hprog2
    cases hprog2
    by_cases hended : t.ended
    . exact (Leaving.dead (not_alive_of_ended (hsound.tasks c t hc) hended)).step hsound hstep hc hc'
    . have hreceived : w.received c = true := by simp [received, hc, hended]
      have ⟨t3, s3, o3, k3, w3, r3, hc3, hprog3, hperf3, hw'⟩ := exec_eq_some.mp hstep
      rw [hc1] at hc3
      cases hc3
      rw [hprog1] at hprog3
      cases hprog3
      have hbox : (w'.boxes c).queue = (w.boxes c).queue ++ [.bus (.replace t1.me.connId)] := by
        subst hw'
        change (w3.boxes c).queue = _
        cases perform_hub hperf3 with
        | other ho _ _ => cases ho
        | tellPrevious =>
          rw [modifyBox_self, hreceived]
          rfl
      refine .queued ?_ (hbox ▸ List.mem_append_right _ List.mem_cons_self)
      rw [hsound.wellFormed.ident c1 t1 hc1]
      exact hne.symm

theorem finishing_of_unregister {t : ConnTask} (h : t.Ok env) {s : Conn}
    {k : Bool → Prog Conn Op Op.Res Next} (hprog : t.prog = .wait s .unregister k)
    : t.alive = false := by
  have ⟨mark, hat⟩ := h
  have hp := (hat.obeys hprog).2
  unfold ConnTask.alive
  generalize t.stage = stage at hp ⊢
  cases hp with
  | unregister _ => rfl

theorem Superseded.step {l : Label} (h : Superseded w) (hsound : Sound env w)
    (hstep : w.step env l = some w') : Superseded w' := by
  intro c t' hc'
  cases hc : w.conns c with
  | none =>
    -- the connection has just been registered
    left
    have htask := step_task hstep c
    rw [hc'] at htask
    generalize hu : some t' = u at htask
    cases htask with
    | same _ =>
      rw [hc] at hu
      cases hu
    | @connected i d _ =>
      cases hu
      have ⟨_, _, hw'⟩ := connect_eq_some.mp hstep
      subst hw'
      rw [ConnTask.new_me]
      change ((w.modifyInst i (·.register d c)).insts i).current d = some c
      rw [modifyInst_self, Instance.current_register_self]
    | resumed hold _ _ =>
      rw [hc] at hold
      cases hold
    | handled hold _ _ =>
      rw [hc] at hold
      cases hold
  | some t =>
    have hme : t'.me = t.me := by
      have ⟨t1, ht1, hme⟩ := step_conn hstep hc
      rw [hc'] at ht1
      cases ht1
      exact hme
    rw [hme]
    cases h c t hc with
    | inr hrest =>
      right
      cases hrest with
      | inl hleaving => exact .inl (hleaving.step hsound hstep hc hc')
      | inr htold => exact htold.step hsound hstep hc hc'
    | inl hcur =>
      have hcurrent := step_current hstep t.me.inst t.me.deviceId
      generalize (w'.insts t.me.inst).current t.me.deviceId = u at hcurrent ⊢
      cases hcurrent with
      | same => exact .inl hcur
      | @registered c1 _ =>
        -- the newer connection is told of this one
        right
        right
        have ⟨_, _, hw'⟩ := connect_eq_some.mp hstep
        subst hw'
        have ⟨s, k, hprog⟩ := new_tells ⟨t.me.deviceId, c1, t.me.inst⟩ c
        exact ⟨c1, _, s, k, setConn_self _ _ _, hcur ▸ hprog⟩
      | @unregistered c1 f t1 s k hc1 hprog _ _ hcur1 =>
        right
        left
        rw [hcur, hsound.wellFormed.ident c1 t1 hc1] at hcur1
        cases hcur1
        rw [hc] at hc1
        cases hc1
        have hdead := finishing_of_unregister (hsound.tasks c t hc) hprog
        exact (Leaving.dead hdead).step hsound hstep hc hc'

/--
Of two connections on different instances that have told each other, this one leaves or will find
the message of the other.
-/
inductive Beaten (w : World) (c : Uuid) (t : ConnTask) (rival : Uuid) : Prop where
  | leaving (h : Leaving w c t)
  | unregistered (h : (w.insts t.me.inst).current t.me.deviceId ≠ some c)
  | coming (h : ⟨deviceChannel t.me.deviceId, (BusMessage.replace rival).encode⟩
      ∈ (w.insts t.me.inst).stream)

/--
A message that makes a connection end reaches it or finds that it has no room for it.
-/
theorem leaving_dispatch {i : InstanceId} {d c c' : Uuid} {t : ConnTask} (hok : t.Ok env)
    (hc : w.conns c = some t) (hcur : (w.insts i).current d = some c) (hne : c' ≠ c)
    : Leaving (w.dispatch env i d (.replace c')) c t := by
  by_cases hended : t.ended
  . exact .dead (not_alive_of_ended hok hended)
  . have hreceived : w.received c = true := by simp [received, hc, hended]
    unfold dispatch
    rw [hcur]
    dsimp only
    rw [hreceived]
    unfold Mailbox.dispatch
    by_cases hlimit : (w.boxes c).queued + (BusMessage.replace c').queuedLen
        > (env.settings i).maxQueuedBytes
    . refine .killed ?_
      simp [hlimit]
    . refine .queued hne ?_
      simp [hlimit]

theorem Beaten.step {l : Label} {c rival : Uuid} {t t' : ConnTask} (h : Beaten w c t rival)
    (hsound : Sound env w) (hl : ∀ i keep, l ≠ .lose i keep) (hstep : w.step env l = some w')
    (hc : w.conns c = some t) (hc' : w'.conns c = some t') (hne : rival ≠ c)
    : Beaten w' c t' rival := by
  have hme : t'.me = t.me := by
    have ⟨t1, ht1, hme⟩ := step_conn hstep hc
    rw [hc'] at ht1
    cases ht1
    exact hme
  cases h with
  | leaving h => exact .leaving (h.step hsound hstep hc hc')
  | unregistered h =>
    refine .unregistered ?_
    intro hcur
    rw [hme] at hcur
    exact h (current_of_step hstep (by simp [hc]) hcur)
  | coming h =>
    have hs := step_stream hstep t.me.inst
    generalize hstream' : (w'.insts t.me.inst).stream = stream at hs
    cases hs with
    | same => exact .coming (by rwa [hme, hstream'])
    | published _ => exact .coming (by rw [hme, hstream']; exact List.mem_append_left _ h)
    | lost => exact absurd rfl (hl _ _)
    | @taken p rest hstream =>
      rw [hstream] at h
      cases List.mem_cons.mp h with
      | inr h => exact .coming (by rwa [hme, hstream'])
      | inl heq =>
        -- the message is taken from the stream now
        by_cases hcur : (w.insts t.me.inst).current t.me.deviceId = some c
        . have ⟨p1, rest1, _, hstream1, hw'⟩ := busMessage_eq_some hstep
          rw [hstream] at hstream1
          cases hstream1
          subst heq
          rw [channelDevice_deviceChannel, BusMessage.decode_encode] at hw'
          simp only [Option.some.injEq, reduceCtorEq, or_self, false_and, or_false] at hw'
          have ⟨d, msg, hd, hmsg, hw'⟩ := hw'
          subst hd hmsg hw'
          have htt : t' = t := by
            rw [(BusFrame.dispatch _ _ _ _).conns] at hc'
            exact Option.some.inj (hc'.symm.trans hc)
          subst htt
          apply Beaten.leaving
          refine leaving_dispatch (hsound.tasks c t' hc) ?_ ?_ hne
          . exact hc
          . rw [modifyInst_self]
            exact hcur
        . refine .unregistered ?_
          intro hcur'
          rw [hme] at hcur'
          exact hcur (current_of_step hstep (by simp [hc]) hcur')

/--
Of two connections of a device on different instances at least one gives way.
-/
def Rivals (w : World) : Prop :=
  ∀ a b ta tb, w.conns a = some ta → w.conns b = some tb → ta.me.deviceId = tb.me.deviceId
    → ta.me.inst ≠ tb.me.inst → ta.Published → tb.Published
    → Beaten w a ta b ∨ Beaten w b tb a

/--
A connection that has told the others had been subscribed before.
-/
theorem subscribed_of_published {t : ConnTask} (h : t.Ok env) (hpub : t.Published)
    : Did t.trace .subscribed true := by
  have ⟨mark, hat⟩ := h
  have ⟨n, hn⟩ := hpub
  have ⟨stage, s, rest, hsuffix, hp⟩ := hat.permitted.did hn
  have hsub : Did rest .subscribed true := by
    generalize hmsg : BusMessage.replace t.me.connId = msg at hp
    cases hp with
    | replace hsub _ => exact hsub
    | comeOnline _ => cases hmsg
    | rvJoined => cases hmsg
    | rvMsg => cases hmsg
    | forward hforward =>
      subst hmsg
      cases hforward
    | goOffline _ _ _ => cases hmsg
  exact hsub.of_suffix ((List.suffix_cons _ _).trans hsuffix)

theorem publish_delivers {me : Ident} {dest : Uuid} {msg : BusMessage} {f : Fault} {w1 : World}
    {n : Nat} (h : w.perform env me (.publish dest msg) f = some (w1, some n)) {i : InstanceId}
    (hi : deviceChannel dest ∈ (w.insts i).channels)
    : ⟨deviceChannel dest, msg.encode⟩ ∈ (w1.insts i).stream := by
  cases f with
  | ok =>
    cases h
    simp [publish, Instance.deliver, hi]
  | fail => cases h
  | lost => cases h

/--
A connection has told the others before, or does so in this step.
-/
theorem published_of_step {l : Label} {c : Uuid} {t' : ConnTask} (hstep : w.step env l = some w')
    (hc' : w'.conns c = some t') (hpub : t'.Published)
    : ∃ t, w.conns c = some t ∧ t'.me = t.me
      ∧ (t.Published ∨ ∃ f, l = .exec c f
        ∧ ∀ i, deviceChannel t.me.deviceId ∈ (w.insts i).channels
          → ⟨deviceChannel t.me.deviceId, (BusMessage.replace t.me.connId).encode⟩
            ∈ (w'.insts i).stream) := by
  have htask := step_task hstep c
  rw [hc'] at htask
  generalize hu : some t' = u at htask
  cases htask with
  | same _ => exact ⟨t', hu.symm, rfl, .inl hpub⟩
  | connected _ =>
    cases hu
    obtain ⟨n, s, hs⟩ := hpub
    simp [ConnTask.new] at hs
  | @handled e t s hc _ _ =>
    cases hu
    refine ⟨t, hc, ConnTask.handle_me .., .inl ?_⟩
    unfold ConnTask.Published at hpub ⊢
    rwa [ConnTask.handle_me, ConnTask.handle_trace] at hpub
  | @resumed f t s o k w1 r hc hprog hperf =>
    cases hu
    refine ⟨t, hc, ConnTask.resume_me .., ?_⟩
    obtain ⟨n, s', hs'⟩ := hpub
    rw [ConnTask.resume_me, ConnTask.resume_trace] at hs'
    cases List.mem_cons.mp hs' with
    | inr hs' => exact .inl ⟨n, s', hs'⟩
    | inl heq =>
      cases heq
      refine .inr ⟨f, rfl, ?_⟩
      intro i hi
      have hw' : w'.insts = w1.insts := by
        obtain ⟨t1, s1, o1, k1, w2, r1, hc1, hprog1, hperf1, hw'⟩ := exec_eq_some.mp hstep
        rw [hc] at hc1
        cases hc1
        rw [hprog] at hprog1
        cases hprog1
        rw [hperf] at hperf1
        cases hperf1
        rw [hw']
        rfl
      rw [hw']
      exact publish_delivers hperf hi

/--
Whoever tells the others last reaches a rival that has told them before.
-/
theorem beaten_of_publish {l : Label} {a b : Uuid} {ta ta' tb : ConnTask} {f : Fault}
    (hsound : Sound env w) (hsubs : Subscriptions w) (hl : l = .exec b f)
    (hstep : w.step env l = some w') (ha : w.conns a = some ta) (ha' : w'.conns a = some ta')
    (hb : w.conns b = some tb) (hdev : ta.me.deviceId = tb.me.deviceId) (hne : b ≠ a)
    (hpub : ta.Published)
    (hdeliver : ∀ i, deviceChannel tb.me.deviceId ∈ (w.insts i).channels
      → ⟨deviceChannel tb.me.deviceId, (BusMessage.replace tb.me.connId).encode⟩
        ∈ (w'.insts i).stream)
    : Beaten w' a ta' b := by
  have hlose : ∀ i keep, l ≠ .lose i keep := by
    intro i keep
    simp [hl]
  by_cases hcur : (w.insts ta.me.inst).current ta.me.deviceId = some a
  . have hsub := hsubs.served a ta ha (subscribed_of_published (hsound.tasks a ta ha) hpub) hcur
    have hchannel := (hsubs.inst ta.me.inst).channels _ hsub
    have ⟨t1, ht1, hme⟩ := step_conn hstep ha
    rw [ha'] at ht1
    cases ht1
    apply Beaten.coming
    rw [hme, hdev]
    rw [hdev] at hchannel
    exact hsound.wellFormed.ident b tb hb ▸ hdeliver ta.me.inst hchannel
  . exact (Beaten.unregistered hcur).step hsound hlose hstep ha ha' hne

theorem Rivals.step {l : Label} (h : Rivals w) (hsound : Sound env w) (hsubs : Subscriptions w)
    (hl : ∀ i keep, l ≠ .lose i keep) (hstep : w.step env l = some w') : Rivals w' := by
  intro a b ta' tb' ha' hb' hdev hinst hpa hpb
  have ⟨ta, ha, hma, hpa⟩ := published_of_step hstep ha' hpa
  have ⟨tb, hb, hmb, hpb⟩ := published_of_step hstep hb' hpb
  rw [hma, hmb] at hdev hinst
  have hne : a ≠ b := by
    rintro rfl
    rw [ha] at hb
    cases hb
    exact hinst rfl
  cases hpa with
  | inl hpa =>
    cases hpb with
    | inl hpb =>
      cases h a b ta tb ha hb hdev hinst hpa hpb with
      | inl hbeaten => exact .inl (hbeaten.step hsound hl hstep ha ha' hne.symm)
      | inr hbeaten => exact .inr (hbeaten.step hsound hl hstep hb hb' hne)
    | inr hpb =>
      have ⟨f, hexec, hdeliver⟩ := hpb
      exact .inl (beaten_of_publish hsound hsubs hexec hstep ha ha' hb hdev hne.symm hpa hdeliver)
  | inr hpa =>
    have ⟨f, hexec, hdeliver⟩ := hpa
    cases hpb with
    | inl hpb =>
      exact .inr (beaten_of_publish hsound hsubs hexec hstep hb hb' ha hdev.symm hne hpb hdeliver)
    | inr hpb =>
      have ⟨f', hexec', _⟩ := hpb
      rw [hexec] at hexec'
      cases hexec'
      exact absurd rfl hne

/-!
When nothing is left to be done.
-/

end World

/--
What the hub hands to a connection.
-/
def Event.ofHub : Event → Bool
  | kill | delivery _ | hungUp => true
  | _ => false

/--
The connection has opened or failed to, and has handled what the hub gave it.
-/
def ConnTask.atRest (t : ConnTask) : Bool :=
  match t.stage with
  | .opening => t.idle
  | .handling e => !e.ofHub || t.idle
  | .finishing _ => true

namespace World

variable {env : Env} {w w' : World}

/--
Every opening has completed or failed, and every message and every request to a bus task has been
handled.
-/
structure Quiescent (env : Env) (w : World) : Prop where
  conns : ∀ c ∈ w.connects, ∀ t ∈ w.conns c, t.atRest
  queues : ∀ c ∈ w.connects, ∀ t ∈ w.conns c, t.alive
    → (w.boxes c).queue = [] ∧ (w.boxes c).kill = false
  hubs : ∀ i ∈ env.instances, (w.insts i).stream = [] ∧ (w.insts i).requests = []
    ∧ (w.insts i).phase = .idle

instance (env : Env) (w : World) : Decidable (Quiescent env w) :=
  decidable_of_iff
    ((∀ c ∈ w.connects, ∀ t ∈ w.conns c, t.atRest)
      ∧ (∀ c ∈ w.connects, ∀ t ∈ w.conns c, t.alive
        → (w.boxes c).queue = [] ∧ (w.boxes c).kill = false)
      ∧ ∀ i ∈ env.instances, (w.insts i).stream = [] ∧ (w.insts i).requests = []
        ∧ (w.insts i).phase = .idle)
    ⟨fun ⟨hconns, hqueues, hhubs⟩ => ⟨hconns, hqueues, hhubs⟩,
      fun ⟨hconns, hqueues, hhubs⟩ => ⟨hconns, hqueues, hhubs⟩⟩

theorem Sound.mem_connects (h : Sound env w) {c : Uuid} {t : ConnTask} (hc : w.conns c = some t)
    : c ∈ w.connects := by
  rw [h.wellFormed.connects, hc]
  rfl

/--
At rest, a connection that is served waits in its event loop or handles a frame of its device.
-/
theorem serve_of_idle {c : Uuid} {t : ConnTask} (h : Sound env w) (hc : w.conns c = some t)
    (halive : t.alive) (hidle : t.idle) : ∃ s, t.prog = .done s .serve := by
  have ⟨s, n, hprog⟩ := ConnTask.idle_iff.mp hidle
  cases n with
  | serve => exact ⟨s, hprog⟩
  | finish e => exact absurd hprog (h.settled c t hc s e)
  | stop =>
    have hended := ConnTask.ended_iff.mpr ⟨s, hprog⟩
    rw [not_alive_of_ended (h.tasks c t hc) hended] at halive
    cases halive

theorem Quiescent.not_leaving {c : Uuid} {t : ConnTask} (hq : Quiescent env w)
    (h : Sound env w) (hc : w.conns c = some t) (halive : t.alive) : ¬ Leaving w c t := by
  have hmem := h.mem_connects hc
  have ⟨hqueue, hkill⟩ := hq.queues c hmem t hc halive
  intro hleaving
  cases hleaving with
  | dead hdead =>
    rw [hdead] at halive
    cases halive
  | queued _ hin =>
    rw [hqueue] at hin
    cases hin
  | killed hkilled =>
    rw [hkill] at hkilled
    cases hkilled
  | replaced hreplaced =>
    have hidle : t.idle := by
      have hrest := hq.conns c hmem t hc
      unfold ConnTask.atRest at hrest
      cases hreplaced with
      | inl hstage =>
        rw [hstage] at hrest
        simpa [Event.ofHub] using hrest
      | inr hstage =>
        have ⟨_, _, hstage⟩ := hstage
        rw [hstage] at hrest
        simpa [Event.ofHub] using hrest
    have ⟨s, hprog⟩ := serve_of_idle h hc halive hidle
    exact (not_replaced_of_serving (h.tasks c t hc) hprog).2 hreplaced

theorem Quiescent.not_toBeTold (hq : Quiescent env w) (h : Sound env w) (c : Uuid)
    : ¬ ToBeTold w c := by
  rintro ⟨c', t, s, k, hc', hprog⟩
  have hstage := (tellPrevious_of_ok (h.tasks c' t hc') hprog).1
  have hrest := hq.conns c' (h.mem_connects hc') t hc'
  simp [ConnTask.atRest, hstage, ConnTask.idle, hprog] at hrest

/--
A connection that is served at rest has opened.
-/
theorem Quiescent.published {c : Uuid} {t : ConnTask} (hq : Quiescent env w) (h : Sound env w)
    (hc : w.conns c = some t) (halive : t.alive) : t.Published := by
  have hok := h.tasks c t hc
  have ⟨mark, hat⟩ := hok
  cases hstage : t.stage with
  | opening =>
    have hrest := hq.conns c (h.mem_connects hc) t hc
    simp only [ConnTask.atRest, hstage] at hrest
    have ⟨s, hprog⟩ := serve_of_idle h hc halive hrest
    exact (hat.post hprog).2.1.published
  | handling e => exact (hat.stageOk.opened e hstage).published
  | finishing e => simp [ConnTask.alive, hstage] at halive

/--
The invariant of the connections of a device while no connection to Redis is lost.
-/
structure TakeoverOk (env : Env) (w : World) : Prop where
  sound : Sound env w
  subscriptions : Subscriptions w
  superseded : Superseded w
  rivals : Rivals w

theorem takeoverOk_init (env : Env) (db : Db) : TakeoverOk env (init db) where
  sound := sound_init env db
  subscriptions := subscriptions_init db
  superseded c t hc := by cases hc
  rivals a b ta tb ha := by cases ha

theorem TakeoverOk.step {l : Label} (h : TakeoverOk env w) (hl : ∀ i keep, l ≠ .lose i keep)
    (hstep : w.step env l = some w') : TakeoverOk env w' where
  sound := h.sound.step hstep
  subscriptions := h.subscriptions.step h.sound.wellFormed hl hstep
  superseded := h.superseded.step h.sound hstep
  rivals := h.rivals.step h.sound h.subscriptions hl hstep

theorem takeoverOk_run {db : Db} {ls : List Label} (h : run env (init db) ls = some w)
    (hls : ∀ i keep, .lose i keep ∉ ls) : TakeoverOk env w := by
  apply Lts.run_invariant (C := fun _ l => ∀ i keep, l ≠ .lose i keep)
    (fun _ _ _ hok hl hstep => TakeoverOk.step hok hl hstep) (takeoverOk_init env db) _ h
  apply Lts.meets_of_forall
  rintro l hl i keep rfl
  exact hls i keep hl

end World

/--
At most one connection of a device survives. In every run in which no instance loses its connection
to Redis, whatever else fails and however connections end, once nothing is left to be done at most
one connection of a device is served on all instances together, and it is the one its instance has
registered.
-/
theorem at_most_one_connection_survives {env : Env} {db : Db} {ls : List Label} {w : World}
    (hrun : run env (World.init db) ls = some w) (hlose : ∀ i keep, .lose i keep ∉ ls)
    (hq : w.Quiescent env) {a b : Uuid} {ta tb : ConnTask} (ha : w.conns a = some ta)
    (hb : w.conns b = some tb) (hdev : ta.me.deviceId = tb.me.deviceId) (hsa : ta.alive)
    (hsb : tb.alive)
    : a = b ∧ (w.insts ta.me.inst).current ta.me.deviceId = some a := by
  have h := World.takeoverOk_run hrun hlose
  -- a connection that is served is the registered one
  have hcurrent : ∀ c t, w.conns c = some t → t.alive
      → (w.insts t.me.inst).current t.me.deviceId = some c := by
    intro c t hc halive
    cases h.superseded c t hc with
    | inl hcur => exact hcur
    | inr hrest =>
      cases hrest with
      | inl hleaving => exact absurd hleaving (hq.not_leaving h.sound hc halive)
      | inr htold => exact absurd htold (hq.not_toBeTold h.sound c)
  -- and no message of a rival is on its way to it
  have hbeaten : ∀ c t rival, w.conns c = some t → t.alive → ¬ World.Beaten w c t rival := by
    intro c t rival hc halive hbeaten
    cases hbeaten with
    | leaving hleaving => exact hq.not_leaving h.sound hc halive hleaving
    | unregistered hcur => exact hcur (hcurrent c t hc halive)
    | coming hin =>
      rw [(hq.hubs t.me.inst (h.sound.inst c t hc)).1] at hin
      cases hin
  refine ⟨?_, hcurrent a ta ha hsa⟩
  by_cases hinst : ta.me.inst = tb.me.inst
  . have hcb := hcurrent b tb hb hsb
    rw [← hinst, ← hdev, hcurrent a ta ha hsa] at hcb
    exact Option.some.inj hcb
  . have hpa := hq.published h.sound ha hsa
    have hpb := hq.published h.sound hb hsb
    cases h.rivals a b ta tb ha hb hdev hinst hpa hpb with
    | inl hab => exact absurd hab (hbeaten a ta b ha hsa)
    | inr hba => exact absurd hba (hbeaten b tb a hb hsb)

namespace Sample

def uuid (n : UInt8) : Uuid := Bytes.replicate 16 n

/--
Two instances, and devices that send nothing.
-/
def relay : Env where
  crypto := .sample
  serde := {
    parseInbound := fun _ => none
    parseEnvHead := fun _ => none
    parsePairPayloadHead := fun _ => none
  }
  instances := ["a", "b"]
  settings := fun _ =>
    { idleTimeout := 45, pairBandwidthBytesPerSec := 1000, maxQueuedBytes := 1000 }

/--
The connection `c` does its next `n` operations.
-/
def execs (n : Nat) (c : Uuid) : List Label :=
  List.replicate n (.exec c .ok)

/--
A device without pairs connects, and its connection opens.
-/
def opens (i : InstanceId) (c d : Uuid) : List Label :=
  [Label.connect i c d, .exec c .ok, .busRequest i .ok] ++ execs 7 c

/--
A device with one pair connects, and its connection opens.
-/
def opensPaired (i : InstanceId) (c d : Uuid) : List Label :=
  [Label.connect i c d, .exec c .ok, .busRequest i .ok] ++ execs 10 c

/--
A connection takes the message of a newer one from the bus.
-/
def replaced (i : InstanceId) (c newer : Uuid) : List Label :=
  [.busMessage i, .event c (.delivery (.bus (.replace newer))), .exec c .ok]

/--
A device connects to one instance and then to the other one.
-/
def moves : List Label :=
  opens "a" (uuid 1) (uuid 9) ++ replaced "a" (uuid 1) (uuid 1) ++ opens "b" (uuid 2) (uuid 9)
    ++ replaced "b" (uuid 2) (uuid 2) ++ replaced "a" (uuid 1) (uuid 2) ++ execs 4 (uuid 1)
    ++ [Label.busRequest "a" .ok, .busUnsubscribe "a" .ok]

end Sample

theorem one_connection_survives_a_move
    : ∃ w t, run Sample.relay (World.init .empty) Sample.moves = some w ∧ w.Quiescent Sample.relay
      ∧ w.conns (Sample.uuid 2) = some t ∧ t.alive
      ∧ (w.insts t.me.inst).current t.me.deviceId = some (Sample.uuid 2) := by
  have hrun : (run Sample.relay (World.init .empty) Sample.moves).any (fun w =>
      decide (w.Quiescent Sample.relay) && (w.conns (Sample.uuid 2)).any (·.alive)) = true := by
    decide +kernel
  simp only [Option.any_eq_true, Bool.and_eq_true, decide_eq_true_eq] at hrun
  have ⟨w, hw, hq, t, ht, halive⟩ := hrun
  have hlose : ∀ i keep, .lose i keep ∉ Sample.moves := by
    simp [Sample.moves, Sample.opens, Sample.replaced, Sample.execs]
  exact ⟨w, t, hw, hq, ht, halive,
    (at_most_one_connection_survives hw hlose hq ht ht rfl halive halive).2⟩

end HandLiveRelay
