import HandLiveRelay.System.World

/-!
This module contains what the steps of the system do, component by component: which steps change
the tasks of the connections, what they publish, and what they put into the streams of the
instances and the queues of the connections.
-/

namespace HandLiveRelay

open Fiber

/--
The operations that concern the hub.
-/
def Op.ofHub : Op → Bool
  | .tellPrevious _ | .subscribe | .unregister | .unsubscribe | .publish _ _ | .fetchSub _ => true
  | _ => false

namespace ConnTask

theorem serving_iff {t : ConnTask} : t.serving ↔ ∃ s, t.prog = .done s .serve := by
  unfold serving
  split
  next s hprog => simp [hprog]
  next hne =>
    constructor
    . simp
    . rintro ⟨s, hprog⟩
      exact absurd hprog (hne s)

theorem alive_iff {t : ConnTask} : t.alive ↔ ∀ e, t.stage ≠ .finishing e := by
  unfold alive
  cases t.stage <;> simp

theorem idle_iff {t : ConnTask} : t.idle ↔ ∃ s n, t.prog = .done s n := by
  unfold idle
  cases t.prog <;> simp

theorem ended_iff {t : ConnTask} : t.ended ↔ ∃ s, t.prog = .done s .stop := by
  unfold ended
  split
  next s hprog => simp [hprog]
  next hne =>
    constructor
    . simp
    . rintro ⟨s, hprog⟩
      exact absurd hprog (hne s)

@[simp]
theorem settle_me (t : ConnTask) : t.settle.me = t.me := by
  unfold settle
  split <;> rfl

@[simp]
theorem settle_trace (t : ConnTask) : t.settle.trace = t.trace := by
  unfold settle
  split <;> rfl

@[simp]
theorem settle_inputs (t : ConnTask) : t.settle.inputs = t.inputs := by
  unfold settle
  split <;> rfl

@[simp]
theorem new_me (me : Ident) (previous : Option Uuid) : (new me previous).me = me := by
  simp [new]

@[simp]
theorem new_trace (me : Ident) (previous : Option Uuid) : (new me previous).trace = [] := by
  simp [new]

@[simp]
theorem new_inputs (me : Ident) (previous : Option Uuid) : (new me previous).inputs = [] := by
  simp [new]

@[simp]
theorem resume_me (t : ConnTask) (s : Conn) (o : Op) (k : o.Res → Prog Conn Op Op.Res Next)
    (r : o.Res) : (t.resume s o k r).me = t.me := by
  simp [resume]

@[simp]
theorem resume_trace (t : ConnTask) (s : Conn) (o : Op) (k : o.Res → Prog Conn Op Op.Res Next)
    (r : o.Res) : (t.resume s o k r).trace = ⟨s, o, r⟩ :: t.trace := by
  simp [resume]

@[simp]
theorem resume_inputs (t : ConnTask) (s : Conn) (o : Op) (k : o.Res → Prog Conn Op Op.Res Next)
    (r : o.Res) : (t.resume s o k r).inputs = t.inputs := by
  simp [resume]

theorem settle_stage (t : ConnTask)
    : t.settle.stage = t.stage ∨ ∃ e, t.settle.stage = .finishing e := by
  unfold settle
  split
  . exact .inr ⟨_, rfl⟩
  . exact .inl rfl

theorem resume_stage (t : ConnTask) (s : Conn) (o : Op) (k : o.Res → Prog Conn Op Op.Res Next)
    (r : o.Res)
    : (t.resume s o k r).stage = t.stage ∨ ∃ e, (t.resume s o k r).stage = .finishing e :=
  settle_stage _

theorem handle_stage (env : Env) (t : ConnTask) (s : Conn) (e : Event)
    : (t.handle env s e).stage = .handling e ∨ ∃ e', (t.handle env s e).stage = .finishing e' :=
  settle_stage _

@[simp]
theorem handle_me (env : Env) (t : ConnTask) (s : Conn) (e : Event) : (t.handle env s e).me = t.me := by
  simp [handle]

@[simp]
theorem handle_trace (env : Env) (t : ConnTask) (s : Conn) (e : Event)
    : (t.handle env s e).trace = t.trace := by
  simp [handle]

@[simp]
theorem handle_inputs (env : Env) (t : ConnTask) (s : Conn) (e : Event)
    : (t.handle env s e).inputs = e :: t.inputs := by
  simp [handle]

end ConnTask

namespace World

variable {env : Env} {w w' : World}

@[simp]
theorem modifyInst_self (w : World) (i : InstanceId) (f : Instance → Instance)
    : (w.modifyInst i f).insts i = f (w.insts i) := by
  simp [modifyInst]

theorem modifyInst_ne (w : World) {i j : InstanceId} (f : Instance → Instance) (h : j ≠ i)
    : (w.modifyInst i f).insts j = w.insts j := by
  simp [modifyInst, h]

/--
What a change of one instance leaves alone is the same everywhere.
-/
theorem modifyInst_field {α : Type} {g : Instance → α} {i : InstanceId} {f : Instance → Instance}
    (hf : g (f (w.insts i)) = g (w.insts i)) (j : InstanceId)
    : g ((w.modifyInst i f).insts j) = g (w.insts j) := by
  by_cases hj : j = i
  . subst hj
    rw [modifyInst_self, hf]
  . rw [modifyInst_ne w f hj]

@[simp]
theorem modifyBox_self (w : World) (c : Uuid) (f : Mailbox → Mailbox)
    : (w.modifyBox c f).boxes c = f (w.boxes c) := by
  simp [modifyBox]

theorem modifyBox_ne (w : World) {c c' : Uuid} (f : Mailbox → Mailbox) (h : c' ≠ c)
    : (w.modifyBox c f).boxes c' = w.boxes c' := by
  simp [modifyBox, h]

@[simp]
theorem setConn_self (w : World) (c : Uuid) (t : ConnTask)
    : (w.setConn c t).conns c = some t := by
  simp [setConn]

theorem setConn_ne (w : World) {c c' : Uuid} (t : ConnTask) (h : c' ≠ c)
    : (w.setConn c t).conns c' = w.conns c' := by
  simp [setConn, h]

/-!
The steps of connections.
-/

theorem connect_eq_some {i : InstanceId} {c d : Uuid}
    : w.connect env i c d = some w'
      ↔ i ∈ env.instances ∧ w.conns c = none
        ∧ w' = { (((w.modifyInst i (·.register d c)).modifyBox c fun _ => .new).setConn c
            (.new ⟨d, c, i⟩ ((w.insts i).current d))) with connects := c :: w.connects } := by
  unfold connect
  split
  next h => simp [h.1, Option.isNone_iff_eq_none.mp h.2, eq_comm]
  next h =>
    simp only [Option.isNone_iff_eq_none] at h
    constructor
    . simp
    . rintro ⟨hi, hc, _⟩
      exact absurd ⟨hi, hc⟩ h

theorem exec_eq_some {c : Uuid} {f : Fault}
    : w.exec env c f = some w'
      ↔ ∃ t s o k w1 r, w.conns c = some t ∧ t.prog = .wait s o k
        ∧ w.perform env t.me o f = some (w1, r) ∧ w' = w1.setConn c (t.resume s o k r) := by
  unfold exec
  split
  next hc => simp [hc]
  next t hc =>
    split
    next hprog => simp [hc, hprog]
    next s o k hprog =>
      rw [Option.map_eq_some_iff]
      constructor
      . rintro ⟨⟨w1, r⟩, hperf, heq⟩
        exact ⟨t, s, o, k, w1, r, hc, hprog, hperf, heq.symm⟩
      . rintro ⟨t', s', o', k', w1, r, hc', hprog', hperf, heq⟩
        rw [hc] at hc'
        cases hc'
        rw [hprog] at hprog'
        cases hprog'
        exact ⟨(w1, r), hperf, heq.symm⟩

theorem event_eq_some {c : Uuid} {e : Event}
    : w.event env c e = some w'
      ↔ ∃ t s, w.conns c = some t ∧ t.prog = .done s .serve ∧ w.ready c s e
        ∧ w' = (w.modifyBox c (take · e)).setConn c (t.handle env s e) := by
  unfold event
  split
  next hc => simp [hc]
  next t hc =>
    split
    next s hprog =>
      split
      next hready =>
        constructor
        . intro h
          injection h with h
          exact ⟨t, s, hc, hprog, hready, h.symm⟩
        . rintro ⟨t', s', hc', hprog', _, heq⟩
          rw [hc] at hc'
          cases hc'
          rw [hprog] at hprog'
          cases hprog'
          rw [heq]
      next hready => simp [hc, hprog, hready]
    next hne =>
      constructor
      . simp
      . rintro ⟨t', s, hc', hprog, _⟩
        rw [hc] at hc'
        cases hc'
        exact absurd hprog (hne s)

/--
What no operation of a connection changes.
-/
structure SameFrame (w w' : World) : Prop where
  conns : w'.conns = w.conns
  answers : w'.answers = w.answers
  db : w'.db = w.db
  nowMs : w'.nowMs = w.nowMs
  jobs : w'.jobs = w.jobs
  verified : w'.verified = w.verified
  connects : w'.connects = w.connects

theorem SameFrame.rfl : SameFrame w w :=
  ⟨by rfl, by rfl, by rfl, by rfl, by rfl, by rfl, by rfl⟩

theorem perform_subscribed {me : Ident} {f : Fault} {r : Bool}
    (h : w.perform env me .subscribed f = some (w', r)) : w' = w := by
  cases f with
  | ok =>
    have ⟨b, _, h⟩ := Option.map_eq_some_iff.mp h
    cases h
    rfl
  | fail =>
    cases h
    rfl
  | lost => cases h

/--
A connection that is not registered any more changes nothing.
-/
theorem perform_unregister {me : Ident} {f : Fault} {r : Bool}
    (h : w.perform env me .unregister f = some (w', r))
    : ((w.insts me.inst).current me.deviceId = some me.connId ∧ r = true
        ∧ w' = (w.modifyInst me.inst (·.unregister me.deviceId)).modifyBox me.connId
          fun b => { b with sender := false })
      ∨ ((w.insts me.inst).current me.deviceId ≠ some me.connId ∧ r = false ∧ w' = w) := by
  cases f with
  | ok =>
    replace h : (if (w.insts me.inst).current me.deviceId = some me.connId then
        some ((w.modifyInst me.inst (·.unregister me.deviceId)).modifyBox me.connId
          fun b => { b with sender := false }, true)
      else some (w, false)) = some (w', r) := h
    split at h
    next hcur =>
      cases h
      exact .inl ⟨hcur, rfl, rfl⟩
    next hcur =>
      cases h
      exact .inr ⟨hcur, rfl, rfl⟩
  | fail => cases h
  | lost => cases h

theorem perform_sameFrame {me : Ident} {o : Op} {f : Fault} {r : o.Res}
    (h : w.perform env me o f = some (w', r)) : SameFrame w w' := by
  cases o with
  | subscribed => exact perform_subscribed h ▸ .rfl
  | unregister =>
    rcases perform_unregister h with ⟨_, _, rfl⟩ | ⟨_, _, rfl⟩
    . constructor <;> rfl
    . exact .rfl
  | _ => cases f <;> cases h <;> constructor <;> rfl

/--
What an operation does to the hubs and the queues.
-/
inductive HubEffect (env : Env) (w : World) (me : Ident) : (o : Op) → World → o.Res → Prop where
  | other {o w' r} (ho : o.ofHub = false) (hi : w'.insts = w.insts) (hb : w'.boxes = w.boxes)
      : HubEffect env w me o w' r
  | tellPrevious {c} : HubEffect env w me (.tellPrevious c)
      (w.modifyBox c fun b =>
        { (if w.received c then b.push (.bus (.replace me.connId)) else b) with sender := false }) ()
  | subscribe : HubEffect env w me .subscribe
      (w.modifyInst me.inst (·.request (.subscribe me.deviceId me.connId))) ()
  | unregister (h : (w.insts me.inst).current me.deviceId = some me.connId)
      : HubEffect env w me .unregister
          ((w.modifyInst me.inst (·.unregister me.deviceId)).modifyBox me.connId
            fun b => { b with sender := false }) true
  | superseded (h : (w.insts me.inst).current me.deviceId ≠ some me.connId)
      : HubEffect env w me .unregister w false
  | unsubscribe : HubEffect env w me .unsubscribe
      (w.modifyInst me.inst (·.request (.unsubscribe me.deviceId))) ()
  | publish {dest msg r} : HubEffect env w me (.publish dest msg) (w.publish env dest msg).1 r
  | unpublished {dest msg} : HubEffect env w me (.publish dest msg) w none
  | fetchSub {len} : HubEffect env w me (.fetchSub len)
      (w.modifyBox me.connId fun b => { b with queued := b.queued - len }) ()

theorem perform_hub {me : Ident} {o : Op} {f : Fault} {r : o.Res}
    (h : w.perform env me o f = some (w', r)) : HubEffect env w me o w' r := by
  cases o with
  | publish dest msg =>
    cases f with
    | ok =>
      cases h
      exact .publish
    | fail =>
      cases h
      exact .unpublished
    | lost =>
      cases h
      exact .publish
  | subscribed => exact perform_subscribed h ▸ .other rfl rfl rfl
  | unregister =>
    rcases perform_unregister h with ⟨hcur, rfl, rfl⟩ | ⟨hcur, rfl, rfl⟩
    . exact .unregister hcur
    . exact .superseded hcur
  | tellPrevious c =>
    cases f <;> cases h
    exact .tellPrevious
  | subscribe =>
    cases f <;> cases h
    exact .subscribe
  | unsubscribe =>
    cases f <;> cases h
    exact .unsubscribe
  | fetchSub len =>
    cases f <;> cases h
    exact .fetchSub
  | _ => cases f <;> cases h <;> exact .other rfl rfl rfl

/-!
The streams of the instances.
-/

/--
The step has this message to publish.
-/
def Publishes (w : World) (dest : Uuid) (msg : BusMessage) : Label → Prop
  | .exec c _ => ∃ t s k, w.conns c = some t ∧ t.prog = .wait s (.publish dest msg) k
  | .job k _ => ∃ actions, w.jobs[k]? = some (.notify dest msg :: actions)
  | _ => False

/--
What a step makes of the stream of an instance.
-/
inductive StreamStep (w : World) (i : InstanceId) : Label → List Packet → Prop where
  | same {l} : StreamStep w i l (w.insts i).stream
  | published {l dest msg} (h : w.Publishes dest msg l)
      : StreamStep w i l ((w.insts i).stream ++ [⟨deviceChannel dest, msg.encode⟩])
  | taken {p rest} (h : (w.insts i).stream = p :: rest) : StreamStep w i (.busMessage i) rest
  | lost {keep} : StreamStep w i (.lose i keep) ((w.insts i).stream.take keep)

theorem publish_stream (env : Env) (w : World) (dest : Uuid) (msg : BusMessage) (i : InstanceId)
    : ((w.publish env dest msg).1.insts i).stream = (w.insts i).stream
      ∨ ((w.publish env dest msg).1.insts i).stream
        = (w.insts i).stream ++ [⟨deviceChannel dest, msg.encode⟩] := by
  unfold publish Instance.deliver
  dsimp only
  split
  . exact .inr rfl
  . exact .inl rfl

theorem StreamStep.of_publish (env : Env) {l : Label} {dest : Uuid} {msg : BusMessage} {i : InstanceId}
    (h : w.Publishes dest msg l) : StreamStep w i l ((w.publish env dest msg).1.insts i).stream := by
  cases publish_stream env w dest msg i with
  | inl heq => exact heq ▸ .same
  | inr heq => exact heq ▸ .published h

theorem StreamStep.of_eq {l : Label} {i : InstanceId} {stream : List Packet}
    (h : stream = (w.insts i).stream) : StreamStep w i l stream :=
  h ▸ .same

/-!
The turns of the bus tasks.
-/

theorem broadcastResync_insts (w : World) (i : InstanceId)
    : (w.broadcastResync i).insts = w.insts := by
  unfold broadcastResync
  generalize (w.insts i).registeredDevices = ds
  induction ds generalizing w with
  | nil => rfl
  | cons d ds ih =>
    rw [List.foldl_cons, ih]
    split
    . rfl
    . split <;> rfl

/--
What a turn of a bus task leaves alone.
-/
structure BusFrame (w w' : World) : Prop where
  conns : w'.conns = w.conns
  db : w'.db = w.db
  nowMs : w'.nowMs = w.nowMs
  presence : w'.presence = w.presence
  notices : w'.notices = w.notices
  rv : w'.rv = w.rv
  jobs : w'.jobs = w.jobs
  verified : w'.verified = w.verified
  connects : w'.connects = w.connects
  registry : ∀ i, (w'.insts i).registry = (w.insts i).registry
  requests : ∀ i r, r ∈ (w'.insts i).requests → r ∈ (w.insts i).requests
  answers : ∀ c, w'.answers c = w.answers c ∨ ∃ i d, .subscribe d c ∈ (w.insts i).requests

/--
What it leaves alone if it takes no message.
-/
structure SilentFrame (w w' : World) : Prop extends BusFrame w w' where
  boxes : w'.boxes = w.boxes
  stream : ∀ i, (w'.insts i).stream = (w.insts i).stream

theorem BusFrame.current (h : BusFrame w w') (i : InstanceId) (d : Uuid)
    : (w'.insts i).current d = (w.insts i).current d := by
  unfold Instance.current
  rw [h.registry]

theorem BusFrame.of_insts (hconns : w'.conns = w.conns) (hdb : w'.db = w.db)
    (hnow : w'.nowMs = w.nowMs) (hpresence : w'.presence = w.presence)
    (hnotices : w'.notices = w.notices) (hrv : w'.rv = w.rv) (hjobs : w'.jobs = w.jobs)
    (hverified : w'.verified = w.verified) (hconnects : w'.connects = w.connects)
    (hanswers : w'.answers = w.answers) (hinsts : w'.insts = w.insts) : BusFrame w w' where
  conns := hconns
  db := hdb
  nowMs := hnow
  presence := hpresence
  notices := hnotices
  rv := hrv
  jobs := hjobs
  verified := hverified
  connects := hconnects
  registry i := by rw [hinsts]
  requests i r hr := by rwa [hinsts] at hr
  answers c := .inl (by rw [hanswers])

theorem BusFrame.rfl : BusFrame w w := by
  apply BusFrame.of_insts <;> rfl

theorem BusFrame.trans {w1 : World} (h : BusFrame w w1) (h' : BusFrame w1 w')
    : BusFrame w w' where
  conns := h'.conns.trans h.conns
  db := h'.db.trans h.db
  nowMs := h'.nowMs.trans h.nowMs
  presence := h'.presence.trans h.presence
  notices := h'.notices.trans h.notices
  rv := h'.rv.trans h.rv
  jobs := h'.jobs.trans h.jobs
  verified := h'.verified.trans h.verified
  connects := h'.connects.trans h.connects
  registry i := (h'.registry i).trans (h.registry i)
  requests i r hr := h.requests i r (h'.requests i r hr)
  answers c := by
    cases h'.answers c with
    | inl heq => exact heq ▸ h.answers c
    | inr hreq =>
      have ⟨i, d, hreq⟩ := hreq
      exact .inr ⟨i, d, h.requests i _ hreq⟩

theorem BusFrame.modifyInst (w : World) (i : InstanceId) {f : Instance → Instance}
    (hf : (f (w.insts i)).registry = (w.insts i).registry)
    (hr : ∀ r ∈ (f (w.insts i)).requests, r ∈ (w.insts i).requests)
    : BusFrame w (w.modifyInst i f) := by
  constructor <;> try rfl
  . exact modifyInst_field (g := Instance.registry) hf
  . intro j r hmem
    by_cases hj : j = i
    . subst hj
      rw [modifyInst_self] at hmem
      exact hr r hmem
    . rwa [modifyInst_ne w f hj] at hmem
  . exact fun _ => .inl (by rfl)

theorem BusFrame.dispatch (w : World) (i : InstanceId) (d : Uuid) (msg : BusMessage)
    : BusFrame w (w.dispatch env i d msg) := by
  unfold World.dispatch
  split
  . exact .rfl
  . apply BusFrame.of_insts <;> rfl

theorem BusFrame.broadcastResync (w : World) (i : InstanceId)
    : BusFrame w (w.broadcastResync i) := by
  unfold World.broadcastResync
  generalize (w.insts i).registeredDevices = ds
  induction ds generalizing w with
  | nil => exact .rfl
  | cons d ds ih =>
    rw [List.foldl_cons]
    refine BusFrame.trans ?_ (ih _)
    split
    . exact .rfl
    . split
      . apply BusFrame.of_insts <;> rfl
      . exact .rfl

theorem SilentFrame.trans {w1 : World} (h : SilentFrame w w1) (h' : SilentFrame w1 w')
    : SilentFrame w w' where
  toBusFrame := h.toBusFrame.trans h'.toBusFrame
  boxes := h'.boxes.trans h.boxes
  stream i := (h'.stream i).trans (h.stream i)

theorem SilentFrame.modifyInst (w : World) (i : InstanceId) {f : Instance → Instance}
    (hf : (f (w.insts i)).registry = (w.insts i).registry)
    (hr : ∀ r ∈ (f (w.insts i)).requests, r ∈ (w.insts i).requests)
    (hs : (f (w.insts i)).stream = (w.insts i).stream) : SilentFrame w (w.modifyInst i f) where
  toBusFrame := BusFrame.modifyInst w i hf hr
  boxes := rfl
  stream := modifyInst_field (g := Instance.stream) hs

theorem SilentFrame.answer {i : InstanceId} {d c : Uuid} {requests : List BusRequest}
    {f : Instance → Instance} (hreq : (w.insts i).requests = .subscribe d c :: requests)
    (h : SilentFrame w (w.modifyInst i f)) (ok : Bool)
    : SilentFrame w ((w.modifyInst i f).answer c ok) where
  conns := h.conns
  db := h.db
  nowMs := h.nowMs
  presence := h.presence
  notices := h.notices
  rv := h.rv
  jobs := h.jobs
  verified := h.verified
  connects := h.connects
  registry := h.registry
  requests := h.requests
  answers c' := by
    by_cases hc : c' = c
    . subst hc
      refine .inr ⟨i, d, ?_⟩
      rw [hreq]
      exact List.mem_cons_self
    . exact .inl (Function.update_of_ne hc _ _)
  boxes := h.boxes
  stream := h.stream

/--
What the bus task does with a request.
-/
inductive RequestStep (w : World) (i : InstanceId) : Fault → World → Prop where
  | known {f d c requests} (hreq : (w.insts i).requests = .subscribe d c :: requests)
      (hd : d ∈ (w.insts i).subscribed)
      : RequestStep w i f ((w.modifyInst i ({ · with requests })).answer c true)
  | subscribed {d c requests} (hreq : (w.insts i).requests = .subscribe d c :: requests)
      (hd : d ∉ (w.insts i).subscribed) (hconn : (w.insts i).connected = true)
      : RequestStep w i .ok
          ((w.modifyInst i fun i => { i.subscribe d with requests }).answer c true)
  | lost {d c requests} (hreq : (w.insts i).requests = .subscribe d c :: requests)
      (hd : d ∉ (w.insts i).subscribed) (hconn : (w.insts i).connected = true)
      : RequestStep w i .lost
          ((w.modifyInst i fun i =>
            { i with requests, channels := i.channels.insert (deviceChannel d) }).answer c false)
  | failed {d c requests} (hreq : (w.insts i).requests = .subscribe d c :: requests)
      (hd : d ∉ (w.insts i).subscribed)
      : RequestStep w i .fail ((w.modifyInst i ({ · with requests })).answer c false)
  | unsubscribe {f d requests} (hreq : (w.insts i).requests = .unsubscribe d :: requests)
      (hcur : (w.insts i).current d = none)
      : RequestStep w i f (w.modifyInst i fun i =>
          { i with
            requests
            subscribed := i.subscribed.filter (· ≠ d)
            phase := .unsubscribing d })
  | ignored {f d requests} (hreq : (w.insts i).requests = .unsubscribe d :: requests)
      (hd : (w.insts i).current d ≠ none ∨ d ∉ (w.insts i).subscribed)
      : RequestStep w i f (w.modifyInst i ({ · with requests }))

theorem modifyInst_modifyInst (w : World) (i : InstanceId) (f g : Instance → Instance)
    : (w.modifyInst i f).modifyInst i g = w.modifyInst i (fun i => g (f i)) := by
  simp [modifyInst]

theorem busRequest_eq_some {i : InstanceId} {f : Fault} (h : w.busRequest i f = some w')
    : (w.insts i).phase = .idle ∧ RequestStep w i f w' := by
  unfold busRequest at h
  dsimp only at h
  split at h
  next d c requests hphase hreq =>
    refine ⟨hphase, ?_⟩
    split at h
    next hd =>
      cases h
      exact .known hreq hd
    next hd =>
      split at h
      next hconn =>
        cases h
        rw [modifyInst_modifyInst]
        exact .subscribed hreq hd hconn
      next hconn =>
        cases h
        rw [modifyInst_modifyInst]
        exact .lost hreq hd hconn
      . cases h
        exact .failed hreq hd
      . cases h
  next d requests hphase hreq =>
    refine ⟨hphase, ?_⟩
    split at h
    next hreg =>
      cases h
      rw [modifyInst_modifyInst]
      refine .unsubscribe hreq ?_
      simp only [Instance.isRegistered, Bool.and_eq_true, Bool.not_eq_true',
        Option.isSome_eq_false_iff, Option.isNone_iff_eq_none] at hreg
      exact hreg.1
    next hreg =>
      cases h
      refine .ignored hreq ?_
      by_contra hd
      rw [not_or, not_not, not_not] at hd
      simp [Instance.isRegistered, hd] at hreg
  . cases h

theorem busRequest_frame {i : InstanceId} {f : Fault} (h : w.busRequest i f = some w')
    : SilentFrame w w' := by
  have hmem : ∀ {r0 : BusRequest} {requests : List BusRequest},
      (w.insts i).requests = r0 :: requests → ∀ r ∈ requests, r ∈ (w.insts i).requests := by
    intro r0 requests hreq r hr
    rw [hreq]
    exact List.mem_cons_of_mem r0 hr
  cases (busRequest_eq_some h).2 with
  | known hreq _ => exact .answer hreq (SilentFrame.modifyInst w i rfl (hmem hreq) rfl) true
  | subscribed hreq _ _ => exact .answer hreq (SilentFrame.modifyInst w i rfl (hmem hreq) rfl) true
  | lost hreq _ _ => exact .answer hreq (SilentFrame.modifyInst w i rfl (hmem hreq) rfl) false
  | failed hreq _ => exact .answer hreq (SilentFrame.modifyInst w i rfl (hmem hreq) rfl) false
  | unsubscribe hreq _ => exact SilentFrame.modifyInst w i rfl (hmem hreq) rfl
  | ignored hreq _ => exact SilentFrame.modifyInst w i rfl (hmem hreq) rfl

theorem busUnsubscribe_frame {i : InstanceId} {f : Fault} (h : w.busUnsubscribe i f = some w')
    : SilentFrame w w' := by
  unfold busUnsubscribe at h
  split at h
  . cases h
    exact SilentFrame.modifyInst w i rfl (fun _ hr => hr) rfl
  . cases h

theorem busLost_frame {i : InstanceId} (h : w.busLost i = some w') : SilentFrame w w' := by
  unfold busLost at h
  dsimp only at h
  split at h
  . cases h
    exact SilentFrame.modifyInst w i rfl (fun _ hr => hr) rfl
  . cases h

theorem reconnect_frame {i : InstanceId} {order : List Uuid} (h : w.reconnect i order = some w')
    : SilentFrame w w' := by
  unfold reconnect at h
  dsimp only at h
  split at h
  . cases h
    exact SilentFrame.modifyInst w i rfl (fun _ hr => hr) rfl
  . cases h

theorem resubscribe_frame {i : InstanceId} {f : Fault} (h : w.resubscribe i f = some w')
    : SilentFrame w w' := by
  unfold resubscribe at h
  split at h
  . dsimp only at h
    split at h
    . cases h
      exact (SilentFrame.modifyInst w i rfl (fun _ hr => hr) rfl).trans (.modifyInst _ i rfl (fun _ hr => hr) rfl)
    . cases h
      exact (SilentFrame.modifyInst w i rfl (fun _ hr => hr) rfl).trans (.modifyInst _ i rfl (fun _ hr => hr) rfl)
    . cases h
      exact SilentFrame.modifyInst w i rfl (fun _ hr => hr) rfl
    . cases h
  . cases h

theorem lose_eq_some {i : InstanceId} {keep : Nat} (h : w.lose i keep = some w')
    : w' = w.modifyInst i fun i =>
        { i with connected := false, channels := [], stream := i.stream.take keep } := by
  unfold lose at h
  split at h
  . exact (Option.some.inj h).symm
  . cases h

theorem resync_eq_some {i : InstanceId} (h : w.resync i = some w')
    : (w.insts i).phase = .resubscribing []
      ∧ w' = (w.modifyInst i ({ · with phase := .idle })).broadcastResync i := by
  unfold resync at h
  split at h
  next hphase => exact ⟨hphase, (Option.some.inj h).symm⟩
  . cases h

/--
A message is dispatched if its channel and payload can be read, and is dropped otherwise.
-/
theorem busMessage_eq_some {i : InstanceId} (h : w.busMessage env i = some w')
    : ∃ p rest, (w.insts i).phase = .idle ∧ (w.insts i).stream = p :: rest
      ∧ ((∃ d msg, channelDevice p.channel = some d ∧ BusMessage.decode p.payload = some msg
          ∧ w' = (w.modifyInst i ({ · with stream := rest })).dispatch env i d msg)
        ∨ ((channelDevice p.channel = none ∨ BusMessage.decode p.payload = none)
          ∧ w' = w.modifyInst i ({ · with stream := rest }))) := by
  unfold busMessage at h
  dsimp only at h
  split at h
  next p rest hphase hstream =>
    refine ⟨p, rest, hphase, hstream, ?_⟩
    split at h
    next d msg hd hmsg => exact .inl ⟨d, msg, hd, hmsg, (Option.some.inj h).symm⟩
    next hnone =>
      refine .inr ⟨?_, (Option.some.inj h).symm⟩
      cases hd : channelDevice p.channel with
      | none => exact .inl rfl
      | some d =>
        cases hmsg : BusMessage.decode p.payload with
        | none => exact .inr rfl
        | some msg => exact absurd hmsg (hnone d msg hd)
  . cases h

end World

/--
The steps of the bus tasks.
-/
def Label.ofBus : Label → Bool
  | .busRequest _ _ | .busUnsubscribe _ _ | .busMessage _ | .lose _ _ | .busLost _
  | .reconnect _ _ | .resubscribe _ _ | .resync _ => true
  | _ => false

/--
The connection that a step belongs to.
-/
def Label.conn? : Label → Option Uuid
  | .connect _ c _ | .exec c _ | .event c _ => some c
  | _ => none

/--
Requests and the passing of time.
-/
def Label.ofStore : Label → Bool
  | .http _ | .tick _ _ | .expirePresence _ | .expireNotices _ | .expireRv _ => true
  | _ => false

theorem Label.conn?_ofBus {l : Label} (h : l.ofBus) : l.conn? = none := by
  cases l <;> first | rfl | cases h

theorem Label.conn?_ofStore {l : Label} (h : l.ofStore) : l.conn? = none := by
  cases l <;> first | rfl | cases h

namespace World

variable {env : Env} {w w' : World}

theorem step_busFrame {l : Label} (hl : l.ofBus) (h : w.step env l = some w') : BusFrame w w' := by
  cases l <;> try contradiction
  case busRequest i f => exact (busRequest_frame h).toBusFrame
  case busUnsubscribe i f => exact (busUnsubscribe_frame h).toBusFrame
  case busMessage i =>
    have ⟨p, rest, _, _, hw'⟩ := busMessage_eq_some h
    cases hw' with
    | inl hw' =>
      have ⟨d, msg, _, _, hw'⟩ := hw'
      exact hw' ▸ (BusFrame.modifyInst w i rfl (fun _ hr => hr)).trans (.dispatch _ _ _ _)
    | inr hw' => exact hw'.2 ▸ BusFrame.modifyInst w i rfl (fun _ hr => hr)
  case lose i keep => exact lose_eq_some h ▸ BusFrame.modifyInst w i rfl (fun _ hr => hr)
  case busLost i => exact (busLost_frame h).toBusFrame
  case reconnect i order => exact (reconnect_frame h).toBusFrame
  case resubscribe i f => exact (resubscribe_frame h).toBusFrame
  case resync i =>
    exact (resync_eq_some h).2 ▸ (BusFrame.modifyInst w i rfl (fun _ hr => hr)).trans (.broadcastResync _ i)

/-!
What is left of the requests.
-/

theorem job_eq_some {k : Nat} {f : Fault} (h : w.job env k f = some w')
    : ∃ a actions, w.jobs[k]? = some (a :: actions)
      ∧ w' = { w with jobs := w.jobs.set k actions }.act env f a := by
  unfold job at h
  split at h
  next a actions hjob => exact ⟨a, actions, hjob, (Option.some.inj h).symm⟩
  . cases h

/--
What an action of a request leaves alone.
-/
structure ActFrame (w w' : World) : Prop where
  conns : w'.conns = w.conns
  answers : w'.answers = w.answers
  boxes : w'.boxes = w.boxes
  db : w'.db = w.db
  nowMs : w'.nowMs = w.nowMs
  rv : w'.rv = w.rv
  jobs : w'.jobs = w.jobs
  verified : w'.verified = w.verified
  connects : w'.connects = w.connects

/--
Of the hubs, an action changes nothing or publishes.
-/
theorem act_frame (env : Env) (w : World) (f : Fault) (a : Action)
    : ActFrame w (w.act env f a)
      ∧ ((w.act env f a).insts = w.insts
        ∨ ∃ dest msg, a = .notify dest msg
          ∧ (w.act env f a).insts = (w.publish env dest msg).1.insts) := by
  cases a with
  | addRevokedNotice peer st =>
    cases f <;> exact ⟨by constructor <;> rfl, .inl rfl⟩
  | notify dest msg =>
    cases f with
    | ok => exact ⟨by constructor <;> rfl, .inr ⟨dest, msg, rfl, rfl⟩⟩
    | fail => exact ⟨by constructor <;> rfl, .inl rfl⟩
    | lost => exact ⟨by constructor <;> rfl, .inr ⟨dest, msg, rfl, rfl⟩⟩
  | delPresence d =>
    cases f <;> exact ⟨by constructor <;> rfl, .inl rfl⟩

/--
What requests and the passing of time leave alone.
-/
structure StoreFrame (w w' : World) : Prop where
  conns : w'.conns = w.conns
  answers : w'.answers = w.answers
  boxes : w'.boxes = w.boxes
  insts : w'.insts = w.insts
  connects : w'.connects = w.connects

/--
The kinds of steps.
-/
inductive StepView (env : Env) (w w' : World) : Label → Prop where
  | connect {i c d} (hi : i ∈ env.instances) (hc : w.conns c = none)
      (hw' : w' = { (((w.modifyInst i (·.register d c)).modifyBox c fun _ => .new).setConn c
        (.new ⟨d, c, i⟩ ((w.insts i).current d))) with connects := c :: w.connects })
      : StepView env w w' (.connect i c d)
  | exec {c f t s o k w1 r} (hc : w.conns c = some t) (hprog : t.prog = .wait s o k)
      (hperf : w.perform env t.me o f = some (w1, r)) (hw' : w' = w1.setConn c (t.resume s o k r))
      : StepView env w w' (.exec c f)
  | event {c e t s} (hc : w.conns c = some t) (hprog : t.prog = .done s .serve)
      (hready : w.ready c s e)
      (hw' : w' = (w.modifyBox c (take · e)).setConn c (t.handle env s e))
      : StepView env w w' (.event c e)
  | bus {l} (hl : l.ofBus) (h : BusFrame w w') : StepView env w w' l
  | job {k f a actions} (hjob : w.jobs[k]? = some (a :: actions))
      (hw' : w' = { w with jobs := w.jobs.set k actions }.act env f a)
      : StepView env w w' (.job k f)
  | store {l} (hl : l.ofStore) (h : StoreFrame w w') : StepView env w w' l

theorem step_view {l : Label} (h : w.step env l = some w') : StepView env w w' l := by
  cases l with
  | connect i c d =>
    have ⟨hi, hc, hw'⟩ := connect_eq_some.mp h
    exact .connect hi hc hw'
  | exec c f =>
    have ⟨t, s, o, k, w1, r, hc, hprog, hperf, hw'⟩ := exec_eq_some.mp h
    exact .exec hc hprog hperf hw'
  | event c e =>
    have ⟨t, s, hc, hprog, hready, hw'⟩ := event_eq_some.mp h
    exact .event hc hprog hready hw'
  | http req =>
    cases h
    exact .store rfl (by constructor <;> rfl)
  | job k f =>
    have ⟨a, actions, hjob, hw'⟩ := job_eq_some h
    exact .job hjob hw'
  | tick nowMs secs =>
    unfold step at h
    dsimp only at h
    split at h
    . cases h
      exact .store rfl (by constructor <;> rfl)
    . cases h
  | expirePresence d =>
    cases h
    exact .store rfl (by constructor <;> rfl)
  | expireNotices d =>
    cases h
    exact .store rfl (by constructor <;> rfl)
  | expireRv rvId =>
    cases h
    exact .store rfl (by constructor <;> rfl)
  | _ => exact .bus rfl (step_busFrame rfl h)

theorem bus_stream {l : Label} (hl : l.ofBus) (h : w.step env l = some w') (i : InstanceId)
    : StreamStep w i l (w'.insts i).stream := by
  cases l <;> try contradiction
  case busRequest j f => exact .of_eq ((busRequest_frame h).stream i)
  case busUnsubscribe j f => exact .of_eq ((busUnsubscribe_frame h).stream i)
  case busMessage j =>
    have ⟨p, rest, _, hstream, hw'⟩ := busMessage_eq_some h
    have hi : w'.insts i = (w.modifyInst j ({ · with stream := rest })).insts i := by
      cases hw' with
      | inl hw' =>
        have ⟨d, msg, _, _, hw'⟩ := hw'
        rw [hw']
        unfold dispatch
        split <;> rfl
      | inr hw' => rw [hw'.2]
    rw [hi]
    by_cases hij : i = j
    . subst hij
      rw [modifyInst_self]
      exact .taken hstream
    . rw [modifyInst_ne _ _ hij]
      exact .same
  case lose j keep =>
    rw [lose_eq_some h]
    by_cases hij : i = j
    . subst hij
      rw [modifyInst_self]
      exact .lost
    . rw [modifyInst_ne _ _ hij]
      exact .same
  case busLost j => exact .of_eq ((busLost_frame h).stream i)
  case reconnect j order => exact .of_eq ((reconnect_frame h).stream i)
  case resubscribe j f => exact .of_eq ((resubscribe_frame h).stream i)
  case resync j =>
    rw [(resync_eq_some h).2, broadcastResync_insts]
    exact .of_eq (modifyInst_field (g := Instance.stream) rfl i)

theorem step_stream {l : Label} (h : w.step env l = some w') (i : InstanceId)
    : StreamStep w i l (w'.insts i).stream := by
  cases step_view h with
  | connect _ _ hw' =>
    subst hw'
    exact .of_eq (modifyInst_field (w := w) (g := Instance.stream) (f := (·.register _ _)) rfl i)
  | @exec c f t s o k w1 r hc hprog hperf hw' =>
    subst hw'
    change StreamStep w i _ (w1.insts i).stream
    cases perform_hub hperf with
    | other _ hi _ => exact .of_eq (by rw [hi])
    | tellPrevious => exact .same
    | subscribe => exact .of_eq (modifyInst_field (g := Instance.stream) rfl i)
    | unregister _ =>
      exact .of_eq (modifyInst_field (w := w) (g := Instance.stream) (f := (·.unregister _)) rfl i)
    | superseded _ => exact .same
    | unsubscribe => exact .of_eq (modifyInst_field (g := Instance.stream) rfl i)
    | publish => exact .of_publish env ⟨t, s, k, hc, hprog⟩
    | unpublished => exact .same
    | fetchSub => exact .same
  | event _ _ _ hw' =>
    subst hw'
    exact .same
  | bus hl _ => exact bus_stream hl h i
  | @job k f a actions hjob hw' =>
    subst hw'
    cases (act_frame env { w with jobs := w.jobs.set k actions } f a).2 with
    | inl hi => exact .of_eq (by rw [hi])
    | inr hi =>
      have ⟨dest, msg, ha, hi⟩ := hi
      subst ha
      rw [hi]
      exact StreamStep.of_publish env (w := w) ⟨actions, hjob⟩
  | store _ hframe => exact .of_eq (by rw [hframe.insts])

/-!
The tasks of the connections.
-/

/--
What a step makes of the task of a connection.
-/
inductive TaskStep (env : Env) (w : World) (c : Uuid) : Label → Option ConnTask → Prop where
  | same {l} (hl : l.conn? ≠ some c) : TaskStep env w c l (w.conns c)
  | connected {i d} (hc : w.conns c = none)
      : TaskStep env w c (.connect i c d) (some (.new ⟨d, c, i⟩ ((w.insts i).current d)))
  | resumed {f t s o k w1 r} (hc : w.conns c = some t) (hprog : t.prog = .wait s o k)
      (hperf : w.perform env t.me o f = some (w1, r))
      : TaskStep env w c (.exec c f) (some (t.resume s o k r))
  | handled {e t s} (hc : w.conns c = some t) (hprog : t.prog = .done s .serve)
      (hready : w.ready c s e) : TaskStep env w c (.event c e) (some (t.handle env s e))

theorem TaskStep.of_eq {l : Label} {c : Uuid} {t : Option ConnTask} (hl : l.conn? = none)
    (h : t = w.conns c) : TaskStep env w c l t := by
  subst h
  refine .same ?_
  rw [hl]
  simp

theorem step_task {l : Label} (h : w.step env l = some w') (c : Uuid)
    : TaskStep env w c l (w'.conns c) := by
  cases step_view h with
  | @connect i c' d _ hnone hw' =>
    subst hw'
    dsimp only
    by_cases hc : c = c'
    . subst hc
      rw [setConn_self]
      exact .connected hnone
    . rw [setConn_ne _ _ hc]
      exact .same (by simpa [Label.conn?, eq_comm] using hc)
  | @exec c' f t s o k w1 r ht hprog hperf hw' =>
    subst hw'
    by_cases hc : c = c'
    . subst hc
      rw [setConn_self]
      exact .resumed ht hprog hperf
    . rw [setConn_ne _ _ hc, (perform_sameFrame hperf).conns]
      exact .same (by simpa [Label.conn?, eq_comm] using hc)
  | @event c' e t s ht hprog hready hw' =>
    subst hw'
    by_cases hc : c = c'
    . subst hc
      rw [setConn_self]
      exact .handled ht hprog hready
    . rw [setConn_ne _ _ hc]
      exact .same (by simpa [Label.conn?, eq_comm] using hc)
  | bus hl hframe => exact .of_eq (Label.conn?_ofBus hl) (by rw [hframe.conns])
  | job _ hw' => exact .of_eq rfl (by rw [hw', (act_frame env _ _ _).1.conns])
  | store hl hframe => exact .of_eq (Label.conn?_ofStore hl) (by rw [hframe.conns])

/-!
The queues of the connections.
-/

/--
The message that a step hands to a connection: one that was published for its device, or the word
of a newer connection on the same instance.
-/
def handed (w : World) (c : Uuid) : Label → Option BusMessage
  | .busMessage i =>
    match (w.insts i).stream with
    | [] => none
    | p :: _ => do
      let d ← channelDevice p.channel
      let msg ← BusMessage.decode p.payload
      if (w.insts i).current d = some c then some msg else none
  | .exec c' _ =>
    match w.conns c' with
    | none => none
    | some t =>
      match t.prog with
      | .wait _ (.tellPrevious previous) _ =>
        if previous = c then some (.replace t.me.connId) else none
      | _ => none
  | _ => none

/--
The step is one that concerns the mailbox of a connection.
-/
def touches (w : World) (c : Uuid) : Label → Bool
  | .connect _ c' _ | .event c' _ => c' = c
  | .exec c' f =>
    (w.handed c (.exec c' f)).isSome ||
      match w.conns c' with
      | none => false
      | some t =>
        match t.prog with
        | .wait _ (.fetchSub _) _ => t.me.connId = c
        | _ => false
  | .busMessage i => (w.handed c (.busMessage i)).isSome
  | _ => false

/--
What a step makes of the mailbox of a connection.
-/
inductive BoxStep (env : Env) (w : World) (c : Uuid) : Label → Mailbox → Prop where
  | same {l} (hl : w.touches c l = false) : BoxStep env w c l (w.boxes c)
  | fresh {i d} : BoxStep env w c (.connect i c d) .new
  | taken {e t s} (hc : w.conns c = some t) (hprog : t.prog = .done s .serve)
      (hready : w.ready c s e) : BoxStep env w c (.event c e) (take (w.boxes c) e)
  | told {c' f t s k} (hc : w.conns c' = some t) (hprog : t.prog = .wait s (.tellPrevious c) k)
      : BoxStep env w c (.exec c' f)
          { (if w.received c then (w.boxes c).push (.bus (.replace t.me.connId)) else w.boxes c) with
            sender := false }
  | left {c' f t s k} (hc : w.conns c' = some t) (hprog : t.prog = .wait s .unregister k)
      (hid : t.me.connId = c) : BoxStep env w c (.exec c' f) { w.boxes c with sender := false }
  | counted {c' f t s len k} (hc : w.conns c' = some t)
      (hprog : t.prog = .wait s (.fetchSub len) k) (hid : t.me.connId = c)
      : BoxStep env w c (.exec c' f) { w.boxes c with queued := (w.boxes c).queued - len }
  | dispatched {i p rest d msg} (hstream : (w.insts i).stream = p :: rest)
      (hd : channelDevice p.channel = some d) (hmsg : BusMessage.decode p.payload = some msg)
      (hcur : (w.insts i).current d = some c)
      : BoxStep env w c (.busMessage i)
          ((w.boxes c).dispatch (env.settings i).maxQueuedBytes (w.received c) msg)
  | resync {i n} : BoxStep env w c (.resync i)
      { w.boxes c with queue := (w.boxes c).queue ++ List.replicate n .resync }

theorem BoxStep.of_eq {l : Label} {c : Uuid} {b : Mailbox} (hl : w.touches c l = false)
    (h : b = w.boxes c) : BoxStep env w c l b :=
  h ▸ .same hl

theorem handed_busMessage {i : InstanceId} {c d : Uuid} {p : Packet} {rest : List Packet}
    {msg : BusMessage} (hstream : (w.insts i).stream = p :: rest)
    (hd : channelDevice p.channel = some d) (hmsg : BusMessage.decode p.payload = some msg)
    : w.handed c (.busMessage i) = if (w.insts i).current d = some c then some msg else none := by
  simp only [handed, hstream, hd, hmsg, Option.bind_eq_bind, Option.bind_some]

theorem handed_exec {c c' : Uuid} {f : Fault} {t : ConnTask} {s : Conn} {o : Op}
    {k : o.Res → Prog Conn Op Op.Res Next} (hc : w.conns c' = some t)
    (hprog : t.prog = .wait s o k) (ho : o ≠ .tellPrevious c) : w.handed c (.exec c' f) = none := by
  simp only [handed, hc, hprog]
  split
  next previous _ heq =>
    cases heq
    apply if_neg
    rintro rfl
    exact ho rfl
  . rfl

theorem broadcastResync_box (w : World) (i : InstanceId) (c : Uuid)
    : ∃ n, (w.broadcastResync i).boxes c
        = { w.boxes c with queue := (w.boxes c).queue ++ List.replicate n .resync } := by
  unfold broadcastResync
  generalize (w.insts i).registeredDevices = ds
  induction ds generalizing w with
  | nil => exact ⟨0, by simp⟩
  | cons d ds ih =>
    rw [List.foldl_cons]
    split
    . exact ih w
    next c' _ =>
      split
      . have ⟨n, hn⟩ := ih (w.modifyBox c' (·.push .resync))
        rw [hn]
        by_cases hc : c = c'
        . subst hc
          refine ⟨n + 1, ?_⟩
          rw [modifyBox_self, List.replicate_succ]
          simp [Mailbox.push]
        . rw [modifyBox_ne _ _ hc]
          exact ⟨n, rfl⟩
      . exact ih w

theorem busMessage_box {i : InstanceId} (h : w.busMessage env i = some w') (c : Uuid)
    : BoxStep env w c (.busMessage i) (w'.boxes c) := by
  have ⟨p, rest, _, hstream, hw'⟩ := busMessage_eq_some h
  cases hw' with
  | inl hw' =>
    have ⟨d, msg, hd, hmsg, hw'⟩ := hw'
    have hhanded := handed_busMessage (c := c) hstream hd hmsg
    have hcurrent : ((w.modifyInst i ({ · with stream := rest })).insts i).current d
        = (w.insts i).current d := by
      rw [modifyInst_self]
      rfl
    rw [hw']
    unfold dispatch
    rw [hcurrent]
    split
    next hnone => exact .same (by rw [touches, hhanded, hnone]; rfl)
    next c' hcur =>
      by_cases hc : c = c'
      . subst hc
        rw [modifyBox_self]
        exact .dispatched hstream hd hmsg hcur
      . rw [modifyBox_ne _ _ hc]
        refine .same ?_
        rw [touches, hhanded, hcur, if_neg fun heq => hc (Option.some.inj heq).symm]
        rfl
  | inr hw' =>
    rw [hw'.2]
    refine .same ?_
    simp only [touches, handed, hstream]
    cases hw'.1 with
    | inl hnone => simp [hnone]
    | inr hnone => simp [hnone]

theorem bus_box {l : Label} (hl : l.ofBus) (h : w.step env l = some w') (c : Uuid)
    : BoxStep env w c l (w'.boxes c) := by
  cases l <;> try contradiction
  case busRequest j f => exact .of_eq rfl (by rw [(busRequest_frame h).boxes])
  case busUnsubscribe j f => exact .of_eq rfl (by rw [(busUnsubscribe_frame h).boxes])
  case busMessage j => exact busMessage_box h c
  case lose j keep =>
    rw [lose_eq_some h]
    exact .same rfl
  case busLost j => exact .of_eq rfl (by rw [(busLost_frame h).boxes])
  case reconnect j order => exact .of_eq rfl (by rw [(reconnect_frame h).boxes])
  case resubscribe j f => exact .of_eq rfl (by rw [(resubscribe_frame h).boxes])
  case resync j =>
    rw [(resync_eq_some h).2]
    have ⟨n, hn⟩ := broadcastResync_box (w.modifyInst j ({ · with phase := .idle })) j c
    rw [hn]
    exact .resync

theorem step_box {l : Label} (h : w.step env l = some w') (c : Uuid)
    : BoxStep env w c l (w'.boxes c) := by
  cases step_view h with
  | @connect i c' d _ _ hw' =>
    subst hw'
    dsimp only [setConn]
    by_cases hc : c = c'
    . subst hc
      rw [modifyBox_self]
      exact .fresh
    . rw [modifyBox_ne _ _ hc]
      exact .same (by simpa [touches, eq_comm] using hc)
  | @exec c' f t s o k w1 r hc hprog hperf hw' =>
    subst hw'
    change BoxStep env w c _ (w1.boxes c)
    have hnone : o ≠ .tellPrevious c → (∀ len, o = .fetchSub len → t.me.connId ≠ c)
        → w.touches c (.exec c' f) = false := by
      intro ho hlen
      rw [touches, handed_exec hc hprog ho]
      simp only [hc, hprog]
      split
      next heq =>
        cases heq
        simpa using hlen _ rfl
      . rfl
    cases perform_hub hperf with
    | other ho _ hb =>
      refine .of_eq (hnone ?_ ?_) (by rw [hb])
      . rintro rfl
        cases ho
      . rintro len rfl
        cases ho
    | @tellPrevious c0 =>
      by_cases hc0 : c = c0
      . subst hc0
        rw [modifyBox_self]
        exact .told hc hprog
      . rw [modifyBox_ne _ _ hc0]
        exact .same (hnone (by simpa [eq_comm] using hc0) (by simp))
    | subscribe => exact .same (hnone (by simp) (by simp))
    | unregister _ =>
      by_cases hid : c = t.me.connId
      . subst hid
        rw [modifyBox_self]
        exact .left hc hprog rfl
      . rw [modifyBox_ne _ _ hid]
        exact .same (hnone (by simp) (by simp))
    | superseded _ => exact .same (hnone (by simp) (by simp))
    | unsubscribe => exact .same (hnone (by simp) (by simp))
    | publish => exact .same (hnone (by simp) (by simp))
    | unpublished => exact .same (hnone (by simp) (by simp))
    | fetchSub =>
      by_cases hid : c = t.me.connId
      . subst hid
        rw [modifyBox_self]
        exact .counted hc hprog rfl
      . rw [modifyBox_ne _ _ hid]
        exact .same (hnone (by simp) fun _ _ heq => hid heq.symm)
  | @event c' e t s hc' hprog hready hw' =>
    subst hw'
    change BoxStep env w c _ ((w.modifyBox c' (take · e)).boxes c)
    by_cases hc : c = c'
    . subst hc
      rw [modifyBox_self]
      exact .taken hc' hprog hready
    . rw [modifyBox_ne _ _ hc]
      exact .same (by simpa [touches, eq_comm] using hc)
  | bus hl _ => exact bus_box hl h c
  | job _ hw' =>
    rw [hw', (act_frame env _ _ _).1.boxes]
    exact .same rfl
  | store hl hframe =>
    refine .of_eq ?_ (by rw [hframe.boxes])
    cases l <;> first | rfl | cases hl

theorem Mailbox.dispatch_queue (b : Mailbox) (limit : Nat) (received : Bool) (msg : BusMessage)
    : (b.dispatch limit received msg).queue = b.queue
      ∨ (b.dispatch limit received msg).queue = b.queue ++ [.bus msg] := by
  unfold Mailbox.dispatch
  dsimp only
  split
  . exact .inl rfl
  . split
    . exact .inr rfl
    . exact .inl rfl

/--
What a step makes of the queue of a connection.
-/
inductive QueueStep (w : World) (c : Uuid) : Label → List Delivery → Prop where
  | same {l} : QueueStep w c l (w.boxes c).queue
  | fresh {i d} : QueueStep w c (.connect i c d) []
  | taken {d rest} (h : (w.boxes c).queue = d :: rest)
      : QueueStep w c (.event c (.delivery d)) rest
  | told {c' f t s k} (hc : w.conns c' = some t) (hprog : t.prog = .wait s (.tellPrevious c) k)
      : QueueStep w c (.exec c' f) ((w.boxes c).queue ++ [.bus (.replace t.me.connId)])
  | dispatched {i p rest d msg} (hstream : (w.insts i).stream = p :: rest)
      (hd : channelDevice p.channel = some d) (hmsg : BusMessage.decode p.payload = some msg)
      (hcur : (w.insts i).current d = some c)
      : QueueStep w c (.busMessage i) ((w.boxes c).queue ++ [.bus msg])
  | resync {i n} : QueueStep w c (.resync i) ((w.boxes c).queue ++ List.replicate n .resync)

theorem QueueStep.of_eq {l : Label} {c : Uuid} {queue : List Delivery}
    (h : queue = (w.boxes c).queue) : QueueStep w c l queue :=
  h ▸ .same

theorem head_of_ready {c : Uuid} {s : Conn} {d : Delivery} (h : w.ready c s (.delivery d))
    : (w.boxes c).kill = false ∧ (w.boxes c).queue = d :: (w.boxes c).queue.tail := by
  simp only [ready, Bool.and_eq_true, Bool.not_eq_true', decide_eq_true_eq] at h
  exact ⟨h.1, List.eq_cons_of_mem_head? h.2⟩

theorem take_queue {c : Uuid} {s : Conn} {e : Event} (h : w.ready c s e)
    : QueueStep w c (.event c e) (take (w.boxes c) e).queue := by
  cases e with
  | delivery d => exact .taken (head_of_ready h).2
  | _ => exact .same

theorem step_queue {l : Label} (h : w.step env l = some w') (c : Uuid)
    : QueueStep w c l (w'.boxes c).queue := by
  have hbox := step_box h c
  generalize w'.boxes c = b at hbox ⊢
  cases hbox with
  | same _ => exact .same
  | fresh => exact .fresh
  | taken _ _ hready => exact take_queue hready
  | told hc hprog =>
    dsimp only
    split
    . exact .told hc hprog
    . exact .same
  | left _ _ _ => exact .same
  | counted _ _ _ => exact .same
  | dispatched hstream hd hmsg hcur =>
    cases Mailbox.dispatch_queue (w.boxes c) _ (w.received c) _ with
    | inl hq => exact .of_eq hq
    | inr hq =>
      rw [hq]
      exact .dispatched hstream hd hmsg hcur
  | resync => exact .resync

/--
A connection that was told to end stays so until it takes notice.
-/
theorem step_kill {l : Label} {c : Uuid} (h : w.step env l = some w')
    (hk : (w.boxes c).kill = true) (hc : ∀ i d, l ≠ .connect i c d)
    (he : l ≠ .event c .kill) : (w'.boxes c).kill = true := by
  have hbox := step_box h c
  generalize w'.boxes c = b at hbox ⊢
  cases hbox with
  | same _ => exact hk
  | @fresh i d => exact absurd rfl (hc i d)
  | @taken e _ _ _ _ _ =>
    cases e with
    | kill => exact absurd rfl he
    | _ => exact hk
  | told _ _ =>
    dsimp only
    split <;> exact hk
  | left _ _ _ => exact hk
  | counted _ _ _ => exact hk
  | dispatched _ _ _ _ =>
    unfold Mailbox.dispatch
    dsimp only
    split
    . rfl
    . split <;> exact hk
  | resync => exact hk

end World
end HandLiveRelay
