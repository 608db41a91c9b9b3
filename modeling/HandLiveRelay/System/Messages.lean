import HandLiveRelay.Routes.Effects
import HandLiveRelay.System.Registry

/-!
This module contains the messages on their way through the system. A property of what is published
to a device holds of everything in the streams of the instances, in the queues of the device's
connections and among what they have handled.
-/

namespace HandLiveRelay

open Fiber Wire

/--
What a connection publishes, and to whom.
-/
inductive Sends (env : Env) (t : ConnTask) : Uuid → BusMessage → Prop where
  | replace : Sends env t t.me.deviceId (.replace t.me.connId)
  | presence {pairId peer b} : Sends env t peer (.control (presenceMessage pairId t.me.deviceId b))
  | rvJoined {dest rvId b} : Sends env t dest (.control (rvJoinedMessage rvId b))
  | rvMsg {dest rvId text} : Sends env t dest (.control (rvMsgMessage rvId text))
  | forward {dest msg} (h : msg.isForward)
      (hin : (dest, msg) ∈ t.inputs.filterMap (·.forward? env.serde t.me)) : Sends env t dest msg

theorem ConnTask.Ok.sends {env : Env} {t : ConnTask} (h : t.Ok env) {s : Conn} {dest : Uuid}
    {msg : BusMessage} {k : Option Nat → Prog Conn Op Op.Res Next}
    (hprog : t.prog = .wait s (.publish dest msg) k) : Sends env t dest msg := by
  have hforward : msg.isForward → Sends env t dest msg := by
    intro hmsg
    refine .forward hmsg (h.acc_sublist.subset ?_)
    simp [ConnTask.acc, hprog, Op.forward?, hmsg]
  obtain ⟨mark, hat⟩ := h
  have hp := (hat.obeys hprog).2
  generalize t.stage = stage at hp
  cases hp with
  | replace _ _ => exact .replace
  | comeOnline _ => exact .presence
  | rvJoined => exact .rvJoined
  | rvMsg => exact .rvMsg
  | forward hmsg => exact hforward hmsg
  | goOffline _ _ _ => exact .presence

/--
A frame from the device that is forwarded: a text wrapper or an `HR` frame for `dest` within the
size limit, and the frame the receiver gets for it.
-/
inductive Forwarded (serde : Serde) (source dest : Uuid) : ClientMessage → Frame → Prop where
  | text {text inbound env} (hparse : serde.parseInbound text = some inbound)
      (hop : inbound.op = none) (hdest : inbound.dest = some dest) (henv : inbound.env = some env)
      (hid : isDeviceId dest) (hobj : isObject env) (hsize : text.utf8ByteSize ≤ maxFrameBytes)
      : Forwarded serde source dest (.text text) (.text (forwardedText source env))
  | binary {frame} (hparse : parseHr frame = some dest) (hid : isDeviceId dest)
      (hsize : frame.length ≤ maxFrameBytes)
      : Forwarded serde source dest (.binary frame) (.binary (rewriteHr frame source))

/--
The bus message that carries a frame.
-/
def Frame.toBus (source : Uuid) : Frame → BusMessage
  | .text t => .forwardText source t
  | .binary f => .forwardBinary source f

theorem forwardFor_eq_some {serde : Serde} {me : Ident} {m : ClientMessage} {dest : Uuid}
    {msg : BusMessage} (h : forwardFor serde me m = some (dest, msg))
    : ∃ f, Forwarded serde me.deviceId dest m f ∧ msg = f.toBus me.deviceId := by
  cases m with
  | text text =>
    simp only [forwardFor, Option.bind_eq_bind, Option.bind_eq_some_iff] at h
    obtain ⟨inbound, hparse, d, hdest, env, henv, _, hguard, heq⟩ := h
    rw [Option.guard_eq_some'] at hguard
    obtain ⟨hop, hid, hobj, hsize⟩ := hguard
    cases heq
    exact ⟨_, .text hparse hop hdest henv hid hobj hsize, rfl⟩
  | binary frame =>
    simp only [forwardFor, Option.bind_eq_bind, Option.bind_eq_some_iff] at h
    obtain ⟨d, hparse, _, hguard, heq⟩ := h
    rw [Option.guard_eq_some'] at hguard
    cases heq
    exact ⟨_, .binary hparse hguard.1 hguard.2, rfl⟩
  | ping bytes => cases h
  | pong bytes => cases h
  | close => cases h

namespace World

variable {env : Env} {w w' : World}

/--
What some request still has to do.
-/
def Todo (w : World) (a : Action) : Prop :=
  ∃ actions ∈ w.jobs, a ∈ actions

theorem Todo.of_step {l : Label} {a : Action} (ha : w'.Todo a) (h : w.step env l = some w')
    : w.Todo a ∨ ∃ req, l = .http req ∧ a ∈ (req.handle env.crypto w.db w.nowMs).actions := by
  obtain ⟨actions, hmem, ha⟩ := ha
  cases step_view h with
  | connect _ _ hw' =>
    subst hw'
    exact .inl ⟨actions, hmem, ha⟩
  | exec _ _ hperf hw' =>
    subst hw'
    exact .inl ⟨actions, (perform_sameFrame hperf).jobs ▸ hmem, ha⟩
  | event _ _ _ hw' =>
    subst hw'
    exact .inl ⟨actions, hmem, ha⟩
  | bus _ hframe => exact .inl ⟨actions, hframe.jobs ▸ hmem, ha⟩
  | @job k f a' actions' hjob hw' =>
    subst hw'
    rw [(act_frame env _ f a').1.jobs] at hmem
    left
    cases List.mem_or_eq_of_mem_set hmem with
    | inl hmem => exact ⟨actions, hmem, ha⟩
    | inr heq =>
      subst heq
      exact ⟨_, List.mem_of_getElem? hjob, List.mem_cons_of_mem a' ha⟩
  | store hl hframe =>
    cases l with
    | http req =>
      cases h
      cases List.mem_append.mp hmem with
      | inl hmem => exact .inl ⟨actions, hmem, ha⟩
      | inr hmem =>
        rw [List.mem_singleton] at hmem
        exact .inr ⟨req, rfl, hmem ▸ ha⟩
    | tick nowMs secs =>
      unfold step at h
      dsimp only at h
      split at h
      . cases h
        exact .inl ⟨actions, hmem, ha⟩
      . cases h
    | expirePresence d =>
      cases h
      exact .inl ⟨actions, hmem, ha⟩
    | expireNotices d =>
      cases h
      exact .inl ⟨actions, hmem, ha⟩
    | expireRv rvId =>
      cases h
      exact .inl ⟨actions, hmem, ha⟩
    | _ => cases hl

/--
Whoever publishes is a connection or a request.
-/
theorem Publishes.cases {l : Label} {dest : Uuid} {msg : BusMessage} (hok : TasksOk env w)
    (h : w.Publishes dest msg l)
    : (∃ c f t s k, l = .exec c f ∧ w.conns c = some t ∧ t.prog = .wait s (.publish dest msg) k
        ∧ Sends env t dest msg)
      ∨ w.Todo (.notify dest msg) := by
  cases l with
  | exec c f =>
    have ⟨t, s, k, hc, hprog⟩ := h
    exact .inl ⟨c, f, t, s, k, rfl, hc, hprog, (hok c t hc).sends hprog⟩
  | job k f =>
    have ⟨actions, hjob⟩ := h
    exact .inr ⟨_, List.mem_of_getElem? hjob, List.mem_cons_self⟩
  | _ => cases h

/--
Everything on its way to a device satisfies `G`.
-/
structure InFlight (G : Uuid → BusMessage → Prop) (w : World) : Prop where
  stream : ∀ i p, p ∈ (w.insts i).stream
    → ∃ d msg, p = ⟨deviceChannel d, msg.encode⟩ ∧ G d msg
  queue : ∀ c msg, .bus msg ∈ (w.boxes c).queue
    → ∃ t, w.conns c = some t ∧ G t.me.deviceId msg
  inputs : ∀ c t msg, w.conns c = some t → .delivery (.bus msg) ∈ t.inputs
    → G t.me.deviceId msg

theorem InFlight.mono {G G' : Uuid → BusMessage → Prop} (h : InFlight G w)
    (hG : ∀ d msg, G d msg → G' d msg) : InFlight G' w where
  stream i p hp := by
    have ⟨d, msg, heq, hmsg⟩ := h.stream i p hp
    exact ⟨d, msg, heq, hG d msg hmsg⟩
  queue c msg hmem := by
    have ⟨t, hc, hmsg⟩ := h.queue c msg hmem
    exact ⟨t, hc, hG _ _ hmsg⟩
  inputs c t msg hc hmem := hG _ _ (h.inputs c t msg hc hmem)

theorem inFlight_init (G : Uuid → BusMessage → Prop) (db : Db) : InFlight G (init db) where
  stream i p hp := by cases hp
  queue c msg hmem := by cases hmem
  inputs c t msg hc := by cases hc

/--
The message of the packet at the head of a stream.
-/
theorem InFlight.head {G : Uuid → BusMessage → Prop} (h : InFlight G w) {i : InstanceId}
    {p : Packet} {rest : List Packet} {d : Uuid} {msg : BusMessage}
    (hstream : (w.insts i).stream = p :: rest) (hd : channelDevice p.channel = some d)
    (hmsg : BusMessage.decode p.payload = some msg) : G d msg := by
  have ⟨d', msg', heq, hG⟩ := h.stream i p (hstream ▸ List.mem_cons_self)
  subst heq
  rw [channelDevice_deviceChannel] at hd
  rw [BusMessage.decode_encode] at hmsg
  cases hd
  cases hmsg
  exact hG

theorem InFlight.step {G : Uuid → BusMessage → Prop} {l : Label} (h : InFlight G w)
    (hwf : WellFormed w) (hstep : w.step env l = some w') (hreplace : ∀ d c, G d (.replace c))
    (hpub : ∀ dest msg, w.Publishes dest msg l → G dest msg) : InFlight G w' where
  stream i p hp := by
    have hs := step_stream hstep i
    generalize (w'.insts i).stream = stream at hp hs
    cases hs with
    | same => exact h.stream i p hp
    | @published _ dest msg hpublishes =>
      cases List.mem_append.mp hp with
      | inl hp => exact h.stream i p hp
      | inr hp => exact ⟨dest, msg, List.mem_singleton.mp hp, hpub dest msg hpublishes⟩
    | @taken p' _ hstream => exact h.stream i p (hstream ▸ List.mem_cons_of_mem p' hp)
    | lost => exact h.stream i p (List.mem_of_mem_take hp)
  queue c msg hmem := by
    -- a connection that was there before is still there
    have hkeep : (∃ t, w.conns c = some t ∧ G t.me.deviceId msg)
        → ∃ t, w'.conns c = some t ∧ G t.me.deviceId msg := by
      rintro ⟨t, hc, hmsg⟩
      obtain ⟨t', hc', hme⟩ := step_conn hstep hc
      exact ⟨t', hc', hme ▸ hmsg⟩
    have hq := step_queue hstep c
    generalize (w'.boxes c).queue = queue at hmem hq
    cases hq with
    | same => exact hkeep (h.queue c msg hmem)
    | fresh => cases hmem
    | @taken d _ hqueue => exact hkeep (h.queue c msg (hqueue ▸ List.mem_cons_of_mem d hmem))
    | told hc' hprog =>
      cases List.mem_append.mp hmem with
      | inl hmem => exact hkeep (h.queue c msg hmem)
      | inr hmem =>
        rw [List.mem_singleton] at hmem
        cases hmem
        obtain ⟨t, hc, _⟩ := (hwf.told _ _ _ _ _ hc' hprog).2
        exact hkeep ⟨t, hc, hreplace _ _⟩
    | @dispatched i p rest d msg' hstream hd hmsg hcur =>
      cases List.mem_append.mp hmem with
      | inl hmem => exact hkeep (h.queue c msg hmem)
      | inr hmem =>
        rw [List.mem_singleton] at hmem
        cases hmem
        obtain ⟨t, hc, hme⟩ := hwf.current i d c hcur
        refine hkeep ⟨t, hc, ?_⟩
        rw [hme]
        exact h.head hstream hd hmsg
    | resync =>
      cases List.mem_append.mp hmem with
      | inl hmem => exact hkeep (h.queue c msg hmem)
      | inr hmem => cases List.eq_of_mem_replicate hmem
  inputs c t' msg hc' hmem := by
    have htask := step_task hstep c
    rw [hc'] at htask
    generalize hu : some t' = u at htask
    cases htask with
    | same _ => exact h.inputs c t' msg hu.symm hmem
    | connected _ =>
      cases hu
      simp [ConnTask.new] at hmem
    | resumed hc _ _ =>
      cases hu
      simp only [ConnTask.resume_inputs, ConnTask.resume_me] at hmem ⊢
      exact h.inputs c _ msg hc hmem
    | @handled e t s hc _ hready =>
      cases hu
      simp only [ConnTask.handle_inputs, ConnTask.handle_me] at hmem ⊢
      cases List.mem_cons.mp hmem with
      | inl heq =>
        subst heq
        simp only [ready, Bool.and_eq_true, decide_eq_true_eq] at hready
        obtain ⟨t1, hc1, hmsg⟩ := h.queue c msg (List.mem_of_mem_head? hready.2)
        rw [hc] at hc1
        cases hc1
        exact hmsg
      | inr hmem => exact h.inputs c t msg hc hmem

end World
end HandLiveRelay
