import HandLiveRelay.Relay.Derived
import HandLiveRelay.Routes.Permanence
import HandLiveRelay.System.Takeover

/-!
This module contains the way of a frame from one device to another: through the connection of the
sender, which may hold it back, the stream of an instance, the queue of the receiver's connection
and that connection to the socket. Frames may be dropped on every part of the way, but none is
changed, doubled or overtaken.
-/

namespace HandLiveRelay

open Fiber Wire

/--
What is left of a list after a partial function belongs to a part of the list.
-/
theorem exists_sublist_of_filterMap {α β : Type} {g : α → Option β} {l : List α} {l' : List β}
    (h : l'.Sublist (l.filterMap g))
    : ∃ l0, l0.Sublist l ∧ List.Forall₂ (fun a b => g a = some b) l0 l' := by
  have ⟨l1, hl1, heq⟩ := List.sublist_filterMap_iff.mp h
  subst heq
  refine ⟨l1.filter fun a => (g a).isSome, List.filter_sublist.trans hl1, ?_⟩
  clear h hl1
  induction l1 with
  | nil => exact .nil
  | cons a l1 ih =>
    cases hg : g a with
    | none => simpa [hg] using ih
    | some b => simpa [hg] using ih

/-!
What a receiver may expect of a frame.
-/

/--
The frame is the one that `source` sent to `dest`. Of a text `env` is kept, and nothing else; of a
binary frame everything but the bytes from 4 to 20, which name the source in place of the
destination.
-/
inductive Exact (serde : Serde) (source dest : Uuid) : ClientMessage → Frame → Prop where
  | text {text inbound env} (hparse : serde.parseInbound text = some inbound)
      (hop : inbound.op = none) (hdest : inbound.dest = some dest) (henv : inbound.env = some env)
      (hid : isDeviceId dest) (hobj : isObject env) (hsize : text.utf8ByteSize ≤ maxFrameBytes)
      : Exact serde source dest (.text text)
          (.text ("\x7b\"from\":\"" ++ source.hyphenated ++ "\",\"env\":" ++ env ++ "\x7d"))
  | binary {sent frame} (hparse : parseHr sent = some dest) (hid : isDeviceId dest)
      (hsize : sent.length ≤ maxFrameBytes) (hlen : frame.length = sent.length)
      (hhead : frame.take 4 = sent.take 4) (hsource : (frame.drop 4).take 16 = source.toList)
      (htail : frame.drop 20 = sent.drop 20) : Exact serde source dest (.binary sent) (.binary frame)

theorem length_lt_of_parseHr {frame : List UInt8} {dest : Uuid} (h : parseHr frame = some dest)
    : 20 < frame.length := by
  unfold parseHr at h
  split at h
  . cases h
  next hguard =>
    rw [not_or] at hguard
    exact Nat.lt_of_not_le hguard.1

theorem drop_take_rewriteHr {frame : List UInt8} (source : Uuid) (h : 20 < frame.length)
    : ((rewriteHr frame source).drop 4).take 16 = source.toList := by
  have hhead : (frame.take 4).length = 4 := by
    rw [List.length_take]
    omega
  unfold rewriteHr
  rw [List.append_assoc, List.drop_left' hhead, List.take_left' source.length_toList]

theorem exact_of_forwarded {serde : Serde} {source dest : Uuid} {msg : ClientMessage} {f : Frame}
    (h : Forwarded serde source dest msg f) : Exact serde source dest msg f := by
  cases h with
  | text hparse hop hdest henv hid hobj hsize =>
    exact .text hparse hop hdest henv hid hobj hsize
  | @binary frame hparse hid hsize =>
    have hlen := length_lt_of_parseHr hparse
    have hhead : (frame.take 4).length = 4 := by
      rw [List.length_take]
      omega
    refine .binary hparse hid hsize ?_ ?_ (drop_take_rewriteHr source hlen) ?_
    . simp only [rewriteHr, hrHeaderLen, List.length_append, hhead, source.length_toList,
        List.length_drop]
      omega
    . unfold rewriteHr
      rw [List.append_assoc, List.take_left' hhead]
    . unfold rewriteHr hrHeaderLen
      apply List.drop_left'
      rw [List.length_append, hhead, source.length_toList]

/-!
Frames name their source.
-/

/--
The frame that a message carries for the device `x`.
-/
def BusMessage.frameFrom? (x : Uuid) : BusMessage → Option Frame
  | forwardText source text => if source = x then some (.text text) else none
  | forwardBinary source frame => if source = x then some (.binary frame) else none
  | _ => none

/--
If a message makes a connection write a frame of another device, it carries that frame and names
the same source.
-/
def BusMessage.Sourced (msg : BusMessage) : Prop :=
  ∀ x, msg.frame?.filter (·.hasSource x) = msg.frameFrom? x

namespace BusMessage

theorem sourced_of_frame? {msg : BusMessage} (hforward : msg.isForward = false)
    (h : msg.frame? = none) : msg.Sourced := by
  intro x
  rw [h]
  cases msg <;> first | rfl | cases hforward

theorem hasSource_forwardedText (source x : Uuid) (env : String)
    : Frame.hasSource x (.text (forwardedText source env)) ↔ source = x := by
  have hassoc : forwardedText source env
      = ("\x7b\"from\":\"" ++ source.hyphenated ++ "\",\"env\":") ++ (env ++ "\x7d") := by
    unfold forwardedText
    rw [String.append_assoc]
  unfold Frame.hasSource
  dsimp only
  rw [hassoc, Text.startsWith_append_iff_eq]
  . constructor
    . intro heq
      rw [← String.toList_inj] at heq
      simp only [String.toList_append, List.append_assoc, List.append_cancel_left_eq,
        List.append_cancel_right_eq] at heq
      exact (Uuid.hyphenated_injective (String.toList_inj.mp heq)).symm
    . rintro rfl
      rfl
  . simp [Uuid.hyphenated, Uuid.length_hyphenatedChars]

theorem isForwarded_forwardedText (source : Uuid) (env : String)
    : Frame.isForwarded (.text (forwardedText source env)) = true := by
  unfold Frame.isForwarded forwardedText
  simp only [String.append_assoc]
  rw [Text.startsWith_append _ (by decide)]
  decide

/--
A frame that is forwarded names the device that sent it.
-/
theorem sourced_of_forwarded {serde : Serde} {source dest : Uuid} {m : ClientMessage} {f : Frame}
    (h : Forwarded serde source dest m f) : (f.toBus source).Sourced := by
  intro x
  cases h with
  | @text text inbound env =>
    have hframe : Frame.ofText? (forwardedText source env) = some (.text (forwardedText source env)) :=
      if_pos (isForwarded_forwardedText source env)
    by_cases hx : source = x
    . subst hx
      have hsource := (hasSource_forwardedText source source env).mpr rfl
      simp [Frame.toBus, frame?, frameFrom?, hframe, hsource]
    . have hsource := mt (hasSource_forwardedText source x env).mp hx
      simp [Frame.toBus, frame?, frameFrom?, hframe, hsource, hx]
  | @binary frame hparse _ _ =>
    have hsource := drop_take_rewriteHr source (length_lt_of_parseHr hparse)
    have hiff : source.toList = x.toList ↔ source = x := Bytes.ext_iff.symm
    by_cases hx : source = x
    . subst hx
      simp [Frame.toBus, frame?, frameFrom?, Frame.hasSource, hsource]
    . simp [Frame.toBus, frame?, frameFrom?, Frame.hasSource, hsource, hiff, hx]

theorem frameFrom?_isForward {msg : BusMessage} (x : Uuid) (h : msg.isForward = false)
    : msg.frameFrom? x = none := by
  cases msg <;> first | rfl | cases h

end BusMessage

@[simp]
theorem ofText?_rvMsgMessage (rvId text : String)
    : Frame.ofText? (rvMsgMessage rvId text) = none := by
  unfold rvMsgMessage
  simp only [String.append_assoc]
  exact Frame.ofText?_append _ (by decide) (by decide)

/--
What requests publish.
-/
theorem notify_cases {crypto : Crypto} {db : Db} {nowMs : Int64} {req : Request} {d : Uuid}
    {msg : BusMessage} (h : .notify d msg ∈ (req.handle crypto db nowMs).actions)
    : msg = .pairsChanged ∨ (∃ st, msg = .pairRevoked st) ∨ ∃ code, msg = .close code := by
  have heffect := handle_effect crypto db nowMs req
  generalize req.handle crypto db nowMs = out at h heffect
  cases heffect with
  | refused e => cases h
  | unchanged r => cases h
  | upserted r _ _ _ => cases h
  | touched d nowMs => cases h
  | cleaned nowMs => cases h
  | pairCreated _ _ _ _ =>
    simp only [Outcome.accepted, List.mem_cons, Action.notify.injEq, List.not_mem_nil,
      or_false] at h
    rcases h with ⟨_, rfl⟩ | ⟨_, rfl⟩ <;> exact .inl rfl
  | revoked _ _ _ _ =>
    simp only [List.mem_flatMap, List.mem_cons, Action.notify.injEq, List.not_mem_nil,
      or_false] at h
    rcases h with ⟨_, _, ⟨_, rfl⟩ | ⟨_, rfl⟩⟩
    . exact .inr (.inl ⟨_, rfl⟩)
    . exact .inl rfl
  | deleted _ =>
    simp only [List.mem_append, List.mem_flatMap, List.mem_cons, reduceCtorEq,
      Action.notify.injEq, List.not_mem_nil, or_false, false_or] at h
    rcases h with ⟨⟨peer, st⟩, _, h⟩ | ⟨_, rfl⟩
    . cases st with
      | none =>
        simp only [Routes.Devices.tellPeer, List.mem_singleton, Action.notify.injEq] at h
        exact .inl h.2
      | some st =>
        simp only [Routes.Devices.tellPeer, List.mem_cons, reduceCtorEq, Action.notify.injEq,
          List.not_mem_nil, or_false, false_or] at h
        exact .inr (.inl ⟨st, h.2⟩)
    . exact .inr (.inr ⟨_, rfl⟩)

/--
Requests send no frames.
-/
theorem notify_not_forward {crypto : Crypto} {db : Db} {nowMs : Int64} {req : Request} {d : Uuid}
    {msg : BusMessage} (h : .notify d msg ∈ (req.handle crypto db nowMs).actions)
    : msg.isForward = false ∧ msg.frame? = none := by
  rcases notify_cases h with rfl | ⟨_, rfl⟩ | ⟨_, rfl⟩ <;> exact ⟨rfl, rfl⟩

/-!
The frames of a device on their way, the newest one first.
-/

section

variable (x : Uuid)

/--
The frame of `x` that a packet brings to the device `d`.
-/
def Packet.frameFrom? (d : Uuid) (p : Packet) : Option Frame :=
  if channelDevice p.channel = some d then
    (BusMessage.decode p.payload).bind (·.frameFrom? x)
  else
    none

def Delivery.frameFrom? : Delivery → Option Frame
  | .bus msg => msg.frameFrom? x
  | .resync => none

def Event.frameFrom? : Event → Option Frame
  | .delivery d => d.frameFrom? x
  | _ => none

/--
The frames that a connection has published for the device `d`.
-/
def ConnTask.sentTo (t : ConnTask) (d : Uuid) : List Frame :=
  (forwards t.trace).filterMap fun f => if f.1 = d then f.2.frameFrom? t.me.deviceId else none

namespace World

/--
The frames that are in the stream of an instance.
-/
def streamed (w : World) (d : Uuid) (i : InstanceId) : List Frame :=
  (w.insts i).stream.reverse.filterMap (·.frameFrom? x d)

def queued (w : World) (c : Uuid) : List Frame :=
  (w.boxes c).queue.reverse.filterMap (·.frameFrom? x)

/--
All frames that have reached a connection or may still do so.
-/
def arriving (w : World) (c : Uuid) (t : ConnTask) : List Frame :=
  w.streamed x t.me.deviceId t.me.inst ++ (w.queued x c ++ t.inputs.filterMap (·.frameFrom? x))

def sentBy (w : World) (cx d : Uuid) : List Frame :=
  match w.conns cx with
  | some t => t.sentTo d
  | none => []

/--
The connection `cx`, if it exists, is one of the device `x`, and the only one.
-/
def Sole (w : World) (cx : Uuid) : Prop :=
  ∀ c t, w.conns c = some t → (t.me.deviceId = x ↔ c = cx)

end World
end

namespace World

variable {env : Env} {w w' : World} {x cx : Uuid}

theorem Sole.of_step {l : Label} (h : w'.Sole x cx) (hstep : w.step env l = some w') : w.Sole x cx := by
  intro c t hc
  have ⟨t', hc', hme⟩ := step_conn hstep hc
  exact hme ▸ h c t' hc'

/--
What requests still have to publish carries no frame.
-/
def JobsSilent (w : World) : Prop :=
  ∀ d msg, w.Todo (.notify d msg) → msg.isForward = false ∧ msg.frame? = none

theorem JobsSilent.step {l : Label} (h : JobsSilent w) (hstep : w.step env l = some w')
    : JobsSilent w' := by
  intro d msg htodo
  cases htodo.of_step hstep with
  | inl htodo => exact h d msg htodo
  | inr hreq =>
    have ⟨req, _, hmem⟩ := hreq
    exact notify_not_forward hmem

/--
What a connection publishes names its device as the source of a frame.
-/
theorem sourced_of_sends {t : ConnTask} {dest : Uuid} {msg : BusMessage}
    (h : Sends env t dest msg)
    : msg.Sourced ∧ ∀ y, t.me.deviceId ≠ y → msg.frameFrom? y = none := by
  -- what is no frame of another device
  have hother : ∀ {m : BusMessage}, m.isForward = false → m.frame? = none
      → m.Sourced ∧ ∀ y, t.me.deviceId ≠ y → m.frameFrom? y = none :=
    fun hforward hframe => ⟨BusMessage.sourced_of_frame? hforward hframe,
      fun y _ => BusMessage.frameFrom?_isForward y hforward⟩
  cases h with
  | replace => exact hother rfl rfl
  | presence => exact hother rfl (by simp [BusMessage.frame?])
  | rvJoined => exact hother rfl (by simp [BusMessage.frame?])
  | rvMsg => exact hother rfl (by simp [BusMessage.frame?])
  | forward _ hin =>
    have ⟨e, _, he⟩ := List.mem_filterMap.mp hin
    cases e with
    | client m =>
      have ⟨f, hf, hmsg⟩ := forwardFor_eq_some he
      subst hmsg
      refine ⟨BusMessage.sourced_of_forwarded hf, ?_⟩
      intro y hy
      cases f <;> simp [Frame.toBus, BusMessage.frameFrom?, hy]
    | _ => cases he

/--
Every message on its way names the source of the frame it carries.
-/
structure SourcedOk (env : Env) (w : World) : Prop where
  sound : Sound env w
  jobs : JobsSilent w
  sourced : InFlight (fun _ msg => msg.Sourced) w

theorem sourcedOk_init (env : Env) (db : Db) : SourcedOk env (init db) where
  sound := sound_init env db
  jobs d msg htodo := by
    have ⟨_, hmem, _⟩ := htodo
    cases hmem
  sourced := inFlight_init _ db

theorem SourcedOk.step {l : Label} (h : SourcedOk env w) (hstep : w.step env l = some w')
    : SourcedOk env w' where
  sound := h.sound.step hstep
  jobs := h.jobs.step hstep
  sourced := by
    apply h.sourced.step h.sound.wellFormed hstep
    . exact fun _ _ => BusMessage.sourced_of_frame? rfl rfl
    . intro dest msg hpub
      cases hpub.cases h.sound.tasks with
      | inl hconn =>
        have ⟨_, _, _, _, _, _, _, _, hsends⟩ := hconn
        exact (sourced_of_sends hsends).1
      | inr htodo =>
        have ⟨hforward, hframe⟩ := h.jobs dest msg htodo
        exact BusMessage.sourced_of_frame? hforward hframe

theorem sourcedOk_run {db : Db} {ls : List Label} (h : run env (init db) ls = some w)
    : SourcedOk env w :=
  Lts.run_stable (fun _ _ _ hok hstep => SourcedOk.step hok hstep) (sourcedOk_init env db) h

theorem sentTo_resume (t : ConnTask) (s : Conn) (o : Op) (k : o.Res → Prog Conn Op Op.Res Next)
    (r : o.Res) (d : Uuid)
    : (t.resume s o k r).sentTo d
      = (o.forward?.bind fun f =>
          if f.1 = d then f.2.frameFrom? t.me.deviceId else none).toList ++ t.sentTo d := by
  unfold ConnTask.sentTo forwards
  rw [ConnTask.resume_trace, ConnTask.resume_me, List.filterMap_cons]
  cases o.forward? with
  | none => rfl
  | some f =>
    dsimp only
    rw [List.filterMap_cons, Option.bind_some]
    cases (if f.1 = d then f.2.frameFrom? t.me.deviceId else none) <;> rfl

/--
What a connection has sent it has sent for good.
-/
theorem sentBy_step {l : Label} (hstep : w.step env l = some w') (cx d : Uuid)
    : (w.sentBy cx d).Sublist (w'.sentBy cx d) := by
  unfold sentBy
  have htask := step_task hstep cx
  generalize w'.conns cx = u at htask
  cases htask with
  | same _ => exact .refl _
  | connected hnone =>
    rw [hnone]
    exact List.nil_sublist _
  | resumed hc _ _ =>
    rw [hc]
    dsimp only
    rw [sentTo_resume]
    exact List.sublist_append_right _ _
  | handled hc _ _ =>
    rw [hc]
    dsimp only
    unfold ConnTask.sentTo
    rw [ConnTask.handle_trace, ConnTask.handle_me]

/--
A published message of another device, or of a request, carries no frame of `x`; one of `x` is
counted.
-/
theorem sentBy_of_publishes {l : Label} (hsound : Sound env w) (hjobs : JobsSilent w)
    (hsole : w.Sole x cx) (hstep : w.step env l = some w') {dest : Uuid} {msg : BusMessage}
    (hpub : w.Publishes dest msg l) (d : Uuid)
    : ((if dest = d then msg.frameFrom? x else none).toList ++ w.sentBy cx d).Sublist
        (w'.sentBy cx d) := by
  have hother : msg.frameFrom? x = none
      → ((if dest = d then msg.frameFrom? x else none).toList ++ w.sentBy cx d).Sublist
        (w'.sentBy cx d) := by
    intro hnone
    simp only [hnone, ite_self, Option.toList_none, List.nil_append]
    exact sentBy_step hstep cx d
  cases hpub.cases hsound.tasks with
  | inr htodo => exact hother (BusMessage.frameFrom?_isForward x (hjobs dest msg htodo).1)
  | inl hconn =>
    have ⟨c, f, t, s, k, hl, hc, hprog, hsends⟩ := hconn
    subst hl
    by_cases hx : t.me.deviceId = x
    . have hcx := (hsole c t hc).mp hx
      subst hcx hx
      have ⟨t1, s1, o1, k1, w1, r, hc1, hprog1, _, hw'⟩ := exec_eq_some.mp hstep
      rw [hc] at hc1
      cases hc1
      rw [hprog] at hprog1
      cases hprog1
      unfold sentBy
      rw [hw', setConn_self, hc]
      dsimp only
      rw [sentTo_resume]
      unfold Op.forward?
      dsimp only
      by_cases hforward : msg.isForward
      . rw [if_pos hforward]
        exact .refl _
      . rw [if_neg hforward, BusMessage.frameFrom?_isForward _ (by simpa using hforward), ite_self]
        exact .refl _
    . exact hother ((sourced_of_sends hsends).2 x hx)

@[simp]
theorem frameFrom?_packet (x d dest : Uuid) (msg : BusMessage)
    : Packet.frameFrom? x d ⟨deviceChannel dest, msg.encode⟩
      = if dest = d then msg.frameFrom? x else none := by
  simp [Packet.frameFrom?]

/--
A stream grows only by what is sent.
-/
theorem streamed_step {l : Label} (hsound : Sound env w) (hjobs : JobsSilent w)
    (hsole : w.Sole x cx) (hstep : w.step env l = some w') (d : Uuid) (i : InstanceId)
    : ∃ new : List Frame, (w'.streamed x d i).Sublist (new ++ w.streamed x d i)
      ∧ (new ++ w.sentBy cx d).Sublist (w'.sentBy cx d) := by
  have hs := step_stream hstep i
  unfold streamed
  generalize (w'.insts i).stream = stream at hs ⊢
  cases hs with
  | same => exact ⟨[], .refl _, sentBy_step hstep cx d⟩
  | @published _ dest msg hpub =>
    refine ⟨_, ?_, sentBy_of_publishes hsound hjobs hsole hstep hpub d⟩
    rw [List.reverse_append, List.reverse_singleton, List.singleton_append, List.filterMap_cons,
      frameFrom?_packet]
    cases (if dest = d then msg.frameFrom? x else none) <;> exact .refl _
  | @taken p rest hstream =>
    refine ⟨[], ?_, sentBy_step hstep cx d⟩
    rw [hstream, List.reverse_cons, List.filterMap_append]
    exact List.sublist_append_left _ _
  | @lost keep =>
    refine ⟨[], ?_, sentBy_step hstep cx d⟩
    exact ((List.take_sublist keep _).reverse).filterMap _

/-!
The queue of a connection and what it has handled.
-/

/--
Only the bus task adds a frame to a queue, and only the connection takes one.
-/
theorem queued_step {l : Label} {c : Uuid} (hstep : w.step env l = some w')
    (hconnect : ∀ i d, l ≠ .connect i c d) (hevent : ∀ e, l ≠ .event c e)
    (hbus : ∀ i, l ≠ .busMessage i) : w'.queued x c = w.queued x c := by
  have hq := step_queue hstep c
  unfold queued
  generalize (w'.boxes c).queue = queue at hq ⊢
  cases hq with
  | same => rfl
  | fresh => exact absurd rfl (hconnect _ _)
  | taken _ => exact absurd rfl (hevent _)
  | told _ _ =>
    rw [List.reverse_append, List.reverse_singleton]
    rfl
  | dispatched _ _ _ _ => exact absurd rfl (hbus _)
  | resync =>
    rw [List.reverse_append, List.reverse_replicate, List.filterMap_append]
    simp [Delivery.frameFrom?]

theorem inputs_step {l : Label} {c : Uuid} {t t' : ConnTask} (hstep : w.step env l = some w')
    (hc : w.conns c = some t) (hc' : w'.conns c = some t') (hevent : ∀ e, l ≠ .event c e)
    : t'.inputs = t.inputs := by
  have htask := step_task hstep c
  rw [hc'] at htask
  generalize hu : some t' = u at htask
  cases htask with
  | same _ =>
    rw [hc] at hu
    cases hu
    rfl
  | connected hnone =>
    rw [hc] at hnone
    cases hnone
  | resumed hc1 _ _ =>
    rw [hc] at hc1
    cases hc1
    cases hu
    exact ConnTask.resume_inputs ..
  | handled _ _ _ => exact absurd rfl (hevent _)

/--
A connection that takes an event from its queue has it among what it has handled.
-/
theorem arriving_event {c : Uuid} {e : Event} {t : ConnTask} {s : Conn}
    (hready : w.ready c s e) (t' : ConnTask) (hinputs : t'.inputs = e :: t.inputs)
    : (take (w.boxes c) e).queue.reverse.filterMap (·.frameFrom? x)
        ++ t'.inputs.filterMap (·.frameFrom? x)
      = w.queued x c ++ t.inputs.filterMap (·.frameFrom? x) := by
  rw [hinputs]
  unfold queued
  cases e with
  | delivery d =>
    simp only [ready, Bool.and_eq_true, decide_eq_true_eq] at hready
    have hq := List.eq_cons_of_mem_head? hready.2
    unfold take
    dsimp only
    generalize (w.boxes c).queue.tail = rest at hq ⊢
    have he : Event.frameFrom? x (.delivery d) = d.frameFrom? x := rfl
    rw [hq, List.reverse_cons, List.filterMap_append, List.append_assoc, List.filterMap_cons,
      List.filterMap_cons, he]
    cases d.frameFrom? x <;> rfl
  | _ => rfl

/--
A message that leaves a stream is dropped or put into the queue of the registered connection.
-/
theorem arriving_busMessage {i : InstanceId} {c : Uuid} {t : ConnTask} (hwf : WellFormed w)
    (hstep : w.busMessage env i = some w') (hc : w.conns c = some t)
    : (w'.streamed x t.me.deviceId t.me.inst ++ w'.queued x c).Sublist
        (w.streamed x t.me.deviceId t.me.inst ++ w.queued x c) := by
  have ⟨p, rest, _, hstream, hw'⟩ := busMessage_eq_some hstep
  -- the stream without its first packet
  have hrest : ∀ d, ((w.modifyInst i ({ · with stream := rest })).streamed x d i)
        ++ (p.frameFrom? x d).toList = w.streamed x d i := by
    intro d
    unfold streamed
    rw [modifyInst_self, hstream, List.reverse_cons, List.filterMap_append, List.filterMap_cons,
      List.filterMap_nil]
    cases p.frameFrom? x d <;> rfl
  have hdropped : ∀ d j, ((w.modifyInst i ({ · with stream := rest })).streamed x d j).Sublist
      (w.streamed x d j) := by
    intro d j
    by_cases hj : j = i
    . subst hj
      rw [← hrest d]
      exact List.sublist_append_left _ _
    . unfold streamed
      rw [modifyInst_ne _ _ hj]
  cases hw' with
  | inr hw' =>
    rw [hw'.2]
    exact (hdropped _ _).append (.refl _)
  | inl hw' =>
    have ⟨d, msg, hd, hmsg, hw'⟩ := hw'
    subst hw'
    have hcurrent : ((w.modifyInst i ({ · with stream := rest })).insts i).current d
        = (w.insts i).current d := by
      rw [modifyInst_self]
      rfl
    unfold dispatch
    rw [hcurrent]
    split
    . exact (hdropped _ _).append (.refl _)
    next c' hcur =>
      change ((w.modifyInst i ({ · with stream := rest })).streamed x _ _ ++ _).Sublist _
      unfold queued
      by_cases hcc : c = c'
      . subst hcc
        rw [modifyBox_self]
        change (_ ++ List.filterMap _
          ((w.boxes c).dispatch _ (w.received c) msg).queue.reverse).Sublist _
        cases Mailbox.dispatch_queue (w.boxes c) (env.settings i).maxQueuedBytes (w.received c)
            msg with
        | inl hq =>
          rw [hq]
          exact (hdropped _ _).append (.refl _)
        | inr hq =>
          -- the connection is the one the packet was for
          have ⟨t1, ht1, hme⟩ := hwf.current i d c hcur
          dsimp only at ht1
          rw [hc] at ht1
          cases ht1
          have hbus : Delivery.frameFrom? x (.bus msg) = msg.frameFrom? x := rfl
          rw [hq, List.reverse_append, List.reverse_singleton, List.singleton_append,
            List.filterMap_cons, hme, ← hrest d, Packet.frameFrom?, if_pos hd, hmsg,
            Option.bind_some, hbus]
          cases msg.frameFrom? x with
          | none =>
            rw [Option.toList_none, List.append_nil]
          | some f =>
            rw [Option.toList_some, List.append_assoc, List.singleton_append]
      . rw [modifyBox_ne _ _ hcc]
        exact (hdropped _ _).append (.refl _)

/--
Everything that has reached a connection or may still do so was sent, in this order.
-/
structure ForwardingOk (env : Env) (x cx : Uuid) (w : World) : Prop extends SourcedOk env w where
  streamed : ∀ d i, (w.streamed x d i).Sublist (w.sentBy cx d)
  arriving : ∀ c t, w.conns c = some t → (w.arriving x c t).Sublist (w.sentBy cx t.me.deviceId)

theorem ForwardingOk.arriving_step {l : Label} (h : ForwardingOk env x cx w)
    (hsole : w.Sole x cx) (hstep : w.step env l = some w') {c : Uuid} {t t' : ConnTask}
    (hc : w.conns c = some t) (hc' : w'.conns c = some t')
    : (w'.arriving x c t').Sublist (w'.sentBy cx t'.me.deviceId) := by
  have hme : t'.me = t.me := by
    have ⟨t1, ht1, hme⟩ := step_conn hstep hc
    rw [hc'] at ht1
    cases ht1
    exact hme
  have hconnect : ∀ i d, l ≠ .connect i c d := by
    rintro i d rfl
    have ⟨_, hnone, _⟩ := connect_eq_some.mp hstep
    rw [hc] at hnone
    cases hnone
  have hmono := sentBy_step hstep cx t.me.deviceId
  unfold World.arriving
  rw [hme]
  by_cases hevent : ∃ e, l = .event c e
  . have ⟨e, hl⟩ := hevent
    subst hl
    have ⟨t1, s, hc1, hprog, hready, hw'⟩ := event_eq_some.mp hstep
    rw [hc] at hc1
    cases hc1
    subst hw'
    rw [setConn_self] at hc'
    cases hc'
    have heq : World.queued x ((w.modifyBox c (take · e)).setConn c (t.handle env s e)) c
        ++ (t.handle env s e).inputs.filterMap (·.frameFrom? x)
        = w.queued x c ++ t.inputs.filterMap (·.frameFrom? x) := by
      have hq : World.queued x ((w.modifyBox c (take · e)).setConn c (t.handle env s e)) c
          = (take (w.boxes c) e).queue.reverse.filterMap (·.frameFrom? x) := by
        unfold World.queued
        change List.filterMap _ ((w.modifyBox c (take · e)).boxes c).queue.reverse = _
        rw [modifyBox_self]
      rw [hq]
      exact arriving_event hready _ (ConnTask.handle_inputs ..)
    rw [heq]
    exact (h.arriving c t hc).trans hmono
  . have hevent : ∀ e, l ≠ .event c e := fun e hl => hevent ⟨e, hl⟩
    rw [inputs_step hstep hc hc' hevent]
    by_cases hbus : ∃ i, l = .busMessage i
    . have ⟨i, hl⟩ := hbus
      subst hl
      rw [← List.append_assoc]
      refine ((arriving_busMessage h.sound.wellFormed hstep hc).append (.refl _)).trans ?_
      rw [List.append_assoc]
      exact (h.arriving c t hc).trans hmono
    . rw [queued_step hstep hconnect hevent fun i hl => hbus ⟨i, hl⟩]
      have ⟨new, hnew, hsent⟩ :=
        streamed_step h.sound h.jobs hsole hstep t.me.deviceId t.me.inst
      refine (hnew.append (.refl _)).trans ?_
      rw [List.append_assoc]
      exact (List.Sublist.append (.refl new) (h.arriving c t hc)).trans hsent

theorem ForwardingOk.step {l : Label} (h : ForwardingOk env x cx w) (hsole : w.Sole x cx)
    (hstep : w.step env l = some w') : ForwardingOk env x cx w' := by
  have hstreamed : ∀ d i, (w'.streamed x d i).Sublist (w'.sentBy cx d) := by
    intro d i
    have ⟨new, hnew, hsent⟩ := streamed_step h.sound h.jobs hsole hstep d i
    exact hnew.trans ((List.Sublist.append (.refl new) (h.streamed d i)).trans hsent)
  refine ⟨h.toSourcedOk.step hstep, hstreamed, ?_⟩
  intro c t' hc'
  cases hc : w.conns c with
  | some t => exact h.arriving_step hsole hstep hc hc'
  | none =>
    -- a new connection has an empty queue
    have ⟨i, d, hl⟩ := ((isSome_conns_step hstep c).mp (by rw [hc']; rfl)).resolve_left
      (by simp [hc])
    subst hl
    have ⟨_, _, hw'⟩ := connect_eq_some.mp hstep
    have hq : w'.queued x c = [] := by
      unfold queued
      rw [hw']
      change List.filterMap _ ((World.modifyBox _ c fun _ => .new).boxes c).queue.reverse = []
      rw [modifyBox_self]
      rfl
    have hinputs : t'.inputs = [] := by
      rw [hw'] at hc'
      dsimp only at hc'
      rw [setConn_self] at hc'
      cases hc'
      simp [ConnTask.new]
    unfold World.arriving
    rw [hq, hinputs, List.filterMap_nil, List.append_nil, List.append_nil]
    exact hstreamed _ _

theorem forwardingOk_run {db : Db} {ls : List Label} (h : run env (init db) ls = some w)
    (hsole : w.Sole x cx) : ForwardingOk env x cx w := by
  refine Lts.run_stable (P := fun w => w.Sole x cx → ForwardingOk env x cx w) ?_ ?_ h hsole
  . intro w1 l w2 hok hstep hsole
    exact (hok (hsole.of_step hstep)).step (hsole.of_step hstep) hstep
  . intro _
    refine ⟨sourcedOk_init env db, fun d i => List.nil_sublist _, ?_⟩
    intro c t hc
    cases hc

end World

/-!
What the device at the other end gets.
-/

def Event.client? : Event → Option ClientMessage
  | client msg => some msg
  | _ => none

theorem frameFrom?_of_sourced {x : Uuid} {e : Event}
    (h : ∀ msg, e = .delivery (.bus msg) → msg.Sourced)
    : e.frame?.filter (·.hasSource x) = e.frameFrom? x := by
  cases e with
  | delivery d =>
    cases d with
    | bus msg => exact h msg rfl x
    | resync => rfl
  | _ => rfl

theorem sentTo_sublist {env : Env} {t : ConnTask} (h : t.Ok env) (d : Uuid)
    : (t.sentTo d).Sublist
        ((t.inputs.filterMap (·.forward? env.serde t.me)).filterMap fun f =>
          if f.1 = d then f.2.frameFrom? t.me.deviceId else none) := by
  apply List.Sublist.filterMap
  refine .trans ?_ h.acc_sublist
  unfold ConnTask.acc accepted
  split
  . exact List.sublist_append_right _ _
  . exact (List.sublist_append_right _ _).trans (List.sublist_append_right _ _)

/--
Forwarding is authentic, exact and in order. In every run, if `x` has one connection, the frames
with the source `x` that a connection of `d` has written are frames that `x` sent to `d`, each of
them unchanged but for its head, in the order they were sent and each at most once.
-/
theorem forwarding_is_exact_and_in_order {env : Env} {db : Db} {ls : List Label} {w : World}
    {cx cd : Uuid} {tx td : ConnTask} (hrun : run env (World.init db) ls = some w)
    (hx : w.conns cx = some tx) (hd : w.conns cd = some td)
    (honly : ∀ c t, w.conns c = some t → t.me.deviceId = tx.me.deviceId → c = cx)
    : ∃ sent, sent.Sublist (tx.inputs.filterMap Event.client?)
      ∧ List.Forall₂ (Exact env.serde tx.me.deviceId td.me.deviceId) sent
          ((frames td.trace).filter (·.hasSource tx.me.deviceId)) := by
  have hsole : w.Sole tx.me.deviceId cx := by
    intro c t hc
    constructor
    . exact honly c t hc
    . rintro rfl
      rw [hx] at hc
      cases hc
      rfl
  have hok := World.forwardingOk_run hrun hsole
  -- what was written had arrived, and what arrived was sent
  have hwritten : ((frames td.trace).filter (·.hasSource tx.me.deviceId)).Sublist
      (tx.sentTo td.me.deviceId) := by
    have hframes := ((hok.sound.tasks cd td hd).frames_sublist).filter
      (·.hasSource tx.me.deviceId)
    have heq : (td.inputs.filterMap (·.frame?)).filter (·.hasSource tx.me.deviceId)
        = td.inputs.filterMap (·.frameFrom? tx.me.deviceId) := by
      rw [List.filter_filterMap]
      apply List.filterMap_congr
      intro e he
      apply frameFrom?_of_sourced
      rintro msg rfl
      exact hok.sourced.inputs cd td msg hd he
    rw [heq] at hframes
    have harrived := hok.arriving cd td hd
    rw [World.sentBy, hx] at harrived
    exact hframes.trans (((List.sublist_append_right _ _).trans
      (List.sublist_append_right _ _)).trans harrived)
  have hsent := hwritten.trans (sentTo_sublist (hok.sound.tasks cx tx hx) td.me.deviceId)
  -- each of them answers to a message of the device
  have hclient : (tx.inputs.filterMap (·.forward? env.serde tx.me)).filterMap (fun f =>
        if f.1 = td.me.deviceId then f.2.frameFrom? tx.me.deviceId else none)
      = (tx.inputs.filterMap Event.client?).filterMap (fun m =>
        (forwardFor env.serde tx.me m).bind fun f =>
          if f.1 = td.me.deviceId then f.2.frameFrom? tx.me.deviceId else none) := by
    rw [List.filterMap_filterMap, List.filterMap_filterMap]
    apply List.filterMap_congr
    intro e _
    cases e <;> rfl
  rw [hclient] at hsent
  have ⟨sent, hsub, hall⟩ := exists_sublist_of_filterMap hsent
  refine ⟨sent, hsub, hall.imp ?_⟩
  intro m f hf
  have ⟨⟨dest, msg⟩, hforward, hframe⟩ := Option.bind_eq_some_iff.mp hf
  have ⟨f1, hf1, hmsg⟩ := forwardFor_eq_some hforward
  dsimp only at hframe
  split at hframe
  next hdest =>
    subst hdest hmsg
    have hff : f1 = f := by
      cases f1 <;> simpa [Frame.toBus, BusMessage.frameFrom?] using hframe
    exact hff ▸ exact_of_forwarded hf1
  . cases hframe

namespace Sample

/--
A text frame for another device.
-/
def wrapper (dest : Uuid) (env : String) : String :=
  Json.object [("to", Json.quote dest.hyphenated), ("env", env)]

def chatText : String := wrapper (device 2) "\x7b\x7d"

/--
The relay with the readers of `serde`.
-/
def chat : Env :=
  { relay with serde := .derived }

def chatFrame : List UInt8 :=
  hrMagic ++ [hrVersion, hrOpForward] ++ (device 2).toList ++ [1, 2, 3]

/--
A connection takes a frame of another device and writes it.
-/
def writes (c : Uuid) (msg : BusMessage) : List Label :=
  .event c (.delivery (.bus msg)) :: execs 2 c

/--
The first device sends a text and a binary frame to the second one, on the other instance.
-/
def chats : List Label :=
  opensPaired "a" (uuid 1) (device 1) ++ opensPaired "b" (uuid 2) (device 2)
    ++ [Label.event (uuid 1) (.client (.text chatText))] ++ execs 4 (uuid 1)
    ++ [Label.event (uuid 1) (.client (.binary chatFrame))] ++ execs 4 (uuid 1)
    ++ replaced "b" (uuid 2) (uuid 2) ++ [Label.busMessage "b", .busMessage "b"]
    ++ writes (uuid 2) (.forwardText (device 1) (forwardedText (device 1) "\x7b\x7d"))
    ++ writes (uuid 2) (.forwardBinary (device 1) (rewriteHr chatFrame (device 1)))

end Sample

theorem forwarding_is_exact_in_a_chat
    : ∃ w tx td sent, run Sample.chat (World.init Sample.pairedDb) Sample.chats = some w
      ∧ w.conns (Sample.uuid 1) = some tx ∧ w.conns (Sample.uuid 2) = some td
      ∧ ((frames td.trace).filter (·.hasSource tx.me.deviceId)).length = 2
      ∧ sent.Sublist (tx.inputs.filterMap Event.client?)
      ∧ List.Forall₂ (Exact Sample.chat.serde tx.me.deviceId td.me.deviceId) sent
          ((frames td.trace).filter (·.hasSource tx.me.deviceId)) := by
  have hrun : (run Sample.chat (World.init Sample.pairedDb) Sample.chats).any (fun w =>
      decide (w.connects = [Sample.uuid 2, Sample.uuid 1])
        && (w.conns (Sample.uuid 1)).any (fun tx => (w.conns (Sample.uuid 2)).any fun td =>
          decide (td.me.deviceId ≠ tx.me.deviceId)
            && decide (((frames td.trace).filter (·.hasSource tx.me.deviceId)).length = 2)))
      = true := by
    decide +kernel
  simp only [Option.any_eq_true, Bool.and_eq_true, decide_eq_true_eq] at hrun
  have ⟨w, hw, hconnects, tx, hx, td, hd, hne, htwo⟩ := hrun
  have honly : ∀ c t, w.conns c = some t → t.me.deviceId = tx.me.deviceId → c = Sample.uuid 1 := by
    intro c t hc hdev
    have hmem := (World.sound_run hw).mem_connects hc
    rw [hconnects] at hmem
    simp only [List.mem_cons, List.not_mem_nil, or_false] at hmem
    refine hmem.resolve_left ?_
    rintro rfl
    rw [hd] at hc
    cases hc
    exact hne hdev
  have ⟨sent, hsub, hall⟩ := forwarding_is_exact_and_in_order hw hx hd honly
  exact ⟨w, tx, td, sent, hw, hx, hd, htwo, hsub, hall⟩

end HandLiveRelay
