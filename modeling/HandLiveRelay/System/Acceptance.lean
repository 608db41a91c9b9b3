import HandLiveRelay.System.Delivery
import HandLiveRelay.System.Forwarding
import HandLiveRelay.System.Handover

/-!
This module contains that a frame which was accepted from a device reaches the socket of its peer.
The connection of the receiver checks the pair for itself. If it does not know the sender yet it
reads the pairs again, but not within a second of the last time it did so for an unknown device,
and in that second the frame is dropped.
-/

namespace HandLiveRelay

open Fiber Wire

/--
The device a forwarded frame comes from.
-/
def BusMessage.source? : BusMessage → Option Uuid
  | forwardText source _ | forwardBinary source _ => some source
  | _ => none

/--
The frame of the message was written.
-/
def BusMessage.WrittenIn (t : ConnTrace) : BusMessage → Prop
  | forwardText _ text => Did t (.sendText text) .ok
  | forwardBinary _ frame => Did t (.sendBinary frame) .ok
  | _ => False

/--
The database knows the pair of the receiver and `x`, the socket takes what is written, and the last
time that the pairs were read again for an unknown device is long enough ago.
-/
def Helpful (x : Uuid) : Performed Conn Op Op.Res → Prop
  | ⟨s, .now, now⟩ => s.lastMissReload.any (fun t => now - t < Conn.missReloadGap) = false
  | ⟨_, .activePeers, r⟩ => ∃ pairs, r = some pairs ∧ x ∈ pairs.map (·.2)
  | ⟨_, .sendText _, r⟩ => r = .ok
  | ⟨_, .sendBinary _, r⟩ => r = .ok
  | _ => True

/--
The trace `t` continues `t0`, and the frame of the message was written in between.
-/
def WrittenSince (msg : BusMessage) (t0 t : ConnTrace) : Prop :=
  ∃ u, t = u ++ t0 ∧ msg.WrittenIn u

theorem BusMessage.WrittenIn.cons {msg : BusMessage} {t : ConnTrace} (h : msg.WrittenIn t)
    (p : Performed Conn Op Op.Res) : msg.WrittenIn (p :: t) := by
  cases msg with
  | forwardText source text => exact Did.cons h p
  | forwardBinary source frame => exact Did.cons h p
  | _ => exact h

theorem WrittenSince.cons {msg : BusMessage} {t0 t : ConnTrace} (h : WrittenSince msg t0 t)
    (p : Performed Conn Op Op.Res) : WrittenSince msg t0 (p :: t) := by
  have ⟨u, heq, hwritten⟩ := h
  exact ⟨p :: u, by rw [heq, List.cons_append], hwritten.cons p⟩

namespace Conn

theorem yields_isPeer (x : Uuid) (s : Conn) {t0 t : ConnTrace} (ht : t0 <:+ t)
    : ((isPeer x).start s).Yields (Helpful x) (fun peer _ t => peer = true ∧ t0 <:+ t) t := by
  unfold isPeer
  rw [Code.start_bind, Code.start_get, Prog.bind_done]
  split
  . exact ⟨rfl, ht⟩
  . intro now hnow
    have hgap : (s.lastMissReload.any fun t => decide (now - t < missReloadGap)) = false := hnow
    simp only [Prog.bind_done, hgap, Bool.false_eq_true, if_false]
    intro r hr
    have ⟨pairs, heq, hx⟩ := hr
    subst heq
    refine ⟨?_, ht.trans ((List.suffix_cons _ _).trans (List.suffix_cons _ _))⟩
    change decide (x ∈ pairs.map (·.2)) = true
    exact decide_eq_true hx

/--
A frame of a peer is written.
-/
theorem yields_forward {settings : Settings} {serde : Serde} {me : Ident} {x : Uuid}
    {msg : BusMessage} (hsource : msg.source? = some x) (s : Conn) {t0 t : ConnTrace}
    (ht : t0 <:+ t)
    : ((serve settings serde me (.delivery (.bus msg))).start s).Yields (Helpful x)
        (fun _ _ t => WrittenSince msg t0 t) t := by
  intro _ _
  have htrace := ht.trans (List.suffix_cons ⟨s, .fetchSub msg.queuedLen, ()⟩ t)
  suffices hdelivery : ((onDelivery me (.bus msg)).start s).Yields (Helpful x)
      (fun _ _ t => WrittenSince msg t0 t) (⟨s, .fetchSub msg.queuedLen, ()⟩ :: t) from
    hdelivery.bind fun _ _ _ h => h
  cases msg with
  | forwardText source text =>
    cases hsource
    refine (yields_isPeer x s htrace).bind ?_
    rintro peer s t ⟨rfl, u, heq⟩ r ⟨rfl⟩
    exact ⟨_, (by rw [← heq]; rfl), did_cons_self u s _ _⟩
  | forwardBinary source frame =>
    cases hsource
    refine (yields_isPeer x s htrace).bind ?_
    rintro peer s t ⟨rfl, u, heq⟩ r ⟨rfl⟩
    exact ⟨_, (by rw [← heq]; rfl), did_cons_self u s _ _⟩
  | _ => cases hsource

end Conn

namespace World

/--
A connection is registered for its device and waits in its event loop or handles an event.
-/
def serves (w : World) (c : Uuid) : Bool :=
  (w.conns c).any fun t => t.alive && (t.stage ≠ .opening || t.idle)
    && decide ((w.insts t.me.inst).current t.me.deviceId = some c)

/--
A failure that concerns a connection: a pub/sub connection is lost, an operation of the connection
fails, or a message for it is over its limit.
-/
def disturbs (env : Env) (c : Uuid) (w : World) : Label → Bool
  | .lose _ _ => true
  | .exec c' f => c' = c && f ≠ .ok
  | .busMessage i =>
    (w.handed c (.busMessage i)).any fun msg => w.overLimit env c msg (.busMessage i)
  | _ => false

def paired (w : World) (d x : Uuid) : Bool :=
  (Pairs.activePeers w.db d).any (·.2 = x)

/--
A connection has a frame from `x`, which it does not know, and does not look for `x` in the
database as it has done so for some device within the last second.
-/
def throttled (c x : Uuid) (w : World) : Label → Bool
  | .exec c' _ => c' = c && (w.conns c).any fun t =>
    match t.stage, t.prog with
    | .handling (.delivery (.bus msg)), .wait s .now _ =>
      msg.source? = some x && s.lastMissReload.any (fun t => w.now - t < Conn.missReloadGap)
    | _, _ => false
  | _ => false

variable {env : Env} {w w' : World} {c x : Uuid} {msg : BusMessage} {t0 : ConnTrace}

/--
The frame of the message is under way to a connection, or is in its hands and will be written, or
has been written, all since the trace of the connection was `t0`.
-/
inductive Reaching (env : Env) (x : Uuid) (msg : BusMessage) (t0 : ConnTrace) (w : World)
    (t : ConnTask) : Prop where
  | underway (htrace : t0 <:+ t.trace) (h : msg ∈ w.underway t.me)
  | inHand (hstage : t.stage = .handling (.delivery (.bus msg)))
      (h : t.prog.Yields (Helpful x) (fun _ _ t => WrittenSince msg t0 t) t.trace)
  | written (h : WrittenSince msg t0 t.trace)

/--
The answer to an operation of a connection that nothing disturbs.
-/
theorem helpful_of_perform {f : Fault} {t : ConnTask} {s : Conn} {o : Op}
    {k : o.Res → Prog Conn Op Op.Res Next} {w1 : World} {r : o.Res} (hc : w.conns c = some t)
    (hprog : t.prog = .wait s o k) (hperf : w.perform env t.me o f = some (w1, r))
    (hstage : t.stage = .handling (.delivery (.bus msg))) (hsource : msg.source? = some x)
    (hdisturbs : w.disturbs env c (.exec c f) = false)
    (hpaired : w.paired t.me.deviceId x = true)
    (hthrottled : w.throttled c x (.exec c f) = false) : Helpful x ⟨s, o, r⟩ := by
  have hok : f = .ok := by simpa [disturbs] using hdisturbs
  subst hok
  unfold Helpful
  split
  next heq =>
    cases heq
    cases hperf
    simpa [throttled, hc, hstage, hprog, hsource] using hthrottled
  next heq =>
    cases heq
    cases hperf
    have ⟨p, hp, hx⟩ := List.any_eq_true.mp hpaired
    exact ⟨_, rfl, List.mem_map.mpr ⟨p, hp, of_decide_eq_true hx⟩⟩
  next heq =>
    cases heq
    cases hperf
    rfl
  next heq =>
    cases heq
    cases hperf
    rfl
  . trivial

/--
A connection that serves its device is registered and has not ended.
-/
theorem serves_eq_true {t : ConnTask} (hc : w.conns c = some t) (h : w.serves c = true)
    : t.alive = true ∧ (t.stage ≠ .opening ∨ t.idle = true)
      ∧ (w.insts t.me.inst).current t.me.deviceId = some c := by
  simpa [serves, hc, and_assoc] using h

/--
Nothing is lost on the way to a connection that serves its device undisturbed.
-/
theorem step_underway_of_serves {α : Type} {g : BusMessage → Option α}
    (hg : ∀ c, g (.replace c) = none) {l : Label} {t : ConnTask} (hsound : Sound env w)
    (hstep : w.step env l = some w') (hc : w.conns c = some t) (hserves : w.serves c = true)
    (hdisturbs : w.disturbs env c l = false)
    : (taking c l ++ w'.underway t.me).filterMap g
      = (w.underway t.me ++ w.publishedFor t.me.inst t.me.deviceId l).filterMap g := by
  have ⟨halive, _, hcur⟩ := serves_eq_true hc hserves
  have hopen : t.ended = false := by
    by_contra hended
    rw [Bool.not_eq_false] at hended
    rw [not_alive_of_ended (hsound.tasks c t hc) hended] at halive
    cases halive
  apply step_underway hg hsound.wellFormed hstep hc hcur hopen
  . intro msg hmsg
    cases l with
    | busMessage i => simpa [disturbs, hmsg] using hdisturbs
    | _ => rfl
  . rintro keep rfl
    cases hdisturbs

theorem taking_of_conn? {l : Label} (h : l.conn? ≠ some c) : taking c l = [] := by
  cases l with
  | event c' e => exact if_neg fun heq => h (by rw [← heq]; rfl)
  | _ => rfl

/--
A frame that is under way to a connection stays so until it is taken.
-/
theorem stays_underway {l : Label} {t : ConnTask} (hsound : Sound env w)
    (hstep : w.step env l = some w') (hc : w.conns c = some t) (hsource : msg.source? = some x)
    (hserves : w.serves c = true) (hdisturbs : w.disturbs env c l = false)
    (hmem : msg ∈ w.underway t.me) : msg ∈ taking c l ∨ msg ∈ w'.underway t.me := by
  have hstays := step_underway_of_serves (g := fun m => if m = msg then some () else none)
    (fun c => if_neg (by rintro rfl; cases hsource)) hsound hstep hc hserves hdisturbs
  have hin : () ∈ (taking c l ++ w'.underway t.me).filterMap
      (fun m => if m = msg then some () else none) := by
    rw [hstays, List.mem_filterMap]
    exact ⟨msg, List.mem_append_left _ hmem, if_pos rfl⟩
  have ⟨m, hm, heq⟩ := List.mem_filterMap.mp hin
  simp only [Option.ite_none_right_eq_some, and_true] at heq
  subst heq
  exact List.mem_append.mp hm

theorem Reaching.step {l : Label} {t : ConnTask} (h : Reaching env x msg t0 w t)
    (hsound : Sound env w) (hstep : w.step env l = some w') (hc : w.conns c = some t)
    (hsource : msg.source? = some x) (hserves : w.serves c = true)
    (hdisturbs : w.disturbs env c l = false) (hpaired : w.paired t.me.deviceId x = true)
    (hthrottled : w.throttled c x l = false)
    : ∃ t', w'.conns c = some t' ∧ t'.me = t.me ∧ Reaching env x msg t0 w' t' := by
  have ⟨t', hc', hme⟩ := step_conn hstep hc
  refine ⟨t', hc', hme, ?_⟩
  have htask := step_task hstep c
  rw [hc'] at htask
  generalize hu : some t' = u at htask
  cases htask with
  | same hl =>
    rw [hc] at hu
    cases hu
    cases h with
    | underway htrace hmem =>
      refine .underway htrace ?_
      refine (stays_underway hsound hstep hc hsource hserves hdisturbs hmem).resolve_left ?_
      simp [taking_of_conn? hl]
    | inHand hstage hyields => exact .inHand hstage hyields
    | written hwritten => exact .written hwritten
  | connected hnone =>
    rw [hc] at hnone
    cases hnone
  | @handled e t1 s hc1 hprog hready =>
    rw [hc] at hc1
    cases hc1
    cases hu
    cases h with
    | underway htrace hmem =>
      have hmem := stays_underway hsound hstep hc hsource hserves hdisturbs hmem
      simp only [taking, if_true, Option.mem_toList] at hmem
      cases hmem with
      | inl htaken =>
        -- the frame is taken from the queue
        have he : e = .delivery (.bus msg) := by
          cases e with
          | delivery d =>
            cases d with
            | bus m =>
              cases htaken
              rfl
            | resync => cases htaken
          | _ => cases htaken
        subst he
        exact .inHand rfl (Conn.yields_forward hsource s htrace)
      | inr hmem =>
        refine .underway ?_ ?_
        . rw [ConnTask.handle_trace]
          exact htrace
        . rw [ConnTask.handle_me]
          exact hmem
    | inHand _ hyields =>
      rw [hprog] at hyields
      refine .written ?_
      rw [ConnTask.handle_trace]
      exact hyields
    | written hwritten =>
      refine .written ?_
      rw [ConnTask.handle_trace]
      exact hwritten
  | @resumed f t1 s o k w1 r hc1 hprog hperf =>
    rw [hc] at hc1
    cases hc1
    cases hu
    cases h with
    | underway htrace hmem =>
      refine .underway ?_ ?_
      . rw [ConnTask.resume_trace]
        exact htrace.trans (List.suffix_cons _ _)
      . rw [ConnTask.resume_me]
        refine (stays_underway hsound hstep hc hsource hserves hdisturbs hmem).resolve_left ?_
        simp [taking]
    | inHand hstage hyields =>
      rw [hprog] at hyields
      have hyields := hyields r
        (helpful_of_perform hc hprog hperf hstage hsource hdisturbs hpaired hthrottled)
      cases hk : k r with
      | done s' n =>
        refine .written ?_
        rw [ConnTask.resume_trace]
        rw [hk] at hyields
        exact hyields
      | wait s' o' k' =>
        have hresume : t.resume s o k r
            = { t with prog := k r, trace := ⟨s, o, r⟩ :: t.trace } := by
          unfold ConnTask.resume ConnTask.settle
          rw [hk]
        rw [hresume]
        exact .inHand hstage hyields
    | written hwritten =>
      refine .written ?_
      rw [ConnTask.resume_trace]
      exact hwritten.cons _

/--
A connection that serves its device has opened.
-/
theorem opened_of_serves {t : ConnTask} (hsound : Sound env w) (hc : w.conns c = some t)
    (h : w.serves c = true) : Opened t.me t.trace := by
  have ⟨halive, hstage, _⟩ := serves_eq_true hc h
  have ⟨mark, hat⟩ := hsound.tasks c t hc
  cases hopening : t.stage with
  | opening =>
    have hidle := hstage.resolve_left fun hne => hne hopening
    have ⟨s, hprog⟩ := serve_of_idle hsound hc halive hidle
    exact (hat.post hprog).2.1
  | handling e => exact hat.stageOk.opened e hopening
  | finishing e => simp [ConnTask.alive, hopening] at halive

/--
What is published for the device of a connection that serves it is under way to the connection.
-/
theorem underway_of_published {l : Label} {t : ConnTask} (h : TakeoverOk env w)
    (hstep : w.step env l = some w') (hlose : ∀ i keep, l ≠ .lose i keep)
    (hc : w.conns c = some t) (hserves : w.serves c = true)
    (hpub : w.published l = some (t.me.deviceId, msg)) : msg ∈ w'.underway t.me := by
  have ⟨_, _, hcur⟩ := serves_eq_true hc hserves
  have hsub := h.subscriptions.served c t hc (opened_of_serves h.sound hc hserves).subscribed hcur
  have hchannel := (h.subscriptions.inst t.me.inst).channels _ hsub
  have hcoming := step_coming hstep (hlose t.me.inst) t.me.deviceId
  rw [publishedFor_of_some hpub, if_pos ⟨hchannel, rfl⟩] at hcoming
  have hpassing : w.passing t.me.inst t.me.deviceId l = [] := by
    cases l with
    | busMessage i => cases hpub
    | _ => rfl
  rw [hpassing, List.nil_append] at hcoming
  unfold underway
  rw [hcoming]
  simp

theorem reaching_run {ls : List Label} {t : ConnTask} (h : Reaching env x msg t0 w t)
    (hsound : Sound env w) (hc : w.conns c = some t) (hsource : msg.source? = some x)
    (hls : Lts.Meets (World.step env) (fun w l => w.serves c = true
      ∧ w.disturbs env c l = false ∧ w.paired t.me.deviceId x = true
      ∧ w.throttled c x l = false) w ls)
    (hrun : run env w ls = some w')
    : ∃ t', w'.conns c = some t' ∧ Reaching env x msg t0 w' t' := by
  have hinv := Lts.run_invariant
    (P := fun w => Sound env w
      ∧ ∃ t', w.conns c = some t' ∧ t'.me = t.me ∧ Reaching env x msg t0 w t')
    (fun w l w' ⟨hsound, t1, hc1, hme, hreaching⟩ ⟨hserves, hdisturbs, hpaired, hthrottled⟩
        hstep => by
      have ⟨t2, hc2, hme2, hreaching2⟩ := hreaching.step hsound hstep hc1 hsource hserves hdisturbs
        (hme ▸ hpaired) hthrottled
      exact ⟨hsound.step hstep, t2, hc2, hme2.trans hme, hreaching2⟩)
    ⟨hsound, t, hc, rfl, h⟩ hls hrun
  have ⟨_, t', hc', _, hreaching⟩ := hinv
  exact ⟨t', hc', hreaching⟩

end World

/--
An accepted frame is written. In any run in which no pub/sub connection is lost, a connection of
`x` publishes a frame for a device that `x` is paired with. A connection serves that device then and
until the end, and nothing that concerns it fails meanwhile. If the connection, when it has a frame
of `x` and does not know `x`, was not made to look for an unknown device within the last second,
then it has written the frame by the time when nothing is under way to it.
-/
theorem accepted_frame_is_written {env : Env} {db : Db} {ls ls' : List Label} {w w1 w2 : World}
    {cx c : Uuid} {tx t t1 t2 : ConnTask} {s : Conn} {msg : BusMessage}
    {k : Option Nat → Prog Conn Op Op.Res Next}
    (hrun : run env (World.init db) ls = some w) (hlose : ∀ i keep, .lose i keep ∉ ls)
    (hx : w.conns cx = some tx) (hprog : tx.prog = .wait s (.publish t.me.deviceId msg) k)
    (hsource : msg.source? = some tx.me.deviceId) (hc : w.conns c = some t)
    (hstep : w.step env (.exec cx .ok) = some w1) (hrun' : run env w1 ls' = some w2)
    (hls : Lts.Meets (World.step env) (fun w l => w.serves c = true
      ∧ w.disturbs env c l = false ∧ w.paired t.me.deviceId tx.me.deviceId = true
      ∧ w.throttled c tx.me.deviceId l = false) w (.exec cx .ok :: ls'))
    (hc1 : w1.conns c = some t1) (hc2 : w2.conns c = some t2) (hserving : t2.serving)
    (hdone : w2.underway t2.me = [])
    : ∃ u, t2.trace = u ++ t1.trace ∧ msg.WrittenIn u := by
  have h := World.takeoverOk_run hrun hlose
  obtain ⟨t1', hc1', hme⟩ := World.step_conn hstep hc
  rw [hc1] at hc1'
  cases hc1'
  have hpub : w.published (.exec cx .ok) = some (t.me.deviceId, msg) := by
    simp [World.published, hx, hprog]
  have hunderway := World.underway_of_published h hstep (by simp) hc hls.1.1 hpub
  have hreaching : World.Reaching env tx.me.deviceId msg t1.trace w1 t1 :=
    .underway List.suffix_rfl (by rwa [hme])
  obtain ⟨t2', hc2', hreaching⟩ := World.reaching_run hreaching (h.sound.step hstep) hc1 hsource
    (by rw [hme]; exact hls.2 w1 hstep) hrun'
  rw [hc2] at hc2'
  cases hc2'
  cases hreaching with
  | underway _ hmem =>
    rw [hdone] at hmem
    cases hmem
  | inHand _ hyields =>
    obtain ⟨s2, hprog2⟩ := ConnTask.serving_iff.mp hserving
    rw [hprog2] at hyields
    exact hyields
  | written hwritten => exact hwritten

namespace Sample

/--
The two devices are registered, and not paired yet.
-/
def registeredDb : Db :=
  (Lts.run (Request.step .sample) .empty
    [(0, registerDevice 1 "android"), (0, registerDevice 2 "ios")]).getD .empty

def unpairedOpen : List Label :=
  opens "a" (uuid 1) (device 1) ++ replaced "a" (uuid 1) (uuid 1)
    ++ opens "b" (uuid 2) (device 2) ++ replaced "b" (uuid 2) (uuid 2)

/--
The second device sends a frame to a device that it is not paired with.
-/
def straysOff : List Label :=
  [Label.event (uuid 2) (.client (.binary
    (hrMagic ++ [hrVersion, hrOpForward] ++ (device 3).toList ++ [1, 2, 3])))] ++ execs 4 (uuid 2)

/--
The pair is registered. Before its members are told, the first one sends a frame to the second one,
and its connection is about to publish it.
-/
def pairsAndSends : List Label :=
  [Label.http registerPair, .event (uuid 1) (.client (.binary chatFrame))] ++ execs 4 (uuid 1)

def chatMessage : BusMessage :=
  .forwardBinary (device 1) (rewriteHr chatFrame (device 1))

/--
After the frame was published, the connection of the second device takes it and does `n` operations
for it. Then both devices are told of the pair.
-/
def takesFrame (n : Nat) : List Label :=
  [Label.exec (uuid 1) .ok, .busMessage "b", .event (uuid 2) (.delivery (.bus chatMessage))]
    ++ execs n (uuid 2) ++ [Label.job 0 .ok, .job 0 .ok, .busMessage "a",
      .event (uuid 1) (.delivery (.bus .pairsChanged))] ++ execs 2 (uuid 1)
    ++ [Label.busMessage "b", .event (uuid 2) (.delivery (.bus .pairsChanged))]

end Sample

theorem frame_is_written_before_the_pair_is_announced
    : ∃ w w1 w2 tx t t1 t2, run Sample.relay (World.init Sample.registeredDb)
          (Sample.unpairedOpen ++ Sample.pairsAndSends) = some w
      ∧ w.conns (Sample.uuid 1) = some tx ∧ w.conns (Sample.uuid 2) = some t
      ∧ t.me.deviceId = Sample.device 2
      ∧ tx.next? = some (.publish (Sample.device 2) Sample.chatMessage)
      ∧ w.step Sample.relay (.exec (Sample.uuid 1) .ok) = some w1
      ∧ run Sample.relay w1 (Sample.takesFrame 4 ++ Sample.execs 2 (Sample.uuid 2)) = some w2
      ∧ w1.conns (Sample.uuid 2) = some t1 ∧ w2.conns (Sample.uuid 2) = some t2
      ∧ ∃ u, t2.trace = u ++ t1.trace ∧ Sample.chatMessage.WrittenIn u := by
  have hlose : ∀ i keep, .lose i keep ∉ Sample.unpairedOpen ++ Sample.pairsAndSends := by
    simp [Sample.unpairedOpen, Sample.opens, Sample.replaced, Sample.pairsAndSends, Sample.execs]
  have hrun : (run Sample.relay (World.init Sample.registeredDb)
        (Sample.unpairedOpen ++ Sample.pairsAndSends)).any (fun w =>
      (w.conns (Sample.uuid 1)).any (fun tx => (w.conns (Sample.uuid 2)).any (fun t =>
        decide (t.me.deviceId = Sample.device 2)
          && decide (tx.next? = some (.publish (Sample.device 2) Sample.chatMessage))
          && decide (Sample.chatMessage.source? = some tx.me.deviceId)
          && decide (Lts.Meets (World.step Sample.relay) (fun w l =>
            w.serves (Sample.uuid 2) = true
              ∧ w.disturbs Sample.relay (Sample.uuid 2) l = false
              ∧ w.paired t.me.deviceId tx.me.deviceId = true
              ∧ w.throttled (Sample.uuid 2) tx.me.deviceId l = false) w
            (.exec (Sample.uuid 1) .ok :: (Sample.takesFrame 4
              ++ Sample.execs 2 (Sample.uuid 2))))
          && (w.step Sample.relay (.exec (Sample.uuid 1) .ok)).any (fun w1 =>
            (w1.conns (Sample.uuid 2)).any (fun _ =>
              (run Sample.relay w1
                  (Sample.takesFrame 4 ++ Sample.execs 2 (Sample.uuid 2))).any (fun w2 =>
                (w2.conns (Sample.uuid 2)).any (fun t2 => t2.serving
                  && decide (w2.underway t2.me = [])))))))) = true := by
    decide +kernel
  simp only [Option.any_eq_true, Bool.and_eq_true, decide_eq_true_eq] at hrun
  obtain ⟨w, hw, tx, hx, t, ht, ⟨⟨⟨hd, hnext⟩, hsource⟩, hmeets⟩, w1, hw1, t1, ht1, w2, hw2, t2, ht2,
    hserving, hdone⟩ := hrun
  obtain ⟨s, k, hprog⟩ := ConnTask.next?_eq_some.mp hnext
  rw [← hd] at hprog
  exact ⟨w, w1, w2, tx, t, t1, t2, hw, hx, ht, hd, hnext, hw1, hw2, ht1, ht2,
    accepted_frame_is_written hw hlose hx hprog hsource ht hw1 hw2 hmeets ht1 ht2 hserving hdone⟩

/--
An accepted frame is dropped. The receiver's connection serves it from before the frame is
published until nothing is left to be done, nothing fails, and the pair is in the database since
before the frame was accepted. The sender's connection publishes the frame and learns that one
instance received it. But as the receiver was just looking for another device, its connection does
not look for the sender, and never writes the frame.
-/
theorem accepted_frame_is_dropped
    : (run Sample.relay (World.init Sample.registeredDb)
          (Sample.unpairedOpen ++ Sample.straysOff ++ Sample.pairsAndSends)).any (fun w =>
        decide (Lts.Meets (World.step Sample.relay) (fun w l =>
            w.serves (Sample.uuid 2) = true
              ∧ w.disturbs Sample.relay (Sample.uuid 2) l = false
              ∧ w.paired (Sample.device 2) (Sample.device 1) = true) w
            (.exec (Sample.uuid 1) .ok :: (Sample.takesFrame 2 ++ Sample.execs 4 (Sample.uuid 2))))
          && (run Sample.relay w (.exec (Sample.uuid 1) .ok
              :: (Sample.takesFrame 2 ++ Sample.execs 4 (Sample.uuid 2)))).any (fun w2 =>
            decide (w2.Quiescent Sample.relay)
              && (w2.conns (Sample.uuid 1)).any (fun tx => tx.serving
                && decide (tx.me.deviceId = Sample.device 1)
                && tx.trace.any (fun
                  | ⟨_, .publish dest msg, r⟩ => dest = Sample.device 2
                    && msg = Sample.chatMessage && r = some 1
                  | _ => false))
              && (w2.conns (Sample.uuid 2)).any (fun t2 => t2.serving
                && decide (t2.me.deviceId = Sample.device 2)
                && decide (frames t2.trace = [])))) = true := by
  decide +kernel

end HandLiveRelay
