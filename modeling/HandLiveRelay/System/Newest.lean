import HandLiveRelay.System.Takeover

/-!
This module contains what becomes of the newest connection of a device while nothing happens but
connections of this device opening. Nothing can end it but a message of an older connection that
reaches it, and such a message can reach it: an instance hands every message to whichever
connection it has registered when the message arrives.
-/

namespace HandLiveRelay

open Fiber

/--
Connections of the device `d` open and handle what the hub gives them, without any failure.
-/
def Label.onlyOpens (d : Uuid) : Label → Bool
  | .connect _ _ d' => d' = d
  | .exec _ f => f = .ok
  | .event _ (.delivery _) => true
  | .busRequest _ f => f = .ok
  | .busUnsubscribe _ f => f = .ok
  | .busMessage _ => true
  | _ => false

/--
The instance that takes a message from its stream.
-/
def Label.messageOf? : Label → Option InstanceId
  | .busMessage i => some i
  | _ => none

/--
The newer connection that a message speaks of.
-/
def BusMessage.newer? : BusMessage → Option Uuid
  | .replace c => some c
  | _ => none

/--
The message of a connection `c` is handed to a connection that was registered no later than `c`.
-/
def World.InOrder (w : World) (l : Label) : Prop :=
  ∀ i ∈ l.messageOf?, ∀ p ∈ (w.insts i).stream.head?, ∀ d ∈ channelDevice p.channel,
    ∀ c ∈ (BusMessage.decode p.payload).bind BusMessage.newer?, ∀ c' ∈ (w.insts i).current d,
      c' ∈ w.connects.dropWhile (· ≠ c)

instance (w : World) (l : Label) : Decidable (w.InOrder l) :=
  inferInstanceAs (Decidable (∀ i ∈ l.messageOf?, ∀ p ∈ (w.insts i).stream.head?,
    ∀ d ∈ channelDevice p.channel, ∀ c ∈ (BusMessage.decode p.payload).bind BusMessage.newer?,
      ∀ c' ∈ (w.insts i).current d, c' ∈ w.connects.dropWhile (· ≠ c)))

/--
The message does not end the connection `c`.
-/
def Delivery.harmless (c : Uuid) : Delivery → Bool
  | .bus (.replace c') => c' = c
  | .bus (.close _) => false
  | .bus _ => true
  | .resync => false

namespace World

variable {env : Env} {w w' : World}

/--
An operation that is carried out without a fault does not fail.
-/
theorem not_failed_of_ok {me : Ident} {s : Conn} {o : Op} {w1 : World} {r : o.Res}
    (h : w.perform env me o .ok = some (w1, r)) (ha : w.answers me.connId ≠ some false)
    (ho : o ≠ .refresh) : ¬ Failed ⟨s, o, r⟩ := by
  cases o with
  | subscribed =>
    have ⟨b, hb, heq⟩ := Option.map_eq_some_iff.mp h
    cases heq
    rintro rfl
    exact ha hb
  | claim =>
    cases h
    exact nofun
  | publish dest msg =>
    cases h
    exact nofun
  | activePeers =>
    cases h
    exact nofun
  | refresh => exact absurd rfl ho
  | sendText text =>
    cases h
    exact fun hf => hf rfl
  | sendBinary frame =>
    cases h
    exact fun hf => hf rfl
  | _ => exact id

/--
The newest connection is served and nothing on its way ends it.
-/
structure Safe (w : World) (c : Uuid) (t : ConnTask) : Prop where
  alive : t.alive
  handling : ∀ e, t.stage = .handling e → ∃ d, e = .delivery d ∧ d.harmless c
  queue : ∀ d ∈ (w.boxes c).queue, d.harmless c

/--
The invariant of runs in which connections only open.
-/
structure NewestOk (env : Env) (w : World) : Prop where
  sound : Sound env w
  answers : ∀ c, w.answers c ≠ some false
  jobs : w.jobs = []
  messages : InFlight (fun _ msg => ∀ code, msg ≠ .close code) w
  told : ∀ c t s p k, w.conns c = some t → t.prog = .wait s (.tellPrevious p) k
    → w.connects.head? ≠ some p
  newest : ∀ c ∈ w.connects.head?, ∃ t, w.conns c = some t ∧ Safe w c t

theorem newestOk_init (env : Env) (db : Db) : NewestOk env (init db) where
  sound := sound_init env db
  answers c := nofun
  jobs := rfl
  messages := inFlight_init _ db
  told c t s p k hc := by cases hc
  newest c hc := by cases hc

theorem ne_refresh_of_opening {me : Ident} {s : Conn} {t : ConnTrace} {o : Op}
    (h : Permits me .opening s t o) : o ≠ .refresh := by
  cases h <;> simp

theorem ne_refresh_of_bus {me : Ident} {msg : BusMessage} {s : Conn} {t : ConnTrace} {o : Op}
    (h : Permits me (.handling (.delivery (.bus msg))) s t o) : o ≠ .refresh := by
  rintro rfl
  cases h with
  | refresh he => simp at he

/--
A harmless message ends the connection only if the last operation failed.
-/
theorem lastFailed_of_mayEnd {me : Ident} {t : ConnTrace} {d : Delivery}
    (hd : d.harmless me.connId) (h : MayEnd me t (.delivery d)) : ∃ p t', t = p :: t' ∧ Failed p := by
  cases d with
  | resync => cases hd
  | bus msg =>
    cases msg with
    | replace c =>
      simp only [Delivery.harmless, decide_eq_true_eq] at hd
      exact absurd hd h
    | close code => cases hd
    | _ => exact h

/--
Without a fault the newest connection goes on.
-/
theorem Safe.resume_stage {c : Uuid} {t : ConnTask} (h : Safe w c t) (hok : t.Ok env)
    (hid : t.me.connId = c) (ha : w.answers c ≠ some false) {s : Conn} {o : Op}
    {k : o.Res → Prog Conn Op Op.Res Next} (hprog : t.prog = .wait s o k) {w1 : World} {r : o.Res}
    (hperf : w.perform env t.me o .ok = some (w1, r)) : (t.resume s o k r).stage = t.stage := by
  have ⟨mark, hat⟩ := hok
  have hp := (hat.obeys hprog).2
  have hsat := hat.sat
  rw [hprog] at hsat
  have hcont := hsat.2 r
  unfold ConnTask.resume ConnTask.settle
  dsimp only
  split
  next s1 e hdone =>
    exfalso
    rw [hdone] at hcont
    have ⟨_, hopening, hhandling, hfinishing⟩ := hcont
    -- the operation that was just carried out is the last one, and did not fail
    have hlast : o ≠ .refresh → ¬ ∃ p t', ⟨s, o, r⟩ :: t.trace = p :: t' ∧ Failed p := by
      rintro ho ⟨p, t', heq, hfailed⟩
      cases heq
      exact not_failed_of_ok hperf (hid ▸ ha) ho hfailed
    cases hstage : t.stage with
    | opening =>
      have ⟨p, t', heq, hfailed, _⟩ := hopening hstage
      rw [hstage] at hp
      exact hlast (ne_refresh_of_opening hp) ⟨p, t', heq, hfailed⟩
    | handling e' =>
      have ⟨d, hd, hharmless⟩ := h.handling e' hstage
      subst hd
      have hmay := lastFailed_of_mayEnd (hid ▸ hharmless) (hhandling _ hstage)
      cases d with
      | resync => cases hharmless
      | bus msg =>
        rw [hstage] at hp
        exact hlast (ne_refresh_of_bus hp) hmay
    | finishing e' => exact hfinishing e' hstage
  . rfl

theorem new_stage (me : Ident) (previous : Option Uuid)
    : (ConnTask.new me previous).stage = .opening := by
  cases previous <;> rfl

/--
No message that was put into the queue of the newest connection ends it.
-/
theorem harmless_of_step {l : Label} {c d0 : Uuid} {rest : List Uuid} (h : NewestOk env w)
    (hl : l.onlyOpens d0) (horder : w.InOrder l) (hstep : w.step env l = some w')
    (hconnects : w.connects = c :: rest) (hqueue : ∀ d ∈ (w.boxes c).queue, d.harmless c)
    : ∀ d ∈ (w'.boxes c).queue, d.harmless c := by
  have hq := step_queue hstep c
  generalize (w'.boxes c).queue = queue at hq ⊢
  cases hq with
  | same => exact hqueue
  | fresh => exact nofun
  | @taken d0 rest0 hold =>
    intro d hd
    exact hqueue d (hold ▸ List.mem_cons_of_mem d0 hd)
  | told hc hprog => exact absurd (by rw [hconnects]; rfl) (h.told _ _ _ _ _ hc hprog)
  | @dispatched i p rest0 d1 msg hstream hd1 hmsg hcur =>
    intro d hd
    cases List.mem_append.mp hd with
    | inl hd => exact hqueue d hd
    | inr hd =>
      rw [List.mem_singleton] at hd
      subst hd
      have hclose := h.messages.head hstream hd1 hmsg
      cases msg with
      | close code => exact absurd rfl (hclose code)
      | replace c1 =>
        have hmem := horder i rfl p (by rw [hstream]; rfl) d1 hd1 c1 (by rw [hmsg]; rfl) c hcur
        rw [hconnects, List.dropWhile_cons] at hmem
        simp only [Delivery.harmless, decide_eq_true_eq]
        by_contra hne
        have hnodup := h.sound.wellFormed.nodup
        rw [hconnects, List.nodup_cons] at hnodup
        simp only [ne_eq, Ne.symm hne, not_false_eq_true, decide_true, if_true] at hmem
        exact hnodup.1 ((List.dropWhile_sublist _).subset hmem)
      | _ => rfl
  | resync => cases hl

theorem answers_onlyOpens {l : Label} {d : Uuid} (hl : l.onlyOpens d)
    (hstep : w.step env l = some w') (h : ∀ c, w.answers c ≠ some false) (c : Uuid)
    : w'.answers c ≠ some false := by
  have hanswer : ∀ c', Function.update w.answers c' (some true) c ≠ some false := by
    intro c'
    rw [Function.update_apply]
    split
    . simp
    . exact h c
  cases hbus : l.ofBus with
  | false =>
    rw [(step_sameSubs hbus hstep).answers]
    exact h c
  | true =>
    cases l <;> try contradiction
    case busRequest i f =>
      have ⟨_, hreq⟩ := busRequest_eq_some hstep
      simp only [Label.onlyOpens, decide_eq_true_eq] at hl
      subst hl
      cases hreq with
      | known _ _ => exact hanswer _
      | subscribed _ => exact hanswer _
      | unsubscribe _ _ => exact h c
      | ignored _ => exact h c
    case busUnsubscribe i f =>
      unfold step busUnsubscribe at hstep
      dsimp only at hstep
      split at hstep
      . cases hstep
        exact h c
      . cases hstep
    case busMessage i =>
      rw [(busMessage_sameSubs hstep).answers]
      exact h c

theorem jobs_onlyOpens {l : Label} {d : Uuid} (hl : l.onlyOpens d)
    (hstep : w.step env l = some w') : w'.jobs = w.jobs := by
  cases step_view hstep with
  | connect _ _ hw' =>
    rw [hw']
    rfl
  | exec _ _ hperf hw' =>
    rw [hw']
    exact (perform_sameFrame hperf).jobs
  | event _ _ _ hw' =>
    rw [hw']
    rfl
  | bus _ hframe => exact hframe.jobs
  | job _ _ => cases hl
  | store hstore _ =>
    cases l <;> contradiction

/--
Whoever is told of a newer connection is not the newest one.
-/
theorem told_of_step {l : Label} (h : NewestOk env w) (hstep : w.step env l = some w') {c : Uuid}
    {t : ConnTask} {s : Conn} {p : Uuid} {k : Unit → Prog Conn Op Op.Res Next}
    (hc : w'.conns c = some t) (hprog : t.prog = .wait s (.tellPrevious p) k)
    : w'.connects.head? ≠ some p := by
  have hsound' := h.sound.step hstep
  have ⟨hstage, htrace⟩ := tellPrevious_of_ok (hsound'.tasks c t hc) hprog
  have hwf := h.sound.wellFormed
  -- the one that is told was registered before this step
  have hex : w.conns p ≠ none ∧ (∀ t0, w.conns c = some t0 → t = t0) := by
    have htask := step_task hstep c
    rw [hc] at htask
    generalize hu : some t = u at htask
    cases htask with
    | same _ =>
      have ⟨_, t1, ht1, _⟩ := hwf.told c t s p k hu.symm hprog
      dsimp only at ht1
      refine ⟨by simp [ht1], ?_⟩
      intro t0 ht0
      exact Option.some.inj (hu.trans ht0)
    | @connected i d hnone =>
      cases hu
      have ⟨t1, ht1, _⟩ := hwf.current i d p (new_tellPrevious hprog)
      dsimp only at ht1
      refine ⟨by simp [ht1], ?_⟩
      intro t0 ht0
      rw [hnone] at ht0
      cases ht0
    | resumed _ _ _ =>
      cases hu
      rw [ConnTask.resume_trace] at htrace
      cases htrace
    | handled _ _ _ =>
      cases hu
      exact absurd hstage (handle_stage_ne_opening _ _ _ _)
  cases step_connects hstep with
  | inr hconnect =>
    have ⟨i, c1, d, hl, heq⟩ := hconnect
    subst hl
    have ⟨_, hnone, _⟩ := connect_eq_some.mp hstep
    rw [heq]
    rintro ⟨rfl⟩
    exact hex.1 hnone
  | inl hsame =>
    rw [hsame.1]
    cases hold : w.conns c with
    | some t0 =>
      have := hex.2 t0 hold
      subst this
      exact h.told c t s p k hold hprog
    | none =>
      have ⟨i, d, hl⟩ := ((isSome_conns_step hstep c).mp (by rw [hc]; rfl)).resolve_left (by simp [hold])
      exact absurd hl (hsame.2 i c d)

theorem NewestOk.step {l : Label} {d0 : Uuid} (h : NewestOk env w) (hl : l.onlyOpens d0)
    (horder : w.InOrder l) (hstep : w.step env l = some w') : NewestOk env w' where
  sound := h.sound.step hstep
  answers := answers_onlyOpens hl hstep h.answers
  jobs := (jobs_onlyOpens hl hstep).trans h.jobs
  messages := by
    apply h.messages.step h.sound.wellFormed hstep
    . rintro _ _ code ⟨⟩
    . intro dest msg hpub
      cases hpub.cases h.sound.tasks with
      | inl hconn =>
        obtain ⟨c, f, t, s, k, _, _, _, hsends⟩ := hconn
        cases hsends with
        | forward hforward _ =>
          rintro code rfl
          cases hforward
        | _ => rintro code ⟨⟩
      | inr htodo =>
        obtain ⟨actions, hmem, _⟩ := htodo
        rw [h.jobs] at hmem
        cases hmem
  told c t s p k hc hprog := told_of_step h hstep hc hprog
  newest c hc := by
    cases step_connects hstep with
    | inr hconnect =>
      obtain ⟨i, c1, d, hlabel, heq⟩ := hconnect
      subst hlabel
      rw [heq] at hc
      cases hc
      obtain ⟨_, _, hw'⟩ := connect_eq_some.mp hstep
      subst hw'
      refine ⟨_, setConn_self _ _ _, ?_, ?_, ?_⟩
      . simp [ConnTask.alive, new_stage]
      . simp [new_stage]
      . change ∀ d ∈ ((World.modifyBox _ c fun _ => .new).boxes c).queue, _
        rw [modifyBox_self]
        simp [Mailbox.new]
    | inl hsame =>
      rw [hsame.1] at hc
      obtain ⟨t, ht, hsafe⟩ := h.newest c hc
      obtain ⟨rest, hconnects⟩ : ∃ rest, w.connects = c :: rest :=
        ⟨_, List.eq_cons_of_mem_head? hc⟩
      have hqueue := harmless_of_step h hl horder hstep hconnects hsafe.queue
      have htask := step_task hstep c
      generalize hu : w'.conns c = u at htask
      cases htask with
      | same _ => exact ⟨t, ht, hsafe.alive, hsafe.handling, hqueue⟩
      | connected hnone =>
        rw [ht] at hnone
        cases hnone
      | @resumed f t1 s o k w1 r ht1 hprog hperf =>
        rw [ht] at ht1
        cases ht1
        simp only [Label.onlyOpens, decide_eq_true_eq] at hl
        subst hl
        have hstage := hsafe.resume_stage (h.sound.tasks c t ht)
          (h.sound.wellFormed.ident c t ht) (h.answers c) hprog hperf
        refine ⟨_, rfl, ?_, ?_, hqueue⟩
        . unfold ConnTask.alive
          rw [hstage]
          exact hsafe.alive
        . rw [hstage]
          exact hsafe.handling
      | @handled e t1 s ht1 hprog hready =>
        rw [ht] at ht1
        cases ht1
        cases e with
        | delivery d =>
          have hd : d.harmless c := by
            apply hsafe.queue
            simp only [ready, Bool.and_eq_true, decide_eq_true_eq] at hready
            exact List.mem_of_mem_head? hready.2
          cases d with
          | resync => cases hd
          | bus msg =>
            refine ⟨_, rfl, rfl, ?_, hqueue⟩
            rintro e' ⟨rfl⟩
            exact ⟨.bus msg, rfl, hd⟩
        | _ => cases hl

theorem newestOk_run {db : Db} {d : Uuid} {ls : List Label} (h : run env (init db) ls = some w)
    (hls : ∀ l ∈ ls, l.onlyOpens d) (horder : Lts.Meets (World.step env) InOrder (init db) ls)
    : NewestOk env w := by
  have hboth : Lts.Meets (World.step env) (fun w l => l.onlyOpens d ∧ w.InOrder l) (init db) ls :=
    (Lts.meets_of_forall hls).and horder
  exact Lts.run_invariant (fun _ _ _ hok hl hstep => NewestOk.step hok hl.1 hl.2 hstep)
    (newestOk_init env db) hboth h

end World

/--
The newest connection of a device survives. Connections of one device open in any number, on any
instances and in any interleaving, without a failure, without a close of the device and without
other traffic. If every message of a connection is handed to one that was registered no later, then
once nothing is left to be done the connection that was registered last is served.
-/
theorem newest_connection_survives {env : Env} {db : Db} {d : Uuid} {ls : List Label} {w : World}
    (hrun : run env (World.init db) ls = some w) (hopens : ∀ l ∈ ls, l.onlyOpens d)
    (horder : Lts.Meets (World.step env) World.InOrder (World.init db) ls)
    (hq : w.Quiescent env) (hne : w.connects ≠ [])
    : ∃ c t, w.connects.head? = some c ∧ w.conns c = some t ∧ t.serving := by
  have h := World.newestOk_run hrun hopens horder
  have ⟨c, hc⟩ := Option.ne_none_iff_exists'.mp (mt List.head?_eq_none_iff.mp hne)
  have ⟨t, ht, hsafe⟩ := h.newest c hc
  have hrest := hq.conns c (List.mem_of_mem_head? hc) t ht
  have hidle : t.idle := by
    unfold ConnTask.atRest at hrest
    cases hstage : t.stage with
    | opening => simpa [hstage] using hrest
    | handling e =>
      have ⟨x, hx, _⟩ := hsafe.handling e hstage
      subst hx
      simpa [hstage, Event.ofHub] using hrest
    | finishing e => simpa [ConnTask.alive, hstage] using hsafe.alive
  have hserve := World.serve_of_idle h.sound ht hsafe.alive hidle
  exact ⟨c, t, hc, ht, ConnTask.serving_iff.mpr hserve⟩

theorem newest_connection_survives_a_move
    : ∃ w c t, run Sample.relay (World.init .empty) Sample.moves = some w
      ∧ (∀ l ∈ Sample.moves, l.onlyOpens (Sample.uuid 9))
      ∧ Lts.Meets (World.step Sample.relay) World.InOrder (World.init .empty) Sample.moves
      ∧ w.Quiescent Sample.relay ∧ w.connects = [Sample.uuid 2, Sample.uuid 1]
      ∧ w.connects.head? = some c ∧ w.conns c = some t ∧ t.serving := by
  have hrun : (run Sample.relay (World.init .empty) Sample.moves).any (fun w =>
      decide (w.Quiescent Sample.relay)
        && decide (w.connects = [Sample.uuid 2, Sample.uuid 1])) = true := by
    decide +kernel
  simp only [Option.any_eq_true, Bool.and_eq_true, decide_eq_true_eq] at hrun
  have ⟨w, hw, hq, hconnects⟩ := hrun
  have hopens : ∀ l ∈ Sample.moves, l.onlyOpens (Sample.uuid 9) := by decide +kernel
  have horder : Lts.Meets (World.step Sample.relay) World.InOrder (World.init .empty)
      Sample.moves := by
    decide +kernel
  have ⟨c, t, hc⟩ := newest_connection_survives hw hopens horder hq (by simp [hconnects])
  exact ⟨w, c, t, hw, hopens, horder, hq, hconnects, hc⟩

namespace Sample

/--
Two connections of a device open on one instance at the same time. Both are registered before the
older one publishes, so its message is handed to the newer one.
-/
def crossing : List Label :=
  [Label.connect "a" (uuid 1) (uuid 9), .connect "a" (uuid 2) (uuid 9), .exec (uuid 1) .ok,
    .busRequest "a" .ok] ++ execs 3 (uuid 1)
    ++ [Label.exec (uuid 2) .ok, .busMessage "a", .exec (uuid 2) .ok, .busRequest "a" .ok]
    ++ execs 3 (uuid 2) ++ [Label.busMessage "a"] ++ execs 4 (uuid 1) ++ execs 4 (uuid 2)
    ++ [Label.event (uuid 1) (.delivery (.bus (.replace (uuid 2))))] ++ execs 3 (uuid 1)
    ++ [Label.event (uuid 2) (.delivery (.bus (.replace (uuid 1))))] ++ execs 5 (uuid 2)
    ++ [Label.busRequest "a" .ok, .busUnsubscribe "a" .ok]

end Sample

/--
A takeover can leave the device without a connection: each of two connections that open at the same
time closes because of the other.
-/
theorem takeover_leaves_no_connection
    : (∀ l ∈ Sample.crossing, l.onlyOpens (Sample.uuid 9))
      ∧ (run Sample.relay (World.init .empty) Sample.crossing).any (fun w =>
          decide (w.Quiescent Sample.relay)
            && decide (w.connects = [Sample.uuid 2, Sample.uuid 1])
            && w.connects.all fun c => (w.conns c).any fun t =>
              t.ended && decide (t.stage = .finishing (.close closeReplaced))) = true := by
  constructor <;> decide +kernel

end HandLiveRelay
