import HandLiveRelay.System.Acceptance
import HandLiveRelay.System.SteadyPair

/-!
This module contains what one device of a pair is told about the other. The connections of the peer
say that it is there after they have claimed presence, and that it is gone after they have dropped
it, so that the last word tells whether the peer has presence, unless another one is outstanding.
The last message about the peer in a stream is the last word as well, as long as nothing is left in
the stream when the subscription is given up.
-/

namespace HandLiveRelay

open Fiber Wire

theorem BusMessage.presence?_eq_some {pairId peer : Uuid} {msg : BusMessage} {b : Bool}
    : msg.presence? pairId peer = some b ↔ msg = .control (presenceMessage pairId peer b) := by
  cases msg with
  | control text =>
    change presenceOf pairId peer text = some b ↔ _
    rw [presenceOf_eq_some, BusMessage.control.injEq]
  | _ => simp [presence?]

/--
A text that is forwarded says nothing about presence.
-/
theorem not_presence_of_sourced {source pairId peer : Uuid} {b : Bool}
    : ¬ (BusMessage.forwardText source (presenceMessage pairId peer b)).Sourced := by
  intro h
  have hsource := h source
  simp [BusMessage.frame?, BusMessage.frameFrom?] at hsource

namespace World

variable {env : Env} {w w' : World} {pairId x y : Uuid} {l : Label}

/--
When an instance gives up its subscription for `x`, nothing about `y` is left for `x` in its stream.
-/
def drained (pairId x y : Uuid) (w : World) : Label → Bool
  | .busUnsubscribe i _ => (w.insts i).phase ≠ .unsubscribing x
      || (w.coming i x).all fun msg => (msg.presence? pairId y).isNone
  | _ => true

/--
What a step tells `x` about `y`.
-/
def announcement (pairId x y : Uuid) (w : World) (l : Label) : Option Bool :=
  (w.published l).bind fun p => if p.1 = x then p.2.presence? pairId y else none

/--
What the two devices of a steady run rest on.
-/
structure PairOk (env : Env) (pairId x y : Uuid) (w : World) : Prop where
  sourced : SourcedOk env w
  subscriptions : Subscriptions w
  answers : ∀ c b, w.answers c = some b → b = true
  jobs : ∀ d msg, w.Todo (.notify d msg) → msg.presence? pairId y = none
  side : SideOk env pairId x y w
  other : SideOk env pairId y x w

theorem pairOk_init (env : Env) (pairId x y : Uuid) (db : Db)
    : PairOk env pairId x y (init db) where
  sourced := sourcedOk_init env db
  subscriptions := subscriptions_init db
  answers c b hb := by cases hb
  jobs d msg htodo := by
    have ⟨_, hmem, _⟩ := htodo
    cases hmem
  side := sideOk_init env pairId x y db
  other := sideOk_init env pairId y x db

theorem answers_step (h : ∀ c b, w.answers c = some b → b = true)
    (hinst : ∀ i, InstOk (w.insts i)) (hsteady : Steady pairId x y w l)
    (hstep : w.step env l = some w') {c : Uuid} {b : Bool} (hb : w'.answers c = some b)
    : b = true := by
  have hanswer : ∀ c', Function.update w.answers c' (some true) c = some b → b = true := by
    intro c' hb
    by_cases hc' : c = c'
    . subst hc'
      rw [Function.update_self] at hb
      exact (Option.some.inj hb).symm
    . rw [Function.update_of_ne hc'] at hb
      exact h c b hb
  have hsubs := step_subs hinst hsteady.lose hstep
  cases hsubs with
  | same hsame =>
    rw [hsame.answers] at hb
    exact h c b hb
  | request _ hreq =>
    cases hsteady.request _ _ rfl
    cases hreq with
    | known _ _ => exact hanswer _ hb
    | subscribed _ _ _ => exact hanswer _ hb
    | unsubscribe _ _ => exact h c b hb
    | ignored _ _ => exact h c b hb
  | unsubscribed _ _ => exact h c b hb

theorem PairOk.step (h : PairOk env pairId x y w) (hsteady : Steady pairId x y w l)
    (hsteady' : Steady pairId y x w l) (hstep : w.step env l = some w')
    : PairOk env pairId x y w' where
  sourced := h.sourced.step hstep
  subscriptions := h.subscriptions.step h.sourced.sound.wellFormed hsteady.lose hstep
  answers _ _ hb := answers_step h.answers h.subscriptions.inst hsteady hstep hb
  jobs d msg htodo := by
    cases htodo.of_step hstep with
    | inl htodo => exact h.jobs d msg htodo
    | inr hreq =>
      have ⟨req, _, hmem⟩ := hreq
      rcases notify_cases hmem with rfl | ⟨_, rfl⟩ | ⟨_, rfl⟩ <;> rfl
  side := h.side.step h.answers hsteady hstep
  other := h.other.step h.answers hsteady' hstep

/--
Only a connection of `y` says something about `y`.
-/
theorem PairOk.announces (h : PairOk env pairId x y w) {b : Bool}
    (hb : w.announcement pairId x y l = some b)
    : ∃ c f t s k, l = .exec c f ∧ w.conns c = some t ∧ t.me.deviceId = y
      ∧ t.prog = .wait s (.publish x (.control (presenceMessage pairId y b))) k := by
  have ⟨⟨dest, msg⟩, hpub, hmsg⟩ := Option.bind_eq_some_iff.mp hb
  dsimp only at hmsg
  split at hmsg
  next hdest =>
    subst hdest
    rw [BusMessage.presence?_eq_some] at hmsg
    subst hmsg
    cases (publishes_of_published hpub).cases h.sourced.sound.tasks with
    | inr htodo =>
      have hnone := h.jobs _ _ htodo
      rw [BusMessage.presence?_eq_some.mpr rfl] at hnone
      cases hnone
    | inl hconn =>
      have ⟨c, f, t, s, k, hl, hc, hprog, hsends⟩ := hconn
      refine ⟨c, f, t, s, k, hl, hc, ?_, hprog⟩
      generalize hmsg : BusMessage.control (presenceMessage pairId y b) = msg at hsends
      cases hsends with
      | replace => cases hmsg
      | presence =>
        injection hmsg with heq
        exact (presenceMessage_inj heq).2.1.symm
      | rvJoined =>
        injection hmsg with heq
        exact absurd heq (presenceMessage_ne_rvJoinedMessage _ _ _ _ _)
      | rvMsg =>
        injection hmsg with heq
        exact absurd heq (presenceMessage_ne_rvMsgMessage _ _ _ _ _)
      | forward hforward _ =>
        subst hmsg
        cases hforward
  . cases hmsg

theorem announcement_exec {c : Uuid} {t : ConnTask} {s : Conn} {b : Bool}
    {k : Option Nat → Prog Conn Op Op.Res Next} (hc : w.conns c = some t)
    (hprog : t.prog = .wait s (.publish x (.control (presenceMessage pairId y b))) k)
    : w.announcement pairId x y (.exec c .ok) = some b := by
  simp only [announcement, published, hc, hprog]
  simp [BusMessage.presence?, presenceOf_presenceMessage]

/--
What a connection of `y` has told `x` it has told before, or it does in this step.
-/
theorem announced_of_step (hsteady : Steady pairId y x w l) (hstep : w.step env l = some w')
    {c : Uuid} {t t' : ConnTask} (hc : w.conns c = some t) (hc' : w'.conns c = some t')
    (hd : t.me.deviceId = y) {b : Bool} (htold : Announced pairId x y b t'.trace)
    : Announced pairId x y b t.trace ∨ w.announcement pairId x y l = some b := by
  have ⟨r, hr⟩ := htold
  rcases did_of_step hstep hc hc' hr with hold | ⟨f, s, k, w1, rfl, hprog, _, _⟩
  . exact .inl ⟨r, hold⟩
  . cases hsteady.exec c f t s _ k rfl hc hd hprog with
    | inr hsocket => cases hsocket
    | inl hok =>
      subst hok
      exact .inr (announcement_exec hc hprog)

/--
A connection that is about to say that its device is gone has dropped presence, and one that is
about to say that its device is there is opening.
-/
theorem stage_of_announcing {t : ConnTask} (h : t.Ok env) {s : Conn} {dest d : Uuid} {b : Bool}
    {k : Option Nat → Prog Conn Op Op.Res Next}
    (hprog : t.prog = .wait s (.publish dest (.control (presenceMessage pairId d b))) k)
    : if b then t.alive else ∃ r, Did t.trace .release r := by
  have ⟨mark, hat⟩ := h
  have hp := (hat.obeys hprog).2
  rw [ConnTask.alive_iff]
  generalize hmsg : BusMessage.control (presenceMessage pairId d b) = msg at hp
  generalize t.stage = stage at hp ⊢
  cases hp with
  | replace _ _ => cases hmsg
  | comeOnline _ =>
    injection hmsg with heq
    rw [(presenceMessage_inj heq).2.2]
    simp
  | rvJoined =>
    injection hmsg with heq
    exact absurd heq (presenceMessage_ne_rvJoinedMessage _ _ _ _ _)
  | rvMsg =>
    injection hmsg with heq
    exact absurd heq (presenceMessage_ne_rvMsgMessage _ _ _ _ _)
  | forward hforward =>
    subst hmsg
    cases hforward
  | goOffline _ hrel _ =>
    injection hmsg with heq
    rw [(presenceMessage_inj heq).2.2]
    exact ⟨_, hrel⟩

/--
What `x` was told about `y` last, compared with what the connections of `y` have told.
-/
structure ToldOk (pairId x y : Uuid) (m : Option Bool) (w : World) : Prop where
  online : ∀ c t, w.conns c = some t → t.me.deviceId = y → Announced pairId x y true t.trace
    → (∀ r, ¬ Did t.trace .release r) → m = some true
  offline : (∀ c t, w.conns c = some t → t.me.deviceId = y → Announced pairId x y true t.trace
    → Announced pairId x y false t.trace) → m ≠ some true

theorem toldOk_init (pairId x y : Uuid) (db : Db) : ToldOk pairId x y none (init db) where
  online c t hc := by cases hc
  offline _ := by simp

theorem ToldOk.online_step {m : Option Bool} (h : ToldOk pairId x y m w)
    (hok : PairOk env pairId x y w) (hsteady : Steady pairId y x w l)
    (hstep : w.step env l = some w') {c : Uuid} {t' : ConnTask} (hc' : w'.conns c = some t')
    (hd : t'.me.deviceId = y) (htold : Announced pairId x y true t'.trace)
    (hrel : ∀ r, ¬ Did t'.trace .release r)
    : (w.announcement pairId x y l).or m = some true := by
  rcases conn_of_step hstep hc' with ⟨_, _, hnil⟩ | ⟨t, hc, hme, ht⟩
  . rw [hnil] at htold
    have ⟨_, _, hmem⟩ := htold
    cases hmem
  have hrel' : ∀ r, ¬ Did t.trace .release r := fun r hr => hrel r (hr.of_suffix ht)
  rw [← hme] at hd
  cases hb : w.announcement pairId x y l with
  | none =>
    rcases announced_of_step hsteady hstep hc hc' hd htold with hold | hnow
    . exact h.online c t hc hd hold hrel'
    . rw [hb] at hnow
      cases hnow
  | some b =>
    have ⟨c0, f, t0, s, k, _, hc0, hd0, hprog⟩ := hok.announces hb
    have heq := hok.other.eq_of_wait hc0 hd0 hprog hc hd hrel'
    subst heq
    rw [hc] at hc0
    cases hc0
    have hstage := stage_of_announcing (hok.sourced.sound.tasks c t hc) hprog
    cases b with
    | true => rfl
    | false =>
      have ⟨r, hr⟩ := hstage
      exact absurd hr (hrel' r)

theorem ToldOk.offline_step {m : Option Bool} (h : ToldOk pairId x y m w)
    (hok : PairOk env pairId x y w) (hsteady : Steady pairId y x w l)
    (hstep : w.step env l = some w')
    (hall : ∀ c t, w'.conns c = some t → t.me.deviceId = y → Announced pairId x y true t.trace
      → Announced pairId x y false t.trace)
    : (w.announcement pairId x y l).or m ≠ some true := by
  cases hb : w.announcement pairId x y l with
  | none =>
    apply h.offline
    intro c t hc hd htold
    have ⟨t', hc', hme⟩ := step_conn hstep hc
    have hgone := hall c t' hc' (hme ▸ hd) (htold.of_suffix (trace_step hstep hc hc'))
    rcases announced_of_step hsteady hstep hc hc' hd hgone with hold | hnow
    . exact hold
    . rw [hb] at hnow
      cases hnow
  | some b =>
    cases b with
    | false => simp
    | true =>
      have ⟨c, f, t, s, k, hl, hc, hd, hprog⟩ := hok.announces hb
      subst hl
      have ⟨t', hc', hme⟩ := step_conn hstep hc
      have ⟨w1, r, _, heq⟩ := exec_conn hstep hc hprog hc'
      have hok1 := hok.sourced.sound.tasks c t hc
      have ⟨mark, hat⟩ := hok1
      -- it has not said goodbye, since it has not dropped presence
      have hnot : ¬ Announced pairId x y false t.trace := by
        rintro ⟨r, hr⟩
        have hdel := (deleted_of_did_offline hat.permitted hr).2
        exact not_released_of_alive hok1 (stage_of_announcing hok1 hprog) _ hdel
      have hgone := hall c t' hc' (hme ▸ hd) (by
        rw [heq, ConnTask.resume_trace]
        exact ⟨r, did_cons_self _ s _ r⟩)
      rcases announced_of_step hsteady hstep hc hc' hd hgone with hold | hnow
      . exact absurd hold hnot
      . rw [hb] at hnow
        cases hnow

theorem ToldOk.step {m : Option Bool} (h : ToldOk pairId x y m w)
    (hok : PairOk env pairId x y w) (hsteady : Steady pairId y x w l)
    (hstep : w.step env l = some w')
    : ToldOk pairId x y ((w.announcement pairId x y l).or m) w' where
  online _ _ hc hd htold hrel := h.online_step hok hsteady hstep hc hd htold hrel
  offline hall := h.offline_step hok hsteady hstep hall

/--
A connection of `y` has claimed or dropped presence, and has yet to tell `x`.
-/
def Outstanding (pairId x y : Uuid) (w : World) : Prop :=
  ∃ c t, w.conns c = some t ∧ t.me.deviceId = y ∧ Did t.trace .claim (some ())
    ∧ ¬ Announced pairId x y false t.trace
    ∧ ((∃ r, Did t.trace .release r) ∨ ¬ Announced pairId x y true t.trace)

theorem Outstanding.step (h : Outstanding pairId x y w) (hsteady : Steady pairId y x w l)
    (hstep : w.step env l = some w') (hnone : w.announcement pairId x y l = none)
    : Outstanding pairId x y w' := by
  have ⟨c, t, hc, hd, hclaim, hoff, hon⟩ := h
  have ⟨t', hc', hme⟩ := step_conn hstep hc
  have ht := trace_step hstep hc hc'
  have hback : ∀ {b}, Announced pairId x y b t'.trace → Announced pairId x y b t.trace := by
    intro b htold
    rcases announced_of_step hsteady hstep hc hc' hd htold with hold | hnow
    . exact hold
    . rw [hnone] at hnow
      cases hnow
  refine ⟨c, t', hc', hme ▸ hd, hclaim.of_suffix ht, fun htold => hoff (hback htold), ?_⟩
  cases hon with
  | inl hrel =>
    have ⟨r, hr⟩ := hrel
    exact .inl ⟨r, hr.of_suffix ht⟩
  | inr hnot => exact .inr fun htold => hnot (hback htold)

/--
Once `x` was told, the last it was told says whether `y` has presence.
-/
theorem ToldOk.presence_iff {m : Option Bool} (h : ToldOk pairId x y m w)
    (hok : PairOk env pairId x y w) (hnone : ¬ Outstanding pairId x y w)
    : (w.presence y).isSome ↔ m = some true := by
  have htold : ∀ c t, w.conns c = some t → t.me.deviceId = y → Did t.trace .claim (some ())
      → ¬ Announced pairId x y false t.trace
      → (∀ r, ¬ Did t.trace .release r) ∧ Announced pairId x y true t.trace := by
    intro c t hc hd hclaim hoff
    constructor
    . intro r hr
      exact hnone ⟨c, t, hc, hd, hclaim, hoff, .inl ⟨r, hr⟩⟩
    . by_contra hon
      exact hnone ⟨c, t, hc, hd, hclaim, hoff, .inr hon⟩
  constructor
  . intro hsome
    by_contra hm
    have hvacant := hok.other.vacant fun c t hc hd hclaim => by
      by_contra hrel
      have hrel : ∀ r, ¬ Did t.trace .release r := fun r hr => hrel ⟨r, hr⟩
      have ⟨mark, hat⟩ := hok.sourced.sound.tasks c t hc
      have hoff : ¬ Announced pairId x y false t.trace := by
        rintro ⟨r, hr⟩
        exact hrel _ (deleted_of_did_offline hat.permitted hr).2
      exact hm (h.online c t hc hd (htold c t hc hd hclaim hoff).2 hrel)
    rw [hvacant] at hsome
    cases hsome
  . intro hm
    by_contra hkey
    refine h.offline (fun c t hc hd hon => ?_) hm
    by_contra hoff
    have ⟨r, s, hmem⟩ := hon
    have hclaim := hok.other.claimed c t hc hd _ hmem rfl
    have hheld := hok.other.held c t hc hd hclaim (htold c t hc hd hclaim hoff).1
    rw [hheld] at hkey
    exact hkey rfl

end World

/--
What the messages say about `peer`.
-/
def news (pairId peer : Uuid) (msgs : List BusMessage) : List Bool :=
  msgs.filterMap (·.presence? pairId peer)

/--
The last of the news, if there is one, is `m`.
-/
def UpToDate (m : Option Bool) (l : List Bool) : Prop :=
  ∀ b, l.getLast? = some b → m = some b

theorem upToDate_nil (m : Option Bool) : UpToDate m [] := by
  rintro b ⟨⟩

theorem UpToDate.of_append {m added : Option Bool} {taken l l' : List Bool} (h : UpToDate m l)
    (heq : taken ++ l' = l ++ added.toList) : UpToDate (added.or m) l' := by
  intro b hb
  have hlast : (taken ++ l').getLast? = some b := by
    rw [List.getLast?_append, hb, Option.some_or]
  rw [heq, List.getLast?_append] at hlast
  cases added with
  | some b' => exact hlast
  | none => exact h b hlast

namespace World

variable {env : Env} {w w' : World} {pairId x y : Uuid} {l : Label} {m : Option Bool}

theorem news_publishedFor (i : InstanceId) (l : Label)
    : news pairId y (w.publishedFor i x l)
      = if deviceChannel x ∈ (w.insts i).channels then (w.announcement pairId x y l).toList
        else [] := by
  unfold announcement
  cases hpub : w.published l with
  | none =>
    rw [publishedFor_of_none hpub]
    simp [news]
  | some p =>
    obtain ⟨dest, msg⟩ := p
    rw [publishedFor_of_some hpub, Option.bind_some]
    by_cases hsub : deviceChannel x ∈ (w.insts i).channels
    . by_cases hdest : dest = x
      . simp only [hsub, hdest, and_self, if_true]
        unfold news
        rw [List.filterMap_cons, List.filterMap_nil]
        cases msg.presence? pairId y <;> rfl
      . simp [hsub, hdest, news]
    . simp [hsub, news]

theorem news_coming_step (pairId x y : Uuid) (hl : ∀ i keep, l ≠ .lose i keep)
    (hstep : w.step env l = some w') (i : InstanceId)
    : news pairId y (w.passing i x l) ++ news pairId y (w'.coming i x)
      = news pairId y (w.coming i x)
        ++ if deviceChannel x ∈ (w.insts i).channels then (w.announcement pairId x y l).toList
          else [] := by
  have hcoming := step_coming hstep (hl i) x
  rw [← news_publishedFor]
  unfold news
  rw [← List.filterMap_append, ← List.filterMap_append, hcoming]

/--
The news for `x` in the streams of the instances.
-/
structure StreamsOk (pairId x y : Uuid) (m : Option Bool) (w : World) : Prop where
  upToDate : ∀ i, UpToDate m (news pairId y (w.coming i x))
  gone : ∀ i, deviceChannel x ∉ (w.insts i).channels → news pairId y (w.coming i x) = []
  closing : ∀ i c, (w.insts i).phase = .unsubscribing x → (w.insts i).current x = some c
    → ∀ msg, .bus msg ∈ (w.boxes c).queue → msg.presence? pairId y = none

theorem streamsOk_init (pairId x y : Uuid) (m : Option Bool) (db : Db)
    : StreamsOk pairId x y m (init db) where
  upToDate i := upToDate_nil m
  gone i _ := rfl
  closing i c hphase := by cases hphase

theorem drained_eq_true {i : InstanceId} {f : Fault} (hphase : (w.insts i).phase = .unsubscribing x)
    (h : w.drained pairId x y (.busUnsubscribe i f) = true)
    : news pairId y (w.coming i x) = [] := by
  simp only [drained, hphase, ne_eq, not_true_eq_false, decide_false, Bool.false_or,
    List.all_eq_true, Option.isNone_iff_eq_none] at h
  exact List.filterMap_eq_nil_iff.mpr h

theorem StreamsOk.gone_step (h : StreamsOk pairId x y m w) (hok : PairOk env pairId x y w)
    (hsteady : Steady pairId x y w l) (hdrained : w.drained pairId x y l = true)
    (hstep : w.step env l = some w') {i : InstanceId}
    (hnew : deviceChannel x ∉ (w'.insts i).channels) : news pairId y (w'.coming i x) = [] := by
  have hcoming := news_coming_step pairId x y hsteady.lose hstep i
  by_cases hold : deviceChannel x ∈ (w.insts i).channels
  . have hsubs := step_subs hok.subscriptions.inst hsteady.lose hstep
    have ⟨hphase, f, hl⟩ := (hsubs.channel hold).resolve_left hnew
    subst hl
    rw [drained_eq_true hphase hdrained, if_pos hold] at hcoming
    exact (List.append_eq_nil_iff.mp hcoming).2
  . rw [h.gone i hold, if_neg hold] at hcoming
    exact (List.append_eq_nil_iff.mp hcoming).2

theorem StreamsOk.upToDate_step (h : StreamsOk pairId x y m w) (hsteady : Steady pairId x y w l)
    (hstep : w.step env l = some w') (i : InstanceId)
    : UpToDate ((w.announcement pairId x y l).or m) (news pairId y (w'.coming i x)) := by
  have hcoming := news_coming_step pairId x y hsteady.lose hstep i
  by_cases hsub : deviceChannel x ∈ (w.insts i).channels
  . rw [if_pos hsub] at hcoming
    exact (h.upToDate i).of_append hcoming
  . rw [h.gone i hsub, if_neg hsub] at hcoming
    rw [(List.append_eq_nil_iff.mp hcoming).2]
    exact upToDate_nil _

theorem connect_queue {i : InstanceId} {c d : Uuid} (hstep : w.step env (.connect i c d) = some w')
    : (w'.boxes c).queue = [] := by
  have ⟨_, _, hw'⟩ := connect_eq_some.mp hstep
  rw [hw']
  change (Function.update w.boxes c Mailbox.new c).queue = []
  rw [Function.update_self]
  rfl

theorem StreamsOk.closing_step (h : StreamsOk pairId x y m w) (hok : PairOk env pairId x y w)
    (hsteady : Steady pairId x y w l) (hstep : w.step env l = some w') {i : InstanceId} {c : Uuid}
    (hphase : (w'.insts i).phase = .unsubscribing x) (hcur : (w'.insts i).current x = some c)
    {msg : BusMessage} (hmem : .bus msg ∈ (w'.boxes c).queue) : msg.presence? pairId y = none := by
  have hwf := hok.sourced.sound.wellFormed
  have hsubs := step_subs hok.subscriptions.inst hsteady.lose hstep
  rcases hsubs.unsubscribing hphase with hphase | hnone
  . have hcurrent := step_current hstep i x
    rw [hcur] at hcurrent
    generalize hu : some c = u at hcurrent
    cases hcurrent with
    | unregistered _ _ _ _ _ => cases hu
    | registered _ =>
      cases hu
      rw [connect_queue hstep] at hmem
      cases hmem
    | same =>
      have hqueue := h.closing i c hphase hu.symm
      have hq := step_queue hstep c
      generalize (w'.boxes c).queue = queue at hq hmem
      cases hq with
      | same => exact hqueue msg hmem
      | fresh => cases hmem
      | @taken d _ hd => exact hqueue msg (hd ▸ List.mem_cons_of_mem d hmem)
      | told _ _ =>
        cases List.mem_append.mp hmem with
        | inl hmem => exact hqueue msg hmem
        | inr hmem =>
          rw [List.mem_singleton] at hmem
          cases hmem
          rfl
      | @dispatched j _ _ d _ _ _ _ hcur' =>
        -- the instance takes nothing from its stream meanwhile
        have ⟨_, _, hidle, _⟩ := busMessage_eq_some hstep
        have ⟨t, hc, hme⟩ := hwf.current i x c hu.symm
        have ⟨t', hc', hme'⟩ := hwf.current j d c hcur'
        rw [hc] at hc'
        cases hc'
        rw [hme] at hme'
        cases hme'
        rw [hphase] at hidle
        cases hidle
      | resync =>
        cases List.mem_append.mp hmem with
        | inl hmem => exact hqueue msg hmem
        | inr hmem => cases List.eq_of_mem_replicate hmem
  . rw [hnone] at hcur
    cases hcur

theorem StreamsOk.step (h : StreamsOk pairId x y m w) (hok : PairOk env pairId x y w)
    (hsteady : Steady pairId x y w l) (hdrained : w.drained pairId x y l = true)
    (hstep : w.step env l = some w')
    : StreamsOk pairId x y ((w.announcement pairId x y l).or m) w' where
  upToDate i := h.upToDate_step hsteady hstep i
  gone _ hnew := h.gone_step hok hsteady hdrained hstep hnew
  closing _ _ hphase hcur _ hmem := h.closing_step hok hsteady hstep hphase hcur hmem

end World
end HandLiveRelay
