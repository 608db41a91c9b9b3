import HandLiveRelay.System.PeerNews

/-!
This module contains what two devices of a pair know about each other. A device is told by the bus
when its peer comes and goes, and reads the presence of the peer when it connects. In a run in which
nothing fails, a connection then knows in the end whether the peer is there, unless a message that
was left in the stream of its instance from before the connection misleads it.
-/

namespace HandLiveRelay

open Fiber Wire

namespace World

variable {env : Env} {w w' : World} {pairId x y : Uuid} {l : Label} {m : Option Bool}

theorem news_underway (me : Ident)
    : news pairId y (w.underway me)
      = news pairId y ((w.boxes me.connId).queue.filterMap Delivery.bus?)
        ++ news pairId y (w.coming me.inst me.deviceId) :=
  List.filterMap_append

/--
A connection of `x` that is to stay: what comes to it about `y` ends with the last `x` was told, and
what it knows is that, unless more comes or is to come.
-/
structure ViewOk (pairId x y : Uuid) (m : Option Bool) (w : World) (t : ConnTask) : Prop where
  upToDate : UpToDate m (news pairId y (w.underway t.me))
  gone : deviceChannel x ∉ (w.insts t.me.inst).channels → news pairId y (w.underway t.me) = []
  known : ∀ b, t.stage.known pairId y t.trace = some b → news pairId y (w.underway t.me) = []
    → (b = true ↔ m = some true) ∨ Outstanding pairId x y w

theorem news_underway_step {c : Uuid} {t : ConnTask} (t' : ConnTask) (hok : PairOk env pairId x y w)
    (hl : ∀ i keep, l ≠ .lose i keep) (hstep : w.step env l = some w') (hc : w.conns c = some t)
    (hd : t.me.deviceId = x) (halive : t.alive)
    : Leaving w' c t' ∨ news pairId y (taking c l) ++ news pairId y (w'.underway t.me)
      = news pairId y (w.underway t.me)
        ++ if deviceChannel x ∈ (w.insts t.me.inst).channels then
            (w.announcement pairId x y l).toList
          else [] := by
  have hok1 := hok.sourced.sound.tasks c t hc
  by_cases hover : ∃ msg, w.handed c l = some msg ∧ w.overLimit env c msg l = true
  . have ⟨msg, hhanded, hover⟩ := hover
    exact .inl (leaving_of_overLimit hstep hhanded hover)
  . right
    have hopen : t.ended = false := by
      by_contra hended
      rw [Bool.not_eq_false] at hended
      rw [not_alive_of_ended hok1 hended] at halive
      cases halive
    have hunderway := step_underway (g := (·.presence? pairId y)) (fun _ => rfl)
      hok.sourced.sound.wellFormed hstep hc (hok.side.current hc hd halive) hopen
      (fun msg hhanded => by simpa using fun hover' => hover ⟨msg, hhanded, hover'⟩)
      (hl t.me.inst)
    rw [List.filterMap_append, List.filterMap_append, hd] at hunderway
    rw [← news_publishedFor]
    exact hunderway

theorem subscribed_of_claimed {t : ConnTask} (h : t.Ok env) (hclaim : Did t.trace .claim (some ()))
    : Did t.trace .subscribed true := by
  have ⟨mark, hat⟩ := h
  have ⟨stage, s, rest, hsuffix, hp⟩ := hat.permitted.did hclaim
  cases hp with
  | claim hsub => exact hsub.of_suffix ((List.suffix_cons _ _).trans hsuffix)

/--
Whoever knows something about `y` is subscribed.
-/
theorem channel_of_known {c : Uuid} {t : ConnTask} {b : Bool} (hok : PairOk env pairId x y w)
    (hc : w.conns c = some t) (hd : t.me.deviceId = x)
    (hb : t.stage.known pairId y t.trace = some b)
    : deviceChannel x ∈ (w.insts t.me.inst).channels := by
  have hok1 := hok.sourced.sound.tasks c t hc
  have ⟨mark, hat⟩ := hok1
  have hsub : t.alive ∧ Did t.trace .subscribed true := by
    rw [ConnTask.alive_iff]
    cases hstage : t.stage with
    | opening =>
      rw [hstage] at hb
      have ⟨e, he, hread⟩ := List.exists_of_findSome?_eq_some hb
      have hpeers : e.op.ofPeers := by
        unfold readPresence at hread
        split at hread
        . rfl
        . cases hread
      exact ⟨by simp, subscribed_of_claimed hok1 (hok.side.claimed c t hc hd e he hpeers)⟩
    | handling e => exact ⟨by simp, (hat.stageOk.opened e hstage).subscribed⟩
    | finishing e =>
      rw [hstage] at hb
      cases hb
  have hserved := hok.subscriptions.served c t hc hsub.2 (hok.side.current hc hd hsub.1)
  exact hd ▸ (hok.subscriptions.inst _).channels _ hserved

theorem readPresence_of_perform {me : Ident} {o : Op} {f : Fault} {w1 : World} {r : o.Res}
    {s : Conn} {b : Bool} (hperf : w.perform env me o f = some (w1, r))
    (hb : readPresence y ⟨s, o, r⟩ = some b) : b = (w.presence y).isSome := by
  unfold readPresence at hb
  split at hb
  next s' devices online heq =>
    cases heq
    cases f with
    | ok =>
      cases hperf
      exact eq_of_lookup_zip_map (f := fun d => (w.presence d).isSome) hb
    | fail => cases hperf
    | lost => cases hperf
  . cases hb

/--
A message about `y` is a control message.
-/
theorem presence?_of_text? {e : Event} {b : Bool}
    (htext : e.text? = some (presenceMessage pairId y b))
    (hsourced : ∀ msg, e = .delivery (.bus msg) → msg.Sourced)
    : e.presence? pairId y = some b := by
  unfold Event.text? at htext
  split at htext
  next text =>
    cases htext
    exact presenceOf_presenceMessage pairId y b
  next source text =>
    cases htext
    exact absurd (hsourced _ rfl) not_presence_of_sourced
  . cases htext

/--
A connection that handles something else does not write about `y`.
-/
theorem writtenPresence_of_handling {c : Uuid} {t : ConnTask} {s : Conn} {o : Op}
    {k : o.Res → Prog Conn Op Op.Res Next} {e : Event} (hok : PairOk env pairId x y w)
    (hc : w.conns c = some t) (hd : t.me.deviceId = x) (hprog : t.prog = .wait s o k)
    (hstage : t.stage = .handling e) (he : e.presence? pairId y = none) (r : o.Res)
    : writtenPresence pairId y ⟨s, o, r⟩ = none := by
  rw [Option.eq_none_iff_forall_ne_some]
  intro b hwritten
  unfold writtenPresence at hwritten
  split at hwritten
  next s' text heq =>
    cases heq
    rw [presenceOf_eq_some] at hwritten
    subst hwritten
    have ⟨t0, hkept⟩ := hok.side.announcing c t hc
    have hobeys := hkept.obeys hprog (hok.side.fine c t hc hd)
    rw [hstage] at hobeys
    have hsourced : ∀ msg, e = .delivery (.bus msg) → msg.Sourced := by
      rintro msg rfl
      have ⟨mark, hat⟩ := hok.sourced.sound.tasks c t hc
      apply hok.sourced.sourced.inputs c t msg hc
      rw [hat.handling _ hstage]
      exact List.mem_cons_self
    rw [presence?_of_text? (hobeys b rfl) hsourced] at he
    cases he
  . cases hwritten

/--
What a connection knows changes when it reads presence.
-/
theorem known_resume {c : Uuid} {f : Fault} {t : ConnTask} {s : Conn} {o : Op}
    {k : o.Res → Prog Conn Op Op.Res Next} {w1 : World} {r : o.Res} {b : Bool}
    (hok : PairOk env pairId x y w) (hc : w.conns c = some t) (hd : t.me.deviceId = x)
    (hprog : t.prog = .wait s o k) (hperf : w.perform env t.me o f = some (w1, r))
    (hb : (t.resume s o k r).stage.known pairId y (t.resume s o k r).trace = some b)
    : t.stage.known pairId y t.trace = some b ∨ b = (w.presence y).isSome := by
  rw [ConnTask.resume_trace] at hb
  cases ConnTask.resume_stage t s o k r with
  | inr hfin =>
    have ⟨e, hfin⟩ := hfin
    rw [hfin] at hb
    cases hb
  | inl hstage =>
    rw [hstage] at hb
    cases hst : t.stage with
    | finishing e =>
      rw [hst] at hb
      cases hb
    | opening =>
      rw [hst] at hb
      change (⟨s, o, r⟩ :: t.trace).findSome? (readPresence y) = some b at hb
      rw [List.findSome?_cons] at hb
      cases hread : readPresence y ⟨s, o, r⟩ with
      | none =>
        rw [hread] at hb
        exact .inl hb
      | some b' =>
        rw [hread] at hb
        cases hb
        exact .inr (readPresence_of_perform hperf hread)
    | handling e =>
      rw [hst] at hb
      left
      change (e.presence? pairId y).or (lastWritten pairId y (⟨s, o, r⟩ :: t.trace)) = some b at hb
      change (e.presence? pairId y).or (lastWritten pairId y t.trace) = some b
      cases hpresence : e.presence? pairId y with
      | some b' =>
        rw [hpresence] at hb
        exact hb
      | none =>
        rw [hpresence, Option.none_or] at hb
        rw [Option.none_or]
        have hsilent := writtenPresence_of_handling hok hc hd hprog hst hpresence r
        unfold lastWritten at hb ⊢
        rwa [List.findSome?_cons, hsilent] at hb

theorem news_taking_event (c : Uuid) (e : Event)
    : news pairId y (taking c (.event c e)) = (e.presence? pairId y).toList := by
  change List.filterMap _ (if c = c then e.bus?.toList else []) = (e.bus?.bind _).toList
  rw [if_pos rfl]
  cases e.bus? with
  | none => rfl
  | some msg =>
    rw [Option.toList_some, List.filterMap_cons, List.filterMap_nil, Option.bind_some]
    cases msg.presence? pairId y <;> rfl

theorem ViewOk.known_step {c : Uuid} {t t' : ConnTask} (h : ViewOk pairId x y m w t)
    (hok : PairOk env pairId x y w) (htold : ToldOk pairId x y m w) (hxy : x ≠ y)
    (hsteady : Steady pairId y x w l) (hstep : w.step env l = some w') (hc : w.conns c = some t)
    (hc' : w'.conns c = some t') (hd : t.me.deviceId = x)
    (hnews : news pairId y (taking c l) ++ news pairId y (w'.underway t.me)
      = news pairId y (w.underway t.me)
        ++ if deviceChannel x ∈ (w.insts t.me.inst).channels then
            (w.announcement pairId x y l).toList
          else [])
    {b : Bool} (hb : t'.stage.known pairId y t'.trace = some b)
    (hnil : news pairId y (w'.underway t.me) = [])
    : (b = true ↔ (w.announcement pairId x y l).or m = some true) ∨ Outstanding pairId x y w' := by
  -- nothing new: what was known before still holds
  have hkeep : w.announcement pairId x y l = none
      → (b = true ↔ m = some true) ∨ Outstanding pairId x y w
      → (b = true ↔ (w.announcement pairId x y l).or m = some true)
        ∨ Outstanding pairId x y w' := by
    intro hnone hor
    refine hor.imp (fun hiff => ?_) fun hout => hout.step hsteady hstep hnone
    rwa [hnone, Option.none_or]
  rw [hnil, List.append_nil] at hnews
  have htask := step_task hstep c
  rw [hc'] at htask
  generalize hu : some t' = u at htask
  cases htask with
  | same hl =>
    rw [hc] at hu
    cases hu
    rw [taking_of_conn? hl, if_pos (channel_of_known hok hc hd hb)] at hnews
    have hnews := List.append_eq_nil_iff.mp hnews.symm
    exact hkeep (by simpa using hnews.2) (h.known b hb hnews.1)
  | connected hnone =>
    rw [hc] at hnone
    cases hnone
  | @resumed f t1 s o k w1 r hc1 hprog hperf =>
    rw [hc] at hc1
    cases hc1
    cases hu
    have hnone : w.announcement pairId x y (.exec c f) = none := by
      rw [Option.eq_none_iff_forall_ne_some]
      intro b' hb'
      have ⟨c0, f0, t0, _, _, hl, hc0, hd0, _⟩ := hok.announces hb'
      cases hl
      rw [hc] at hc0
      cases hc0
      exact hxy (hd.symm.trans hd0)
    apply hkeep hnone
    cases known_resume hok hc hd hprog hperf hb with
    | inl hold => exact h.known b hold (List.append_eq_nil_iff.mp hnews.symm).1
    | inr hread =>
      by_cases hout : Outstanding pairId x y w
      . exact .inr hout
      . rw [hread]
        exact .inl (htold.presence_iff hok hout)
  | @handled e t1 s hc1 hprog _ =>
    rw [hc] at hc1
    cases hc1
    cases hu
    have hnone : w.announcement pairId x y (.event c e) = none := rfl
    apply hkeep hnone
    rw [hnone, Option.toList_none, ite_self, List.append_nil, news_taking_event] at hnews
    rw [ConnTask.handle_trace] at hb
    cases ConnTask.handle_stage env t s e with
    | inr hfin =>
      have ⟨_, hfin⟩ := hfin
      rw [hfin] at hb
      cases hb
    | inl hstage =>
      rw [hstage] at hb
      change (e.presence? pairId y).or (lastWritten pairId y t.trace) = some b at hb
      cases hpresence : e.presence? pairId y with
      | some b' =>
        rw [hpresence] at hb hnews
        cases hb
        rw [h.upToDate b (by rw [← hnews]; rfl)]
        simp
      | none =>
        rw [hpresence] at hb hnews
        have ⟨t0, hkept⟩ := hok.side.announcing c t hc
        have ⟨_, _, _, _, hknown⟩ := hkept.post hprog (hok.side.fine c t hc hd)
        exact h.known b (hknown.trans hb) hnews.symm

/--
Nothing is left for a connection when the subscription is given up.
-/
theorem StreamsOk.nothing_left (h : StreamsOk pairId x y m w) (hok : PairOk env pairId x y w)
    {c : Uuid} {t : ConnTask} {f : Fault} (hc : w.conns c = some t) (hd : t.me.deviceId = x)
    (halive : t.alive) (hphase : (w.insts t.me.inst).phase = .unsubscribing x)
    (hdrained : w.drained pairId x y (.busUnsubscribe t.me.inst f) = true)
    : news pairId y (w.underway t.me) = [] := by
  have hcur := hok.side.current hc hd halive
  rw [hd] at hcur
  rw [news_underway, hd, drained_eq_true hphase hdrained, List.append_nil, news,
    List.filterMap_eq_nil_iff, hok.sourced.sound.wellFormed.ident c t hc]
  intro msg hmsg
  obtain ⟨d, hmem, hbus⟩ := List.mem_filterMap.mp hmsg
  cases d with
  | resync => cases hbus
  | bus msg' =>
    cases hbus
    exact h.closing _ c hphase hcur msg hmem

theorem ViewOk.step {c : Uuid} {t t' : ConnTask} (h : ViewOk pairId x y m w t)
    (hok : PairOk env pairId x y w) (htold : ToldOk pairId x y m w)
    (hstreams : StreamsOk pairId x y m w) (hxy : x ≠ y) (hsteady : Steady pairId x y w l)
    (hsteady' : Steady pairId y x w l) (hdrained : w.drained pairId x y l = true)
    (hstep : w.step env l = some w') (hc : w.conns c = some t) (hc' : w'.conns c = some t')
    (hme : t'.me = t.me) (hd : t.me.deviceId = x) (halive : t.alive)
    : Leaving w' c t' ∨ ViewOk pairId x y ((w.announcement pairId x y l).or m) w' t' := by
  rcases news_underway_step t' hok hsteady.lose hstep hc hd halive with hleaving | hnews
  . exact .inl hleaving
  . refine .inr ⟨?_, ?_, ?_⟩
    . rw [hme]
      by_cases hsub : deviceChannel x ∈ (w.insts t.me.inst).channels
      . rw [if_pos hsub] at hnews
        exact h.upToDate.of_append hnews
      . rw [h.gone hsub, if_neg hsub] at hnews
        rw [(List.append_eq_nil_iff.mp hnews).2]
        exact upToDate_nil _
    . rw [hme]
      intro hnew
      by_cases hsub : deviceChannel x ∈ (w.insts t.me.inst).channels
      . have hsubs := step_subs hok.subscriptions.inst hsteady.lose hstep
        have ⟨hphase, f, hl⟩ := (hsubs.channel hsub).resolve_left hnew
        subst hl
        rw [hstreams.nothing_left hok hc hd halive hphase hdrained, if_pos hsub] at hnews
        exact (List.append_eq_nil_iff.mp hnews).2
      . rw [h.gone hsub, if_neg hsub] at hnews
        exact (List.append_eq_nil_iff.mp hnews).2
    . rw [hme]
      intro b hb hnil
      exact h.known_step hok htold hxy hsteady' hstep hc hc' hd hnews hb hnil

theorem known_new (me : Ident) (previous : Option Uuid)
    : (ConnTask.new me previous).stage.known pairId y (ConnTask.new me previous).trace = none := by
  cases previous <;> rfl

/--
A new connection has an empty queue and knows nothing.
-/
theorem StreamsOk.viewOk_connect {c : Uuid} {t' : ConnTask} (h : StreamsOk pairId x y m w')
    (hstep : w.step env (.connect t'.me.inst c t'.me.deviceId) = some w')
    (hc' : w'.conns c = some t') (hd : t'.me.deviceId = x) : ViewOk pairId x y m w' t' := by
  have ⟨_, _, hw'⟩ := connect_eq_some.mp hstep
  have ht' : t' = .new ⟨t'.me.deviceId, c, t'.me.inst⟩
      ((w.insts t'.me.inst).current t'.me.deviceId) := by
    rw [hw'] at hc'
    change Function.update w.conns c _ c = some t' at hc'
    rw [Function.update_self] at hc'
    exact (Option.some.inj hc').symm
  have hid : t'.me.connId = c := by
    rw [ht', ConnTask.new_me]
  have hunderway : news pairId y (w'.underway t'.me) = news pairId y (w'.coming t'.me.inst x) := by
    rw [news_underway, hid, connect_queue hstep, hd]
    rfl
  refine ⟨?_, ?_, ?_⟩
  . rw [hunderway]
    exact h.upToDate _
  . rw [hunderway]
    exact h.gone _
  . intro b hb
    rw [ht', known_new] at hb
    cases hb

/--
What holds in a steady run in which streams are drained, where `m` is the last `x` was told about
`y`.
-/
structure AgreementOk (env : Env) (pairId x y : Uuid) (m : Option Bool) (w : World) : Prop where
  peers : PairOk env pairId x y w
  told : ToldOk pairId x y m w
  streams : StreamsOk pairId x y m w
  views : ∀ c t, w.conns c = some t → t.me.deviceId = x
    → Leaving w c t ∨ ViewOk pairId x y m w t

theorem agreementOk_init (env : Env) (pairId x y : Uuid) (db : Db)
    : AgreementOk env pairId x y none (init db) where
  peers := pairOk_init env pairId x y db
  told := toldOk_init pairId x y db
  streams := streamsOk_init pairId x y none db
  views c t hc := by cases hc

theorem AgreementOk.step (h : AgreementOk env pairId x y m w) (hxy : x ≠ y)
    (hsteady : w.steady pairId x y l = true) (hdrained : w.drained pairId x y l = true)
    (hstep : w.step env l = some w')
    : AgreementOk env pairId x y ((w.announcement pairId x y l).or m) w' := by
  have hsound := h.peers.sourced.sound
  have hside := Steady.of_steady hsound hsteady
  have hother := Steady.of_steady hsound ((steady_comm l).trans hsteady)
  have hstreams := h.streams.step h.peers hside hdrained hstep
  refine ⟨h.peers.step hside hother hstep, h.told.step h.peers hother hstep, hstreams, ?_⟩
  intro c t' hc' hd
  rcases conn_of_step hstep hc' with ⟨hl, _⟩ | ⟨t, hc, hme, _⟩
  . exact .inr (hstreams.viewOk_connect (hl ▸ hstep) hc' hd)
  . rw [← hme] at hd
    rcases h.views c t hc hd with hleaving | hview
    . exact .inl (hleaving.step hsound hstep hc hc')
    . cases halive : t.alive with
      | false => exact .inl (Leaving.step (.dead halive) hsound hstep hc hc')
      | true =>
        exact hview.step h.peers h.told h.streams hxy hside hother hdrained hstep hc hc' hme.symm hd
          halive

theorem agreementOk_run {db : Db} {ls : List Label} (hxy : x ≠ y)
    (hsteady : Lts.Meets (World.step env) (fun w l => w.steady pairId x y l = true) (init db) ls)
    (hdrained : Lts.Meets (World.step env) (fun w l => w.drained pairId x y l = true) (init db) ls)
    (hrun : run env (init db) ls = some w)
    : ∃ m, AgreementOk env pairId x y m w := by
  have hcarry := Lts.run_carry (g := fun m w l _ => (announcement pairId x y w l).or m)
    (P := AgreementOk env pairId x y)
    (fun m w l w' h hl hstep => h.step hxy hl.1 hl.2 hstep) (agreementOk_init env pairId x y db)
    (hsteady.and hdrained) hrun
  exact ⟨_, hcarry⟩

/--
The device has a connection that is being served.
-/
def IsServed (d : Uuid) (w : World) : Prop :=
  ∃ c t, w.conns c = some t ∧ t.me.deviceId = d ∧ t.serving

/--
A connection that is being served has told the peer, and holds presence.
-/
theorem PairOk.told_of_serving (h : PairOk env pairId x y w) {c : Uuid} {t : ConnTask}
    (hc : w.conns c = some t) (hd : t.me.deviceId = y) (hserving : t.serving)
    : Announced pairId x y true t.trace ∧ ∀ r, ¬ Did t.trace .release r := by
  have ⟨s, hprog⟩ := ConnTask.serving_iff.mp hserving
  have hok := h.sourced.sound.tasks c t hc
  have ⟨t0, hkept⟩ := h.other.announcing c t hc
  have ⟨_, _, htold, _⟩ := hkept.post hprog (h.other.fine c t hc hd)
  exact ⟨hd ▸ htold, not_released_of_alive hok (not_replaced_of_serving hok hprog).1⟩

theorem serving_or_ended (h : Sound env w) {c : Uuid} {t : ConnTask} (hc : w.conns c = some t)
    (hidle : t.idle) : t.serving ∨ t.ended := by
  have ⟨s, n, hprog⟩ := ConnTask.idle_iff.mp hidle
  cases n with
  | serve => exact .inl (ConnTask.serving_iff.mpr ⟨s, hprog⟩)
  | finish e => exact absurd hprog (h.settled c t hc s e)
  | stop => exact .inr (ConnTask.ended_iff.mpr ⟨s, hprog⟩)

theorem PairOk.not_outstanding (h : PairOk env pairId x y w)
    (hidle : ∀ c t, w.conns c = some t → t.idle) : ¬ Outstanding pairId x y w := by
  rintro ⟨c, t, hc, hd, _, hoff, hor⟩
  cases serving_or_ended h.sourced.sound hc (hidle c t hc) with
  | inl hserving =>
    have ⟨htold, hrel⟩ := h.told_of_serving hc hd hserving
    cases hor with
    | inl hreleased =>
      have ⟨r, hr⟩ := hreleased
      exact hrel r hr
    | inr hnot => exact hnot htold
  | inr hended => exact hoff (h.other.ended hc hd hended).2.2

theorem AgreementOk.told_iff (h : AgreementOk env pairId x y m w)
    (hidle : ∀ c t, w.conns c = some t → t.idle) : m = some true ↔ w.IsServed y := by
  constructor
  . intro hm
    by_contra hnot
    refine h.told.offline (fun c t hc hd _ => ?_) hm
    cases serving_or_ended h.peers.sourced.sound hc (hidle c t hc) with
    | inl hserving => exact absurd ⟨c, t, hc, hd, hserving⟩ hnot
    | inr hended => exact (h.peers.other.ended hc hd hended).2.2
  . rintro ⟨c, t, hc, hd, hserving⟩
    have ⟨htold, hrel⟩ := h.peers.told_of_serving hc hd hserving
    exact h.told.online c t hc hd htold hrel

theorem Quiescent.news_underway (hq : Quiescent env w) (h : Sound env w) {c : Uuid} {t : ConnTask}
    (hc : w.conns c = some t) (halive : t.alive) : news pairId y (w.underway t.me) = [] := by
  have hqueue := (hq.queues c (h.mem_connects hc) t hc halive).1
  have hstream := (hq.hubs t.me.inst (h.inst c t hc)).1
  rw [World.news_underway, h.wellFormed.ident c t hc, hqueue, coming, hstream]
  rfl

end World

/--
The devices of a pair agree on presence. Take any run in which the devices `x` and `y` have the
pair, each of them opens a connection only after its last one has ended, and neither Redis nor the
database nor the lifetime of the keys fails them, whatever the two do at the same time and whatever
all the others do. Suppose that whenever an instance has given up the subscription of `x`, nothing
about `y` was left in its stream. When all that is under way has been handled and every connection
either waits for events or has ended, then a connection of `x` that is being served has written
about `y`, the last text says that `y` is online exactly if `y` has a connection that is being
served, and the presence of `y` is there exactly then.
-/
theorem peers_agree_on_presence {env : Env} {db : Db} {ls : List Label} {w : World}
    {pairId x y c : Uuid} {t : ConnTask} (hxy : x ≠ y)
    (hrun : run env (World.init db) ls = some w)
    (hsteady : Lts.Meets (World.step env) (fun w l => w.steady pairId x y l = true)
      (World.init db) ls)
    (hdrained : Lts.Meets (World.step env) (fun w l => w.drained pairId x y l = true)
      (World.init db) ls)
    (hq : w.Quiescent env) (hidle : ∀ c ∈ w.connects, ∀ t ∈ w.conns c, t.idle)
    (hc : w.conns c = some t) (hd : t.me.deviceId = x) (hserving : t.serving)
    : (∃ b, lastWritten pairId y t.trace = some b ∧ (b = true ↔ w.IsServed y))
      ∧ ((w.presence y).isSome ↔ w.IsServed y) := by
  have ⟨m, h⟩ := World.agreementOk_run hxy hsteady hdrained hrun
  have hsound := h.peers.sourced.sound
  replace hidle : ∀ c t, w.conns c = some t → t.idle := fun c t hc =>
    hidle c (hsound.mem_connects hc) t hc
  have ⟨s, hprog⟩ := ConnTask.serving_iff.mp hserving
  have halive := (World.not_replaced_of_serving (hsound.tasks c t hc) hprog).1
  have hnone := h.peers.not_outstanding hidle
  have hserved := h.told_iff hidle
  refine ⟨?_, (h.told.presence_iff h.peers hnone).trans hserved⟩
  have hview := (h.views c t hc hd).resolve_left (hq.not_leaving hsound hc halive)
  -- what is known to a connection that is being served is what it wrote last
  have ⟨t0, hkept⟩ := h.peers.side.announcing c t hc
  have ⟨_, _, _, hsome, hknown⟩ := hkept.post hprog (h.peers.side.fine c t hc hd)
  have ⟨b, hb⟩ := Option.isSome_iff_exists.mp hsome
  have hiff := (hview.known b (hknown.trans hb) (hq.news_underway hsound hc halive)).resolve_right
    hnone
  exact ⟨b, hb, hiff.trans hserved⟩

namespace Sample

/--
The connection takes the message about the device `d` from the bus and writes it.
-/
def hearsOf (i : InstanceId) (c d : Uuid) (online : Bool) : List Label :=
  [Label.busMessage i, .event c (.delivery (.bus (.control (presenceMessage pairId d online))))]
    ++ execs 2 c

/--
The device is gone, its connection cleans up, and its instance gives up the subscription.
-/
def goes (i : InstanceId) (c : Uuid) : List Label :=
  [Label.event c .clientGone] ++ execs 5 c ++ [Label.busRequest i .ok, .busUnsubscribe i .ok]

/--
Both devices connect again, the second one first. The first one takes what is left for it.
-/
def comeBack (rest : List Label) : List Label :=
  opensPaired "b" (uuid 3) (device 2) ++ replaced "b" (uuid 3) (uuid 3)
    ++ opensPaired "a" (uuid 4) (device 1) ++ rest ++ replaced "a" (uuid 4) (uuid 4)
    ++ hearsOf "b" (uuid 3) (device 1) true

/--
The first device hears that the second one is gone, and goes as well.
-/
def inTime : List Label :=
  bothOpen ++ goes "b" (uuid 2) ++ hearsOf "a" (uuid 1) (device 2) false ++ goes "a" (uuid 1)
    ++ comeBack []

/--
The first device goes before it hears that the second one is gone. The message waits for its next
connection.
-/
def tooLate : List Label :=
  bothOpen ++ goes "b" (uuid 2) ++ goes "a" (uuid 1)
    ++ comeBack (hearsOf "a" (uuid 4) (device 2) false)

end Sample

theorem peers_agree_after_a_reconnect
    : ∃ w t, run Sample.relay (World.init Sample.pairedDb) Sample.inTime = some w
      ∧ w.conns (Sample.uuid 4) = some t
      ∧ (∃ b, lastWritten Sample.pairId (Sample.device 2) t.trace = some b
        ∧ (b = true ↔ w.IsServed (Sample.device 2)))
      ∧ ((w.presence (Sample.device 2)).isSome ↔ w.IsServed (Sample.device 2)) := by
  have hmeets : decide (Lts.Meets (World.step Sample.relay)
        (fun w l => w.steady Sample.pairId (Sample.device 1) (Sample.device 2) l = true)
        (World.init Sample.pairedDb) Sample.inTime)
      && decide (Lts.Meets (World.step Sample.relay)
        (fun w l => w.drained Sample.pairId (Sample.device 1) (Sample.device 2) l = true)
        (World.init Sample.pairedDb) Sample.inTime) = true := by
    decide +kernel
  have hrun : (run Sample.relay (World.init Sample.pairedDb) Sample.inTime).any (fun w =>
      decide (w.Quiescent Sample.relay)
        && decide (∀ c ∈ w.connects, ∀ t ∈ w.conns c, t.idle)
        && (w.conns (Sample.uuid 4)).any (fun t => decide (t.me.deviceId = Sample.device 1)
          && t.serving)) = true := by
    decide +kernel
  simp only [Bool.and_eq_true, decide_eq_true_eq] at hmeets
  simp only [Option.any_eq_true, Bool.and_eq_true, decide_eq_true_eq] at hrun
  have ⟨w, hw, ⟨hq, hidle⟩, t, ht, hd, hserving⟩ := hrun
  exact ⟨w, t, hw, ht, peers_agree_on_presence (by decide) hw hmeets.1 hmeets.2 hq hidle ht hd
    hserving⟩

/--
A message from before misleads the next connection. The second device goes, and the first one goes
before its connection hears of it. The bus task of the first instance gives up the subscription
while the message is still in its stream. The second device connects again, when nobody is
subscribed for the first one, and then the first one. It reads that the second device is there, and
then is handed the old message. In the end, nothing is under way and the second device is served,
but the last that the first one was told is that it is gone.
-/
theorem late_word_misleads_the_next_connection
    : (decide (Lts.Meets (World.step Sample.relay)
          (fun w l => w.steady Sample.pairId (Sample.device 1) (Sample.device 2) l = true)
          (World.init Sample.pairedDb) Sample.tooLate)
        && (run Sample.relay (World.init Sample.pairedDb) Sample.tooLate).any (fun w =>
          decide (w.Quiescent Sample.relay)
            && decide (∀ c ∈ w.connects, ∀ t ∈ w.conns c, t.idle)
            && (w.conns (Sample.uuid 4)).any (fun t => decide (t.me.deviceId = Sample.device 1)
              && t.serving
              && decide (lastWritten Sample.pairId (Sample.device 2) t.trace = some false))
            && (w.conns (Sample.uuid 3)).any (fun t => decide (t.me.deviceId = Sample.device 2)
              && t.serving)
            && (w.presence (Sample.device 2)).isSome)) = true := by
  decide +kernel

end HandLiveRelay
