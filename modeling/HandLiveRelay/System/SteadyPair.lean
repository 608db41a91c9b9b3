import HandLiveRelay.System.Announcing

/-!
This module contains two devices that have a pair with each other, in a run in which nothing fails
them and each of them opens a connection only after its last one has ended. The connection of a
device that has not left yet is then registered, presence is there from its claim to its release,
and every answer that it gets is fine.
-/

namespace HandLiveRelay

open Fiber Wire

/--
The operation only concerns the socket of the connection.
-/
def Op.ofSocket : Op → Bool
  | .sendText _ | .sendBinary _ | .ping | .pong _ | .closeSocket _ => true
  | _ => false

/--
A request that has the presence of a device deleted has deleted the device.
-/
theorem gone_of_delPresence {crypto : Crypto} {db : Db} {nowMs : Int64} {req : Request} {d : Uuid}
    (h : .delPresence d ∈ (req.handle crypto db nowMs).actions)
    : (req.handle crypto db nowMs).db.devices.find? d = none := by
  have heffect := handle_effect crypto db nowMs req
  generalize req.handle crypto db nowMs = out at h heffect
  cases heffect with
  | @deleted caller _ _ _ told _ =>
    have hd : d = caller := by
      cases List.mem_append.mp h with
      | inl htell =>
        obtain ⟨⟨peer, s⟩, _, hmem⟩ := List.mem_flatMap.mp htell
        cases s <;> simp [Routes.Devices.tellPeer] at hmem
      | inr hlast => simpa using hlast
    subst hd
    change (db.devices.delete _).find? d = none
    rw [Table.find?_delete]
    cases hfind : db.devices.find? d with
    | none => rfl
    | some row => simp [Table.key_of_find? hfind]
  | revoked =>
    obtain ⟨peer, _, hmem⟩ := List.mem_flatMap.mp h
    simp at hmem
  | pairCreated => simp [Outcome.accepted] at h
  | _ => cases h

theorem Pairs.registered_of_mem_activePeers {db : Db} {d pairId peer : Uuid}
    (h : (pairId, peer) ∈ Pairs.activePeers db d) : (db.devices.find? peer).isSome := by
  unfold Pairs.activePeers at h
  have ⟨row, hrow, hpair⟩ := List.mem_map.mp h
  rw [List.mem_filter, decide_eq_true_eq] at hrow
  cases hpair
  have hany := hrow.2.2.2
  cases hfind : db.devices.find? (row.peer d) with
  | none =>
    rw [hfind] at hany
    cases hany
  | some row => rfl

theorem ConnTask.finishing_of_not_alive {t : ConnTask} (h : t.alive = false)
    : ∃ e, t.stage = .finishing e := by
  unfold ConnTask.alive at h
  split at h
  next e hstage => exact ⟨e, hstage⟩
  . cases h

namespace World

variable {env : Env} {w w' : World} {pairId x y : Uuid}

/--
Both devices have the pair with each other.
-/
def hasPair (w : World) (pairId x y : Uuid) : Bool :=
  decide ((pairId, y) ∈ Pairs.activePeers w.db x)
    && decide ((pairId, x) ∈ Pairs.activePeers w.db y)

/--
Every connection of the device has ended.
-/
def allEnded (w : World) (d : Uuid) : Bool :=
  w.connects.all fun c => (w.conns c).all fun t => t.me.deviceId ≠ d || t.ended

/--
The devices have the pair. A connection of one of them opens only after its last one has ended.
Redis, the database and the presence keys do not fail them, but writes to their sockets may.
-/
def steady (pairId x y : Uuid) (w : World) (l : Label) : Bool :=
  w.hasPair pairId x y &&
    match l with
    | .connect _ _ d => (d ≠ x && d ≠ y) || w.allEnded d
    | .exec c f => (w.conns c).all fun t =>
        (t.me.deviceId ≠ x && t.me.deviceId ≠ y) || t.next?.any Op.ofSocket || f = .ok
    | .busRequest _ f | .busUnsubscribe _ f => f = .ok
    | .lose _ _ => false
    | .expirePresence d => d ≠ x && d ≠ y
    | _ => true

/--
What `steady` says about one of the two devices.
-/
structure Steady (pairId d peer : Uuid) (w : World) (l : Label) : Prop where
  pair : (pairId, peer) ∈ Pairs.activePeers w.db d
  kept : (pairId, d) ∈ Pairs.activePeers w.db peer
  connect : ∀ i c, l = .connect i c d → ∀ c t, w.conns c = some t → t.me.deviceId = d → t.ended
  exec : ∀ c f t s o k, l = .exec c f → w.conns c = some t → t.me.deviceId = d
    → t.prog = .wait s o k → f = .ok ∨ o.ofSocket
  request : ∀ i f, l = .busRequest i f → f = .ok
  lose : ∀ i keep, l ≠ .lose i keep
  expire : l ≠ .expirePresence d

theorem steady_comm (l : Label) : w.steady pairId x y l = w.steady pairId y x l := by
  unfold steady hasPair
  cases l <;> simp [Bool.and_comm]

theorem allEnded_iff (h : Sound env w) {d : Uuid}
    : w.allEnded d ↔ ∀ c t, w.conns c = some t → t.me.deviceId = d → t.ended := by
  unfold allEnded
  simp only [List.all_eq_true, Option.all_eq_true, Bool.or_eq_true, decide_eq_true_eq]
  constructor
  . intro hall c t hc hd
    exact (hall c (h.mem_connects hc) t hc).resolve_left fun hne => hne hd
  . intro hall c _ t hc
    by_cases hd : t.me.deviceId = d
    . exact .inr (hall c t hc hd)
    . exact .inl hd

theorem Steady.of_steady {l : Label} (hsound : Sound env w) (h : w.steady pairId x y l = true)
    : Steady pairId x y w l := by
  unfold steady hasPair at h
  simp only [Bool.and_eq_true, decide_eq_true_eq] at h
  have ⟨⟨hpair, hkept⟩, hl⟩ := h
  refine ⟨hpair, hkept, ?_, ?_, ?_, ?_, ?_⟩
  . rintro i c rfl
    simp only [ne_eq, not_true_eq_false, decide_false, Bool.false_and, Bool.false_or] at hl
    exact (allEnded_iff hsound).mp hl
  . rintro c f t s o k rfl hc hd hprog
    have hnext := ConnTask.next?_eq_some.mpr ⟨s, k, hprog⟩
    simp only [hc, Option.all_some, hd, ne_eq, not_true_eq_false, decide_false, Bool.false_and,
      hnext, Option.any_some, Bool.false_or, Bool.or_eq_true, decide_eq_true_eq] at hl
    exact hl.symm
  . rintro i f rfl
    exact of_decide_eq_true hl
  . rintro i keep rfl
    cases hl
  . rintro rfl
    simp at hl

theorem ended_step {l : Label} {c : Uuid} {t : ConnTask} (hstep : w.step env l = some w')
    (hc : w.conns c = some t) (hended : t.ended) : w'.conns c = some t := by
  have ⟨s, hprog⟩ := ConnTask.ended_iff.mp hended
  have htask := step_task hstep c
  generalize w'.conns c = o at htask ⊢
  cases htask with
  | same _ => exact hc
  | connected hnone =>
    rw [hc] at hnone
    cases hnone
  | resumed hc' hprog' _ =>
    rw [hc] at hc'
    cases hc'
    rw [hprog] at hprog'
    cases hprog'
  | handled hc' hprog' _ =>
    rw [hc] at hc'
    cases hc'
    rw [hprog] at hprog'
    cases hprog'

/--
A connection has just been registered, or it was there before.
-/
theorem conn_of_step {l : Label} {c : Uuid} {t' : ConnTask} (hstep : w.step env l = some w')
    (hc' : w'.conns c = some t')
    : (l = .connect t'.me.inst c t'.me.deviceId ∧ w.conns c = none ∧ t'.trace = [])
      ∨ ∃ t, w.conns c = some t ∧ t.me = t'.me ∧ t.trace <:+ t'.trace := by
  have htask := step_task hstep c
  rw [hc'] at htask
  generalize ho : some t' = o at htask
  cases htask with
  | same _ => exact .inr ⟨t', ho.symm, rfl, List.suffix_rfl⟩
  | connected hc =>
    cases ho
    exact .inl ⟨by simp, hc, by simp⟩
  | resumed hc _ _ =>
    cases ho
    exact .inr ⟨_, hc, by simp, by simp⟩
  | handled hc _ _ =>
    cases ho
    exact .inr ⟨_, hc, by simp, by simp⟩

theorem exec_conn {c : Uuid} {f : Fault} {t t' : ConnTask} {s : Conn} {o : Op}
    {k : o.Res → Prog Conn Op Op.Res Next} (hstep : w.step env (.exec c f) = some w')
    (hc : w.conns c = some t) (hprog : t.prog = .wait s o k) (hc' : w'.conns c = some t')
    : ∃ w1 r, w.perform env t.me o f = some (w1, r) ∧ t' = t.resume s o k r := by
  have ⟨t1, s1, o1, k1, w1, r, hc1, hprog1, hperf, hw'⟩ := exec_eq_some.mp hstep
  rw [hc] at hc1
  cases hc1
  rw [hprog] at hprog1
  cases hprog1
  rw [hw', setConn_self] at hc'
  cases hc'
  exact ⟨w1, r, hperf, rfl⟩

/--
A connection has done an operation before, or does it in this step.
-/
theorem did_of_step {l : Label} {c : Uuid} {t t' : ConnTask} (hstep : w.step env l = some w')
    (hc : w.conns c = some t) (hc' : w'.conns c = some t') {o : Op} {r : o.Res}
    (hdid : Did t'.trace o r)
    : Did t.trace o r ∨ ∃ f s k w1, l = .exec c f ∧ t.prog = .wait s o k
      ∧ w.perform env t.me o f = some (w1, r) ∧ w' = w1.setConn c t' := by
  have htask := step_task hstep c
  rw [hc'] at htask
  generalize hu : some t' = u at htask
  cases htask with
  | same _ =>
    rw [hc] at hu
    cases hu
    exact .inl hdid
  | connected hnone =>
    rw [hc] at hnone
    cases hnone
  | @resumed f t1 s1 o1 k1 _ _ hc1 hprog1 _ =>
    rw [hc] at hc1
    cases hc1
    have ⟨t2, s2, o2, k2, w2, r2, hc2, hprog2, hperf, hw'⟩ := exec_eq_some.mp hstep
    rw [hc] at hc2
    cases hc2
    have ht' := hc'
    rw [hw', setConn_self] at ht'
    cases ht'
    rw [ConnTask.resume_trace] at hdid
    by_cases ho : o2 = o
    . subst ho
      cases did_cons hdid with
      | inl heq =>
        subst heq
        exact .inr ⟨f, s2, k2, w2, rfl, hprog2, hperf, hw'⟩
      | inr hold => exact .inl hold
    . exact .inl (did_of_cons ho hdid)
  | handled hc1 _ _ =>
    rw [hc] at hc1
    cases hc1
    cases hu
    rw [ConnTask.handle_trace] at hdid
    exact .inl hdid

theorem not_unregistered_of_ok {t : ConnTask} (h : t.Ok env) {s : Conn}
    {k : Bool → Prog Conn Op Op.Res Next} (hprog : t.prog = .wait s .unregister k)
    : ∀ r, ¬ Did t.trace .unregister r := by
  have ⟨mark, hat⟩ := h
  have hp := (hat.obeys hprog).2
  generalize t.stage = stage at hp
  cases hp with
  | unregister hfirst => exact hfirst

/--
The answers that a device gets when nothing fails.
-/
theorem fine_perform {me : Ident} {peer : Uuid} {s : Conn} {o : Op} {f : Fault} {r : o.Res}
    {w1 : World} (hperf : w.perform env me o f = some (w1, r)) (hf : f = .ok ∨ o.ofSocket)
    (hpair : (pairId, peer) ∈ Pairs.activePeers w.db me.deviceId)
    (hanswer : ∀ b, w.answers me.connId = some b → b = true)
    (hcur : o = .unregister → (w.insts me.inst).current me.deviceId = some me.connId)
    (hheld : o = .release → w.presence me.deviceId = some me.inst)
    : Fine pairId peer ⟨s, o, r⟩ := by
  cases hf with
  | inr hsocket => cases o <;> trivial
  | inl hok =>
    subst hok
    cases o with
    | subscribed =>
      have ⟨b, hb, heq⟩ := Option.map_eq_some_iff.mp hperf
      cases heq
      exact hanswer _ hb
    | claim =>
      cases hperf
      rfl
    | publish dest msg =>
      cases hperf
      exact nofun
    | activePeers =>
      cases hperf
      exact ⟨_, rfl, hpair⟩
    | online devices =>
      cases hperf
      exact ⟨_, rfl⟩
    | unregister =>
      cases perform_unregister hperf with
      | inl h => exact h.2.1
      | inr h => exact absurd (hcur rfl) h.1
    | release =>
      cases hperf
      change some (Presence.release w.presence me.deviceId me.inst).2 = some true
      unfold Presence.release
      rw [if_pos (hheld rfl)]
    | _ => trivial

/--
One of the two devices in a steady run: its connections follow one another, the one that has not
left yet is registered, presence is held from its claim to its release, and every answer it got is
fine.
-/
structure SideOk (env : Env) (pairId d peer : Uuid) (w : World) : Prop where
  sound : Sound env w
  announcing : (announcing env pairId peer).TasksKept w
  alone : ∀ c c' t t', w.conns c = some t → w.conns c' = some t' → t.me.deviceId = d
    → t'.me.deviceId = d → c ≠ c' → t.ended ∨ t'.ended
  fine : ∀ c t, w.conns c = some t → t.me.deviceId = d → ∀ e ∈ t.trace, Fine pairId peer e
  claimed : ∀ c t, w.conns c = some t → t.me.deviceId = d
    → ∀ e ∈ t.trace, e.op.ofPeers → Did t.trace .claim (some ())
  registered : ∀ c t, w.conns c = some t → t.me.deviceId = d
    → (∀ r, ¬ Did t.trace .unregister r) → (w.insts t.me.inst).current d = some c
  held : ∀ c t, w.conns c = some t → t.me.deviceId = d → Did t.trace .claim (some ())
    → (∀ r, ¬ Did t.trace .release r) → w.presence d = some t.me.inst
  vacant : (∀ c t, w.conns c = some t → t.me.deviceId = d → Did t.trace .claim (some ())
    → ∃ r, Did t.trace .release r) → w.presence d = none
  removed : w.Todo (.delPresence d) → (pairId, d) ∉ Pairs.activePeers w.db peer

section Side

variable {d peer : Uuid} {l : Label}

/--
What a connection of the device has done when it has ended.
-/
theorem SideOk.ended (h : SideOk env pairId d peer w) {c : Uuid}
    {t : ConnTask} (hc : w.conns c = some t) (hd : t.me.deviceId = d) (hended : t.ended)
    : (∃ r, Did t.trace .unregister r) ∧ (∃ r, Did t.trace .release r)
      ∧ Announced pairId peer d false t.trace := by
  have ⟨s, hprog⟩ := ConnTask.ended_iff.mp hended
  have ⟨t0, hkept⟩ := h.announcing c t hc
  have ⟨mark, hat⟩ := h.sound.tasks c t hc
  have hpost := hat.post hprog
  have hfine := h.fine c t hc hd
  have ⟨_, hread, hstop⟩ := hkept.post hprog hfine
  have ⟨hun, hrel, htold⟩ := hstop hpost.2
  refine ⟨hun, hrel, hd ▸ htold (pairId, peer) ?_⟩
  rw [hpost.1.peers.pairs]
  exact mem_lastPairs_of_fine hfine hread

theorem SideOk.current (h : SideOk env pairId d peer w) {c : Uuid} {t : ConnTask}
    (hc : w.conns c = some t) (hd : t.me.deviceId = d) (halive : t.alive)
    : (w.insts t.me.inst).current t.me.deviceId = some c := by
  have ⟨mark, hat⟩ := h.sound.tasks c t hc
  rw [hd]
  apply h.registered c t hc hd
  rintro r ⟨s, hs⟩
  exact (hat.notLeft (ConnTask.alive_iff.mp halive) _ hs).1 rfl

theorem SideOk.alone_step (h : SideOk env pairId d peer w) (hsteady : Steady pairId d peer w l)
    (hstep : w.step env l = some w') {c c' : Uuid} {t t' : ConnTask} (hc : w'.conns c = some t)
    (hc' : w'.conns c' = some t') (hd : t.me.deviceId = d) (hd' : t'.me.deviceId = d)
    (hne : c ≠ c') : t.ended ∨ t'.ended := by
  have hnew : ∀ {c c' : Uuid} {t' : ConnTask}, (∃ i, l = .connect i c d) → c ≠ c'
      → w'.conns c' = some t' → t'.me.deviceId = d → t'.ended := by
    rintro c c' t' ⟨i, rfl⟩ hne hc' hd'
    rcases conn_of_step hstep hc' with ⟨heq, _⟩ | ⟨t1, hc1, hme, _⟩
    . cases heq
      exact absurd rfl hne
    . have hended := hsteady.connect i c rfl c' t1 hc1 (hme ▸ hd')
      rw [ended_step hstep hc1 hended] at hc'
      cases hc'
      exact hended
  rcases conn_of_step hstep hc with ⟨hl, _⟩ | ⟨t1, hc1, hme, _⟩
  . exact .inr (hnew ⟨_, hd ▸ hl⟩ hne hc' hd')
  . rcases conn_of_step hstep hc' with ⟨hl, _⟩ | ⟨t2, hc2, hme', _⟩
    . exact .inl (hnew ⟨_, hd' ▸ hl⟩ hne.symm hc hd)
    . cases h.alone c c' t1 t2 hc1 hc2 (hme ▸ hd) (hme' ▸ hd') hne with
      | inl hended =>
        rw [ended_step hstep hc1 hended] at hc
        cases hc
        exact .inl hended
      | inr hended =>
        rw [ended_step hstep hc2 hended] at hc'
        cases hc'
        exact .inr hended

/--
The connection that does an operation is the only one of its device that has not ended.
-/
theorem SideOk.eq_of_wait (h : SideOk env pairId d peer w)
    {c c' : Uuid} {t t' : ConnTask} (hc : w.conns c = some t) (hd : t.me.deviceId = d) {s : Conn}
    {o : Op} {k : o.Res → Prog Conn Op Op.Res Next} (hprog : t.prog = .wait s o k)
    (hc' : w.conns c' = some t') (hd' : t'.me.deviceId = d)
    (hrel : ∀ r, ¬ Did t'.trace .release r) : c' = c := by
  by_contra hne
  cases h.alone c c' t t' hc hc' hd hd' (Ne.symm hne) with
  | inl hended =>
    have ⟨_, hstop⟩ := ConnTask.ended_iff.mp hended
    rw [hprog] at hstop
    cases hstop
  | inr hended =>
    have ⟨r, hr⟩ := (h.ended hc' hd' hended).2.1
    exact hrel r hr

theorem SideOk.fine_step (h : SideOk env pairId d peer w)
    (hanswers : ∀ c b, w.answers c = some b → b = true) (hsteady : Steady pairId d peer w l)
    (hstep : w.step env l = some w') {c : Uuid} {t' : ConnTask} (hc' : w'.conns c = some t')
    (hd : t'.me.deviceId = d) : ∀ e ∈ t'.trace, Fine pairId peer e := by
  have htask := step_task hstep c
  rw [hc'] at htask
  generalize ho : some t' = o at htask
  cases htask with
  | same _ => exact h.fine c t' ho.symm hd
  | connected hc =>
    cases ho
    simp
  | @resumed f t s o k w1 r hc hprog hperf =>
    cases ho
    rw [ConnTask.resume_me] at hd
    intro e he
    rw [ConnTask.resume_trace] at he
    cases List.mem_cons.mp he with
    | inr hold => exact h.fine c t hc hd e hold
    | inl heq =>
      subst heq
      have ⟨mark, hat⟩ := h.sound.tasks c t hc
      have hid := h.sound.wellFormed.ident c t hc
      refine fine_perform hperf (hsteady.exec c f t s o k rfl hc hd hprog) (hd ▸ hsteady.pair)
        (hanswers _) ?_ ?_
      . intro hun
        subst hun
        rw [hd, hid]
        exact h.registered c t hc hd (not_unregistered_of_ok ⟨mark, hat⟩ hprog)
      . intro hrel
        subst hrel
        have ⟨hdead, _, hfirst⟩ := release_of_ok ⟨mark, hat⟩ hprog
        have ⟨t0, hkept⟩ := h.announcing c t hc
        have hclaim := hkept.obeys hprog (h.fine c t hc hd)
        have ⟨e, hstage⟩ := ConnTask.finishing_of_not_alive hdead
        rw [hstage] at hclaim
        rw [hd]
        exact h.held c t hc hd hclaim hfirst
  | handled hc _ _ =>
    cases ho
    simpa using h.fine c _ hc (by simpa using hd)

/--
A connection that is being served has claimed presence.
-/
theorem claimed_of_published {t : ConnTask} (h : t.Ok env) (hpub : t.Published)
    : Did t.trace .claim (some ()) := by
  have ⟨mark, hat⟩ := h
  have ⟨n, hn⟩ := hpub
  have ⟨stage, s, rest, hsuffix, hp⟩ := hat.permitted.did hn
  have hclaim : Did rest .claim (some ()) := by
    generalize hmsg : BusMessage.replace t.me.connId = msg at hp
    cases hp with
    | replace _ hclaim => exact hclaim
    | comeOnline _ => cases hmsg
    | rvJoined => cases hmsg
    | rvMsg => cases hmsg
    | forward hforward =>
      subst hmsg
      cases hforward
    | goOffline _ _ _ => cases hmsg
  exact hclaim.of_suffix ((List.suffix_cons _ _).trans hsuffix)

theorem SideOk.claimed_step (h : SideOk env pairId d peer w)
    (hstep : w.step env l = some w') {c : Uuid} {t' : ConnTask} (hc' : w'.conns c = some t')
    (hd : t'.me.deviceId = d) {e : Performed Conn Op Op.Res} (hmem : e ∈ t'.trace)
    (he : e.op.ofPeers) : Did t'.trace .claim (some ()) := by
  have htask := step_task hstep c
  rw [hc'] at htask
  generalize ho : some t' = o at htask
  cases htask with
  | same _ => exact h.claimed c t' ho.symm hd e hmem he
  | connected hc =>
    cases ho
    simp at hmem
  | @resumed f t s o k w1 r hc hprog hperf =>
    cases ho
    rw [ConnTask.resume_me] at hd
    rw [ConnTask.resume_trace] at hmem ⊢
    apply Did.cons
    cases List.mem_cons.mp hmem with
    | inr hold => exact h.claimed c t hc hd e hold he
    | inl heq =>
      subst heq
      have hok1 := h.sound.tasks c t hc
      have ⟨mark, hat⟩ := hok1
      have ⟨t0, hkept⟩ := h.announcing c t hc
      have hobeys := hkept.obeys hprog (h.fine c t hc hd)
      cases hstage : t.stage with
      | opening =>
        rw [hstage] at hobeys
        exact hobeys he
      | handling e => exact claimed_of_published hok1 (hat.stageOk.opened e hstage).published
      | finishing e =>
        rw [hstage] at hobeys
        exact hobeys
  | handled hc _ _ =>
    cases ho
    rw [ConnTask.handle_trace] at hmem ⊢
    exact h.claimed c _ hc (by simpa using hd) e hmem he

theorem SideOk.registered_step (h : SideOk env pairId d peer w)
    (hsteady : Steady pairId d peer w l) (hstep : w.step env l = some w') {c : Uuid}
    {t' : ConnTask} (hc' : w'.conns c = some t') (hd : t'.me.deviceId = d)
    (hno : ∀ r, ¬ Did t'.trace .unregister r) : (w'.insts t'.me.inst).current d = some c := by
  rcases conn_of_step hstep hc' with ⟨rfl, _⟩ | ⟨t, hc, hme, ht⟩
  . have ⟨_, _, hw'⟩ := connect_eq_some.mp hstep
    rw [hw', hd]
    change ((w.modifyInst t'.me.inst (·.register d c)).insts t'.me.inst).current d = some c
    rw [modifyInst_self, Instance.current_register_self]
  . have hold := h.registered c t hc (hme ▸ hd) fun r hr => hno r (hr.of_suffix ht)
    rw [hme] at hold
    have hcur := step_current hstep t'.me.inst d
    generalize (w'.insts t'.me.inst).current d = cur at hcur ⊢
    cases hcur with
    | same => exact hold
    | @registered c1 _ =>
      have hended := hsteady.connect _ c1 rfl c t hc (hme ▸ hd)
      have ⟨r, hr⟩ := (h.ended hc (hme ▸ hd) hended).1
      exact absurd (hr.of_suffix ht) (hno r)
    | @unregistered c1 f t1 s k hc1 hprog _ _ hcur =>
      rw [hold, h.sound.wellFormed.ident c1 t1 hc1] at hcur
      cases hcur
      have ⟨w1, r, _, heq⟩ := exec_conn hstep hc1 hprog hc'
      rw [heq, ConnTask.resume_trace] at hno
      exact absurd (did_cons_self _ s .unregister r) (hno r)

theorem SideOk.held_step (h : SideOk env pairId d peer w)
    (hsteady : Steady pairId d peer w l) (hstep : w.step env l = some w') {c : Uuid}
    {t' : ConnTask} (hc' : w'.conns c = some t') (hd : t'.me.deviceId = d)
    (hclaim : Did t'.trace .claim (some ())) (hrel : ∀ r, ¬ Did t'.trace .release r)
    : w'.presence d = some t'.me.inst := by
  rcases conn_of_step hstep hc' with ⟨_, _, hnil⟩ | ⟨t, hc, hme, ht⟩
  . rw [hnil] at hclaim
    have ⟨_, hmem⟩ := hclaim
    cases hmem
  rw [← hme] at hd ⊢
  have hrel' : ∀ r, ¬ Did t.trace .release r := fun r hr => hrel r (hr.of_suffix ht)
  rcases did_of_step hstep hc hc' hclaim with hold | ⟨f, s, k, w1, rfl, hprog, hperf, hw'⟩
  . have hheld := h.held c t hc hd hold hrel'
    have hkey := step_presence hstep d
    generalize w'.presence d = key at hkey ⊢
    cases hkey with
    | same => exact hheld
    | @claimed c1 f t1 s k hc1 hprog _ hd1 =>
      have heq := h.eq_of_wait hc1 hd1 hprog hc hd hrel'
      subst heq
      rw [hc] at hc1
      cases hc1
      rfl
    | @refreshed c1 f t1 s k hc1 hprog _ hd1 _ =>
      have heq := h.eq_of_wait hc1 hd1 hprog hc hd hrel'
      subst heq
      rw [hc] at hc1
      cases hc1
      rfl
    | @released c1 f t1 s k hc1 hprog hd1 _ =>
      have heq := h.eq_of_wait hc1 hd1 hprog hc hd hrel'
      subst heq
      have ⟨w1, r, _, heq⟩ := exec_conn hstep hc1 hprog hc'
      rw [heq, ConnTask.resume_trace] at hrel
      exact absurd (did_cons_self _ s .release r) (hrel r)
    | @deleted k f actions hjob =>
      exact absurd hsteady.kept
        (h.removed ⟨_, List.mem_of_getElem? hjob, List.mem_cons_self⟩)
    | expired => exact absurd rfl hsteady.expire
  . cases hsteady.exec c f t s .claim k rfl hc hd hprog with
    | inr hsocket => cases hsocket
    | inl hok =>
      subst hok
      cases hperf
      rw [hw', ← hd]
      exact Function.update_self ..

theorem not_released_of_alive {t : ConnTask} (h : t.Ok env) (halive : t.alive)
    : ∀ r, ¬ Did t.trace .release r := by
  have ⟨mark, hat⟩ := h
  rintro r ⟨s, hs⟩
  exact (hat.notLeft (ConnTask.alive_iff.mp halive) _ hs).2.1 rfl

theorem refresh_of_ok {t : ConnTask} (h : t.Ok env) {s : Conn}
    {k : Option Bool → Prog Conn Op Op.Res Next} (hprog : t.prog = .wait s .refresh k)
    : t.alive ∧ t.Published := by
  have ⟨mark, hat⟩ := h
  have hp := (hat.obeys hprog).2
  have hopened := hat.stageOk.opened
  rw [ConnTask.alive_iff]
  generalize t.stage = stage at hp hopened ⊢
  cases hp with
  | refresh _ => exact ⟨by simp, (hopened _ rfl).published⟩

theorem SideOk.vacant_step (h : SideOk env pairId d peer w)
    (hsteady : Steady pairId d peer w l) (hstep : w.step env l = some w')
    (hall : ∀ c t, w'.conns c = some t → t.me.deviceId = d → Did t.trace .claim (some ())
      → ∃ r, Did t.trace .release r) : w'.presence d = none := by
  by_cases hold : ∀ c t, w.conns c = some t → t.me.deviceId = d → Did t.trace .claim (some ())
      → ∃ r, Did t.trace .release r
  . have hkey := step_presence hstep d
    generalize w'.presence d = key at hkey ⊢
    have hno : ∀ {c t}, w.conns c = some t → t.me.deviceId = d → t.alive
        → ¬ Did t.trace .claim (some ()) := by
      intro c t hc hd halive hclaim
      have ⟨r, hr⟩ := hold c t hc hd hclaim
      exact not_released_of_alive (h.sound.tasks c t hc) halive r hr
    cases hkey with
    | same => exact h.vacant hold
    | @claimed c f t s k hc hprog _ hd =>
      have hopen := opening_of_claim (h.sound.tasks c t hc) hprog
      have halive : t.alive := ConnTask.alive_iff.mpr (by simp [hopen])
      cases hsteady.exec c f t s .claim k rfl hc hd hprog with
      | inr hsocket => cases hsocket
      | inl hf =>
        subst hf
        have ⟨t', hc', hme⟩ := step_conn hstep hc
        have ⟨w1, r, hperf, heq⟩ := exec_conn hstep hc hprog hc'
        cases hperf
        have ⟨r, hr⟩ := hall c t' hc' (hme ▸ hd) (by
          rw [heq, ConnTask.resume_trace]
          exact did_cons_self _ s .claim (some ()))
        rw [heq, ConnTask.resume_trace] at hr
        exact absurd (did_of_cons (by simp) hr)
          (not_released_of_alive (h.sound.tasks c t hc) halive r)
    | @refreshed c f t s k hc hprog _ hd _ =>
      have hok := h.sound.tasks c t hc
      have ⟨halive, hpub⟩ := refresh_of_ok hok hprog
      exact absurd (claimed_of_published hok hpub) (hno hc hd halive)
    | released _ _ _ _ => rfl
    | deleted _ => rfl
    | expired => rfl
  . simp only [not_forall, not_exists] at hold
    obtain ⟨c, t, hc, hd, hclaim, hrel⟩ := hold
    have ⟨t', hc', hme⟩ := step_conn hstep hc
    have ⟨r, hr⟩ := hall c t' hc' (hme ▸ hd) (hclaim.of_suffix (trace_step hstep hc hc'))
    rcases did_of_step hstep hc hc' hr with hold | ⟨f, s, k, w1, rfl, hprog, hperf, hw'⟩
    . exact absurd hold (hrel r)
    . cases hsteady.exec c f t s .release k rfl hc hd hprog with
      | inr hsocket => cases hsocket
      | inl hf =>
        subst hf
        have hheld := h.held c t hc hd hclaim hrel
        cases hperf
        rw [hw']
        change (Presence.release w.presence t.me.deviceId t.me.inst).1 d = none
        unfold Presence.release
        rw [hd, if_pos hheld]
        exact Function.update_self ..

theorem SideOk.removed_step (h : SideOk env pairId d peer w) (hsteady : Steady pairId d peer w l)
    (hstep : w.step env l = some w') (htodo : w'.Todo (.delPresence d))
    : (pairId, d) ∉ Pairs.activePeers w'.db peer := by
  rcases htodo.of_step hstep with hold | ⟨req, rfl, hmem⟩
  . exact absurd hsteady.kept (h.removed hold)
  . cases hstep
    intro hpair
    have hgone := gone_of_delPresence hmem
    have hsome := Pairs.registered_of_mem_activePeers hpair
    change ((req.handle env.crypto w.db w.nowMs).db.devices.find? d).isSome at hsome
    rw [hgone] at hsome
    cases hsome

theorem SideOk.step (h : SideOk env pairId d peer w)
    (hanswers : ∀ c b, w.answers c = some b → b = true) (hsteady : Steady pairId d peer w l)
    (hstep : w.step env l = some w') : SideOk env pairId d peer w' where
  sound := h.sound.step hstep
  announcing := h.announcing.step h.sound.tasks hstep
  alone _ _ _ _ hc hc' hd hd' hne := h.alone_step hsteady hstep hc hc' hd hd' hne
  fine _ _ hc hd := h.fine_step hanswers hsteady hstep hc hd
  claimed _ _ hc hd _ hmem he := h.claimed_step hstep hc hd hmem he
  registered _ _ hc hd hno := h.registered_step hsteady hstep hc hd hno
  held _ _ hc hd hclaim hrel := h.held_step hsteady hstep hc hd hclaim hrel
  vacant hall := h.vacant_step hsteady hstep hall
  removed htodo := h.removed_step hsteady hstep htodo

theorem sideOk_init (env : Env) (pairId d peer : Uuid) (db : Db)
    : SideOk env pairId d peer (init db) where
  sound := sound_init env db
  announcing := StageRule.tasksKept_init _ db
  alone c _ t _ hc := by cases hc
  fine c t hc := by cases hc
  claimed c t hc := by cases hc
  registered c t hc := by cases hc
  held c t hc := by cases hc
  vacant _ := rfl
  removed htodo := by
    have ⟨_, hmem, _⟩ := htodo
    cases hmem

end Side

end World
end HandLiveRelay
