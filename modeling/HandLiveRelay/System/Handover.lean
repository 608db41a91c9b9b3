import HandLiveRelay.Routes.Permanence
import HandLiveRelay.System.Takeover

/-!
This module contains what becomes of the presence of a device when an older connection of it is
cleaned up while a newer one opens. The cleanup looks twice whether the device is still its own: in
the registry of its instance, and in Redis when it deletes the key of its instance. Between the two
looks a newer connection on the same instance may have come.
-/

namespace HandLiveRelay

open Fiber Wire

theorem startsWith_presenceMessage (pairId peer : Uuid) (b : Bool)
    : Text.startsWith "\x7b\"on" (presenceMessage pairId peer b) = true := by
  unfold presenceMessage
  simp only [String.append_assoc]
  rw [Text.startsWith_append _ (by decide)]
  decide

theorem presenceMessage_ne_rvJoinedMessage (pairId peer : Uuid) (b : Bool) (rvId : String)
    (present : Bool) : presenceMessage pairId peer b ≠ rvJoinedMessage rvId present := by
  intro heq
  have h := startsWith_presenceMessage pairId peer b
  unfold rvJoinedMessage at heq
  simp only [heq, String.append_assoc] at h
  rw [Text.startsWith_append _ (by decide)] at h
  exact absurd h (by decide)

theorem presenceMessage_ne_rvMsgMessage (pairId peer : Uuid) (b : Bool) (rvId text : String)
    : presenceMessage pairId peer b ≠ rvMsgMessage rvId text := by
  intro heq
  have h := startsWith_presenceMessage pairId peer b
  unfold rvMsgMessage at heq
  simp only [heq, String.append_assoc] at h
  rw [Text.startsWith_append _ (by decide)] at h
  exact absurd h (by decide)

namespace ConnTask

/--
The operation a connection is waiting for.
-/
def next? (t : ConnTask) : Option Op :=
  match t.prog with
  | .wait _ o _ => some o
  | .done _ _ => none

/--
Nothing is left to be done but to close the socket.
-/
def closing (t : ConnTask) : Bool :=
  match t.next? with
  | none => true
  | some (.closeSocket _) => true
  | some _ => false

/--
The cleanup found the connection in the registry.
-/
def unregistered (t : ConnTask) : Bool :=
  t.trace.any fun
    | ⟨_, .unregister, r⟩ => r
    | _ => false

/--
The cleanup has asked Redis to drop presence.
-/
def released (t : ConnTask) : Bool :=
  t.trace.any fun
    | ⟨_, .release, _⟩ => true
    | _ => false

/--
The cleanup has deleted the presence of the device.
-/
def deleted (t : ConnTask) : Bool :=
  t.trace.any fun
    | ⟨_, .release, r⟩ => r = some true
    | _ => false

/--
The connection leaves the presence of its device to one that claims it on the instance `i` now. It
is not about to claim it as well, not about to tell the peers that the device is gone, and on the
same instance its cleanup is not between the registry and Redis.
-/
def yields (t : ConnTask) (i : InstanceId) : Bool :=
  (t.stage ≠ .opening || t.idle) && (!t.deleted || t.closing)
    && (t.me.inst ≠ i || !t.unregistered || t.released)

theorem next?_eq_some {t : ConnTask} {o : Op}
    : t.next? = some o ↔ ∃ s k, t.prog = .wait s o k := by
  unfold next?
  cases t.prog with
  | done s n => simp
  | wait s o' k =>
    simp only [Option.some.injEq]
    constructor
    . rintro rfl
      exact ⟨s, k, rfl⟩
    . rintro ⟨_, _, heq⟩
      cases heq
      rfl

theorem unregistered_iff {t : ConnTask} : t.unregistered ↔ Did t.trace .unregister true := by
  simp only [unregistered, List.any_eq_true, Did]
  constructor
  . rintro ⟨p, hp, hres⟩
    split at hres
    . exact ⟨_, hres ▸ hp⟩
    . cases hres
  . rintro ⟨s, hs⟩
    exact ⟨_, hs, rfl⟩

theorem released_iff {t : ConnTask} : t.released ↔ ∃ r, Did t.trace .release r := by
  simp only [released, List.any_eq_true, Did]
  constructor
  . rintro ⟨p, hp, hres⟩
    split at hres
    . exact ⟨_, _, hp⟩
    . cases hres
  . rintro ⟨r, s, hs⟩
    exact ⟨_, hs, rfl⟩

theorem deleted_iff {t : ConnTask} : t.deleted ↔ Did t.trace .release (some true) := by
  simp only [deleted, List.any_eq_true, Did]
  constructor
  . rintro ⟨p, hp, hres⟩
    split at hres
    . rw [decide_eq_true_eq] at hres
      exact ⟨_, hres ▸ hp⟩
    . cases hres
  . rintro ⟨s, hs⟩
    exact ⟨_, hs, rfl⟩

end ConnTask

namespace World

variable {env : Env} {w w' : World}

/-!
The presence key of a device.
-/

/--
What an operation does to the presence keys.
-/
inductive PresenceEffect (w : World) (me : Ident) (f : Fault) : (o : Op) → World → o.Res → Prop where
  | other {o r} {w1 : World} (ho : o ≠ .release) (h : w1.presence = w.presence)
      : PresenceEffect w me f o w1 r
  | claim {r} {w1 : World} (hf : f ≠ .fail)
      (h : w1.presence = Presence.claim w.presence me.deviceId me.inst)
      : PresenceEffect w me f .claim w1 r
  | refresh {r} {w1 : World} (hf : f ≠ .fail)
      (h : w1.presence = (Presence.refresh w.presence me.deviceId me.inst).1)
      : PresenceEffect w me f .refresh w1 r
  | release {r} {w1 : World}
      (h : w1.presence = (Presence.release w.presence me.deviceId me.inst).1)
      (hr : r = none ∨ r = some (Presence.release w.presence me.deviceId me.inst).2)
      : PresenceEffect w me f .release w1 r
  | unreleased {w1 : World} (h : w1.presence = w.presence) : PresenceEffect w me f .release w1 none

theorem perform_presence {me : Ident} {o : Op} {f : Fault} {r : o.Res}
    (h : w.perform env me o f = some (w', r)) : PresenceEffect w me f o w' r := by
  cases o with
  | claim =>
    cases f with
    | ok =>
      cases h
      exact .claim (by simp) rfl
    | fail =>
      cases h
      exact .other (by simp) rfl
    | lost =>
      cases h
      exact .claim (by simp) rfl
  | refresh =>
    cases f with
    | ok =>
      cases h
      exact .refresh (by simp) rfl
    | fail =>
      cases h
      exact .other (by simp) rfl
    | lost =>
      cases h
      exact .refresh (by simp) rfl
  | release =>
    cases f with
    | ok =>
      cases h
      exact .release rfl (.inr rfl)
    | fail =>
      cases h
      exact .unreleased rfl
    | lost =>
      cases h
      exact .release rfl (.inl rfl)
  | subscribed => exact perform_subscribed h ▸ .other (by simp) rfl
  | unregister =>
    rcases perform_unregister h with ⟨_, _, rfl⟩ | ⟨_, _, rfl⟩
    . exact .other (by simp) rfl
    . exact .other (by simp) rfl
  | _ => cases f <;> cases h <;> exact .other (by simp) rfl

/--
What a step makes of the presence key of a device.
-/
inductive PresenceStep (w : World) (d : Uuid) : Label → Option InstanceId → Prop where
  | same {l} : PresenceStep w d l (w.presence d)
  | claimed {c f t s k} (hc : w.conns c = some t) (hprog : t.prog = .wait s .claim k)
      (hf : f ≠ .fail) (hd : t.me.deviceId = d) : PresenceStep w d (.exec c f) (some t.me.inst)
  | refreshed {c f t s k} (hc : w.conns c = some t) (hprog : t.prog = .wait s .refresh k)
      (hf : f ≠ .fail) (hd : t.me.deviceId = d) (hfree : w.presence d = none ∨ w.presence d = some t.me.inst)
      : PresenceStep w d (.exec c f) (some t.me.inst)
  | released {c f t s k} (hc : w.conns c = some t) (hprog : t.prog = .wait s .release k)
      (hd : t.me.deviceId = d) (hheld : w.presence d = some t.me.inst)
      : PresenceStep w d (.exec c f) none
  | deleted {k f actions} (hjob : w.jobs[k]? = some (.delPresence d :: actions))
      : PresenceStep w d (.job k f) none
  | expired : PresenceStep w d (.expirePresence d) none

theorem PresenceStep.of_eq {l : Label} {d : Uuid} {key : Option InstanceId}
    (h : key = w.presence d) : PresenceStep w d l key :=
  h ▸ .same

theorem exec_presence {c : Uuid} {f : Fault} {t : ConnTask} {s : Conn} {o : Op}
    {k : o.Res → Prog Conn Op Op.Res Next} {w1 : World} {r : o.Res} (hc : w.conns c = some t)
    (hprog : t.prog = .wait s o k) (hperf : w.perform env t.me o f = some (w1, r)) (d : Uuid)
    : PresenceStep w d (.exec c f) (w1.presence d) := by
  cases perform_presence hperf with
  | other _ h => exact .of_eq (by rw [h])
  | unreleased h => exact .of_eq (by rw [h])
  | claim hf h =>
    rw [h]
    unfold Presence.claim
    by_cases hd : d = t.me.deviceId
    . subst hd
      rw [Function.update_self]
      exact .claimed hc hprog hf rfl
    . rw [Function.update_of_ne hd]
      exact .same
  | refresh hf h =>
    rw [h]
    unfold Presence.refresh
    split
    next hfree =>
      by_cases hd : d = t.me.deviceId
      . subst hd
        dsimp only
        rw [Function.update_self]
        exact .refreshed hc hprog hf rfl hfree
      . dsimp only
        rw [Function.update_of_ne hd]
        exact .same
    . exact .same
  | release h _ =>
    rw [h]
    unfold Presence.release
    split
    next hheld =>
      by_cases hd : d = t.me.deviceId
      . subst hd
        dsimp only
        rw [Function.update_self]
        exact .released hc hprog rfl hheld
      . dsimp only
        rw [Function.update_of_ne hd]
        exact .same
    . exact .same

theorem job_presence {k : Nat} {f : Fault} {a : Action} {actions : List Action}
    (hjob : w.jobs[k]? = some (a :: actions)) (d : Uuid)
    : PresenceStep w d (.job k f) ((act env { w with jobs := w.jobs.set k actions } f a).presence d) := by
  cases a with
  | addRevokedNotice peer st => cases f <;> exact .same
  | notify dest msg => cases f <;> exact .same
  | delPresence d' =>
    by_cases hd : d = d'
    . subst hd
      cases f with
      | fail => exact .same
      | ok =>
        simp only [act, Fault.command, Function.update_self]
        exact .deleted hjob
      | lost =>
        simp only [act, Fault.command, Function.update_self]
        exact .deleted hjob
    . refine .of_eq ?_
      cases f <;> simp [act, Fault.command, Function.update_of_ne hd]

theorem step_presence {l : Label} (h : w.step env l = some w') (d : Uuid)
    : PresenceStep w d l (w'.presence d) := by
  cases step_view h with
  | connect _ _ hw' =>
    subst hw'
    exact .same
  | exec hc hprog hperf hw' =>
    subst hw'
    exact exec_presence hc hprog hperf d
  | event _ _ _ hw' =>
    subst hw'
    exact .same
  | bus _ hframe => exact .of_eq (by rw [hframe.presence])
  | job hjob hw' =>
    subst hw'
    exact job_presence hjob d
  | store hl hframe =>
    cases l <;> try contradiction
    case http req =>
      cases h
      exact .same
    case tick nowMs secs =>
      unfold step at h
      dsimp only at h
      split at h
      . cases h
        exact .same
      . cases h
    case expirePresence d' =>
      cases h
      dsimp only
      by_cases hd : d = d'
      . subst hd
        rw [Function.update_self]
        exact .expired
      . rw [Function.update_of_ne hd]
        exact .same
    case expireNotices d' =>
      cases h
      exact .same
    case expireRv rvId =>
      cases h
      exact .same

/--
Only the holder of the key is told that it was deleted.
-/
theorem held_of_released {me : Ident} {f : Fault} {w1 : World}
    (h : w.perform env me .release f = some (w1, some true))
    : w.presence me.deviceId = some me.inst := by
  cases perform_presence h with
  | other ho _ => exact absurd rfl ho
  | release _ hr =>
    simp only [reduceCtorEq, Option.some.injEq, false_or] at hr
    unfold Presence.release at hr
    split at hr
    next hheld => exact hheld
    . cases hr

/-!
Which connections are newer than others.
-/

theorem eq_of_mem_dropWhile {l : List Uuid} (h : l.Nodup) {a b : Uuid}
    (ha : a ∈ l.dropWhile (· ≠ b)) (hb : b ∈ l.dropWhile (· ≠ a)) : a = b := by
  induction l with
  | nil => cases ha
  | cons c l ih =>
    rw [List.nodup_cons] at h
    rw [List.dropWhile_cons] at ha hb
    have hmem : ∀ {x : Uuid} {p : Uuid → Bool}, x ∈ l.dropWhile p → x ∈ l :=
      fun hx => (List.dropWhile_sublist _).subset hx
    by_cases hca : c = a
    . by_cases hcb : c = b
      . exact hca.symm.trans hcb
      . simp only [hcb, ne_eq, not_false_eq_true, decide_true, if_true] at ha
        exact absurd (hca ▸ hmem ha) h.1
    . simp only [hca, ne_eq, not_false_eq_true, decide_true, if_true] at hb
      by_cases hcb : c = b
      . exact absurd (hcb ▸ hmem hb) h.1
      . simp only [hcb, ne_eq, not_false_eq_true, decide_true, if_true] at ha
        exact ih h.2 ha hb

/--
No connection of the device was registered after `c`.
-/
def Newest (w : World) (d c : Uuid) : Prop :=
  ∀ c' ∈ w.connects, ∀ t ∈ w.conns c', t.me.deviceId = d → c' ∈ w.connects.dropWhile (· ≠ c)

instance (w : World) (d c : Uuid) : Decidable (w.Newest d c) :=
  inferInstanceAs (Decidable (∀ c' ∈ w.connects, ∀ t ∈ w.conns c', t.me.deviceId = d
    → c' ∈ w.connects.dropWhile (· ≠ c)))

/--
An instance has the newest of its connections of a device registered, if it has one registered at
all.
-/
def CurrentNewest (w : World) : Prop :=
  ∀ i d c, (w.insts i).current d = some c → ∀ c' t, w.conns c' = some t → t.me.deviceId = d
    → t.me.inst = i → c' ∈ w.connects.dropWhile (· ≠ c)

theorem CurrentNewest.step {l : Label} (h : CurrentNewest w) (hsound : Sound env w)
    (hstep : w.step env l = some w') : CurrentNewest w' := by
  intro i d c hcur c' t' hc' hd hi
  have hwf' := (hsound.step hstep).wellFormed
  -- what was registered before this step keeps its order
  have hold : (w.conns c).isSome → (w.conns c').isSome → c' ∈ w.connects.dropWhile (· ≠ c) := by
    intro hc hc1
    have ⟨t, ht⟩ := Option.isSome_iff_exists.mp hc1
    have ⟨t1, ht1, hme⟩ := step_conn hstep ht
    rw [hc'] at ht1
    cases ht1
    have hcur := current_of_step hstep (Option.isSome_iff_ne_none.mp hc) hcur
    exact h i d c hcur c' t ht (hme ▸ hd) (hme ▸ hi)
  have hex : (w'.conns c).isSome := by
    have ⟨t1, ht1, _⟩ := hwf'.current i d c hcur
    exact Option.isSome_iff_exists.mpr ⟨t1, ht1⟩
  have hex' : (w'.conns c').isSome := Option.isSome_iff_exists.mpr ⟨t', hc'⟩
  rw [isSome_conns_step hstep] at hex hex'
  cases step_connects hstep with
  | inl hsame =>
    rw [hsame.1]
    have hne : ∀ c0, ¬ ∃ i d, l = .connect i c0 d := fun c0 ⟨i, d, hl⟩ => hsame.2 i c0 d hl
    exact hold (hex.resolve_right (hne c)) (hex'.resolve_right (hne c'))
  | inr hconnects =>
    have ⟨i0, c0, d0, hl, heq⟩ := hconnects
    subst hl
    by_cases hc0 : c = c0
    . subst hc0
      rw [heq, List.dropWhile_cons]
      simp only [ne_eq, not_true_eq_false, decide_false, Bool.false_eq_true, if_false]
      rw [← heq, hwf'.connects, hc']
      rfl
    . rw [heq, List.dropWhile_cons]
      simp only [ne_eq, Ne.symm hc0, not_false_eq_true, decide_true, if_true]
      have hsome : (w.conns c).isSome := by
        refine hex.resolve_right ?_
        rintro ⟨_, _, heq⟩
        cases heq
        exact hc0 rfl
      refine hold hsome (hex'.resolve_right ?_)
      -- the connection that was registered in this step is the current one
      rintro ⟨_, _, heq⟩
      cases heq
      have ⟨_, _, hw'⟩ := connect_eq_some.mp hstep
      subst hw'
      have ht' : t' = .new ⟨d0, c', i0⟩ ((w.insts i0).current d0) := by
        dsimp only at hc'
        rw [setConn_self] at hc'
        exact (Option.some.inj hc').symm
      subst ht'
      rw [ConnTask.new_me] at hd hi
      subst hd hi
      change ((w.modifyInst i0 (·.register d0 c')).insts i0).current d0 = some c at hcur
      rw [modifyInst_self, Instance.current_register_self] at hcur
      exact hc0 (Option.some.inj hcur).symm

theorem currentNewest_run {db : Db} {ls : List Label} (h : run env (init db) ls = some w)
    : CurrentNewest w := by
  have hboth := Lts.run_stable (P := fun w => Sound env w ∧ CurrentNewest w)
    (fun _ _ _ hok hstep => ⟨hok.1.step hstep, hok.2.step hok.1 hstep⟩)
    ⟨sound_init env db, by intro i d c hc; cases hc⟩ h
  exact hboth.2

/-!
The newer connection holds the presence of the device.
-/

/--
Nothing but connections that are already there changes the presence of the device: no new one
comes, the key does not expire and no request deletes it.
-/
def Undisturbed (d : Uuid) (w : World) : Label → Prop
  | .connect _ _ d' => d' ≠ d
  | .expirePresence d' => d' ≠ d
  | .job k _ => (w.jobs[k]?).bind List.head? ≠ some (.delPresence d)
  | _ => True

instance (d : Uuid) (w : World) : ∀ l, Decidable (Undisturbed d w l)
  | .connect _ _ d' => inferInstanceAs (Decidable (d' ≠ d))
  | .expirePresence d' => inferInstanceAs (Decidable (d' ≠ d))
  | .job k _ => inferInstanceAs (Decidable ((w.jobs[k]?).bind List.head? ≠ some (.delPresence d)))
  | .exec _ _ | .event _ _ | .busRequest _ _ | .busUnsubscribe _ _ | .busMessage _ | .lose _ _
  | .busLost _ | .reconnect _ _ | .resubscribe _ _ | .resync _ | .http _ | .tick _ _
  | .expireNotices _ | .expireRv _ => isTrue trivial

/--
An older connection that leaves the presence of the device to the newer one `me`.
-/
structure Yielding (w : World) (me : Ident) (c : Uuid) (t : ConnTask) : Prop where
  opened : t.stage = .opening → t.idle
  silent : Did t.trace .release (some true) → t.closing
  current : t.me.inst = me.inst → (w.insts me.inst).current me.deviceId ≠ some c
  released : t.me.inst = me.inst → Did t.trace .unregister true → ∃ r, Did t.trace .release r

/--
The newer connection holds the presence of the device, and the older ones leave it alone.
-/
structure HandoverOk (env : Env) (me : Ident) (w : World) : Prop where
  sound : Sound env w
  newer : w.Exists me
  held : w.presence me.deviceId = some me.inst
  older : ∀ c t, w.conns c = some t → c ≠ me.connId → t.me.deviceId = me.deviceId
    → Yielding w me c t

theorem Yielding.not_opening {me : Ident} {c : Uuid} {t : ConnTask} (h : Yielding w me c t)
    {s : Conn} {o : Op} {k : o.Res → Prog Conn Op Op.Res Next} (hprog : t.prog = .wait s o k)
    : t.stage ≠ .opening := by
  intro hstage
  have hidle := h.opened hstage
  simp [ConnTask.idle, hprog] at hidle

theorem opening_of_claim {t : ConnTask} (h : t.Ok env) {s : Conn}
    {k : Option Unit → Prog Conn Op Op.Res Next} (hprog : t.prog = .wait s .claim k)
    : t.stage = .opening := by
  have ⟨mark, hat⟩ := h
  have hp := (hat.obeys hprog).2
  generalize t.stage = stage at hp ⊢
  cases hp with
  | claim _ => rfl

/--
Presence is dropped by the cleanup, once, after the connection was found in the registry.
-/
theorem release_of_ok {t : ConnTask} (h : t.Ok env) {s : Conn}
    {k : Option Bool → Prog Conn Op Op.Res Next} (hprog : t.prog = .wait s .release k)
    : t.alive = false ∧ Did t.trace .unregister true ∧ ∀ r, ¬ Did t.trace .release r := by
  have ⟨mark, hat⟩ := h
  have hp := (hat.obeys hprog).2
  unfold ConnTask.alive
  generalize t.stage = stage at hp ⊢
  cases hp with
  | release hun hfirst => exact ⟨rfl, hun, hfirst⟩

/--
After it has closed the socket the cleanup does nothing else.
-/
theorem closing_of_closed {t : ConnTask} (h : t.Ok env) {r : Option Bool}
    (hrel : Did t.trace .release r) {code : UInt16} (hclose : Did t.trace (.closeSocket code) ())
    : t.closing := by
  have ⟨mark, hat⟩ := h
  have ⟨stage, s0, rest, hsuffix, hp0⟩ := hat.permitted.did hrel
  have hun : Did t.trace .unregister true := by
    cases hp0 with
    | release hun _ => exact hun.of_suffix ((List.suffix_cons _ _).trans hsuffix)
  unfold ConnTask.closing ConnTask.next?
  cases hprog : t.prog with
  | done s n => rfl
  | wait s o k =>
    have hp := (hat.obeys hprog).2
    have hfin : ∃ e, t.stage = .finishing e := by
      by_contra hne
      have hleft := hat.notLeft fun e he => hne ⟨e, he⟩
      have ⟨s1, hs1⟩ := hrel
      exact (hleft _ hs1).2.1 rfl
    have ⟨e, hfin⟩ := hfin
    rw [hfin] at hp
    cases hp with
    | activePeers hne => exact absurd rfl (hne e)
    | online hne => exact absurd rfl (hne e)
    | now hne => exact absurd rfl (hne e)
    | presenceText hne => exact absurd rfl (hne e)
    | unregister hfirst => exact absurd hun (hfirst true)
    | unsubscribe _ hfirst => exact absurd hrel (hfirst r)
    | release _ hfirst => exact absurd hrel (hfirst r)
    | goOffline _ _ hopen => exact absurd hclose (hopen code)
    | closeSocket => rfl

theorem not_alive_step {l : Label} {c : Uuid} {t t' : ConnTask} (hsound : Sound env w)
    (hstep : w.step env l = some w') (hc : w.conns c = some t) (hc' : w'.conns c = some t')
    (halive : t'.alive) : t.alive := by
  have htask := step_task hstep c
  rw [hc'] at htask
  generalize hu : some t' = u at htask
  cases htask with
  | same _ =>
    rw [hc] at hu
    cases hu
    exact halive
  | connected hnone =>
    rw [hc] at hnone
    cases hnone
  | @resumed f t1 s o k w1 r hc1 _ _ =>
    rw [hc] at hc1
    cases hc1
    cases hu
    cases ConnTask.resume_stage t s o k r with
    | inl hstage =>
      unfold ConnTask.alive at halive ⊢
      rwa [hstage] at halive
    | inr hfin =>
      have ⟨e, hfin⟩ := hfin
      simp [ConnTask.alive, hfin] at halive
  | handled hc1 hprog _ =>
    rw [hc] at hc1
    cases hc1
    exact (not_replaced_of_serving (hsound.tasks c t hc) hprog).1

/--
An older connection has no part of the key of the newer one to drop.
-/
theorem HandoverOk.not_release {me : Ident} (h : HandoverOk env me w) {c : Uuid} {t : ConnTask}
    (hc : w.conns c = some t) (hne : c ≠ me.connId) (hd : t.me.deviceId = me.deviceId) {s : Conn}
    {k : Option Bool → Prog Conn Op Op.Res Next} (hprog : t.prog = .wait s .release k)
    : w.presence me.deviceId ≠ some t.me.inst := by
  rw [h.held]
  intro heq
  have hinst := (Option.some.inj heq).symm
  have ⟨_, hun, hfirst⟩ := release_of_ok (h.sound.tasks c t hc) hprog
  have ⟨r, hr⟩ := (h.older c t hc hne hd).released hinst hun
  exact hfirst r hr

theorem HandoverOk.held_step {me : Ident} {l : Label} (h : HandoverOk env me w)
    (hl : Undisturbed me.deviceId w l) (hstep : w.step env l = some w')
    (halive : ∀ t, w.conns me.connId = some t → t.alive)
    : w'.presence me.deviceId = some me.inst := by
  have hme : ∀ t, w.conns me.connId = some t → t.me = me := by
    intro t ht
    have ⟨t1, ht1, hme⟩ := h.newer
    rw [ht] at ht1
    cases ht1
    exact hme
  have hpresence := step_presence hstep me.deviceId
  generalize w'.presence me.deviceId = key at hpresence ⊢
  cases hpresence with
  | same => exact h.held
  | @claimed c f t s k hc hprog _ hd =>
    by_cases hne : c = me.connId
    . subst hne
      rw [hme t hc]
    . exact absurd (opening_of_claim (h.sound.tasks c t hc) hprog)
        ((h.older c t hc hne hd).not_opening hprog)
  | @refreshed c f t s k hc hprog _ hd hfree =>
    rw [h.held] at hfree
    exact (hfree.resolve_left (by simp)).symm
  | @released c f t s k hc hprog hd hheld =>
    by_cases hne : c = me.connId
    . subst hne
      have ⟨hdead, _⟩ := release_of_ok (h.sound.tasks _ t hc) hprog
      rw [halive t hc] at hdead
      cases hdead
    . exact absurd hheld (h.not_release hc hne hd hprog)
  | deleted hjob =>
    simp only [Undisturbed, hjob, Option.bind_some, List.head?_cons] at hl
    exact absurd rfl hl
  | expired => exact absurd rfl hl

theorem HandoverOk.older_step {me : Ident} {l : Label} (h : HandoverOk env me w)
    (hl : Undisturbed me.deviceId w l) (hstep : w.step env l = some w') {c : Uuid} {t' : ConnTask}
    (hc' : w'.conns c = some t') (hne : c ≠ me.connId) (hd : t'.me.deviceId = me.deviceId)
    : Yielding w' me c t' := by
  have hok' := (h.sound.step hstep).tasks c t' hc'
  have htask := step_task hstep c
  rw [hc'] at htask
  generalize hu : some t' = u at htask
  cases htask with
  | same _ =>
    have hold := h.older c t' hu.symm hne hd
    refine ⟨hold.opened, hold.silent, ?_, hold.released⟩
    intro hinst hcur
    exact hold.current hinst (current_of_step hstep (by simp [← hu]) hcur)
  | connected _ =>
    cases hu
    rw [ConnTask.new_me] at hd
    exact absurd hd hl
  | @handled e t s hc hprog _ =>
    cases hu
    rw [ConnTask.handle_me] at hd
    have hold := h.older c t hc hne hd
    have ⟨mark, hat⟩ := h.sound.tasks c t hc
    have hleft := hat.notLeft (hat.post hprog).2.2.2
    refine ⟨fun hopening => absurd hopening (handle_stage_ne_opening _ _ _ _), ?_, ?_, ?_⟩
    . rw [ConnTask.handle_trace]
      intro ⟨s1, hs1⟩
      exact absurd rfl (hleft _ hs1).2.1
    . rw [ConnTask.handle_me]
      intro hinst hcur
      exact hold.current hinst (current_of_step hstep (by simp [hc]) hcur)
    . rw [ConnTask.handle_me, ConnTask.handle_trace]
      exact hold.released
  | @resumed f t s o k w1 r hc hprog hperf =>
    cases hu
    rw [ConnTask.resume_me] at hd
    have hold := h.older c t hc hne hd
    refine ⟨?_, ?_, ?_, ?_⟩
    . intro hopening
      cases ConnTask.resume_stage t s o k r with
      | inl hstage => exact absurd (hstage ▸ hopening) (hold.not_opening hprog)
      | inr hfin =>
        have ⟨e, hfin⟩ := hfin
        rw [hfin] at hopening
        cases hopening
    . intro hdel
      have hdel' := hdel
      rw [ConnTask.resume_trace] at hdel
      have ⟨s1, hs1⟩ := hdel
      cases List.mem_cons.mp hs1 with
      | inl heq =>
        cases heq
        exact absurd (hd ▸ held_of_released hperf) (h.not_release hc hne hd hprog)
      | inr hs1 =>
        -- it was about to close the socket, and that is what it did
        have hclosing := hold.silent ⟨s1, hs1⟩
        simp only [ConnTask.closing, ConnTask.next?, hprog] at hclosing
        split at hclosing
        next hnone => cases hnone
        next code hsome =>
          cases hsome
          apply closing_of_closed hok' hdel'
          rw [ConnTask.resume_trace]
          exact did_cons_self _ _ _ _
        . cases hclosing
    . rw [ConnTask.resume_me]
      intro hinst hcur
      exact hold.current hinst (current_of_step hstep (by simp [hc]) hcur)
    . rw [ConnTask.resume_me, ConnTask.resume_trace]
      intro hinst hun
      have ⟨s1, hs1⟩ := hun
      cases List.mem_cons.mp hs1 with
      | inl heq =>
        cases heq
        cases perform_hub hperf with
        | other ho _ _ => cases ho
        | unregister hcur =>
          rw [hinst, hd, h.sound.wellFormed.ident c t hc] at hcur
          exact absurd hcur (hold.current hinst)
      | inr hs1 =>
        have ⟨r1, hr1⟩ := hold.released hinst ⟨s1, hs1⟩
        exact ⟨r1, hr1.cons _⟩

/--
While the newer connection is open it holds the presence of the device.
-/
theorem handoverOk_run {me : Ident} {ls : List Label} (h : HandoverOk env me w)
    (hrun : run env w ls = some w')
    (hls : Lts.Meets (World.step env) (Undisturbed me.deviceId) w ls)
    (halive : ∀ t, w'.conns me.connId = some t → t.alive) : HandoverOk env me w' := by
  have hinv : Sound env w' ∧ w'.Exists me
      ∧ ((∀ t, w'.conns me.connId = some t → t.alive) → HandoverOk env me w') := by
    refine Lts.run_invariant (P := fun w => Sound env w ∧ w.Exists me
      ∧ ((∀ t, w.conns me.connId = some t → t.alive) → HandoverOk env me w)) ?_
      ⟨h.sound, h.newer, fun _ => h⟩ hls hrun
    intro w1 l w2 ⟨hsound, hex, hok⟩ hl hstep
    refine ⟨hsound.step hstep, hex.step hstep, ?_⟩
    intro halive2
    have halive1 : ∀ t, w1.conns me.connId = some t → t.alive := by
      intro t ht
      have ⟨t', ht', _⟩ := step_conn hstep ht
      exact not_alive_step hsound hstep ht ht' (halive2 t' ht')
    have hok := hok halive1
    exact ⟨hsound.step hstep, hex.step hstep, hok.held_step hl hstep halive1,
      fun c t hc hne hd => hok.older_step hl hstep hc hne hd⟩
  exact hinv.2.2 halive

/--
The older connections leave presence to the newest one if they do so when it claims it.
-/
theorem handoverOk_claim {c : Uuid} {t : ConnTask} {s : Conn}
    {k : Option Unit → Prog Conn Op Op.Res Next} (hsound : Sound env w) (hcur : CurrentNewest w)
    (hc : w.conns c = some t) (hprog : t.prog = .wait s .claim k)
    (hnewest : w.Newest t.me.deviceId c)
    (hyields : ∀ c1 t1, w.conns c1 = some t1 → c1 ≠ c → t1.me.deviceId = t.me.deviceId
      → t1.yields t.me.inst)
    (hstep : w.step env (.exec c .ok) = some w') : HandoverOk env t.me w' := by
  have hid := hsound.wellFormed.ident c t hc
  obtain ⟨t0, s0, o0, k0, w1, r, hc0, hprog0, hperf, hw'⟩ := exec_eq_some.mp hstep
  rw [hc] at hc0
  cases hc0
  rw [hprog] at hprog0
  cases hprog0
  refine ⟨hsound.step hstep, Exists.step ⟨t, hid ▸ hc, rfl⟩ hstep, ?_, ?_⟩
  . subst hw'
    cases hperf
    simp [setConn, Presence.claim]
  . intro c1 t1 hc1 hne hd
    rw [hid] at hne
    have hold : w.conns c1 = some t1 := by
      rw [hw', setConn_ne _ _ hne, (perform_sameFrame hperf).conns] at hc1
      exact hc1
    have hy := hyields c1 t1 hold hne hd
    simp only [ConnTask.yields, Bool.and_eq_true, Bool.or_eq_true, decide_eq_true_eq,
      Bool.not_eq_true', ne_eq] at hy
    obtain ⟨⟨hopening, hsilent⟩, hlocal⟩ := hy
    refine ⟨fun hstage => hopening.resolve_left (by simp [hstage]), ?_, ?_, ?_⟩
    . intro hdel
      rw [← ConnTask.deleted_iff] at hdel
      exact hsilent.resolve_left (by simp [hdel])
    . intro hinst hcur1
      have hcur1 := current_of_step hstep (by simp [hold]) hcur1
      have hlater := hcur _ _ c1 hcur1 c t hc rfl rfl
      have hearlier := hnewest c1 (hsound.mem_connects hold) t1 hold hd
      exact hne (eq_of_mem_dropWhile hsound.wellFormed.nodup hearlier hlater)
    . intro hinst hun
      rw [← ConnTask.unregistered_iff] at hun
      rw [← ConnTask.released_iff]
      exact hlocal.resolve_left (by simp [hinst, hun])

/--
A connection that has opened tells the peers that the device is gone only in its cleanup, after it
has deleted the key.
-/
theorem deleted_of_offline {t : ConnTask} (h : t.Ok env) (hopen : t.stage ≠ .opening) {s : Conn}
    {peer pairId : Uuid} {k : Option Nat → Prog Conn Op Op.Res Next}
    (hprog : t.prog
      = .wait s (.publish peer (.control (presenceMessage pairId t.me.deviceId false))) k)
    : Did t.trace .release (some true) := by
  have ⟨mark, hat⟩ := h
  have hp := (hat.obeys hprog).2
  generalize hmsg : BusMessage.control (presenceMessage pairId t.me.deviceId false) = msg at hp
  generalize t.stage = stage at hp hopen
  cases hp with
  | replace _ _ => exact absurd rfl hopen
  | comeOnline _ => exact absurd rfl hopen
  | rvJoined =>
    injection hmsg with heq
    exact absurd heq (presenceMessage_ne_rvJoinedMessage _ _ _ _ _)
  | rvMsg =>
    injection hmsg with heq
    exact absurd heq (presenceMessage_ne_rvMsgMessage _ _ _ _ _)
  | forward hforward =>
    subst hmsg
    cases hforward
  | goOffline _ hrel _ => exact hrel

theorem HandoverOk.not_offline {me : Ident} (h : HandoverOk env me w) {c : Uuid} {t : ConnTask}
    (hc : w.conns c = some t) (hne : c ≠ me.connId) (hd : t.me.deviceId = me.deviceId)
    (pairId peer : Uuid)
    : t.next? ≠ some (.publish peer (.control (presenceMessage pairId me.deviceId false))) := by
  intro hnext
  have ⟨s, k, hprog⟩ := ConnTask.next?_eq_some.mp hnext
  have hold := h.older c t hc hne hd
  have hdel := deleted_of_offline (h.sound.tasks c t hc) (hold.not_opening hprog)
    (hd ▸ hprog)
  have hclosing := hold.silent hdel
  rw [ConnTask.closing, hnext] at hclosing
  cases hclosing

end World

/--
A newer connection keeps its presence. In any run the newest connection of a device claims
presence, at a time when every older one of the device yields it. While the newer connection is
open, and no further one comes, the key does not expire and no request deletes it, the key names
the instance of the newer connection, and no older connection tells a peer that the device is gone.
-/
theorem newer_connection_keeps_presence {env : Env} {db : Db} {ls ls' : List Label} {w w' : World}
    {c : Uuid} {t t' : ConnTask} (hrun : run env (World.init db) ls = some w)
    (hc : w.conns c = some t) (hclaim : t.next? = some .claim)
    (hnewest : w.Newest t.me.deviceId c)
    (hyields : ∀ c1 t1, w.conns c1 = some t1 → c1 ≠ c → t1.me.deviceId = t.me.deviceId
      → t1.yields t.me.inst)
    (hrun' : run env w (.exec c .ok :: ls') = some w')
    (hls : Lts.Meets (World.step env) (World.Undisturbed t.me.deviceId) w (.exec c .ok :: ls'))
    (hc' : w'.conns c = some t') (hopen : t'.alive)
    : w'.presence t.me.deviceId = some t.me.inst
      ∧ ∀ c1 t1, w'.conns c1 = some t1 → c1 ≠ c → t1.me.deviceId = t.me.deviceId
        → ∀ pairId peer, t1.next?
          ≠ some (.publish peer (.control (presenceMessage pairId t.me.deviceId false))) := by
  have hsound := World.sound_run hrun
  have hid := hsound.wellFormed.ident c t hc
  have ⟨s, k, hprog⟩ := ConnTask.next?_eq_some.mp hclaim
  have ⟨w1, hstep, hrun1⟩ := (Lts.run_cons_eq_some _).mp hrun'
  have hok := World.handoverOk_claim hsound (World.currentNewest_run hrun) hc hprog hnewest hyields
    hstep
  have halive : ∀ t2, w'.conns t.me.connId = some t2 → t2.alive := by
    intro t2 ht2
    rw [hid, hc'] at ht2
    cases ht2
    exact hopen
  have hok' := World.handoverOk_run hok hrun1 (hls.2 w1 hstep) halive
  refine ⟨hok'.held, ?_⟩
  intro c1 t1 hc1 hne hd pairId peer
  exact hok'.not_offline hc1 (hid.symm ▸ hne) hd pairId peer

namespace Sample

/--
A device connects, and its connection is about to claim presence.
-/
def subscribes (i : InstanceId) (c d : Uuid) : List Label :=
  [.connect i c d, .exec c .ok, .busRequest i .ok, .exec c .ok]

/--
The connection on the first instance takes the message of the one on the second, and leaves.
-/
def leaves : List Label :=
  execs 8 (uuid 2) ++ replaced "a" (uuid 1) (uuid 1) ++ replaced "a" (uuid 1) (uuid 2)
    ++ execs 4 (uuid 1)

end Sample

theorem newer_connection_keeps_presence_on_a_move
    : ∃ w t w' t', run Sample.relay (World.init Sample.pairedDb)
          (Sample.opensPaired "a" (Sample.uuid 1) (Sample.device 1)
            ++ Sample.subscribes "b" (Sample.uuid 2) (Sample.device 1)) = some w
      ∧ w.conns (Sample.uuid 2) = some t ∧ t.me.deviceId = Sample.device 1
      ∧ run Sample.relay w (.exec (Sample.uuid 2) .ok :: Sample.leaves) = some w'
      ∧ (w'.conns (Sample.uuid 1)).any (·.ended)
      ∧ w'.conns (Sample.uuid 2) = some t' ∧ t'.alive
      ∧ w'.presence t.me.deviceId = some t.me.inst := by
  have hrun : (run Sample.relay (World.init Sample.pairedDb)
      (Sample.opensPaired "a" (Sample.uuid 1) (Sample.device 1)
        ++ Sample.subscribes "b" (Sample.uuid 2) (Sample.device 1))).any (fun w =>
      decide (w.connects = [Sample.uuid 2, Sample.uuid 1])
        && (w.conns (Sample.uuid 2)).any (fun t => decide (t.next? = some .claim)
          && decide (t.me.deviceId = Sample.device 1)
          && decide (w.Newest t.me.deviceId (Sample.uuid 2))
          && decide (∀ t1 ∈ w.conns (Sample.uuid 1), t1.yields t.me.inst)
          && decide (Lts.Meets (World.step Sample.relay) (World.Undisturbed t.me.deviceId) w
            (.exec (Sample.uuid 2) .ok :: Sample.leaves)))
        && (run Sample.relay w (.exec (Sample.uuid 2) .ok :: Sample.leaves)).any (fun w' =>
          (w'.conns (Sample.uuid 1)).any (·.ended)
            && (w'.conns (Sample.uuid 2)).any (·.alive))) = true := by
    decide +kernel
  simp only [Option.any_eq_true, Bool.and_eq_true, decide_eq_true_eq] at hrun
  have ⟨w, hw, ⟨hconnects, t, ht, ⟨⟨⟨hnext, hd⟩, hnewest⟩, hyields⟩, hmeets⟩, w', hw',
    ⟨t1, ht1, hended⟩, t', ht', halive⟩ := hrun
  have hall : ∀ c1 t1, w.conns c1 = some t1 → c1 ≠ Sample.uuid 2
      → t1.me.deviceId = t.me.deviceId → t1.yields t.me.inst := by
    intro c1 t1 hc1 hne _
    have hmem := (World.sound_run hw).mem_connects hc1
    rw [hconnects] at hmem
    simp only [List.mem_cons, hne, false_or, List.not_mem_nil, or_false] at hmem
    subst hmem
    exact hyields t1 hc1
  have hkeeps := newer_connection_keeps_presence hw ht hnext hnewest hall hw' hmeets ht' halive
  refine ⟨w, t, w', t', hw, ht, hd, hw', ?_, ht', halive, hkeeps.1⟩
  simp [ht1, hended]

namespace Sample

/--
The socket of a connection is gone and the cleanup takes it from the registry.
-/
def unregisters (c : Uuid) : List Label :=
  .event c .clientGone :: execs 2 c

/--
The device comes back to the same instance before the cleanup of its first connection has dropped
presence, and the new connection claims it.
-/
def comesBack : List Label :=
  opensPaired "a" (uuid 1) (device 1) ++ unregisters (uuid 1)
    ++ subscribes "a" (uuid 2) (device 1) ++ [Label.exec (uuid 2) .ok]

end Sample

/--
The cleanup of an older connection can delete the presence that a newer one has claimed on the same
instance, and tell the peer that the device is gone, while the newer connection opens and is
served.
-/
theorem cleanup_deletes_newer_presence
    : (run Sample.relay (World.init Sample.pairedDb) Sample.comesBack).any (fun w =>
          decide (w.connects = [Sample.uuid 2, Sample.uuid 1])
            && decide (w.presence (Sample.device 1) = some "a")
            && (w.conns (Sample.uuid 2)).any (·.alive)) = true
      ∧ (run Sample.relay (World.init Sample.pairedDb)
            (Sample.comesBack ++ Sample.execs 2 (Sample.uuid 1))).any (fun w =>
          decide (w.presence (Sample.device 1) = none)
            && (w.conns (Sample.uuid 2)).any (·.alive)
            && (w.conns (Sample.uuid 1)).any (fun t => decide (t.next? = some
              (.publish (Sample.device 2)
                (.control (presenceMessage Sample.pairId (Sample.device 1) false)))))) = true
      ∧ (run Sample.relay (World.init Sample.pairedDb)
            (Sample.comesBack ++ Sample.execs 3 (Sample.uuid 1)
              ++ Sample.execs 8 (Sample.uuid 2))).any (fun w =>
          decide (w.presence (Sample.device 1) = none)
            && (w.conns (Sample.uuid 1)).any (·.ended)
            && (w.conns (Sample.uuid 2)).any (·.serving)) = true := by
  refine ⟨?_, ?_, ?_⟩ <;> decide +kernel

end HandLiveRelay
