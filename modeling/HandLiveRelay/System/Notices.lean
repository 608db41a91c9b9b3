import HandLiveRelay.System.Handover

/-!
This module contains the way of a queued revocation notice. A connection takes the notices of its
device out of Redis before it writes them, so a notice does not stay in the set until it is written,
and is lost if the write fails.
-/

namespace HandLiveRelay

open Fiber Wire

/--
The text that an operation has written to the socket.
-/
def writtenText : Performed Conn Op Op.Res → Option String
  | ⟨_, .sendText text, .ok⟩ => some text
  | _ => none

/--
The texts a connection has written, the newest one first.
-/
def texts (t : ConnTrace) : List String :=
  t.filterMap writtenText

theorem mem_texts {t : ConnTrace} {text : String}
    : text ∈ texts t ↔ Did t (.sendText text) .ok := by
  simp only [texts, List.mem_filterMap, Did]
  constructor
  . rintro ⟨p, hp, hwritten⟩
    unfold writtenText at hwritten
    split at hwritten
    . cases hwritten
      exact ⟨_, hp⟩
    . cases hwritten
  . rintro ⟨s, hs⟩
    exact ⟨_, hs, rfl⟩

/--
The statements a connection has taken from the notices of its device.
-/
def takenNotices (t : ConnTrace) : List RevokeStatement :=
  t.flatMap fun
    | ⟨_, .takeRevokedNotices, some statements⟩ => statements
    | _ => []

theorem mem_takenNotices {t : ConnTrace} {st : RevokeStatement}
    : st ∈ takenNotices t ↔ ∃ l, Did t .takeRevokedNotices (some l) ∧ st ∈ l := by
  simp only [takenNotices, List.mem_flatMap, Did]
  constructor
  . rintro ⟨p, hp, hst⟩
    split at hst
    . exact ⟨_, ⟨_, hp⟩, hst⟩
    . cases hst
  . rintro ⟨l, ⟨s, hs⟩, hst⟩
    exact ⟨_, hs, hst⟩

namespace ConnTask

variable {env : Env} {t : ConnTask}

/--
The statements that a connection has taken and has not written yet, while it opens.
-/
def owed (t : ConnTask) : List RevokeStatement :=
  if t.stage = .opening then
    (takenNotices t.trace).filter fun st => pairRevokedMessage st ∉ texts t.trace
  else
    []

theorem mem_owed {st : RevokeStatement}
    : st ∈ t.owed ↔ t.stage = .opening ∧ st ∈ takenNotices t.trace
      ∧ pairRevokedMessage st ∉ texts t.trace := by
  unfold owed
  split
  next h => simp [h]
  next h => simp [h]

/--
An answer leaves a connection opening, unless it is the failure that ends it.
-/
theorem Ok.resume_opening (h : t.Ok env) {s : Conn} {o : Op}
    {k : o.Res → Prog Conn Op Op.Res Next} (hprog : t.prog = .wait s o k)
    (hstage : t.stage = .opening) (r : o.Res)
    : (t.resume s o k r).stage = .opening ∨ OpenFailed (⟨s, o, r⟩ :: t.trace) := by
  have ⟨mark, hat⟩ := h
  have hnext := hat.resume hprog r
  unfold ConnTask.resume ConnTask.settle
  split
  next s' e hdone => exact .inr ((hnext.post hdone).2.1 hstage)
  . exact .inl hstage

/--
A connection that serves owes nothing.
-/
theorem Ok.owed_of_serving (h : t.Ok env) (hserving : t.serving) : t.owed = [] := by
  have ⟨s, hprog⟩ := serving_iff.mp hserving
  have ⟨mark, hat⟩ := h
  have hopened := (hat.post hprog).2.1
  rw [List.eq_nil_iff_forall_not_mem]
  intro st hst
  have ⟨_, htaken, hunwritten⟩ := mem_owed.mp hst
  have ⟨l, hdid, hl⟩ := mem_takenNotices.mp htaken
  exact hunwritten (mem_texts.mpr (hopened.written l hdid st hl))

end ConnTask

namespace World

variable {env : Env} {w w' : World}

/-!
The notices of a device.
-/

theorem perform_notices {me : Ident} {o : Op} {f : Fault} {r : o.Res}
    (h : w.perform env me o f = some (w', r)) (ho : o ≠ .takeRevokedNotices)
    : w'.notices = w.notices := by
  cases o with
  | takeRevokedNotices => exact absurd rfl ho
  | subscribed => rw [perform_subscribed h]
  | unregister =>
    rcases perform_unregister h with ⟨_, _, rfl⟩ | ⟨_, _, rfl⟩
    . rfl
    . rfl
  | _ => cases f <;> cases h <;> rfl

/--
What a step makes of the notices of a device.
-/
inductive NoticesStep (w : World) (d : Uuid) : Label → List String → Prop where
  | same {l} : NoticesStep w d l (w.notices d)
  | added {k f st actions} (hjob : w.jobs[k]? = some (.addRevokedNotice d st :: actions))
      : NoticesStep w d (.job k f) ((w.notices d).insert (Presence.revokedNoticeMember st))
  | taken {c f t s k} (hc : w.conns c = some t) (hprog : t.prog = .wait s .takeRevokedNotices k)
      (hd : t.me.deviceId = d) (hf : f ≠ .fail) : NoticesStep w d (.exec c f) []
  | expired : NoticesStep w d (.expireNotices d) []

theorem NoticesStep.of_eq {l : Label} {d : Uuid} {notices : List String}
    (h : notices = w.notices d) : NoticesStep w d l notices :=
  h ▸ .same

theorem exec_notices {c : Uuid} {f : Fault} {t : ConnTask} {s : Conn} {o : Op}
    {k : o.Res → Prog Conn Op Op.Res Next} {w1 : World} {r : o.Res} (hc : w.conns c = some t)
    (hprog : t.prog = .wait s o k) (hperf : w.perform env t.me o f = some (w1, r)) (d : Uuid)
    : NoticesStep w d (.exec c f) (w1.notices d) := by
  by_cases ho : o = .takeRevokedNotices
  . subst ho
    by_cases hd : d = t.me.deviceId
    . subst hd
      cases f with
      | fail =>
        cases hperf
        exact .same
      | _ =>
        cases hperf
        dsimp only [Presence.takeRevokedNotices]
        rw [Function.update_self]
        exact .taken hc hprog rfl (by simp)
    . cases f <;>
      . cases hperf
        exact .of_eq (by simp [Function.update_of_ne hd])
  . exact .of_eq (by rw [perform_notices hperf ho])

theorem job_notices {k : Nat} {f : Fault} {a : Action} {actions : List Action}
    (hjob : w.jobs[k]? = some (a :: actions)) (d : Uuid)
    : NoticesStep w d (.job k f)
        ((act env { w with jobs := w.jobs.set k actions } f a).notices d) := by
  cases a with
  | notify dest msg => cases f <;> exact .same
  | delPresence d' => cases f <;> exact .same
  | addRevokedNotice peer st =>
    by_cases hd : d = peer
    . subst hd
      cases f with
      | fail => exact .same
      | _ =>
        simp only [act, Fault.command, Presence.addRevokedNotice, Function.update_self]
        exact .added hjob
    . refine .of_eq ?_
      cases f <;> simp [act, Fault.command, Presence.addRevokedNotice, Function.update_of_ne hd]

theorem step_notices {l : Label} (h : w.step env l = some w') (d : Uuid)
    : NoticesStep w d l (w'.notices d) := by
  cases step_view h with
  | connect _ _ hw' =>
    subst hw'
    exact .same
  | exec hc hprog hperf hw' =>
    subst hw'
    exact exec_notices hc hprog hperf d
  | event _ _ _ hw' =>
    subst hw'
    exact .same
  | bus _ hframe => exact .of_eq (by rw [hframe.notices])
  | job hjob hw' =>
    subst hw'
    exact job_notices hjob d
  | store hl _ =>
    cases l <;> try contradiction
    case http req =>
      cases h
      exact .same
    case tick nowMs secs =>
      unfold step at h
      dsimp only at h
      split at h
      . cases h
        exact .same
      . cases h
    case expirePresence d' =>
      cases h
      exact .same
    case expireNotices d' =>
      cases h
      by_cases hd : d = d'
      . subst hd
        dsimp only
        rw [Function.update_self]
        exact .expired
      . exact .of_eq (Function.update_of_ne hd _ _)
    case expireRv rvId =>
      cases h
      exact .same

/--
The step loses no notice of the device `peer`: they do not expire, the answer to the command that
takes them arrives, and no write fails while statements that were taken are not written.
-/
def KeepsNotices (peer : Uuid) (w : World) : Label → Prop
  | .exec c f => ∀ t ∈ w.conns c, t.me.deviceId = peer
    → (t.next? = some .takeRevokedNotices → f ≠ .lost) ∧ (t.owed ≠ [] → f = .ok)
  | .expireNotices d => d ≠ peer
  | _ => True

instance (peer : Uuid) (w : World) : ∀ l, Decidable (KeepsNotices peer w l)
  | .exec c f => inferInstanceAs (Decidable (∀ t ∈ w.conns c, t.me.deviceId = peer
    → (t.next? = some .takeRevokedNotices → f ≠ .lost) ∧ (t.owed ≠ [] → f = .ok)))
  | .expireNotices d => inferInstanceAs (Decidable (d ≠ peer))
  | .connect _ _ _ | .event _ _ | .busRequest _ _ | .busUnsubscribe _ _ | .busMessage _
  | .lose _ _ | .busLost _ | .reconnect _ _ | .resubscribe _ _ | .resync _ | .http _ | .job _ _
  | .tick _ _ | .expirePresence _ | .expireRv _ => isTrue trivial

/--
A connection of `peer` has written the statement to its socket.
-/
def NoticeWritten (peer : Uuid) (st : RevokeStatement) (w : World) : Prop :=
  ∃ c t, w.conns c = some t ∧ t.me.deviceId = peer ∧ pairRevokedMessage st ∈ texts t.trace

/--
In this step the notices of `peer` are taken for one of its connections, while none of them has
written the statement.
-/
def TakesUnwritten (peer : Uuid) (st : RevokeStatement) (w : World) : Label → Prop
  | .exec c f => f ≠ .fail ∧ ¬ NoticeWritten peer st w
    ∧ ∃ t, w.conns c = some t ∧ t.me.deviceId = peer ∧ t.next? = some .takeRevokedNotices
  | _ => False

/--
The statement is queued for `peer`, or a connection of `peer` has written it, or one that opens has
taken it and is about to write it.
-/
def NoticeKept (peer : Uuid) (st : RevokeStatement) (w : World) : Prop :=
  Presence.revokedNoticeMember st ∈ w.notices peer ∨ NoticeWritten peer st w
    ∨ ∃ c t, w.conns c = some t ∧ t.me.deviceId = peer ∧ st ∈ t.owed

/--
What was written stays written.
-/
theorem NoticeWritten.step {l : Label} {peer : Uuid} {st : RevokeStatement}
    (h : NoticeWritten peer st w) (hstep : w.step env l = some w') : NoticeWritten peer st w' := by
  obtain ⟨c, t, hc, hd, hwritten⟩ := h
  obtain ⟨t', hc', hme⟩ := step_conn hstep hc
  have htrace := trace_step hstep hc hc'
  exact ⟨c, t', hc', hme ▸ hd, (htrace.sublist.filterMap writtenText).subset hwritten⟩

/--
To take the notices is not to write one.
-/
theorem NoticeWritten.of_take {c peer : Uuid} {f : Fault} {t : ConnTask} {st : RevokeStatement}
    (hc : w.conns c = some t) (hnext : t.next? = some .takeRevokedNotices)
    (hstep : w.step env (.exec c f) = some w') (h : NoticeWritten peer st w')
    : NoticeWritten peer st w := by
  obtain ⟨c1, t', hc', hd, hwritten⟩ := h
  have htask := step_task hstep c1
  rw [hc'] at htask
  generalize hu : some t' = u at htask
  cases htask with
  | same _ => exact ⟨c1, t', hu.symm, hd, hwritten⟩
  | resumed hc1 hprog _ =>
    cases hu
    rw [hc] at hc1
    cases hc1
    rw [ConnTask.next?_eq_some.mpr ⟨_, _, hprog⟩] at hnext
    cases hnext
    refine ⟨_, t, hc, by rw [← hd, ConnTask.resume_me], ?_⟩
    rw [ConnTask.resume_trace, mem_texts] at hwritten
    obtain ⟨s, hs⟩ := hwritten
    exact mem_texts.mpr ⟨s, Trace.mem_of_mem_cons hs (by simp)⟩

/--
A step keeps a statement queued until it is written, exactly if it does not take it before.
-/
theorem queued_notice_step {l : Label} {peer : Uuid} {st : RevokeStatement}
    (h : Presence.revokedNoticeMember st ∈ w.notices peer ∨ NoticeWritten peer st w)
    (hl : l ≠ .expireNotices peer) (hstep : w.step env l = some w')
    : (Presence.revokedNoticeMember st ∈ w'.notices peer ∨ NoticeWritten peer st w')
      ↔ ¬ TakesUnwritten peer st w l := by
  constructor
  . intro h' htakes
    cases l with
    | exec c f =>
      obtain ⟨hf, hunwritten, t, hc, hd, hnext⟩ := htakes
      have hwritten : ¬ NoticeWritten peer st w' :=
        fun hwritten => hunwritten (hwritten.of_take hc hnext hstep)
      have hqueued := h'.resolve_right hwritten
      obtain ⟨t1, s, o, k, w1, r, hc1, hprog, hperf, hw'⟩ := exec_eq_some.mp hstep
      rw [hc] at hc1
      cases hc1
      rw [ConnTask.next?_eq_some.mpr ⟨s, k, hprog⟩] at hnext
      cases hnext
      subst hw' hd
      cases f with
      | fail => exact hf rfl
      | _ =>
        cases hperf
        simp [setConn] at hqueued
    | _ => exact htakes
  . intro htakes
    by_cases hwritten : NoticeWritten peer st w
    . exact .inr (hwritten.step hstep)
    . have hqueued := h.resolve_right hwritten
      have hn := step_notices hstep peer
      generalize w'.notices peer = notices at hn
      cases hn with
      | same => exact .inl hqueued
      | added _ => exact .inl (List.mem_insert_of_mem hqueued)
      | expired => exact absurd rfl hl
      | @taken c f t s k hc hprog hd hf =>
        exact absurd ⟨hf, hwritten, t, hc, hd, ConnTask.next?_eq_some.mpr ⟨s, k, hprog⟩⟩ htakes

/--
A connection that has taken a statement has written it or still opens.
-/
theorem noticeKept_of_taken {c peer : Uuid} {t : ConnTask} {st : RevokeStatement}
    (hc : w.conns c = some t) (hd : t.me.deviceId = peer)
    (htaken : st ∈ takenNotices t.trace) (hstage : t.stage = .opening) : NoticeKept peer st w := by
  by_cases hwritten : pairRevokedMessage st ∈ texts t.trace
  . exact .inr (.inl ⟨c, t, hc, hd, hwritten⟩)
  . exact .inr (.inr ⟨c, t, hc, hd, ConnTask.mem_owed.mpr ⟨hstage, htaken, hwritten⟩⟩)

theorem takenNotices_cons {t : ConnTrace} {st : RevokeStatement} (h : st ∈ takenNotices t)
    (p : Performed Conn Op Op.Res) : st ∈ takenNotices (p :: t) := by
  have ⟨l, hdid, hl⟩ := mem_takenNotices.mp h
  exact mem_takenNotices.mpr ⟨l, hdid.cons p, hl⟩

/--
A write that succeeds does not end a connection that has taken its notices.
-/
theorem not_openFailed {w1 : World} {me : Ident} {s : Conn} {o : Op} {r : o.Res} {t : ConnTrace}
    {l : List RevokeStatement} (hdid : Did (⟨s, o, r⟩ :: t) .takeRevokedNotices (some l))
    (hperf : w.perform env me o .ok = some (w1, r)) : ¬ OpenFailed (⟨s, o, r⟩ :: t) := by
  rintro ⟨p, t', heq, hfailed, htext⟩
  cases heq
  have ⟨text, ho⟩ := htext ⟨l, hdid⟩
  dsimp only at ho
  subst ho
  cases hperf
  exact hfailed rfl

theorem NoticeKept.step {l : Label} {peer : Uuid} {st : RevokeStatement}
    (h : NoticeKept peer st w) (hsound : Sound env w) (hl : KeepsNotices peer w l)
    (hstep : w.step env l = some w') : NoticeKept peer st w' := by
  rcases h with hmem | hwritten | ⟨c, t, hc, hd, howed⟩
  . have hn := step_notices hstep peer
    generalize hnotices : w'.notices peer = notices at hn
    cases hn with
    | same => exact .inl (hnotices ▸ hmem)
    | added _ => exact .inl (hnotices ▸ List.mem_insert_of_mem hmem)
    | expired => exact absurd rfl hl
    | @taken c f t s k hc hprog hd hf =>
      have hlost := (hl t hc hd).1 (ConnTask.next?_eq_some.mpr ⟨s, k, hprog⟩)
      have ⟨t1, s1, o1, k1, w1, r, hc1, hprog1, hperf, hw'⟩ := exec_eq_some.mp hstep
      rw [hc] at hc1
      cases hc1
      rw [hprog] at hprog1
      cases hprog1
      cases f with
      | fail => exact absurd rfl hf
      | lost => exact absurd rfl hlost
      | ok =>
        have hdid : Did (⟨s, .takeRevokedNotices, r⟩ :: t.trace) .takeRevokedNotices
            (some ((w.notices t.me.deviceId).filterMap Presence.parseRevokedNotice)) := by
          cases hperf
          exact did_cons_self _ _ _ _
        have htaken : st ∈ takenNotices (t.resume s .takeRevokedNotices k r).trace := by
          rw [ConnTask.resume_trace, mem_takenNotices]
          refine ⟨_, hdid, ?_⟩
          rw [List.mem_filterMap]
          exact ⟨_, hd ▸ hmem, Presence.parseRevokedNotice_revokedNoticeMember st⟩
        have hok := hsound.tasks c t hc
        have hc' : w'.conns c = some (t.resume s .takeRevokedNotices k r) := by
          rw [hw', setConn_self]
        have hopening : t.stage = .opening := by
          have ⟨mark, hat⟩ := hok
          have hp := (hat.obeys hprog).2
          generalize t.stage = stage at hp
          cases hp
          rfl
        apply noticeKept_of_taken hc' (by rw [ConnTask.resume_me, hd]) htaken
        refine (hok.resume_opening hprog hopening r).resolve_right ?_
        exact not_openFailed hdid hperf
  . exact .inr (.inl (hwritten.step hstep))
  . have htask := step_task hstep c
    generalize hc' : w'.conns c = u at htask
    cases htask with
    | same _ => exact .inr (.inr ⟨c, t, hc'.trans hc, hd, howed⟩)
    | connected hnone =>
      rw [hc] at hnone
      cases hnone
    | handled hc1 hprog _ =>
      rw [hc] at hc1
      cases hc1
      rw [(hsound.tasks c t hc).owed_of_serving (ConnTask.serving_iff.mpr ⟨_, hprog⟩)] at howed
      cases howed
    | @resumed f t1 s o k w1 r hc1 hprog hperf =>
      rw [hc] at hc1
      cases hc1
      have hf : f = .ok := (hl t hc hd).2 (List.ne_nil_of_mem howed)
      subst hf
      obtain ⟨hopening, htaken, _⟩ := ConnTask.mem_owed.mp howed
      obtain ⟨l, hdid, _⟩ := mem_takenNotices.mp htaken
      apply noticeKept_of_taken hc' (by rw [ConnTask.resume_me, hd])
      . rw [ConnTask.resume_trace]
        exact takenNotices_cons htaken _
      . refine ((hsound.tasks c t hc).resume_opening hprog hopening r).resolve_right ?_
        exact not_openFailed (hdid.cons _) hperf

end World

/--
When a queued notice stays in the set until it is written. After a statement was added to the
notices of `peer`, and as long as these do not expire, every state of a run has it in the set or a
connection of `peer` that has written it, exactly if the notices are not taken for a connection of
`peer` before one of them has written it. A connection takes them before it writes them, but it
writes the statement or still opens and has it to write, as long as no write fails.
-/
theorem queued_notice_is_kept {env : Env} {db : Db} {ls ls' : List Label} {w w1 w2 : World}
    {k : Nat} {f : Fault} {peer : Uuid} {st : RevokeStatement} {actions : List Action}
    (hrun : run env (World.init db) ls = some w)
    (hjob : w.jobs[k]? = some (.addRevokedNotice peer st :: actions)) (hf : f ≠ .fail)
    (hstep : w.step env (.job k f) = some w1) (hrun' : run env w1 ls' = some w2)
    (hls : .expireNotices peer ∉ ls')
    : ((∀ ls1 w', ls1 <+: ls' → run env w1 ls1 = some w'
        → Presence.revokedNoticeMember st ∈ w'.notices peer ∨ w'.NoticeWritten peer st)
      ↔ Lts.Meets (World.step env) (fun w l => ¬ w.TakesUnwritten peer st l) w1 ls')
    ∧ (Lts.Meets (World.step env) (World.KeepsNotices peer) w1 ls' → w2.NoticeKept peer st) := by
  have hsound := World.sound_run hrun
  have hadded : Presence.revokedNoticeMember st ∈ w1.notices peer := by
    obtain ⟨a, actions', hjob', hw1⟩ := World.job_eq_some hstep
    rw [hjob] at hjob'
    cases hjob'
    subst hw1
    cases f with
    | fail => exact absurd rfl hf
    | _ =>
      simp only [World.act, Fault.command, Presence.addRevokedNotice, Function.update_self]
      exact List.mem_insert_self
  constructor
  . refine Lts.all_iff_meets ?_ (.inl hadded) hrun'
    intro w l w' hl h hstep
    refine World.queued_notice_step h ?_ hstep
    rintro rfl
    exact hls hl
  . intro hkeeps
    have hkept := Lts.run_invariant (P := fun w => World.Sound env w ∧ World.NoticeKept peer st w)
      (fun _ _ _ h hl hstep => ⟨h.1.step hstep, h.2.step h.1 hl hstep⟩)
      ⟨hsound.step hstep, .inl hadded⟩ hkeeps hrun'
    exact hkept.2

namespace Sample

/--
The first device deletes all its data, with a statement for its pair.
-/
def deletesAll : Request :=
  .deleteMe (device 1) none true (.ok [{
    pairId
    revokedAt := some 0
    sig := some (sign 1 (revokeMessage pairId (device 1) 0)) }])

/--
The second device opens a connection and is connected when the first one deletes its data.
-/
def deletesWhileConnected : List Label :=
  opensPaired "b" (uuid 2) (device 2) ++ replaced "b" (uuid 2) (uuid 2) ++ [Label.http deletesAll]

/--
The connection `c` of the second device opens after that, and is about to write the statement.
-/
def takesNotice (c : Uuid) : List Label :=
  [Label.connect "a" c (device 2), .exec c .ok, .busRequest "a" .ok] ++ execs 6 c

/--
The second device opens its first connection after that.
-/
def fetchesNotice : List Label := takesNotice (uuid 2)

/--
The second device gets the statement from the bus. Then it connects once more.
-/
def hearsAndFetches : List Label :=
  [Label.job 0 .ok, .busMessage "b", .event (uuid 2) (.delivery (.bus (.pairRevoked statement)))]
    ++ execs 3 (uuid 2) ++ takesNotice (uuid 3)

/--
The step takes no notices, or the connection `c` has written the statement.
-/
def takesWritten (c : Uuid) (w : World) : Label → Bool
  | .exec c' _ =>
    (w.conns c').all (fun t => decide (t.next? ≠ some .takeRevokedNotices))
      || (w.conns c).any fun t => decide (t.me.deviceId = device 2)
        && decide (pairRevokedMessage statement ∈ texts t.trace)
  | _ => true

theorem not_takesUnwritten {c : Uuid} {w : World} {l : Label} (h : takesWritten c w l = true)
    : ¬ w.TakesUnwritten (device 2) statement l := by
  cases l with
  | exec c' f =>
    rintro ⟨_, hunwritten, t, hc, _, hnext⟩
    simp only [takesWritten, hc, Option.all_some, hnext, ne_eq, not_true_eq_false, decide_false,
      Bool.false_or, Option.any_eq_true, Bool.and_eq_true, decide_eq_true_eq] at h
    obtain ⟨t', hc', hd, hwritten⟩ := h
    exact hunwritten ⟨c, t', hc', hd, hwritten⟩
  | _ => exact id

end Sample

theorem queued_notice_is_written
    : ∃ w w1 w2, run Sample.relay (World.init Sample.pairedDb) Sample.deletesWhileConnected = some w
      ∧ w.step Sample.relay (.job 0 .ok) = some w1
      ∧ run Sample.relay w1 Sample.hearsAndFetches = some w2
      ∧ w2.notices (Sample.device 2) = []
      ∧ w2.NoticeWritten (Sample.device 2) Sample.statement := by
  have hrun : (run Sample.relay (World.init Sample.pairedDb) Sample.deletesWhileConnected).any
      (fun w => decide ((w.jobs[0]?.bind List.head?)
          = some (.addRevokedNotice (Sample.device 2) Sample.statement))
        && (w.step Sample.relay (.job 0 .ok)).any (fun w1 =>
          decide (Lts.Meets (World.step Sample.relay)
            (fun w l => Sample.takesWritten (Sample.uuid 2) w l = true) w1 Sample.hearsAndFetches)
          && (run Sample.relay w1 Sample.hearsAndFetches).any
            (fun w2 => decide (w2.notices (Sample.device 2) = [])))) = true := by
    decide +kernel
  simp only [Option.any_eq_true, Bool.and_eq_true, decide_eq_true_eq, Option.bind_eq_some_iff,
    List.head?_eq_some_iff] at hrun
  obtain ⟨w, hw, ⟨_, hjobs, actions, heq⟩, w1, hw1, hmeets, w2, hw2, hempty⟩ := hrun
  subst heq
  have hexpire : .expireNotices (Sample.device 2) ∉ Sample.hearsAndFetches := by
    simp [Sample.hearsAndFetches, Sample.takesNotice, Sample.execs]
  have hkept := (queued_notice_is_kept hw hjobs (by simp) hw1 hw2 hexpire).1.mpr
    (hmeets.imp fun _ _ h => Sample.not_takesUnwritten h) _ w2 List.prefix_rfl hw2
  rw [hempty] at hkept
  exact ⟨w, w1, w2, hw, hw1, hw2, hempty, hkept.resolve_left List.not_mem_nil⟩

/--
A notice is lost if the write fails: the set is empty, the connection that took the statement has
ended, and the next connection of the device opens and writes nothing.
-/
theorem notice_is_lost_when_write_fails
    : (run Sample.relay (World.init Sample.pairedDb)
          ([.http Sample.deletesAll, .job 0 .ok] ++ Sample.fetchesNotice)).any (fun w =>
        decide (w.notices (Sample.device 2) = [])
          && (w.conns (Sample.uuid 2)).any (fun t => decide (t.owed = [Sample.statement])
            && decide (t.next? = some (.sendText (pairRevokedMessage Sample.statement))))
          && (run Sample.relay w ([.exec (Sample.uuid 2) .fail] ++ Sample.execs 4 (Sample.uuid 2)
              ++ Sample.opens "b" (Sample.uuid 3) (Sample.device 2))).any (fun w' =>
            decide (w'.notices (Sample.device 2) = [])
              && decide (w'.connects = [Sample.uuid 3, Sample.uuid 2])
              && (w'.conns (Sample.uuid 2)).any (fun t => t.ended && decide (texts t.trace = []))
              && (w'.conns (Sample.uuid 3)).any (fun t => t.serving
                && decide (texts t.trace = [])))) = true := by
  decide +kernel

end HandLiveRelay
