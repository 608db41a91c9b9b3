import HandLiveRelay.System.Handover
import HandLiveRelay.System.Unforgeable

/-!
This module contains the rendezvous sets in runs of the whole relay, and to whom an `rv_msg` goes.
-/

namespace HandLiveRelay

open Fiber Wire Rendezvous

namespace Rendezvous

variable {set : RvSet} (h : set.Ok) (now : Rat) (d : Uuid)

include h

/--
Nobody leaves a set because somebody joins it, and its time to live stays.
-/
theorem joinSet_keeps
    : set.members ⊆ (joinSet set now d).1.members
      ∧ (set.members ≠ [] → (joinSet set now d).1.expiresAt = set.expiresAt) := by
  have hcases := joinSet_cases h now d
  generalize joinSet set now d = res at hcases
  cases hcases with
  | again _ => exact ⟨List.Subset.refl _, fun _ => rfl⟩
  | created hnil =>
    refine ⟨?_, fun hne => absurd hnil hne⟩
    rw [hnil]
    exact List.nil_subset _
  | met hother _ =>
    refine ⟨?_, fun _ => rfl⟩
    rw [hother]
    exact List.cons_subset_cons _ (List.nil_subset _)
  | full _ _ => exact ⟨List.Subset.refl _, fun _ => rfl⟩

/--
Whoever creates a set gives it its time to live.
-/
theorem joinSet_creates (hnil : set.members = [])
    : (joinSet set now d).1.expiresAt = some (now + rvTtlSecs) := by
  have hcases := joinSet_cases h now d
  generalize joinSet set now d = res at hcases
  cases hcases with
  | again hd =>
    rw [hnil] at hd
    cases hd
  | created _ => rfl
  | met hother _ =>
    rw [hnil] at hother
    cases hother
  | full _ hfull =>
    rw [hnil] at hfull
    cases hfull

/--
A device that is refused changes nothing.
-/
theorem joinSet_of_full (hfull : (joinSet set now d).2 = .full) : (joinSet set now d).1 = set := by
  have hcases := joinSet_cases h now d
  generalize joinSet set now d = res at hcases hfull
  cases hcases with
  | full _ _ => rfl
  | _ => cases hfull

/--
A device that is not refused is told the members, and is one of them.
-/
theorem joinSet_of_joined {newly : Bool} {members : List Uuid}
    (hjoined : (joinSet set now d).2 = .joined newly members)
    : (joinSet set now d).1.members = members ∧ d ∈ members := by
  have hcases := joinSet_cases h now d
  generalize joinSet set now d = res at hcases hjoined
  cases hcases with
  | again hd =>
    cases hjoined
    exact ⟨rfl, hd⟩
  | created _ | met _ _ =>
    cases hjoined
    exact ⟨rfl, by simp⟩
  | full _ _ => cases hjoined

end Rendezvous

namespace World

variable {env : Env} {w w' : World}

theorem perform_rv {me : Ident} {o : Op} {f : Fault} {r : o.Res}
    (h : w.perform env me o f = some (w', r)) (ho : ∀ rvId, o ≠ .rvJoin rvId) : w'.rv = w.rv := by
  cases o with
  | rvJoin rvId => exact absurd rfl (ho rvId)
  | subscribed => rw [perform_subscribed h]
  | unregister =>
    rcases perform_unregister h with ⟨_, _, rfl⟩ | ⟨_, _, rfl⟩
    . rfl
    . rfl
  | _ => cases f <;> cases h <;> rfl

theorem perform_rvJoin {me : Ident} {rvId : String} {f : Fault} {ans : Join}
    (h : w.perform env me (.rvJoin rvId) f = some (w', some ans))
    : ans = (joinSet (w.rv rvId) w.now me.deviceId).2
      ∧ w'.rv rvId = (joinSet (w.rv rvId) w.now me.deviceId).1 := by
  have hcommand : f.command w ({ w with rv := (join w.rv w.now rvId me.deviceId).1 },
      (join w.rv w.now rvId me.deviceId).2) = (w', some ans) :=
    Option.some.inj h
  cases f with
  | ok =>
    rw [Fault.command, Prod.mk.injEq, Option.some.injEq] at hcommand
    rw [← hcommand.1, ← hcommand.2]
    refine ⟨rfl, ?_⟩
    dsimp only [join]
    rw [Function.update_self]
  | fail => cases (Prod.mk.injEq _ _ _ _ ▸ hcommand).2
  | lost => cases (Prod.mk.injEq _ _ _ _ ▸ hcommand).2

/--
What a step makes of a rendezvous set.
-/
inductive RvStep (w : World) (rvId : String) : Label → RvSet → Prop where
  | same {l} : RvStep w rvId l (w.rv rvId)
  | joined {c f t s k} (hc : w.conns c = some t) (hprog : t.prog = .wait s (.rvJoin rvId) k)
      (hf : f ≠ .fail)
      : RvStep w rvId (.exec c f) (joinSet (w.rv rvId) w.now t.me.deviceId).1
  | expired : RvStep w rvId (.expireRv rvId) .empty

theorem RvStep.of_eq {l : Label} {rvId : String} {set : RvSet} (h : set = w.rv rvId)
    : RvStep w rvId l set :=
  h ▸ .same

theorem exec_rv {c : Uuid} {f : Fault} {t : ConnTask} {s : Conn} {o : Op}
    {k : o.Res → Prog Conn Op Op.Res Next} {w1 : World} {r : o.Res} (hc : w.conns c = some t)
    (hprog : t.prog = .wait s o k) (hperf : w.perform env t.me o f = some (w1, r)) (rvId : String)
    : RvStep w rvId (.exec c f) (w1.rv rvId) := by
  by_cases ho : ∃ r', o = .rvJoin r'
  . have ⟨r', ho⟩ := ho
    subst ho
    by_cases hr : rvId = r'
    . subst hr
      cases f with
      | fail =>
        cases hperf
        exact .same
      | _ =>
        cases hperf
        dsimp only [Rendezvous.join]
        rw [Function.update_self]
        exact .joined hc hprog (by simp)
    . cases f with
      | fail =>
        cases hperf
        exact .same
      | _ =>
        cases hperf
        exact .of_eq (Function.update_of_ne hr _ _)
  . exact .of_eq (by rw [perform_rv hperf fun r' hr' => ho ⟨r', hr'⟩])

theorem step_rv {l : Label} (h : w.step env l = some w') (rvId : String)
    : RvStep w rvId l (w'.rv rvId) := by
  cases step_view h with
  | connect _ _ hw' =>
    subst hw'
    exact .same
  | exec hc hprog hperf hw' =>
    subst hw'
    exact exec_rv hc hprog hperf rvId
  | event _ _ _ hw' =>
    subst hw'
    exact .same
  | bus _ hframe => exact .of_eq (by rw [hframe.rv])
  | @job _ f a _ _ hw' =>
    subst hw'
    cases a <;> cases f <;> exact .same
  | store hl _ =>
    cases l <;> try contradiction
    case http req =>
      cases h
      exact .same
    case tick nowMs secs =>
      unfold step at h
      dsimp only at h
      split at h
      . cases h
        exact .same
      . cases h
    case expirePresence d' =>
      cases h
      exact .same
    case expireNotices d' =>
      cases h
      exact .same
    case expireRv r' =>
      cases h
      by_cases hr : rvId = r'
      . subst hr
        dsimp only
        rw [Function.update_self]
        exact .expired
      . exact .of_eq (Function.update_of_ne hr _ _)

/--
Every rendezvous set is in order.
-/
def RvOk (w : World) : Prop :=
  ∀ rvId, (w.rv rvId).Ok

theorem rvOk_init (db : Db) : RvOk (init db) :=
  fun _ => RvSet.ok_empty

theorem RvOk.step {l : Label} (h : RvOk w) (hstep : w.step env l = some w') : RvOk w' := by
  intro rvId
  have hrv := step_rv hstep rvId
  generalize w'.rv rvId = set at hrv
  cases hrv with
  | same => exact h rvId
  | joined _ _ _ => exact joinSet_ok (h rvId) _ _
  | expired => exact RvSet.ok_empty

theorem rvOk_run {db : Db} {ls : List Label} (h : run env (init db) ls = some w) : RvOk w :=
  Lts.run_stable (fun _ _ _ hok hstep => RvOk.step hok hstep) (rvOk_init db) h

/--
What a step does to a set that does not expire. Nobody leaves it, its time to live is set when it is
created and stays as it is, and an answer to a join says what has become of the set.
-/
structure SetKept (w w' : World) (l : Label) (rvId : String) : Prop where
  members : l ≠ .expireRv rvId → (w.rv rvId).members ⊆ (w'.rv rvId).members
  lasts : l ≠ .expireRv rvId → (w.rv rvId).members ≠ []
    → (w'.rv rvId).expiresAt = (w.rv rvId).expiresAt
  created : (w.rv rvId).members = [] → (w'.rv rvId).members ≠ []
    → (w'.rv rvId).expiresAt = some (w.now + rvTtlSecs)
  refused : ∀ c t t' s, w.conns c = some t → w'.conns c = some t'
    → t'.trace = ⟨s, .rvJoin rvId, some .full⟩ :: t.trace → w'.rv rvId = w.rv rvId
  joined : ∀ c t t' s newly members, w.conns c = some t → w'.conns c = some t'
    → t'.trace = ⟨s, .rvJoin rvId, some (.joined newly members)⟩ :: t.trace
    → (w'.rv rvId).members = members ∧ t.me.deviceId ∈ members

/--
The answer to a join is that of the set at this moment.
-/
theorem join_of_trace {l : Label} (hstep : w.step env l = some w') {c : Uuid} {t t' : ConnTask}
    {s : Conn} {rvId : String} {ans : Join} (hc : w.conns c = some t) (hc' : w'.conns c = some t')
    (htrace : t'.trace = ⟨s, .rvJoin rvId, some ans⟩ :: t.trace)
    : ans = (joinSet (w.rv rvId) w.now t.me.deviceId).2
      ∧ w'.rv rvId = (joinSet (w.rv rvId) w.now t.me.deviceId).1 := by
  have htask := step_task hstep c
  rw [hc'] at htask
  generalize hu : some t' = u at htask
  cases htask with
  | same _ =>
    rw [hc] at hu
    cases hu
    exact absurd htrace.symm (List.cons_ne_self _ _)
  | connected hnone =>
    rw [hc] at hnone
    cases hnone
  | handled hc1 _ _ =>
    rw [hc] at hc1
    cases hc1
    cases hu
    rw [ConnTask.handle_trace] at htrace
    exact absurd htrace.symm (List.cons_ne_self _ _)
  | @resumed f t1 s1 o k w1 r hc1 hprog hperf =>
    rw [hc] at hc1
    cases hc1
    cases hu
    rw [ConnTask.resume_trace] at htrace
    injection htrace with hhead _
    cases hhead
    have hw' : w'.rv = w1.rv := by
      have ⟨t2, s2, o2, k2, w2, r2, hc2, hprog2, hperf2, hw2⟩ := exec_eq_some.mp hstep
      rw [hc] at hc2
      cases hc2
      rw [hprog] at hprog2
      cases hprog2
      rw [hperf] at hperf2
      cases hperf2
      rw [hw2]
      rfl
    rw [hw']
    exact perform_rvJoin hperf

theorem RvOk.setKept {l : Label} (h : RvOk w) (hstep : w.step env l = some w') (rvId : String)
    : SetKept w w' l rvId where
  members hl := by
    have hrv := step_rv hstep rvId
    generalize w'.rv rvId = set at hrv
    cases hrv with
    | same => exact List.Subset.refl _
    | joined _ _ _ => exact (joinSet_keeps (h rvId) _ _).1
    | expired => exact absurd rfl hl
  lasts hl hne := by
    have hrv := step_rv hstep rvId
    generalize w'.rv rvId = set at hrv
    cases hrv with
    | same => rfl
    | joined _ _ _ => exact (joinSet_keeps (h rvId) _ _).2 hne
    | expired => exact absurd rfl hl
  created hnil hne := by
    have hrv := step_rv hstep rvId
    generalize w'.rv rvId = set at hrv hne
    cases hrv with
    | same => exact absurd hnil hne
    | joined _ _ _ => exact joinSet_creates (h rvId) _ _ hnil
    | expired => exact absurd rfl hne
  refused c t t' s hc hc' htrace := by
    have ⟨hans, hset⟩ := join_of_trace hstep hc hc' htrace
    rw [hset]
    exact joinSet_of_full (h rvId) _ _ hans.symm
  joined c t t' s newly members hc hc' htrace := by
    have ⟨hans, hset⟩ := join_of_trace hstep hc hc' htrace
    rw [hset]
    exact joinSet_of_joined (h rvId) _ _ hans.symm

/--
What a connection did last in a run: it was registered, took an event, or got an answer.
-/
inductive LastStep (env : Env) (w0 : World) (c : Uuid) (ls : List Label) : ConnTask → Prop where
  | new (me : Ident) (previous : Option Uuid) : LastStep env w0 c ls (.new me previous)
  | handled (t : ConnTask) (s : Conn) (e : Event) : LastStep env w0 c ls (t.handle env s e)
  | resumed {ls1 ls2 : List Label} {f : Fault} {w1 w2 : World} {t : ConnTask} {s : Conn} {o : Op}
      {k : o.Res → Prog Conn Op Op.Res Next} {r : o.Res} (hls : ls = ls1 ++ .exec c f :: ls2)
      (hrun : run env w0 ls1 = some w1) (hc : w1.conns c = some t) (hprog : t.prog = .wait s o k)
      (hperf : w1.perform env t.me o f = some (w2, r))
      : LastStep env w0 c ls (t.resume s o k r)

theorem LastStep.append {w0 : World} {c : Uuid} {ls : List Label} {t : ConnTask}
    (h : LastStep env w0 c ls t) (l : Label) : LastStep env w0 c (ls ++ [l]) t := by
  cases h with
  | new me previous => exact .new me previous
  | handled t s e => exact .handled t s e
  | @resumed ls1 ls2 f w1 w2 t s o k r hls hrun hc hprog hperf =>
    have hlast : ls ++ [l] = ls1 ++ .exec c f :: (ls2 ++ [l]) := by simp [hls]
    exact .resumed hlast hrun hc hprog hperf

theorem lastStep_of_run {db : Db} {ls : List Label} (hrun : run env (init db) ls = some w)
    {c : Uuid} {t : ConnTask} (hc : w.conns c = some t) : LastStep env (init db) c ls t := by
  have hinv := Lts.run_history (C := fun _ _ => True)
    (P := fun ls w => ∀ c t, w.conns c = some t → LastStep env (init db) c ls t)
    (fun c t hc => by cases hc) ?_ (Lts.meets_of_forall fun _ _ => trivial) hrun
  . exact hinv c t hc
  . intro ls w l w' hrun h _ hstep c t hc
    have htask := step_task hstep c
    rw [hc] at htask
    generalize hu : some t = u at htask
    cases htask with
    | same _ => exact (h c t hu.symm).append l
    | connected _ =>
      cases hu
      exact .new _ _
    | handled _ _ _ =>
      cases hu
      exact .handled _ _ _
    | resumed hc1 hprog hperf =>
      cases hu
      exact .resumed rfl hrun hc1 hprog hperf

/--
The last operation of a connection that handles a text and has looked at the clock: it was done in a
step of the run, and the connection handled the same text then.
-/
theorem LastStep.exists_resumed {w0 : World} {c : Uuid} {ls : List Label} {t : ConnTask}
    (h : LastStep env w0 c ls t) {text : String}
    (hstage : t.stage = .handling (.client (.text text))) {s : Conn} {o : Op}
    {k : o.Res → Prog Conn Op Op.Res Next} (hprog : t.prog = .wait s o k) (ho : o ≠ .now)
    {p : Performed Conn Op Op.Res} {rest : ConnTrace} (htrace : t.trace = p :: rest)
    : ∃ ls1 f ls2 w1 w2 t1, ls = ls1 ++ .exec c f :: ls2 ∧ run env w0 ls1 = some w1
      ∧ w1.conns c = some t1 ∧ t1.stage = .handling (.client (.text text))
      ∧ t1.inputs = t.inputs ∧ t1.next? = some p.op
      ∧ w1.perform env t1.me p.op f = some (w2, p.res) := by
  cases h with
  | new me previous =>
    rw [ConnTask.new_trace] at htrace
    cases htrace
  | handled t1 s1 e =>
    -- a text is handled by looking at the clock first
    have he : e = .client (.text text) := by
      rcases ConnTask.handle_stage env t1 s1 e with hhandling | ⟨e', hfinishing⟩
      . rw [hhandling] at hstage
        cases hstage
        rfl
      . rw [hfinishing] at hstage
        cases hstage
    subst he
    cases hprog
    exact absurd rfl ho
  | @resumed ls1 ls2 f w1 w2 t1 s1 o1 k1 r hls hrun hc hprog1 hperf =>
    rw [ConnTask.resume_trace] at htrace
    cases htrace
    have hstage1 : t1.stage = .handling (.client (.text text)) := by
      rcases ConnTask.resume_stage t1 s1 o1 k1 r with hsame | ⟨e', hfinishing⟩
      . rw [← hsame, hstage]
      . rw [hfinishing] at hstage
        cases hstage
    exact ⟨ls1, f, ls2, w1, w2, t1, hls, hrun, hc, hstage1, (ConnTask.resume_inputs _ _ _ _ _).symm,
      ConnTask.next?_eq_some.mpr ⟨s1, k1, hprog1⟩, hperf⟩

end World

/-!
The receiver of an `rv_msg`.
-/

/--
The connection has just read the members of the rendezvous. Its device is one of them, and `dest`
is the first of the others.
-/
inductive Addressed (me : Ident) (rvId : Option String) (env : Option String) (t : ConnTrace)
    (dest : Uuid) : BusMessage → Prop where
  | mk {r raw : String} {s : Conn} {members : List Uuid} {rest : ConnTrace}
      (hrv : rvId.bind canonicalRvId = some r) (henv : env = some raw)
      (htrace : t = ⟨s, .rvMembers r, some members⟩ :: rest) (hme : me.deviceId ∈ members)
      (hdest : members.find? (· ≠ me.deviceId) = some dest)
      : Addressed me rvId env t dest (.control (rvMsgMessage r raw))

namespace Conn

variable {settings : Settings} {serde : Serde} {me : Ident}

theorem handleText_rvMsg {text : String} {inbound : Inbound}
    (hparse : serde.parseInbound text = some inbound) (hop : inbound.op = some "rv_msg")
    : handleText settings serde me text
      = if text.utf8ByteSize > maxFrameBytes then sendError .payloadTooLarge none
        else rvMsg serde me inbound.rvId inbound.env := by
  have hne : ("rv_msg" : String) ≠ "rv_join" := by decide
  unfold handleText
  rw [hparse]
  dsimp only
  rw [hop]
  dsimp only
  rw [if_pos (.inr rfl), if_neg hne]

/--
The members are read right before the message is published.
-/
theorem sat_rvMsg_addressed {rvId env : Option String} {C : Contract Conn Op Op.Res}
    (hother : ∀ s t o, (∀ dest msg, o ≠ .publish dest msg) → C s t o)
    (hpublish : ∀ s t dest msg, Addressed me rvId env t dest msg → C s t (.publish dest msg))
    (s : Conn) (t : ConnTrace)
    : ((rvMsg serde me rvId env).start s).Sat C (fun _ _ _ => True) t := by
  have herror : ∀ (err : RelayError) (s : Conn) (t : ConnTrace),
      ((sendError err none).start s).Sat C (fun _ _ _ => True) t :=
    fun err s t => ⟨hother _ _ _ nofun, fun _ => trivial⟩
  unfold rvMsg
  split
  next r raw hrv =>
    split
    . exact herror _ s t
    . refine ⟨hother _ _ _ nofun, fun (members : Option (List Uuid)) => ?_⟩
      cases members with
      | none => exact herror _ s _
      | some members =>
        show (Code.start (if me.deviceId ∉ members then sendError .badRequest none else _) s).Sat
          _ _ _
        split
        . exact herror _ s _
        next hme =>
          split
          . exact herror _ s _
          next dest hdest =>
            refine ⟨hpublish _ _ _ _ (.mk hrv rfl rfl (Decidable.not_not.mp hme) hdest), ?_⟩
            intro (r : Option Nat)
            match r with
            | some 0 => exact herror _ s _
            | some (n + 1) => trivial
            | none => exact herror _ s _
  . exact herror _ s t

end Conn

/--
An `rv_msg` is published for a device that the connection has just found in the rendezvous.
-/
def addressing (env : Env) : StageRule env where
  obeys me stage _ _ t o := ∀ text inbound, stage = .handling (.client (.text text))
    → env.serde.parseInbound text = some inbound → inbound.op = some "rv_msg"
    → ∀ dest msg, o = .publish dest msg → Addressed me inbound.rvId inbound.env t dest msg
  post _ _ _ _ _ _ := True
  opening _ _ := (Conn.asks_start .new).sat fun _ _ _ _ => nofun
  handling me e _ _ s t hrest _ := by
    by_cases h : ∃ text inbound, e = .client (.text text)
        ∧ env.serde.parseInbound text = some inbound ∧ inbound.op = some "rv_msg"
    . have ⟨text, inbound, he, hparse, hop⟩ := h
      subst he
      refine ⟨nofun, fun now => ?_⟩
      show (Prog.bind ((Conn.handleText (env.settings me.inst) env.serde me text).start
        { s with lastRx := now }) _).Sat _ _ _
      rw [Conn.handleText_rvMsg hparse hop]
      split
      . exact ⟨nofun, fun _ => trivial⟩
      . refine (Conn.sat_rvMsg_addressed ?_ ?_ _ _).bind fun _ _ _ _ => trivial
        . rintro s t o ho text' inbound' _ _ _ dest msg rfl
          exact absurd rfl (ho dest msg)
        . rintro s t dest msg haddressed text' inbound' ⟨⟩ hparse' _ _ _ ⟨⟩
          rw [hparse] at hparse'
          cases hparse'
          exact haddressed
    . refine (Conn.speaks_serve hrest.pending).sat fun _ _ _ _ text inbound hstage hparse hop => ?_
      cases hstage
      exact absurd ⟨text, inbound, rfl, hparse, hop⟩ h
  finishing _ _ _ _ s _ _ := (Conn.asks_finish s).sat fun _ _ _ _ => nofun

/--
The two members of a set are the device and the one that was found.
-/
theorem Rendezvous.RvSet.Ok.members_eq {set : RvSet} (h : set.Ok) {d dest : Uuid}
    (hd : d ∈ set.members) (hdest : set.members.find? (· ≠ d) = some dest)
    : dest ≠ d ∧ dest ∈ set.members ∧ ∀ x ∈ set.members, x = d ∨ x = dest := by
  have hne : dest ≠ d := by simpa using List.find?_some hdest
  have hmem := List.mem_of_find?_eq_some hdest
  refine ⟨hne, hmem, fun x hx => ?_⟩
  by_contra hother
  rw [not_or] at hother
  have hnodup : [x, d, dest].Nodup := by
    simp [hother.1, hother.2, hne.symm]
  have hsub : [x, d, dest] ⊆ set.members := by
    simp [hx, hd, hmem]
  have hlength := (List.subperm_of_subset hnodup hsub).length_le
  have htwo := h.length
  simp only [List.length_cons, List.length_nil] at hlength
  omega

/--
An `rv_msg` goes to the one other device that was a member together with its own when the connection
read the members, which it did while it handled this very text.
-/
theorem rvMsg_goes_to_the_other_member {env : Env} {db : Db} {ls : List Label} {w : World}
    (hrun : run env (.init db) ls = some w) {c : Uuid} {t : ConnTask} (hc : w.conns c = some t)
    {text : String} {inbound : Inbound} (hstage : t.stage = .handling (.client (.text text)))
    (hparse : env.serde.parseInbound text = some inbound) (hop : inbound.op = some "rv_msg")
    {s : Conn} {dest : Uuid} {msg : BusMessage} {k : Option Nat → Prog Conn Op Op.Res Next}
    (hprog : t.prog = .wait s (.publish dest msg) k)
    : ∃ rvId ls1 ls2 w1 t1, inbound.rvId.bind canonicalRvId = some rvId
      ∧ ls = ls1 ++ .exec c .ok :: ls2 ∧ run env (.init db) ls1 = some w1
      ∧ w1.conns c = some t1 ∧ t1.stage = .handling (.client (.text text))
      ∧ t1.inputs = t.inputs ∧ t1.next? = some (.rvMembers rvId)
      ∧ dest ≠ t.me.deviceId ∧ t.me.deviceId ∈ (w1.rv rvId).members
      ∧ dest ∈ (w1.rv rvId).members
      ∧ ∀ x ∈ (w1.rv rvId).members, x = t.me.deviceId ∨ x = dest := by
  obtain ⟨_, hkept⟩ := StageRule.tasksKept_run (addressing env) hrun c t hc
  have haddressed := hkept.obeys hprog text inbound hstage hparse hop dest msg rfl
  cases haddressed with
  | @mk rvId raw s1 members rest hrv henv htrace hme hdest =>
    obtain ⟨ls1, f, ls2, w1, w2, t1, hls, hrun1, hc1, hstage1, hinputs, hnext, hperf⟩ :=
      (World.lastStep_of_run hrun hc).exists_resumed hstage hprog (by simp) htrace
    obtain ⟨hf, hmembers⟩ : f = .ok ∧ (w1.rv rvId).members = members := by
      cases f with
      | ok => exact ⟨rfl, Option.some.inj (congrArg Prod.snd (Option.some.inj hperf))⟩
      | fail => cases hperf
      | lost => cases hperf
    subst hf hmembers
    obtain ⟨hne, hmem, honly⟩ := (World.rvOk_run hrun1 rvId).members_eq hme hdest
    exact ⟨rvId, ls1, ls2, w1, t1, hrv, hls, hrun1, hc1, hstage1, hinputs, hnext, hne, hme, hmem,
      honly⟩

end HandLiveRelay
