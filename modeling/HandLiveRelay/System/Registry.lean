import HandLiveRelay.System.Tasks

/-!
This module contains what the registries of the instances, the requests to the bus tasks and their
answers have to do with the connections: they only ever name connections that exist, of the right
device and on the right instance.
-/

namespace HandLiveRelay.World

open Fiber

variable {env : Env} {w w' : World}

/--
A connection of this identity was registered.
-/
def Exists (w : World) (me : Ident) : Prop :=
  ∃ t, w.conns me.connId = some t ∧ t.me = me

theorem step_conn {l : Label} (h : w.step env l = some w') {c : Uuid} {t : ConnTask}
    (hc : w.conns c = some t) : ∃ t', w'.conns c = some t' ∧ t'.me = t.me := by
  have htask := step_task h c
  generalize w'.conns c = u at htask
  cases htask with
  | same _ => exact ⟨t, hc, rfl⟩
  | connected hnone =>
    rw [hc] at hnone
    cases hnone
  | resumed hc' _ _ =>
    rw [hc] at hc'
    cases hc'
    exact ⟨_, rfl, ConnTask.resume_me ..⟩
  | handled hc' _ _ =>
    rw [hc] at hc'
    cases hc'
    exact ⟨_, rfl, ConnTask.handle_me ..⟩

/--
What a connection has done stays on record.
-/
theorem trace_step {l : Label} {c : Uuid} {t t' : ConnTask} (hstep : w.step env l = some w')
    (hc : w.conns c = some t) (hc' : w'.conns c = some t') : t.trace <:+ t'.trace := by
  have htask := step_task hstep c
  rw [hc'] at htask
  generalize hu : some t' = u at htask
  cases htask with
  | same _ =>
    rw [hc] at hu
    cases hu
    exact List.suffix_rfl
  | connected hnone =>
    rw [hc] at hnone
    cases hnone
  | resumed hc1 _ _ =>
    rw [hc] at hc1
    cases hc1
    cases hu
    rw [ConnTask.resume_trace]
    exact List.suffix_cons _ _
  | handled hc1 _ _ =>
    rw [hc] at hc1
    cases hc1
    cases hu
    exact ConnTask.handle_trace .. ▸ List.suffix_rfl

theorem Exists.step {l : Label} {me : Ident} (h : w.Exists me) (hstep : w.step env l = some w')
    : w'.Exists me := by
  have ⟨t, ht, hme⟩ := h
  have ⟨t', ht', hme'⟩ := step_conn hstep ht
  exact ⟨t', ht', hme'.trans hme⟩

/--
What a step makes of the registry.
-/
inductive CurrentStep (w : World) (i : InstanceId) (d : Uuid) : Label → Option Uuid → Prop where
  | same {l} : CurrentStep w i d l ((w.insts i).current d)
  | registered {c} (hc : w.conns c = none) : CurrentStep w i d (.connect i c d) (some c)
  | unregistered {c f t s k} (hc : w.conns c = some t) (hprog : t.prog = .wait s .unregister k)
      (hi : t.me.inst = i) (hd : t.me.deviceId = d)
      (hcur : (w.insts i).current d = some t.me.connId) : CurrentStep w i d (.exec c f) none

theorem CurrentStep.of_eq {i : InstanceId} {d : Uuid} {l : Label} {c : Option Uuid}
    (h : c = (w.insts i).current d) : CurrentStep w i d l c :=
  h ▸ .same

theorem publish_current (env : Env) (w : World) (dest : Uuid) (msg : BusMessage) (i : InstanceId)
    (d : Uuid) : ((w.publish env dest msg).1.insts i).current d = (w.insts i).current d := by
  unfold publish Instance.deliver
  dsimp only
  split <;> rfl

theorem publish_requests (env : Env) (w : World) (dest : Uuid) (msg : BusMessage) (i : InstanceId)
    : ((w.publish env dest msg).1.insts i).requests = (w.insts i).requests := by
  unfold publish Instance.deliver
  dsimp only
  split <;> rfl

theorem step_current {l : Label} (h : w.step env l = some w') (i : InstanceId) (d : Uuid)
    : CurrentStep w i d l ((w'.insts i).current d) := by
  cases step_view h with
  | @connect j c d' _ hnone hw' =>
    subst hw'
    change CurrentStep w i d _ (((w.modifyInst j (·.register d' c)).insts i).current d)
    by_cases hij : i = j
    . subst hij
      rw [modifyInst_self]
      by_cases hd : d = d'
      . subst hd
        rw [Instance.current_register_self]
        exact .registered hnone
      . rw [Instance.current_register_ne _ _ hd]
        exact .same
    . rw [modifyInst_ne _ _ hij]
      exact .same
  | @exec c f t s o k w1 r hc hprog hperf hw' =>
    subst hw'
    change CurrentStep w i d _ ((w1.insts i).current d)
    cases perform_hub hperf with
    | other _ hi _ => exact .of_eq (by rw [hi])
    | tellPrevious => exact .same
    | subscribe => exact .of_eq (modifyInst_field (g := (·.current d)) rfl i)
    | unregister hcur =>
      change CurrentStep w i d _
        (((w.modifyInst t.me.inst (·.unregister t.me.deviceId)).insts i).current d)
      by_cases hi : i = t.me.inst
      . subst hi
        rw [modifyInst_self]
        by_cases hd : d = t.me.deviceId
        . subst hd
          rw [Instance.current_unregister_self]
          exact .unregistered hc hprog rfl rfl hcur
        . rw [Instance.current_unregister_ne _ hd]
          exact .same
      . rw [modifyInst_ne _ _ hi]
        exact .same
    | superseded _ => exact .same
    | unsubscribe => exact .of_eq (modifyInst_field (g := (·.current d)) rfl i)
    | publish => exact .of_eq (publish_current env w _ _ i d)
    | unpublished => exact .same
    | fetchSub => exact .same
  | event _ _ _ hw' =>
    subst hw'
    exact .same
  | bus _ hframe => exact .of_eq (hframe.current i d)
  | @job k f a actions _ hw' =>
    subst hw'
    cases (act_frame env { w with jobs := w.jobs.set k actions } f a).2 with
    | inl hi => exact .of_eq (by rw [hi])
    | inr hi =>
      have ⟨dest, msg, _, hi⟩ := hi
      rw [hi]
      exact .of_eq (publish_current env w dest msg i d)
  | store _ hframe => exact .of_eq (by rw [hframe.insts])

/--
A request in the queue of a bus task was there before, or a connection of the instance has just
asked for it.
-/
theorem step_requests {l : Label} (h : w.step env l = some w') {i : InstanceId} {r : BusRequest}
    (hr : r ∈ (w'.insts i).requests)
    : r ∈ (w.insts i).requests
      ∨ ∃ c f t s o k, l = .exec c f ∧ w.conns c = some t ∧ t.prog = .wait s o k ∧ t.me.inst = i
        ∧ (r = .subscribe t.me.deviceId t.me.connId ∨ r = .unsubscribe t.me.deviceId) := by
  cases step_view h with
  | @connect j c d _ hnone hw' =>
    subst hw'
    left
    have heq := modifyInst_field (w := w) (g := Instance.requests) (i := j) (f := (·.register d c))
      rfl i
    exact heq ▸ hr
  | @exec c f t s o k w1 r' hc hprog hperf hw' =>
    subst hw'
    change r ∈ (w1.insts i).requests at hr
    -- a request that is appended to those of its own instance
    have happend : ∀ r0, r ∈ ((w.modifyInst t.me.inst (·.request r0)).insts i).requests
        → r ∈ (w.insts i).requests ∨ t.me.inst = i ∧ r = r0 := by
      intro r0 hr
      by_cases hi : i = t.me.inst
      . subst hi
        rw [modifyInst_self] at hr
        simpa [Instance.request] using hr
      . rw [modifyInst_ne _ _ hi] at hr
        exact .inl hr
    cases perform_hub hperf with
    | other _ hi _ => exact .inl (hi ▸ hr)
    | tellPrevious => exact .inl hr
    | subscribe =>
      refine (happend _ hr).imp_right ?_
      rintro ⟨hi, hr⟩
      exact ⟨c, f, t, s, _, k, rfl, hc, hprog, hi, .inl hr⟩
    | unregister _ =>
      left
      have heq := modifyInst_field (w := w) (g := Instance.requests) (i := t.me.inst)
        (f := (·.unregister t.me.deviceId)) rfl i
      exact heq ▸ hr
    | superseded _ => exact .inl hr
    | unsubscribe =>
      refine (happend _ hr).imp_right ?_
      rintro ⟨hi, hr⟩
      exact ⟨c, f, t, s, _, k, rfl, hc, hprog, hi, .inr hr⟩
    | @publish dest msg _ => exact .inl (publish_requests env w dest msg i ▸ hr)
    | unpublished => exact .inl hr
    | fetchSub => exact .inl hr
  | event _ _ _ hw' =>
    subst hw'
    exact .inl hr
  | bus _ hframe => exact .inl (hframe.requests i r hr)
  | @job k f a actions _ hw' =>
    subst hw'
    left
    cases (act_frame env { w with jobs := w.jobs.set k actions } f a).2 with
    | inl hi => exact hi ▸ hr
    | inr hi =>
      have ⟨dest, msg, _, hi⟩ := hi
      rw [hi] at hr
      exact publish_requests env w dest msg i ▸ hr
  | store _ hframe => exact .inl (hframe.insts ▸ hr)

/--
An answer was there before, or belongs to a request.
-/
theorem step_answers {l : Label} (h : w.step env l = some w') (c : Uuid)
    : w'.answers c = w.answers c ∨ ∃ i d, .subscribe d c ∈ (w.insts i).requests := by
  cases step_view h with
  | connect _ _ hw' => exact .inl (by rw [hw']; rfl)
  | exec _ _ hperf hw' => exact .inl (by rw [hw', ← (perform_sameFrame hperf).answers]; rfl)
  | event _ _ _ hw' => exact .inl (by rw [hw']; rfl)
  | bus _ hframe => exact hframe.answers c
  | job _ hw' => exact .inl (by rw [hw', (act_frame env _ _ _).1.answers])
  | store _ hframe => exact .inl (by rw [hframe.answers])

theorem step_connects {l : Label} (h : w.step env l = some w')
    : (w'.connects = w.connects ∧ ∀ i c d, l ≠ .connect i c d)
      ∨ ∃ i c d, l = .connect i c d ∧ w'.connects = c :: w.connects := by
  cases step_view h with
  | @connect i c d _ _ hw' => exact .inr ⟨i, c, d, rfl, by rw [hw']⟩
  | exec _ _ hperf hw' =>
    exact .inl ⟨by rw [hw', ← (perform_sameFrame hperf).connects]; rfl, by simp⟩
  | event _ _ _ hw' => exact .inl ⟨by rw [hw']; rfl, by simp⟩
  | bus hl hframe =>
    refine .inl ⟨hframe.connects, ?_⟩
    rintro i c d rfl
    cases hl
  | job _ hw' => exact .inl ⟨by rw [hw', (act_frame env _ _ _).1.connects], by simp⟩
  | store hl hframe =>
    refine .inl ⟨hframe.connects, ?_⟩
    rintro i c d rfl
    cases hl

theorem tellPrevious_of_ok {t : ConnTask} (h : t.Ok env) {s : Conn} {p : Uuid}
    {k : Unit → Prog Conn Op Op.Res Next} (hprog : t.prog = .wait s (.tellPrevious p) k)
    : t.stage = .opening ∧ t.trace = [] := by
  have ⟨mark, hat⟩ := h
  have hp := (hat.obeys hprog).2
  generalize t.stage = stage at hp ⊢
  cases hp with
  | tellPrevious htrace => exact ⟨rfl, htrace⟩

theorem handle_stage_ne_opening (env : Env) (t : ConnTask) (s : Conn) (e : Event)
    : (t.handle env s e).stage ≠ .opening := by
  unfold ConnTask.handle ConnTask.settle
  dsimp only
  split <;> simp

theorem new_tells (me : Ident) (p : Uuid)
    : ∃ s k, (ConnTask.new me (some p)).prog = .wait s (.tellPrevious p) k :=
  ⟨_, _, rfl⟩

theorem new_tellPrevious {me : Ident} {previous : Option Uuid} {s : Conn} {p : Uuid}
    {k : Unit → Prog Conn Op Op.Res Next}
    (h : (ConnTask.new me previous).prog = .wait s (.tellPrevious p) k) : previous = some p := by
  cases previous with
  | none => cases h
  | some c =>
    cases h
    rfl

/--
The registries, the requests and their answers only name connections that exist, and so does a
connection that is about to tell the one before it.
-/
structure WellFormed (w : World) : Prop where
  told : ∀ c t s p k, w.conns c = some t → t.prog = .wait s (.tellPrevious p) k
    → p ≠ c ∧ w.Exists ⟨t.me.deviceId, p, t.me.inst⟩
  ident : ∀ c t, w.conns c = some t → t.me.connId = c
  current : ∀ i d c, (w.insts i).current d = some c → w.Exists ⟨d, c, i⟩
  requests : ∀ i d c, .subscribe d c ∈ (w.insts i).requests → w.Exists ⟨d, c, i⟩
  answers : ∀ c, w.conns c = none → w.answers c = none
  connects : ∀ c, c ∈ w.connects ↔ (w.conns c).isSome
  nodup : w.connects.Nodup

theorem wellFormed_init (db : Db) : WellFormed (init db) where
  told c t s p k ht := by cases ht
  ident c t ht := by cases ht
  current i d c hc := by cases hc
  requests i d c hr := by cases hr
  answers c _ := rfl
  connects c := by simp [init]
  nodup := List.nodup_nil

theorem isSome_conns_step {l : Label} (h : w.step env l = some w') (c : Uuid)
    : (w'.conns c).isSome ↔ (w.conns c).isSome ∨ ∃ i d, l = .connect i c d := by
  constructor
  . intro hc
    have htask := step_task h c
    generalize w'.conns c = u at hc htask
    cases htask with
    | same _ => exact .inl hc
    | connected _ => exact .inr ⟨_, _, rfl⟩
    | resumed hold _ _ => exact .inl (by rw [hold]; rfl)
    | handled hold _ _ => exact .inl (by rw [hold]; rfl)
  . intro hc
    cases hc with
    | inl hc =>
      have ⟨t, ht⟩ := Option.isSome_iff_exists.mp hc
      have ⟨t', ht', _⟩ := step_conn h ht
      rw [ht']
      rfl
    | inr hc =>
      have ⟨i, d, hl⟩ := hc
      subst hl
      have ⟨_, _, hw'⟩ := connect_eq_some.mp h
      subst hw'
      dsimp only
      rw [setConn_self]
      rfl

theorem WellFormed.step {l : Label} (h : WellFormed w) (hok : TasksOk env w)
    (hstep : w.step env l = some w') : WellFormed w' where
  told c t s p k ht hprog := by
    have ⟨hstage, htrace⟩ := tellPrevious_of_ok (hok.step hstep c t ht) hprog
    have htask := step_task hstep c
    rw [ht] at htask
    generalize hu : some t = u at htask
    cases htask with
    | same _ =>
      have ⟨hne, hex⟩ := h.told c t s p k hu.symm hprog
      exact ⟨hne, hex.step hstep⟩
    | @connected i d hnone =>
      cases hu
      have hcur := new_tellPrevious hprog
      have hex := h.current i d p hcur
      refine ⟨?_, ConnTask.new_me _ _ ▸ hex.step hstep⟩
      rintro rfl
      have ⟨t, ht, _⟩ := hex
      rw [hnone] at ht
      cases ht
    | resumed _ _ _ =>
      cases hu
      rw [ConnTask.resume_trace] at htrace
      cases htrace
    | handled _ _ _ =>
      cases hu
      exact absurd hstage (handle_stage_ne_opening _ _ _ _)
  ident c t ht := by
    have htask := step_task hstep c
    rw [ht] at htask
    generalize hu : some t = u at htask
    cases htask with
    | same _ => exact h.ident c t hu.symm
    | connected _ =>
      cases hu
      simp
    | resumed hc _ _ =>
      cases hu
      simpa using h.ident c _ hc
    | handled hc _ _ =>
      cases hu
      simpa using h.ident c _ hc
  current i d c hc := by
    have hcurrent := step_current hstep i d
    rw [hc] at hcurrent
    generalize hu : some c = u at hcurrent
    cases hcurrent with
    | same => exact (h.current i d c hu.symm).step hstep
    | registered _ =>
      cases hu
      have ⟨_, _, hw'⟩ := connect_eq_some.mp hstep
      subst hw'
      exact ⟨_, setConn_self _ _ _, ConnTask.new_me _ _⟩
    | unregistered => cases hu
  requests i d c hr := by
    cases step_requests hstep hr with
    | inl hr => exact (h.requests i d c hr).step hstep
    | inr hr =>
      have ⟨c', f, t, s, o, k, _, hc, _, hi, hr⟩ := hr
      cases hr with
      | inr hr => cases hr
      | inl hr =>
        cases hr
        have hid := h.ident c' t hc
        subst hid hi
        exact Exists.step ⟨t, hc, rfl⟩ hstep
  answers c hc := by
    have hnone : w.conns c = none := by
      by_contra hsome
      have hsome := (isSome_conns_step hstep c).mpr (.inl (Option.isSome_iff_ne_none.mpr hsome))
      rw [hc] at hsome
      cases hsome
    cases step_answers hstep c with
    | inl heq => rw [heq, h.answers c hnone]
    | inr hreq =>
      have ⟨i, d, hreq⟩ := hreq
      have ⟨t, ht, _⟩ := h.requests i d c hreq
      rw [hnone] at ht
      cases ht
  connects c := by
    rw [isSome_conns_step hstep c, ← h.connects c]
    cases step_connects hstep with
    | inl hsame =>
      have hne : ¬ ∃ i d, l = .connect i c d := fun ⟨i, d, hl⟩ => hsame.2 i c d hl
      simp [hsame.1, hne]
    | inr hconnects =>
      have ⟨i, c', d, hl, heq⟩ := hconnects
      subst hl
      simp [heq, eq_comm, or_comm]
  nodup := by
    cases step_connects hstep with
    | inl hsame => exact hsame.1 ▸ h.nodup
    | inr hconnects =>
      have ⟨i, c, d, hl, heq⟩ := hconnects
      subst hl
      have ⟨_, hnone, _⟩ := connect_eq_some.mp hstep
      rw [heq]
      apply List.Nodup.cons
      . rw [h.connects, hnone]
        simp
      . exact h.nodup

/--
What holds in every run: the connections keep to their contracts, and what names a connection
names one that exists.
-/
structure Sound (env : Env) (w : World) : Prop where
  tasks : TasksOk env w
  settled : ∀ c t, w.conns c = some t → ∀ s e, t.prog ≠ .done s (.finish e)
  inst : ∀ c t, w.conns c = some t → t.me.inst ∈ env.instances
  wellFormed : WellFormed w

theorem sound_init (env : Env) (db : Db) : Sound env (init db) where
  tasks c t ht := by cases ht
  settled c t ht := by cases ht
  inst c t ht := by cases ht
  wellFormed := wellFormed_init db

theorem Sound.step {l : Label} (h : Sound env w) (hstep : w.step env l = some w')
    : Sound env w' where
  tasks := h.tasks.step hstep
  settled c t ht := by
    have htask := step_task hstep c
    rw [ht] at htask
    generalize hu : some t = u at htask
    cases htask with
    | same _ => exact h.settled c t hu.symm
    | connected _ =>
      cases hu
      exact ConnTask.settle_prog_ne_finish _
    | resumed _ _ _ =>
      cases hu
      exact ConnTask.settle_prog_ne_finish _
    | handled _ _ _ =>
      cases hu
      exact ConnTask.settle_prog_ne_finish _
  inst c t ht := by
    have htask := step_task hstep c
    rw [ht] at htask
    generalize hu : some t = u at htask
    cases htask with
    | same _ => exact h.inst c t hu.symm
    | connected _ =>
      cases hu
      rw [ConnTask.new_me]
      exact (connect_eq_some.mp hstep).1
    | resumed hc _ _ =>
      cases hu
      rw [ConnTask.resume_me]
      exact h.inst c _ hc
    | handled hc _ _ =>
      cases hu
      rw [ConnTask.handle_me]
      exact h.inst c _ hc
  wellFormed := h.wellFormed.step h.tasks hstep

theorem sound_run {db : Db} {ls : List Label} (h : run env (init db) ls = some w) : Sound env w :=
  Lts.run_stable (fun _ _ _ hsound hstep => Sound.step hsound hstep) (sound_init env db) h

end HandLiveRelay.World
