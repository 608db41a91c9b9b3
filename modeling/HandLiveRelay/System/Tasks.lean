import HandLiveRelay.Relay.Conformance
import HandLiveRelay.System.Steps

/-!
This module contains the invariant of the connections: in every run every task keeps to the
contract of the stage it is in.
-/

namespace HandLiveRelay

open Fiber

theorem Permits.notLeft {me : Ident} {stage : Stage} {s : Conn} {t : ConnTrace} {o : Op}
    (h : Permits me stage s t o) (hstage : ∀ e, stage ≠ .finishing e)
    : o ≠ .unregister ∧ o ≠ .release ∧ ∀ code, o ≠ .closeSocket code := by
  cases h <;> simp_all

theorem StagePost.stageOk {serde : Serde} {me : Ident} {mark : Mark} {stage : Stage} {n : Next}
    {s : Conn} {t : ConnTrace} (h : StagePost serde me mark stage n s t)
    : StageOk serde me mark stage (accepted s t) s t := by
  cases n with
  | serve => exact h.1
  | finish e => exact h.1
  | stop => exact h.1

/--
Where the next stage begins.
-/
def Mark.here (s : Conn) (t : ConnTrace) : Mark where
  accepted := HandLiveRelay.accepted s t
  frames := HandLiveRelay.frames t

theorem before_here {serde : Serde} {me : Ident} {mark : Mark} {stage : Stage} {s : Conn}
    {t : ConnTrace} (h : StageOk serde me mark stage (accepted s t) s t) (hopened : Opened me t)
    (e : Event) : Before me (.here s t) (.handling e) s t where
  peers := h.peers
  pending := h.pending
  accepted := rfl
  frames := rfl
  opened _ _ := hopened

theorem holds_here {serde : Serde} {me : Ident} {mark : Mark} {stage : Stage} {s : Conn}
    {t : ConnTrace} (h : StageOk serde me mark stage (accepted s t) s t) (e : End)
    : Holds serde me (.here s t) (.finishing e) s t where
  peers := h.peers
  pending := h.pending
  accepted := .inl rfl
  frames := .inl rfl
  opened := by simp

/--
Every operation of the trace was permitted when it was asked for.
-/
def Permitted (me : Ident) (t : ConnTrace) : Prop :=
  ∀ p rest, p :: rest <:+ t → ∃ stage, Permits me stage p.state rest p.op

theorem permitted_nil (me : Ident) : Permitted me [] := by
  intro p rest h
  have hlen := h.length_le
  simp at hlen

theorem Permitted.cons {me : Ident} {stage : Stage} {s : Conn} {t : ConnTrace} {o : Op}
    (h : Permitted me t) (hp : Permits me stage s t o) (r : o.Res)
    : Permitted me (⟨s, o, r⟩ :: t) := by
  intro p rest hsuffix
  cases List.suffix_cons_iff.mp hsuffix with
  | inl heq =>
    cases heq
    exact ⟨stage, hp⟩
  | inr hsuffix => exact h p rest hsuffix

/--
What was done was permitted after a part of the trace.
-/
theorem Permitted.did {me : Ident} {t : ConnTrace} {o : Op} {r : o.Res} (h : Permitted me t)
    (hdid : Did t o r)
    : ∃ stage s rest, ⟨s, o, r⟩ :: rest <:+ t ∧ Permits me stage s rest o := by
  have ⟨s, hs⟩ := hdid
  have ⟨u, rest, heq⟩ := List.append_of_mem hs
  have hsuffix : ⟨s, o, r⟩ :: rest <:+ t := ⟨u, heq.symm⟩
  have ⟨stage, hp⟩ := h _ rest hsuffix
  exact ⟨stage, s, rest, hsuffix, hp⟩

theorem Did.of_suffix {t t' : ConnTrace} {o : Op} {r : o.Res} (h : Did t o r) (ht : t <:+ t')
    : Did t' o r := by
  have ⟨s, hs⟩ := h
  exact ⟨s, ht.subset hs⟩

namespace ConnTask

/--
The events that were handled before the current one.
-/
def past (t : ConnTask) : List Event :=
  match t.stage with
  | .handling _ => t.inputs.tail
  | _ => t.inputs

/--
What a connection has accepted, with the frame it is about to publish.
-/
def acc (t : ConnTask) : List (Uuid × BusMessage) :=
  match t.prog with
  | .done s _ => accepted s t.trace
  | .wait s o _ => o.forward?.toList ++ accepted s t.trace

/--
The task keeps to its contract in a stage that began at `mark`.
-/
structure OkAt (env : Env) (mark : Mark) (t : ConnTask) : Prop where
  sat : t.prog.Sat (Obeys env.serde t.me mark t.stage) (StagePost env.serde t.me mark t.stage)
    t.trace
  accepted : mark.accepted.Sublist (t.past.filterMap (·.forward? env.serde t.me))
  frames : mark.frames.Sublist (t.past.filterMap (·.frame?))
  handling : ∀ e, t.stage = .handling e → t.inputs = e :: t.past
  notLeft : (∀ e, t.stage ≠ .finishing e) → Conn.NotLeft t.trace
  permitted : Permitted t.me t.trace

def Ok (env : Env) (t : ConnTask) : Prop :=
  ∃ mark, OkAt env mark t

variable {env : Env} {mark : Mark} {t : ConnTask}

theorem OkAt.obeys (h : OkAt env mark t) {s : Conn} {o : Op}
    {k : o.Res → Prog Conn Op Op.Res Next} (hprog : t.prog = .wait s o k)
    : Obeys env.serde t.me mark t.stage s t.trace o := by
  have hsat := h.sat
  rw [hprog] at hsat
  exact hsat.1

theorem OkAt.post (h : OkAt env mark t) {s : Conn} {n : Next} (hprog : t.prog = .done s n)
    : StagePost env.serde t.me mark t.stage n s t.trace := by
  have hsat := h.sat
  rw [hprog] at hsat
  exact hsat

theorem OkAt.stageOk (h : OkAt env mark t)
    : StageOk env.serde t.me mark t.stage t.acc t.prog.state t.trace := by
  unfold acc Prog.state
  cases hprog : t.prog with
  | done s n => exact StagePost.stageOk (h.post hprog)
  | wait s o k => exact (h.obeys hprog).1

/--
What a connection has accepted it was asked to forward, in this order.
-/
theorem Ok.acc_sublist (h : t.Ok env)
    : t.acc.Sublist (t.inputs.filterMap (·.forward? env.serde t.me)) := by
  have ⟨mark, h⟩ := h
  cases h.stageOk.accepted with
  | inl hacc =>
    rw [hacc]
    refine h.accepted.trans (List.Sublist.filterMap _ ?_)
    unfold past
    split
    . exact List.tail_sublist _
    . exact .refl _
  | inr hacc =>
    have ⟨e, f, hstage, hf, hacc, _⟩ := hacc
    rw [hacc, h.handling e hstage, List.filterMap_cons, hf]
    exact h.accepted.cons_cons f

/--
The frames a connection has written were delivered to it, in this order.
-/
theorem Ok.frames_sublist (h : t.Ok env)
    : (HandLiveRelay.frames t.trace).Sublist (t.inputs.filterMap (·.frame?)) := by
  have ⟨mark, h⟩ := h
  cases h.stageOk.frames with
  | inl hframes =>
    rw [hframes]
    refine h.frames.trans (List.Sublist.filterMap _ ?_)
    unfold past
    split
    . exact List.tail_sublist _
    . exact .refl _
  | inr hframes =>
    have ⟨e, f, hstage, hf, hframes⟩ := hframes
    rw [hframes, h.handling e hstage, List.filterMap_cons, hf]
    exact h.frames.cons_cons f

theorem Ok.accepted_sublist (h : t.Ok env) {s : Conn} {n : Next} (hprog : t.prog = .done s n)
    : (HandLiveRelay.accepted s t.trace).Sublist
        (t.inputs.filterMap (·.forward? env.serde t.me)) := by
  have hacc := h.acc_sublist
  simp only [acc, hprog] at hacc
  exact hacc

/--
The cleanup begins where the loop ended.
-/
theorem Ok.settle (h : t.Ok env) : t.settle.Ok env := by
  unfold ConnTask.settle
  split
  next s e hprog =>
    have ⟨mark, hat⟩ := h
    have hpost := hat.post hprog
    refine ⟨.here s t.trace, ?_, ?_, ?_, by simp, by simp, hat.permitted⟩
    . exact Conn.sat_finish (holds_here hpost.1 e) (hat.notLeft hpost.2.2.2)
    . exact h.accepted_sublist hprog
    . exact h.frames_sublist
  . exact h

/--
A task never rests where its loop has ended: it has gone over to the cleanup.
-/
theorem settle_prog_ne_finish (t : ConnTask) (s : Conn) (e : End)
    : t.settle.prog ≠ .done s (.finish e) := by
  unfold ConnTask.settle
  split
  . exact nofun
  next hne => exact hne s e

theorem ok_new (env : Env) (me : Ident) (previous : Option Uuid) : (new me previous).Ok env := by
  apply Ok.settle
  refine ⟨⟨[], []⟩, Conn.sat_start previous, List.nil_sublist _, List.nil_sublist _, by simp, ?_,
    permitted_nil me⟩
  intro _ p hp
  exact absurd hp List.not_mem_nil

/--
The answer to an operation keeps a task in its stage.
-/
theorem OkAt.resume (h : OkAt env mark t) {s : Conn} {o : Op}
    {k : o.Res → Prog Conn Op Op.Res Next} (hprog : t.prog = .wait s o k) (r : o.Res)
    : OkAt env mark { t with prog := k r, trace := ⟨s, o, r⟩ :: t.trace } := by
  refine ⟨?_, h.accepted, h.frames, h.handling, ?_, h.permitted.cons (h.obeys hprog).2 r⟩
  . have hsat := h.sat
    rw [hprog] at hsat
    exact hsat.2 r
  . intro hstage p hp
    cases List.mem_cons.mp hp with
    | inl hp => exact hp ▸ (h.obeys hprog).2.notLeft hstage
    | inr hp => exact h.notLeft hstage p hp

theorem Ok.resume (h : t.Ok env) {s : Conn} {o : Op} {k : o.Res → Prog Conn Op Op.Res Next}
    (hprog : t.prog = .wait s o k) (r : o.Res) : (t.resume s o k r).Ok env := by
  have ⟨mark, hat⟩ := h
  exact Ok.settle ⟨mark, hat.resume hprog r⟩

/--
An event begins a stage.
-/
theorem Ok.handle_okAt (h : t.Ok env) {s : Conn} {e : Event} (hprog : t.prog = .done s .serve)
    (hpending : ∀ msg, e = .client msg → s.pending = none)
    : OkAt env (.here s t.trace) { t with
        stage := .handling e
        prog := (Conn.serve (env.settings t.me.inst) env.serde t.me e).start s
        inputs := e :: t.inputs } := by
  have ⟨mark, hat⟩ := h
  have ⟨hok, hopened, _, hstage⟩ := hat.post hprog
  refine ⟨?_, ?_, ?_, ?_, ?_, hat.permitted⟩
  . exact Conn.sat_serve (before_here hok hopened e) hpending
  . exact h.accepted_sublist hprog
  . exact h.frames_sublist
  . rintro e' ⟨rfl⟩
    rfl
  . intro _
    exact hat.notLeft hstage

theorem Ok.handle (h : t.Ok env) {s : Conn} {e : Event} (hprog : t.prog = .done s .serve)
    (hpending : ∀ msg, e = .client msg → s.pending = none) : (t.handle env s e).Ok env :=
  Ok.settle ⟨_, h.handle_okAt hprog hpending⟩

end ConnTask

namespace World

variable {env : Env} {w w' : World}

/--
A frame of the device is only taken while none is held back.
-/
theorem pending_of_ready {c : Uuid} {s : Conn} {msg : ClientMessage}
    (h : w.ready c s (.client msg)) : s.pending = none := by
  simp only [ready, Bool.and_eq_true, Option.isNone_iff_eq_none] at h
  exact h.2

/--
Every connection keeps to its contract.
-/
def TasksOk (env : Env) (w : World) : Prop :=
  ∀ c t, w.conns c = some t → t.Ok env

theorem TasksOk.step {l : Label} (h : TasksOk env w) (hstep : w.step env l = some w')
    : TasksOk env w' := by
  intro c t ht
  have htask := step_task hstep c
  rw [ht] at htask
  generalize hu : some t = u at htask
  cases htask with
  | same _ => exact h c t hu.symm
  | connected _ =>
    cases hu
    exact ConnTask.ok_new env _ _
  | resumed hc hprog _ =>
    cases hu
    exact (h c _ hc).resume hprog _
  | handled hc hprog hready =>
    cases hu
    apply (h c _ hc).handle hprog
    rintro msg rfl
    exact pending_of_ready hready

end World
end HandLiveRelay
