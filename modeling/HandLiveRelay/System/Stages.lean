import HandLiveRelay.Relay.Vocabulary
import HandLiveRelay.System.Tasks

/-!
This module contains the rule to bring a further contract for the code of a connection to all runs:
it is enough to show it for the code of each stage.
-/

namespace HandLiveRelay

open Fiber

/--
What is known of a connection that waits in its event loop.
-/
structure AtRest (me : Ident) (s : Conn) (t : ConnTrace) : Prop where
  peers : PeersOk s t
  pending : ∀ p, s.pending = some p → p.bus.isForward
  opened : Opened me t

theorem ConnTask.Ok.atRest {env : Env} {t : ConnTask} {s : Conn} (h : t.Ok env)
    (hprog : t.prog = .done s .serve)
    : AtRest t.me s t.trace := by
  have ⟨mark, hat⟩ := h
  have ⟨hok, hopened, _⟩ := hat.post hprog
  exact ⟨hok.peers, hok.pending, hopened⟩

/--
A contract for every stage of a connection's life that its code keeps to. It may refer to the trace
where the stage began, and the code of a stage may rely on what the one before left.
-/
structure StageRule (env : Env) where
  obeys : Ident → Stage → ConnTrace → Contract Conn Op Op.Res
  post : Ident → Stage → ConnTrace → Next → Conn → ConnTrace → Prop
  opening : ∀ me previous,
    ((Conn.start me previous).start .new).Sat (obeys me .opening []) (post me .opening []) []
  handling : ∀ me e stage t0 s t, AtRest me s t → post me stage t0 .serve s t
    → ((Conn.serve (env.settings me.inst) env.serde me e).start s).Sat
        (obeys me (.handling e) t) (post me (.handling e) t) t
  finishing : ∀ me e stage t0 s t, post me stage t0 (.finish e) s t
    → ((Conn.finish me e).start s).Sat (obeys me (.finishing e) t) (post me (.finishing e) t) t

namespace StageRule

variable {env : Env} {R : StageRule env} {t : ConnTask}

/--
The task keeps to the contract of its stage, which began at `t0`.
-/
structure KeptAt (R : StageRule env) (t0 : ConnTrace) (t : ConnTask) : Prop where
  began : t0 <:+ t.trace
  sat : t.prog.Sat (R.obeys t.me t.stage t0) (R.post t.me t.stage t0) t.trace

def Kept (R : StageRule env) (t : ConnTask) : Prop :=
  ∃ t0, R.KeptAt t0 t

theorem KeptAt.obeys {t0 : ConnTrace} (h : R.KeptAt t0 t) {s : Conn} {o : Op}
    {k : o.Res → Prog Conn Op Op.Res Next} (hprog : t.prog = .wait s o k)
    : R.obeys t.me t.stage t0 s t.trace o := by
  have hsat := h.sat
  rw [hprog] at hsat
  exact hsat.1

theorem KeptAt.post {t0 : ConnTrace} (h : R.KeptAt t0 t) {s : Conn} {n : Next}
    (hprog : t.prog = .done s n) : R.post t.me t.stage t0 n s t.trace := by
  have hsat := h.sat
  rw [hprog] at hsat
  exact hsat

theorem Kept.settle (h : R.Kept t) : R.Kept t.settle := by
  unfold ConnTask.settle
  split
  next s e hprog =>
    have ⟨t0, hat⟩ := h
    exact ⟨t.trace, List.suffix_rfl, R.finishing t.me e t.stage t0 s t.trace (hat.post hprog)⟩
  . exact h

theorem kept_new (me : Ident) (previous : Option Uuid) : R.Kept (.new me previous) :=
  Kept.settle ⟨[], List.suffix_rfl, R.opening me previous⟩

/--
An answer keeps a task in its stage, where it may go over to the cleanup.
-/
theorem KeptAt.resume {t0 : ConnTrace} (h : R.KeptAt t0 t) {s : Conn} {o : Op}
    {k : o.Res → Prog Conn Op Op.Res Next} (hprog : t.prog = .wait s o k) (r : o.Res)
    : R.KeptAt t0 { t with prog := k r, trace := ⟨s, o, r⟩ :: t.trace } := by
  refine ⟨h.began.trans (List.suffix_cons _ _), ?_⟩
  have hsat := h.sat
  rw [hprog] at hsat
  exact hsat.2 r

theorem Kept.handle (h : R.Kept t) (hok : t.Ok env) {s : Conn} {e : Event}
    (hprog : t.prog = .done s .serve) : R.Kept (t.handle env s e) := by
  have ⟨t0, hat⟩ := h
  exact Kept.settle ⟨t.trace, List.suffix_rfl,
    R.handling t.me e t.stage t0 s t.trace (hok.atRest hprog) (hat.post hprog)⟩

/--
Every connection keeps to the contract.
-/
def TasksKept (R : StageRule env) (w : World) : Prop :=
  ∀ c t, w.conns c = some t → R.Kept t

theorem TasksKept.step {w w' : World} {l : Label} (h : R.TasksKept w)
    (hok : World.TasksOk env w) (hstep : w.step env l = some w') : R.TasksKept w' := by
  intro c t ht
  have htask := World.step_task hstep c
  rw [ht] at htask
  generalize hu : some t = u at htask
  cases htask with
  | same _ => exact h c t hu.symm
  | connected _ =>
    cases hu
    exact kept_new _ _
  | resumed hc hprog _ =>
    cases hu
    have ⟨t0, hat⟩ := h c _ hc
    exact Kept.settle ⟨t0, hat.resume hprog _⟩
  | handled hc hprog _ =>
    cases hu
    exact (h c _ hc).handle (hok c _ hc) hprog

theorem tasksKept_init (R : StageRule env) (db : Db) : R.TasksKept (.init db) := by
  intro c t ht
  cases ht

theorem tasksKept_run (R : StageRule env) {db : Db} {ls : List Label} {w : World}
    (h : run env (.init db) ls = some w) : R.TasksKept w := by
  have hboth : R.TasksKept w ∧ World.TasksOk env w := by
    refine Lts.run_stable (P := fun w => R.TasksKept w ∧ World.TasksOk env w) ?_ ?_ h
    . intro w l w' h hstep
      exact ⟨h.1.step h.2 hstep, World.TasksOk.step h.2 hstep⟩
    . exact ⟨tasksKept_init R db, fun c t ht => by cases ht⟩
  exact hboth.1

end StageRule
end HandLiveRelay
