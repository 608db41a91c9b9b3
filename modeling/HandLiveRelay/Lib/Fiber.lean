import Mathlib

/-!
This module contains the programs of concurrent tasks. A task owns a state of its own, and suspends
at every operation it asks its environment for. Whoever runs the tasks picks a suspended one,
carries out its operation and resumes it with the answer, so the operations of several tasks
interleave freely while everything between two operations of one task is atomic.

What a task may ask for is stated by a `Contract`, over the task's state and the trace of the
operations it performed before. `Sat` says that a program keeps to a contract and what holds when
it is done, and comes with the usual rules for sequencing.
-/

namespace Fiber

variable {σ Op : Type} {Res : Op → Type} {α β : Type}

/--
A program that is done with a result, or waits for the answer to an operation.
-/
inductive Prog (σ Op : Type) (Res : Op → Type) (α : Type) where
  | done (s : σ) (a : α)
  | wait (s : σ) (o : Op) (k : Res o → Prog σ Op Res α)

/--
A performed operation: the state of the task when it asked for it, and the answer it got.
-/
structure Performed (σ Op : Type) (Res : Op → Type) where
  state : σ
  op : Op
  res : Res op

/--
The operations a task has performed, the newest one first.
-/
abbrev Trace (σ Op : Type) (Res : Op → Type) := List (Performed σ Op Res)

/--
Looking for an operation in a trace, performances of other ones are skipped.
-/
theorem Trace.mem_of_mem_cons {e e' : Performed σ Op Res} {t : Trace σ Op Res} (hmem : e ∈ e' :: t)
    (h : e.op ≠ e'.op) : e ∈ t := by
  cases List.mem_cons.mp hmem with
  | inl heq => exact absurd (congrArg Performed.op heq) h
  | inr hmem => exact hmem

/--
The code of a task: a program for every state it may start in.
-/
def Code (σ Op : Type) (Res : Op → Type) (α : Type) := σ → Prog σ Op Res α

namespace Prog

def bind (p : Prog σ Op Res α) (f : α → Code σ Op Res β) : Prog σ Op Res β :=
  match p with
  | .done s a => f a s
  | .wait s o k => .wait s o (fun r => (k r).bind f)

/--
The state of the task where the program stands.
-/
def state : Prog σ Op Res α → σ
  | .done s _ => s
  | .wait s _ _ => s

end Prog

namespace Code

def start (t : Code σ Op Res α) (s : σ) : Prog σ Op Res α := t s

instance : Monad (Code σ Op Res) where
  pure a := fun s => .done s a
  bind t f := fun s => (t s).bind f

def get : Code σ Op Res σ := fun s => .done s s

def modify (f : σ → σ) : Code σ Op Res Unit := fun s => .done (f s) ()

/--
Ask the environment for an operation and wait for the answer.
-/
def perform (o : Op) : Code σ Op Res (Res o) := fun s => .wait s o (fun r => .done s r)

@[simp]
theorem start_pure (a : α) (s : σ) : (pure a : Code σ Op Res α).start s = .done s a := rfl

@[simp]
theorem start_bind (t : Code σ Op Res α) (f : α → Code σ Op Res β) (s : σ)
    : (t >>= f).start s = (t.start s).bind f := rfl

@[simp]
theorem start_get (s : σ) : (get : Code σ Op Res σ).start s = .done s s := rfl

@[simp]
theorem start_modify (f : σ → σ) (s : σ)
    : (modify f : Code σ Op Res Unit).start s = .done (f s) () := rfl

@[simp]
theorem start_perform (o : Op) (s : σ)
    : (perform o : Code σ Op Res (Res o)).start s = .wait s o (fun r => .done s r) := rfl

end Code

/--
What a task may ask for, given its state and what it has performed so far.
-/
abbrev Contract (σ Op : Type) (Res : Op → Type) := σ → Trace σ Op Res → Op → Prop

namespace Prog

/--
Continued after the trace `t`, the program only asks for what the contract permits, and `Q` holds
of its result, the final state and the final trace when it is done.
-/
def Sat (C : Contract σ Op Res) (Q : α → σ → Trace σ Op Res → Prop)
    : Prog σ Op Res α → Trace σ Op Res → Prop
  | .done s a, t => Q a s t
  | .wait s o k, t => C s t o ∧ ∀ r, (k r).Sat C Q (⟨s, o, r⟩ :: t)

variable {C : Contract σ Op Res} {Q Q' : α → σ → Trace σ Op Res → Prop}

@[simp]
theorem sat_done (s : σ) (a : α) (t : Trace σ Op Res)
    : (done s a : Prog σ Op Res α).Sat C Q t ↔ Q a s t := by
  rfl

@[simp]
theorem sat_wait (s : σ) (o : Op) (k : Res o → Prog σ Op Res α) (t : Trace σ Op Res)
    : (wait s o k).Sat C Q t ↔ C s t o ∧ ∀ r, (k r).Sat C Q (⟨s, o, r⟩ :: t) := by
  rfl

@[simp]
theorem bind_done (s : σ) (a : α) (f : α → Code σ Op Res β)
    : (done s a : Prog σ Op Res α).bind f = (f a).start s := rfl

@[simp]
theorem bind_wait (s : σ) (o : Op) (k : Res o → Prog σ Op Res α) (f : α → Code σ Op Res β)
    : (wait s o k).bind f = wait s o (fun r => (k r).bind f) := rfl

/--
The rule of sequencing: the second program starts where the first one is done.
-/
theorem sat_bind {p : Prog σ Op Res α} {f : α → Code σ Op Res β}
    {Q : β → σ → Trace σ Op Res → Prop} {t : Trace σ Op Res}
    : (p.bind f).Sat C Q t ↔ p.Sat C (fun a s t => ((f a).start s).Sat C Q t) t := by
  induction p generalizing t with
  | done s a => rfl
  | wait s o k ih => simp only [bind_wait, sat_wait, ih]

theorem Sat.imp {C' : Contract σ Op Res} {p : Prog σ Op Res α} {t : Trace σ Op Res}
    (h : p.Sat C Q t) (hC : ∀ s t o, C s t o → C' s t o) (hQ : ∀ a s t, Q a s t → Q' a s t)
    : p.Sat C' Q' t := by
  induction p generalizing t with
  | done s a => exact hQ a s t h
  | wait s o k ih =>
    refine ⟨hC s t o h.1, ?_⟩
    intro r
    exact ih r (h.2 r)

theorem Sat.mono {p : Prog σ Op Res α} {t : Trace σ Op Res} (h : p.Sat C Q t)
    (hQ : ∀ a s t, Q a s t → Q' a s t)
    : p.Sat C Q' t :=
  h.imp (fun _ _ _ hC => hC) hQ

theorem Sat.and {C' : Contract σ Op Res} {p : Prog σ Op Res α} {t : Trace σ Op Res}
    (h : p.Sat C Q t) (h' : p.Sat C' Q' t)
    : p.Sat (fun s t o => C s t o ∧ C' s t o) (fun a s t => Q a s t ∧ Q' a s t) t := by
  induction p generalizing t with
  | done s a => exact ⟨h, h'⟩
  | wait s o k ih => exact ⟨⟨h.1, h'.1⟩, fun r => ih r (h.2 r) (h'.2 r)⟩

/--
A trace only grows.
-/
theorem sat_suffix (p : Prog σ Op Res α) {t0 t : Trace σ Op Res} (h : t0 <:+ t)
    : p.Sat (fun _ t _ => t0 <:+ t) (fun _ _ t => t0 <:+ t) t := by
  induction p generalizing t with
  | done s a => exact h
  | wait s o k ih => exact ⟨h, fun r => ih r (h.trans (List.suffix_cons _ _))⟩

theorem Sat.bind {p : Prog σ Op Res α} {f : α → Code σ Op Res β}
    {Q' : β → σ → Trace σ Op Res → Prop} {t : Trace σ Op Res} (h : p.Sat C Q t)
    (hf : ∀ a s t, Q a s t → ((f a).start s).Sat C Q' t)
    : (p.bind f).Sat C Q' t := by
  rw [sat_bind]
  exact h.mono hf

/--
The rule for an operation at the head of a task.
-/
theorem sat_perform {o : Op} {f : Res o → Code σ Op Res β}
    {Q : β → σ → Trace σ Op Res → Prop} {s : σ} {t : Trace σ Op Res} (hC : C s t o)
    (hf : ∀ r, ((f r).start s).Sat C Q (⟨s, o, r⟩ :: t))
    : (((Code.perform o : Code σ Op Res (Res o)) >>= f).start s).Sat C Q t :=
  ⟨hC, hf⟩

/--
Continued after the trace `t`, and as long as the answers are as `A` says, the program is done with
`Q`.
-/
def Yields (A : Performed σ Op Res → Prop) (Q : α → σ → Trace σ Op Res → Prop)
    : Prog σ Op Res α → Trace σ Op Res → Prop
  | .done s a, t => Q a s t
  | .wait s o k, t => ∀ r, A ⟨s, o, r⟩ → (k r).Yields A Q (⟨s, o, r⟩ :: t)

theorem Yields.bind {A : Performed σ Op Res → Prop} {p : Prog σ Op Res α}
    {f : α → Code σ Op Res β} {Q' : β → σ → Trace σ Op Res → Prop} {t : Trace σ Op Res}
    (h : p.Yields A Q t) (hf : ∀ a s t, Q a s t → ((f a).start s).Yields A Q' t)
    : (p.bind f).Yields A Q' t := by
  induction p generalizing t with
  | done s a => exact hf a s t h
  | wait s o k ih =>
    intro r hr
    exact ih r (h r hr)

theorem Yields.mono {A : Performed σ Op Res → Prop} {p : Prog σ Op Res α} {t : Trace σ Op Res}
    (h : p.Yields A Q t) (hQ : ∀ a s t, Q a s t → Q' a s t) : p.Yields A Q' t := by
  induction p generalizing t with
  | done s a => exact hQ a s t h
  | wait s o k ih =>
    intro r hr
    exact ih r (h r hr)

/--
What a program yields for such answers holds at its end, if all of them were as `A` says.
-/
theorem Yields.sat {A : Performed σ Op Res → Prop} {p : Prog σ Op Res α} {t : Trace σ Op Res}
    (h : p.Yields A Q t)
    : p.Sat (fun _ _ _ => True) (fun a s t => (∀ e ∈ t, A e) → Q a s t) t := by
  induction p generalizing t with
  | done s a => exact fun _ => h
  | wait s o k ih =>
    refine ⟨trivial, fun r => ?_⟩
    by_cases hr : A ⟨s, o, r⟩
    . exact ih r (h r hr)
    . apply ((k r).sat_suffix List.suffix_rfl).imp
      . simp
      . intro a s t ht hall
        exact absurd (hall _ (ht.mem List.mem_cons_self)) hr

/--
Run the program without interruption, where `f` says what an operation does to a world.
-/
def alone {W : Type} (f : W → (o : Op) → W × Res o) : Prog σ Op Res α → W → W × α
  | .done _ a, w => (w, a)
  | .wait _ o k, w => (k (f w o).2).alone f (f w o).1

end Prog

/--
The task only ever asks for operations that satisfy `P`.
-/
def Prog.Only (P : Op → Prop) : Prog σ Op Res α → Prop
  | .done _ _ => True
  | .wait _ o k => P o ∧ ∀ r, (k r).Only P

def Code.Asks (P : Op → Prop) (code : Code σ Op Res α) : Prop :=
  ∀ s, (code.start s).Only P

section

variable {P P' : Op → Prop}

theorem Prog.Only.bind {p : Prog σ Op Res α} {f : α → Code σ Op Res β} (h : p.Only P)
    (hf : ∀ a, (f a).Asks P) : (p.bind f).Only P := by
  induction p with
  | done s a => exact hf a s
  | wait s o k ih => exact ⟨h.1, fun r => ih r (h.2 r)⟩

theorem Prog.Only.mono {p : Prog σ Op Res α} (h : p.Only P) (hP : ∀ o, P o → P' o)
    : p.Only P' := by
  induction p with
  | done s a => trivial
  | wait s o k ih => exact ⟨hP o h.1, fun r => ih r (h.2 r)⟩

/--
A task keeps to a contract that permits everything it may ask for.
-/
theorem Prog.Only.sat {C : Contract σ Op Res} {p : Prog σ Op Res α} {t : Trace σ Op Res}
    (h : p.Only P) (hC : ∀ s t o, P o → C s t o) : p.Sat C (fun _ _ _ => True) t := by
  induction p generalizing t with
  | done s a => trivial
  | wait s o k ih => exact ⟨hC s t o h.1, fun r => ih r (h.2 r)⟩

namespace Code

theorem Asks.mono {code : Code σ Op Res α} (h : code.Asks P) (hP : ∀ o, P o → P' o)
    : code.Asks P' :=
  fun s => (h s).mono hP

theorem asks_pure (a : α) : (pure a : Code σ Op Res α).Asks P :=
  fun _ => trivial

theorem asks_get : (get : Code σ Op Res σ).Asks P :=
  fun _ => trivial

theorem asks_modify (f : σ → σ) : (modify f : Code σ Op Res Unit).Asks P :=
  fun _ => trivial

theorem asks_perform {o : Op} (h : P o) : (perform o : Code σ Op Res (Res o)).Asks P :=
  fun _ => ⟨h, fun _ => trivial⟩

theorem Asks.bind {code : Code σ Op Res α} {f : α → Code σ Op Res β} (h : code.Asks P)
    (hf : ∀ a, (f a).Asks P) : (code >>= f).Asks P :=
  fun s => (h s).bind hf

end Code

end

end Fiber
