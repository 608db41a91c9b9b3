import HandLiveRelay.Lib.Fiber
import HandLiveRelay.Lib.Lts

/-!
This module contains pools of tasks that serve requests: any number of programs that interleave at
their operations on a shared world, next to steps that the world takes on its own. A task that keeps
to a contract does so in every run of the pool, and whatever a task has performed was performed by
one of the steps of the run.
-/

namespace Fiber

variable {W ι φ ε Op : Type} {Res : Op → Type} {α : Type}

/--
The code that serves a request, what an operation does to the world when the surroundings choose an
outcome, and what the world does on its own.
-/
structure Server (W ι φ ε Op : Type) (Res : Op → Type) (α : Type) where
  code : ι → Code Unit Op Res α
  perform : W → (o : Op) → φ → Option (W × Res o)
  happen : W → ε → Option W

/--
A request that is served, with the record of the operations performed for it.
-/
structure Task (ι Op : Type) (Res : Op → Type) (α : Type) where
  req : ι
  prog : Prog Unit Op Res α
  trace : Trace Unit Op Res

structure Pool (W ι Op : Type) (Res : Op → Type) (α : Type) where
  world : W
  tasks : List (Task ι Op Res α)

namespace Pool

def init (w : W) : Pool W ι Op Res α where
  world := w
  tasks := []

/--
What was performed for the request `k` so far.
-/
def record (p : Pool W ι Op Res α) (k : Nat) : Trace Unit Op Res :=
  match p.tasks[k]? with
  | some t => t.trace
  | none => []

inductive Label (ι φ ε : Type) where
  | start (req : ι)
  | exec (k : Nat) (f : φ)
  | happen (e : ε)

variable (S : Server W ι φ ε Op Res α)

def exec (p : Pool W ι Op Res α) (k : Nat) (f : φ) : Option (Pool W ι Op Res α) :=
  match p.tasks[k]? with
  | none => none
  | some t =>
    match t.prog with
    | .done _ _ => none
    | .wait s o cont =>
      (S.perform p.world o f).map fun (w, r) =>
        { world := w, tasks := p.tasks.set k { t with prog := cont r, trace := ⟨s, o, r⟩ :: t.trace } }

def step (p : Pool W ι Op Res α) : Label ι φ ε → Option (Pool W ι Op Res α)
  | .start req =>
    some { p with tasks := p.tasks ++ [{ req, prog := (S.code req).start (), trace := [] }] }
  | .exec k f => p.exec S k f
  | .happen e => (S.happen p.world e).map fun w => { p with world := w }

/--
What a step can do.
-/
inductive Step (p : Pool W ι Op Res α) : Label ι φ ε → Pool W ι Op Res α → Prop where
  | start (req : ι)
      : Step p (.start req)
          { p with tasks := p.tasks ++ [{ req, prog := (S.code req).start (), trace := [] }] }
  | exec {k : Nat} {f : φ} {t : Task ι Op Res α} {s : Unit} {o : Op}
      {cont : Res o → Prog Unit Op Res α} {w : W} {r : Res o}
      (htask : p.tasks[k]? = some t) (hprog : t.prog = .wait s o cont)
      (hperform : S.perform p.world o f = some (w, r))
      : Step p (.exec k f) {
          world := w
          tasks := p.tasks.set k { t with prog := cont r, trace := ⟨s, o, r⟩ :: t.trace }
        }
  | happen {e : ε} {w : W} (h : S.happen p.world e = some w) : Step p (.happen e) { p with world := w }

variable {S} {p p' : Pool W ι Op Res α} {l : Label ι φ ε}

theorem step_cases (h : p.step S l = some p') : Step S p l p' := by
  cases l with
  | start req =>
    cases h
    exact .start req
  | exec k f =>
    change p.exec S k f = some p' at h
    unfold exec at h
    split at h
    . cases h
    . next t htask =>
      split at h
      . cases h
      . next s o cont hprog =>
        have ⟨⟨w, r⟩, hperform, heq⟩ := Option.map_eq_some_iff.mp h
        cases heq
        exact .exec htask hprog hperform
  | happen e =>
    have ⟨w, hw, heq⟩ := Option.map_eq_some_iff.mp h
    cases heq
    exact .happen hw

theorem step_exec {k : Nat} {f : φ} {t : Task ι Op Res α} {s : Unit} {o : Op}
    {cont : Res o → Prog Unit Op Res α} {w : W} {r : Res o} (htask : p.tasks[k]? = some t)
    (hprog : t.prog = .wait s o cont) (hperform : S.perform p.world o f = some (w, r))
    : p.step S (.exec k f) = some {
        world := w
        tasks := p.tasks.set k { t with prog := cont r, trace := ⟨s, o, r⟩ :: t.trace }
      } := by
  change p.exec S k f = _
  simp only [exec, htask, hprog, hperform, Option.map_some]

/--
A task after a step is a new one, the same as before, or has performed one operation more.
-/
inductive TaskStep (S : Server W ι φ ε Op Res α) (p : Pool W ι Op Res α) (k : Nat)
    : Label ι φ ε → W → Task ι Op Res α → Prop where
  | new {l : Label ι φ ε} {w : W} (req : ι) (hnone : p.tasks[k]? = none)
      : TaskStep S p k l w { req, prog := (S.code req).start (), trace := [] }
  | same {l : Label ι φ ε} {w : W} {t : Task ι Op Res α} (htask : p.tasks[k]? = some t)
      : TaskStep S p k l w t
  | performed {f : φ} {t : Task ι Op Res α} {s : Unit} {o : Op}
      {cont : Res o → Prog Unit Op Res α} {w : W} {r : Res o}
      (htask : p.tasks[k]? = some t) (hprog : t.prog = .wait s o cont)
      (hperform : S.perform p.world o f = some (w, r))
      : TaskStep S p k (.exec k f) w { t with prog := cont r, trace := ⟨s, o, r⟩ :: t.trace }

theorem task_step (h : p.step S l = some p') {k : Nat} {t : Task ι Op Res α}
    (ht : p'.tasks[k]? = some t) : TaskStep S p k l p'.world t := by
  cases step_cases h with
  | start req =>
    rw [List.getElem?_append] at ht
    split at ht
    . exact .same ht
    . next hlen =>
      rw [List.getElem?_singleton] at ht
      split at ht
      . cases ht
        exact .new req (by simpa using hlen)
      . cases ht
  | @exec k' f t' s o cont w r htask hprog hperform =>
    rw [List.getElem?_set] at ht
    split at ht
    . next heq =>
      subst heq
      split at ht
      . cases ht
        exact .performed htask hprog hperform
      . cases ht
    . exact .same ht
  | happen h => exact .same ht

theorem record_eq {k : Nat} {t : Task ι Op Res α} (ht : p.tasks[k]? = some t)
    : p.record k = t.trace := by
  unfold record
  rw [ht]

theorem record_set {k : Nat} {t t' : Task ι Op Res α} (ht : p.tasks[k]? = some t) (w : W)
    : record { world := w, tasks := p.tasks.set k t' } k = t'.trace :=
  record_eq (List.getElem?_set_self (List.getElem?_eq_some_iff.mp ht).1)

/--
The record of a request after a step is the same as before, or has one operation more.
-/
inductive RecordStep (S : Server W ι φ ε Op Res α) (p : Pool W ι Op Res α) (k : Nat)
    : Label ι φ ε → W → Trace Unit Op Res → Prop where
  | same {l : Label ι φ ε} {w : W} : RecordStep S p k l w (p.record k)
  | performed {f : φ} {t : Task ι Op Res α} {s : Unit} {o : Op}
      {cont : Res o → Prog Unit Op Res α} {w : W} {r : Res o}
      (htask : p.tasks[k]? = some t) (hprog : t.prog = .wait s o cont)
      (hperform : S.perform p.world o f = some (w, r))
      : RecordStep S p k (.exec k f) w (⟨s, o, r⟩ :: p.record k)

theorem record_step (h : p.step S l = some p') (k : Nat)
    : RecordStep S p k l p'.world (p'.record k) := by
  cases ht : p'.tasks[k]? with
  | none =>
    have hnone : p.tasks[k]? = none := by
      cases step_cases h with
      | start req =>
        rw [List.getElem?_eq_none_iff, List.length_append] at ht
        rw [List.getElem?_eq_none_iff]
        omega
      | exec htask hprog hperform => simpa using ht
      | happen h => exact ht
    have heq : p'.record k = p.record k := by
      unfold record
      rw [ht, hnone]
    rw [heq]
    exact .same
  | some t =>
    rw [record_eq ht]
    cases task_step h ht with
    | new req hnone =>
      have heq : p.record k = [] := by
        unfold record
        rw [hnone]
      rw [← heq]
      exact .same
    | same htask =>
      rw [← record_eq htask]
      exact .same
    | performed htask hprog hperform =>
      rw [← record_eq htask]
      exact .performed htask hprog hperform

theorem record_subset (h : p.step S l = some p') (k : Nat) : p.record k ⊆ p'.record k := by
  have hrecord := record_step h k
  generalize p'.record k = trace at hrecord
  cases hrecord with
  | same => exact List.Subset.refl _
  | performed => exact List.subset_cons_self _ _

/--
Code that keeps to a contract keeps to it in every run.
-/
theorem sat_run {C : ι → Contract Unit Op Res} {Q : ι → α → Unit → Trace Unit Op Res → Prop}
    (hcode : ∀ req, ((S.code req).start ()).Sat (C req) (Q req) []) {w : W}
    {ls : List (Label ι φ ε)} (hrun : Lts.run (step S) (init w) ls = some p) {k : Nat}
    {t : Task ι Op Res α} (ht : p.tasks[k]? = some t)
    : t.prog.Sat (C t.req) (Q t.req) t.trace := by
  have hall : ∀ (k : Nat) (t : Task ι Op Res α), p.tasks[k]? = some t
      → t.prog.Sat (C t.req) (Q t.req) t.trace := by
    apply Lts.run_stable (P := fun p => ∀ (k : Nat) (t : Task ι Op Res α), p.tasks[k]? = some t
      → t.prog.Sat (C t.req) (Q t.req) t.trace) _ (by simp [init]) hrun
    intro p l p' hp hstep k t ht
    cases task_step hstep ht with
    | new req hnone => exact hcode req
    | same htask => exact hp k t htask
    | @performed f t s o cont w r htask hprog hperform =>
      have hsat := hp k t htask
      rw [hprog] at hsat
      exact hsat.2 r
  exact hall k t ht

/--
What `g` notes down of everything that was performed for the requests.
-/
def notes {β : Type} (g : Performed Unit Op Res → Option β) (p : Pool W ι Op Res α) : List β :=
  p.tasks.flatMap fun t => t.trace.filterMap g

section

variable {β : Type} {g : Performed Unit Op Res → Option β} {k : Nat} {t : Task ι Op Res α}
  {e : Performed Unit Op Res} {prog : Prog Unit Op Res α} {w : W}

theorem notes_start (req : ι)
    : notes g { p with tasks := p.tasks ++ [{ req, prog, trace := [] }] } = notes g p := by
  simp [notes]

theorem notes_sublist {g' : Performed Unit Op Res → Option β}
    (h : ∀ t ∈ p.tasks, (t.trace.filterMap g).Sublist (t.trace.filterMap g'))
    : (notes g p).Sublist (notes g' p) := by
  unfold notes
  generalize p.tasks = tasks at h
  induction tasks with
  | nil => exact List.Sublist.refl _
  | cons t tasks ih =>
    rw [List.flatMap_cons, List.flatMap_cons]
    refine (h t List.mem_cons_self).append (ih ?_)
    intro t ht
    exact h t (List.mem_cons_of_mem _ ht)

/--
The notes of the other tasks stand around those of a task that has performed an operation.
-/
theorem exists_notes_eq (htask : p.tasks[k]? = some t)
    : ∃ before after, notes g p = before ++ (t.trace.filterMap g ++ after)
      ∧ ∀ (w : W) (prog : Prog Unit Op Res α) (e : Performed Unit Op Res),
        notes g { world := w, tasks := p.tasks.set k { t with prog, trace := e :: t.trace } }
          = before ++ ((e :: t.trace).filterMap g ++ after) := by
  have ⟨hlt, hget⟩ := List.getElem?_eq_some_iff.mp htask
  have hsplit : p.tasks = p.tasks.take k ++ t :: p.tasks.drop (k + 1) := by
    rw [← hget, List.getElem_cons_drop, List.take_append_drop]
  refine ⟨(p.tasks.take k).flatMap fun t => t.trace.filterMap g,
    (p.tasks.drop (k + 1)).flatMap fun t => t.trace.filterMap g, ?_, ?_⟩
  . unfold notes
    conv =>
      lhs
      rw [hsplit]
    rw [List.flatMap_append, List.flatMap_cons]
  . intro w prog e
    unfold notes
    rw [List.set_eq_take_cons_drop _ hlt, List.flatMap_append, List.flatMap_cons]

theorem notes_exec_none (htask : p.tasks[k]? = some t) (hnone : g e = none)
    : notes g { world := w, tasks := p.tasks.set k { t with prog, trace := e :: t.trace } }
      = notes g p := by
  have ⟨before, after, heq, heq'⟩ := exists_notes_eq (g := g) htask
  rw [heq', heq, List.filterMap_cons_none hnone]

theorem notes_exec_first {b : β} (htask : p.tasks[k]? = some t) (hsome : g e = some b)
    (hnil : notes g p = [])
    : notes g { world := w, tasks := p.tasks.set k { t with prog, trace := e :: t.trace } }
      = [b] := by
  have ⟨before, after, heq, heq'⟩ := exists_notes_eq (g := g) htask
  rw [heq, List.append_eq_nil_iff, List.append_eq_nil_iff] at hnil
  rw [heq', List.filterMap_cons_some hsome, hnil.1, hnil.2.1, hnil.2.2]
  rfl

end

/--
In one of the steps of the run, in the world `w`, `o` was performed for the request `k` with the
result `r`.
-/
def Did (S : Server W ι φ ε Op Res α) (w0 : W) (ls : List (Label ι φ ε)) (k : Nat) (req : ι) (o : Op)
    (r : Res o) (w : W) : Prop :=
  ∃ ls1 f ls2 p1 t s cont w', ls = ls1 ++ .exec k f :: ls2
    ∧ Lts.run (step S) (init w0) ls1 = some p1 ∧ p1.world = w
    ∧ p1.tasks[k]? = some t ∧ t.req = req ∧ t.prog = .wait s o cont
    ∧ S.perform w o f = some (w', r)

theorem Did.append {w0 : W} {ls : List (Label ι φ ε)} {k : Nat} {req : ι} {o : Op} {r : Res o} {w : W}
    (h : Did S w0 ls k req o r w) (ls' : List (Label ι φ ε)) : Did S w0 (ls ++ ls') k req o r w := by
  have ⟨ls1, f, ls2, p1, t, s, cont, w', heq, hrest⟩ := h
  exact ⟨ls1, f, ls2 ++ ls', p1, t, s, cont, w', by rw [heq]; simp, hrest⟩

/--
A task stays in its place, serves the same request and forgets nothing.
-/
theorem task_persists (h : p.step S l = some p') {k : Nat} {t : Task ι Op Res α}
    (ht : p.tasks[k]? = some t)
    : ∃ t', p'.tasks[k]? = some t' ∧ t'.req = t.req ∧ t.trace ⊆ t'.trace := by
  have hlt := (List.getElem?_eq_some_iff.mp ht).1
  cases step_cases h with
  | start req => exact ⟨t, by rw [List.getElem?_append_left hlt, ht], rfl, List.Subset.refl _⟩
  | @exec k' f t' s o cont w r htask hprog hperform =>
    by_cases hk : k' = k
    . subst hk
      rw [ht] at htask
      cases htask
      exact ⟨_, List.getElem?_set_self hlt, rfl, List.subset_cons_self _ _⟩
    . exact ⟨t, by rw [List.getElem?_set_ne hk, ht], rfl, List.Subset.refl _⟩
  | happen h => exact ⟨t, ht, rfl, List.Subset.refl _⟩

/--
What stands in the record of a task was performed in one of the steps of the run.
-/
theorem did_of_mem_trace {w0 : W} {ls : List (Label ι φ ε)}
    (hrun : Lts.run (step S) (init w0) ls = some p) {k : Nat} {t : Task ι Op Res α}
    (ht : p.tasks[k]? = some t) {s : Unit} {o : Op} {r : Res o} (hmem : ⟨s, o, r⟩ ∈ t.trace)
    : ∃ w, Did S w0 ls k t.req o r w := by
  induction ls using List.reverseRecOn generalizing p t with
  | nil =>
    cases hrun
    simp [init] at ht
  | append_singleton ls l ih =>
    have ⟨p1, hrun1, hlast⟩ := (Lts.run_append_eq_some (step S)).mp hrun
    have ⟨p2, hstep, hnil⟩ := (Lts.run_cons_eq_some (step S)).mp hlast
    cases hnil
    have hearlier : ∀ t1, p1.tasks[k]? = some t1 → ⟨s, o, r⟩ ∈ t1.trace
        → ∃ w, Did S w0 (ls ++ [l]) k t1.req o r w := by
      intro t1 ht1 hmem1
      have ⟨w, hdid⟩ := ih hrun1 ht1 hmem1
      exact ⟨w, hdid.append [l]⟩
    cases task_step hstep ht with
    | new req hnone => cases hmem
    | same htask => exact hearlier t htask hmem
    | @performed f t1 s' o' cont w' r' htask hprog hperform =>
      cases List.mem_cons.mp hmem with
      | inl heq =>
        cases heq
        exact ⟨p1.world, ls, f, [], p1, t1, s, cont, p.world, rfl, hrun1, rfl, htask, rfl, hprog,
          hperform⟩
      | inr hmem => exact hearlier t1 htask hmem

/--
What was performed in one of the steps of the run stands in the record of its task.
-/
theorem mem_trace_of_did {w0 w : W} {ls : List (Label ι φ ε)} {k : Nat} {req : ι} {o : Op} {r : Res o}
    (hrun : Lts.run (step S) (init w0) ls = some p) (hdid : Did S w0 ls k req o r w)
    {t : Task ι Op Res α} (ht : p.tasks[k]? = some t) : ⟨(), o, r⟩ ∈ t.trace := by
  have ⟨ls1, f, ls2, p1, t1, s, cont, w', heq, hrun1, hw, ht1, hreq, hprog, hperform⟩ := hdid
  subst heq hw
  have ⟨p1', hrun1', hrest⟩ := (Lts.run_append_eq_some (step S)).mp hrun
  cases hrun1.symm.trans hrun1'
  have ⟨p2, hstep, hrun2⟩ := (Lts.run_cons_eq_some (step S)).mp hrest
  rw [step_exec ht1 hprog hperform] at hstep
  cases hstep
  rw [← record_eq ht]
  refine Lts.run_stable (P := fun p => ⟨(), o, r⟩ ∈ p.record k) ?_ ?_ hrun2
  . intro p l p' hmem hstep
    exact record_subset hstep k hmem
  . rw [record_set ht1]
    exact List.mem_cons_self

theorem task_of_mem_record {k : Nat} {e : Performed Unit Op Res} (h : e ∈ p.record k)
    : ∃ t, p.tasks[k]? = some t ∧ e ∈ t.trace := by
  unfold record at h
  split at h
  . next t ht => exact ⟨t, ht, h⟩
  . cases h

end Pool

end Fiber
