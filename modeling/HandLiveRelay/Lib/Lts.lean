import Mathlib

/-!
This module contains labelled transition systems given by a partial step function, their runs over
a list of labels, and the induction rules for invariants of all the states of a run.
-/

namespace Lts

variable {σ ℓ : Type} (step : σ → ℓ → Option σ)

/--
Take the steps of a list of labels in order, `none` if one of them is not possible.
-/
def run : σ → List ℓ → Option σ
  | s, [] => some s
  | s, l :: ls => (step s l).bind (run · ls)

/--
Every step that is taken along the labels starts in a state that meets `C`.
-/
def Meets (C : σ → ℓ → Prop) : σ → List ℓ → Prop
  | _, [] => True
  | s, l :: ls => C s l ∧ ∀ s', step s l = some s' → Meets C s' ls

instance decidableMeets {C : σ → ℓ → Prop} [∀ s l, Decidable (C s l)]
    : ∀ s ls, Decidable (Meets step C s ls)
  | _, [] => isTrue trivial
  | s, l :: ls =>
    match h : step s l with
    | none => decidable_of_iff (C s l) ⟨fun hC => ⟨hC, by simp [h]⟩, fun hC => hC.1⟩
    | some s' =>
      have := decidableMeets (C := C) s' ls
      decidable_of_iff (C s l ∧ Meets step C s' ls)
        ⟨fun hC => ⟨hC.1, by simpa [h] using hC.2⟩, fun hC => ⟨hC.1, hC.2 s' h⟩⟩

/--
What `f` notes down at the steps along the labels, in order.
-/
def record {α : Type} (f : σ → ℓ → Option α) : σ → List ℓ → List α
  | _, [] => []
  | s, l :: ls => (f s l).toList ++ ((step s l).map (record f · ls)).getD []

/--
What becomes of a value `m` that `g` carries along with the steps, beside the state.
-/
def carry {γ : Type} (g : γ → σ → ℓ → σ → γ) : γ → σ → List ℓ → γ
  | m, _, [] => m
  | m, s, l :: ls =>
    match step s l with
    | none => m
    | some s' => carry g (g m s l s') s' ls

@[simp]
theorem run_nil (s : σ) : run step s [] = some s := rfl

theorem run_cons (s : σ) (l : ℓ) (ls : List ℓ)
    : run step s (l :: ls) = (step s l).bind (run step · ls) := rfl

theorem run_cons_eq_some {s s' : σ} {l : ℓ} {ls : List ℓ}
    : run step s (l :: ls) = some s' ↔ ∃ s1, step s l = some s1 ∧ run step s1 ls = some s' := by
  simp [run_cons, Option.bind_eq_some_iff]

theorem run_append (s : σ) (ls ls' : List ℓ)
    : run step s (ls ++ ls') = (run step s ls).bind (run step · ls') := by
  induction ls generalizing s with
  | nil => simp
  | cons l ls ih =>
    rw [List.cons_append, run_cons, run_cons]
    cases step s l with
    | none => rfl
    | some s1 => exact ih s1

theorem run_append_eq_some {s s' : σ} {ls ls' : List ℓ}
    : run step s (ls ++ ls') = some s'
        ↔ ∃ s1, run step s ls = some s1 ∧ run step s1 ls' = some s' := by
  simp [run_append, Option.bind_eq_some_iff]

variable {step}

/--
A property that one step keeps is kept by every run, where the steps of the run meet `C`.
-/
theorem run_invariant {C : σ → ℓ → Prop} {P : σ → Prop}
    (hstep : ∀ s l s', P s → C s l → step s l = some s' → P s')
    : ∀ {s s' : σ} {ls : List ℓ}, P s → Meets step C s ls → run step s ls = some s' → P s' := by
  intro s s' ls
  induction ls generalizing s with
  | nil =>
    intro hs _ hrun
    injection hrun with hrun
    exact hrun ▸ hs
  | cons l ls ih =>
    intro hs hmeets hrun
    rw [run_cons_eq_some] at hrun
    have ⟨s1, hs1, hrun⟩ := hrun
    apply ih
    . exact hstep s l s1 hs hmeets.1 hs1
    . exact hmeets.2 s1 hs1
    . exact hrun

theorem meets_of_forall {C : ℓ → Prop} {s : σ} {ls : List ℓ} (h : ∀ l ∈ ls, C l)
    : Meets step (fun _ l => C l) s ls := by
  induction ls generalizing s with
  | nil => trivial
  | cons l ls ih =>
    refine ⟨h l List.mem_cons_self, ?_⟩
    intro s' _
    apply ih
    intro l' hl'
    exact h l' (List.mem_cons_of_mem l hl')

theorem Meets.and {C D : σ → ℓ → Prop} {s : σ} {ls : List ℓ} (h : Meets step C s ls)
    (h' : Meets step D s ls) : Meets step (fun s l => C s l ∧ D s l) s ls := by
  induction ls generalizing s with
  | nil => trivial
  | cons l ls ih =>
    refine ⟨⟨h.1, h'.1⟩, ?_⟩
    intro s' hs'
    exact ih (h.2 s' hs') (h'.2 s' hs')

theorem meets_append {C : σ → ℓ → Prop} {s : σ} {ls ls' : List ℓ}
    : Meets step C s (ls ++ ls')
        ↔ Meets step C s ls ∧ ∀ s', run step s ls = some s' → Meets step C s' ls' := by
  induction ls generalizing s with
  | nil => simp [Meets]
  | cons l ls ih =>
    simp only [List.cons_append, Meets, ih, run_cons_eq_some]
    constructor
    . intro ⟨hl, hrest⟩
      refine ⟨⟨hl, fun s1 hs1 => (hrest s1 hs1).1⟩, ?_⟩
      intro s' ⟨s1, hs1, hrun⟩
      exact (hrest s1 hs1).2 s' hrun
    . intro ⟨⟨hl, hrest⟩, hlast⟩
      refine ⟨hl, fun s1 hs1 => ⟨hrest s1 hs1, ?_⟩⟩
      intro s' hrun
      exact hlast s' ⟨s1, hs1, hrun⟩

theorem Meets.imp {C D : σ → ℓ → Prop} (h : ∀ s l, C s l → D s l)
    : ∀ {s : σ} {ls : List ℓ}, Meets step C s ls → Meets step D s ls := by
  intro s ls
  induction ls generalizing s with
  | nil =>
    intro _
    trivial
  | cons l ls ih =>
    intro hmeets
    refine ⟨h s l hmeets.1, ?_⟩
    intro s' hs'
    exact ih (hmeets.2 s' hs')

/--
The rule of `run_invariant` for a property that every step keeps.
-/
theorem run_stable {P : σ → Prop} (hstep : ∀ s l s', P s → step s l = some s' → P s')
    {s s' : σ} {ls : List ℓ} (hs : P s) (hrun : run step s ls = some s') : P s' := by
  induction ls generalizing s with
  | nil =>
    injection hrun with hrun
    exact hrun ▸ hs
  | cons l ls ih =>
    rw [run_cons_eq_some] at hrun
    have ⟨s1, hs1, hrun⟩ := hrun
    exact ih (hstep s l s1 hs hs1) hrun

/--
The rule for a condition on the steps that is exact: where `C` is what it takes for a step to keep
`P`, all states of a run have `P` if and only if its steps meet `C`.
-/
theorem all_iff_meets {C : σ → ℓ → Prop} {P : σ → Prop} {s s' : σ} {ls : List ℓ}
    (hstep : ∀ s l s', l ∈ ls → P s → step s l = some s' → (P s' ↔ C s l)) (hs : P s)
    (hrun : run step s ls = some s')
    : (∀ ls1 s1, ls1 <+: ls → run step s ls1 = some s1 → P s1) ↔ Meets step C s ls := by
  induction ls generalizing s with
  | nil =>
    refine iff_of_true ?_ trivial
    intro ls1 s1 hls1 hrun1
    rw [List.prefix_nil.mp hls1] at hrun1
    cases hrun1
    exact hs
  | cons l ls ih =>
    obtain ⟨s1, hs1, hrun⟩ := (run_cons_eq_some step).mp hrun
    have hfirst := hstep s l s1 List.mem_cons_self hs hs1
    have hrest := fun hP : P s1 =>
      ih (fun s l s' hl => hstep s l s' (List.mem_cons_of_mem _ hl)) hP hrun
    constructor
    . intro hall
      have hP : P s1 := hall [l] s1 (by simp) ((run_cons_eq_some step).mpr ⟨s1, hs1, rfl⟩)
      refine ⟨hfirst.mp hP, ?_⟩
      intro s2 hs2
      cases hs1.symm.trans hs2
      apply (hrest hP).mp
      intro ls1 s2 hls1 hrun1
      exact hall (l :: ls1) s2 (List.cons_prefix_cons.mpr ⟨rfl, hls1⟩)
        ((run_cons_eq_some step).mpr ⟨s1, hs1, hrun1⟩)
    . rintro ⟨hC, hmeets⟩ ls1 s2 hls1 hrun1
      cases ls1 with
      | nil =>
        cases hrun1
        exact hs
      | cons l1 ls1 =>
        obtain ⟨rfl, htail⟩ := List.cons_prefix_cons.mp hls1
        obtain ⟨s3, hs3, hrun1⟩ := (run_cons_eq_some step).mp hrun1
        cases hs1.symm.trans hs3
        exact (hrest (hfirst.mpr hC)).mpr (hmeets s1 hs1) ls1 s2 htail hrun1

/--
The rule for a property of a state and of the labels that led to it, where the steps of the run meet
`C`.
-/
theorem run_history {C : σ → ℓ → Prop} {P : List ℓ → σ → Prop} {s0 : σ} (hinit : P [] s0)
    (hstep : ∀ ls s l s', run step s0 ls = some s → P ls s → C s l → step s l = some s'
      → P (ls ++ [l]) s')
    {ls : List ℓ} {s : σ} (hmeets : Meets step C s0 ls) (hrun : run step s0 ls = some s)
    : P ls s := by
  induction ls using List.reverseRecOn generalizing s with
  | nil =>
    injection hrun with hrun
    exact hrun ▸ hinit
  | append_singleton ls l ih =>
    have ⟨s1, hrun1, hlast⟩ := (run_append_eq_some step).mp hrun
    have ⟨s2, hs2, hnil⟩ := (run_cons_eq_some step).mp hlast
    cases hnil
    have ⟨hmeets1, hmeets2⟩ := meets_append.mp hmeets
    exact hstep ls s1 l s hrun1 (ih hmeets1 hrun1) (hmeets2 s1 hrun1).1 hs2

/--
The rule for a property of a state and of what was noted down on the way to it, where the steps of
the run meet `C`.
-/
theorem run_record_of_meets {α : Type} {f : σ → ℓ → Option α} {C : σ → ℓ → Prop}
    {P : List α → σ → Prop}
    (hstep : ∀ h s l s', P h s → C s l → step s l = some s' → P (h ++ (f s l).toList) s')
    {h : List α} {s s' : σ} {ls : List ℓ} (hs : P h s) (hmeets : Meets step C s ls)
    (hrun : run step s ls = some s')
    : P (h ++ record step f s ls) s' := by
  induction ls generalizing h s with
  | nil =>
    injection hrun with hrun
    rw [record, List.append_nil]
    exact hrun ▸ hs
  | cons l ls ih =>
    rw [run_cons_eq_some] at hrun
    have ⟨s1, hs1, hrun⟩ := hrun
    have h1 := ih (hstep h s l s1 hs hmeets.1 hs1) (hmeets.2 s1 hs1) hrun
    rw [record, hs1]
    rwa [List.append_assoc] at h1

theorem run_record {α : Type} {f : σ → ℓ → Option α} {P : List α → σ → Prop}
    (hstep : ∀ h s l s', P h s → step s l = some s' → P (h ++ (f s l).toList) s')
    {h : List α} {s s' : σ} {ls : List ℓ} (hs : P h s) (hrun : run step s ls = some s')
    : P (h ++ record step f s ls) s' := by
  apply run_record_of_meets (C := fun _ _ => True) _ hs _ hrun
  . intro h s l s' hs _
    exact hstep h s l s' hs
  . exact meets_of_forall (C := fun _ => True) (fun _ _ => trivial)

/--
The rule for a property of a state and of a value that is carried along, where the steps of the run
meet `C`.
-/
theorem run_carry {γ : Type} {g : γ → σ → ℓ → σ → γ} {C : σ → ℓ → Prop} {P : γ → σ → Prop}
    (hstep : ∀ m s l s', P m s → C s l → step s l = some s' → P (g m s l s') s')
    {m : γ} {s s' : σ} {ls : List ℓ} (hs : P m s) (hmeets : Meets step C s ls)
    (hrun : run step s ls = some s')
    : P (carry step g m s ls) s' := by
  induction ls generalizing m s with
  | nil =>
    injection hrun with hrun
    exact hrun ▸ hs
  | cons l ls ih =>
    rw [run_cons_eq_some] at hrun
    have ⟨s1, hs1, hrun⟩ := hrun
    rw [carry, hs1]
    exact ih (hstep m s l s1 hs hmeets.1 hs1) (hmeets.2 s1 hs1) hrun

theorem carry_append {γ : Type} {g : γ → σ → ℓ → σ → γ} {m : γ} {s s1 : σ} {ls ls' : List ℓ}
    (hrun : run step s ls = some s1)
    : carry step g m s (ls ++ ls') = carry step g (carry step g m s ls) s1 ls' := by
  induction ls generalizing m s with
  | nil =>
    injection hrun with hrun
    rw [List.nil_append, carry, hrun]
  | cons l ls ih =>
    rw [run_cons_eq_some] at hrun
    have ⟨s2, hs2, hrun⟩ := hrun
    rw [List.cons_append, carry, carry, hs2]
    exact ih hrun

end Lts
