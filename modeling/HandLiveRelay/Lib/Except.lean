import Mathlib

/-!
This module contains the inversion rules for computations in `Except`.
-/

theorem List.Forall₂.exists_of_mem {α β : Type} {R : α → β → Prop} {l : List α} {l' : List β}
    (h : List.Forall₂ R l l') {a : α} (ha : a ∈ l) : ∃ b ∈ l', R a b := by
  induction h with
  | nil => cases ha
  | @cons a' b l l' hR _ ih =>
    cases List.mem_cons.mp ha with
    | inl heq => exact ⟨b, List.mem_cons_self, heq ▸ hR⟩
    | inr ha =>
      have ⟨b', hb', hR'⟩ := ih ha
      exact ⟨b', List.mem_cons_of_mem b hb', hR'⟩

/--
Choose a related element for every element of a list.
-/
theorem List.exists_forall₂_of_forall {α β : Type} {R : α → β → Prop} {l : List α}
    (h : ∀ a ∈ l, ∃ b, R a b) : ∃ l', List.Forall₂ R l l' := by
  induction l with
  | nil => exact ⟨[], .nil⟩
  | cons a l ih =>
    have ⟨b, hb⟩ := h a List.mem_cons_self
    have ⟨l', hl'⟩ := ih (fun a' ha' => h a' (List.mem_cons_of_mem a ha'))
    exact ⟨b :: l', .cons hb hl'⟩

namespace Except

variable {ε α β : Type}

theorem bind_eq_ok {x : Except ε α} {f : α → Except ε β} {b : β}
    : (x >>= f) = .ok b ↔ ∃ a, x = .ok a ∧ f a = .ok b := by
  cases x with
  | error e =>
    constructor
    . intro h
      cases h
    . intro ⟨_, h, _⟩
      cases h
  | ok a =>
    constructor
    . intro h
      exact ⟨a, rfl, h⟩
    . intro ⟨_, ha, h⟩
      cases ha
      exact h

theorem bind_eq_error {x : Except ε α} {f : α → Except ε β} {e : ε}
    : (x >>= f) = .error e ↔ x = .error e ∨ ∃ a, x = .ok a ∧ f a = .error e := by
  cases x with
  | error e' =>
    constructor
    . intro h
      injection h with h
      exact .inl (congrArg _ h)
    . rintro (h | ⟨_, h, _⟩)
      . injection h with h
        exact congrArg _ h
      . cases h
  | ok a =>
    constructor
    . intro h
      exact .inr ⟨a, rfl, h⟩
    . rintro (h | ⟨_, ha, h⟩)
      . cases h
      . cases ha
        exact h

/--
A list is mapped without an error exactly if every element is.
-/
theorem mapM_eq_ok {f : α → Except ε β} {l : List α} {r : List β}
    : l.mapM f = .ok r ↔ List.Forall₂ (fun a b => f a = .ok b) l r := by
  induction l generalizing r with
  | nil =>
    rw [List.mapM_nil, List.forall₂_nil_left_iff]
    constructor
    . intro h
      injection h with h
      exact h.symm
    . intro h
      rw [h]
      rfl
  | cons a l ih =>
    rw [List.mapM_cons, bind_eq_ok, List.forall₂_cons_left_iff]
    constructor
    . intro ⟨b, hb, h⟩
      rw [bind_eq_ok] at h
      have ⟨r', hr', h⟩ := h
      injection h with h
      exact ⟨b, r', hb, ih.mp hr', h.symm⟩
    . intro ⟨b, r', hb, hr', h⟩
      refine ⟨b, hb, ?_⟩
      rw [bind_eq_ok, h]
      exact ⟨r', ih.mpr hr', rfl⟩

/--
The error of a mapped list is the error of one of its elements.
-/
theorem exists_of_mapM_eq_error {f : α → Except ε β} {l : List α} {e : ε}
    (h : l.mapM f = .error e) : ∃ a ∈ l, f a = .error e := by
  induction l with
  | nil => cases h
  | cons a l ih =>
    rw [List.mapM_cons, bind_eq_error] at h
    obtain h | ⟨b, _, h⟩ := h
    . exact ⟨a, List.mem_cons_self, h⟩
    . rw [bind_eq_error] at h
      obtain h | ⟨_, _, h⟩ := h
      . have ⟨a', ha', he⟩ := ih h
        exact ⟨a', List.mem_cons_of_mem a ha', he⟩
      . cases h

end Except
