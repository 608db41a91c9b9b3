import Mathlib

/-!
This module contains the row locks of a database: the modes a transaction can lock a row in, which
of them exclude each other, and tables of the locks that transactions hold. A lock is granted only
while no other transaction holds a conflicting one, and is held until its transaction ends.
-/

/--
The modes of row locks that are used here, from the weakest one: `FOR KEY SHARE`,
`FOR NO KEY UPDATE` and `FOR UPDATE`.
-/
inductive LockMode where
  | keyShare
  | noKeyUpdate
  | update
deriving Repr, DecidableEq

namespace LockMode

def conflicts : LockMode → LockMode → Bool
  | update, _ | _, update => true
  | noKeyUpdate, noKeyUpdate => true
  | _, _ => false

theorem conflicts_comm (m m' : LockMode) : m.conflicts m' = m'.conflicts m := by
  cases m <;> cases m' <;> rfl

@[simp]
theorem conflicts_update (m : LockMode) : m.conflicts .update = true := by
  cases m <;> rfl

end LockMode

/--
The locks that each transaction holds.
-/
abbrev LockTable (ρ : Type) := List (List (ρ × LockMode))

namespace LockTable

variable {ρ : Type}

/--
The locks of the transaction `x`.
-/
def heldBy (t : LockTable ρ) (x : Nat) : List (ρ × LockMode) :=
  t.getD x []

def acquire (t : LockTable ρ) (x : Nat) (r : ρ) (m : LockMode) : LockTable ρ :=
  t.set x ((r, m) :: t.heldBy x)

/--
Drop all locks of a transaction.
-/
def release (t : LockTable ρ) (x : Nat) : LockTable ρ :=
  t.set x []

/--
No two transactions hold conflicting locks on one row.
-/
def Exclusive (t : LockTable ρ) : Prop :=
  ∀ x y r m m', x ≠ y → (r, m) ∈ t.heldBy x → (r, m') ∈ t.heldBy y → m.conflicts m' = false

theorem heldBy_set_self {t : LockTable ρ} {x : Nat} (hx : x < t.length)
    (ls : List (ρ × LockMode)) : heldBy (t.set x ls) x = ls := by
  simp [heldBy, hx]

theorem heldBy_set_ne {t : LockTable ρ} {x y : Nat} (h : y ≠ x) (ls : List (ρ × LockMode))
    : heldBy (t.set x ls) y = t.heldBy y := by
  simp [heldBy, List.getElem?_set_ne h.symm]

theorem heldBy_acquire_self {t : LockTable ρ} {x : Nat} (hx : x < t.length) (r : ρ) (m : LockMode)
    : (t.acquire x r m).heldBy x = (r, m) :: t.heldBy x :=
  heldBy_set_self hx _

theorem heldBy_acquire_ne {t : LockTable ρ} {x y : Nat} (h : y ≠ x) (r : ρ) (m : LockMode)
    : (t.acquire x r m).heldBy y = t.heldBy y :=
  heldBy_set_ne h _

theorem heldBy_release_ne {t : LockTable ρ} {x y : Nat} (h : y ≠ x)
    : (t.release x).heldBy y = t.heldBy y :=
  heldBy_set_ne h _

/--
A transaction that begins holds no locks, and the others keep theirs.
-/
theorem heldBy_append_nil (t : LockTable ρ) (x : Nat) : heldBy (t ++ [[]]) x = t.heldBy x := by
  unfold heldBy
  by_cases hx : x < t.length
  . simp [List.getElem?_append_left hx]
  . have hle : t.length ≤ x := by omega
    rw [List.getD_eq_getElem?_getD, List.getD_eq_getElem?_getD, List.getElem?_append_right hle,
      List.getElem?_eq_none hle]
    cases x - t.length <;> simp

theorem exclusive_nil : Exclusive ([] : LockTable ρ) := by
  intro x y r m m' _ hx
  simp [heldBy] at hx

theorem Exclusive.append_nil {t : LockTable ρ} (h : t.Exclusive) : Exclusive (t ++ [[]]) := by
  intro x y r m m'
  rw [heldBy_append_nil, heldBy_append_nil]
  exact h x y r m m'

theorem Exclusive.release {t : LockTable ρ} (h : t.Exclusive) (x : Nat)
    : Exclusive (t.release x) := by
  have hsub : ∀ y l, l ∈ (t.release x).heldBy y → l ∈ t.heldBy y := by
    intro y l hl
    by_cases hy : y = x
    . subst hy
      by_cases hlt : y < t.length
      . simp [LockTable.release, heldBy_set_self hlt] at hl
      . rwa [LockTable.release, List.set_eq_of_length_le (Nat.le_of_not_lt hlt)] at hl
    . rwa [heldBy_release_ne hy] at hl
  intro y z r m m' hne hy hz
  exact h y z r m m' hne (hsub y _ hy) (hsub z _ hz)

variable [DecidableEq ρ]

/--
No transaction other than `x` holds a lock on the row that conflicts with `m`.
-/
def free (t : LockTable ρ) (x : Nat) (r : ρ) (m : LockMode) : Bool :=
  (List.range t.length).all fun y =>
    y = x || (t.heldBy y).all fun l => l.1 ≠ r || !m.conflicts l.2

theorem free_iff {t : LockTable ρ} {x : Nat} {r : ρ} {m : LockMode}
    : t.free x r m ↔ ∀ y m', y ≠ x → (r, m') ∈ t.heldBy y → m.conflicts m' = false := by
  unfold free
  simp only [List.all_eq_true, List.mem_range, Bool.or_eq_true, decide_eq_true_eq,
    Bool.not_eq_true', ne_eq]
  constructor
  . intro h y m' hne hmem
    have hy : y < t.length := by
      by_contra hle
      simp [heldBy, List.getElem?_eq_none (Nat.le_of_not_lt hle)] at hmem
    have hall := (h y hy).resolve_left hne (r, m') hmem
    exact hall.resolve_left (by simp)
  . intro h y _
    by_cases hyx : y = x
    . exact .inl hyx
    . right
      intro l hl
      by_cases hr : l.1 = r
      . exact .inr (h y l.2 hyx (hr ▸ hl))
      . exact .inl hr

theorem Exclusive.acquire {t : LockTable ρ} (h : t.Exclusive) {x : Nat} {r : ρ} {m : LockMode}
    (hx : x < t.length) (hfree : t.free x r m) : Exclusive (t.acquire x r m) := by
  rw [free_iff] at hfree
  intro y z r' m1 m2 hne hy hz
  by_cases hyx : y = x
  . subst hyx
    rw [heldBy_acquire_ne hne.symm] at hz
    rw [heldBy_acquire_self hx] at hy
    cases List.mem_cons.mp hy with
    | inl heq =>
      cases heq
      exact hfree z m2 hne.symm hz
    | inr hy => exact h _ _ _ _ _ hne hy hz
  . rw [heldBy_acquire_ne hyx] at hy
    by_cases hzx : z = x
    . subst hzx
      rw [heldBy_acquire_self hx] at hz
      cases List.mem_cons.mp hz with
      | inl heq =>
        cases heq
        rw [LockMode.conflicts_comm]
        exact hfree y m1 hyx hy
      | inr hz => exact h _ _ _ _ _ hne hy hz
    . rw [heldBy_acquire_ne hzx] at hz
      exact h _ _ _ _ _ hne hy hz

end LockTable
