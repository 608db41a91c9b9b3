import Mathlib

/-!
This module contains tables of rows with a primary key. That no two rows share a key is part of a
table, so each statement that writes one comes with the reason why it keeps the key unique. The
lemmas describe every write through `find?`, the row stored under a key.
-/

/--
Rows whose keys are pairwise distinct.
-/
structure Table (ρ : Type) {κ : Type} (key : ρ → κ) where
  rows : List ρ
  nodup : (rows.map key).Nodup

namespace Table

variable {ρ κ : Type} {key : ρ → κ}

def empty : Table ρ key where
  rows := []
  nodup := List.nodup_nil

/--
Delete the rows that match.
-/
def delete (t : Table ρ key) (p : ρ → Bool) : Table ρ key where
  rows := t.rows.filter (fun r => !p r)
  nodup := t.nodup.sublist (List.filter_sublist.map key)

/--
Rewrite every row. The condition of an update is part of `f`, which keeps the key.
-/
def update (t : Table ρ key) (f : ρ → ρ) (hf : ∀ r, key (f r) = key r) : Table ρ key where
  rows := t.rows.map f
  nodup := by
    rw [List.map_map]
    have : key ∘ f = key := funext hf
    rw [this]
    exact t.nodup

theorem mem_rows_update {t : Table ρ key} {f : ρ → ρ} {hf} {r : ρ}
    : r ∈ (t.update f hf).rows ↔ ∃ r' ∈ t.rows, f r' = r := by
  simp [update]

theorem mem_rows_delete {t : Table ρ key} {p : ρ → Bool} {r : ρ}
    : r ∈ (t.delete p).rows ↔ r ∈ t.rows ∧ p r = false := by
  simp [delete]

variable [DecidableEq κ]

/--
The row with a given key.
-/
def find? (t : Table ρ key) (k : κ) : Option ρ :=
  t.rows.find? (fun r => decide (key r = k))

theorem mem_rows_iff {t : Table ρ key} {r : ρ} : r ∈ t.rows ↔ t.find? (key r) = some r := by
  rcases t with ⟨rows, nodup⟩
  dsimp only [find?]
  induction rows with
  | nil => simp
  | cons hd tl ih =>
    rw [List.map_cons, List.nodup_cons] at nodup
    rw [List.mem_cons, List.find?_cons]
    by_cases hkey : key hd = key r
    . simp only [hkey, decide_true, Option.some.injEq]
      constructor
      . intro h
        cases h with
        | inl h => exact h.symm
        | inr h => exact absurd (List.mem_map_of_mem h) (hkey ▸ nodup.1)
      . intro h
        exact .inl h.symm
    . simp only [hkey, decide_false]
      rw [← ih nodup.2]
      constructor
      . intro h
        cases h with
        | inl h => exact absurd (h ▸ rfl) hkey
        | inr h => exact h
      . exact .inr

theorem key_of_find? {t : Table ρ key} {k : κ} {r : ρ} (h : t.find? k = some r) : key r = k := by
  simpa using List.find?_some h

theorem mem_of_find? {t : Table ρ key} {k : κ} {r : ρ} (h : t.find? k = some r) : r ∈ t.rows :=
  List.mem_of_find?_eq_some h

theorem find?_eq_none_iff {t : Table ρ key} {k : κ}
    : t.find? k = none ↔ ∀ r ∈ t.rows, key r ≠ k := by
  simp [find?]

/--
Add a row whose key is not taken.
-/
def insert (t : Table ρ key) (r : ρ) (h : t.find? (key r) = none) : Table ρ key where
  rows := t.rows ++ [r]
  nodup := by
    rw [List.map_append, List.map_singleton, List.nodup_append]
    refine ⟨t.nodup, List.nodup_singleton _, ?_⟩
    intro k hk k' hk'
    rw [List.mem_singleton] at hk'
    have ⟨r', hr', hkey⟩ := List.mem_map.mp hk
    rw [← hkey, hk']
    exact find?_eq_none_iff.mp h r' hr'

@[simp]
theorem find?_empty (k : κ) : (empty : Table ρ key).find? k = none := rfl

theorem find?_insert_self (t : Table ρ key) (r : ρ) (h)
    : (t.insert r h).find? (key r) = some r := by
  rw [← mem_rows_iff]
  simp [insert]

theorem find?_insert_ne (t : Table ρ key) (r : ρ) (h) {k : κ} (hk : key r ≠ k)
    : (t.insert r h).find? k = t.find? k := by
  simp [insert, find?, List.find?_append, hk]

theorem find?_update (t : Table ρ key) (f : ρ → ρ) (hf) (k : κ)
    : (t.update f hf).find? k = (t.find? k).map f := by
  simp only [update, find?, List.find?_map]
  congr 2
  funext r
  simp [hf]

theorem find?_delete (t : Table ρ key) (p : ρ → Bool) (k : κ)
    : (t.delete p).find? k = (t.find? k).filter (fun r => !p r) := by
  cases hfind : t.find? k with
  | none =>
    rw [find?_eq_none_iff] at hfind
    rw [Option.filter_none, find?_eq_none_iff]
    intro r hr
    exact hfind r (List.mem_of_mem_filter hr)
  | some r =>
    have hkey := key_of_find? hfind
    have hmem := mem_of_find? hfind
    subst hkey
    cases hp : p r with
    | false =>
      rw [Option.filter_some_pos (by simp [hp]), ← mem_rows_iff]
      simp [delete, hmem, hp]
    | true =>
      rw [Option.filter_some_neg (by simp [hp]), find?_eq_none_iff]
      intro r' hr' hkey'
      -- The only row with this key is `r`, and it is deleted.
      have hr'' := mem_rows_iff.mp (List.mem_of_mem_filter hr')
      rw [hkey', hfind] at hr''
      injection hr'' with heq
      subst heq
      simp [delete, hp] at hr'

theorem mem_rows_insert {t : Table ρ key} {r r' : ρ} {h}
    : r' ∈ (t.insert r h).rows ↔ r' ∈ t.rows ∨ r' = r := by
  simp [insert]

end Table
