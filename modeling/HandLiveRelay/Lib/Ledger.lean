import HandLiveRelay.Lib.Table

/-!
This module contains ledgers: tables that hold an amount per key and are only ever added to. The sum
over the keys that match grows by exactly what is added under them.
-/

/--
An amount for each of finitely many keys.
-/
abbrev Ledger (κ M : Type) := Table (κ × M) (Prod.fst : κ × M → κ)

namespace Ledger

variable {κ M : Type} [AddCommMonoid M]

/--
The sum of the amounts whose key matches.
-/
def sumOf (p : κ → Bool) (rows : List (κ × M)) : M :=
  ((rows.filter fun r => p r.1).map Prod.snd).sum

def sum (p : κ → Bool) (l : Ledger κ M) : M :=
  sumOf p l.rows

@[simp]
theorem sumOf_nil (p : κ → Bool) : sumOf p ([] : List (κ × M)) = 0 := by
  simp [sumOf]

theorem sumOf_cons (p : κ → Bool) (r : κ × M) (rows : List (κ × M))
    : sumOf p (r :: rows) = (if p r.1 then r.2 else 0) + sumOf p rows := by
  unfold sumOf
  rw [List.filter_cons]
  split <;> simp

theorem sumOf_append (p : κ → Bool) (rows rows' : List (κ × M))
    : sumOf p (rows ++ rows') = sumOf p rows + sumOf p rows' := by
  simp [sumOf]

/--
The sum over the whole table.
-/
theorem sumOf_true (rows : List (κ × M)) : sumOf (fun _ => true) rows = (rows.map Prod.snd).sum := by
  simp [sumOf]

/--
The same amounts under other keys.
-/
theorem sumOf_map {κ' : Type} (p : κ' → Bool) (g : κ → κ') (rows : List (κ × M))
    : sumOf p (rows.map fun r => (g r.1, r.2)) = sumOf (fun k => p (g k)) rows := by
  induction rows with
  | nil => rfl
  | cons r rows ih => rw [List.map_cons, sumOf_cons, sumOf_cons, ih]

variable [DecidableEq κ]

/--
Add an amount to the one of a key, which is zero if there is none yet.
-/
def add (l : Ledger κ M) (k : κ) (m : M) : Ledger κ M :=
  match h : l.find? k with
  | some _ => l.update (fun r => if r.1 = k then (r.1, r.2 + m) else r) (by intro r; split <;> rfl)
  | none => l.insert (k, 0 + m) h

def addAll (l : Ledger κ M) (rows : List (κ × M)) : Ledger κ M :=
  rows.foldl (fun l r => l.add r.1 r.2) l

/--
Adding to a row that is there once adds once.
-/
theorem sumOf_map_add (p : κ → Bool) {rows : List (κ × M)} {k : κ} (m : M)
    (hnodup : (rows.map Prod.fst).Nodup) (hmem : ∃ r ∈ rows, r.1 = k)
    : sumOf p (rows.map fun r => if r.1 = k then (r.1, r.2 + m) else r)
      = sumOf p rows + if p k then m else 0 := by
  induction rows with
  | nil =>
    have ⟨r, hr, _⟩ := hmem
    cases hr
  | cons hd tl ih =>
    rw [List.map_cons, List.nodup_cons] at hnodup
    rw [List.map_cons, sumOf_cons, sumOf_cons]
    by_cases hk : hd.1 = k
    . have htl : tl.map (fun r => if r.1 = k then (r.1, r.2 + m) else r) = tl := by
        conv =>
          rhs
          rw [← List.map_id tl]
        apply List.map_congr_left
        intro r hr
        rw [if_neg]
        . rfl
        . intro heq
          exact hnodup.1 (hk.trans heq.symm ▸ List.mem_map_of_mem hr)
      rw [if_pos hk, htl]
      subst hk
      dsimp only
      split
      . exact add_right_comm _ _ _
      . rw [add_zero]
    . have htl : ∃ r ∈ tl, r.1 = k := by
        have ⟨r, hr, hrk⟩ := hmem
        cases List.mem_cons.mp hr with
        | inl heq => exact absurd (heq ▸ hrk) hk
        | inr hr => exact ⟨r, hr, hrk⟩
      rw [if_neg hk, ih hnodup.2 htl, add_assoc]

theorem sum_add (p : κ → Bool) (l : Ledger κ M) (k : κ) (m : M)
    : sum p (l.add k m) = sum p l + if p k then m else 0 := by
  unfold sum add
  split
  . next r h => exact sumOf_map_add p m l.nodup ⟨r, Table.mem_of_find? h, Table.key_of_find? h⟩
  . dsimp only [Table.insert]
    rw [sumOf_append, sumOf_cons, sumOf_nil, add_zero, zero_add]

theorem sum_addAll (p : κ → Bool) (l : Ledger κ M) (rows : List (κ × M))
    : sum p (l.addAll rows) = sum p l + sumOf p rows := by
  unfold addAll
  induction rows generalizing l with
  | nil => rw [List.foldl_nil, sumOf_nil, add_zero]
  | cons r rows ih => rw [List.foldl_cons, ih, sum_add, sumOf_cons, add_assoc]

end Ledger
