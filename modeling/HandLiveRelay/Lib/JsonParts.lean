import HandLiveRelay.Lib.Json

/-!
This module contains the text of the parts of a JSON array or object: the characters between two of
its separators, where a member of an object has two parts, its name and its value. The parts do not
overlap, and a part is at least as long as the shortest text of its value, so the length of a text
bounds what its parts can be.
-/

namespace Json

/--
The length of a text in bytes.
-/
def bytes (s : List Char) : Nat :=
  (String.ofList s).utf8ByteSize

@[simp]
theorem bytes_nil : bytes [] = 0 := rfl

@[simp]
theorem bytes_append (s t : List Char) : bytes (s ++ t) = bytes s + bytes t := by
  simp [bytes, String.ofList_append]

theorem bytes_singleton (c : Char) : bytes [c] = c.utf8Size := by
  rw [bytes, ← String.singleton_eq_ofList, String.utf8ByteSize_singleton]

theorem bytes_cons (c : Char) (s : List Char) : bytes (c :: s) = c.utf8Size + bytes s := by
  rw [← List.singleton_append, bytes_append, bytes_singleton]

theorem bytes_toList (s : String) : bytes s.toList = s.utf8ByteSize := by
  rw [bytes, String.ofList_toList]

theorem length_le_bytes (s : List Char) : s.length ≤ bytes s := by
  induction s with
  | nil => exact Nat.le_refl 0
  | cons c s ih =>
    have := c.utf8Size_pos
    rw [bytes_cons, List.length_cons]
    omega

/--
What is left of a text without the white space around it.
-/
def trimWs (s : List Char) : List Char :=
  ((s.dropWhile isWs).reverse.dropWhile isWs).reverse

theorem bytes_le_of_sublist {s t : List Char} (h : s.Sublist t) : bytes s ≤ bytes t := by
  induction h with
  | slnil => exact Nat.le_refl 0
  | cons c _ ih =>
    rw [bytes_cons]
    omega
  | cons_cons c _ ih =>
    rw [bytes_cons, bytes_cons]
    omega

theorem bytes_trimWs_le (s : List Char) : bytes (trimWs s) ≤ bytes s := by
  apply bytes_le_of_sublist
  unfold trimWs
  rw [← List.reverse_sublist, List.reverse_reverse]
  exact (List.dropWhile_sublist isWs).trans (List.dropWhile_sublist isWs).reverse

/-!
The parts of a text.
-/

/--
A reader that also cuts the text at the separators of the outermost array or object: the parts that
are complete, and the characters of the current one.
-/
structure Cut where
  state : State
  done : List (List Char)
  current : List Char

namespace Cut

def start : Cut where
  state := .start
  done := []
  current := []

def step (x : Cut) (c : Char) : Option Cut :=
  (transition x.state.mode x.state.stack.head? c).map fun (mode, op) =>
    let state : State := ⟨mode, op.apply x.state.stack⟩
    match x.state.stack.length, op with
    | 0, _ => ⟨state, x.done, []⟩
    | 1, .swap _ | 1, .pop => ⟨state, x.done ++ [x.current], []⟩
    | _, _ => ⟨state, x.done, x.current ++ [c]⟩

end Cut

/--
The parts of a text. In an object every second part is a value.
-/
def parts (s : String) : List (List Char) :=
  ((Lts.run Cut.step .start s.toList).map Cut.done).getD []

def everySecond {α : Type} : List α → List α
  | _ :: a :: rest => a :: everySecond rest
  | _ => []

/-!
The reader that cuts is the reader.
-/

theorem Cut.map_state_step (x : Cut) (c : Char) : (x.step c).map Cut.state = x.state.step c := by
  unfold step State.step
  rw [Option.map_map]
  congr 1
  funext ⟨mode, op⟩
  dsimp only [Function.comp_apply]
  split <;> rfl

theorem Cut.exists_of_read {x : Cut} {s : List Char} {st : State} (h : read x.state s = some st)
    : ∃ x', Lts.run step x s = some x' ∧ x'.state = st := by
  induction s generalizing x with
  | nil =>
    cases h
    exact ⟨x, rfl, rfl⟩
  | cons c s ih =>
    have ⟨st1, hstep, hread⟩ := (Lts.run_cons_eq_some State.step).mp h
    rw [← map_state_step, Option.map_eq_some_iff] at hstep
    have ⟨x1, hx1, hst1⟩ := hstep
    have ⟨x', hrun, hst⟩ := ih (hst1 ▸ hread)
    exact ⟨x', (Lts.run_cons_eq_some step).mpr ⟨x1, hx1, hrun⟩, hst⟩

/-!
What a value costs.
-/

/--
A bound on the bytes of the texts of a value. A number and an array or object have none.
-/
def Value.cost : Value → Nat
  | null | bool _ => 4
  | string units => units.length + 2
  | number _ | array _ | object _ => 0

/--
The bytes a reader has seen of the value, or of the name, that it reads.
-/
def Mode.cost : Mode → Nat
  | .value _ | .name _ | .number _ => 0
  | .colon units => units.length + 2
  | .string _ units => units.length + 1
  | .escape _ units | .hex _ units _ _ => units.length + 2
  | .literal rest v => v.cost - rest.length
  | .after v => v.cost

/--
The values that the parts of a value stand for.
-/
def Value.items : Value → List Value
  | array items => items
  | object members => members.flatMap fun (name, v) => [.string name, v]
  | _ => []

def Frame.items : Frame → List Value
  | array items => items
  | object members => members.flatMap fun (name, v) => [.string name, v]
  | member members name => (members.flatMap fun (name, v) => [.string name, v]) ++ [.string name]

/--
The items of the value that is complete.
-/
def Mode.items : Mode → List Value
  | after v | literal _ v => v.items
  | _ => []

/--
What a character does, by what it adds to the frame at the top of the stack.
-/
inductive Charges (c : Char) (mode : Mode) (top : Option Frame) : Mode → StackOp → Prop where
  | keep {mode' : Mode} (hcost : mode'.cost ≤ mode.cost + c.utf8Size)
      (hitems : mode'.items = mode.items ∨ mode'.items = []) : Charges c mode top mode' .keep
  | push {mode' : Mode} {frame : Frame} (hframe : frame.items = []) (hcost : mode'.cost = 0)
      : Charges c mode top mode' (.push frame)
  | swap {mode' : Mode} {f frame : Frame} {v : Value} (htop : top = some f)
      (hitems : frame.items = f.items ++ [v]) (hv : v.cost ≤ mode.cost) (hcost : mode'.cost = 0)
      : Charges c mode top mode' (.swap frame)
  | close {f : Frame} {v' : Value} (htop : top = some f) (hitems : v'.items = f.items)
      (hcost : v'.cost = 0) : Charges c mode top (.after v') .pop
  | closeLast {f : Frame} {v v' : Value} (htop : top = some f) (hitems : v'.items = f.items ++ [v])
      (hv : v.cost ≤ mode.cost) (hcost : v'.cost = 0) : Charges c mode top (.after v') .pop

section

variable {c : Char} {mode mode' : Mode} {op : StackOp} {top : Option Frame} {v : Value}

theorem length_utf16_le (c : Char) : (utf16 c).length ≤ c.utf8Size := by
  have hpos := c.utf8Size_pos
  unfold utf16
  dsimp only
  split
  . exact hpos
  . next hlarge =>
    have hval : ¬ c.val ≤ 0xffff := by
      rw [UInt32.le_iff_toNat_le]
      exact fun h => hlarge (Nat.lt_succ_of_le h)
    have hsmall : ¬ c.val ≤ 0x7ff := by
      rw [UInt32.le_iff_toNat_le] at hval ⊢
      exact fun h => hval (Nat.le_trans h (by decide))
    have hascii : ¬ c.val ≤ 0x7f := by
      rw [UInt32.le_iff_toNat_le] at hval ⊢
      exact fun h => hval (Nat.le_trans h (by decide))
    unfold Char.utf8Size
    simp [hval, hsmall, hascii]

theorem first_charges (h : first c = some (mode', op)) : Charges c mode top mode' op := by
  have hpos := c.utf8Size_pos
  unfold first at h
  split at h
  . cases h
    exact .push rfl rfl
  . split at h
    . cases h
      exact .push rfl rfl
    . refine ?_
      split at h
      . cases h
        exact .keep (by simp [Mode.cost]; omega) (.inr rfl)
      . split at h
        . cases h
          exact .keep (by simp [Mode.cost, Value.cost]; omega) (.inr rfl)
        . split at h
          . cases h
            exact .keep (by simp [Mode.cost, Value.cost]) (.inr rfl)
          . split at h
            . cases h
              exact .keep (by simp [Mode.cost, Value.cost]; omega) (.inr rfl)
            . split at h
              . cases h
                exact .keep (Nat.zero_le _) (.inr rfl)
              . cases h

/--
The value that is complete is the one the mode has paid for.
-/
theorem next_charges (h : next v top c = some (mode', op)) (hv : v.cost ≤ mode.cost)
    (hitems : v.items = mode.items ∨ v.items = []) : Charges c mode top mode' op := by
  unfold next at h
  split at h
  . cases h
    exact .keep (Nat.le_add_right_of_le hv) hitems
  . split at h
    . split at h
      . cases h
        exact .swap rfl rfl hv rfl
      . split at h
        . cases h
          exact .closeLast rfl rfl hv rfl
        . cases h
    . next members name =>
      have hflat : (members ++ [(name, v)]).flatMap (fun (name, v) => [Value.string name, v])
          = (Frame.member members name).items ++ [v] := by
        simp [Frame.items]
      split at h
      . cases h
        exact .swap rfl hflat hv rfl
      . split at h
        . cases h
          exact .closeLast rfl hflat hv rfl
        . cases h
    . cases h

theorem token_charges (h : token mode c = some mode') : Charges c mode top mode' .keep := by
  have hpos := c.utf8Size_pos
  unfold token at h
  split at h
  . split at h
    . cases h
      unfold endString
      split
      . exact .keep (by simp [Mode.cost]; omega) (.inr rfl)
      . exact .keep (by simp [Mode.cost, Value.cost]; omega) (.inr rfl)
    . split at h
      . cases h
        exact .keep (by simp [Mode.cost]; omega) (.inr rfl)
      . split at h
        . cases h
        . cases h
          have := length_utf16_le c
          exact .keep (by simp [Mode.cost]; omega) (.inr rfl)
  . split at h
    . cases h
      exact .keep (by simp [Mode.cost]) (.inr rfl)
    . have ⟨u, _, heq⟩ := Option.map_eq_some_iff.mp h
      cases heq
      exact .keep (by simp [Mode.cost]) (.inr rfl)
  . have ⟨d, _, heq⟩ := Option.map_eq_some_iff.mp h
    cases heq
    exact .keep (by simp [Mode.cost]) (.inr rfl)
  . have ⟨d, _, heq⟩ := Option.map_eq_some_iff.mp h
    cases heq
    exact .keep (by simp [Mode.cost]) (.inr rfl)
  . split at h
    . cases h
      exact .keep (by simp [Mode.cost]; omega) (.inl rfl)
    . cases h
  . split at h
    . cases h
      exact .keep (by simp [Mode.cost]; omega) (.inl rfl)
    . cases h
  . cases h

theorem transition_charges (h : transition mode top c = some (mode', op))
    : Charges c mode top mode' op := by
  unfold transition at h
  split at h
  . split at h
    . cases h
      exact .keep (Nat.le_add_right _ _) (.inl rfl)
    . split at h
      . split at h
        . cases h
          exact .close rfl rfl rfl
        . cases h
      . exact first_charges h
  . split at h
    . cases h
      exact .keep (Nat.le_add_right _ _) (.inl rfl)
    . split at h
      . cases h
        have := c.utf8Size_pos
        exact .keep (by simp [Mode.cost]; omega) (.inr rfl)
      . split at h
        . split at h
          . cases h
            exact .close rfl rfl rfl
          . cases h
        . cases h
  . next name =>
    split at h
    . cases h
      exact .keep (Nat.le_add_right _ _) (.inl rfl)
    . split at h
      . split at h
        . cases h
          exact .swap rfl rfl (by simp [Value.cost, Mode.cost]) rfl
        . cases h
      . cases h
  . split at h
    . cases h
      exact .keep (Nat.zero_le _) (.inr rfl)
    . split at h
      . exact next_charges h (Nat.zero_le _) (.inr rfl)
      . cases h
  . exact next_charges h (Nat.le_refl _) (.inl rfl)
  all_goals
    have ⟨_, htoken, heq⟩ := Option.map_eq_some_iff.mp h
    cases heq
    exact token_charges htoken

end

/-!
The parts pay for the items.
-/

/--
Each part is as long as its item costs. There may be more parts than items, since the part of an
empty array or object has no item.
-/
def Pays (items : List Value) (parts : List (List Char)) : Prop :=
  ∃ paid rest, parts = paid ++ rest ∧ List.Forall₂ (fun v part => v.cost ≤ bytes part) items paid

/--
The bytes of the parts with a separator after each of them and one in front of the first.
-/
def spent (parts : List (List Char)) : Nat :=
  1 + (parts.map fun part => bytes part + 1).sum

theorem spent_concat (parts : List (List Char)) (part : List Char)
    : spent (parts ++ [part]) = spent parts + (bytes part + 1) := by
  simp [spent]
  omega

theorem forall₂_concat {items : List Value} {parts : List (List Char)} {v : Value}
    {part : List Char} (h : List.Forall₂ (fun v part => v.cost ≤ bytes part) items parts)
    (hv : v.cost ≤ bytes part)
    : List.Forall₂ (fun v part => v.cost ≤ bytes part) (items ++ [v]) (parts ++ [part]) := by
  induction h with
  | nil => exact .cons hv .nil
  | cons hhead _ ih => exact .cons hhead ih

/--
Where the reader is after `n` bytes: outside of the array or object, inside of it with its frame at
the bottom of the stack and maybe others above, or behind it.
-/
inductive Cut.At (n : Nat) : Cut → Prop where
  | outside {mode : Mode} (hitems : mode.items = []) : At n ⟨⟨mode, []⟩, [], []⟩
  | inside {mode : Mode} {bottom : Frame} {done : List (List Char)} {current : List Char}
      (hpaid : List.Forall₂ (fun v part => v.cost ≤ bytes part) bottom.items done)
      (hcost : mode.cost ≤ bytes current) (hspent : spent done + bytes current ≤ n)
      : At n ⟨⟨mode, [bottom]⟩, done, current⟩
  | deeper {mode : Mode} {f : Frame} {above : List Frame} {bottom : Frame}
      {done : List (List Char)} {current : List Char}
      (hpaid : List.Forall₂ (fun v part => v.cost ≤ bytes part) bottom.items done)
      (hspent : spent done + bytes current ≤ n)
      : At n ⟨⟨mode, f :: (above ++ [bottom])⟩, done, current⟩
  | behind {v : Value} {done : List (List Char)} (hpays : Pays v.items done) (hspent : spent done ≤ n)
      : At n ⟨⟨.after v, []⟩, done, []⟩

theorem Cut.step_eq_some {x x' : Cut} {c : Char} (h : x.step c = some x')
    : ∃ mode op, transition x.state.mode x.state.stack.head? c = some (mode, op)
      ∧ x' = match x.state.stack.length, op with
        | 0, _ => ⟨⟨mode, op.apply x.state.stack⟩, x.done, []⟩
        | 1, .swap _ | 1, .pop => ⟨⟨mode, op.apply x.state.stack⟩, x.done ++ [x.current], []⟩
        | _, _ => ⟨⟨mode, op.apply x.state.stack⟩, x.done, x.current ++ [c]⟩ := by
  unfold step at h
  have ⟨⟨mode, op⟩, htransition, heq⟩ := Option.map_eq_some_iff.mp h
  exact ⟨mode, op, htransition, heq.symm⟩

/--
A frame above the bottom one is complete.
-/
theorem Cut.At.pop {n : Nat} {v : Value} {above : List Frame} {bottom : Frame}
    {done : List (List Char)} {current : List Char}
    (hpaid : List.Forall₂ (fun v part => v.cost ≤ bytes part) bottom.items done) (hv : v.cost = 0)
    (hspent : spent done + bytes current ≤ n)
    : At n ⟨⟨.after v, above ++ [bottom]⟩, done, current⟩ := by
  cases above with
  | nil =>
    refine .inside hpaid ?_ hspent
    rw [Mode.cost, hv]
    exact Nat.zero_le _
  | cons f above => exact .deeper hpaid hspent

theorem Cut.At.step {n : Nat} {x x' : Cut} {c : Char} (h : x.At n) (hstep : x.step c = some x')
    : x'.At (n + c.utf8Size) := by
  have hpos := c.utf8Size_pos
  have ⟨mode', op, htransition, hx'⟩ := step_eq_some hstep
  subst hx'
  have hcharges := transition_charges htransition
  cases h with
  | @outside mode hitems =>
    cases hcharges with
    | keep _ hitems' =>
      refine .outside ?_
      cases hitems' with
      | inl heq => exact heq.trans hitems
      | inr heq => exact heq
    | push hframe hcost =>
      refine .inside (hframe ▸ .nil) (Nat.le_of_eq hcost) ?_
      simp [spent]
      omega
    | swap htop | close htop | closeLast htop => cases htop
  | @behind v done hpays hspent =>
    -- only white space may follow
    have hws : mode' = .after v ∧ op = .keep := by
      simp only [transition, List.head?_nil] at htransition
      unfold next at htransition
      split at htransition
      . cases htransition
        exact ⟨rfl, rfl⟩
      . cases htransition
    obtain ⟨rfl, rfl⟩ := hws
    exact .behind hpays (Nat.le_add_right_of_le hspent)
  | @inside mode bottom done current hpaid hcost hspent =>
    dsimp only at hcharges
    cases hcharges with
    | keep hkeep _ =>
      refine .inside hpaid ?_ ?_
      . rw [bytes_append, bytes_singleton]
        exact Nat.le_trans hkeep (Nat.add_le_add_right hcost _)
      . rw [bytes_append, bytes_singleton]
        dsimp only
        omega
    | @push _ frame _ _ =>
      have hcurrent : spent done + bytes (current ++ [c]) ≤ n + c.utf8Size := by
        rw [bytes_append, bytes_singleton]
        omega
      show At _ ⟨⟨mode', frame :: ([] ++ [bottom])⟩, done, current ++ [c]⟩
      exact .deeper hpaid hcurrent
    | swap htop hitems hv hmode =>
      cases htop
      refine .inside ?_ (Nat.le_of_eq hmode) ?_
      . rw [hitems]
        exact forall₂_concat hpaid (Nat.le_trans hv hcost)
      . rw [spent_concat, bytes_nil]
        dsimp only
        omega
    | close htop hitems _ =>
      cases htop
      refine .behind ⟨done, [current], rfl, hitems ▸ hpaid⟩ ?_
      rw [spent_concat]
      dsimp only
      omega
    | closeLast htop hitems hv _ =>
      cases htop
      refine .behind ⟨done ++ [current], [], (List.append_nil _).symm, ?_⟩ ?_
      . rw [hitems]
        exact forall₂_concat hpaid (Nat.le_trans hv hcost)
      . rw [spent_concat]
        dsimp only
        omega
  | @deeper mode f above bottom done current hpaid hspent =>
    -- nothing is cut
    have hcurrent : spent done + bytes (current ++ [c]) ≤ n + c.utf8Size := by
      rw [bytes_append, bytes_singleton]
      omega
    have hlen : (f :: (above ++ [bottom])).length = above.length + 2 := by simp
    dsimp only
    rw [hlen]
    cases hcharges with
    | keep => exact .deeper hpaid hcurrent
    | @push _ frame =>
      show At _ ⟨⟨mode', frame :: (f :: above ++ [bottom])⟩, done, current ++ [c]⟩
      exact .deeper hpaid hcurrent
    | swap => exact .deeper hpaid hcurrent
    | close _ _ hzero => exact .pop hpaid hzero hcurrent
    | closeLast _ _ _ hzero => exact .pop hpaid hzero hcurrent

theorem Cut.At.run {n : Nat} {x x' : Cut} {s : List Char} (h : x.At n)
    (hrun : Lts.run Cut.step x s = some x') : x'.At (n + bytes s) := by
  induction s generalizing x n with
  | nil =>
    cases hrun
    exact h
  | cons c s ih =>
    have ⟨x1, hstep, hrun⟩ := (Lts.run_cons_eq_some Cut.step).mp hrun
    have hnext := ih (h.step hstep) hrun
    rw [bytes_cons, ← Nat.add_assoc]
    exact hnext

/--
The parts of a text are as long as the items of its value cost, and together, with their separators,
no longer than the text.
-/
theorem parts_spec {s : String} {v : Value} (h : parse s = some v) (hitems : v.items ≠ [])
    : Pays v.items (parts s) ∧ spent (parts s) ≤ s.utf8ByteSize := by
  have ⟨st, hread, hfinish⟩ := Option.bind_eq_some_iff.mp h
  have ⟨x, hrun, hx⟩ := Cut.exists_of_read (x := .start) hread
  have hat : x.At (0 + bytes s.toList) := (Cut.At.outside rfl : Cut.At 0 .start).run hrun
  rw [Nat.zero_add, bytes_toList] at hat
  have hparts : parts s = x.done := by
    rw [parts, hrun]
    rfl
  rw [hparts]
  subst hx
  cases hat with
  | @outside mode hnone =>
    -- a text without an array or object has a value without items
    exfalso
    unfold State.finish at hfinish
    split at hfinish
    . next v' heq =>
      cases heq
      cases hfinish
      exact hitems hnone
    . next chars heq =>
      split at hfinish
      . cases hfinish
        exact hitems rfl
      . cases hfinish
    . cases hfinish
  | @inside mode bottom done current _ _ _ | @deeper mode f above bottom done current _ _ =>
    exfalso
    cases mode <;> cases hfinish
  | @behind v' done hpays hspent =>
    cases hfinish
    exact ⟨hpays, hspent⟩

/-!
The parts of an object that is written.
-/

/--
What is read above the bottom of the stack belongs to the current part.
-/
theorem Cut.step_within {st st' : State} {c : Char} (h : st.step c = some st') (bottom : Frame)
    (done : List (List Char)) (current : List Char)
    : Cut.step ⟨st.within [bottom], done, current⟩ c
      = some ⟨st'.within [bottom], done, current ++ [c]⟩ := by
  have hwithin := State.step_within (K := [bottom]) h
  have ⟨op', htransition', hstack'⟩ := State.step_eq_some.mp hwithin
  have ⟨op, htransition, hstack⟩ := State.step_eq_some.mp h
  unfold Cut.step
  dsimp only
  rw [htransition', Option.map_some]
  dsimp only
  rw [← hstack']
  cases hst : st.stack with
  | nil =>
    rw [hst] at htransition
    have hsame : op' = op := by
      have hnone : transition st.mode (some bottom) c = some (st'.mode, op) :=
        transition_of_none htransition
      simpa [State.within, hst, hnone] using htransition'.symm
    have hmoves := transition_moves htransition
    subst hsame
    simp only [State.within, hst, List.nil_append, List.length_singleton]
    cases hop : op' with
    | keep | push => rfl
    | swap f =>
      rw [hop] at hmoves
      generalize st'.mode = mode' at hmoves
      cases hmoves with
      | swap htop hkind => cases htop
    | pop =>
      rw [hop] at hmoves
      generalize st'.mode = mode' at hmoves
      cases hmoves with
      | popArray htop => cases htop
      | popObject htop hf => cases htop
  | cons f stack =>
    simp only [State.within, hst, List.cons_append, List.length_cons, List.length_append,
      List.length_nil]

theorem Cut.run_within {st st' : State} {s : List Char} (h : read st s = some st') (bottom : Frame)
    (done : List (List Char)) (current : List Char)
    : Lts.run Cut.step ⟨st.within [bottom], done, current⟩ s
      = some ⟨st'.within [bottom], done, current ++ s⟩ := by
  induction s generalizing st current with
  | nil =>
    cases h
    rw [List.append_nil]
    rfl
  | cons c s ih =>
    have ⟨st1, hstep, hread⟩ := (Lts.run_cons_eq_some State.step).mp h
    rw [Lts.run_cons, step_within hstep, Option.bind_some, ih hread, List.append_assoc,
      List.singleton_append]

theorem Cut.run_members {members : List (String × String × Value)} (hne : members ≠ [])
    (h : ∀ m ∈ members, Reads m.2.1 m.2.2) (isFirst : Bool) (before : List (Text × Value))
    (done : List (List Char))
    : (Lts.run Cut.step ⟨⟨.name isFirst, [.object before]⟩, done, []⟩
        ((",".intercalate (members.map fun m => quote m.1 ++ ":" ++ m.2.1)).toList
          ++ ['\x7d'])).map Cut.done
      = some (done ++ members.flatMap fun m => [(quote m.1).toList, m.2.1.toList]) := by
  induction members generalizing isFirst before done with
  | nil => exact absurd rfl hne
  | cons m members ih =>
    have hname := Cut.run_within (read_name isFirst m.1 []) (.object before) done []
    have hvalue := Cut.run_within (h m List.mem_cons_self) (.member before (text m.1))
      (done ++ [(quote m.1).toList]) []
    have hmember : ∀ s, Lts.run Cut.step ⟨⟨.name isFirst, [.object before]⟩, done, []⟩
        ((quote m.1 ++ ":" ++ m.2.1).toList ++ s)
        = Lts.run Cut.step ⟨⟨.after m.2.2, [.member before (text m.1)]⟩,
            done ++ [(quote m.1).toList], m.2.1.toList⟩ s := by
      intro s
      rw [String.toList_append, String.toList_append, List.append_assoc, List.append_assoc,
        Lts.run_append]
      change (Lts.run Cut.step ⟨State.within ⟨.name isFirst, []⟩ [.object before], done, []⟩
        (quote m.1).toList).bind _ = _
      rw [hname, Option.bind_some, List.nil_append]
      change Lts.run Cut.step ⟨State.within .start [.member before (text m.1)],
        done ++ [(quote m.1).toList], []⟩ (m.2.1.toList ++ s) = _
      rw [Lts.run_append, hvalue, List.nil_append]
      rfl
    cases members with
    | nil =>
      rw [List.map_singleton, String.intercalate_singleton, hmember]
      change some (done ++ [(quote m.1).toList] ++ [m.2.1.toList]) = _
      simp
    | cons m' members =>
      have hrest := ih (List.cons_ne_nil m' members)
        (fun m hm => h m (List.mem_cons_of_mem _ hm)) false (before ++ [(text m.1, m.2.2)])
        (done ++ [(quote m.1).toList] ++ [m.2.1.toList])
      rw [List.map_cons, List.map_cons, String.intercalate_cons_cons, String.toList_append,
        String.toList_append, List.append_assoc, List.append_assoc, hmember]
      change (Lts.run Cut.step ⟨⟨.name false, [.object (before ++ [(text m.1, m.2.2)])]⟩,
        done ++ [(quote m.1).toList] ++ [m.2.1.toList], []⟩
        ((",".intercalate ((m' :: members).map fun m => quote m.1 ++ ":" ++ m.2.1)).toList
          ++ ['\x7d'])).map Cut.done = _
      rw [hrest]
      simp

theorem parts_object {members : List (String × String × Value)} (hne : members ≠ [])
    (h : ∀ m ∈ members, Reads m.2.1 m.2.2)
    : parts (object (members.map fun m => (m.1, m.2.1)))
      = members.flatMap fun m => [(quote m.1).toList, m.2.1.toList] := by
  unfold parts
  rw [toList_object, List.map_map]
  have hrun := Cut.run_members hne h true [] []
  change ((Lts.run Cut.step ⟨⟨.name true, [.object []]⟩, [], []⟩ _).map Cut.done).getD [] = _
  rw [List.nil_append] at hrun
  exact congrArg (Option.getD · []) hrun

theorem everySecond_flatMap {α β : Type} (l : List α) (f g : α → β)
    : everySecond (l.flatMap fun a => [f a, g a]) = l.map g := by
  induction l with
  | nil => rfl
  | cons a l ih => simp [everySecond, ih]

end Json
