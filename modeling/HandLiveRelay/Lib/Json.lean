import HandLiveRelay.Lib.Lts

/-!
This module contains JSON as text: how strings and objects are written, and a reader that takes one
character after the other and keeps a stack of the arrays and objects it is in. What the reader does
above some level of its stack does not depend on what lies below, so a value reads the same
wherever it stands.
-/

namespace Json

/--
A character inside of a string.
-/
def escape (c : Char) : List Char :=
  if c = '"' then ['\\', '"']
  else if c = '\\' then ['\\', '\\']
  else if c = '\x08' then ['\\', 'b']
  else if c = '\x0c' then ['\\', 'f']
  else if c = '\n' then ['\\', 'n']
  else if c = '\r' then ['\\', 'r']
  else if c = '\t' then ['\\', 't']
  else if c.toNat < 0x20 then
    ['\\', 'u', '0', '0', Nat.digitChar (c.toNat / 16), Nat.digitChar (c.toNat % 16)]
  else [c]

def quote (s : String) : String :=
  "\"" ++ String.ofList (s.toList.flatMap escape) ++ "\""

/--
An object with the given members, whose values are written already.
-/
def object (members : List (String × String)) : String :=
  "\x7b" ++ ",".intercalate (members.map fun (name, value) => quote name ++ ":" ++ value) ++ "\x7d"

/--
A string of printable characters other than the quotation mark and the backslash is written as it
is.
-/
theorem quote_of_plain {s : String}
    (h : ∀ c ∈ s.toList, c ≠ '"' ∧ c ≠ '\\' ∧ 0x20 ≤ c.toNat) : quote s = "\"" ++ s ++ "\"" := by
  have hescape : ∀ c ∈ s.toList, escape c = [c] := by
    intro c hc
    have ⟨hquote, hbackslash, hprint⟩ := h c hc
    have hne : ∀ d : Char, d.toNat < 0x20 → c ≠ d := by
      intro d hd heq
      rw [heq] at hprint
      omega
    unfold escape
    rw [if_neg hquote, if_neg hbackslash, if_neg (hne _ (by decide)), if_neg (hne _ (by decide)),
      if_neg (hne _ (by decide)), if_neg (hne _ (by decide)), if_neg (hne _ (by decide)),
      if_neg (by omega)]
  have hflat : s.toList.flatMap escape = s.toList := by
    rw [List.flatMap_congr hescape, List.flatMap_singleton']
  unfold quote
  rw [hflat, String.ofList_toList]

/-!
Values.
-/

/--
The UTF-16 code units of a string. An escape may give a surrogate without its other half.
-/
abbrev Text := List UInt16

def utf16 (c : Char) : Text :=
  let n := c.toNat
  if n < 0x10000 then
    [n.toUInt16]
  else
    [(0xd800 + (n - 0x10000) / 0x400).toUInt16, (0xdc00 + (n - 0x10000) % 0x400).toUInt16]

def text (s : String) : Text :=
  s.toList.flatMap utf16

/--
A number keeps its characters, an object all of its members in order.
-/
inductive Value where
  | null
  | bool (b : Bool)
  | number (chars : List Char)
  | string (units : Text)
  | array (items : List Value)
  | object (members : List (Text × Value))

/-!
The reader.
-/

def isWs (c : Char) : Bool :=
  c = ' ' ∨ c = '\t' ∨ c = '\n' ∨ c = '\r'

def isDigit (c : Char) : Bool :=
  '0' ≤ c ∧ c ≤ '9'

def hexDigit? (c : Char) : Option Nat :=
  if '0' ≤ c ∧ c ≤ '9' then some (c.toNat - 48)
  else if 'a' ≤ c ∧ c ≤ 'f' then some (c.toNat - 87)
  else if 'A' ≤ c ∧ c ≤ 'F' then some (c.toNat - 55)
  else none

/--
The character that follows a backslash, other than `u`.
-/
def unescape? : Char → Option UInt16
  | '"' => some 0x22
  | '\\' => some 0x5c
  | '/' => some 0x2f
  | 'b' => some 0x08
  | 'f' => some 0x0c
  | 'n' => some 0x0a
  | 'r' => some 0x0d
  | 't' => some 0x09
  | _ => none

/--
What is left after one or more digits.
-/
def digits? : List Char → Option (List Char)
  | c :: cs => if isDigit c then some (cs.dropWhile isDigit) else none
  | [] => none

def intPart? : List Char → Option (List Char)
  | '0' :: cs => some cs
  | cs => digits? cs

def fraction? : List Char → Option (List Char)
  | '.' :: cs => digits? cs
  | cs => some cs

def exponent? : List Char → Option (List Char)
  | 'e' :: '+' :: cs | 'E' :: '+' :: cs | 'e' :: '-' :: cs | 'E' :: '-' :: cs => digits? cs
  | 'e' :: cs | 'E' :: cs => digits? cs
  | cs => some cs

def isNumber (cs : List Char) : Bool :=
  let unsigned := match cs with
    | '-' :: cs => cs
    | cs => cs
  ((intPart? unsigned).bind fraction?).bind exponent? = some []

def inNumber (c : Char) : Bool :=
  isDigit c ∨ c = '-' ∨ c = '+' ∨ c = '.' ∨ c = 'e' ∨ c = 'E'

/--
What the reader is about to read. After `[` and after `\x7b` the first item may be missing.
-/
inductive Mode where
  | value (first : Bool)
  | name (first : Bool)
  | colon (name : Text)
  | string (isName : Bool) (units : Text)
  | escape (isName : Bool) (units : Text)
  | hex (isName : Bool) (units : Text) (left code : Nat)
  | literal (rest : List Char) (v : Value)
  | number (chars : List Char)
  /--
  The value is complete.
  -/
  | after (v : Value)

/--
An array or an object that is not complete, with the items or members that are. In a member the
value is missing.
-/
inductive Frame where
  | array (items : List Value)
  | object (members : List (Text × Value))
  | member (members : List (Text × Value)) (name : Text)

/--
What a character does to the stack.
-/
inductive StackOp where
  | keep
  | push (frame : Frame)
  | swap (frame : Frame)
  | pop

def StackOp.apply : StackOp → List Frame → List Frame
  | keep, stack => stack
  | push frame, stack => frame :: stack
  | swap frame, stack => frame :: stack.tail
  | pop, stack => stack.tail

/--
The first character of a value.
-/
def first (c : Char) : Option (Mode × StackOp) :=
  if c = '\x7b' then some (.name true, .push (.object []))
  else if c = '[' then some (.value true, .push (.array []))
  else if c = '"' then some (.string false [], .keep)
  else if c = 't' then some (.literal ['r', 'u', 'e'] (.bool true), .keep)
  else if c = 'f' then some (.literal ['a', 'l', 's', 'e'] (.bool false), .keep)
  else if c = 'n' then some (.literal ['u', 'l', 'l'] .null, .keep)
  else if c = '-' ∨ isDigit c then some (.number [c], .keep)
  else none

/--
The character after a value.
-/
def next (v : Value) (top : Option Frame) (c : Char) : Option (Mode × StackOp) :=
  if isWs c then some (.after v, .keep)
  else
    match top with
    | some (.array items) =>
      if c = ',' then some (.value false, .swap (.array (items ++ [v])))
      else if c = ']' then some (.after (.array (items ++ [v])), .pop)
      else none
    | some (.member members name) =>
      if c = ',' then some (.name false, .swap (.object (members ++ [(name, v)])))
      else if c = '\x7d' then some (.after (.object (members ++ [(name, v)])), .pop)
      else none
    | _ => none

/--
A string is complete.
-/
def endString (isName : Bool) (units : Text) : Mode :=
  if isName then .colon units else .after (.string units)

/--
A character inside of a string or of a literal.
-/
def token : Mode → Char → Option Mode
  | .string isName units, c =>
    if c = '"' then some (endString isName units)
    else if c = '\\' then some (.escape isName units)
    else if c.toNat < 0x20 then none
    else some (.string isName (units ++ utf16 c))
  | .escape isName units, c =>
    if c = 'u' then some (.hex isName units 3 0)
    else (unescape? c).map fun u => .string isName (units ++ [u])
  | .hex isName units 0 code, c =>
    (hexDigit? c).map fun d => .string isName (units ++ [(code * 16 + d).toUInt16])
  | .hex isName units (left + 1) code, c =>
    (hexDigit? c).map fun d => .hex isName units left (code * 16 + d)
  | .literal [r] v, c => if c = r then some (.after v) else none
  | .literal (r :: rest) v, c => if c = r then some (.literal rest v) else none
  | _, _ => none

def transition (mode : Mode) (top : Option Frame) (c : Char) : Option (Mode × StackOp) :=
  match mode with
  | .value isFirst =>
    if isWs c then some (mode, .keep)
    else if isFirst ∧ c = ']' then
      match top with
      | some (.array items) => some (.after (.array items), .pop)
      | _ => none
    else first c
  | .name isFirst =>
    if isWs c then some (mode, .keep)
    else if c = '"' then some (.string true [], .keep)
    else if isFirst ∧ c = '\x7d' then
      match top with
      | some (.object members) => some (.after (.object members), .pop)
      | _ => none
    else none
  | .colon name =>
    if isWs c then some (mode, .keep)
    else if c = ':' then
      match top with
      | some (.object members) => some (.value false, .swap (.member members name))
      | _ => none
    else none
  | .number chars =>
    if inNumber c then some (.number (chars ++ [c]), .keep)
    else if isNumber chars then next (.number chars) top c
    else none
  | .after v => next v top c
  | .string _ _ | .escape _ _ | .hex _ _ _ _ | .literal _ _ => (token mode c).map (·, .keep)

structure State where
  mode : Mode
  stack : List Frame

namespace State

def start : State where
  mode := .value false
  stack := []

def step (st : State) (c : Char) : Option State :=
  (transition st.mode st.stack.head? c).map fun (mode, op) => ⟨mode, op.apply st.stack⟩

/--
The value of a text that ends here.
-/
def finish : State → Option Value
  | ⟨.after v, []⟩ => some v
  | ⟨.number chars, []⟩ => if isNumber chars then some (.number chars) else none
  | _ => none

/--
The same state in an array or an object.
-/
def within (st : State) (stack : List Frame) : State :=
  { st with stack := st.stack ++ stack }

end State

abbrev read : State → List Char → Option State :=
  Lts.run State.step

theorem read_cons (st : State) (c : Char) (s : List Char)
    : read st (c :: s) = (st.step c).bind (read · s) := rfl

theorem read_append (st : State) (s s' : List Char)
    : read st (s ++ s') = (read st s).bind (read · s') :=
  Lts.run_append State.step st s s'

/--
The value that a whole text is, with white space before and after it.
-/
def parse (s : String) : Option Value :=
  (read .start s.toList).bind State.finish

/-!
The levels of the stack.
-/

def Frame.isObject : Frame → Bool
  | array _ => false
  | object _ | member _ _ => true

/--
What a character may do when `top` is at the top of the stack: go on above it, change it to a frame
of the same kind, or complete it.
-/
inductive Moves (top : Option Frame) : Mode → StackOp → Prop where
  | keep {mode : Mode} : Moves top mode .keep
  | push {mode : Mode} {frame : Frame} : Moves top mode (.push frame)
  | swap {mode : Mode} {f frame : Frame} (htop : top = some f) (hkind : frame.isObject = f.isObject)
      : Moves top mode (.swap frame)
  | popArray {items items' : List Value} (htop : top = some (.array items))
      : Moves top (.after (.array items')) .pop
  | popObject {f : Frame} {members : List (Text × Value)} (htop : top = some f) (hf : f.isObject = true)
      : Moves top (.after (.object members)) .pop

section

variable {c : Char} {mode mode' : Mode} {op : StackOp} {top : Option Frame} {v : Value}

theorem first_moves (h : first c = some (mode', op)) : Moves top mode' op := by
  unfold first at h
  split at h
  . cases h
    exact .push
  . split at h
    . cases h
      exact .push
    . split at h <;> grind [Moves]

theorem next_moves (h : next v top c = some (mode', op)) : Moves top mode' op := by
  unfold next at h
  split at h
  . cases h
    exact .keep
  . split at h
    . split at h
      . cases h
        exact .swap rfl rfl
      . split at h
        . cases h
          exact .popArray rfl
        . cases h
    . split at h
      . cases h
        exact .swap rfl rfl
      . split at h
        . cases h
          exact .popObject rfl rfl
        . cases h
    . cases h

theorem transition_moves (h : transition mode top c = some (mode', op)) : Moves top mode' op := by
  unfold transition at h
  split at h
  . split at h
    . cases h
      exact .keep
    . split at h
      . split at h
        . cases h
          exact .popArray rfl
        . cases h
      . exact first_moves h
  . split at h
    . cases h
      exact .keep
    . split at h
      . cases h
        exact .keep
      . split at h
        . split at h
          . cases h
            exact .popObject rfl rfl
          . cases h
        . cases h
  . split at h
    . cases h
      exact .keep
    . split at h
      . split at h
        . cases h
          exact .swap rfl rfl
        . cases h
      . cases h
  . split at h
    . cases h
      exact .keep
    . split at h
      . exact next_moves h
      . cases h
  . exact next_moves h
  all_goals
    have ⟨_, _, heq⟩ := Option.map_eq_some_iff.mp h
    cases heq
    exact .keep

theorem next_of_none (h : next v none c = some (mode', op)) : next v top c = some (mode', op) := by
  unfold next at h ⊢
  split at h
  . next hws => rwa [if_pos hws]
  . cases h

/--
What is possible with an empty stack is possible with any other one.
-/
theorem transition_of_none (h : transition mode none c = some (mode', op))
    : transition mode top c = some (mode', op) := by
  cases mode with
  | value isFirst =>
    unfold transition at h ⊢
    dsimp only at h ⊢
    split at h
    . next hws => rwa [if_pos hws]
    . next hws =>
      rw [if_neg hws]
      split at h
      . cases h
      . next hclose => rwa [if_neg hclose]
  | name isFirst =>
    unfold transition at h ⊢
    dsimp only at h ⊢
    split at h
    . next hws => rwa [if_pos hws]
    . next hws =>
      rw [if_neg hws]
      split at h
      . next hquote => rwa [if_pos hquote]
      . split at h <;> cases h
  | colon name =>
    unfold transition at h ⊢
    dsimp only at h ⊢
    split at h
    . next hws => rwa [if_pos hws]
    . split at h <;> cases h
  | number chars =>
    unfold transition at h ⊢
    dsimp only at h ⊢
    split at h
    . next hin => rwa [if_pos hin]
    . next hin =>
      rw [if_neg hin]
      split at h
      . next hnumber =>
        rw [if_pos hnumber]
        exact next_of_none h
      . cases h
  | after v => exact next_of_none h
  | string isName units | escape isName units | hex isName units left code | literal rest v => exact h

end

theorem StackOp.apply_append (op : StackOp) {stack K : List Frame} (h : stack ≠ [])
    : op.apply (stack ++ K) = op.apply stack ++ K := by
  cases op <;> simp [apply, List.tail_append_of_ne_nil h]

namespace State

variable {st st' : State} {c : Char} {K : List Frame}

theorem step_eq_some : st.step c = some st'
    ↔ ∃ op, transition st.mode st.stack.head? c = some (st'.mode, op)
      ∧ st'.stack = op.apply st.stack := by
  unfold step
  rw [Option.map_eq_some_iff]
  constructor
  . rintro ⟨⟨mode, op⟩, htransition, rfl⟩
    exact ⟨op, htransition, rfl⟩
  . rintro ⟨op, htransition, hstack⟩
    refine ⟨(st'.mode, op), htransition, ?_⟩
    dsimp only
    rw [← hstack]

/--
A character does the same in any array or object.
-/
theorem step_within (h : st.step c = some st') : (st.within K).step c = some (st'.within K) := by
  have ⟨op, htransition, hstack⟩ := step_eq_some.mp h
  refine step_eq_some.mpr ⟨op, ?_, ?_⟩
  . cases hst : st.stack with
    | nil =>
      rw [hst] at htransition
      exact transition_of_none htransition
    | cons f stack =>
      rw [hst] at htransition
      simpa [within, hst] using htransition
  . unfold within
    dsimp only
    rw [hstack]
    cases hst : st.stack with
    | nil =>
      rw [hst] at htransition
      have hmoves := transition_moves htransition
      generalize st'.mode = mode' at hmoves
      cases hmoves with
      | keep | push => rfl
      | swap htop hkind => cases htop
      | popArray htop => cases htop
      | popObject htop hf => cases htop
    | cons f stack => exact (op.apply_append (List.cons_ne_nil f stack)).symm

theorem read_within {s : List Char} (h : read st s = some st')
    : read (st.within K) s = some (st'.within K) := by
  induction s generalizing st with
  | nil =>
    cases h
    rfl
  | cons c s ih =>
    have ⟨st1, hstep, hread⟩ := (Lts.run_cons_eq_some step).mp h
    exact (Lts.run_cons_eq_some step).mpr ⟨_, step_within hstep, ih hread⟩

end State

/-!
What is written is read back.
-/

/--
The reader finds the value and is done with the last character of the text.
-/
def Reads (s : String) (v : Value) : Prop :=
  read .start s.toList = some ⟨.after v, []⟩

theorem parse_of_reads {s : String} {v : Value} (h : Reads s v) : parse s = some v := by
  unfold parse
  rw [h]
  rfl

theorem Reads.within {s : String} {v : Value} (h : Reads s v) (K : List Frame)
    : read ⟨.value false, K⟩ s.toList = some ⟨.after v, K⟩ :=
  State.read_within h

theorem hexDigit?_digitChar : ∀ d < 16, hexDigit? (Nat.digitChar d) = some d := by
  decide

section

variable {isName : Bool} {units : Text} {K : List Frame}

theorem read_escape (c : Char)
    : read ⟨.string isName units, K⟩ (escape c) = some ⟨.string isName (units ++ utf16 c), K⟩ := by
  unfold escape
  split
  . next h => subst h; rfl
  split
  . next h => subst h; rfl
  split
  . next h => subst h; rfl
  split
  . next h => subst h; rfl
  split
  . next h => subst h; rfl
  split
  . next h => subst h; rfl
  split
  . next h => subst h; rfl
  split
  . next hcontrol =>
    have hhigh := hexDigit?_digitChar (c.toNat / 16) (by omega)
    have hlow := hexDigit?_digitChar (c.toNat % 16) (by omega)
    have hcode : c.toNat / 16 * 16 + c.toNat % 16 = c.toNat := Nat.div_add_mod' _ 16
    have hutf16 : utf16 c = [c.toNat.toUInt16] := if_pos (by omega)
    change (State.step ⟨.hex isName units 1 0, K⟩ _).bind (read · [_]) = _
    simp only [State.step, transition, token, StackOp.apply, Lts.run, hhigh, hlow, Option.map_some,
      Option.bind_some, Nat.zero_mul, Nat.zero_add, hcode, hutf16]
  . next hquote hbackslash _ _ _ _ _ hcontrol =>
    simp [Lts.run, State.step, transition, token, hquote, hbackslash, hcontrol, StackOp.apply]

theorem read_escaped (s : List Char)
    : read ⟨.string isName units, K⟩ (s.flatMap escape)
      = some ⟨.string isName (units ++ s.flatMap utf16), K⟩ := by
  induction s generalizing units with
  | nil => simp
  | cons c s ih =>
    rw [List.flatMap_cons, read_append, read_escape, Option.bind_some, ih, List.flatMap_cons,
      List.append_assoc]

theorem toList_quote (s : String) : (quote s).toList = '"' :: (s.toList.flatMap escape ++ ['"']) := by
  simp [quote]

theorem read_quoted (s : String)
    : read ⟨.string isName [], K⟩ (s.toList.flatMap escape ++ ['"'])
      = some ⟨endString isName (text s), K⟩ := by
  rw [read_append, read_escaped, List.nil_append]
  rfl

end

/--
A string that is written reads as itself.
-/
theorem reads_quote (s : String) : Reads (quote s) (.string (text s)) := by
  unfold Reads
  rw [toList_quote, read_cons]
  exact read_quoted s

theorem read_name (isFirst : Bool) (s : String) (K : List Frame)
    : read ⟨.name isFirst, K⟩ (quote s).toList = some ⟨.colon (text s), K⟩ := by
  rw [toList_quote, read_cons]
  exact read_quoted s

theorem read_spaces (isFirst : Bool) (stack : List Frame) (n : Nat)
    : read ⟨.name isFirst, stack⟩ (List.replicate n ' ') = some ⟨.name isFirst, stack⟩ := by
  induction n with
  | zero => rfl
  | succ n ih =>
    rw [List.replicate_succ, read_cons]
    exact ih

theorem reads_bool (b : Bool) : Reads (if b then "true" else "false") (.bool b) := by
  cases b <;> rfl

theorem toList_object (members : List (String × String))
    : (object members).toList
      = '\x7b' :: ((",".intercalate (members.map fun (name, value) => quote name ++ ":" ++ value)).toList
        ++ ['\x7d']) := by
  simp [object]

theorem read_members {members : List (String × String × Value)} (hne : members ≠ [])
    (h : ∀ m ∈ members, Reads m.2.1 m.2.2) (isFirst : Bool) (before : List (Text × Value))
    : read ⟨.name isFirst, [.object before]⟩
        ((",".intercalate (members.map fun m => quote m.1 ++ ":" ++ m.2.1)).toList ++ ['\x7d'])
      = some ⟨.after (.object (before ++ members.map fun m => (text m.1, m.2.2))), []⟩ := by
  induction members generalizing isFirst before with
  | nil => exact absurd rfl hne
  | cons m members ih =>
    have hm := (h m List.mem_cons_self).within [.member before (text m.1)]
    have hmember : ∀ s, read ⟨.name isFirst, [.object before]⟩
        ((quote m.1 ++ ":" ++ m.2.1).toList ++ s)
        = read ⟨.after m.2.2, [.member before (text m.1)]⟩ s := by
      intro s
      rw [String.toList_append, String.toList_append, read_append, read_append, read_append,
        read_name, Option.bind_some]
      change ((read ⟨.value false, [.member before (text m.1)]⟩ m.2.1.toList).bind _) = _
      rw [hm]
      rfl
    cases members with
    | nil =>
      rw [List.map_singleton, String.intercalate_singleton, hmember]
      rfl
    | cons m' members =>
      have hrest := ih (List.cons_ne_nil m' members)
        (fun m hm => h m (List.mem_cons_of_mem _ hm)) false (before ++ [(text m.1, m.2.2)])
      rw [List.map_cons, List.map_cons, String.intercalate_cons_cons, String.toList_append,
        String.toList_append, List.append_assoc, List.append_assoc, hmember]
      change read ⟨.name false, [.object (before ++ [(text m.1, m.2.2)])]⟩
        ((",".intercalate ((m' :: members).map fun m => quote m.1 ++ ":" ++ m.2.1)).toList
          ++ ['\x7d']) = _
      rw [hrest]
      simp

/--
An object that is written reads as the object of its members, whatever the texts of their values
are.
-/
theorem reads_object (members : List (String × String × Value))
    (h : ∀ m ∈ members, Reads m.2.1 m.2.2)
    : Reads (object (members.map fun m => (m.1, m.2.1)))
        (.object (members.map fun m => (text m.1, m.2.2))) := by
  unfold Reads
  rw [toList_object, read_cons, List.map_map]
  cases members with
  | nil => rfl
  | cons m members => exact read_members (List.cons_ne_nil m members) h true []

/-!
What begins like an object is one.
-/

/--
The reader is in an object, or done with it.
-/
inductive Inside : State → Prop where
  | within {mode : Mode} {stack : List Frame} {frame : Frame} (h : frame.isObject = true)
      : Inside ⟨mode, stack ++ [frame]⟩
  | done {members : List (Text × Value)} : Inside ⟨.after (.object members), []⟩

theorem Inside.of_append {mode : Mode} (stack : List Frame) {frame : Frame}
    (h : frame.isObject = true) : Inside ⟨mode, stack ++ [frame]⟩ :=
  .within h

theorem Inside.step {st st' : State} {c : Char} (h : Inside st) (hstep : st.step c = some st')
    : Inside st' := by
  have ⟨op, htransition, hstack⟩ := State.step_eq_some.mp hstep
  have ⟨mode', stack'⟩ := st'
  dsimp only at htransition hstack
  subst hstack
  cases h with
  | done =>
    unfold transition next at htransition
    dsimp only [List.head?_nil] at htransition
    split at htransition
    . cases htransition
      exact .done
    . cases htransition
  | @within mode stack frame hframe =>
    cases stack with
    | nil =>
      have hmoves := transition_moves htransition
      cases hmoves with
      | keep => exact .of_append [] hframe
      | @push _ g => exact .of_append [g] hframe
      | swap htop hkind =>
        cases htop
        exact .of_append [] (hkind.trans hframe)
      | popArray htop =>
        cases htop
        cases hframe
      | popObject htop hf => exact .done
    | cons g stack =>
      dsimp only
      rw [op.apply_append (List.cons_ne_nil g stack)]
      exact .within hframe

theorem Inside.read {st st' : State} {s : List Char} (h : Inside st) (hread : read st s = some st')
    : Inside st' :=
  Lts.run_stable (P := Inside) (fun _ _ _ h hstep => h.step hstep) h hread

theorem Inside.finish {st : State} {v : Value} (h : Inside st) (hfinish : st.finish = some v)
    : ∃ members, v = .object members ∧ st = ⟨.after v, []⟩ := by
  cases h with
  | within hframe =>
    unfold State.finish at hfinish
    split at hfinish
    . next heq => simp at heq
    . next heq => simp at heq
    . cases hfinish
  | done =>
    cases hfinish
    exact ⟨_, rfl, rfl⟩

theorem read_dropWhile (isFirst : Bool) (K : List Frame) (s : List Char)
    : read ⟨.value isFirst, K⟩ s = read ⟨.value isFirst, K⟩ (s.dropWhile isWs) := by
  induction s with
  | nil => rfl
  | cons c s ih =>
    rw [List.dropWhile_cons]
    split
    . next hws =>
      rw [read_cons, ← ih]
      simp [State.step, transition, hws, StackOp.apply]
    . rfl

/--
A text that is a value begins with the first character of one, after white space.
-/
theorem exists_first_of_parse {s : String} {v : Value} (h : parse s = some v)
    : ∃ c rest r, s.toList.dropWhile isWs = c :: rest ∧ first c = some r := by
  unfold parse State.start at h
  rw [read_dropWhile] at h
  cases hdrop : s.toList.dropWhile isWs with
  | nil =>
    rw [hdrop] at h
    cases h
  | cons c rest =>
    have hws : isWs c = false := by
      have hhead := List.head?_dropWhile_not isWs s.toList
      rw [hdrop] at hhead
      simpa using hhead
    cases hfirst : first c with
    | some r => exact ⟨c, rest, r, rfl, hfirst⟩
    | none =>
      rw [hdrop, read_cons] at h
      simp [State.step, transition, hws, hfirst] at h

theorem exists_object_of_parse {s : String} {v : Value} (h : parse s = some v) {rest : List Char}
    (hfirst : s.toList.dropWhile isWs = '\x7b' :: rest) : ∃ members, v = .object members ∧ Reads s v := by
  unfold parse at h
  have ⟨st, hread, hfinish⟩ := Option.bind_eq_some_iff.mp h
  have hinside : Inside st := by
    unfold State.start at hread
    rw [read_dropWhile, hfirst] at hread
    have hread : read ⟨.name true, [] ++ [.object []]⟩ rest = some st := hread
    exact (Inside.within rfl).read hread
  have ⟨members, hv, hst⟩ := hinside.finish hfinish
  exact ⟨members, hv, by rw [Reads, hread, hst]⟩

end Json
