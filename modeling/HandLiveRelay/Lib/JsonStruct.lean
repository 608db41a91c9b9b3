import HandLiveRelay.Lib.JsonParts

/-!
This module contains how a structure is read from JSON by a reader that the fields of the structure
determine: from an object by the names of its members, where a field may not be repeated and other
members are skipped, or from an array by position.
-/

namespace Json

/-!
Strings.
-/

def isSurrogate (u : UInt16) : Bool :=
  0xd800 ≤ u.toNat ∧ u.toNat < 0xe000

/--
The characters of a string, `none` if a surrogate lacks its other half.
-/
def toChars? : Text → Option (List Char)
  | [] => some []
  | [u] => if isSurrogate u then none else some [Char.ofNat u.toNat]
  | u :: l :: us =>
    if !isSurrogate u then
      (toChars? (l :: us)).map (Char.ofNat u.toNat :: ·)
    else if u.toNat < 0xdc00 ∧ 0xdc00 ≤ l.toNat ∧ l.toNat < 0xe000 then
      let code := 0x10000 + (u.toNat - 0xd800) * 0x400 + (l.toNat - 0xdc00)
      (toChars? us).map (Char.ofNat code :: ·)
    else
      none

def toString? (units : Text) : Option String :=
  (toChars? units).map String.ofList

theorem toChars?_cons {u : UInt16} (h : isSurrogate u = false) (us : Text)
    : toChars? (u :: us) = (toChars? us).map (Char.ofNat u.toNat :: ·) := by
  cases us with
  | nil => simp [toChars?, h]
  | cons l us => simp [toChars?, h]

theorem toChars?_utf16_append (c : Char) (us : Text)
    : toChars? (utf16 c ++ us) = (toChars? us).map (c :: ·) := by
  have hvalid : c.toNat < 0xd800 ∨ 0xdfff < c.toNat ∧ c.toNat < 0x110000 := c.valid
  unfold utf16
  dsimp only
  split
  . next hsmall =>
    have hnat : (c.toNat.toUInt16).toNat = c.toNat := by
      simp
      omega
    have hplain : isSurrogate c.toNat.toUInt16 = false := by
      simp only [isSurrogate, hnat, decide_eq_false_iff_not]
      omega
    rw [List.singleton_append, toChars?_cons hplain, hnat, Char.ofNat_toNat]
  . next hlarge =>
    generalize hhi : 0xd800 + (c.toNat - 0x10000) / 0x400 = hi
    generalize hlo : 0xdc00 + (c.toNat - 0x10000) % 0x400 = lo
    have hhi' : (hi.toUInt16).toNat = hi := by
      simp
      omega
    have hlo' : (lo.toUInt16).toNat = lo := by
      simp
      omega
    have hsurrogate : isSurrogate hi.toUInt16 = true := by
      simp only [isSurrogate, hhi', decide_eq_true_eq]
      omega
    have hcode : 0x10000 + (hi - 0xd800) * 0x400 + (lo - 0xdc00) = c.toNat := by omega
    simp only [List.cons_append, List.nil_append, toChars?, hsurrogate, Bool.not_true,
      Bool.false_eq_true, if_false, hhi', hlo']
    rw [if_pos (by omega), hcode, Char.ofNat_toNat]

/--
The units of a string are read back.
-/
theorem toString?_text (s : String) : toString? (text s) = some s := by
  have hchars : ∀ cs : List Char, toChars? (cs.flatMap utf16) = some cs := by
    intro cs
    induction cs with
    | nil => rfl
    | cons c cs ih => rw [List.flatMap_cons, toChars?_utf16_append, ih, Option.map_some]
  rw [toString?, text, hchars, Option.map_some, String.ofList_toList]

theorem length_le_of_toString? {units : Text} {s : String} (h : toString? units = some s)
    : s.toList.length ≤ units.length := by
  have hchars : ∀ {units : Text} {cs : List Char}, toChars? units = some cs
      → cs.length ≤ units.length := by
    intro units
    fun_induction toChars? units with
    | case1 =>
      intro cs h
      cases h
      exact Nat.le_refl 0
    | case2 u hu => nofun
    | case3 u hu =>
      intro cs h
      cases h
      exact Nat.le_refl 1
    | case4 u l us hu ih =>
      intro cs h
      have ⟨cs', hcs', heq⟩ := Option.map_eq_some_iff.mp h
      have hle := ih hcs'
      rw [← heq, List.length_cons, List.length_cons]
      omega
    | case5 u l us =>
      rename_i ih
      intro cs h
      have ⟨cs', hcs', heq⟩ := Option.map_eq_some_iff.mp h
      have hle := ih hcs'
      rw [← heq, List.length_cons, List.length_cons, List.length_cons]
      omega
    | case6 => nofun
  have ⟨cs, hcs, heq⟩ := Option.map_eq_some_iff.mp h
  rw [← heq, String.toList_ofList]
  exact hchars hcs

def string? : Value → Option String
  | .string units => toString? units
  | _ => none

/--
A field that may be missing or `null`.
-/
def optionalField {β : Type} (read : Value → Option β) : Option Value → Option (Option β)
  | none | some .null => some none
  | some v => (read v).map some

theorem string?_text (s : String) : string? (.string (text s)) = some s :=
  toString?_text s

theorem optionalField_text (s : String)
    : optionalField string? (some (.string (text s))) = some (some s) := by
  show (string? (.string (text s))).map some = some (some s)
  rw [string?_text, Option.map_some]

/-!
Fields.
-/

section Fields

variable {α : Type}

/--
The values of the members with a name.
-/
def named (members : List (Text × α)) (name : String) : List α :=
  (members.filter fun m => m.1 = text name).map Prod.snd

/--
The value of a field, `none` if it is repeated.
-/
def field? (members : List (Text × α)) (name : String) : Option (Option α) :=
  match named members name with
  | [] => some none
  | [a] => some (some a)
  | _ => none

/--
The fields of an object. The names of all of its members have to be strings.
-/
def fieldsByName (names : List String) (members : List (Text × α)) : Option (List (Option α)) :=
  if members.all (fun m => (toString? m.1).isSome) then
    names.mapM (field? members)
  else
    none

/--
The fields of an array, where those at the end may be missing.
-/
def fieldsByPosition (names : List String) (items : List α) : Option (List (Option α)) :=
  if items.length ≤ names.length then
    some (items.map some ++ List.replicate (names.length - items.length) none)
  else
    none

end Fields

/--
The fields of a structure in a value.
-/
def fields (names : List String) : Value → Option (List (Option Value))
  | .object members => fieldsByName names members
  | .array items => fieldsByPosition names items
  | _ => none

/--
The fields of a structure in a text, each with the text of its value.
-/
def rawFields (names : List String) (s : String) : Option (List (Option (Value × List Char))) :=
  match parse s with
  | some (.object members) =>
    fieldsByName names ((members.zip (everySecond (parts s))).map fun m =>
      (m.1.1, m.1.2, trimWs m.2))
  | some (.array items) =>
    fieldsByPosition names ((items.zip (parts s)).map fun m => (m.1, trimWs m.2))
  | _ => none

/-!
The fields take their place in the text.
-/

/--
The bytes that the value of a field takes.
-/
def weight (field : Value × List Char) : Nat :=
  max field.1.cost (bytes field.2)

/--
The bytes of a member: its value, its name in quotation marks, and two separators.
-/
def memberWeight (member : Text × Value × List Char) : Nat :=
  member.1.length + 4 + weight member.2

theorem length_le_weight {field : Value × List Char} {s : String} (h : string? field.1 = some s)
    : s.toList.length + 2 ≤ weight field := by
  refine Nat.le_trans ?_ (Nat.le_max_left _ _)
  cases hv : field.1 with
  | string units =>
    rw [hv] at h
    exact Nat.add_le_add_right (length_le_of_toString? h) 2
  | _ =>
    rw [hv] at h
    cases h

section

variable {β : Type} {read : Value → Option β}

theorem exists_of_optionalField {f : Option (Value × List Char)} {x : β}
    (h : optionalField read (f.map Prod.fst) = some (some x))
    : ∃ field, f = some field ∧ read field.1 = some x := by
  match f with
  | none => cases h
  | some (v, raw) =>
    refine ⟨(v, raw), rfl, ?_⟩
    cases v with
    | null => cases h
    | _ => simpa [optionalField] using h

theorem four_le_weight {field : Value × List Char} (h : optionalField read (some field.1) = some none)
    : 4 ≤ weight field := by
  refine Nat.le_trans ?_ (Nat.le_max_left _ _)
  cases hv : field.1 with
  | null => exact Nat.le_refl 4
  | _ => simp [optionalField, hv] at h

end

section Fields

variable {α : Type}

/--
A member belongs to one field at most.
-/
theorem sum_named_le {names : List String} (hnodup : (names.map text).Nodup)
    (members : List (Text × α)) (w : Text → α → Nat)
    : (names.map fun name => ((named members name).map (w (text name))).sum).sum
        ≤ (members.map fun m => w m.1 m.2).sum := by
  induction members with
  | nil => simp [named]
  | cons m members ih =>
    have hsplit : ∀ name, ((named (m :: members) name).map (w (text name))).sum
        = (if text name = m.1 then w m.1 m.2 else 0)
          + ((named members name).map (w (text name))).sum := by
      intro name
      unfold named
      by_cases heq : m.1 = text name
      . rw [List.filter_cons_of_pos (by simpa using heq), if_pos heq.symm, heq]
        simp
      . rw [List.filter_cons_of_neg (by simpa using heq), if_neg (Ne.symm heq)]
        simp
    have honce : (names.map fun name => if text name = m.1 then w m.1 m.2 else 0).sum
        ≤ w m.1 m.2 := by
      have hcount := List.nodup_iff_count_le_one.mp hnodup m.1
      have hsum : (names.map fun name => if text name = m.1 then w m.1 m.2 else 0).sum
          = (names.map text).count m.1 * w m.1 m.2 := by
        clear hnodup hcount ih hsplit
        induction names with
        | nil => simp
        | cons name names ih =>
          rw [List.map_cons, List.sum_cons, ih, List.map_cons, List.count_cons]
          by_cases heq : text name = m.1
          . simp [heq, Nat.add_mul]
            omega
          . simp [heq]
      rw [hsum]
      exact (Nat.mul_le_mul_right _ hcount).trans (Nat.one_mul _).le
    simp only [hsplit, List.sum_map_add, List.map_cons, List.sum_cons]
    omega

/--
What the fields of an object weigh.
-/
theorem sum_fieldsByName_le {names : List String} (hnodup : (names.map text).Nodup)
    {members : List (Text × α)} {fs : List (Option α)} (h : fieldsByName names members = some fs)
    (w : Text → α → Nat)
    : ((names.zip fs).map fun x => (x.2.map (w (text x.1))).getD 0).sum
        ≤ (members.map fun m => w m.1 m.2).sum := by
  refine Nat.le_trans ?_ (sum_named_le hnodup members w)
  unfold fieldsByName at h
  split at h
  . clear hnodup
    induction names generalizing fs with
    | nil => simp
    | cons name names ih =>
      simp only [List.mapM_cons, Option.bind_eq_bind, Option.bind_eq_some_iff] at h
      have ⟨f, hf, fs', hfs', heq⟩ := h
      cases heq
      have hrest := ih hfs'
      have hfirst : (f.map (w (text name))).getD 0
          ≤ ((named members name).map (w (text name))).sum := by
        unfold field? at hf
        split at hf
        . cases hf
          exact Nat.zero_le _
        . next a ha =>
          cases hf
          simp [ha]
        . cases hf
      simp only [List.zip_cons_cons, List.map_cons, List.sum_cons]
      omega
  . cases h

end Fields

theorem sum_members_le {members : List (Text × Value)} {paid : List (List Char)}
    (h : List.Forall₂ (fun v part => v.cost ≤ bytes part) (Value.object members).items paid)
    (rest : List (List Char))
    : (((members.zip (everySecond (paid ++ rest))).map fun m =>
        (m.1.1, m.1.2, trimWs m.2)).map memberWeight).sum
      ≤ (paid.map fun part => bytes part + 1).sum := by
  induction members generalizing paid with
  | nil => simp
  | cons m members ih =>
    have ⟨name, v⟩ := m
    simp only [Value.items, List.flatMap_cons, List.cons_append, List.nil_append] at h
    cases h with
    | @cons _ a _ _ hname h =>
      cases h with
      | @cons _ b _ paid hv h =>
        have hrest := ih h
        have hweight : weight (v, trimWs b) ≤ bytes b := max_le hv (bytes_trimWs_le b)
        simp only [List.cons_append, everySecond, List.zip_cons_cons, List.map_cons, List.sum_cons,
          memberWeight]
        simp only [Value.cost] at hname
        omega

theorem sum_items_le {items : List Value} {paid : List (List Char)}
    (h : List.Forall₂ (fun v part => v.cost ≤ bytes part) items paid) (rest : List (List Char))
    : (((items.zip (paid ++ rest)).map fun m => (m.1, trimWs m.2)).map
        fun field => weight field + 1).sum
      ≤ (paid.map fun part => bytes part + 1).sum := by
  induction h with
  | nil => simp
  | @cons v part items paid hv h ih =>
    have hweight : weight (v, trimWs part) ≤ bytes part := max_le hv (bytes_trimWs_le part)
    simp only [List.cons_append, List.zip_cons_cons, List.map_cons, List.sum_cons]
    omega

/--
The fields of a structure in a text: by name, where a field takes the bytes of its member, or by
position, where only fields at the end are missing.
-/
inductive RawFields (names : List String) (size : Nat) (fs : List (Option (Value × List Char)))
    : Prop where
  | byName (h : ((names.zip fs).map fun x =>
        (x.2.map fun field => memberWeight (text x.1, field)).getD 0).sum + 1 ≤ size)
  | byPosition (entries : List (Value × List Char))
      (hfs : fs = entries.map some ++ List.replicate (names.length - entries.length) none)
      (h : (entries.map fun field => weight field + 1).sum + 1 ≤ size)

/--
The parts that pay for the items of a value leave room for a separator.
-/
theorem exists_paid {s : String} {v : Value} (h : parse s = some v)
    : ∃ paid rest, parts s = paid ++ rest
      ∧ List.Forall₂ (fun v part => v.cost ≤ bytes part) v.items paid
      ∧ (paid.map fun part => bytes part + 1).sum + 1 ≤ s.utf8ByteSize := by
  by_cases hitems : v.items = []
  . refine ⟨[], parts s, rfl, hitems ▸ .nil, ?_⟩
    have ⟨c, rest, _, hdrop, _⟩ := exists_first_of_parse h
    have hmem : c ∈ s.toList := by
      apply (List.dropWhile_sublist isWs).subset
      rw [hdrop]
      exact List.mem_cons_self
    have hlen := List.length_pos_of_mem hmem
    have hbytes := length_le_bytes s.toList
    rw [bytes_toList] at hbytes
    exact Nat.lt_of_lt_of_le hlen hbytes
  . have ⟨⟨paid, rest, hparts, hpaid⟩, hspent⟩ := parts_spec h hitems
    refine ⟨paid, rest, hparts, hpaid, ?_⟩
    rw [hparts, spent, List.map_append, List.sum_append] at hspent
    omega

theorem rawFields_spec {names : List String} (hnodup : (names.map text).Nodup) {s : String}
    {fs : List (Option (Value × List Char))} (h : rawFields names s = some fs)
    : RawFields names s.utf8ByteSize fs := by
  unfold rawFields at h
  split at h
  . next members hparse =>
    have ⟨paid, rest, hparts, hpaid, hspent⟩ := exists_paid hparse
    have hmembers := sum_members_le hpaid rest
    rw [← hparts] at hmembers
    have hfields := sum_fieldsByName_le hnodup h (fun name field => memberWeight (name, field))
    exact .byName (Nat.le_trans (Nat.succ_le_succ (Nat.le_trans hfields hmembers)) hspent)
  . next items hparse =>
    have ⟨paid, rest, hparts, hpaid, hspent⟩ := exists_paid hparse
    have hitems := sum_items_le hpaid rest
    rw [← hparts] at hitems
    unfold fieldsByPosition at h
    split at h
    . cases h
      exact .byPosition _ rfl (Nat.le_trans (Nat.succ_le_succ hitems) hspent)
    . cases h
  . cases h

/--
The fields of an object that is written, with the texts of their values.
-/
theorem rawFields_object (names : List String) (members : List (String × String × Value))
    (hne : members ≠ []) (h : ∀ m ∈ members, Reads m.2.1 m.2.2)
    : rawFields names (object (members.map fun m => (m.1, m.2.1)))
      = fieldsByName names (members.map fun m => (text m.1, m.2.2, trimWs m.2.1.toList)) := by
  unfold rawFields
  rw [parse_of_reads (reads_object members h), parts_object hne h, everySecond_flatMap]
  dsimp only
  rw [List.zip_map', List.map_map]
  rfl

end Json
