import HandLiveRelay.Routes.Permanence
import HandLiveRelay.Store.Transactions

/-!
This module contains what the locks are for: every transaction that commits does to the committed
rows what its atomic counterpart on `Db` does. In particular a device that deletes itself has
checked exactly the unrevoked pairs that go with it, however the statements interleave.
-/

namespace HandLiveRelay

/-!
Rows and the atomic model of the database.
-/

namespace Db

theorem eq_of_pairId {db : Db} {r r' : PairRow} (hr : r ∈ db.rows.pairs) (hr' : r' ∈ db.rows.pairs)
    (h : r.pairId = r'.pairId) : r = r' := by
  have hfind := Table.mem_rows_iff.mp hr
  have hfind' := Table.mem_rows_iff.mp hr'
  rw [h, hfind'] at hfind
  exact (Option.some.inj hfind).symm

/--
A row matches the cascade of `d` if `d` is one of its members.
-/
theorem cascades_iff {db : Db} {r : PairRow} (hr : r ∈ db.rows.pairs) (d : Uuid)
    : ((db.devices.find? r.deviceA).any (fun row => decide (row.deviceId = d))
        || (db.devices.find? r.deviceB).any (fun row => decide (row.deviceId = d))) = true
      ↔ r.HasMember d := by
  have hmember : ∀ m, r.HasMember m
      → ((db.devices.find? m).any (fun row => decide (row.deviceId = d)) = true ↔ m = d) := by
    intro m hm
    have ⟨row, hrow⟩ := Option.isSome_iff_exists.mp (db.membersExist r hr m hm)
    rw [hrow, Option.any_some, decide_eq_true_eq, Table.key_of_find? hrow]
  rw [Bool.or_eq_true, hmember r.deviceA (.inl rfl), hmember r.deviceB (.inr rfl)]
  rfl

theorem nodup_heldPairs (db : Db) (d : Uuid) : (Devices.heldPairs db d).Nodup := by
  apply List.Nodup.of_map Prod.fst
  unfold Devices.heldPairs
  rw [List.map_map]
  exact db.pairs.nodup.sublist (List.filter_sublist.map _)

end Db

/-!
What holds of a transaction at each point, given the rows that are committed and the locks it
holds.
-/

variable {ε τ : Type}

section

variable (rows : Rows) (locks : List (RowId × LockMode))

/--
The device is locked, or there is none.
-/
def Secured (d : Uuid) : Prop :=
  (.device d, .update) ∈ locks ∨ rows.device? d = none

/--
The pairs of `held` are the unrevoked ones of the device, apart from those that are still to be
looked at, and each of them is locked.
-/
structure HeldOk (d : Uuid) (todo : List Uuid) (held : List (Uuid × Uuid)) : Prop where
  complete : ∀ r ∈ rows.pairs, r.HeldBy d → r.pairId ∈ todo ∨ (r.pairId, r.peer d) ∈ held
  sound : ∀ e ∈ held, (.pair e.1, .update) ∈ locks
    ∧ ∃ r ∈ rows.pairs, r.HeldBy d ∧ e = (r.pairId, r.peer d)
  nodup : (todo ++ held.map (·.1)).Nodup

/--
The cascade has every pair of the device before it or behind it, and has locked those behind it.
-/
structure CascadeOk (d : Uuid) (columns : List MemberColumn) (todo gone : List Uuid) : Prop where
  complete : ∀ r ∈ rows.pairs, ∀ column, r.member column = d
    → column ∈ columns ∨ r.pairId ∈ todo ∨ r.pairId ∈ gone
  locked : ∀ p ∈ gone, (.pair p, .update) ∈ locks
  members : ∀ p ∈ gone, ∀ r ∈ rows.pairs, r.pairId = p → r.HasMember d

/--
The id of the new pair is taken by nobody, and the devices that were checked are there.
-/
structure InsertOk (pair : Pairs.NewPair) (checked : List Uuid) : Prop where
  storable : Pairs.Storable pair.createdAtMs
  distinct : pair.deviceA ≠ pair.deviceB
  free : rows.pair? pair.pairId = none
  locked : (.pair pair.pairId, .update) ∈ locks
  members : ∀ d ∈ checked, (.device d, .keyShare) ∈ locks ∧ (rows.device? d).isSome

def Transaction.Ok : Transaction ε τ → Prop
  | .delete _ _ .begun => True
  | .delete d _ .locked => Secured rows locks d
  | .delete d _ (.reading todo held) => Secured rows locks d ∧ HeldOk rows locks d todo held
  | .delete d check (.checked held value) =>
    HeldOk rows locks d [] held ∧ check held = .ok value ∧ Secured rows locks d
  | .delete d check (.deleting held value columns todo gone) =>
    HeldOk rows locks d [] held ∧ check held = .ok value ∧ (.device d, .update) ∈ locks
      ∧ CascadeOk rows locks d columns todo gone
  | .delete d check (.missed held value) => HeldOk rows locks d [] held ∧ check held = .ok value
      ∧ Secured rows locks d
  | .insert pair checked => InsertOk rows locks pair checked
  | .revoke _ none => True
  | .revoke s (some row) =>
    (.pair s.pairId, .noKeyUpdate) ∈ locks ∧ row ∈ rows.pairs ∧ Pairs.Revokes s row
  | .ended => True

/--
What a transaction with these locks may commit. Rows that go or change are locked, and a row that
is new has its id and its members locked.
-/
structure Allowed (rows' : Rows) : Prop where
  devices : ∀ r ∈ rows.devices, r ∈ rows'.devices ∨ (.device r.deviceId, .update) ∈ locks
  noDevice : ∀ r ∈ rows'.devices, r ∈ rows.devices
  pairs : ∀ r ∈ rows.pairs, r ∈ rows'.pairs ∨ ∃ m, m ≠ .keyShare ∧ (.pair r.pairId, m) ∈ locks
  new : ∀ r ∈ rows'.pairs, r ∈ rows.pairs
    ∨ (∃ r0 ∈ rows.pairs, r.pairId = r0.pairId ∧ (∀ column, r.member column = r0.member column)
      ∧ r.revokedAt ≠ none)
    ∨ ((.pair r.pairId, .update) ∈ locks
      ∧ ∀ column, (.device (r.member column), .keyShare) ∈ locks
        ∧ (rows.device? (r.member column)).isSome)

end

theorem PairRow.hasMember_iff {r : PairRow} {d : Uuid}
    : r.HasMember d ↔ ∃ column, r.member column = d := by
  constructor
  . intro h
    cases h with
    | inl h => exact ⟨.a, h⟩
    | inr h => exact ⟨.b, h⟩
  . rintro ⟨column, h⟩
    cases column with
    | a => exact .inl h
    | b => exact .inr h

variable {rows rows' : Rows} {locks locks' : List (RowId × LockMode)}

/-!
More locks do no harm.
-/

theorem Secured.mono {d : Uuid} (h : Secured rows locks d) (hsub : locks ⊆ locks')
    : Secured rows locks' d :=
  h.imp (fun hl => hsub hl) id

theorem HeldOk.mono {d : Uuid} {todo : List Uuid} {held : List (Uuid × Uuid)}
    (h : HeldOk rows locks d todo held) (hsub : locks ⊆ locks') : HeldOk rows locks' d todo held where
  complete := h.complete
  sound e he := ⟨hsub (h.sound e he).1, (h.sound e he).2⟩
  nodup := h.nodup

theorem CascadeOk.mono {d : Uuid} {columns : List MemberColumn} {todo gone : List Uuid}
    (h : CascadeOk rows locks d columns todo gone) (hsub : locks ⊆ locks')
    : CascadeOk rows locks' d columns todo gone where
  complete := h.complete
  locked p hp := hsub (h.locked p hp)
  members := h.members

theorem InsertOk.mono {pair : Pairs.NewPair} {checked : List Uuid}
    (h : InsertOk rows locks pair checked) (hsub : locks ⊆ locks')
    : InsertOk rows locks' pair checked where
  storable := h.storable
  distinct := h.distinct
  free := h.free
  locked := hsub h.locked
  members d hd := ⟨hsub (h.members d hd).1, (h.members d hd).2⟩

theorem Transaction.Ok.mono {tx : Transaction ε τ} (h : tx.Ok rows locks) (hsub : locks ⊆ locks')
    : tx.Ok rows locks' := by
  unfold Transaction.Ok at h ⊢
  split
  . trivial
  . exact Secured.mono h hsub
  . exact ⟨h.1.mono hsub, h.2.mono hsub⟩
  . exact ⟨h.1.mono hsub, h.2.1, h.2.2.mono hsub⟩
  . exact ⟨h.1.mono hsub, h.2.1, hsub h.2.2.1, h.2.2.2.mono hsub⟩
  . exact ⟨h.1.mono hsub, h.2.1, h.2.2.mono hsub⟩
  . exact InsertOk.mono h hsub
  . trivial
  . exact ⟨hsub h.1, h.2⟩
  . trivial

/-!
What another transaction commits does no harm, since its locks do not conflict.
-/

section

variable (hlocks : ∀ r m m', (r, m) ∈ locks → (r, m') ∈ locks' → m.conflicts m' = false)
  (hallowed : Allowed rows locks' rows')

include hlocks hallowed

omit hallowed in
theorem Secured.not_inserted {d : Uuid} (h : Secured rows locks d) {r : PairRow}
    {column : MemberColumn} (hd : r.member column = d)
    (hlock : (.device (r.member column), .keyShare) ∈ locks')
    (hexists : (rows.device? (r.member column)).isSome) : False := by
  subst hd
  cases h with
  | inl hheld => exact absurd (hlocks _ _ _ hheld hlock) (by simp [LockMode.conflicts])
  | inr hnone => simp [hnone] at hexists

theorem Allowed.pair_stays {r : PairRow} {m : LockMode} (hr : r ∈ rows.pairs)
    (hheld : (.pair r.pairId, m) ∈ locks) (hm : m ≠ .keyShare) : r ∈ rows'.pairs := by
  refine (hallowed.pairs r hr).resolve_right ?_
  rintro ⟨m', hm', hlock⟩
  have hfree := hlocks _ _ _ hheld hlock
  cases m <;> cases m' <;> simp_all [LockMode.conflicts]

omit hlocks in
theorem Allowed.device_none {d : Uuid} (h : rows.device? d = none) : rows'.device? d = none := by
  unfold Rows.device? at h ⊢
  rw [List.find?_eq_none] at h ⊢
  intro r hr
  exact h r (hallowed.noDevice r hr)

theorem Allowed.device_some {d : Uuid} {m : LockMode} (hheld : (.device d, m) ∈ locks)
    (h : (rows.device? d).isSome) : (rows'.device? d).isSome := by
  unfold Rows.device? at h ⊢
  rw [List.find?_isSome] at h ⊢
  have ⟨r, hr, hd⟩ := h
  rw [decide_eq_true_eq] at hd
  subst hd
  refine ⟨r, (hallowed.devices r hr).resolve_right ?_, decide_eq_true rfl⟩
  intro hlock
  exact absurd (hlocks _ _ _ hheld hlock) (by simp)

omit hlocks in
theorem Secured.transfer {d : Uuid} (h : Secured rows locks d) : Secured rows' locks d := by
  cases h with
  | inl hheld => exact .inl hheld
  | inr hnone => exact .inr (Allowed.device_none hallowed hnone)

theorem HeldOk.transfer {d : Uuid} {todo : List Uuid} {held : List (Uuid × Uuid)}
    (h : HeldOk rows locks d todo held) (hsecured : Secured rows locks d)
    : HeldOk rows' locks d todo held where
  complete r hr hheld := by
    rcases hallowed.new r hr with hr | ⟨_, _, _, _, hrevoked⟩ | ⟨_, hmembers⟩
    . exact h.complete r hr hheld
    . exact absurd hheld.2 hrevoked
    . have ⟨column, hd⟩ := PairRow.hasMember_iff.mp hheld.1
      exact (hsecured.not_inserted hlocks hd (hmembers column).1
        (hmembers column).2).elim
  sound e he := by
    have ⟨hlock, r, hr, hheld, heq⟩ := h.sound e he
    refine ⟨hlock, r, ?_, hheld, heq⟩
    subst heq
    exact Allowed.pair_stays hlocks hallowed hr hlock (by simp)
  nodup := h.nodup

theorem CascadeOk.transfer {d : Uuid} {columns : List MemberColumn} {todo gone : List Uuid}
    (h : CascadeOk rows locks d columns todo gone) (hsecured : Secured rows locks d)
    : CascadeOk rows' locks d columns todo gone where
  complete r hr column hd := by
    rcases hallowed.new r hr with hr | ⟨r0, hr0, hid, hmember, _⟩ | ⟨_, hmembers⟩
    . exact h.complete r hr column hd
    . rw [hid]
      exact h.complete r0 hr0 column (hmember column ▸ hd)
    . exact (hsecured.not_inserted hlocks hd (hmembers column).1
        (hmembers column).2).elim
  locked := h.locked
  members p hp r hr hid := by
    rcases hallowed.new r hr with hr | ⟨r0, hr0, hid0, hmember, _⟩ | ⟨hlock, _⟩
    . exact h.members p hp r hr hid
    . have hm := h.members p hp r0 hr0 (hid0 ▸ hid)
      rw [PairRow.hasMember_iff] at hm ⊢
      have ⟨column, hcolumn⟩ := hm
      exact ⟨column, (hmember column).trans hcolumn⟩
    . subst hid
      exact absurd (hlocks _ _ _ (h.locked _ hp) hlock) (by simp)

theorem InsertOk.transfer {pair : Pairs.NewPair} {checked : List Uuid}
    (h : InsertOk rows locks pair checked) : InsertOk rows' locks pair checked where
  storable := h.storable
  distinct := h.distinct
  free := by
    have hfree := h.free
    unfold Rows.pair? at hfree ⊢
    rw [List.find?_eq_none] at hfree ⊢
    intro r hr hid
    rcases hallowed.new r hr with hr | ⟨r0, hr0, hid0, _⟩ | ⟨hlock, _⟩
    . exact hfree r hr hid
    . exact hfree r0 hr0 (hid0 ▸ hid)
    . rw [decide_eq_true_eq] at hid
      rw [hid] at hlock
      exact absurd (hlocks _ _ _ h.locked hlock) (by simp)
  locked := h.locked
  members d hd := ⟨(h.members d hd).1,
    Allowed.device_some hlocks hallowed (h.members d hd).1 (h.members d hd).2⟩

theorem Transaction.Ok.transfer {tx : Transaction ε τ} (h : tx.Ok rows locks)
    : tx.Ok rows' locks := by
  unfold Transaction.Ok at h ⊢
  split
  . trivial
  . exact Secured.transfer hallowed h
  . exact ⟨h.1.transfer hallowed, h.2.transfer hlocks hallowed h.1⟩
  . exact ⟨h.1.transfer hlocks hallowed h.2.2, h.2.1, h.2.2.transfer hallowed⟩
  . exact ⟨h.1.transfer hlocks hallowed (.inl h.2.2.1), h.2.1, h.2.2.1,
      h.2.2.2.transfer hlocks hallowed (.inl h.2.2.1)⟩
  . exact ⟨h.1.transfer hlocks hallowed h.2.2, h.2.1, h.2.2.transfer hallowed⟩
  . exact InsertOk.transfer hlocks hallowed h
  . trivial
  . exact ⟨h.1, Allowed.pair_stays hlocks hallowed h.2.1 (h.2.2.1 ▸ h.1) (by simp), h.2.2⟩
  . trivial

end

/-!
What a transaction commits.
-/

theorem Allowed.rfl : Allowed rows locks rows where
  devices _ hr := .inl hr
  noDevice _ hr := hr
  pairs _ hr := .inl hr
  new _ hr := .inl hr

theorem Transaction.Ok.allowed {tx : Transaction ε τ} (h : tx.Ok rows locks)
    (hcommit : Pg.committed rows tx = some rows') : Allowed rows locks rows' := by
  unfold Pg.committed at hcommit
  split at hcommit
  next d check held value gone =>
    cases hcommit
    have ⟨_, _, hdevice, hcascade⟩ := h
    refine ⟨?_, fun r hr => List.mem_of_mem_filter hr, ?_,
      fun r hr => .inl (List.mem_of_mem_filter hr)⟩
    . intro r hr
      by_cases hd : r.deviceId = d
      . exact .inr (hd ▸ hdevice)
      . exact .inl (List.mem_filter.mpr ⟨hr, by simpa using hd⟩)
    . intro r hr
      by_cases hgone : r.pairId ∈ gone
      . exact .inr ⟨.update, by simp, hcascade.locked _ hgone⟩
      . exact .inl (List.mem_filter.mpr ⟨hr, by simpa using hgone⟩)
  . cases hcommit
    exact .rfl
  next pair checked =>
    split at hcommit
    next hchecked =>
      cases hcommit
      refine ⟨fun r hr => .inl hr, fun r hr => hr,
        fun r hr => .inl (List.mem_append_left _ hr), ?_⟩
      intro r hr
      cases List.mem_append.mp hr with
      | inl hr => exact .inl hr
      | inr hr =>
        rw [List.mem_singleton] at hr
        subst hr
        refine .inr (.inr ⟨h.locked, ?_⟩)
        intro column
        cases column with
        | a => exact h.members _ hchecked.1
        | b => exact h.members _ hchecked.2
    . cases hcommit
  next s row =>
    cases hcommit
    have ⟨hlock, hrow, hrevokes⟩ := h
    refine ⟨fun r hr => .inl hr, fun r hr => hr, ?_, ?_⟩
    . intro r hr
      by_cases hid : r.pairId = s.pairId
      . exact .inr ⟨.noKeyUpdate, by simp, hid ▸ hlock⟩
      . left
        refine List.mem_map.mpr ⟨r, hr, if_neg ?_⟩
        rwa [Pairs.pairId_revokeRow, hrevokes.1]
    . intro r hr
      have ⟨r1, hr1, heq⟩ := List.mem_map.mp hr
      split at heq
      . subst heq
        refine .inr (.inl ⟨row, hrow, Pairs.pairId_revokeRow s row, ?_, ?_⟩)
        . intro column
          cases column with
          | a => exact Pairs.deviceA_revokeRow s row
          | b => exact Pairs.deviceB_revokeRow s row
        . rw [Pairs.revokeRow, if_pos hrevokes]
          simp
      . exact .inl (heq ▸ hr1)
  . cases hcommit

/--
A device that deletes itself has checked the unrevoked pairs it has, and what goes is what the
atomic statement deletes.
-/
theorem Transaction.Ok.deletes {db : Db} (hdb : db.rows = rows) {d : Uuid}
    {check : List (Uuid × Uuid) → Except ε τ} {held : List (Uuid × Uuid)} {value : τ}
    {gone : List Uuid}
    (h : (Transaction.delete d check (.deleting held value [] [] gone)).Ok rows locks)
    : held.Perm (Devices.heldPairs db d)
      ∧ Pg.committed rows (.delete d check (.deleting held value [] [] gone))
        = some (db.deleteDevices (·.deviceId = d)).rows := by
  subst hdb
  have ⟨hheld, _, _, hcascade⟩ := h
  constructor
  . have hnodup : held.Nodup := List.Nodup.of_map _ (by simpa using hheld.nodup)
    rw [List.perm_ext_iff_of_nodup hnodup (Db.nodup_heldPairs db d)]
    rintro ⟨p, peer⟩
    rw [Devices.mem_heldPairs]
    constructor
    . intro he
      exact (hheld.sound _ he).2
    . rintro ⟨r, hr, hr', heq⟩
      rw [heq]
      exact (hheld.complete r hr hr').resolve_left List.not_mem_nil
  . have hgone : ∀ r ∈ db.rows.pairs, r.pairId ∈ gone ↔ r.HasMember d := by
      intro r hr
      constructor
      . intro hg
        exact hcascade.members _ hg r hr rfl
      . intro hm
        have ⟨column, hd⟩ := PairRow.hasMember_iff.mp hm
        simpa using hcascade.complete r hr column hd
    have hpairs : db.rows.pairs.filter (fun r => !decide (r.pairId ∈ gone))
        = (db.deleteDevices (·.deviceId = d)).rows.pairs := by
      apply List.filter_congr
      intro r hr
      congr 1
      rw [Bool.eq_iff_iff, decide_eq_true_eq, hgone r hr, Db.cascades_iff hr]
    unfold Pg.committed
    dsimp only
    rw [hpairs]
    rfl

/--
An insert that commits is the atomic one, which finds the id free and both members there.
-/
theorem Transaction.Ok.inserts {db : Db} (hdb : db.rows = rows) {pair : Pairs.NewPair}
    {checked : List Uuid} (h : (Transaction.insert pair checked : Transaction ε τ).Ok rows locks)
    (hcommit : Pg.committed rows (.insert pair checked : Transaction ε τ) = some rows')
    : ∃ db', Pairs.insert db pair = some (db', .created) ∧ db'.rows = rows' := by
  subst hdb
  unfold Pg.committed at hcommit
  dsimp only at hcommit
  split at hcommit
  next hchecked =>
    cases hcommit
    have hfree : db.pairs.find? pair.row.pairId = none := h.free
    have hne : Pairs.Storable pair.createdAtMs ∧ pair.row.deviceA ≠ pair.row.deviceB :=
      ⟨h.storable, h.distinct⟩
    have hmem : (db.devices.find? pair.row.deviceA).isSome
        ∧ (db.devices.find? pair.row.deviceB).isSome :=
      ⟨(h.members _ hchecked.1).2, (h.members _ hchecked.2).2⟩
    have hexist : ∀ d, pair.row.HasMember d → (db.devices.find? d).isSome := by
      intro d hd
      cases hd with
      | inl hd => exact hd ▸ hmem.1
      | inr hd => exact hd ▸ hmem.2
    refine ⟨db.insertPair pair.row hfree hexist h.distinct, ?_, rfl⟩
    unfold Pairs.insert
    dsimp only
    rw [dif_pos hne]
    split
    next p hfind =>
      rw [hfree] at hfind
      cases hfind
    . rw [dif_pos hmem]
  . cases hcommit

/--
A revocation that commits is the atomic one.
-/
theorem Transaction.Ok.revokes {db : Db} (hdb : db.rows = rows) {s : RevokeStatement}
    {row : PairRow} (h : (Transaction.revoke s (some row) : Transaction ε τ).Ok rows locks)
    : Pg.withRow rows (Pairs.revokeRow s row) = (Pairs.revoke db s).1.rows := by
  subst hdb
  have ⟨_, hrow, hrevokes⟩ := h
  have hpairs : db.rows.pairs.map
        (fun r => if r.pairId = (Pairs.revokeRow s row).pairId then Pairs.revokeRow s row else r)
      = (Pairs.revoke db s).1.rows.pairs := by
    apply List.map_congr_left
    intro r hr
    rw [Pairs.pairId_revokeRow]
    split
    next hid => rw [Db.eq_of_pairId hr hrow hid]
    next hid =>
      rw [Pairs.revokeRow, if_neg]
      intro hr'
      exact hid (hr'.1.trans hrevokes.1.symm)
  unfold Pg.withRow
  rw [hpairs]
  rfl

/--
The rows that a transaction commits are again those of a database that keeps its constraints.
-/
theorem Transaction.Ok.exists_db {db : Db} (hdb : db.rows = rows) {tx : Transaction ε τ}
    (h : tx.Ok rows locks) (hcommit : Pg.committed rows tx = some rows')
    : ∃ db' : Db, db'.rows = rows' := by
  cases tx with
  | delete d check phase =>
    cases phase with
    | deleting held value columns todo gone =>
      cases columns with
      | cons column columns => cases hcommit
      | nil =>
        cases todo with
        | cons p todo => cases hcommit
        | nil =>
          rw [(h.deletes hdb).2] at hcommit
          exact ⟨_, Option.some.inj hcommit⟩
    | missed held value =>
      cases hcommit
      exact ⟨db, hdb⟩
    | _ => cases hcommit
  | insert pair checked =>
    have ⟨db', _, hrows⟩ := h.inserts hdb hcommit
    exact ⟨db', hrows⟩
  | revoke s row =>
    cases row with
    | none => cases hcommit
    | some row =>
      cases hcommit
      exact ⟨_, (h.revokes hdb).symm⟩
  | ended => cases hcommit

namespace Pg

variable {pg pg' : Pg ε τ}

/--
Locks do not conflict, every transaction is where it should be, and the committed rows are those of
a database that keeps its constraints.
-/
structure Inv (pg : Pg ε τ) : Prop where
  length : pg.locks.length = pg.txs.length
  exclusive : pg.locks.Exclusive
  txs : ∀ x (tx : Transaction ε τ), pg.txs[x]? = some tx → tx.Ok pg.rows (pg.locks.heldBy x)
  db : ∃ db : Db, db.rows = pg.rows

theorem inv_init (db : Db) : Inv (init db : Pg ε τ) where
  length := rfl
  exclusive := LockTable.exclusive_nil
  txs x tx hx := by simp [init] at hx
  db := ⟨db, rfl⟩

theorem lt_of_getElem? {x : Nat} {tx : Transaction ε τ} (h : pg.txs[x]? = some tx)
    : x < pg.txs.length := by
  have ⟨hlt, _⟩ := List.getElem?_eq_some_iff.mp h
  exact hlt

theorem Inv.begin (h : Inv pg) {tx : Transaction ε τ} (htx : tx.Ok pg.rows []) : Inv (pg.begin tx) where
  length := by simp [Pg.begin, h.length]
  exclusive := h.exclusive.append_nil
  txs x tx' hx := by
    change tx'.Ok pg.rows (LockTable.heldBy (pg.locks ++ [[]]) x)
    rw [LockTable.heldBy_append_nil]
    change (pg.txs ++ [tx])[x]? = some tx' at hx
    by_cases hlt : x < pg.txs.length
    . rw [List.getElem?_append_left hlt] at hx
      exact h.txs x tx' hx
    . rw [List.getElem?_append_right (Nat.le_of_not_lt hlt)] at hx
      have heq : tx' = tx := by
        have hmem := List.mem_of_getElem? hx
        rwa [List.mem_singleton] at hmem
      exact (heq ▸ htx).mono (List.nil_subset _)
  db := h.db

theorem Inv.lock (h : Inv pg) {x : Nat} {r : RowId} {m : LockMode} (hx : x < pg.txs.length)
    (hfree : pg.locks.free x r m) : Inv (pg.lock x r m) where
  length := by simp [Pg.lock, LockTable.acquire, h.length]
  exclusive := h.exclusive.acquire (h.length ▸ hx) hfree
  txs y tx hy := by
    apply (h.txs y tx hy).mono
    change pg.locks.heldBy y ⊆ (pg.locks.acquire x r m).heldBy y
    by_cases hyx : y = x
    . subst hyx
      rw [LockTable.heldBy_acquire_self (h.length ▸ hx)]
      exact List.subset_cons_self _ _
    . rw [LockTable.heldBy_acquire_ne hyx]
      exact List.Subset.refl _
  db := h.db

theorem Inv.setTx (h : Inv pg) {x : Nat} {tx : Transaction ε τ}
    (htx : tx.Ok pg.rows (pg.locks.heldBy x)) : Inv (pg.setTx x tx) where
  length := by simp [Pg.setTx, h.length]
  exclusive := h.exclusive
  txs y tx' hy := by
    change (pg.txs.set x tx)[y]? = some tx' at hy
    by_cases hyx : y = x
    . subst hyx
      have hmem : tx' = tx := by
        rw [List.getElem?_set_self'] at hy
        have ⟨_, _, heq⟩ := Option.map_eq_some_iff.mp hy
        exact heq.symm
      exact hmem ▸ htx
    . rw [List.getElem?_set_ne (Ne.symm hyx)] at hy
      exact h.txs y tx' hy
  db := h.db

/--
A transaction takes a lock and goes on.
-/
theorem Inv.lockAndSet (h : Inv pg) {x : Nat} {r : RowId} {m : LockMode} {tx : Transaction ε τ}
    (hx : x < pg.txs.length) (hfree : pg.locks.free x r m)
    (htx : tx.Ok pg.rows ((r, m) :: pg.locks.heldBy x)) : Inv ((pg.setTx x tx).lock x r m) := by
  have htx' : tx.Ok pg.rows ((pg.locks.acquire x r m).heldBy x) := by
    rwa [LockTable.heldBy_acquire_self (h.length ▸ hx)]
  exact (h.lock hx hfree).setTx htx'

theorem Inv.finish (h : Inv pg) {x : Nat} {rows : Rows}
    (hallowed : Allowed pg.rows (pg.locks.heldBy x) rows) (hdb : ∃ db : Db, db.rows = rows)
    : Inv (pg.finish x rows) where
  length := by simp [Pg.finish, LockTable.release, h.length]
  exclusive := h.exclusive.release x
  txs y tx hy := by
    change (pg.txs.set x .ended)[y]? = some tx at hy
    by_cases hyx : y = x
    . subst hyx
      rw [List.getElem?_set_self'] at hy
      obtain ⟨_, _, heq⟩ := Option.map_eq_some_iff.mp hy
      rw [← heq]
      trivial
    . rw [List.getElem?_set_ne (Ne.symm hyx)] at hy
      change tx.Ok rows ((pg.locks.release x).heldBy y)
      rw [LockTable.heldBy_release_ne hyx]
      refine Transaction.Ok.transfer ?_ hallowed (h.txs y tx hy)
      intro r m m' hm hm'
      exact h.exclusive y x r m m' hyx hm hm'
  db := hdb

theorem Inv.rollback (h : Inv pg) (x : Nat) : Inv (pg.finish x pg.rows) :=
  h.finish .rfl h.db

/-!
The statements one by one.
-/

theorem Inv.eq_of_pairId (h : Inv pg) {r r' : PairRow} (hr : r ∈ pg.rows.pairs)
    (hr' : r' ∈ pg.rows.pairs) (hid : r.pairId = r'.pairId) : r = r' := by
  have ⟨db, hdb⟩ := h.db
  exact Db.eq_of_pairId (hdb ▸ hr) (hdb ▸ hr') hid

theorem Inv.nodup_pairIds (h : Inv pg) : (pg.rows.pairs.map (·.pairId)).Nodup := by
  have ⟨db, hdb⟩ := h.db
  exact hdb ▸ db.pairs.nodup

theorem mem_of_pair? {rows : Rows} {p : Uuid} {row : PairRow} (h : rows.pair? p = some row)
    : row ∈ rows.pairs ∧ row.pairId = p :=
  ⟨List.mem_of_find?_eq_some h, by simpa using List.find?_some h⟩

theorem ne_of_pair?_none {rows : Rows} {p : Uuid} (h : rows.pair? p = none) {r : PairRow}
    (hr : r ∈ rows.pairs) : r.pairId ≠ p := by
  unfold Rows.pair? at h
  rw [List.find?_eq_none] at h
  simpa using h r hr

theorem Inv.lockDevice (h : Inv pg) {x : Nat} (hstep : pg.step (.lockDevice x) = some pg')
    : Inv pg' := by
  unfold step at hstep
  dsimp only at hstep
  split at hstep
  next d check hx =>
    split at hstep
    next hnone =>
      cases hstep
      exact h.setTx (.inr (Option.isNone_iff_eq_none.mp hnone))
    . split at hstep
      next hfree =>
        cases hstep
        exact h.lockAndSet (lt_of_getElem? hx) hfree (.inl List.mem_cons_self)
      . cases hstep
  . cases hstep

theorem Inv.readPairs (h : Inv pg) {x : Nat} (hstep : pg.step (.readPairs x) = some pg')
    : Inv pg' := by
  unfold step at hstep
  dsimp only at hstep
  split at hstep
  next d check hx =>
    cases hstep
    refine h.setTx ⟨h.txs x _ hx, ?_, by simp, ?_⟩
    . intro r hr hheld
      exact .inl (List.mem_map_of_mem (List.mem_filter.mpr ⟨hr, decide_eq_true hheld⟩))
    . rw [List.map_nil, List.append_nil]
      exact h.nodup_pairIds.sublist (List.filter_sublist.map _)
  . cases hstep

/--
The row of `p` is locked and looked at again.
-/
theorem HeldOk.lockPair {d p : Uuid} {todo : List Uuid} {held : List (Uuid × Uuid)} {x : Nat}
    {row : PairRow} (h : Inv pg) (hheld : HeldOk pg.rows (pg.locks.heldBy x) d todo held)
    (hp : p ∈ todo) (hrow : pg.rows.pair? p = some row)
    : HeldOk pg.rows ((.pair p, .update) :: pg.locks.heldBy x) d (todo.erase p)
        (if row.HeldBy d then held ++ [(p, row.peer d)] else held) := by
  have ⟨hmem, hid⟩ := mem_of_pair? hrow
  have hnodup := hheld.nodup
  rw [List.nodup_append] at hnodup
  have hkeep : ∀ e, e ∈ held → e ∈ (if row.HeldBy d then held ++ [(p, row.peer d)] else held) := by
    intro e he
    split
    . exact List.mem_append_left _ he
    . exact he
  constructor
  . intro r hr hr'
    by_cases hrp : r.pairId = p
    . have heq := h.eq_of_pairId hr hmem (hrp.trans hid.symm)
      subst heq
      rw [if_pos hr', hid]
      exact .inr (List.mem_append_right _ List.mem_cons_self)
    . cases hheld.complete r hr hr' with
      | inl htodo => exact .inl ((List.mem_erase_of_ne hrp).mpr htodo)
      | inr he => exact .inr (hkeep _ he)
  . intro e he
    have hold : e ∈ held → (.pair e.1, .update) ∈ (.pair p, .update) :: pg.locks.heldBy x
        ∧ ∃ r ∈ pg.rows.pairs, r.HeldBy d ∧ e = (r.pairId, r.peer d) := by
      intro he
      have ⟨hlock, hr⟩ := hheld.sound e he
      exact ⟨List.mem_cons_of_mem _ hlock, hr⟩
    split at he
    next hheldBy =>
      cases List.mem_append.mp he with
      | inl he => exact hold he
      | inr he =>
        rw [List.mem_singleton] at he
        subst he
        exact ⟨List.mem_cons_self, row, hmem, hheldBy, by rw [hid]⟩
    . exact hold he
  . have hdisjoint : ∀ a ∈ todo.erase p, ∀ b ∈ held.map (·.1), a ≠ b := by
      intro a ha
      exact hnodup.2.2 a (List.mem_of_mem_erase ha)
    split
    . rw [List.map_append, List.nodup_append]
      refine ⟨hnodup.1.erase p, ?_, ?_⟩
      . rw [List.nodup_append]
        refine ⟨hnodup.2.1, List.nodup_singleton _, ?_⟩
        intro a ha b hb
        simp only [List.map_cons, List.map_nil, List.mem_singleton] at hb
        rw [hb]
        exact (hnodup.2.2 p hp a ha).symm
      . intro a ha b hb
        cases List.mem_append.mp hb with
        | inl hb => exact hdisjoint a ha b hb
        | inr hb =>
          simp only [List.map_cons, List.map_nil, List.mem_singleton] at hb
          rw [hb]
          rintro rfl
          exact hnodup.1.not_mem_erase ha
    . rw [List.nodup_append]
      exact ⟨hnodup.1.erase p, hnodup.2.1, hdisjoint⟩

theorem Inv.lockPair (h : Inv pg) {x : Nat} {p : Uuid}
    (hstep : pg.step (.lockPair x p) = some pg') : Inv pg' := by
  unfold step at hstep
  dsimp only at hstep
  split at hstep
  next d check todo held hx =>
    have ⟨hsecured, hheld⟩ := h.txs x _ hx
    split at hstep
    next hp =>
      split at hstep
      next hnone =>
        cases hstep
        refine h.setTx ⟨hsecured, ?_, hheld.sound,
          hheld.nodup.sublist (List.erase_sublist.append (.refl _))⟩
        intro r hr hr'
        exact (hheld.complete r hr hr').imp_left
          fun htodo => (List.mem_erase_of_ne (ne_of_pair?_none hnone hr)).mpr htodo
      next row hrow =>
        split at hstep
        next hfree =>
          cases hstep
          exact h.lockAndSet (lt_of_getElem? hx) hfree
            ⟨hsecured.mono (List.subset_cons_self _ _), HeldOk.lockPair h hheld hp hrow⟩
        . cases hstep
    . cases hstep
  . cases hstep

theorem Inv.runCheck (h : Inv pg) {x : Nat} (hstep : pg.step (.runCheck x) = some pg')
    : Inv pg' := by
  unfold step at hstep
  dsimp only at hstep
  split at hstep
  next d check held hx =>
    have ⟨hsecured, hheld⟩ := h.txs x _ hx
    split at hstep
    next value hcheck =>
      cases hstep
      exact h.setTx ⟨hheld, hcheck, hsecured⟩
    . cases hstep
      exact h.rollback x
  . cases hstep

theorem Inv.deleteDevice (h : Inv pg) {x : Nat} (hstep : pg.step (.deleteDevice x) = some pg')
    : Inv pg' := by
  unfold step at hstep
  dsimp only at hstep
  split at hstep
  next d check held value hx =>
    have ⟨hheld, hcheck, hsecured⟩ := h.txs x _ hx
    split at hstep
    . cases hstep
      exact h.setTx ⟨hheld, hcheck, hsecured⟩
    . split at hstep
      next hfree =>
        cases hstep
        refine h.lockAndSet (lt_of_getElem? hx) hfree
          ⟨hheld.mono (List.subset_cons_self _ _), hcheck, List.mem_cons_self, ?_, by simp, by simp⟩
        intro r _ column _
        cases column <;> simp
      . cases hstep
  . cases hstep

theorem Inv.fireCascade (h : Inv pg) {x : Nat} (hstep : pg.step (.fireCascade x) = some pg')
    : Inv pg' := by
  unfold step at hstep
  dsimp only at hstep
  split at hstep
  next d check held value column columns gone hx =>
    have ⟨hheld, hcheck, hdevice, hcascade⟩ := h.txs x _ hx
    cases hstep
    refine h.setTx ⟨hheld, hcheck, hdevice, ?_, hcascade.locked, hcascade.members⟩
    intro r hr column' hd
    rcases hcascade.complete r hr column' hd with hcolumn | htodo | hgone
    . cases List.mem_cons.mp hcolumn with
      | inl heq =>
        subst heq
        exact .inr (.inl (List.mem_map_of_mem (List.mem_filter.mpr ⟨hr, decide_eq_true hd⟩)))
      | inr hcolumn => exact .inl hcolumn
    . cases htodo
    . exact .inr (.inr hgone)
  . cases hstep

/--
The row of `p` is locked and deleted.
-/
theorem CascadeOk.deletePair {d p : Uuid} {columns : List MemberColumn} {todo gone : List Uuid}
    {x : Nat} {row : PairRow} (h : Inv pg)
    (hcascade : CascadeOk pg.rows (pg.locks.heldBy x) d columns todo gone)
    (hrow : pg.rows.pair? p = some row)
    : CascadeOk pg.rows ((.pair p, .update) :: pg.locks.heldBy x) d columns (todo.erase p)
        (if row.HasMember d then p :: gone else gone) := by
  have ⟨hmem, hid⟩ := mem_of_pair? hrow
  have hcases : ∀ q ∈ (if row.HasMember d then p :: gone else gone),
      q ∈ gone ∨ q = p ∧ row.HasMember d := by
    intro q hq
    split at hq
    next hmember => exact (List.mem_cons.mp hq).symm.imp_right fun hq => ⟨hq, hmember⟩
    . exact .inl hq
  have hkeep : ∀ q ∈ gone, q ∈ (if row.HasMember d then p :: gone else gone) := by
    intro q hq
    split
    . exact List.mem_cons_of_mem p hq
    . exact hq
  constructor
  . intro r hr column hd
    rcases hcascade.complete r hr column hd with hcolumn | htodo | hgone
    . exact .inl hcolumn
    . right
      by_cases hrp : r.pairId = p
      . have heq := h.eq_of_pairId hr hmem (hrp.trans hid.symm)
        subst heq
        rw [if_pos (PairRow.hasMember_iff.mpr ⟨column, hd⟩), hid]
        exact .inr List.mem_cons_self
      . exact .inl ((List.mem_erase_of_ne hrp).mpr htodo)
    . exact .inr (.inr (hkeep _ hgone))
  . intro q hq
    cases hcases q hq with
    | inl hq => exact List.mem_cons_of_mem _ (hcascade.locked q hq)
    | inr hq =>
      rw [hq.1]
      exact List.mem_cons_self
  . intro q hq r hr hrq
    cases hcases q hq with
    | inl hq => exact hcascade.members q hq r hr hrq
    | inr hq =>
      rw [h.eq_of_pairId hr hmem (hrq.trans (hq.1.trans hid.symm))]
      exact hq.2

theorem Inv.deletePair (h : Inv pg) {x : Nat} {p : Uuid}
    (hstep : pg.step (.deletePair x p) = some pg') : Inv pg' := by
  unfold step at hstep
  dsimp only at hstep
  split at hstep
  next d check held value columns todo gone hx =>
    have ⟨hheld, hcheck, hdevice, hcascade⟩ := h.txs x _ hx
    split at hstep
    . split at hstep
      next hnone =>
        cases hstep
        refine h.setTx ⟨hheld, hcheck, hdevice, ?_, hcascade.locked, hcascade.members⟩
        intro r hr column hd
        exact (hcascade.complete r hr column hd).imp_right fun hc => hc.imp_left
          fun htodo => (List.mem_erase_of_ne (ne_of_pair?_none hnone hr)).mpr htodo
      next row hrow =>
        split at hstep
        next hfree =>
          cases hstep
          exact h.lockAndSet (lt_of_getElem? hx) hfree ⟨hheld.mono (List.subset_cons_self _ _),
            hcheck, List.mem_cons_of_mem _ hdevice, CascadeOk.deletePair h hcascade hrow⟩
        . cases hstep
    . cases hstep
  . cases hstep

theorem Inv.beginInsert (h : Inv pg) {pair : Pairs.NewPair}
    (hstep : pg.step (.beginInsert pair) = some pg') : Inv pg' := by
  unfold step at hstep
  dsimp only at hstep
  split at hstep
  next hguard =>
    have ⟨hstorable, hdistinct, hnone, hfree⟩ := hguard
    cases hstep
    have hset : (pg.begin (.insert pair []))
        = (pg.begin .ended).setTx pg.txs.length (.insert pair []) := by
      simp [Pg.begin, Pg.setTx]
    have hbegin : Inv (pg.begin .ended) := h.begin trivial
    rw [hset]
    refine hbegin.lockAndSet (by simp [Pg.begin]) ?_
      ⟨hstorable, hdistinct, Option.isNone_iff_eq_none.mp hnone, List.mem_cons_self, by simp⟩
    rw [LockTable.free_iff] at hfree ⊢
    intro y m hne hmem
    apply hfree y m hne
    change _ ∈ LockTable.heldBy (pg.locks ++ [[]]) y at hmem
    rwa [LockTable.heldBy_append_nil] at hmem
  . cases hstep

theorem Inv.checkMember (h : Inv pg) {x : Nat} {d : Uuid}
    (hstep : pg.step (.checkMember x d) = some pg') : Inv pg' := by
  unfold step at hstep
  dsimp only at hstep
  split at hstep
  next pair checked hx =>
    split at hstep
    next hguard =>
      cases hstep
      have hok := InsertOk.mono (h.txs x _ hx)
        (List.subset_cons_self (.device d, .keyShare) (pg.locks.heldBy x))
      refine h.lockAndSet (lt_of_getElem? hx) hguard.2.2
        ⟨hok.storable, hok.distinct, hok.free, hok.locked, ?_⟩
      intro d' hd'
      cases List.mem_cons.mp hd' with
      | inl heq =>
        rw [heq]
        exact ⟨List.mem_cons_self, hguard.2.1⟩
      | inr hd' => exact hok.members d' hd'
    . cases hstep
  . cases hstep

theorem Inv.updatePair (h : Inv pg) {x : Nat} (hstep : pg.step (.updatePair x) = some pg')
    : Inv pg' := by
  unfold step at hstep
  dsimp only at hstep
  split at hstep
  next s hx =>
    split at hstep
    . cases hstep
      exact h.rollback x
    next row hrow =>
      split at hstep
      next hfree =>
        split at hstep
        next hrevokes =>
          cases hstep
          exact h.lockAndSet (lt_of_getElem? hx) hfree
            ⟨List.mem_cons_self, (mem_of_pair? hrow).1, hrevokes⟩
        . cases hstep
          exact h.rollback x
      . cases hstep
  . cases hstep

theorem commit_eq_some {x : Nat} (h : pg.step (.commit x) = some pg')
    : ∃ tx rows, pg.txs[x]? = some tx ∧ committed pg.rows tx = some rows
      ∧ pg' = pg.finish x rows := by
  unfold step at h
  dsimp only at h
  split at h
  next tx hx =>
    have ⟨rows, hrows, heq⟩ := Option.map_eq_some_iff.mp h
    exact ⟨tx, rows, hx, hrows, heq.symm⟩
  . cases h

theorem Inv.step {l : Stmt ε τ} (h : Inv pg) (hstep : pg.step l = some pg') : Inv pg' := by
  cases l with
  | beginDelete d check =>
    cases hstep
    exact h.begin trivial
  | lockDevice x => exact h.lockDevice hstep
  | readPairs x => exact h.readPairs hstep
  | lockPair x p => exact h.lockPair hstep
  | runCheck x => exact h.runCheck hstep
  | deleteDevice x => exact h.deleteDevice hstep
  | fireCascade x => exact h.fireCascade hstep
  | deletePair x p => exact h.deletePair hstep
  | beginInsert pair => exact h.beginInsert hstep
  | checkMember x d => exact h.checkMember hstep
  | beginRevoke s =>
    cases hstep
    exact h.begin trivial
  | updatePair x => exact h.updatePair hstep
  | commit x =>
    have ⟨tx, rows, hx, hcommit, hpg'⟩ := commit_eq_some hstep
    have hok := h.txs x tx hx
    have ⟨db, hdb⟩ := h.db
    subst hpg'
    exact h.finish (hok.allowed hcommit) (hok.exists_db hdb hcommit)
  | abort x =>
    unfold Pg.step at hstep
    dsimp only at hstep
    split at hstep
    . cases hstep
      exact h.rollback x
    . cases hstep

theorem inv_run {db : Db} {ls : List (Stmt ε τ)} (hrun : Lts.run step (init db) ls = some pg)
    : Inv pg :=
  Lts.run_stable (fun _ _ _ h hstep => Inv.step h hstep) (inv_init db) hrun

/--
Only a commit changes the committed rows.
-/
theorem rows_step {l : Stmt ε τ} (hstep : pg.step l = some pg') (hl : ∀ x, l ≠ .commit x)
    : pg'.rows = pg.rows := by
  cases l with
  | commit x => exact absurd rfl (hl x)
  | _ =>
    unfold step at hstep
    dsimp only at hstep
    repeat' split at hstep
    all_goals
      cases hstep
      try rfl

end Pg

/--
What was passed to the check, and what it returned.
-/
def DeletePhase.result? : DeletePhase τ → Option (List (Uuid × Uuid) × τ)
  | checked held value | deleting held value _ _ _ | missed held value => some (held, value)
  | _ => none

/--
The commit of a device that deletes itself, if it changes anything, is the atomic statement.
-/
theorem Pg.Inv.commit_delete {pg pg' : Pg ε τ} (h : pg.Inv) {x : Nat} {d : Uuid}
    {check : List (Uuid × Uuid) → Except ε τ} {phase : DeletePhase τ}
    (hx : pg.txs[x]? = some (.delete d check phase)) (hstep : pg.step (.commit x) = some pg')
    : pg'.rows = pg.rows
      ∨ ∃ db held value, db.rows = pg.rows ∧ phase.result? = some (held, value)
        ∧ check held = .ok value ∧ held.Perm (Devices.heldPairs db d)
        ∧ pg'.rows = (db.deleteDevices (·.deviceId = d)).rows := by
  have ⟨tx, rows, hx', hcommit, hpg'⟩ := Pg.commit_eq_some hstep
  rw [hx] at hx'
  cases hx'
  subst hpg'
  have hok := h.txs x _ hx
  have ⟨db, hdb⟩ := h.db
  cases phase with
  | deleting held value columns todo gone =>
    cases columns with
    | cons column columns => cases hcommit
    | nil =>
      cases todo with
      | cons p todo => cases hcommit
      | nil =>
        have ⟨hperm, hrows⟩ := hok.deletes hdb
        rw [hrows] at hcommit
        exact .inr ⟨db, held, value, hdb, rfl, hok.2.1, hperm, (Option.some.inj hcommit).symm⟩
  | missed held value =>
    cases hcommit
    exact .inl rfl
  | _ => cases hcommit

theorem Db.mem_rows_deleteDevices {db : Db} {d : Uuid} {r : PairRow}
    : r ∈ (db.deleteDevices (·.deviceId = d)).rows.pairs ↔ r ∈ db.rows.pairs ∧ ¬ r.HasMember d := by
  change r ∈ (db.pairs.delete _).rows ↔ _
  rw [Table.mem_rows_delete]
  constructor
  . rintro ⟨hr, hkept⟩
    refine ⟨hr, ?_⟩
    rw [← Db.cascades_iff hr, hkept]
    simp
  . rintro ⟨hr, hnot⟩
    refine ⟨hr, ?_⟩
    rwa [← Db.cascades_iff hr, Bool.not_eq_true] at hnot

/--
A device that deletes itself takes no unrevoked pair with it unchecked. However its transaction
interleaves with those that insert and revoke pairs and with other deletions, a step of it changes
nothing, or it is the commit: then what `check` has seen are exactly the unrevoked pairs of the
device that go, each with its other member, and the rows are those that the atomic statement
leaves. With statements for its pairs every unrevoked one that goes has a statement that was
verified. If the check fails, the transaction ends and changes nothing.
-/
theorem deletion_checks_exactly_what_it_removes {db0 : Db}
    {ls : List (Stmt ApiError (List (Uuid × Option RevokeStatement)))}
    {l : Stmt ApiError (List (Uuid × Option RevokeStatement))}
    {pg pg' : Pg ApiError (List (Uuid × Option RevokeStatement))} {x : Nat} {d : Uuid}
    {check : List (Uuid × Uuid) → Except ApiError (List (Uuid × Option RevokeStatement))}
    {phase : DeletePhase (List (Uuid × Option RevokeStatement))}
    (hrun : Lts.run Pg.step (Pg.init db0) ls = some pg)
    (hx : pg.txs[x]? = some (.delete d check phase)) (hl : l.tx? = some x)
    (hstep : pg.step l = some pg')
    : (pg'.rows = pg.rows
        ∨ l = .commit x ∧ ∃ db held value, db.rows = pg.rows
          ∧ phase.result? = some (held, value) ∧ check held = .ok value
          ∧ held.Perm (Devices.heldPairs db d)
          ∧ (∀ p peer, (p, peer) ∈ held ↔ ∃ r ∈ pg.rows.pairs, r ∉ pg'.rows.pairs
            ∧ r.revokedAt = none ∧ r.HasMember d ∧ r.pairId = p ∧ r.peer d = peer)
          ∧ pg'.rows = (db.deleteDevices (·.deviceId = d)).rows)
      ∧ (∀ crypto key nowMs items,
        check = Routes.Devices.checkHeld crypto d key nowMs (some items)
        → ∀ r ∈ pg.rows.pairs, r ∉ pg'.rows.pairs → r.revokedAt = none
        → ∃ item ∈ items, item.pairId = r.pairId
          ∧ ∃ s, verifyStatement crypto r.pairId d key item.revokedAt item.sig nowMs = .ok s)
      ∧ (∀ held e, phase = .reading [] held → check held = .error e → l = .runCheck x
        → pg'.rows = pg.rows ∧ pg'.txs[x]? = some .ended) := by
  have hinv := Pg.inv_run hrun
  -- what a step of this transaction does to the rows
  have hrows : pg'.rows = pg.rows
      ∨ l = .commit x ∧ ∃ db held value, db.rows = pg.rows
        ∧ phase.result? = some (held, value) ∧ check held = .ok value
        ∧ held.Perm (Devices.heldPairs db d)
        ∧ pg'.rows = (db.deleteDevices (·.deviceId = d)).rows := by
    by_cases hcommit : ∃ y, l = .commit y
    . have ⟨y, heq⟩ := hcommit
      subst heq
      cases hl
      exact (hinv.commit_delete hx hstep).imp_right fun h => ⟨rfl, h⟩
    . exact .inl (Pg.rows_step hstep fun y hy => hcommit ⟨y, hy⟩)
  have hremoved : ∀ {db : Db} {held : List (Uuid × Uuid)}, db.rows = pg.rows
      → held.Perm (Devices.heldPairs db d)
      → pg'.rows = (db.deleteDevices (·.deviceId = d)).rows
      → ∀ p peer, (p, peer) ∈ held ↔ ∃ r ∈ pg.rows.pairs, r ∉ pg'.rows.pairs
        ∧ r.revokedAt = none ∧ r.HasMember d ∧ r.pairId = p ∧ r.peer d = peer := by
    intro db held hdb hperm hafter p peer
    rw [hperm.mem_iff, Devices.mem_heldPairs, hafter, ← hdb]
    simp only [Db.mem_rows_deleteDevices, Prod.mk.injEq]
    constructor
    . rintro ⟨r, hr, ⟨hm, hvalid⟩, hp, hpeer⟩
      exact ⟨r, hr, fun h => h.2 hm, hvalid, hm, hp.symm, hpeer.symm⟩
    . rintro ⟨r, hr, _, hvalid, hm, hp, hpeer⟩
      exact ⟨r, hr, ⟨hm, hvalid⟩, hp.symm, hpeer.symm⟩
  refine ⟨?_, ?_, ?_⟩
  . refine hrows.imp_right ?_
    rintro ⟨hcommit, db, held, value, hdb, hresult, hcheck, hperm, hafter⟩
    exact ⟨hcommit, db, held, value, hdb, hresult, hcheck, hperm, hremoved hdb hperm hafter, hafter⟩
  . intro crypto key nowMs items hcheckHeld r hr hgone hvalid
    cases hrows with
    | inl hsame => exact absurd (hsame ▸ hr) hgone
    | inr hrows =>
      have ⟨_, db, held, value, hdb, _, hcheck, hperm, hafter⟩ := hrows
      have hm : r.HasMember d := by
        rw [hafter, Db.mem_rows_deleteDevices, hdb, not_and, not_not] at hgone
        exact hgone hr
      have hheld : (r.pairId, r.peer d) ∈ held := by
        rw [hremoved hdb hperm hafter]
        exact ⟨r, hr, hgone, hvalid, hm, rfl, rfl⟩
      rw [hcheckHeld] at hcheck
      unfold Routes.Devices.checkHeld at hcheck
      have ⟨signed, hsigned, _⟩ := Except.bind_eq_ok.mp hcheck
      have ⟨s, _, _, item, hitem, hs⟩ :=
        (verifyRevocations_eq_ok hsigned).exists_of_mem hheld
      exact ⟨item, List.mem_of_find?_eq_some hitem, by simpa using List.find?_some hitem, s.1, hs⟩
  . intro held e hphase hcheck hrunCheck
    subst hphase hrunCheck
    unfold Pg.step at hstep
    dsimp only at hstep
    rw [hx] at hstep
    dsimp only at hstep
    rw [hcheck] at hstep
    cases hstep
    refine ⟨rfl, ?_⟩
    simp [Pg.finish, Pg.lt_of_getElem? hx]

namespace Sample

def revocation : Revocation where
  pairId := pairId
  revokedAt := some 0
  sig := some (sign 1 (revokeMessage pairId (device 1) 0))

/--
The first device deletes itself with a statement for its pair. While its row is locked, another
pair of the same devices is to be inserted, which has to wait.
-/
def deletion : List (Stmt ApiError (List (Uuid × Option RevokeStatement))) :=
  [.beginDelete (device 1)
      (Routes.Devices.checkHeld .sample (device 1) (key 1) 0 (some [revocation])),
    .lockDevice 0,
    .beginInsert {
      pairId := device 1
      deviceA := device 1
      deviceB := device 2
      attestation := []
      sigA := Bytes.replicate 64 0
      sigB := Bytes.replicate 64 0
      createdAtMs := 0
    },
    .checkMember 1 (device 2), .readPairs 0, .lockPair 0 pairId, .runCheck 0, .deleteDevice 0,
    .fireCascade 0, .deletePair 0 pairId, .fireCascade 0]

def deletes {ε τ : Type} (d : Uuid) : Transaction ε τ → Bool
  | .delete d' _ _ => decide (d' = d)
  | _ => false

end Sample

theorem deletion_checks_the_pair_it_removes
    : ∃ pg pg', Lts.run Pg.step (Pg.init Sample.pairedDb) Sample.deletion = some pg
      ∧ pg.step (.checkMember 1 (Sample.device 1)) = none
      ∧ pg.step (.commit 0) = some pg' ∧ pg.rows.pairs.length = 1 ∧ pg'.rows.pairs.length = 0
      ∧ ∃ held : List (Uuid × Uuid), ∀ p peer, (p, peer) ∈ held
        ↔ ∃ r ∈ pg.rows.pairs, r ∉ pg'.rows.pairs ∧ r.revokedAt = none
          ∧ r.HasMember (Sample.device 1) ∧ r.pairId = p ∧ r.peer (Sample.device 1) = peer := by
  have hrun : (Lts.run Pg.step (Pg.init Sample.pairedDb) Sample.deletion).any (fun pg =>
      (pg.step (.checkMember 1 (Sample.device 1))).isNone
        && pg.txs[0]?.any (Sample.deletes (Sample.device 1))
        && (pg.step (.commit 0)).any (fun pg' =>
          decide (pg.rows.pairs.length = 1) && decide (pg'.rows.pairs.length = 0))) = true := by
    decide +kernel
  simp only [Option.any_eq_true, Bool.and_eq_true, decide_eq_true_eq, Option.isNone_iff_eq_none]
    at hrun
  obtain ⟨pg, hpg, ⟨hwaits, tx, hx, htx⟩, pg', hpg', hone, hnone⟩ := hrun
  unfold Sample.deletes at htx
  split at htx
  next d check phase =>
    rw [decide_eq_true_eq] at htx
    subst htx
    refine ⟨pg, pg', hpg, hwaits, hpg', hone, hnone, ?_⟩
    cases (deletion_checks_exactly_what_it_removes hpg hx rfl hpg').1 with
    | inl hsame =>
      rw [hsame, hone] at hnone
      cases hnone
    | inr hcommit =>
      obtain ⟨_, _, held, _, _, _, _, _, hheld, _⟩ := hcommit
      exact ⟨held, hheld⟩
  . cases htx

end HandLiveRelay
