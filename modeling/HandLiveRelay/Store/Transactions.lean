import HandLiveRelay.Lib.Lts
import HandLiveRelay.Lib.RowLocks
import HandLiveRelay.Store.Devices
import HandLiveRelay.Store.Pairs

/-!
This module contains the transactions that write pairs, statement by statement, as PostgreSQL runs
them at the level read committed. Any number of them are open at once. A statement sees the rows
that are committed when it begins, a row lock waits for conflicting locks of other transactions,
and a row that was waited for is looked at again in its newest version. What a transaction has
written is seen by the others once it commits, and is gone if it is aborted.
-/

namespace HandLiveRelay

/--
The committed rows of the two tables.
-/
structure Rows where
  devices : List DeviceRow
  pairs : List PairRow

def Db.rows (db : Db) : Rows where
  devices := db.devices.rows
  pairs := db.pairs.rows

namespace Rows

def device? (rows : Rows) (d : Uuid) : Option DeviceRow :=
  rows.devices.find? (·.deviceId = d)

def pair? (rows : Rows) (p : Uuid) : Option PairRow :=
  rows.pairs.find? (·.pairId = p)

end Rows

/--
What a lock is on.
-/
inductive RowId where
  | device (d : Uuid)
  | pair (p : Uuid)
deriving DecidableEq

/--
The columns of a pair that refer to a device, each with a trigger of its own for the cascade.
-/
inductive MemberColumn where
  | a
  | b
deriving DecidableEq

def PairRow.member (p : PairRow) : MemberColumn → Uuid
  | .a => p.deviceA
  | .b => p.deviceB

/--
`(device_a = $1 OR device_b = $1) AND revoked_at IS NULL`
-/
def PairRow.HeldBy (p : PairRow) (d : Uuid) : Prop :=
  p.HasMember d ∧ p.revokedAt = none

instance (p : PairRow) (d : Uuid) : Decidable (p.HeldBy d) :=
  inferInstanceAs (Decidable (_ ∧ _))

/--
How far `delete_with_peers` has come.
-/
inductive DeletePhase (τ : Type) where
  | begun
  /--
  The device is locked, or was not found.
  -/
  | locked
  /--
  The second statement still has to lock the pairs `todo`, and will return `held`.
  -/
  | reading (todo : List Uuid) (held : List (Uuid × Uuid))
  | checked (held : List (Uuid × Uuid)) (value : τ)
  /--
  The device is deleted. The triggers of `columns` have not run yet, the one that runs still has to
  delete the pairs `todo`, and those of `gone` are deleted.
  -/
  | deleting (held : List (Uuid × Uuid)) (value : τ) (columns : List MemberColumn)
      (todo gone : List Uuid)
  /--
  There was no device to delete.
  -/
  | missed (held : List (Uuid × Uuid)) (value : τ)

/--
A transaction and how far it has come.
-/
inductive Transaction (ε τ : Type) where
  | delete (deviceId : Uuid) (check : List (Uuid × Uuid) → Except ε τ) (phase : DeletePhase τ)
  /--
  The row is written, and the references to the devices of `checked` were found to be good.
  -/
  | insert (pair : Pairs.NewPair) (checked : List Uuid)
  /--
  `row` is the row that the update has found.
  -/
  | revoke (s : RevokeStatement) (row : Option PairRow)
  | ended

/--
The state of the database: the committed rows, the transactions and the locks they hold.
-/
structure Pg (ε τ : Type) where
  rows : Rows
  txs : List (Transaction ε τ)
  locks : LockTable RowId

/--
The statements of the transactions, and what they wait for.
-/
inductive Stmt (ε τ : Type) where
  | beginDelete (deviceId : Uuid) (check : List (Uuid × Uuid) → Except ε τ)
  /--
  `SELECT 1 FROM devices WHERE device_id = $1 FOR UPDATE`
  -/
  | lockDevice (x : Nat)
  /--
  `SELECT pair_id, ... FROM pairs WHERE ... FOR UPDATE` begins
  -/
  | readPairs (x : Nat)
  /--
  and locks one of the rows it has found.
  -/
  | lockPair (x : Nat) (p : Uuid)
  | runCheck (x : Nat)
  /--
  `DELETE FROM devices WHERE device_id = $1`
  -/
  | deleteDevice (x : Nat)
  /--
  `DELETE FROM pairs WHERE device_a = $1` or `device_b = $1`, a trigger of the cascade, begins
  -/
  | fireCascade (x : Nat)
  /--
  and deletes one of the rows it has found.
  -/
  | deletePair (x : Nat) (p : Uuid)
  /--
  `INSERT INTO pairs ... ON CONFLICT (pair_id) DO NOTHING`, where the id is free
  -/
  | beginInsert (pair : Pairs.NewPair)
  /--
  `SELECT 1 FROM devices WHERE device_id = $1 FOR KEY SHARE`, the check of a reference
  -/
  | checkMember (x : Nat) (d : Uuid)
  | beginRevoke (s : RevokeStatement)
  /--
  `UPDATE pairs SET revoked_at = ... WHERE pair_id = $1 AND ...`
  -/
  | updatePair (x : Nat)
  | commit (x : Nat)
  /--
  The transaction is rolled back, for whatever reason: a lock timeout, a deadlock, a constraint, a
  connection that is lost.
  -/
  | abort (x : Nat)

namespace Stmt

variable {ε τ : Type}

/--
The transaction that a statement belongs to.
-/
def tx? : Stmt ε τ → Option Nat
  | lockDevice x | readPairs x | lockPair x _ | runCheck x | deleteDevice x | fireCascade x
  | deletePair x _ | checkMember x _ | updatePair x | commit x | abort x => some x
  | beginDelete _ _ | beginInsert _ | beginRevoke _ => none

end Stmt

namespace Pg

variable {ε τ : Type}

def init (db : Db) : Pg ε τ where
  rows := db.rows
  txs := []
  locks := []

def begin (pg : Pg ε τ) (tx : Transaction ε τ) : Pg ε τ :=
  { pg with txs := pg.txs ++ [tx], locks := pg.locks ++ [[]] }

def setTx (pg : Pg ε τ) (x : Nat) (tx : Transaction ε τ) : Pg ε τ :=
  { pg with txs := pg.txs.set x tx }

def lock (pg : Pg ε τ) (x : Nat) (r : RowId) (m : LockMode) : Pg ε τ :=
  { pg with locks := pg.locks.acquire x r m }

/--
The end of a transaction, with the rows that are committed then.
-/
def finish (pg : Pg ε τ) (x : Nat) (rows : Rows) : Pg ε τ where
  rows := rows
  txs := pg.txs.set x .ended
  locks := pg.locks.release x

/--
The row that replaces the one an update has found.
-/
def withRow (rows : Rows) (row : PairRow) : Rows :=
  { rows with pairs := rows.pairs.map fun r => if r.pairId = row.pairId then row else r }

/--
What a transaction commits, `none` if it is not at its end.
-/
def committed (rows : Rows) : Transaction ε τ → Option Rows
  | .delete d _ (.deleting _ _ [] [] gone) =>
    some {
      devices := rows.devices.filter fun r => !decide (r.deviceId = d)
      pairs := rows.pairs.filter fun r => !decide (r.pairId ∈ gone)
    }
  | .delete _ _ (.missed _ _) => some rows
  | .insert pair checked =>
    if pair.deviceA ∈ checked ∧ pair.deviceB ∈ checked then
      some { rows with pairs := rows.pairs ++ [pair.row] }
    else
      none
  | .revoke s (some row) => some (withRow rows (Pairs.revokeRow s row))
  | _ => none

def step (pg : Pg ε τ) : Stmt ε τ → Option (Pg ε τ)
  | .beginDelete d check => some (pg.begin (.delete d check .begun))
  | .lockDevice x =>
    match pg.txs[x]? with
    | some (.delete d check .begun) =>
      let pg' := pg.setTx x (.delete d check .locked)
      if (pg.rows.device? d).isNone then
        some pg'
      else if pg.locks.free x (.device d) .update then
        some (pg'.lock x (.device d) .update)
      else
        none
    | _ => none
  | .readPairs x =>
    match pg.txs[x]? with
    | some (.delete d check .locked) =>
      let todo := (pg.rows.pairs.filter (·.HeldBy d)).map (·.pairId)
      some (pg.setTx x (.delete d check (.reading todo [])))
    | _ => none
  | .lockPair x p =>
    match pg.txs[x]? with
    | some (.delete d check (.reading todo held)) =>
      if p ∈ todo then
        match pg.rows.pair? p with
        -- the row was deleted since the statement began
        | none => some (pg.setTx x (.delete d check (.reading (todo.erase p) held)))
        | some row =>
          if pg.locks.free x (.pair p) .update then
            -- the condition is looked at again
            let held := if row.HeldBy d then held ++ [(p, row.peer d)] else held
            let pg' := pg.setTx x (.delete d check (.reading (todo.erase p) held))
            some (pg'.lock x (.pair p) .update)
          else
            none
      else
        none
    | _ => none
  | .runCheck x =>
    match pg.txs[x]? with
    | some (.delete d check (.reading [] held)) =>
      match check held with
      | .ok value => some (pg.setTx x (.delete d check (.checked held value)))
      | .error _ => some (pg.finish x pg.rows)
    | _ => none
  | .deleteDevice x =>
    match pg.txs[x]? with
    | some (.delete d check (.checked held value)) =>
      if (pg.rows.device? d).isNone then
        some (pg.setTx x (.delete d check (.missed held value)))
      else if pg.locks.free x (.device d) .update then
        let pg' := pg.setTx x (.delete d check (.deleting held value [.a, .b] [] []))
        some (pg'.lock x (.device d) .update)
      else
        none
    | _ => none
  | .fireCascade x =>
    match pg.txs[x]? with
    | some (.delete d check (.deleting held value (column :: columns) [] gone)) =>
      let todo := (pg.rows.pairs.filter fun r => r.member column = d).map (·.pairId)
      some (pg.setTx x (.delete d check (.deleting held value columns todo gone)))
    | _ => none
  | .deletePair x p =>
    match pg.txs[x]? with
    | some (.delete d check (.deleting held value columns todo gone)) =>
      if p ∈ todo then
        match pg.rows.pair? p with
        | none =>
          some (pg.setTx x (.delete d check (.deleting held value columns (todo.erase p) gone)))
        | some row =>
          if pg.locks.free x (.pair p) .update then
            -- the members of a pair never change, so the two columns need not be told apart
            let gone := if row.HasMember d then p :: gone else gone
            let pg' :=
              pg.setTx x (.delete d check (.deleting held value columns (todo.erase p) gone))
            some (pg'.lock x (.pair p) .update)
          else
            none
      else
        none
    | _ => none
  | .beginInsert pair =>
    -- an insert waits for others of the same id, and for a delete of the row with this id
    if Pairs.Storable pair.createdAtMs ∧ pair.deviceA ≠ pair.deviceB
        ∧ (pg.rows.pair? pair.pairId).isNone
        ∧ pg.locks.free pg.txs.length (.pair pair.pairId) .update then
      some ((pg.begin (.insert pair [])).lock pg.txs.length (.pair pair.pairId) .update)
    else
      none
  | .checkMember x d =>
    match pg.txs[x]? with
    | some (.insert pair checked) =>
      if (pair.deviceA = d ∨ pair.deviceB = d) ∧ (pg.rows.device? d).isSome
          ∧ pg.locks.free x (.device d) .keyShare then
        some ((pg.setTx x (.insert pair (d :: checked))).lock x (.device d) .keyShare)
      else
        none
    | _ => none
  | .beginRevoke s => some (pg.begin (.revoke s none))
  | .updatePair x =>
    match pg.txs[x]? with
    | some (.revoke s none) =>
      match pg.rows.pair? s.pairId with
      | none => some (pg.finish x pg.rows)
      | some row =>
        if pg.locks.free x (.pair s.pairId) .noKeyUpdate then
          if Pairs.Revokes s row then
            some ((pg.setTx x (.revoke s (some row))).lock x (.pair s.pairId) .noKeyUpdate)
          else
            some (pg.finish x pg.rows)
        else
          none
    | _ => none
  | .commit x =>
    match pg.txs[x]? with
    | some tx => (committed pg.rows tx).map (pg.finish x)
    | none => none
  | .abort x => if x < pg.txs.length then some (pg.finish x pg.rows) else none

end Pg
end HandLiveRelay
