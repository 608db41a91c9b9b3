import HandLiveRelay.Revocation
import HandLiveRelay.Store.Schema
import HandLiveRelay.Store.Timestamp

/-!
This module contains the statements on the `pairs` table. A statement that the database refuses is
`none`.
-/

namespace HandLiveRelay.Pairs

structure MemberDevice where
  ikSigPub : Bytes 32
  platform : Platform

/--
Key and platform of a registered device that is not revoked.
-/
def memberDevice (db : Db) (d : Uuid) : Option MemberDevice := do
  let row ← db.devices.find? d
  guard row.revokedAt.isNone
  return { ikSigPub := row.ikSigPub, platform := row.platform }

structure NewPair where
  pairId : Uuid
  deviceA : Uuid
  deviceB : Uuid
  attestation : List UInt8
  sigA : Bytes 64
  sigB : Bytes 64
  createdAtMs : Int64

/--
The row of a pair that was just registered. Its time is the one that the column is read as.
-/
def NewPair.row (pair : NewPair) : PairRow where
  pairId := pair.pairId
  deviceA := pair.deviceA
  deviceB := pair.deviceB
  attestation := pair.attestation
  sigA := pair.sigA
  sigB := pair.sigB
  createdAt := Timestamp.readBack pair.createdAtMs
  revokedAt := none
  revokedBy := none
  revokeSig := none

structure StoredPair where
  deviceA : Uuid
  deviceB : Uuid
  attestation : List UInt8
  createdAtMs : Int64

inductive InsertOutcome where
  | created
  | existing (stored : StoredPair)

/--
The column can hold the time.
-/
def Storable (ms : Int64) : Prop :=
  Timestamp.InRange ms

instance (ms : Int64) : Decidable (Storable ms) :=
  inferInstanceAs (Decidable (Timestamp.InRange ms))

/--
Insert a pair if its id is free, otherwise return the stored row.
-/
def insert (db : Db) (pair : NewPair) : Option (Db × InsertOutcome) :=
  let row := pair.row
  if hne : Storable pair.createdAtMs ∧ row.deviceA ≠ row.deviceB then
    match hfind : db.pairs.find? row.pairId with
    | some p =>
      some (db, .existing {
        deviceA := p.deviceA
        deviceB := p.deviceB
        attestation := p.attestation
        createdAtMs := p.createdAt
      })
    | none =>
      if hmem : (db.devices.find? row.deviceA).isSome ∧ (db.devices.find? row.deviceB).isSome then
        let db := db.insertPair row hfind
          (by
            intro d hd
            cases hd with
            | inl hd => exact hd ▸ hmem.1
            | inr hd => exact hd ▸ hmem.2)
          hne.2
        some (db, .created)
      else
        none
  else
    none

/--
`WHERE pair_id = $1 AND (device_a = $2 OR device_b = $2) AND revoked_at IS NULL`
-/
def Revokes (s : RevokeStatement) (p : PairRow) : Prop :=
  p.pairId = s.pairId ∧ p.HasMember s.signer ∧ p.revokedAt = none

instance (s : RevokeStatement) (p : PairRow) : Decidable (Revokes s p) :=
  inferInstanceAs (Decidable (_ ∧ _ ∧ _))

/--
The row with a statement that was verified. Its time is within ten minutes of the clock, where the
column holds it exactly (`Timestamp.readBack_eq_self`).
-/
def revokeRow (s : RevokeStatement) (p : PairRow) : PairRow :=
  if Revokes s p then
    { p with revokedAt := some s.revokedAt, revokedBy := some s.signer, revokeSig := some s.sig }
  else
    p

@[simp]
theorem pairId_revokeRow (s : RevokeStatement) (p : PairRow)
    : (revokeRow s p).pairId = p.pairId := by
  unfold revokeRow
  split <;> rfl

@[simp]
theorem deviceA_revokeRow (s : RevokeStatement) (p : PairRow)
    : (revokeRow s p).deviceA = p.deviceA := by
  unfold revokeRow
  split <;> rfl

@[simp]
theorem deviceB_revokeRow (s : RevokeStatement) (p : PairRow)
    : (revokeRow s p).deviceB = p.deviceB := by
  unfold revokeRow
  split <;> rfl

/--
Store a verified statement if its signer is a member of a pair that is still valid. Returns the
peer to notify, or `none` when nothing changed.
-/
def revoke (db : Db) (s : RevokeStatement) : Db × Option Uuid :=
  let peer := (db.pairs.rows.find? (Revokes s ·)).map (·.peer s.signer)
  (db.updatePairs (revokeRow s) (pairId_revokeRow s) (deviceA_revokeRow s) (deviceB_revokeRow s),
    peer)

theorem mem_rows_revoke {db : Db} {s : RevokeStatement} {p : PairRow}
    : p ∈ (revoke db s).1.pairs.rows ↔ ∃ q ∈ db.pairs.rows, revokeRow s q = p := by
  unfold revoke Db.updatePairs
  dsimp only
  rw [Table.mem_rows_update]

/--
The members of a pair, whatever its state.
-/
def members (db : Db) (pairId : Uuid) : Option (Uuid × Uuid) :=
  (db.pairs.find? pairId).map fun p => (p.deviceA, p.deviceB)

/--
A valid pair of `deviceId` whose peer is registered and not revoked.
-/
def Active (db : Db) (deviceId : Uuid) (p : PairRow) : Prop :=
  p.HasMember deviceId ∧ p.revokedAt = none
    ∧ (db.devices.find? (p.peer deviceId)).any (·.revokedAt.isNone) = true

instance (db : Db) (d : Uuid) (p : PairRow) : Decidable (Active db d p) :=
  inferInstanceAs (Decidable (_ ∧ _ ∧ _))

/--
The active pairs of a device with the peer of each.
-/
def activePeers (db : Db) (deviceId : Uuid) : List (Uuid × Uuid) :=
  (db.pairs.rows.filter (Active db deviceId ·)).map fun p => (p.pairId, p.peer deviceId)

/--
30 days
-/
def recentMs : Int := 30 * 24 * 3600 * 1000

/--
The statement a row holds, if it is signed and was made within the last 30 days.
-/
def recentStatement (now : Int64) (p : PairRow) : Option RevokeStatement := do
  let revokedAt ← p.revokedAt
  let signer ← p.revokedBy
  let sig ← p.revokeSig
  guard (revokedAt.toInt > now.toInt - recentMs)
  return { pairId := p.pairId, signer, revokedAt, sig }

/--
The signed statements of the pairs of a device that were revoked within the last 30 days.
-/
def recentlyRevoked (db : Db) (deviceId : Uuid) (now : Int64) : List RevokeStatement :=
  (db.pairs.rows.filter (·.HasMember deviceId)).filterMap (recentStatement now)

end HandLiveRelay.Pairs
