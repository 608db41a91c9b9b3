import HandLiveRelay.Store.Schema

/-!
This module contains the statements on the `devices` table. A statement that the database refuses
is `none`.
-/

namespace HandLiveRelay.Devices

structure DeviceKey where
  ikSigPub : Bytes 32
  revoked : Bool

structure NewDevice where
  deviceId : Uuid
  ikSigPub : Bytes 32
  platform : Platform
  appVersion : String

inductive UpsertOutcome where
  | created (createdAtMs : Int64)
  | updated (createdAtMs : Int64)
  /--
  The row exists but is revoked or holds another key: nothing changed.
  -/
  | rejected

/--
`SET app_version = EXCLUDED.app_version, last_seen_at = now() WHERE device_id = ...`
-/
def refreshRow (device : NewDevice) (now : Int64) (row : DeviceRow) : DeviceRow :=
  if row.deviceId = device.deviceId then
    { row with appVersion := device.appVersion, lastSeenAt := now }
  else
    row

/--
Register or refresh a device. The key of a device never changes.
-/
def upsert (db : Db) (device : NewDevice) (now : Int64) : Option (Db × UpsertOutcome) :=
  match hfind : db.devices.find? device.deviceId with
  | some row =>
    if row.revokedAt.isNone ∧ row.ikSigPub = device.ikSigPub then
      let db := db.updateDevices (refreshRow device now)
        (by intro r; unfold refreshRow; split <;> rfl)
        (by intro r; unfold refreshRow; split <;> rfl)
      some (db, .updated row.createdAt)
    else
      some (db, .rejected)
  | none =>
    if hkey : device.ikSigPub ∈ db.devices.rows.map DeviceRow.ikSigPub then
      none
    else
      let row : DeviceRow := {
        deviceId := device.deviceId
        ikSigPub := device.ikSigPub
        platform := device.platform
        appVersion := device.appVersion
        pushProvider := none
        pushToken := none
        pushTopic := none
        createdAt := now
        lastSeenAt := now
        revokedAt := none
      }
      some (db.insertDevice row hfind hkey, .created now)

def findKey (db : Db) (deviceId : Uuid) : Option DeviceKey :=
  (db.devices.find? deviceId).map fun row =>
    { ikSigPub := row.ikSigPub, revoked := row.revokedAt.isSome }

def touchLastSeen (db : Db) (deviceId : Uuid) (now : Int64) : Db :=
  db.updateDevices (fun row => if row.deviceId = deviceId then { row with lastSeenAt := now } else row)
    (by intro r; split <;> rfl)
    (by intro r; split <;> rfl)

/--
Platform and revocation state of a registered device.
-/
def findPlatform (db : Db) (deviceId : Uuid) : Option (Platform × Bool) :=
  (db.devices.find? deviceId).map fun row => (row.platform, row.revokedAt.isSome)

def setPushTokenRow (deviceId : Uuid) (provider : PushProvider) (token : String)
    (topic : Option String) (now : Int64) (row : DeviceRow) : DeviceRow :=
  if row.deviceId = deviceId ∧ row.revokedAt.isNone then
    { row with
      pushProvider := some provider
      pushToken := some token
      pushTopic := topic
      lastSeenAt := now }
  else
    row

/--
Store the push token of a device that is not locked out. Returns whether there is one.
-/
def setPushToken (db : Db) (deviceId : Uuid) (provider : PushProvider) (token : String)
    (topic : Option String) (now : Int64) : Db × Bool :=
  let db' := db.updateDevices (setPushTokenRow deviceId provider token topic now)
    (by intro r; unfold setPushTokenRow; split <;> rfl)
    (by intro r; unfold setPushTokenRow; split <;> rfl)
  (db', (db.devices.find? deviceId).any (·.revokedAt.isNone))

def clearPushTokenRow (deviceId : Uuid) (row : DeviceRow) : DeviceRow :=
  if row.deviceId = deviceId then
    { row with pushToken := none, pushProvider := none }
  else
    row

/--
Drop the push token of a device.
-/
def clearPushToken (db : Db) (deviceId : Uuid) : Db :=
  db.updateDevices (clearPushTokenRow deviceId)
    (by intro r; unfold clearPushTokenRow; split <;> rfl)
    (by intro r; unfold clearPushTokenRow; split <;> rfl)

/--
The unrevoked pairs of a device with the other member of each.
-/
def heldPairs (db : Db) (deviceId : Uuid) : List (Uuid × Uuid) :=
  (db.pairs.rows.filter fun p => p.HasMember deviceId ∧ p.revokedAt.isNone).map
    fun p => (p.pairId, p.peer deviceId)

theorem mem_heldPairs {db : Db} {d p peer : Uuid}
    : (p, peer) ∈ heldPairs db d
      ↔ ∃ r ∈ db.pairs.rows, (r.HasMember d ∧ r.revokedAt = none)
        ∧ (p, peer) = (r.pairId, r.peer d) := by
  unfold heldPairs
  simp only [List.mem_map, List.mem_filter, decide_eq_true_eq, Option.isNone_iff_eq_none]
  constructor
  . rintro ⟨r, ⟨hr, hheld⟩, heq⟩
    exact ⟨r, hr, hheld, heq.symm⟩
  . rintro ⟨r, hr, hheld, heq⟩
    exact ⟨r, ⟨hr, hheld⟩, heq.symm⟩

/--
Delete the device in one transaction. Its pairs go by `ON DELETE CASCADE`. `check` sees the
unrevoked ones; when it fails nothing is deleted.
-/
def deleteWithPeers {ε τ : Type} (db : Db) (deviceId : Uuid)
    (check : List (Uuid × Uuid) → Except ε τ) : Db × Except ε τ :=
  match check (heldPairs db deviceId) with
  | .ok checked => (db.deleteDevices (·.deviceId = deviceId), .ok checked)
  | .error e => (db, .error e)

/--
180 days
-/
def inactiveMs : Int := 180 * 24 * 3600 * 1000

/--
The daily cleanup: delete the devices not seen for 180 days.
-/
def deleteExpired (db : Db) (now : Int64) : Db :=
  db.deleteDevices (fun row => row.lastSeenAt.toInt < now.toInt - inactiveMs)

structure PushTarget where
  platform : Platform
  provider : Option PushProvider
  token : Option String
  topic : Option String

/--
The push registration of `dest`, if `source` and `dest` are the members of the unrevoked pair and
`dest` is not locked out.
-/
def pushTarget (db : Db) (pairId source dest : Uuid) : Option PushTarget := do
  let p ← db.pairs.find? pairId
  let d ← db.devices.find? dest
  guard (p.revokedAt.isNone
    ∧ (p.deviceA = source ∧ p.deviceB = dest ∨ p.deviceB = source ∧ p.deviceA = dest)
    ∧ d.revokedAt.isNone)
  return { platform := d.platform, provider := d.pushProvider, token := d.pushToken
           topic := d.pushTopic }

end HandLiveRelay.Devices
