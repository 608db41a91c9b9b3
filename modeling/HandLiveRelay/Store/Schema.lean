import HandLiveRelay.Basic
import HandLiveRelay.Lib.Table

/-!
This module contains the two tables of the relay, `devices` and `pairs`. The constraints of the
schema (unique keys, the references from a pair to its two devices, two distinct members) are
fields of `Db`, so every statement below carries the reason why it keeps them.
-/

namespace HandLiveRelay

inductive Platform where
  | android
  | macos
  | ios
  | ipados
deriving Repr, DecidableEq

namespace Platform

def asStr : Platform → String
  | android => "android"
  | macos => "macos"
  | ios => "ios"
  | ipados => "ipados"

def ofStr? (s : String) : Option Platform :=
  [android, macos, ios, ipados].find? (·.asStr = s)

end Platform

inductive PushProvider where
  | fcm
  | apns
  | apnsSandbox
deriving Repr, DecidableEq

structure DeviceRow where
  deviceId : Uuid
  ikSigPub : Bytes 32
  platform : Platform
  appVersion : String
  pushProvider : Option PushProvider
  pushToken : Option String
  pushTopic : Option String
  createdAt : Int64
  lastSeenAt : Int64
  revokedAt : Option Int64

structure PairRow where
  pairId : Uuid
  deviceA : Uuid
  deviceB : Uuid
  attestation : List UInt8
  sigA : Bytes 64
  sigB : Bytes 64
  createdAt : Int64
  revokedAt : Option Int64
  revokedBy : Option Uuid
  revokeSig : Option (Bytes 64)

namespace PairRow

def HasMember (p : PairRow) (d : Uuid) : Prop :=
  p.deviceA = d ∨ p.deviceB = d

instance (p : PairRow) (d : Uuid) : Decidable (p.HasMember d) :=
  inferInstanceAs (Decidable (_ ∨ _))

/--
`CASE WHEN device_a = $1 THEN device_b ELSE device_a END`
-/
def peer (p : PairRow) (d : Uuid) : Uuid :=
  if p.deviceA = d then p.deviceB else p.deviceA

theorem hasMember_peer (p : PairRow) (d : Uuid) : p.HasMember (p.peer d) := by
  unfold peer HasMember
  split
  . exact .inr rfl
  . exact .inl rfl

theorem peer_of_hasMember {p : PairRow} {d x : Uuid} (hd : p.HasMember d) (hx : p.HasMember x)
    (hne : x ≠ d) : p.peer d = x := by
  unfold peer
  split
  . next h =>
    cases hx with
    | inl hx => exact absurd (hx.symm.trans h) hne
    | inr hx => exact hx
  . next h =>
    cases hd with
    | inl hd => exact absurd hd h
    | inr hd =>
      cases hx with
      | inl hx => exact hx
      | inr hx => exact absurd (hx.symm.trans hd) hne

end PairRow

/--
The state of the database.
-/
structure Db where
  devices : Table DeviceRow DeviceRow.deviceId
  pairs : Table PairRow PairRow.pairId
  keyUnique : (devices.rows.map DeviceRow.ikSigPub).Nodup
  membersExist : ∀ p ∈ pairs.rows, ∀ d, p.HasMember d → (devices.find? d).isSome
  membersDistinct : ∀ p ∈ pairs.rows, p.deviceA ≠ p.deviceB

namespace Db

def empty : Db where
  devices := .empty
  pairs := .empty
  keyUnique := List.nodup_nil
  membersExist := by simp [Table.empty]
  membersDistinct := by simp [Table.empty]

def insertDevice (db : Db) (row : DeviceRow) (hid : db.devices.find? row.deviceId = none)
    (hkey : row.ikSigPub ∉ db.devices.rows.map DeviceRow.ikSigPub) : Db where
  devices := db.devices.insert row hid
  pairs := db.pairs
  keyUnique := by
    simp only [Table.insert, List.map_append, List.map_cons, List.map_nil]
    rw [List.nodup_append]
    refine ⟨db.keyUnique, List.nodup_singleton _, ?_⟩
    intro k hk k' hk' heq
    rw [List.mem_singleton] at hk'
    exact hkey (hk' ▸ heq ▸ hk)
  membersExist := by
    intro p hp d hd
    by_cases hrow : row.deviceId = d
    . subst hrow
      simp [Table.find?_insert_self]
    . rw [Table.find?_insert_ne _ _ _ hrow]
      exact db.membersExist p hp d hd
  membersDistinct := db.membersDistinct

def updateDevices (db : Db) (f : DeviceRow → DeviceRow) (hid : ∀ r, (f r).deviceId = r.deviceId)
    (hkey : ∀ r, (f r).ikSigPub = r.ikSigPub) : Db where
  devices := db.devices.update f hid
  pairs := db.pairs
  keyUnique := by
    have hkeys : DeviceRow.ikSigPub ∘ f = DeviceRow.ikSigPub := funext hkey
    simp only [Table.update, List.map_map, hkeys]
    exact db.keyUnique
  membersExist := by
    intro p hp d hd
    rw [Table.find?_update, Option.isSome_map]
    exact db.membersExist p hp d hd
  membersDistinct := db.membersDistinct

theorem find?_updateDevices {db : Db} {f : DeviceRow → DeviceRow} {hid} {hkey} (d : Uuid)
    : (db.updateDevices f hid hkey).devices.find? d = (db.devices.find? d).map f := by
  unfold updateDevices
  rw [Table.find?_update]

/--
Delete the devices that match, and by `ON DELETE CASCADE` the pairs that refer to one of them.
-/
def deleteDevices (db : Db) (p : DeviceRow → Bool) : Db where
  devices := db.devices.delete p
  pairs := db.pairs.delete fun r =>
    (db.devices.find? r.deviceA).any p || (db.devices.find? r.deviceB).any p
  keyUnique := db.keyUnique.sublist (List.filter_sublist.map _)
  membersExist := by
    intro r hr d hd
    rw [Table.mem_rows_delete, Bool.or_eq_false_iff] at hr
    have ⟨hr, ha, hb⟩ := hr
    have hexists := db.membersExist r hr d hd
    have hkept : (db.devices.find? d).any p = false := by
      cases hd with
      | inl hd => exact hd ▸ ha
      | inr hd => exact hd ▸ hb
    rw [Table.find?_delete]
    cases hfind : db.devices.find? d with
    | none => simp [hfind] at hexists
    | some row =>
      rw [hfind] at hkept
      simp_all
  membersDistinct := by
    intro r hr
    exact db.membersDistinct r (Table.mem_rows_delete.mp hr).1

def insertPair (db : Db) (row : PairRow) (hid : db.pairs.find? row.pairId = none)
    (hmem : ∀ d, row.HasMember d → (db.devices.find? d).isSome)
    (hne : row.deviceA ≠ row.deviceB) : Db where
  devices := db.devices
  pairs := db.pairs.insert row hid
  keyUnique := db.keyUnique
  membersExist := by
    intro p hp
    rw [Table.mem_rows_insert] at hp
    cases hp with
    | inl hp => exact db.membersExist p hp
    | inr hp => exact hp ▸ hmem
  membersDistinct := by
    intro p hp
    rw [Table.mem_rows_insert] at hp
    cases hp with
    | inl hp => exact db.membersDistinct p hp
    | inr hp => exact hp ▸ hne

def updatePairs (db : Db) (f : PairRow → PairRow) (hid : ∀ r, (f r).pairId = r.pairId)
    (ha : ∀ r, (f r).deviceA = r.deviceA) (hb : ∀ r, (f r).deviceB = r.deviceB) : Db where
  devices := db.devices
  pairs := db.pairs.update f hid
  keyUnique := db.keyUnique
  membersExist := by
    intro p hp d hd
    have ⟨r, hr, hf⟩ := Table.mem_rows_update.mp hp
    apply db.membersExist r hr d
    subst hf
    unfold PairRow.HasMember at hd ⊢
    rw [ha, hb] at hd
    exact hd
  membersDistinct := by
    intro p hp
    have ⟨r, hr, hf⟩ := Table.mem_rows_update.mp hp
    subst hf
    rw [ha, hb]
    exact db.membersDistinct r hr

end Db
end HandLiveRelay
