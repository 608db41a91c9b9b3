import HandLiveRelay.Routes.Permanence
import HandLiveRelay.Routes.PushStages

/-!
This module contains what the requests do to the push registration of a device: what a statement of
the two push endpoints can change, and that any other request keeps it or leaves the device without
one.
-/

namespace HandLiveRelay

/--
The push registration in a row.
-/
def DeviceRow.registration (row : DeviceRow) : Devices.PushTarget where
  platform := row.platform
  provider := row.pushProvider
  token := row.pushToken
  topic := row.pushTopic

namespace Db

def registration (db : Db) (d : Uuid) : Option Devices.PushTarget :=
  (db.devices.find? d).map DeviceRow.registration

theorem registration_of_map {db db' : Db} {d : Uuid} {f : DeviceRow → DeviceRow}
    (hfind : db'.devices.find? d = (db.devices.find? d).map f)
    (hf : ∀ r : DeviceRow, (f r).registration = r.registration)
    : db'.registration d = db.registration d := by
  unfold registration
  rw [hfind, Option.map_map]
  congr 1
  funext r
  exact hf r

theorem registration_deleteDevices (db : Db) (d : Uuid) (p : DeviceRow → Bool)
    : (db.deleteDevices p).registration d = db.registration d
      ∨ (db.deleteDevices p).registration d = none := by
  unfold registration deleteDevices
  rw [Table.find?_delete]
  cases db.devices.find? d with
  | none => exact .inl rfl
  | some row =>
    rw [Option.filter_some]
    split
    . exact .inl rfl
    . exact .inr rfl

theorem registration_insertDevice (db : Db) (d : Uuid) {row : DeviceRow} {hid} {hkey}
    : (db.insertDevice row hid hkey).registration d = db.registration d
      ∨ (db.registration d = none
        ∧ (db.insertDevice row hid hkey).registration d = some row.registration) := by
  unfold registration insertDevice
  by_cases hd : row.deviceId = d
  . subst hd
    rw [hid, Table.find?_insert_self]
    exact .inr ⟨rfl, rfl⟩
  . rw [Table.find?_insert_ne _ _ _ hd]
    exact .inl rfl

end Db

theorem Devices.registration_of_pushTarget {db : Db} {pairId source dest : Uuid}
    {target : PushTarget} (h : pushTarget db pairId source dest = some target)
    : db.registration dest = some target := by
  simp only [pushTarget, Option.bind_eq_bind, Option.bind_eq_some_iff] at h
  have ⟨p, _, row, hrow, _, _, heq⟩ := h
  cases heq
  unfold Db.registration
  rw [hrow]
  rfl

/--
What a request to the other endpoints does to the push registration of a device.
-/
inductive Request.RegistrationChange (before : Option Devices.PushTarget)
    : Option Devices.PushTarget → Prop where
  | same : RegistrationChange before before
  | gone : RegistrationChange before none
  | new (platform : Platform) (hnone : before = none)
      : RegistrationChange before
          (some { platform, provider := none, token := none, topic := none })

theorem Request.registration_handle (crypto : Crypto) (db : Db) (nowMs : Int64) (req : Request)
    (d : Uuid)
    : RegistrationChange (db.registration d) ((req.handle crypto db nowMs).db.registration d) := by
  have heffect := handle_effect crypto db nowMs req
  generalize req.handle crypto db nowMs = out at heffect
  have hdelete : ∀ p, RegistrationChange (db.registration d)
      ((db.deleteDevices p).registration d) := by
    intro p
    rcases Db.registration_deleteDevices db d p with hsame | hgone
    . exact hsame ▸ .same
    . exact hgone ▸ .gone
  cases heffect with
  | refused e => exact .same
  | unchanged r => exact .same
  | upserted r hid hverify hupsert =>
    unfold Devices.upsert at hupsert
    split at hupsert
    . split at hupsert
      . cases hupsert
        unfold Outcome.accepted
        dsimp only
        rw [Db.registration_of_map (Db.find?_updateDevices d)]
        . exact .same
        . intro r
          unfold Devices.refreshRow
          split <;> rfl
      . cases hupsert
        exact .same
    . split at hupsert
      . cases hupsert
      . next hfind hkey =>
        cases hupsert
        unfold Outcome.accepted
        dsimp only
        rcases Db.registration_insertDevice db d with hsame | ⟨hnone, hnew⟩
        . exact hsame ▸ .same
        . exact hnew ▸ .new _ hnone
  | touched deviceId nowMs =>
    unfold Outcome.accepted Devices.touchLastSeen
    dsimp only
    rw [Db.registration_of_map (Db.find?_updateDevices d)]
    . exact .same
    . intro r
      split <;> rfl
  | pairCreated hcheck hnew hfields hinsert =>
    unfold Db.registration Outcome.accepted
    rw [(Pairs.insert_created hinsert).1]
    exact .same
  | revoked hdb hcall hrow hmem hkey => exact .same
  | deleted hcheck => exact hdelete _
  | cleaned nowMs => exact hdelete _

namespace Routes.Push

variable {w w' : PushWorld} {o : PushOp} {f : Choice} {r : o.Res} {d : Uuid}

theorem PushWorld.command_cases {α : Type} {done : PushWorld × α} {res : Option α}
    (h : w.command f done = some (w', res))
    : (w' = w ∧ res = none) ∨ (w' = done.1 ∧ (res = some done.2 ∨ res = none)) := by
  unfold command at h
  split at h
  . cases h
    exact .inr ⟨rfl, .inl rfl⟩
  . cases h
    exact .inl ⟨rfl, rfl⟩
  . cases h
    exact .inr ⟨rfl, .inr rfl⟩
  . cases h

/--
What an operation can do to the push registration of the device `d`.
-/
inductive RegistrationStep (w : PushWorld) (d : Uuid) : PushOp → Option Devices.PushTarget → Prop where
  | same {o : PushOp} : RegistrationStep w d o (w.db.registration d)
  | set {reg : Devices.PushTarget} (provider : PushProvider) (token : String)
      (topic : Option String) (hreg : w.db.registration d = some reg)
      : RegistrationStep w d (.setPushToken d provider token topic)
          (some { reg with provider := some provider, token := some token, topic })
  | clear {reg : Devices.PushTarget} (hreg : w.db.registration d = some reg)
      : RegistrationStep w d (.clearPushToken d)
          (some { reg with provider := none, token := none })

theorem registrationStep_set (d' : Uuid) (provider : PushProvider) (token : String)
    (topic : Option String)
    : RegistrationStep w d (.setPushToken d' provider token topic)
        ((Devices.setPushToken w.db d' provider token topic w.nowMs).1.registration d) := by
  have hsame : RegistrationStep w d (.setPushToken d' provider token topic) (w.db.registration d) :=
    .same
  unfold Db.registration at hsame
  unfold Db.registration Devices.setPushToken
  rw [Db.find?_updateDevices]
  cases hrow : w.db.devices.find? d with
  | none =>
    rw [hrow] at hsame
    exact hsame
  | some row =>
    rw [Option.map_some, Option.map_some, Devices.setPushTokenRow]
    split
    . next hset =>
      have hd : d' = d := hset.1.symm.trans (Table.key_of_find? hrow)
      have hreg : w.db.registration d = some row.registration := congrArg (Option.map _) hrow
      exact hd ▸ .set provider token topic hreg
    . rw [hrow] at hsame
      exact hsame

theorem registrationStep_clear (d' : Uuid)
    : RegistrationStep w d (.clearPushToken d')
        ((Devices.clearPushToken w.db d').registration d) := by
  have hsame : RegistrationStep w d (.clearPushToken d') (w.db.registration d) := .same
  unfold Db.registration at hsame
  unfold Db.registration Devices.clearPushToken
  rw [Db.find?_updateDevices]
  cases hrow : w.db.devices.find? d with
  | none =>
    rw [hrow] at hsame
    exact hsame
  | some row =>
    rw [Option.map_some, Option.map_some, Devices.clearPushTokenRow]
    split
    . next hset =>
      have hd : d' = d := hset.symm.trans (Table.key_of_find? hrow)
      have hreg : w.db.registration d = some row.registration := congrArg (Option.map _) hrow
      exact hd ▸ .clear hreg
    . rw [hrow] at hsame
      exact hsame

theorem registration_perform (h : w.perform o f = some (w', r))
    : RegistrationStep w d o (w'.db.registration d) := by
  cases o with
  | setPushToken d' provider token topic =>
    rcases PushWorld.command_cases h with ⟨hw, _⟩ | ⟨hw, _⟩ <;> rw [hw]
    . exact .same
    . exact registrationStep_set d' provider token topic
  | clearPushToken d' =>
    rcases PushWorld.command_cases h with ⟨hw, _⟩ | ⟨hw, _⟩ <;> rw [hw]
    . exact .same
    . exact registrationStep_clear d'
  | findKey _ | findPlatform _ | pushTarget _ _ _ | setWake _ | delWake _ =>
    rcases PushWorld.command_cases h with ⟨hw, _⟩ | ⟨hw, _⟩ <;> exact hw ▸ .same
  | checkDevice _ | send _ | addPush _ =>
    cases f <;> cases h
    exact .same

/--
What `pushTarget` has read is the push registration of the device.
-/
theorem registration_of_read {pairId source dest : Uuid} {target : Devices.PushTarget}
    (h : w.perform (.pushTarget pairId source dest) f = some (w', some (some target)))
    : w' = w ∧ w.db.registration dest = some target := by
  rcases PushWorld.command_cases h with ⟨_, hnone⟩ | ⟨hw, hres | hres⟩
  . cases hnone
  . exact ⟨hw, Devices.registration_of_pushTarget (Option.some.inj hres).symm⟩
  . cases hres

end Routes.Push
end HandLiveRelay
