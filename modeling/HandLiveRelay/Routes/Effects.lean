import HandLiveRelay.Routes.Requests

/-!
This module contains the inversion of a request: `Effect` lists what a request can leave behind,
together with the checks that passed before, and everything else about requests is derived from it.
-/

namespace HandLiveRelay

open Routes

variable (crypto : Crypto)

/--
What a request on the database `db` can leave behind.
-/
inductive Effect (db : Db) : Outcome → Prop where
  | refused (e : ApiError) : Effect db (.refused db e)
  | unchanged (r : Reply) : Effect db (.accepted db r [])
  | upserted {req : Routes.Devices.RegisterRequest} {device : Devices.NewDevice} {nowMs : Int64}
      {db' : Db} {o : Devices.UpsertOutcome} (r : Reply)
      (hid : device.deviceId = req.deviceId)
      (hverify : Routes.Devices.verifyRegistration crypto req nowMs
        = .ok (device.platform, device.ikSigPub))
      (h : Devices.upsert db device nowMs = some (db', o))
      : Effect db (.accepted db' r [])
  | touched (deviceId : Uuid) (nowMs : Int64)
      : Effect db (.accepted (Devices.touchLastSeen db deviceId nowMs) .noContent [])
  | pairCreated {caller : Uuid} {limit : Option ApiError} {req : Routes.Pairs.PairRequest}
      {fields : Routes.Pairs.PairFields} {new : Pairs.NewPair} {db' : Db}
      (hcheck : Routes.Pairs.checkRegister crypto db caller limit req = .ok fields)
      (hnew : new.pairId = req.pairId ∧ new.deviceA = req.deviceA ∧ new.deviceB = req.deviceB
        ∧ new.createdAtMs = req.createdAt)
      (hfields : new.attestation = fields.attestation ∧ new.sigA = fields.sigA
        ∧ new.sigB = fields.sigB)
      (h : Pairs.insert db new = some (db', .created))
      : Effect db (.accepted db' (.created req.createdAt)
          [.notify new.deviceA .pairsChanged, .notify new.deviceB .pairsChanged])
  | revoked {call : VerifyCall} {s : RevokeStatement} {row : PairRow} (hdb : call.db = db)
      (hcall : call.result crypto = .ok s) (hrow : db.pairs.find? s.pairId = some row)
      (hmem : row.HasMember s.signer)
      (hkey : (db.devices.find? call.caller).map (·.ikSigPub) = some call.callerIkSigPub)
      : Effect db {
          db := (Pairs.revoke db s).1
          reply := .ok .noContent
          actions := (Pairs.revoke db s).2.toList.flatMap fun peer =>
            [.notify peer (.pairRevoked s), .notify s.signer .pairsChanged]
          verified := [call]
        }
  | deleted {caller : Uuid} {key : Bytes 32} {nowMs : Int64}
      {revocations : Option (List Revocation)}
      {deleted : List (Uuid × Option RevokeStatement)}
      (hcheck : Devices.checkHeld crypto caller key nowMs revocations
        (Devices.heldPairs db caller) = .ok deleted)
      : Effect db {
          db := db.deleteDevices (·.deviceId = caller)
          reply := .ok .noContent
          actions := deleted.flatMap Devices.tellPeer
            ++ [.delPresence caller, .notify caller (.close closeNormal)]
          verified := Devices.heldCalls db caller key nowMs revocations
            (Devices.heldPairs db caller)
        }
  | cleaned (nowMs : Int64) : Effect db (.accepted (Devices.deleteExpired db nowMs) .noContent [])

variable {crypto}

theorem Devices.upsert_rejected {db db' : Db} {device : NewDevice} {now : Int64}
    (h : upsert db device now = some (db', .rejected)) : db' = db := by
  unfold upsert at h
  split at h
  . split at h
    . cases h
    . cases h
      rfl
  . split at h
    . cases h
    . cases h

theorem Pairs.insert_existing {db db' : Db} {new : NewPair} {stored : StoredPair}
    (h : Pairs.insert db new = some (db', .existing stored)) : db' = db := by
  unfold Pairs.insert at h
  dsimp only at h
  split at h
  . split at h
    . cases h
      rfl
    . split at h
      . cases h
      . cases h
  . cases h

theorem register_effect (db : Db) (nowMs : Int64) (limit : Option ApiError)
    (req : Routes.Devices.RegisterRequest)
    : Effect crypto db (Routes.Devices.register crypto db nowMs limit req) := by
  unfold Routes.Devices.register
  split
  . apply Effect.refused
  . next hverify =>
    dsimp only
    split
    . apply Effect.refused
    . split
      . apply Effect.refused
      . next h => exact .upserted _ rfl hverify h
      . next h => exact .upserted _ rfl hverify h
      . next h =>
        rw [Devices.upsert_rejected h]
        apply Effect.refused

theorem registerPair_effect (db : Db) (caller : Uuid) (limit : Option ApiError)
    (req : Routes.Pairs.PairRequest)
    : Effect crypto db (Routes.Pairs.register crypto db caller limit req) := by
  unfold Routes.Pairs.register
  split
  . apply Effect.refused
  . next fields hcheck =>
    dsimp only
    split
    . apply Effect.refused
    . next h => exact .pairCreated hcheck ⟨rfl, rfl, rfl, rfl⟩ ⟨rfl, rfl, rfl⟩ h
    . next h =>
      rw [Pairs.insert_existing h]
      split
      . apply Effect.unchanged
      . apply Effect.refused

/--
The caller of a revocation that passes its checks is a member of the pair, and the key it is
checked with is the stored one.
-/
theorem checkRevoke_eq_ok {db : Db} {caller : Uuid} {limit : Option ApiError} {path : String}
    {req : RevokeRequest} {pairId : Uuid} {key : Bytes 32}
    (h : Routes.Pairs.checkRevoke db caller limit path req = .ok (pairId, key))
    : (∃ row, db.pairs.find? pairId = some row ∧ row.HasMember caller)
      ∧ (db.devices.find? caller).map (·.ikSigPub) = some key := by
  unfold Routes.Pairs.checkRevoke at h
  rw [Except.bind_eq_ok] at h
  have ⟨_, _, h⟩ := h
  rw [Except.bind_eq_ok] at h
  have ⟨_, _, h⟩ := h
  split at h
  . cases h
  . split at h
    . cases h
    . split at h
      . cases h
      . next a b hmembers =>
        split at h
        . cases h
        . next hcaller =>
          split at h
          . cases h
          . next hkey =>
            cases h
            have ⟨row, hrow, hab⟩ := Option.map_eq_some_iff.mp hmembers
            have ⟨device, hdevice, hkey⟩ := Option.map_eq_some_iff.mp hkey
            cases hab
            cases hkey
            rw [not_and_or, not_not, not_not] at hcaller
            exact ⟨⟨row, hrow, hcaller⟩, by rw [hdevice, Option.map_some]⟩

theorem revokePair_effect (db : Db) (nowMs : Int64) (caller : Uuid) (limit : Option ApiError)
    (path : String) (req : RevokeRequest)
    : Effect crypto db (Routes.Pairs.revoke crypto db nowMs caller limit path req) := by
  unfold Routes.Pairs.revoke
  split
  . apply Effect.refused
  . next pairId key hcheck =>
    have ⟨⟨row, hrow, hmem⟩, hkey⟩ := checkRevoke_eq_ok hcheck
    dsimp only
    split
    . apply Effect.refused
    . next s hcall =>
      have ⟨hpair, hsigner, _⟩ := verifyStatement_eq_ok hcall
      dsimp only at hpair hsigner
      have heffect := Effect.revoked rfl hcall (hpair ▸ hrow) (hsigner ▸ hmem) hkey
      split
      . next hrevoke =>
        rw [hrevoke] at heffect
        exact heffect
      . next hrevoke =>
        rw [hrevoke, hsigner] at heffect
        exact heffect

theorem deleteMe_effect (db : Db) (nowMs : Int64) (caller : Uuid) (limit : Option ApiError)
    (revokePairs : Bool) (body : Except ApiError (List Revocation))
    : Effect crypto db
        (Routes.Devices.deleteMe crypto db nowMs caller limit revokePairs body) := by
  unfold Routes.Devices.deleteMe
  split
  . apply Effect.unchanged
  . split
    . apply Effect.refused
    . dsimp only
      split
      . apply Effect.refused
      . unfold Devices.deleteWithPeers
        split
        . next h =>
          split at h
          . cases h
          . cases h
            apply Effect.refused
        . next h =>
          split at h
          . next hcheck =>
            cases h
            exact .deleted hcheck
          . cases h

theorem handle_effect (crypto : Crypto) (db : Db) (nowMs : Int64) (req : Request)
    : Effect crypto db (req.handle crypto db nowMs) := by
  cases req with
  | registerDevice limit req => apply register_effect
  | registerPair caller limit req => apply registerPair_effect
  | revokePair caller limit path req => apply revokePair_effect
  | deleteMe caller limit revokePairs body => apply deleteMe_effect
  | token deviceId => apply Effect.touched
  | cleanup => apply Effect.cleaned

end HandLiveRelay
