import HandLiveRelay.Routes.Permanence

/-!
This module contains what the rows of the two tables stand for: the id of a device is derived from
its key, and a pair is attested by the keys its two members have now. The rows refer to each other
across the tables, so this is an invariant of all the writes of the relay together. Only the time of
a pair is not always the one that was attested, since the database may round it.
-/

namespace HandLiveRelay

/--
A write to the tables: all of a request, or one of the statements on push tokens, which a request
makes between calls to others.
-/
inductive StoreWrite where
  | request (nowMs : Int64) (req : Request)
  | setPushToken (nowMs : Int64) (deviceId : Uuid) (provider : PushProvider) (token : String)
      (topic : Option String)
  | clearPushToken (deviceId : Uuid)

def StoreWrite.step (crypto : Crypto) (db : Db) : StoreWrite → Option Db
  | request nowMs req => some (req.handle crypto db nowMs).db
  | setPushToken nowMs deviceId provider token topic =>
    some (Devices.setPushToken db deviceId provider token topic nowMs).1
  | clearPushToken deviceId => some (Devices.clearPushToken db deviceId)

/--
The write is not the registration of a pair with a time that the column does not hold exactly.
-/
def StoreWrite.KeepsTime (l : StoreWrite) : Prop :=
  ∀ nowMs caller limit req, l = .request nowMs (.registerPair caller limit req)
    → Timestamp.readBack req.createdAt = req.createdAt

section

variable (crypto : Crypto)

/--
The pair is attested by an Android phone and another device, with the keys in their rows.
-/
structure PairRow.Attested (p : PairRow) (createdAt : Int64) (a b : DeviceRow) : Prop where
  android : a.platform = .android
  client : b.platform ≠ .android
  attestation : p.attestation = Attestation.toBytes {
    pairId := p.pairId
    deviceA := p.deviceA
    deviceB := p.deviceB
    ikSigPubA := a.ikSigPub
    ikSigPubB := b.ikSigPub
    createdAtMs := createdAt
  }
  sigA : SignedBy crypto p.deviceA a.ikSigPub p.attestation p.sigA
  sigB : SignedBy crypto p.deviceB b.ikSigPub p.attestation p.sigB

/--
The pair holds a revocation that one of its members signed.
-/
def PairRow.RevokedByMember (db : Db) (p : PairRow) : Prop :=
  ∃ revokedAt signer sig row, p.revokedAt = some revokedAt ∧ p.revokedBy = some signer
    ∧ p.revokeSig = some sig ∧ p.HasMember signer ∧ db.devices.find? signer = some row
    ∧ SignedBy crypto signer row.ikSigPub (revokeMessage p.pairId signer revokedAt.toUInt64) sig

/--
A pair whose members attested that it was made at `createdAt`.
-/
structure PairRow.WellFormed (db : Db) (createdAt : Int64) (p : PairRow) : Prop where
  distinct : p.deviceA ≠ p.deviceB
  attested : ∃ a b, db.devices.find? p.deviceA = some a ∧ db.devices.find? p.deviceB = some b
    ∧ p.Attested crypto createdAt a b
  revocation : p.revokedAt = none ∨ p.RevokedByMember crypto db

/--
The rows are what they stand for, and the members of a pair attested its time.
-/
structure Db.WellFormed (db : Db) : Prop where
  devices : ∀ row ∈ db.devices.rows, row.deviceId = deviceIdFromPublicKey crypto row.ikSigPub
  pairs : ∀ p ∈ db.pairs.rows, p.WellFormed crypto db p.createdAt

/--
The rows are what they stand for, and the time of a pair is what the database made of the time that
its members attested, where all of these times are in `T`.
-/
structure Db.Registered (T : Int64 → Prop) (db : Db) : Prop where
  devices : ∀ row ∈ db.devices.rows, row.deviceId = deviceIdFromPublicKey crypto row.ikSigPub
  pairs : ∀ p ∈ db.pairs.rows,
    ∃ ms, T ms ∧ p.createdAt = Timestamp.readBack ms ∧ p.WellFormed crypto db ms

end

/--
A device that has a row before and after has the same key and the same platform.
-/
def Db.KeepsIdentity (db db' : Db) : Prop :=
  ∀ d row row', db.devices.find? d = some row → db'.devices.find? d = some row'
    → row'.ikSigPub = row.ikSigPub ∧ row'.platform = row.platform

variable {crypto : Crypto} {db db' : Db} {T : Int64 → Prop}

/-!
Which writes keep the identity of the devices.
-/

namespace Db.KeepsIdentity

theorem of_devices_eq (h : db'.devices = db.devices) : db.KeepsIdentity db' := by
  intro d row row' hrow hrow'
  rw [h, hrow] at hrow'
  cases hrow'
  exact ⟨rfl, rfl⟩

theorem updateDevices {f : DeviceRow → DeviceRow} {hid : ∀ r, (f r).deviceId = r.deviceId}
    {hkey : ∀ r, (f r).ikSigPub = r.ikSigPub} (hplatform : ∀ r, (f r).platform = r.platform)
    : db.KeepsIdentity (db.updateDevices f hid hkey) := by
  intro d row row' hrow hrow'
  unfold Db.updateDevices at hrow'
  rw [Table.find?_update, hrow, Option.map_some] at hrow'
  cases hrow'
  exact ⟨hkey row, hplatform row⟩

theorem deleteDevices (p : DeviceRow → Bool) : db.KeepsIdentity (db.deleteDevices p) := by
  intro d row row' hrow hrow'
  unfold Db.deleteDevices at hrow'
  rw [Table.find?_delete, hrow, Option.filter_eq_some_iff] at hrow'
  cases hrow'.1
  exact ⟨rfl, rfl⟩

theorem insertDevice {row : DeviceRow} {hid} {hkey}
    : db.KeepsIdentity (db.insertDevice row hid hkey) := by
  intro d old row' hold hrow'
  by_cases hd : row.deviceId = d
  . subst hd
    rw [hid] at hold
    cases hold
  . unfold Db.insertDevice at hrow'
    rw [Table.find?_insert_ne _ _ _ hd, hold] at hrow'
    cases hrow'
    exact ⟨rfl, rfl⟩

end Db.KeepsIdentity

/--
A pair that stays is still attested, since its members stay and keep their keys.
-/
theorem PairRow.WellFormed.transfer {p : PairRow} {createdAt : Int64}
    (h : p.WellFormed crypto db createdAt) (hp : p ∈ db'.pairs.rows) (hkeep : db.KeepsIdentity db')
    : p.WellFormed crypto db' createdAt := by
  have hmember : ∀ {d row}, p.HasMember d → db.devices.find? d = some row
      → ∃ row', db'.devices.find? d = some row' ∧ row'.ikSigPub = row.ikSigPub
        ∧ row'.platform = row.platform := by
    intro d row hd hrow
    obtain ⟨row', hrow'⟩ := Option.isSome_iff_exists.mp (db'.membersExist p hp d hd)
    exact ⟨row', hrow', hkeep d row row' hrow hrow'⟩
  obtain ⟨a, b, ha, hb, hattested⟩ := h.attested
  refine ⟨h.distinct, ?_, ?_⟩
  . obtain ⟨a', ha', hkeyA, hplatformA⟩ := hmember (.inl rfl) ha
    obtain ⟨b', hb', hkeyB, hplatformB⟩ := hmember (.inr rfl) hb
    refine ⟨a', b', ha', hb', ?_⟩
    constructor
    . rw [hplatformA]
      exact hattested.android
    . rw [hplatformB]
      exact hattested.client
    . rw [hkeyA, hkeyB]
      exact hattested.attestation
    . rw [hkeyA]
      exact hattested.sigA
    . rw [hkeyB]
      exact hattested.sigB
  . apply h.revocation.imp_right
    rintro ⟨revokedAt, signer, sig, row, hat, hby, hsig, hmem, hrow, hsigned⟩
    obtain ⟨row', hrow', hkey, _⟩ := hmember hmem hrow
    exact ⟨revokedAt, signer, sig, row', hat, hby, hsig, hmem, hrow', hkey ▸ hsigned⟩

namespace Db.Registered

theorem empty : Db.empty.Registered crypto T := by
  constructor
  . intro row hrow
    cases hrow
  . intro p hp
    cases hp

theorem transfer (h : db.Registered crypto T) (hkeep : db.KeepsIdentity db') {p : PairRow}
    (hp : p ∈ db.pairs.rows) (hp' : p ∈ db'.pairs.rows)
    : ∃ ms, T ms ∧ p.createdAt = Timestamp.readBack ms ∧ p.WellFormed crypto db' ms := by
  obtain ⟨ms, hms, htime, hwf⟩ := h.pairs p hp
  exact ⟨ms, hms, htime, hwf.transfer hp' hkeep⟩

theorem updateDevices (h : db.Registered crypto T) {f : DeviceRow → DeviceRow}
    {hid : ∀ r, (f r).deviceId = r.deviceId} {hkey : ∀ r, (f r).ikSigPub = r.ikSigPub}
    (hplatform : ∀ r, (f r).platform = r.platform)
    : (db.updateDevices f hid hkey).Registered crypto T := by
  constructor
  . intro row hrow
    unfold Db.updateDevices at hrow
    rw [Table.mem_rows_update] at hrow
    obtain ⟨r, hr, heq⟩ := hrow
    rw [← heq, hid, hkey]
    exact h.devices r hr
  . intro p hp
    exact h.transfer (.updateDevices hplatform) hp hp

theorem deleteDevices (h : db.Registered crypto T) (p : DeviceRow → Bool)
    : (db.deleteDevices p).Registered crypto T := by
  constructor
  . intro row hrow
    exact h.devices row (Table.mem_rows_delete.mp hrow).1
  . intro r hr
    exact h.transfer (.deleteDevices p) (Table.mem_rows_delete.mp hr).1 hr

theorem insertDevice (h : db.Registered crypto T) {row : DeviceRow} {hid} {hkey}
    (hrow : row.deviceId = deviceIdFromPublicKey crypto row.ikSigPub)
    : (db.insertDevice row hid hkey).Registered crypto T := by
  constructor
  . intro row' hrow'
    unfold Db.insertDevice at hrow'
    rw [Table.mem_rows_insert] at hrow'
    cases hrow' with
    | inl hmem => exact h.devices row' hmem
    | inr heq => exact heq ▸ hrow
  . intro p hp
    exact h.transfer .insertDevice hp hp

/--
The times of the pairs are the attested ones exactly if the database holds those exactly.
-/
theorem wellFormed_iff (h : db.Registered crypto T)
    : db.WellFormed crypto ↔ ∀ p ∈ db.pairs.rows, ∀ attested,
        Attestation.parse p.attestation = some attested
        → Timestamp.readBack attested.createdAtMs = attested.createdAtMs := by
  constructor
  . intro hwf p hp attested hparse
    obtain ⟨ms, _, htime, hregistered⟩ := h.pairs p hp
    obtain ⟨_, _, _, _, hattested⟩ := hregistered.attested
    obtain ⟨_, _, _, _, hattested'⟩ := (hwf.pairs p hp).attested
    rw [hattested.attestation, Attestation.parse_toBytes] at hparse
    cases hparse
    have hsame := Attestation.toBytes_injective (hattested.attestation.symm.trans
      hattested'.attestation)
    have hms : ms = p.createdAt := congrArg Attestation.createdAtMs hsame
    exact htime.symm.trans hms.symm
  . intro hexact
    refine ⟨h.devices, ?_⟩
    intro p hp
    obtain ⟨ms, _, htime, hwf⟩ := h.pairs p hp
    obtain ⟨_, _, _, _, hattested⟩ := hwf.attested
    have hms := hexact p hp _ (hattested.attestation ▸ Attestation.parse_toBytes _)
    rw [htime, hms]
    exact hwf

/--
If the database holds all of the times exactly, they are the attested ones.
-/
theorem wellFormed (h : db.Registered crypto (fun ms => Timestamp.readBack ms = ms))
    : db.WellFormed crypto := by
  refine ⟨h.devices, ?_⟩
  intro p hp
  obtain ⟨ms, hms, htime, hwf⟩ := h.pairs p hp
  rw [htime, hms]
  exact hwf

end Db.Registered

/-!
The requests, one at a time. Each of them writes only what it has verified.
-/

theorem Routes.Devices.matchesPublicKey_of_verifyRegistration {req : RegisterRequest}
    {nowMs : Int64} {platform : Platform} {key : Bytes 32}
    (h : verifyRegistration crypto req nowMs = .ok (platform, key))
    : req.deviceId = deviceIdFromPublicKey crypto key := by
  unfold verifyRegistration at h
  dsimp only at h
  split at h
  . cases h
  . split at h
    . cases h
    . have ⟨key, _, h⟩ := Except.bind_eq_ok.mp h
      have ⟨sig, _, h⟩ := Except.bind_eq_ok.mp h
      split at h
      . cases h
      . split at h
        . next hverify =>
          cases h
          have hmatch := (verifyDeviceSignature_eq_ok.mp hverify).matchesKey
          unfold matchesPublicKey at hmatch
          exact (of_decide_eq_true hmatch).symm
        . cases h

theorem Devices.upsert_integrity {device : NewDevice} {nowMs : Int64} {o : UpsertOutcome}
    (h : db.Registered crypto T) (hid : device.deviceId = deviceIdFromPublicKey crypto device.ikSigPub)
    (hupsert : upsert db device nowMs = some (db', o))
    : db'.Registered crypto T ∧ db.KeepsIdentity db' := by
  unfold upsert at hupsert
  split at hupsert
  . have hplatform : ∀ r, (refreshRow device nowMs r).platform = r.platform := by
      intro r
      unfold refreshRow
      split <;> rfl
    split at hupsert
    . cases hupsert
      exact ⟨h.updateDevices hplatform, .updateDevices hplatform⟩
    . cases hupsert
      exact ⟨h, .of_devices_eq rfl⟩
  . split at hupsert
    . cases hupsert
    . cases hupsert
      exact ⟨h.insertDevice hid, .insertDevice⟩

theorem Pairs.memberDevice_eq_some {d : Uuid} {m : MemberDevice}
    (h : memberDevice db d = some m)
    : ∃ row, db.devices.find? d = some row ∧ row.ikSigPub = m.ikSigPub
        ∧ row.platform = m.platform := by
  simp only [memberDevice, Option.bind_eq_bind, Option.bind_eq_some_iff] at h
  have ⟨row, hrow, _, _, heq⟩ := h
  cases heq
  exact ⟨row, hrow, rfl, rfl⟩

/--
The row of a pair registration that passes its checks.
-/
theorem Routes.Pairs.attested_of_checkRegister {caller : Uuid} {limit : Option ApiError}
    {req : PairRequest} {fields : PairFields} {new : HandLiveRelay.Pairs.NewPair}
    (h : checkRegister crypto db caller limit req = .ok fields)
    (hnew : new.pairId = req.pairId ∧ new.deviceA = req.deviceA ∧ new.deviceB = req.deviceB
      ∧ new.createdAtMs = req.createdAt)
    (hfields : new.attestation = fields.attestation ∧ new.sigA = fields.sigA
      ∧ new.sigB = fields.sigB)
    : ∃ a b, db.devices.find? new.deviceA = some a ∧ db.devices.find? new.deviceB = some b
        ∧ new.row.Attested crypto new.createdAtMs a b := by
  unfold checkRegister at h
  have ⟨_, _, h⟩ := Except.bind_eq_ok.mp h
  have ⟨_, _, h⟩ := Except.bind_eq_ok.mp h
  have ⟨fields', _, h⟩ := Except.bind_eq_ok.mp h
  split at h
  . cases h
  . split at h
    . next a b ha hb =>
      split at h
      . cases h
      . next hplatform =>
        have ⟨_, hclaim, hret⟩ := Except.bind_eq_ok.mp h
        cases hret
        rw [not_or, not_not] at hplatform
        have ⟨rowA, hrowA, hkeyA, hplatformA⟩ := Pairs.memberDevice_eq_some ha
        have ⟨rowB, hrowB, hkeyB, hplatformB⟩ := Pairs.memberDevice_eq_some hb
        have ⟨hattestation, hsigA, hsigB⟩ := verifyPairClaim_eq_ok hclaim
        dsimp only at hattestation hsigA hsigB
        have ⟨hpair, hA, hB, htime⟩ := hnew
        have ⟨hbytes, hnewA, hnewB⟩ := hfields
        refine ⟨rowA, rowB, hA ▸ hrowA, hB ▸ hrowB, ?_⟩
        constructor
        . rw [hplatformA]
          exact hplatform.1
        . rw [hplatformB]
          exact hplatform.2
        . unfold HandLiveRelay.Pairs.NewPair.row
          rw [hbytes, hpair, hA, hB, htime, hkeyA, hkeyB, hattestation]
        . unfold HandLiveRelay.Pairs.NewPair.row
          rw [hbytes, hA, hkeyA, hnewA]
          exact hsigA
        . unfold HandLiveRelay.Pairs.NewPair.row
          rw [hbytes, hB, hkeyB, hnewB]
          exact hsigB
    . cases h

theorem Pairs.insert_integrity {new : NewPair} (h : db.Registered crypto T)
    (htime : T new.createdAtMs)
    (hattested : ∃ a b, db.devices.find? new.deviceA = some a
      ∧ db.devices.find? new.deviceB = some b ∧ new.row.Attested crypto new.createdAtMs a b)
    (hinsert : Pairs.insert db new = some (db', .created))
    : db'.Registered crypto T ∧ db.KeepsIdentity db' := by
  have ⟨hdevices, _, hfind⟩ := Pairs.insert_created hinsert
  have hkeep : db.KeepsIdentity db' := .of_devices_eq hdevices
  refine ⟨?_, hkeep⟩
  constructor
  . rw [hdevices]
    exact h.devices
  . intro p hp
    have hrow := Table.mem_rows_iff.mp hp
    rw [hfind] at hrow
    split at hrow
    . cases hrow
      refine ⟨new.createdAtMs, htime, rfl, db'.membersDistinct _ hp, ?_, .inl rfl⟩
      rw [hdevices]
      exact hattested
    . exact h.transfer hkeep (Table.mem_rows_iff.mpr hrow) hp

theorem Pairs.revoke_integrity {call : VerifyCall} {s : RevokeStatement}
    (h : db.Registered crypto T) (hcall : call.result crypto = .ok s)
    (hkey : (db.devices.find? call.caller).map (·.ikSigPub) = some call.callerIkSigPub)
    : (Pairs.revoke db s).1.Registered crypto T ∧ db.KeepsIdentity (Pairs.revoke db s).1 := by
  have hkeep : db.KeepsIdentity (Pairs.revoke db s).1 := .of_devices_eq rfl
  refine ⟨⟨h.devices, ?_⟩, hkeep⟩
  intro p hp
  have ⟨q, hq, heq⟩ := Pairs.mem_rows_revoke.mp hp
  unfold revokeRow at heq
  split at heq
  . next hrevokes =>
    have ⟨hpair, hsigner, hsigned⟩ := verifyStatement_eq_ok hcall
    have ⟨row, hrow, hrowKey⟩ := Option.map_eq_some_iff.mp hkey
    obtain ⟨ms, hms, htime, hwf⟩ := h.pairs q hq
    subst heq
    refine ⟨ms, hms, htime, hwf.distinct, ?_, .inr ?_⟩
    . have ⟨a, b, ha, hb, hattested⟩ := hwf.attested
      exact ⟨a, b, ha, hb, ⟨hattested.android, hattested.client, hattested.attestation,
        hattested.sigA, hattested.sigB⟩⟩
    . refine ⟨s.revokedAt, s.signer, s.sig, row, rfl, rfl, rfl, hrevokes.2.1, ?_, ?_⟩
      . rw [hsigner]
        exact hrow
      . rw [hrowKey, hrevokes.1, hpair, hsigner]
        exact hsigned
  . subst heq
    exact h.transfer hkeep hq hp

/--
Only the registration of a pair has more to do after it has created something.
-/
theorem Request.eq_registerPair_of_created {nowMs ms : Int64} {req : Request}
    (hreply : (req.handle crypto db nowMs).reply = .ok (.created ms))
    (hactions : (req.handle crypto db nowMs).actions ≠ [])
    : ∃ caller limit r, req = .registerPair caller limit r ∧ r.createdAt = ms := by
  cases req with
  | registerDevice limit r =>
    refine absurd ?_ hactions
    unfold handle Routes.Devices.register
    dsimp only
    split
    . rfl
    . split
      . rfl
      . split
        . rfl
        . rfl
        . rfl
        . rfl
  | registerPair caller limit r =>
    refine ⟨caller, limit, r, rfl, ?_⟩
    unfold handle Routes.Pairs.register at hreply
    dsimp only at hreply
    split at hreply
    . cases hreply
    . split at hreply
      . cases hreply
      . cases hreply
        rfl
      . split at hreply
        . cases hreply
        . cases hreply
  | revokePair caller limit path r =>
    unfold handle Routes.Pairs.revoke at hreply
    dsimp only at hreply
    split at hreply
    . cases hreply
    . split at hreply
      . cases hreply
      . split at hreply
        . cases hreply
        . cases hreply
  | deleteMe caller limit revokePairs body =>
    unfold handle Routes.Devices.deleteMe at hreply
    dsimp only at hreply
    split at hreply
    . cases hreply
    . split at hreply
      . cases hreply
      . split at hreply
        . cases hreply
        . split at hreply
          . cases hreply
          . cases hreply
  | token deviceId => cases hreply
  | cleanup => cases hreply

theorem Request.handle_integrity (h : db.Registered crypto T) (nowMs : Int64) (req : Request)
    (htime : ∀ caller limit r, req = .registerPair caller limit r → T r.createdAt)
    : (req.handle crypto db nowMs).db.Registered crypto T
      ∧ db.KeepsIdentity (req.handle crypto db nowMs).db := by
  have heffect := handle_effect crypto db nowMs req
  have hcreated : ∀ ms, (req.handle crypto db nowMs).reply = .ok (.created ms)
      → (req.handle crypto db nowMs).actions ≠ [] → T ms := by
    intro ms hreply hactions
    obtain ⟨caller, limit, r, hreq, hms⟩ := eq_registerPair_of_created hreply hactions
    exact hms ▸ htime caller limit r hreq
  generalize req.handle crypto db nowMs = out at heffect hcreated
  cases heffect with
  | refused e => exact ⟨h, .of_devices_eq rfl⟩
  | unchanged r => exact ⟨h, .of_devices_eq rfl⟩
  | upserted r hid hverify hupsert =>
    have hkey := Routes.Devices.matchesPublicKey_of_verifyRegistration hverify
    exact Devices.upsert_integrity h (hid.trans hkey) hupsert
  | touched deviceId nowMs =>
    have hplatform : ∀ r : DeviceRow, (if r.deviceId = deviceId then
        { r with lastSeenAt := nowMs } else r).platform = r.platform := by
      intro r
      split <;> rfl
    unfold Outcome.accepted Devices.touchLastSeen
    dsimp only
    exact ⟨h.updateDevices hplatform, .updateDevices hplatform⟩
  | pairCreated hcheck hnew hfields hinsert =>
    have hms : T _ := hcreated _ rfl (List.cons_ne_nil _ _)
    rw [← hnew.2.2.2] at hms
    exact Pairs.insert_integrity h hms
      (Routes.Pairs.attested_of_checkRegister hcheck hnew hfields) hinsert
  | revoked hdb hcall hrow hmem hkey => exact Pairs.revoke_integrity h hcall hkey
  | deleted hcheck => exact ⟨h.deleteDevices _, .deleteDevices _⟩
  | cleaned nowMs => exact ⟨h.deleteDevices _, .deleteDevices _⟩

/--
One write.
-/
theorem StoreWrite.step_integrity {l : StoreWrite} (h : db.Registered crypto T)
    (htime : ∀ nowMs caller limit req, l = .request nowMs (.registerPair caller limit req)
      → T req.createdAt)
    (hstep : l.step crypto db = some db') : db'.Registered crypto T ∧ db.KeepsIdentity db' := by
  cases l with
  | request nowMs req =>
    cases hstep
    refine Request.handle_integrity h nowMs req ?_
    intro caller limit r hreq
    exact htime nowMs caller limit r (by rw [hreq])
  | setPushToken nowMs deviceId provider token topic =>
    cases hstep
    have hplatform : ∀ r, (Devices.setPushTokenRow deviceId provider token topic nowMs r).platform
        = r.platform := by
      intro r
      unfold Devices.setPushTokenRow
      split <;> rfl
    unfold Devices.setPushToken
    dsimp only
    exact ⟨h.updateDevices hplatform, .updateDevices hplatform⟩
  | clearPushToken deviceId =>
    cases hstep
    have hplatform : ∀ r, (Devices.clearPushTokenRow deviceId r).platform = r.platform := by
      intro r
      unfold Devices.clearPushTokenRow
      split <;> rfl
    unfold Devices.clearPushToken
    exact ⟨h.updateDevices hplatform, .updateDevices hplatform⟩

/--
A run, whose writes register pairs with times in `T` only.
-/
theorem registered_of_run {ls : List StoreWrite}
    (htime : ∀ l ∈ ls, ∀ nowMs caller limit req,
      l = .request nowMs (.registerPair caller limit req) → T req.createdAt)
    (hrun : Lts.run (StoreWrite.step crypto) .empty ls = some db) : db.Registered crypto T := by
  refine Lts.run_invariant ?_ Db.Registered.empty (Lts.meets_of_forall htime) hrun
  intro db l db' h htime hstep
  exact (StoreWrite.step_integrity h htime hstep).1

/--
Whatever is written, starting with empty tables, the rows are well formed exactly if the column of
their time holds what the members of the pairs attested. That is so if it holds the times of the
registrations, and up to about the year 148000 it does. Everything else about the rows holds in any
case, and the next write keeps the key and the platform of every device whose row it keeps.
-/
theorem store_stays_well_formed {crypto : Crypto} {db : Db} {ls : List StoreWrite}
    (hrun : Lts.run (StoreWrite.step crypto) .empty ls = some db)
    : (db.WellFormed crypto ↔ ∀ p ∈ db.pairs.rows, ∀ attested,
        Attestation.parse p.attestation = some attested
        → Timestamp.readBack attested.createdAtMs = attested.createdAtMs)
      ∧ ((∀ l ∈ ls, l.KeepsTime) → db.WellFormed crypto)
      ∧ (∀ ms : Int64, ms.toInt.natAbs ≤ 4611686018427387 → Timestamp.readBack ms = ms)
      ∧ db.Registered crypto (fun _ => True)
      ∧ ∀ l db', StoreWrite.step crypto db l = some db' → db.KeepsIdentity db' := by
  have hregistered : db.Registered crypto (fun _ => True) := by
    apply registered_of_run _ hrun
    intro l _ nowMs caller limit req _
    trivial
  refine ⟨hregistered.wellFormed_iff, ?_, fun ms => Timestamp.readBack_eq_self, hregistered, ?_⟩
  . intro hexact
    exact (registered_of_run hexact hrun).wellFormed
  . intro l db' hstep
    apply (StoreWrite.step_integrity hregistered _ hstep).2
    intro nowMs caller limit req _
    trivial

namespace Sample

/--
The two devices are paired, the phone stores a push token and then revokes the pair.
-/
def storeWrites : List StoreWrite :=
  [.request 0 (registerDevice 1 "android"), .request 0 (registerDevice 2 "ios"),
    .request 0 registerPair, .setPushToken 0 (device 1) .fcm "token" none, .request 0 revokePair]

/--
The two devices are paired at 2^53 + 1 ms, signed by both of them.
-/
def latePairWrites : List StoreWrite :=
  [.request 0 (registerDevice 1 "android"), .request 0 (registerDevice 2 "ios"),
    .request 0 (.registerPair (device 2) none (pairRequest 9007199254740993))]

end Sample

theorem revoked_pair_is_well_formed
    : ∃ db p, Lts.run (StoreWrite.step .sample) .empty Sample.storeWrites = some db
        ∧ db.WellFormed .sample ∧ db.pairs.find? Sample.pairId = some p
        ∧ p.RevokedByMember .sample db := by
  have hrun : (Lts.run (StoreWrite.step .sample) .empty Sample.storeWrites).any
      (fun db => (db.pairs.find? Sample.pairId).any (·.revokedAt.isSome)) = true := by
    decide +kernel
  simp only [Option.any_eq_true, Option.isSome_iff_exists] at hrun
  obtain ⟨db, hdb, p, hp, revokedAt, hrevoked⟩ := hrun
  have hexact : ∀ l ∈ Sample.storeWrites, l.KeepsTime := by
    simp only [Sample.storeWrites, StoreWrite.KeepsTime, Sample.registerDevice, Sample.registerPair,
      Sample.revokePair, List.forall_mem_cons, reduceCtorEq, StoreWrite.request.injEq,
      Request.registerPair.injEq, false_implies, implies_true, List.not_mem_nil, and_false, true_and,
      and_true]
    rintro _ _ _ _ ⟨_, _, _, rfl⟩
    exact Timestamp.readBack_eq_self (by decide)
  have hwf := (store_stays_well_formed hdb).2.1 hexact
  refine ⟨db, p, hdb, hwf, hp, ?_⟩
  cases (hwf.pairs p (Table.mem_of_find? hp)).revocation with
  | inl hnone =>
    rw [hnone] at hrevoked
    cases hrevoked
  | inr hby => exact hby

/--
The column holds a time one millisecond before the one that both members attested.
-/
theorem stored_time_is_not_attested
    : ∃ db, Lts.run (StoreWrite.step .sample) .empty Sample.latePairWrites = some db
        ∧ (db.pairs.find? Sample.pairId).map (·.createdAt) = some 9007199254740992
        ∧ ¬ db.WellFormed .sample := by
  have hrun : (Lts.run (StoreWrite.step .sample) .empty Sample.latePairWrites).any (fun db =>
      (db.pairs.find? Sample.pairId).any fun p => decide (p.createdAt = 9007199254740992)
        && (Attestation.parse p.attestation).any (·.createdAtMs ≠ 9007199254740992)) = true := by
    decide +kernel
  simp only [Option.any_eq_true, Bool.and_eq_true, decide_eq_true_eq] at hrun
  obtain ⟨db, hdb, p, hp, htime, attested, hattested, hne⟩ := hrun
  refine ⟨db, hdb, by rw [hp, Option.map_some, htime], ?_⟩
  intro hwf
  obtain ⟨_, _, _, _, h⟩ := (hwf.pairs p (Table.mem_of_find? hp)).attested
  rw [h.attestation, Attestation.parse_toBytes] at hattested
  cases hattested
  exact hne htime

end HandLiveRelay
