import HandLiveRelay.Routes.Effects

/-!
This module contains how long a revocation lasts: the row of a revoked pair stays as it is for as
long as both members keep their rows in `devices`. The relay keeps nothing else about a revoked
pair, so once the row went with one of its members the pair can be registered again.
-/

namespace HandLiveRelay

variable {crypto : Crypto}

theorem Devices.pairs_upsert {db db' : Db} {device : NewDevice} {now : Int64} {o : UpsertOutcome}
    (h : upsert db device now = some (db', o)) : db'.pairs = db.pairs := by
  unfold upsert at h
  split at h
  . split at h
    . cases h
      rfl
    . cases h
      rfl
  . split at h
    . cases h
    . cases h
      rfl

/--
What a created pair adds to the database.
-/
theorem Pairs.insert_created {db db' : Db} {new : NewPair}
    (h : Pairs.insert db new = some (db', .created))
    : db'.devices = db.devices ∧ db.pairs.find? new.pairId = none
        ∧ (∀ pairId, db'.pairs.find? pairId
            = if pairId = new.pairId then some new.row else db.pairs.find? pairId) := by
  unfold Pairs.insert at h
  dsimp only at h
  split at h
  . split at h
    . cases h
    . next hfind =>
      split at h
      . cases h
        refine ⟨rfl, hfind, ?_⟩
        intro pairId
        unfold Db.insertPair
        split
        . next hpair =>
          rw [hpair]
          exact Table.find?_insert_self _ new.row hfind
        . next hpair =>
          exact Table.find?_insert_ne _ new.row hfind (Ne.symm hpair)
      . cases h
  . cases h

theorem Pairs.revokeRow_of_revoked (s : RevokeStatement) {p : PairRow} (h : p.revokedAt ≠ none)
    : revokeRow s p = p := by
  unfold revokeRow
  rw [if_neg]
  intro ⟨_, _, hnone⟩
  exact h hnone

/--
A deletion keeps the pairs whose members it keeps.
-/
theorem Db.find?_pairs_deleteDevices {db : Db} {p : DeviceRow → Bool} {pairId : Uuid}
    {row : PairRow} (hrow : db.pairs.find? pairId = some row)
    (hkept : ∀ d, row.HasMember d → ((db.deleteDevices p).devices.find? d).isSome)
    : (db.deleteDevices p).pairs.find? pairId = some row := by
  have hany : ∀ d, row.HasMember d → (db.devices.find? d).any p = false := by
    intro d hd
    have hsome := hkept d hd
    unfold deleteDevices at hsome
    rw [Table.find?_delete] at hsome
    cases hfind : db.devices.find? d with
    | none => rfl
    | some r =>
      rw [hfind] at hsome
      cases hp : p r with
      | false => simpa using hp
      | true => simp [Option.filter, hp] at hsome
  unfold deleteDevices
  rw [Table.find?_delete, hrow]
  apply Option.filter_some_pos
  simp [hany _ (.inl rfl), hany _ (.inr rfl)]

/--
The step `l` deletes the row of a registered device.
-/
def Request.Deletes (crypto : Crypto) (d : Uuid) (db : Db) (l : Int64 × Request) : Prop :=
  (db.devices.find? d).isSome ∧ (l.2.handle crypto db l.1).db.devices.find? d = none

/--
One request: a revoked row stays as it is unless one of its members is deleted.
-/
theorem Request.find?_pairs_handle {db : Db} {l : Int64 × Request} {pairId : Uuid} {row : PairRow}
    (hrow : db.pairs.find? pairId = some row) (hrevoked : row.revokedAt ≠ none)
    (hkept : ∀ d, row.HasMember d → ¬ Deletes crypto d db l)
    : (l.2.handle crypto db l.1).db.pairs.find? pairId = some row := by
  have hdevices : ∀ d, row.HasMember d
      → ((l.2.handle crypto db l.1).db.devices.find? d).isSome := by
    intro d hd
    have hexists := db.membersExist row (Table.mem_of_find? hrow) d hd
    have hnot := hkept d hd
    unfold Deletes at hnot
    rw [Option.isSome_iff_ne_none]
    intro hnone
    exact hnot ⟨hexists, hnone⟩
  have heffect := handle_effect crypto db l.1 l.2
  generalize l.2.handle crypto db l.1 = out at hdevices heffect
  cases heffect with
  | refused e => exact hrow
  | unchanged r => exact hrow
  | upserted r _ _ h =>
    unfold Outcome.accepted
    rw [Devices.pairs_upsert h]
    exact hrow
  | touched deviceId nowMs => exact hrow
  | pairCreated hcheck hnew hfields h =>
    have ⟨_, hfree, hfind⟩ := Pairs.insert_created h
    unfold Outcome.accepted
    rw [hfind, if_neg]
    . exact hrow
    . intro heq
      rw [← heq, hrow] at hfree
      cases hfree
  | revoked hdb hcall hmember hmem hkey =>
    unfold Pairs.revoke Db.updatePairs
    rw [Table.find?_update, hrow, Option.map_some, Pairs.revokeRow_of_revoked _ hrevoked]
  | deleted hcheck => exact Db.find?_pairs_deleteDevices hrow hdevices
  | cleaned nowMs => exact Db.find?_pairs_deleteDevices hrow hdevices

/--
The row in which a statement was stored.
-/
theorem Pairs.revoke_stored {db : Db} {s : RevokeStatement} {peer : Uuid}
    (h : (Pairs.revoke db s).2 = some peer)
    : ∃ row, (Pairs.revoke db s).1.pairs.find? s.pairId = some row ∧ row.revokedAt = some s.revokedAt
        ∧ ∀ d, row.HasMember d → d = s.signer ∨ d = peer := by
  unfold Pairs.revoke at h ⊢
  have ⟨p, hp, hpeer⟩ := Option.map_eq_some_iff.mp h
  have hrevokes : Revokes s p := by simpa using List.find?_some hp
  have hmem : p ∈ db.pairs.rows := List.mem_of_find?_eq_some hp
  refine ⟨revokeRow s p, ?_, ?_, ?_⟩
  . unfold Db.updatePairs
    rw [Table.find?_update, ← hrevokes.1, Table.mem_rows_iff.mp hmem, Option.map_some]
  . simp [revokeRow, hrevokes]
  . intro d hd
    have hmember : p.HasMember d := by
      unfold PairRow.HasMember at hd ⊢
      rw [deviceA_revokeRow, deviceB_revokeRow] at hd
      exact hd
    by_cases hsigner : d = s.signer
    . exact .inl hsigner
    . exact .inr (by rw [← hpeer, PairRow.peer_of_hasMember hrevokes.2.1 hmember hsigner])

/--
A whole run of requests: a revoked row stays as it is while no request deletes a member.
-/
theorem Request.run_keeps_revoked {db db' : Db} {ls : List (Int64 × Request)} {pairId : Uuid}
    {row : PairRow} (hrow : db.pairs.find? pairId = some row) (hrevoked : row.revokedAt ≠ none)
    (hkept : Lts.Meets (Request.step crypto)
      (fun db l => ∀ d, row.HasMember d → ¬ Deletes crypto d db l) db ls)
    (hrun : Lts.run (Request.step crypto) db ls = some db')
    : db'.pairs.find? pairId = some row := by
  apply Lts.run_invariant (P := fun db => db.pairs.find? pairId = some row) _ hrow hkept hrun
  intro db l db' hrow hkept hstep
  cases hstep
  exact find?_pairs_handle hrow hrevoked hkept

theorem Pairs.ne_of_mem_activePeers {db : Db} {d pairId : Uuid} {p : Uuid × Uuid}
    (hrevoked : ∀ row, db.pairs.find? pairId = some row → row.revokedAt ≠ none)
    (hp : p ∈ activePeers db d) : p.1 ≠ pairId := by
  unfold activePeers at hp
  have ⟨row, hrow, hpair⟩ := List.mem_map.mp hp
  rw [List.mem_filter, Table.mem_rows_iff] at hrow
  have hactive : Active db d row := by simpa using hrow.2
  intro heq
  rw [← hpair] at heq
  exact hrevoked row (heq ▸ hrow.1) hactive.2.1

theorem Devices.pushTarget_eq_none {db : Db} {pairId : Uuid}
    (hrevoked : ∀ row, db.pairs.find? pairId = some row → row.revokedAt ≠ none)
    (source dest : Uuid) : pushTarget db pairId source dest = none := by
  unfold pushTarget
  cases hrow : db.pairs.find? pairId with
  | none => rfl
  | some row =>
    have hne := hrevoked row hrow
    cases db.devices.find? dest with
    | none => rfl
    | some d => simp [hne, guard]

/--
A stored revocation lasts: whatever requests follow, in whatever order and with whatever
signatures, the pair is not held as an unrevoked row and no query for valid pairs returns it, as
long as no request deletes the row of one of the two members.
-/
theorem revocation_lasts_while_members_stay (crypto : Crypto) {db db' : Db} {s : RevokeStatement}
    {peer : Uuid} (ls : List (Int64 × Request)) (hstored : (Pairs.revoke db s).2 = some peer)
    (hkept : Lts.Meets (Request.step crypto)
      (fun db l => ¬ Request.Deletes crypto s.signer db l ∧ ¬ Request.Deletes crypto peer db l)
      (Pairs.revoke db s).1 ls)
    (hrun : Lts.run (Request.step crypto) (Pairs.revoke db s).1 ls = some db')
    : (∀ row, db'.pairs.find? s.pairId = some row → row.revokedAt ≠ none)
        ∧ (∀ d, ∀ p ∈ Pairs.activePeers db' d, p.1 ≠ s.pairId)
        ∧ (∀ source dest, Devices.pushTarget db' s.pairId source dest = none) := by
  have ⟨row, hrow, hrevoked, hmembers⟩ := Pairs.revoke_stored hstored
  have hne : row.revokedAt ≠ none := by simp [hrevoked]
  have hrow' : db'.pairs.find? s.pairId = some row := by
    apply Request.run_keeps_revoked hrow hne _ hrun
    apply Lts.Meets.imp _ hkept
    intro db l hl d hd
    cases hmembers d hd with
    | inl hd => exact hd ▸ hl.1
    | inr hd => exact hd ▸ hl.2
  have hlast : ∀ row, db'.pairs.find? s.pairId = some row → row.revokedAt ≠ none := by
    intro row' hfind
    rw [hrow'] at hfind
    injection hfind with heq
    exact heq ▸ hne
  refine ⟨hlast, ?_, ?_⟩
  . intro d p hp
    exact Pairs.ne_of_mem_activePeers hlast hp
  . exact Devices.pushTarget_eq_none hlast

/-!
Two devices, number 1 an Android phone and number 2 an iPhone, and what they sign.
-/

namespace Sample

def key (n : UInt8) : Bytes 32 := Bytes.replicate 32 n

def device (n : UInt8) : Uuid := deviceIdFromPublicKey .sample (key n)

def sign (n : UInt8) (message : List UInt8) : String :=
  B64u.encode (Crypto.sampleSign (key n) message).toList

def registerDevice (n : UInt8) (platform : String) : Request :=
  .registerDevice none {
    deviceId := device n
    platform
    appVersion := "1.0"
    ikSigPub := B64u.encode (key n).toList
    ts := 0
    sig := sign n (registrationMessage (device n) (key n) platform 0)
  }

def pairId : Uuid := Bytes.replicate 16 7

def attestation : List UInt8 :=
  Attestation.toBytes {
    pairId
    deviceA := device 1
    deviceB := device 2
    ikSigPubA := key 1
    ikSigPubB := key 2
    createdAtMs := 0
  }

/--
The iPhone registers the pair, with the signatures both devices made when they were paired.
-/
def registerPair : Request :=
  .registerPair (device 2) none {
    pairId
    deviceA := device 1
    deviceB := device 2
    createdAt := 0
    attestation := B64u.encode attestation
    sigA := sign 1 attestation
    sigB := sign 2 attestation
  }

/--
The registration of the pair with another time.
-/
def pairRequest (createdAt : Int64) : Routes.Pairs.PairRequest :=
  let attestation := Attestation.toBytes {
    pairId
    deviceA := device 1
    deviceB := device 2
    ikSigPubA := key 1
    ikSigPubB := key 2
    createdAtMs := createdAt
  }
  {
    pairId
    deviceA := device 1
    deviceB := device 2
    createdAt
    attestation := B64u.encode attestation
    sigA := sign 1 attestation
    sigB := sign 2 attestation
  }

def revokePair : Request :=
  .revokePair (device 1) none pairId.hyphenated {
    revokedAt := some 0
    sig := some (sign 1 (revokeMessage pairId (device 1) 0))
    reason := some "lost_device"
  }

def statement : RevokeStatement where
  pairId := pairId
  signer := device 1
  revokedAt := 0
  sig := Crypto.sampleSign (key 1) (revokeMessage pairId (device 1) 0)

/--
The two devices are registered and paired.
-/
def pairedDb : Db :=
  (Lts.run (Request.step .sample) .empty
    [(0, registerDevice 1 "android"), (0, registerDevice 2 "ios"), (0, registerPair)]).getD .empty

end Sample

theorem revocation_lasts_against_registering_again
    : (Pairs.revoke Sample.pairedDb Sample.statement).2 = some (Sample.device 2)
        ∧ Devices.pushTarget
            (Sample.registerPair.handle .sample (Pairs.revoke Sample.pairedDb Sample.statement).1 0).db
            Sample.pairId (Sample.device 1) (Sample.device 2) = none := by
  have hstored : (Pairs.revoke Sample.pairedDb Sample.statement).2 = some (Sample.device 2) := by
    decide +kernel
  refine ⟨hstored, ?_⟩
  have hlasts := revocation_lasts_while_members_stay .sample [(0, Sample.registerPair)] hstored
    ?_ rfl
  . exact hlasts.2.2 _ _
  . refine ⟨?_, fun _ _ => trivial⟩
    unfold Request.Deletes
    decide +kernel

/--
The devices whose signatures a request presents.
-/
def Request.signers : Request → List Uuid
  | registerDevice _ req => [req.deviceId]
  | registerPair _ _ req => [req.deviceA, req.deviceB]
  | revokePair caller _ _ _ => [caller]
  | deleteMe caller _ _ (.ok (_ :: _)) => [caller]
  | deleteMe _ _ _ _ => []
  | token deviceId => [deviceId]
  | cleanup => []

namespace Sample

def untilRevoked : List (Int64 × Request) :=
  [(0, registerDevice 1 "android"), (0, registerDevice 2 "ios"), (0, registerPair), (0, revokePair)]

/--
The iPhone removes itself, registers again and presents the old attestation once more.
-/
def replay : List (Int64 × Request) :=
  [(0, .deleteMe (device 2) none false (.ok [])), (0, registerDevice 2 "ios"), (0, registerPair)]

end Sample

/--
Without the members' rows a revocation does not last. Device 1 revokes the pair and signs nothing
afterwards: the only request with a signature of it is one that was presented before. Still the
pair ends as an unrevoked row that both queries for valid pairs return.
-/
theorem revoked_pair_returns_after_member_left
    : (Lts.run (Request.step .sample) .empty Sample.untilRevoked).map
          (fun db => (db.pairs.find? Sample.pairId).map (·.revokedBy))
        = some (some (some (Sample.device 1)))
      ∧ (∀ l ∈ Sample.replay, Sample.device 1 ∈ l.2.signers → l ∈ Sample.untilRevoked)
      ∧ (Lts.run (Request.step .sample) .empty (Sample.untilRevoked ++ Sample.replay)).map
          (fun db => ((db.pairs.find? Sample.pairId).map (·.revokedAt),
            Pairs.activePeers db (Sample.device 1),
            (Devices.pushTarget db Sample.pairId (Sample.device 2) (Sample.device 1)).isSome))
        = some (some none, [(Sample.pairId, Sample.device 2)], true) := by
  refine ⟨by decide +kernel, ?_, by decide +kernel⟩
  have hne : Sample.device 1 ≠ Sample.device 2 := by decide +kernel
  simp [Sample.replay, Sample.untilRevoked, Request.signers, Sample.registerDevice, hne]

end HandLiveRelay
