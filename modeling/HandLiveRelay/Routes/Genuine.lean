import HandLiveRelay.Relay.Wire
import HandLiveRelay.Routes.Permanence

/-!
This module contains where the revocations come from that requests store and send. Both handlers
verify a statement before they use it, the one for a single pair against the members of the pair
and the one that deletes all data against the pairs the device still holds.
-/

namespace HandLiveRelay

open Wire Routes

/--
The text is a `pair_revoked` message. The texts of the relay are objects with their keys in
alphabetical order, or with `op` as the first one.
-/
def isPairRevoked (text : String) : Bool :=
  Text.startsWith "\x7b\"by\":" text || Text.startsWith "\x7b\"op\":\"pair_revoked\"" text

theorem isPairRevoked_append {a : String} (b : String) (hlen : 8 ≤ a.toList.length)
    (hby : Text.startsWith "\x7b\"by\":" a = false)
    (hop : Text.startsWith "\x7b\"op\":\"p" a = false) : isPairRevoked (a ++ b) = false := by
  unfold isPairRevoked
  have hsplit : "\x7b\"op\":\"pair_revoked\"" = "\x7b\"op\":\"p" ++ "air_revoked\"" := by decide
  rw [Bool.or_eq_false_iff]
  constructor
  . have hle : "\x7b\"by\":".toList.length = 6 := by decide
    rwa [Text.startsWith_append b (by omega)]
  . rw [← Bool.not_eq_true, hsplit]
    intro h
    have h := Text.startsWith_of_append h
    have hle : "\x7b\"op\":\"p".toList.length = 8 := by decide
    rw [Text.startsWith_append b (by omega), hop] at h
    cases h

@[simp]
theorem isPairRevoked_presenceMessage (pairId peer : Uuid) (b : Bool)
    : isPairRevoked (presenceMessage pairId peer b) = false := by
  unfold presenceMessage
  simp only [String.append_assoc]
  exact isPairRevoked_append _ (by decide) (by decide) (by decide)

@[simp]
theorem isPairRevoked_errorMessage (err : RelayError) (dest : Option Uuid)
    : isPairRevoked (errorMessage err dest) = false := by
  unfold errorMessage
  simp only [String.append_assoc]
  exact isPairRevoked_append _ (by decide) (by decide) (by decide)

@[simp]
theorem isPairRevoked_rvJoinedMessage (rvId : String) (b : Bool)
    : isPairRevoked (rvJoinedMessage rvId b) = false := by
  unfold rvJoinedMessage
  simp only [String.append_assoc]
  exact isPairRevoked_append _ (by decide) (by decide) (by decide)

@[simp]
theorem isPairRevoked_rvMsgMessage (rvId env : String)
    : isPairRevoked (rvMsgMessage rvId env) = false := by
  unfold rvMsgMessage
  simp only [String.append_assoc]
  exact isPairRevoked_append _ (by decide) (by decide) (by decide)

@[simp]
theorem isPairRevoked_forwardedText (source : Uuid) (env : String)
    : isPairRevoked (forwardedText source env) = false := by
  unfold forwardedText
  simp only [String.append_assoc]
  exact isPairRevoked_append _ (by decide) (by decide) (by decide)

section

variable (crypto : Crypto) (verified : List VerifyCall)

/--
A call of `verifyStatement` returned the statement, at a time when its signer and the device `d`
were members of the pair.
-/
def Genuine (d : Uuid) (s : RevokeStatement) : Prop :=
  ∃ call ∈ verified, call.result crypto = .ok s
    ∧ ∃ row, call.db.pairs.find? s.pairId = some row ∧ row.HasMember s.signer ∧ row.HasMember d

/--
The message shows the device `d` nothing but genuine revocations.
-/
def BusMessage.Genuine (d : Uuid) : BusMessage → Prop
  | pairRevoked s => HandLiveRelay.Genuine crypto verified d s
  | control text | forwardText _ text => isPairRevoked text = false
  | _ => True

def Action.Genuine : Action → Prop
  | addRevokedNotice peer s => HandLiveRelay.Genuine crypto verified peer s
  | notify d msg => msg.Genuine crypto verified d
  | delPresence _ => True

/--
The statements of the rows are genuine for both members.
-/
def Db.Genuine (db : Db) : Prop :=
  ∀ row ∈ db.pairs.rows, ∀ now s, Pairs.recentStatement now row = some s
    → ∀ d, row.HasMember d → HandLiveRelay.Genuine crypto verified d s

end

variable {crypto : Crypto} {verified : List VerifyCall}

theorem Genuine.mono {verified' : List VerifyCall} (hsub : verified ⊆ verified') {d : Uuid}
    {s : RevokeStatement} (h : Genuine crypto verified d s) : Genuine crypto verified' d s := by
  have ⟨call, hcall, hrest⟩ := h
  exact ⟨call, hsub hcall, hrest⟩

theorem BusMessage.Genuine.mono {verified' : List VerifyCall} (hsub : verified ⊆ verified')
    {d : Uuid} {msg : BusMessage} (h : msg.Genuine crypto verified d)
    : msg.Genuine crypto verified' d := by
  cases msg with
  | pairRevoked s => exact HandLiveRelay.Genuine.mono hsub h
  | _ => exact h

theorem Action.Genuine.mono {verified' : List VerifyCall} (hsub : verified ⊆ verified')
    {a : Action} (h : a.Genuine crypto verified) : a.Genuine crypto verified' := by
  cases a with
  | addRevokedNotice peer s => exact HandLiveRelay.Genuine.mono hsub h
  | notify d msg => exact BusMessage.Genuine.mono hsub h
  | delPresence d => trivial

theorem Db.Genuine.mono {verified' : List VerifyCall} (hsub : verified ⊆ verified') {db : Db}
    (h : db.Genuine crypto verified) : db.Genuine crypto verified' := by
  intro row hrow now s hs d hd
  exact (h row hrow now s hs d hd).mono hsub

theorem Db.Genuine.of_subset {db db' : Db} (h : db.Genuine crypto verified)
    (hsub : ∀ row ∈ db'.pairs.rows, row ∈ db.pairs.rows) : db'.Genuine crypto verified := by
  intro row hrow
  exact h row (hsub row hrow)

/-!
A single revocation.
-/

theorem Pairs.recentStatement_eq_some {now : Int64} {p : PairRow} {s : RevokeStatement}
    (h : recentStatement now p = some s)
    : p.pairId = s.pairId ∧ p.revokedAt = some s.revokedAt ∧ p.revokedBy = some s.signer
      ∧ p.revokeSig = some s.sig := by
  simp only [recentStatement, Option.bind_eq_bind, Option.bind_eq_some_iff] at h
  have ⟨revokedAt, hat, signer, hby, sig, hsig, _, _, heq⟩ := h
  cases heq
  exact ⟨rfl, hat, hby, hsig⟩

/--
What a stored revocation leaves in the rows is genuine.
-/
theorem Db.Genuine.revoke {call : VerifyCall} {s : RevokeStatement} {row : PairRow}
    (h : call.db.Genuine crypto verified) (hcall : call.result crypto = .ok s)
    (hmem : call ∈ verified) (hrow : call.db.pairs.find? s.pairId = some row)
    (hsigner : row.HasMember s.signer)
    : (Pairs.revoke call.db s).1.Genuine crypto verified := by
  intro row' hrow' now s' hs' d hd
  have ⟨q, hq, heq⟩ := Pairs.mem_rows_revoke.mp hrow'
  by_cases hrevokes : Pairs.Revokes s q
  . have hqrow : q = row := by
      have hfind := Table.mem_rows_iff.mp hq
      rw [hrevokes.1, hrow] at hfind
      exact (Option.some.inj hfind).symm
    subst hqrow
    unfold Pairs.revokeRow at heq
    rw [if_pos hrevokes] at heq
    subst heq
    have ⟨hid, hat, hby, hsig⟩ := Pairs.recentStatement_eq_some hs'
    have hs : s = s' := by
      rw [RevokeStatement.mk.injEq]
      exact ⟨hrevokes.1.symm.trans hid, Option.some.inj hby, Option.some.inj hat,
        Option.some.inj hsig⟩
    subst hs
    exact ⟨call, hmem, hcall, q, hrow, hsigner, hd⟩
  . unfold Pairs.revokeRow at heq
    rw [if_neg hrevokes] at heq
    subst heq
    exact h q hq now s' hs' d hd

/--
The peer that is told is the other member.
-/
theorem Pairs.hasMember_of_revoke {db : Db} {s : RevokeStatement} {row : PairRow} {peer : Uuid}
    (hrow : db.pairs.find? s.pairId = some row) (h : (revoke db s).2 = some peer)
    : row.HasMember peer := by
  unfold revoke at h
  dsimp only at h
  have ⟨q, hq, heq⟩ := Option.map_eq_some_iff.mp h
  have hrevokes : Revokes s q := by simpa using List.find?_some hq
  have hfind := Table.mem_rows_iff.mp (List.mem_of_find?_eq_some hq)
  rw [hrevokes.1, hrow] at hfind
  cases hfind
  exact heq ▸ row.hasMember_peer s.signer

/-!
The statements of a device that deletes all its data.
-/

theorem genuine_of_checkHeld {db : Db} {caller peer : Uuid} {key : Bytes 32} {nowMs : Int64}
    {revocations : Option (List Revocation)} {deleted : List (Uuid × Option RevokeStatement)}
    {s : RevokeStatement}
    (h : Routes.Devices.checkHeld crypto caller key nowMs revocations
      (Devices.heldPairs db caller) = .ok deleted)
    (hmem : (peer, some s) ∈ deleted)
    : Genuine crypto (Routes.Devices.heldCalls db caller key nowMs revocations
        (Devices.heldPairs db caller)) peer s := by
  unfold Routes.Devices.checkHeld at h
  cases revocations with
  | none =>
    cases h
    simp at hmem
  | some items =>
    have ⟨signed, hsigned, heq⟩ := Except.bind_eq_ok.mp h
    cases heq
    have ⟨⟨s', peer'⟩, hsp, heq⟩ := List.mem_map.mp hmem
    cases heq
    have ⟨⟨p, peer'⟩, hheld, hpeer, item, hitem, hs⟩ :=
      (verifyRevocations_eq_ok hsigned).flip.exists_of_mem hsp
    dsimp only at hpeer hitem hs
    subst hpeer
    have ⟨row, hrow, ⟨hcaller, _⟩, heq⟩ := Devices.mem_heldPairs.mp hheld
    cases heq
    have ⟨hid, hsigner, _⟩ := verifyStatement_eq_ok hs
    let call : VerifyCall := {
      db
      pairId := row.pairId
      caller
      callerIkSigPub := key
      revokedAt := item.revokedAt
      sig := item.sig
      nowMs
    }
    refine ⟨call, ?_, hs, row, ?_, ?_, ?_⟩
    . unfold Routes.Devices.heldCalls
      rw [List.mem_filterMap]
      exact ⟨_, hheld, by simp [hitem, call]⟩
    . rw [hid]
      exact Table.mem_rows_iff.mp hrow
    . rwa [hsigner]
    . exact row.hasMember_peer caller

theorem tellPeer_genuine {verified : List VerifyCall}
    {deleted : List (Uuid × Option RevokeStatement)}
    (h : ∀ peer s, (peer, some s) ∈ deleted → Genuine crypto verified peer s) {a : Action}
    (ha : a ∈ deleted.flatMap Routes.Devices.tellPeer) : a.Genuine crypto verified := by
  have ⟨⟨peer, st⟩, hmem, ha⟩ := List.mem_flatMap.mp ha
  cases st with
  | none =>
    rw [Routes.Devices.tellPeer, List.mem_singleton] at ha
    subst ha
    trivial
  | some s =>
    simp only [Routes.Devices.tellPeer, List.mem_cons, List.not_mem_nil, or_false] at ha
    rcases ha with rfl | rfl <;> exact h peer s hmem

/--
What a request stores and sends is genuine.
-/
theorem handle_genuine {db : Db} (h : db.Genuine crypto verified) (nowMs : Int64) (req : Request)
    : (req.handle crypto db nowMs).db.Genuine crypto
        ((req.handle crypto db nowMs).verified ++ verified)
      ∧ ∀ a ∈ (req.handle crypto db nowMs).actions,
        a.Genuine crypto ((req.handle crypto db nowMs).verified ++ verified) := by
  have heffect := handle_effect crypto db nowMs req
  generalize req.handle crypto db nowMs = out at heffect
  cases heffect with
  | refused e => exact ⟨h, nofun⟩
  | unchanged r => exact ⟨h, nofun⟩
  | upserted r _ _ hupsert =>
    refine ⟨h.of_subset ?_, nofun⟩
    unfold Outcome.accepted
    rw [Devices.pairs_upsert hupsert]
    exact fun row hrow => hrow
  | touched deviceId nowMs => exact ⟨h, nofun⟩
  | pairCreated _ _ _ hinsert =>
    refine ⟨?_, ?_⟩
    . intro row hrow now s hs d hd
      have ⟨_, _, hfind⟩ := Pairs.insert_created hinsert
      unfold Outcome.accepted at hrow
      rw [Table.mem_rows_iff, hfind] at hrow
      split at hrow
      . -- the new row is not revoked
        cases hrow
        cases (Pairs.recentStatement_eq_some hs).2.1
      . exact h row (Table.mem_rows_iff.mpr hrow) now s hs d hd
    . intro a ha
      simp only [Outcome.accepted, List.mem_cons, List.not_mem_nil, or_false] at ha
      rcases ha with rfl | rfl <;> trivial
  | @revoked call s row hdb hcall hrow hmem hkey =>
    subst hdb
    have hsub : verified ⊆ [call] ++ verified := List.subset_append_right _ _
    refine ⟨(h.mono hsub).revoke hcall List.mem_cons_self hrow hmem, ?_⟩
    intro a ha
    have ⟨peer, hpeer, ha⟩ := List.mem_flatMap.mp ha
    rw [Option.mem_toList] at hpeer
    simp only [List.mem_cons, List.not_mem_nil, or_false] at ha
    rcases ha with rfl | rfl
    . exact ⟨call, List.mem_cons_self, hcall, row, hrow, hmem,
        Pairs.hasMember_of_revoke hrow hpeer⟩
    . trivial
  | @deleted caller key nowMs revocations deleted hcheck =>
    refine ⟨(h.mono (List.subset_append_right _ _)).of_subset ?_, ?_⟩
    . intro row hrow
      exact (Table.mem_rows_delete.mp hrow).1
    . intro a ha
      cases List.mem_append.mp ha with
      | inl ha =>
        refine (tellPeer_genuine ?_ ha).mono (List.subset_append_left _ _)
        intro peer s hmem
        exact genuine_of_checkHeld hcheck hmem
      | inr ha =>
        simp only [List.mem_cons, List.not_mem_nil, or_false] at ha
        rcases ha with rfl | rfl <;> trivial
  | cleaned nowMs =>
    refine ⟨h.of_subset ?_, nofun⟩
    intro row hrow
    exact (Table.mem_rows_delete.mp hrow).1

end HandLiveRelay
