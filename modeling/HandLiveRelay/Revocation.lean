import HandLiveRelay.Lib.Except
import HandLiveRelay.Lib.Table
import HandLiveRelay.Signatures

/-!
This module contains the signed statements that revoke a pair, and the checks the relay makes
before it stores and forwards one.
-/

namespace HandLiveRelay

/--
`revoked_at` has to be within 10 minutes of the clock of the relay.
-/
def revokeClockSkewMs : Nat := 10 * 60 * 1000

/--
A verified statement: `signer` revoked the pair at `revokedAt`.
-/
structure RevokeStatement where
  pairId : Uuid
  signer : Uuid
  revokedAt : Int64
  sig : Bytes 64
deriving DecidableEq

/--
The body of `POST /v1/pairs/{pair_id}/revoke`.
-/
structure RevokeRequest where
  revokedAt : Option Int64
  sig : Option String
  reason : Option String

/--
One of the statements in the body of `DELETE /v1/devices/me?revoke_pairs=true`.
-/
structure Revocation where
  pairId : Uuid
  revokedAt : Option Int64
  sig : Option String

variable (crypto : Crypto)

/--
Check a statement made by `caller`, whose stored key is `callerIkSigPub`.
-/
def verifyStatement (pairId caller : Uuid) (callerIkSigPub : Bytes 32) (revokedAt : Option Int64)
    (sig : Option String) (nowMs : Int64) : Except ApiError RevokeStatement :=
  match revokedAt, sig with
  | some revokedAt, some sig => do
    let sig ← B64u.decodeField 64 sig
    -- the conversion to `u64` fails for a negative time
    if revokedAt < 0 then
      .error .badRequest
    else if (revokedAt.toInt - nowMs.toInt).natAbs > revokeClockSkewMs then
      .error .badRequest
    else
      let msg := revokeMessage pairId caller revokedAt.toUInt64
      match verifyDeviceSignature crypto caller callerIkSigPub msg sig with
      | .ok () => .ok { pairId, signer := caller, revokedAt, sig }
      | .error _ => .error .badRequest
  | _, _ => .error .badRequest

/--
One turn of the loop that collects the items by their pair. A pair that comes twice ends it.
-/
def insertItem (byPair : Uuid → Option Revocation) (item : Revocation)
    : Except ApiError (Uuid → Option Revocation) :=
  if (byPair item.pairId).isSome then
    .error .badRequest
  else
    .ok (Function.update byPair item.pairId (some item))

/--
Verify the statement for a pair of the caller, given with the peer.
-/
def verifyHeld (byPair : Uuid → Option Revocation) (caller : Uuid) (callerIkSigPub : Bytes 32)
    (nowMs : Int64) (held : Uuid × Uuid) : Except ApiError (RevokeStatement × Uuid) :=
  match byPair held.1 with
  | none => .error .badRequest
  | some item => do
    let statement ←
      verifyStatement crypto held.1 caller callerIkSigPub item.revokedAt item.sig nowMs
    return (statement, held.2)

/--
Match the statements of a call that deletes all data to the unrevoked pairs of the caller. Every
pair of `held`, given as pair and peer, needs exactly one valid statement.
-/
def verifyRevocations (held : List (Uuid × Uuid)) (items : List Revocation) (caller : Uuid)
    (callerIkSigPub : Bytes 32) (nowMs : Int64)
    : Except ApiError (List (RevokeStatement × Uuid)) := do
  let byPair ← items.foldlM insertItem fun _ => none
  held.mapM (verifyHeld crypto byPair caller callerIkSigPub nowMs)

variable {crypto}

/--
The statement that an item of the caller makes: the time and the signature of the item, where the
time is near the clock of the relay and the caller signed it.
-/
structure Revocation.Proves (crypto : Crypto) (caller : Uuid) (key : Bytes 32) (nowMs : Int64)
    (item : Revocation) (s : RevokeStatement) : Prop where
  pairId : s.pairId = item.pairId
  signer : s.signer = caller
  revokedAt : item.revokedAt = some s.revokedAt
  nonneg : 0 ≤ s.revokedAt.toInt
  inTime : |s.revokedAt.toInt - nowMs.toInt| ≤ 600000
  decodes : ∃ text, item.sig = some text ∧ B64u.decodeFixed 64 text = some s.sig
  signed : SignedBy crypto caller key (revokeMessage item.pairId caller s.revokedAt.toUInt64) s.sig

theorem natAbs_le_revokeClockSkewMs {z : Int} : ¬ z.natAbs > revokeClockSkewMs ↔ |z| ≤ 600000 := by
  unfold revokeClockSkewMs
  rw [Int.abs_eq_natAbs]
  omega

/--
A statement passes exactly when the item proves it.
-/
theorem verifyStatement_eq_ok_iff {item : Revocation} {caller : Uuid} {key : Bytes 32}
    {nowMs : Int64} {s : RevokeStatement}
    : verifyStatement crypto item.pairId caller key item.revokedAt item.sig nowMs = .ok s
        ↔ item.Proves crypto caller key nowMs s := by
  have hsign : ∀ v : Int64, ¬ v < 0 ↔ 0 ≤ v.toInt := by
    intro v
    rw [Int64.not_lt, Int64.le_iff_toInt_le]
    rfl
  unfold verifyStatement
  constructor
  . intro h
    split at h
    . next revokedAt text hat hsig =>
      rw [Except.bind_eq_ok] at h
      have ⟨sig, hdecode, h⟩ := h
      split at h
      . cases h
      . next hneg =>
        split at h
        . cases h
        . next hskew =>
          dsimp only at h
          split at h
          . next hverify =>
            cases h
            exact {
              pairId := rfl
              signer := rfl
              revokedAt := hat
              nonneg := (hsign revokedAt).mp hneg
              inTime := natAbs_le_revokeClockSkewMs.mp hskew
              decodes := ⟨text, hsig, B64u.decodeField_eq_ok_iff.mp hdecode⟩
              signed := verifyDeviceSignature_eq_ok.mp hverify
            }
          . cases h
    . cases h
  . intro h
    have ⟨text, hsig, hdecode⟩ := h.decodes
    rw [h.revokedAt, hsig]
    dsimp only
    rw [B64u.decodeField_eq_ok_iff.mpr hdecode]
    dsimp only [bind, Except.bind]
    rw [if_neg ((hsign _).mpr h.nonneg), if_neg (natAbs_le_revokeClockSkewMs.mpr h.inTime),
      verifyDeviceSignature_eq_ok.mpr h.signed, ← h.pairId, ← h.signer]

theorem verifyStatement_eq_error {pairId caller : Uuid} {key : Bytes 32} {revokedAt : Option Int64}
    {sig : Option String} {nowMs : Int64} {e : ApiError}
    (h : verifyStatement crypto pairId caller key revokedAt sig nowMs = .error e)
    : e = .badRequest := by
  unfold verifyStatement at h
  split at h
  . rw [Except.bind_eq_error] at h
    obtain h | ⟨_, _, h⟩ := h
    . exact B64u.decodeField_eq_error h
    . split at h
      . cases h
        rfl
      . split at h
        . cases h
          rfl
        . dsimp only at h
          split at h
          . cases h
          . cases h
            rfl
  . cases h
    rfl

theorem verifyStatement_eq_ok {pairId caller : Uuid} {key : Bytes 32} {revokedAt : Option Int64}
    {sig : Option String} {nowMs : Int64} {s : RevokeStatement}
    (h : verifyStatement crypto pairId caller key revokedAt sig nowMs = .ok s)
    : s.pairId = pairId ∧ s.signer = caller
        ∧ SignedBy crypto caller key (revokeMessage pairId caller s.revokedAt.toUInt64) s.sig := by
  let item : Revocation := { pairId, revokedAt, sig }
  have hproves : item.Proves crypto caller key nowMs s := verifyStatement_eq_ok_iff.mp h
  exact ⟨hproves.pairId, hproves.signer, hproves.signed⟩

/-!
The loop over the items comes to its end when no pair comes twice. An item is then found by its pair
as in the list.
-/

theorem foldlM_insertItem_of_nodup {items : List Revocation} (byPair : Uuid → Option Revocation)
    (hnodup : (items.map (·.pairId)).Nodup) (hnew : ∀ item ∈ items, byPair item.pairId = none)
    : items.foldlM insertItem byPair
      = .ok fun pairId => (items.find? (·.pairId = pairId)).or (byPair pairId) := by
  induction items generalizing byPair with
  | nil => rfl
  | cons item items ih =>
    rw [List.map_cons, List.nodup_cons] at hnodup
    have hother : ∀ other ∈ items, other.pairId ≠ item.pairId := by
      intro other hmem heq
      exact hnodup.1 (List.mem_map.mpr ⟨other, hmem, heq⟩)
    rw [List.foldlM_cons, insertItem, hnew item List.mem_cons_self, if_neg (by simp)]
    show items.foldlM insertItem _ = _
    rw [ih _ hnodup.2]
    . congr 1
      funext pairId
      rw [List.find?_cons]
      by_cases hp : item.pairId = pairId
      . subst hp
        have hfind : items.find? (·.pairId = item.pairId) = none := by
          rw [List.find?_eq_none]
          simpa using hother
        simp [hfind]
      . simp [hp, Function.update_of_ne (Ne.symm hp)]
    . intro other hmem
      rw [Function.update_of_ne (hother other hmem)]
      exact hnew other (List.mem_cons_of_mem _ hmem)

theorem foldlM_insertItem_of_mem {items : List Revocation} (byPair : Uuid → Option Revocation)
    {pairId : Uuid} (hmem : pairId ∈ items.map (·.pairId)) (hin : (byPair pairId).isSome)
    : items.foldlM insertItem byPair = .error .badRequest := by
  induction items generalizing byPair with
  | nil => cases hmem
  | cons item items ih =>
    rw [List.foldlM_cons, insertItem]
    split
    . rfl
    next hfree =>
      have hne : pairId ≠ item.pairId := by
        rintro rfl
        exact hfree hin
      show items.foldlM insertItem _ = _
      apply ih
      . exact (List.mem_cons.mp hmem).resolve_left hne
      . rw [Function.update_of_ne hne]
        exact hin

theorem foldlM_insertItem_of_repeated {items : List Revocation}
    (byPair : Uuid → Option Revocation) (hrepeated : ¬ (items.map (·.pairId)).Nodup)
    : items.foldlM insertItem byPair = .error .badRequest := by
  induction items generalizing byPair with
  | nil => exact absurd List.nodup_nil hrepeated
  | cons item items ih =>
    rw [List.foldlM_cons, insertItem]
    split
    . rfl
    . show items.foldlM insertItem _ = _
      by_cases hmem : item.pairId ∈ items.map (·.pairId)
      . apply foldlM_insertItem_of_mem _ hmem
        simp
      . apply ih
        intro hnodup
        exact hrepeated (List.nodup_cons.mpr ⟨hmem, hnodup⟩)

theorem verifyRevocations_of_nodup {held : List (Uuid × Uuid)} {items : List Revocation}
    {caller : Uuid} {key : Bytes 32} {nowMs : Int64} (h : (items.map (·.pairId)).Nodup)
    : verifyRevocations crypto held items caller key nowMs
      = held.mapM (verifyHeld crypto (fun pairId => items.find? (·.pairId = pairId)) caller key
        nowMs) := by
  unfold verifyRevocations
  rw [foldlM_insertItem_of_nodup _ h (by simp)]
  simp only [Option.or_none]
  rfl

theorem verifyRevocations_of_repeated {held : List (Uuid × Uuid)} {items : List Revocation}
    {caller : Uuid} {key : Bytes 32} {nowMs : Int64} (h : ¬ (items.map (·.pairId)).Nodup)
    : verifyRevocations crypto held items caller key nowMs = .error .badRequest := by
  unfold verifyRevocations
  rw [foldlM_insertItem_of_repeated _ h]
  rfl

/--
A call that deletes all data passes with one verified statement per held pair, in the order of the
pairs and next to the peer of each.
-/
theorem verifyRevocations_eq_ok {held : List (Uuid × Uuid)} {items : List Revocation}
    {caller : Uuid} {key : Bytes 32} {nowMs : Int64} {signed : List (RevokeStatement × Uuid)}
    (h : verifyRevocations crypto held items caller key nowMs = .ok signed)
    : List.Forall₂ (fun p r => r.2 = p.2 ∧ ∃ item, items.find? (·.pairId = p.1) = some item
        ∧ verifyStatement crypto p.1 caller key item.revokedAt item.sig nowMs = .ok r.1)
        held signed := by
  by_cases hnodup : (items.map (·.pairId)).Nodup
  . rw [verifyRevocations_of_nodup hnodup, Except.mapM_eq_ok] at h
    apply List.Forall₂.imp _ h
    intro p r hr
    unfold verifyHeld at hr
    split at hr
    . cases hr
    . next item hitem =>
      rw [Except.bind_eq_ok] at hr
      have ⟨s, hs, hr⟩ := hr
      cases hr
      exact ⟨rfl, item, hitem, hs⟩
  . rw [verifyRevocations_of_repeated hnodup] at h
    cases h

/--
With one item per pair at most, the item found for a pair is the one that names it.
-/
theorem find?_pairId_eq_some {items : List Revocation} (hnodup : (items.map (·.pairId)).Nodup)
    {pairId : Uuid} {item : Revocation}
    : items.find? (·.pairId = pairId) = some item ↔ item ∈ items ∧ item.pairId = pairId := by
  let table : Table Revocation (·.pairId) := ⟨items, hnodup⟩
  constructor
  . intro h
    exact ⟨table.mem_of_find? h, table.key_of_find? h⟩
  . intro ⟨hmem, hid⟩
    rw [← hid]
    exact (Table.mem_rows_iff (t := table)).mp hmem

theorem find?_pairId_perm {items items' : List Revocation} (h : items.Perm items')
    (hnodup : (items.map (·.pairId)).Nodup) (pairId : Uuid)
    : items'.find? (·.pairId = pairId) = items.find? (·.pairId = pairId) := by
  have hnodup' := (h.map (·.pairId)).nodup_iff.mp hnodup
  ext item
  rw [find?_pairId_eq_some hnodup', find?_pairId_eq_some hnodup, h.mem_iff]

/--
The call passes with a proved statement for every held pair, if no two items name one pair.
-/
theorem verifyRevocations_eq_ok_iff {held : List (Uuid × Uuid)} {items : List Revocation}
    {caller : Uuid} {key : Bytes 32} {nowMs : Int64} {signed : List (RevokeStatement × Uuid)}
    : verifyRevocations crypto held items caller key nowMs = .ok signed
      ↔ (items.map (·.pairId)).Nodup
        ∧ List.Forall₂ (fun p r => r.2 = p.2 ∧ ∃ item ∈ items, item.pairId = p.1
            ∧ item.Proves crypto caller key nowMs r.1) held signed := by
  constructor
  . intro h
    have hnodup : (items.map (·.pairId)).Nodup := by
      by_contra hdup
      rw [verifyRevocations_of_repeated hdup] at h
      cases h
    refine ⟨hnodup, (verifyRevocations_eq_ok h).imp ?_⟩
    intro p r ⟨hpeer, item, hfind, hverify⟩
    have ⟨hmem, hid⟩ := (find?_pairId_eq_some hnodup).mp hfind
    rw [← hid] at hverify
    exact ⟨hpeer, item, hmem, hid, verifyStatement_eq_ok_iff.mp hverify⟩
  . intro ⟨hnodup, h⟩
    rw [verifyRevocations_of_nodup hnodup, Except.mapM_eq_ok]
    apply h.imp
    intro p r ⟨hpeer, item, hmem, hid, hproves⟩
    unfold verifyHeld
    dsimp only
    rw [(find?_pairId_eq_some hnodup).mpr ⟨hmem, hid⟩]
    dsimp only
    rw [← hid, verifyStatement_eq_ok_iff.mpr hproves, ← hpeer]
    rfl

theorem verifyRevocations_perm {items items' : List Revocation} (h : items.Perm items')
    (held : List (Uuid × Uuid)) (caller : Uuid) (key : Bytes 32) (nowMs : Int64)
    : verifyRevocations crypto held items' caller key nowMs
        = verifyRevocations crypto held items caller key nowMs := by
  have hiff := (h.map (·.pairId)).nodup_iff
  by_cases hnodup : (items.map (·.pairId)).Nodup
  . rw [verifyRevocations_of_nodup hnodup, verifyRevocations_of_nodup (hiff.mp hnodup)]
    simp only [find?_pairId_perm h hnodup]
  . rw [verifyRevocations_of_repeated hnodup, verifyRevocations_of_repeated (mt hiff.mpr hnodup)]

theorem verifyRevocations_eq_error {held : List (Uuid × Uuid)} {items : List Revocation}
    {caller : Uuid} {key : Bytes 32} {nowMs : Int64} {e : ApiError}
    (h : verifyRevocations crypto held items caller key nowMs = .error e) : e = .badRequest := by
  by_cases hnodup : (items.map (·.pairId)).Nodup
  . rw [verifyRevocations_of_nodup hnodup] at h
    have ⟨p, _, hp⟩ := Except.exists_of_mapM_eq_error h
    unfold verifyHeld at hp
    split at hp
    . cases hp
      rfl
    . rw [Except.bind_eq_error] at hp
      obtain hp | ⟨_, _, hp⟩ := hp
      . exact verifyStatement_eq_error hp
      . cases hp
  . rw [verifyRevocations_of_repeated hnodup] at h
    cases h
    rfl

/--
A call that deletes all data passes exactly when no two items name one pair and an item proves a
statement for every held pair. It then returns these statements in the order of the held pairs, each
with the peer of its pair, whatever the order of the items; and it fails with `badRequest` only.
-/
theorem deleting_needs_one_statement_per_held_pair (held : List (Uuid × Uuid))
    (items : List Revocation) (caller : Uuid) (key : Bytes 32) (nowMs : Int64)
    : ((∃ signed, verifyRevocations crypto held items caller key nowMs = .ok signed)
        ↔ (items.map (·.pairId)).Nodup
          ∧ ∀ p ∈ held, ∃ item ∈ items, item.pairId = p.1
            ∧ ∃ s, item.Proves crypto caller key nowMs s)
      ∧ (∀ signed, verifyRevocations crypto held items caller key nowMs = .ok signed
          → List.Forall₂ (fun p r => r.2 = p.2 ∧ ∃ item ∈ items, item.pairId = p.1
              ∧ item.Proves crypto caller key nowMs r.1) held signed)
      ∧ (∀ items', items.Perm items' → verifyRevocations crypto held items' caller key nowMs
          = verifyRevocations crypto held items caller key nowMs)
      ∧ ∀ e, verifyRevocations crypto held items caller key nowMs = .error e
          → e = .badRequest := by
  refine ⟨?_, ?_, ?_, ?_⟩
  . constructor
    . intro ⟨signed, h⟩
      have ⟨hnodup, hall⟩ := verifyRevocations_eq_ok_iff.mp h
      refine ⟨hnodup, ?_⟩
      intro p hp
      have ⟨r, _, _, item, hmem, hid, hproves⟩ := hall.exists_of_mem hp
      exact ⟨item, hmem, hid, r.1, hproves⟩
    . intro ⟨hnodup, hall⟩
      have hex : ∀ p ∈ held, ∃ r : RevokeStatement × Uuid, r.2 = p.2 ∧ ∃ item ∈ items,
          item.pairId = p.1 ∧ item.Proves crypto caller key nowMs r.1 := by
        intro p hp
        have ⟨item, hmem, hid, s, hproves⟩ := hall p hp
        exact ⟨(s, p.2), rfl, item, hmem, hid, hproves⟩
      have ⟨signed, hsigned⟩ := List.exists_forall₂_of_forall hex
      exact ⟨signed, verifyRevocations_eq_ok_iff.mpr ⟨hnodup, hsigned⟩⟩
  . intro signed h
    exact (verifyRevocations_eq_ok_iff.mp h).2
  . intro items' h
    exact verifyRevocations_perm h held caller key nowMs
  . intro e h
    exact verifyRevocations_eq_error h

end HandLiveRelay
