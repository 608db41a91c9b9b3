import HandLiveRelay.Attestation
import HandLiveRelay.Routes.Outcome

/-!
This module contains the handlers of `POST /v1/pairs` and `POST /v1/pairs/{pair_id}/revoke`.
-/

namespace HandLiveRelay.Routes.Pairs

open HandLiveRelay.Devices HandLiveRelay.Pairs

def revokeReasons : List String := ["user", "reinstall", "lost_device"]

structure PairRequest where
  pairId : Uuid
  deviceA : Uuid
  deviceB : Uuid
  createdAt : Int64
  attestation : String
  sigA : String
  sigB : String
deriving DecidableEq

/--
The decoded fields of a pair registration.
-/
structure PairFields where
  attestation : List UInt8
  sigA : Bytes 64
  sigB : Bytes 64

/--
The checks of a pair registration that need no database.
-/
def decodePairRequest (req : PairRequest) : Except ApiError PairFields :=
  if req.deviceA = req.deviceB then
    .error .badRequest
  else
    match (B64u.decode req.attestation).filter (·.length = attestationLen) with
    | none => .error .badRequest
    | some attestation => do
      let sigA ← B64u.decodeField 64 req.sigA
      let sigB ← B64u.decodeField 64 req.sigB
      return { attestation, sigA, sigB }

variable (crypto : Crypto)

/--
Everything `register` checks before it writes.
-/
def checkRegister (db : Db) (caller : Uuid) (limit : Option ApiError) (req : PairRequest)
    : Except ApiError PairFields := do
  let _ ← authenticate db caller
  checkLimit limit
  let fields ← decodePairRequest req
  if caller ≠ req.deviceA ∧ caller ≠ req.deviceB then
    .error .notPaired
  else
    match memberDevice db req.deviceA, memberDevice db req.deviceB with
    | some a, some b =>
      if a.platform ≠ .android ∨ b.platform = .android then
        .error .badRequest
      else do
        let claim := {
          pairId := req.pairId
          deviceA := req.deviceA
          deviceB := req.deviceB
          createdAtMs := req.createdAt
          attestation := fields.attestation
          sigA := fields.sigA
          sigB := fields.sigB
        }
        verifyPairClaim crypto claim a.ikSigPub b.ikSigPub
        return fields
    | _, _ => .error .deviceNotFound

def register (db : Db) (caller : Uuid) (limit : Option ApiError) (req : PairRequest) : Outcome :=
  match checkRegister crypto db caller limit req with
  | .error e => .refused db e
  | .ok fields =>
    let new : NewPair := {
      pairId := req.pairId
      deviceA := req.deviceA
      deviceB := req.deviceB
      attestation := fields.attestation
      sigA := fields.sigA
      sigB := fields.sigB
      createdAtMs := req.createdAt
    }
    match HandLiveRelay.Pairs.insert db new with
    | none => .refused db .internal
    | some (db', .created) =>
      -- both connections start routing for the new pair
      .accepted db' (.created req.createdAt)
        [.notify req.deviceA .pairsChanged, .notify req.deviceB .pairsChanged]
    | some (db', .existing stored) =>
      if stored.deviceA = req.deviceA ∧ stored.deviceB = req.deviceB
          ∧ stored.attestation = fields.attestation then
        .accepted db' (.ok stored.createdAtMs) []
      else
        .refused db' .pairExists

/--
Everything `revoke` checks before it verifies the statement: the pair and the key of the caller.
-/
def checkRevoke (db : Db) (caller : Uuid) (limit : Option ApiError) (path : String)
    (req : RevokeRequest) : Except ApiError (Uuid × Bytes 32) := do
  let _ ← authenticate db caller
  checkLimit limit
  match Uuid.parseStr path with
  | none => .error .badRequest
  | some pairId =>
    if req.reason.any (fun r => !revokeReasons.contains r) then
      .error .badRequest
    else
      match members db pairId with
      | none => .error .deviceNotFound
      | some (a, b) =>
        if a ≠ caller ∧ b ≠ caller then
          .error .notPaired
        else
          match findKey db caller with
          | none => .error .deviceNotFound
          | some key => .ok (pairId, key.ikSigPub)

def revoke (db : Db) (nowMs : Int64) (caller : Uuid) (limit : Option ApiError) (path : String)
    (req : RevokeRequest) : Outcome :=
  match checkRevoke db caller limit path req with
  | .error e => .refused db e
  | .ok (pairId, ikSigPub) =>
    let call : VerifyCall := {
      db
      pairId
      caller
      callerIkSigPub := ikSigPub
      revokedAt := req.revokedAt
      sig := req.sig
      nowMs
    }
    match call.result crypto with
    | .error e => .refused db e
    | .ok statement =>
      match HandLiveRelay.Pairs.revoke db statement with
      -- already revoked earlier: the first statement stays
      | (db', none) => { db := db', reply := .ok .noContent, actions := [], verified := [call] }
      | (db', some peer) => {
          db := db'
          reply := .ok .noContent
          actions := [.notify peer (.pairRevoked statement), .notify caller .pairsChanged]
          verified := [call]
        }

end HandLiveRelay.Routes.Pairs
