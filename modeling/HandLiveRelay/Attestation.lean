import HandLiveRelay.Lib.Except
import HandLiveRelay.Signatures

/-!
This module contains the attestation of a pair, which both of its devices sign, and the check of a
pair registration against the keys the relay has stored for the two devices.
-/

namespace HandLiveRelay

def attestationLabel : List UInt8 := Utf8.encode "HLPAIR1"

def attestationLen : Nat := 127

/--
The fields carried inside an attestation.
-/
structure Attestation where
  pairId : Uuid
  deviceA : Uuid
  deviceB : Uuid
  ikSigPubA : Bytes 32
  ikSigPubB : Bytes 32
  createdAtMs : Int64
deriving DecidableEq

namespace Attestation

/--
The canonical bytes, which are the signed message.
-/
def toBytes (a : Attestation) : List UInt8 :=
  attestationLabel ++ a.pairId.toList ++ a.deviceA.toList ++ a.deviceB.toList
    ++ a.ikSigPubA.toList ++ a.ikSigPubB.toList ++ i64Bytes a.createdAtMs

def parse (bytes : List UInt8) : Option Attestation :=
  if bytes.length ≠ attestationLen ∨ ¬ attestationLabel <+: bytes then
    none
  else do
    let rest := bytes.drop attestationLabel.length
    let uuidAt := fun (pos : Nat) => Bytes.ofList? 16 ((rest.drop pos).take 16)
    let keyAt := fun (pos : Nat) => Bytes.ofList? 32 ((rest.drop pos).take 32)
    return {
      pairId := ← uuidAt 0
      deviceA := ← uuidAt 16
      deviceB := ← uuidAt 32
      ikSigPubA := ← keyAt 48
      ikSigPubB := ← keyAt 80
      createdAtMs := i64FromBytes ((rest.drop 112).take 8)
    }

theorem toBytes_injective {a b : Attestation} (h : a.toBytes = b.toBytes) : a = b := by
  unfold toBytes at h
  have ⟨h, htime⟩ := List.append_inj' h (by simp)
  have ⟨h, hkeyB⟩ := List.append_inj' h (by simp)
  have ⟨h, hkeyA⟩ := List.append_inj' h (by simp)
  have ⟨h, hdeviceB⟩ := List.append_inj' h (by simp)
  have ⟨h, hdeviceA⟩ := List.append_inj' h (by simp)
  have ⟨_, hpair⟩ := List.append_inj' h (by simp)
  rw [Attestation.mk.injEq]
  exact ⟨Bytes.ext hpair, Bytes.ext hdeviceA, Bytes.ext hdeviceB, Bytes.ext hkeyA,
    Bytes.ext hkeyB, i64Bytes_injective htime⟩

/--
What parses as an attestation is the canonical form of its fields.
-/
theorem toBytes_of_parse {bytes : List UInt8} {a : Attestation} (h : parse bytes = some a)
    : a.toBytes = bytes := by
  unfold parse at h
  split at h
  . cases h
  . next hshape =>
    rw [not_or, not_not, not_not] at hshape
    have ⟨hlen, rest, hrest⟩ := hshape
    subst hrest
    have hlabel : attestationLabel.length = 7 := by decide
    simp only [attestationLen, List.length_append, hlabel] at hlen
    simp only [Option.bind_eq_bind, Option.bind_eq_some_iff, Bytes.ofList?_eq_some,
      List.drop_left, List.drop_zero] at h
    have ⟨pairId, hpair, deviceA, hA, deviceB, hB, keyA, hkeyA, keyB, hkeyB, heq⟩ := h
    cases heq
    unfold toBytes
    dsimp only
    rw [i64Bytes_i64FromBytes (by simp; omega), ← hpair, ← hA, ← hB, ← hkeyA, ← hkeyB]
    have hlast : (rest.drop 112).take 8 = rest.drop 112 := by
      apply List.take_of_length_le
      rw [List.length_drop]
      omega
    have happend : ∀ i j k, i + j = k → (rest.drop i).take j ++ rest.drop k = rest.drop i := by
      intro i j k hk
      rw [← hk, ← List.drop_drop]
      exact List.take_append_drop j (rest.drop i)
    simp only [List.append_assoc, hlast, happend 80 32 112 rfl, happend 48 32 80 rfl,
      happend 32 16 48 rfl, happend 16 16 32 rfl, List.take_append_drop]

theorem length_toBytes (a : Attestation) : a.toBytes.length = attestationLen := by
  have hlabel : attestationLabel.length = 7 := by decide
  simp [toBytes, attestationLen, hlabel]

theorem parse_toBytes (a : Attestation) : parse a.toBytes = some a := by
  have hsplit : a.toBytes = attestationLabel ++ (a.pairId.toList ++ (a.deviceA.toList
      ++ (a.deviceB.toList ++ (a.ikSigPubA.toList ++ (a.ikSigPubB.toList
        ++ i64Bytes a.createdAtMs))))) := by
    simp only [toBytes, List.append_assoc]
  have hlabel : attestationLabel <+: a.toBytes := by
    rw [hsplit]
    exact List.prefix_append _ _
  have htime : (i64Bytes a.createdAtMs).take 8 = i64Bytes a.createdAtMs :=
    List.take_of_length_le (by simp)
  unfold parse
  rw [if_neg (by simp [length_toBytes, hlabel]), hsplit]
  simp [List.drop_append, Bytes.drop_toList, htime]

/--
The attestations are exactly the canonical forms.
-/
theorem parse_eq_some_iff {bytes : List UInt8} {a : Attestation}
    : parse bytes = some a ↔ bytes = a.toBytes := by
  constructor
  . intro h
    exact (toBytes_of_parse h).symm
  . intro h
    rw [h, parse_toBytes]

end Attestation

/--
What the body of a registration claims, next to the bytes of the attestation.
-/
structure PairClaim where
  pairId : Uuid
  deviceA : Uuid
  deviceB : Uuid
  createdAtMs : Int64
  attestation : List UInt8
  sigA : Bytes 64
  sigB : Bytes 64

/--
The attestation of what the body claims, with a key for each of the devices.
-/
def PairClaim.attested (claim : PairClaim) (keyA keyB : Bytes 32) : Attestation where
  pairId := claim.pairId
  deviceA := claim.deviceA
  deviceB := claim.deviceB
  ikSigPubA := keyA
  ikSigPubB := keyB
  createdAtMs := claim.createdAtMs

variable (crypto : Crypto)

/--
Check a pair registration against the keys stored for both devices.
-/
def verifyPairClaim (claim : PairClaim) (storedKeyA storedKeyB : Bytes 32)
    : Except ApiError Unit :=
  match Attestation.parse claim.attestation with
  | none => .error .badRequest
  | some parsed =>
    if parsed.pairId ≠ claim.pairId ∨ parsed.deviceA ≠ claim.deviceA
        ∨ parsed.deviceB ≠ claim.deviceB ∨ parsed.createdAtMs ≠ claim.createdAtMs then
      .error .badRequest
    else if parsed.ikSigPubA ≠ storedKeyA ∨ parsed.ikSigPubB ≠ storedKeyB then
      .error .signatureInvalid
    else do
      verifyDeviceSignature crypto claim.deviceA storedKeyA claim.attestation claim.sigA
      verifyDeviceSignature crypto claim.deviceB storedKeyB claim.attestation claim.sigB

variable {crypto}

/--
A registration that passes repeats the attestation, which holds the stored keys and is signed with
both of them.
-/
theorem verifyPairClaim_eq_ok {claim : PairClaim} {keyA keyB : Bytes 32}
    (h : verifyPairClaim crypto claim keyA keyB = .ok ())
    : claim.attestation = Attestation.toBytes {
          pairId := claim.pairId
          deviceA := claim.deviceA
          deviceB := claim.deviceB
          ikSigPubA := keyA
          ikSigPubB := keyB
          createdAtMs := claim.createdAtMs
        }
      ∧ SignedBy crypto claim.deviceA keyA claim.attestation claim.sigA
      ∧ SignedBy crypto claim.deviceB keyB claim.attestation claim.sigB := by
  unfold verifyPairClaim at h
  split at h
  . cases h
  . next parsed hparse =>
    split at h
    . cases h
    . next hbody =>
      split at h
      . cases h
      . next hkeys =>
        simp only [not_or, not_not] at hbody hkeys
        have ⟨hpair, hA, hB, htime⟩ := hbody
        have ⟨hkeyA, hkeyB⟩ := hkeys
        have ⟨_, hsigA, hsigB⟩ := Except.bind_eq_ok.mp h
        refine ⟨?_, verifyDeviceSignature_eq_ok.mp hsigA, verifyDeviceSignature_eq_ok.mp hsigB⟩
        rw [← Attestation.toBytes_of_parse hparse, ← hpair, ← hA, ← hB, ← htime, ← hkeyA, ← hkeyB]

/--
With a canonical attestation of the claim only the keys and the signatures are left to check.
-/
theorem verifyPairClaim_of_canonical {claim : PairClaim} {keyA keyB keyA' keyB' : Bytes 32}
    (h : claim.attestation = (claim.attested keyA' keyB').toBytes)
    : verifyPairClaim crypto claim keyA keyB =
        if keyA' ≠ keyA ∨ keyB' ≠ keyB then
          .error .signatureInvalid
        else (do
          verifyDeviceSignature crypto claim.deviceA keyA claim.attestation claim.sigA
          verifyDeviceSignature crypto claim.deviceB keyB claim.attestation claim.sigB) := by
  have hparse := Attestation.parse_eq_some_iff.mpr h
  unfold verifyPairClaim
  rw [hparse]
  dsimp only [PairClaim.attested]
  rw [if_neg (by simp)]

theorem verifyPairClaim_of_not_canonical {claim : PairClaim} {keyA keyB : Bytes 32}
    (h : ¬ ∃ keyA keyB, claim.attestation = (claim.attested keyA keyB).toBytes)
    : verifyPairClaim crypto claim keyA keyB = .error .badRequest := by
  unfold verifyPairClaim
  split
  . rfl
  . next parsed hparse =>
    rw [if_pos]
    -- a parsed attestation that repeats the claim is the canonical form the claim lacks
    by_contra hbody
    simp only [not_or, not_not] at hbody
    have ⟨hpair, hA, hB, htime⟩ := hbody
    apply h
    refine ⟨parsed.ikSigPubA, parsed.ikSigPubB, ?_⟩
    rw [← Attestation.toBytes_of_parse hparse, PairClaim.attested, ← hpair, ← hA, ← hB, ← htime]

/--
The claim is canonical for the stored keys and signed with both of them.
-/
structure PairClaim.Genuine (crypto : Crypto) (claim : PairClaim) (keyA keyB : Bytes 32) : Prop where
  canonical : claim.attestation = (claim.attested keyA keyB).toBytes
  signedA : SignedBy crypto claim.deviceA keyA claim.attestation claim.sigA
  signedB : SignedBy crypto claim.deviceB keyB claim.attestation claim.sigB

theorem verifyPairClaim_eq_ok_iff {claim : PairClaim} {keyA keyB : Bytes 32}
    : verifyPairClaim crypto claim keyA keyB = .ok () ↔ claim.Genuine crypto keyA keyB := by
  constructor
  . intro h
    have ⟨hcanonical, hsigA, hsigB⟩ := verifyPairClaim_eq_ok h
    exact ⟨hcanonical, hsigA, hsigB⟩
  . intro h
    rw [verifyPairClaim_of_canonical h.canonical, if_neg (by simp),
      verifyDeviceSignature_eq_ok.mpr h.signedA]
    exact verifyDeviceSignature_eq_ok.mpr h.signedB

/--
A canonical claim fails for a signature only.
-/
theorem verifyPairClaim_eq_error_of_canonical {claim : PairClaim} {keyA keyB : Bytes 32}
    {e : ApiError} (hcanonical : ∃ keyA keyB, claim.attestation = (claim.attested keyA keyB).toBytes)
    (h : verifyPairClaim crypto claim keyA keyB = .error e) : e = .signatureInvalid := by
  have ⟨keyA', keyB', hcanonical⟩ := hcanonical
  rw [verifyPairClaim_of_canonical hcanonical] at h
  split at h
  . cases h
    rfl
  . rw [Except.bind_eq_error] at h
    obtain h | ⟨_, _, h⟩ := h
    . exact verifyDeviceSignature_eq_error h
    . exact verifyDeviceSignature_eq_error h

/--
The attestations that parse are exactly the canonical ones. A claim passes exactly when it is the
canonical attestation of what it claims and of the stored keys, signed by both devices; it is a bad
request exactly when it is no canonical attestation of what it claims; and all other claims fail for
their keys or signatures.
-/
theorem pair_claim_passes_iff_canonical_and_signed
    : (∀ bytes a, Attestation.parse bytes = some a ↔ bytes = a.toBytes)
      ∧ ∀ claim keyA keyB,
        (verifyPairClaim crypto claim keyA keyB = .ok () ↔ claim.Genuine crypto keyA keyB)
        ∧ (verifyPairClaim crypto claim keyA keyB = .error .badRequest
            ↔ ¬ ∃ keyA keyB, claim.attestation = (claim.attested keyA keyB).toBytes)
        ∧ (verifyPairClaim crypto claim keyA keyB = .error .signatureInvalid
            ↔ (∃ keyA keyB, claim.attestation = (claim.attested keyA keyB).toBytes)
              ∧ ¬ claim.Genuine crypto keyA keyB) := by
  refine ⟨fun bytes a => Attestation.parse_eq_some_iff, ?_⟩
  intro claim keyA keyB
  refine ⟨verifyPairClaim_eq_ok_iff, ?_⟩
  rw [← verifyPairClaim_eq_ok_iff]
  by_cases hcanonical : ∃ keyA keyB, claim.attestation = (claim.attested keyA keyB).toBytes
  . cases h : verifyPairClaim crypto claim keyA keyB with
    | ok _ => simp [hcanonical]
    | error e =>
      cases verifyPairClaim_eq_error_of_canonical hcanonical h
      simp [hcanonical]
  . rw [verifyPairClaim_of_not_canonical hcanonical]
    simp [hcanonical]

end HandLiveRelay
