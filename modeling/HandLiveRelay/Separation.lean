import HandLiveRelay.Attestation

/-!
This module contains the four messages that a device signs with its one key, and that no two of
them share their bytes: neither across the kinds, whose labels differ in the first five bytes, nor
within one kind.
-/

namespace HandLiveRelay

/--
A message that a device signs.
-/
inductive SignedMessage where
  | registration (deviceId : Uuid) (ikSigPub : Bytes 32) (platform : String) (tsMs : Int64)
  | auth (challenge : Bytes 32) (deviceId : Uuid)
  | revoke (pairId signer : Uuid) (revokedAtMs : UInt64)
  | pair (attestation : Attestation)

namespace SignedMessage

def bytes : SignedMessage → List UInt8
  | registration deviceId ikSigPub platform tsMs =>
    registrationMessage deviceId ikSigPub platform tsMs
  | auth challenge deviceId => authMessage challenge deviceId
  | revoke pairId signer revokedAtMs => revokeMessage pairId signer revokedAtMs
  | pair attestation => attestation.toBytes

def label : SignedMessage → List UInt8
  | registration .. => registerLabel
  | auth .. => authLabel
  | revoke .. => revokeLabel
  | pair _ => attestationLabel

theorem label_prefix_bytes (m : SignedMessage) : m.label <+: m.bytes := by
  cases m with
  | registration deviceId ikSigPub platform tsMs =>
    simp only [label, bytes, registrationMessage, List.append_assoc, List.prefix_append]
  | auth challenge deviceId =>
    simp only [label, bytes, authMessage, List.append_assoc, List.prefix_append]
  | revoke pairId signer revokedAtMs =>
    simp only [label, bytes, revokeMessage, List.append_assoc, List.prefix_append]
  | pair attestation =>
    simp only [label, bytes, Attestation.toBytes, List.append_assoc, List.prefix_append]

theorem take_bytes (m : SignedMessage) : m.bytes.take 5 = m.label.take 5 := by
  have ⟨rest, hrest⟩ := m.label_prefix_bytes
  have hlen : 5 ≤ m.label.length := by
    cases m <;> dsimp only [label] <;> decide
  rw [← hrest, List.take_append_of_le_length hlen]

end SignedMessage

theorem registrationMessage_injective {d d' : Uuid} {key key' : Bytes 32}
    {platform platform' : String} {ts ts' : Int64}
    (h : registrationMessage d key platform ts = registrationMessage d' key' platform' ts')
    : d = d' ∧ key = key' ∧ platform = platform' ∧ ts = ts' := by
  unfold registrationMessage at h
  simp only [List.append_assoc] at h
  have ⟨_, h⟩ := List.append_inj h rfl
  have ⟨hd, h⟩ := List.append_inj h (by simp)
  have ⟨hkey, h⟩ := List.append_inj h (by simp)
  -- the text is what is left before the last eight bytes
  have ⟨hplatform, hts⟩ := List.append_inj' h (by simp)
  exact ⟨Bytes.ext hd, Bytes.ext hkey, Utf8.encode_injective hplatform, i64Bytes_injective hts⟩

theorem authMessage_injective {challenge challenge' : Bytes 32} {d d' : Uuid}
    (h : authMessage challenge d = authMessage challenge' d') : challenge = challenge' ∧ d = d' := by
  unfold authMessage at h
  have ⟨h, hd⟩ := List.append_inj' h (by simp)
  have ⟨_, hchallenge⟩ := List.append_inj h rfl
  exact ⟨Bytes.ext hchallenge, Bytes.ext hd⟩

theorem revokeMessage_injective {pairId pairId' signer signer' : Uuid} {ms ms' : UInt64}
    (h : revokeMessage pairId signer ms = revokeMessage pairId' signer' ms')
    : pairId = pairId' ∧ signer = signer' ∧ ms = ms' := by
  unfold revokeMessage at h
  have ⟨h, hms⟩ := List.append_inj' h (by simp)
  have ⟨h, hsigner⟩ := List.append_inj' h (by simp)
  have ⟨_, hpair⟩ := List.append_inj h rfl
  refine ⟨Bytes.ext hpair, Bytes.ext hsigner, ?_⟩
  rw [← UInt64.toNat_inj]
  have hdecode := congrArg BigEndian.decode hms
  rwa [BigEndian.decode_encode_of_lt ms.toNat_lt, BigEndian.decode_encode_of_lt ms'.toNat_lt]
    at hdecode

/--
Two signed messages with the same bytes are of the same kind and agree in all their fields.
-/
theorem signed_messages_are_separated : Function.Injective SignedMessage.bytes := by
  intro m m' h
  have htake : m.label.take 5 = m'.label.take 5 := by
    rw [← m.take_bytes, ← m'.take_bytes, h]
  cases m with
  | registration d key platform ts =>
    cases m' with
    | registration d' key' platform' ts' =>
      have ⟨hd, hkey, hplatform, hts⟩ := registrationMessage_injective h
      rw [hd, hkey, hplatform, hts]
    | _ =>
      dsimp only [SignedMessage.label] at htake
      exact absurd htake (by decide)
  | auth challenge d =>
    cases m' with
    | auth challenge' d' =>
      have ⟨hchallenge, hd⟩ := authMessage_injective h
      rw [hchallenge, hd]
    | _ =>
      dsimp only [SignedMessage.label] at htake
      exact absurd htake (by decide)
  | revoke pairId signer ms =>
    cases m' with
    | revoke pairId' signer' ms' =>
      have ⟨hpair, hsigner, hms⟩ := revokeMessage_injective h
      rw [hpair, hsigner, hms]
    | _ =>
      dsimp only [SignedMessage.label] at htake
      exact absurd htake (by decide)
  | pair a =>
    cases m' with
    | pair a' => rw [Attestation.toBytes_injective h]
    | _ =>
      dsimp only [SignedMessage.label] at htake
      exact absurd htake (by decide)

end HandLiveRelay
