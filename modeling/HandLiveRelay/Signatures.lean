import HandLiveRelay.Basic

/-!
This module contains the identity of a device, which is derived from its public key, and the signed
messages a device presents to the relay.
-/

namespace HandLiveRelay

/--
The cryptographic functions the relay calls: SHA-256, the point check of an Ed25519 public key and
strict Ed25519 verification. The development holds for every choice of them.
-/
structure Crypto where
  sha256 : List UInt8 → Bytes 32
  validKey : Bytes 32 → Bool
  verifyStrict : Bytes 32 → List UInt8 → Bytes 64 → Bool

namespace Crypto

/--
The signature of `sample`: the key, followed by the sum of the message.
-/
def sampleSign (key : Bytes 32) (message : List UInt8) : Bytes 64 where
  toList := key.toList ++ List.replicate 32 (UInt8.ofNat (message.map UInt8.toNat).sum)
  length_toList := by simp

/--
Functions simple enough to compute runs with.
-/
def sample : Crypto where
  sha256 l := ⟨(l ++ List.replicate 32 0).take 32, by simp⟩
  validKey _ := true
  verifyStrict key message sig := sig = sampleSign key message

end Crypto

variable (crypto : Crypto)

/--
The `device_id` of a public key: the first 16 bytes of its hash as a UUIDv8.
-/
def deviceIdFromPublicKey (ikSigPub : Bytes 32) : Uuid where
  toList :=
    let bytes := (crypto.sha256 ikSigPub.toList).toList.take 16
    let bytes := bytes.modify 6 (fun b => b &&& 0x0f ||| 0x80)
    bytes.modify 8 (fun b => b &&& 0x3f ||| 0x80)
  length_toList := by simp

def matchesPublicKey (deviceId : Uuid) (ikSigPub : Bytes 32) : Bool :=
  deviceIdFromPublicKey crypto ikSigPub = deviceId

def registerLabel : List UInt8 := Utf8.encode "HLREG1"

def authLabel : List UInt8 := Utf8.encode "HLAUTH1"

def revokeLabel : List UInt8 := Utf8.encode "HLREVOKE1"

/--
The big-endian bytes of a signed 64 bit number.
-/
def i64Bytes (v : Int64) : List UInt8 :=
  BigEndian.encode 8 v.toUInt64.toNat

def i64FromBytes (l : List UInt8) : Int64 :=
  (UInt64.ofNat (BigEndian.decode l)).toInt64

@[simp]
theorem length_i64Bytes (v : Int64) : (i64Bytes v).length = 8 := by
  simp [i64Bytes]

@[simp]
theorem i64FromBytes_i64Bytes (v : Int64) : i64FromBytes (i64Bytes v) = v := by
  unfold i64FromBytes i64Bytes
  rw [BigEndian.decode_encode_of_lt v.toUInt64.toNat_lt]
  simp

theorem i64Bytes_injective {v v' : Int64} (h : i64Bytes v = i64Bytes v') : v = v' := by
  rw [← i64FromBytes_i64Bytes v, h, i64FromBytes_i64Bytes]

theorem i64Bytes_i64FromBytes {l : List UInt8} (h : l.length = 8) : i64Bytes (i64FromBytes l) = l := by
  unfold i64FromBytes i64Bytes
  have hencode := BigEndian.encode_decode l
  have hlt : BigEndian.decode l < 2 ^ 64 := by
    have hlt := BigEndian.decode_lt l
    rw [h] at hlt
    omega
  rw [h] at hencode
  simp only [UInt64.toUInt64_toInt64, UInt64.toNat_ofNat']
  rw [Nat.mod_eq_of_lt hlt, hencode]

def registrationMessage (deviceId : Uuid) (ikSigPub : Bytes 32) (platform : String) (tsMs : Int64)
    : List UInt8 :=
  registerLabel ++ deviceId.toList ++ ikSigPub.toList ++ Utf8.encode platform ++ i64Bytes tsMs

def authMessage (challenge : Bytes 32) (deviceId : Uuid) : List UInt8 :=
  authLabel ++ challenge.toList ++ deviceId.toList

def revokeMessage (pairId signer : Uuid) (revokedAtMs : UInt64) : List UInt8 :=
  revokeLabel ++ pairId.toList ++ signer.toList ++ BigEndian.encode 8 revokedAtMs.toNat

/--
Check an Ed25519 signature made by the device that owns `deviceId`.
-/
def verifyDeviceSignature (deviceId : Uuid) (ikSigPub : Bytes 32) (message : List UInt8)
    (sig : Bytes 64) : Except ApiError Unit :=
  if !matchesPublicKey crypto deviceId ikSigPub then
    .error .signatureInvalid
  else if !crypto.validKey ikSigPub then
    .error .signatureInvalid
  else if crypto.verifyStrict ikSigPub message sig then
    .ok ()
  else
    .error .signatureInvalid

/--
The device that owns `deviceId` signed the message.
-/
structure SignedBy (deviceId : Uuid) (ikSigPub : Bytes 32) (message : List UInt8)
    (sig : Bytes 64) : Prop where
  matchesKey : matchesPublicKey crypto deviceId ikSigPub = true
  validKey : crypto.validKey ikSigPub = true
  verifies : crypto.verifyStrict ikSigPub message sig = true

variable {crypto}

theorem verifyDeviceSignature_eq_ok {deviceId : Uuid} {ikSigPub : Bytes 32}
    {message : List UInt8} {sig : Bytes 64}
    : verifyDeviceSignature crypto deviceId ikSigPub message sig = .ok ()
        ↔ SignedBy crypto deviceId ikSigPub message sig := by
  unfold verifyDeviceSignature
  constructor
  . intro h
    split at h
    . cases h
    . next hmatch =>
      split at h
      . cases h
      . next hvalid =>
        split at h
        . next hverify => exact ⟨by simpa using hmatch, by simpa using hvalid, hverify⟩
        . cases h
  . intro ⟨hmatch, hvalid, hverify⟩
    simp [hmatch, hvalid, hverify]

theorem verifyDeviceSignature_eq_error {deviceId : Uuid} {ikSigPub : Bytes 32}
    {message : List UInt8} {sig : Bytes 64} {e : ApiError}
    (h : verifyDeviceSignature crypto deviceId ikSigPub message sig = .error e)
    : e = .signatureInvalid := by
  unfold verifyDeviceSignature at h
  split at h
  . cases h
    rfl
  . split at h
    . cases h
      rfl
    . split at h
      . cases h
      . cases h
        rfl

end HandLiveRelay
