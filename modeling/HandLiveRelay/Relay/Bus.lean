import HandLiveRelay.Revocation

/-!
This module contains the messages that relay instances exchange on the Redis channel
`dev:<device_id>`: the names of the channels, the messages, and their bytes, one tag byte followed
by fixed fields.
-/

namespace HandLiveRelay

/-!
The codes a connection is closed with: the device removed itself, a protocol error, replaced by a
newer connection, idle, an internal error.
-/

def closeNormal : UInt16 := 1000
def closeBadRequest : UInt16 := 4400
def closeReplaced : UInt16 := 4409
def closeIdle : UInt16 := 4411
def closeInternal : UInt16 := 4500

/--
`dev:<device_id>`
-/
def deviceChannel (deviceId : Uuid) : List UInt8 :=
  Utf8.encode ("dev:" ++ deviceId.hyphenated)

/--
The device a `dev:` channel belongs to.
-/
def channelDevice (channel : List UInt8) : Option Uuid :=
  if Utf8.encode "dev:" <+: channel then
    Uuid.tryParseAscii (channel.drop 4)
  else
    none

@[simp]
theorem channelDevice_deviceChannel (d : Uuid) : channelDevice (deviceChannel d) = some d := by
  have hdrop : (deviceChannel d).drop 4 = Utf8.encode d.hyphenated := by
    unfold deviceChannel
    rw [Utf8.encode_append]
    rfl
  unfold channelDevice
  rw [if_pos]
  . rw [hdrop]
    exact Uuid.tryParseAscii_hyphenated d
  . unfold deviceChannel
    rw [Utf8.encode_append]
    apply List.prefix_append

theorem deviceChannel_injective {d d' : Uuid} (h : deviceChannel d = deviceChannel d') : d = d' := by
  have hdevice := channelDevice_deviceChannel d
  rw [h, channelDevice_deviceChannel] at hdevice
  exact (Option.some.inj hdevice).symm

inductive BusMessage where
  /--
  A text frame, already rewritten for the receiver.
  -/
  | forwardText (source : Uuid) (text : String)
  /--
  An `HR` frame that already carries its source.
  -/
  | forwardBinary (source : Uuid) (frame : List UInt8)
  /--
  A control message of the relay, written out as it is.
  -/
  | control (text : String)
  | pairRevoked (statement : RevokeStatement)
  | pairsChanged
  /--
  A newer connection of the device opened somewhere.
  -/
  | replace (connId : Uuid)
  | close (code : UInt16)
deriving DecidableEq

namespace BusMessage

def tagText : UInt8 := 1
def tagBinary : UInt8 := 2
def tagControl : UInt8 := 3
def tagPairRevoked : UInt8 := 4
def tagPairsChanged : UInt8 := 5
def tagReplace : UInt8 := 6
def tagClose : UInt8 := 7

def pairRevokedLen : Nat := 16 + 16 + 8 + 64

def encode : BusMessage → List UInt8
  | forwardText source text => tagText :: (source.toList ++ Utf8.encode text)
  | forwardBinary source frame => tagBinary :: (source.toList ++ frame)
  | control text => tagControl :: Utf8.encode text
  | pairRevoked statement =>
    tagPairRevoked :: (statement.pairId.toList ++ statement.signer.toList
      ++ i64Bytes statement.revokedAt ++ statement.sig.toList)
  | pairsChanged => [tagPairsChanged]
  | replace connId => tagReplace :: connId.toList
  | close code => tagClose :: BigEndian.encode 2 code.toNat

def decode : List UInt8 → Option BusMessage
  | [] => none
  | tag :: rest =>
    let uuidAt := fun (pos : Nat) => Bytes.ofList? 16 ((rest.drop pos).take 16)
    if tag = tagText then do
      let source ← uuidAt 0
      let text ← Utf8.decode (rest.drop 16)
      return forwardText source text
    else if tag = tagBinary then do
      let source ← uuidAt 0
      return forwardBinary source (rest.drop 16)
    else if tag = tagControl then do
      let text ← Utf8.decode rest
      return control text
    else if tag = tagPairRevoked ∧ rest.length = pairRevokedLen then do
      let pairId ← uuidAt 0
      let signer ← uuidAt 16
      let revokedAt := i64FromBytes ((rest.drop 32).take 8)
      let sig ← Bytes.ofList? 64 (rest.drop 40)
      return pairRevoked { pairId, signer, revokedAt, sig }
    else if tag = tagPairsChanged ∧ rest = [] then
      return pairsChanged
    else if tag = tagReplace ∧ rest.length = 16 then do
      let connId ← uuidAt 0
      return replace connId
    else if tag = tagClose ∧ rest.length = 2 then
      return close (UInt16.ofNat (BigEndian.decode rest))
    else
      none

/--
The bytes a message holds in the queue of its receiver.
-/
def queuedLen : BusMessage → Nat
  | forwardText _ text | control text => text.utf8ByteSize
  | forwardBinary _ frame => frame.length
  | _ => 0

@[simp]
theorem decode_encode (m : BusMessage) : decode m.encode = some m := by
  cases m with
  | forwardText source text => simp [encode, decode]
  | forwardBinary source frame => simp [encode, decode, tagText, tagBinary]
  | control text => simp [encode, decode, tagText, tagBinary, tagControl]
  | pairRevoked statement =>
    simp [encode, decode, tagText, tagBinary, tagControl, tagPairRevoked, pairRevokedLen,
      List.drop_append]
  | pairsChanged =>
    simp [encode, decode, tagText, tagBinary, tagControl, tagPairRevoked, tagPairsChanged]
  | replace connId =>
    simp [encode, decode, tagText, tagBinary, tagControl, tagPairRevoked, tagPairsChanged,
      tagReplace]
  | close code =>
    have hcode : code.toNat < 256 ^ 2 := code.toNat_lt
    simp [encode, decode, tagText, tagBinary, tagControl, tagPairRevoked, tagPairsChanged,
      tagReplace, tagClose, BigEndian.decode_encode_of_lt hcode]

end BusMessage
end HandLiveRelay
