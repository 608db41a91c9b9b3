import HandLiveRelay.Lib.Json
import HandLiveRelay.Revocation

/-!
This module contains the formats on the socket of a device: the frames it sends, text wrappers and
binary `HR` frames, and the texts the relay writes. Objects that `serde_json` prints have their
keys in alphabetical order.
-/

namespace HandLiveRelay.Wire

/--
The largest frame the relay forwards.
-/
def maxFrameBytes : Nat := 256 * 1024

def hrMagic : List UInt8 := [0x48, 0x52]

def hrVersion : UInt8 := 0x01

def hrOpForward : UInt8 := 0x01

def hrHeaderLen : Nat := 20

/--
A text frame from a device: a routing wrapper or a control message. `env` is the raw text of its
value.
-/
structure Inbound where
  op : Option String
  dest : Option Uuid
  env : Option String
  rvId : Option String

/--
A `device_id` is a UUIDv8.
-/
def isDeviceId (id : Uuid) : Bool :=
  id.toList.getD 6 0 >>> 4 = 8 ∧ id.toList.getD 8 0 &&& 0xc0 = 0x80

/--
The white space that Unicode defines.
-/
def isWhitespace (c : Char) : Bool :=
  let n := c.toNat
  (9 ≤ n ∧ n ≤ 13) ∨ n = 0x20 ∨ n = 0x85 ∨ n = 0xa0 ∨ n = 0x1680 ∨ (0x2000 ≤ n ∧ n ≤ 0x200a)
    ∨ n = 0x2028 ∨ n = 0x2029 ∨ n = 0x202f ∨ n = 0x205f ∨ n = 0x3000

/--
The raw JSON value is an object.
-/
def isObject (raw : String) : Bool :=
  (raw.toList.dropWhile isWhitespace).head? = some '\x7b'

/--
The wrapper for the receiver, with `env` copied verbatim.
-/
def forwardedText (source : Uuid) (env : String) : String :=
  "\x7b\"from\":\"" ++ source.hyphenated ++ "\",\"env\":" ++ env ++ "\x7d"

/--
The destination of an `HR` frame, or `none` for a malformed header.
-/
def parseHr (frame : List UInt8) : Option Uuid :=
  if frame.length ≤ hrHeaderLen ∨ frame.take 2 ≠ hrMagic ∨ frame[2]? ≠ some hrVersion
      ∨ frame[3]? ≠ some hrOpForward then
    none
  else
    Bytes.ofList? 16 ((frame.drop 4).take 16)

/--
The same frame with the destination replaced by the source.
-/
def rewriteHr (frame : List UInt8) (source : Uuid) : List UInt8 :=
  frame.take 4 ++ source.toList ++ frame.drop hrHeaderLen

inductive RelayError where
  | notPaired
  | notConnected
  | payloadTooLarge
  | badRequest
deriving Repr, DecidableEq

namespace RelayError

def code : RelayError → String
  | notPaired => "NOT_PAIRED"
  | notConnected => "NOT_CONNECTED"
  | payloadTooLarge => "PAYLOAD_TOO_LARGE"
  | badRequest => "BAD_REQUEST"

def message : RelayError → String
  | notPaired => "Destination is not paired with this device"
  | notConnected => "Destination is not connected"
  | payloadTooLarge => "Frame exceeds 256 KiB"
  | badRequest => "Malformed frame"

end RelayError

def errorMessage (err : RelayError) (dest : Option Uuid) : String :=
  "\x7b\"code\":\"" ++ err.code ++ "\",\"message\":\"" ++ err.message ++ "\",\"op\":\"error\""
    ++ (match dest with
      | some dest => ",\"to\":\"" ++ dest.hyphenated ++ "\""
      | none => "")
    ++ "\x7d"

def boolText (b : Bool) : String :=
  if b then "true" else "false"

def presenceMessage (pairId peerDeviceId : Uuid) (online : Bool) : String :=
  "\x7b\"online\":" ++ boolText online ++ ",\"op\":\"presence\",\"pair_id\":\"" ++ pairId.hyphenated
    ++ "\",\"peer_device_id\":\"" ++ peerDeviceId.hyphenated ++ "\"\x7d"

def pairRevokedMessage (s : RevokeStatement) : String :=
  "\x7b\"by\":\"" ++ s.signer.hyphenated ++ "\",\"op\":\"pair_revoked\",\"pair_id\":\""
    ++ s.pairId.hyphenated ++ "\",\"revoked_at\":"
    ++ String.ofList (Decimal.encodeInt s.revokedAt.toInt) ++ ",\"sig\":\""
    ++ B64u.encode s.sig.toList ++ "\"\x7d"

def rvJoinedMessage (rvId : String) (peerPresent : Bool) : String :=
  "\x7b\"op\":\"rv_joined\",\"peer_present\":" ++ boolText peerPresent ++ ",\"rv_id\":"
    ++ Json.quote rvId ++ "\x7d"

/--
The text for the other member of a rendezvous, with `env` copied verbatim.
-/
def rvMsgMessage (rvId : String) (env : String) : String :=
  "\x7b\"op\":\"rv_msg\",\"rv_id\":" ++ Json.quote rvId ++ ",\"env\":" ++ env ++ "\x7d"

end HandLiveRelay.Wire
