import HandLiveRelay.Basic

/-!
This module contains the pending challenges in Redis, each under a key of its own that names the
device it was issued to.
-/

namespace HandLiveRelay.Challenges

def challengeTtlSecs : Int64 := 60

/--
The value of a key and when the key expires.
-/
structure Entry where
  value : String
  expiresAtMs : Int64
deriving DecidableEq

abbrev Keys := String → Option Entry

def challengeKey (deviceId : Uuid) (challenge : Bytes 32) : String :=
  "chal:" ++ deviceId.hyphenated ++ ":" ++ B64u.encode challenge.toList

/--
`SET key value EX 60`
-/
def put (keys : Keys) (nowMs : Int64) (deviceId : Uuid) (challenge : Bytes 32) : Keys :=
  Function.update keys (challengeKey deviceId challenge) (some {
    value := B64u.encode challenge.toList
    expiresAtMs := nowMs + challengeTtlSecs * 1000
  })

/--
`GETDEL key`
-/
def take (keys : Keys) (deviceId : Uuid) (challenge : Bytes 32) : Keys × Option String :=
  let key := challengeKey deviceId challenge
  (Function.update keys key none, (keys key).map (·.value))

theorem challengeKey_injective {d d' : Uuid} {c c' : Bytes 32}
    (h : challengeKey d c = challengeKey d' c') : d = d' ∧ c = c' := by
  have ⟨hdevice, h⟩ := Uuid.hyphenated_key_injective h
  refine ⟨hdevice, ?_⟩
  have hdecode := congrArg (B64u.decodeFixed 32) h
  rw [B64u.decodeFixed_encode, B64u.decodeFixed_encode] at hdecode
  exact Option.some.inj hdecode

end HandLiveRelay.Challenges
