import HandLiveRelay.Basic

/-!
This module contains the rendezvous of two devices that pair over the relay: `rv:<rv_id>` is a
Redis set of at most two devices.
-/

namespace HandLiveRelay.Rendezvous

/--
The canonical `rv_id`: base64url of exactly 16 bytes.
-/
def canonicalRvId (rvId : String) : Option String :=
  (B64u.decodeFixed 16 rvId).map fun bytes => B64u.encode bytes.toList

/--
A rendezvous set: its members, and when it expires. A set that does not exist is empty.
-/
structure RvSet where
  members : List Uuid
  expiresAt : Option Rat
deriving DecidableEq

namespace RvSet

def empty : RvSet where
  members := []
  expiresAt := none

/--
`SADD`. Says whether the device was added.
-/
def sadd (set : RvSet) (deviceId : Uuid) : RvSet × Bool :=
  if deviceId ∈ set.members then
    (set, false)
  else
    ({ set with members := set.members ++ [deviceId] }, true)

/--
`SREM`
-/
def srem (set : RvSet) (deviceId : Uuid) : RvSet :=
  { set with members := set.members.filter (· ≠ deviceId) }

/--
`EXPIRE`, if the set has no time to live yet.
-/
def expireOnce (set : RvSet) (time : Rat) : RvSet :=
  match set.expiresAt with
  | none => { set with expiresAt := some time }
  | some _ => set

end RvSet

/--
The rendezvous sets, by `rv_id`.
-/
abbrev Sets := String → RvSet

inductive Join where
  /--
  The rendezvous already has two other members.
  -/
  | full
  /--
  `newly` is false when the device was already a member.
  -/
  | joined (newly : Bool) (members : List Uuid)
deriving DecidableEq

def rvTtlSecs : Rat := 180

/--
Add the member unless the set is full, which is found out by adding it. The time to live is set
only on creation.
-/
def joinSet (set : RvSet) (now : Rat) (deviceId : Uuid) : RvSet × Join :=
  let (set, added) := set.sadd deviceId
  if set.members.length > 2 then
    (if added then set.srem deviceId else set, .full)
  else
    let set := set.expireOnce (now + rvTtlSecs)
    (set, .joined added set.members)

def join (sets : Sets) (now : Rat) (rvId : String) (deviceId : Uuid) : Sets × Join :=
  let (set, joined) := joinSet (sets rvId) now deviceId
  (Function.update sets rvId set, joined)

/--
A set has every member once and at most two, and exists with a time to live or not at all.
-/
structure RvSet.Ok (set : RvSet) : Prop where
  nodup : set.members.Nodup
  length : set.members.length ≤ 2
  expires : set.members = [] ↔ set.expiresAt = none

theorem RvSet.ok_empty : RvSet.empty.Ok where
  nodup := List.nodup_nil
  length := Nat.zero_le 2
  expires := ⟨fun _ => rfl, fun _ => rfl⟩

/--
What becomes of a set that a device joins, and what it is told.
-/
inductive JoinCase (set : RvSet) (now : Rat) (d : Uuid) : RvSet × Join → Prop where
  | again (h : d ∈ set.members) : JoinCase set now d (set, .joined false set.members)
  | created (h : set.members = [])
      : JoinCase set now d (⟨[d], some (now + rvTtlSecs)⟩, .joined true [d])
  | met {other} (h : set.members = [other]) (hne : other ≠ d)
      : JoinCase set now d (⟨[other, d], set.expiresAt⟩, .joined true [other, d])
  | full (h : d ∉ set.members) (hfull : set.members.length = 2)
      : JoinCase set now d (set, .full)

theorem joinSet_cases {set : RvSet} (h : set.Ok) (now : Rat) (d : Uuid)
    : JoinCase set now d (joinSet set now d) := by
  have ⟨members, expiresAt⟩ := set
  have ⟨hnodup, hlength, hexpires⟩ := h
  dsimp only at hnodup hlength hexpires
  by_cases hd : d ∈ members
  . have hsome : ∃ time, expiresAt = some time := by
      rw [← Option.ne_none_iff_exists', ne_eq, ← hexpires]
      rintro rfl
      cases hd
    have ⟨time, hsome⟩ := hsome
    subst hsome
    have hjoin : joinSet ⟨members, some time⟩ now d
        = (⟨members, some time⟩, .joined false members) := by
      simp only [joinSet, RvSet.sadd, hd, if_true, RvSet.expireOnce]
      rw [if_neg (by omega)]
    rw [hjoin]
    exact .again hd
  . match members, hd, hlength, hexpires with
    | [], _, _, hexpires =>
      have hnone := hexpires.mp rfl
      subst hnone
      exact .created rfl
    | [other], hd, _, hexpires =>
      have hne : other ≠ d := by
        rintro rfl
        exact hd List.mem_cons_self
      cases hsome : expiresAt with
      | none => exact absurd (hexpires.mpr hsome) (by simp)
      | some time =>
        have hjoin : joinSet ⟨[other], some time⟩ now d
            = (⟨[other, d], some time⟩, .joined true [other, d]) := by
          simp [joinSet, RvSet.sadd, hne.symm, RvSet.expireOnce]
        rw [hjoin]
        exact .met rfl hne
    | [a, b], hd, _, _ =>
      have hjoin : joinSet ⟨[a, b], expiresAt⟩ now d = (⟨[a, b], expiresAt⟩, .full) := by
        simp only [List.mem_cons, List.not_mem_nil, or_false, not_or] at hd
        simp [joinSet, RvSet.sadd, RvSet.srem, hd.1, hd.2, Ne.symm hd.1, Ne.symm hd.2]
      rw [hjoin]
      exact .full hd rfl

/--
Whoever joins keeps the set in order.
-/
theorem joinSet_ok {set : RvSet} (h : set.Ok) (now : Rat) (d : Uuid) : (joinSet set now d).1.Ok := by
  have hcases := joinSet_cases h now d
  generalize joinSet set now d = res at hcases
  cases hcases with
  | again _ => exact h
  | created _ => exact ⟨by simp, by simp, by simp⟩
  | met hother hne =>
    refine ⟨by simp [hne], by simp, ?_⟩
    have hexpires := h.expires
    simp only [hother, List.cons_ne_nil, false_iff] at hexpires
    simp [hexpires]
  | full _ _ => exact h

/--
The digits of standard base64: `A`-`Z`, `a`-`z`, `0`-`9`, `+` and `/`.
-/
def standard : Base64.Alphabet where
  digit v :=
    if v < 26 then Char.ofNat (65 + v)
    else if v < 52 then Char.ofNat (71 + v)
    else if v < 62 then Char.ofNat (v - 4)
    else if v = 62 then '+'
    else '/'
  value? c :=
    if 65 ≤ c.toNat ∧ c.toNat ≤ 90 then some (c.toNat - 65)
    else if 97 ≤ c.toNat ∧ c.toNat ≤ 122 then some (c.toNat - 71)
    else if 48 ≤ c.toNat ∧ c.toNat ≤ 57 then some (c.toNat + 4)
    else if c = '+' then some 62
    else if c = '/' then some 63
    else none
  value?_digit := by decide

/--
What is read of a rendezvous envelope.
-/
structure EnvHead where
  kind : String
  payload : Option String

structure PairDataHead where
  mode : Option String

/--
What is read of the payload of a `pair` envelope.
-/
structure PairPayloadHead where
  op : String
  data : Option PairDataHead

/--
The relay forwards only `pair` envelopes, and never a `hello` in PIN mode. The two parsers are
the ones `serde_json` provides for the envelope and for its payload.
-/
def rendezvousAllows (parseEnvHead : String → Option EnvHead)
    (parsePairPayloadHead : List UInt8 → Option PairPayloadHead) (env : String) : Bool :=
  match parseEnvHead env with
  | none => false
  | some head =>
    if head.kind ≠ "pair" then
      false
    else
      let plain := head.payload.bind fun p =>
        Base64.decodePadded standard (Utf8.latin1 (Utf8.encode p))
      !(plain.bind parsePairPayloadHead).any fun p =>
        p.op = "hello" ∧ p.data.bind (·.mode) = some "pin"

end HandLiveRelay.Rendezvous
