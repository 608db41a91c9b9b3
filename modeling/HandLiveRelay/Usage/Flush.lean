import HandLiveRelay.Lib.Ledger
import HandLiveRelay.Lib.Pool
import HandLiveRelay.Lib.Ttl
import HandLiveRelay.Signatures

/-!
This module contains the usage counters: the tallies an instance keeps in memory, the table they
are written to under a salted hash of the device, and any number of flushes at work while counts
arrive. That no counter overflows its type is assumed, so they are natural numbers.
-/

namespace HandLiveRelay.Usage

open Fiber Ttl

@[ext]
structure Tally where
  envelopes : Nat
  bytes : Nat
  pushes : Nat
deriving DecidableEq

namespace Tally

instance : Add Tally where
  add t u := {
    envelopes := t.envelopes + u.envelopes
    bytes := t.bytes + u.bytes
    pushes := t.pushes + u.pushes
  }

instance : Zero Tally where
  zero := { envelopes := 0, bytes := 0, pushes := 0 }

@[simp]
theorem add_envelopes (t u : Tally) : (t + u).envelopes = t.envelopes + u.envelopes := rfl

@[simp]
theorem add_bytes (t u : Tally) : (t + u).bytes = t.bytes + u.bytes := rfl

@[simp]
theorem add_pushes (t u : Tally) : (t + u).pushes = t.pushes + u.pushes := rfl

@[simp]
theorem zero_envelopes : (0 : Tally).envelopes = 0 := rfl

@[simp]
theorem zero_bytes : (0 : Tally).bytes = 0 := rfl

@[simp]
theorem zero_pushes : (0 : Tally).pushes = 0 := rfl

instance : AddCommMonoid Tally where
  add_assoc t u v := by ext <;> simp [Nat.add_assoc]
  zero_add t := by ext <;> simp
  add_zero t := by ext <;> simp
  add_comm t u := by ext <;> simp [Nat.add_comm]
  nsmul := nsmulRec

end Tally

/--
The counters in memory.
-/
abbrev Tallies := Ledger Uuid Tally

def addEnvelope (tallies : Tallies) (deviceId : Uuid) (bytes : Nat) : Tallies :=
  tallies.add deviceId { envelopes := 1, bytes, pushes := 0 }

def addPush (tallies : Tallies) (deviceId : Uuid) : Tallies :=
  tallies.add deviceId { envelopes := 0, bytes := 0, pushes := 1 }

/--
Put back counters that could not be written.
-/
def restore (tallies taken : Tallies) : Tallies :=
  tallies.addAll taken.rows

/--
SHA-256 of the device and the salt.
-/
def deviceHash (crypto : Crypto) (deviceId : Uuid) (salt : List UInt8) : List UInt8 :=
  (crypto.sha256 (deviceId.toList ++ salt)).toList

/-!
The table `usage_daily`, with one row per day and hash.
-/

abbrev UsageDaily := Ledger (Int × List UInt8) Tally

abbrev UsageRow := List UInt8 × Tally

/--
Add a batch to the rows of a day. The statement is refused, and changes nothing, if it would write
one row twice.
-/
def addBatch (daily : UsageDaily) (today : Int) (rows : List UsageRow) : Option UsageDaily :=
  if (rows.map Prod.fst).Nodup then
    some (daily.addAll (rows.map fun (hash, t) => ((today, hash), t)))
  else
    none

/-!
The salt of a month.
-/

def saltTtlSecs : Int := 40 * 24 * 3600

/--
Year and month of a time in milliseconds.
-/
def yearMonth (nowMs : Int) : Int × Int :=
  let z := nowMs / 86400000 + 719468
  let era := z / 146097
  let doe := z - era * 146097
  let yoe := (doe - doe / 1460 + doe / 36524 - doe / 146096) / 365
  let doy := doe - (365 * yoe + yoe / 4 - yoe / 100)
  let mp := (5 * doy + 2) / 153
  let month := if mp < 10 then mp + 3 else mp - 9
  (yoe + era * 400 + if month ≤ 2 then 1 else 0, month)

/--
A number with zeros in front of it up to a width, the sign included.
-/
def zeroPadded (width : Nat) (v : Int) : List Char :=
  let sign := if v < 0 then ['-'] else []
  let digits := Nat.toDigits 10 v.natAbs
  sign ++ List.replicate (width - sign.length - digits.length) '0' ++ digits

/--
`usage_salt:<YYYY-MM>`
-/
def saltKey (nowMs : Int) : String :=
  let (year, month) := yearMonth nowMs
  "usage_salt:" ++ String.ofList (zeroPadded 4 year ++ '-' :: zeroPadded 2 month)

example : saltKey 951782400000 = "usage_salt:2000-02" := by decide +kernel

/-!
The flush.
-/

/--
The operations of a flush. The salt and the batch may fail.
-/
inductive UsageOp where
  | take
  | monthlySalt
  | addBatch (rows : List UsageRow)
  | restore (taken : Tallies)

def UsageOp.Res : UsageOp → Type
  | take => Tallies
  | monthlySalt => Option (List UInt8)
  | addBatch _ => Option Unit
  | restore _ => Unit

/--
Why a flush failed.
-/
inductive FlushError where
  | salt
  | usageDaily
deriving DecidableEq

abbrev FlushCode := Code Unit UsageOp UsageOp.Res (Except FlushError Nat)

def call (o : UsageOp) (k : o.Res → FlushCode) : FlushCode :=
  Code.perform o >>= k

def answer (r : Except FlushError Nat) : FlushCode :=
  pure r

variable (crypto : Crypto)

/--
The rows of a batch, one per device.
-/
def usageRows (salt : List UInt8) (taken : Tallies) : List UsageRow :=
  taken.rows.map fun (id, t) => (deviceHash crypto id salt, t)

/--
Write the counters to the table. On failure they are kept for the next attempt. Returns the number
of devices written.
-/
def flush : FlushCode :=
  call .take fun (taken : Tallies) =>
    if taken.rows.isEmpty then
      answer (.ok 0)
    else
      call .monthlySalt fun
      | none => call (.restore taken) fun _ => answer (.error .salt)
      | some salt =>
        let rows := usageRows crypto salt taken
        call (.addBatch rows) fun
        | none => call (.restore taken) fun _ => answer (.error .usageDaily)
        | some () => answer (.ok rows.length)

/--
The counters of an instance, the table, and the salts in Redis, with the clocks of the three.
-/
structure UsageWorld where
  tallies : Tallies
  daily : UsageDaily
  today : Int
  salts : Keyspace String (List UInt8)
  redisMs : Int
  nowMs : Int

/--
What the surroundings choose for an operation: it is done, fails, or draws a fresh salt.
-/
inductive Choice where
  | ok
  | fail
  | fresh (salt : Bytes 32)

namespace UsageWorld

/--
`SET NX EX` with a fresh salt, then `GET`.
-/
def monthlySalt (w : UsageWorld) (fresh : Bytes 32) : UsageWorld × Option (List UInt8) :=
  let key := saltKey w.nowMs
  let salts := (w.salts.setNx w.redisMs key fresh.toList (saltTtlSecs * 1000)).1
  ({ w with salts }, salts.get? w.redisMs key)

def perform (w : UsageWorld) : (o : UsageOp) → Choice → Option (UsageWorld × o.Res)
  | .take, .ok => some ({ w with tallies := .empty }, w.tallies)
  | .monthlySalt, .fresh salt => some (w.monthlySalt salt)
  | .monthlySalt, .fail => some (w, none)
  | .addBatch rows, .ok =>
    match addBatch w.daily w.today rows with
    | some daily => some ({ w with daily }, some ())
    | none => some (w, none)
  | .addBatch _, .fail => some (w, none)
  | .restore taken, .ok => some ({ w with tallies := restore w.tallies taken }, ())
  | _, _ => none

end UsageWorld

/--
What happens next to the flushes: an envelope or a push is counted, the clocks go on.
-/
inductive UsageEvent where
  | addEnvelope (deviceId : Uuid) (bytes : Nat)
  | addPush (deviceId : Uuid)
  | clocks (today redisMs nowMs : Int)

def UsageWorld.happen (w : UsageWorld) : UsageEvent → Option UsageWorld
  | .addEnvelope deviceId bytes =>
    some { w with tallies := Usage.addEnvelope w.tallies deviceId bytes }
  | .addPush deviceId => some { w with tallies := Usage.addPush w.tallies deviceId }
  | .clocks today redisMs nowMs => some { w with today, redisMs, nowMs }

/--
Any number of flushes.
-/
def server : Server UsageWorld Unit Choice UsageEvent UsageOp UsageOp.Res (Except FlushError Nat)
    where
  code _ := flush crypto
  perform := UsageWorld.perform
  happen := UsageWorld.happen

abbrev UsagePool := Pool UsageWorld Unit UsageOp UsageOp.Res (Except FlushError Nat)

abbrev UsageLabel := Pool.Label Unit Choice UsageEvent

abbrev runUsage (w : UsageWorld) (ls : List UsageLabel) : Option UsagePool :=
  Lts.run (Pool.step (server crypto)) (Pool.init w) ls

end HandLiveRelay.Usage
