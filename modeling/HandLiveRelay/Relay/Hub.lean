import HandLiveRelay.Relay.Connection

/-!
This module contains an instance of the relay: its registry of connections, the queues in front of
them, and its bus task, which owns the pub/sub connection to Redis.
-/

namespace HandLiveRelay

/--
The queue of a connection. `queued` counts the bytes waiting in it, and over the limit the
connection is told to end through `kill`. The queue is hung up when its last sender is gone.
-/
structure Mailbox where
  queue : List Delivery
  queued : Nat
  kill : Bool
  sender : Bool

namespace Mailbox

def new : Mailbox where
  queue := []
  queued := 0
  kill := false
  sender := true

def push (b : Mailbox) (d : Delivery) : Mailbox :=
  { b with queue := b.queue ++ [d] }

/--
Hand over a published message, unless the bytes waiting exceed the limit. `received` says whether
the connection still has its end of the queue.
-/
def dispatch (b : Mailbox) (maxQueuedBytes : Nat) (received : Bool) (msg : BusMessage) : Mailbox :=
  let queued := b.queued + msg.queuedLen
  if queued > maxQueuedBytes then
    { b with queued, kill := true }
  else if received then
    { b with queued, queue := b.queue ++ [.bus msg] }
  else
    b

end Mailbox

/--
What connections ask of the bus task.
-/
inductive BusRequest where
  | subscribe (deviceId connId : Uuid)
  | unsubscribe (deviceId : Uuid)
deriving DecidableEq

-- channels are compared byte by byte
instance instLawfulBEqChannel : LawfulBEq (List UInt8) := inferInstance

/--
A message as it comes from Redis.
-/
structure Packet where
  channel : List UInt8
  payload : List UInt8
deriving DecidableEq

/--
What the bus task is waiting for: its requests and its stream, the answer to an `UNSUBSCRIBE`, a
new pub/sub connection, or the subscriptions on that one.
-/
inductive BusPhase where
  | idle
  | unsubscribing (deviceId : Uuid)
  | reconnecting
  | resubscribing (todo : List Uuid)
deriving DecidableEq

/--
An instance of the relay. `channels` is what its pub/sub connection is subscribed to in Redis and
`stream` what that connection has delivered, `subscribed` is what the bus task knows of it.
-/
structure Instance where
  registry : AList (fun _ : Uuid => Uuid)
  requests : List BusRequest
  phase : BusPhase
  subscribed : List Uuid
  connected : Bool
  channels : List (List UInt8)
  stream : List Packet

namespace Instance

def new : Instance where
  registry := ∅
  requests := []
  phase := .idle
  subscribed := []
  connected := true
  channels := []
  stream := []

/--
The connection currently serving a device.
-/
def current (i : Instance) (deviceId : Uuid) : Option Uuid :=
  i.registry.lookup deviceId

def isRegistered (i : Instance) (deviceId : Uuid) : Bool :=
  (i.current deviceId).isSome

def registeredDevices (i : Instance) : List Uuid :=
  i.registry.keys

def register (i : Instance) (deviceId connId : Uuid) : Instance :=
  { i with registry := i.registry.insert deviceId connId }

/--
Forget the connection of a device.
-/
def unregister (i : Instance) (deviceId : Uuid) : Instance :=
  { i with registry := i.registry.erase deviceId }

def request (i : Instance) (r : BusRequest) : Instance :=
  { i with requests := i.requests ++ [r] }

/--
What Redis delivers to an instance that is subscribed to the channel.
-/
def deliver (i : Instance) (p : Packet) : Instance :=
  if p.channel ∈ i.channels then
    { i with stream := i.stream ++ [p] }
  else
    i

def subscribe (i : Instance) (deviceId : Uuid) : Instance :=
  { i with
    channels := i.channels.insert (deviceChannel deviceId)
    subscribed := i.subscribed.insert deviceId }

@[simp]
theorem current_register_self (i : Instance) (d c : Uuid)
    : (i.register d c).current d = some c := by
  simp [current, register]

theorem current_register_ne (i : Instance) {d d' : Uuid} (c : Uuid) (h : d' ≠ d)
    : (i.register d c).current d' = i.current d' := by
  simp [current, register, AList.lookup_insert_ne h]

@[simp]
theorem current_unregister_self (i : Instance) (d : Uuid)
    : (i.unregister d).current d = none := by
  simp [current, unregister]

theorem current_unregister_ne (i : Instance) {d d' : Uuid} (h : d' ≠ d)
    : (i.unregister d).current d' = i.current d' := by
  simp [current, unregister, AList.lookup_erase_ne h]

end Instance
end HandLiveRelay
