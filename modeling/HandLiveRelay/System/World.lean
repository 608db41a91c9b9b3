import HandLiveRelay.Relay.Hub
import HandLiveRelay.Relay.Presence
import HandLiveRelay.Routes.Requests

/-!
This module contains the whole relay as a transition system: the database, Redis, any number of
instances and any number of connections on them, and requests to the HTTP API. A step is one
operation of one connection, one event for it, one turn of a bus task, one request, or the passing
of time, and steps of different parties interleave in any order.
-/

namespace HandLiveRelay

open Fiber

/--
What stays fixed in a run: the cryptographic functions, the JSON parsers, the running instances and
their settings.
-/
structure Env where
  crypto : Crypto
  serde : Serde
  instances : List InstanceId
  settings : InstanceId → Settings

/--
The task of a connection: the code it runs, and as a record of the run the operations it has
performed and the events it has handled, the newest ones first.
-/
structure ConnTask where
  me : Ident
  stage : Stage
  prog : Prog Conn Op Op.Res Next
  trace : Trace Conn Op Op.Res
  inputs : List Event

namespace ConnTask

/--
Go over to the cleanup when the loop has ended.
-/
def settle (t : ConnTask) : ConnTask :=
  match t.prog with
  | .done s (.finish e) =>
    { t with stage := .finishing e, prog := (Conn.finish t.me e).start s }
  | _ => t

/--
The task of a connection that has just been registered.
-/
def new (me : Ident) (previous : Option Uuid) : ConnTask :=
  settle {
    me
    stage := .opening
    prog := (Conn.start me previous).start .new
    trace := []
    inputs := []
  }

/--
Continue after an operation was answered.
-/
def resume (t : ConnTask) (s : Conn) (o : Op) (k : o.Res → Prog Conn Op Op.Res Next) (r : o.Res)
    : ConnTask :=
  settle { t with prog := k r, trace := ⟨s, o, r⟩ :: t.trace }

/--
Take an event in the state `s`.
-/
def handle (env : Env) (t : ConnTask) (s : Conn) (e : Event) : ConnTask :=
  settle { t with
    stage := .handling e
    prog := (Conn.serve (env.settings t.me.inst) env.serde t.me e).start s
    inputs := e :: t.inputs }

/--
The connection is waiting in its event loop.
-/
def serving (t : ConnTask) : Bool :=
  match t.prog with
  | .done _ .serve => true
  | _ => false

/--
The connection has neither ended nor begun to clean up.
-/
def alive (t : ConnTask) : Bool :=
  match t.stage with
  | .finishing _ => false
  | _ => true

/--
The code of the current stage is done.
-/
def idle (t : ConnTask) : Bool :=
  match t.prog with
  | .done _ _ => true
  | .wait _ _ _ => false

def ended (t : ConnTask) : Bool :=
  match t.prog with
  | .done _ .stop => true
  | _ => false

end ConnTask

structure World where
  db : Db
  /--
  The wall clock, in milliseconds.
  -/
  nowMs : Int64
  /--
  The monotonic clock, in seconds.
  -/
  now : Rat
  presence : Presence.Keys
  notices : Presence.Notices
  rv : Rendezvous.Sets
  insts : InstanceId → Instance
  conns : Uuid → Option ConnTask
  boxes : Uuid → Mailbox
  /--
  The answers to subscriptions, by connection.
  -/
  answers : Uuid → Option Bool
  /--
  What requests still have to do.
  -/
  jobs : List (List Action)
  /--
  A record of the run: the statements that were verified, and the connections in the order they
  were registered, the newest one first.
  -/
  verified : List VerifyCall
  connects : List Uuid

/--
How an interaction ends. A command to Redis or to the database may fail, or be carried out with its
answer lost. A write to the socket may find it closed or be stuck, and a wait may time out.
-/
inductive Fault where
  | ok
  | fail
  | lost
deriving DecidableEq

namespace Fault

/--
The outcome of a command that leads to `done`.
-/
def command {α : Type} (f : Fault) (w : World) (done : World × α) : World × Option α :=
  match f with
  | ok => (done.1, some done.2)
  | fail => (w, none)
  | lost => (done.1, none)

def write : Fault → Written
  | ok => .ok
  | fail => .closed
  | lost => .timeout

end Fault

namespace World

/--
Nothing runs and Redis is empty.
-/
def init (db : Db) : World where
  db := db
  nowMs := 0
  now := 0
  presence := fun _ => none
  notices := fun _ => []
  rv := fun _ => .empty
  insts := fun _ => .new
  conns := fun _ => none
  boxes := fun _ => .new
  answers := fun _ => none
  jobs := []
  verified := []
  connects := []

def modifyInst (w : World) (i : InstanceId) (f : Instance → Instance) : World :=
  { w with insts := Function.update w.insts i (f (w.insts i)) }

def modifyBox (w : World) (c : Uuid) (f : Mailbox → Mailbox) : World :=
  { w with boxes := Function.update w.boxes c (f (w.boxes c)) }

def setConn (w : World) (c : Uuid) (t : ConnTask) : World :=
  { w with conns := Function.update w.conns c (some t) }

/--
The connection still has its end of the queue.
-/
def received (w : World) (c : Uuid) : Bool :=
  (w.conns c).any (!·.ended)

/--
Publish to `dev:<device_id>`. Returns how many instances received the message.
-/
def publish (env : Env) (w : World) (dest : Uuid) (msg : BusMessage) : World × Nat :=
  let p : Packet := { channel := deviceChannel dest, payload := msg.encode }
  ({ w with insts := fun i => (w.insts i).deliver p },
    (env.instances.filter fun i => p.channel ∈ (w.insts i).channels).length)

/--
Carry out an operation of a connection. An operation that cannot fail is only done without a fault.
-/
def perform (env : Env) (w : World) (me : Ident) : (o : Op) → Fault → Option (World × o.Res)
  | .tellPrevious c, .ok =>
    let w' := w.modifyBox c fun b =>
      { (if w.received c then b.push (.bus (.replace me.connId)) else b) with sender := false }
    some (w', ())
  | .subscribe, .ok =>
    some (w.modifyInst me.inst (·.request (.subscribe me.deviceId me.connId)), ())
  | .subscribed, .ok => (w.answers me.connId).map (w, ·)
  | .subscribed, .fail => some (w, false)
  | .unregister, .ok =>
    if (w.insts me.inst).current me.deviceId = some me.connId then
      let w' := w.modifyInst me.inst (·.unregister me.deviceId)
      some (w'.modifyBox me.connId fun b => { b with sender := false }, true)
    else
      some (w, false)
  | .unsubscribe, .ok => some (w.modifyInst me.inst (·.request (.unsubscribe me.deviceId)), ())
  | .publish dest msg, f => some (f.command w (w.publish env dest msg))
  | .fetchSub len, .ok =>
    some (w.modifyBox me.connId fun b => { b with queued := b.queued - len }, ())
  | .claim, f =>
    some (f.command w ({ w with presence := Presence.claim w.presence me.deviceId me.inst }, ()))
  | .refresh, f =>
    let (presence, held) := Presence.refresh w.presence me.deviceId me.inst
    some (f.command w ({ w with presence }, held))
  | .release, f =>
    let (presence, deleted) := Presence.release w.presence me.deviceId me.inst
    some (f.command w ({ w with presence }, deleted))
  | .online devices, f => some (f.command w (w, Presence.online w.presence devices))
  | .takeRevokedNotices, f =>
    let (notices, statements) := Presence.takeRevokedNotices w.notices me.deviceId
    some (f.command w ({ w with notices }, statements))
  | .rvJoin rvId, f =>
    let (rv, joined) := Rendezvous.join w.rv w.now rvId me.deviceId
    some (f.command w ({ w with rv }, joined))
  | .rvMembers rvId, f => some (f.command w (w, (w.rv rvId).members))
  | .activePeers, f => some (f.command w (w, Pairs.activePeers w.db me.deviceId))
  | .recentlyRevoked, f =>
    some (f.command w (w, Pairs.recentlyRevoked w.db me.deviceId w.nowMs))
  | .addEnvelope _, .ok => some (w, ())
  | .now, .ok => some (w, w.now)
  | .sendText _, f => some (w, f.write)
  | .sendBinary _, f => some (w, f.write)
  | .ping, f => some (w, f.write)
  | .pong _, f => some (w, f.write)
  | .closeSocket _, _ => some (w, ())
  | _, _ => none

/--
Carry out what a request still has to do. A failure is only logged.
-/
def act (env : Env) (w : World) (f : Fault) : Action → World
  | .addRevokedNotice peer s =>
    (f.command w ({ w with notices := Presence.addRevokedNotice w.notices peer s }, ())).1
  | .notify deviceId msg => (f.command w (w.publish env deviceId msg)).1
  | .delPresence deviceId =>
    (f.command w ({ w with presence := Function.update w.presence deviceId none }, ())).1

/--
No branch of the event loop with a higher priority than the device's frames and the timers is
ready.
-/
def quiet (w : World) (c : Uuid) : Bool :=
  let b := w.boxes c
  !b.kill && b.queue.isEmpty && b.sender

def due (w : World) (s : Conn) : Bool :=
  s.pending.any fun p => decide (p.deadline ≤ w.now)

/--
The event loop of a connection in the state `s` takes the first of its branches that is ready.
-/
def ready (w : World) (c : Uuid) (s : Conn) : Event → Bool
  | .kill => (w.boxes c).kill
  | .delivery d => !(w.boxes c).kill && decide ((w.boxes c).queue.head? = some d)
  | .hungUp => !(w.boxes c).kill && (w.boxes c).queue.isEmpty && !(w.boxes c).sender
  | .deadline => w.quiet c && w.due s
  | .client _ | .clientGone | .clientError => w.quiet c && s.pending.isNone
  | .ping | .refresh => w.quiet c && !w.due s

/--
What taking an event does to the queue.
-/
def take (b : Mailbox) : Event → Mailbox
  | .kill => { b with kill := false }
  | .delivery _ => { b with queue := b.queue.tail }
  | _ => b

/--
Hand a published message to the local connection of its device.
-/
def dispatch (env : Env) (w : World) (i : InstanceId) (deviceId : Uuid) (msg : BusMessage)
    : World :=
  match (w.insts i).current deviceId with
  | none => w
  | some c => w.modifyBox c (·.dispatch (env.settings i).maxQueuedBytes (w.received c) msg)

/--
Ask every connection of an instance to resync.
-/
def broadcastResync (w : World) (i : InstanceId) : World :=
  (w.insts i).registeredDevices.foldl (fun w d =>
    match (w.insts i).current d with
    | none => w
    | some c => if w.received c then w.modifyBox c (·.push .resync) else w) w

end World

/--
The steps of the system.
-/
inductive Label where
  /--
  `run` registers a new connection `c` of the device `d` on an instance.
  -/
  | connect (i : InstanceId) (c d : Uuid)
  /--
  The operation a connection waits for is carried out.
  -/
  | exec (c : Uuid) (f : Fault)
  | event (c : Uuid) (e : Event)
  /--
  The bus task takes a request.
  -/
  | busRequest (i : InstanceId) (f : Fault)
  /--
  The `UNSUBSCRIBE` it waits for is carried out.
  -/
  | busUnsubscribe (i : InstanceId) (f : Fault)
  /--
  The bus task takes a message from its stream.
  -/
  | busMessage (i : InstanceId)
  /--
  The pub/sub connection breaks, with all but the first `keep` messages.
  -/
  | lose (i : InstanceId) (keep : Nat)
  /--
  The bus task finds its stream ended.
  -/
  | busLost (i : InstanceId)
  | reconnect (i : InstanceId) (order : List Uuid)
  | resubscribe (i : InstanceId) (f : Fault)
  | resync (i : InstanceId)
  | http (req : Request)
  /--
  A request does the next of the things it still has to do.
  -/
  | job (k : Nat) (f : Fault)
  | tick (nowMs : Int64) (secs : Rat)
  | expirePresence (d : Uuid)
  | expireNotices (d : Uuid)
  | expireRv (rvId : String)

namespace World

variable (env : Env) (w : World)

def connect (i : InstanceId) (c d : Uuid) : Option World :=
  if i ∈ env.instances ∧ (w.conns c).isNone then
    let previous := (w.insts i).current d
    let me := { deviceId := d, connId := c, inst := i }
    let w' := w.modifyInst i (·.register d c)
    let w' := w'.modifyBox c fun _ => .new
    some { w'.setConn c (.new me previous) with connects := c :: w.connects }
  else
    none

def exec (c : Uuid) (f : Fault) : Option World :=
  match w.conns c with
  | none => none
  | some t =>
    match t.prog with
    | .done _ _ => none
    | .wait s o k => (w.perform env t.me o f).map fun (w', r) => w'.setConn c (t.resume s o k r)

def event (c : Uuid) (e : Event) : Option World :=
  match w.conns c with
  | none => none
  | some t =>
    match t.prog with
    | .done s .serve =>
      if w.ready c s e then
        some ((w.modifyBox c (take · e)).setConn c (t.handle env s e))
      else
        none
    | _ => none

def answer (w : World) (c : Uuid) (ok : Bool) : World :=
  { w with answers := Function.update w.answers c (some ok) }

def busRequest (i : InstanceId) (f : Fault) : Option World :=
  let inst := w.insts i
  match inst.phase, inst.requests with
  | .idle, .subscribe d c :: requests =>
    let w' := w.modifyInst i ({ · with requests })
    if d ∈ inst.subscribed then
      some (w'.answer c true)
    else
      match f, inst.connected with
      | .ok, true => some ((w'.modifyInst i (·.subscribe d)).answer c true)
      | .lost, true =>
        some ((w'.modifyInst i fun i =>
          { i with channels := i.channels.insert (deviceChannel d) }).answer c false)
      | .fail, _ => some (w'.answer c false)
      | _, false => none
  | .idle, .unsubscribe d :: requests =>
    let w' := w.modifyInst i ({ · with requests })
    if !inst.isRegistered d && d ∈ inst.subscribed then
      some (w'.modifyInst i fun i =>
        { i with subscribed := i.subscribed.filter (· ≠ d), phase := .unsubscribing d })
    else
      some w'
  | _, _ => none

def busUnsubscribe (i : InstanceId) (f : Fault) : Option World :=
  match (w.insts i).phase with
  | .unsubscribing d =>
    some (w.modifyInst i fun i =>
      let channels :=
        if f = .fail then i.channels else i.channels.filter (· ≠ deviceChannel d)
      { i with channels, phase := .idle })
  | _ => none

def busMessage (i : InstanceId) : Option World :=
  let inst := w.insts i
  match inst.phase, inst.stream with
  | .idle, p :: stream =>
    let w' := w.modifyInst i ({ · with stream })
    match channelDevice p.channel, BusMessage.decode p.payload with
    | some d, some msg => some (w'.dispatch env i d msg)
    | _, _ => some w'
  | _, _ => none

def lose (i : InstanceId) (keep : Nat) : Option World :=
  if (w.insts i).connected then
    some (w.modifyInst i fun i =>
      { i with connected := false, channels := [], stream := i.stream.take keep })
  else
    none

def busLost (i : InstanceId) : Option World :=
  let inst := w.insts i
  if inst.phase = .idle ∧ inst.stream = [] ∧ inst.connected = false then
    some (w.modifyInst i ({ · with phase := .reconnecting }))
  else
    none

def reconnect (i : InstanceId) (order : List Uuid) : Option World :=
  let inst := w.insts i
  if inst.phase = .reconnecting ∧ order.isPerm inst.registeredDevices then
    some (w.modifyInst i
      ({ · with connected := true, subscribed := [], phase := .resubscribing order }))
  else
    none

def resubscribe (i : InstanceId) (f : Fault) : Option World :=
  match (w.insts i).phase with
  | .resubscribing (d :: todo) =>
    let w' := w.modifyInst i ({ · with phase := .resubscribing todo })
    match f, (w.insts i).connected with
    | .ok, true => some (w'.modifyInst i (·.subscribe d))
    | .lost, true =>
      some (w'.modifyInst i fun i =>
        { i with channels := i.channels.insert (deviceChannel d) })
    | .fail, _ => some w'
    | _, false => none
  | _ => none

def resync (i : InstanceId) : Option World :=
  match (w.insts i).phase with
  | .resubscribing [] => some ((w.modifyInst i ({ · with phase := .idle })).broadcastResync i)
  | _ => none

def http (req : Request) : World :=
  let out := req.handle env.crypto w.db w.nowMs
  { w with
    db := out.db
    jobs := w.jobs ++ [out.actions]
    verified := out.verified ++ w.verified }

def job (k : Nat) (f : Fault) : Option World :=
  match w.jobs[k]? with
  | some (a :: actions) => some (({ w with jobs := w.jobs.set k actions }).act env f a)
  | _ => none

def step : Label → Option World
  | .connect i c d => w.connect env i c d
  | .exec c f => w.exec env c f
  | .event c e => w.event env c e
  | .busRequest i f => w.busRequest i f
  | .busUnsubscribe i f => w.busUnsubscribe i f
  | .busMessage i => w.busMessage env i
  | .lose i keep => w.lose i keep
  | .busLost i => w.busLost i
  | .reconnect i order => w.reconnect i order
  | .resubscribe i f => w.resubscribe i f
  | .resync i => w.resync i
  | .http req => some (w.http env req)
  | .job k f => w.job env k f
  | .tick nowMs secs => if 0 ≤ secs then some { w with nowMs, now := w.now + secs } else none
  | .expirePresence d => some { w with presence := Function.update w.presence d none }
  | .expireNotices d => some { w with notices := Function.update w.notices d [] }
  | .expireRv rvId => some { w with rv := Function.update w.rv rvId .empty }

end World

/--
The runs of the system.
-/
abbrev run (env : Env) : World → List Label → Option World :=
  Lts.run (World.step env)

end HandLiveRelay
