import HandLiveRelay.Relay.Connection

/-!
This module contains what a connection may do. `Permits` lists the operations of every stage of its
life with what has to be true of its state and of what it did before, and `StageOk` is what holds
at every operation. Everything that is proved about runs of the relay goes through these two, never
through the code of the connection.
-/

namespace HandLiveRelay

open Fiber Wire

abbrev ConnTrace := Trace Conn Op Op.Res

/--
The operation was performed with this answer.
-/
def Did (t : ConnTrace) (o : Op) (r : o.Res) : Prop :=
  ∃ s, ⟨s, o, r⟩ ∈ t

theorem Did.cons {t : ConnTrace} {o : Op} {r : o.Res} (h : Did t o r)
    (p : Performed Conn Op Op.Res) : Did (p :: t) o r := by
  have ⟨s, hs⟩ := h
  exact ⟨s, List.mem_cons_of_mem p hs⟩

theorem did_cons_self (t : ConnTrace) (s : Conn) (o : Op) (r : o.Res)
    : Did (⟨s, o, r⟩ :: t) o r :=
  ⟨s, List.mem_cons_self⟩

/--
The trace `t'` continues `t` with operations that all satisfy `P`.
-/
def Extends (P : Op → Prop) (t t' : ConnTrace) : Prop :=
  ∃ u, t' = u ++ t ∧ ∀ p ∈ u, P p.op

namespace Extends

variable {P : Op → Prop} {t t' t'' : ConnTrace}

theorem rfl : Extends P t t :=
  ⟨[], by simp, by simp⟩

theorem cons (h : Extends P t t') {p : Performed Conn Op Op.Res} (hp : P p.op)
    : Extends P t (p :: t') := by
  have ⟨u, hu, hP⟩ := h
  refine ⟨p :: u, by simp [hu], ?_⟩
  intro q hq
  cases List.mem_cons.mp hq with
  | inl hq => exact hq ▸ hp
  | inr hq => exact hP q hq

theorem trans (h : Extends P t t') (h' : Extends P t' t'') : Extends P t t'' := by
  have ⟨u, hu, hP⟩ := h
  have ⟨v, hv, hP'⟩ := h'
  refine ⟨v ++ u, by simp [hu, hv], ?_⟩
  intro p hp
  cases List.mem_append.mp hp with
  | inl hp => exact hP' p hp
  | inr hp => exact hP p hp

theorem did (h : Extends P t t') {o : Op} {r : o.Res} (hdid : Did t o r) : Did t' o r := by
  have ⟨u, hu, _⟩ := h
  have ⟨s, hs⟩ := hdid
  exact ⟨s, hu ▸ List.mem_append_right u hs⟩

/--
What the continuation cannot have done was done before.
-/
theorem did_of_not (h : Extends P t t') {o : Op} {r : o.Res} (ho : ¬ P o) (hdid : Did t' o r)
    : Did t o r := by
  have ⟨u, hu, hP⟩ := h
  have ⟨s, hs⟩ := hdid
  rw [hu] at hs
  cases List.mem_append.mp hs with
  | inl hs => exact absurd (hP _ hs) ho
  | inr hs => exact ⟨s, hs⟩

end Extends

/-!
What a trace says about the pairs a connection has read and about the frames it has forwarded.
-/

/--
A frame on the socket.
-/
inductive Frame where
  | text (text : String)
  | binary (frame : List UInt8)
deriving DecidableEq

namespace Frame

/--
The frame was sent by another device, and not by the relay itself.
-/
def isForwarded : Frame → Bool
  | text t => Text.startsWith "\x7b\"from\":" t
  | binary _ => true

def ofText? (t : String) : Option Frame :=
  if (text t).isForwarded then some (text t) else none

/--
The frame names `x` as the device it comes from.
-/
def hasSource (x : Uuid) : Frame → Bool
  | text t => Text.startsWith ("\x7b\"from\":\"" ++ x.hyphenated ++ "\",\"env\":") t
  | binary frame => (frame.drop 4).take 16 = x.toList

end Frame

def BusMessage.isForward : BusMessage → Bool
  | forwardText _ _ | forwardBinary _ _ => true
  | _ => false

/--
The frame of another device that a message makes a connection write.
-/
def BusMessage.frame? : BusMessage → Option Frame
  | forwardText _ text | control text => Frame.ofText? text
  | forwardBinary _ frame => some (.binary frame)
  | _ => none

/--
The valid pairs that an operation has read.
-/
def readPairs : Performed Conn Op Op.Res → Option (List (Uuid × Uuid))
  | ⟨_, .activePeers, r⟩ => r
  | _ => none

/--
The forwarded frame that an operation publishes.
-/
def Op.forward? : Op → Option (Uuid × BusMessage)
  | publish dest msg => if msg.isForward then some (dest, msg) else none
  | _ => none

/--
The frame of another device that an operation has written to the socket.
-/
def writtenFrame : Performed Conn Op Op.Res → Option Frame
  | ⟨_, .sendText text, .ok⟩ => Frame.ofText? text
  | ⟨_, .sendBinary frame, .ok⟩ => some (.binary frame)
  | _ => none

/--
The answer of the last successful query for valid pairs.
-/
def lastPairs (t : ConnTrace) : List (Uuid × Uuid) :=
  (t.findSome? readPairs).getD []

/--
The frames a connection has published, the newest one first.
-/
def forwards (t : ConnTrace) : List (Uuid × BusMessage) :=
  t.filterMap (·.op.forward?)

/--
The frames of other devices it has written, the newest one first.
-/
def frames (t : ConnTrace) : List Frame :=
  t.filterMap writtenFrame

/--
The frames it has accepted: the one held back, and those it has published.
-/
def accepted (s : Conn) (t : ConnTrace) : List (Uuid × BusMessage) :=
  (s.pending.map fun p => (p.dest, p.bus)).toList ++ forwards t

/--
What a frame from the device is forwarded as, and to whom.
-/
def forwardFor (serde : Serde) (me : Ident) : ClientMessage → Option (Uuid × BusMessage)
  | .text text => do
    let inbound ← serde.parseInbound text
    let dest ← inbound.dest
    let env ← inbound.env
    guard (inbound.op = none ∧ isDeviceId dest ∧ isObject env
      ∧ text.utf8ByteSize ≤ maxFrameBytes)
    return (dest, .forwardText me.deviceId (forwardedText me.deviceId env))
  | .binary frame => do
    let dest ← parseHr frame
    guard (isDeviceId dest ∧ frame.length ≤ maxFrameBytes)
    return (dest, .forwardBinary me.deviceId (rewriteHr frame me.deviceId))
  | _ => none

/--
What an event asks the connection to forward.
-/
def Event.forward? (serde : Serde) (me : Ident) : Event → Option (Uuid × BusMessage)
  | client msg => forwardFor serde me msg
  | _ => none

/--
The frame an event delivers.
-/
def Event.frame? : Event → Option Frame
  | delivery (.bus msg) => msg.frame?
  | _ => none

/--
Where a connection stood when its current stage began: what it had accepted and what it had
written.
-/
structure Mark where
  accepted : List (Uuid × BusMessage)
  frames : List Frame

/--
The peers are those of the last successful query, and only they have buckets.
-/
structure PeersOk (s : Conn) (t : ConnTrace) : Prop where
  pairs : s.pairs = lastPairs t
  peers : s.peers = (lastPairs t).map (·.2)
  buckets : ∀ x, (s.buckets x).isSome → x ∈ s.peers

/--
What a connection has done once its event loop runs: it was subscribed before it told older
connections to end, and it wrote every statement that it took from the notices.
-/
structure Opened (me : Ident) (t : ConnTrace) : Prop where
  subscribed : Did t .subscribed true
  published : ∃ n, Did t (.publish me.deviceId (.replace me.connId)) (some n)
  written : ∀ l, Did t .takeRevokedNotices (some l)
    → ∀ s ∈ l, Did t (.sendText (pairRevokedMessage s)) .ok

section

variable (serde : Serde) (me : Ident) (mark : Mark)

/--
What holds at every operation and at the end of a stage, where `acc` is what the connection has
accepted: since the beginning of the stage at most the frame that is being handled was added, for a
peer, and at most the frame that is being delivered was written.
-/
structure StageOk (stage : Stage) (acc : List (Uuid × BusMessage)) (s : Conn) (t : ConnTrace)
    : Prop where
  peers : PeersOk s t
  pending : ∀ p, s.pending = some p → p.bus.isForward
  accepted : acc = mark.accepted
    ∨ ∃ e f, stage = .handling e ∧ e.forward? serde me = some f ∧ acc = f :: mark.accepted
      ∧ f.1 ∈ s.peers
  frames : frames t = mark.frames
    ∨ ∃ e f, stage = .handling e ∧ e.frame? = some f ∧ frames t = f :: mark.frames
  opened : ∀ e, stage = .handling e → Opened me t

/--
The operations a connection may ask for in each stage of its life.
-/
inductive Permits : Stage → Conn → ConnTrace → Op → Prop where
  | tellPrevious {s t c} (h : t = []) : Permits .opening s t (.tellPrevious c)
  | subscribe {s t} : Permits .opening s t .subscribe
  | subscribed {s t} : Permits .opening s t .subscribed
  | claim {s t} (h : Did t .subscribed true) : Permits .opening s t .claim
  | replace {s t} (h : Did t .subscribed true) (hclaim : Did t .claim (some ()))
      : Permits .opening s t (.publish me.deviceId (.replace me.connId))
  | recentlyRevoked {s t} : Permits .opening s t .recentlyRevoked
  | takeRevokedNotices {s t} : Permits .opening s t .takeRevokedNotices
  | recentText {s t l st} (h : Did t .recentlyRevoked (some l)) (hmem : st ∈ l)
      : Permits .opening s t (.sendText (pairRevokedMessage st))
  | noticeText {s t l st} (h : Did t .takeRevokedNotices (some l)) (hmem : st ∈ l)
      : Permits .opening s t (.sendText (pairRevokedMessage st))
  | comeOnline {s t pairId peer} (h : (pairId, peer) ∈ s.pairs)
      : Permits .opening s t (.publish peer (.control (presenceMessage pairId me.deviceId true)))
  | activePeers {stage s t} (h : ∀ e, stage ≠ .finishing e) : Permits stage s t .activePeers
  | online {stage s t devices} (h : ∀ e, stage ≠ .finishing e)
      : Permits stage s t (.online devices)
  | now {stage s t} (h : ∀ e, stage ≠ .finishing e) : Permits stage s t .now
  | presenceText {stage s t pairId peer b} (h : ∀ e, stage ≠ .finishing e)
      : Permits stage s t (.sendText (presenceMessage pairId peer b))
  | fetchSub {e s t len} : Permits (.handling e) s t (.fetchSub len)
  | refresh {e s t} (h : e = .refresh ∨ e = .delivery .resync) : Permits (.handling e) s t .refresh
  | rvJoin {e s t rvId} : Permits (.handling e) s t (.rvJoin rvId)
  | rvMembers {e s t rvId} : Permits (.handling e) s t (.rvMembers rvId)
  | addEnvelope {e s t bytes} : Permits (.handling e) s t (.addEnvelope bytes)
  | ping {e s t} : Permits (.handling e) s t .ping
  | pong {e s t bytes} : Permits (.handling e) s t (.pong bytes)
  | errorText {e s t err dest} : Permits (.handling e) s t (.sendText (errorMessage err dest))
  | rvJoinedText {e s t rvId b} : Permits (.handling e) s t (.sendText (rvJoinedMessage rvId b))
  | rvJoined {e s t dest rvId b}
      : Permits (.handling e) s t (.publish dest (.control (rvJoinedMessage rvId b)))
  | rvMsg {e s t dest rvId env}
      : Permits (.handling e) s t (.publish dest (.control (rvMsgMessage rvId env)))
  | forward {e s t dest msg} (h : msg.isForward)
      : Permits (.handling e) s t (.publish dest msg)
  | forwardText {s t source text} (h : source ∈ s.peers)
      : Permits (.handling (.delivery (.bus (.forwardText source text)))) s t (.sendText text)
  | forwardBinary {s t source frame} (h : source ∈ s.peers)
      : Permits (.handling (.delivery (.bus (.forwardBinary source frame)))) s t
          (.sendBinary frame)
  | controlText {s t text}
      : Permits (.handling (.delivery (.bus (.control text)))) s t (.sendText text)
  | revokedText {s t st}
      : Permits (.handling (.delivery (.bus (.pairRevoked st)))) s t
          (.sendText (pairRevokedMessage st))
  | unregister {e s t} (h : ∀ r, ¬ Did t .unregister r) : Permits (.finishing e) s t .unregister
  | unsubscribe {e s t} (h : Did t .unregister true) (hfirst : ∀ r, ¬ Did t .release r)
      : Permits (.finishing e) s t .unsubscribe
  | release {e s t} (h : Did t .unregister true) (hfirst : ∀ r, ¬ Did t .release r)
      : Permits (.finishing e) s t .release
  | goOffline {e s t pairId peer} (h : Did t .unregister true) (hrel : Did t .release (some true))
      (hclose : ∀ code, ¬ Did t (.closeSocket code) ())
      : Permits (.finishing e) s t
          (.publish peer (.control (presenceMessage pairId me.deviceId false)))
  | closeSocket {e s t code} : Permits (.finishing e) s t (.closeSocket code)

/--
The contract of a stage.
-/
def Obeys (stage : Stage) : Contract Conn Op Op.Res := fun s t o =>
  StageOk serde me mark stage (o.forward?.toList ++ accepted s t) s t ∧ Permits me stage s t o

/--
The operation failed in a way that ends the connection.
-/
def Failed : Performed Conn Op Op.Res → Prop
  | ⟨_, .subscribed, r⟩ => r = false
  | ⟨_, .claim, r⟩ => r = none
  | ⟨_, .publish _ _, r⟩ => r = none
  | ⟨_, .activePeers, r⟩ => r = none
  | ⟨_, .refresh, r⟩ => r = some false
  | ⟨_, .sendText _, r⟩ => r ≠ .ok
  | ⟨_, .sendBinary _, r⟩ => r ≠ .ok
  | _ => False

/--
The last operation failed, and it was a write if the notices were taken before.
-/
def OpenFailed (t : ConnTrace) : Prop :=
  ∃ p t', t = p :: t' ∧ Failed p
    ∧ ((∃ l, Did t .takeRevokedNotices (some l)) → ∃ text, p.op = .sendText text)

/--
The events after which the event loop may go on.
-/
def Survives : Event → Prop
  | .kill | .hungUp | .clientGone | .clientError => False
  | .delivery (.bus (.replace connId)) => connId = me.connId
  | .delivery (.bus (.close _)) => False
  | _ => True

/--
The connection may end after this event: a message from the bus ends it only if it says so, or if
the last operation failed.
-/
def MayEnd (t : ConnTrace) : Event → Prop
  | .delivery (.bus (.replace connId)) => connId ≠ me.connId
  | .delivery (.bus (.close _)) => True
  | .delivery _ => ∃ p t', t = p :: t' ∧ Failed p
  | _ => True

/--
What holds when the code of a stage is done.
-/
def StagePost (stage : Stage) : Next → Conn → ConnTrace → Prop
  | .serve, s, t =>
    StageOk serde me mark stage (accepted s t) s t ∧ Opened me t
      ∧ (∀ e, stage = .handling e → Survives me e) ∧ (∀ e, stage ≠ .finishing e)
  | .finish _, s, t =>
    StageOk serde me mark stage (accepted s t) s t ∧ (stage = .opening → OpenFailed t)
      ∧ (∀ e, stage = .handling e → MayEnd me t e) ∧ (∀ e, stage ≠ .finishing e)
  | .stop, s, t =>
    StageOk serde me mark stage (accepted s t) s t ∧ ∃ e, stage = .finishing e

end
end HandLiveRelay
