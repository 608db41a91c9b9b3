import HandLiveRelay.Relay.Conformance

/-!
This module contains which operations the parts of a connection's code ask for, whatever the answers
are. The contract says when an operation is permitted, this says which ones can come up at all.
-/

namespace HandLiveRelay

open Fiber Wire

/--
The operations that forward a frame of the device.
-/
inductive FrameOp : Op → Prop where
  | now : FrameOp .now
  | activePeers : FrameOp .activePeers
  | publish {dest msg} (h : msg.isForward) : FrameOp (.publish dest msg)
  | addEnvelope {bytes} : FrameOp (.addEnvelope bytes)
  | error {err dest} : FrameOp (.sendText (errorMessage err dest))

/--
The operations of the rendezvous.
-/
inductive RvOp : Op → Prop where
  | join {rvId} : RvOp (.rvJoin rvId)
  | members {rvId} : RvOp (.rvMembers rvId)
  | joinedText {rvId b} : RvOp (.sendText (rvJoinedMessage rvId b))
  | joined {dest rvId b} : RvOp (.publish dest (.control (rvJoinedMessage rvId b)))
  | msg {dest rvId env} : RvOp (.publish dest (.control (rvMsgMessage rvId env)))
  | error {err dest} : RvOp (.sendText (errorMessage err dest))

/--
The operations that handle what the hub hands to a connection.
-/
inductive DeliveryOp : Delivery → Op → Prop where
  | now {d} : DeliveryOp d .now
  | activePeers {d} : DeliveryOp d .activePeers
  | refresh : DeliveryOp .resync .refresh
  | online {devices} : DeliveryOp (.bus .pairsChanged) (.online devices)
  | presence {pairId peer b}
      : DeliveryOp (.bus .pairsChanged) (.sendText (presenceMessage pairId peer b))
  | forwardText {source text} : DeliveryOp (.bus (.forwardText source text)) (.sendText text)
  | forwardBinary {source frame}
      : DeliveryOp (.bus (.forwardBinary source frame)) (.sendBinary frame)
  | control {text} : DeliveryOp (.bus (.control text)) (.sendText text)
  | pairRevoked {st} : DeliveryOp (.bus (.pairRevoked st)) (.sendText (pairRevokedMessage st))

/--
The operations of a branch of the event loop.
-/
inductive EventOp : Event → Op → Prop where
  | now {e} : EventOp e .now
  | frame {e o} (h : FrameOp o) : EventOp e o
  | rv {msg o} (h : RvOp o) : EventOp (.client msg) o
  | pong {msg bytes} : EventOp (.client msg) (.pong bytes)
  | counted {msg} : EventOp (.delivery (.bus msg)) (.fetchSub msg.queuedLen)
  | delivery {d o} (h : DeliveryOp d o) : EventOp (.delivery d) o
  | ping : EventOp .ping .ping
  | refresh : EventOp .refresh .refresh

/--
The operations that open a connection.
-/
inductive OpeningOp (me : Ident) : Op → Prop where
  | tellPrevious {c} : OpeningOp me (.tellPrevious c)
  | subscribe : OpeningOp me .subscribe
  | subscribed : OpeningOp me .subscribed
  | claim : OpeningOp me .claim
  | replace : OpeningOp me (.publish me.deviceId (.replace me.connId))
  | activePeers : OpeningOp me .activePeers
  | online {devices} : OpeningOp me (.online devices)
  | presence {pairId peer b} : OpeningOp me (.sendText (presenceMessage pairId peer b))
  | recentlyRevoked : OpeningOp me .recentlyRevoked
  | takeRevokedNotices : OpeningOp me .takeRevokedNotices
  | pairRevoked {st} : OpeningOp me (.sendText (pairRevokedMessage st))
  | comeOnline {pairId peer}
      : OpeningOp me (.publish peer (.control (presenceMessage pairId me.deviceId true)))
  | now : OpeningOp me .now

/--
The operations of the cleanup.
-/
inductive FinishingOp (me : Ident) : Op → Prop where
  | unregister : FinishingOp me .unregister
  | unsubscribe : FinishingOp me .unsubscribe
  | release : FinishingOp me .release
  | goOffline {pairId peer}
      : FinishingOp me (.publish peer (.control (presenceMessage pairId me.deviceId false)))
  | closeSocket {code} : FinishingOp me (.closeSocket code)

namespace Conn

variable {P : Op → Prop}

theorem asks_sendText {text : String} (h : P (.sendText text)) : (sendText text).Asks P :=
  .bind (Code.asks_perform h) fun _ => Code.asks_pure _

theorem asks_sendBinary {frame : List UInt8} (h : P (.sendBinary frame))
    : (sendBinary frame).Asks P :=
  .bind (Code.asks_perform h) fun _ => Code.asks_pure _

theorem asks_sendTexts {texts : List String} (h : ∀ text ∈ texts, P (.sendText text))
    : (sendTexts texts).Asks P := by
  induction texts with
  | nil => exact Code.asks_pure _
  | cons text texts ih =>
    refine .bind (asks_sendText (h text List.mem_cons_self)) ?_
    intro failed
    cases failed with
    | some e => exact Code.asks_pure _
    | none => exact ih fun text' htext' => h text' (List.mem_cons_of_mem text htext')

theorem asks_sendError {err : RelayError} {dest : Option Uuid}
    (h : P (.sendText (errorMessage err dest))) : (sendError err dest).Asks P :=
  asks_sendText h

theorem asks_reloadPeers (h : P .activePeers) : reloadPeers.Asks P := by
  refine .bind (Code.asks_perform h) ?_
  intro r
  cases r with
  | some pairs => exact .bind (Code.asks_modify _) fun _ => Code.asks_pure _
  | none => exact Code.asks_pure _

theorem asks_isPeer {peer : Uuid} (hnow : P .now) (hpeers : P .activePeers)
    : (isPeer peer).Asks P := by
  refine .bind Code.asks_get ?_
  intro s
  split
  . exact Code.asks_pure _
  . refine .bind (Code.asks_perform hnow) ?_
    intro now
    split
    . exact Code.asks_pure _
    . refine .bind (Code.asks_modify _) fun _ => .bind (asks_reloadPeers hpeers) fun _ => ?_
      exact .bind Code.asks_get fun _ => Code.asks_pure _

theorem asks_peerPresence {pairs : List (Uuid × Uuid)} (h : ∀ devices, P (.online devices))
    : (peerPresence pairs).Asks P := by
  unfold peerPresence
  dsimp only
  split
  . exact Code.asks_pure _
  . exact .bind (Code.asks_perform (h _)) fun _ => Code.asks_pure _

theorem asks_presenceTexts {pairs : List (Uuid × Uuid)} {online : List Bool}
    (h : ∀ pairId peer b, P (.sendText (presenceMessage pairId peer b)))
    : (sendTexts (presenceTexts pairs online)).Asks P := by
  apply asks_sendTexts
  intro text htext
  have ⟨pairId, peer, b, heq, _⟩ := mem_presenceTexts htext
  exact heq ▸ h pairId peer b

theorem asks_announce {me : Ident} {b : Bool}
    (h : ∀ pairId peer, P (.publish peer (.control (presenceMessage pairId me.deviceId b))))
    : (announce me b).Asks P := by
  refine .bind Code.asks_get ?_
  intro s
  induction s.pairs with
  | nil => exact Code.asks_pure _
  | cons p pairs ih => exact .bind (Code.asks_perform (h p.1 p.2)) fun _ => ih

section

variable (hnow : P .now) (hpeers : P .activePeers) (hadd : ∀ bytes, P (.addEnvelope bytes))
  (herror : ∀ err dest, P (.sendText (errorMessage err dest)))

include hadd herror in
theorem asks_publishForward {p : Pending} (h : P (.publish p.dest p.bus))
    : (publishForward p).Asks P := by
  refine .bind (Code.asks_perform h) ?_
  intro r
  split
  . exact asks_sendError (herror _ _)
  . exact .bind (Code.asks_perform (hadd _)) fun _ => Code.asks_pure _
  . exact asks_sendError (herror _ _)

include hnow hpeers hadd herror in
theorem asks_forward {settings : Settings} {dest : Uuid} {bus : BusMessage} {bytes : Nat}
    (h : P (.publish dest bus)) : (forward settings dest bus bytes).Asks P := by
  refine .bind (asks_isPeer hnow hpeers) ?_
  intro peer
  split
  . exact asks_sendError (herror _ _)
  . refine .bind (Code.asks_perform hnow) fun now => .bind Code.asks_get fun s => ?_
    dsimp only
    refine .bind (Code.asks_modify _) fun _ => ?_
    split
    . exact asks_publishForward hadd herror h
    . exact .bind (Code.asks_modify _) fun _ => Code.asks_pure _

theorem asks_notifyOthers {text : String} {others : List Uuid}
    (h : ∀ other, P (.publish other (.control text))) : (notifyOthers text others).Asks P := by
  induction others with
  | nil => exact Code.asks_pure _
  | cons other others ih => exact .bind (Code.asks_perform (h other)) fun _ => ih

include herror in
theorem asks_rvJoin {me : Ident} {rvId : Option String}
    (h : ∀ r, rvId.bind Rendezvous.canonicalRvId = some r
      → P (.rvJoin r) ∧ (∀ b, P (.sendText (rvJoinedMessage r b)))
        ∧ ∀ other, P (.publish other (.control (rvJoinedMessage r true))))
    : (rvJoin me rvId).Asks P := by
  unfold rvJoin
  split
  . exact asks_sendError (herror _ _)
  next r hr =>
    have ⟨hjoin, htext, hother⟩ := h r hr
    refine .bind (Code.asks_perform hjoin) ?_
    intro joined
    split
    . exact asks_sendError (herror _ _)
    . exact asks_sendError (herror _ _)
    . refine .bind (asks_sendText (htext _)) ?_
      intro failed
      split
      . exact Code.asks_pure _
      . exact asks_notifyOthers hother

include herror in
theorem asks_rvMsg {serde : Serde} {me : Ident} {rvId env : Option String}
    (h : ∀ r e, rvId.bind Rendezvous.canonicalRvId = some r → env = some e → isObject e = true
      → P (.rvMembers r) ∧ ∀ other, P (.publish other (.control (rvMsgMessage r e))))
    : (rvMsg serde me rvId env).Asks P := by
  unfold rvMsg
  split
  next r e hr =>
    split
    . exact asks_sendError (herror _ _)
    next hobject =>
      have ⟨hmembers, hother⟩ := h r e hr rfl (by simp at hobject; exact hobject.1)
      refine .bind (Code.asks_perform hmembers) ?_
      intro members
      split
      . exact asks_sendError (herror _ _)
      . split
        . exact asks_sendError (herror _ _)
        . split
          . exact asks_sendError (herror _ _)
          . refine .bind (Code.asks_perform (hother _)) ?_
            intro r
            split
            . exact asks_sendError (herror _ _)
            . exact Code.asks_pure _
            . exact asks_sendError (herror _ _)
  . exact asks_sendError (herror _ _)

end

section

variable {settings : Settings} {serde : Serde} {me : Ident}

theorem asks_forward_frame {dest : Uuid} {bus : BusMessage} {bytes : Nat} (h : bus.isForward)
    : (forward settings dest bus bytes).Asks FrameOp :=
  asks_forward .now .activePeers (fun _ => .addEnvelope) (fun _ _ => .error) (.publish h)

/--
What is done with a text of the device: it joins a rendezvous, sends through one, or is forwarded.
-/
theorem handleText_cases (settings : Settings) (serde : Serde) (me : Ident) (text : String)
    : (∃ rvId, handleText settings serde me text = rvJoin me rvId)
      ∨ (∃ rvId env, handleText settings serde me text = rvMsg serde me rvId env)
      ∨ (handleText settings serde me text).Asks FrameOp := by
  unfold handleText
  split
  . exact .inr (.inr (asks_sendError .error))
  next inbound _ =>
    dsimp only
    split
    . split
      . split
        . exact .inr (.inr (asks_sendError .error))
        . split
          . exact .inl ⟨inbound.rvId, rfl⟩
          . exact .inr (.inl ⟨inbound.rvId, inbound.env, rfl⟩)
      . exact .inr (.inr (asks_sendError .error))
    . refine .inr (.inr ?_)
      split
      . split
        . split
          . exact asks_sendError .error
          . exact asks_forward_frame rfl
        . exact asks_sendError .error
      . exact asks_sendError .error

theorem asks_handleText {text : String}
    : (handleText settings serde me text).Asks (fun o => FrameOp o ∨ RvOp o) := by
  cases handleText_cases settings serde me text with
  | inl hjoin =>
    have ⟨rvId, heq⟩ := hjoin
    rw [heq]
    exact asks_rvJoin (fun _ _ => .inl .error) fun _ _ =>
      ⟨.inr .join, fun _ => .inr .joinedText, fun _ => .inr .joined⟩
  | inr hrest =>
    cases hrest with
    | inl hmsg =>
      have ⟨rvId, env, heq⟩ := hmsg
      rw [heq]
      exact asks_rvMsg (fun _ _ => .inl .error) fun _ _ _ _ _ =>
        ⟨.inr .members, fun _ => .inr .msg⟩
    | inr hforward => exact hforward.mono fun _ => .inl

theorem asks_handleBinary {frame : List UInt8} : (handleBinary settings me frame).Asks FrameOp := by
  unfold handleBinary
  split
  . exact asks_sendError .error
  . split
    . exact asks_sendError .error
    . exact asks_forward_frame rfl

end

theorem asks_refreshPresence (h : P .refresh) : refreshPresence.Asks P := by
  refine .bind (Code.asks_perform h) ?_
  intro r
  split
  . exact Code.asks_pure _
  . exact Code.asks_pure _
  . exact Code.asks_pure _

theorem asks_pairsChanged : pairsChanged.Asks (DeliveryOp (.bus .pairsChanged)) := by
  refine .bind Code.asks_get fun s => .bind (asks_reloadPeers .activePeers) ?_
  intro reloaded
  split
  . exact Code.asks_pure _
  . refine .bind Code.asks_get fun s' => .bind (asks_peerPresence fun _ => .online) ?_
    intro online
    exact asks_presenceTexts fun _ _ _ => .presence

theorem asks_onDelivery {me : Ident} {d : Delivery} : (onDelivery me d).Asks (DeliveryOp d) := by
  unfold onDelivery
  split
  . refine .bind (asks_refreshPresence .refresh) ?_
    intro stale
    split
    . exact Code.asks_pure _
    . exact .bind (asks_reloadPeers .activePeers) fun _ => Code.asks_pure _
  . refine .bind (asks_isPeer .now .activePeers) ?_
    intro peer
    split
    . exact Code.asks_pure _
    . exact asks_sendText .forwardText
  . refine .bind (asks_isPeer .now .activePeers) ?_
    intro peer
    split
    . exact Code.asks_pure _
    . exact asks_sendBinary .forwardBinary
  . exact asks_sendText .control
  . exact .bind (asks_reloadPeers .activePeers) fun _ => asks_sendText .pairRevoked
  . exact asks_pairsChanged
  . split
    . exact Code.asks_pure _
    . exact Code.asks_pure _
  . exact Code.asks_pure _

/-!
The stages of a connection.
-/

theorem asks_uncount {d : Delivery} : (uncount d).Asks (EventOp (.delivery d)) := by
  cases d with
  | bus msg => exact Code.asks_perform .counted
  | resync => exact Code.asks_pure _

section

variable {settings : Settings} {serde : Serde} {me : Ident}

theorem asks_onClientMessage {msg : ClientMessage}
    : (onClientMessage settings serde me msg).Asks (EventOp (.client msg)) := by
  cases msg with
  | text text => exact asks_handleText.mono fun _ h => h.elim .frame .rv
  | binary frame => exact asks_handleBinary.mono fun _ => .frame
  | ping bytes => exact .bind (Code.asks_perform .pong) fun _ => Code.asks_pure _
  | pong _ => exact Code.asks_pure _
  | close => exact Code.asks_pure _

theorem onEvent_deadline_some {s : Conn} {p : Pending} (hp : s.pending = some p)
    : (onEvent settings serde me .deadline).start s
      = (do
          Code.modify fun s => { s with pending := none }
          publishForward p : ConnCode (Option End)).start s := by
  cases s
  cases hp
  rfl

theorem onEvent_deadline_none {s : Conn} (hp : s.pending = none)
    : (onEvent settings serde me .deadline).start s = (return none : ConnCode (Option End)).start s := by
  cases s
  cases hp
  rfl

theorem only_serve {e : Event} {s : Conn} (h : ∀ p, s.pending = some p → p.bus.isForward)
    : ((serve settings serde me e).start s).Only (EventOp e) := by
  suffices hevent : ((onEvent settings serde me e).start s).Only (EventOp e) by
    exact hevent.bind fun _ => Code.asks_pure _
  have hnow : ∀ {e : Event} {r : Option End},
      (do
        let now ← ask .now
        Code.modify fun s => { s with lastRx := now }
        return r : ConnCode (Option End)).Asks (EventOp e) :=
    .bind (Code.asks_perform .now) fun _ => .bind (Code.asks_modify _) fun _ => Code.asks_pure _
  cases e with
  | kill => trivial
  | delivery d => exact (asks_uncount s).bind fun _ => asks_onDelivery.mono fun _ => .delivery
  | hungUp => trivial
  | deadline =>
    cases hp : s.pending with
    | some p =>
      rw [onEvent_deadline_some hp]
      exact Code.Asks.bind (Code.asks_modify _)
        (fun _ => asks_publishForward (fun _ => .frame .addEnvelope) (fun _ _ => .frame .error)
          (.frame (.publish (h p hp)))) s
    | none =>
      rw [onEvent_deadline_none hp]
      trivial
  | client msg =>
    exact Code.Asks.bind (Code.asks_perform .now)
      (fun _ => .bind (Code.asks_modify _) fun _ => asks_onClientMessage) s
  | clientGone => exact hnow s
  | clientError => exact hnow s
  | ping =>
    refine Code.Asks.bind (Code.asks_perform .now) (fun now => .bind Code.asks_get ?_) s
    intro s'
    split
    . exact Code.asks_pure _
    . exact .bind (Code.asks_perform .ping) fun _ => Code.asks_pure _
  | refresh => exact asks_refreshPresence .refresh s

theorem asks_sendRevoked : (sendRevoked me).Asks (OpeningOp me) := by
  refine .bind (Code.asks_perform .recentlyRevoked) fun revoked =>
    .bind (Code.asks_perform .takeRevokedNotices) fun notices => ?_
  dsimp only
  refine .bind (asks_sendTexts ?_) ?_
  . intro text htext
    have ⟨st, _, heq⟩ := List.mem_map.mp htext
    exact heq ▸ .pairRevoked
  . intro failed
    cases failed with
    | some e => exact Code.asks_pure _
    | none => exact .bind (asks_announce fun _ _ => .comeOnline) fun _ => Code.asks_pure _

theorem asks_openConn : (openConn me).Asks (OpeningOp me) := by
  refine .bind (Code.asks_perform .subscribe) fun _ => .bind (Code.asks_perform .subscribed) ?_
  intro subscribed
  split
  . exact Code.asks_pure _
  . refine .bind (Code.asks_perform .claim) ?_
    intro claimed
    split
    . exact Code.asks_pure _
    . refine .bind (Code.asks_perform .replace) ?_
      intro published
      split
      . exact Code.asks_pure _
      . refine .bind (asks_reloadPeers .activePeers) ?_
        intro reloaded
        split
        . exact Code.asks_pure _
        . refine .bind Code.asks_get fun s => .bind (asks_peerPresence fun _ => .online) fun online => ?_
          refine .bind (asks_presenceTexts fun _ _ _ => .presence) ?_
          intro failed
          split
          . exact Code.asks_pure _
          . exact asks_sendRevoked

theorem asks_start {previous : Option Uuid} : (start me previous).Asks (OpeningOp me) := by
  have htell : (tellPrevious previous).Asks (OpeningOp me) := by
    cases previous with
    | some c => exact Code.asks_perform .tellPrevious
    | none => exact Code.asks_pure _
  refine .bind htell fun _ => .bind asks_openConn ?_
  intro failed
  split
  . exact Code.asks_pure _
  . exact .bind (Code.asks_perform .now) fun _ => .bind (Code.asks_modify _) fun _ => Code.asks_pure _

theorem asks_finish {e : End} : (finish me e).Asks (FinishingOp me) := by
  have hleave : (leave me).Asks (FinishingOp me) := by
    refine .bind (Code.asks_perform .unregister) ?_
    intro current
    split
    . exact Code.asks_pure _
    . refine .bind (Code.asks_perform .unsubscribe) fun _ => .bind (Code.asks_perform .release) ?_
      intro released
      split
      . exact asks_announce fun _ _ => .goOffline
      . exact Code.asks_pure _
  have hclose : (closeSocket e).Asks (FinishingOp me) := by
    cases e with
    | gone => exact Code.asks_pure _
    | clientClosed => exact Code.asks_perform .closeSocket
    | close code => exact Code.asks_perform .closeSocket
  exact .bind hleave fun _ => .bind hclose fun _ => Code.asks_pure _

end

end Conn
end HandLiveRelay
