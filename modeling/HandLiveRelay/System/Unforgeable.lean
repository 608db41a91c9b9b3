import HandLiveRelay.Relay.Reading
import HandLiveRelay.System.Forwarding
import HandLiveRelay.System.Stages

/-!
This module contains where the texts on a socket come from. A text that reached the connection over
the bus was made out of a text frame of another device, in one of three forms, or is the news that
this device came or went. Everything else the relay wrote by itself.
-/

namespace HandLiveRelay

open Fiber Wire

/--
The operations that a connection may ask for in each stage of its life, with what they say and to
whom. The frame that is held back is sent in the branch of its deadline.
-/
inductive Speaks (serde : Serde) (me : Ident) : Stage → Op → Prop where
  | opening {o : Op} (h : OpeningOp me o) : Speaks serde me .opening o
  | text {frame : String} {o : Op} (h : TextOp serde me frame o)
      : Speaks serde me (.handling (.client (.text frame))) o
  | binary {frame : List UInt8} {o : Op} (h : FrameOp o)
      : Speaks serde me (.handling (.client (.binary frame))) o
  | deadline {o : Op} (h : FrameOp o) : Speaks serde me (.handling .deadline) o
  | delivery {d : Delivery} {o : Op} (h : DeliveryOp d o) : Speaks serde me (.handling (.delivery d)) o
  | finishing {e : End} {o : Op} (h : FinishingOp me o) : Speaks serde me (.finishing e) o
  | now {e : Event} : Speaks serde me (.handling e) .now
  | fetchSub {e : Event} {len : Nat} : Speaks serde me (.handling e) (.fetchSub len)
  | pong {e : Event} {bytes : List UInt8} : Speaks serde me (.handling e) (.pong bytes)
  | ping {e : Event} : Speaks serde me (.handling e) .ping
  | refresh {e : Event} : Speaks serde me (.handling e) .refresh

namespace Conn

variable {settings : Settings} {serde : Serde} {me : Ident}

theorem speaks_onClientMessage {msg : ClientMessage}
    : (onClientMessage settings serde me msg).Asks (Speaks serde me (.handling (.client msg))) := by
  cases msg with
  | text text => exact asks_handleText_causes.mono fun _ => .text
  | binary frame => exact asks_handleBinary.mono fun _ => .binary
  | ping bytes => exact .bind (Code.asks_perform .pong) fun _ => Code.asks_pure _
  | pong _ => exact Code.asks_pure _
  | close => exact Code.asks_pure _

theorem speaks_serve {e : Event} {s : Conn} (h : ∀ p, s.pending = some p → p.bus.isForward)
    : ((serve settings serde me e).start s).Only (Speaks serde me (.handling e)) := by
  suffices hevent : ((onEvent settings serde me e).start s).Only (Speaks serde me (.handling e)) by
    exact hevent.bind fun _ => Code.asks_pure _
  have hnow : ∀ {e : Event} {r : Option End},
      (do
        let now ← ask .now
        Code.modify fun s => { s with lastRx := now }
        return r : ConnCode (Option End)).Asks (Speaks serde me (.handling e)) :=
    .bind (Code.asks_perform .now) fun _ => .bind (Code.asks_modify _) fun _ => Code.asks_pure _
  cases e with
  | kill => trivial
  | delivery d =>
    have huncount : (uncount d).Asks (Speaks serde me (.handling (.delivery d))) := by
      cases d with
      | bus msg => exact Code.asks_perform .fetchSub
      | resync => exact Code.asks_pure _
    exact (huncount s).bind fun _ => asks_onDelivery.mono fun _ => .delivery
  | hungUp => trivial
  | deadline =>
    cases hp : s.pending with
    | some p =>
      rw [onEvent_deadline_some hp]
      exact Code.Asks.bind (Code.asks_modify _)
        (fun _ => asks_publishForward (fun _ => .deadline .addEnvelope)
          (fun _ _ => .deadline .error) (.deadline (.publish (h p hp)))) s
    | none =>
      rw [onEvent_deadline_none hp]
      trivial
  | client msg =>
    exact Code.Asks.bind (Code.asks_perform .now)
      (fun _ => .bind (Code.asks_modify _) fun _ => speaks_onClientMessage) s
  | clientGone => exact hnow s
  | clientError => exact hnow s
  | ping =>
    refine Code.Asks.bind (Code.asks_perform .now) (fun now => .bind Code.asks_get ?_) s
    intro s'
    split
    . exact Code.asks_pure _
    . exact .bind (Code.asks_perform .ping) fun _ => Code.asks_pure _
  | refresh => exact asks_refreshPresence .refresh s

end Conn

def speaking (env : Env) : StageRule env where
  obeys me stage _ _ _ o := Speaks env.serde me stage o
  post _ _ _ _ _ _ := True
  opening _ _ := (Conn.asks_start .new).sat fun _ _ _ => .opening
  handling _ _ _ _ _ _ hrest _ := (Conn.speaks_serve hrest.pending).sat fun _ _ _ h => h
  finishing _ _ _ _ s _ _ := (Conn.asks_finish s).sat fun _ _ _ => .finishing

theorem ConnTask.Ok.mem_inputs {env : Env} {t : ConnTask} (h : t.Ok env) {e : Event}
    (hstage : t.stage = .handling e) : e ∈ t.inputs := by
  have ⟨mark, hat⟩ := h
  rw [hat.handling e hstage]
  exact List.mem_cons_self

/--
What a connection publishes: a text that one of its device's frames has caused, the news that the
device came or went, or a message that carries no text.
-/
inductive Utters (serde : Serde) (t : ConnTask) (msg : BusMessage) : Prop where
  | frame {frame : String} (hin : .client (.text frame) ∈ t.inputs) (h : Causes serde t.me frame msg)
  | presence {pairId : Uuid} {b : Bool}
      (h : msg = .control (presenceMessage pairId t.me.deviceId b))
  | silent (h : msg.text? = none)

section

variable {env : Env} {t : ConnTask} {s : Conn}

theorem StageRule.Kept.speaks (h : (speaking env).Kept t) {o : Op}
    {k : o.Res → Prog Conn Op Op.Res Next} (hprog : t.prog = .wait s o k)
    : Speaks env.serde t.me t.stage o := by
  have ⟨_, hat⟩ := h
  exact hat.obeys hprog

theorem ConnTask.Ok.utters_of_forward (hok : t.Ok env) {dest : Uuid} {msg : BusMessage}
    {k : Option Nat → Prog Conn Op Op.Res Next} (hprog : t.prog = .wait s (.publish dest msg) k)
    (hforward : msg.isForward = true) : Utters env.serde t msg := by
  cases hok.sends hprog with
  | replace => cases hforward
  | presence => cases hforward
  | rvJoined => cases hforward
  | rvMsg => cases hforward
  | forward _ hin =>
    have ⟨e, he, heq⟩ := List.mem_filterMap.mp hin
    cases e with
    | client m =>
      have ⟨f, hf, hmsg⟩ := forwardFor_eq_some heq
      subst hmsg
      cases hf with
      | text hparse _ _ henv _ hobject _ => exact .frame he (.wrapper hparse henv hobject)
      | binary _ _ _ => exact .silent rfl
    | _ => cases heq

theorem ConnTask.Ok.utters (hok : t.Ok env) (hkept : (speaking env).Kept t) {dest : Uuid}
    {msg : BusMessage} {k : Option Nat → Prog Conn Op Op.Res Next}
    (hprog : t.prog = .wait s (.publish dest msg) k) : Utters env.serde t msg := by
  have hspeaks := hkept.speaks hprog
  have hinputs := fun e => hok.mem_inputs (e := e)
  generalize t.stage = stage at hspeaks hinputs
  cases hspeaks with
  | opening h =>
    cases h with
    | replace => exact .silent rfl
    | comeOnline => exact .presence rfl
  | text h =>
    cases h with
    | publish h => exact .frame (hinputs _ rfl) h
  | binary h =>
    cases h with
    | publish h => exact hok.utters_of_forward hprog h
  | deadline h =>
    cases h with
    | publish h => exact hok.utters_of_forward hprog h
  | delivery h => cases h
  | finishing h =>
    cases h with
    | goOffline => exact .presence rfl

end

namespace World

/--
Some connection has published the message, unless it carries no text.
-/
def Uttered (env : Env) (w : World) (msg : BusMessage) : Prop :=
  msg.text? = none ∨ ∃ c t, w.conns c = some t ∧ Utters env.serde t msg

variable {env : Env} {w w' : World}

theorem inputs_subset {l : Label} {c : Uuid} {t : ConnTask} (hstep : w.step env l = some w')
    (hc : w.conns c = some t)
    : ∃ t', w'.conns c = some t' ∧ t'.me = t.me ∧ t.inputs ⊆ t'.inputs := by
  have ⟨t', hc', hme⟩ := step_conn hstep hc
  refine ⟨t', hc', hme, ?_⟩
  have htask := step_task hstep c
  rw [hc'] at htask
  generalize hu : some t' = u at htask
  cases htask with
  | same _ =>
    rw [hc] at hu
    cases hu
    exact List.Subset.refl _
  | connected hnone =>
    rw [hc] at hnone
    cases hnone
  | resumed hc1 _ _ =>
    rw [hc] at hc1
    cases hc1
    cases hu
    rw [ConnTask.resume_inputs]
    exact List.Subset.refl _
  | handled hc1 _ _ =>
    rw [hc] at hc1
    cases hc1
    cases hu
    rw [ConnTask.handle_inputs]
    exact List.subset_cons_self _ _

theorem Uttered.step {l : Label} {msg : BusMessage} (h : Uttered env w msg)
    (hstep : w.step env l = some w') : Uttered env w' msg := by
  cases h with
  | inl hnone => exact .inl hnone
  | inr hconn =>
    have ⟨c, t, hc, hutters⟩ := hconn
    have ⟨t', hc', hme, hinputs⟩ := inputs_subset hstep hc
    refine .inr ⟨c, t', hc', ?_⟩
    cases hutters with
    | frame hin h => exact .frame (hinputs hin) (hme ▸ h)
    | presence h => exact .presence (hme ▸ h)
    | silent h => exact .silent h

/--
Everything that is on its way was published by a connection, or is a message of a request.
-/
structure UtteredOk (env : Env) (w : World) : Prop where
  sound : Sound env w
  kept : (speaking env).TasksKept w
  jobs : ∀ d msg, w.Todo (.notify d msg) → msg.text? = none
  flight : InFlight (fun _ msg => Uttered env w msg) w

theorem utteredOk_init (env : Env) (db : Db) : UtteredOk env (init db) where
  sound := sound_init env db
  kept := StageRule.tasksKept_init _ db
  jobs d msg htodo := by
    have ⟨_, hmem, _⟩ := htodo
    cases hmem
  flight := inFlight_init _ db

theorem UtteredOk.step {l : Label} (h : UtteredOk env w) (hstep : w.step env l = some w')
    : UtteredOk env w' where
  sound := h.sound.step hstep
  kept := h.kept.step h.sound.tasks hstep
  jobs d msg htodo := by
    cases htodo.of_step hstep with
    | inl htodo => exact h.jobs d msg htodo
    | inr hreq =>
      have ⟨req, _, hmem⟩ := hreq
      rcases notify_cases hmem with rfl | ⟨_, rfl⟩ | ⟨_, rfl⟩ <;> rfl
  flight := by
    have hflight := h.flight.mono fun _ _ hmsg => hmsg.step hstep
    apply hflight.step h.sound.wellFormed hstep
    . exact fun _ _ => .inl rfl
    . intro dest msg hpub
      cases hpub.cases h.sound.tasks with
      | inl hconn =>
        have ⟨c, f, t, s, k, _, hc, hprog, _⟩ := hconn
        have hutters := (h.sound.tasks c t hc).utters (h.kept c t hc) hprog
        exact Uttered.step (.inr ⟨c, t, hc, hutters⟩) hstep
      | inr htodo => exact .inl (h.jobs dest msg htodo)

theorem utteredOk_run {db : Db} {ls : List Label} (h : run env (init db) ls = some w)
    : UtteredOk env w :=
  Lts.run_stable (fun _ _ _ hok hstep => UtteredOk.step hok hstep) (utteredOk_init env db) h

end World

/--
The texts that the relay writes by itself: the answers to the device's own frames, and what it has
read about its pairs.
-/
inductive OwnText : String → Prop where
  | error {err : RelayError} {dest : Option Uuid} : OwnText (errorMessage err dest)
  | rvJoined {rvId : String} {b : Bool} : OwnText (rvJoinedMessage rvId b)
  | presence {pairId peer : Uuid} {b : Bool} : OwnText (presenceMessage pairId peer b)
  | pairRevoked {st : RevokeStatement} : OwnText (pairRevokedMessage st)

/--
A text that some device has made the relay send: out of one of its text frames, or by coming or
going.
-/
inductive FromDevice (w : World) (text : String) : Prop where
  | frame {c : Uuid} {t : ConnTask} {frame : String} (hc : w.conns c = some t)
      (hin : .client (.text frame) ∈ t.inputs) (h : Relayed t.me.deviceId frame text)
  | presence {c : Uuid} {t : ConnTask} {pairId : Uuid} {b : Bool} (hc : w.conns c = some t)
      (h : text = presenceMessage pairId t.me.deviceId b)

/--
The text that the connection is about to write came over the bus.
-/
def ConnTask.relays (t : ConnTask) (text : String) : Prop :=
  ∃ msg, t.stage = .handling (.delivery (.bus msg)) ∧ msg.text? = some text

section

variable {env : Env} {w : World}

theorem World.Uttered.fromDevice (hraw : env.serde.RawValues) {msg : BusMessage} {text : String}
    (h : w.Uttered env msg) (htext : msg.text? = some text) : FromDevice w text := by
  cases h with
  | inl hnone => cases hnone.symm.trans htext
  | inr hconn =>
    have ⟨c, t, hc, hutters⟩ := hconn
    cases hutters with
    | frame hin h =>
      have ⟨text', htext', hrelayed⟩ := h.relayed hraw
      cases htext.symm.trans htext'
      exact .frame hc hin hrelayed
    | presence h =>
      subst h
      cases htext
      exact .presence hc rfl
    | silent h => cases h.symm.trans htext

/--
A connection writes a text that came over the bus, or one of its own.
-/
theorem Speaks.sendText {serde : Serde} {t : ConnTask} {text : String}
    (h : Speaks serde t.me t.stage (.sendText text)) : t.relays text ∨ ¬ t.relays text ∧ OwnText text := by
  unfold ConnTask.relays
  generalize t.stage = stage at h
  cases h with
  | opening h =>
    refine .inr ⟨nofun, ?_⟩
    cases h with
    | presence => exact .presence
    | pairRevoked => exact .pairRevoked
  | text h =>
    refine .inr ⟨nofun, ?_⟩
    cases h with
    | error => exact .error
    | joined => exact .rvJoined
  | binary h =>
    refine .inr ⟨nofun, ?_⟩
    cases h with
    | error => exact .error
  | deadline h =>
    refine .inr ⟨nofun, ?_⟩
    cases h with
    | error => exact .error
  | delivery h =>
    cases h with
    | presence => exact .inr ⟨by rintro ⟨msg, ⟨⟩, ⟨⟩⟩, .presence⟩
    | forwardText => exact .inl ⟨_, rfl, rfl⟩
    | control => exact .inl ⟨_, rfl, rfl⟩
    | pairRevoked => exact .inr ⟨by rintro ⟨msg, ⟨⟩, ⟨⟩⟩, .pairRevoked⟩
  | finishing h => cases h

/--
Whatever a device sends, another one gets of it only texts of three forms. The members of what a
connection publishes while it handles a text frame are fixed, with `env` as the only part that the
device has chosen freely, and below a name of the relay's own. Every text that a connection writes
is one that was published like that, the news that a device came or went, or one that the relay has
put together by itself.
-/
theorem clients_cannot_forge_control_messages (hraw : env.serde.RawValues) {db : Db}
    {ls : List Label} (hrun : run env (.init db) ls = some w)
    : (∀ c t s (k : Option Nat → Prog Conn Op Op.Res Next) dest msg frame, w.conns c = some t
        → t.prog = .wait s (.publish dest msg) k
        → t.stage = .handling (.client (.text frame))
        → ∃ text, msg.text? = some text ∧ Relayed t.me.deviceId frame text)
      ∧ (∀ c t s (k : Option Nat → Prog Conn Op Op.Res Next) dest msg text, w.conns c = some t
        → t.prog = .wait s (.publish dest msg) k
        → msg.text? = some text → FromDevice w text)
      ∧ (∀ c t s (k : Written → Prog Conn Op Op.Res Next) text, w.conns c = some t
        → t.prog = .wait s (.sendText text) k
        → t.relays text ∧ FromDevice w text ∨ ¬ t.relays text ∧ OwnText text) := by
  have hok := World.utteredOk_run hrun
  refine ⟨?_, ?_, ?_⟩
  . intro c t s k dest msg frame hc hprog hstage
    have hspeaks := (hok.kept c t hc).speaks hprog
    rw [hstage] at hspeaks
    cases hspeaks with
    | text h =>
      cases h with
      | publish h => exact h.relayed hraw
  . intro c t s k dest msg text hc hprog htext
    have hutters := (hok.sound.tasks c t hc).utters (hok.kept c t hc) hprog
    exact World.Uttered.fromDevice hraw (.inr ⟨c, t, hc, hutters⟩) htext
  . intro c t s k text hc hprog
    cases ((hok.kept c t hc).speaks hprog).sendText with
    | inr hown => exact .inr hown
    | inl hrelays =>
      have ⟨msg, hstage, htext⟩ := hrelays
      have hmem := (hok.sound.tasks c t hc).mem_inputs hstage
      exact .inl ⟨hrelays, (hok.flight.inputs c t msg hc hmem).fromDevice hraw htext⟩

end

namespace Sample

/--
The relay whose devices send no other text than `chatText`, which is read as `serde` reads it.
-/
def oneChat : Env :=
  { chat with
    serde := { Serde.derived with
      parseInbound := fun text => if text = chatText then readInbound text else none } }

theorem rawValues_oneChat : oneChat.serde.RawValues := by
  intro frame inbound raw hparse henv
  have hreads : Json.Reads "\x7b\x7d" (.object []) := rfl
  have hread : readInbound chatText
      = some { op := none, dest := some (device 2), env := some "\x7b\x7d", rvId := none } :=
    readInbound_object hreads (by decide +kernel)
  have hframe : frame = chatText ∧ raw = "\x7b\x7d" := by
    simp only [oneChat] at hparse
    split at hparse
    next hframe =>
      rw [hframe, hread] at hparse
      cases hparse
      exact ⟨hframe, (Option.some.inj henv).symm⟩
    . cases hparse
  rw [hframe.1, hframe.2]
  decide +kernel

/--
The second device's connection is about to write the text that the first device has sent.
-/
def relaysChat : List Label :=
  opensPaired "a" (uuid 1) (device 1) ++ opensPaired "b" (uuid 2) (device 2)
    ++ [Label.event (uuid 1) (.client (.text chatText))] ++ execs 4 (uuid 1)
    ++ replaced "b" (uuid 2) (uuid 2) ++ [Label.busMessage "b"]
    ++ [Label.event (uuid 2) (.delivery (.bus (.forwardText (device 1)
        (forwardedText (device 1) "\x7b\x7d")))), .exec (uuid 2) .ok]

def isWriting (t : ConnTask) : Bool :=
  match t.prog, t.stage with
  | .wait _ (.sendText text) _, .handling (.delivery (.bus (.forwardText _ text'))) => text = text'
  | _, _ => false

theorem of_isWriting {t : ConnTask} (h : isWriting t = true)
    : ∃ text s k, t.prog = .wait s (.sendText text) k ∧ t.relays text := by
  unfold isWriting at h
  split at h
  next s text k source text' hprog hstage =>
    have htext : text = text' := of_decide_eq_true h
    subst htext
    exact ⟨text, s, k, hprog, _, hstage, rfl⟩
  . cases h

end Sample

theorem text_of_a_chat_is_not_forged
    : ∃ w t text, run Sample.oneChat (World.init Sample.pairedDb) Sample.relaysChat = some w
      ∧ w.conns (Sample.uuid 2) = some t ∧ t.relays text ∧ FromDevice w text := by
  have hrun : (run Sample.oneChat (World.init Sample.pairedDb) Sample.relaysChat).any (fun w =>
      (w.conns (Sample.uuid 2)).any Sample.isWriting) = true := by
    decide +kernel
  simp only [Option.any_eq_true] at hrun
  have ⟨w, hw, t, ht, hwriting⟩ := hrun
  have ⟨text, s, k, hprog, hrelays⟩ := Sample.of_isWriting hwriting
  have hwrites := (clients_cannot_forge_control_messages Sample.rawValues_oneChat hw).2.2
    (Sample.uuid 2) t s k text ht hprog
  exact ⟨w, t, text, hw, ht, hrelays, (hwrites.resolve_right fun h => h.1 hrelays).2⟩

end HandLiveRelay
