import HandLiveRelay.Lib.JsonStruct
import HandLiveRelay.System.Texts
import HandLiveRelay.System.Unforgeable

/-!
This module contains the answers to joins of a rendezvous. Whoever joins is answered at once on its
own socket, and whoever was there first is told over the bus. Over the bus nobody is told to be
alone.
-/

namespace HandLiveRelay

open Fiber Wire Rendezvous

/-!
The text of an answer.
-/

theorem rvJoinedMessage_inj {r r' : String} {b b' : Bool}
    (h : rvJoinedMessage r b = rvJoinedMessage r' b') : r = r' ∧ b = b' := by
  have hreads : ∀ r b, Json.parse (rvJoinedMessage r b) = some (.object [
      (Json.text "op", .string (Json.text "rv_joined")), (Json.text "peer_present", .bool b),
      (Json.text "rv_id", .string (Json.text r))]) := by
    intro r b
    apply Json.parse_of_reads
    rw [rvJoinedMessage_eq]
    refine Json.reads_object [("op", _, _), ("peer_present", _, _), ("rv_id", _, _)] ?_
    simp only [List.mem_cons, List.not_mem_nil, or_false]
    rintro m (rfl | rfl | rfl)
    . exact Json.reads_quote _
    . exact Json.reads_bool b
    . exact Json.reads_quote _
  have hparse := (hreads r b).symm.trans ((congrArg Json.parse h).trans (hreads r' b'))
  simp only [Option.some.injEq, Json.Value.object.injEq, List.cons.injEq, Prod.mk.injEq,
    Json.Value.bool.injEq, Json.Value.string.injEq, true_and, and_true] at hparse
  have htext := congrArg Json.toString? hparse.2
  rw [Json.toString?_text, Json.toString?_text] at htext
  exact ⟨Option.some.inj htext, hparse.1⟩

theorem startsWith_rvJoinedMessage (rvId : String) (b : Bool)
    : Text.startsWith "\x7b\"op\":\"rv_j" (rvJoinedMessage rvId b) = true := by
  unfold rvJoinedMessage
  simp only [String.append_assoc]
  rw [Text.startsWith_append _ (by decide)]
  decide

section

variable {rvId : String} {b : Bool}

theorem errorMessage_ne_rvJoinedMessage (err : RelayError) (dest : Option Uuid)
    : errorMessage err dest ≠ rvJoinedMessage rvId b := by
  intro heq
  have h := startsWith_rvJoinedMessage rvId b
  unfold errorMessage at heq
  simp only [← heq, String.append_assoc] at h
  rw [← String.append_assoc, Text.startsWith_append _ (by cases err <;> decide)] at h
  exact absurd h (by cases err <;> decide)

theorem pairRevokedMessage_ne_rvJoinedMessage (st : RevokeStatement)
    : pairRevokedMessage st ≠ rvJoinedMessage rvId b := by
  intro heq
  have h := Text.startsWith_of_append (p := "\x7b\"op") (q := "\":\"rv_j")
    (startsWith_rvJoinedMessage rvId b)
  unfold pairRevokedMessage at heq
  simp only [← heq, String.append_assoc] at h
  rw [Text.startsWith_append _ (by decide)] at h
  exact absurd h (by decide)

theorem forwardedText_ne_rvJoinedMessage (source : Uuid) (env : String)
    : forwardedText source env ≠ rvJoinedMessage rvId b := by
  intro heq
  have h := Text.startsWith_of_append (p := "\x7b\"op") (q := "\":\"rv_j")
    (startsWith_rvJoinedMessage rvId b)
  unfold forwardedText at heq
  simp only [← heq, String.append_assoc] at h
  rw [Text.startsWith_append _ (by decide)] at h
  exact absurd h (by decide)

theorem rvMsgMessage_ne_rvJoinedMessage (r env : String)
    : rvMsgMessage r env ≠ rvJoinedMessage rvId b := by
  intro heq
  have h := startsWith_rvJoinedMessage rvId b
  unfold rvMsgMessage at heq
  simp only [← heq, String.append_assoc] at h
  rw [Text.startsWith_append _ (by decide)] at h
  exact absurd h (by decide)

end

/--
What a text says about a rendezvous, if it is an answer to a join.
-/
def answer? (rvId text : String) : Option Bool :=
  if text = rvJoinedMessage rvId true then some true
  else if text = rvJoinedMessage rvId false then some false
  else none

theorem answer?_eq_some {rvId text : String} {b : Bool}
    : answer? rvId text = some b ↔ text = rvJoinedMessage rvId b := by
  unfold answer?
  constructor
  . intro h
    split at h
    next htext =>
      cases h
      exact htext
    . split at h
      next htext =>
        cases h
        exact htext
      . cases h
  . rintro rfl
    cases b with
    | true => exact if_pos rfl
    | false =>
      rw [if_neg fun heq => Bool.noConfusion (rvJoinedMessage_inj heq).2, if_pos rfl]

/-!
What a connection does that has joined.
-/

/--
What a connection has to do next that has just joined a rendezvous: it answers its device, and then
tells the other member if it is new there itself.
-/
def owed (me : Ident) : ConnTrace → Option Op
  | ⟨_, .rvJoin rvId, some (.joined _ members)⟩ :: _ =>
    some (.sendText (rvJoinedMessage rvId (members.length = 2)))
  | ⟨_, .sendText _, .ok⟩ :: ⟨_, .rvJoin rvId, some (.joined true members)⟩ :: _ =>
    if members.length = 2 then
      (members.filter (· ≠ me.deviceId)).head?.map fun other =>
        .publish other (.control (rvJoinedMessage rvId true))
    else
      none
  | _ => none

theorem owed_cons {me : Ident} {t : ConnTrace} {p : Performed Conn Op Op.Res} (h : owed me t = none)
    (hp : ∀ rvId, p.op ≠ .rvJoin rvId) : owed me (p :: t) = none := by
  unfold owed
  split
  next heq =>
    cases heq
    exact absurd rfl (hp _)
  next heq =>
    cases heq
    cases h
  . rfl

/--
A connection does what it owes, and while it handles a text frame it answers nothing else about a
rendezvous.
-/
structure Answers (me : Ident) (stage : Stage) (t : ConnTrace) (o : Op) : Prop where
  next : ∀ o', owed me t = some o' → o = o'
  own : ∀ frame rvId b, stage = .handling (.client (.text frame))
    → o = .sendText (rvJoinedMessage rvId b) → owed me t = some o

theorem Answers.of_none {me : Ident} {stage : Stage} {t : ConnTrace} {o : Op} (ht : owed me t = none)
    (h : ∀ frame rvId b, stage = .handling (.client (.text frame))
      → o ≠ .sendText (rvJoinedMessage rvId b)) : Answers me stage t o where
  next o' ho' := by
    rw [ht] at ho'
    cases ho'
  own frame rvId b hstage ho := absurd ho (h frame rvId b hstage)

/--
An operation that neither joins a rendezvous nor answers about one.
-/
structure Aside (stage : Stage) (o : Op) : Prop where
  join : ∀ rvId, o ≠ .rvJoin rvId
  own : ∀ frame rvId b, stage = .handling (.client (.text frame))
    → o ≠ .sendText (rvJoinedMessage rvId b)

theorem aside_error {stage : Stage} {err : RelayError} {dest : Option Uuid}
    : Aside stage (.sendText (errorMessage err dest)) where
  join := nofun
  own _ _ _ _ heq := errorMessage_ne_rvJoinedMessage err dest (Op.sendText.inj heq)

theorem aside_publish {stage : Stage} {dest : Uuid} {msg : BusMessage}
    : Aside stage (.publish dest msg) where
  join := nofun
  own := nofun

theorem answers_of_only {me : Ident} {stage : Stage} {α : Type} {p : Prog Conn Op Op.Res α}
    {P : Op → Prop} (h : p.Only P) (hP : ∀ o, P o → Aside stage o) {t : ConnTrace}
    (ht : owed me t = none)
    : p.Sat (fun _ t o => Answers me stage t o) (fun _ _ t => owed me t = none) t := by
  -- by induction on the program, where nothing is owed at any of its operations
  induction p generalizing t with
  | done s a => exact ht
  | wait s o k ih =>
    have ⟨ho, hrest⟩ := h
    refine ⟨.of_none ht (hP o ho).own, ?_⟩
    intro r
    exact ih r (hrest r) (owed_cons ht (hP o ho).join)

namespace Conn

variable {settings : Settings} {serde : Serde} {me : Ident} {stage : Stage} {t : ConnTrace}

theorem answers_sendError {err : RelayError} {dest : Option Uuid} (s : Conn) (ht : owed me t = none)
    : ((sendError err dest).start s).Sat (fun _ t o => Answers me stage t o)
        (fun _ _ t => owed me t = none) t :=
  answers_of_only (asks_sendError aside_error s) (fun _ ho => ho) ht

/--
Whoever joins a rendezvous is answered, and then the other member is told.
-/
theorem answers_rvJoin {rvId : Option String} (s : Conn) (ht : owed me t = none)
    : ((rvJoin me rvId).start s).Sat (fun _ t o => Answers me stage t o)
        (fun _ _ t => owed me t = none) t := by
  unfold rvJoin
  split
  . exact answers_sendError s ht
  next r _ =>
    refine ⟨.of_none ht (by simp), ?_⟩
    intro (joined : Option Join)
    cases joined with
    | none => exact answers_sendError s rfl
    | some join =>
      cases join with
      | full => exact answers_sendError s rfl
      | joined newly members =>
        refine ⟨⟨fun o' ho' => Option.some.inj ho', fun _ _ _ _ _ => rfl⟩, ?_⟩
        intro (written : Written)
        cases written with
        | ok =>
          show ((notifyOthers _ (if members.length = 2 ∧ newly then _ else [])).start s).Sat _ _ _
          split
          next htwo =>
            obtain ⟨hlength, hnewly⟩ := htwo
            subst hnewly
            cases hothers : members.filter (· ≠ me.deviceId) with
            | nil =>
              show owed me _ = none
              simp only [owed, hlength, if_true, hothers]
              rfl
            | cons other others =>
              refine ⟨⟨?_, by simp⟩, ?_⟩
              . intro o' ho'
                simp only [owed, hlength, if_true, hothers] at ho'
                exact Option.some.inj ho'
              . intro _
                exact answers_of_only (asks_notifyOthers (fun _ => aside_publish) s) (fun _ ho => ho) rfl
          next htwo =>
            show owed me _ = none
            cases newly with
            | true =>
              have hlength : members.length ≠ 2 := fun heq => htwo ⟨heq, rfl⟩
              simp only [owed, hlength, if_false]
            | false => rfl
        | _ => rfl

theorem answers_handleText {text : String} (s : Conn) (ht : owed me t = none)
    : ((handleText settings serde me text).start s).Sat (fun _ t o => Answers me stage t o)
        (fun _ _ t => owed me t = none) t := by
  cases handleText_cases settings serde me text with
  | inl hjoin =>
    have ⟨rvId, heq⟩ := hjoin
    rw [heq]
    exact answers_rvJoin s ht
  | inr hrest =>
    cases hrest with
    | inl hmsg =>
      have ⟨rvId, env, heq⟩ := hmsg
      rw [heq]
      refine answers_of_only (P := Aside stage) ?_ (fun _ ho => ho) ht
      exact asks_rvMsg (fun _ _ => aside_error)
        (fun _ _ _ _ _ => ⟨⟨nofun, nofun⟩, fun _ => aside_publish⟩) s
    | inr hforward =>
      refine answers_of_only (hforward s) ?_ ht
      intro o ho
      cases ho with
      | error => exact aside_error
      | publish _ => exact aside_publish
      | _ => exact ⟨nofun, nofun⟩

end Conn

def answering (env : Env) : StageRule env where
  obeys me stage _ _ t o := Answers me stage t o
  post me _ _ _ _ t := owed me t = none
  opening me previous := by
    refine answers_of_only (Conn.asks_start .new) ?_ rfl
    intro o ho
    refine ⟨?_, nofun⟩
    rintro rvId rfl
    cases ho
  handling me e _ _ s t hrest ht := by
    by_cases he : ∃ frame, e = .client (.text frame)
    . have ⟨frame, he⟩ := he
      subst he
      refine ⟨.of_none ht nofun, fun now => ?_⟩
      show (Prog.bind ((Conn.handleText (env.settings me.inst) env.serde me frame).start
        { s with lastRx := now }) _).Sat _ _ _
      exact (Conn.answers_handleText _ (owed_cons ht (by simp))).bind fun _ _ _ h => h
    . refine answers_of_only (Conn.speaks_serve hrest.pending) ?_ ht
      intro o ho
      refine ⟨?_, fun frame _ _ hstage => ?_⟩
      . rintro rvId rfl
        cases ho with
        | text h => exact he ⟨_, rfl⟩
        | binary h => cases h
        | deadline h => cases h
        | delivery h => cases h
      . cases hstage
        exact absurd ⟨frame, rfl⟩ he
  finishing me e _ _ s t ht := by
    refine answers_of_only (Conn.asks_finish s) ?_ ht
    intro o ho
    refine ⟨?_, nofun⟩
    rintro rvId rfl
    cases ho

/-!
What reaches a connection over the bus.
-/

section

variable {env : Env} {w w' : World} {rvId : String}

/--
Over the bus nobody is told to be alone.
-/
theorem World.Uttered.ne_alone {msg : BusMessage} {text : String} (h : w.Uttered env msg)
    (htext : msg.text? = some text) : text ≠ rvJoinedMessage rvId false := by
  cases h with
  | inl hnone => cases hnone.symm.trans htext
  | inr hconn =>
    have ⟨c, t, hc, hutters⟩ := hconn
    cases hutters with
    | frame hin h =>
      cases h with
      | wrapper _ _ _ =>
        cases htext
        exact forwardedText_ne_rvJoinedMessage _ _
      | rvMsg _ _ _ _ =>
        cases htext
        exact rvMsgMessage_ne_rvJoinedMessage _ _
      | rvJoined _ _ =>
        cases htext
        intro heq
        cases (rvJoinedMessage_inj heq).2
    | presence h =>
      subst h
      cases htext
      exact presenceMessage_ne_rvJoinedMessage _ _ _ _ _
    | silent h => cases h.symm.trans htext

theorem World.UtteredOk.underway_ne_alone (h : UtteredOk env w) {me : Ident} {text : String}
    (hmem : text ∈ (w.underway me).filterMap BusMessage.control?)
    : text ≠ rvJoinedMessage rvId false := by
  have ⟨msg, hmsg, hcontrol⟩ := List.mem_filterMap.mp hmem
  have htext : msg.text? = some text := by
    cases msg with
    | control text' => exact hcontrol
    | _ => cases hcontrol
  unfold underway at hmsg
  cases List.mem_append.mp hmsg with
  | inl hqueue =>
    have ⟨d, hd, hbus⟩ := List.mem_filterMap.mp hqueue
    cases d with
    | bus msg' =>
      cases hbus
      have ⟨_, _, huttered⟩ := h.flight.queue _ _ hd
      exact huttered.ne_alone htext
    | resync => cases hbus
  | inr hstream =>
    have ⟨p, hp, hfor⟩ := List.mem_filterMap.mp hstream
    have ⟨d, msg', heq, huttered⟩ := h.flight.stream _ p hp
    subst heq
    rw [Packet.messageFor_encode] at hfor
    split at hfor
    . cases hfor
      exact huttered.ne_alone htext
    . cases hfor

/--
Apart from what came over the bus, a connection only answers about a rendezvous while it handles a
text frame.
-/
theorem Speaks.rvJoined {serde : Serde} {me : Ident} {stage : Stage} {b : Bool}
    (h : Speaks serde me stage (.sendText (rvJoinedMessage rvId b)))
    : (∃ msg, stage = .handling (.delivery (.bus msg))
        ∧ msg.text? = some (rvJoinedMessage rvId b))
      ∨ ∃ frame, stage = .handling (.client (.text frame)) := by
  have herror : ∀ err dest, errorMessage err dest ≠ rvJoinedMessage rvId b :=
    fun err dest => errorMessage_ne_rvJoinedMessage err dest
  generalize hop : Op.sendText (rvJoinedMessage rvId b) = o at h
  cases h with
  | opening h =>
    cases h with
    | presence => exact absurd (Op.sendText.inj hop).symm (presenceMessage_ne_rvJoinedMessage _ _ _ _ _)
    | pairRevoked => exact absurd (Op.sendText.inj hop).symm (pairRevokedMessage_ne_rvJoinedMessage _)
    | _ => cases hop
  | text _ => exact .inr ⟨_, rfl⟩
  | binary h =>
    cases h with
    | error => exact absurd (Op.sendText.inj hop).symm (herror _ _)
    | _ => cases hop
  | deadline h =>
    cases h with
    | error => exact absurd (Op.sendText.inj hop).symm (herror _ _)
    | _ => cases hop
  | delivery h =>
    cases h with
    | presence => exact absurd (Op.sendText.inj hop).symm (presenceMessage_ne_rvJoinedMessage _ _ _ _ _)
    | pairRevoked => exact absurd (Op.sendText.inj hop).symm (pairRevokedMessage_ne_rvJoinedMessage _)
    | forwardText =>
      cases hop
      exact .inl ⟨_, rfl, rfl⟩
    | control =>
      cases hop
      exact .inl ⟨_, rfl, rfl⟩
    | _ => cases hop
  | finishing h => cases h <;> cases hop
  | _ => cases hop

end

end HandLiveRelay
