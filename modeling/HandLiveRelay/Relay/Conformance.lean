import HandLiveRelay.Relay.Contract

/-!
This module contains the proof that the code of a connection keeps to its contract in every stage.
-/

namespace HandLiveRelay

open Fiber Wire

/-!
No text of the relay itself passes for a frame of another device.
-/

theorem Frame.ofText?_append {a : String} (b : String) (hlen : "\x7b\"f".toList.length ≤ a.toList.length)
    (ha : Text.startsWith "\x7b\"f" a = false)
    : ofText? (a ++ b) = none := by
  have hab : ¬ (text (a ++ b)).isForwarded := by
    intro h
    have h : Text.startsWith "\x7b\"f" (a ++ b) := Text.startsWith_of_append (q := "rom\":") h
    rw [Text.startsWith_append b hlen, ha] at h
    exact Bool.false_ne_true h
  exact if_neg hab

@[simp]
theorem ofText?_errorMessage (err : RelayError) (dest : Option Uuid)
    : Frame.ofText? (errorMessage err dest) = none := by
  unfold errorMessage
  simp only [String.append_assoc]
  exact Frame.ofText?_append _ (by decide) (by decide)

@[simp]
theorem ofText?_presenceMessage (pairId peer : Uuid) (b : Bool)
    : Frame.ofText? (presenceMessage pairId peer b) = none := by
  unfold presenceMessage
  simp only [String.append_assoc]
  exact Frame.ofText?_append _ (by decide) (by decide)

@[simp]
theorem ofText?_pairRevokedMessage (st : RevokeStatement)
    : Frame.ofText? (pairRevokedMessage st) = none := by
  unfold pairRevokedMessage
  simp only [String.append_assoc]
  exact Frame.ofText?_append _ (by decide) (by decide)

@[simp]
theorem ofText?_rvJoinedMessage (rvId : String) (b : Bool)
    : Frame.ofText? (rvJoinedMessage rvId b) = none := by
  unfold rvJoinedMessage
  simp only [String.append_assoc]
  exact Frame.ofText?_append _ (by decide) (by decide)

theorem did_of_cons {t : ConnTrace} {p : Performed Conn Op Op.Res} {o : Op} {r : o.Res}
    (hp : p.op ≠ o) (h : Did (p :: t) o r) : Did t o r := by
  have ⟨s, hs⟩ := h
  cases List.mem_cons.mp hs with
  | inl hs => exact absurd (hs ▸ rfl) hp
  | inr hs => exact ⟨s, hs⟩

theorem did_cons {t : ConnTrace} {s : Conn} {o : Op} {r r' : o.Res}
    (h : Did (⟨s, o, r⟩ :: t) o r') : r = r' ∨ Did t o r' := by
  have ⟨s', hs'⟩ := h
  cases List.mem_cons.mp hs' with
  | inl hs' =>
    injection hs' with _ _ hres
    exact .inl hres.symm
  | inr hs' => exact .inr ⟨s', hs'⟩

/--
The operation neither reads the pairs nor publishes or writes a frame of another device.
-/
structure Neutral (p : Performed Conn Op Op.Res) : Prop where
  pairs : readPairs p = none
  forward : p.op.forward? = none
  frame : writtenFrame p = none

theorem neutral_sendText {text : String} (h : Frame.ofText? text = none) (s : Conn) (r : Written)
    : Neutral ⟨s, .sendText text, r⟩ := by
  refine ⟨rfl, rfl, ?_⟩
  cases r with
  | ok => exact h
  | closed => rfl
  | timeout => rfl

theorem lastPairs_cons {p : Performed Conn Op Op.Res} {t : ConnTrace} (h : readPairs p = none)
    : lastPairs (p :: t) = lastPairs t := by
  unfold lastPairs
  rw [List.findSome?_cons, h]

theorem forwards_cons {p : Performed Conn Op Op.Res} {t : ConnTrace} (h : p.op.forward? = none)
    : forwards (p :: t) = forwards t := by
  unfold forwards
  rw [List.filterMap_cons, h]

theorem frames_cons {p : Performed Conn Op Op.Res} {t : ConnTrace} (h : writtenFrame p = none)
    : frames (p :: t) = frames t := by
  unfold frames
  rw [List.filterMap_cons, h]

theorem accepted_cons {s : Conn} {p : Performed Conn Op Op.Res} {t : ConnTrace}
    (h : p.op.forward? = none) : accepted s (p :: t) = accepted s t := by
  unfold accepted
  rw [forwards_cons h]

theorem PeersOk.cons {s : Conn} {p : Performed Conn Op Op.Res} {t : ConnTrace} (h : PeersOk s t)
    (hp : readPairs p = none) : PeersOk s (p :: t) := by
  constructor
  . rw [lastPairs_cons hp]
    exact h.pairs
  . rw [lastPairs_cons hp]
    exact h.peers
  . exact h.buckets

theorem PeersOk.withPairs {s : Conn} {t : ConnTrace} (l : List (Uuid × Uuid))
    : PeersOk (s.withPairs l) (⟨s, .activePeers, some l⟩ :: t) := by
  constructor
  . rfl
  . rfl
  . intro x hx
    unfold Conn.withPairs at hx ⊢
    dsimp only at hx ⊢
    split at hx
    . assumption
    . simp at hx

theorem Opened.cons {me : Ident} {p : Performed Conn Op Op.Res} {t : ConnTrace} (h : Opened me t)
    (hp : p.op ≠ .takeRevokedNotices) : Opened me (p :: t) := by
  constructor
  . exact h.subscribed.cons p
  . have ⟨n, hn⟩ := h.published
    exact ⟨n, hn.cons p⟩
  . intro l hl st hst
    exact (h.written l (did_of_cons hp hl) st hst).cons p

theorem Permits.ne_takeRevokedNotices {me : Ident} {e : Event} {s : Conn} {t : ConnTrace} {o : Op}
    (h : Permits me (.handling e) s t o) : o ≠ .takeRevokedNotices := by
  cases h <;> simp

section

variable {serde : Serde} {me : Ident} {mark : Mark} {stage : Stage}

/--
`StageOk` between two operations.
-/
abbrev Holds (serde : Serde) (me : Ident) (mark : Mark) (stage : Stage) (s : Conn) (t : ConnTrace)
    : Prop :=
  StageOk serde me mark stage (accepted s t) s t

/--
Since the stage began no frame was accepted and none of another device was written.
-/
structure Before (me : Ident) (mark : Mark) (stage : Stage) (s : Conn) (t : ConnTrace)
    : Prop where
  peers : PeersOk s t
  pending : ∀ p, s.pending = some p → p.bus.isForward
  accepted : accepted s t = mark.accepted
  frames : frames t = mark.frames
  opened : ∀ e, stage = .handling e → Opened me t

variable {s : Conn} {t : ConnTrace} {o : Op}

theorem Before.holds (h : Before me mark stage s t) : Holds serde me mark stage s t where
  peers := h.peers
  pending := h.pending
  accepted := .inl h.accepted
  frames := .inl h.frames
  opened := h.opened

theorem opened_cons (h : ∀ e, stage = .handling e → Opened me t) (hp : Permits me stage s t o)
    (r : o.Res) : ∀ e, stage = .handling e → Opened me (⟨s, o, r⟩ :: t) := by
  intro e he
  subst he
  exact (h e rfl).cons hp.ne_takeRevokedNotices

theorem Before.cons (h : Before me mark stage s t) (hp : Permits me stage s t o) {r : o.Res}
    (hn : Neutral ⟨s, o, r⟩) : Before me mark stage s (⟨s, o, r⟩ :: t) where
  peers := h.peers.cons hn.pairs
  pending := h.pending
  accepted := by rw [accepted_cons hn.forward, h.accepted]
  frames := by rw [frames_cons hn.frame, h.frames]
  opened := opened_cons h.opened hp r

theorem Holds.cons (h : Holds serde me mark stage s t) (hp : Permits me stage s t o) {r : o.Res}
    (hn : Neutral ⟨s, o, r⟩) : Holds serde me mark stage s (⟨s, o, r⟩ :: t) where
  peers := h.peers.cons hn.pairs
  pending := h.pending
  accepted := by
    rw [accepted_cons hn.forward]
    exact h.accepted
  frames := by
    rw [frames_cons hn.frame]
    exact h.frames
  opened := opened_cons h.opened hp r

theorem Before.withPairs (h : Before me mark stage s t) (hp : Permits me stage s t .activePeers)
    (l : List (Uuid × Uuid))
    : Before me mark stage (s.withPairs l) (⟨s, .activePeers, some l⟩ :: t) where
  peers := PeersOk.withPairs l
  pending := h.pending
  accepted := by
    rw [accepted_cons rfl]
    exact h.accepted
  frames := by rw [frames_cons rfl, h.frames]
  opened := opened_cons h.opened hp (some l)

/--
The fields that only keep times play no role.
-/
theorem Before.times (h : Before me mark stage s t) (lastMissReload : Option Rat) (lastRx : Rat)
    : Before me mark stage { s with lastMissReload, lastRx } t where
  peers := ⟨h.peers.pairs, h.peers.peers, h.peers.buckets⟩
  pending := h.pending
  accepted := h.accepted
  frames := h.frames
  opened := h.opened

theorem Before.bucket {x : Uuid} (h : Before me mark stage s t) (hx : x ∈ s.peers)
    (b : TokenBucket)
    : Before me mark stage { s with buckets := Function.update s.buckets x (some b) } t where
  peers := by
    refine ⟨h.peers.pairs, h.peers.peers, ?_⟩
    intro y hy
    by_cases hyx : y = x
    . exact hyx ▸ hx
    . dsimp only at hy
      rw [Function.update_of_ne hyx] at hy
      exact h.peers.buckets y hy
  pending := h.pending
  accepted := h.accepted
  frames := h.frames
  opened := h.opened

theorem obeys (h : Holds serde me mark stage s t) (hp : Permits me stage s t o)
    (hf : o.forward? = none) : Obeys serde me mark stage s t o := by
  refine ⟨?_, hp⟩
  rw [hf]
  exact h

theorem sat_ask {α : Type} {f : o.Res → ConnCode α} {Q : α → Conn → ConnTrace → Prop}
    (h : Obeys serde me mark stage s t o)
    (hf : ∀ r, ((f r).start s).Sat (Obeys serde me mark stage) Q (⟨s, o, r⟩ :: t))
    : ((ask o >>= f).start s).Sat (Obeys serde me mark stage) Q t :=
  Prog.sat_perform h hf

/--
The last operation failed.
-/
def LastFailed (t : ConnTrace) : Prop :=
  ∃ p t', t = p :: t' ∧ Failed p

def Op.IsWrite (o : Op) : Prop :=
  ∃ text, o = .sendText text

def Op.IsPublish (o : Op) : Prop :=
  ∃ dest msg, o = .publish dest msg

namespace Conn

theorem written_eq_none {r : Written} : written r = none ↔ r = .ok := by
  cases r <;> simp [written]

theorem sat_sendText {text : String} {Q : Option End → Conn → ConnTrace → Prop}
    (h : Holds serde me mark stage s t) (hp : Permits me stage s t (.sendText text))
    (hQ : ∀ r, Q (written r) s (⟨s, .sendText text, r⟩ :: t))
    : ((sendText text).start s).Sat (Obeys serde me mark stage) Q t :=
  sat_ask (obeys h hp rfl) hQ

/--
Texts of the relay itself are written in order up to the first failure.
-/
theorem sat_sendTexts {texts : List String} (h : Holds serde me mark stage s t)
    (hown : ∀ text ∈ texts, Frame.ofText? text = none)
    (hp : ∀ text ∈ texts, ∀ t', Extends Op.IsWrite t t' → Permits me stage s t' (.sendText text))
    : ((sendTexts texts).start s).Sat (Obeys serde me mark stage)
        (fun e s' t' => s' = s ∧ Holds serde me mark stage s t' ∧ Extends Op.IsWrite t t'
          ∧ (e = none → ∀ text ∈ texts, Did t' (.sendText text) .ok)
          ∧ (e ≠ none → ∃ p u, t' = p :: u ∧ Failed p ∧ p.op.IsWrite))
        t := by
  induction texts generalizing t with
  | nil => exact ⟨rfl, h, .rfl, by simp, by simp⟩
  | cons text texts ih =>
    have hperm := hp text List.mem_cons_self t .rfl
    apply sat_ask (obeys h hperm rfl)
    intro r
    have hext : Extends Op.IsWrite t (⟨s, .sendText text, r⟩ :: t) := Extends.rfl.cons ⟨text, rfl⟩
    have h' := Holds.cons h hperm (neutral_sendText (hown text List.mem_cons_self) s r)
    cases r with
    | ok =>
      apply Prog.Sat.mono (ih h' _ _)
      . rintro e s1 t1 ⟨rfl, hholds, hext1, hnone, hsome⟩
        refine ⟨rfl, hholds, hext.trans hext1, ?_, hsome⟩
        intro he text' htext'
        cases List.mem_cons.mp htext' with
        | inl heq =>
          subst heq
          exact hext1.did (did_cons_self t s1 (.sendText text') .ok)
        | inr htext' => exact hnone he text' htext'
      . intro text' htext'
        exact hown text' (List.mem_cons_of_mem text htext')
      . intro text' htext' t1 ht1
        exact hp text' (List.mem_cons_of_mem text htext') t1 (hext.trans ht1)
    | closed =>
      refine ⟨rfl, h', hext, by simp, ?_⟩
      intro _
      exact ⟨_, _, rfl, by simp [Failed], text, rfl⟩
    | timeout =>
      refine ⟨rfl, h', hext, by simp, ?_⟩
      intro _
      exact ⟨_, _, rfl, by simp [Failed], text, rfl⟩

theorem sat_reloadPeers (h : Before me mark stage s t) (hstage : ∀ e, stage ≠ .finishing e)
    : (reloadPeers.start s).Sat (Obeys serde me mark stage)
        (fun b s' t' => Before me mark stage s' t' ∧ s'.pending = s.pending
          ∧ ∃ r, t' = ⟨s, .activePeers, r⟩ :: t ∧ b = r.isSome)
        t := by
  have hp : Permits me stage s t .activePeers := .activePeers hstage
  apply sat_ask (obeys h.holds hp rfl)
  intro r
  cases r with
  | none => exact ⟨h.cons hp ⟨rfl, rfl, rfl⟩, rfl, none, rfl, rfl⟩
  | some l => exact ⟨h.withPairs hp l, rfl, some l, rfl, rfl⟩

theorem sat_isPeer {peer : Uuid} (h : Before me mark stage s t)
    (hstage : ∀ e, stage ≠ .finishing e)
    : ((isPeer peer).start s).Sat (Obeys serde me mark stage)
        (fun b s' t' => Before me mark stage s' t' ∧ s'.pending = s.pending
          ∧ (b = true → peer ∈ s'.peers))
        t := by
  unfold isPeer
  simp only [Code.start_bind, Code.start_get, Prog.bind_done]
  split
  next hpeer => exact ⟨h, rfl, fun _ => hpeer⟩
  next hpeer =>
    apply sat_ask (obeys h.holds (.now hstage) rfl)
    intro now
    have h := h.cons (.now hstage) (r := now) ⟨rfl, rfl, rfl⟩
    split
    . exact ⟨h, rfl, by simp⟩
    . apply Prog.Sat.bind (sat_reloadPeers (h.times (some now) s.lastRx) hstage)
      rintro b s' t' ⟨h', hpending, _, _, _⟩
      refine ⟨h', hpending, ?_⟩
      intro hb
      simp only [Bool.and_eq_true, decide_eq_true_eq] at hb
      exact hb.2

theorem sat_peerPresence {pairs : List (Uuid × Uuid)} (h : Before me mark stage s t)
    (hstage : ∀ e, stage ≠ .finishing e)
    : ((peerPresence pairs).start s).Sat (Obeys serde me mark stage)
        (fun _ s' t' => s' = s ∧ Before me mark stage s t'
          ∧ Extends (fun o => ∃ devices, o = .online devices) t t')
        t := by
  unfold peerPresence
  dsimp only
  split
  . exact ⟨rfl, h, .rfl⟩
  . apply sat_ask (obeys h.holds (.online hstage) rfl)
    intro r
    exact ⟨rfl, h.cons (.online hstage) ⟨rfl, rfl, rfl⟩, Extends.rfl.cons ⟨_, rfl⟩⟩

theorem mem_presenceTexts {pairs : List (Uuid × Uuid)} {online : List Bool} {text : String}
    (h : text ∈ presenceTexts pairs online)
    : ∃ pairId peer b, text = presenceMessage pairId peer b ∧ (pairId, peer) ∈ pairs := by
  unfold presenceTexts at h
  rw [List.mem_iff_getElem] at h
  have ⟨n, hn, hget⟩ := h
  rw [List.getElem_zipWith] at hget
  exact ⟨_, _, _, hget.symm, List.getElem_mem _⟩

theorem sat_announceTo {b : Bool} (pairs : List (Uuid × Uuid))
    (h : Holds serde me mark stage s t)
    (hp : ∀ p ∈ pairs, ∀ t', Extends Op.IsPublish t t'
      → Permits me stage s t' (.publish p.2 (.control (presenceMessage p.1 me.deviceId b))))
    : ((announceTo me.deviceId b pairs).start s).Sat (Obeys serde me mark stage)
        (fun _ s' t' => s' = s ∧ Holds serde me mark stage s t' ∧ Extends Op.IsPublish t t') t := by
  induction pairs generalizing t with
  | nil => exact ⟨rfl, h, .rfl⟩
  | cons p pairs ih =>
    have hperm := hp p List.mem_cons_self t .rfl
    apply sat_ask (obeys h hperm rfl)
    intro r
    have hext : Extends Op.IsPublish t
        (⟨s, .publish p.2 (.control (presenceMessage p.1 me.deviceId b)), r⟩ :: t) :=
      Extends.rfl.cons ⟨_, _, rfl⟩
    apply Prog.Sat.mono (ih (Holds.cons h hperm ⟨rfl, rfl, rfl⟩) _)
    . rintro _ s' t' ⟨rfl, hholds, hext'⟩
      exact ⟨rfl, hholds, hext.trans hext'⟩
    . intro q hq t' ht'
      exact hp q (List.mem_cons_of_mem p hq) t' (hext.trans ht')

/-!
The frames of the device.
-/

section

variable {settings : Settings} {e : Event}

theorem sat_sendError {err : RelayError} {dest : Option Uuid}
    (h : Holds serde me mark (.handling e) s t)
    : ((sendError err dest).start s).Sat (Obeys serde me mark (.handling e))
        (fun _ s' t' => Holds serde me mark (.handling e) s' t') t := by
  apply sat_sendText h .errorText
  intro r
  exact Holds.cons h .errorText (neutral_sendText (ofText?_errorMessage err dest) s r)

theorem sat_publishForward {p : Pending} (hpending : s.pending = none) (hbus : p.bus.isForward)
    (h : StageOk serde me mark (.handling e) ((p.dest, p.bus) :: accepted s t) s t)
    : ((publishForward p).start s).Sat (Obeys serde me mark (.handling e))
        (fun _ s' t' => Holds serde me mark (.handling e) s' t') t := by
  have hf : (Op.publish p.dest p.bus).forward? = some (p.dest, p.bus) := if_pos hbus
  have hp : Permits me (.handling e) s t (.publish p.dest p.bus) := .forward hbus
  apply sat_ask
  . refine ⟨?_, hp⟩
    rw [hf]
    exact h
  . intro r
    have h' : Holds serde me mark (.handling e) s (⟨s, .publish p.dest p.bus, r⟩ :: t) := by
      have hacc : accepted s (⟨s, .publish p.dest p.bus, r⟩ :: t)
          = (p.dest, p.bus) :: accepted s t := by
        unfold accepted forwards
        rw [List.filterMap_cons, hf, hpending]
        rfl
      constructor
      . exact h.peers.cons rfl
      . exact h.pending
      . rw [hacc]
        exact h.accepted
      . rw [frames_cons rfl]
        exact h.frames
      . exact opened_cons h.opened hp r
    split
    . exact sat_sendError h'
    . apply sat_ask (obeys h' .addEnvelope rfl)
      intro _
      exact Holds.cons h' .addEnvelope ⟨rfl, rfl, rfl⟩
    . exact sat_sendError h'

/--
A frame is accepted for a peer only, and is either published at once or held back in the empty
slot.
-/
theorem sat_forward {dest : Uuid} {bus : BusMessage} {bytes : Nat}
    (h : Before me mark (.handling e) s t) (hpending : s.pending = none)
    (hf : e.forward? serde me = some (dest, bus)) (hbus : bus.isForward)
    : ((forward settings dest bus bytes).start s).Sat (Obeys serde me mark (.handling e))
        (fun _ s' t' => Holds serde me mark (.handling e) s' t') t := by
  apply Prog.Sat.bind (sat_isPeer h (by simp))
  rintro b s1 t1 ⟨h, hpending1, hpeer⟩
  cases b with
  | false => exact sat_sendError h.holds
  | true =>
    have hpeer := hpeer rfl
    rw [hpending] at hpending1
    apply sat_ask (obeys h.holds (.now (by simp)) rfl)
    intro now
    have h := h.cons (.now (by simp)) (r := now) ⟨rfl, rfl, rfl⟩
    simp only [Code.start_bind, Code.start_get, Prog.bind_done]
    generalize ((s1.buckets dest).getD _).take bytes now = taken
    obtain ⟨bucket, wait⟩ := taken
    have h := h.bucket hpeer bucket
    simp only [Code.start_modify, Prog.bind_done]
    split
    . apply sat_publishForward
      . exact hpending1
      . exact hbus
      . refine ⟨h.peers, h.pending, .inr ?_, .inl h.frames, h.opened⟩
        exact ⟨e, (dest, bus), rfl, hf, by rw [h.accepted], hpeer⟩
    . refine ⟨⟨h.peers.pairs, h.peers.peers, h.peers.buckets⟩, ?_, .inr ?_, .inl h.frames, h.opened⟩
      . rintro p ⟨rfl⟩
        exact hbus
      . refine ⟨e, (dest, bus), rfl, hf, ?_, hpeer⟩
        have hacc := h.accepted
        unfold accepted at hacc ⊢
        rw [← hacc]
        simp [hpending1]

theorem sat_notifyOthers {rvId : String} {b : Bool} {others : List Uuid}
    (h : Holds serde me mark (.handling e) s t)
    : ((notifyOthers (rvJoinedMessage rvId b) others).start s).Sat
        (Obeys serde me mark (.handling e))
        (fun _ s' t' => Holds serde me mark (.handling e) s' t') t := by
  induction others generalizing t with
  | nil => exact h
  | cons other others ih =>
    apply sat_ask (obeys h .rvJoined rfl)
    intro r
    exact ih (Holds.cons h .rvJoined ⟨rfl, rfl, rfl⟩)

theorem sat_rvJoin {rvId : Option String} (h : Holds serde me mark (.handling e) s t)
    : ((rvJoin me rvId).start s).Sat (Obeys serde me mark (.handling e))
        (fun _ s' t' => Holds serde me mark (.handling e) s' t') t := by
  unfold rvJoin
  split
  . exact sat_sendError h
  . apply sat_ask (obeys h .rvJoin rfl)
    intro joined
    have h := Holds.cons h .rvJoin (r := joined) ⟨rfl, rfl, rfl⟩
    split
    . exact sat_sendError h
    . exact sat_sendError h
    . apply sat_ask (obeys h .rvJoinedText rfl)
      intro r
      have h := Holds.cons h .rvJoinedText (neutral_sendText (ofText?_rvJoinedMessage _ _) s r)
      cases r with
      | ok => exact sat_notifyOthers h
      | closed => exact h
      | timeout => exact h

theorem sat_rvMsg {rvId env : Option String} (h : Holds serde me mark (.handling e) s t)
    : ((rvMsg serde me rvId env).start s).Sat (Obeys serde me mark (.handling e))
        (fun _ s' t' => Holds serde me mark (.handling e) s' t') t := by
  unfold rvMsg
  split
  . split
    . exact sat_sendError h
    . apply sat_ask (obeys h .rvMembers rfl)
      intro members
      have h := Holds.cons h .rvMembers (r := members) ⟨rfl, rfl, rfl⟩
      split
      . exact sat_sendError h
      . split
        . exact sat_sendError h
        . split
          . exact sat_sendError h
          . apply sat_ask (obeys h .rvMsg rfl)
            intro r
            have h := Holds.cons h .rvMsg (r := r) ⟨rfl, rfl, rfl⟩
            split
            . exact sat_sendError h
            . exact h
            . exact sat_sendError h
  . exact sat_sendError h

theorem sat_handleText {text : String} (h : Before me mark (.handling (.client (.text text))) s t)
    (hpending : s.pending = none)
    : ((handleText settings serde me text).start s).Sat
        (Obeys serde me mark (.handling (.client (.text text))))
        (fun _ s' t' => Holds serde me mark (.handling (.client (.text text))) s' t') t := by
  unfold handleText
  split
  . exact sat_sendError h.holds
  next inbound hparse =>
    dsimp only
    split
    . split
      . split
        . exact sat_sendError h.holds
        . split
          . exact sat_rvJoin h.holds
          . exact sat_rvMsg h.holds
      . exact sat_sendError h.holds
    next hop =>
      split
      next dest env hdest henv =>
        split
        next hvalid =>
          split
          . exact sat_sendError h.holds
          next hsize =>
            apply sat_forward h hpending
            . simp [Event.forward?, forwardFor, hparse, hdest, henv, hop, hvalid, Nat.le_of_not_lt hsize]
            . rfl
        . exact sat_sendError h.holds
      . exact sat_sendError h.holds

theorem sat_handleBinary {frame : List UInt8}
    (h : Before me mark (.handling (.client (.binary frame))) s t) (hpending : s.pending = none)
    : ((handleBinary settings me frame).start s).Sat
        (Obeys serde me mark (.handling (.client (.binary frame))))
        (fun _ s' t' => Holds serde me mark (.handling (.client (.binary frame))) s' t') t := by
  unfold handleBinary
  split
  . exact sat_sendError h.holds
  next dest hdest =>
    rw [Option.filter_eq_some_iff] at hdest
    split
    . exact sat_sendError h.holds
    next hsize =>
      apply sat_forward h hpending
      . simp [Event.forward?, forwardFor, hdest, Nat.le_of_not_lt hsize]
      . rfl

/-!
The messages for the device.
-/

theorem sat_refreshPresence (h : Before me mark (.handling e) s t)
    (he : e = .refresh ∨ e = .delivery .resync)
    : (refreshPresence.start s).Sat (Obeys serde me mark (.handling e))
        (fun r s' t' => Before me mark (.handling e) s' t' ∧ (r ≠ none → LastFailed t')) t := by
  apply sat_ask (obeys h.holds (.refresh he) rfl)
  intro r
  have h := h.cons (.refresh he) (r := r) ⟨rfl, rfl, rfl⟩
  split
  . exact ⟨h, by simp⟩
  . exact ⟨h, fun _ => ⟨_, _, rfl, rfl⟩⟩
  . exact ⟨h, by simp⟩

theorem sat_resync (h : Before me mark (.handling (.delivery .resync)) s t)
    : (resync.start s).Sat (Obeys serde me mark (.handling (.delivery .resync)))
        (fun r s' t' => Before me mark (.handling (.delivery .resync)) s' t'
          ∧ (r ≠ none → LastFailed t'))
        t := by
  apply Prog.Sat.bind (sat_refreshPresence h (.inr rfl))
  rintro r s' t' ⟨h, hfailed⟩
  split
  . exact ⟨h, hfailed⟩
  . apply Prog.Sat.bind (sat_reloadPeers h (by simp))
    rintro b s1 t1 ⟨h, _⟩
    exact ⟨h, by simp⟩

theorem sat_pairsChanged (h : Before me mark (.handling e) s t)
    : (pairsChanged.start s).Sat (Obeys serde me mark (.handling e))
        (fun r s' t' => Holds serde me mark (.handling e) s' t' ∧ (r ≠ none → LastFailed t'))
        t := by
  apply Prog.Sat.bind (sat_reloadPeers h (by simp))
  rintro b s1 t1 ⟨h, _⟩
  cases b with
  | false => exact ⟨h.holds, by simp⟩
  | true =>
    apply Prog.Sat.bind (sat_peerPresence h (by simp))
    rintro online s2 t2 ⟨rfl, h, _⟩
    apply Prog.Sat.mono (sat_sendTexts h.holds _ _)
    . rintro r s3 t3 ⟨rfl, hholds, _, _, hfailed⟩
      refine ⟨hholds, ?_⟩
      intro hr
      have ⟨p, u, hp, hf, _⟩ := hfailed hr
      exact ⟨p, u, hp, hf⟩
    . intro text htext
      have ⟨pairId, peer, b, heq, _⟩ := mem_presenceTexts htext
      rw [heq, ofText?_presenceMessage]
    . intro text htext t' _
      have ⟨pairId, peer, b, heq, _⟩ := mem_presenceTexts htext
      exact heq ▸ .presenceText (by simp)

/--
What an event leaves when its branch is done.
-/
def EventPost (serde : Serde) (me : Ident) (mark : Mark) (e : Event) (r : Option End) (s : Conn)
    (t : ConnTrace) : Prop :=
  Holds serde me mark (.handling e) s t ∧ (r = none → Survives me e)
    ∧ (r ≠ none → MayEnd me t e)

/--
The frame of the message that is being handled is written at most once.
-/
theorem holds_write {r : o.Res} (h : Before me mark (.handling e) s t)
    (hp : Permits me (.handling e) s t o) (hread : readPairs ⟨s, o, r⟩ = none)
    (hf : o.forward? = none)
    (hw : writtenFrame ⟨s, o, r⟩ = none ∨ writtenFrame ⟨s, o, r⟩ = e.frame?)
    : Holds serde me mark (.handling e) s (⟨s, o, r⟩ :: t) := by
  have hacc := accepted_cons (s := s) (p := ⟨s, o, r⟩) (t := t) hf
  refine ⟨h.peers.cons hread, h.pending, .inl (hacc.trans h.accepted), ?_, opened_cons h.opened hp r⟩
  cases hframe : writtenFrame ⟨s, o, r⟩ with
  | none => exact .inl ((frames_cons hframe).trans h.frames)
  | some f =>
    rw [hframe] at hw
    refine .inr ⟨e, f, rfl, ?_, ?_⟩
    . simpa [eq_comm] using hw
    . unfold frames
      rw [List.filterMap_cons, hframe]
      exact congrArg (f :: ·) h.frames

theorem writtenFrame_sendText (s : Conn) (text : String) (r : Written)
    : writtenFrame ⟨s, .sendText text, r⟩ = none
      ∨ writtenFrame ⟨s, .sendText text, r⟩ = Frame.ofText? text := by
  cases r with
  | ok => exact .inr rfl
  | closed => exact .inl rfl
  | timeout => exact .inl rfl

theorem lastFailed_sendText {text : String} {r : Written} (h : written r ≠ none)
    : LastFailed (⟨s, .sendText text, r⟩ :: t) := by
  rw [ne_eq, written_eq_none] at h
  exact ⟨_, _, rfl, h⟩

theorem sat_onDelivery {d : Delivery} (h : Before me mark (.handling (.delivery d)) s t)
    : ((onDelivery me d).start s).Sat (Obeys serde me mark (.handling (.delivery d)))
        (EventPost serde me mark (.delivery d)) t := by
  unfold onDelivery
  split
  . apply Prog.Sat.mono (sat_resync h)
    rintro r s' t' ⟨h, hfailed⟩
    exact ⟨h.holds, fun _ => trivial, hfailed⟩
  next source text =>
    apply Prog.Sat.bind (sat_isPeer h (by simp))
    rintro b s' t' ⟨h, _, hpeer⟩
    cases b with
    | false => exact ⟨h.holds, fun _ => trivial, by simp⟩
    | true =>
      have hp : Permits me (.handling (.delivery (.bus (.forwardText source text)))) s' t'
          (.sendText text) := .forwardText (hpeer rfl)
      apply sat_sendText h.holds hp
      intro r
      exact ⟨holds_write h hp rfl rfl (writtenFrame_sendText s' text r), fun _ => trivial,
        lastFailed_sendText⟩
  next source frame =>
    apply Prog.Sat.bind (sat_isPeer h (by simp))
    rintro b s' t' ⟨h, _, hpeer⟩
    cases b with
    | false => exact ⟨h.holds, fun _ => trivial, by simp⟩
    | true =>
      have hp : Permits me (.handling (.delivery (.bus (.forwardBinary source frame)))) s' t'
          (.sendBinary frame) := .forwardBinary (hpeer rfl)
      apply sat_ask (obeys h.holds hp rfl)
      intro r
      refine ⟨holds_write h hp rfl rfl ?_, fun _ => trivial, ?_⟩
      . cases r with
        | ok => exact .inr rfl
        | closed => exact .inl rfl
        | timeout => exact .inl rfl
      . intro hr
        rw [ne_eq, written_eq_none] at hr
        exact ⟨_, _, rfl, hr⟩
  next text =>
    apply sat_sendText h.holds .controlText
    intro r
    exact ⟨holds_write h .controlText rfl rfl (writtenFrame_sendText s text r), fun _ => trivial,
      lastFailed_sendText⟩
  next statement =>
    apply Prog.Sat.bind (sat_reloadPeers h (by simp))
    rintro b s' t' ⟨h, _⟩
    apply sat_sendText h.holds .revokedText
    intro r
    refine ⟨Holds.cons h.holds .revokedText ?_, fun _ => trivial, lastFailed_sendText⟩
    exact neutral_sendText (ofText?_pairRevokedMessage statement) s' r
  . apply Prog.Sat.mono (sat_pairsChanged h)
    rintro r s' t' ⟨h, hfailed⟩
    exact ⟨h, fun _ => trivial, hfailed⟩
  next connId =>
    split
    next hne => exact ⟨h.holds, by simp, fun _ => hne⟩
    next heq => exact ⟨h.holds, fun _ => not_not.mp heq, by simp⟩
  . exact ⟨h.holds, by simp, fun _ => trivial⟩

end

/-!
The stages of a connection.
-/

section

variable {settings : Settings} {e : Event}

theorem sat_onClientMessage {msg : ClientMessage}
    (h : Before me mark (.handling (.client msg)) s t) (hpending : s.pending = none)
    : ((onClientMessage settings serde me msg).start s).Sat
        (Obeys serde me mark (.handling (.client msg)))
        (fun _ s' t' => Holds serde me mark (.handling (.client msg)) s' t') t := by
  unfold onClientMessage
  split
  . exact sat_handleText h hpending
  . exact sat_handleBinary h hpending
  . apply sat_ask (obeys h.holds .pong rfl)
    intro r
    exact (h.cons .pong ⟨rfl, rfl, rfl⟩).holds
  . exact h.holds
  . exact h.holds

theorem sat_onEvent (h : Before me mark (.handling e) s t)
    (hpending : ∀ msg, e = .client msg → s.pending = none)
    : ((onEvent settings serde me e).start s).Sat (Obeys serde me mark (.handling e))
        (EventPost serde me mark e) t := by
  have hnow : Permits me (.handling e) s t .now := .now (by simp)
  unfold onEvent
  split
  . exact ⟨h.holds, by simp, fun _ => trivial⟩
  next d =>
    cases d with
    | bus msg =>
      apply sat_ask (obeys h.holds .fetchSub rfl)
      intro _
      exact sat_onDelivery (h.cons .fetchSub ⟨rfl, rfl, rfl⟩)
    | resync => exact sat_onDelivery h
  . exact ⟨h.holds, by simp, fun _ => trivial⟩
  . simp only [Code.start_bind, Code.start_get, Prog.bind_done]
    split
    next p hp =>
      -- the frame that was held back is now the one in hand
      have hacc : (p.dest, p.bus) :: accepted { s with pending := none } t = mark.accepted := by
        rw [← h.accepted]
        simp [accepted, hp]
      apply Prog.Sat.mono (sat_publishForward rfl (h.pending p hp) ⟨?_, by simp, .inl hacc, .inl h.frames, h.opened⟩)
      . intro r s' t' hholds
        exact ⟨hholds, fun _ => trivial, fun _ => trivial⟩
      . exact ⟨h.peers.pairs, h.peers.peers, h.peers.buckets⟩
    . exact ⟨h.holds, fun _ => trivial, by simp⟩
  next msg =>
    apply sat_ask (obeys h.holds hnow rfl)
    intro now
    have h := (h.cons hnow (r := now) ⟨rfl, rfl, rfl⟩).times s.lastMissReload now
    apply Prog.Sat.mono (sat_onClientMessage h (hpending msg rfl))
    intro r s' t' hholds
    exact ⟨hholds, fun _ => trivial, fun _ => trivial⟩
  . apply sat_ask (obeys h.holds hnow rfl)
    intro now
    have h := (h.cons hnow (r := now) ⟨rfl, rfl, rfl⟩).times s.lastMissReload now
    exact ⟨h.holds, by simp, fun _ => trivial⟩
  . apply sat_ask (obeys h.holds hnow rfl)
    intro now
    have h := (h.cons hnow (r := now) ⟨rfl, rfl, rfl⟩).times s.lastMissReload now
    exact ⟨h.holds, by simp, fun _ => trivial⟩
  . apply sat_ask (obeys h.holds hnow rfl)
    intro now
    have h := h.cons hnow (r := now) ⟨rfl, rfl, rfl⟩
    simp only [Code.start_bind, Code.start_get, Prog.bind_done]
    split
    . exact ⟨h.holds, fun _ => trivial, fun _ => trivial⟩
    . apply sat_ask (obeys h.holds .ping rfl)
      intro r
      exact ⟨(h.cons .ping ⟨rfl, rfl, rfl⟩).holds, fun _ => trivial, fun _ => trivial⟩
  . apply Prog.Sat.mono (sat_refreshPresence h (.inl rfl))
    rintro r s' t' ⟨h, _⟩
    exact ⟨h.holds, fun _ => trivial, fun _ => trivial⟩

/--
One turn of the event loop keeps to the contract.
-/
theorem sat_serve (h : Before me mark (.handling e) s t)
    (hpending : ∀ msg, e = .client msg → s.pending = none)
    : ((serve settings serde me e).start s).Sat (Obeys serde me mark (.handling e))
        (StagePost serde me mark (.handling e)) t := by
  apply Prog.Sat.bind (sat_onEvent h hpending)
  rintro r s' t' ⟨hholds, hnone, hsome⟩
  cases r with
  | none =>
    refine ⟨hholds, hholds.opened e rfl, ?_, by simp⟩
    rintro e' ⟨rfl⟩
    exact hnone rfl
  | some r =>
    refine ⟨hholds, by simp, ?_, by simp⟩
    rintro e' ⟨rfl⟩
    exact hsome (by simp)

/--
The notices have not been taken yet.
-/
def NoTake (t : ConnTrace) : Prop :=
  ∀ r, ¬ Did t .takeRevokedNotices r

theorem NoTake.cons {p : Performed Conn Op Op.Res} (h : NoTake t)
    (hp : p.op ≠ .takeRevokedNotices) : NoTake (p :: t) := by
  intro r hr
  exact h r (did_of_cons hp hr)

theorem NoTake.extends {P : Op → Prop} {t' : ConnTrace} (h : NoTake t) (ht : Extends P t t')
    (hP : ¬ P .takeRevokedNotices) : NoTake t' := by
  intro r hr
  exact h r (ht.did_of_not hP hr)

theorem NoTake.openFailed {p : Performed Conn Op Op.Res} (h : NoTake (p :: t)) (hp : Failed p)
    : OpenFailed (p :: t) := by
  refine ⟨p, t, rfl, hp, ?_⟩
  rintro ⟨l, hl⟩
  exact absurd hl (h (some l))

/--
What `openConn` and its parts leave.
-/
def OpenPost (serde : Serde) (me : Ident) (mark : Mark) (r : Option UInt16) (s : Conn)
    (t : ConnTrace) : Prop :=
  Holds serde me mark .opening s t ∧ (r = none → Opened me t) ∧ (r ≠ none → OpenFailed t)

theorem sat_sendRevoked (h : Holds serde me mark .opening s t) (htake : NoTake t)
    (hsub : Did t .subscribed true)
    (hpub : ∃ n, Did t (.publish me.deviceId (.replace me.connId)) (some n))
    : ((sendRevoked me).start s).Sat (Obeys serde me mark .opening) (OpenPost serde me mark) t := by
  apply sat_ask (obeys h .recentlyRevoked rfl)
  intro revoked
  have h := Holds.cons h .recentlyRevoked (r := revoked) ⟨rfl, rfl, rfl⟩
  apply sat_ask (obeys h .takeRevokedNotices rfl)
  intro notices
  have h := Holds.cons h .takeRevokedNotices (r := notices) ⟨rfl, rfl, rfl⟩
  have hrecent := (did_cons_self t s .recentlyRevoked revoked).cons ⟨s, .takeRevokedNotices, notices⟩
  have htaken := did_cons_self (⟨s, .recentlyRevoked, revoked⟩ :: t) s .takeRevokedNotices notices
  apply Prog.Sat.bind (sat_sendTexts h _ _)
  . rintro failed s' t' ⟨rfl, h, hext, hall, hfailed⟩
    cases failed with
    | some e =>
      have ⟨p, u, hp, hf, hw⟩ := hfailed (by simp)
      exact ⟨h, by simp, fun _ => ⟨p, u, hp, hf, fun _ => hw⟩⟩
    | none =>
      apply Prog.Sat.bind (sat_announceTo s'.pairs h fun p hp _ _ => .comeOnline hp)
      rintro _ s1 t1 ⟨rfl, h, hext1⟩
      refine ⟨h, fun _ => ⟨?_, ?_, ?_⟩, by simp⟩
      . exact hext1.did (hext.did ((hsub.cons _).cons _))
      . have ⟨n, hn⟩ := hpub
        exact ⟨n, hext1.did (hext.did ((hn.cons _).cons _))⟩
      . -- the notices were taken only once
        intro l hl st hst
        have hl := hext.did_of_not (by simp [Op.IsWrite]) (hext1.did_of_not (by simp [Op.IsPublish]) hl)
        have hl := (did_cons hl).resolve_right fun hl => htake (some l) (did_of_cons (by simp) hl)
        apply hext1.did
        apply hall rfl
        apply List.mem_map_of_mem
        simp [hl, hst]
  . intro text htext
    have ⟨st, _, hst⟩ := List.mem_map.mp htext
    rw [← hst, ofText?_pairRevokedMessage]
  . intro text htext t' ht'
    have ⟨st, hmem, hst⟩ := List.mem_map.mp htext
    rw [← hst]
    cases List.mem_append.mp hmem with
    | inl hmem =>
      cases revoked with
      | none => simp at hmem
      | some l => exact .recentText (ht'.did hrecent) hmem
    | inr hmem =>
      cases notices with
      | none => simp at hmem
      | some l => exact .noticeText (ht'.did htaken) hmem

theorem sat_sendOpening (h : Before me mark .opening s t) (htake : NoTake t)
    (hsub : Did t .subscribed true)
    (hpub : ∃ n, Did t (.publish me.deviceId (.replace me.connId)) (some n))
    : ((sendOpening me).start s).Sat (Obeys serde me mark .opening) (OpenPost serde me mark) t := by
  apply Prog.Sat.bind (sat_reloadPeers h (by simp))
  rintro b s1 t1 ⟨h, _, r, rfl, rfl⟩
  have htake := htake.cons (p := ⟨s, .activePeers, r⟩) (by simp)
  cases r with
  | none => exact ⟨h.holds, by simp, fun _ => htake.openFailed rfl⟩
  | some l =>
    apply Prog.Sat.bind (sat_peerPresence h (by simp))
    rintro online s2 t2 ⟨rfl, h, hext⟩
    have htake := htake.extends hext (by simp)
    apply Prog.Sat.bind (sat_sendTexts h.holds _ _)
    . rintro failed s3 t3 ⟨rfl, h, hext', _, hfailed⟩
      have htake := htake.extends hext' (by simp [Op.IsWrite])
      cases failed with
      | some e =>
        have ⟨p, u, hp, hf, hw⟩ := hfailed (by simp)
        exact ⟨h, by simp, fun _ => ⟨p, u, hp, hf, fun _ => hw⟩⟩
      | none =>
        have ⟨n, hn⟩ := hpub
        exact sat_sendRevoked h htake (hext'.did (hext.did (hsub.cons _)))
          ⟨n, hext'.did (hext.did (hn.cons _))⟩
    . intro text htext
      have ⟨pairId, peer, b, heq, _⟩ := mem_presenceTexts htext
      rw [heq, ofText?_presenceMessage]
    . intro text htext t' _
      have ⟨pairId, peer, b, heq, _⟩ := mem_presenceTexts htext
      exact heq ▸ .presenceText (by simp)

/--
Opening ends in the event loop with everything said that had to be, or because an operation failed.
-/
theorem sat_openConn (h : Before me mark .opening s t) (htake : NoTake t)
    : ((openConn me).start s).Sat (Obeys serde me mark .opening)
        (OpenPost serde me mark) t := by
  apply sat_ask (obeys h.holds .subscribe rfl)
  intro r0
  have h := h.cons .subscribe (r := r0) ⟨rfl, rfl, rfl⟩
  have htake := htake.cons (p := ⟨s, .subscribe, r0⟩) (by simp)
  apply sat_ask (obeys h.holds .subscribed rfl)
  intro subscribed
  have h := h.cons .subscribed (r := subscribed) ⟨rfl, rfl, rfl⟩
  have htake := htake.cons (p := ⟨s, .subscribed, subscribed⟩) (by simp)
  cases subscribed with
  | false => exact ⟨h.holds, by simp, fun _ => htake.openFailed rfl⟩
  | true =>
    have hsub := did_cons_self (⟨s, .subscribe, r0⟩ :: t) s .subscribed true
    apply sat_ask (obeys h.holds (.claim hsub) rfl)
    intro claimed
    have h := h.cons (.claim hsub) (r := claimed) ⟨rfl, rfl, rfl⟩
    have htake := htake.cons (p := ⟨s, .claim, claimed⟩) (by simp)
    cases claimed with
    | none => exact ⟨h.holds, by simp, fun _ => htake.openFailed rfl⟩
    | some u =>
      have hp : Permits me .opening s _ _ :=
        .replace (hsub.cons _) (did_cons_self _ s .claim (some u))
      apply sat_ask (obeys h.holds hp rfl)
      intro published
      have h := h.cons hp (r := published) ⟨rfl, rfl, rfl⟩
      have htake := htake.cons (p := ⟨s, .publish me.deviceId (.replace me.connId), published⟩)
        (by simp)
      cases published with
      | none => exact ⟨h.holds, by simp, fun _ => htake.openFailed rfl⟩
      | some n =>
        apply sat_sendOpening h htake ((hsub.cons _).cons _)
        exact ⟨n, did_cons_self _ s (.publish me.deviceId (.replace me.connId)) (some n)⟩

theorem sat_start (previous : Option Uuid)
    : ((start me previous).start .new).Sat (Obeys serde me ⟨[], []⟩ .opening)
        (StagePost serde me ⟨[], []⟩ .opening) [] := by
  have h : Before me ⟨[], []⟩ .opening .new [] := by
    refine ⟨⟨rfl, rfl, ?_⟩, ?_, rfl, rfl, by simp⟩
    . simp [Conn.new]
    . simp [Conn.new]
  have htake : NoTake [] := by
    rintro r ⟨s, hs⟩
    exact List.not_mem_nil hs
  -- opening after the connection that was registered before has been told
  have hopen : ∀ t, Before me ⟨[], []⟩ .opening .new t → NoTake t
      → ((start me none).start .new).Sat (Obeys serde me ⟨[], []⟩ .opening)
          (StagePost serde me ⟨[], []⟩ .opening) t := by
    intro t h htake
    apply Prog.Sat.bind (sat_openConn h htake)
    rintro failed s' t' ⟨h, hnone, hsome⟩
    cases failed with
    | some code => exact ⟨h, fun _ => hsome (by simp), by simp, by simp⟩
    | none =>
      have hnow : Permits me .opening s' t' .now := .now (by simp)
      apply sat_ask (obeys h hnow rfl)
      intro now
      have h := Holds.cons h hnow (r := now) ⟨rfl, rfl, rfl⟩
      refine ⟨⟨?_, h.pending, h.accepted, h.frames, by simp⟩, (hnone rfl).cons (by simp), by simp,
        by simp⟩
      exact ⟨h.peers.pairs, h.peers.peers, h.peers.buckets⟩
  cases previous with
  | none => exact hopen [] h htake
  | some c =>
    apply sat_ask (obeys h.holds (.tellPrevious rfl) rfl)
    intro r
    exact hopen _ (h.cons (.tellPrevious rfl) ⟨rfl, rfl, rfl⟩) (htake.cons (by simp))

/--
What the cleanup has not done yet when it starts.
-/
def NotLeft (t : ConnTrace) : Prop :=
  ∀ p ∈ t, p.op ≠ .unregister ∧ p.op ≠ .release ∧ ∀ code, p.op ≠ .closeSocket code

theorem sat_leave {e : End} (h : Holds serde me mark (.finishing e) s t) (ht : NotLeft t)
    : ((leave me).start s).Sat (Obeys serde me mark (.finishing e))
        (fun _ s' t' => Holds serde me mark (.finishing e) s' t') t := by
  have hnot : ∀ r, ¬ Did t .unregister r := by
    rintro r ⟨s', hs'⟩
    exact (ht _ hs').1 rfl
  have hrel : ∀ r, ¬ Did t .release r := by
    rintro r ⟨s', hs'⟩
    exact (ht _ hs').2.1 rfl
  have hclose : ∀ code, ¬ Did t (.closeSocket code) () := by
    rintro code ⟨s', hs'⟩
    exact (ht _ hs').2.2 code rfl
  apply sat_ask (obeys h (.unregister hnot) rfl)
  intro current
  have h := Holds.cons h (.unregister hnot) (r := current) ⟨rfl, rfl, rfl⟩
  cases current with
  | false => exact h
  | true =>
    have hun := did_cons_self t s .unregister true
    have hrel : ∀ r, ¬ Did (⟨s, .unregister, true⟩ :: t) .release r := fun r hr =>
      hrel r (did_of_cons (by simp) hr)
    apply sat_ask (obeys h (.unsubscribe hun hrel) rfl)
    intro r0
    have h := Holds.cons h (.unsubscribe hun hrel) (r := r0) ⟨rfl, rfl, rfl⟩
    have hun := hun.cons ⟨s, .unsubscribe, r0⟩
    have hrel : ∀ r, ¬ Did (⟨s, .unsubscribe, r0⟩ :: ⟨s, .unregister, true⟩ :: t) .release r :=
      fun r hr => hrel r (did_of_cons (by simp) hr)
    apply sat_ask (obeys h (.release hun hrel) rfl)
    intro released
    have h := Holds.cons h (.release hun hrel) (r := released) ⟨rfl, rfl, rfl⟩
    have hun := hun.cons ⟨s, .release, released⟩
    split
    next hreleased =>
      subst hreleased
      apply Prog.Sat.mono (sat_announceTo s.pairs h _)
      . rintro _ s' t' ⟨rfl, h, _⟩
        exact h
      . intro p _ t' ht'
        refine .goOffline (ht'.did hun) (ht'.did (did_cons_self _ s .release (some true))) ?_
        intro code hcode
        have hcode := ht'.did_of_not (by simp [Op.IsPublish]) hcode
        exact hclose code (did_of_cons (by simp) (did_of_cons (by simp) (did_of_cons (by simp) hcode)))
    . exact h

theorem sat_finish {e : End} (h : Holds serde me mark (.finishing e) s t) (ht : NotLeft t)
    : ((finish me e).start s).Sat (Obeys serde me mark (.finishing e))
        (StagePost serde me mark (.finishing e)) t := by
  apply Prog.Sat.bind (sat_leave h ht)
  intro _ s' t' h
  cases e with
  | gone => exact ⟨h, _, rfl⟩
  | clientClosed =>
    apply sat_ask (obeys h .closeSocket rfl)
    intro r
    exact ⟨Holds.cons h .closeSocket ⟨rfl, rfl, rfl⟩, _, rfl⟩
  | close code =>
    apply sat_ask (obeys h .closeSocket rfl)
    intro r
    exact ⟨Holds.cons h .closeSocket ⟨rfl, rfl, rfl⟩, _, rfl⟩

end
end Conn
end
end HandLiveRelay
