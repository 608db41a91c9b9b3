import HandLiveRelay.System.Answers
import HandLiveRelay.System.Rendezvous

/-!
This module contains what two devices learn about each other that join a rendezvous in one lifetime
of its set. Several answers may reach a device, on two ways, and some of them may belong to another
lifetime. The one that comes last among those of this lifetime says that the other device is there.
-/

namespace HandLiveRelay

open Fiber Wire Rendezvous

/--
What is noted along a run about a rendezvous and the texts for one connection: whether the lifetime
of the set that is looked at still lasts, which connections have last joined in it, and which of the
texts belong to it, both of those that were written or are being written and of those on the bus.
-/
structure Log where
  lasts : Bool
  joined : Uuid → Bool
  own : List (Bool × String)
  coming : List (Bool × String)

/--
The answers for the lifetime among some texts.
-/
def lifeAnswers (rvId : String) (l : List (Bool × String)) : List Bool :=
  l.filterMap fun p => if p.1 then answer? rvId p.2 else none

def Label.expires (rvId : String) : Label → Bool
  | .expireRv r => r = rvId
  | _ => false

namespace World

/--
The connection that joins the rendezvous with a step.
-/
def joining (w : World) (rvId : String) : Label → Option Ident
  | .exec c _ =>
    match w.conns c with
    | none => none
    | some t =>
      match t.prog with
      | .wait _ (.rvJoin r) _ => if r = rvId then some t.me else none
      | _ => none
  | _ => none

/--
The text of its own that a connection has to write after a step from `w` to `w'`.
-/
def uttered (c : Uuid) (w w' : World) (l : Label) : List String :=
  match w.conns c, w'.conns c with
  | some t, some t' => utters c t t' l
  | _, _ => []

end World

namespace Log

/--
The log at the beginning, where no text yet belongs to the lifetime.
-/
def start (w : World) (t : ConnTask) : Log where
  lasts := true
  joined _ := false
  own := ((texts t.trace).reverse ++ t.writing.toList).map (false, ·)
  coming := ((w.underway t.me).filterMap BusMessage.control?).map (false, ·)

/--
What is noted at a step. An answer that the connection gives itself belongs to the lifetime if the
lifetime lasts, a text that is published if its sender has joined in the lifetime.
-/
def step (rvId : String) (me : Ident) (m : Log) (w : World) (l : Label) (w' : World) : Log where
  lasts := m.lasts && !l.expires rvId
  joined c := if (w.joining rvId l).any (·.connId = c) then m.lasts else m.joined c
  own := m.own ++ m.coming.take ((World.taking me.connId l).filterMap BusMessage.control?).length
    ++ (World.uttered me.connId w w' l).map (m.lasts, ·)
  coming := m.coming.drop ((World.taking me.connId l).filterMap BusMessage.control?).length
    ++ ((w.publishedFor me.inst me.deviceId l).filterMap BusMessage.control?).map
      (l.conn?.any m.joined, ·)

/--
The log of a run from `w` on for the connection that stands at `t`.
-/
def after (env : Env) (rvId : String) (w : World) (t : ConnTask) (ls : List Label) : Log :=
  Lts.carry (World.step env) (step rvId t.me) (start w t) w ls

end Log

/-!
The last of some answers.
-/

section

variable {a b u : List Bool}

theorem ends_append (h : a.getLast? = some true) (hb : ∀ v ∈ b, v = true)
    : (a ++ b).getLast? = some true := by
  rw [List.getLast?_append]
  cases hlast : b.getLast? with
  | none => exact h
  | some v => rw [hb v (List.mem_of_getLast? hlast), Option.some_or]

theorem ends_insert (h : (a ++ b).getLast? = some true) (hu : ∀ v ∈ u, v = true)
    (hb : ∀ v ∈ b, v = true) : (a ++ u ++ b).getLast? = some true := by
  cases b with
  | nil =>
    rw [List.append_nil] at h ⊢
    exact ends_append h hu
  | cons v b =>
    rw [List.getLast?_append] at h ⊢
    cases hlast : (v :: b).getLast? with
    | none => cases (List.getLast?_eq_none_iff.mp hlast)
    | some v' => rw [hb v' (List.mem_of_getLast? hlast), Option.some_or]

theorem lifeAnswers_append (rvId : String) (l l' : List (Bool × String))
    : lifeAnswers rvId (l ++ l') = lifeAnswers rvId l ++ lifeAnswers rvId l' :=
  List.filterMap_append

theorem mem_lifeAnswers {rvId : String} {l : List (Bool × String)} {v : Bool}
    : v ∈ lifeAnswers rvId l ↔ (true, rvJoinedMessage rvId v) ∈ l := by
  unfold lifeAnswers
  rw [List.mem_filterMap]
  constructor
  . rintro ⟨⟨tag, text⟩, hmem, h⟩
    dsimp only at h
    split at h
    next htag =>
      rw [← htag, ← answer?_eq_some.mp h]
      exact hmem
    . cases h
  . intro hmem
    exact ⟨_, hmem, answer?_eq_some.mpr rfl⟩

end

theorem take_drop_of_append {α : Type} {taken rest before after : List α}
    (h : taken ++ rest = before ++ after) (hor : taken = [] ∨ after = [])
    : before.take taken.length = taken ∧ rest = before.drop taken.length ++ after := by
  cases hor with
  | inl hnil =>
    subst hnil
    exact ⟨rfl, h⟩
  | inr hnil =>
    subst hnil
    rw [List.append_nil] at h
    rw [← h, List.append_nil]
    exact ⟨List.take_left, List.drop_left.symm⟩

/-!
What the log says.
-/

namespace World

variable {env : Env} {w w' : World} {rvId : String}

/--
What is known of every world of a run in which no pub/sub connection is lost.
-/
structure MeetingOk (env : Env) (w : World) : Prop where
  takeover : TakeoverOk env w
  uttered : UtteredOk env w
  relaying : (relaying env).TasksKept w
  answering : (answering env).TasksKept w
  rv : RvOk w

theorem meetingOk_run {db : Db} {ls : List Label} (hrun : run env (init db) ls = some w)
    (hlose : ∀ i keep, .lose i keep ∉ ls) : MeetingOk env w where
  takeover := takeoverOk_run hrun hlose
  uttered := utteredOk_run hrun
  relaying := StageRule.tasksKept_run _ hrun
  answering := StageRule.tasksKept_run _ hrun
  rv := rvOk_run hrun

theorem MeetingOk.step {l : Label} (h : MeetingOk env w) (hl : ∀ i keep, l ≠ .lose i keep)
    (hstep : w.step env l = some w') : MeetingOk env w' where
  takeover := h.takeover.step hl hstep
  uttered := h.uttered.step hstep
  relaying := h.relaying.step h.takeover.sound.tasks hstep
  answering := h.answering.step h.takeover.sound.tasks hstep
  rv := h.rv.step hstep

/--
The log has the texts of the connection, and those that are on the bus.
-/
structure Tracks (me : Ident) (m : Log) (w : World) : Prop where
  conn : ∃ t, w.conns me.connId = some t ∧ t.me = me
    ∧ m.own.map Prod.snd = (texts t.trace).reverse ++ t.writing.toList
  coming : m.coming.map Prod.snd = (w.underway me).filterMap BusMessage.control?

theorem taking_or_published (c : Uuid) (w : World) (l : Label)
    : taking c l = [] ∨ w.published l = none := by
  cases l with
  | event c' e => exact .inr rfl
  | _ => exact .inl rfl

theorem Tracks.step {me : Ident} {m : Log} {l : Label} (h : Tracks me m w) (hok : MeetingOk env w)
    (hserves : w.serves me.connId = true) (hdisturbs : w.disturbs env me.connId l = false)
    (hstep : w.step env l = some w') : Tracks me (m.step rvId me w l w') w' := by
  have ⟨t, hc, hme, hown⟩ := h.conn
  have ⟨t', hc', hme'⟩ := step_conn hstep hc
  have hunderway := step_underway_of_serves (g := BusMessage.control?) (fun _ => rfl)
    hok.takeover.sound hstep hc hserves hdisturbs
  rw [hme, List.filterMap_append, List.filterMap_append] at hunderway
  have hor : (taking me.connId l).filterMap BusMessage.control? = []
      ∨ (w.publishedFor me.inst me.deviceId l).filterMap BusMessage.control? = [] := by
    cases taking_or_published me.connId w l with
    | inl htaking => exact .inl (by rw [htaking]; rfl)
    | inr hpublished => exact .inr (by rw [publishedFor_of_none hpublished]; rfl)
  have ⟨htake, hdrop⟩ := take_drop_of_append hunderway hor
  refine ⟨⟨t', hc', hme'.trans hme, ?_⟩, ?_⟩
  . have hwritten := step_written hok.relaying hstep hc hc' hdisturbs
    simp only [Log.step, uttered, hc, hc', List.map_append, List.map_take, h.coming, hown, htake,
      List.map_map, Function.comp_def, List.map_id']
    exact hwritten.symm
  . simp only [Log.step, List.map_append, List.map_drop, h.coming, List.map_map, Function.comp_def,
      List.map_id']
    exact hdrop.symm

theorem Tracks.coming_true {me : Ident} {m : Log} (h : Tracks me m w) (hok : MeetingOk env w)
    : ∀ v ∈ lifeAnswers rvId m.coming, v = true := by
  intro v hv
  have hmem := List.mem_map_of_mem (f := Prod.snd) (mem_lifeAnswers.mp hv)
  rw [h.coming] at hmem
  cases v with
  | true => rfl
  | false => exact absurd rfl (hok.uttered.underway_ne_alone hmem)

/-!
The answers of the connection itself.
-/

end World

theorem ConnTask.writing_eq_some {t : ConnTask} {text : String} (h : t.writing = some text)
    : (∃ s k, t.prog = .wait s (.sendText text) k) ∨ t.relaying? = some text := by
  unfold writing at h
  split at h
  next hprog =>
    cases h
    exact .inl ⟨_, _, hprog⟩
  . exact .inr h

theorem owed_eq_sendText {me : Ident} {t : ConnTrace} {rvId : String} {b : Bool}
    (h : owed me t = some (.sendText (rvJoinedMessage rvId b)))
    : ∃ s newly members rest, t = ⟨s, .rvJoin rvId, some (.joined newly members)⟩ :: rest
      ∧ b = decide (members.length = 2) := by
  unfold owed at h
  split at h
  next s r newly members rest =>
    have ⟨hr, hb⟩ := rvJoinedMessage_inj (Op.sendText.inj (Option.some.inj h))
    exact ⟨s, newly, members, rest, by rw [hr], hb.symm⟩
  next =>
    split at h
    . rw [Option.map_eq_some_iff] at h
      have ⟨_, _, h⟩ := h
      cases h
    . cases h
  . cases h

theorem Rendezvous.RvSet.Ok.length_eq_two {set : RvSet} (h : set.Ok) {x y : Uuid} (hne : x ≠ y)
    (hx : x ∈ set.members) (hy : y ∈ set.members) : set.members.length = 2 := by
  have hsub : [x, y] ⊆ set.members := by simp [hx, hy]
  have hnodup : [x, y].Nodup := by simp [hne]
  have hlength := (List.subperm_of_subset hnodup hsub).length_le
  have htwo := h.length
  simp only [List.length_cons, List.length_nil] at hlength
  omega

namespace World

variable {env : Env} {w w' : World} {rvId : String}

/--
If a connection is about to tell its device that it is alone, then its device has just joined, and
was alone.
-/
theorem MeetingOk.joined_of_alone {l : Label} {c : Uuid} {t t' : ConnTask} (hok : MeetingOk env w')
    (hstep : w.step env l = some w') (hc : w.conns c = some t) (hc' : w'.conns c = some t')
    (hmem : rvJoinedMessage rvId false ∈ utters c t t' l)
    : ∃ s newly members, t'.trace = ⟨s, .rvJoin rvId, some (.joined newly members)⟩ :: t.trace
      ∧ members.length ≠ 2 := by
  obtain ⟨f, hl, hwriting⟩ : ∃ f, l = .exec c f ∧ t'.writing = some (rvJoinedMessage rvId false) := by
    cases l with
    | exec c1 f =>
      simp only [utters] at hmem
      split at hmem
      next hc1 =>
        split at hmem
        . cases hmem
        . exact ⟨f, by rw [hc1], Option.mem_toList.mp hmem⟩
      . cases hmem
    | _ => cases hmem
  have hbus : ∀ msg, t'.stage = .handling (.delivery (.bus msg))
      → msg.text? ≠ some (rvJoinedMessage rvId false) := by
    intro msg hstage htext
    have hin := (hok.takeover.sound.tasks c t' hc').mem_inputs hstage
    exact (hok.uttered.flight.inputs c t' msg hc' hin).ne_alone htext rfl
  have howed : owed t'.me t'.trace = some (.sendText (rvJoinedMessage rvId false)) := by
    cases ConnTask.writing_eq_some hwriting with
    | inl hprog =>
      obtain ⟨s, k, hprog⟩ := hprog
      cases ((hok.uttered.kept c t' hc').speaks hprog).rvJoined with
      | inl hdelivery =>
        obtain ⟨msg, hstage, htext⟩ := hdelivery
        exact absurd htext (hbus msg hstage)
      | inr hframe =>
        obtain ⟨frame, hstage⟩ := hframe
        obtain ⟨t0, hat⟩ := hok.answering c t' hc'
        exact (hat.obeys hprog).own frame rvId false hstage rfl
    | inr hrelaying =>
      have hstage := (ConnTask.relaying?_eq_some hrelaying).1
      exact absurd rfl (hbus _ hstage)
  obtain ⟨s, newly, members, rest, htrace, hlength⟩ := owed_eq_sendText howed
  refine ⟨s, newly, members, ?_, of_decide_eq_false hlength.symm⟩
  subst hl
  have htask := step_task hstep c
  rw [hc'] at htask
  generalize hu : some t' = u at htask
  cases htask with
  | same hl => exact absurd rfl hl
  | resumed hc1 _ _ =>
    rw [hc] at hc1
    cases hc1
    cases hu
    rw [ConnTask.resume_trace] at htrace ⊢
    rw [(List.cons.inj htrace).1]

/--
Once two devices are members, no connection tells its device that it is alone.
-/
theorem MeetingOk.uttered_ne_alone {l : Label} {c x y : Uuid} (hok : MeetingOk env w)
    (hok' : MeetingOk env w') (hstep : w.step env l = some w') (hne : x ≠ y)
    (hx : x ∈ (w.rv rvId).members) (hy : y ∈ (w.rv rvId).members)
    : rvJoinedMessage rvId false ∉ World.uttered c w w' l := by
  intro hmem
  unfold World.uttered at hmem
  split at hmem
  next t t' hc hc' =>
    have ⟨s, newly, members, htrace, hlength⟩ := hok'.joined_of_alone hstep hc hc' hmem
    have hkept := hok.rv.setKept hstep rvId
    have ⟨hmembers, _⟩ := hkept.joined c t t' s newly members hc hc' htrace
    have hl : l ≠ .expireRv rvId := by
      rintro rfl
      cases hmem
    have htwo := (hok'.rv rvId).length_eq_two hne (hkept.members hl hx) (hkept.members hl hy)
    rw [hmembers] at htwo
    exact hlength htwo
  . cases hmem

theorem joining_eq_some {l : Label} {j : Ident} (hwf : WellFormed w)
    (h : w.joining rvId l = some j)
    : ∃ f t s k, l = .exec j.connId f ∧ w.conns j.connId = some t ∧ t.me = j
      ∧ t.prog = .wait s (.rvJoin rvId) k := by
  unfold joining at h
  split at h
  next c f =>
    split at h
    . cases h
    next t hc =>
      split at h
      next s r k hprog =>
        split at h
        next hr =>
          cases h
          subst hr
          have hident := hwf.ident c t hc
          exact ⟨f, t, s, k, by rw [hident], by rw [hident, hc], rfl, hprog⟩
        . cases h
      . cases h
  . cases h

end World

/--
A connection has met the device `x` in the rendezvous as the second one, `y`, and has not told it
yet: it has to answer its own device first.
-/
inductive Tells (rvId : String) (x y : Uuid) : ConnTrace → Prop where
  | answer {s : Conn} {rest : ConnTrace}
      : Tells rvId x y (⟨s, .rvJoin rvId, some (.joined true [x, y])⟩ :: rest)
  | tell {s s' : Conn} {text : String} {rest : ConnTrace}
      : Tells rvId x y
          (⟨s', .sendText text, .ok⟩ :: ⟨s, .rvJoin rvId, some (.joined true [x, y])⟩ :: rest)

theorem owed_tell {me : Ident} {rvId : String} {x : Uuid} (hne : x ≠ me.deviceId) {s s' : Conn}
    {text : String} {rest : ConnTrace}
    : owed me (⟨s', .sendText text, .ok⟩
        :: ⟨s, .rvJoin rvId, some (.joined true [x, me.deviceId])⟩ :: rest)
      = some (.publish x (.control (rvJoinedMessage rvId true))) := by
  simp [owed, hne]

theorem Tells.owed_ne_none {me : Ident} {rvId : String} {x : Uuid} {t : ConnTrace}
    (h : Tells rvId x me.deviceId t) (hne : x ≠ me.deviceId) : owed me t ≠ none := by
  cases h with
  | answer => exact Option.some_ne_none _
  | tell =>
    rw [owed_tell hne]
    exact Option.some_ne_none _

namespace World

variable {env : Env} {w w' : World} {rvId : String} {me me' : Ident} {m : Log}

/--
The last answer of the lifetime that the connection of `me` has got or is to get says that the other
device is there, or the connection of `me'` is about to say so.
-/
inductive Learns (rvId : String) (me me' : Ident) (m : Log) (w : World) : Prop where
  | said (h : (lifeAnswers rvId (m.own ++ m.coming)).getLast? = some true)
  | telling {t' : ConnTask} (hc' : w.conns me'.connId = some t')
      (h : Tells rvId me.deviceId me'.deviceId t'.trace) (hjoined : m.joined me'.connId = true)

/--
The answers of the lifetime after a step, in the order in which the device gets them.
-/
theorem lifeAnswers_step (rvId : String) (me : Ident) (m : Log) (w : World) (l : Label) (w' : World)
    : lifeAnswers rvId ((m.step rvId me w l w').own ++ (m.step rvId me w l w').coming)
      = lifeAnswers rvId (m.own
          ++ m.coming.take ((taking me.connId l).filterMap BusMessage.control?).length)
        ++ lifeAnswers rvId ((uttered me.connId w w' l).map (m.lasts, ·))
        ++ lifeAnswers rvId
          (m.coming.drop ((taking me.connId l).filterMap BusMessage.control?).length)
        ++ lifeAnswers rvId (((w.publishedFor me.inst me.deviceId l).filterMap
          BusMessage.control?).map (l.conn?.any m.joined, ·)) := by
  simp only [Log.step, lifeAnswers_append, List.append_assoc]

theorem Tracks.drop_true (h : Tracks me m w) (hok : MeetingOk env w) (n : Nat)
    : ∀ v ∈ lifeAnswers rvId (m.coming.drop n), v = true := by
  intro v hv
  refine (h.coming_true hok : ∀ v ∈ lifeAnswers rvId m.coming, v = true) v ?_
  exact mem_lifeAnswers.mpr (List.mem_of_mem_drop (mem_lifeAnswers.mp hv))

theorem joined_step {l : Label} (w' : World)
    (hjoins : ∀ j, w.joining rvId l = some j → j.connId ≠ me'.connId)
    (hjoined : m.joined me'.connId = true) : (m.step rvId me w l w').joined me'.connId = true := by
  unfold Log.step
  dsimp only
  split
  next hany =>
    rw [Option.any_eq_true] at hany
    have ⟨j, hj, hid⟩ := hany
    exact absurd (of_decide_eq_true hid) (hjoins j hj)
  . exact hjoined

/--
The last answer stays the last one, or another one of the same content comes after it.
-/
theorem said_step {l : Label} (hok : MeetingOk env w) (hok' : MeetingOk env w')
    (htracks : Tracks me m w) (htracks' : Tracks me (m.step rvId me w l w') w')
    (halone : m.lasts = true → rvJoinedMessage rvId false ∉ uttered me.connId w w' l)
    (h : (lifeAnswers rvId (m.own ++ m.coming)).getLast? = some true)
    : (lifeAnswers rvId ((m.step rvId me w l w').own
        ++ (m.step rvId me w l w').coming)).getLast? = some true := by
  rw [lifeAnswers_step]
  refine ends_append (ends_insert ?_ ?_ (htracks.drop_true hok _)) ?_
  . rw [← lifeAnswers_append, List.append_assoc, List.take_append_drop]
    exact h
  . intro v hv
    have ⟨text, htext, heq⟩ := List.mem_map.mp (mem_lifeAnswers.mp hv)
    cases v with
    | true => rfl
    | false =>
      rw [Prod.mk.injEq] at heq
      rw [heq.2] at htext
      exact absurd htext (halone heq.1)
  . intro v hv
    have htrue : ∀ v ∈ lifeAnswers rvId _, v = true := htracks'.coming_true hok'
    apply htrue
    rw [mem_lifeAnswers] at hv ⊢
    exact List.mem_append_right _ hv

theorem said_of_published {l : Label} {text : String} (hok : MeetingOk env w)
    (hserves : w.serves me.connId = true) (htracks : Tracks me m w)
    (hpub : w.published l = some (me.deviceId, .control text))
    (htext : text = rvJoinedMessage rvId true) (hjoined : l.conn?.any m.joined = true)
    : (lifeAnswers rvId ((m.step rvId me w l w').own
        ++ (m.step rvId me w l w').coming)).getLast? = some true := by
  have ⟨t, hc, hme, _⟩ := htracks.conn
  have ⟨_, _, hcur⟩ := serves_eq_true hc hserves
  have hsub := hok.takeover.subscriptions.served me.connId t hc
    (opened_of_serves hok.takeover.sound hc hserves).subscribed hcur
  have hchannel := (hok.takeover.subscriptions.inst t.me.inst).channels _ hsub
  rw [hme] at hchannel
  have hfor := publishedFor_of_some hpub me.inst me.deviceId
  rw [if_pos ⟨hchannel, rfl⟩] at hfor
  have hanswer : answer? rvId text = some true := answer?_eq_some.mpr htext
  rw [lifeAnswers_step, hfor, hjoined]
  simp [lifeAnswers, BusMessage.control?, hanswer]

theorem Learns.step {l : Label} (h : Learns rvId me me' m w) (hok : MeetingOk env w)
    (hok' : MeetingOk env w') (htracks : Tracks me m w)
    (htracks' : Tracks me (m.step rvId me w l w') w')
    (hthere : ∀ t', w.conns me'.connId = some t' → t'.me = me') (hstep : w.step env l = some w')
    (hserves : w.serves me.connId = true) (hdisturbs : w.disturbs env me'.connId l = false)
    (hne : me.deviceId ≠ me'.deviceId)
    (hboth : m.lasts = true
      → me.deviceId ∈ (w.rv rvId).members ∧ me'.deviceId ∈ (w.rv rvId).members)
    : Learns rvId me me' (m.step rvId me w l w') w' := by
  cases h with
  | said h =>
    refine .said (said_step hok hok' htracks htracks' ?_ h)
    intro hlasts
    obtain ⟨hx, hy⟩ := hboth hlasts
    exact hok.uttered_ne_alone hok' hstep hne hx hy
  | @telling t' hc' htells hjoined =>
    have hwf := hok.takeover.sound.wellFormed
    have htask := step_task hstep me'.connId
    cases htask' : w'.conns me'.connId with
    | none =>
      obtain ⟨_, hsome, _⟩ := step_conn hstep hc'
      rw [htask'] at hsome
      cases hsome
    | some u' =>
      rw [htask'] at htask
      generalize hu : some u' = u at htask
      cases htask with
      | same hl =>
        rw [hc'] at hu
        cases hu
        refine .telling htask' htells (joined_step w' ?_ hjoined)
        intro j hj hid
        obtain ⟨f, _, _, _, hl', _⟩ := joining_eq_some hwf hj
        rw [hl', hid] at hl
        exact hl rfl
      | connected hnone =>
        rw [hc'] at hnone
        cases hnone
      | handled hc1 _ _ =>
        rw [hc'] at hc1
        cases hc1
        cases hu
        refine .telling htask' ?_ (joined_step w' nofun hjoined)
        rw [ConnTask.handle_trace]
        exact htells
      | @resumed f t1 s o k w1 r hc1 hprog hperf =>
        rw [hc'] at hc1
        cases hc1
        cases hu
        have hf : f = .ok := by simpa [disturbs] using hdisturbs
        subst hf
        obtain ⟨t0, hat⟩ := hok.answering _ _ hc'
        have hnext := (hat.obeys hprog).next
        rw [hthere _ hc'] at hnext
        generalize htrace : t'.trace = trace at htells hnext
        cases htells with
        | answer =>
          -- it has answered its own device, and tells the other one next
          cases hnext _ rfl
          cases hperf
          refine .telling htask' ?_ (joined_step w' ?_ hjoined)
          . rw [ConnTask.resume_trace, htrace]
            exact .tell
          . intro j hj hid
            obtain ⟨_, t2, _, _, _, hc2, _, hprog2⟩ := joining_eq_some hwf hj
            rw [hid, hc'] at hc2
            cases hc2
            rw [hprog] at hprog2
            cases hprog2
        | tell =>
          cases hnext _ (owed_tell hne)
          refine .said (said_of_published hok hserves htracks ?_ rfl hjoined)
          simp [published, hc', hprog]

/--
Both connections serve their devices undisturbed, and no other connection of the two devices joins
the rendezvous.
-/
def together (env : Env) (rvId : String) (me me' : Ident) (w : World) (l : Label) : Bool :=
  w.serves me.connId && w.serves me'.connId
    && !w.disturbs env me.connId l && !w.disturbs env me'.connId l
    && (w.joining rvId l).all fun j =>
      (j.deviceId ≠ me.deviceId || j.connId = me.connId)
        && (j.deviceId ≠ me'.deviceId || j.connId = me'.connId)

structure Together (env : Env) (rvId : String) (me me' : Ident) (w : World) (l : Label) : Prop where
  here : w.serves me.connId = true
  there : w.serves me'.connId = true
  calm : w.disturbs env me.connId l = false
  calm' : w.disturbs env me'.connId l = false
  only : ∀ j, w.joining rvId l = some j → j.deviceId = me.deviceId → j.connId = me.connId
  only' : ∀ j, w.joining rvId l = some j → j.deviceId = me'.deviceId → j.connId = me'.connId

theorem together_iff {l : Label} : w.together env rvId me me' l = true ↔ Together env rvId me me' w l := by
  unfold together
  simp only [Bool.and_eq_true, Bool.not_eq_true', Option.all_eq_true, Bool.or_eq_true,
    decide_eq_true_eq]
  constructor
  . rintro ⟨⟨⟨⟨hhere, hthere⟩, hcalm⟩, hcalm'⟩, hjoin⟩
    exact ⟨hhere, hthere, hcalm, hcalm', fun j hj hd => (hjoin j hj).1.resolve_left fun hne => hne hd,
      fun j hj hd => (hjoin j hj).2.resolve_left fun hne => hne hd⟩
  . intro h
    refine ⟨⟨⟨⟨h.here, h.there⟩, h.calm⟩, h.calm'⟩, fun j hj => ⟨?_, ?_⟩⟩
    . exact or_iff_not_imp_left.mpr fun hd => h.only j hj (not_not.mp hd)
    . exact or_iff_not_imp_left.mpr fun hd => h.only' j hj (not_not.mp hd)

theorem Together.symm {l : Label} (h : Together env rvId me me' w l) : Together env rvId me' me w l :=
  ⟨h.there, h.here, h.calm', h.calm, h.only', h.only⟩

/--
The answer to a join of the rendezvous that nothing disturbs.
-/
theorem resume_of_join {c : Uuid} {f : Fault} {t : ConnTask} {s : Conn}
    {k : Option Join → Prog Conn Op Op.Res Next} (hstep : w.step env (.exec c f) = some w')
    (hc : w.conns c = some t) (hprog : t.prog = .wait s (.rvJoin rvId) k)
    (hdisturbs : w.disturbs env c (.exec c f) = false)
    : f = .ok ∧ w'.conns c = some (t.resume s (.rvJoin rvId) k
        (some (joinSet (w.rv rvId) w.now t.me.deviceId).2)) := by
  have hf : f = .ok := by simpa [disturbs] using hdisturbs
  subst hf
  refine ⟨rfl, ?_⟩
  obtain ⟨t1, s1, o1, k1, w1, r1, hc1, hprog1, hperf, hw'⟩ := exec_eq_some.mp hstep
  rw [hc] at hc1
  cases hc1
  rw [hprog] at hprog1
  cases hprog1
  cases hperf
  rw [hw', setConn_self]
  rfl

theorem MeetingOk.writing_of_owed {c : Uuid} {t : ConnTask} {text : String} (h : MeetingOk env w)
    (hc : w.conns c = some t) (howed : owed t.me t.trace = some (.sendText text))
    : t.writing = some text := by
  have ⟨t0, hat⟩ := h.answering c t hc
  cases hprog : t.prog with
  | done s n =>
    have hnone : owed t.me t.trace = none := hat.post hprog
    rw [howed] at hnone
    cases hnone
  | wait s o k =>
    cases (hat.obeys hprog).next _ howed
    unfold ConnTask.writing
    rw [hprog]

/--
The second of the two devices joins.
-/
theorem learns_of_join {l : Label} (hok : MeetingOk env w) (hok' : MeetingOk env w')
    (htracks : Tracks me m w) (htracks' : Tracks me (m.step rvId me w l w') w')
    (hstep : w.step env l = some w') (htogether : Together env rvId me me' w l)
    (hne : me.deviceId ≠ me'.deviceId) (hlasts : m.lasts = true)
    (hapart : ¬ (me.deviceId ∈ (w.rv rvId).members ∧ me'.deviceId ∈ (w.rv rvId).members))
    (hx : me.deviceId ∈ (w'.rv rvId).members) (hy : me'.deviceId ∈ (w'.rv rvId).members)
    : Learns rvId me me' (m.step rvId me w l w') w' := by
  have hrv := step_rv hstep rvId
  generalize hset : w'.rv rvId = set at hrv hx hy
  cases hrv with
  | same => exact absurd ⟨hx, hy⟩ hapart
  | expired => cases hx
  | @joined c f t s k hc hprog _ =>
    have hjoining : w.joining rvId (.exec c f) = some t.me := by
      simp only [joining, hc, hprog, if_true]
    have hident := hok.takeover.sound.wellFormed.ident c t hc
    have hcases := joinSet_cases (hok.rv rvId) w.now t.me.deviceId
    generalize hres : joinSet (w.rv rvId) w.now t.me.deviceId = res at hcases hx hy
    cases hcases with
    | again _ => exact absurd ⟨hx, hy⟩ hapart
    | full _ _ => exact absurd ⟨hx, hy⟩ hapart
    | created _ =>
      rw [List.mem_singleton] at hx hy
      exact absurd (hx.trans hy.symm) hne
    | @met other hother hother' =>
      simp only [List.mem_cons, List.not_mem_nil, or_false] at hx hy
      by_cases hd : me'.deviceId = t.me.deviceId
      . -- the other device comes second, and is about to tell this one
        have hid := htogether.only' t.me hjoining hd.symm
        rw [hident] at hid
        subst hid
        have ⟨hf, hc'⟩ := resume_of_join hstep hc hprog htogether.calm'
        rw [hres] at hc'
        have hfirst : other = me.deviceId := (hx.resolve_right fun heq => hne (heq.trans hd.symm)).symm
        refine .telling hc' ?_ ?_
        . rw [ConnTask.resume_trace, hfirst, ← hd]
          exact .answer
        . simp [Log.step, hjoining, hident, hlasts]
      . -- this device comes second, and is answered at once
        have hself : me.deviceId = t.me.deviceId := by
          refine hx.resolve_left fun heq => ?_
          exact hne (heq.trans (hy.resolve_right hd).symm)
        have hid := htogether.only t.me hjoining hself.symm
        rw [hident] at hid
        subst hid
        have ⟨hf, hc'⟩ := resume_of_join hstep hc hprog htogether.calm
        rw [hres] at hc'
        have hwriting : _ = some (rvJoinedMessage rvId true) :=
          hok'.writing_of_owed hc' (by rw [ConnTask.resume_trace]; rfl)
        have hrelaying : t.relaying? = none := by
          unfold ConnTask.relaying?
          rw [hprog]
        have huttered : uttered me.connId w w' (.exec me.connId f) = [rvJoinedMessage rvId true] := by
          simp [uttered, hc, hc', utters, hrelaying, hwriting]
        have hanswer : lifeAnswers rvId [(true, rvJoinedMessage rvId true)] = [true] := by
          simp [lifeAnswers, answer?_eq_some.mpr rfl]
        refine .said ?_
        rw [lifeAnswers_step, huttered, hlasts, List.map_singleton, hanswer]
        refine ends_append (ends_append ?_ (htracks.drop_true hok _)) ?_
        . exact List.getLast?_concat
        . intro v hv
          have htrue : ∀ v ∈ lifeAnswers rvId _, v = true := htracks'.coming_true hok'
          apply htrue
          rw [mem_lifeAnswers] at hv ⊢
          exact List.mem_append_right _ hv

/--
What holds all along while the two connections serve their devices.
-/
structure Beside (env : Env) (me me' : Ident) (m : Log) (w : World) : Prop where
  ok : MeetingOk env w
  tracks : Tracks me m w
  there : ∃ t', w.conns me'.connId = some t' ∧ t'.me = me'

theorem Beside.step {l : Label} (h : Beside env me me' m w)
    (htogether : Together env rvId me me' w l) (hstep : w.step env l = some w')
    : Beside env me me' (m.step rvId me w l w') w' where
  ok := by
    refine h.ok.step ?_ hstep
    rintro i keep rfl
    cases htogether.calm
  tracks := h.tracks.step h.ok htogether.here htogether.calm hstep
  there := by
    have ⟨t', hc', hme'⟩ := h.there
    have ⟨u', hu', hsame⟩ := step_conn hstep hc'
    exact ⟨u', hu', hsame.trans hme'⟩

theorem Beside.conn_me (h : Beside env me me' m w) {t' : ConnTask}
    (hc' : w.conns me'.connId = some t') : t'.me = me' := by
  have ⟨u', hu', hme'⟩ := h.there
  rw [hc'] at hu'
  cases hu'
  exact hme'

/--
As long as the lifetime lasts: once both devices are members, this one learns it.
-/
structure Joining (env : Env) (rvId : String) (me me' : Ident) (m : Log) (w : World) : Prop
    extends Beside env me me' m w where
  lasts : m.lasts = true
  learns : me.deviceId ∈ (w.rv rvId).members ∧ me'.deviceId ∈ (w.rv rvId).members
    → Learns rvId me me' m w

/--
Both devices were members, and are so until the lifetime ends.
-/
structure Joined (env : Env) (rvId : String) (me me' : Ident) (m : Log) (w : World) : Prop
    extends Beside env me me' m w where
  both : m.lasts = true → me.deviceId ∈ (w.rv rvId).members ∧ me'.deviceId ∈ (w.rv rvId).members
  learns : Learns rvId me me' m w

theorem Beside.learns_step {l : Label} (h : Beside env me me' m w)
    (htogether : Together env rvId me me' w l) (hstep : w.step env l = some w')
    (hne : me.deviceId ≠ me'.deviceId)
    (hboth : m.lasts = true
      → me.deviceId ∈ (w.rv rvId).members ∧ me'.deviceId ∈ (w.rv rvId).members)
    (hlearns : Learns rvId me me' m w) : Learns rvId me me' (m.step rvId me w l w') w' :=
  have h' := h.step htogether hstep
  hlearns.step h.ok h'.ok h.tracks h'.tracks (fun _ => h.conn_me) hstep htogether.here
    htogether.calm' hne hboth

theorem Joining.step {l : Label} (h : Joining env rvId me me' m w)
    (htogether : Together env rvId me me' w l) (hl : l ≠ .expireRv rvId)
    (hne : me.deviceId ≠ me'.deviceId) (hstep : w.step env l = some w')
    : Joining env rvId me me' (m.step rvId me w l w') w' where
  toBeside := h.toBeside.step htogether hstep
  lasts := by
    have hexpires : l.expires rvId = false := by
      cases l with
      | expireRv r => exact decide_eq_false fun heq => hl (by rw [heq])
      | _ => rfl
    simp [Log.step, h.lasts, hexpires]
  learns hboth' := by
    have h' := h.toBeside.step htogether hstep
    by_cases hboth : me.deviceId ∈ (w.rv rvId).members ∧ me'.deviceId ∈ (w.rv rvId).members
    . exact h.toBeside.learns_step htogether hstep hne (fun _ => hboth) (h.learns hboth)
    . exact learns_of_join h.ok h'.ok h.tracks h'.tracks hstep htogether hne h.lasts hboth
        hboth'.1 hboth'.2

theorem Joined.step {l : Label} (h : Joined env rvId me me' m w)
    (htogether : Together env rvId me me' w l) (hne : me.deviceId ≠ me'.deviceId)
    (hstep : w.step env l = some w') : Joined env rvId me me' (m.step rvId me w l w') w' where
  toBeside := h.toBeside.step htogether hstep
  both hlasts := by
    have ⟨hbefore, hexpires⟩ : m.lasts = true ∧ l.expires rvId = false := by
      simpa [Log.step] using hlasts
    have hl : l ≠ .expireRv rvId := by
      rintro rfl
      simp [Label.expires] at hexpires
    have ⟨hx, hy⟩ := h.both hbefore
    have hkept := h.ok.rv.setKept hstep rvId
    exact ⟨hkept.members hl hx, hkept.members hl hy⟩
  learns := h.toBeside.learns_step htogether hstep hne h.both h.learns

theorem beside_start {c c' : Uuid} {t t' : ConnTask} (hok : MeetingOk env w)
    (hc : w.conns c = some t) (hc' : w.conns c' = some t')
    : Beside env t.me t'.me (.start w t) w where
  ok := hok
  tracks := by
    refine ⟨⟨t, ?_, rfl, ?_⟩, ?_⟩
    . rw [hok.takeover.sound.wellFormed.ident c t hc, hc]
    . simp [Log.start]
    . simp [Log.start, Function.comp_def]
  there := ⟨t', by rw [hok.takeover.sound.wellFormed.ident c' t' hc', hc'], rfl⟩

end World

/--
The texts that the connection has written are those of the log, and the last answer for the lifetime
among them says that the other device is there.
-/
structure LastWord (env : Env) (rvId : String) (w : World) (t : ConnTask) (ls : List Label)
    (u : ConnTask) : Prop where
  own : (Log.after env rvId w t ls).own.map Prod.snd = (texts u.trace).reverse
  present : (lifeAnswers rvId (Log.after env rvId w t ls).own).getLast? = some true

section

open World

variable {env : Env} {w w1 w2 : World} {rvId : String} {c c' : Uuid} {t t' u u' : ConnTask}
  {ls1 ls2 : List Label}

theorem lastWord_of_joined (hok : MeetingOk env w) (hc : w.conns c = some t)
    (hc' : w.conns c' = some t') (hne : t.me.deviceId ≠ t'.me.deviceId)
    (hapart : ¬ (t.me.deviceId ∈ (w.rv rvId).members ∧ t'.me.deviceId ∈ (w.rv rvId).members))
    (hrun1 : run env w ls1 = some w1) (hlasts : .expireRv rvId ∉ ls1)
    (hmet : t.me.deviceId ∈ (w1.rv rvId).members ∧ t'.me.deviceId ∈ (w1.rv rvId).members)
    (hrun2 : run env w1 ls2 = some w2)
    (htogether : Lts.Meets (World.step env) (Together env rvId t.me t'.me) w (ls1 ++ ls2))
    (hu : w2.conns c = some u) (hu' : w2.conns c' = some u') (hidle : u.idle = true)
    (hidle' : u'.idle = true) (hquiet : w2.underway t.me = [])
    : LastWord env rvId w t (ls1 ++ ls2) u := by
  have ⟨hmeets1, hmeets2⟩ := Lts.meets_append.mp htogether
  have hjoining : Joining env rvId t.me t'.me (Log.after env rvId w t ls1) w1 := by
    refine Lts.run_carry (P := fun m w => Joining env rvId t.me t'.me m w) ?_ ?_
      (hmeets1.and (Lts.meets_of_forall (C := fun l => l ≠ .expireRv rvId) ?_)) hrun1
    . intro m w l w' h hl hstep
      exact h.step hl.1 hl.2 hne hstep
    . exact ⟨beside_start hok hc hc', rfl, fun hboth => absurd hboth hapart⟩
    . rintro l hl rfl
      exact hlasts hl
  have hjoined : Joined env rvId t.me t'.me (Log.after env rvId w t (ls1 ++ ls2)) w2 := by
    unfold Log.after
    rw [Lts.carry_append hrun1]
    refine Lts.run_carry (P := fun m w => Joined env rvId t.me t'.me m w) ?_ ?_ (hmeets2 w1 hrun1)
      hrun2
    . intro m w l w' h hl hstep
      exact h.step hl hne hstep
    . exact ⟨hjoining.toBeside, fun _ => hmet, hjoining.learns hmet⟩
  have hconn := hok.takeover.sound.wellFormed.ident c t hc
  have hconn' := hok.takeover.sound.wellFormed.ident c' t' hc'
  have hcoming : (Log.after env rvId w t (ls1 ++ ls2)).coming = [] := by
    have htracked := hjoined.tracks.coming
    rw [hquiet] at htracked
    exact List.map_eq_nil_iff.mp htracked
  refine ⟨?_, ?_⟩
  . have ⟨v, hv, _, hown⟩ := hjoined.tracks.conn
    rw [hconn, hu] at hv
    cases hv
    have ⟨s, n, hprog⟩ : ∃ s n, u.prog = .done s n := by
      unfold ConnTask.idle at hidle
      split at hidle
      next s n hprog => exact ⟨s, n, hprog⟩
      . cases hidle
    rw [hown, ConnTask.writing_of_done hprog]
    exact List.append_nil _
  . cases hjoined.learns with
    | said h =>
      rw [hcoming, List.append_nil] at h
      exact h
    | telling hv htells _ =>
      -- nothing is owed any more
      rw [hconn', hu'] at hv
      cases hv
      have hme' := hjoined.conn_me (hconn'.symm ▸ hu')
      have ⟨t0, hat⟩ := hjoined.ok.answering c' u' hu'
      unfold ConnTask.idle at hidle'
      split at hidle'
      next s n hprog =>
        have hnone : owed u'.me u'.trace = none := hat.post hprog
        rw [hme'] at hnone
        exact absurd hnone (htells.owed_ne_none hne)
      . cases hidle'

end

/--
A rendezvous is for two devices. In every world that a run reaches, a set has at most two members,
and a time to live from its creation to its end that nothing extends. A device that is refused
changes nothing, and one that has joined stays. An `rv_msg` goes to the one other member that its
connection found when it read the members for it. If two devices whose connections serve them all
the time join in one lifetime of the set, then both are told in the end that the other one is there.
-/
theorem rendezvous_is_isolated {env : Env} {db : Db} {ls : List Label} {w : World}
    (hrun : run env (.init db) ls = some w)
    : (∀ rvId, (w.rv rvId).Ok)
      ∧ (∀ l w' rvId, w.step env l = some w' → World.SetKept w w' l rvId)
      ∧ (∀ c t text inbound s dest msg (k : Option Nat → Prog Conn Op Op.Res Next),
        w.conns c = some t → t.stage = .handling (.client (.text text))
        → env.serde.parseInbound text = some inbound → inbound.op = some "rv_msg"
        → t.prog = .wait s (.publish dest msg) k
        → ∃ rvId ls1 ls2 w1 t1, inbound.rvId.bind canonicalRvId = some rvId
          ∧ ls = ls1 ++ .exec c .ok :: ls2 ∧ run env (.init db) ls1 = some w1
          ∧ w1.conns c = some t1 ∧ t1.stage = .handling (.client (.text text))
          ∧ t1.inputs = t.inputs ∧ t1.next? = some (.rvMembers rvId)
          ∧ dest ≠ t.me.deviceId ∧ t.me.deviceId ∈ (w1.rv rvId).members
          ∧ dest ∈ (w1.rv rvId).members
          ∧ ∀ x ∈ (w1.rv rvId).members, x = t.me.deviceId ∨ x = dest)
      ∧ ((∀ i keep, .lose i keep ∉ ls)
        → ∀ rvId c c' t t' ls1 w1 ls2 w2 u u', w.conns c = some t → w.conns c' = some t'
        → t.me.deviceId ≠ t'.me.deviceId
        → ¬ (t.me.deviceId ∈ (w.rv rvId).members ∧ t'.me.deviceId ∈ (w.rv rvId).members)
        → run env w ls1 = some w1 → .expireRv rvId ∉ ls1
        → t.me.deviceId ∈ (w1.rv rvId).members ∧ t'.me.deviceId ∈ (w1.rv rvId).members
        → run env w1 ls2 = some w2
        → Lts.Meets (World.step env) (World.Together env rvId t.me t'.me) w (ls1 ++ ls2)
        → w2.conns c = some u → w2.conns c' = some u' → u.idle = true → u'.idle = true
        → w2.underway t.me = [] → w2.underway t'.me = []
        → LastWord env rvId w t (ls1 ++ ls2) u ∧ LastWord env rvId w t' (ls1 ++ ls2) u') := by
  refine ⟨World.rvOk_run hrun, ?_, ?_, ?_⟩
  . intro l w' rvId hstep
    exact (World.rvOk_run hrun).setKept hstep rvId
  . intro c t text inbound s dest msg k hc hstage hparse hop hprog
    exact rvMsg_goes_to_the_other_member hrun hc hstage hparse hop hprog
  . intro hlose rvId c c' t t' ls1 w1 ls2 w2 u u' hc hc' hne hapart hrun1 hlasts hmet hrun2
      htogether hu hu' hidle hidle' hquiet hquiet'
    have hok := World.meetingOk_run hrun hlose
    refine ⟨lastWord_of_joined hok hc hc' hne hapart hrun1 hlasts hmet hrun2 htogether hu hu' hidle
      hidle' hquiet, ?_⟩
    -- the same with the two devices exchanged
    refine lastWord_of_joined hok hc' hc hne.symm (fun h => hapart h.symm) hrun1 hlasts hmet.symm
      hrun2 (htogether.imp fun _ _ h => h.symm) hu' hu hidle' hidle hquiet'

namespace Sample

def meetingId : String := "AAAAAAAAAAAAAAAAAAAAAA"

def joinText : String :=
  Json.object [("op", Json.quote "rv_join"), ("rv_id", Json.quote meetingId)]

def bothConnect : List Label :=
  opens "a" (uuid 1) (uuid 8) ++ replaced "a" (uuid 1) (uuid 1) ++ opens "b" (uuid 2) (uuid 9)
    ++ replaced "b" (uuid 2) (uuid 2)

/--
The first device joins and is told that it is alone, and then the second one joins.
-/
def bothJoin : List Label :=
  [Label.event (uuid 1) (.client (.text joinText))] ++ execs 3 (uuid 1)
    ++ [Label.event (uuid 2) (.client (.text joinText))] ++ execs 2 (uuid 2)

def bothLearn : List Label :=
  execs 2 (uuid 2) ++ [Label.busMessage "a", .event (uuid 1)
    (.delivery (.bus (.control (rvJoinedMessage meetingId true))))] ++ execs 2 (uuid 1)

end Sample

theorem two_devices_meet
    : ∃ w t t' u u', run Sample.chat (.init .empty) Sample.bothConnect = some w
      ∧ w.conns (Sample.uuid 1) = some t ∧ w.conns (Sample.uuid 2) = some t'
      ∧ LastWord Sample.chat Sample.meetingId w t (Sample.bothJoin ++ Sample.bothLearn) u
      ∧ LastWord Sample.chat Sample.meetingId w t' (Sample.bothJoin ++ Sample.bothLearn) u' := by
  have hrun : ((run Sample.chat (.init .empty) Sample.bothConnect).any fun w =>
      (w.conns (Sample.uuid 1)).any fun t => (w.conns (Sample.uuid 2)).any fun t' =>
        decide (t.me.deviceId ≠ t'.me.deviceId)
        && decide (¬ (t.me.deviceId ∈ (w.rv Sample.meetingId).members
          ∧ t'.me.deviceId ∈ (w.rv Sample.meetingId).members))
        && decide (Lts.Meets (World.step Sample.chat)
          (fun w l => w.together Sample.chat Sample.meetingId t.me t'.me l = true) w
          (Sample.bothJoin ++ Sample.bothLearn))
        && (run Sample.chat w Sample.bothJoin).any fun w1 =>
          decide (t.me.deviceId ∈ (w1.rv Sample.meetingId).members
            ∧ t'.me.deviceId ∈ (w1.rv Sample.meetingId).members)
          && (run Sample.chat w1 Sample.bothLearn).any fun w2 =>
            (w2.conns (Sample.uuid 1)).any fun u => (w2.conns (Sample.uuid 2)).any fun u' =>
              u.idle && u'.idle && (w2.underway t.me).isEmpty && (w2.underway t'.me).isEmpty)
      = true := by
    decide +kernel
  simp only [Option.any_eq_true, Bool.and_eq_true, decide_eq_true_eq, List.isEmpty_iff] at hrun
  have ⟨w, hw, t, ht, t', ht', ⟨⟨hne, hapart⟩, htogether⟩, w1, hw1, hmet, w2, hw2, u, hu, u', hu',
    ⟨⟨hidle, hidle'⟩, hquiet⟩, hquiet'⟩ := hrun
  have ⟨hlast, hlast'⟩ := (rendezvous_is_isolated hw).2.2.2 (by simp [Sample.bothConnect, Sample.opens,
      Sample.replaced, Sample.execs])
    Sample.meetingId (Sample.uuid 1) (Sample.uuid 2) t t' Sample.bothJoin w1 Sample.bothLearn w2 u u'
    ht ht' hne hapart hw1 (by simp [Sample.bothJoin, Sample.execs]) hmet hw2
    (htogether.imp fun _ _ h => World.together_iff.mp h) hu hu' hidle hidle' hquiet hquiet'
  exact ⟨w, t, t', u, u', hw, ht, ht', hlast, hlast'⟩

end HandLiveRelay
