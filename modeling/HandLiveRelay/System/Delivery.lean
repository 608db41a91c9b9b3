import HandLiveRelay.System.SlowReceiver

/-!
This module contains the way of a published message to the connection of its device. As long as
the instance is subscribed and the connection is registered, open and not over its limit, nothing
is lost: what a connection takes from its queue and what is still under way are exactly what was
under way before and what is published, in this order.
-/

namespace HandLiveRelay

open Fiber

/--
The message of a packet, if it is one for the device.
-/
def Packet.messageFor (d : Uuid) (p : Packet) : Option BusMessage :=
  if channelDevice p.channel = some d then BusMessage.decode p.payload else none

theorem Packet.messageFor_encode (d dest : Uuid) (msg : BusMessage)
    : Packet.messageFor d ⟨deviceChannel dest, msg.encode⟩ = if dest = d then some msg else none := by
  simp [Packet.messageFor, BusMessage.decode_encode]

namespace World

/--
What a step publishes, and to whom.
-/
def published (w : World) : Label → Option (Uuid × BusMessage)
  | .exec c f =>
    match w.conns c with
    | none => none
    | some t =>
      match t.prog with
      | .wait _ (.publish dest msg) _ => if f = .fail then none else some (dest, msg)
      | _ => none
  | .job k f =>
    match w.jobs[k]? with
    | some (.notify dest msg :: _) => if f = .fail then none else some (dest, msg)
    | _ => none
  | _ => none

/--
What a step publishes for a device that the instance is subscribed for.
-/
def publishedFor (w : World) (i : InstanceId) (d : Uuid) (l : Label) : List BusMessage :=
  if deviceChannel d ∈ (w.insts i).channels then
    (w.published l).toList.filterMap fun p => if p.1 = d then some p.2 else none
  else
    []

/--
The messages for a device in the stream of an instance.
-/
def coming (w : World) (i : InstanceId) (d : Uuid) : List BusMessage :=
  (w.insts i).stream.filterMap (·.messageFor d)

/--
The message for a device that the bus task of an instance takes from its stream.
-/
def passing (w : World) (i : InstanceId) (d : Uuid) : Label → List BusMessage
  | .busMessage j => if j = i then ((w.insts i).stream.head?.bind (·.messageFor d)).toList else []
  | _ => []

/--
The message that a connection takes from its queue.
-/
def taking (c : Uuid) : Label → List BusMessage
  | .event c' e => if c' = c then e.bus?.toList else []
  | _ => []

/--
The messages that wait for a connection, in its queue and in the stream of its instance.
-/
def underway (w : World) (me : Ident) : List BusMessage :=
  (w.boxes me.connId).queue.filterMap Delivery.bus? ++ w.coming me.inst me.deviceId

variable {env : Env} {w w' : World}

theorem published_exec {c : Uuid} {f : Fault} {t : ConnTask} {s : Conn} {o : Op}
    {k : o.Res → Prog Conn Op Op.Res Next} (hc : w.conns c = some t) (hprog : t.prog = .wait s o k)
    (ho : ∀ dest msg, o ≠ .publish dest msg) : w.published (.exec c f) = none := by
  simp only [published, hc, hprog]
  split
  next dest msg _ heq =>
    cases heq
    exact absurd rfl (ho dest msg)
  . rfl

theorem publishes_of_published {l : Label} {dest : Uuid} {msg : BusMessage}
    (h : w.published l = some (dest, msg)) : w.Publishes dest msg l := by
  cases l with
  | exec c f =>
    unfold published at h
    dsimp only at h
    split at h
    . cases h
    next t hc =>
      split at h
      next s dest' msg' k hprog =>
        split at h
        . cases h
        . cases h
          exact ⟨t, s, k, hc, hprog⟩
      . cases h
  | job k f =>
    unfold published at h
    dsimp only at h
    split at h
    next dest' msg' actions hjob =>
      split at h
      . cases h
      . cases h
        exact ⟨actions, hjob⟩
    . cases h
  | _ => cases h

theorem publishedFor_of_none {l : Label} (h : w.published l = none) (i : InstanceId) (d : Uuid)
    : w.publishedFor i d l = [] := by
  simp [publishedFor, h]

theorem publishedFor_of_some {l : Label} {dest : Uuid} {msg : BusMessage}
    (h : w.published l = some (dest, msg)) (i : InstanceId) (d : Uuid)
    : w.publishedFor i d l
      = if deviceChannel d ∈ (w.insts i).channels ∧ dest = d then [msg] else [] := by
  unfold publishedFor
  rw [h]
  by_cases hd : dest = d
  . simp [hd]
  . simp [hd]

/--
Redis hands a message to the instances that are subscribed.
-/
theorem coming_publish (env : Env) (w : World) (dest : Uuid) (msg : BusMessage) (i : InstanceId)
    (d : Uuid)
    : (w.publish env dest msg).1.coming i d
      = w.coming i d
        ++ if deviceChannel d ∈ (w.insts i).channels ∧ dest = d then [msg] else [] := by
  unfold coming publish Instance.deliver
  dsimp only
  by_cases hd : dest = d
  . subst hd
    split
    next hsub => simp [hsub, Packet.messageFor_encode]
    next hsub => simp [hsub]
  . split
    . simp [hd, Packet.messageFor_encode]
    . simp [hd]

theorem coming_of_stream {i : InstanceId} (h : (w'.insts i).stream = (w.insts i).stream) (d : Uuid)
    : w'.coming i d = w.coming i d := by
  unfold coming
  rw [h]

theorem exec_coming {c : Uuid} {f : Fault} {t : ConnTask} {s : Conn} {o : Op}
    {k : o.Res → Prog Conn Op Op.Res Next} {w1 : World} {r : o.Res} (hc : w.conns c = some t)
    (hprog : t.prog = .wait s o k) (hperf : w.perform env t.me o f = some (w1, r))
    (i : InstanceId) (d : Uuid)
    : w1.coming i d = w.coming i d ++ w.publishedFor i d (.exec c f) := by
  by_cases ho : ∃ dest msg, o = .publish dest msg
  . have ⟨dest, msg, ho⟩ := ho
    subst ho
    have hpub : w.published (.exec c f) = if f = .fail then none else some (dest, msg) := by
      simp only [published, hc, hprog]
    cases f with
    | fail =>
      cases hperf
      rw [publishedFor_of_none hpub, List.append_nil]
    | ok =>
      cases hperf
      rw [publishedFor_of_some hpub]
      apply coming_publish
    | lost =>
      cases hperf
      rw [publishedFor_of_some hpub]
      apply coming_publish
  . have hpub := published_exec (f := f) hc hprog fun dest msg heq => ho ⟨dest, msg, heq⟩
    rw [publishedFor_of_none hpub, List.append_nil]
    apply coming_of_stream
    cases perform_hub hperf with
    | other _ hi _ => rw [hi]
    | tellPrevious => rfl
    | subscribe => exact modifyInst_field (g := Instance.stream) rfl i
    | unregister _ =>
      exact modifyInst_field (w := w) (g := Instance.stream) (f := (·.unregister _)) rfl i
    | superseded _ => rfl
    | unsubscribe => exact modifyInst_field (g := Instance.stream) rfl i
    | publish => exact absurd ⟨_, _, rfl⟩ ho
    | unpublished => rfl
    | fetchSub => rfl

theorem job_coming {k : Nat} {f : Fault} {a : Action} {actions : List Action}
    (hjob : w.jobs[k]? = some (a :: actions)) (i : InstanceId) (d : Uuid)
    : (act env { w with jobs := w.jobs.set k actions } f a).coming i d
      = w.coming i d ++ w.publishedFor i d (.job k f) := by
  have hnone : w.published (.job k f) = none
      → (act env { w with jobs := w.jobs.set k actions } f a).insts = w.insts
      → (act env { w with jobs := w.jobs.set k actions } f a).coming i d
        = w.coming i d ++ w.publishedFor i d (.job k f) := by
    intro hpub hi
    rw [publishedFor_of_none hpub, List.append_nil]
    apply coming_of_stream
    rw [hi]
  cases a with
  | addRevokedNotice peer st =>
    apply hnone
    . simp [published, hjob]
    . cases f <;> rfl
  | delPresence d' =>
    apply hnone
    . simp [published, hjob]
    . cases f <;> rfl
  | notify dest msg =>
    cases f with
    | fail =>
      apply hnone
      . simp [published, hjob]
      . rfl
    | ok =>
      have hpublished : w.published (.job k .ok) = some (dest, msg) := by simp [published, hjob]
      rw [publishedFor_of_some hpublished]
      apply coming_publish env { w with jobs := w.jobs.set k actions }
    | lost =>
      have hpublished : w.published (.job k .lost) = some (dest, msg) := by simp [published, hjob]
      rw [publishedFor_of_some hpublished]
      apply coming_publish env { w with jobs := w.jobs.set k actions }

theorem bus_coming {l : Label} (hl : l.ofBus) (h : w.step env l = some w') {i : InstanceId}
    (hlose : ∀ keep, l ≠ .lose i keep) (d : Uuid)
    : w.passing i d l ++ w'.coming i d = w.coming i d := by
  by_cases hmsg : l = .busMessage i
  . subst hmsg
    have ⟨p, rest, _, hstream, hw'⟩ := busMessage_eq_some h
    have hrest : (w'.insts i).stream = rest := by
      have hi : (w.modifyInst i ({ · with stream := rest })).insts i
          = { w.insts i with stream := rest } := modifyInst_self ..
      cases hw' with
      | inl hw' =>
        have ⟨d', msg, _, _, hw'⟩ := hw'
        rw [hw', dispatch]
        split
        . rw [hi]
        . change ((w.modifyInst i ({ · with stream := rest })).insts i).stream = rest
          rw [hi]
      | inr hw' => rw [hw'.2, hi]
    simp only [passing, coming, hrest, hstream, List.head?_cons, Option.bind_some, if_true]
    rw [List.filterMap_cons]
    cases p.messageFor d <;> rfl
  . have hpassing : w.passing i d l = [] := by
      cases l with
      | busMessage j => exact if_neg fun hj => hmsg (by rw [hj])
      | _ => rfl
    rw [hpassing, List.nil_append]
    apply coming_of_stream
    have hs := bus_stream hl h i
    generalize (w'.insts i).stream = stream at hs ⊢
    cases hs with
    | same => rfl
    | published hpub => cases l <;> contradiction
    | taken _ => exact absurd rfl hmsg
    | lost => exact absurd rfl (hlose _)

/--
What comes for a device on an instance: what is published is added, and the bus task takes one
message after the other.
-/
theorem step_coming {l : Label} (h : w.step env l = some w') {i : InstanceId}
    (hlose : ∀ keep, l ≠ .lose i keep) (d : Uuid)
    : w.passing i d l ++ w'.coming i d = w.coming i d ++ w.publishedFor i d l := by
  cases step_view h with
  | connect _ _ hw' =>
    subst hw'
    rw [publishedFor_of_none rfl, List.append_nil]
    exact coming_of_stream
      (modifyInst_field (w := w) (g := Instance.stream) (f := (·.register _ _)) rfl i) d
  | exec hc hprog hperf hw' =>
    subst hw'
    exact exec_coming hc hprog hperf i d
  | event _ _ _ hw' =>
    subst hw'
    rw [publishedFor_of_none rfl, List.append_nil]
    rfl
  | bus hl _ =>
    have hnone : w.published l = none := by cases l <;> first | rfl | cases hl
    rw [publishedFor_of_none hnone, List.append_nil]
    exact bus_coming hl h hlose d
  | job hjob hw' =>
    subst hw'
    exact job_coming hjob i d
  | store hl hframe =>
    have hnone : w.published l = none := by cases l <;> first | rfl | cases hl
    have hpassing : w.passing i d l = [] := by cases l <;> first | rfl | cases hl
    rw [publishedFor_of_none hnone, List.append_nil, hpassing, List.nil_append]
    exact coming_of_stream (by rw [hframe.insts]) d

/--
A message that passes is handed to the registered connection.
-/
theorem passing_of_untouched {i : InstanceId} {d c : Uuid} {l : Label}
    (hcur : (w.insts i).current d = some c) (h : w.touches c l = false)
    : w.passing i d l = [] := by
  cases l with
  | busMessage j =>
    unfold passing
    dsimp only
    split
    next hj =>
      subst hj
      simp only [touches, handed] at h
      cases hstream : (w.insts j).stream with
      | nil => rfl
      | cons p rest =>
        rw [hstream] at h
        simp only [List.head?_cons, Option.bind_some, Packet.messageFor]
        split
        next hd =>
          simp only [hd, Option.bind_eq_bind, Option.bind_some, hcur, if_true,
            Option.isSome_eq_false_iff, Option.isNone_iff_eq_none, Option.bind_eq_none_iff] at h
          cases hmsg : BusMessage.decode p.payload with
          | none => rfl
          | some msg => exact absurd (h msg hmsg) (by simp)
        . rfl
    . rfl
  | _ => rfl

theorem taking_of_untouched {c : Uuid} {l : Label} (h : w.touches c l = false)
    : taking c l = [] := by
  cases l with
  | event c' e => exact if_neg (by simpa [touches] using h)
  | _ => rfl

/--
Nothing is lost on the way to a connection that is registered and open, and nothing overtakes
anything but the word of a newer connection, which `g` does not look at.
-/
theorem step_underway {α : Type} {g : BusMessage → Option α} (hg : ∀ c, g (.replace c) = none)
    {l : Label} {c : Uuid} {t : ConnTask} (hwf : WellFormed w) (hstep : w.step env l = some w')
    (hc : w.conns c = some t) (hcur : (w.insts t.me.inst).current t.me.deviceId = some c)
    (hopen : t.ended = false)
    (hlimit : ∀ msg, w.handed c l = some msg → w.overLimit env c msg l = false)
    (hlose : ∀ keep, l ≠ .lose t.me.inst keep)
    : (taking c l ++ w'.underway t.me).filterMap g
      = (w.underway t.me ++ w.publishedFor t.me.inst t.me.deviceId l).filterMap g := by
  have hid := hwf.ident c t hc
  have hcoming := step_coming hstep hlose t.me.deviceId
  have hbox := step_box hstep c
  unfold underway
  rw [hid]
  generalize w'.boxes c = b at hbox ⊢
  -- the queue loses what is taken and gets what passes
  suffices hqueue : (taking c l ++ b.queue.filterMap Delivery.bus?).filterMap g
      = ((w.boxes c).queue.filterMap Delivery.bus?
        ++ w.passing t.me.inst t.me.deviceId l).filterMap g by
    rw [List.append_assoc, ← hcoming, ← List.append_assoc, ← List.append_assoc,
      List.filterMap_append, hqueue, ← List.filterMap_append]
  cases hbox with
  | same hl => rw [taking_of_untouched hl, passing_of_untouched hcur hl]; simp
  | fresh =>
    obtain ⟨_, hnone, _⟩ := connect_eq_some.mp hstep
    rw [hc] at hnone
    cases hnone
  | @taken e t1 s hc1 hprog hready =>
    cases e with
    | delivery d =>
      obtain ⟨_, hqueue⟩ := head_of_ready hready
      rw [hqueue]
      cases d with
      | bus msg => simp [taking, passing, take, Event.bus?, Delivery.bus?]
      | resync => simp [taking, passing, take, Event.bus?, Delivery.bus?, List.filterMap_cons]
    | _ => simp [taking, passing, take, Event.bus?]
  | told _ _ =>
    rw [received_eq hc, hopen]
    simp [taking, passing, Mailbox.push, Delivery.bus?, hg]
  | left _ _ _ => simp [taking, passing]
  | counted _ _ _ => simp [taking, passing]
  | @dispatched i p rest d msg hstream hd hmsg hcur1 =>
    obtain ⟨t1, hc1, hme⟩ := hwf.current i d c hcur1
    rw [hc] at hc1
    cases hc1
    have hhanded := handed_busMessage (c := c) hstream hd hmsg
    rw [if_pos hcur1] at hhanded
    have hover := hlimit msg hhanded
    simp only [overLimit, decide_eq_false_iff_not] at hover
    rw [received_eq hc, hopen, hme]
    simp [taking, passing, Mailbox.dispatch, hover, hstream, Packet.messageFor, hd, hmsg,
      Delivery.bus?]
  | resync => simp [taking, passing, Delivery.bus?]

/--
A message that takes a connection over its limit makes it leave.
-/
theorem leaving_of_overLimit {l : Label} {c : Uuid} {t : ConnTask} {msg : BusMessage}
    (hstep : w.step env l = some w') (hhanded : w.handed c l = some msg)
    (hover : w.overLimit env c msg l = true) : Leaving w' c t := by
  refine .killed ?_
  cases l with
  | busMessage i =>
    have hbox := step_box hstep c
    generalize w'.boxes c = b at hbox ⊢
    cases hbox with
    | same hl =>
      simp only [touches, hhanded] at hl
      cases hl
    | dispatched hstream hd hmsg hcur =>
      rw [handed_busMessage hstream hd hmsg, if_pos hcur] at hhanded
      cases hhanded
      simp only [overLimit, decide_eq_true_eq] at hover
      simp [Mailbox.dispatch, hover]
  | _ => cases hover

end World
end HandLiveRelay
