import HandLiveRelay.Routes.Permanence
import HandLiveRelay.System.Stages
import HandLiveRelay.System.Takeover

/-!
This module contains the limit on the bytes that wait for a connection. The counter never falls
below what waits, and a connection that is over the limit ends before it would take a message that
came after the one that was dropped: it gets a part of its messages from the beginning, never a
stream with a hole.
-/

namespace HandLiveRelay

open Fiber

def Delivery.bus? : Delivery → Option BusMessage
  | .bus msg => some msg
  | .resync => none

def Event.bus? : Event → Option BusMessage
  | .delivery d => d.bus?
  | _ => none

/--
The bytes of the messages that wait in the queue.
-/
def Mailbox.waiting (b : Mailbox) : Nat :=
  ((b.queue.filterMap Delivery.bus?).map BusMessage.queuedLen).sum

namespace ConnTask

/--
The bus messages a connection has taken from its queue, in order.
-/
def handled (t : ConnTask) : List BusMessage :=
  (t.inputs.filterMap Event.bus?).reverse

/--
The bytes of the message that a connection has just taken. It subtracts them from the counter
before it does anything else.
-/
def inHand (t : ConnTask) : Nat :=
  match t.prog with
  | .wait _ (.fetchSub len) _ => len
  | _ => 0

end ConnTask

namespace World

/--
A published message is dropped if the connection would be over its limit with it.
-/
def overLimit (env : Env) (w : World) (c : Uuid) (msg : BusMessage) : Label → Bool
  | .busMessage i => decide ((w.boxes c).queued + msg.queuedLen > (env.settings i).maxQueuedBytes)
  | _ => false

/--
The message that a step hands to a connection, and whether it is dropped for the limit.
-/
def handsOver (env : Env) (c : Uuid) (w : World) (l : Label) : Option (BusMessage × Bool) :=
  (w.handed c l).map fun msg => (msg, w.overLimit env c msg l)

end World

/--
The messages up to the first one that was dropped.
-/
def beforeDrop (sent : List (BusMessage × Bool)) : List BusMessage :=
  (sent.takeWhile (!·.2)).map (·.1)

theorem beforeDrop_of_none {sent : List (BusMessage × Bool)} (h : ∀ m ∈ sent, m.2 = false)
    : beforeDrop sent = sent.map (·.1) := by
  unfold beforeDrop
  rw [List.takeWhile_eq_self_iff.mpr]
  intro m hm
  rw [h m hm]
  rfl

theorem beforeDrop_append {sent : List (BusMessage × Bool)} (h : ∃ m ∈ sent, m.2 = true)
    (more : List (BusMessage × Bool)) : beforeDrop (sent ++ more) = beforeDrop sent := by
  unfold beforeDrop
  rw [List.takeWhile_append, if_neg]
  intro hlen
  have ⟨m, hm, hdropped⟩ := h
  have hall := List.takeWhile_eq_self_iff.mp ((List.takeWhile_prefix _).eq_of_length hlen) m hm
  simp [hdropped] at hall

/-!
The bytes of a message are counted down once, right after it was taken.
-/

/--
The counter is only lowered first thing in the handling of a bus message, by its bytes.
-/
def counting (env : Env) : StageRule env where
  obeys _ stage t0 _ t o := ∀ len, o = .fetchSub len
    → t = t0 ∧ ∃ msg, stage = .handling (.delivery (.bus msg)) ∧ len = msg.queuedLen
  post _ _ _ _ _ _ := True
  opening me previous := by
    apply (Conn.asks_start _).sat
    rintro s t o ho len rfl
    cases ho
  handling me e stage t0 s t hrest _ := by
    by_cases he : ∃ msg, e = .delivery (.bus msg)
    . have ⟨msg, he⟩ := he
      subst he
      constructor
      . rintro len ⟨rfl⟩
        exact ⟨rfl, msg, rfl, rfl⟩
      . intro _
        have honly : ((Conn.onDelivery me (.bus msg) >>= fun failed =>
            (return Next.ofEnd? failed : ConnCode Next)).start s).Only (DeliveryOp (.bus msg)) :=
          (Conn.asks_onDelivery s).bind fun _ => Code.asks_pure _
        apply honly.sat
        rintro s t o ho len rfl
        cases ho
    . apply (Conn.only_serve hrest.pending).sat
      rintro s t o ho len rfl
      cases ho with
      | frame h => cases h
      | rv h => cases h
      | counted => exact absurd ⟨_, rfl⟩ he
      | delivery h => cases h
  finishing me e stage t0 s t _ := by
    apply (Conn.asks_finish s).sat
    rintro s t o ho len rfl
    cases ho

namespace ConnTask

variable {env : Env} {t : ConnTask} {t0 : ConnTrace}

theorem inHand_of_wait {s : Conn} {o : Op} {k : o.Res → Prog Conn Op Op.Res Next}
    (hprog : t.prog = .wait s o k) (ho : ∀ len, o ≠ .fetchSub len) : t.inHand = 0 := by
  unfold inHand
  rw [hprog]
  split
  next heq =>
    cases heq
    exact absurd rfl (ho _)
  . rfl

theorem inHand_of_done {s : Conn} {n : Next} (hprog : t.prog = .done s n) : t.inHand = 0 := by
  unfold inHand
  rw [hprog]

theorem settle_inHand (h : t.inHand = 0) : t.settle.inHand = 0 := by
  unfold settle
  split
  . rfl
  . exact h

theorem inHand_of_kept (h : (counting env).KeptAt t0 t)
    (hne : t.trace ≠ t0 ∨ ∀ msg, t.stage ≠ .handling (.delivery (.bus msg))) : t.inHand = 0 := by
  unfold inHand
  split
  next s len k hprog =>
    have ⟨htrace, msg, hstage, _⟩ := h.obeys hprog len rfl
    cases hne with
    | inl hne => exact absurd htrace hne
    | inr hne => exact absurd hstage (hne msg)
  . rfl

theorem resume_inHand (h : (counting env).Kept t) {s : Conn} {o : Op}
    {k : o.Res → Prog Conn Op Op.Res Next} (hprog : t.prog = .wait s o k) (r : o.Res)
    : (t.resume s o k r).inHand = 0 := by
  have ⟨t0, hat⟩ := h
  apply settle_inHand
  apply inHand_of_kept (hat.resume hprog r)
  left
  intro heq
  have hlen := congrArg List.length heq
  have hbegan := hat.began.length_le
  simp only [List.length_cons] at hlen
  omega

theorem handle_inHand_bus (env : Env) (t : ConnTask) (s : Conn) (msg : BusMessage)
    : (t.handle env s (.delivery (.bus msg))).inHand = msg.queuedLen := rfl

theorem handle_inHand (h : (counting env).Kept t) (hok : t.Ok env) {s : Conn} {e : Event}
    (hprog : t.prog = .done s .serve) (he : ∀ msg, e ≠ .delivery (.bus msg))
    : (t.handle env s e).inHand = 0 := by
  have ⟨t0, hat⟩ := h
  apply settle_inHand
  have hsat := (counting env).handling t.me e t.stage t0 s t.trace
    (hok.atRest hprog) (hat.post hprog)
  refine inHand_of_kept (show (counting env).KeptAt t.trace _ from ⟨List.suffix_rfl, hsat⟩) (.inr ?_)
  rintro msg ⟨heq⟩
  exact he msg rfl

theorem handle_handled (env : Env) (t : ConnTask) (s : Conn) (e : Event)
    : (t.handle env s e).handled = t.handled ++ (e.bus?).toList := by
  unfold handled
  rw [handle_inputs, List.filterMap_cons]
  cases e.bus? with
  | none => simp
  | some msg => simp

end ConnTask

/-!
What waits for a connection.
-/

/--
The counter, what waits and what was handled, after the messages `sent` were handed over.
-/
structure LimitOk (env : Env) (t : ConnTask) (b : Mailbox) (sent : List (BusMessage × Bool))
    : Prop where
  counted : b.waiting + t.inHand ≤ b.queued
  exactly : (∀ m ∈ sent, m.2 = false) → b.queued = b.waiting + t.inHand
  bounded : b.waiting ≤ (env.settings t.me.inst).maxQueuedBytes
  inOrder : (∀ m ∈ sent, m.2 = false)
    → t.handled ++ b.queue.filterMap Delivery.bus? <+: sent.map (·.1)
      ∧ (t.ended = false → t.handled ++ b.queue.filterMap Delivery.bus? = sent.map (·.1))
  dropped : (∃ m ∈ sent, m.2 = true)
    → (b.kill = true ∨ t.alive = false) ∧ t.handled <+: beforeDrop sent

namespace LimitOk

variable {env : Env} {t t' : ConnTask} {b b' : Mailbox} {sent : List (BusMessage × Bool)}

/--
What was handled is in any case a part of what was handed over before something was dropped.
-/
theorem handled_prefix (h : LimitOk env t b sent) : t.handled <+: beforeDrop sent := by
  by_cases hdrop : ∃ m ∈ sent, m.2 = true
  . exact (h.dropped hdrop).2
  . have hnone : ∀ m ∈ sent, m.2 = false := by simpa using hdrop
    rw [beforeDrop_of_none hnone]
    exact (List.prefix_append _ _).trans (h.inOrder hnone).1

/--
A step of the connection that takes no message.
-/
theorem task (h : LimitOk env t b sent) (hme : t'.me = t.me) (hhand : t'.inHand = t.inHand)
    (hhandled : t'.handled = t.handled) (hended : t.ended = false)
    (halive : t.alive = false → t'.alive = false) : LimitOk env t' b sent where
  counted := by
    rw [hhand]
    exact h.counted
  exactly := by
    rw [hhand]
    exact h.exactly
  bounded := by
    rw [hme]
    exact h.bounded
  inOrder hnone := by
    rw [hhandled]
    have ⟨hle, heq⟩ := h.inOrder hnone
    exact ⟨hle, fun _ => heq hended⟩
  dropped hdrop := by
    rw [hhandled]
    have ⟨hkill, hle⟩ := h.dropped hdrop
    exact ⟨hkill.imp_right halive, hle⟩

/--
A change of the mailbox that concerns no message.
-/
theorem box (h : LimitOk env t b sent)
    (hqueue : b'.queue.filterMap Delivery.bus? = b.queue.filterMap Delivery.bus?)
    (hqueued : b'.queued = b.queued) (hkill : b.kill = true → b'.kill = true)
    : LimitOk env t b' sent := by
  have hwaiting : b'.waiting = b.waiting := by
    unfold Mailbox.waiting
    rw [hqueue]
  constructor
  . rw [hwaiting, hqueued]
    exact h.counted
  . rw [hwaiting, hqueued]
    exact h.exactly
  . rw [hwaiting]
    exact h.bounded
  . rw [hqueue]
    exact h.inOrder
  . intro hdrop
    have ⟨hk, hle⟩ := h.dropped hdrop
    exact ⟨hk.imp_left hkill, hle⟩

/--
The bytes of a message that was taken are subtracted.
-/
theorem uncount {len : Nat} (h : LimitOk env t b sent) (hlen : t.inHand = len)
    (hme : t'.me = t.me) (hhand : t'.inHand = 0) (hhandled : t'.handled = t.handled)
    (hended : t.ended = false) (halive : t.alive = false → t'.alive = false)
    : LimitOk env t' { b with queued := b.queued - len } sent where
  counted := by
    have hcounted := h.counted
    change b.waiting + t'.inHand ≤ b.queued - len
    omega
  exactly hnone := by
    have hexactly := h.exactly hnone
    change b.queued - len = b.waiting + t'.inHand
    omega
  bounded := by
    rw [hme]
    exact h.bounded
  inOrder hnone := by
    rw [hhandled]
    have ⟨hle, heq⟩ := h.inOrder hnone
    exact ⟨hle, fun _ => heq hended⟩
  dropped hdrop := by
    rw [hhandled]
    have ⟨hkill, hle⟩ := h.dropped hdrop
    exact ⟨hkill.imp_right halive, hle⟩

/--
A message is taken from the queue, which only happens while nothing was dropped.
-/
theorem take {msg : BusMessage} {rest : List Delivery} (h : LimitOk env t b sent)
    (hqueue : b.queue = .bus msg :: rest) (hkill : b.kill = false) (halive : t.alive = true)
    (hended : t.ended = false) (hhand : t.inHand = 0) (hme : t'.me = t.me)
    (hhand' : t'.inHand = msg.queuedLen) (hhandled : t'.handled = t.handled ++ [msg])
    : LimitOk env t' { b with queue := rest } sent := by
  have hwaiting : b.waiting = msg.queuedLen + Mailbox.waiting { b with queue := rest } := by
    unfold Mailbox.waiting
    rw [hqueue]
    rfl
  have hnodrop : ¬ ∃ m ∈ sent, m.2 = true := by
    intro hdrop
    have ⟨hk, _⟩ := h.dropped hdrop
    simp [hkill, halive] at hk
  constructor
  . have hcounted := h.counted
    dsimp only
    omega
  . intro hnone
    have hexactly := h.exactly hnone
    dsimp only
    omega
  . have hbounded := h.bounded
    rw [hme]
    omega
  . intro hnone
    have ⟨_, heq⟩ := h.inOrder hnone
    have heq := heq hended
    rw [hqueue] at heq
    have happend : t'.handled ++ rest.filterMap Delivery.bus? = sent.map (·.1) := by
      rw [hhandled, List.append_assoc]
      exact heq
    exact ⟨happend ▸ List.prefix_rfl, fun _ => happend⟩
  . intro hdrop
    exact absurd hdrop hnodrop

/--
A message that is not over the limit is handed over: it waits, unless the connection has ended.
-/
theorem push {msg : BusMessage} (h : LimitOk env t b sent)
    (hqueue : b'.queue.filterMap Delivery.bus?
      = b.queue.filterMap Delivery.bus? ++ (if t.ended then [] else [msg]))
    (hqueued : b'.queued = b.queued + if t.ended then 0 else msg.queuedLen)
    (hkill : b'.kill = b.kill)
    (hbound : b'.waiting ≤ b.waiting
      ∨ b.queued + msg.queuedLen ≤ (env.settings t.me.inst).maxQueuedBytes)
    : LimitOk env t b' (sent ++ [(msg, false)]) := by
  have hwaiting : b'.waiting = b.waiting + if t.ended then 0 else msg.queuedLen := by
    unfold Mailbox.waiting
    rw [hqueue]
    cases t.ended <;> simp
  have hcounted := h.counted
  constructor
  . omega
  . intro hnone
    have hexactly := h.exactly fun m hm => hnone m (List.mem_append_left _ hm)
    omega
  . have hbounded := h.bounded
    have hlen : (if t.ended then 0 else msg.queuedLen) ≤ msg.queuedLen := by
      split <;> omega
    omega
  . intro hnone
    have ⟨hle, heq⟩ := h.inOrder fun m hm => hnone m (List.mem_append_left _ hm)
    rw [hqueue, List.map_append, ← List.append_assoc]
    cases hended : t.ended with
    | true =>
      refine ⟨?_, by simp⟩
      rw [if_pos rfl, List.append_nil]
      exact hle.trans (List.prefix_append _ _)
    | false =>
      rw [heq hended]
      exact ⟨List.prefix_rfl, fun _ => rfl⟩
  . rintro ⟨m, hm, hdropped⟩
    have hold : ∃ m ∈ sent, m.2 = true := by
      refine ⟨m, ?_, hdropped⟩
      refine (List.mem_append.mp hm).resolve_right ?_
      intro hm
      rw [List.mem_singleton.mp hm] at hdropped
      cases hdropped
    rw [beforeDrop_append hold, hkill]
    exact h.dropped hold

/--
A message is dropped, and the connection is told to end.
-/
theorem drop (h : LimitOk env t b sent) (msg : BusMessage)
    : LimitOk env t { b with queued := b.queued + msg.queuedLen, kill := true }
        (sent ++ [(msg, true)]) where
  counted := by
    have hcounted := h.counted
    change b.waiting + t.inHand ≤ b.queued + msg.queuedLen
    omega
  exactly hnone := by
    have hlast := hnone (msg, true) (by simp)
    cases hlast
  bounded := h.bounded
  inOrder hnone := by
    have hlast := hnone (msg, true) (by simp)
    cases hlast
  dropped _ := by
    refine ⟨.inl rfl, ?_⟩
    by_cases hdrop : ∃ m ∈ sent, m.2 = true
    . rw [beforeDrop_append hdrop]
      exact h.handled_prefix
    . have hnone : ∀ m ∈ sent, m.2 = false := by simpa using hdrop
      have hkept : beforeDrop (sent ++ [(msg, true)]) = sent.map (·.1) := by
        unfold beforeDrop
        rw [List.takeWhile_append_of_pos]
        . simp
        . intro m hm
          simp [hnone m hm]
      rw [hkept, ← beforeDrop_of_none hnone]
      exact h.handled_prefix

end LimitOk

namespace World

variable {env : Env} {w w' : World} {c : Uuid}

theorem not_ended_of_wait {t : ConnTask} {s : Conn} {o : Op}
    {k : o.Res → Prog Conn Op Op.Res Next} (hprog : t.prog = .wait s o k) : t.ended = false := by
  unfold ConnTask.ended
  rw [hprog]

theorem not_ended_of_serve {t : ConnTask} {s : Conn} (hprog : t.prog = .done s .serve)
    : t.ended = false := by
  unfold ConnTask.ended
  rw [hprog]

theorem received_eq {t : ConnTask} (hc : w.conns c = some t) : w.received c = !t.ended := by
  simp [received, hc]

theorem handsOver_of_not_touches {l : Label} (h : w.touches c l = false)
    : w.handsOver env c l = none := by
  suffices hhanded : w.handed c l = none by
    rw [handsOver, hhanded]
    rfl
  cases l with
  | exec c' f =>
    simp only [touches, Bool.or_eq_false_iff, Option.isSome_eq_false_iff,
      Option.isNone_iff_eq_none] at h
    exact h.1
  | busMessage i => simpa [touches] using h
  | _ => rfl

/--
Nothing is handed to a connection that does not exist.
-/
theorem handed_eq_none (h : WellFormed w) (hc : w.conns c = none) (l : Label)
    : w.handed c l = none := by
  have hnot : ∀ me : Ident, me.connId = c → ¬ w.Exists me := by
    rintro me rfl ⟨t, ht, _⟩
    rw [hc] at ht
    cases ht
  cases l with
  | busMessage i =>
    unfold handed
    dsimp only
    split
    . rfl
    . simp only [Option.bind_eq_bind, Option.bind_eq_none_iff]
      intro d _ msg _
      apply if_neg
      intro hcur
      exact hnot _ rfl (h.current i d c hcur)
  | exec c' f =>
    unfold handed
    dsimp only
    split
    . rfl
    next t ht =>
      split
      next s previous k hprog =>
        apply if_neg
        rintro rfl
        exact hnot _ rfl (h.told c' t s previous k ht hprog).2
      . rfl
  | _ => rfl

/--
The limit of a connection `c`, after the messages `sent` were handed to it.
-/
structure Limited (env : Env) (c : Uuid) (sent : List (BusMessage × Bool)) (w : World)
    : Prop where
  sound : Sound env w
  counting : (counting env).TasksKept w
  unknown : w.conns c = none → sent = []
  limit : ∀ t, w.conns c = some t → LimitOk env t (w.boxes c) sent

/--
A connection that waits in its event loop has not begun to clean up.
-/
theorem alive_of_serving {t : ConnTask} {s : Conn} (hok : t.Ok env)
    (hprog : t.prog = .done s .serve) : t.alive = true := by
  have ⟨mark, hat⟩ := hok
  rw [ConnTask.alive_iff]
  exact (hat.post hprog).2.2.2

theorem resume_not_alive {t : ConnTask} {s : Conn} {o : Op}
    {k : o.Res → Prog Conn Op Op.Res Next} (r : o.Res) (h : t.alive = false)
    : (t.resume s o k r).alive = false := by
  unfold ConnTask.resume ConnTask.settle
  dsimp only
  split
  . rfl
  . exact h

theorem Limited.taken {sent : List (BusMessage × Bool)} (h : Limited env c sent w) {t : ConnTask}
    {s : Conn} {e : Event} (hc : w.conns c = some t) (hprog : t.prog = .done s .serve)
    (hready : w.ready c s e) : LimitOk env (t.handle env s e) (take (w.boxes c) e) sent := by
  have hlimit := h.limit t hc
  have hok := h.sound.tasks c t hc
  have halive := alive_of_serving hok hprog
  have hended := not_ended_of_serve hprog
  have hhand := ConnTask.inHand_of_done hprog
  -- an event other than a bus message
  have hother : (∀ msg, e ≠ .delivery (.bus msg)) → LimitOk env (t.handle env s e) (w.boxes c) sent := by
    intro he
    apply hlimit.task (ConnTask.handle_me ..)
    . rw [ConnTask.handle_inHand (h.counting c t hc) hok hprog he, hhand]
    . rw [ConnTask.handle_handled]
      cases e with
      | delivery d =>
        cases d with
        | bus msg => exact absurd rfl (he msg)
        | resync => simp [Event.bus?, Delivery.bus?]
      | _ => simp [Event.bus?]
    . exact hended
    . simp [halive]
  cases e with
  | delivery d =>
    have ⟨hkill, hqueue⟩ := head_of_ready hready
    cases d with
    | bus msg =>
      exact hlimit.take hqueue hkill halive hended hhand (ConnTask.handle_me ..)
        (ConnTask.handle_inHand_bus ..) (ConnTask.handle_handled ..)
    | resync =>
      apply (hother (by simp)).box
      . rw [hqueue]
        rfl
      . rfl
      . exact id
  | kill =>
    have hkilled := hother (by simp)
    refine ⟨hkilled.counted, hkilled.exactly, hkilled.bounded, hkilled.inOrder, ?_⟩
    intro hdrop
    exact ⟨.inr rfl, (hkilled.dropped hdrop).2⟩
  | _ => exact hother (by simp)

theorem limitOk_new (env : Env) (me : Ident) (previous : Option Uuid)
    : LimitOk env (.new me previous) .new [] := by
  have hhand : (ConnTask.new me previous).inHand = 0 := by
    cases previous <;> rfl
  have hhandled : (ConnTask.new me previous).handled = [] := by
    cases previous <;> rfl
  constructor
  . rw [hhand]
    exact Nat.le_refl 0
  . intro _
    rw [hhand]
    rfl
  . exact Nat.zero_le _
  . intro _
    rw [hhandled]
    exact ⟨List.prefix_rfl, fun _ => rfl⟩
  . simp

/--
A step of the connection itself that is not an event.
-/
theorem Limited.resumed {sent : List (BusMessage × Bool)} (h : Limited env c sent w) {t : ConnTask}
    {s : Conn} {o : Op} {k : o.Res → Prog Conn Op Op.Res Next} (hc : w.conns c = some t)
    (hprog : t.prog = .wait s o k) (ho : ∀ len, o ≠ .fetchSub len) (r : o.Res)
    : LimitOk env (t.resume s o k r) (w.boxes c) sent := by
  apply (h.limit t hc).task (ConnTask.resume_me ..)
  . rw [ConnTask.resume_inHand (h.counting c t hc) hprog, ConnTask.inHand_of_wait hprog ho]
  . unfold ConnTask.handled
    rw [ConnTask.resume_inputs]
  . exact not_ended_of_wait hprog
  . exact resume_not_alive r

/--
A published message is handed to the connection that is registered for its device.
-/
theorem Limited.dispatched {sent : List (BusMessage × Bool)} (h : Limited env c sent w)
    {i : InstanceId} {d : Uuid} {t : ConnTask} (hc : w.conns c = some t)
    (hcur : (w.insts i).current d = some c) (msg : BusMessage)
    : LimitOk env t
        ((w.boxes c).dispatch (env.settings i).maxQueuedBytes (w.received c) msg)
        (sent ++ [(msg, w.overLimit env c msg (.busMessage i))]) := by
  have hlimit := h.limit t hc
  have ⟨t1, hc1, hme⟩ := h.sound.wellFormed.current i d c hcur
  rw [hc] at hc1
  cases hc1
  have hinst : t.me.inst = i := by rw [hme]
  unfold Mailbox.dispatch overLimit
  dsimp only
  split
  next hover =>
    rw [decide_eq_true hover]
    exact hlimit.drop msg
  next hover =>
    rw [decide_eq_false hover, received_eq hc]
    apply hlimit.push
    . cases t.ended <;> simp [Delivery.bus?]
    . cases t.ended <;> rfl
    . cases t.ended <;> rfl
    . right
      rw [hinst]
      exact Nat.le_of_not_lt hover

theorem Limited.step {sent : List (BusMessage × Bool)} {l : Label} (h : Limited env c sent w)
    (hstep : w.step env l = some w')
    : Limited env c (sent ++ (w.handsOver env c l).toList) w' := by
  have hwf := h.sound.wellFormed
  refine ⟨h.sound.step hstep, h.counting.step h.sound.tasks hstep, ?_, ?_⟩
  . intro hnone'
    have hnone : w.conns c = none := by
      by_contra hsome
      have hsome := (isSome_conns_step hstep c).mpr (.inl (Option.isSome_iff_ne_none.mpr hsome))
      rw [hnone'] at hsome
      cases hsome
    rw [h.unknown hnone, handsOver, handed_eq_none hwf hnone]
    rfl
  . intro t' hc'
    have htask := step_task hstep c
    have hbox := step_box hstep c
    rw [hc'] at htask
    generalize w'.boxes c = b' at hbox ⊢
    generalize hu : some t' = u at htask
    -- an operation of the connection that hands nothing to it
    have hexec : ∀ {f t s o k}, l = .exec c f → w.conns c = some t → t.prog = .wait s o k
        → o ≠ .tellPrevious c → w.handsOver env c l = none ∧ ∃ r, t' = t.resume s o k r := by
      rintro f t s o k rfl hc hprog ho
      refine ⟨?_, ?_⟩
      . rw [handsOver, handed_exec hc hprog ho]
        rfl
      . cases htask with
        | same hl => exact absurd rfl hl
        | resumed hc1 hprog1 _ =>
          rw [hc] at hc1
          cases hc1
          rw [hprog] at hprog1
          cases hprog1
          exact ⟨_, Option.some.inj hu⟩
    cases hbox with
    | same hl =>
      rw [handsOver_of_not_touches hl, Option.toList_none, List.append_nil]
      cases htask with
      | same _ => exact h.limit t' hu.symm
      | connected _ => simp [touches] at hl
      | @resumed f t s o k w1 r hc hprog _ =>
        cases hu
        refine h.resumed hc hprog ?_ r
        rintro len rfl
        simp [touches, hc, hprog, hwf.ident c t hc] at hl
      | handled _ _ _ => simp [touches] at hl
    | fresh =>
      cases htask with
      | same hl => exact absurd rfl hl
      | connected hnone =>
        cases hu
        rw [h.unknown hnone]
        exact limitOk_new env _ _
    | @taken e t s hc hprog hready =>
      have hnote : w.handsOver env c (.event c e) = none := rfl
      rw [hnote, Option.toList_none, List.append_nil]
      cases htask with
      | same hl => exact absurd rfl hl
      | handled hc1 hprog1 _ =>
        cases hu
        rw [hc] at hc1
        cases hc1
        rw [hprog] at hprog1
        cases hprog1
        exact h.taken hc hprog hready
    | @told c1 f t1 s k hc1 hprog =>
      have hne : c ≠ c1 := (hwf.told c1 t1 s c k hc1 hprog).1
      have hnote : w.handsOver env c (.exec c1 f) = some (.replace t1.me.connId, false) := by
        simp [handsOver, handed, hc1, hprog, overLimit]
      rw [hnote]
      cases htask with
      | same _ =>
        rw [received_eq hu.symm]
        apply (h.limit t' hu.symm).push
        . cases t'.ended <;> simp [Mailbox.push, Delivery.bus?]
        . cases t'.ended <;> rfl
        . cases t'.ended <;> rfl
        . left
          unfold Mailbox.waiting
          cases t'.ended <;> simp [Mailbox.push, Delivery.bus?, BusMessage.queuedLen]
      | resumed _ _ _ => exact absurd rfl hne
    | left hc1 hprog hid =>
      have hcc := (hwf.ident _ _ hc1).symm.trans hid
      subst hcc
      obtain ⟨hnote, r, ht'⟩ := hexec rfl hc1 hprog (by simp)
      rw [hnote, Option.toList_none, List.append_nil, ht']
      exact (h.resumed hc1 hprog (by simp) r).box rfl rfl id
    | @counted c1 f t1 s len k hc1 hprog hid =>
      have hcc := (hwf.ident _ _ hc1).symm.trans hid
      subst hcc
      obtain ⟨hnote, r, ht'⟩ := hexec rfl hc1 hprog (by simp)
      rw [hnote, Option.toList_none, List.append_nil, ht']
      have hhand : t1.inHand = len := by
        unfold ConnTask.inHand
        rw [hprog]
      apply (h.limit t1 hc1).uncount hhand (ConnTask.resume_me ..)
      . exact ConnTask.resume_inHand (h.counting _ t1 hc1) hprog r
      . unfold ConnTask.handled
        rw [ConnTask.resume_inputs]
      . exact not_ended_of_wait hprog
      . exact resume_not_alive r
    | @dispatched i p rest d msg hstream hd hmsg hcur =>
      have hnote : w.handsOver env c (.busMessage i)
          = some (msg, w.overLimit env c msg (.busMessage i)) := by
        rw [handsOver, handed_busMessage hstream hd hmsg, if_pos hcur]
        rfl
      rw [hnote]
      cases htask with
      | same _ => exact h.dispatched hu.symm hcur msg
    | @resync i n =>
      have hnote : w.handsOver env c (.resync i) = none := rfl
      rw [hnote, Option.toList_none, List.append_nil]
      cases htask with
      | same _ =>
        apply (h.limit t' hu.symm).box
        . simp [Delivery.bus?]
        . rfl
        . exact id

theorem limited_init (env : Env) (c : Uuid) (db : Db) : Limited env c [] (init db) where
  sound := sound_init env db
  counting := StageRule.tasksKept_init _ db
  unknown _ := rfl
  limit t ht := by cases ht

theorem limited_run {db : Db} {ls : List Label} (h : run env (init db) ls = some w) (c : Uuid)
    : Limited env c (Lts.record (step env) (handsOver env c) (init db) ls) w :=
  Lts.run_record (P := Limited env c) (h := [])
    (fun _ _ _ _ hlimited hstep => Limited.step hlimited hstep) (limited_init env c db) h

end World

/--
In every run, for every connection and with `sent` the messages that were handed to it, each with
whether it was dropped for the limit: the counter never falls below what is about to be subtracted
from it nor below the bytes that wait, and is exactly these until a message is dropped. What waits
never exceeds the limit. What the connection has handled is a part, from the beginning, of what was
handed to it before the first message was dropped.
-/
theorem slow_receiver_gets_a_prefix {env : Env} {db : Db} {ls : List Label} {w : World}
    (hrun : run env (.init db) ls = some w) {c : Uuid} {t : ConnTask} (hc : w.conns c = some t)
    : let sent := Lts.record (World.step env) (World.handsOver env c) (.init db) ls
      (∀ s len k, t.prog = .wait s (.fetchSub len) k → len ≤ (w.boxes c).queued)
      ∧ (w.boxes c).waiting ≤ (w.boxes c).queued
      ∧ ((∀ m ∈ sent, m.2 = false) → (w.boxes c).queued = (w.boxes c).waiting + t.inHand)
      ∧ (w.boxes c).waiting ≤ (env.settings t.me.inst).maxQueuedBytes
      ∧ t.handled <+: beforeDrop sent := by
  intro sent
  have h := (World.limited_run hrun c).limit t hc
  have hcounted := h.counted
  refine ⟨?_, by omega, h.exactly, h.bounded, h.handled_prefix⟩
  intro s len k hprog
  have hhand : t.inHand = len := by
    unfold ConnTask.inHand
    rw [hprog]
  omega

namespace Sample

/--
The relay with room for one `presence` message in each queue.
-/
def narrow : Env :=
  { relay with settings := fun i => { relay.settings i with maxQueuedBytes := 200 } }

/--
The peer of a slow device comes and goes, and the second message about it is dropped.
-/
def overflows : List Label :=
  opensPaired "a" (uuid 1) (device 1) ++ replaced "a" (uuid 1) (uuid 1)
    ++ opensPaired "b" (uuid 2) (device 2) ++ [Label.event (uuid 2) .clientGone] ++ execs 5 (uuid 2)
    ++ [Label.busMessage "a", .busMessage "a", .event (uuid 1) .kill]

end Sample

theorem slow_receiver_gets_its_first_message
    : ∃ w t, run Sample.narrow (.init Sample.pairedDb) Sample.overflows = some w
      ∧ w.conns (Sample.uuid 1) = some t
      ∧ (Lts.record (World.step Sample.narrow) (World.handsOver Sample.narrow (Sample.uuid 1))
          (.init Sample.pairedDb) Sample.overflows).map (·.2) = [false, false, true]
      ∧ t.handled = [.replace (Sample.uuid 1)]
      ∧ t.handled <+: beforeDrop (Lts.record (World.step Sample.narrow)
          (World.handsOver Sample.narrow (Sample.uuid 1)) (.init Sample.pairedDb)
          Sample.overflows) := by
  have hrun : (run Sample.narrow (.init Sample.pairedDb) Sample.overflows).any (fun w =>
      (w.conns (Sample.uuid 1)).any fun t => decide (t.handled = [.replace (Sample.uuid 1)]))
      = true := by
    decide +kernel
  have hsent : (Lts.record (World.step Sample.narrow)
      (World.handsOver Sample.narrow (Sample.uuid 1)) (.init Sample.pairedDb)
      Sample.overflows).map (·.2) = [false, false, true] := by
    decide +kernel
  simp only [Option.any_eq_true, decide_eq_true_eq] at hrun
  have ⟨w, hw, t, ht, hhandled⟩ := hrun
  have hgets := slow_receiver_gets_a_prefix hw ht
  exact ⟨w, t, hw, ht, hsent, hhandled, hgets.2.2.2.2⟩

end HandLiveRelay
