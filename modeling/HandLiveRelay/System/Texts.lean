import HandLiveRelay.System.Acceptance
import HandLiveRelay.System.Notices

/-!
This module contains the texts on their way to the socket of a connection: those it has written and
the one it is about to write. As long as nothing that concerns the connection fails, a step adds
what the connection takes from the bus, or what it has to say itself.
-/

namespace HandLiveRelay

open Fiber

/--
The text that a message makes a connection write unchanged.
-/
def BusMessage.control? : BusMessage → Option String
  | control text => some text
  | _ => none

namespace ConnTask

/--
A connection has taken a text from the bus and has not begun to write it.
-/
def relaying? (t : ConnTask) : Option String :=
  match t.prog with
  | .wait _ (.fetchSub _) _ =>
    match t.stage with
    | .handling (.delivery (.bus msg)) => msg.control?
    | _ => none
  | _ => none

/--
The text that a connection is about to write.
-/
def writing (t : ConnTask) : Option String :=
  match t.prog with
  | .wait _ (.sendText text) _ => some text
  | _ => t.relaying?

end ConnTask

/--
A text from the bus is counted, then written.
-/
def relaying (env : Env) : StageRule env where
  obeys _ stage t0 _ t o := ∀ text, stage = .handling (.delivery (.bus (.control text)))
    → (t = t0 ∧ ∃ len, o = .fetchSub len) ∨ (t.length = t0.length + 1 ∧ o = .sendText text)
  post _ stage t0 _ _ t := ∀ text, stage = .handling (.delivery (.bus (.control text)))
    → t.length = t0.length + 2
  opening me previous := by
    have hasks : (Conn.start me previous).Asks (OpeningOp me) := Conn.asks_start
    refine ((hasks _).sat ?_).mono ?_
    . rintro s t o _ text ⟨⟩
    . rintro n s t _ text ⟨⟩
  handling me e stage t0 s t hrest _ := by
    by_cases he : ∃ text, e = .delivery (.bus (.control text))
    . have ⟨text, he⟩ := he
      subst he
      refine ⟨?_, fun _ => ⟨?_, fun _ => ?_⟩⟩
      . rintro _ ⟨⟩
        exact .inl ⟨rfl, _, rfl⟩
      . rintro _ ⟨⟩
        exact .inr ⟨rfl, rfl⟩
      . rintro _ ⟨⟩
        rfl
    . refine ((Conn.only_serve hrest.pending).sat ?_).mono ?_
      . rintro s t o _ text ⟨⟩
        exact absurd ⟨text, rfl⟩ he
      . rintro n s t _ text ⟨⟩
        exact absurd ⟨text, rfl⟩ he
  finishing me e stage t0 s t _ := by
    refine ((Conn.asks_finish s).sat ?_).mono ?_
    . rintro s t o _ text ⟨⟩
    . rintro n s t _ text ⟨⟩

namespace ConnTask

variable {env : Env} {t : ConnTask}

theorem writing_of_done {s : Conn} {n : Next} (hprog : t.prog = .done s n) : t.writing = none := by
  unfold writing relaying?
  rw [hprog]

theorem relaying?_eq_some {text : String} (h : t.relaying? = some text)
    : t.stage = .handling (.delivery (.bus (.control text)))
      ∧ ∃ s len k, t.prog = .wait s (.fetchSub len) k := by
  unfold relaying? at h
  split at h
  next hprog =>
    split at h
    next msg hstage =>
      cases msg with
      | control text' =>
        cases h
        exact ⟨hstage, _, _, _, hprog⟩
      | _ => cases h
    . cases h
  . cases h

theorem writing_of_relaying? {text : String} (h : t.relaying? = some text)
    : t.writing = some text := by
  have ⟨_, _, _, _, hprog⟩ := relaying?_eq_some h
  unfold writing
  rw [hprog]
  exact h

/--
A text from the bus that was counted is written next.
-/
theorem resume_relaying? (h : (relaying env).Kept t) {s : Conn} {o : Op}
    {k : o.Res → Prog Conn Op Op.Res Next} (hprog : t.prog = .wait s o k) (r : o.Res)
    {text : String} (htext : t.relaying? = some text)
    : (t.resume s o k r).writing = some text := by
  have ⟨hstage, s1, len, k1, hprog1⟩ := relaying?_eq_some htext
  rw [hprog] at hprog1
  cases hprog1
  have ⟨t0, hat⟩ := h
  have hbegan : t.trace = t0 := by
    cases hat.obeys hprog text hstage with
    | inl hfirst => exact hfirst.1
    | inr hsecond => cases hsecond.2
  have hnext := hat.resume hprog r
  unfold resume settle
  cases hk : k1 r with
  | done s' n =>
    have hlen := hnext.post hk text hstage
    rw [List.length_cons, hbegan] at hlen
    omega
  | wait s' o' k' =>
    cases hnext.obeys hk text hstage with
    | inl hfirst =>
      have hlen := congrArg List.length hfirst.1
      rw [List.length_cons, hbegan] at hlen
      omega
    | inr hsecond =>
      cases hsecond.2
      rfl

/--
What an answer does to the texts that are written and about to be written, where no write fails.
The connection may have a new text to write.
-/
theorem texts_resume (h : (relaying env).Kept t) {s : Conn} {o : Op}
    {k : o.Res → Prog Conn Op Op.Res Next} (hprog : t.prog = .wait s o k) {r : o.Res}
    (hok : ∀ text, Did [⟨s, o, r⟩] (.sendText text) .ok ∨ o ≠ .sendText text)
    : (texts (t.resume s o k r).trace).reverse ++ (t.resume s o k r).writing.toList
      = (texts t.trace).reverse ++ t.writing.toList
        ++ if t.relaying?.isSome then [] else (t.resume s o k r).writing.toList := by
  rw [resume_trace]
  cases hrelay : t.relaying? with
  | some text =>
    obtain ⟨_, s1, len, k1, hprog1⟩ := relaying?_eq_some hrelay
    rw [resume_relaying? h hprog r hrelay, writing_of_relaying? hrelay]
    rw [hprog] at hprog1
    cases hprog1
    simp [texts, writtenText, List.filterMap_cons]
  | none =>
    simp only [Option.isSome_none, Bool.false_eq_true, if_false]
    by_cases htext : ∃ text, o = .sendText text
    . obtain ⟨text, ho⟩ := htext
      subst ho
      obtain ⟨_, hdid⟩ := (hok text).resolve_right (by simp)
      rw [List.mem_singleton] at hdid
      cases hdid
      have hwriting : t.writing = some text := by
        unfold writing
        rw [hprog]
      rw [hwriting]
      simp [texts, writtenText]
    . have hwriting : t.writing = none := by
        unfold writing
        rw [hprog]
        split
        next heq =>
          cases heq
          exact absurd ⟨_, rfl⟩ htext
        . exact hrelay
      have hwritten : writtenText ⟨s, o, r⟩ = none := by
        unfold writtenText
        split
        next heq =>
          cases heq
          exact absurd ⟨_, rfl⟩ htext
        . rfl
      rw [hwriting]
      simp [texts, hwritten]

/--
A connection that takes an event is about to write what the event brings.
-/
theorem writing_handle (env : Env) (t : ConnTask) (s : Conn) (e : Event)
    : (t.handle env s e).writing = e.bus?.bind BusMessage.control? := by
  cases e with
  | delivery d =>
    cases d with
    | bus msg => rfl
    | resync => rfl
  | deadline =>
    unfold handle
    cases hp : s.pending with
    | none =>
      simp only [Conn.serve, Conn.onEvent, Code.start_bind, Code.start_get, Prog.bind_done, hp]
      rfl
    | some p =>
      simp only [Conn.serve, Conn.onEvent, Code.start_bind, Code.start_get, Prog.bind_done, hp]
      rfl
  | client msg => rfl
  | _ => rfl

end ConnTask

namespace World

/--
The text of its own that a connection `c` has to write after a step.
-/
def utters (c : Uuid) (t t' : ConnTask) : Label → List String
  | .exec c' _ => if c' = c then (if t.relaying?.isSome then [] else t'.writing.toList) else []
  | _ => []

variable {env : Env} {w w' : World} {c : Uuid}

theorem utters_of_conn? {l : Label} (h : l.conn? ≠ some c) (t t' : ConnTask)
    : utters c t t' l = [] := by
  cases l with
  | exec c' f => exact if_neg fun heq => h (by rw [← heq]; rfl)
  | _ => rfl

/--
What a step adds to the texts of a connection that nothing disturbs: the one it takes from the bus,
or one of its own.
-/
theorem step_written {l : Label} {t t' : ConnTask} (hkept : (relaying env).TasksKept w)
    (hstep : w.step env l = some w') (hc : w.conns c = some t) (hc' : w'.conns c = some t')
    (hdisturbs : w.disturbs env c l = false)
    : (texts t'.trace).reverse ++ t'.writing.toList
      = (texts t.trace).reverse ++ t.writing.toList
        ++ (taking c l).filterMap BusMessage.control? ++ utters c t t' l := by
  have htask := step_task hstep c
  rw [hc'] at htask
  generalize hu : some t' = u at htask
  cases htask with
  | same hl =>
    rw [hc] at hu
    cases hu
    simp [utters_of_conn? hl, taking_of_conn? hl]
  | connected hnone =>
    rw [hc] at hnone
    cases hnone
  | @handled e t1 s hc1 hprog _ =>
    rw [hc] at hc1
    cases hc1
    cases hu
    rw [ConnTask.handle_trace, ConnTask.writing_handle, ConnTask.writing_of_done hprog]
    simp only [taking, utters, if_true]
    cases e.bus? with
    | none => simp
    | some msg => cases hmsg : msg.control? <;> simp [hmsg]
  | @resumed f t1 s o k w1 r hc1 hprog hperf =>
    rw [hc] at hc1
    cases hc1
    cases hu
    have hok : f = .ok := by simpa [disturbs] using hdisturbs
    subst hok
    rw [ConnTask.texts_resume (hkept c t hc) hprog]
    . simp [taking, utters]
    . intro text
      by_cases ho : o = .sendText text
      . subst ho
        cases hperf
        exact .inl (did_cons_self _ _ _ _)
      . exact .inr ho

end World
end HandLiveRelay
