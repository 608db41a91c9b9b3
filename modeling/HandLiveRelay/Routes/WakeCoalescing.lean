import HandLiveRelay.Routes.PushTokens

/-!
This module contains when a wake that is answered with 202 was sent. A request sets the key of its
wake before it calls the provider, and deletes it again if the wake was not sent. A request that
finds the key takes the wake as sent, so the answer is right only if the request that set the key is
through with its provider by then.
-/

namespace HandLiveRelay.Routes.Push

open Fiber Ttl

theorem wakeKey_injective {d d' : Uuid} {reason reason' : Reason}
    (h : wakeKey d reason = wakeKey d' reason') : d = d' ∧ reason = reason' := by
  have ⟨hd, hreason⟩ := Uuid.hyphenated_key_injective h
  refine ⟨hd, ?_⟩
  cases reason <;> cases reason' <;> first | rfl | exact absurd hreason (by decide)

/--
The provider has accepted a wake of the request for this device and reason, sent to the token that
was stored for the device.
-/
def Woke (dest : Uuid) (reason : Reason) (t : PushTask) : Prop :=
  ∃ caller req token ttlS target, t.req = .send caller req ∧ req.dest = dest
    ∧ ⟨(), .pushTarget req.pairId caller dest, some (some target)⟩ ∈ t.trace
    ∧ target.token = some token
    ∧ ⟨(), .send (.wake token req.pairId reason ttlS), .sent⟩ ∈ t.trace

/--
The operation has set the key.
-/
def hasSet (key : String) : PushPerformed → Bool
  | ⟨_, .setWake key', some true⟩ => key' = key
  | _ => false

/--
The request has set the key and still waits for its provider, or for the key to be deleted again.
-/
def inFlight (key : String) (t : PushTask) : Bool :=
  match t.prog with
  | .wait _ (.send _) _ => t.trace.any (hasSet key)
  | .wait _ (.delWake key') _ => key' = key
  | _ => false

/--
The operation a request waits for.
-/
def asked (t : PushTask) : Option PushOp :=
  match t.prog with
  | .wait _ o _ => some o
  | .done _ _ => none

/--
The commands on the keys of wakes are carried out, and no key is set while a request that has set it
is in flight.
-/
def oneAtATime (p : PushPool) : PushLabel → Bool
  | .exec k f =>
    match p.tasks[k]?.bind asked, f with
    | some (.setWake _), .lost => false
    | some (.setWake key), _ => p.tasks.all fun t => !inFlight key t
    | some (.delWake _), .fail => false
    | _, _ => true
  | _ => true

/-!
What the handler does around its provider call.
-/

section

variable {caller : Uuid} {req : PushRequest} {coalesce : Option String} {push : Notification}
  {outcome : Outcome} {trace : PushTrace} {key : String} {o : PushOp}

theorem hasSet_iff {e : PushPerformed} : hasSet key e = true ↔ e = ⟨(), .setWake key, some true⟩ := by
  unfold hasSet
  split
  . next key' =>
    rw [decide_eq_true_eq]
    constructor
    . intro heq
      rw [heq]
    . intro heq
      cases heq
      rfl
  . next h =>
    simp only [Bool.false_eq_true, false_iff]
    intro heq
    exact h _ _ heq

theorem any_hasSet_iff : trace.any (hasSet key) = true ↔ ⟨(), .setWake key, some true⟩ ∈ trace := by
  simp [List.any_eq_true, hasSet_iff]

theorem Sending.not_mem_delWake (h : Sending caller req coalesce push trace) (key : String) (r)
    : ⟨(), .delWake key, r⟩ ∉ trace := by
  intro hmem
  cases h with
  | wake htarget hkind hauth =>
    have hmem := Trace.mem_of_mem_cons (Trace.mem_of_mem_cons hmem nofun) nofun
    exact hauth.not_mem_delWake key r hmem
  | alert htarget hkind hauth =>
    exact hauth.not_mem_delWake key r (Trace.mem_of_mem_cons hmem nofun)

/--
A request that has set the key calls the provider next.
-/
theorem SendAt.after_setWake
    (h : SendAt caller req (⟨(), .setWake key, some true⟩ :: trace) o) : ∃ push, o = .send push := by
  cases h with
  | pushTarget hauth => cases hauth
  | send hsending => exact ⟨_, rfl⟩
  | addPush hanswered => cases hanswered
  | clearPushToken hanswered => cases hanswered

/--
A request that has set the key and could not send its wake deletes the key next.
-/
theorem SendAt.after_failed (h : SendAt caller req (⟨(), .send push, outcome⟩ :: trace) o)
    (hmem : ⟨(), .setWake key, some true⟩ ∈ trace) (hne : outcome ≠ .sent) : o = .delWake key := by
  cases h with
  | pushTarget hauth => cases hauth
  | send hsending => cases hsending
  | delWake hsending hne =>
    cases hsending.key_of_mem hmem
    rfl
  | addPush hanswered =>
    cases hanswered
    exact absurd rfl hne
  | clearPushToken hanswered =>
    cases hanswered with
    | kept hsending hkeep =>
      rw [hsending.key_of_mem hmem] at hkeep
      exact absurd (hkeep rfl) nofun

theorem Replied.not_after_setWake {a : Except ApiError PushReply}
    (h : Replied caller req a (⟨(), .setWake key, some true⟩ :: trace))
    (hmem : ∀ r, ⟨(), .delWake key, r⟩ ∉ trace) : False := by
  cases h with
  | refused e hkeys =>
    have ⟨r, hr⟩ := hkeys key List.mem_cons_self
    exact hmem r (Trace.mem_of_mem_cons hr nofun)

theorem Replied.not_after_failed {a : Except ApiError PushReply}
    (h : Replied caller req a (⟨(), .send push, outcome⟩ :: trace))
    (hsending : Sending caller req coalesce push trace)
    (hmem : ⟨(), .setWake key, some true⟩ ∈ trace) : False := by
  cases h with
  | refused e hkeys =>
    have ⟨r, hr⟩ := hkeys key (List.mem_cons_of_mem _ hmem)
    exact hsending.not_mem_delWake key r (Trace.mem_of_mem_cons hr nofun)

end

/-!
What an operation does to a key.
-/

section

variable {w w' : PushWorld} {o : PushOp} {f : Choice} {r : o.Res} {key : String}

/--
What an operation can do to a key, unless the answer to the command that sets it is lost.
-/
inductive KeyStep (w : PushWorld) (key : String)
    : (o : PushOp) → o.Res → Option (Entry Unit) → Prop where
  | same {o : PushOp} {r : o.Res} : KeyStep w key o r (w.wakes key)
  | set : KeyStep w key (.setWake key) (some true)
      (some { value := (), expiresAt := some (w.redisMs + wakeCoalesceSecs * 1000) })
  | deleted (r : Option Unit) : KeyStep w key (.delWake key) r none

theorem perform_setWake {r : Option Bool} (hlost : f ≠ .lost)
    (h : w.perform (.setWake key) f = some (w', r))
    : (r = none ∧ w' = w)
      ∨ (r = some false ∧ w' = w ∧ (w.wakes.live w.redisMs key).isSome)
      ∨ (r = some true ∧ w' = { w with
          wakes := w.wakes.put key
            { value := (), expiresAt := some (w.redisMs + wakeCoalesceSecs * 1000) } }) := by
  unfold PushWorld.perform Keyspace.setNx at h
  dsimp only at h
  cases f with
  | lost => exact absurd rfl hlost
  | fail =>
    cases h
    exact .inl ⟨rfl, rfl⟩
  | ok =>
    split at h
    . next hlive =>
      cases h
      exact .inr (.inl ⟨rfl, rfl, hlive⟩)
    . cases h
      exact .inr (.inr ⟨rfl, rfl⟩)
  | verdict v => cases h
  | outcome o => cases h

theorem perform_delWake {r : Option Unit} (hfail : f ≠ .fail)
    (h : w.perform (.delWake key) f = some (w', r))
    : w' = { w with wakes := w.wakes.del key } := by
  cases f with
  | fail => exact absurd rfl hfail
  | ok =>
    cases h
    rfl
  | lost =>
    cases h
    rfl
  | verdict v => cases h
  | outcome o => cases h

theorem redisMs_perform (h : w.perform o f = some (w', r)) : w'.redisMs = w.redisMs := by
  cases o with
  | checkDevice _ | send _ | addPush _ =>
    cases f <;> cases h
    rfl
  | findKey _ | findPlatform _ | setPushToken _ _ _ _ | pushTarget _ _ _ | setWake _ | delWake _
  | clearPushToken _ =>
    rcases PushWorld.command_cases h with ⟨hw, _⟩ | ⟨hw, _⟩ <;> rw [hw]

/--
Only the two commands on wakes change keys.
-/
theorem wakes_perform (hset : ∀ key, o ≠ .setWake key) (hdel : ∀ key, o ≠ .delWake key)
    (h : w.perform o f = some (w', r)) : w'.wakes = w.wakes := by
  cases o with
  | setWake key => exact absurd rfl (hset key)
  | delWake key => exact absurd rfl (hdel key)
  | checkDevice _ | send _ | addPush _ =>
    cases f <;> cases h
    rfl
  | findKey _ | findPlatform _ | setPushToken _ _ _ _ | pushTarget _ _ _ | clearPushToken _ =>
    rcases PushWorld.command_cases h with ⟨hw, _⟩ | ⟨hw, _⟩ <;> rw [hw]

theorem key_perform (hlost : ∀ key, o = .setWake key → f ≠ .lost)
    (hfail : ∀ key, o = .delWake key → f ≠ .fail) (h : w.perform o f = some (w', r)) (key : String)
    : KeyStep w key o r (w'.wakes key) := by
  cases o with
  | setWake key' =>
    rcases perform_setWake (hlost key' rfl) h with ⟨_, hw⟩ | ⟨_, hw, _⟩ | ⟨hr, hw⟩
    . exact hw ▸ .same
    . exact hw ▸ .same
    . by_cases hkey : key = key'
      . subst hkey
        rw [hr, hw]
        dsimp only
        rw [Keyspace.put_self]
        exact .set
      . rw [hw]
        dsimp only
        rw [Keyspace.put_of_ne _ _ hkey]
        exact .same
  | delWake key' =>
    rw [perform_delWake (hfail key' rfl) h]
    dsimp only
    by_cases hkey : key = key'
    . subst hkey
      rw [Keyspace.del_self]
      exact .deleted r
    . rw [Keyspace.del_of_ne _ hkey]
      exact .same
  | _ =>
    rw [wakes_perform (by simp) (by simp) h]
    exact .same

end

/-!
The requests at work.
-/

section

variable {crypto : Crypto} {apnsTopic : Option String} {db : Db} {ls : List PushLabel}
  {p p' : PushPool} {l : PushLabel} {k : Nat} {t : PushTask} {key : String} {dest : Uuid}
  {reason : Reason}

theorem asked_wait {s : Unit} {o : PushOp} {cont} (hprog : t.prog = .wait s o cont)
    : asked t = some o := by
  unfold asked
  rw [hprog]

theorem oneAtATime_setWake {f : Choice} (h : oneAtATime p (.exec k f) = true)
    (ht : p.tasks[k]? = some t) (hasked : asked t = some (.setWake key))
    : f ≠ .lost ∧ ∀ u ∈ p.tasks, inFlight key u = false := by
  unfold oneAtATime at h
  dsimp only at h
  rw [ht, Option.bind_some, hasked] at h
  cases f with
  | lost => cases h
  | _ =>
    refine ⟨nofun, ?_⟩
    simpa using h

theorem oneAtATime_delWake {f : Choice} (h : oneAtATime p (.exec k f) = true)
    (ht : p.tasks[k]? = some t) (hasked : asked t = some (.delWake key)) : f ≠ .fail := by
  unfold oneAtATime at h
  dsimp only at h
  rw [ht, Option.bind_some, hasked] at h
  rintro ⟨⟩
  cases h

theorem Woke.mono {t' : PushTask} (h : Woke dest reason t) (hreq : t'.req = t.req)
    (hsub : t.trace ⊆ t'.trace) : Woke dest reason t' := by
  have ⟨caller, req, token, ttlS, target, heq, hdest, hread, htoken, hsent⟩ := h
  exact ⟨caller, req, token, ttlS, target, hreq.trans heq, hdest, hsub hread, htoken, hsub hsent⟩

/--
What a request sends for a valid wake goes to the token it has read.
-/
theorem Sending.wake_of_valid {caller : Uuid} {req : PushRequest} {coalesce : Option String}
    {push : Notification} {trace : PushTrace} {valid : ValidPush}
    (h : Sending caller req coalesce push trace) (hvalid : validatePush req = .ok valid)
    (hkind : valid.kind = .wake)
    : ∃ token target, push = .wake token req.pairId valid.reason valid.ttlS
      ∧ ⟨(), .pushTarget req.pairId caller req.dest, some (some target)⟩ ∈ trace
      ∧ target.token = some token := by
  cases h with
  | wake htarget hkind' hauth =>
    cases hvalid.symm.trans htarget.valid
    exact ⟨_, _, rfl, List.mem_cons_of_mem _ List.mem_cons_self, htarget.token_eq⟩
  | alert htarget hkind' hauth =>
    cases hvalid.symm.trans htarget.valid
    rw [hkind] at hkind'
    cases hkind'

/--
A request with a key sends a wake for the device and the reason of the key.
-/
theorem Sending.valid_of_key {caller : Uuid} {req : PushRequest} {push : Notification}
    {trace : PushTrace} (h : Sending caller req (some (wakeKey dest reason)) push trace)
    : req.dest = dest ∧ ∃ valid, validatePush req = .ok valid ∧ valid.kind = .wake
      ∧ valid.reason = reason := by
  generalize hkey : some (wakeKey dest reason) = coalesce at h
  cases h with
  | alert htarget hkind hauth => cases hkey
  | wake htarget hkind hauth =>
    have ⟨hdest, hreason⟩ := wakeKey_injective (Option.some.inj hkey)
    exact ⟨hdest.symm, _, htarget.valid, hkind, hreason.symm⟩

theorem woke_of_sent {caller : Uuid} {req : PushRequest} {coalesce : Option String}
    {push : Notification} {valid : ValidPush} {trace : PushTrace} (hreq : t.req = .send caller req)
    (hsending : Sending caller req coalesce push trace) (hvalid : validatePush req = .ok valid)
    (hkind : valid.kind = .wake) (hsub : ⟨(), .send push, .sent⟩ :: trace ⊆ t.trace)
    : Woke req.dest valid.reason t := by
  have ⟨token, target, hpush, hread, htoken⟩ := hsending.wake_of_valid hvalid hkind
  subst hpush
  exact ⟨caller, req, token, valid.ttlS, target, hreq, rfl, hsub (List.mem_cons_of_mem _ hread),
    htoken, hsub List.mem_cons_self⟩

/--
A request that is in flight stays so until the provider has accepted its wake or the key is gone.
-/
theorem inFlight_step (hin : inFlight (wakeKey dest reason) t = true) (ht : p.tasks[k]? = some t)
    (hplan : ∀ (k : Nat) (t : PushTask), p.tasks[k]? = some t
      → t.prog.Sat (Plan apnsTopic t.req) (Ends t.req) t.trace)
    (hone : oneAtATime p l = true) (hstep : p.step (server crypto apnsTopic) l = some p')
    : p'.world.wakes (wakeKey dest reason) = none
      ∨ ∃ t', p'.tasks[k]? = some t' ∧ t'.req = t.req
        ∧ (inFlight (wakeKey dest reason) t' = true ∨ Woke dest reason t') := by
  have hlt := (List.getElem?_eq_some_iff.mp ht).1
  cases Pool.step_cases hstep with
  | start req => exact .inr ⟨t, by rw [List.getElem?_append_left hlt, ht], rfl, .inl hin⟩
  | happen h => exact .inr ⟨t, ht, rfl, .inl hin⟩
  | @exec k' f t' s o cont w r htask hprog hperform =>
    by_cases hk : k' = k
    . subst hk
      rw [ht] at htask
      cases htask
      have hsat := hplan k' t ht
      rw [hprog] at hsat
      unfold inFlight at hin
      rw [hprog] at hin
      split at hin
      . next push cont heq =>
        cases heq
        have hmem := any_hasSet_iff.mp hin
        have ⟨caller, req, coalesce, hreq, hsending⟩ := sending_of_plan hsat.1
        refine .inr ⟨_, List.getElem?_set_self hlt, rfl, ?_⟩
        by_cases hr : r = .sent
        . rw [hsending.key_of_mem hmem] at hsending
          have ⟨hdest, valid, hvalid, hkind, hreason⟩ := hsending.valid_of_key
          subst hdest hreason hr
          exact .inr (woke_of_sent hreq hsending hvalid hkind (List.Subset.refl _))
        . left
          -- The provider has not accepted the wake, so the request goes on to delete its key.
          have hnext := hsat.2 r
          rw [hreq] at hnext
          generalize cont r = prog at hnext
          cases prog with
          | done s' a => exact (Replied.not_after_failed hnext hsending hmem).elim
          | wait s' o' cont' =>
            cases SendAt.after_failed hnext.1 hmem hr
            simp [inFlight]
      . next key' cont heq =>
        cases heq
        have hkey : key' = wakeKey dest reason := of_decide_eq_true hin
        left
        have hfail := oneAtATime_delWake hone ht (asked_wait hprog)
        dsimp only
        rw [perform_delWake hfail hperform, hkey]
        exact Keyspace.del_self _ _
      . cases hin
    . exact .inr ⟨t, by rw [List.getElem?_set_ne hk, ht], rfl, .inl hin⟩

/--
The request `j` has set the key in the world `w`.
-/
def SetBy (crypto : Crypto) (apnsTopic : Option String) (db : Db) (ls : List PushLabel)
    (p : PushPool) (key : String) (j : Nat) (u : PushTask) (w : PushWorld) : Prop :=
  p.tasks[j]? = some u
    ∧ Pool.Did (server crypto apnsTopic) (.init db) ls j u.req (.setWake key) (some true) w

theorem SetBy.step {j : Nat} {u u' : PushTask} {w : PushWorld}
    (h : SetBy crypto apnsTopic db ls p key j u w) (l : PushLabel)
    (hu' : p'.tasks[j]? = some u') (hreq : u'.req = u.req)
    : SetBy crypto apnsTopic db (ls ++ [l]) p' key j u' w :=
  ⟨hu', hreq ▸ h.2.append [l]⟩

/--
The key that the request `k` has found was set less than five minutes before, by a request whose wake
the provider has accepted.
-/
def WokenBefore (crypto : Crypto) (apnsTopic : Option String) (db : Db) (ls : List PushLabel)
    (p : PushPool) (dest : Uuid) (reason : Reason) (k : Nat) (t : PushTask) : Prop :=
  ∃ j u w1 w2, SetBy crypto apnsTopic db ls p (wakeKey dest reason) j u w1 ∧ Woke dest reason u
    ∧ Pool.Did (server crypto apnsTopic) (.init db) ls k t.req (.setWake (wakeKey dest reason))
        (some false) w2
    ∧ w1.redisMs ≤ w2.redisMs ∧ w2.redisMs - w1.redisMs < 300 * 1000

structure Coalesces (crypto : Crypto) (apnsTopic : Option String) (db : Db) (ls : List PushLabel)
    (p : PushPool) : Prop where
  keys : ∀ dest reason e, p.world.wakes (wakeKey dest reason) = some e →
    ∃ j u w, SetBy crypto apnsTopic db ls p (wakeKey dest reason) j u w
      ∧ w.redisMs ≤ p.world.redisMs
      ∧ e.expiresAt = some (w.redisMs + wakeCoalesceSecs * 1000)
      ∧ (inFlight (wakeKey dest reason) u = true ∨ Woke dest reason u)
  found : ∀ dest reason (k : Nat) (t : PushTask), p.tasks[k]? = some t →
    ⟨(), .setWake (wakeKey dest reason), some false⟩ ∈ t.trace →
    WokenBefore crypto apnsTopic db ls p dest reason k t

theorem redisMs_step (hstep : p.step (server crypto apnsTopic) l = some p')
    : p.world.redisMs ≤ p'.world.redisMs := by
  cases Pool.step_cases hstep with
  | start req => exact Int.le_refl _
  | exec htask hprog hperform => exact (redisMs_perform hperform).ge
  | @happen e w h =>
    cases e with
    | http req =>
      cases h
      exact Int.le_refl _
    | clock nowMs =>
      cases h
      exact Int.le_refl _
    | tick ms =>
      cases h
      dsimp only
      omega

/--
What a step does to a key.
-/
inductive PoolKeyStep (p : PushPool) (key : String) : PushLabel → Option (Entry Unit) → Prop where
  | same {l : PushLabel} : PoolKeyStep p key l (p.world.wakes key)
  | set {k : Nat} {f : Choice} {t : PushTask} {s : Unit} {cont} {w : PushWorld}
      (htask : p.tasks[k]? = some t) (hprog : t.prog = .wait s (.setWake key) cont)
      (hperform : p.world.perform (.setWake key) f = some (w, some true))
      : PoolKeyStep p key (.exec k f)
          (some { value := (), expiresAt := some (p.world.redisMs + wakeCoalesceSecs * 1000) })
  | deleted {l : PushLabel} : PoolKeyStep p key l none

theorem key_step (hone : oneAtATime p l = true)
    (hstep : p.step (server crypto apnsTopic) l = some p') (key : String)
    : PoolKeyStep p key l (p'.world.wakes key) := by
  cases Pool.step_cases hstep with
  | start req => exact .same
  | @exec k f t s o cont w r htask hprog hperform =>
    have hlost : ∀ key, o = .setWake key → f ≠ .lost := by
      rintro key ⟨⟩
      exact (oneAtATime_setWake hone htask (asked_wait hprog)).1
    have hfail : ∀ key, o = .delWake key → f ≠ .fail := by
      rintro key ⟨⟩
      exact oneAtATime_delWake hone htask (asked_wait hprog)
    have hkey := key_perform hlost hfail hperform key
    dsimp only
    generalize w.wakes key = after at hkey
    cases hkey with
    | same => exact .same
    | set => exact .set htask hprog hperform
    | deleted r => exact .deleted
  | @happen e w h =>
    cases e with
    | http req =>
      cases h
      exact .same
    | clock nowMs =>
      cases h
      exact .same
    | tick ms =>
      cases h
      exact .same

/--
A request that has just set a key is in flight.
-/
theorem inFlight_of_set {req : Request} {trace : PushTrace} {prog : Prog Unit PushOp PushOp.Res _}
    (hat : Plan apnsTopic req () trace (.setWake key))
    (hnext : prog.Sat (Plan apnsTopic req) (Ends req) (⟨(), .setWake key, some true⟩ :: trace))
    : inFlight key { req, prog, trace := ⟨(), .setWake key, some true⟩ :: trace } = true := by
  cases req with
  | putPushToken caller req => cases hat
  | send caller req =>
    have hdel : ∀ r, ⟨(), .delWake key, r⟩ ∉ trace := by
      intro r hmem
      cases hat with
      | setWake htarget hkind hauth =>
        exact hauth.not_mem_delWake _ r (Trace.mem_of_mem_cons hmem nofun)
    cases prog with
    | done s' a => exact (Replied.not_after_setWake hnext hdel).elim
    | wait s' o' cont' =>
      have ⟨push, hpush⟩ := SendAt.after_setWake hnext.1
      subst hpush
      exact any_hasSet_iff.mpr List.mem_cons_self

theorem Coalesces.keys_step (h : Coalesces crypto apnsTopic db ls p)
    (hrun : runPush crypto apnsTopic db ls = some p) (hone : oneAtATime p l = true)
    (hstep : p.step (server crypto apnsTopic) l = some p') {e : Entry Unit}
    (he : p'.world.wakes (wakeKey dest reason) = some e)
    : ∃ j u w, SetBy crypto apnsTopic db (ls ++ [l]) p' (wakeKey dest reason) j u w
      ∧ w.redisMs ≤ p'.world.redisMs
      ∧ e.expiresAt = some (w.redisMs + wakeCoalesceSecs * 1000)
      ∧ (inFlight (wakeKey dest reason) u = true ∨ Woke dest reason u) := by
  have hplan : ∀ (k : Nat) (t : PushTask), p.tasks[k]? = some t
      → t.prog.Sat (Plan apnsTopic t.req) (Ends t.req) t.trace :=
    fun k t ht => Pool.sat_run sat_code hrun ht
  have hkey := key_step hone hstep (wakeKey dest reason)
  rw [he] at hkey
  generalize hsome : some e = after at hkey
  cases hkey with
  | same =>
    have ⟨j, u, w, hset, htime, hexpires, hstate⟩ := h.keys dest reason e hsome.symm
    have htime' := Int.le_trans htime (redisMs_step hstep)
    cases hstate with
    | inl hin =>
      rcases inFlight_step hin hset.1 hplan hone hstep with hnone | ⟨u', hu', hreq, hstate⟩
      . rw [he] at hnone
        cases hnone
      . exact ⟨j, u', w, hset.step l hu' hreq, htime', hexpires, hstate⟩
    | inr hwoke =>
      have ⟨u', hu', hreq, hsub⟩ := Pool.task_persists hstep hset.1
      exact ⟨j, u', w, hset.step l hu' hreq, htime', hexpires, .inr (hwoke.mono hreq hsub)⟩
  | @set k f t s cont w htask hprog hperform =>
    cases hsome
    have hsat := hplan k t htask
    rw [hprog] at hsat
    have hlt := (List.getElem?_eq_some_iff.mp htask).1
    have hp' := (Pool.step_exec htask hprog hperform).symm.trans hstep
    cases hp'
    refine ⟨k, _, p.world, ⟨List.getElem?_set_self hlt, ?_⟩, redisMs_step hstep, rfl, .inl ?_⟩
    . exact ⟨ls, f, [], p, t, s, cont, w, rfl, hrun, rfl, htask, rfl, hprog, hperform⟩
    . exact inFlight_of_set hsat.1 (hsat.2 (some true))
  | deleted => cases hsome

theorem WokenBefore.step (h : WokenBefore crypto apnsTopic db ls p dest reason k t) {t' : PushTask}
    (hreq : t'.req = t.req) (hstep : p.step (server crypto apnsTopic) l = some p')
    : WokenBefore crypto apnsTopic db (ls ++ [l]) p' dest reason k t' := by
  have ⟨j, u, w1, w2, hset, hwoke, hdid, htimes⟩ := h
  have ⟨u', hu', hureq, hsub⟩ := Pool.task_persists hstep hset.1
  exact ⟨j, u', w1, w2, hset.step l hu' hureq, hwoke.mono hureq hsub, hreq ▸ hdid.append [l], htimes⟩

/--
A request finds a key only if the provider has accepted the wake of the request that set it.
-/
theorem Coalesces.found_step (h : Coalesces crypto apnsTopic db ls p)
    (hrun : runPush crypto apnsTopic db ls = some p) (hone : oneAtATime p l = true)
    (hstep : p.step (server crypto apnsTopic) l = some p') (ht : p'.tasks[k]? = some t)
    (hmem : ⟨(), .setWake (wakeKey dest reason), some false⟩ ∈ t.trace)
    : WokenBefore crypto apnsTopic db (ls ++ [l]) p' dest reason k t := by
  have htask := Pool.task_step hstep ht
  generalize hw : p'.world = w' at htask
  cases htask with
  | new req hnone => cases hmem
  | same htask => exact (h.found dest reason k t htask hmem).step rfl hstep
  | @performed f t0 s o cont w r htask hprog hperform =>
    cases List.mem_cons.mp hmem with
    | inr hmem => exact (h.found dest reason k t0 htask hmem).step rfl hstep
    | inl heq =>
      cases heq
      have ⟨hlost, hfree⟩ := oneAtATime_setWake hone htask (asked_wait hprog)
      rcases perform_setWake hlost hperform with ⟨hr, _⟩ | ⟨_, _, hlive⟩ | ⟨hr, _⟩
      . cases hr
      . have ⟨e, he⟩ := Option.isSome_iff_exists.mp hlive
        have ⟨hstored, hexpires⟩ := Keyspace.live_eq_some.mp he
        have ⟨j, u, w1, hset, htime, hdeadline, hstate⟩ := h.keys dest reason e hstored
        have hwoke : Woke dest reason u := by
          refine hstate.resolve_left ?_
          rw [hfree u (List.mem_of_getElem? hset.1)]
          nofun
        have hlt := hexpires _ hdeadline
        have ⟨u', hu', hureq, hsub⟩ := Pool.task_persists hstep hset.1
        refine ⟨j, u', w1, p.world, hset.step _ hu' hureq, hwoke.mono hureq hsub, ?_, htime, ?_⟩
        . exact ⟨ls, f, [], p, t0, (), cont, w', rfl, hrun, rfl, htask, rfl, hprog, hperform⟩
        . unfold wakeCoalesceSecs at hlt
          omega
      . cases hr

theorem coalesces_run (hrun : runPush crypto apnsTopic db ls = some p)
    (hone : Lts.Meets (Pool.step (server crypto apnsTopic)) (fun p l => oneAtATime p l = true)
      (Pool.init (.init db)) ls)
    : Coalesces crypto apnsTopic db ls p := by
  refine Lts.run_history (P := Coalesces crypto apnsTopic db) ?_ ?_ hone hrun
  . constructor
    . intro dest reason e he
      cases he
    . intro dest reason k t ht
      simp [Pool.init] at ht
  . intro ls p l p' hrun h hone hstep
    exact ⟨fun dest reason e => h.keys_step hrun hone hstep,
      fun dest reason k t => h.found_step hrun hone hstep⟩

end

/--
In every run in which Redis carries out the commands on wakes, and no key of a wake is set while a
request that has set it waits for its provider, a wake that is answered with 202 was accepted by the
provider: for this request, or for one that has set the key less than five minutes before.
-/
theorem accepted_wake_was_sent {crypto : Crypto} {apnsTopic : Option String} {db : Db}
    {ls : List PushLabel} {p : PushPool} {k : Nat} {t : PushTask} {s : Unit} {caller : Uuid}
    {req : PushRequest} {push : ValidPush} (hrun : runPush crypto apnsTopic db ls = some p)
    (hone : Lts.Meets (Pool.step (server crypto apnsTopic)) (fun p l => oneAtATime p l = true)
      (Pool.init (.init db)) ls)
    (ht : p.tasks[k]? = some t) (hreq : t.req = .send caller req)
    (hvalid : validatePush req = .ok push) (hkind : push.kind = .wake)
    (hdone : t.prog = .done s (.ok .accepted))
    : Woke req.dest push.reason t
      ∨ WokenBefore crypto apnsTopic db ls p req.dest push.reason k t := by
  have hsat := Pool.sat_run sat_code hrun ht
  rw [hdone, hreq] at hsat
  have hreplied : Replied caller req (.ok .accepted) t.trace := hsat
  have hfound := (coalesces_run hrun hone).found req.dest push.reason k t ht
  have hwoke : ∀ {coalesce n trace}, Sending caller req coalesce n trace
      → ⟨(), .send n, .sent⟩ :: trace ⊆ t.trace → Woke req.dest push.reason t :=
    fun hsending => woke_of_sent hreq hsending hvalid hkind
  generalize t.trace = trace at hreplied hfound hwoke
  generalize ha : Except.ok PushReply.accepted = a at hreplied
  cases hreplied with
  | refused e hkeys => cases ha
  | coalesced htarget hkind' hauth =>
    cases hvalid.symm.trans htarget.valid
    exact .inr (hfound List.mem_cons_self)
  | sent hanswered =>
    have ⟨coalesce, trace', hsending, hsuffix⟩ := hanswered.sending
    left
    exact hwoke hsending (List.Subset.trans hsuffix.subset (List.subset_cons_self _ _))

namespace Sample

open HandLiveRelay.Sample

/--
Two wakes: the second one is asked for while the provider is still asked about the first, which it
then fails to send.
-/
def wakesTwice : List PushLabel :=
  putsToken 0 "token" ++ wakes 1 ++ wakes 2 ++ [.exec 1 (.outcome .failed), .exec 1 .ok]

/--
Two wakes one after the other.
-/
def wakesAgain : List PushLabel :=
  putsToken 0 "token" ++ wakes 1 ++ [.exec 1 (.outcome .sent), .exec 1 .ok, .happen (.tick 60000)]
    ++ wakes 2

/--
The provider has accepted something.
-/
def isSent : PushPerformed → Bool
  | ⟨_, .send _, .sent⟩ => true
  | _ => false

/--
The iPhone's wake was answered with 202.
-/
def isAccepted (t : PushTask) : Bool :=
  match t.prog with
  | .done _ (.ok .accepted) => t.req = .send (device 2) wake
  | _ => false

theorem of_isAccepted {t : PushTask} (h : isAccepted t = true)
    : t.prog = .done () (.ok .accepted) ∧ t.req = .send (device 2) wake := by
  unfold isAccepted at h
  split at h
  . next hprog => exact ⟨hprog, of_decide_eq_true h⟩
  . cases h

theorem validatePush_wake
    : validatePush wake = .ok {
        kind := .wake
        reason := .userOpen
        envB64 := none
        collapseKey := none
        ttlS := 60
      } := by
  rfl

end Sample

theorem repeated_wake_was_sent
    : ∃ p t, runPush .sample none HandLiveRelay.Sample.pairedDb Sample.wakesAgain = some p
        ∧ p.tasks[2]? = some t ∧ t.prog = .done () (.ok .accepted)
        ∧ (Woke (HandLiveRelay.Sample.device 1) .userOpen t
          ∨ WokenBefore .sample none HandLiveRelay.Sample.pairedDb Sample.wakesAgain p
              (HandLiveRelay.Sample.device 1) .userOpen 2 t) := by
  have hrun : (runPush .sample none HandLiveRelay.Sample.pairedDb Sample.wakesAgain).any (fun p =>
      p.tasks[2]?.any Sample.isAccepted) = true := by
    decide +kernel
  have hone : Lts.Meets (Pool.step (server .sample none)) (fun p l => oneAtATime p l = true)
      (Pool.init (.init HandLiveRelay.Sample.pairedDb)) Sample.wakesAgain := by
    decide +kernel
  simp only [Option.any_eq_true] at hrun
  have ⟨p, hp, t, ht, haccepted⟩ := hrun
  have ⟨hdone, hreq⟩ := Sample.of_isAccepted haccepted
  exact ⟨p, t, hp, ht, hdone,
    accepted_wake_was_sent hp hone ht hreq Sample.validatePush_wake rfl hdone⟩

/--
A second request finds the key of the first one, whose provider has not answered yet, and is answered
with 202. Then the provider fails to send the wake. Both requests are done, and no wake was accepted
for any of them.
-/
theorem accepted_wake_was_never_sent
    : ∃ p t, runPush .sample none HandLiveRelay.Sample.pairedDb Sample.wakesTwice = some p
        ∧ p.tasks[2]? = some t ∧ t.req = .send (HandLiveRelay.Sample.device 2) Sample.wake
        ∧ t.prog = .done () (.ok .accepted)
        ∧ ∀ dest reason, ∀ u ∈ p.tasks, ¬ Woke dest reason u := by
  have hrun : (runPush .sample none HandLiveRelay.Sample.pairedDb Sample.wakesTwice).any (fun p =>
      p.tasks[2]?.any Sample.isAccepted
      && decide (∀ u ∈ p.tasks, ∀ e ∈ u.trace, Sample.isSent e = false)) = true := by
    decide +kernel
  simp only [Option.any_eq_true, Bool.and_eq_true, decide_eq_true_eq] at hrun
  have ⟨p, hp, ⟨t, ht, haccepted⟩, hnone⟩ := hrun
  have ⟨hdone, hreq⟩ := Sample.of_isAccepted haccepted
  refine ⟨p, t, hp, ht, hreq, hdone, ?_⟩
  intro dest reason u hu ⟨caller, req, token, ttlS, target, _, _, _, _, hsent⟩
  exact absurd (hnone u hu _ hsent) nofun

end HandLiveRelay.Routes.Push
