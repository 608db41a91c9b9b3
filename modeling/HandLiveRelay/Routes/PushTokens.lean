import HandLiveRelay.Routes.PushRegistrations

/-!
This module contains when the relay forgets a push token. A push request reads the token, waits for
the provider, and clears whatever is stored by then, so the token it clears is the one the provider
refused only if no other token was stored in between.
-/

namespace HandLiveRelay

variable {crypto : Crypto} {db : Db}

/--
The push token in the row of a device, if there is a row.
-/
def Db.storedToken (db : Db) (d : Uuid) : Option (Option String) :=
  (db.devices.find? d).map (·.pushToken)

theorem Db.storedToken_eq (db : Db) (d : Uuid)
    : db.storedToken d = (db.registration d).map (·.token) := by
  unfold storedToken registration
  rw [Option.map_map]
  rfl

namespace Routes.Push

open Fiber

/-!
What the record of a request says.
-/

/--
The token of the device `d` that an operation has read.
-/
def readToken (d : Uuid) : PushPerformed → Option String
  | ⟨_, .pushTarget _ _ dest, some (some target)⟩ => if dest = d then target.token else none
  | _ => none

/--
The token that the provider has said is gone.
-/
def refusedToken : PushPerformed → Option String
  | ⟨_, .send push, .tokenInvalid⟩ => some push.token
  | _ => none

/--
The tokens of the device `d` that a request which is not done yet has read.
-/
def heldTokens (d : Uuid) (t : PushTask) : List String :=
  match t.prog with
  | .done _ _ => []
  | .wait _ _ _ => t.trace.filterMap (readToken d)

/--
The device and the token that a step is about to store.
-/
def storing (p : PushPool) : PushLabel → Option (Uuid × String)
  | .exec k _ => do
    let t ← p.tasks[k]?
    match t.prog with
    | .wait _ (.setPushToken d _ token _) _ => return (d, token)
    | _ => none
  | _ => none

/--
The step stores no token for `d` other than the ones that unfinished push requests have read.
-/
def undisturbed (d : Uuid) (p : PushPool) (l : PushLabel) : Bool :=
  (storing p l).all fun (d', token) =>
    d' ≠ d || p.tasks.all fun t => (heldTokens d t).all (· = token)

/--
What a request may ask for: only a push request clears a token, after the provider has refused the
one it has read.
-/
def Permits : Request → Contract Unit PushOp PushOp.Res
  | .putPushToken _ _, _, _, .clearPushToken _ => False
  | .send _ _, _, trace, .clearPushToken d =>
    ∃ token ∈ trace.filterMap (readToken d), token ∈ trace.filterMap refusedToken
  | _, _, _, _ => True

theorem permits_of_plan {apnsTopic : Option String} {req : Request} {trace : PushTrace} {o : PushOp}
    (h : Plan apnsTopic req () trace o) : Permits req () trace o := by
  cases req with
  | putPushToken caller req => cases h <;> trivial
  | send caller req =>
    cases h with
    | @clearPushToken push trace hanswered =>
      have ⟨coalesce, trace', hsending, hsuffix⟩ := hanswered.sending
      have ⟨valid, target, provider, htarget, hread⟩ := hsending.target
      refine ⟨push.token, ?_, ?_⟩
      . refine List.mem_filterMap.mpr ⟨_, hsuffix.subset (List.mem_cons_of_mem _ hread), ?_⟩
        simp [readToken, htarget.token_eq]
      . exact List.mem_filterMap.mpr ⟨_, hsuffix.subset List.mem_cons_self, rfl⟩
    | _ => trivial

/-!
What a step does to the stored token.
-/

section

variable {w w' : PushWorld} {o : PushOp} {f : Choice} {r : o.Res} {d : Uuid}

/--
What an operation can do to the token of the device `d`.
-/
inductive TokenStep (w : PushWorld) (d : Uuid) : PushOp → Option (Option String) → Prop where
  | same {o : PushOp} : TokenStep w d o (w.db.storedToken d)
  | set (provider : PushProvider) (token : String) (topic : Option String)
      : TokenStep w d (.setPushToken d provider token topic) (some (some token))
  | clear : TokenStep w d (.clearPushToken d) (some none)

theorem storedToken_perform (h : w.perform o f = some (w', r))
    : TokenStep w d o (w'.db.storedToken d) := by
  have hreg := registration_perform (d := d) h
  rw [Db.storedToken_eq]
  generalize w'.db.registration d = reg at hreg
  cases hreg with
  | same =>
    rw [← Db.storedToken_eq]
    exact .same
  | set provider token topic hreg => exact .set provider token topic
  | clear hreg => exact .clear

/--
A token that was just read is the stored one.
-/
theorem stored_of_readToken {s : Unit} {token : String} (h : w.perform o f = some (w', r))
    (hread : readToken d ⟨s, o, r⟩ = some token)
    : w'.db.storedToken d = some (some token) := by
  unfold readToken at hread
  split at hread
  . next pairId source dest target heq =>
    cases heq
    split at hread
    . next hdest =>
      subst hdest
      have ⟨hw, htarget⟩ := registration_of_read h
      rw [hw, Db.storedToken_eq, htarget, Option.map_some, hread]
    . cases hread
  . cases hread

end

/-!
The requests at work.
-/

variable {apnsTopic : Option String} {p p' : PushPool} {l : PushLabel} {d : Uuid}

/--
What unfinished push requests have read of the device `d` is what is stored, unless nothing is.
-/
def Current (d : Uuid) (p : PushPool) : Prop :=
  ∀ (k : Nat) (t : PushTask), p.tasks[k]? = some t → ∀ token ∈ heldTokens d t,
    ∀ stored, p.world.db.storedToken d = some (some stored) → stored = token

theorem heldTokens_done {t : PushTask} {s : Unit} {a : Except ApiError PushReply}
    (h : t.prog = .done s a) : heldTokens d t = [] := by
  unfold heldTokens
  rw [h]

theorem heldTokens_wait {t : PushTask} {s : Unit} {o : PushOp} {cont}
    (h : t.prog = .wait s o cont) : heldTokens d t = t.trace.filterMap (readToken d) := by
  unfold heldTokens
  rw [h]

theorem heldTokens_subset (t : PushTask) : heldTokens d t ⊆ t.trace.filterMap (readToken d) := by
  cases hprog : t.prog with
  | done s a =>
    rw [heldTokens_done hprog]
    exact List.nil_subset _
  | wait s o cont =>
    rw [heldTokens_wait hprog]
    exact List.Subset.refl _

/--
A token that a request holds after a step was held before, or was just read.
-/
theorem heldTokens_step (hstep : p.step (server crypto apnsTopic) l = some p') {k : Nat}
    {t : PushTask} (ht : p'.tasks[k]? = some t) {token : String} (htoken : token ∈ heldTokens d t)
    : (∃ t', p.tasks[k]? = some t' ∧ token ∈ heldTokens d t')
      ∨ p'.world.db.storedToken d = some (some token) := by
  have htask := Pool.task_step hstep ht
  generalize p'.world = w' at htask
  cases htask with
  | new req hnone =>
    have hmem := heldTokens_subset _ htoken
    cases hmem
  | same htask => exact .inl ⟨t, htask, htoken⟩
  | @performed f t' s o cont w r htask hprog hperform =>
    have hmem := heldTokens_subset _ htoken
    have ⟨e, he, hread⟩ := List.mem_filterMap.mp hmem
    cases List.mem_cons.mp he with
    | inl heq =>
      subst heq
      exact .inr (stored_of_readToken hperform hread)
    | inr he =>
      refine .inl ⟨t', htask, ?_⟩
      rw [heldTokens_wait hprog]
      exact List.mem_filterMap.mpr ⟨e, he, hread⟩

/--
What a step does to the stored token of `d`.
-/
inductive StoredStep (p : PushPool) (d : Uuid) : PushLabel → Option (Option String) → Prop where
  | same {l : PushLabel} : StoredStep p d l (p.world.db.storedToken d)
  | set {l : PushLabel} (token : String) (hset : storing p l = some (d, token))
      : StoredStep p d l (some (some token))
  | clear {k : Nat} {f : Choice} {t : PushTask} {s : Unit} {cont} (htask : p.tasks[k]? = some t)
      (hprog : t.prog = .wait s (.clearPushToken d) cont) : StoredStep p d (.exec k f) (some none)
  | gone {l : PushLabel} : StoredStep p d l none
  | new {l : PushLabel} (hnone : p.world.db.storedToken d = none) : StoredStep p d l (some none)

theorem stored_step (hstep : p.step (server crypto apnsTopic) l = some p')
    : StoredStep p d l (p'.world.db.storedToken d) := by
  cases Pool.step_cases hstep with
  | start req => exact .same
  | @exec k f t s o cont w r htask hprog hperform =>
    have hstored := storedToken_perform (d := d) hperform
    dsimp only
    generalize w.db.storedToken d = stored at hstored
    cases hstored with
    | same => exact .same
    | set provider token topic =>
      refine .set token ?_
      simp only [storing, htask, Option.bind_eq_bind, Option.bind_some, hprog]
      rfl
    | clear => exact .clear htask hprog
  | @happen e w h =>
    cases e with
    | tick ms =>
      cases h
      exact .same
    | http req =>
      cases h
      dsimp only
      have hreg := Request.registration_handle crypto p.world.db p.world.nowMs req d
      rw [Db.storedToken_eq]
      generalize (req.handle crypto p.world.db p.world.nowMs).db.registration d = reg at hreg
      cases hreg with
      | same =>
        rw [← Db.storedToken_eq]
        exact .same
      | gone => exact .gone
      | new platform hnone =>
        refine .new ?_
        rw [Db.storedToken_eq, hnone]
        rfl
    | clock nowMs =>
      cases h
      exact .same

theorem Current.step (h : Current d p) (hundisturbed : undisturbed d p l = true)
    (hstep : p.step (server crypto apnsTopic) l = some p') : Current d p' := by
  intro k t ht token htoken stored hstored
  rcases heldTokens_step hstep ht htoken with ⟨t', ht', htoken'⟩ | hread
  . have hnow := stored_step (d := d) hstep
    rw [hstored] at hnow
    generalize hsome : some (some stored) = o at hnow
    cases hnow with
    | same => exact h k t' ht' token htoken' stored hsome.symm
    | set token' hset =>
      cases hsome
      unfold undisturbed at hundisturbed
      rw [hset] at hundisturbed
      simp only [Option.all_some, ne_eq, decide_not, decide_true, Bool.not_true, Bool.false_or,
        List.all_eq_true, decide_eq_true_eq] at hundisturbed
      exact (hundisturbed t' (List.mem_of_getElem? ht') token htoken').symm
    | clear htask hprog => cases hsome
    | gone => cases hsome
    | new hnone => cases hsome
  . rw [hstored] at hread
    cases hread
    rfl

/--
The relay forgets a push token only if the provider has refused that very token, in every run in
which no other token of the device is stored while push requests to it are unfinished.
-/
theorem cleared_push_token_was_refused {crypto : Crypto} {apnsTopic : Option String} {db : Db}
    {ls : List PushLabel} {p p' : PushPool} {l : PushLabel} {d : Uuid} {token : String}
    (hrun : runPush crypto apnsTopic db ls = some p)
    (hundisturbed : Lts.Meets (Pool.step (server crypto apnsTopic))
      (fun p l => undisturbed d p l = true) (Pool.init (.init db)) ls)
    (hstep : p.step (server crypto apnsTopic) l = some p')
    (hstored : p.world.db.storedToken d = some (some token))
    (hcleared : p'.world.db.storedToken d = some none)
    : ∃ t ∈ p.tasks, token ∈ t.trace.filterMap refusedToken := by
  have hcurrent : Current d p := by
    apply Lts.run_invariant (P := fun p => Current d p) _ _ hundisturbed hrun
    . intro p l p' h hl hstep
      exact h.step hl hstep
    . intro k t ht
      simp [Pool.init] at ht
  have hnow := stored_step (d := d) hstep
  rw [hcleared] at hnow
  generalize hsome : some none = o at hnow
  cases hnow with
  | same =>
    rw [hstored] at hsome
    cases hsome
  | set token' hset => cases hsome
  | @clear k f t s cont htask hprog =>
    have hsat := Pool.sat_run sat_code hrun htask
    rw [hprog] at hsat
    have hpermits := permits_of_plan hsat.1
    generalize t.req = req at hpermits
    cases req with
    | putPushToken caller req => exact absurd hpermits not_false
    | send caller req =>
      obtain ⟨token', hread, hrefused⟩ := hpermits
      have htoken : token = token' :=
        hcurrent k t htask token' (heldTokens_wait hprog ▸ hread) token hstored
      refine ⟨t, List.mem_of_getElem? htask, ?_⟩
      rw [htoken]
      exact hrefused
  | gone => cases hsome
  | new hnone =>
    rw [hstored] at hnone
    cases hnone

namespace Sample

open HandLiveRelay.Sample

/--
The phone stores a push token.
-/
def putsToken (k : Nat) (token : String) : List PushLabel :=
  [.start (.putPushToken (device 1) { provider := "fcm", token, topic := none }),
    .exec k .ok, .exec k (.verdict (.ok ())), .exec k .ok, .exec k .ok]

def wake : PushRequest where
  pairId := pairId
  dest := device 1
  kind := "wake"
  reason := "user_open"
  envB64 := none
  collapseKey := none
  ttlS := none

/--
The iPhone wakes the phone, up to the call of the provider.
-/
def wakes (k : Nat) : List PushLabel :=
  [.start (.send (device 2) wake), .exec k .ok, .exec k (.verdict (.ok ())), .exec k .ok,
    .exec k .ok]

/--
The provider answers that the token is gone.
-/
def refuses (k : Nat) : List PushLabel :=
  [.exec k (.outcome .tokenInvalid), .exec k .ok]

def rotates : List PushLabel :=
  putsToken 0 "old" ++ wakes 1 ++ putsToken 2 "new" ++ refuses 1

def expires : List PushLabel :=
  putsToken 0 "old" ++ wakes 1 ++ refuses 1

end Sample

theorem refused_push_token_is_cleared
    : ∃ p p', runPush .sample none HandLiveRelay.Sample.pairedDb Sample.expires = some p
        ∧ p.step (server .sample none) (.exec 1 .ok) = some p'
        ∧ p'.world.db.storedToken (HandLiveRelay.Sample.device 1) = some none
        ∧ ∃ t ∈ p.tasks, "old" ∈ t.trace.filterMap refusedToken := by
  have hrun : (runPush .sample none HandLiveRelay.Sample.pairedDb Sample.expires).any (fun p =>
      decide (p.world.db.storedToken (HandLiveRelay.Sample.device 1) = some (some "old"))
      && (p.step (server .sample none) (.exec 1 .ok)).any fun p' =>
        decide (p'.world.db.storedToken (HandLiveRelay.Sample.device 1) = some none)) = true := by
    decide +kernel
  have hundisturbed : Lts.Meets (Pool.step (server .sample none))
      (fun p l => undisturbed (HandLiveRelay.Sample.device 1) p l = true)
      (Pool.init (.init HandLiveRelay.Sample.pairedDb)) Sample.expires := by
    decide +kernel
  simp only [Option.any_eq_true, Bool.and_eq_true, decide_eq_true_eq] at hrun
  have ⟨p, hp, hstored, p', hstep, hcleared⟩ := hrun
  exact ⟨p, p', hp, hstep, hcleared,
    cleared_push_token_was_refused hp hundisturbed hstep hstored hcleared⟩

/--
The phone stores a new token while the provider is still asked about the old one. The provider
refuses the old token, never the new one, and still the new one is cleared.
-/
theorem fresh_push_token_is_cleared
    : ∃ p p', runPush .sample none HandLiveRelay.Sample.pairedDb Sample.rotates = some p
        ∧ p.step (server .sample none) (.exec 1 .ok) = some p'
        ∧ p.world.db.storedToken (HandLiveRelay.Sample.device 1) = some (some "new")
        ∧ p'.world.db.storedToken (HandLiveRelay.Sample.device 1) = some none
        ∧ ∀ t ∈ p'.tasks, "new" ∉ t.trace.filterMap refusedToken := by
  have hrun : (runPush .sample none HandLiveRelay.Sample.pairedDb Sample.rotates).any (fun p =>
      decide (p.world.db.storedToken (HandLiveRelay.Sample.device 1) = some (some "new"))
      && (p.step (server .sample none) (.exec 1 .ok)).any fun p' =>
        decide (p'.world.db.storedToken (HandLiveRelay.Sample.device 1) = some none)
        && decide (∀ t ∈ p'.tasks, "new" ∉ t.trace.filterMap refusedToken)) = true := by
    decide +kernel
  simp only [Option.any_eq_true, Bool.and_eq_true, decide_eq_true_eq] at hrun
  have ⟨p, hp, hstored, p', hstep, hcleared, hrefused⟩ := hrun
  exact ⟨p, p', hp, hstep, hstored, hcleared, hrefused⟩

end Routes.Push
end HandLiveRelay
