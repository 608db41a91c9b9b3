import HandLiveRelay.Routes.Auth
import HandLiveRelay.Routes.Permanence

/-!
This module contains why a challenge leads to one token at most. A challenge is stored once, by the
request that generated it, and the first request that takes it removes it for good, so of all the
requests that present it at most one gets beyond the take.
-/

namespace HandLiveRelay.Routes.Auth

open Fiber Challenges

abbrev AuthTask := Task AuthRequest AuthOp AuthOp.Res (Except ApiError AuthReply)

abbrev AuthTrace := Trace Unit AuthOp AuthOp.Res

abbrev AuthPerformed := Performed Unit AuthOp AuthOp.Res

/-!
What the record of a request says.
-/

def GeneratedIn (trace : AuthTrace) (c : Bytes 32) : Prop :=
  (⟨(), .generate, some c⟩ : AuthPerformed) ∈ trace

def PutIn (trace : AuthTrace) (d : Uuid) (c : Bytes 32) : Prop :=
  ∃ e ∈ trace, e.op = .put d c

/--
The challenge was pending when it was taken.
-/
def TakenIn (trace : AuthTrace) (d : Uuid) (c : Bytes 32) : Prop :=
  ∃ stored, (⟨(), .take d c, some (some stored)⟩ : AuthPerformed) ∈ trace

def FoundIn (trace : AuthTrace) (d : Uuid) (key : Devices.DeviceKey) : Prop :=
  (⟨(), .findKey d, some (some key)⟩ : AuthPerformed) ∈ trace

def IssuedIn (trace : AuthTrace) (d : Uuid) (claims : Jwt.Claims) : Prop :=
  ∃ nowSecs, (⟨(), .issue d nowSecs, some claims⟩ : AuthPerformed) ∈ trace

/--
What a request may ask for. It stores only the challenge it has generated, and only once, and takes
only what it was sent.
-/
def Permits : AuthRequest → Contract Unit AuthOp AuthOp.Res
  | .challenge req, _, trace, .put d c =>
    d = req.deviceId ∧ GeneratedIn trace c ∧ ∀ d' c', ¬ PutIn trace d' c'
  | .token _, _, _, .put _ _ => False
  | .token req, _, _, .take d c => d = req.deviceId ∧ B64u.decodeFixed 32 req.challenge = some c
  | .challenge _, _, _, .take _ _ => False
  | _, _, _, _ => True

variable (crypto : Crypto)

/--
What a request has done for a token: it took the challenge it was sent, found the device registered,
checked the signature with the key it found, and issued the token for the device.
-/
structure Proven (req : TokenRequest) (claims : Jwt.Claims) (trace : AuthTrace) (c : Bytes 32)
    (key : Devices.DeviceKey) (sig : Bytes 64) : Prop where
  presented : B64u.decodeFixed 32 req.challenge = some c
  signature : B64u.decodeField 64 req.sig = .ok sig
  taken : TakenIn trace req.deviceId c
  found : FoundIn trace req.deviceId key
  usable : key.revoked = false
  signed : SignedBy crypto req.deviceId key.ikSigPub (authMessage c req.deviceId) sig
  issued : IssuedIn trace req.deviceId claims

/--
What holds when a request is answered with a token.
-/
def Post (req : AuthRequest) (reply : Except ApiError AuthReply) (_ : Unit) (trace : AuthTrace)
    : Prop :=
  ∀ claims expiresIn, reply = .ok (.token claims expiresIn)
    → ∃ treq c key sig, req = .token treq ∧ Proven crypto treq claims trace c key sig

variable {crypto}

theorem sat_call {req : AuthRequest} {o : AuthOp} {k : o.Res → AuthCode} {trace : AuthTrace}
    (hpermits : Permits req () trace o)
    (hk : ∀ r, ((k r).start ()).Sat (Permits req) (Post crypto req) (⟨(), o, r⟩ :: trace))
    : ((call o k).start ()).Sat (Permits req) (Post crypto req) trace :=
  Prog.sat_perform hpermits hk

theorem sat_answer_error {req : AuthRequest} {e : ApiError} {trace : AuthTrace}
    : ((answer (.error e)).start ()).Sat (Permits req) (Post crypto req) trace :=
  nofun

theorem sat_challenge (req : ChallengeRequest)
    : ((challenge req).start ()).Sat (Permits (.challenge req)) (Post crypto (.challenge req)) [] := by
  refine sat_call trivial ?_
  intro r
  cases r with
  | error e => exact sat_answer_error
  | ok _ =>
    refine sat_call trivial ?_
    intro r
    cases r with
    | error e => exact sat_answer_error
    | ok _ =>
      refine sat_call trivial ?_
      intro r
      cases r with
      | none => exact sat_answer_error
      | some found =>
        dsimp only
        split
        . exact sat_answer_error
        . refine sat_call trivial ?_
          intro now
          refine sat_call trivial ?_
          intro r
          cases r with
          | none => exact sat_answer_error
          | some c =>
            refine sat_call ⟨rfl, List.mem_cons_self, by simp [PutIn]⟩ ?_
            intro r
            cases r with
            | none => exact sat_answer_error
            | some _ => exact nofun

theorem checkTokenProof_eq_ok {stored : String} {req : TokenRequest} {sig : Bytes 64}
    {found : Option Devices.DeviceKey} {c : Bytes 32}
    (hpresented : B64u.decodeFixed 32 req.challenge = some c)
    (h : checkTokenProof crypto (some stored) req sig found = .ok ())
    : ∃ key, found = some key ∧ key.revoked = false
        ∧ SignedBy crypto req.deviceId key.ikSigPub (authMessage c req.deviceId) sig := by
  unfold checkTokenProof at h
  have ⟨c', haccept, h⟩ := Except.bind_eq_ok.mp h
  have ⟨ikSigPub, hkey, h⟩ := Except.bind_eq_ok.mp h
  have hc : c' = c := by
    unfold acceptPresented at haccept
    dsimp only at haccept
    rw [hpresented] at haccept
    split at haccept
    . next heq =>
      split at haccept
      . next hsame =>
        cases haccept
        cases heq
        exact hsame
      . cases haccept
    . cases haccept
  subst hc
  unfold usableKey at hkey
  split at hkey
  . cases hkey
  . split at hkey
    . cases hkey
    . next hrevoked =>
      cases hkey
      exact ⟨_, rfl, by simpa using hrevoked, verifyDeviceSignature_eq_ok.mp h⟩

theorem sat_token (req : TokenRequest)
    : ((token crypto req).start ()).Sat (Permits (.token req)) (Post crypto (.token req)) [] := by
  refine sat_call trivial ?_
  intro r
  cases r with
  | error e => exact sat_answer_error
  | ok _ =>
    dsimp only
    split
    . exact sat_answer_error
    . next sig hsig =>
      split
      . exact sat_answer_error
      . next c hpresented =>
        refine sat_call ⟨rfl, hpresented⟩ ?_
        intro r
        match r with
        | none => exact sat_answer_error
        | some none => exact sat_answer_error
        | some (some stored) =>
          refine sat_call trivial ?_
          intro r
          cases r with
          | none => exact sat_answer_error
          | some found =>
            dsimp only
            split
            . exact sat_answer_error
            . next hproof =>
              have ⟨key, hfound, husable, hsigned⟩ := checkTokenProof_eq_ok hpresented hproof
              subst hfound
              refine sat_call trivial ?_
              intro r
              cases r with
              | none => exact sat_answer_error
              | some _ =>
                refine sat_call trivial ?_
                intro now
                refine sat_call trivial ?_
                intro r
                cases r with
                | none => exact sat_answer_error
                | some claims =>
                  intro claims' expiresIn heq
                  cases heq
                  refine ⟨req, c, key, sig, rfl, ?_⟩
                  constructor
                  . exact hpresented
                  . exact hsig
                  . exact ⟨stored, by simp⟩
                  . simp [FoundIn]
                  . exact husable
                  . exact hsigned
                  . exact ⟨_, List.mem_cons_self⟩

theorem sat_code (req : AuthRequest)
    : (((server crypto).code req).start ()).Sat (Permits req) (Post crypto req) [] := by
  cases req with
  | challenge req => exact sat_challenge req
  | token req => exact sat_token req

/-!
What one operation does to the keys and to the record of generated challenges.
-/

section

variable {w w' : AuthWorld} {o : AuthOp} {f : Choice} {r : o.Res}

/--
What an operation can do to the keys.
-/
inductive KeysStep (w : AuthWorld) : AuthOp → Keys → Prop where
  | same {o : AuthOp} : KeysStep w o w.keys
  | put (d : Uuid) (c : Bytes 32) : KeysStep w (.put d c) (Challenges.put w.keys w.nowMs d c)
  | take (d : Uuid) (c : Bytes 32) : KeysStep w (.take d c) (Challenges.take w.keys d c).1

theorem AuthWorld.command_cases {α : Type} {done : AuthWorld × α} {res : Option α}
    (h : w.command f done = some (w', res))
    : (w' = w ∧ res = none ∧ f = .fail) ∨ (w' = done.1 ∧ (res = some done.2 ∨ res = none)) := by
  unfold command at h
  split at h
  . cases h
    exact .inr ⟨rfl, .inl rfl⟩
  . cases h
    exact .inl ⟨rfl, rfl, rfl⟩
  . cases h
    exact .inr ⟨rfl, .inr rfl⟩
  . cases h

theorem keys_perform (h : w.perform o f = some (w', r)) : KeysStep w o w'.keys := by
  cases o with
  | put d c =>
    rcases AuthWorld.command_cases h with ⟨hw, _⟩ | ⟨hw, _⟩ <;> rw [hw]
    . exact .same
    . exact .put d c
  | take d c =>
    rcases AuthWorld.command_cases h with ⟨hw, _⟩ | ⟨hw, _⟩ <;> rw [hw]
    . exact .same
    . exact .take d c
  | findKey d | touchLastSeen d =>
    rcases AuthWorld.command_cases h with ⟨hw, _⟩ | ⟨hw, _⟩ <;> rw [hw] <;> exact .same
  | generate | checkAuthIp | checkChallengeQuota _ | now | issue _ _ =>
    cases f <;> cases h <;> exact .same

theorem generated_perform (h : w.perform o f = some (w', r))
    : (w'.generated = w.generated ∧ ∀ c, (⟨(), o, r⟩ : AuthPerformed) ≠ ⟨(), .generate, some c⟩)
      ∨ ∃ c, (⟨(), o, r⟩ : AuthPerformed) = ⟨(), .generate, some c⟩
        ∧ w'.generated = c :: w.generated := by
  cases o with
  | generate =>
    cases f <;> cases h
    . exact .inl ⟨rfl, nofun⟩
    . next c => exact .inr ⟨c, rfl, rfl⟩
  | put _ _ | take _ _ | findKey _ | touchLastSeen _ =>
    refine .inl ⟨?_, nofun⟩
    rcases AuthWorld.command_cases h with ⟨hw, _⟩ | ⟨hw, _⟩ <;> rw [hw]
  | checkAuthIp | checkChallengeQuota _ | now | issue _ _ =>
    cases f <;> cases h <;> exact .inl ⟨rfl, nofun⟩

/--
A challenge that is taken was pending.
-/
theorem pending_of_take {d : Uuid} {c : Bytes 32} {stored : String}
    {r : (AuthOp.take d c).Res} (h : w.perform (.take d c) f = some (w', r))
    (hr : r = some (some stored))
    : (w.keys (challengeKey d c)).isSome ∧ w'.keys (challengeKey d c) = none := by
  rcases AuthWorld.command_cases h with ⟨_, hnone, _⟩ | ⟨hw, hres | hres⟩
  . rw [hr] at hnone
    cases hnone
  . rw [hr] at hres
    have hstored := Option.some.inj hres
    refine ⟨?_, ?_⟩
    . rw [Option.isSome_iff_exists]
      have ⟨e, he, _⟩ := Option.map_eq_some_iff.mp hstored.symm
      exact ⟨e, he⟩
    . rw [hw]
      exact Function.update_self _ _ _
  . rw [hr] at hres
    cases hres

end

/-!
All requests together.
-/

/--
A request stored the challenge for the device.
-/
def Issued (p : AuthPool) (d : Uuid) (c : Bytes 32) : Prop :=
  ∃ k, PutIn (p.record k) d c

/--
The challenge was issued and is not pending any more.
-/
def Consumed (p : AuthPool) (d : Uuid) (c : Bytes 32) : Prop :=
  p.world.keys (challengeKey d c) = none ∧ Issued p d c

structure SingleUse (p : AuthPool) : Prop where
  generated : ∀ k c, GeneratedIn (p.record k) c → c ∈ p.world.generated
  distinct : ∀ k k' c, GeneratedIn (p.record k) c → GeneratedIn (p.record k') c → k = k'
  put : ∀ k d c, PutIn (p.record k) d c → GeneratedIn (p.record k) c
  pending : ∀ d c, (p.world.keys (challengeKey d c)).isSome → Issued p d c
  taken : ∀ k d c, TakenIn (p.record k) d c → Consumed p d c
  once : ∀ k k' d c, TakenIn (p.record k) d c → TakenIn (p.record k') d c → k = k'

/--
Every request keeps to what it may ask for.
-/
def Keeping (p : AuthPool) : Prop :=
  ∀ (k : Nat) (t : AuthTask) s o cont, p.tasks[k]? = some t → t.prog = .wait s o cont
    → Permits t.req s (p.record k) o

variable {p p' : AuthPool} {l : AuthLabel}

theorem Issued.step {d : Uuid} {c : Bytes 32} (h : Issued p d c)
    (hstep : p.step (server crypto) l = some p') : Issued p' d c := by
  have ⟨k, e, he, hop⟩ := h
  exact ⟨k, e, Pool.record_subset hstep k he, hop⟩

/--
A challenge that a request is about to store was not issued before.
-/
theorem SingleUse.not_issued {k : Nat} {t : AuthTask} {s : Unit} {d : Uuid} {c : Bytes 32}
    {cont : (AuthOp.put d c).Res → _} (h : SingleUse p) (hkeeping : Keeping p)
    (ht : p.tasks[k]? = some t) (hprog : t.prog = .wait s (.put d c) cont) (d' : Uuid)
    : ¬ Issued p d' c := by
  intro ⟨k', hput⟩
  have hpermits := hkeeping k t s _ cont ht hprog
  generalize t.req = req at hpermits
  cases req with
  | token req => exact hpermits
  | challenge req =>
    have ⟨_, hgen, hnone⟩ := hpermits
    have hk := h.distinct k k' c hgen (h.put k' d' c hput)
    subst hk
    exact hnone d' c hput

/--
A step leaves a key as it is, or the key of a challenge is stored by the request that generated it,
taken, or expires.
-/
inductive KeyStep (p p' : AuthPool) (d : Uuid) (c : Bytes 32) : AuthLabel → Option Entry → Prop where
  | same {l : AuthLabel} : KeyStep p p' d c l (p.world.keys (challengeKey d c))
  | put {k : Nat} {f : Choice} {e : Entry} (hnew : ¬ Issued p d c) (hissued : Issued p' d c)
      : KeyStep p p' d c (.exec k f) (some e)
  | take {k : Nat} {f : Choice} {t : AuthTask} {s : Unit} {cont} (htask : p.tasks[k]? = some t)
      (hprog : t.prog = .wait s (.take d c) cont) : KeyStep p p' d c (.exec k f) none
  | expire {key : String} : KeyStep p p' d c (.happen (.expire key)) none

theorem SingleUse.key_step (h : SingleUse p) (hkeeping : Keeping p)
    (hstep : p.step (server crypto) l = some p') (d : Uuid) (c : Bytes 32)
    : KeyStep p p' d c l (p'.world.keys (challengeKey d c)) := by
  cases Pool.step_cases hstep with
  | start req => exact .same
  | @exec k f t s o cont w r htask hprog hperform =>
    have hkeys := keys_perform hperform
    dsimp only
    generalize w.keys = keys at hkeys
    cases hkeys with
    | same => exact .same
    | put d' c' =>
      unfold Challenges.put
      rw [Function.update_apply]
      split
      . next heq =>
        have ⟨hd, hc⟩ := challengeKey_injective heq
        subst hd hc
        refine .put (h.not_issued hkeeping htask hprog d) ⟨k, ⟨s, .put d c, r⟩, ?_, rfl⟩
        rw [Pool.record_set htask]
        exact List.mem_cons_self
      . exact .same
    | take d' c' =>
      unfold Challenges.take
      dsimp only
      rw [Function.update_apply]
      split
      . next heq =>
        have ⟨hd, hc⟩ := challengeKey_injective heq
        subst hd hc
        exact .take htask hprog
      . exact .same
  | @happen e w h' =>
    cases e with
    | expire key =>
      cases h'
      dsimp only
      rw [Function.update_apply]
      split
      . exact .expire
      . exact .same
    | http req =>
      cases h'
      exact .same
    | clock nowMs =>
      cases h'
      exact .same

theorem Consumed.step {d : Uuid} {c : Bytes 32} (h : SingleUse p) (hkeeping : Keeping p)
    (hconsumed : Consumed p d c) (hstep : p.step (server crypto) l = some p')
    : Consumed p' d c := by
  refine ⟨?_, hconsumed.2.step hstep⟩
  have hkey := h.key_step hkeeping hstep d c
  generalize p'.world.keys (challengeKey d c) = entry at hkey
  cases hkey with
  | same => exact hconsumed.1
  | put hnew hissued => exact absurd hconsumed.2 hnew
  | take htask hprog => rfl
  | expire => rfl

theorem generated_step (hstep : p.step (server crypto) l = some p')
    : p.world.generated <:+ p'.world.generated := by
  cases Pool.step_cases hstep with
  | start req => exact List.suffix_rfl
  | exec htask hprog hperform =>
    rcases generated_perform hperform with ⟨hsame, _⟩ | ⟨c, _, hcons⟩
    . exact hsame ▸ List.suffix_rfl
    . exact hcons ▸ List.suffix_cons c _
  | @happen e w h' => cases e <;> cases h' <;> exact List.suffix_rfl

theorem generated_run {ls : List AuthLabel}
    (hrun : Lts.run (Pool.step (server crypto)) p ls = some p')
    : p.world.generated <:+ p'.world.generated := by
  apply Lts.run_stable (P := fun p' : AuthPool => p.world.generated <:+ p'.world.generated) _
    List.suffix_rfl hrun
  intro p1 l p2 hsuffix hstep
  exact hsuffix.trans (generated_step hstep)

/--
A take that reaches Redis leaves no key behind.
-/
theorem taken_step {k : Nat} {f : Choice} {t : AuthTask} {s : Unit} {d : Uuid} {c : Bytes 32}
    {cont : (AuthOp.take d c).Res → _} (hstep : p.step (server crypto) (.exec k f) = some p')
    (ht : p.tasks[k]? = some t) (hprog : t.prog = .wait s (.take d c) cont) (hf : f ≠ .fail)
    : p'.world.keys (challengeKey d c) = none := by
  cases Pool.step_cases hstep with
  | exec htask hprog' hperform =>
    rw [ht] at htask
    cases htask
    rw [hprog] at hprog'
    cases hprog'
    rcases AuthWorld.command_cases hperform with ⟨_, _, hfail⟩ | ⟨hw, _⟩
    . exact absurd hfail hf
    . rw [hw]
      exact Function.update_self _ _ _

/--
One step, where no challenge is generated twice.
-/
theorem SingleUse.step (h : SingleUse p) (hkeeping : Keeping p)
    (hstep : p.step (server crypto) l = some p') (hnodup : p'.world.generated.Nodup)
    : SingleUse p' := by
  have hsub := (generated_step hstep).subset
  -- a challenge in the record of a request was there before, or was generated by this very step
  have hgen : ∀ k c, GeneratedIn (p'.record k) c → GeneratedIn (p.record k) c
      ∨ (∃ f, l = .exec k f) ∧ p'.world.generated = c :: p.world.generated := by
    intro k c hc
    have hrecord := Pool.record_step hstep k
    generalize p'.record k = trace at hc hrecord
    cases hrecord with
    | same => exact .inl hc
    | performed htask hprog hperform =>
      cases List.mem_cons.mp hc with
      | inl heq =>
        rcases generated_perform hperform with ⟨_, hne⟩ | ⟨c', hc', hcons⟩
        . exact absurd heq.symm (hne c)
        . rw [← heq] at hc'
          cases hc'
          exact .inr ⟨⟨_, rfl⟩, hcons⟩
      | inr hmem => exact .inl hmem
  have hfresh : ∀ k c, p'.world.generated = c :: p.world.generated
      → ¬ GeneratedIn (p.record k) c := by
    intro k c hcons hc
    rw [hcons, List.nodup_cons] at hnodup
    exact hnodup.1 (h.generated k c hc)
  have htaken : ∀ k d c, TakenIn (p'.record k) d c → TakenIn (p.record k) d c
      ∨ (∃ f, l = .exec k f) ∧ (p.world.keys (challengeKey d c)).isSome
        ∧ p'.world.keys (challengeKey d c) = none := by
    intro k d c ⟨stored, hmem⟩
    have hrecord := Pool.record_step hstep k
    generalize p'.record k = trace at hmem hrecord
    cases hrecord with
    | same => exact .inl ⟨stored, hmem⟩
    | performed htask hprog hperform =>
      cases List.mem_cons.mp hmem with
      | inl heq =>
        cases heq
        exact .inr ⟨⟨_, rfl⟩, pending_of_take hperform rfl⟩
      | inr hmem => exact .inl ⟨stored, hmem⟩
  constructor
  case generated =>
    intro k c hc
    cases hgen k c hc with
    | inl hc => exact hsub (h.generated k c hc)
    | inr hc =>
      rw [hc.2]
      exact List.mem_cons_self
  case distinct =>
    intro k k' c hc hc'
    cases hgen k c hc with
    | inl hold =>
      cases hgen k' c hc' with
      | inl hold' => exact h.distinct k k' c hold hold'
      | inr hnew' => exact absurd hold (hfresh k c hnew'.2)
    | inr hnew =>
      cases hgen k' c hc' with
      | inl hold' => exact absurd hold' (hfresh k' c hnew.2)
      | inr hnew' =>
        have ⟨f, hf⟩ := hnew.1
        have ⟨f', hf'⟩ := hnew'.1
        rw [hf] at hf'
        cases hf'
        rfl
  case put =>
    intro k d c hput
    have hrecord := Pool.record_step hstep k
    generalize p'.record k = trace at hput hrecord
    cases hrecord with
    | same => exact h.put k d c hput
    | @performed f t s o cont w r htask hprog hperform =>
      have ⟨e, he, hop⟩ := hput
      apply List.mem_cons_of_mem
      cases List.mem_cons.mp he with
      | inl heq =>
        subst heq
        dsimp only at hop
        subst hop
        have hpermits := hkeeping k t s _ cont htask hprog
        generalize t.req = req at hpermits
        cases req with
        | token req => exact absurd hpermits not_false
        | challenge req => exact hpermits.2.1
      | inr he => exact h.put k d c ⟨e, he, hop⟩
  case pending =>
    intro d c hsome
    have hkey := h.key_step hkeeping hstep d c
    generalize p'.world.keys (challengeKey d c) = entry at hsome hkey
    cases hkey with
    | same => exact (h.pending d c hsome).step hstep
    | put hnew hissued => exact hissued
    | take htask hprog => cases hsome
    | expire => cases hsome
  case taken =>
    intro k d c htake
    cases htaken k d c htake with
    | inl hold => exact (h.taken k d c hold).step h hkeeping hstep
    | inr hnew => exact ⟨hnew.2.2, (h.pending d c hnew.2.1).step hstep⟩
  case once =>
    intro k k' d c htake htake'
    -- a challenge that some request took before is not pending any more
    have hgone : ∀ k, TakenIn (p.record k) d c → ¬ (p.world.keys (challengeKey d c)).isSome := by
      intro k hold hsome
      rw [(h.taken k d c hold).1] at hsome
      cases hsome
    cases htaken k d c htake with
    | inl hold =>
      cases htaken k' d c htake' with
      | inl hold' => exact h.once k k' d c hold hold'
      | inr hnew' => exact absurd hnew'.2.1 (hgone k hold)
    | inr hnew =>
      cases htaken k' d c htake' with
      | inl hold' => exact absurd hnew.2.1 (hgone k' hold')
      | inr hnew' =>
        have ⟨f, hf⟩ := hnew.1
        have ⟨f', hf'⟩ := hnew'.1
        rw [hf] at hf'
        cases hf'
        rfl

theorem keeping_run {db : Db} {ls : List AuthLabel} (hrun : runAuth crypto db ls = some p)
    : Keeping p := by
  intro k t s o cont ht hprog
  have hsat := Pool.sat_run sat_code hrun ht
  rw [hprog, ← Pool.record_eq ht] at hsat
  exact hsat.1

theorem singleUse_init (db : Db) : SingleUse (Pool.init (.init db)) := by
  have hrecord : ∀ k, (Pool.init (.init db) : AuthPool).record k = [] := by
    intro k
    simp [Pool.record, Pool.init]
  constructor
  case generated | distinct => simp [hrecord, GeneratedIn]
  case put => simp [hrecord, PutIn]
  case pending =>
    intro d c hsome
    cases hsome
  case taken | once => simp [hrecord, TakenIn]

/--
The requests of a whole run, where no challenge is generated twice.
-/
theorem singleUse_run {db : Db} {ls : List AuthLabel} (hrun : runAuth crypto db ls = some p)
    (hnodup : p.world.generated.Nodup) : SingleUse p := by
  induction ls using List.reverseRecOn generalizing p with
  | nil =>
    cases hrun
    exact singleUse_init db
  | append_singleton ls l ih =>
    have ⟨p1, hrun1, hlast⟩ := (Lts.run_append_eq_some _).mp hrun
    have ⟨p2, hstep, hnil⟩ := (Lts.run_cons_eq_some _).mp hlast
    cases hnil
    have hnodup1 := hnodup.sublist (generated_step hstep).sublist
    exact (ih hrun1 hnodup1).step (keeping_run hrun1) hstep hnodup

/--
Who stores a challenge is a challenge request of the device.
-/
theorem issuer {db : Db} {ls : List AuthLabel} (hrun : runAuth crypto db ls = some p) {k : Nat}
    {d : Uuid} {c : Bytes 32} (h : PutIn (p.record k) d c)
    : ∃ t req, p.tasks[k]? = some t ∧ t.req = .challenge req ∧ req.deviceId = d
        ∧ ∃ r w, Pool.Did (server crypto) (.init db) ls k (.challenge req) (.put d c) r w := by
  have ⟨e, he, hop⟩ := h
  have ⟨t, ht, he⟩ := Pool.task_of_mem_record he
  rcases e with ⟨s, o, r⟩
  dsimp only at hop
  subst hop
  have ⟨w, hdid⟩ := Pool.did_of_mem_trace hrun ht he
  have ⟨ls1, f, ls2, p1, t1, s1, cont, w', hls, hrun1, hw, ht1, hreq, hprog, hperform⟩ := hdid
  have hpermits := keeping_run hrun1 k t1 s1 _ cont ht1 hprog
  rw [hreq] at hpermits
  generalize hreq' : t.req = req at hpermits hdid
  cases req with
  | token req => exact absurd hpermits not_false
  | challenge req => exact ⟨t, req, ht, hreq', hpermits.1.symm, r, w, hdid⟩

/--
The request `k` was answered with a token.
-/
def GotToken (p : AuthPool) (k : Nat) (req : TokenRequest) (claims : Jwt.Claims) : Prop :=
  ∃ t expiresIn, p.tasks[k]? = some t ∧ t.req = .token req
    ∧ t.prog = .done () (.ok (.token claims expiresIn))

theorem proven_of_gotToken {db : Db} {ls : List AuthLabel} (hrun : runAuth crypto db ls = some p)
    {k : Nat} {req : TokenRequest} {claims : Jwt.Claims} (h : GotToken p k req claims)
    : ∃ c key sig, Proven crypto req claims (p.record k) c key sig := by
  have ⟨t, expiresIn, ht, hreq, hprog⟩ := h
  have hsat := Pool.sat_run sat_code hrun ht
  rw [hprog, hreq, ← Pool.record_eq ht] at hsat
  have ⟨treq, c, key, sig, heq, hproven⟩ := hsat claims expiresIn rfl
  cases heq
  exact ⟨c, key, sig, hproven⟩

/--
The lookup behind a token found the row of the device.
-/
theorem row_of_findKey {w w' : AuthWorld} {d : Uuid} {f : Choice} {key : Devices.DeviceKey}
    (h : w.perform (.findKey d) f = some (w', some (some key)))
    : ∃ row, w.db.devices.find? d = some row ∧ row.ikSigPub = key.ikSigPub
        ∧ row.revokedAt.isSome = key.revoked := by
  rcases AuthWorld.command_cases h with ⟨_, hnone, _⟩ | ⟨_, hres | hres⟩
  . cases hnone
  . have ⟨row, hrow, hkey⟩ := Option.map_eq_some_iff.mp (Option.some.inj hres).symm
    cases hkey
    exact ⟨row, hrow, rfl, rfl⟩
  . cases hres

/--
A token is issued to the device it was asked for.
-/
theorem sub_of_issue {w w' : AuthWorld} {d : Uuid} {nowSecs : Int64} {f : Choice}
    {claims : Jwt.Claims} (h : w.perform (.issue d nowSecs) f = some (w', some claims))
    : claims.sub = d.hyphenated := by
  cases f <;> cases h
  rfl

theorem consumed_run {db : Db} {ls1 ls2 : List AuthLabel} {p1 : AuthPool} {d : Uuid} {c : Bytes 32}
    (hrun1 : runAuth crypto db ls1 = some p1)
    (hrun2 : Lts.run (Pool.step (server crypto)) p1 ls2 = some p)
    (hnodup : p.world.generated.Nodup) (h : Consumed p1 d c) : Consumed p d c := by
  induction ls2 using List.reverseRecOn generalizing p with
  | nil =>
    cases hrun2
    exact h
  | append_singleton ls l ih =>
    have ⟨p2, hrun, hlast⟩ := (Lts.run_append_eq_some _).mp hrun2
    have ⟨p3, hstep, hnil⟩ := (Lts.run_cons_eq_some _).mp hlast
    cases hnil
    have hrun' : runAuth crypto db (ls1 ++ ls) = some p2 :=
      (Lts.run_append_eq_some _).mpr ⟨p1, hrun1, hrun⟩
    have hnodup' := hnodup.sublist (generated_step hstep).sublist
    exact (ih hrun hnodup').step (singleUse_run hrun' hnodup') (keeping_run hrun') hstep

/--
Challenges are single-use and bound to their device, however the requests interleave, as long as no
challenge is generated twice.
-/
theorem challenges_are_single_use {crypto : Crypto} {db : Db} {ls : List AuthLabel} {p : AuthPool}
    (hrun : runAuth crypto db ls = some p) (hdistinct : p.world.generated.Nodup)
    : -- no two tokens for the same challenge
      (∀ k k' req req' claims claims' c, GotToken p k req claims → GotToken p k' req' claims'
        → B64u.decodeFixed 32 req.challenge = some c → B64u.decodeFixed 32 req'.challenge = some c
        → k = k')
      -- what was done for a token
      ∧ (∀ k req claims, GotToken p k req claims → claims.sub = req.deviceId.hyphenated ∧ ∃ c sig,
        B64u.decodeFixed 32 req.challenge = some c ∧ B64u.decodeField 64 req.sig = .ok sig
        ∧ (∃ k' req' r w, Pool.Did (server crypto) (.init db) ls k' (.challenge req')
          (.put req.deviceId c) r w ∧ req'.deviceId = req.deviceId)
        ∧ (∃ stored w, Pool.Did (server crypto) (.init db) ls k (.token req) (.take req.deviceId c)
          (some (some stored)) w)
        ∧ ∃ found w row, Pool.Did (server crypto) (.init db) ls k (.token req)
          (.findKey req.deviceId) found w ∧ w.db.devices.find? req.deviceId = some row
          ∧ row.revokedAt = none
          ∧ SignedBy crypto req.deviceId row.ikSigPub (authMessage c req.deviceId) sig)
      -- a pending challenge is gone for good once a request has taken it
      ∧ (∀ ls1 ls2 k f p1 t s d c cont, ls = ls1 ++ .exec k f :: ls2 → f ≠ .fail
        → runAuth crypto db ls1 = some p1 → p1.tasks[k]? = some t
        → t.prog = .wait s (.take d c) cont → (p1.world.keys (challengeKey d c)).isSome
        → p.world.keys (challengeKey d c) = none)
      -- no other request changes a pending challenge
      ∧ ∀ k f p' t d c e, p.step (server crypto) (.exec k f) = some p' → p.tasks[k]? = some t
        → (∀ req, t.req = .token req → req.deviceId ≠ d)
        → p.world.keys (challengeKey d c) = some e → p'.world.keys (challengeKey d c) = some e := by
  have hsingle := singleUse_run hrun hdistinct
  have hkeeping := keeping_run hrun
  refine ⟨?_, ?_, ?_, ?_⟩
  . intro k k' req req' claims claims' c h h' hc hc'
    have ⟨c1, key, sig, hproven⟩ := proven_of_gotToken hrun h
    have ⟨c2, key', sig', hproven'⟩ := proven_of_gotToken hrun h'
    have hc1 : c = c1 := Option.some.inj (hc.symm.trans hproven.presented)
    have hc2 : c = c2 := Option.some.inj (hc'.symm.trans hproven'.presented)
    subst hc1 hc2
    -- the challenge was issued to one device only
    have ⟨_, k1, hput⟩ := hsingle.taken k _ _ hproven.taken
    have ⟨_, k2, hput'⟩ := hsingle.taken k' _ _ hproven'.taken
    have hk := hsingle.distinct k1 k2 c (hsingle.put k1 _ _ hput) (hsingle.put k2 _ _ hput')
    subst hk
    have ⟨t, creq, ht, hreq, hd, _⟩ := issuer hrun hput
    have ⟨t', creq', ht', hreq', hd', _⟩ := issuer hrun hput'
    rw [ht] at ht'
    cases ht'
    rw [hreq] at hreq'
    cases hreq'
    have htaken' := hproven'.taken
    rw [← hd', hd] at htaken'
    exact hsingle.once k k' req.deviceId c hproven.taken htaken'
  . intro k req claims h
    have ⟨c, key, sig, hproven⟩ := proven_of_gotToken hrun h
    have ⟨t, expiresIn, ht, hreq, hprog⟩ := h
    have ⟨stored, htaken⟩ := hproven.taken
    obtain ⟨nowSecs, hissued⟩ := hproven.issued
    have hfound := hproven.found
    unfold FoundIn at hfound
    rw [Pool.record_eq ht] at htaken hfound hissued
    have ⟨w, hdid⟩ := Pool.did_of_mem_trace hrun ht htaken
    have ⟨w', hdid'⟩ := Pool.did_of_mem_trace hrun ht hfound
    obtain ⟨_, _, _, _, _, _, _, _, _, _, _, _, _, _, _, hissue⟩ :=
      Pool.did_of_mem_trace hrun ht hissued
    rw [hreq] at hdid hdid'
    have ⟨_, _, _, _, _, _, _, _, _, _, _, _, _, _, hperform⟩ := hdid'
    have ⟨row, hrow, hkey, hrevoked⟩ := row_of_findKey hperform
    refine ⟨sub_of_issue hissue, c, sig, hproven.presented, hproven.signature, ?_, ⟨stored, w, hdid⟩, ?_⟩
    . have ⟨_, k', hput⟩ := hsingle.taken k _ _ hproven.taken
      have ⟨_, req', _, _, hd, r, w, hdid⟩ := issuer hrun hput
      exact ⟨k', req', r, w, hdid, hd⟩
    . refine ⟨_, w', row, hdid', hrow, ?_, ?_⟩
      . rw [hproven.usable] at hrevoked
        simpa using hrevoked
      . rw [hkey]
        exact hproven.signed
  . intro ls1 ls2 k f p1 t s d c cont hls hf hrun1 ht hprog hpending
    subst hls
    have ⟨p1', hrun1', hrest⟩ := (Lts.run_append_eq_some _).mp hrun
    have hp1 : p1' = p1 := Option.some.inj (hrun1'.symm.trans hrun1)
    subst hp1
    have ⟨p2, hstep, hrest⟩ := (Lts.run_cons_eq_some _).mp hrest
    have hrun2 : runAuth crypto db (ls1 ++ [.exec k f]) = some p2 :=
      (Lts.run_append_eq_some _).mpr ⟨p1', hrun1, (Lts.run_cons_eq_some _).mpr ⟨p2, hstep, rfl⟩⟩
    have hnodup1 : p1'.world.generated.Nodup :=
      hdistinct.sublist ((generated_step hstep).sublist.trans (generated_run hrest).sublist)
    have hissued := (singleUse_run hrun1 hnodup1).pending d c hpending
    have hgone := taken_step hstep ht hprog hf
    exact (consumed_run hrun2 hrest hdistinct ⟨hgone, hissued.step hstep⟩).1
  . intro k f p' t d c e hstep ht hother hpending
    have hkey := hsingle.key_step hkeeping hstep d c
    generalize p'.world.keys (challengeKey d c) = entry at hkey
    generalize hl : (Pool.Label.exec k f : AuthLabel) = l at hkey
    cases hkey with
    | same => exact hpending
    | put hnew hissued => exact absurd (hsingle.pending d c (by rw [hpending]; rfl)) hnew
    | @take k' f' t' s cont htask hprog =>
      cases hl
      rw [ht] at htask
      cases htask
      have hpermits := hkeeping k t s _ cont ht hprog
      generalize hreq : t.req = req at hpermits
      cases req with
      | challenge req => exact absurd hpermits not_false
      | token req => exact absurd hpermits.1.symm (hother req hreq)
    | expire => cases hl

namespace Sample

open HandLiveRelay.Sample

def nonce : Bytes 32 := Bytes.replicate 32 9

def tokenRequest : TokenRequest where
  deviceId := device 1
  challenge := B64u.encode nonce.toList
  sig := sign 1 (authMessage nonce (device 1))

/--
The phone asks for a challenge and presents it twice at the same time.
-/
def presentsTwice : List AuthLabel :=
  [.start (.challenge { deviceId := device 1 }), .exec 0 (.verdict (.ok ())),
    .exec 0 (.verdict (.ok ())), .exec 0 .ok, .exec 0 .ok, .exec 0 (.random nonce), .exec 0 .ok,
    .start (.token tokenRequest), .start (.token tokenRequest),
    .exec 1 (.verdict (.ok ())), .exec 2 (.verdict (.ok ())), .exec 1 .ok, .exec 2 .ok,
    .exec 1 .ok, .exec 1 .ok, .exec 1 .ok, .exec 1 (.jti pairId)]

def gotToken (t : AuthTask) : Bool :=
  match t.req, t.prog with
  | .token req, .done _ (.ok (.token _ _)) =>
    decide (req.deviceId = tokenRequest.deviceId)
      && decide (req.challenge = tokenRequest.challenge) && decide (req.sig = tokenRequest.sig)
  | _, _ => false

end Sample

theorem challenge_presented_twice_gives_one_token
    : ∃ p claims, runAuth .sample HandLiveRelay.Sample.pairedDb Sample.presentsTwice = some p
        ∧ GotToken p 1 Sample.tokenRequest claims
        ∧ ∀ claims', ¬ GotToken p 2 Sample.tokenRequest claims' := by
  have hrun : (runAuth .sample HandLiveRelay.Sample.pairedDb Sample.presentsTwice).any (fun p =>
      decide p.world.generated.Nodup && (p.tasks[1]?).any Sample.gotToken) = true := by
    decide +kernel
  simp only [Option.any_eq_true, Bool.and_eq_true, decide_eq_true_eq] at hrun
  obtain ⟨p, hp, hnodup, t, ht, hgot⟩ := hrun
  unfold Sample.gotToken at hgot
  split at hgot
  . next req s claims expiresIn hreq hprog =>
    have hsame : req = Sample.tokenRequest := by
      simp only [Bool.and_eq_true, decide_eq_true_eq] at hgot
      rw [TokenRequest.mk.injEq]
      exact ⟨hgot.1.1, hgot.1.2, hgot.2⟩
    have hfirst : GotToken p 1 Sample.tokenRequest claims := ⟨t, expiresIn, ht, hsame ▸ hreq, hprog⟩
    refine ⟨p, claims, hp, hfirst, ?_⟩
    intro claims' hsecond
    have hone := (challenges_are_single_use hp hnodup).1 1 2 _ _ claims claims' Sample.nonce hfirst
      hsecond (by decide +kernel) (by decide +kernel)
    cases hone
  . cases hgot

end HandLiveRelay.Routes.Auth
