import HandLiveRelay.Providers.Apns

/-!
This module contains the loop of one push attempt, as the clients of both providers have it: get a
token, send the request with it, and go round once more for a token that is not accepted and once
more for a failure of the provider.
-/

namespace HandLiveRelay.Attempt

open Fiber Apns

section

variable {σ Op : Type} {Res : Op → Type} {τ α : Type}

/--
`renewed` and `retried` are what the attempt has done already.
-/
def loop (token : Bool → Code σ Op Res (Option τ)) (post : τ → Code σ Op Res (Option α))
    (sleep : Code σ Op Res Unit) (verdict : α → Verdict) (renewed retried : Bool)
    : Code σ Op Res Routes.Push.Outcome :=
  token renewed >>= fun access =>
  match access with
  | none => pure .failed
  | some access =>
    post access >>= fun answer =>
    match answer with
    | none =>
      if retried then
        pure .failed
      else
        sleep >>= fun _ => loop token post sleep verdict renewed true
    | some answer =>
      match verdict answer with
      | .sent => pure .sent
      | .unregistered => pure .tokenInvalid
      | .renewToken =>
        if renewed then
          pure .failed
        else
          loop token post sleep verdict true retried
      | .retry =>
        if retried then
          pure .failed
        else
          sleep >>= fun _ => loop token post sleep verdict renewed true
      | .reject => pure .failed
termination_by renewed.not.toNat + retried.not.toNat
decreasing_by all_goals simp_all

end

/-!
What an attempt has done.
-/

/--
An attempt got a token, which it may have asked to renew, or an answer to its request, `none` for a
transport error.
-/
inductive Happened (α : Type) where
  | token (renew : Bool)
  | answer (answer : Option α)

namespace Happened

variable {α : Type}

def answer? : Happened α → Option (Option α)
  | token _ => none
  | answer a => some a

def isRenewal : Happened α → Bool
  | token renew => renew
  | answer _ => false

end Happened

section

variable {α : Type} (verdict : α → Verdict)

/--
The answers, the newest one first.
-/
def answers (h : List (Happened α)) : List (Option α) :=
  h.filterMap Happened.answer?

/--
How often a new token was forced.
-/
def renewals (h : List (Happened α)) : Nat :=
  h.countP Happened.isRenewal

@[simp]
theorem answers_nil : answers ([] : List (Happened α)) = [] := rfl

@[simp]
theorem answers_token (renew : Bool) (h : List (Happened α))
    : answers (.token renew :: h) = answers h := rfl

@[simp]
theorem answers_answer (a : Option α) (h : List (Happened α))
    : answers (.answer a :: h) = a :: answers h := rfl

@[simp]
theorem renewals_nil : renewals ([] : List (Happened α)) = 0 := rfl

@[simp]
theorem renewals_token (renew : Bool) (h : List (Happened α))
    : renewals (.token renew :: h) = renewals h + renew.toNat := by
  unfold renewals
  rw [List.countP_cons]
  cases renew <;> rfl

@[simp]
theorem renewals_answer (a : Option α) (h : List (Happened α))
    : renewals (.answer a :: h) = renewals h := rfl

/--
The provider did not accept the token.
-/
def RefusesToken (answer : Option α) : Prop :=
  answer.map verdict = some .renewToken

/--
The provider failed, or did not answer at all.
-/
def Fails (answer : Option α) : Prop :=
  ∀ a, answer = some a → verdict a = .retry

/--
The first answer refuses the token and the second one is a failure, so that the attempt goes round
once more after it has renewed the token.
-/
def FailsAfterRenewal (h : List (Happened α)) : Prop :=
  match (answers h).reverse with
  | refused :: failed :: _ => RefusesToken verdict refused ∧ Fails verdict failed
  | _ => False

/--
What an attempt has done when it goes round.
-/
inductive Going : Bool → Bool → List (Happened α) → Prop where
  | start : Going false false []
  | retried {a : Option α} (ha : Fails verdict a) : Going false true [.answer a, .token false]
  | renewed {a : Option α} (ha : RefusesToken verdict a)
      : Going true false [.answer a, .token false]
  | retriedRenewed {a b : Option α} (ha : Fails verdict a) (hb : RefusesToken verdict b)
      : Going true true [.answer b, .token false, .answer a, .token false]
  | renewedRetried {a b : Option α} (ha : RefusesToken verdict a) (hb : Fails verdict b)
      : Going true true [.answer b, .token true, .answer a, .token false]

/--
What an attempt has done when it is over.
-/
structure Over (outcome : Routes.Push.Outcome) (h : List (Happened α)) : Prop where
  answers : (answers h).length ≤ 3
  renewals : renewals h ≤ 1 ↔ ¬ FailsAfterRenewal verdict h
  sent : outcome = .sent → ∃ a, (Attempt.answers h).head? = some (some a) ∧ verdict a = .sent
  tokenInvalid : outcome = .tokenInvalid
    → ∃ a, (Attempt.answers h).head? = some (some a) ∧ verdict a = .unregistered

variable {verdict} {renewed retried : Bool} {h : List (Happened α)}

theorem Fails.not_refusesToken {a : Option α} (ha : Fails verdict a) : ¬ RefusesToken verdict a := by
  intro hrefuses
  obtain ⟨b, hb, hverdict⟩ := Option.map_eq_some_iff.mp hrefuses
  rw [ha b hb] at hverdict
  cases hverdict

namespace Going

theorem length_answers (hg : Going verdict renewed retried h)
    : (Attempt.answers h).length ≤ 2 := by
  cases hg with
  | start => simp
  | retried _ => simp
  | renewed _ => simp
  | retriedRenewed _ _ => simp
  | renewedRetried _ _ => simp

/--
An attempt that has no token.
-/
theorem isOver (hg : Going verdict renewed retried h) {outcome : Routes.Push.Outcome}
    (hsent : outcome ≠ .sent) (htoken : outcome ≠ .tokenInvalid)
    : Over verdict outcome (.token renewed :: h) where
  answers := Nat.le_succ_of_le hg.length_answers
  renewals := by
    cases hg with
    | start => simp [FailsAfterRenewal]
    | retried _ => simp [FailsAfterRenewal]
    | renewed _ => simp [FailsAfterRenewal]
    | retriedRenewed ha _ =>
      have hfirst := ha.not_refusesToken
      simp [FailsAfterRenewal, hfirst]
    | renewedRetried ha hb =>
      simp [FailsAfterRenewal, ha, hb]
  sent h := absurd h hsent
  tokenInvalid h := absurd h htoken

/--
An attempt that is done with this answer, which is no failure unless it has been retried.
-/
theorem over_answer (hg : Going verdict renewed retried h) {a : Option α}
    {outcome : Routes.Push.Outcome} (hlast : Fails verdict a → retried = true)
    (hsent : outcome = .sent → ∃ b, a = some b ∧ verdict b = .sent)
    (htoken : outcome = .tokenInvalid → ∃ b, a = some b ∧ verdict b = .unregistered)
    : Over verdict outcome (.answer a :: .token renewed :: h) where
  answers := Nat.succ_le_succ hg.length_answers
  renewals := by
    cases hg with
    | start => simp [FailsAfterRenewal]
    | retried ha =>
      have hfirst := ha.not_refusesToken
      simp [FailsAfterRenewal, hfirst]
    | renewed _ =>
      have hlast : ¬ Fails verdict a := fun h => Bool.false_ne_true (hlast h)
      simp [FailsAfterRenewal, hlast]
    | retriedRenewed ha _ =>
      have hfirst := ha.not_refusesToken
      simp [FailsAfterRenewal, hfirst]
    | renewedRetried ha hb =>
      simp [FailsAfterRenewal, ha, hb]
  sent h := by
    obtain ⟨b, hb, hverdict⟩ := hsent h
    exact ⟨b, by rw [hb]; rfl, hverdict⟩
  tokenInvalid h := by
    obtain ⟨b, hb, hverdict⟩ := htoken h
    exact ⟨b, by rw [hb]; rfl, hverdict⟩

/--
The provider refuses the first token.
-/
theorem renew (hg : Going verdict false retried h) {a : Option α} (ha : RefusesToken verdict a)
    : Going verdict true retried (.answer a :: .token false :: h) := by
  cases hg with
  | start => exact .renewed ha
  | retried hfailed => exact .retriedRenewed hfailed ha

/--
The provider fails for the first time.
-/
theorem retry (hg : Going verdict renewed false h) {a : Option α} (ha : Fails verdict a)
    : Going verdict renewed true (.answer a :: .token renewed :: h) := by
  cases hg with
  | start => exact .retried ha
  | renewed hrefused => exact .renewedRetried hrefused ha

end Going
end

/--
The operations of a client, where `happened` says what its trace tells of the attempt.
-/
structure Recorded {σ Op : Type} {Res : Op → Type} {τ α : Type}
    (C : Contract σ Op Res) (happened : Trace σ Op Res → List (Happened α))
    (token : Bool → Code σ Op Res (Option τ)) (post : τ → Code σ Op Res (Option α))
    (sleep : Code σ Op Res Unit) : Prop where
  token : ∀ renew s t, ((token renew).start s).Sat C
    (fun _ _ t' => happened t' = .token renew :: happened t) t
  post : ∀ access s t, (answers (happened t)).length < 3 → ((post access).start s).Sat C
    (fun a _ t' => happened t' = .answer a :: happened t) t
  sleep : ∀ s t, (sleep.start s).Sat C (fun _ _ t' => happened t' = happened t) t

/--
However the provider answers, an attempt ends with at most three requests.
-/
theorem sat_loop {σ Op : Type} {Res : Op → Type} {τ α : Type} {C : Contract σ Op Res}
    {happened : Trace σ Op Res → List (Happened α)} {token : Bool → Code σ Op Res (Option τ)}
    {post : τ → Code σ Op Res (Option α)} {sleep : Code σ Op Res Unit} {verdict : α → Verdict}
    (hrec : Recorded C happened token post sleep) (renewed retried : Bool) {s : σ}
    {t : Trace σ Op Res} (hg : Going verdict renewed retried (happened t))
    : ((loop token post sleep verdict renewed retried).start s).Sat C
        (fun outcome _ t' => Over verdict outcome (happened t')) t := by
  have hretry : ∀ {a : Option α} {s : σ} {t' : Trace σ Op Res}, Fails verdict a
      → happened t' = .answer a :: .token renewed :: happened t
      → ((if retried then pure .failed
          else sleep >>= fun _ => loop token post sleep verdict renewed true
          : Code σ Op Res Routes.Push.Outcome).start s).Sat C
        (fun outcome _ t' => Over verdict outcome (happened t')) t' := by
    intro a s t' ha ht'
    split
    next hretried =>
      show Over verdict .failed (happened t')
      rw [ht']
      exact hg.over_answer (fun _ => hretried) (by simp) (by simp)
    next hfirst =>
      rw [Bool.not_eq_true] at hfirst
      subst hfirst
      refine (hrec.sleep s t').bind fun _ s' t'' ht'' => ?_
      apply sat_loop hrec renewed true
      rw [ht'', ht']
      exact hg.retry ha
  unfold loop
  refine (hrec.token renewed s t).bind fun access s1 t1 ht1 => ?_
  cases access with
  | none =>
    show Over verdict .failed (happened t1)
    rw [ht1]
    exact hg.isOver (by simp) (by simp)
  | some access =>
    have hroom : (answers (happened t1)).length < 3 := by
      rw [ht1]
      exact Nat.lt_succ_of_le hg.length_answers
    refine (hrec.post access s1 t1 hroom).bind fun answer s2 t2 ht2 => ?_
    rw [ht1] at ht2
    cases answer with
    | none => exact hretry (a := none) (by simp [Fails]) ht2
    | some a =>
      have hover : ∀ {outcome : Routes.Push.Outcome}, verdict a ≠ .retry
          → (outcome = .sent → ∃ b, some a = some b ∧ verdict b = .sent)
          → (outcome = .tokenInvalid → ∃ b, some a = some b ∧ verdict b = .unregistered)
          → Over verdict outcome (happened t2) := by
        intro outcome hlast hsent htoken
        rw [ht2]
        exact hg.over_answer (fun hfails => absurd (hfails a rfl) hlast) hsent htoken
      dsimp only
      split
      next hverdict => exact hover (by simp [hverdict]) (fun _ => ⟨a, rfl, hverdict⟩) (by simp)
      next hverdict => exact hover (by simp [hverdict]) (by simp) fun _ => ⟨a, rfl, hverdict⟩
      next hverdict =>
        split
        . exact hover (by simp [hverdict]) (by simp) (by simp)
        next hfirst =>
          rw [Bool.not_eq_true] at hfirst
          subst hfirst
          apply sat_loop hrec true retried
          rw [ht2]
          exact hg.renew (by rw [RefusesToken, Option.map_some, hverdict])
      next hverdict =>
        refine hretry (fun b hb => ?_) ht2
        cases hb
        exact hverdict
      next hverdict => exact hover (by simp [hverdict]) (by simp) (by simp)
termination_by renewed.not.toNat + retried.not.toNat
decreasing_by
  . simp [Bool.eq_false_iff.mpr ‹¬ retried = true›]
  . simp [Bool.eq_false_iff.mpr ‹¬ renewed = true›]

end HandLiveRelay.Attempt

namespace HandLiveRelay.Apns

open Fiber Attempt

/-!
The loop of APNs.
-/

/--
What to do with an answer, whose reason is not read when the request was accepted.
-/
def judge (answer : UInt16 × Option String) : Verdict :=
  verdict answer.1 (if answer.1 = 200 then none else answer.2)

def token (renew : Bool) : Code Unit ApnsOp ApnsOp.Res (Option String) :=
  Code.perform (ApnsOp.token renew)

def sendPost (post : Post) : Code Unit ApnsOp ApnsOp.Res (Option (UInt16 × Option String)) :=
  Code.perform (ApnsOp.post post)

def pause : Code Unit ApnsOp ApnsOp.Res Unit :=
  Code.perform (ApnsOp.sleep retryDelayMs)

theorem attempt_eq_loop (post : String → Post) (renewed retried : Bool)
    : attempt post renewed retried
      = loop token (fun jwt => sendPost (post jwt)) pause judge renewed retried := by
  have hretry : (if retried then pure .failed
        else Code.perform (.sleep retryDelayMs) >>= fun _ => attempt post renewed true : ApnsCode)
      = if retried then pure .failed
        else pause >>= fun _ => loop token (fun jwt => sendPost (post jwt)) pause judge renewed true := by
    split
    . rfl
    . rw [attempt_eq_loop post renewed true]
      rfl
  unfold attempt loop
  refine congrArg (token renewed >>= ·) (funext fun access => ?_)
  cases access with
  | none => rfl
  | some jwt =>
    refine congrArg (sendPost (post jwt) >>= ·) (funext fun answer => ?_)
    cases answer with
    | none => exact hretry
    | some answer =>
      show (match judge answer with
        | .sent => pure .sent
        | .unregistered => pure .tokenInvalid
        | .renewToken => if renewed then pure .failed else attempt post true retried
        | .retry => _
        | .reject => pure .failed : ApnsCode) = _
      rw [hretry]
      dsimp only
      split
      . rfl
      . rfl
      . split
        . rfl
        . exact attempt_eq_loop post true retried
      . rfl
      . rfl
termination_by renewed.not.toNat + retried.not.toNat
decreasing_by all_goals simp_all

/--
What the operations of an attempt tell.
-/
def happened? : Performed Unit ApnsOp ApnsOp.Res → Option (Happened (UInt16 × Option String))
  | ⟨_, .token renew, _⟩ => some (.token renew)
  | ⟨_, .post _, answer⟩ => some (.answer answer)
  | _ => none

abbrev ApnsTrace := Trace Unit ApnsOp ApnsOp.Res

def happened (t : ApnsTrace) : List (Happened (UInt16 × Option String)) :=
  t.filterMap happened?

/--
A request is sent only if fewer than three were sent before.
-/
def Sparing : Contract Unit ApnsOp ApnsOp.Res
  | _, t, .post _ => (answers (happened t)).length < 3
  | _, _, _ => True

theorem recorded (post : String → Post)
    : Recorded Sparing happened token (fun jwt => sendPost (post jwt)) pause where
  token _ _ _ := ⟨trivial, fun _ => rfl⟩
  post _ _ _ hroom := ⟨hroom, fun _ => rfl⟩
  sleep _ _ := ⟨trivial, fun _ => rfl⟩

theorem sat_send (client : ApnsClient) (alert : Alert)
    : ((send client alert).start ()).Sat Sparing
        (fun outcome _ t => Over judge outcome (happened t)) [] := by
  have hnothing : ∀ {outcome : Routes.Push.Outcome}, outcome ≠ .sent → outcome ≠ .tokenInvalid
      → Over judge outcome [] := by
    intro outcome hsent htoken
    refine ⟨Nat.zero_le _, ?_, fun h => absurd h hsent, fun h => absurd h htoken⟩
    simp [FailsAfterRenewal]
  unfold send
  split
  . exact hnothing (by simp) (by simp)
  next body _ =>
    split
    . exact hnothing (by simp) (by simp)
    . refine ⟨trivial, fun (now : Nat) => ?_⟩
      show ((attempt (request alert (url client alert) body (now + alert.ttlS)) false false).start
        ()).Sat _ _ _
      rw [attempt_eq_loop]
      exact sat_loop (recorded _) false false .start

theorem status_of_judge_sent {answer : UInt16 × Option String} (h : judge answer = .sent)
    : answer.1 = 200 := by
  unfold judge verdict at h
  split at h
  . assumption
  . split at h
    . cases h
    . split at h
      . cases h
      . split at h <;> cases h

end HandLiveRelay.Apns
