import HandLiveRelay.Limits.Keys

/-!
This module contains the quotas per minute. The clock is read twice for each call, for the key of
the counter and for the decision, and the counter is incremented later still. A counter outlives the
increments that can reach it, so it is exact, and the seconds a refused call is told to wait lead
into a later minute than the one that was counted.
-/

namespace HandLiveRelay.Limits

open Ttl Sample

def minuteMs : Int := 60000

def rateLimitTtlSecs : Nat := 120

def authPerIpPerMinute : Nat := 30

def challengesPerDeviceIpPerMinute : Nat := 10

/--
The minute of a time, which the keys of the counters end with.
-/
def minuteWindow (nowMs : Int) : Int :=
  nowMs / minuteMs

/--
Decide about a call that made the counter reach `count`.
-/
def rateLimitDecision (count limit : Nat) (nowMs : Int) : Except ApiError Unit :=
  if count ≤ limit then
    .ok ()
  else
    let intoMinuteMs := (nowMs % minuteMs).toNat
    .error (.rateLimited (max ((60000 - intoMinuteMs + 999) / 1000) 1))

/--
`INCR` and `EXPIRE`, with the new value of the counter.
-/
def incrWindow (ks : Counters) (atMs : Int) (key : String) : Counters × Nat :=
  (count ks atMs key rateLimitTtlSecs, used ks atMs key + 1)

/--
When a call does what: the clock when its key is built and when it is counted, and the time the
counter is incremented at, unless Redis cannot be reached.
-/
structure Timing where
  keyMs : Int
  nowMs : Int
  atMs : Int
  reached : Bool

def countMinute (ks : Counters) (key : String) (limit : Nat) (t : Timing)
    : Counters × Except ApiError Unit :=
  if !t.reached then
    (ks, .error .internal)
  else
    let (ks, count) := incrWindow ks t.atMs key
    (ks, rateLimitDecision count limit t.nowMs)

/--
Count one call of a device in a group.
-/
def checkDevice (ks : Counters) (deviceId : Uuid) (group : Group) (limit : Nat) (t : Timing)
    : Counters × Except ApiError Unit :=
  countMinute ks (rateLimitKey deviceId group (minuteWindow t.keyMs)) limit t

variable (std : StdNet)

/--
Count one call to `/v1/auth/challenge` or `/v1/auth/token`, if the address is known.
-/
def checkAuthIp (ks : Counters) (ip : Option IpAddr) (t : Timing)
    : Counters × Except ApiError Unit :=
  match ip with
  | none => (ks, .ok ())
  | some ip => countMinute ks (authIpKey std ip (minuteWindow t.keyMs)) authPerIpPerMinute t

/--
Count one challenge for a device and an address.
-/
def checkChallengeQuota (ks : Counters) (deviceId : Uuid) (ip : Option IpAddr) (t : Timing)
    : Counters × Except ApiError Unit :=
  countMinute ks (challengeQuotaKey std deviceId ip (minuteWindow t.keyMs))
    challengesPerDeviceIpPerMinute t

/--
A call that is counted: by one of the counters, against a limit.
-/
structure MinuteCall extends Timing where
  counter : Counter
  limit : Nat

namespace MinuteCall

/--
The key of the call, which ends with the minute of the first reading of the clock.
-/
def key (call : MinuteCall) : String :=
  call.counter.key std (minuteWindow call.keyMs)

def check (ks : Counters) (call : MinuteCall) : Counters × Except ApiError Unit :=
  countMinute ks (call.key std) call.limit call.toTiming

/--
The counter is incremented less than a minute after the key was built, and the clock does not go
back in between.
-/
structure Prompt (call : MinuteCall) : Prop where
  readings : call.keyMs ≤ call.nowMs
  later : call.nowMs ≤ call.atMs
  soon : call.atMs < call.keyMs + 60000

end MinuteCall

/-!
The calls of the three checks are such calls.
-/

theorem checkDevice_eq (ks : Counters) (deviceId : Uuid) (group : Group) (limit : Nat) (t : Timing)
    : checkDevice ks deviceId group limit t
        = MinuteCall.check std ks { t with counter := .rate deviceId group, limit } :=
  rfl

theorem checkAuthIp_eq (ks : Counters) (ip : IpAddr) (t : Timing)
    : checkAuthIp std ks (some ip) t
        = MinuteCall.check std ks { t with counter := .authIp ip, limit := authPerIpPerMinute } :=
  rfl

theorem checkChallengeQuota_eq (ks : Counters) (deviceId : Uuid) (ip : Option IpAddr) (t : Timing)
    : checkChallengeQuota std ks deviceId ip t
        = MinuteCall.check std ks {
            t with
            counter := .challengeQuota deviceId ip
            limit := challengesPerDeviceIpPerMinute
          } :=
  rfl

/--
Redis carries out the increments one after the other.
-/
def CapState.countStep (s : CapState) (call : MinuteCall) : Option CapState :=
  if s.time ≤ call.atMs then
    some { counters := (call.check std s.counters).1, time := call.atMs }
  else
    none

/--
The increments of a key among some calls.
-/
def increments (key : String) (calls : List MinuteCall) : Nat :=
  calls.countP (fun call => call.reached && call.key std == key)

/-!
The time to wait.
-/

/--
A refused call is told to wait until the next minute, in whole seconds.
-/
theorem rateLimitDecision_of_lt {count limit : Nat} (h : limit < count) (nowMs : Int)
    : ∃ r, rateLimitDecision count limit nowMs = .error (.rateLimited r) ∧ 1 ≤ r ∧ r ≤ 60
      ∧ ∀ r' : Nat, minuteWindow nowMs < minuteWindow (nowMs + 1000 * r') ↔ r ≤ r' := by
  unfold rateLimitDecision minuteWindow minuteMs
  rw [if_neg (by omega)]
  refine ⟨_, rfl, by omega, by omega, ?_⟩
  intro r'
  constructor <;> omega

theorem minuteWindow_mono {t t' : Int} (h : t ≤ t') : minuteWindow t ≤ minuteWindow t' :=
  Int.ediv_le_ediv (by decide) h

/-!
The counters.
-/

variable {std : StdNet} {s s' : CapState} {call : MinuteCall}

theorem check_of_not_reached (h : call.reached = false) (ks : Counters)
    : call.check std ks = (ks, .error .internal) := by
  simp [MinuteCall.check, countMinute, h]

theorem check_of_reached (h : call.reached = true) (ks : Counters)
    : call.check std ks = (count ks call.atMs (call.key std) rateLimitTtlSecs,
        rateLimitDecision (used ks call.atMs (call.key std) + 1) call.limit call.nowMs) := by
  simp [MinuteCall.check, countMinute, incrWindow, h]

/--
The last time at which a counter of the minute can be incremented is before this one.
-/
def windowStop (window : Int) : Int :=
  (window + 2) * minuteMs

theorem MinuteCall.Prompt.atMs_lt (h : call.Prompt)
    : call.atMs < windowStop (minuteWindow call.keyMs) := by
  have := h.soon
  unfold windowStop minuteWindow minuteMs
  omega

theorem MinuteCall.Prompt.windowStop_le (h : call.Prompt)
    : windowStop (minuteWindow call.keyMs) ≤ call.atMs + rateLimitTtlSecs * 1000 := by
  have := h.readings
  have := h.later
  unfold windowStop minuteWindow minuteMs rateLimitTtlSecs
  omega

/--
Every counter reads the number of its increments for as long as calls can reach it.
-/
def Exact (std : StdNet) (calls : List MinuteCall) (s : CapState) : Prop :=
  ∀ (c : Counter) (window : Int), Reads s.counters (windowStop window) (c.key std window)
    (increments std (c.key std window) calls)

theorem increments_concat (key : String) (calls : List MinuteCall) (call : MinuteCall)
    : increments std key (calls ++ [call]) = increments std key calls
        + if call.reached && call.key std == key then 1 else 0 := by
  simp [increments, List.countP_append, List.countP_singleton]

theorem Exact.used_eq {calls : List MinuteCall} (h : Exact std calls s) (hprompt : call.Prompt)
    : used s.counters call.atMs (call.key std) = increments std (call.key std) calls :=
  (h call.counter (minuteWindow call.keyMs)).used_eq hprompt.atMs_lt

theorem Exact.step {calls : List MinuteCall} (h : Exact std calls s) (hprompt : call.Prompt)
    (hstep : s.countStep std call = some s') : Exact std (calls ++ [call]) s' := by
  unfold CapState.countStep at hstep
  split at hstep
  . cases hstep
    intro c window
    rw [increments_concat]
    dsimp only
    cases hreached : call.reached with
    | false =>
      rw [check_of_not_reached hreached]
      exact h c window
    | true =>
      rw [check_of_reached hreached]
      by_cases hkey : call.key std = c.key std window
      . -- the key names the minute, so the counter is incremented in time
        have hwindow : minuteWindow call.keyMs = window := (Counter.key_inj hkey).2.2
        refine .inr ⟨call.atMs + rateLimitTtlSecs * 1000, hwindow ▸ hprompt.windowStop_le, ?_⟩
        dsimp only
        rw [← hkey, count_self, h.used_eq hprompt]
        simp
      . have hne : c.key std window ≠ call.key std := Ne.symm hkey
        have hreads := (h c window).congr
          (count_of_ne s.counters call.atMs rateLimitTtlSecs hne)
        simpa [hkey] using hreads
  . cases hstep

theorem Exact.run {calls calls' : List MinuteCall} (h : Exact std calls s)
    (hprompt : ∀ call ∈ calls', call.Prompt)
    (hrun : Lts.run (CapState.countStep std) s calls' = some s') : Exact std (calls ++ calls') s' := by
  induction calls' generalizing s calls with
  | nil =>
    cases hrun
    rw [List.append_nil]
    exact h
  | cons call calls' ih =>
    have ⟨s1, hstep, hrun⟩ := (Lts.run_cons_eq_some _).mp hrun
    have hnext := h.step (hprompt call List.mem_cons_self) hstep
    have hrest := ih hnext (fun c hc => hprompt c (List.mem_cons_of_mem call hc)) hrun
    rw [List.append_assoc] at hrest
    exact hrest

/--
Start without counters. After any calls, a further call that reaches Redis passes exactly if fewer
increments of its counter in its minute than the limit came before. A call that does not pass is
told to wait the least number of seconds, from 1 to 60, that leads out of the minute of the
decision, and so out of the minute that was counted.
-/
theorem minute_quotas_are_exact (std : StdNet) (calls : List MinuteCall) (call : MinuteCall)
    (s0 s : CapState) (hfresh : s0.counters = .empty) (hprompt : ∀ c ∈ calls ++ [call], c.Prompt)
    (hrun : Lts.run (CapState.countStep std) s0 calls = some s) (hreached : call.reached = true)
    : (increments std (call.key std) calls < call.limit
        → (call.check std s.counters).2 = .ok ())
      ∧ (call.limit ≤ increments std (call.key std) calls
        → ∃ r, (call.check std s.counters).2 = .error (.rateLimited r) ∧ 1 ≤ r ∧ r ≤ 60
          ∧ (∀ r' : Nat, minuteWindow call.nowMs < minuteWindow (call.nowMs + 1000 * r') ↔ r ≤ r')
          ∧ minuteWindow call.keyMs < minuteWindow (call.nowMs + 1000 * r)) := by
  have hempty : Exact std [] s0 := by
    intro c window
    refine .inl ⟨rfl, ?_⟩
    rw [hfresh]
    rfl
  have hexact := hempty.run (fun c hc => hprompt c (List.mem_append_left _ hc)) hrun
  rw [List.nil_append] at hexact
  have hcall := hprompt call (by simp)
  rw [check_of_reached hreached, hexact.used_eq hcall]
  dsimp only
  constructor
  . intro h
    exact if_pos h
  . intro h
    have ⟨r, hr, hlo, hhi, hleast⟩ :=
      rateLimitDecision_of_lt (Nat.lt_add_one_of_le h) call.nowMs
    refine ⟨r, hr, hlo, hhi, hleast, ?_⟩
    exact Int.lt_of_le_of_lt (minuteWindow_mono hcall.readings) ((hleast r).mpr le_rfl)

namespace Sample

/--
A call of the device `0` in the first minute, against a limit of one.
-/
def minuteCall (keyMs nowMs atMs : Int) : MinuteCall where
  counter := .rate (.replicate 16 0) .rest
  limit := 1
  keyMs := keyMs
  nowMs := nowMs
  atMs := atMs
  reached := true

end Sample

/--
The second of two calls in a minute is refused. It is counted in the minute although the decision
falls into the next one, and waits for the one after that.
-/
theorem second_call_of_a_minute_is_refused
    : ∃ s, Lts.run (CapState.countStep net) { counters := .empty, time := 0 }
          [minuteCall 100 100 200] = some s
        ∧ ∃ r, ((minuteCall 59999 60000 60500).check net s.counters).2 = .error (.rateLimited r)
          ∧ 1 ≤ r ∧ r ≤ 60 ∧ 0 < minuteWindow (60000 + 1000 * r) := by
  have hprompt : ∀ c ∈ [minuteCall 100 100 200] ++ [minuteCall 59999 60000 60500], c.Prompt := by
    intro c hc
    rcases List.mem_pair.mp hc with hc | hc <;> rw [hc] <;> constructor <;> decide
  refine ⟨_, rfl, ?_⟩
  have hquota := minute_quotas_are_exact net [minuteCall 100 100 200] (minuteCall 59999 60000 60500)
    { counters := .empty, time := 0 } _ rfl hprompt rfl rfl
  have ⟨r, hr, hlo, hhi, _, hwindow⟩ := hquota.2 (by decide +kernel)
  exact ⟨r, hr, hlo, hhi, hwindow⟩

end HandLiveRelay.Limits
