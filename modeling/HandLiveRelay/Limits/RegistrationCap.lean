import HandLiveRelay.Lib.Lts
import HandLiveRelay.Lib.Ttl
import HandLiveRelay.Limits.RequestIp

/-!
This module contains the hourly limits on new registrations: one counter for the whole relay and
one per client, which one script checks and increments. A counter is exact for as long as its hour
lasts, so the limits hold over every sequence of calls.
-/

namespace HandLiveRelay.Limits

open Ttl Sample

def hourMs : Int := 3600000

def hourWindowTtlSecs : Nat := 3600

abbrev Counters := Keyspace String Nat

/--
`tonumber(redis.call('GET', key) or '0')`, before it is a double.
-/
def used (ks : Counters) (now : Int) (key : String) : Nat :=
  (ks.get? now key).getD 0

/--
`INCR` and `EXPIRE`
-/
def count (ks : Counters) (now : Int) (key : String) (ttlSecs : Nat) : Counters :=
  (ks.modify now key (·.getD 0 + 1)).expire now key (ttlSecs * 1000)

/--
The numbers of Lua are doubles: a number beyond 53 bits becomes the nearest multiple of its unit in
the last place, and of two the even one.
-/
def tonumber (n : Nat) : Nat :=
  if n ≤ 2 ^ 53 then
    n
  else
    let ulp := 2 ^ (n.log2 - 52)
    let rest := n % ulp
    if 2 * rest < ulp ∨ 2 * rest = ulp ∧ n / ulp % 2 = 0 then n - rest else n - rest + ulp

/--
Take one registration if each key has room for one more. The limit of a key is the argument at its
position, the third argument is the time to live. Returns 0 when taken, 1 when a limit is used up.
-/
def registrationScript (ks : Counters) (now : Int) (keys : List String) (argv : List Nat)
    : Counters × Nat :=
  if (keys.zip argv).any (fun (key, limit) => tonumber (used ks now key) ≥ tonumber limit) then
    (ks, 1)
  else
    (keys.foldl (fun ks key => count ks now key (argv.getD 2 0)) ks, 0)

section

variable (std : StdNet)

/--
What a limit per client counts: the IPv4 address, or the /64 of an IPv6 address.
-/
def ipBucket (ip : IpAddr) : String :=
  match ip.toCanonical with
  | .v4 octets => std.display (.v4 octets)
  | .v6 octets => std.display (.v6 ⟨octets.toList.take 8 ++ List.replicate 8 0, by simp⟩) ++ "/64"

def bucketKey (bucket : String) (hour : Int) : String :=
  "rl:ip:" ++ bucket ++ ":reg:" ++ String.ofList (Decimal.encodeInt hour)

/--
`rl:ip:<ip>:reg:<hour>`
-/
def registrationKey (ip : IpAddr) (hour : Int) : String :=
  bucketKey (ipBucket std ip) hour

/--
`rl:reg:<hour>`
-/
def globalRegistrationKey (hour : Int) : String :=
  "rl:reg:" ++ String.ofList (Decimal.encodeInt hour)

/--
The configured limits.
-/
structure Caps where
  perIpLimit : Nat
  globalLimit : Nat

/--
So that a limit is exact as a double.
-/
def clamp (n : Nat) : Nat := min n (2 ^ 53)

/--
A call: the clock when it begins, the client, if its address is known, and the time the script runs
at, unless Redis cannot be reached.
-/
structure Call where
  nowMs : Int
  ip : Option IpAddr
  atMs : Int
  reached : Bool

variable (caps : Caps)

/--
Count one new registration, unless the hour's limits are used up.
-/
def checkRegistration (ks : Counters) (call : Call) : Counters × Except ApiError Unit :=
  let hour := call.nowMs / hourMs
  let keys := globalRegistrationKey hour :: (call.ip.map (registrationKey std · hour)).toList
  let argv := [clamp caps.globalLimit, clamp caps.perIpLimit, hourWindowTtlSecs]
  if !call.reached then
    (ks, .error .internal)
  else
    match registrationScript ks call.atMs keys argv with
    | (ks, 0) => (ks, .ok ())
    | (ks, _) =>
      let intoHourMs := (call.nowMs % hourMs).toNat
      (ks, .error (.rateLimited (max ((hourMs.toNat - intoHourMs + 999) / 1000) 1)))

/--
Redis between two calls: the counters, and the time of the last script.
-/
structure CapState where
  counters : Counters
  time : Int

/--
Calls begin before their script runs, and the scripts run one after the other.
-/
def CapState.step (s : CapState) (call : Call) : Option CapState :=
  if s.time ≤ call.atMs ∧ call.nowMs ≤ call.atMs then
    some { counters := (checkRegistration std caps s.counters call).1, time := call.atMs }
  else
    none

/--
The bucket an accepted call counts for, `none` inside if its address is unknown.
-/
def CapState.accepted (s : CapState) (call : Call) : Option (Option String) :=
  match (checkRegistration std caps s.counters call).2 with
  | .ok () => some (call.ip.map (ipBucket std))
  | .error _ => none

end

def hourEnd (hour : Int) : Int := (hour + 1) * hourMs

/--
The call begins within the hour and its script runs within it.
-/
def Call.InHour (call : Call) (hour : Int) : Prop :=
  hour * hourMs ≤ call.nowMs ∧ call.nowMs ≤ call.atMs ∧ call.atMs < hourEnd hour

/--
The keys of the counters of an hour.
-/
def IsCounter (hour : Int) (key : String) : Prop :=
  key = globalRegistrationKey hour ∨ ∃ bucket, key = bucketKey bucket hour

/-!
Keys.
-/

theorem bucketKey_injective {hour : Int} {b b' : String} (h : bucketKey b hour = bucketKey b' hour)
    : b = b' := by
  unfold bucketKey at h
  simp only [← String.toList_inj, String.toList_append] at h
  have h := List.append_cancel_right h
  have h := List.append_cancel_right h
  have h := List.append_cancel_left h
  exact String.toList_inj.mp h

theorem bucketKey_ne_global (b : String) (hour hour' : Int)
    : bucketKey b hour ≠ globalRegistrationKey hour' := by
  intro h
  unfold bucketKey globalRegistrationKey at h
  have hchar := congrArg (fun s => s.toList[3]?) h
  simp [String.toList_append] at hchar

/-!
The script.
-/

theorem tonumber_of_le {n : Nat} (h : n ≤ 2 ^ 53) : tonumber n = n :=
  if_pos h

theorem clamp_le (n : Nat) : clamp n ≤ 2 ^ 53 :=
  Nat.min_le_right n (2 ^ 53)

theorem count_self (ks : Counters) (now : Int) (key : String) (ttlSecs : Nat)
    : count ks now key ttlSecs key
      = some { value := used ks now key + 1, expiresAt := some (now + ttlSecs * 1000) } :=
  Keyspace.expire_modify_self ks now key _ _

theorem count_of_ne (ks : Counters) (now : Int) {key key' : String} (ttlSecs : Nat)
    (h : key' ≠ key) : count ks now key ttlSecs key' = ks key' := by
  unfold count
  rw [Keyspace.expire_of_ne _ _ _ h, Keyspace.modify_of_ne _ _ _ h]

theorem used_congr {ks ks' : Counters} {key : String} (now : Int) (h : ks' key = ks key)
    : used ks' now key = used ks now key := by
  unfold used Keyspace.get? Keyspace.live
  rw [h]

/--
The counter of the key reads `n` until the time `stop`.
-/
def Reads (ks : Counters) (stop : Int) (key : String) (n : Nat) : Prop :=
  (n = 0 ∧ ks key = none)
    ∨ ∃ expiry, stop ≤ expiry ∧ ks key = some { value := n, expiresAt := some expiry }

namespace Reads

variable {ks ks' : Counters} {stop now : Int} {key : String} {n : Nat}

theorem used_eq (h : Reads ks stop key n) (hnow : now < stop) : used ks now key = n := by
  unfold used Keyspace.get?
  cases h with
  | inl h => simp [Keyspace.live, h]
  | inr h =>
    have ⟨expiry, hexpiry, h⟩ := h
    have hlive : now < expiry := by omega
    rw [Keyspace.live_eq_some.mpr ⟨h, by simpa using hlive⟩]
    rfl

theorem isSome_live (h : Reads ks stop key n) (hsome : (ks key).isSome) (hnow : now < stop)
    : (ks.live now key).isSome := by
  cases h with
  | inl h => simp [h.2] at hsome
  | inr h =>
    have ⟨expiry, hexpiry, h⟩ := h
    have hlive : now < expiry := by omega
    simp [Keyspace.live, h, hlive]

theorem congr (h : Reads ks stop key n) (heq : ks' key = ks key) : Reads ks' stop key n := by
  unfold Reads
  rw [heq]
  exact h

end Reads

/-!
The calls of one hour. `acc` are the buckets of the calls that were accepted, in order.
-/

/--
The counters are the numbers of accepted calls, and within the limits.
-/
structure Counted (caps : Caps) (hour : Int) (acc : List (Option String)) (s : CapState)
    : Prop where
  relay : Reads s.counters (hourEnd hour) (globalRegistrationKey hour) acc.length
  bucket : ∀ b, Reads s.counters (hourEnd hour) (bucketKey b hour) (acc.count (some b))
  relay_le : acc.length ≤ clamp caps.globalLimit
  bucket_le : ∀ b, acc.count (some b) ≤ clamp caps.perIpLimit

section

variable {std : StdNet} {caps : Caps} {hour : Int} {acc : List (Option String)} {s s' : CapState}
  {call : Call}

theorem hour_eq (h : call.InHour hour) : call.nowMs / hourMs = hour := by
  have ⟨hlo, hle, hhi⟩ := h
  unfold hourEnd at hhi
  unfold hourMs at *
  omega

/--
The ways a call ends: without an answer or refused, with every counter as it was, or taken with its
counters incremented and alive beyond the end of the hour.
-/
inductive Checked (std : StdNet) (caps : Caps) (hour : Int) (ks : Counters) (call : Call)
    : Counters × Except ApiError Unit → Prop where
  | failed (hreached : call.reached = false) : Checked std caps hour ks call (ks, .error .internal)
  | refused {secs : Nat} (hreached : call.reached = true)
      (h : clamp caps.globalLimit ≤ used ks call.atMs (globalRegistrationKey hour)
        ∨ ∃ ip, call.ip = some ip
          ∧ clamp caps.perIpLimit ≤ used ks call.atMs (registrationKey std ip hour))
      : Checked std caps hour ks call (ks, .error (.rateLimited secs))
  | taken {ks' : Counters} (hreached : call.reached = true)
      (hglobal : used ks call.atMs (globalRegistrationKey hour) < clamp caps.globalLimit)
      (hbucket : ∀ ip, call.ip = some ip →
        used ks call.atMs (registrationKey std ip hour) < clamp caps.perIpLimit)
      (hself : ∀ key, key = globalRegistrationKey hour
          ∨ (∃ ip, call.ip = some ip ∧ key = registrationKey std ip hour) →
        ks' key = some {
          value := used ks call.atMs key + 1
          expiresAt := some (call.atMs + hourWindowTtlSecs * 1000)
        })
      (hother : ∀ key, key ≠ globalRegistrationKey hour →
        (∀ ip, call.ip = some ip → key ≠ registrationKey std ip hour) → ks' key = ks key)
      : Checked std caps hour ks call (ks', .ok ())

theorem checked_of_inHour {ks : Counters} (hhour : call.InHour hour)
    (hglobal : used ks call.atMs (globalRegistrationKey hour) ≤ 2 ^ 53)
    (hbucket : ∀ ip, used ks call.atMs (registrationKey std ip hour) ≤ 2 ^ 53)
    : Checked std caps hour ks call (checkRegistration std caps ks call) := by
  unfold checkRegistration registrationScript
  rw [hour_eq hhour]
  dsimp only
  cases hreached : call.reached with
  | false => exact .failed hreached
  | true =>
  rw [Bool.not_true, if_neg Bool.false_ne_true]
  cases hip : call.ip with
  | none =>
    simp only [Option.map_none, Option.toList_none, List.zip_cons_cons, List.zip_nil_left,
      List.any_cons, List.any_nil, Bool.or_false, tonumber_of_le hglobal,
      tonumber_of_le (clamp_le _), ge_iff_le, decide_eq_true_eq, List.foldl_cons, List.foldl_nil]
    split
    . next ks' heq =>
      split at heq
      . cases heq
      . next hlt =>
        cases heq
        refine .taken hreached (by omega) (by simp [hip]) ?_ ?_
        . intro key hkey
          have hkey : key = globalRegistrationKey hour := by simpa [hip] using hkey
          rw [hkey]
          exact count_self _ _ _ _
        . intro key hne _
          exact count_of_ne _ _ _ hne
    . next ks' r hr heq =>
      split at heq
      . next hle =>
        cases heq
        exact .refused hreached (.inl hle)
      . cases heq
        contradiction
  | some ip =>
    have hne : registrationKey std ip hour ≠ globalRegistrationKey hour :=
      bucketKey_ne_global _ _ _
    simp only [Option.map_some, Option.toList_some, List.zip_cons_cons, List.zip_nil_left,
      List.any_cons, List.any_nil, Bool.or_false, tonumber_of_le hglobal, tonumber_of_le (hbucket ip),
      tonumber_of_le (clamp_le _), ge_iff_le, Bool.or_eq_true, decide_eq_true_eq, List.foldl_cons,
      List.foldl_nil]
    split
    . next ks' heq =>
      split at heq
      . cases heq
      . next hlt =>
        rw [not_or] at hlt
        cases heq
        refine .taken hreached (by omega) ?_ ?_ ?_
        . intro ip' hip'
          rw [hip] at hip'
          cases hip'
          omega
        . intro key hkey
          cases hkey with
          | inl hkey =>
            rw [hkey, count_of_ne _ _ _ hne.symm]
            exact count_self _ _ _ _
          | inr hkey =>
            have ⟨ip', hip', hkey⟩ := hkey
            rw [hip] at hip'
            cases hip'
            rw [hkey, count_self, used_congr _ (count_of_ne _ _ _ hne)]
            rfl
        . intro key hglobal hbucket
          rw [count_of_ne _ _ _ (hbucket ip hip), count_of_ne _ _ _ hglobal]
    . next ks' r hr heq =>
      split at heq
      . next hle =>
        cases heq
        refine .refused hreached ?_
        cases hle with
        | inl hle => exact .inl hle
        | inr hle => exact .inr ⟨ip, hip, hle⟩
      . cases heq
        contradiction

theorem Counted.checked (std : StdNet) (h : Counted caps hour acc s) (hhour : call.InHour hour)
    : Checked std caps hour s.counters call (checkRegistration std caps s.counters call) := by
  apply checked_of_inHour hhour
  . rw [h.relay.used_eq hhour.2.2]
    exact h.relay_le.trans (clamp_le _)
  . intro ip
    unfold registrationKey
    rw [(h.bucket _).used_eq hhour.2.2]
    exact (h.bucket_le _).trans (clamp_le _)

/--
A counter that was incremented reads one more, for as long as the hour lasts.
-/
theorem reads_succ {ks' : Counters} {key : String} {n : Nat} (hhour : call.InHour hour)
    (h : Reads s.counters (hourEnd hour) key n)
    (hkey : ks' key = some {
      value := used s.counters call.atMs key + 1
      expiresAt := some (call.atMs + hourWindowTtlSecs * 1000)
    })
    : Reads ks' (hourEnd hour) key (n + 1) := by
  have ⟨hlo, hle, hhi⟩ := hhour
  refine .inr ⟨call.atMs + hourWindowTtlSecs * 1000, ?_, ?_⟩
  . unfold hourEnd hourMs hourWindowTtlSecs at *
    omega
  . rw [hkey, h.used_eq hhi]

theorem Counted.step (h : Counted caps hour acc s) (hhour : call.InHour hour)
    (hstep : s.step std caps call = some s')
    : Counted caps hour (acc ++ (s.accepted std caps call).toList) s' := by
  unfold CapState.step at hstep
  split at hstep
  . cases hstep
    have hchecked := h.checked std hhour
    unfold CapState.accepted
    generalize checkRegistration std caps s.counters call = r at hchecked
    cases hchecked with
    | failed | refused =>
      dsimp only [Option.toList_none]
      rw [List.append_nil]
      exact ⟨h.relay, h.bucket, h.relay_le, h.bucket_le⟩
    | taken _ hglobal hbucket hself hother =>
      have hlt := hhour.2.2
      rw [h.relay.used_eq hlt] at hglobal
      dsimp only [Option.toList_some]
      have hcount : ∀ b, (acc ++ [call.ip.map (ipBucket std)]).count (some b)
          = acc.count (some b) + if call.ip.map (ipBucket std) = some b then 1 else 0 := by
        intro b
        rw [List.count_append, List.count_singleton]
        simp
      refine ⟨?_, ?_, ?_, ?_⟩
      . rw [List.length_append]
        exact reads_succ hhour h.relay (hself _ (.inl rfl))
      . intro b
        rw [hcount]
        split
        . next hb =>
          have ⟨ip, hip, hb⟩ := Option.map_eq_some_iff.mp hb
          exact reads_succ hhour (h.bucket b) (hself _ (.inr ⟨ip, hip, by rw [← hb]; rfl⟩))
        . next hb =>
          apply (h.bucket b).congr
          apply hother _ (bucketKey_ne_global b hour hour)
          intro ip hip heq
          apply hb
          rw [hip, Option.map_some, bucketKey_injective heq]
      . rw [List.length_append]
        exact hglobal
      . intro b
        rw [hcount]
        split
        . next hb =>
          have ⟨ip, hip, hb⟩ := Option.map_eq_some_iff.mp hb
          have hroom := hbucket ip hip
          unfold registrationKey at hroom
          rw [hb, (h.bucket b).used_eq hlt] at hroom
          exact hroom
        . exact h.bucket_le b
  . cases hstep

theorem Counted.run (h : Counted caps hour acc s) {calls : List Call}
    (hcalls : ∀ call ∈ calls, call.InHour hour)
    (hrun : Lts.run (CapState.step std caps) s calls = some s')
    : Counted caps hour (acc ++ Lts.record (CapState.step std caps) (CapState.accepted std caps) s calls)
        s' :=
  Lts.run_record_of_meets (C := fun _ call => Call.InHour call hour)
    (fun _ _ _ _ h hhour hstep => h.step hhour hstep) h (Lts.meets_of_forall hcalls) hrun

theorem counted_nil (caps : Caps) {s : CapState} (h : ∀ key, IsCounter hour key → s.counters key = none)
    : Counted caps hour [] s where
  relay := .inl ⟨rfl, h _ (.inl rfl)⟩
  bucket := fun b => .inl ⟨rfl, h _ (.inr ⟨b, rfl⟩)⟩
  relay_le := Nat.zero_le _
  bucket_le := fun _ => Nat.zero_le _

/--
Each accepted call is of one bucket or of none.
-/
theorem length_eq_sum_count {S : Finset String} {acc : List (Option String)}
    (h : ∀ b, some b ∈ acc → b ∈ S)
    : acc.length = (∑ b ∈ S, acc.count (some b)) + acc.count none := by
  induction acc with
  | nil => simp
  | cons o acc ih =>
    have ih := ih fun b hb => h b (List.mem_cons_of_mem o hb)
    cases o with
    | none => simp [ih, Nat.add_assoc]
    | some b =>
      have hb : b ∈ S := h b List.mem_cons_self
      have hcount : ∀ b', (some b :: acc).count (some b')
          = acc.count (some b') + if b = b' then 1 else 0 := by
        intro b'
        rw [List.count_cons]
        simp
      simp only [hcount, Finset.sum_add_distrib, Finset.sum_ite_eq, hb, if_true]
      rw [List.length_cons, ih, List.count_cons_of_ne (by simp)]
      omega

theorem mem_record {calls : List Call} {o : Option String}
    (h : o ∈ Lts.record (CapState.step std caps) (CapState.accepted std caps) s calls)
    : ∃ call ∈ calls, o = call.ip.map (ipBucket std) := by
  induction calls generalizing s with
  | nil => cases h
  | cons call calls ih =>
    rw [Lts.record, List.mem_append] at h
    cases h with
    | inl h =>
      refine ⟨call, List.mem_cons_self, ?_⟩
      unfold CapState.accepted at h
      split at h
      . exact List.mem_singleton.mp h
      . cases h
    | inr h =>
      cases hstep : s.step std caps call with
      | none => simp [hstep] at h
      | some s1 =>
        rw [hstep, Option.map_some, Option.getD_some] at h
        obtain ⟨call', hmem, ho⟩ := ih h
        exact ⟨call', List.mem_cons_of_mem call hmem, ho⟩

end

/--
Over every sequence of calls within an hour: a call is refused exactly if a limit is used up, and
then changes nothing; no more calls are accepted than the limits allow; the counter of the relay is
the sum of the others and of the accepted calls without an address; no counter expires before the
hour ends.
-/
theorem registration_caps_hold (std : StdNet) (caps : Caps) (hour : Int) (s0 s : CapState)
    (calls : List Call) (hfresh : ∀ key, IsCounter hour key → s0.counters key = none)
    (hcalls : ∀ call ∈ calls, call.InHour hour)
    (hrun : Lts.run (CapState.step std caps) s0 calls = some s)
    : (∀ call, call.InHour hour → call.reached = true →
        ((∃ secs, (checkRegistration std caps s.counters call).2 = .error (.rateLimited secs))
          ↔ min caps.globalLimit (2 ^ 53) ≤ used s.counters call.atMs (globalRegistrationKey hour)
            ∨ ∃ ip, call.ip = some ip
              ∧ min caps.perIpLimit (2 ^ 53)
                ≤ used s.counters call.atMs (registrationKey std ip hour)))
      ∧ (∀ call, call.InHour hour → (checkRegistration std caps s.counters call).2 ≠ .ok () →
        (checkRegistration std caps s.counters call).1 = s.counters)
      ∧ (Lts.record (CapState.step std caps) (CapState.accepted std caps) s0 calls).length
        ≤ min caps.globalLimit (2 ^ 53)
      ∧ (∀ b, (Lts.record (CapState.step std caps) (CapState.accepted std caps) s0 calls).count
          (some b) ≤ min caps.perIpLimit (2 ^ 53))
      ∧ (∀ S : Finset String, (∀ call ∈ calls, ∀ ip, call.ip = some ip → ipBucket std ip ∈ S) →
        ∀ t < hourEnd hour, used s.counters t (globalRegistrationKey hour)
          = (∑ b ∈ S, used s.counters t (bucketKey b hour))
            + (Lts.record (CapState.step std caps) (CapState.accepted std caps) s0 calls).count none)
      ∧ ∀ key, IsCounter hour key → (s.counters key).isSome →
        ∀ t < hourEnd hour, (s.counters.live t key).isSome := by
  have hcounted := (counted_nil caps hfresh).run hcalls hrun
  rw [List.nil_append] at hcounted
  refine ⟨?_, ?_, hcounted.relay_le, hcounted.bucket_le, ?_, ?_⟩
  . intro call hhour hreached
    have hchecked := hcounted.checked std hhour
    generalize checkRegistration std caps s.counters call = r at hchecked
    cases hchecked with
    | failed h =>
      rw [hreached] at h
      cases h
    | @refused secs _ h => exact ⟨fun _ => h, fun _ => ⟨secs, rfl⟩⟩
    | taken _ hglobal hbucket =>
      constructor
      . intro ⟨secs, h⟩
        cases h
      . intro h
        cases h with
        | inl h => exact absurd hglobal (Nat.not_lt.mpr h)
        | inr h =>
          have ⟨ip, hip, h⟩ := h
          exact absurd (hbucket ip hip) (Nat.not_lt.mpr h)
  . intro call hhour hne
    have hchecked := hcounted.checked std hhour
    generalize checkRegistration std caps s.counters call = r at hchecked hne
    cases hchecked with
    | failed | refused => rfl
    | taken => exact absurd rfl hne
  . intro S hS t ht
    have hmem : ∀ b, some b
        ∈ Lts.record (CapState.step std caps) (CapState.accepted std caps) s0 calls → b ∈ S := by
      intro b hb
      have ⟨call, hcall, ho⟩ := mem_record hb
      have ⟨ip, hip, hb⟩ := Option.map_eq_some_iff.mp ho.symm
      exact hb ▸ hS call hcall ip hip
    rw [hcounted.relay.used_eq ht, length_eq_sum_count hmem]
    congr 1
    apply Finset.sum_congr rfl
    intro b _
    rw [(hcounted.bucket b).used_eq ht]
  . intro key hkey hsome t ht
    cases hkey with
    | inl hkey =>
      subst hkey
      exact hcounted.relay.isSome_live hsome ht
    | inr hkey =>
      have ⟨b, hkey⟩ := hkey
      subst hkey
      exact (hcounted.bucket b).isSome_live hsome ht

namespace Sample

/--
Two calls of one client, one without an address and one of another client.
-/
def registrations : List Call := [
  { nowMs := 0, ip := some (ip 192 0 2 1), atMs := 5, reached := true },
  { nowMs := 10, ip := some (ip 192 0 2 1), atMs := 10, reached := true },
  { nowMs := 20, ip := none, atMs := 30, reached := true },
  { nowMs := 3599999, ip := some (ip 192 0 2 2), atMs := 3599999, reached := true }
]

def caps : Caps where
  perIpLimit := 1
  globalLimit := 2

end Sample

theorem caps_hold_for_two_clients
    : Lts.record (CapState.step net Sample.caps) (CapState.accepted net Sample.caps)
        { counters := .empty, time := 0 } registrations = [some "192.0.2.1", none]
      ∧ [some "192.0.2.1", none].length ≤ min Sample.caps.globalLimit (2 ^ 53) := by
  have hrecord : Lts.record (CapState.step net Sample.caps) (CapState.accepted net Sample.caps)
      { counters := .empty, time := 0 } registrations = [some "192.0.2.1", none] := by
    decide +kernel
  have hsome : (Lts.run (CapState.step net Sample.caps)
      { counters := .empty, time := 0 } registrations).isSome := by
    decide +kernel
  have hcalls : ∀ call ∈ registrations, call.InHour 0 := by
    simp [registrations, Call.InHour, hourEnd, hourMs]
  have ⟨s, hrun⟩ := Option.isSome_iff_exists.mp hsome
  have hcaps := registration_caps_hold net Sample.caps 0 _ s registrations (fun _ _ => rfl)
    hcalls hrun
  rw [hrecord] at hcaps
  exact ⟨hrecord, hcaps.2.2.1⟩

end HandLiveRelay.Limits
