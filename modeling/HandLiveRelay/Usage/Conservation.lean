import HandLiveRelay.Usage.Flush

/-!
This module contains the conservation of the usage counters. Every count that was added is in the
table, in memory, or in the hands of one flush, in every state of every run.
-/

namespace HandLiveRelay.Usage

open Fiber

abbrev UsageTask := Task Unit UsageOp UsageOp.Res (Except FlushError Nat)

abbrev UsageTrace := Trace Unit UsageOp UsageOp.Res

/--
The counters that a flush has taken and neither written nor put back yet.
-/
def held : UsageTrace → List (Uuid × Tally)
  | [] => []
  | ⟨_, .take, (taken : Tallies)⟩ :: _ => taken.rows
  | ⟨_, .monthlySalt, _⟩ :: rest => held rest
  | ⟨_, .addBatch _, some ()⟩ :: _ => []
  | ⟨_, .addBatch _, none⟩ :: rest => held rest
  | ⟨_, .restore _, _⟩ :: _ => []

/--
A salt that a flush has obtained.
-/
def Salted (p : UsagePool) (salt : List UInt8) : Prop :=
  ∃ k, ⟨(), .monthlySalt, some salt⟩ ∈ p.record k

/--
What a flush may ask for: it writes the rows of what it holds, and puts back what it holds.
-/
def Permits (crypto : Crypto) : Contract Unit UsageOp UsageOp.Res
  | _, trace, .take => held trace = []
  | _, _, .monthlySalt => True
  | _, trace, .addBatch rows =>
    ∃ salt taken, ⟨(), .monthlySalt, some salt⟩ ∈ trace ∧ held trace = taken.rows
      ∧ rows = usageRows crypto salt taken
  | _, trace, .restore taken => held trace = taken.rows

variable {crypto : Crypto}

theorem sat_flush
    : ((flush crypto).start ()).Sat (Permits crypto) (fun _ _ trace => held trace = []) [] := by
  refine Prog.sat_perform rfl ?_
  intro (taken : Tallies)
  dsimp only
  split
  . next hempty => exact List.isEmpty_iff.mp hempty
  . refine Prog.sat_perform trivial ?_
    intro (r : Option (List UInt8))
    cases r with
    | none =>
      refine Prog.sat_perform rfl ?_
      intro _
      rfl
    | some salt =>
      refine Prog.sat_perform ⟨salt, taken, List.mem_cons_self, rfl, rfl⟩ ?_
      intro (r : Option Unit)
      cases r with
      | none =>
        refine Prog.sat_perform rfl ?_
        intro _
        rfl
      | some _ => rfl

/-!
The counts of the devices that `q` selects. In the table they are the ones of the hashes that `h`
selects.
-/

section

variable (q : Uuid → Bool) (h : List UInt8 → Bool)

/--
What is in the table, in memory and in the hands of the flushes.
-/
def amount (p : UsagePool) : Tally :=
  Ledger.sum (fun k => h k.2) p.world.daily + Ledger.sum q p.world.tallies
    + (p.tasks.map fun t => Ledger.sumOf q (held t.trace)).sum

/--
What a step adds.
-/
def added : UsageLabel → Option (Uuid × Tally)
  | .happen (.addEnvelope deviceId bytes) => some (deviceId, { envelopes := 1, bytes, pushes := 0 })
  | .happen (.addPush deviceId) => some (deviceId, { envelopes := 0, bytes := 0, pushes := 1 })
  | _ => none

end

variable {q : Uuid → Bool} {h : List UInt8 → Bool}

/--
A batch adds to the table what the flush holds.
-/
theorem sum_addBatch {daily daily' : UsageDaily} {today : Int} {salt : List UInt8} {taken : Tallies}
    (hsalt : ∀ d, h (deviceHash crypto d salt) = q d)
    (hbatch : addBatch daily today (usageRows crypto salt taken) = some daily')
    : Ledger.sum (fun k => h k.2) daily'
      = Ledger.sum (fun k => h k.2) daily + Ledger.sumOf q taken.rows := by
  unfold addBatch at hbatch
  split at hbatch
  . cases hbatch
    have hq : (fun d => h (deviceHash crypto d salt)) = q := funext hsalt
    have hrows := Ledger.sumOf_map (fun k => h k.2) (fun d => (today, deviceHash crypto d salt))
      taken.rows
    rw [hq] at hrows
    unfold usageRows
    rw [Ledger.sum_addAll, List.map_map, ← hrows]
    rfl
  . cases hbatch

/--
What one operation of a flush moves between the three places.
-/
theorem amount_perform {w w' : UsageWorld} {o : UsageOp} {f : Choice} {r : o.Res}
    {trace : UsageTrace} (hperform : w.perform o f = some (w', r))
    (hpermits : Permits crypto () trace o)
    (hsalt : ∀ salt, ⟨(), .monthlySalt, some salt⟩ ∈ trace → ∀ d, h (deviceHash crypto d salt) = q d)
    : Ledger.sum (fun k => h k.2) w'.daily + Ledger.sum q w'.tallies
        + Ledger.sumOf q (held (⟨(), o, r⟩ :: trace))
      = Ledger.sum (fun k => h k.2) w.daily + Ledger.sum q w.tallies
        + Ledger.sumOf q (held trace) := by
  cases o with
  | take =>
    cases f with
    | ok =>
      cases hperform
      have hheld : held trace = [] := hpermits
      rw [hheld]
      dsimp only [held, Ledger.sum, Table.empty]
      rw [Ledger.sumOf_nil]
      abel
    | fail | fresh => cases hperform
  | monthlySalt =>
    cases f with
    | ok => cases hperform
    | fail =>
      cases hperform
      rfl
    | fresh salt =>
      cases hperform
      rfl
  | addBatch rows =>
    have ⟨salt, taken, hmem, hheld, hrows⟩ := hpermits
    cases f with
    | ok =>
      dsimp only [UsageWorld.perform] at hperform
      split at hperform
      . next daily hbatch =>
        cases hperform
        rw [hrows] at hbatch
        rw [hheld]
        dsimp only [held]
        rw [sum_addBatch (hsalt salt hmem) hbatch, Ledger.sumOf_nil]
        abel
      . cases hperform
        rfl
    | fail =>
      cases hperform
      rfl
    | fresh => cases hperform
  | restore taken =>
    cases f with
    | ok =>
      cases hperform
      have hheld : held trace = taken.rows := hpermits
      rw [hheld]
      dsimp only [held, restore]
      rw [Ledger.sum_addAll, Ledger.sumOf_nil]
      abel
    | fail | fresh => cases hperform

theorem amount_happen {w w' : UsageWorld} {e : UsageEvent} (hhappen : w.happen e = some w')
    : Ledger.sum (fun k => h k.2) w'.daily + Ledger.sum q w'.tallies
      = Ledger.sum (fun k => h k.2) w.daily + Ledger.sum q w.tallies
        + Ledger.sumOf q (added (.happen e)).toList := by
  cases e with
  | addEnvelope deviceId bytes =>
    cases hhappen
    dsimp only [added, addEnvelope, Option.toList_some]
    rw [Ledger.sum_add, Ledger.sumOf_cons, Ledger.sumOf_nil, add_zero, add_assoc]
  | addPush deviceId =>
    cases hhappen
    dsimp only [added, addPush, Option.toList_some]
    rw [Ledger.sum_add, Ledger.sumOf_cons, Ledger.sumOf_nil, add_zero, add_assoc]
  | clocks today redisMs nowMs =>
    cases hhappen
    dsimp only [added, Option.toList_none]
    rw [Ledger.sumOf_nil, add_zero]

theorem amount_step {p p' : UsagePool} {l : UsageLabel} (hstep : p.step (server crypto) l = some p')
    (hsat : ∀ (k : Nat) (t : UsageTask), p.tasks[k]? = some t →
      t.prog.Sat (Permits crypto) (fun _ _ trace => held trace = []) t.trace)
    (hsalt : ∀ salt, Salted p salt → ∀ d, h (deviceHash crypto d salt) = q d)
    : amount q h p' = amount q h p + Ledger.sumOf q (added l).toList := by
  cases Pool.step_cases hstep with
  | start req =>
    unfold amount
    dsimp only [added, Option.toList_none]
    rw [List.map_append, List.sum_append, List.map_singleton, List.sum_singleton]
    dsimp only [held]
    rw [Ledger.sumOf_nil, add_zero, add_zero]
  | @exec k f t s o cont w r htask hprog hperform =>
    have ⟨hlt, hget⟩ := List.getElem?_eq_some_iff.mp htask
    have ⟨l1, l2, htasks, _, hset⟩ : ∃ l1 l2, p.tasks = l1 ++ p.tasks[k] :: l2 ∧ l1.length = k
        ∧ p.tasks.set k { t with prog := cont r, trace := ⟨s, o, r⟩ :: t.trace }
          = l1 ++ { t with prog := cont r, trace := ⟨s, o, r⟩ :: t.trace } :: l2 :=
      List.exists_of_set hlt
    have hsat := hsat k t htask
    rw [hprog] at hsat
    have hmove := amount_perform hperform hsat.1 (by
      intro salt hmem
      exact hsalt salt ⟨k, Pool.record_eq htask ▸ hmem⟩)
    unfold amount
    dsimp only
    rw [hset, htasks, hget]
    simp only [List.map_append, List.map_cons, List.sum_append, List.sum_cons]
    -- only the task that went on and the world have changed
    generalize (l1.map fun t => Ledger.sumOf q (held t.trace)).sum = s1 at *
    generalize (l2.map fun t => Ledger.sumOf q (held t.trace)).sum = s2 at *
    have hnone : (added (.exec k f)).toList = [] := rfl
    rw [hnone, Ledger.sumOf_nil, add_zero]
    calc
      _ = Ledger.sum (fun k => h k.2) w.daily + Ledger.sum q w.tallies
          + Ledger.sumOf q (held (⟨(), o, r⟩ :: t.trace)) + (s1 + s2) := by abel
      _ = Ledger.sum (fun k => h k.2) p.world.daily + Ledger.sum q p.world.tallies
          + Ledger.sumOf q (held t.trace) + (s1 + s2) := by rw [hmove]
      _ = _ := by abel
  | happen hhappen =>
    unfold amount
    dsimp only
    rw [amount_happen hhappen]
    abel

theorem amount_run {w : UsageWorld} {ls : List UsageLabel} {p : UsagePool}
    (hrun : runUsage crypto w ls = some p)
    (hsalt : ∀ salt, Salted p salt → ∀ d, h (deviceHash crypto d salt) = q d)
    : amount q h p = amount q h (Pool.init w) + Ledger.sumOf q (ls.filterMap added) := by
  induction ls using List.reverseRecOn generalizing p with
  | nil =>
    cases hrun
    simp
  | append_singleton ls l ih =>
    have ⟨p1, hrun1, hlast⟩ := (Lts.run_append_eq_some (Pool.step (server crypto))).mp hrun
    have ⟨p2, hstep, hnil⟩ := (Lts.run_cons_eq_some (Pool.step (server crypto))).mp hlast
    cases hnil
    have hsalt1 : ∀ salt, Salted p1 salt → ∀ d, h (deviceHash crypto d salt) = q d := by
      intro salt ⟨k, hmem⟩
      exact hsalt salt ⟨k, Pool.record_subset hstep k hmem⟩
    have hsat : ∀ (k : Nat) (t : UsageTask), p1.tasks[k]? = some t →
        t.prog.Sat (Permits crypto) (fun _ _ trace => held trace = []) t.trace := by
      intro k t ht
      exact Pool.sat_run (C := fun _ => Permits crypto) (Q := fun _ _ _ trace => held trace = [])
        (fun _ => sat_flush) hrun1 ht
    rw [amount_step hstep hsat hsalt1, ih hrun1 hsalt1, List.filterMap_append, Ledger.sumOf_append,
      add_assoc]
    rfl

/--
In every state of every run the counters in the table, in memory and taken by a flush sum up to what
was there before and what was added. With one salt, and no two devices of the same hash, this holds
for each device and its hash.
-/
theorem usage_is_conserved (crypto : Crypto) (w : UsageWorld) (ls : List UsageLabel) (p : UsagePool)
    (hrun : runUsage crypto w ls = some p)
    : amount (fun _ => true) (fun _ => true) p
        = amount (fun _ => true) (fun _ => true) (Pool.init w)
          + ((ls.filterMap added).map Prod.snd).sum
      ∧ ∀ salt, (∀ s, Salted p s → s = salt) →
        (∀ d d', deviceHash crypto d salt = deviceHash crypto d' salt → d = d') →
        ∀ d, amount (fun d' => d' = d) (fun hash => hash = deviceHash crypto d salt) p
          = amount (fun d' => d' = d) (fun hash => hash = deviceHash crypto d salt) (Pool.init w)
            + Ledger.sumOf (fun d' => d' = d) (ls.filterMap added) := by
  constructor
  . rw [amount_run hrun (fun _ _ _ => rfl), Ledger.sumOf_true]
  . intro salt hsalt hinj d
    apply amount_run hrun
    intro s hs d'
    rw [hsalt s hs, decide_eq_decide]
    exact ⟨hinj d' d, fun heq => by rw [heq]⟩

namespace Sample

def counted : Uuid := .replicate 16 1

def idle : UsageWorld where
  tallies := .empty
  daily := .empty
  today := 0
  salts := .empty
  redisMs := 0
  nowMs := 0

/--
A flush that fails at the salt while a push is counted, and a second one that succeeds while an
envelope is counted.
-/
def retries : List UsageLabel := [
  .happen (.addEnvelope counted 100), .start (), .exec 0 .ok, .happen (.addPush counted),
  .exec 0 .fail, .exec 0 .ok, .start (), .exec 1 .ok, .exec 1 (.fresh (.replicate 32 9)),
  .happen (.addEnvelope counted 5), .exec 1 .ok
]

end Sample

theorem usage_survives_a_failed_flush
    : ∃ p, runUsage .sample Sample.idle Sample.retries = some p
      ∧ p.world.daily.rows.map Prod.snd = [{ envelopes := 1, bytes := 100, pushes := 1 }]
      ∧ amount (fun _ => true) (fun _ => true) p
        = { envelopes := 2, bytes := 105, pushes := 1 } := by
  have hrun : (runUsage .sample Sample.idle Sample.retries).any (fun p =>
      p.world.daily.rows.map Prod.snd = [{ envelopes := 1, bytes := 100, pushes := 1 }])
      = true := by
    decide +kernel
  cases hp : runUsage .sample Sample.idle Sample.retries with
  | none =>
    rw [hp] at hrun
    cases hrun
  | some p =>
    rw [hp] at hrun
    refine ⟨p, rfl, of_decide_eq_true hrun, ?_⟩
    rw [(usage_is_conserved .sample Sample.idle Sample.retries p hp).1]
    decide

end HandLiveRelay.Usage
