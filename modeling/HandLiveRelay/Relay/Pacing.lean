import HandLiveRelay.Relay.Bandwidth

/-!
This module contains what the bandwidth limit promises over any window of time. A bucket is used by
one frame after the other, where no frame is read before the wait of the one before it is over. The
argument is about the tokens left when a frame is published: a frame takes what they lose, and what
flows in between two frames, so a window takes no more than one full bucket and the inflow.
-/

namespace HandLiveRelay.TokenBucket

/--
The tokens of the bucket at a time, before anything is taken.
-/
def available (b : TokenBucket) (now : Rat) : Rat :=
  min (b.tokens + max (now - b.updated) 0 * b.rate) b.capacity

/--
The tokens left once the debt is paid.
-/
def credit (b : TokenBucket) : Rat :=
  max b.tokens 0

section Frames

variable (b : TokenBucket) (cost : Nat → Nat) (time : Nat → Rat)

/--
The bucket before frame `i`, where frame `i` takes `cost i` bytes at `time i`.
-/
def before : Nat → TokenBucket
  | 0 => b
  | i + 1 => ((before i).take (cost i) (time i)).1

/--
The wait after frame `i` is read.
-/
def wait (i : Nat) : Rat :=
  ((before b cost time i).take (cost i) (time i)).2

/--
When frame `i` is published.
-/
def published (i : Nat) : Rat :=
  time i + wait b cost time i

end Frames

/--
The bucket holds bursts of one second.
-/
structure Ok (b : TokenBucket) : Prop where
  rate_pos : 0 < b.rate
  capacity : b.capacity = b.rate
  tokens_le : b.tokens ≤ b.capacity

theorem new_ok (rate : Nat) (now : Rat) : (new rate now).Ok where
  rate_pos := lt_of_lt_of_le one_pos (le_max_right (rate : Rat) 1)
  capacity := rfl
  tokens_le := le_rfl

section Take

variable {b : TokenBucket} (cost : Nat) (now : Rat)

theorem take_ok (h : b.Ok) : (b.take cost now).1.Ok where
  rate_pos := h.rate_pos
  capacity := h.capacity
  tokens_le := by
    have hle : b.available now ≤ b.capacity := min_le_right _ _
    have hcost : (0 : Rat) ≤ cost := Nat.cast_nonneg cost
    show b.available now - cost ≤ b.capacity
    linarith

/--
The wait pays the debt.
-/
theorem rate_mul_wait (h : b.Ok)
    : b.rate * (b.take cost now).2 = (b.take cost now).1.credit - (b.available now - cost) := by
  have hrate := h.rate_pos
  show b.rate * (if b.available now - cost ≥ 0 then 0 else -(b.available now - cost) / b.rate)
    = max (b.available now - cost) 0 - (b.available now - cost)
  split
  . next hpos => rw [max_eq_left hpos, mul_zero, sub_self]
  . next hneg =>
    rw [max_eq_right (not_le.mp hneg).le, mul_div_cancel₀ _ hrate.ne', zero_sub]

theorem wait_nonneg (h : b.Ok) : 0 ≤ (b.take cost now).2 := by
  have hpaid := rate_mul_wait cost now h
  have hcredit : b.available now - cost ≤ (b.take cost now).1.credit := le_max_left _ _
  apply nonneg_of_mul_nonneg_right _ h.rate_pos
  linarith

end Take

section Before

variable {b : TokenBucket} (cost : Nat → Nat) (time : Nat → Rat)

theorem before_ok (h : b.Ok) (i : Nat) : (before b cost time i).Ok := by
  induction i with
  | zero => exact h
  | succ i ih => exact take_ok (cost i) (time i) ih

theorem before_rate (i : Nat) : (before b cost time i).rate = b.rate := by
  induction i with
  | zero => rfl
  | succ i ih => exact ih

theorem rate_mul_wait_before (h : b.Ok) (i : Nat)
    : b.rate * wait b cost time i = (before b cost time (i + 1)).credit
        - (before b cost time (i + 1)).tokens := by
  have hpaid := rate_mul_wait (cost i) (time i) (before_ok cost time h i)
  rw [before_rate] at hpaid
  exact hpaid

end Before

/--
No frame up to frame `n` is read before the frame in front of it is published.
-/
def Paced (b : TokenBucket) (cost : Nat → Nat) (time : Nat → Rat) (n : Nat) : Prop :=
  ∀ i < n, published b cost time i ≤ time (i + 1)

variable {b : TokenBucket} {cost : Nat → Nat} {time : Nat → Rat}

theorem available_succ (h : b.Ok) {i : Nat} (hpaced : published b cost time i ≤ time (i + 1))
    : (before b cost time (i + 1)).available (time (i + 1))
        = min ((before b cost time (i + 1)).tokens + (time (i + 1) - time i) * b.rate) b.rate := by
  have hwait : 0 ≤ wait b cost time i :=
    wait_nonneg (cost i) (time i) (before_ok cost time h i)
  have helapsed : 0 ≤ time (i + 1) - time i := by
    unfold published at hpaced
    linarith
  have hok := before_ok cost time h (i + 1)
  have hrate := before_rate (b := b) cost time (i + 1)
  have hupdated : (before b cost time (i + 1)).updated = time i := rfl
  rw [available, hok.capacity, hrate, hupdated, max_eq_left helapsed]

/--
After a frame and its wait the bucket is not in debt, however late the next frame comes.
-/
theorem available_succ_nonneg (h : b.Ok) {i : Nat}
    (hpaced : published b cost time i ≤ time (i + 1))
    : 0 ≤ (before b cost time (i + 1)).available (time (i + 1)) := by
  have hpaid := rate_mul_wait_before cost time h i
  have hcredit : 0 ≤ (before b cost time (i + 1)).credit := le_max_right _ _
  have hinflow : wait b cost time i * b.rate ≤ (time (i + 1) - time i) * b.rate := by
    apply mul_le_mul_of_nonneg_right _ h.rate_pos.le
    unfold published at hpaced
    linarith
  rw [available_succ h hpaced]
  apply le_min
  . linarith
  . exact h.rate_pos.le

theorem available_nonneg {rate : Nat} {start : Rat} {n : Nat}
    (hpaced : Paced (new rate start) cost time n) {i : Nat} (hi : i ≤ n)
    : 0 ≤ (before (new rate start) cost time i).available (time i) := by
  have hok := new_ok rate start
  cases i with
  | zero =>
    have helapsed : 0 ≤ max (time 0 - start) 0 * (new rate start).rate :=
      mul_nonneg (le_max_right _ _) hok.rate_pos.le
    have hfull : (new rate start).tokens = (new rate start).rate := rfl
    have hrate := hok.rate_pos
    apply le_min
    . show 0 ≤ (new rate start).tokens + max (time 0 - start) 0 * (new rate start).rate
      linarith
    . show 0 ≤ (new rate start).capacity
      exact hrate.le
  | succ i => exact available_succ_nonneg hok (hpaced i hi)

/--
A bucket that is not in debt makes a frame wait for its own bytes at most.
-/
theorem wait_le (h : b.Ok) {i : Nat} (hnonneg : 0 ≤ (before b cost time i).available (time i))
    : wait b cost time i ≤ cost i / b.rate := by
  have hpaid := rate_mul_wait_before cost time h i
  have htokens : (before b cost time (i + 1)).tokens
      = (before b cost time i).available (time i) - cost i := rfl
  have hcost : (0 : Rat) ≤ cost i := Nat.cast_nonneg _
  have hcredit : (before b cost time (i + 1)).credit
      ≤ (before b cost time i).available (time i) := by
    apply max_le
    . linarith
    . exact hnonneg
  rw [le_div_iff₀ h.rate_pos]
  linarith

theorem cost_of_wait (i : Nat) (hwait : wait b cost time i ≠ 0)
    : (before b cost time i).available (time i) < cost i := by
  by_contra henough
  apply hwait
  have hpos : 0 ≤ (before b cost time i).available (time i) - cost i := by linarith
  exact if_pos hpos

/--
A frame takes what the credit loses and what flows in between two publishes.
-/
theorem cost_succ_le (h : b.Ok) {i : Nat} (hpaced : published b cost time i ≤ time (i + 1))
    : (cost (i + 1) : Rat) ≤ (before b cost time (i + 1)).credit
        - (before b cost time (i + 2)).credit
        + b.rate * (published b cost time (i + 1) - published b cost time i) := by
  have hpaid := rate_mul_wait_before cost time h i
  have hpaid' := rate_mul_wait_before cost time h (i + 1)
  have htokens : (before b cost time (i + 2)).tokens
      = (before b cost time (i + 1)).available (time (i + 1)) - cost (i + 1) := rfl
  have havailable : (before b cost time (i + 1)).available (time (i + 1))
      ≤ (before b cost time (i + 1)).tokens + (time (i + 1) - time i) * b.rate := by
    rw [available_succ h hpaced]
    exact min_le_left _ _
  unfold published
  linarith

theorem sum_cost_le (h : b.Ok) {i k n : Nat} (hpaced : Paced b cost time n) (hik : i ≤ k)
    (hk : k ≤ n)
    : ∑ j ∈ Finset.Ioc i k, (cost j : Rat) ≤ (before b cost time (i + 1)).credit
        - (before b cost time (k + 1)).credit
        + b.rate * (published b cost time k - published b cost time i) := by
  induction k, hik using Nat.le_induction with
  | base => simp
  | succ k hik ih =>
    have hprev := ih (by omega)
    have hstep := cost_succ_le h (hpaced k (by omega))
    rw [Finset.sum_Ioc_succ_top hik]
    linarith

/--
The bandwidth limit of a pair over every window. A bucket that starts full and is used by paced
frames is never in debt when a frame is read, so a frame waits for its own bytes at most, and only
if they are more than the tokens left. What is published after a frame, up to a later one, is no
more than the rate allows in the time between them and the budget of one second.
-/
theorem bandwidth_bound_holds_over_every_window (rate : Nat) (start : Rat) (cost : Nat → Nat)
    (time : Nat → Rat) (n : Nat) (hpaced : Paced (new rate start) cost time n)
    : (∀ i ≤ n, 0 ≤ (before (new rate start) cost time i).available (time i)
        ∧ wait (new rate start) cost time i ≤ cost i / (new rate start).rate
        ∧ (wait (new rate start) cost time i ≠ 0
          → (before (new rate start) cost time i).available (time i) < cost i))
      ∧ ∀ i k, i < k → k ≤ n → ∑ j ∈ Finset.Ioc i k, (cost j : Rat)
        ≤ (new rate start).rate
            * (published (new rate start) cost time k - published (new rate start) cost time i)
          + (new rate start).rate * 1 := by
  have hok := new_ok rate start
  constructor
  . intro i hi
    have hnonneg := available_nonneg hpaced hi
    exact ⟨hnonneg, wait_le hok hnonneg, cost_of_wait i⟩
  . intro i k hik hk
    have hsum := sum_cost_le hok hpaced hik.le hk
    have hfirst : (before (new rate start) cost time (i + 1)).credit ≤ (new rate start).rate := by
      have hafter := before_ok cost time hok (i + 1)
      have hfull := hafter.tokens_le
      rw [hafter.capacity, before_rate] at hfull
      exact max_le hfull hok.rate_pos.le
    have hlast : 0 ≤ (before (new rate start) cost time (k + 1)).credit := le_max_right _ _
    linarith

/--
At 10 bytes per second, 25 bytes read at the start wait for one and a half seconds, and 5 bytes are
read then.
-/
theorem bandwidth_bound_of_two_frames
    : wait (new 10 0) (fun i => if i = 0 then 25 else 5) (fun i => 3 / 2 * i) 0 = 3 / 2
      ∧ ∑ j ∈ Finset.Ioc 0 1, (((if j = 0 then 25 else 5 : Nat)) : Rat)
        ≤ (new 10 0).rate
            * (published (new 10 0) (fun i => if i = 0 then 25 else 5) (fun i => 3 / 2 * i) 1
              - published (new 10 0) (fun i => if i = 0 then 25 else 5) (fun i => 3 / 2 * i) 0)
          + (new 10 0).rate * 1 := by
  have hpaced : Paced (new 10 0) (fun i => if i = 0 then 25 else 5) (fun i => 3 / 2 * i) 1 := by
    intro i hi
    rw [Nat.lt_one_iff.mp hi]
    decide +kernel
  refine ⟨by decide +kernel, ?_⟩
  exact (bandwidth_bound_holds_over_every_window 10 0 _ _ 1 hpaced).2 0 1 (by decide) le_rfl

end HandLiveRelay.TokenBucket
