import HandLiveRelay.Lib.Float8

/-!
This module contains the times of the database. A time comes to the relay in milliseconds and is
stored as `TIMESTAMPTZ 'epoch' + $1 * INTERVAL '1 millisecond'`. PostgreSQL multiplies an interval
in double precision, so it does not hold every time that it is given, nor exactly.
-/

namespace HandLiveRelay.Timestamp

/-!
Timestamps are microseconds since the year 2000.
-/

/--
`TIMESTAMPTZ 'epoch'`
-/
def epoch : Int := -946684800000000

/--
The beginning of 4714-11-24 BC, which is the first day.
-/
def minTimestamp : Int := -211813488000000000

/--
The beginning of 294277-01-01, which is the day after the last.
-/
def endTimestamp : Int := 9223371331200000000

/--
`$1 * INTERVAL '1 millisecond'`, in microseconds.
-/
@[irreducible]
def interval (ms : Int64) : Int :=
  Float8.round (1000 * Float8.round ms.toInt)

/--
Interval and sum are in the range of their types.
-/
def InRange (ms : Int64) : Prop :=
  (-2 ^ 63 ≤ interval ms ∧ interval ms < 2 ^ 63)
    ∧ minTimestamp ≤ epoch + interval ms ∧ epoch + interval ms < endTimestamp

instance (ms : Int64) : Decidable (InRange ms) :=
  inferInstanceAs (Decidable ((_ ∧ _) ∧ _ ∧ _))

/--
`(extract(epoch FROM t) * 1000)::bigint`, which rounds half a millisecond away from zero.
-/
def toMillis (t : Int) : Int64 :=
  let micros := t - epoch
  let ms := (micros.natAbs + 500) / 1000
  Int64.ofInt (if micros < 0 then -ms else ms)

/--
The time that is read from a column in which the time `ms` was stored.
-/
def readBack (ms : Int64) : Int64 :=
  toMillis (epoch + interval ms)

theorem interval_mono {ms ms' : Int64} (h : ms ≤ ms') : interval ms ≤ interval ms' := by
  rw [Int64.le_iff_toInt_le] at h
  unfold interval
  apply Float8.round_mono
  have := Float8.round_mono h
  omega

/--
A time is in range from 4714 BC on. The last one is the last whose product is less than 2^63.
-/
theorem inRange_iff {ms : Int64} : InRange ms ↔ -210866803200000 ≤ ms ∧ ms ≤ 9223372036854774 := by
  have hfirst : interval (-210866803200000) = -210866803200000000 := by decide +kernel
  have hbefore : interval (-210866803200001) < -210866803200000000 := by decide +kernel
  have hlast : interval 9223372036854774 < 2 ^ 63 := by decide +kernel
  have hafter : interval 9223372036854775 = 2 ^ 63 := by decide +kernel
  unfold InRange minTimestamp endTimestamp epoch
  constructor
  . intro h
    constructor
    . by_contra hlt
      have hle : ms ≤ -210866803200001 := by
        rw [Int64.le_iff_toInt_le] at hlt ⊢
        exact Int.lt_add_one_iff.mp (Int.not_le.mp hlt)
      have := interval_mono hle
      omega
    . by_contra hlt
      have hle : 9223372036854775 ≤ ms := by
        rw [Int64.le_iff_toInt_le] at hlt ⊢
        exact Int.not_le.mp hlt
      have := interval_mono hle
      omega
  . rintro ⟨hlo, hhi⟩
    have hlo := interval_mono hlo
    have hhi := interval_mono hhi
    omega

/--
Up to about the year 148000 a time is read as it was stored. The product is rounded by a quarter of
a millisecond at most.
-/
theorem readBack_eq_self {ms : Int64} (h : ms.toInt.natAbs ≤ 4611686018427387)
    : readBack ms = ms := by
  have hexact : Float8.round ms.toInt = ms.toInt := Float8.round_eq_self (by omega)
  have herror := Float8.round_error (z := 1000 * ms.toInt) (k := 9) (by omega)
  have hmillis : toMillis (epoch + interval ms) = Int64.ofInt ms.toInt := by
    unfold toMillis interval
    rw [hexact]
    dsimp only
    congr 1
    split <;> omega
  unfold readBack
  rw [hmillis, Int64.ofInt_toInt]

end HandLiveRelay.Timestamp
