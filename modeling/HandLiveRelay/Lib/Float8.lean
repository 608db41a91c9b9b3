import Mathlib

/-!
This module contains the integers as double precision numbers see them. A double has 53 significant
bits, so from 2^53 on only every second integer is one, from 2^54 on only every fourth, and so on.
The others are rounded to the nearest, and to the one with an even significand if two are as near.
-/

namespace Float8

/--
`n / d` rounded to the nearest integer, ties to even.
-/
def roundDiv (n d : Nat) : Nat :=
  if d < 2 * (n % d) ∨ (2 * (n % d) = d ∧ n / d % 2 = 1) then
    n / d + 1
  else
    n / d

/--
The distance of the doubles around `n`.
-/
def ulp (n : Nat) : Nat :=
  2 ^ (n.log2 - 52)

def roundNat (n : Nat) : Nat :=
  roundDiv n (ulp n) * ulp n

/--
The double nearest to an integer.
-/
def round (z : Int) : Int :=
  if z < 0 then
    -roundNat z.natAbs
  else
    roundNat z.natAbs

theorem ulp_pos (n : Nat) : 0 < ulp n :=
  Nat.two_pow_pos _

/-!
The quotient.
-/

section

variable {n m d : Nat}

theorem roundDiv_le_succ : roundDiv n d ≤ n / d + 1 := by
  unfold roundDiv
  split <;> omega

theorem div_le_roundDiv : n / d ≤ roundDiv n d := by
  unfold roundDiv
  split <;> omega

/--
Rounding does not pass a multiple of the divisor.
-/
theorem roundDiv_le (hd : 0 < d) (h : n ≤ m * d) : roundDiv n d ≤ m := by
  have hmod := Nat.div_add_mod n d
  unfold roundDiv
  split
  next hup =>
    have hpos : 0 < n % d := by omega
    have hlt : d * (n / d) < d * m := by
      rw [Nat.mul_comm d m]
      omega
    exact Nat.lt_of_mul_lt_mul_left hlt
  . exact Nat.div_le_of_le_mul (by rwa [Nat.mul_comm])

theorem le_roundDiv (hd : 0 < d) (h : m * d ≤ n) : m ≤ roundDiv n d := by
  apply Nat.le_trans _ div_le_roundDiv
  exact (Nat.le_div_iff_mul_le hd).mpr h

theorem roundDiv_mono (h : n ≤ m) : roundDiv n d ≤ roundDiv m d := by
  have hdiv : n / d ≤ m / d := Nat.div_le_div_right h
  by_cases heq : n / d = m / d
  . have hn := Nat.div_add_mod n d
    have hm := Nat.div_add_mod m d
    rw [heq] at hn
    unfold roundDiv
    rw [heq]
    split
    . split <;> omega
    . split <;> omega
  . have hle : roundDiv n d ≤ m / d := by
      have := roundDiv_le_succ (n := n) (d := d)
      omega
    exact Nat.le_trans hle div_le_roundDiv

/--
The quotient is rounded by half a unit at most.
-/
theorem roundDiv_error (hd : 0 < d)
    : 2 * (roundDiv n d * d) ≤ 2 * n + d ∧ 2 * n ≤ 2 * (roundDiv n d * d) + d := by
  have hmod := Nat.div_add_mod n d
  have hlt := Nat.mod_lt n hd
  rw [Nat.mul_comm] at hmod
  unfold roundDiv
  split
  . rw [Nat.add_mul, Nat.one_mul]
    omega
  . omega

end

/-!
The number.
-/

section

variable {n m : Nat}

theorem ulp_dvd_two_pow {k : Nat} (h : n.log2 ≤ k) : ulp n ∣ 2 ^ k := by
  apply Nat.pow_dvd_pow
  omega

theorem roundNat_le (hdvd : ulp n ∣ m) (h : n ≤ m) : roundNat n ≤ m := by
  obtain ⟨q, hq⟩ := hdvd
  unfold roundNat
  rw [hq, Nat.mul_comm (ulp n) q] at h ⊢
  apply Nat.mul_le_mul_right
  exact roundDiv_le (ulp_pos n) h

theorem le_roundNat (hdvd : ulp n ∣ m) (h : m ≤ n) : m ≤ roundNat n := by
  obtain ⟨q, hq⟩ := hdvd
  unfold roundNat
  rw [hq, Nat.mul_comm (ulp n) q] at h ⊢
  apply Nat.mul_le_mul_right
  exact le_roundDiv (ulp_pos n) h

/--
Rounding keeps the order. A power of two between two numbers is between what they are rounded to.
-/
theorem roundNat_mono (h : n ≤ m) : roundNat n ≤ roundNat m := by
  by_cases hn : n = 0
  . subst hn
    have hzero : roundNat 0 = 0 := by decide
    rw [hzero]
    exact Nat.zero_le _
  have hlog : n.log2 ≤ m.log2 := by
    rw [Nat.le_log2 (by omega)]
    exact Nat.le_trans (Nat.log2_self_le hn) h
  rcases Nat.eq_or_lt_of_le hlog with heq | hlt
  . have hulp : ulp n = ulp m := by
      unfold ulp
      rw [heq]
    unfold roundNat
    rw [hulp]
    apply Nat.mul_le_mul_right
    exact roundDiv_mono h
  . have hlow : n ≤ 2 ^ m.log2 := by
      apply Nat.le_of_lt
      exact (Nat.log2_lt hn).mp hlt
    apply Nat.le_trans (roundNat_le (ulp_dvd_two_pow hlog) hlow)
    apply le_roundNat (ulp_dvd_two_pow (Nat.le_refl _))
    exact Nat.log2_self_le (by omega)

theorem roundNat_error
    : 2 * roundNat n ≤ 2 * n + ulp n ∧ 2 * n ≤ 2 * roundNat n + ulp n :=
  roundDiv_error (ulp_pos n)

theorem ulp_le {k : Nat} (h : n < 2 ^ (k + 53)) : ulp n ≤ 2 ^ k := by
  by_cases hn : n = 0
  . subst hn
    exact Nat.one_le_two_pow
  have hlog := (Nat.log2_lt hn).mpr h
  unfold ulp
  apply Nat.pow_le_pow_right (by omega)
  omega

end

/-!
With a sign.
-/

theorem round_mono {x y : Int} (h : x ≤ y) : round x ≤ round y := by
  unfold round
  split
  . split
    . have := roundNat_mono (n := y.natAbs) (m := x.natAbs) (by omega)
      omega
    . omega
  . rw [if_neg (by omega)]
    have := roundNat_mono (n := x.natAbs) (m := y.natAbs) (by omega)
    omega

/--
Below `2^(k + 53)` the doubles are at most `2^k` apart.
-/
theorem round_error {z : Int} {k : Nat} (h : z.natAbs < 2 ^ (k + 53))
    : 2 * (round z - z).natAbs ≤ 2 ^ k := by
  have hulp := ulp_le h
  obtain ⟨hup, hlow⟩ := roundNat_error (n := z.natAbs)
  unfold round
  split <;> omega

/--
Integers below 2^53 are doubles.
-/
theorem round_eq_self {z : Int} (h : z.natAbs < 2 ^ 53) : round z = z := by
  have herror := round_error (k := 0) h
  omega

end Float8
