import Mathlib

/-!
This module contains the arithmetic of signed 64 bit numbers as a build with overflow checks does
it, where an operation whose result does not fit is `none`, and when it agrees with the arithmetic
that wraps around.
-/

namespace Int64

def checkedSub (a b : Int64) : Option Int64 :=
  if -2 ^ 63 ≤ a.toInt - b.toInt ∧ a.toInt - b.toInt < 2 ^ 63 then
    some (a - b)
  else
    none

def checkedAbs (a : Int64) : Option Int64 :=
  if a.toInt = -2 ^ 63 then
    none
  else
    some a.abs

/--
The result of an operation, given as an integer.
-/
def fit (v : Int) : Option Int :=
  if -2 ^ 63 ≤ v ∧ v < 2 ^ 63 then
    some v
  else
    none

theorem fit_eq_some {v : Int} (hlo : -2 ^ 63 ≤ v) (hhi : v < 2 ^ 63) : fit v = some v :=
  if_pos ⟨hlo, hhi⟩

theorem toInt_sub_of_fits {a b : Int64} (hlo : -2 ^ 63 ≤ a.toInt - b.toInt)
    (hhi : a.toInt - b.toInt < 2 ^ 63) : (a - b).toInt = a.toInt - b.toInt := by
  rw [toInt_sub]
  exact Int.bmod_eq_of_le_mul_two (by omega) (by omega)

theorem toInt_abs_of_ne {a : Int64} (h : a.toInt ≠ -2 ^ 63) : a.abs.toInt = a.toInt.natAbs := by
  have habs : a.abs.toInt = a.toBitVec.abs.toInt := rfl
  have ha : a.toInt = a.toBitVec.toInt := rfl
  have hlo := a.le_toInt
  have hhi := a.toInt_lt
  rw [ha] at hlo hhi h
  rw [habs, ha, BitVec.abs_eq, BitVec.msb_eq_toInt]
  split
  . next hneg =>
    have hneg := of_decide_eq_true hneg
    rw [BitVec.toInt_neg, Int.bmod_eq_of_le_mul_two (by omega) (by omega)]
    omega
  . next hneg =>
    rw [decide_eq_true_eq, Int.not_lt] at hneg
    omega

end Int64
