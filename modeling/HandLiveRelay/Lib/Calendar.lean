import Mathlib

/-!
This module contains the proleptic Gregorian calendar: the months of all years laid end to end,
where day 0 is the first of January 1970, and the number of the first day of each of them.
-/

namespace Calendar

def isLeapYear (year : Int) : Bool :=
  year % 4 = 0 && (year % 100 ≠ 0 || year % 400 = 0)

/--
The length of a month, which is a number from 1 to 12.
-/
def daysInMonth (year month : Int) : Int :=
  if month = 2 then
    if isLeapYear year then 29 else 28
  else if month = 4 ∨ month = 6 ∨ month = 9 ∨ month = 11 then
    30
  else
    31

/--
The number of a month, counted from January 1970.
-/
def monthIndex (year month : Int) : Int :=
  12 * (year - 1970) + (month - 1)

/--
The length of the month with a given number.
-/
def monthLength (k : Int) : Int :=
  daysInMonth (1970 + k / 12) (k % 12 + 1)

/--
The first day of the month with a given number: the months between January 1970 and it are laid end
to end, forwards or backwards from day 0.
-/
def firstDay : Int → Int
  | .ofNat n => ∑ i ∈ Finset.range n, monthLength i
  | .negSucc n => - ∑ i ∈ Finset.range (n + 1), monthLength (-(i : Int) - 1)

/--
A day lies in a month of a year.
-/
def InMonth (day year month : Int) : Prop :=
  1 ≤ month ∧ month ≤ 12 ∧ firstDay (monthIndex year month) ≤ day
    ∧ day < firstDay (monthIndex year month) + daysInMonth year month

theorem monthLength_monthIndex {year month : Int} (hlo : 1 ≤ month) (hhi : month ≤ 12)
    : monthLength (monthIndex year month) = daysInMonth year month := by
  unfold monthLength monthIndex
  have hyear : 1970 + (12 * (year - 1970) + (month - 1)) / 12 = year := by omega
  have hmonth : (12 * (year - 1970) + (month - 1)) % 12 + 1 = month := by omega
  rw [hyear, hmonth]

theorem firstDay_add_one (k : Int) : firstDay (k + 1) = firstDay k + monthLength k := by
  cases k with
  | ofNat n =>
    show ∑ i ∈ Finset.range (n + 1), monthLength i = _
    rw [Finset.sum_range_succ]
    rfl
  | negSucc n =>
    cases n with
    | zero =>
      show 0 = - ∑ i ∈ Finset.range 1, monthLength (-(i : Int) - 1) + monthLength (-1)
      rw [Finset.sum_range_one]
      exact (neg_add_cancel _).symm
    | succ n =>
      have hnext : Int.negSucc (n + 1) + 1 = Int.negSucc n := rfl
      have hlast : -((n + 1 : Nat) : Int) - 1 = Int.negSucc (n + 1) := by omega
      rw [hnext]
      show - ∑ i ∈ Finset.range (n + 1), monthLength (-(i : Int) - 1)
        = - ∑ i ∈ Finset.range (n + 1 + 1), monthLength (-(i : Int) - 1) + _
      rw [Finset.sum_range_succ _ (n + 1), hlast, neg_add, neg_add_cancel_right]

theorem monthLength_pos (k : Int) : 0 < monthLength k := by
  unfold monthLength daysInMonth
  split
  . split <;> decide
  . split <;> decide

theorem firstDay_strictMono : StrictMono firstDay := by
  apply strictMono_int_of_lt_succ
  intro k
  rw [firstDay_add_one]
  have := monthLength_pos k
  omega

/--
A day lies in the months from the one that starts before it to the one that starts after it.
-/
theorem le_of_firstDay {k k' d d' : Int} (h : firstDay k ≤ d) (h' : d' < firstDay (k' + 1))
    (hd : d ≤ d') : k ≤ k' := by
  have hlt : firstDay k < firstDay (k' + 1) := by omega
  have := firstDay_strictMono.lt_iff_lt.mp hlt
  omega

theorem inMonth_iff {day year month : Int} (hlo : 1 ≤ month) (hhi : month ≤ 12)
    : InMonth day year month ↔ firstDay (monthIndex year month) ≤ day
        ∧ day < firstDay (monthIndex year month + 1) := by
  unfold InMonth
  rw [firstDay_add_one, monthLength_monthIndex hlo hhi]
  simp [hlo, hhi]

/--
Later days lie in later months.
-/
theorem InMonth.monthIndex_le {day day' year year' month month' : Int} (h : InMonth day year month)
    (h' : InMonth day' year' month') (hle : day ≤ day')
    : monthIndex year month ≤ monthIndex year' month' := by
  have hday := (inMonth_iff h.1 h.2.1).mp h
  have hday' := (inMonth_iff h'.1 h'.2.1).mp h'
  exact le_of_firstDay hday.1 hday'.2 hle

theorem monthIndex_injective {year year' month month' : Int} (hlo : 1 ≤ month) (hhi : month ≤ 12)
    (hlo' : 1 ≤ month') (hhi' : month' ≤ 12)
    (h : monthIndex year month = monthIndex year' month') : year = year' ∧ month = month' := by
  unfold monthIndex at h
  omega

/--
A day lies in one month only.
-/
theorem InMonth.unique {day year year' month month' : Int} (h : InMonth day year month)
    (h' : InMonth day year' month') : year = year' ∧ month = month' := by
  apply monthIndex_injective h.1 h.2.1 h'.1 h'.2.1
  exact Int.le_antisymm (h.monthIndex_le h' le_rfl) (h'.monthIndex_le h le_rfl)

/-!
The closed form of the first days, with years that start in March.
-/

/--
The first day of the `mp`-th month after March of a year, where the year 0 starts on day 0.
-/
def marchDay (year mp : Int) : Int :=
  365 * year + year / 4 - year / 100 + year / 400 + (153 * mp + 2) / 5

/--
The first day of the month with a given number, counted from March of the year 0.
-/
def marchFirstDay (n : Int) : Int :=
  marchDay (n / 12) (n % 12)

theorem marchFirstDay_add {year mp : Int} (hlo : 0 ≤ mp) (hhi : mp < 12)
    : marchFirstDay (12 * year + mp) = marchDay year mp := by
  have hyear : (12 * year + mp) / 12 = year := by omega
  have hmp : (12 * year + mp) % 12 = mp := by omega
  rw [marchFirstDay, hyear, hmp]

/--
January 1970 is month 23638 after March of the year 0.
-/
theorem marchFirstDay_add_one (k : Int)
    : marchFirstDay (k + 23638 + 1) = marchFirstDay (k + 23638) + monthLength k := by
  obtain ⟨year, mp, hlo, hhi, hk⟩ : ∃ year mp : Int, 0 ≤ mp ∧ mp < 12
      ∧ k + 23638 = 12 * year + mp :=
    ⟨(k + 23638) / 12, (k + 23638) % 12, by omega, by omega, by omega⟩
  rw [hk, marchFirstDay_add hlo hhi]
  by_cases hlast : mp = 11
  . -- February, whose length makes up for the leap day of the year that ends with it
    have hnext : 12 * year + mp + 1 = 12 * (year + 1) + 0 := by omega
    have hyear : 1970 + k / 12 = year + 1 := by omega
    have hmonth : k % 12 + 1 = 2 := by omega
    rw [hnext, marchFirstDay_add le_rfl (by decide), monthLength, daysInMonth, hyear, if_pos hmonth,
      hlast]
    unfold marchDay isLeapYear
    split
    . next hleap =>
      simp only [Bool.and_eq_true, Bool.or_eq_true, decide_eq_true_eq] at hleap
      omega
    . next hleap =>
      simp only [Bool.and_eq_true, Bool.or_eq_true, decide_eq_true_eq] at hleap
      omega
  . have hnext : 12 * year + mp + 1 = 12 * year + (mp + 1) := by omega
    have hmonth : k % 12 + 1 ≠ 2 := by omega
    rw [hnext, marchFirstDay_add (by omega) (by omega), monthLength, daysInMonth, if_neg hmonth]
    unfold marchDay
    split
    . omega
    . interval_cases mp <;> omega

theorem firstDay_eq_marchFirstDay (k : Int) : firstDay k = marchFirstDay (k + 23638) - 719468 := by
  induction k using Int.induction_on with
  | zero => rfl
  | succ n ih =>
    have hnext : (n : Int) + 1 + 23638 = n + 23638 + 1 := by omega
    rw [firstDay_add_one, ih, hnext, marchFirstDay_add_one]
    omega
  | pred n ih =>
    have hstep := firstDay_add_one (-(n : Int) - 1)
    have hmarch := marchFirstDay_add_one (-(n : Int) - 1)
    have hnext : -(n : Int) - 1 + 1 = -n := by omega
    have hshift : -(n : Int) - 1 + 23638 + 1 = -n + 23638 := by omega
    rw [hnext] at hstep
    rw [hshift] at hmarch
    omega

end Calendar
