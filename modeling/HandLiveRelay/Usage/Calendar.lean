import HandLiveRelay.Lib.Calendar
import HandLiveRelay.Lib.Numeral
import HandLiveRelay.Lib.Overflow
import HandLiveRelay.Usage.Flush

/-!
This module contains the proof that the month of a time is its month in the Gregorian calendar. The
computation counts years from March and in eras of 400 years; each of its divisions is shown to
find the place of a day among the days `Calendar.marchDay` gives the starts of years and months.
-/

namespace HandLiveRelay.Usage

open Calendar

/-!
The stages of the computation, and each of them in checked arithmetic.
-/

/--
The year of an era on a day of the era.
-/
def yearOfEra (doe : Int) : Int :=
  (doe - doe / 1460 + doe / 36524 - doe / 146096) / 365

/--
The day of a year that starts in March, on a day of the era.
-/
def dayOfYear (doe : Int) : Int :=
  doe - (365 * yearOfEra doe + yearOfEra doe / 4 - yearOfEra doe / 100)

/--
The months from March to a day of the year.
-/
def monthsFromMarch (doy : Int) : Int :=
  (5 * doy + 2) / 153

theorem yearMonth_eq (nowMs : Int)
    : yearMonth nowMs =
        let z := nowMs / 86400000 + 719468
        let era := z / 146097
        let doe := z - era * 146097
        let mp := monthsFromMarch (dayOfYear doe)
        let month := if mp < 10 then mp + 3 else mp - 9
        (yearOfEra doe + era * 400 + if month ≤ 2 then 1 else 0, month) :=
  rfl

def yearOfEraI64 (doe : Int) : Option Int := do
  let days ← Int64.fit (doe - doe.tdiv 1460)
  let days ← Int64.fit (days + doe.tdiv 36524)
  let days ← Int64.fit (days - doe.tdiv 146096)
  return days.tdiv 365

def dayOfYearI64 (doe yoe : Int) : Option Int := do
  let days ← Int64.fit (365 * yoe)
  let days ← Int64.fit (days + yoe.tdiv 4)
  let days ← Int64.fit (days - yoe.tdiv 100)
  Int64.fit (doe - days)

def monthsFromMarchI64 (doy : Int) : Option Int := do
  let days ← Int64.fit (5 * doy)
  let days ← Int64.fit (days + 2)
  return days.tdiv 153

/--
The computation in 64 bits with overflow checks. A division by a positive constant cannot overflow,
and the month is cut to 32 bits in the end.
-/
def yearMonthI64 (nowMs : Int64) : Option (Int × Int) := do
  let z ← Int64.fit (nowMs.toInt / 86400000 + 719468)
  let era := z / 146097
  let doe ← Int64.fit (z - (← Int64.fit (era * 146097)))
  let yoe ← yearOfEraI64 doe
  let doy ← dayOfYearI64 doe yoe
  let mp ← monthsFromMarchI64 doy
  let month ← Int64.fit (if mp < 10 then mp + 3 else mp - 9)
  let year ← Int64.fit (yoe + (← Int64.fit (era * 400)))
  let year ← Int64.fit (year + if month ≤ 2 then 1 else 0)
  return (year, month % 2 ^ 32)

/-!
The years of an era. Day `36524 * c + 1461 * q + s` is day `s` of the four years `q` of century `c`.
-/

theorem marchDay_in_era {c q t : Int} (hc : 0 ≤ c) (hc' : c ≤ 3) (hq : 0 ≤ q) (hq' : q ≤ 24)
    (ht : 0 ≤ t) (ht' : t ≤ 3)
    : marchDay (100 * c + 4 * q + t) 0 = 36524 * c + 1461 * q + 365 * t := by
  have h4 : (100 * c + 4 * q + t) / 4 = 25 * c + q := by omega
  have h100 : (100 * c + 4 * q + t) / 100 = c := by omega
  have h400 : (100 * c + 4 * q + t) / 400 = 0 := by omega
  rw [marchDay, h4, h100, h400]
  omega

/--
The next year starts after the last day of the four years, or after the first day of its next year.
-/
theorem lt_marchDay_next {c q s : Int} (hc : 0 ≤ c) (hc' : c ≤ 3) (hq : 0 ≤ q) (hq' : q ≤ 24)
    (hs : 0 ≤ s) (hs' : s < 1461) (hcentury : 1461 * q + s < 36524 ∨ c = 3)
    : 36524 * c + 1461 * q + s < marchDay (100 * c + 4 * q + min (s / 365) 3 + 1) 0 := by
  by_cases ht : s / 365 < 3
  . have hyear : 100 * c + 4 * q + min (s / 365) 3 + 1 = 100 * c + 4 * q + (s / 365 + 1) := by omega
    rw [hyear, marchDay_in_era hc hc' hq hq' (by omega) (by omega)]
    omega
  . by_cases hblock : q < 24
    . have hyear : 100 * c + 4 * q + min (s / 365) 3 + 1 = 100 * c + 4 * (q + 1) + 0 := by omega
      rw [hyear, marchDay_in_era hc hc' (by omega) (by omega) le_rfl (by decide)]
      omega
    . by_cases hera : c < 3
      . have hyear : 100 * c + 4 * q + min (s / 365) 3 + 1 = 100 * (c + 1) + 4 * 0 + 0 := by omega
        rw [hyear, marchDay_in_era (by omega) (by omega) le_rfl (by decide) le_rfl (by decide)]
        omega
      . have hyear : 100 * c + 4 * q + min (s / 365) 3 + 1 = 400 := by omega
        have hlast : marchDay 400 0 = 146097 := rfl
        rw [hyear, hlast]
        omega

/--
What the divisions by 1460 and 365 make of a day: the year of its four years, the last of which
takes the leap day.
-/
theorem div_eq_year {c q s : Int} (hc : 0 ≤ c) (hc' : c ≤ 3) (hq : 0 ≤ q) (hq' : q ≤ 24)
    (hs : 0 ≤ s) (hs' : s < 1461)
    : (36524 * c + 1461 * q + s - (36524 * c + 1461 * q + s) / 1460 + c) / 365
        = 100 * c + 4 * q + min (s / 365) 3 := by
  have hleap : (36524 * c + 1461 * q + s) / 1460 = 25 * c + q + (24 * c + q + s) / 1460 := by
    omega
  have hshift : 36524 * c + 1461 * q + s - (25 * c + q + (24 * c + q + s) / 1460) + c
      = 365 * (100 * c + 4 * q) + (s - (24 * c + q + s) / 1460) := by
    omega
  rw [hleap, hshift, Int.mul_add_ediv_left _ _ (by decide)]
  omega

/--
The year of an era is the one whose days the day is among.
-/
theorem yearOfEra_spec {doe : Int} (hlo : 0 ≤ doe) (hhi : doe < 146097)
    : 0 ≤ yearOfEra doe ∧ yearOfEra doe < 400
        ∧ marchDay (yearOfEra doe) 0 ≤ doe ∧ doe < marchDay (yearOfEra doe + 1) 0 := by
  -- the last day of an era is a day more than its four centuries have
  obtain ⟨c, r, hc, hc', hr, hr', hcentury, hdoe, hdiv⟩ : ∃ c r : Int, 0 ≤ c ∧ c ≤ 3 ∧ 0 ≤ r
      ∧ r ≤ 36524 ∧ (r < 36524 ∨ c = 3) ∧ doe = 36524 * c + r
      ∧ doe / 36524 - doe / 146096 = c := by
    by_cases hlast : doe = 146096
    . subst hlast
      exact ⟨3, 36524, by decide⟩
    . exact ⟨doe / 36524, doe % 36524, by omega⟩
  obtain ⟨q, s, hq, hq', hs, hs', hblock⟩ : ∃ q s : Int, 0 ≤ q ∧ q ≤ 24 ∧ 0 ≤ s ∧ s < 1461
      ∧ r = 1461 * q + s :=
    ⟨r / 1461, r % 1461, by omega⟩
  rw [hblock, ← Int.add_assoc] at hdoe
  rw [hblock] at hcentury
  have hyear : yearOfEra doe = 100 * c + 4 * q + min (s / 365) 3 := by
    rw [yearOfEra, Int.add_sub_assoc, hdiv, hdoe]
    exact div_eq_year hc hc' hq hq' hs hs'
  rw [hyear]
  refine ⟨by omega, by omega, ?_, ?_⟩
  . rw [marchDay_in_era hc hc' hq hq' (by omega) (by omega)]
    omega
  . rw [hdoe]
    exact lt_marchDay_next hc hc' hq hq' hs hs' hcentury

theorem marchDay_add_era (year era mp : Int)
    : marchDay (year + era * 400) mp = marchDay year mp + era * 146097 := by
  have h4 : (year + era * 400) / 4 = year / 4 + era * 100 := by omega
  have h100 : (year + era * 400) / 100 = year / 100 + era * 4 := by omega
  have h400 : (year + era * 400) / 400 = year / 400 + era := by omega
  rw [marchDay, marchDay, h4, h100, h400]
  omega

theorem marchDay_eq_add (year mp : Int)
    : marchDay year mp = marchDay year 0 + (153 * mp + 2) / 5 := by
  unfold marchDay
  omega

theorem dayOfYear_eq {doe : Int} (hlo : 0 ≤ doe) (hhi : doe < 146097)
    : dayOfYear doe = doe - marchDay (yearOfEra doe) 0 := by
  have ⟨hnonneg, hlt, _, _⟩ := yearOfEra_spec hlo hhi
  have h400 : yearOfEra doe / 400 = 0 := Int.ediv_eq_zero_of_lt hnonneg hlt
  rw [dayOfYear, marchDay, h400]
  omega

theorem dayOfYear_bounds {doe : Int} (hlo : 0 ≤ doe) (hhi : doe < 146097)
    : 0 ≤ dayOfYear doe ∧ dayOfYear doe ≤ 365 := by
  have ⟨_, _, hstart, hend⟩ := yearOfEra_spec hlo hhi
  have hlength : marchDay (yearOfEra doe + 1) 0 ≤ marchDay (yearOfEra doe) 0 + 366 := by
    unfold marchDay
    omega
  rw [dayOfYear_eq hlo hhi]
  omega

theorem monthsFromMarch_spec {doy : Int} (hlo : 0 ≤ doy) (hhi : doy ≤ 365)
    : 0 ≤ monthsFromMarch doy ∧ monthsFromMarch doy < 12
        ∧ (153 * monthsFromMarch doy + 2) / 5 ≤ doy
        ∧ doy < (153 * (monthsFromMarch doy + 1) + 2) / 5 := by
  unfold monthsFromMarch
  omega

/--
The place of a day among the months counted from March of the year 0.
-/
theorem exists_march_month (z : Int)
    : ∃ year mp, 0 ≤ mp ∧ mp < 12
        ∧ year = yearOfEra (z - z / 146097 * 146097) + z / 146097 * 400
        ∧ mp = monthsFromMarch (dayOfYear (z - z / 146097 * 146097))
        ∧ marchFirstDay (12 * year + mp) ≤ z ∧ z < marchFirstDay (12 * year + mp + 1) := by
  generalize hera : z / 146097 = era
  generalize hdoe : z - era * 146097 = doe
  have hlo : 0 ≤ doe := by omega
  have hhi : doe < 146097 := by omega
  have ⟨hyoe, hyoe', hstart, hend⟩ := yearOfEra_spec hlo hhi
  have ⟨hdoy, hdoy'⟩ := dayOfYear_bounds hlo hhi
  have ⟨hmp, hmp', hmonth, hmonth'⟩ := monthsFromMarch_spec hdoy hdoy'
  have hday := dayOfYear_eq hlo hhi
  generalize monthsFromMarch (dayOfYear doe) = mp at hmp hmp' hmonth hmonth'
  refine ⟨_, mp, hmp, hmp', rfl, rfl, ?_, ?_⟩
  . rw [marchFirstDay_add hmp hmp', marchDay_add_era, marchDay_eq_add]
    omega
  . by_cases hlast : mp = 11
    . have hnext : 12 * (yearOfEra doe + era * 400) + mp + 1
          = 12 * (yearOfEra doe + 1 + era * 400) + 0 := by
        omega
      rw [hnext, marchFirstDay_add le_rfl (by decide), marchDay_add_era]
      omega
    . rw [Int.add_assoc _ mp 1, marchFirstDay_add (by omega) (by omega), marchDay_add_era,
        marchDay_eq_add]
      omega

/--
The month of a time is the month its day lies in.
-/
theorem inMonth_yearMonth (nowMs : Int)
    : InMonth (nowMs / 86400000) (yearMonth nowMs).1 (yearMonth nowMs).2 := by
  rw [yearMonth_eq]
  have ⟨year, mp, hmp, hmp', hyear, hmonths, hstart, hend⟩ :=
    exists_march_month (nowMs / 86400000 + 719468)
  dsimp only
  rw [← hyear, ← hmonths]
  generalize hmonth : (if mp < 10 then mp + 3 else mp - 9) = month
  generalize hcarry : (if month ≤ 2 then (1 : Int) else 0) = carry
  have hindex : monthIndex (year + carry) month + 23638 = 12 * year + mp
      ∧ 1 ≤ month ∧ month ≤ 12 := by
    unfold monthIndex
    split at hmonth <;> split at hcarry <;> omega
  rw [inMonth_iff hindex.2.1 hindex.2.2, firstDay_eq_marchFirstDay, firstDay_eq_marchFirstDay,
    Int.add_right_comm, hindex.1]
  omega

/-!
The computation does not overflow.
-/

theorem yearOfEraI64_eq {doe : Int} (hlo : 0 ≤ doe) (hhi : doe < 146097)
    : yearOfEraI64 doe = some (yearOfEra doe) := by
  have h1460 : 0 ≤ doe / 1460 ∧ doe / 1460 ≤ doe := by omega
  have h36524 : 0 ≤ doe / 36524 ∧ doe / 36524 ≤ 4 := by omega
  have h146096 : 0 ≤ doe / 146096 ∧ doe / 146096 ≤ doe / 36524 := by omega
  unfold yearOfEraI64 yearOfEra
  simp only [Option.bind_eq_bind, Int.tdiv_eq_ediv_of_nonneg hlo]
  generalize doe / 1460 = leaps at h1460 ⊢
  generalize doe / 36524 = centuries at h36524 h146096 ⊢
  generalize doe / 146096 = last at h146096 ⊢
  rw [Int64.fit_eq_some (by omega) (by omega), Option.bind_some,
    Int64.fit_eq_some (by omega) (by omega), Option.bind_some,
    Int64.fit_eq_some (by omega) (by omega), Option.bind_some,
    Int.tdiv_eq_ediv_of_nonneg (by omega)]
  rfl

theorem dayOfYearI64_eq {doe : Int} (hlo : 0 ≤ doe) (hhi : doe < 146097)
    : dayOfYearI64 doe (yearOfEra doe) = some (dayOfYear doe) := by
  have ⟨hyoe, hyoe', _, _⟩ := yearOfEra_spec hlo hhi
  unfold dayOfYearI64 dayOfYear
  generalize yearOfEra doe = yoe at hyoe hyoe' ⊢
  simp only [Option.bind_eq_bind, Int.tdiv_eq_ediv_of_nonneg hyoe]
  rw [Int64.fit_eq_some (by omega) (by omega), Option.bind_some,
    Int64.fit_eq_some (by omega) (by omega), Option.bind_some,
    Int64.fit_eq_some (by omega) (by omega), Option.bind_some,
    Int64.fit_eq_some (by omega) (by omega)]

theorem monthsFromMarchI64_eq {doy : Int} (hlo : 0 ≤ doy) (hhi : doy ≤ 365)
    : monthsFromMarchI64 doy = some (monthsFromMarch doy) := by
  unfold monthsFromMarchI64 monthsFromMarch
  simp only [Option.bind_eq_bind]
  rw [Int64.fit_eq_some (by omega) (by omega), Option.bind_some,
    Int64.fit_eq_some (by omega) (by omega), Option.bind_some,
    Int.tdiv_eq_ediv_of_nonneg (by omega)]
  rfl

theorem yearMonthI64_eq (nowMs : Int64) : yearMonthI64 nowMs = some (yearMonth nowMs.toInt) := by
  have hmin := nowMs.le_toInt
  have hmax := nowMs.toInt_lt
  rw [yearMonth_eq]
  unfold yearMonthI64
  simp only [Option.bind_eq_bind]
  generalize hz : nowMs.toInt / 86400000 + 719468 = z
  have hz' : -2 ^ 40 ≤ z ∧ z < 2 ^ 40 := by omega
  rw [Int64.fit_eq_some (by omega) (by omega), Option.bind_some]
  generalize hera : z / 146097 = era
  have hera' : -2 ^ 30 ≤ era ∧ era < 2 ^ 30 := by omega
  rw [Int64.fit_eq_some (by omega) (by omega), Option.bind_some]
  generalize hdoe : z - era * 146097 = doe
  have hlo : 0 ≤ doe := by omega
  have hhi : doe < 146097 := by omega
  have ⟨hyoe, hyoe', _, _⟩ := yearOfEra_spec hlo hhi
  have ⟨hdoy, hdoy'⟩ := dayOfYear_bounds hlo hhi
  have ⟨hmp, hmp', _, _⟩ := monthsFromMarch_spec hdoy hdoy'
  rw [Int64.fit_eq_some (by omega) (by omega), Option.bind_some,
    yearOfEraI64_eq hlo hhi, Option.bind_some,
    dayOfYearI64_eq hlo hhi, Option.bind_some,
    monthsFromMarchI64_eq hdoy hdoy', Option.bind_some]
  generalize monthsFromMarch (dayOfYear doe) = mp at hmp hmp' ⊢
  generalize yearOfEra doe = yoe at hyoe hyoe' ⊢
  have hmonth : 0 ≤ (if mp < 10 then mp + 3 else mp - 9)
      ∧ (if mp < 10 then mp + 3 else mp - 9) < 13 := by
    split <;> omega
  generalize (if mp < 10 then mp + 3 else mp - 9) = month at hmonth ⊢
  rw [Int64.fit_eq_some (by omega) (by omega), Option.bind_some,
    Int64.fit_eq_some (by omega) (by omega), Option.bind_some,
    Int64.fit_eq_some (by omega) (by omega), Option.bind_some,
    Int64.fit_eq_some (by split <;> omega) (by split <;> omega),
    Option.bind_some, Int.emod_eq_of_lt hmonth.1 (by omega)]
  rfl

/-!
The key of a salt.
-/

theorem parseInt_zeroPadded (width : Nat) (v : Int)
    : Decimal.parseInt (zeroPadded width v) = some v := by
  unfold zeroPadded
  dsimp only
  split
  . show (Decimal.parseNat (List.replicate _ '0' ++ Nat.toDigits 10 v.natAbs)).map
      (fun v : Nat => -(v : Int)) = some v
    rw [Decimal.parseNat_zeros, Option.map_some]
    congr 1
    omega
  . rw [List.nil_append, Decimal.parseInt_zeros]
    congr 1
    omega

theorem zeroPadded_injective {width : Nat} {v v' : Int}
    (h : zeroPadded width v = zeroPadded width v') : v = v' := by
  have hparse := parseInt_zeroPadded width v
  rw [h, parseInt_zeroPadded] at hparse
  exact (Option.some.inj hparse).symm

theorem length_zeroPadded_month {month : Int} (hlo : 1 ≤ month) (hhi : month ≤ 12)
    : (zeroPadded 2 month).length = 2 := by
  interval_cases month <;> rfl

theorem saltKey_eq (t : Int)
    : saltKey t = "usage_salt:" ++ String.ofList
        (zeroPadded 4 (yearMonth t).1 ++ '-' :: zeroPadded 2 (yearMonth t).2) :=
  rfl

theorem saltKey_eq_iff {t t' : Int} : saltKey t = saltKey t' ↔ yearMonth t = yearMonth t' := by
  constructor
  . intro h
    have hmonth := inMonth_yearMonth t
    have hmonth' := inMonth_yearMonth t'
    have hlen := length_zeroPadded_month hmonth.1 hmonth.2.1
    have hlen' := length_zeroPadded_month hmonth'.1 hmonth'.2.1
    rw [saltKey_eq, saltKey_eq] at h
    have htext := String.ofList_injective ((String.append_right_inj _).mp h)
    have ⟨hyear, hrest⟩ := List.append_inj' htext (by simp [hlen, hlen'])
    exact Prod.ext (zeroPadded_injective hyear) (zeroPadded_injective (List.cons.inj hrest).2)
  . intro h
    rw [saltKey_eq, saltKey_eq, h]

/-!
The months of two times.
-/

theorem yearMonth_eq_iff {t year month : Int}
    : yearMonth t = (year, month) ↔ InMonth (t / 86400000) year month := by
  constructor
  . intro h
    have hmonth := inMonth_yearMonth t
    rw [h] at hmonth
    exact hmonth
  . intro h
    have ⟨hyear, hmonth⟩ := (inMonth_yearMonth t).unique h
    exact Prod.ext hyear hmonth

theorem yearMonth_mono {t t' : Int} (h : t ≤ t')
    : monthIndex (yearMonth t).1 (yearMonth t).2 ≤ monthIndex (yearMonth t').1 (yearMonth t').2 :=
  (inMonth_yearMonth t).monthIndex_le (inMonth_yearMonth t') (by omega)

/--
The month of a time is another one than a millisecond before exactly at the start of a month.
-/
theorem yearMonth_ne_iff {t : Int}
    : yearMonth (t - 1) ≠ yearMonth t ↔ ∃ k, t = 86400000 * firstDay k := by
  have hmonth := inMonth_yearMonth t
  have hbounds := (inMonth_iff hmonth.1 hmonth.2.1).mp hmonth
  constructor
  . intro hne
    refine ⟨monthIndex (yearMonth t).1 (yearMonth t).2, ?_⟩
    by_contra hstart
    -- the millisecond before is on a day of the same month
    have hbefore : InMonth ((t - 1) / 86400000) (yearMonth t).1 (yearMonth t).2 := by
      rw [inMonth_iff hmonth.1 hmonth.2.1]
      omega
    exact hne (yearMonth_eq_iff.mpr hbefore)
  . intro ⟨k, hk⟩ heq
    have hbefore : InMonth ((t - 1) / 86400000) (yearMonth t).1 (yearMonth t).2 :=
      yearMonth_eq_iff.mp heq
    have hbefore := (inMonth_iff hmonth.1 hmonth.2.1).mp hbefore
    have hday : t / 86400000 = firstDay k := by omega
    rw [hday] at hbounds
    -- so month `k` is the month of the time, which the millisecond before does not belong to
    have hle := firstDay_strictMono.le_iff_le.mp hbounds.1
    have hlt := firstDay_strictMono.lt_iff_lt.mp hbounds.2
    have hindex : monthIndex (yearMonth t).1 (yearMonth t).2 = k := by omega
    rw [hindex] at hbefore
    omega

/--
The month of every time is its month in the Gregorian calendar, computed without an overflow. It
grows with the time and changes at the starts of the months, so the key of the salt is the same for
two times exactly when they lie in one month.
-/
theorem yearMonth_is_gregorian
    : (∀ nowMs : Int64, yearMonthI64 nowMs = some (yearMonth nowMs.toInt))
      ∧ (∀ t, 1 ≤ (yearMonth t).2 ∧ (yearMonth t).2 ≤ 12)
      ∧ (∀ t year month, yearMonth t = (year, month) ↔ InMonth (t / 86400000) year month)
      ∧ (∀ t t', t ≤ t' → (yearMonth t).1 < (yearMonth t').1
          ∨ (yearMonth t).1 = (yearMonth t').1 ∧ (yearMonth t).2 ≤ (yearMonth t').2)
      ∧ (∀ t, yearMonth (t - 1) ≠ yearMonth t ↔ ∃ k, t = 86400000 * firstDay k)
      ∧ ∀ t t', saltKey t = saltKey t' ↔ ∃ year month,
          InMonth (t / 86400000) year month ∧ InMonth (t' / 86400000) year month := by
  have hrange : ∀ t, 1 ≤ (yearMonth t).2 ∧ (yearMonth t).2 ≤ 12 :=
    fun t => ⟨(inMonth_yearMonth t).1, (inMonth_yearMonth t).2.1⟩
  refine ⟨yearMonthI64_eq, hrange, fun t year month => yearMonth_eq_iff, ?_,
    fun t => yearMonth_ne_iff, ?_⟩
  . intro t t' h
    have hmono := yearMonth_mono h
    have := hrange t
    have := hrange t'
    unfold monthIndex at hmono
    omega
  . intro t t'
    rw [saltKey_eq_iff]
    constructor
    . intro h
      have hmonth' := inMonth_yearMonth t'
      rw [← h] at hmonth'
      exact ⟨_, _, inMonth_yearMonth t, hmonth'⟩
    . intro ⟨year, month, h, h'⟩
      rw [yearMonth_eq_iff.mpr h, yearMonth_eq_iff.mpr h']

end HandLiveRelay.Usage
