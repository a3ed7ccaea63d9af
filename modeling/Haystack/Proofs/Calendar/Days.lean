import Haystack.Calendar.DayCount
import Mathlib.Data.Int.ConditionallyCompleteOrder
import Mathlib.Tactic.IntervalCases

/-
  This file shows that days are counted as the Gregorian
  calendar has them: the count grows by one from each day to
  the next, it orders days by year, month and day, and each
  count stands for one day.

  Key definitions include:
    * `isLeapYear`
    * `daysInMonth`
    * `CivilDay.IsReal`
    * `CivilDay.count`
    * `CivilDay.next`
    * `CivilDay.IsBefore`

  Main declarations:
    * `CivilDay.count_next`
    * `CivilDay.count_lt_count`
    * `CivilDay.count_ofCount`
    * `CivilDay.ofCount_count`
-/

namespace Haystack

------------------------------------------------------------
-- The Calendar
------------------------------------------------------------

/- The year has a leap day. -/
def isLeapYear (year : Int) : Prop :=
  year % 4 = 0 ∧ (year % 100 ≠ 0 ∨ year % 400 = 0)

instance (year : Int) : Decidable (isLeapYear year) := by
  unfold isLeapYear
  infer_instance

/- The number of days of a month. -/
def daysInMonth (year month : Int) : Int :=
  if month = 2 then if isLeapYear year then 29 else 28
  else if month = 4 ∨ month = 6 ∨ month = 9 ∨ month = 11 then 30
  else 31

namespace CivilDay

/- The day is one of the calendar. -/
structure IsReal (d : CivilDay) : Prop where
  month_mem : 1 ≤ d.month ∧ d.month ≤ 12
  day_mem : 1 ≤ d.day ∧ d.day ≤ daysInMonth d.year d.month

/- Days from the start of 1970. -/
def count (d : CivilDay) : Int :=
  dayCount d.year d.month d.day

/- The day after a day. -/
def next (d : CivilDay) : CivilDay :=
  if d.day < daysInMonth d.year d.month then
    { d with day := d.day + 1 }
  else if d.month < 12 then ⟨d.year, d.month + 1, 1⟩
  else ⟨d.year + 1, 1, 1⟩

/- The day comes earlier by year, month and day. -/
def IsBefore (a b : CivilDay) : Prop :=
  a.year < b.year ∨
    (a.year = b.year ∧
      (a.month < b.month ∨
        (a.month = b.month ∧ a.day < b.day)))

end CivilDay

------------------------------------------------------------
-- Years from March On
------------------------------------------------------------

/- Days from the first of March of year 0 to that of a year. -/
def marchStart (year : Int) : Int :=
  365 * year + year / 4 - year / 100 + year / 400

/- The number of days of a year that starts in March. -/
def marchLength (year : Int) : Int :=
  if isLeapYear (year + 1) then 366 else 365

/- One year after the other, counted from March. -/
theorem marchStart_succ (year : Int) :
    marchStart (year + 1) =
      marchStart year + marchLength year := by
  unfold marchStart marchLength isLeapYear
  split_ifs <;> omega

/-
  The count of a day is that of the start of its year, from
  March on, and the days of whole months after it.
-/
theorem dayCount_eq_marchStart (year month day : Int) :
    dayCount year month day =
      marchStart (marchYear year month) +
        (153 * marchMonth month + 2) / 5 + day - 1 -
        epochShift := by
  unfold dayCount marchStart daysPerEra
  dsimp only
  omega

------------------------------------------------------------
-- Months
------------------------------------------------------------

/-
  The count of the first day of a month. Months are numbered
  through, twelve to a year, from January of year 0 on.
-/
def monthStart (n : Int) : Int :=
  dayCount (n / 12) (n % 12 + 1) 1

/- The number of a month. -/
def CivilDay.monthIndex (d : CivilDay) : Int :=
  12 * d.year + (d.month - 1)

/- Months other than February have their days every year. -/
theorem marchMonth_succ
    (year : Int)
    {month : Int}
    (hMonth : 1 ≤ month ∧ month < 12)
    (hFebruary : month ≠ 2) :
    (153 * marchMonth (month + 1) + 2) / 5 =
      (153 * marchMonth month + 2) / 5 +
        daysInMonth year month := by
  rcases hMonth with ⟨hLow, hHigh⟩
  interval_cases month <;>
    first
    | rfl
    | exact absurd rfl hFebruary

/- A month is as long as the calendar says. -/
theorem monthStart_succ (n : Int) :
    monthStart (n + 1) =
      monthStart n + daysInMonth (n / 12) (n % 12 + 1) := by
  obtain ⟨year, hYear⟩ : ∃ year, n / 12 = year := ⟨_, rfl⟩
  obtain ⟨month, hMonth⟩ : ∃ month, n % 12 + 1 = month := ⟨_, rfl⟩
  have hRange : 1 ≤ month ∧ month ≤ 12 := by omega
  unfold monthStart
  rw [dayCount_eq_marchStart, dayCount_eq_marchStart, hYear,
    hMonth]
  by_cases hDecember : month = 12
  · have hNext : (n + 1) / 12 = year + 1 ∧ (n + 1) % 12 = 0 := by
      omega
    rw [hNext.1, hNext.2, hDecember]
    have hSame :
        marchYear (year + 1) (0 + 1) = marchYear year 12 := by
      simp [marchYear]
    have hDays : daysInMonth year 12 = 31 := rfl
    rw [hSame, hDays]
    simp only [marchMonth]
    omega
  · have hNext : (n + 1) / 12 = year ∧ (n + 1) % 12 = month := by
      omega
    rw [hNext.1, hNext.2]
    by_cases hFebruary : month = 2
    · -- Its end is the end of a year from March on.
      have hMarch := marchStart_succ (year - 1)
      unfold marchLength at hMarch
      rw [sub_add_cancel] at hMarch
      have hYears :
          marchYear year (2 + 1) = year ∧
            marchYear year 2 = year - 1 :=
        ⟨rfl, rfl⟩
      rw [hFebruary, hYears.1, hYears.2, hMarch]
      simp only [marchMonth, daysInMonth]
      split_ifs <;> omega
    · have hSame :
          marchYear year (month + 1) = marchYear year month := by
        unfold marchYear
        split_ifs <;> omega
      rw [hSame, marchMonth_succ year (by omega) hFebruary]
      omega

theorem daysInMonth_pos (year month : Int) :
    0 < daysInMonth year month := by
  unfold daysInMonth
  split_ifs <;> omega

/- Later months start on later days. -/
theorem strictMono_monthStart : StrictMono monthStart := by
  apply strictMono_int_of_lt_succ
  intro n
  have hPos := daysInMonth_pos (n / 12) (n % 12 + 1)
  rw [monthStart_succ]
  omega

namespace CivilDay

section Days

variable {a b d : CivilDay}

/- The index of a month tells its year and its month. -/
theorem monthIndex_div
    (hd : d.IsReal) :
    d.monthIndex / 12 = d.year ∧
      d.monthIndex % 12 + 1 = d.month := by
  have hMonth := hd.month_mem
  unfold monthIndex
  omega

/- The days of a month follow each other. -/
theorem count_eq (hd : d.IsReal) :
    d.count = monthStart d.monthIndex + (d.day - 1) := by
  unfold count monthStart
  rw [(monthIndex_div hd).1, (monthIndex_div hd).2,
    dayCount_eq_marchStart, dayCount_eq_marchStart]
  omega

/- The next month starts where the days of this one end. -/
theorem monthStart_monthIndex_succ (hd : d.IsReal) :
    monthStart (d.monthIndex + 1) =
      monthStart d.monthIndex +
        daysInMonth d.year d.month := by
  rw [monthStart_succ, (monthIndex_div hd).1,
    (monthIndex_div hd).2]

------------------------------------------------------------
-- The Order of Days
------------------------------------------------------------

/- The day after a day of the calendar is one as well. -/
theorem IsReal.next (hd : d.IsReal) : d.next.IsReal := by
  have hMonth := hd.month_mem
  have hDay := hd.day_mem
  unfold CivilDay.next
  split_ifs with hInside hYear
  · exact ⟨hMonth, by dsimp only; omega⟩
  · have hPos := daysInMonth_pos d.year (d.month + 1)
    exact ⟨by dsimp only; omega, by dsimp only; omega⟩
  · have hPos := daysInMonth_pos (d.year + 1) 1
    exact ⟨by dsimp only; omega, by dsimp only; omega⟩

/-
  The next day is in the same month, or the first of the
  next one.
-/
theorem next_eq (hd : d.IsReal) :
    (d.next.monthIndex = d.monthIndex ∧
        d.next.day = d.day + 1) ∨
      (d.next.monthIndex = d.monthIndex + 1 ∧
        d.next.day = 1 ∧ d.day = daysInMonth d.year d.month) := by
  have hMonth := hd.month_mem
  have hDay := hd.day_mem
  unfold next
  split_ifs with hInside hYear
  · exact .inl ⟨rfl, rfl⟩
  · refine .inr ⟨?_, rfl, by omega⟩
    simp only [monthIndex]
    omega
  · refine .inr ⟨?_, rfl, by omega⟩
    simp only [monthIndex]
    omega

/- The count grows by one from each day to the next. -/
theorem count_next (hd : d.IsReal) :
    d.next.count = d.count + 1 := by
  have hSucc := monthStart_monthIndex_succ hd
  rw [count_eq hd, count_eq hd.next]
  rcases next_eq hd with
    ⟨hIndex, hDay⟩ | ⟨hIndex, hFirst, hLast⟩
  · rw [hIndex]
    omega
  · rw [hIndex]
    omega

/- An earlier day has a smaller count. -/
theorem count_lt_count
    (ha : a.IsReal)
    (hb : b.IsReal)
    (h : a.IsBefore b) :
    a.count < b.count := by
  have hDay := ha.day_mem
  have hDay' := hb.day_mem
  rw [count_eq ha, count_eq hb]
  rcases lt_or_eq_of_le (show a.monthIndex ≤ b.monthIndex by
    have hMonth := ha.month_mem
    have hMonth' := hb.month_mem
    unfold IsBefore at h
    unfold monthIndex
    omega) with hLess | hEq
  · -- Between the two days stands the end of a month.
    have hEnd := monthStart_monthIndex_succ ha
    have hMono :=
      strictMono_monthStart.monotone
        (show a.monthIndex + 1 ≤ b.monthIndex by omega)
    omega
  · rw [hEq]
    have hMonth := ha.month_mem
    have hMonth' := hb.month_mem
    unfold monthIndex at hEq
    unfold IsBefore at h
    omega

/- Of two different days one is before the other. -/
theorem isBefore_or_eq_or_isBefore (a b : CivilDay) :
    a.IsBefore b ∨ a = b ∨ b.IsBefore a := by
  rcases a with ⟨year, month, day⟩
  rcases b with ⟨year', month', day'⟩
  unfold IsBefore
  rw [CivilDay.mk.injEq]
  dsimp only
  omega

/- Different days have different counts. -/
theorem eq_of_count_eq
    (ha : a.IsReal)
    (hb : b.IsReal)
    (h : a.count = b.count) :
    a = b := by
  rcases isBefore_or_eq_or_isBefore a b with
    hBefore | hEq | hAfter
  · have hLess := count_lt_count ha hb hBefore
    omega
  · exact hEq
  · have hLess := count_lt_count hb ha hAfter
    omega

end Days

------------------------------------------------------------
-- The Day of a Count
------------------------------------------------------------

/- The day that is so many days after a first of March. -/
def ofMarch (year day : Int) : CivilDay :=
  let months := (5 * day + 2) / 153
  let month := if months < 10 then months + 3 else months - 9
  { year := if month ≤ 2 then year + 1 else year
    month
    day := day - (153 * months + 2) / 5 + 1 }

/- A day of that year is one of the calendar. -/
theorem count_ofMarch
    {year day : Int}
    (hLow : 0 ≤ day)
    (hHigh : day < marchLength year) :
    (ofMarch year day).IsReal ∧
      (ofMarch year day).count =
        marchStart year + day - epochShift := by
  obtain ⟨months, hMonths⟩ :
      ∃ months, (5 * day + 2) / 153 = months := ⟨_, rfl⟩
  have hRange : 0 ≤ months ∧ months ≤ 11 := by
    unfold marchLength at hHigh
    split_ifs at hHigh <;> omega
  unfold count
  rw [dayCount_eq_marchStart]
  unfold marchLength at hHigh
  unfold ofMarch
  rw [hMonths]
  dsimp only
  refine ⟨⟨?_, ?_⟩, ?_⟩
  · dsimp only
    split_ifs <;> omega
  · unfold daysInMonth
    dsimp only
    split_ifs at * <;> omega
  · have hYear : year + 1 - 1 = year := by omega
    unfold marchYear marchMonth
    split_ifs <;> first | rw [hYear]; omega | omega

end CivilDay

/-
  A day of 400 years: 100 years, but the last 100, lack the
  last day of their last four years.
-/
structure EraDay where
  century : Int
  cycle : Int
  year : Int
  day : Int
  century_mem : 0 ≤ century ∧ century ≤ 3
  cycle_mem : 0 ≤ cycle ∧ cycle ≤ 24
  year_mem : 0 ≤ year ∧ year ≤ 3
  day_mem :
    0 ≤ day ∧
      (day ≤ 364 ∨
        (day = 365 ∧ year = 3 ∧ (cycle < 24 ∨ century = 3)))

namespace EraDay

/- Days from the start of the 400 years. -/
def count (d : EraDay) : Int :=
  36524 * d.century + 1461 * d.cycle + 365 * d.year + d.day

/- Whole years from the start of the 400 years. -/
def years (d : EraDay) : Int :=
  100 * d.century + 4 * d.cycle + d.year

/- Each count is that of a day. -/
theorem exists_count_eq
    {n : Int}
    (hn : 0 ≤ n ∧ n < daysPerEra) :
    ∃ d : EraDay, d.count = n := by
  unfold daysPerEra at hn
  obtain ⟨century, hCentury, n', hn', rfl⟩ :
      ∃ century, (0 ≤ century ∧ century ≤ 3) ∧
        ∃ n', (0 ≤ n' ∧
          (n' < 36524 ∨ (n' = 36524 ∧ century = 3))) ∧
          n = 36524 * century + n' :=
    ⟨min 3 (n / 36524), by omega,
      n - 36524 * min 3 (n / 36524), by omega, by omega⟩
  obtain ⟨cycle, hCycle, n'', hn'', rfl⟩ :
      ∃ cycle, (0 ≤ cycle ∧ cycle ≤ 24) ∧
        ∃ n'', (0 ≤ n'' ∧
          (n'' < 1460 ∨
            (n'' = 1460 ∧ (cycle < 24 ∨ century = 3)))) ∧
          n' = 1461 * cycle + n'' :=
    ⟨n' / 1461, by omega, n' % 1461, by omega, by omega⟩
  obtain ⟨year, hYear, day, hDay, rfl⟩ :
      ∃ year, (0 ≤ year ∧ year ≤ 3) ∧
        ∃ day, (0 ≤ day ∧
          (day ≤ 364 ∨
            (day = 365 ∧ year = 3 ∧ n'' = 1460))) ∧
          n'' = 365 * year + day :=
    ⟨min 3 (n'' / 365), by omega,
      n'' - 365 * min 3 (n'' / 365), by omega, by omega⟩
  refine
    ⟨⟨century, cycle, year, day, hCentury, hCycle, hYear,
      by omega⟩, ?_⟩
  unfold count
  dsimp only
  omega

/- The years can be computed from the count. -/
theorem years_eq (d : EraDay) :
    d.years =
      (d.count - d.count / 1460 + d.count / 36524 -
        d.count / 146096) / 365 := by
  rcases d with
    ⟨century, cycle, year, day, hCentury, hCycle, hYear, hDay⟩
  obtain ⟨n, hn⟩ :
      ∃ n, 36524 * century + 1461 * cycle + 365 * year + day =
        n := ⟨_, rfl⟩
  have hCenturies : n / 36524 - n / 146096 = century := by
    by_cases hLast : n = 146096
    · omega
    · have hWhole : n / 36524 = century := by omega
      omega
  -- A cycle of four years has a day more than 1460.
  obtain ⟨more, hMore, hCycles⟩ :
      ∃ more, (0 ≤ more ∧ more ≤ day ∧ day < 365 + more) ∧
        n / 1460 = 25 * century + cycle + more :=
    ⟨n / 1460 - (25 * century + cycle), by omega, by omega⟩
  unfold years count
  dsimp only
  rw [hn]
  omega

theorem years_mem (d : EraDay) :
    0 ≤ d.years ∧ d.years < 400 := by
  have hCentury := d.century_mem
  have hCycle := d.cycle_mem
  have hYear := d.year_mem
  unfold years
  omega

/- In each 400 years the day is as far from their start. -/
theorem marchStart_years
    (d : EraDay)
    (era : Int) :
    marchStart (d.years + era * 400) + d.day =
      d.count + daysPerEra * era := by
  rcases d with
    ⟨century, cycle, year, day, hCentury, hCycle, hYear, hDay⟩
  unfold marchStart years count daysPerEra
  dsimp only
  omega

/- A year with a day 365 ends in a leap year. -/
theorem day_lt_marchLength
    (d : EraDay)
    (era : Int) :
    d.day < marchLength (d.years + era * 400) := by
  rcases d with
    ⟨century, cycle, year, day, hCentury, hCycle, hYear, hDay⟩
  unfold marchLength isLeapYear years
  dsimp only
  split_ifs <;> omega

end EraDay

namespace CivilDay

/- Each count is a day of some year that starts in March. -/
theorem exists_ofMarch (n : Int) :
    ∃ year day, 0 ≤ day ∧ day < marchLength year ∧
      marchStart year + day = n + epochShift ∧
      ofCount n = ofMarch year day := by
  have hMod :
      0 ≤ (n + epochShift) % daysPerEra ∧
        (n + epochShift) % daysPerEra < daysPerEra := by
    unfold daysPerEra
    omega
  rcases EraDay.exists_count_eq hMod with ⟨d, hd⟩
  obtain ⟨era, hEra⟩ :
      ∃ era, (n + epochShift) / daysPerEra = era := ⟨_, rfl⟩
  refine
    ⟨d.years + era * 400, d.day, d.day_mem.1,
      d.day_lt_marchLength era, ?_, ?_⟩
  · have hParts := Int.mul_ediv_add_emod (n + epochShift) daysPerEra
    rw [d.marchStart_years, hd, ← hEra]
    omega
  · have hDay :
        d.day =
          d.count - (365 * d.years + d.years / 4 - d.years / 100) := by
      have hStart := d.marchStart_years 0
      have hYears := d.years_mem
      unfold marchStart at hStart
      omega
    unfold ofCount ofMarch
    rw [hDay, d.years_eq, hd, hEra]

/- Each count is that of the day it stands for. -/
theorem count_ofCount (n : Int) :
    (ofCount n).IsReal ∧ (ofCount n).count = n := by
  rcases exists_ofMarch n with
    ⟨year, day, hLow, hHigh, hn, hDay⟩
  have hMarch := count_ofMarch hLow hHigh
  rw [hDay]
  refine ⟨hMarch.1, ?_⟩
  rw [hMarch.2, hn]
  omega

/- Each day is the one that its count stands for. -/
theorem ofCount_count
    {d : CivilDay}
    (hd : d.IsReal) :
    ofCount d.count = d := by
  have hCount := count_ofCount d.count
  exact eq_of_count_eq hCount.1 hd hCount.2

end CivilDay

end Haystack
