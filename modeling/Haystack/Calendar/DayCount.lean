/-
  This file defines the count of days from the start of 1970
  to a day of the Gregorian calendar, carried on without end
  in both directions, and the day that a count stands for.

  Years are counted from March on, so that the leap day is
  the last day of a year; 400 such years have 146097 days.

  Key definitions include:
    * `dayCount`
    * `CivilDay`
    * `CivilDay.ofCount`
    * `sundayFrom`
-/

namespace Haystack

/- Days in 400 years. -/
def daysPerEra : Int :=
  146097

/- Days from the first of March of year 0 to 1970. -/
def epochShift : Int :=
  719468

/- Months since March. -/
def marchMonth (month : Int) : Int :=
  if month ≤ 2 then month + 9 else month - 3

/- The year that started in March. -/
def marchYear (year month : Int) : Int :=
  if month ≤ 2 then year - 1 else year

/-
  Days from the start of 1970 to a day. A day number beyond
  the end of its month counts on into the next month.
-/
def dayCount (year month day : Int) : Int :=
  let y := marchYear year month
  let yearOfEra := y % 400
  let dayOfYear := (153 * marchMonth month + 2) / 5 + day - 1
  y / 400 * daysPerEra +
    (yearOfEra * 365 + yearOfEra / 4 - yearOfEra / 100) +
    dayOfYear - epochShift

/- A day of the Gregorian calendar. -/
structure CivilDay where
  year : Int
  month : Int
  day : Int
deriving DecidableEq, Repr

/- The day that is so many days after the start of 1970. -/
def CivilDay.ofCount (n : Int) : CivilDay :=
  let dayOfEra := (n + epochShift) % daysPerEra
  let yearOfEra :=
    (dayOfEra - dayOfEra / 1460 + dayOfEra / 36524 -
      dayOfEra / 146096) / 365
  let dayOfYear :=
    dayOfEra -
      (365 * yearOfEra + yearOfEra / 4 - yearOfEra / 100)
  let months := (5 * dayOfYear + 2) / 153
  let month := if months < 10 then months + 3 else months - 9
  let year :=
    yearOfEra + (n + epochShift) / daysPerEra * 400
  { year := if month ≤ 2 then year + 1 else year
    month
    day := dayOfYear - (153 * months + 2) / 5 + 1 }

/- The first Sunday on or after a day. -/
def sundayFrom (n : Int) : Int :=
  n + (3 - n) % 7

end Haystack
