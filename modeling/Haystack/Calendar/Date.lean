import Haystack.Error
import Haystack.Text.Digits

/-
  This file defines calendar dates and times of day. Their
  parts are in range, but a month has always 31 days.

  Key definitions include:
    * `Date`
    * `Date.ofParts`
    * `Date.text`
    * `Time`
    * `Time.ofParts`
    * `Time.text`
-/

namespace Haystack

------------------------------------------------------------
-- Dates
------------------------------------------------------------

/- A day of a year from 1900 on. -/
structure Date where
  year : Nat
  month : Nat
  day : Nat
  year_mem : 1900 ≤ year ∧ year ≤ 2147483647
  month_mem : 1 ≤ month ∧ month ≤ 12
  day_mem : 1 ≤ day ∧ day ≤ 31
deriving DecidableEq, Repr

namespace Date

/- The date with these parts, if they are in range. -/
def ofParts
    (year : Int)
    (month day : Nat) : Except ValueError Date :=
  if hy : 1900 ≤ year ∧ year ≤ 2147483647 then
    if hm : 1 ≤ month ∧ month ≤ 12 then
      if hd : 1 ≤ day ∧ day ≤ 31 then
        .ok ⟨year.toNat, month, day, by omega, hm, hd⟩
      else .error (.day day)
    else .error (.month month)
  else .error (.year year)

/- Dates are ordered by year, month and day. -/
instance : Ord Date where
  compare a b :=
    (compare a.year b.year).then
      ((compare a.month b.month).then
        (compare a.day b.day))

/- A date with a four-digit year. -/
def text (d : Date) : List Char :=
  paddedText 4 d.year ++ ['-'] ++ paddedText 2 d.month ++
    ['-'] ++ paddedText 2 d.day

end Date

------------------------------------------------------------
-- Times of Day
------------------------------------------------------------

/- A time of day, to the millisecond. -/
structure Time where
  hour : Nat
  minute : Nat
  second : Nat
  millis : Nat
  hour_le : hour ≤ 23
  minute_le : minute ≤ 59
  second_le : second ≤ 59
  millis_le : millis ≤ 999
deriving DecidableEq, Repr

namespace Time

/- The time with these parts, if they are in range. -/
def ofParts
    (hour minute second millis : Nat) :
    Except ValueError Time :=
  if hh : hour ≤ 23 then
    if hm : minute ≤ 59 then
      if hs : second ≤ 59 then
        if hf : millis ≤ 999 then
          .ok ⟨hour, minute, second, millis, hh, hm, hs, hf⟩
        else .error (.millis millis)
      else .error (.second second)
    else .error (.minute minute)
  else .error (.hour hour)

/- Times are ordered from the hour down. -/
instance : Ord Time where
  compare a b :=
    (compare a.hour b.hour).then
      ((compare a.minute b.minute).then
        ((compare a.second b.second).then
          (compare a.millis b.millis)))

/- Milliseconds since midnight. -/
def millisOfDay (t : Time) : Int :=
  ((t.hour * 60 + t.minute) * 60 + t.second) * 1000 +
    t.millis

/- A fraction of a second, without zeros at its end. -/
def fractionText (millis : Nat) : List Char :=
  if millis = 0 then []
  else if millis % 100 = 0 then
    '.' :: paddedText 1 (millis / 100)
  else if millis % 10 = 0 then
    '.' :: paddedText 2 (millis / 10)
  else '.' :: paddedText 3 millis

/- A time, with a fraction only if there is one. -/
def text (t : Time) : List Char :=
  paddedText 2 t.hour ++ [':'] ++ paddedText 2 t.minute ++
    [':'] ++ paddedText 2 t.second ++ fractionText t.millis

end Time

end Haystack
