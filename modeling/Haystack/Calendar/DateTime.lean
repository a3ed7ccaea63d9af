import Haystack.Calendar.Date
import Haystack.Calendar.DayCount
import Haystack.Calendar.Zone

/-
  This file defines dates with a time of day, in a zone, and
  with an offset that is written out beside it.

  Key definitions include:
    * `DateTime`
    * `DateTime.ofParts`
    * `DateTime.inZone`
    * `DateTime.ofEpoch`
    * `DateTime.epoch`
    * `DateTime.text`
-/

namespace Haystack

/-
  A date, a time and a zone. The offset, in seconds, has
  whole minutes; it need not follow the rules of the zone.
-/
structure DateTime where
  date : Date
  time : Time
  zone : Zone
  offset : Int
  offset_dvd : 60 ∣ offset
deriving Repr

/- The last year whose days have a count. -/
def lastCountedYear : Nat :=
  262142

/-
  Local time in milliseconds from 1970, up to the last year
  with counted days. Day 31 of a shorter month is a day of
  the next one.
-/
def localMillis?
    (date : Date)
    (time : Time) : Option Int :=
  if date.year ≤ lastCountedYear then
    some
      (dayCount date.year date.month date.day *
          millisPerDay +
        time.millisOfDay)
  else none

/- An offset without its seconds. -/
def wholeMinutes (offset : Int) : Int :=
  offset.tdiv 60 * 60

theorem dvd_wholeMinutes (offset : Int) :
    60 ∣ wholeMinutes offset :=
  Int.dvd_mul_left _ _

namespace DateTime

------------------------------------------------------------
-- Making
------------------------------------------------------------

/- A date-time with a given offset of whole minutes. -/
def ofParts
    (date : Date)
    (time : Time)
    (zone : Zone)
    (offset : Int) : Except ValueError DateTime :=
  if h : 60 ∣ offset then .ok ⟨date, time, zone, offset, h⟩
  else .error (.zoneOffset offset)

variable (rules : RegionRules)

/- What clocks of a zone show, with the offset they have. -/
def inZone
    (date : Date)
    (time : Time)
    (zone : Zone) : DateTime :=
  let offset :=
    match localMillis? date time with
    | some wall => zone.offsetAtLocal rules wall
    | none => zone.standardOffset rules
  ⟨date, time, zone, wholeMinutes offset,
    dvd_wholeMinutes offset⟩

/- The time of day at milliseconds after midnight. -/
def timeAt (millis : Nat) : Except ValueError Time :=
  Time.ofParts (millis / 3600000) (millis / 60000 % 60)
    (millis / 1000 % 60) (millis % 1000)

/- What clocks of a zone show at an instant. -/
def ofEpoch
    (epoch : Int)
    (zone : Zone) : Except ValueError DateTime := do
  let offset := wholeMinutes (zone.offsetAt rules epoch)
  let wall := epoch + offset * 1000
  if HasOffset wall then
    let day := CivilDay.ofCount (wall / millisPerDay)
    let date ←
      Date.ofParts day.year day.month.toNat day.day.toNat
    let time ← timeAt (wall % millisPerDay).toNat
    return ⟨date, time, zone, offset, dvd_wholeMinutes _⟩
  else throw (.epochMillis epoch)

------------------------------------------------------------
-- Comparing
------------------------------------------------------------

/-
  The instant, in milliseconds from 1970. Dates beyond the
  last counted year count as the start of 1970.
-/
def epoch (x : DateTime) : Int :=
  (localMillis? x.date x.time).getD 0 - x.offset * 1000

/- Date-times are the same if all that they show is. -/
instance : BEq DateTime where
  beq x y :=
    x.date = y.date && x.time = y.time &&
      x.zone.name = y.zone.name && x.offset = y.offset

/- Date-times are ordered by their instants. -/
instance : Ord DateTime where
  compare x y := compare x.epoch y.epoch

------------------------------------------------------------
-- Writing
------------------------------------------------------------

/- `Z`, or a sign, hours and minutes. -/
def offsetText (offset : Int) : List Char :=
  if offset = 0 then ['Z']
  else
    let sign := if offset < 0 then '-' else '+'
    [sign] ++ paddedText 2 (offset.natAbs / 3600) ++ [':'] ++
      paddedText 2 (offset.natAbs % 3600 / 60)

/- Date, time, offset and the name of the zone. -/
def text (x : DateTime) : List Char :=
  x.date.text ++ ['T'] ++ x.time.text ++
    offsetText x.offset ++ [' '] ++ x.zone.name.toList

end DateTime

end Haystack
