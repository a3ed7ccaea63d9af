import Haystack.Calendar.DayCount
import Haystack.Calendar.Zone

/-
  This file defines how the offset of a place from universal
  time changed: at which instants, in seconds from 1970, and
  to how many seconds east.

  Key definitions include:
    * `OffsetChange`
    * `History`
    * `History.offsetAt`
    * `History.localOffset?`
    * `History.rule`
    * `SundayChange`
    * `recurring`
-/

namespace Haystack

/- From this instant on, this offset. -/
structure OffsetChange where
  instant : Int
  offset : Int
deriving DecidableEq, Repr

/-
  The offset before all changes, the changes in ascending
  order, and the offset of today without daylight saving.
-/
structure History where
  first : Int
  changes : List OffsetChange
  standard : Int
deriving DecidableEq, Repr

namespace History

/- A place that never changes its offset. -/
def constant (offset : Int) : History :=
  ⟨offset, [], offset⟩

/- The offset at an instant: that of the last change. -/
def offsetAt
    (h : History)
    (instant : Int) : Int :=
  h.changes.foldl
    (fun offset change =>
      if change.instant ≤ instant then change.offset
      else offset)
    h.first

/- Every offset that was ever in force. -/
def offsets (h : History) : List Int :=
  h.first :: h.changes.map OffsetChange.offset

/-
  The offset at a local time. If clocks showed that time
  twice, the smaller offset, which belongs to the later of
  the two instants; if never, none.
-/
def localOffset?
    (h : History)
    (localTime : Int) : Option Int :=
  (h.offsets.filter
    (fun o => h.offsetAt (localTime - o) = o)).min?

/- The rule of a place with that history. -/
def rule (h : History) : OffsetRule where
  standard := h.standard
  offsetAt := fun epoch => h.offsetAt (epoch / 1000)
  localOffset? := fun wall => h.localOffset? (wall / 1000)

end History

------------------------------------------------------------
-- Changes that Come Back Each Year
------------------------------------------------------------

/-
  A change on the first Sunday on or after a day of a month.
  `second` counts from the start of that Sunday in universal
  time, and may lie before it.
-/
structure SundayChange where
  month : Int
  earliest : Int
  second : Int
  offset : Int
deriving DecidableEq, Repr

/- The change of one year. -/
def SundayChange.inYear
    (c : SundayChange)
    (year : Nat) : OffsetChange :=
  let day := sundayFrom (dayCount year c.month c.earliest)
  ⟨day * 86400 + c.second, c.offset⟩

/- The changes of a run of years. -/
def recurring
    (firstYear years : Nat)
    (changes : List SundayChange) :
    List OffsetChange :=
  (List.range' firstYear years).flatMap
    (fun year => changes.map (·.inYear year))

end Haystack
