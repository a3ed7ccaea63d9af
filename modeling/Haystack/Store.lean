import Haystack.Filter.Basic
import Std.Data.HashMap

/-
  This file defines stores: records by the id of their own
  reference, in the order in which the ids came. A filter is
  evaluated with the store itself to look up references.

  Key definitions include:
    * `Store`
    * `Store.toList`
    * `Store.insert`
    * `Store.update`
    * `Store.remove`
    * `Store.scan`
    * `Store.readAll`
    * `Store.deleteAll`
    * `Store.fillLabels`
-/

namespace Haystack

/- Records by id, and the ids in order. -/
structure Store where
  records : Std.HashMap String Record
  order : Array String

namespace Store

------------------------------------------------------------
-- Contents
------------------------------------------------------------

/- A store without records. -/
def empty : Store :=
  ⟨∅, #[]⟩

/- The number of records. -/
def size (s : Store) : Nat :=
  s.order.size

/- There are no records. -/
def isEmpty (s : Store) : Bool :=
  s.order.isEmpty

/- The record with an id. -/
def find?
    (s : Store)
    (id : String) : Option Record :=
  s.records[id]?

/- All records in order. -/
def toList (s : Store) : List Record :=
  s.order.toList.filterMap s.find?

------------------------------------------------------------
-- Changes
------------------------------------------------------------

/- The id that a record is stored by. -/
def idOf (record : Record) : Except ValueError String :=
  match Record.id? record with
  | some r => .ok r.id
  | none => .error .recordWithoutId

/-
  Store a record, and give back the one that it replaces. A
  new id comes last.
-/
def insert
    (s : Store)
    (record : Record) :
    Except ValueError (Store × Option Record) := do
  let id ← idOf record
  let previous := s.find? id
  let order :=
    if previous.isSome then s.order else s.order.push id
  return (⟨s.records.insert id record, order⟩, previous)

/- Replace a record, if there is one with its id. -/
def update
    (s : Store)
    (record : Record) :
    Except ValueError (Store × Bool) := do
  let id ← idOf record
  if (s.find? id).isSome then
    return (⟨s.records.insert id record, s.order⟩, true)
  else return (s, false)

/- Take a record away, and give it back. -/
def remove
    (s : Store)
    (id : String) : Store × Option Record :=
  match s.find? id with
  | some record =>
      (⟨s.records.erase id, s.order.filter (· ≠ id)⟩,
        some record)
  | none => (s, none)

/- Store records one after the other. -/
def insertAll
    (s : Store)
    (rows : List Record) : Except ValueError Store :=
  rows.foldlM (fun s row => return (← s.insert row).1) s

/- The store of these records. -/
def ofRows (rows : List Record) : Except ValueError Store :=
  empty.insertAll rows

------------------------------------------------------------
-- Reading
------------------------------------------------------------

/- The filter includes a record of the store. -/
def includes
    (s : Store)
    (f : Filter)
    (record : Record) : Bool :=
  f.includes s.find? record

/- The first record that a filter includes. -/
def read
    (s : Store)
    (f : Filter) : Option Record :=
  s.toList.find? (s.includes f)

/-
  Visit the records that satisfy a condition until the visit
  is done. The count of visits goes on from `n`.
-/
def visit
    {σ : Type}
    (p : Record → Bool)
    (step : σ → Record → ForInStep σ) :
    List Record → σ → Nat → σ × Nat
| [], state, n => (state, n)
| record :: records, state, n =>
    if p record then
      match step state record with
      | .done state => (state, n + 1)
      | .yield state => visit p step records state (n + 1)
    else visit p step records state n

/-
  Visit the records that a filter includes, in order, and
  count the visits.
-/
def scan
    {σ : Type}
    (s : Store)
    (f : Filter)
    (step : σ → Record → ForInStep σ)
    (state : σ) : σ × Nat :=
  visit (s.includes f) step s.toList state 0

/- All records that a filter includes. -/
def readAll
    (s : Store)
    (f : Filter) : List Record :=
  (s.scan f (fun found r => .yield (r :: found)) []).1.reverse

/- The number of records that a filter includes. -/
def count
    (s : Store)
    (f : Filter) : Nat :=
  (s.scan f (fun state _ => .yield state) ()).2

/-
  Take away all records that a filter includes, and count
  them. The filter is evaluated before any is taken away.
-/
def deleteAll
    (s : Store)
    (f : Filter) : Store × Nat :=
  let ids :=
    (s.toList.filter (s.includes f)).filterMap
      (fun r => (Record.id? r).map Ref.id)
  (ids.foldl (fun s id => (s.remove id).1) s, ids.length)

------------------------------------------------------------
-- Labels
------------------------------------------------------------

/-
  A value with the label of its target, if it is a reference
  to a stored record that has one.
-/
def labelled
    (s : Store) : Value → Value
| .ref r =>
    match (s.find? r.id).bind Record.label? with
    | some label => .ref ⟨r.id, some label, r.valid⟩
    | none => .ref r
| value => value

/- A record with labels at all references but its own id. -/
def fillLabels
    (s : Store)
    (record : Record) : Record :=
  ⟨record.entries.map
    (fun e =>
      if e.1 = "id" then e else (e.1, s.labelled e.2))⟩

/- All records that a filter includes, with labels. -/
def readAllLabelled
    (s : Store)
    (f : Filter) : List Record :=
  (s.readAll f).map s.fillLabels

end Store

end Haystack
