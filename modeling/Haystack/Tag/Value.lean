import Haystack.Calendar.DateTime
import Haystack.Tag.Coordinates
import Haystack.Tag.Dict
import Haystack.Tag.Number
import Haystack.Tag.Name
import Haystack.Tag.Resource

/-
  This file defines the values of tags, when two of them are
  the same, how they are ordered and how they are hashed.

  Key definitions include:
    * `Value`
    * `Kind`
    * `Value.kind`
    * `Value.same`
    * `Value.compare?`
    * `HashPart`
    * `Hasher`
    * `Value.hashParts`
    * `Record.hashParts`
-/

namespace Haystack

------------------------------------------------------------
-- Values
------------------------------------------------------------

/-
  The value of a tag. A marker says no more than that the
  tag is there, and `remove` takes it away.
-/
inductive Value where
| marker
| remove
| na
| bool (b : Bool)
| number (n : Number)
| str (text : String)
| uri (u : Uri)
| bin (mime : MimeType)
| coord (place : Coordinates)
| date (d : Date)
| time (t : Time)
| dateTime (x : DateTime)
| ref (r : Ref)
| list (items : List Value)
| dict (d : Dict Value)
deriving Repr

/- The kinds of values. -/
inductive Kind where
| marker
| remove
| na
| bool
| number
| str
| uri
| bin
| coord
| date
| time
| dateTime
| ref
| list
| dict
deriving DecidableEq, Repr

/- The name of a kind. -/
def Kind.name : Kind → String
| .marker => "marker"
| .remove => "remove"
| .na => "na"
| .bool => "bool"
| .number => "number"
| .str => "str"
| .uri => "uri"
| .bin => "bin"
| .coord => "coord"
| .date => "date"
| .time => "time"
| .dateTime => "dateTime"
| .ref => "ref"
| .list => "list"
| .dict => "dict"

namespace Value

/- The kind of a value. -/
def kind : Value → Kind
| .marker => .marker
| .remove => .remove
| .na => .na
| .bool _ => .bool
| .number _ => .number
| .str _ => .str
| .uri _ => .uri
| .bin _ => .bin
| .coord _ => .coord
| .date _ => .date
| .time _ => .time
| .dateTime _ => .dateTime
| .ref _ => .ref
| .list _ => .list
| .dict _ => .dict

------------------------------------------------------------
-- Sameness
------------------------------------------------------------

mutual

/-
  Values are the same if they are of one kind and their
  parts are the same.
-/
def same : Value → Value → Bool
| .marker, .marker => true
| .remove, .remove => true
| .na, .na => true
| .bool a, .bool b => a == b
| .number a, .number b => a == b
| .str a, .str b => a == b
| .uri a, .uri b => a == b
| .bin a, .bin b => a == b
| .coord a, .coord b => a == b
| .date a, .date b => a == b
| .time a, .time b => a == b
| .dateTime a, .dateTime b => a == b
| .ref a, .ref b => a == b
| .list as, .list bs => sameItems as bs
| .dict ⟨as⟩, .dict d =>
    as.length == d.size && sameEntries as d
| _, _ => false

/- Lists are the same item by item. -/
def sameItems : List Value → List Value → Bool
| [], [] => true
| a :: as, b :: bs => same a b && sameItems as bs
| _, _ => false

/- Each entry has the same value in the dict. -/
def sameEntries : List (String × Value) → Dict Value → Bool
| [], _ => true
| (key, a) :: as, d =>
    (match d.get? key with
      | some b => same a b
      | none => false) &&
      sameEntries as d

end

instance : BEq Value where
  beq := same

------------------------------------------------------------
-- Order
------------------------------------------------------------

/-
  Numbers, texts, dates, times and date-times are ordered,
  each among their own kind.
-/
def compare? : Value → Value → Option Ordering
| .number a, .number b => some (compare a b)
| .str a, .str b => some (compare a b)
| .date a, .date b => some (compare a b)
| .time a, .time b => some (compare a b)
| .dateTime a, .dateTime b => some (compare a b)
| _, _ => none

end Value

/- Dicts with values. -/
abbrev Record :=
  Dict Value

/- Records are the same in whatever order their keys are. -/
instance : BEq Record where
  beq a b :=
    a.size == b.size && Value.sameEntries a.entries b

------------------------------------------------------------
-- Hashes
------------------------------------------------------------

/- What values are made of, as it goes into a hash. -/
inductive HashPart where
| int (n : Int)
| word (bits : UInt64)
| text (text : String)
deriving Hashable

/- A hash of parts that come one after the other. -/
abbrev Hasher :=
  List HashPart → UInt64

/- The hash that tables use. -/
def Hasher.standard : Hasher :=
  hash

/- The bits of a number, and its unit if there is one. -/
def Number.hashParts (n : Number) : List HashPart :=
  .word n.value.bits ::
    match n.unit with
    | none => [.int 0]
    | some unit => [.int 1, .text unit.text]

/- Year, month and day. -/
def Date.hashParts (d : Date) : List HashPart :=
  [.int d.year, .int d.month, .int d.day]

/- The parts of a time, from the hour down. -/
def Time.hashParts (t : Time) : List HashPart :=
  [.int t.hour, .int t.minute, .int t.second, .int t.millis]

/- All that a date-time shows. -/
def DateTime.hashParts (x : DateTime) : List HashPart :=
  x.date.hashParts ++ x.time.hashParts ++
    [.text x.zone.name, .int x.offset]

namespace Value

mutual

/-
  The parts of a value, after a number for its kind. Of a
  dict only the sum of the hashes of its entries counts, so
  that their order does not.
-/
def hashParts
    (h : Hasher) : Value → List HashPart
| .marker => [.int 0]
| .remove => [.int 1]
| .na => [.int 2]
| .bool b => [.int 3, .int b.toNat]
| .number n => .int 4 :: n.hashParts
| .str text => [.int 5, .text text]
| .uri u => [.int 6, .text u.address]
| .bin mime => [.int 7, .text mime.name]
| .coord p => [.int 8, .int p.microLat, .int p.microLng]
| .date d => .int 9 :: d.hashParts
| .time t => .int 10 :: t.hashParts
| .dateTime x => .int 11 :: x.hashParts
| .ref r => [.int 12, .text r.id]
| .list items =>
    .int 13 :: .int items.length :: itemParts h items
| .dict ⟨entries⟩ =>
    [.int 14, .int entries.length,
      .word (entriesHash h entries)]

/- The parts of one item after the other. -/
def itemParts
    (h : Hasher) : List Value → List HashPart
| [] => []
| item :: items => hashParts h item ++ itemParts h items

/- The sum of the hashes of entries. -/
def entriesHash
    (h : Hasher) : List (String × Value) → UInt64
| [] => 0
| (key, value) :: entries =>
    h (.text key :: hashParts h value) + entriesHash h entries

end

instance : Hashable Value where
  hash v := Hasher.standard (v.hashParts .standard)

end Value

/- The size of a record, and the sum over its entries. -/
def Record.hashParts
    (h : Hasher)
    (r : Record) : List HashPart :=
  [.int r.size, .word (Value.entriesHash h r.entries)]

instance : Hashable Record where
  hash r := Hasher.standard (r.hashParts .standard)

end Haystack
