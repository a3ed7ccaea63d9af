import Haystack.Tag.Value

/-
  This file defines what is asked of a record, how one is
  changed by another, and tables of records.

  Key definitions include:
    * `Record.text?`
    * `Record.number?`
    * `Record.bool?`
    * `Record.ref?`
    * `Record.id?`
    * `Record.label?`
    * `Record.label`
    * `Record.merge`
    * `Grid`
    * `Grid.ofFailure`
-/

namespace Haystack

------------------------------------------------------------
-- Records
------------------------------------------------------------

namespace Record

/- The text under a key, if it is one. -/
def text?
    (r : Record)
    (key : String) : Option String :=
  match r.get? key with
  | some (.str text) => some text
  | _ => none

/- The number under a key, if it is one. -/
def number?
    (r : Record)
    (key : String) : Option Number :=
  match r.get? key with
  | some (.number n) => some n
  | _ => none

/- The truth value under a key, if it is one. -/
def bool?
    (r : Record)
    (key : String) : Option Bool :=
  match r.get? key with
  | some (.bool b) => some b
  | _ => none

/- The reference under a key, if it is one. -/
def ref?
    (r : Record)
    (key : String) : Option Ref :=
  match r.get? key with
  | some (.ref ref) => some ref
  | _ => none

/- The reference that names the record. -/
def id? (r : Record) : Option Ref :=
  ref? r "id"

/- The text under `dis`, or else under `name`. -/
def label? (r : Record) : Option String :=
  text? r "dis" <|> text? r "name"

/- The label, or else that of the id. -/
def label (r : Record) : String :=
  (label? r <|> (id? r).bind Ref.dis).getD "????"

/- Change one entry: `remove` takes the old one away. -/
def change
    (r : Record)
    (key : String) : Value → Record
| .remove => r.erase key
| value => r.insert key value

/- Change a record by each entry of another. -/
def merge (r diff : Record) : Record :=
  diff.entries.foldl (fun r e => change r e.1 e.2) r

end Record

------------------------------------------------------------
-- Grids
------------------------------------------------------------

/- A table of records, with a record about itself. -/
structure Grid where
  metadata : Record
  rows : List Record
deriving Repr

namespace Grid

instance : BEq Grid where
  beq a b := a.metadata == b.metadata && a.rows == b.rows

/- A grid about which nothing is said. -/
def ofRows (rows : List Record) : Grid :=
  ⟨.empty, rows⟩

/- The grid that reports a failure. -/
def ofFailure (message trace : String) : Grid :=
  ⟨.ofEntries
    [ ("err", .marker), ("dis", .str message),
      ("errTrace", .str trace)], []⟩

/- The number of rows. -/
def size (g : Grid) : Nat :=
  g.rows.length

/- There are no rows. -/
def isEmpty (g : Grid) : Bool :=
  g.rows.isEmpty

/- The grid reports a failure. -/
def isFailure (g : Grid) : Bool :=
  g.metadata.has "err"

/- What the grid reports, if it is a failure. -/
def failure? (g : Grid) : Option String :=
  if g.isFailure then Record.text? g.metadata "dis" else none

end Grid

end Haystack
