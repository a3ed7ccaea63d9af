import Haystack.Tag.Name
import Haystack.Zinc.ValueReading

/-
  This file defines how grids, and lines of tags, are read.

  Key definitions include:
    * `Zinc.tag?`
    * `Zinc.tags`
    * `Zinc.columns`
    * `Zinc.row`
    * `Zinc.grid`
    * `Zinc.grids`
    * `Zinc.scalar`
    * `Zinc.dict`
    * `Zinc.diff`
    * `Zinc.decode`
    * `Zinc.cursorOfBytes`
-/

namespace Haystack

namespace Zinc

open Scan

------------------------------------------------------------
-- Tags
------------------------------------------------------------

/- A name, and the value unless it is null. -/
abbrev Tag := String × Option Value

/- The record that tags make; of one name the last counts. -/
def recordOf (tags : List Tag) : Record :=
  .ofEntries
    (tags.filterMap (fun t => t.2.map (fun v => (t.1, v))))

/- Read a tag with spaces after it, if there is one. -/
def tag? (zones : ZoneTable) : Scan (Option Tag) := do
  if (← current?).any isTagStart then
    let name ← TagName.scan
    skipSpace
    if (← current?) = some ':' then
      advance
      skipSpace
      let v ← value zones .zinc
      skipSpace
      return some (name.text, v)
    else return some (name.text, some .marker)
  else return none

/- Read tags up to something else. -/
def tags (zones : ZoneTable) : Scan Record := do
  return recordOf (← collect (tag? zones))

/-
  Read a tag that may have a comma after it. The colon and
  the value follow the name at once.
-/
def diffTag? (zones : ZoneTable) : Scan (Option Tag) := do
  if (← current?).any isTagStart then
    let name ← TagName.scan
    let v ←
      if (← current?) = some ':' then
        advance
        value zones .zinc
      else pure (some .marker)
    skipSpace
    if (← current?) = some ',' then
      advance
      skipSpace
    return some (name.text, v)
  else return none

------------------------------------------------------------
-- Columns and Rows
------------------------------------------------------------

/-
  Read the name of a column that is not known yet, and what
  is said about it, which rows do not keep.
-/
def column
    (zones : ZoneTable)
    (known : List String) : Scan String := do
  let name ← TagName.scan
  if name.text ∈ known then fail (.duplicateColumn name.text)
  skipSpace
  discard (tags zones)
  return name.text

/- Read a comma and one more column, if there is one. -/
def nextColumn?
    (zones : ZoneTable)
    (known : List String) :
    Scan (Option (List String)) := do
  if (← current?) = some ',' then
    advance
    skipSpace
    return some ((← column zones known) :: known)
  else return none

/- Read the names of all columns. -/
def columns (zones : ZoneTable) : Scan (List String) := do
  let first ← column zones []
  let behind ← iterate (nextColumn? zones) [first]
  return behind.reverse

/- Read a cell with the spaces around it. -/
def cell (zones : ZoneTable) : Scan (Option Value) := do
  skipSpace
  let next ← current?
  let v ←
    if next.all (fun c => c = ',' || c = '\n') then pure none
    else value zones .zinc
  skipSpace
  return v

/- Read a cell for each column. -/
def cells
    (zones : ZoneTable) :
    List String → Scan (List Tag)
| [] => pure []
| [name] => do
    let v ← cell zones
    return [(name, v)]
| name :: names => do
    let v ← cell zones
    expect ',' .cellComma
    return (name, v) :: (← cells zones names)

/- Read a row; the last one may end with the text. -/
def row
    (zones : ZoneTable)
    (names : List String) : Scan Record := do
  let tags ← cells zones names
  if (← current?).isSome then newline
  return recordOf tags

/- Read a row, unless there is a blank line or the end. -/
def row?
    (zones : ZoneTable)
    (names : List String) : Scan (Option Record) := do
  if (← current?).all (· = '\n') then return none
  else return some (← row zones names)

------------------------------------------------------------
-- Grids
------------------------------------------------------------

/- Read the version that every grid starts with. -/
def version : Scan Unit := do
  let name ← TagName.scan
  if name.text ≠ "ver" then fail (.header name.text)
  expect ':' .versionColon
  if (← current?) ≠ some '"' then wants .versionQuote
  let number ← quoted
  if number ≠ "2.0" then fail (.version number)
  skipSpace

/- Read a grid, with the blank line that may follow it. -/
def grid (zones : ZoneTable) : Scan Grid := do
  version
  let metadata ← tags zones
  newline
  let names ← columns zones
  newline
  let rows ← collect (row? zones names)
  if (← current?) = some '\n' then advance
  return ⟨metadata, rows⟩

/- Read a grid, unless the text has ended. -/
def grid? (zones : ZoneTable) : Scan (Option Grid) := do
  if (← current?).isSome then return some (← grid zones)
  else return none

/- Read grids up to the end. -/
def grids (zones : ZoneTable) : Scan (List Grid) :=
  collect (grid? zones)

------------------------------------------------------------
-- Whole Texts
------------------------------------------------------------

/- Read a value and nothing else. -/
def scalar (zones : ZoneTable) : Scan (Option Value) := do
  let v ← value zones .zinc
  finish
  return v

/- Read the tags of one record and nothing else. -/
def dict (zones : ZoneTable) : Scan Record := do
  skipSpace
  let record ← tags zones
  finish
  return record

/- Read the changes to a record and nothing else. -/
def diff (zones : ZoneTable) : Scan Record := do
  skipSpace
  let changes ← collect (diffTag? zones)
  finish
  return recordOf changes

/- The grid that a text starts with. -/
def decode (text : String) : Except Error Grid :=
  readAll (grid .builtin) text

/- All grids of a text. -/
def decodeAll (text : String) :
    Except Error (List Grid) :=
  readAll (grids .builtin) text

/- The value that a text is. -/
def decodeValue (text : String) :
    Except Error (Option Value) :=
  readAll (scalar .builtin) text

/- The record that a text is. -/
def decodeDict (text : String) : Except Error Record :=
  readAll (dict .builtin) text

/- The changes that a text is. -/
def decodeDiff (text : String) : Except Error Record :=
  readAll (diff .builtin) text

/- The start of the text that bytes spell. -/
def cursorOfBytes (bytes : List UInt8) :
    Except Error Cursor :=
  match Utf8.decode bytes with
  | .ok chars => .ok ⟨chars, 1⟩
  | .error e =>
      .error
        (.parse ⟨.invalidUtf8 e.index e.width, e.newlines + 1⟩)

------------------------------------------------------------
-- Dates and Times
------------------------------------------------------------

/- The date that a text is. -/
def decodeDate (text : String) : Except Error Date :=
  match decodeValue text with
  | .ok (some (.date d)) => .ok d
  | .ok _ => .error (.value (.notDate text))
  | .error e => .error e

/- The time that a text is. -/
def decodeTime (text : String) : Except Error Time :=
  match decodeValue text with
  | .ok (some (.time t)) => .ok t
  | .ok _ => .error (.value (.notTime text))
  | .error e => .error e

/- The date-time that a text is. -/
def decodeDateTime (text : String) :
    Except Error DateTime :=
  match decodeValue text with
  | .ok (some (.dateTime x)) => .ok x
  | .ok _ => .error (.value (.notDateTime text))
  | .error e => .error e

end Zinc

end Haystack
