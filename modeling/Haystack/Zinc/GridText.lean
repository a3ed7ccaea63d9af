import Haystack.Zinc.ValueText

/-
  This file defines how grids are written: a line about the
  grid, a line of column names, and a line for each row.

  Key definitions include:
    * `Zinc.metadataText`
    * `Zinc.columnNames`
    * `Zinc.rowText`
    * `Zinc.gridText`
    * `Zinc.encode`
-/

namespace Haystack

namespace Zinc

/- What is said about a grid, each tag after a space. -/
def metadataText (r : Record) : List Char :=
  r.entries.flatMap (fun e => ' ' :: Value.entryText e.1 e.2)

/-
  The keys of all rows, as they come up. There is always a
  column, so that the line of names is not blank.
-/
def columnNames (rows : List Record) : List String :=
  match (rows.flatMap Dict.keys).eraseDups with
  | [] => ["empty"]
  | names => names

/- A cell of a row, which may be empty. -/
def cellText
    (row : Record)
    (name : String) : List Char :=
  match row.get? name with
  | none => []
  | some value => value.text

/-
  The first cell of a row. If it were empty, the row of a
  single column would be a blank line.
-/
def firstCellText
    (row : Record)
    (name : String) : List Char :=
  match row.get? name with
  | none => ['N']
  | some value => value.text

/- The cells of a row with commas between them. -/
def rowText
    (row : Record) : List String → List Char
| [] => []
| first :: names =>
    firstCellText row first ++
      names.flatMap (fun name => ',' :: cellText row name)

/- A line. -/
def lineText (cs : List Char) : List Char :=
  cs ++ ['\n']

/- A grid, from its version to the end of its last line. -/
def gridText (g : Grid) : List Char :=
  let names := columnNames g.rows
  lineText ("ver:\"2.0\"".toList ++ metadataText g.metadata) ++
    lineText (List.intercalate [','] (names.map String.toList)) ++
    g.rows.flatMap (fun row => lineText (rowText row names))

/- The text of a grid. -/
def encode (g : Grid) : String :=
  String.ofList (gridText g)

end Zinc

end Haystack
