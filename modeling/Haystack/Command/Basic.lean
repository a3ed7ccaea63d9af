import Haystack.Command.Output
import Haystack.Filter.Reading
import Haystack.Store

/-
  This file defines the commands: check a filter, query a
  grid by a filter, and convert grids to JSON or back.

  Key definitions include:
    * `CheckResult`
    * `check`
    * `QueryOptions`
    * `query`
    * `ConvertOptions`
    * `convert`
-/

namespace Haystack

open CommandError

------------------------------------------------------------
-- Checking Filters
------------------------------------------------------------

/- What is found out about a filter. -/
structure CheckResult where
  canonical : String
  multiHop : Bool
deriving DecidableEq, Repr

/- Read a filter, and tell its text and how far it reaches. -/
def check (filter : String) :
    Except CommandError CheckResult := do
  let f ← ofLibrary (Filter.parse filter)
  return ⟨String.ofList f.text, f.isMultiHop⟩

------------------------------------------------------------
-- Querying Grids
------------------------------------------------------------

/- The filter to query by, and how to answer. -/
structure QueryOptions where
  filter : String
  format : OutputFormat
  fillLabels : Bool
deriving DecidableEq, Repr

/- The rows that a filter includes, and the grid's tags. -/
def queryGrid
    (f : Filter)
    (fillLabels : Bool)
    (g : Grid) : Except ValueError Grid := do
  let store ←
    Store.ofRows
      (g.rows.filter (fun r => (Record.id? r).isSome))
  let rows := g.rows.filter (store.includes f)
  return ⟨g.metadata,
    if fillLabels then rows.map store.fillLabels else rows⟩

/- Query a grid. Rows with an id are found by references. -/
def query
    (options : QueryOptions)
    (input : Option String) :
    Except CommandError String := do
  let f ← ofLibrary (Filter.parse options.filter)
  let g ← ofLibrary (Zinc.decode (← need input))
  match queryGrid f options.fillLabels g with
  | .ok result => return options.format.render result
  | .error e => throw (.library (.value e))

------------------------------------------------------------
-- Converting Grids
------------------------------------------------------------

/- The direction to convert in, and how to answer. -/
structure ConvertOptions where
  fromJson : Bool
  pretty : Bool
deriving DecidableEq, Repr

/-
  Convert all grids of a text to JSON, each a document on
  its own, or the one grid of a JSON text to a grid's text.
-/
def convert
    (options : ConvertOptions)
    (input : Option String) :
    Except CommandError String := do
  let source ← need input
  if options.fromJson then
    match Grid.ofJsonText source with
    | .ok g => return OutputFormat.zinc.render g
    | .error e => throw (.library e)
  else
    let format := OutputFormat.ofFlags true options.pretty
    let grids ← ofLibrary (Zinc.decodeAll source)
    return String.intercalate "\n" (grids.map format.render)

end Haystack
