import Haystack.Tag.Name
import Haystack.Tag.Record

/-
  This file defines paths: the name of a tag of a record, or
  a chain of names, each but the last naming a reference to
  the record that the next one is looked up in.

  Key definitions include:
    * `Path`
    * `Path.names`
    * `Path.ofText`
    * `Path.text`
    * `Path.scan`
    * `Resolver`
    * `Path.find?`
-/

namespace Haystack

/- The first name and those after each arrow. -/
structure Path where
  first : TagName
  hops : List TagName
deriving DecidableEq, Repr

/- How records are found by their id. -/
abbrev Resolver :=
  String → Option Record

/- No record is found. -/
def Resolver.none : Resolver :=
  fun _ => .none

namespace Path

/- All names, of which there is at least one. -/
def names (p : Path) : List String :=
  (p.first :: p.hops).map TagName.text

/- The path leads to other records. -/
def isMultiHop (p : Path) : Bool :=
  !p.hops.isEmpty

------------------------------------------------------------
-- Text
------------------------------------------------------------

/- The text before the first arrow, and those after each. -/
def splitArrows : List Char → List Char × List (List Char)
| [] => ([], [])
| '-' :: '>' :: cs =>
    let rest := splitArrows cs
    ([], rest.1 :: rest.2)
| c :: cs =>
    let rest := splitArrows cs
    (c :: rest.1, rest.2)

/- The path with these names. -/
def ofText (text : String) : Except FilterError Path := do
  let name (segment : List Char) : Except FilterError TagName :=
    match TagName.ofText? segment with
    | some name => .ok name
    | none => .error (.path text (String.ofList segment))
  let segments := splitArrows text.toList
  let first ← name segments.1
  let hops ← segments.2.mapM name
  return ⟨first, hops⟩

/- The names with arrows between them. -/
def text (p : Path) : List Char :=
  List.intercalate ['-', '>'] (p.names.map String.toList)

open Scan in
/- Read an arrow and the name after it, if there is one. -/
def hop? : Scan (Option TagName) := do
  if (← current?) = some '-' ∧ (← next?) = some '>' then
    advance
    advance
    return some (← TagName.scan)
  else return none

/- Read a path. -/
def scan : Scan Path := do
  let first ← TagName.scan
  let hops ← Scan.collect hop?
  return ⟨first, hops⟩

------------------------------------------------------------
-- Looking Up
------------------------------------------------------------

/- Follow names from a record on. -/
def follow
    (resolve : Resolver)
    (record : Record)
    (name : TagName) :
    List TagName → Option Value
| [] => record.get? name.text
| next :: hops =>
    match (Record.ref? record name.text).bind
        (fun r => resolve r.id) with
    | some target => follow resolve target next hops
    | none => none

/- The value at the end of a path, if it leads anywhere. -/
def find?
    (p : Path)
    (resolve : Resolver)
    (record : Record) : Option Value :=
  follow resolve record p.first p.hops

end Path

end Haystack
