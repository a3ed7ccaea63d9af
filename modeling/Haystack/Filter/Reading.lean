import Haystack.Filter.Basic
import Haystack.Zinc.ValueReading

/-
  This file defines how filters are read. `and` binds closer
  than `or`, `!` closer than both, and filters joined by the
  same word are grouped from the left.

  Key definitions include:
    * `Filter.joined`
    * `Filter.chain`
    * `Filter.anyOf`
    * `Filter.predicate`
    * `Filter.atomWithin`
    * `Filter.scan`
    * `Filter.parse`
-/

namespace Haystack

namespace Filter

open Scan

------------------------------------------------------------
-- Conditions on One Path
------------------------------------------------------------

/- What may stand between a path and a value. -/
inductive Operator where
| cmp (op : Comparison)
| like (ignoreCase : Bool)
deriving DecidableEq, Repr

/- The operator that two characters start, and its length. -/
def operatorAt? :
    Option Char → Option Char → Option (Operator × Nat)
| some '=', some '=' => some (.cmp .eq, 2)
| some '!', some '=' => some (.cmp .ne, 2)
| some '<', some '=' => some (.cmp .le, 2)
| some '>', some '=' => some (.cmp .ge, 2)
| some '<', _ => some (.cmp .lt, 1)
| some '>', _ => some (.cmp .gt, 1)
| some '~', some '~' => some (.like true, 2)
| some '~', _ => some (.like false, 1)
| _, _ => none

/- Step over characters, as many as there are. -/
def advanceBy : Nat → Scan Unit
| 0 => pure ()
| n + 1 => do
    advance
    advanceBy n

/- Read an operator with spaces after it, if there is one. -/
def operator? : Scan (Option Operator) := do
  match operatorAt? (← current?) (← next?) with
  | none => return none
  | some (op, length) =>
      advanceBy length
      skipSpace
      return some op

/- Read the value after an operator. -/
def operand (zones : ZoneTable) : Scan Value := do
  match ← Zinc.value zones .filter with
  | some v => return v
  | none => fail .operand

/- Read a path, and what it is compared with, if anything. -/
def predicate (zones : ZoneTable) : Scan Filter := do
  let path ← Path.scan
  skipSpace
  if path.names = ["not"] then return .missing (← Path.scan)
  else
    match ← operator? with
    | none => return .has path
    | some (.cmp op) =>
        return .cmp path op (← operand zones)
    | some (.like ignoreCase) =>
        let line ← line
        let pattern ← operand zones
        constructAt line
          (orFilterError (ofLike path pattern ignoreCase))

------------------------------------------------------------
-- Joined Filters
------------------------------------------------------------

/- The first letter of a keyword. -/
def initial : Keyword → Char
| .and => 'a'
| .or => 'o'

/-
  Read a keyword, if there is a name with its first letter,
  which must be that keyword then.
-/
def joined (word : Keyword) : Scan Bool := do
  skipSpace
  if (← current?) = some (initial word) then
    let name ← TagName.scan
    if name.text ≠ word.text then fail (.keyword word)
    skipSpace
    return true
  else return false

/- The filter that a keyword makes of two. -/
def join : Keyword → Filter → Filter → Filter
| .and => .and
| .or => .or

/- Read one more part, if a keyword announces it. -/
def nextPart?
    (word : Keyword)
    (part : Scan Filter)
    (left : Filter) : Scan (Option Filter) := do
  if ← joined word then return some (join word left (← part))
  else return none

/- Read parts with a keyword between them. -/
def chain
    (word : Keyword)
    (part : Scan Filter) : Scan Filter := do
  let first ← part
  iterate (nextPart? word part) first

/- Read parts joined by `and`, and those joined by `or`. -/
def anyOf (atom : Scan Filter) : Scan Filter :=
  chain .or (chain .and atom)

/-
  Read a filter that is not joined. Each nested filter takes
  a character of the bound, as it takes one of the text.
-/
def atomWithin
    (zones : ZoneTable) :
    List Char → Scan Filter
| [] => predicate zones
| _ :: bound => do
    skipSpace
    let next ← next?
    match ← current? with
    | some '(' =>
        advance
        skipSpace
        let f ← anyOf (atomWithin zones bound)
        skipSpace
        expect ')' .closeParen
        return f
    | some '*' =>
        advance
        return .all
    | some '!' =>
        if next = some '=' then predicate zones
        else
          advance
          return .not (← atomWithin zones bound)
    | _ => predicate zones

------------------------------------------------------------
-- Whole Texts
------------------------------------------------------------

/- Read a filter and nothing else. -/
def scan (zones : ZoneTable) : Scan Filter := do
  skipSpace
  let f ←
    fun c => anyOf (atomWithin zones c.rest) c
  skipSpace
  finish
  return f

/- The filter that a text is. -/
def parse (text : String) : Except Error Filter :=
  readAll (scan .builtin) text

end Filter

end Haystack
