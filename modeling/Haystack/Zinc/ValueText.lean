import Haystack.Tag.Record
import Haystack.Zinc.Quoting

/-
  This file defines how values and records are written.

  Key definitions include:
    * `Ref.text`
    * `Value.text`
    * `Dialect`
    * `Value.textIn`
    * `Record.text`
-/

namespace Haystack

/- An id, and the label if there is one. -/
def Ref.text (r : Ref) : List Char :=
  ['@'] ++ r.id.toList ++
    match r.dis with
    | none => []
    | some dis => [' '] ++ Zinc.quote dis.toList

namespace Value

mutual

/-
  A value as a cell of a grid. Lists and dicts are written
  as quoted texts, and are read back as such.
-/
def text : Value → List Char
| .marker => ['M']
| .remove => ['R']
| .na => ['N', 'A']
| .bool true => ['T']
| .bool false => ['F']
| .number n => n.text
| .str s => Zinc.quote s.toList
| .uri u => u.text
| .bin mime => mime.text
| .coord p => p.text
| .date d => d.text
| .time t => t.text
| .dateTime x => x.text
| .ref r => r.text
| .list items => Zinc.quote (itemsText items)
| .dict ⟨entries⟩ => Zinc.quote (entriesText entries)

/- Items with commas between them. -/
def itemsText : List Value → List Char
| [] => []
| [item] => text item
| item :: items => text item ++ [','] ++ itemsText items

/- A key, and a value other than a marker. -/
def entryText
    (key : String) : Value → List Char
| .marker => key.toList
| value => key.toList ++ [':'] ++ text value

/- Entries with spaces between them. -/
def entriesText : List (String × Value) → List Char
| [] => []
| [(key, value)] => entryText key value
| (key, value) :: entries =>
    entryText key value ++ [' '] ++ entriesText entries

end

end Value

/- The places where values are written and read. -/
inductive Dialect where
| zinc
| filter
deriving DecidableEq, Repr

/-
  A value as it is written in a place. Filters spell truth
  values out, and show no labels.
-/
def Value.textIn : Dialect → Value → List Char
| .filter, .bool true => ['t', 'r', 'u', 'e']
| .filter, .bool false => ['f', 'a', 'l', 's', 'e']
| .filter, .ref r => ['@'] ++ r.id.toList
| _, value => value.text

/- The entries of a record on one line. -/
def Record.text (r : Record) : List Char :=
  Value.entriesText r.entries

end Haystack
