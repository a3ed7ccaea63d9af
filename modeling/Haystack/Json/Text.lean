import Haystack.Binary64.Layout
import Haystack.Json.Document

/-
  This file defines the two texts of a JSON document: on one
  line without blanks, or indented by two spaces a level.

  Key definitions include:
    * `Json.numberLayout`
    * `Json.escape`
    * `Json.quote`
    * `Json.compact`
    * `Json.pretty`
-/

namespace Haystack

namespace Json

------------------------------------------------------------
-- Numbers and Texts
------------------------------------------------------------

/-
  Numbers that are not kept as whole ones: plain digits with
  a point from a hundred-thousandth to below ten quadrillion.
-/
def numberLayout : NumberLayout where
  isPlain := fun e => -5 ≤ e && e < 16
  wholeTail := ['.', '0']
  upwardSign := ['+']
  tie := .even
  notANumber := ['n', 'u', 'l', 'l']
  infinite := ['n', 'u', 'l', 'l']

/- The spelling of one character of a text. -/
def escape (c : Char) : List Char :=
  if c = '"' then ['\\', '"']
  else if c = '\\' then ['\\', '\\']
  else if c = '\x08' then ['\\', 'b']
  else if c = '\x0c' then ['\\', 'f']
  else if c = '\n' then ['\\', 'n']
  else if c = '\r' then ['\\', 'r']
  else if c = '\t' then ['\\', 't']
  else if c < ' ' then ['\\', 'u'] ++ hexText4 c.toNat
  else [c]

/- A text between quotes. -/
def quote (s : String) : List Char :=
  ['"'] ++ s.toList.flatMap escape ++ ['"']

------------------------------------------------------------
-- One Line
------------------------------------------------------------

mutual

/- A document without any blanks. -/
def compact : Json → List Char
| .null => ['n', 'u', 'l', 'l']
| .bool true => ['t', 'r', 'u', 'e']
| .bool false => ['f', 'a', 'l', 's', 'e']
| .int n => signedText n
| .float x => numberLayout.text x
| .text s => quote s
| .array items => ['['] ++ compactItems items ++ [']']
| .object members =>
    ['\x7b'] ++ compactMembers members ++ ['\x7d']

/- Items with commas between them. -/
def compactItems : List Json → List Char
| [] => []
| [item] => compact item
| item :: items => compact item ++ [','] ++ compactItems items

/- Members with commas between them. -/
def compactMembers : List (String × Json) → List Char
| [] => []
| [(name, value)] => quote name ++ [':'] ++ compact value
| (name, value) :: members =>
    quote name ++ [':'] ++ compact value ++ [','] ++
      compactMembers members

end

------------------------------------------------------------
-- Indented
------------------------------------------------------------

/- A new line at a depth of nesting. -/
def newline (depth : Nat) : List Char :=
  '\n' :: List.replicate (2 * depth) ' '

mutual

/- A document at a depth of nesting, indented. -/
def prettyAt
    (depth : Nat) : Json → List Char
| .null => ['n', 'u', 'l', 'l']
| .bool true => ['t', 'r', 'u', 'e']
| .bool false => ['f', 'a', 'l', 's', 'e']
| .int n => signedText n
| .float x => numberLayout.text x
| .text s => quote s
| .array [] => ['[', ']']
| .array items =>
    ['['] ++ prettyItems (depth + 1) items ++
      newline depth ++ [']']
| .object [] => ['\x7b', '\x7d']
| .object members =>
    ['\x7b'] ++ prettyMembers (depth + 1) members ++
      newline depth ++ ['\x7d']

/- Items, each on a line of its own. -/
def prettyItems
    (depth : Nat) : List Json → List Char
| [] => []
| [item] => newline depth ++ prettyAt depth item
| item :: items =>
    newline depth ++ prettyAt depth item ++ [','] ++
      prettyItems depth items

/- Members, each on a line of its own. -/
def prettyMembers
    (depth : Nat) : List (String × Json) → List Char
| [] => []
| [(name, value)] =>
    newline depth ++ quote name ++ [':', ' '] ++
      prettyAt depth value
| (name, value) :: members =>
    newline depth ++ quote name ++ [':', ' '] ++
      prettyAt depth value ++ [','] ++
      prettyMembers depth members

end

/- A document, indented. -/
def pretty (json : Json) : List Char :=
  prettyAt 0 json

end Json

end Haystack
