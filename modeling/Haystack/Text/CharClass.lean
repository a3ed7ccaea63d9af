/-
  This file defines classes of characters: those that names,
  units, zones and ids are made of, which are ASCII except
  that every other character may stand in a unit; and those
  that are given as ranges of code points, such as blanks.

  Key definitions include:
    * `isDigit`
    * `isAlpha`
    * `isUpper`
    * `isUnitChar`
    * `isZoneChar`
    * `isTagStart`
    * `isTagChar`
    * `isIdChar`
    * `isSpace`
    * `CodeRange`
    * `CodeRange.anyCovers`
    * `isBlank`
    * `trimBlanks`
-/

namespace Haystack

------------------------------------------------------------
-- Letters, Digits and Marks
------------------------------------------------------------

/- The decimal digits. -/
def isDigit (c : Char) : Bool :=
  '0' ≤ c && c ≤ '9'

/- The lower-case letters. -/
def isLower (c : Char) : Bool :=
  'a' ≤ c && c ≤ 'z'

/- The upper-case letters. -/
def isUpper (c : Char) : Bool :=
  'A' ≤ c && c ≤ 'Z'

/- The letters of either case. -/
def isAlpha (c : Char) : Bool :=
  isLower c || isUpper c

/- The character is among the first 128. -/
def isAscii (c : Char) : Bool :=
  c.toNat < 128

/- Letters, `%`, `_`, `/`, `$` and all beyond ASCII. -/
def isUnitChar (c : Char) : Bool :=
  isAlpha c || !isAscii c ||
    c = '%' || c = '_' || c = '/' || c = '$'

/- Letters, digits, `_`, `-` and `+`. -/
def isZoneChar (c : Char) : Bool :=
  isAlpha c || isDigit c || c = '_' || c = '-' || c = '+'

/- Tag names start with a lower-case letter. -/
def isTagStart (c : Char) : Bool :=
  isLower c

/- Tag names go on with letters, digits and `_`. -/
def isTagChar (c : Char) : Bool :=
  isAlpha c || isDigit c || c = '_'

/- Letters, digits, `_`, `:`, `-`, `.` and `~`. -/
def isIdChar (c : Char) : Bool :=
  isAlpha c || isDigit c ||
    c = '_' || c = ':' || c = '-' || c = '.' || c = '~'

/- The blanks inside a line. -/
def isSpace (c : Char) : Bool :=
  c = ' ' || c = '\t'

------------------------------------------------------------
-- Ranges of Code Points
------------------------------------------------------------

/- A closed range of code points. -/
abbrev CodeRange := Nat × Nat

namespace CodeRange

/- A range covers a code point between its two ends. -/
def Covers
    (r : CodeRange)
    (n : Nat) : Bool :=
  r.1 ≤ n && n ≤ r.2

/- Some range of a list covers the code point. -/
def anyCovers
    (rs : List CodeRange)
    (n : Nat) : Bool :=
  rs.any (fun r => r.Covers n)

end CodeRange

------------------------------------------------------------
-- Blanks
------------------------------------------------------------

/- Blank code points, ascending. -/
def blankRanges :
    List CodeRange :=
  [ (0x9, 0xD), (0x20, 0x20), (0x85, 0x85), (0xA0, 0xA0),
    (0x1680, 0x1680), (0x2000, 0x200A), (0x2028, 0x2029),
    (0x202F, 0x202F), (0x205F, 0x205F), (0x3000, 0x3000)]

/- The character has the Unicode property White_Space. -/
def isBlank (c : Char) : Bool :=
  CodeRange.anyCovers blankRanges c.toNat

/- The text without the blanks at its two ends. -/
def trimBlanks (cs : List Char) : List Char :=
  (((cs.dropWhile isBlank).reverse).dropWhile isBlank).reverse

end Haystack
