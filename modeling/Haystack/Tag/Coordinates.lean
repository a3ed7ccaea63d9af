import Haystack.Binary64.Numeral
import Haystack.Error
import Haystack.Text.CharClass

/-
  This file defines places on earth, to the millionth of a
  degree.

  Key definitions include:
    * `Coordinates`
    * `Coordinates.ofDegrees`
    * `Coordinates.ofText`
    * `Coordinates.latitude`
    * `Coordinates.longitude`
    * `Coordinates.text`
-/

namespace Haystack

/- Latitude and longitude in millionths of a degree. -/
structure Coordinates where
  microLat : Int
  microLng : Int
deriving DecidableEq, Repr

namespace Coordinates

/- Millionths in one. -/
def million : Nat :=
  1000000

/- A number of degrees between a bound and its negative. -/
def isWithin
    (bound : Nat)
    (degrees : Binary64) : Bool :=
  degrees.magnitude ≤ (Binary64.ofInt bound).magnitude

/- Degrees in millionths, rounded. -/
def toMicro (degrees : Binary64) : Int :=
  (degrees.times (.ofInt million)).roundToInt

/- Millionths in degrees. -/
def ofMicro (micro : Int) : Binary64 :=
  .ofRatio (micro < 0) micro.natAbs million

/- The place at these degrees. -/
def ofDegrees
    (lat lng : Binary64) : Except ValueError Coordinates :=
  if isWithin 90 lat then
    if isWithin 180 lng then .ok ⟨toMicro lat, toMicro lng⟩
    else .error (.longitude lng)
  else .error (.latitude lat)

/- Degrees to the north. -/
def latitude (p : Coordinates) : Binary64 :=
  ofMicro p.microLat

/- Degrees to the east. -/
def longitude (p : Coordinates) : Binary64 :=
  ofMicro p.microLng

/- What stands between `C(` and a bracket at the end. -/
def bracketed? : List Char → Option (List Char)
| 'C' :: '(' :: cs =>
    if cs.getLast? = some ')' then some cs.dropLast else none
| _ => none

/- The two sides of the first comma. -/
def splitComma? : List Char → Option (List Char × List Char)
| [] => none
| c :: cs =>
    if c = ',' then some ([], cs)
    else (splitComma? cs).map (fun s => (c :: s.1, s.2))

/- The two numerals in brackets, with blanks around them. -/
def degrees? (cs : List Char) :
    Option (Binary64 × Binary64) := do
  let inner ← bracketed? cs
  let (lat, lng) ← splitComma? inner
  return (← Binary64.ofNumeral? (trimBlanks lat),
    ← Binary64.ofNumeral? (trimBlanks lng))

/- The place that a text like `C(1.5,-2)` names. -/
def ofText (text : String) : Except ValueError Coordinates :=
  match degrees? text.toList with
  | some (lat, lng) => ofDegrees lat lng
  | none => .error (.coordinates text)

/- Six decimals without the zeros at their end, but one. -/
def fractionText (micro : Nat) : List Char :=
  match NumberLayout.trimZeros (paddedText 6 micro) with
  | [] => ['0']
  | ds => ds

/- Millionths in decimal notation. -/
def microText (micro : Int) : List Char :=
  (if micro < 0 then ['-'] else []) ++
    decimalText (micro.natAbs / million) ++ ['.'] ++
    fractionText (micro.natAbs % million)

/- A place in its brackets. -/
def text (p : Coordinates) : List Char :=
  ['C', '('] ++ microText p.microLat ++ [','] ++
    microText p.microLng ++ [')']

end Coordinates

end Haystack
