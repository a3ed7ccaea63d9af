import Haystack.Binary64.Rounding
import Haystack.Text.Digits

/-
  This file defines the numerals that name a number: digits
  with at most one point, an optional sign and exponent, or
  a word for an infinity or for no number, in any case.

  Key definitions include:
    * `Numeral.splitSign`
    * `Numeral.exponent?`
    * `Numeral.decimal?`
    * `Binary64.ofNumeral?`
    * `int32OfNumeral?`
-/

namespace Haystack

namespace Numeral

/- The sign of a numeral and what follows it. -/
def splitSign : List Char → Bool × List Char
| '-' :: cs => (true, cs)
| '+' :: cs => (false, cs)
| cs => (false, cs)

/- One or more digits and nothing else. -/
def digits? (cs : List Char) : Option Nat :=
  if !cs.isEmpty && cs.all isDigit then
    some (digitsValue cs)
  else none

/- The exponent that may end a numeral. -/
def exponent? : List Char → Option Int
| [] => some 0
| c :: cs =>
    if c = 'e' || c = 'E' then
      let (negative, ds) := splitSign cs
      (digits? ds).map
        (fun n => if negative then -(n : Int) else n)
    else none

/- The part of a numeral after a point, if there is one. -/
def splitFraction : List Char → List Char × List Char
| '.' :: cs => (cs.takeWhile isDigit, cs.dropWhile isDigit)
| cs => ([], cs)

/-
  An unsigned decimal: digits before or after the point, and
  an optional exponent.
-/
def decimal?
    (negative : Bool)
    (cs : List Char) : Option Binary64 :=
  let whole := cs.takeWhile isDigit
  let (fraction, rest) := splitFraction (cs.dropWhile isDigit)
  if whole.isEmpty && fraction.isEmpty then none
  else
    (exponent? rest).map
      (fun e =>
        .ofDecimal negative
          (digitsValue (whole ++ fraction))
          (e - fraction.length))

/- ASCII letters in lower case. -/
def lowered (cs : List Char) : List Char :=
  cs.map Char.toLower

end Numeral

/- The number that a numeral names, rounded. -/
def Binary64.ofNumeral? (cs : List Char) : Option Binary64 :=
  let (negative, body) := Numeral.splitSign cs
  let word := Numeral.lowered body
  if word = ['i', 'n', 'f'] ||
      word = ['i', 'n', 'f', 'i', 'n', 'i', 't', 'y'] then
    some (.infinity negative)
  else if word = ['n', 'a', 'n'] then some .nan
  else Numeral.decimal? negative body

/- A whole number of 32 bits, with an optional sign. -/
def int32OfNumeral? (cs : List Char) : Option Int :=
  let (negative, body) := Numeral.splitSign cs
  match Numeral.digits? body with
  | none => none
  | some n =>
      let v : Int := if negative then -(n : Int) else n
      if -2147483648 ≤ v ∧ v ≤ 2147483647 then some v
      else none

end Haystack
