import Haystack.Binary64.Rounding
import Haystack.Json.Document
import Haystack.Text.Digits

/-
  This file defines the numbers that JSON numerals name. A
  numeral that is no whole number of 64 bits is rounded: its
  leading digits make a significand of at most 64 bits, and
  that is scaled by a power of ten. Both steps round, so the
  number is not always the nearest one.

  Key definitions include:
    * `Json.Numeral`
    * `Json.Numeral.takeDigits`
    * `Json.Numeral.scale?`
    * `Json.Numeral.value?`
-/

namespace Haystack

namespace Json

/-
  The parts of a numeral: digits before the point, after it,
  and of the exponent. An exponent has at least one digit.
-/
structure Numeral where
  negative : Bool
  whole : List Char
  fraction : List Char
  downward : Bool
  exponent : List Char
deriving DecidableEq, Repr

namespace Numeral

/- The first number that 64 bits do not hold. -/
def wordBound : Nat :=
  18446744073709551616

/- The size of the least number that 64 bits hold. -/
def signedBound : Nat :=
  9223372036854775808

/- Exponents from here on are not added up exactly. -/
def exponentBound : Int :=
  2147483648

/-
  Append digits to a significand as long as it fits 64 bits,
  and give back the digits that are left.
-/
def takeDigits
    (n : Nat) : List Char → Nat × List Char
| [] => (n, [])
| c :: cs =>
    let m := 10 * n + digitsValue [c]
    if m < wordBound then takeDigits m cs else (n, c :: cs)

/- A power of ten, rounded. -/
def powerOfTen (n : Nat) : Binary64 :=
  .ofDecimal false 1 n

/- The greatest exponent of a power of ten in one step. -/
def maxPower : Nat :=
  308

/- A size times a power of ten, unless it is too great. -/
def scale?
    (x : Binary64)
    (exponent : Int) : Option Binary64 :=
  if 0 ≤ exponent then
    if x.magnitude = 0 then some x
    else if maxPower < exponent then none
    else
      let y := x.times (powerOfTen exponent.toNat)
      if y.isInfinite then none else some y
  else if exponent < -maxPower then
    if x.magnitude = 0 then some x
    else
      scale? (x.dividedBy (powerOfTen maxPower))
        (exponent + maxPower)
  else some (x.dividedBy (powerOfTen (-exponent).toNat))
termination_by (-exponent).toNat
decreasing_by
  unfold maxPower at *
  omega

/- A size with a sign. -/
def signed
    (negative : Bool)
    (x : Binary64) : Binary64 :=
  .ofMagnitude negative x.magnitude

/- The number of a numeral with a point or an exponent. -/
def float? (n : Numeral) : Option Binary64 :=
  let (wholeValue, wholeRest) := takeDigits 0 n.whole
  let (digits, fractionRest) :=
    takeDigits wholeValue n.fraction
  let places : Int :=
    wholeRest.length -
      (n.fraction.length - fractionRest.length : Nat)
  let exponent : Int := digitsValue n.exponent
  let power :=
    if n.downward then places - exponent
    else places + exponent
  if exponentBound ≤ exponent then
    if digits ≠ 0 ∧ !n.downward then none
    else some (signed n.negative .zero)
  else
    (scale? (.ofInt digits) power).map (signed n.negative)

/- The whole number of a numeral, if 64 bits hold it. -/
def int? (n : Numeral) : Option Int :=
  let size := digitsValue n.whole
  if n.fraction.isEmpty && n.exponent.isEmpty then
    if n.negative then
      if 0 < size ∧ size ≤ signedBound then some (-size)
      else none
    else if size < wordBound then some size
    else none
  else none

/- What a numeral names, unless it is too great. -/
def value? (n : Numeral) : Option Json :=
  match n.int? with
  | some i => some (.int i)
  | none => n.float?.map .float

end Numeral

end Json

end Haystack
