import Haystack.Binary64.Shortest
import Haystack.Text.Digits

/-
  This file defines how a number is laid out as text: its
  shortest decimal, either in plain digits or with one digit
  before the point and an exponent.

  Key definitions include:
    * `NumberLayout`
    * `NumberLayout.plainText`
    * `NumberLayout.exponentText`
    * `NumberLayout.finiteText`
    * `NumberLayout.text`
-/

namespace Haystack

/-
  The decisions of one kind of text. `isPlain` says at which
  exponent of the leading digit plain digits are used.
-/
structure NumberLayout where
  isPlain : Int → Bool
  wholeTail : List Char
  upwardSign : List Char
  tie : Tie
  notANumber : List Char
  infinite : List Char

namespace NumberLayout

/- Digits without the zeros at their end. -/
def trimZeros (cs : List Char) : List Char :=
  (cs.reverse.dropWhile (· = '0')).reverse

/-
  Digits with `point` of them before the point, filled up
  with zeros on either side.
-/
def plainText
    (layout : NumberLayout)
    (digits : List Char)
    (point : Int) : List Char :=
  if point ≤ 0 then
    ['0', '.'] ++ List.replicate (-point).toNat '0' ++ digits
  else if digits.length ≤ point.toNat then
    digits ++
      List.replicate (point.toNat - digits.length) '0' ++
      layout.wholeTail
  else
    digits.take point.toNat ++ ['.'] ++
      digits.drop point.toNat

/- One digit before the point, then a power of ten. -/
def exponentText
    (layout : NumberLayout)
    (digits : List Char)
    (exponent : Int) : List Char :=
  let fraction :=
    match digits.drop 1 with
    | [] => []
    | ds => '.' :: ds
  let sign := if exponent < 0 then [] else layout.upwardSign
  digits.take 1 ++ fraction ++ ['e'] ++ sign ++
    signedText exponent

/- A finite size other than zero. -/
def decimalText
    (layout : NumberLayout)
    (d : Decimal) : List Char :=
  let all := Haystack.decimalText d.digits
  let digits := trimZeros all
  let point : Int := all.length + d.exponent
  if layout.isPlain (point - 1) then
    layout.plainText digits point
  else
    layout.exponentText digits (point - 1)

/- A finite number. -/
def finiteText
    (layout : NumberLayout)
    (x : Binary64) : List Char :=
  let sign := if x.isNegative then ['-'] else []
  if x.magnitude = 0 then
    sign ++ ['0'] ++ layout.wholeTail
  else
    sign ++ layout.decimalText (x.shortest layout.tie)

/- Any number. -/
def text
    (layout : NumberLayout)
    (x : Binary64) : List Char :=
  if x.isNaN then layout.notANumber
  else if x.isInfinite then
    (if x.isNegative then ['-'] else []) ++ layout.infinite
  else layout.finiteText x

/- Messages write plain digits throughout. -/
def message : NumberLayout where
  isPlain := fun _ => true
  wholeTail := []
  upwardSign := []
  tie := .up
  notANumber := ['N', 'a', 'N']
  infinite := ['i', 'n', 'f']

end NumberLayout

end Haystack
