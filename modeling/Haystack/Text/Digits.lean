import Haystack.Text.CharClass

/-
  This file defines how whole numbers are written in digits
  and what digits are worth.

  Key definitions include:
    * `decimalText`
    * `paddedText`
    * `signedText`
    * `hexText`
    * `digitValue?`
    * `hexValue?`
    * `digitsValue`
-/

namespace Haystack

/- The decimal digits of a number, `0` for zero. -/
def decimalText (n : Nat) : List Char :=
  Nat.toDigits 10 n

/- Decimal digits filled up with leading zeros. -/
def paddedText
    (width n : Nat) : List Char :=
  List.leftpad width '0' (decimalText n)

/- A sign only for numbers below zero. -/
def signedText (n : Int) : List Char :=
  if n < 0 then '-' :: decimalText n.natAbs
  else decimalText n.natAbs

/- Lower-case hexadecimal digits. -/
def hexText (n : Nat) : List Char :=
  Nat.toDigits 16 n

/- Four or more hexadecimal digits. -/
def hexText4 (n : Nat) : List Char :=
  List.leftpad 4 '0' (hexText n)

/- The value of a decimal digit. -/
def digitValue? (c : Char) : Option Nat :=
  if isDigit c then some (c.toNat - '0'.toNat) else none

/- The value of a hexadecimal digit, in either case. -/
def hexValue? (c : Char) : Option Nat :=
  if isDigit c then some (c.toNat - '0'.toNat)
  else if 'a' ≤ c && c ≤ 'f' then
    some (c.toNat - 'a'.toNat + 10)
  else if 'A' ≤ c && c ≤ 'F' then
    some (c.toNat - 'A'.toNat + 10)
  else none

/- The number that decimal digits stand for. -/
def digitsValue (cs : List Char) : Nat :=
  cs.foldl (fun n c => 10 * n + (c.toNat - '0'.toNat)) 0

end Haystack
