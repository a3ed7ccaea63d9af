import Haystack.Binary64.Rounding

/-
  This file defines the decimal that stands for a number in
  texts: with the fewest digits that still read back as that
  number, and of those the nearest to it.

  Key definitions include:
    * `Decimal`
    * `Tie`
    * `floorLog10`
    * `Binary64.readsBack`
    * `Binary64.onGrid?`
    * `Binary64.shortest`
-/

namespace Haystack

/- The number `digits * 10 ^ exponent`. -/
structure Decimal where
  digits : Nat
  exponent : Int
deriving DecidableEq, Repr

/- Which of two equally near decimals is taken. -/
inductive Tie where
| up
| even
deriving DecidableEq, Repr

/- The exponent `e` with `10 ^ e ≤ n / d < 10 ^ (e + 1)`. -/
def floorLog10
    (n d : Nat) : Int :=
  let e : Int := floorLog2 n d * 30103 / 100000
  if n * Nat.pow 10 (-e).toNat < d * Nat.pow 10 e.toNat then
    e - 1
  else if
      d * Nat.pow 10 (e + 1).toNat ≤
        n * Nat.pow 10 (-(e + 1)).toNat then
    e + 1
  else e

namespace Binary64

/- The decimal is read as a number of this size. -/
def readsBack
    (x : Binary64)
    (d : Decimal) : Bool :=
  decimalMagnitude d.digits d.exponent = x.magnitude

/-
  Of the two multiples of `10 ^ u` next to a finite number,
  the nearer one that reads back.
-/
def onGrid?
    (tie : Tie)
    (x : Binary64)
    (u : Int) : Option Decimal :=
  let n := x.numerator * Nat.pow 10 (-u).toNat
  let d := x.denominator * Nat.pow 10 u.toNat
  let below : Decimal := ⟨n / d, u⟩
  let above : Decimal := ⟨n / d + 1, u⟩
  let upward : Bool :=
    if d = 2 * (n % d) then
      match tie with
      | .up => true
      | .even => n / d % 2 = 1
    else d < 2 * (n % d)
  match x.readsBack below, x.readsBack above with
  | true, true => some (if upward then above else below)
  | true, false => some below
  | false, true => some above
  | false, false => none

/- The exact value of a finite number. -/
def exactDecimal (x : Binary64) : Decimal :=
  ⟨x.numerator * Nat.pow 5 (-x.exponent).toNat,
    min x.exponent 0⟩

/-
  The shortest decimal of a finite number other than zero:
  the first grid of one, two, … seventeen digits that holds
  a decimal that reads back. The exact value always does.
-/
def shortest
    (tie : Tie)
    (x : Binary64) : Decimal :=
  let top := floorLog10 x.numerator x.denominator
  ((List.range 17).findSome?
      (fun i : Nat => x.onGrid? tie (top - i))).getD
    x.exactDecimal

end Binary64

end Haystack
