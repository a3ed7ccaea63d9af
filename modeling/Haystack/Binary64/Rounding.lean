import Haystack.Binary64.Basic

/-
  This file defines the double-precision number nearest to a
  ratio of whole numbers; of two equally near ones, the one
  with the even magnitude.

  Key definitions include:
    * `roundQuotient`
    * `floorLog2`
    * `Binary64.ofRatio`
    * `Binary64.ofDecimal`
    * `Binary64.ofInt`
    * `Binary64.times`
    * `Binary64.dividedBy`
-/

namespace Haystack

------------------------------------------------------------
-- Whole Numbers
------------------------------------------------------------

/- The whole number nearest to `n / d`, a half to the even. -/
def roundQuotient
    (n d : Nat) : Nat :=
  let q := n / d
  let r := n % d
  if 2 * r < d then q
  else if d < 2 * r then q + 1
  else if q % 2 = 0 then q
  else q + 1

/- The exponent `e` with `2 ^ e ≤ n / d < 2 ^ (e + 1)`. -/
def floorLog2
    (n d : Nat) : Int :=
  let e : Int := (n.log2 : Int) - (d.log2 : Int)
  if d * Nat.pow 2 e.toNat ≤ n * Nat.pow 2 (-e).toNat then e
  else e - 1

namespace Binary64

------------------------------------------------------------
-- Rounding
------------------------------------------------------------

/-
  The magnitude nearest to `n / d`. Numbers of one exponent
  `q` are the multiples of `2 ^ q`, and the rounded multiple
  counts the magnitudes from the first of them on.
-/
def nearestMagnitude
    (n d : Nat) : Nat :=
  if n = 0 then 0
  else
    let q : Int := max (floorLog2 n d - 52) (-1074)
    let m :=
      roundQuotient (n * Nat.pow 2 (-q).toNat)
        (d * Nat.pow 2 q.toNat)
    min infiniteMagnitude
      ((q + 1074).toNat * binadeSize + m)

/- The number nearest to a ratio with a sign. -/
def ofRatio
    (negative : Bool)
    (n d : Nat) : Binary64 :=
  ofMagnitude negative (nearestMagnitude n d)

/-
  The magnitude nearest to `digits * 10 ^ exponent`. Beyond
  the exponents of the first two cases, the answer does not
  depend on the digits.
-/
def decimalMagnitude
    (digits : Nat)
    (exponent : Int) : Nat :=
  if digits = 0 then 0
  else if 400 < exponent then infiniteMagnitude
  else if exponent < -(400 + digits.log2 : Nat) then 0
  else
    nearestMagnitude
      (digits * Nat.pow 10 exponent.toNat)
      (Nat.pow 10 (-exponent).toNat)

/- The number nearest to a decimal with a sign. -/
def ofDecimal
    (negative : Bool)
    (digits : Nat)
    (exponent : Int) : Binary64 :=
  ofMagnitude negative (decimalMagnitude digits exponent)

/- The number nearest to a whole number. -/
def ofInt (n : Int) : Binary64 :=
  ofRatio (n < 0) n.natAbs 1

------------------------------------------------------------
-- Arithmetic on Finite Numbers
------------------------------------------------------------

/- The rounded product of two finite numbers. -/
def times
    (x y : Binary64) : Binary64 :=
  ofRatio (x.isNegative != y.isNegative)
    (x.numerator * y.numerator)
    (x.denominator * y.denominator)

/- The rounded quotient of a finite number by another. -/
def dividedBy
    (x y : Binary64) : Binary64 :=
  ofRatio (x.isNegative != y.isNegative)
    (x.numerator * y.denominator)
    (x.denominator * y.numerator)

end Binary64

end Haystack
