/-
  This file defines double-precision numbers by their bits:
  a sign, and a magnitude that orders the numbers of each
  sign.

  Key definitions include:
    * `Binary64`
    * `Binary64.signWeight`
    * `Binary64.binadeSize`
    * `Binary64.magnitude`
    * `Binary64.isNegative`
    * `Binary64.IsFinite`
    * `Binary64.significand`
    * `Binary64.exponent`
    * `Binary64.numerator`
    * `Binary64.denominator`
    * `Binary64.orderKey`
-/

namespace Haystack

/- A double-precision number, equal when its bits are. -/
structure Binary64 where
  bits : UInt64
deriving DecidableEq, Repr, Hashable

namespace Binary64

------------------------------------------------------------
-- Sign and Magnitude
------------------------------------------------------------

/- The weight of the sign bit, two to the 63rd. -/
def signWeight : Nat :=
  9223372036854775808

/- The magnitudes of one exponent, two to the 52nd. -/
def binadeSize : Nat :=
  4503599627370496

/- The magnitude of the infinities. -/
def infiniteMagnitude : Nat :=
  2047 * binadeSize

/- The number with the given sign and magnitude. -/
def ofMagnitude
    (negative : Bool)
    (k : Nat) : Binary64 :=
  ⟨UInt64.ofNat (if negative then signWeight + k else k)⟩

/- The bits below the sign. -/
def magnitude (x : Binary64) : Nat :=
  x.bits.toNat % signWeight

/- The sign bit is set. -/
def isNegative (x : Binary64) : Bool :=
  signWeight ≤ x.bits.toNat

/- The number is none. -/
def isNaN (x : Binary64) : Bool :=
  infiniteMagnitude < x.magnitude

/- The number is one of the two infinities. -/
def isInfinite (x : Binary64) : Bool :=
  x.magnitude = infiniteMagnitude

/- The number is a real one. -/
def IsFinite (x : Binary64) : Prop :=
  x.magnitude < infiniteMagnitude

instance (x : Binary64) : Decidable x.IsFinite := by
  unfold IsFinite
  infer_instance

/- The number zero, without a sign. -/
def zero : Binary64 :=
  ofMagnitude false 0

/- The infinities. -/
def infinity (negative : Bool) : Binary64 :=
  ofMagnitude negative infiniteMagnitude

/- The one value that reading gives to no number. -/
def nan : Binary64 :=
  ofMagnitude false (infiniteMagnitude + binadeSize / 2)

------------------------------------------------------------
-- Exact Value
------------------------------------------------------------

/- The whole number that a finite number is a multiple of. -/
def significand (x : Binary64) : Nat :=
  if x.magnitude < binadeSize then x.magnitude
  else x.magnitude % binadeSize + binadeSize

/-
  A finite number is its significand times two to this
  exponent.
-/
def exponent (x : Binary64) : Int :=
  if x.magnitude < binadeSize then -1074
  else (x.magnitude / binadeSize : Nat) - 1075

/- The exact size of a finite number, as a ratio. -/
def numerator (x : Binary64) : Nat :=
  x.significand * Nat.pow 2 x.exponent.toNat

/- The denominator of the exact size, a power of two. -/
def denominator (x : Binary64) : Nat :=
  Nat.pow 2 (-x.exponent).toNat

/- A finite number without a fraction. -/
def isWhole (x : Binary64) : Bool :=
  x.numerator % x.denominator = 0

/- A finite number cut off at the point, without its sign. -/
def wholePart (x : Binary64) : Nat :=
  x.numerator / x.denominator

/-
  A finite number rounded to the nearest whole number, a
  half away from zero.
-/
def roundToInt (x : Binary64) : Int :=
  let size :=
    (2 * x.numerator + x.denominator) / (2 * x.denominator)
  if x.isNegative then -size else size

------------------------------------------------------------
-- Order
------------------------------------------------------------

/-
  Numbers in ascending order, the two zeros at one place.
  What is no number stands beyond the infinities, by its bits
  as they are. Adding zero, which joins the two zeros, sets
  the quiet bit of such a number on some machines; that moves
  it only among what is no number.
-/
def orderKey (x : Binary64) : Int :=
  if x.isNegative then -(x.magnitude : Int) else x.magnitude

instance : Ord Binary64 where
  compare x y := compare x.orderKey y.orderKey

end Binary64

end Haystack
