import Haystack.Binary64.Shortest
import Haystack.Proofs.Binary64.Rounding

/-
  This file shows that the shortest decimal of a finite number
  reads back as that number.

  Main declarations:
    * `Binary64.readsBack_exactDecimal`
    * `Binary64.decimalMagnitude_shortest`
    * `Binary64.ofMagnitude_self`
-/

namespace Haystack

namespace Binary64

/- A decimal is taken from a grid only if it reads back. -/
theorem readsBack_of_onGrid?
    {tie : Tie}
    {x : Binary64}
    {u : Int}
    {d : Decimal}
    (h : x.onGrid? tie u = some d) :
    x.readsBack d = true := by
  unfold onGrid? at h
  dsimp only at h
  split at h
  next hBelow hAbove =>
    cases h
    split_ifs <;> assumption
  next hBelow hAbove =>
    cases h
    exact hBelow
  next hBelow hAbove =>
    cases h
    exact hAbove
  next => cases h

/- The exact value is a decimal that reads back. -/
theorem readsBack_exactDecimal
    {x : Binary64}
    (hx : x.IsFinite) :
    x.readsBack x.exactDecimal = true := by
  have hPos (n : Nat) : Nat.pow 10 n ≠ 0 :=
    (natPow_pos (by decide) n).ne'
  have hSame :
      decimalMagnitude
          (x.numerator * Nat.pow 5 (-x.exponent).toNat)
          (min x.exponent 0) =
        nearestMagnitude x.numerator x.denominator := by
    rw [decimalMagnitude_eq,
      show (min x.exponent 0).toNat = 0 by omega,
      show (-min x.exponent 0).toNat = (-x.exponent).toNat by
        omega]
    refine
      nearestMagnitude_congr (hPos _) (denominator_ne_zero x)
        ?_
    unfold denominator
    generalize (-x.exponent).toNat = k
    change x.numerator * 5 ^ k * 1 * 2 ^ k =
      x.numerator * 10 ^ k
    rw [Nat.mul_one, Nat.mul_assoc, ← Nat.mul_pow]
  unfold readsBack exactDecimal
  rw [hSame, nearestMagnitude_self hx]
  exact decide_eq_true rfl

/- So whatever decimal is chosen, it reads back. -/
theorem decimalMagnitude_shortest
    {x : Binary64}
    (hx : x.IsFinite)
    (tie : Tie) :
    decimalMagnitude (x.shortest tie).digits
        (x.shortest tie).exponent =
      x.magnitude := by
  have hReadsBack :
      x.readsBack (x.shortest tie) = true := by
    unfold shortest
    dsimp only
    cases hFound :
        (List.range 17).findSome? (fun i : Nat =>
          x.onGrid? tie
            (floorLog10 x.numerator x.denominator - i)) with
    | none => exact readsBack_exactDecimal hx
    | some d =>
        rcases List.exists_of_findSome?_eq_some hFound with
          ⟨i, _, hGrid⟩
        exact readsBack_of_onGrid? hGrid
  exact of_decide_eq_true hReadsBack

/- A number is made of its sign and its magnitude. -/
theorem ofMagnitude_self (x : Binary64) :
    ofMagnitude x.isNegative x.magnitude = x := by
  have hBits := x.bits.toNat_lt
  have hParts :
      (if x.isNegative = true then signWeight + x.magnitude
        else x.magnitude) =
        x.bits.toNat := by
    unfold isNegative magnitude signWeight
    simp only [decide_eq_true_eq]
    split_ifs <;> omega
  rw [ofMagnitude, hParts, UInt64.ofNat_toNat]

/- What is taken apart again is what was put together. -/
theorem magnitude_ofMagnitude
    (negative : Bool)
    {k : Nat}
    (hk : k < signWeight) :
    (ofMagnitude negative k).magnitude = k := by
  unfold signWeight at hk
  unfold ofMagnitude magnitude signWeight
  rw [UInt64.toNat_ofNat']
  cases negative <;> simp <;> omega

/- A sign is kept beside any magnitude. -/
theorem isNegative_ofMagnitude
    (negative : Bool)
    {k : Nat}
    (hk : k < signWeight) :
    (ofMagnitude negative k).isNegative = negative := by
  unfold signWeight at hk
  unfold ofMagnitude isNegative signWeight
  rw [UInt64.toNat_ofNat']
  cases negative <;> simp <;> omega

end Binary64

end Haystack
