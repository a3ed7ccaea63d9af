import Haystack.Proofs.Tag.Coordinates

/-
  This file shows that the text of a place is exact: its two
  numerals, taken as decimals and not as binary numbers, are
  the stored millionths of a degree. So no two places, on
  earth or not, have the same text.

  Key definitions include:
    * `NumeralParts.exactValue`
    * `NumeralParts.IsTrimmed`

  Main declarations:
    * `NumeralParts.exactValue_eq_of_text_eq`
    * `Coordinates.exactValue_microParts`
    * `Coordinates.isTrimmed_microParts`
    * `Coordinates.text_isExact`
-/

namespace Haystack

------------------------------------------------------------
-- Exact Values of Numerals
------------------------------------------------------------

namespace NumeralParts

/- The decimal after the sign. -/
def exactSize (p : NumeralParts) : ℚ :=
  (digitsValue p.whole +
      digitsValue p.fraction / 10 ^ p.fraction.length) *
    10 ^ p.exponent.getD 0

/- The decimal that is written, not rounded to binary. -/
def exactValue (p : NumeralParts) : ℚ :=
  if p.negative then -p.exactSize else p.exactSize

/-
  A sign only below zero, one to six digits after the point,
  of which the last is a zero only if it stands alone, and no
  exponent.
-/
structure IsTrimmed (p : NumeralParts) : Prop where
  negative_iff : p.negative = true ↔ p.exactValue < 0
  one_le_length : 1 ≤ p.fraction.length
  length_le : p.fraction.length ≤ 6
  length_of_zero :
    p.fraction.getLast? = some '0' → p.fraction.length = 1
  exponent_eq : p.exponent = none

/-
  The parts of a numeral are found again in its text, so that
  the text alone settles the value.
-/
theorem exactValue_eq_of_text_eq
    {p q : NumeralParts}
    (h : p.text = q.text) :
    p.exactValue = q.exactValue := by
  have hSign := p.splitSign_text
  rw [h, q.splitSign_text, Prod.mk.injEq] at hSign
  rcases hSign with ⟨hNegative, hBody⟩
  have hWhole := p.takeWhile_body
  rw [← hBody, q.takeWhile_body] at hWhole
  have hTail := p.dropWhile_body
  rw [← hBody, q.dropWhile_body] at hTail
  have hSplit := p.splitFraction_tail
  rw [← hTail, q.splitFraction_tail, Prod.mk.injEq] at hSplit
  rcases hSplit with ⟨hFraction, hText⟩
  have hExponent := exponent?_exponentText p.exponent
  rw [← hText, exponent?_exponentText, Option.some.injEq]
    at hExponent
  rw [exactValue, exactValue, exactSize, exactSize, hNegative,
    hWhole, hFraction, hExponent]

end NumeralParts

namespace Coordinates

------------------------------------------------------------
-- The Numeral of Millionths
------------------------------------------------------------

/- Whole degrees and decimals make up all millionths. -/
theorem exactSize_microParts (micro : Int) :
    (microParts micro).exactSize * 1000000 =
      micro.natAbs := by
  rcases exists_zeros_microParts micro with
    ⟨k, hLength, hValue⟩
  have hWhole :
      digitsValue (microParts micro).whole =
        micro.natAbs / million :=
    digitsValue_decimalText _
  have hExponent : (microParts micro).exponent.getD 0 = 0 := rfl
  rw [NumeralParts.exactSize, hWhole, hExponent, zpow_zero,
    mul_one, add_mul]
  generalize (microParts micro).fraction = fraction at *
  have hPow :
      (1000000 : ℚ) = 10 ^ fraction.length * 10 ^ k := by
    rw [← pow_add, hLength]
    norm_num
  have hZeros :
      digitsValue fraction * 10 ^ k = micro.natAbs % million :=
    hValue
  have hFraction :
      (digitsValue fraction : ℚ) / 10 ^ fraction.length *
          1000000 =
        (micro.natAbs % million : ℕ) := by
    rw [hPow, ← mul_assoc, div_mul_cancel₀ _ (by positivity),
      ← hZeros, Nat.cast_mul, Nat.cast_pow, Nat.cast_ofNat]
  have hAll :
      micro.natAbs / million * 1000000 +
          micro.natAbs % million =
        micro.natAbs :=
    Nat.div_add_mod' _ _
  rw [hFraction]
  exact_mod_cast hAll

/-
  The text of degrees stands for exactly as many millionths.
-/
theorem exactValue_microParts (micro : Int) :
    (microParts micro).exactValue * 1000000 = micro := by
  have hSize := exactSize_microParts micro
  unfold NumeralParts.exactValue
  rw [Nat.cast_natAbs] at hSize
  by_cases hMicro : micro < 0
  · have hNegative : (microParts micro).negative = true :=
      decide_eq_true hMicro
    rw [if_pos hNegative, neg_mul, hSize, abs_of_neg hMicro,
      Int.cast_neg, neg_neg]
  · have hNegative : (microParts micro).negative = false :=
      decide_eq_false hMicro
    rw [hNegative, if_neg Bool.false_ne_true, hSize,
      abs_of_nonneg (not_lt.mp hMicro)]

/- Of decimals that end in a zero there is only one. -/
theorem length_fractionText_of_zero
    {n : Nat}
    (hLast : (fractionText n).getLast? = some '0') :
    (fractionText n).length = 1 := by
  have hTrimmed :=
    NumberLayout.getLast?_trimZeros (paddedText 6 n)
  unfold fractionText at hLast ⊢
  generalize NumberLayout.trimZeros (paddedText 6 n) = ds at *
  cases ds with
  | nil => rfl
  | cons d ds => exact absurd hLast hTrimmed

/- The text of degrees has no needless zeros. -/
theorem isTrimmed_microParts (micro : Int) :
    (microParts micro).IsTrimmed := by
  rcases exists_zeros_microParts micro with ⟨k, hLength, -⟩
  have hSign :
      (microParts micro).exactValue < 0 ↔ micro < 0 := by
    have hValue := exactValue_microParts micro
    rw [← @Int.cast_lt_zero ℚ, ← hValue]
    constructor <;> intro h <;> linarith
  exact
    { negative_iff := by
        rw [hSign]
        exact decide_eq_true_iff
      one_le_length :=
        List.length_pos_of_ne_nil (fractionText_ne_nil _)
      length_le := by omega
      length_of_zero := length_fractionText_of_zero
      exponent_eq := rfl }

/- Millionths can be told from their numeral. -/
theorem microText_injective :
    Function.Injective microText := by
  intro micro other hText
  rw [← text_microParts, ← text_microParts] at hText
  have hValue :=
    NumeralParts.exactValue_eq_of_text_eq hText
  have hMicro : (micro : ℚ) = other := by
    rw [← exactValue_microParts, hValue, exactValue_microParts]
  exact_mod_cast hMicro

------------------------------------------------------------
-- The Numerals of a Place
------------------------------------------------------------

/- Different numbers of degrees have different texts. -/
theorem text_injective : Function.Injective text := by
  intro p q hText
  rw [text_eq, text_eq, List.append_cancel_left_eq,
    List.append_cancel_right_eq, List.append_cancel_left_eq]
    at hText
  have hSplit := splitComma?_innerText p
  rw [hText, splitComma?_innerText, Option.some.injEq,
    Prod.mk.injEq] at hSplit
  rcases hSplit with ⟨hLat, hLng⟩
  cases p
  cases q
  rw [mk.injEq]
  exact
    ⟨microText_injective hLat.symm,
      microText_injective hLng.symm⟩

/-
  A place is written as two trimmed numerals, each of them
  the stored millionths when taken a million times, and so
  each place in a way of its own.
-/
theorem text_isExact :
    (∀ p : Coordinates, ∃ lat lng : NumeralParts,
      p.text =
          ['C', '('] ++ lat.text ++ [','] ++ lng.text ++
            [')'] ∧
        lat.IsTrimmed ∧ lng.IsTrimmed ∧
        lat.exactValue * 1000000 = p.microLat ∧
        lng.exactValue * 1000000 = p.microLng) ∧
      Function.Injective text := by
  refine ⟨fun p => ?_, text_injective⟩
  refine
    ⟨microParts p.microLat, microParts p.microLng, ?_,
      isTrimmed_microParts _, isTrimmed_microParts _,
      exactValue_microParts _, exactValue_microParts _⟩
  rw [text_microParts, text_microParts]
  rfl

/- The most negative word of 32 bits, and a size below one. -/
example :
    text ⟨-2147483648, -1⟩ =
      "C(-2147.483648,-0.000001)".toList := by
  decide

end Coordinates

end Haystack
