import Haystack.Calendar.DateTime
import Haystack.Proofs.Tag.Coordinates
import Haystack.Proofs.Zinc.Numbers

/-
  This file names the characters that numbers, places, dates
  and times are written with. What is not among them is not
  in their texts.

  Key definitions include:
    * `isNumberChar`
    * `isPlaceChar`
    * `isDateChar`
    * `isTimeChar`
    * `isOffsetChar`

  Main declarations:
    * `Number.all_isNumberChar_text`
    * `Date.all_isDateChar_text`
    * `Time.all_isTimeChar_text`
-/

namespace Haystack

------------------------------------------------------------
-- Numbers and Places
------------------------------------------------------------

/-
  A unit shows the characters that the reader of units
  takes.
-/
theorem UnitName.all_isUnitChar_text (unit : UnitName) :
    unit.text.toList.all isUnitChar = true := by
  have hValid := unit.valid
  rw [isUnitName, Bool.and_eq_true] at hValid
  exact hValid.2

/- The characters of numbers and units. -/
def isNumberChar (c : Char) : Bool :=
  isDigit c || isUnitChar c || c = '-' || c = '.'

theorem isNumberChar_of_isDigit
    (c : Char)
    (hc : isDigit c = true) :
    isNumberChar c = true := by
  simp [isNumberChar, hc]

/- The mark of an exponent is a letter, as units have. -/
theorem NumeralParts.all_isNumberChar_text
    (p : NumeralParts) :
    p.text.all isNumberChar = true := by
  have hWhole :=
    all_of_imp isNumberChar_of_isDigit p.whole_digits
  have hSign :
      (signText p.negative).all isNumberChar = true := by
    cases p.negative <;> rfl
  have hFraction :
      (fractionText p.fraction).all isNumberChar = true := by
    have hAll :=
      all_of_imp isNumberChar_of_isDigit p.fraction_digits
    cases hText : p.fraction with
    | nil => rfl
    | cons c cs =>
        rw [hText] at hAll
        exact hAll
  have hExponent :
      (exponentText p.exponent).all isNumberChar = true := by
    cases p.exponent with
    | none => rfl
    | some e =>
        have hAll :=
          all_of_imp isNumberChar_of_isDigit
            (all_isDigit_decimalText e.natAbs)
        simp only [exponentText, signedText]
        split_ifs <;> exact hAll
  simp only [text, body, List.all_append, hSign, hWhole,
    hFraction, hExponent, Bool.and_true]

/- A number shows digits, signs, marks, and its unit. -/
theorem Number.all_isNumberChar_text (n : Number) :
    n.text.all isNumberChar = true := by
  by_cases hFinite : n.value.IsFinite
  · rcases layout.exists_parts_finiteText rfl rfl hFinite with
      ⟨p, hText, -⟩
    have hUnit : n.unitText.all isNumberChar = true := by
      unfold unitText
      cases n.unit with
      | none => rfl
      | some unit =>
          refine all_of_imp ?_ unit.all_isUnitChar_text
          intro c hc
          simp [isNumberChar, hc]
    rw [text_of_isFinite hFinite, ← hText, List.all_append,
      p.all_isNumberChar_text, hUnit]
    rfl
  · rcases text_of_not_isFinite hFinite with
      hText | hText | hText <;> rw [hText] <;> rfl

/- The characters of places. -/
def isPlaceChar (c : Char) : Bool :=
  Coordinates.isMicroChar c || c ∈ ['C', '(', ',', ')']

/- A place shows two numbers in its brackets. -/
theorem Coordinates.all_isPlaceChar_text (p : Coordinates) :
    p.text.all isPlaceChar = true := by
  have hMicro (micro : Int) :
      (microText micro).all isPlaceChar = true := by
    refine all_of_imp ?_ (all_isMicroChar_microText micro)
    intro c hc
    simp [isPlaceChar, hc]
  simp only [text, List.all_append, hMicro]
  rfl

------------------------------------------------------------
-- Dates and Times
------------------------------------------------------------

/- The characters of dates. -/
def isDateChar (c : Char) : Bool :=
  isDigit c || c = '-'

/- A date shows digits and dashes. -/
theorem Date.all_isDateChar_text (d : Date) :
    d.text.all isDateChar = true := by
  have hDigits :=
    all_paddedText (p := isDateChar)
      (fun c hc => by simp [isDateChar, hc])
  simp only [text, List.all_append, hDigits]
  rfl

/- The characters of times. -/
def isTimeChar (c : Char) : Bool :=
  isDigit c || c = ':' || c = '.'

/- A time shows digits, colons, and a point. -/
theorem Time.all_isTimeChar_text (t : Time) :
    t.text.all isTimeChar = true := by
  have hDigits :=
    all_paddedText (p := isTimeChar)
      (fun c hc => by simp [isTimeChar, hc])
  have hFraction :
      (fractionText t.millis).all isTimeChar = true := by
    unfold fractionText
    split_ifs
    · rfl
    all_goals
      rw [List.all_cons, hDigits]
      rfl
  simp only [text, List.all_append, hDigits, hFraction]
  rfl

/- The characters of offsets. -/
def isOffsetChar (c : Char) : Bool :=
  isDigit c || c ∈ ['Z', '-', '+', ':']

/-
  An offset shows digits, a colon, and a sign, or is `Z`.
-/
theorem DateTime.all_isOffsetChar_offsetText (offset : Int) :
    (offsetText offset).all isOffsetChar = true := by
  have hDigits :=
    all_paddedText (p := isOffsetChar)
      (fun c hc => by simp [isOffsetChar, hc])
  unfold offsetText
  dsimp only
  split_ifs
  · rfl
  all_goals
    simp only [List.all_append, hDigits]
    rfl

end Haystack
