import Haystack.Json.Text
import Haystack.Proofs.Text.Digits

/-
  This file shows that the text of a JSON document without
  blanks stands on one line, whatever the document is.

  Main declarations:
    * `NumberLayout.not_mem_text`
    * `Json.newline_not_mem_compact`
-/

namespace Haystack

------------------------------------------------------------
-- Numbers
------------------------------------------------------------

section Numbers

variable {c : Char}
variable (hDigit : isDigit c = false)
variable (hMark : c ∉ ['-', '.', 'e'])

include hDigit

theorem not_mem_decimalText (n : Nat) : c ∉ decimalText n :=
  not_mem_of_all hDigit (all_isDigit_decimalText n)

theorem not_mem_replicate_zero (n : Nat) :
    c ∉ List.replicate n '0' :=
  not_mem_of_all hDigit (all_isDigit_replicate_zero n)

include hMark

/-
  A character that is no digit and no sign is not in a
  number.
-/
theorem not_mem_signedText (n : Int) : c ∉ signedText n := by
  have hDigits := not_mem_decimalText hDigit n.natAbs
  have hSign : c ≠ '-' := fun h => hMark (by simp [h])
  unfold signedText
  split_ifs
  · exact List.not_mem_cons_of_ne_of_not_mem hSign hDigits
  · exact hDigits

namespace NumberLayout

variable (layout : NumberLayout)

/- It is not in plain digits, unless they end with it. -/
theorem not_mem_plainText
    (hTail : c ∉ layout.wholeTail)
    {digits : List Char}
    (hDigits : c ∉ digits)
    (point : Int) :
    c ∉ layout.plainText digits point := by
  have hZeros := not_mem_replicate_zero hDigit
  have hZero : c ∉ ['0', '.'] := by
    have hFirst := hZeros 1
    simp_all
  have hPoint : c ∉ ['.'] := fun h => hMark (by simp_all)
  unfold plainText
  split_ifs <;>
    simp only [List.mem_append, not_or]
  · exact ⟨⟨hZero, hZeros _⟩, hDigits⟩
  · exact ⟨⟨hDigits, hZeros _⟩, hTail⟩
  · exact
      ⟨⟨fun h => hDigits (List.mem_of_mem_take h), hPoint⟩,
        fun h => hDigits (List.mem_of_mem_drop h)⟩

/- Nor is it in a text with an exponent. -/
theorem not_mem_exponentText
    (hSign : c ∉ layout.upwardSign)
    {digits : List Char}
    (hDigits : c ∉ digits)
    (exponent : Int) :
    c ∉ layout.exponentText digits exponent := by
  have hPoint : c ≠ '.' := fun h => hMark (by simp [h])
  have hLetter : c ∉ ['e'] := fun h => hMark (by simp_all)
  have hRest : c ∉ digits.drop 1 :=
    fun h => hDigits (List.mem_of_mem_drop h)
  have hExponent := not_mem_signedText hDigit hMark exponent
  unfold exponentText
  simp only [List.mem_append, not_or]
  refine
    ⟨⟨⟨⟨fun h => hDigits (List.mem_of_mem_take h), ?_⟩,
      hLetter⟩, ?_⟩, hExponent⟩
  · cases hDrop : digits.drop 1 with
    | nil => exact List.not_mem_nil
    | cons d ds =>
        rw [hDrop] at hRest
        exact List.not_mem_cons_of_ne_of_not_mem hPoint hRest
  · split_ifs
    · exact List.not_mem_nil
    · exact hSign

/-
  A number is written with digits, three marks and what its
  layout has for the ends.
-/
theorem not_mem_text
    (hLayout :
      c ∉ layout.wholeTail ++ layout.upwardSign ++
        layout.notANumber ++ layout.infinite)
    (x : Binary64) :
    c ∉ layout.text x := by
  simp only [List.mem_append, not_or] at hLayout
  rcases hLayout with ⟨⟨⟨hTail, hUpward⟩, hNaN⟩, hInfinite⟩
  have hSign : c ∉ if x.isNegative then ['-'] else [] := by
    have hMinus : c ≠ '-' := fun h => hMark (by simp [h])
    split_ifs
    · simpa using hMinus
    · exact List.not_mem_nil
  have hZero : c ∉ ['0'] := not_mem_replicate_zero hDigit 1
  have hDecimal (d : Decimal) : c ∉ layout.decimalText d := by
    have hDigits :
        c ∉ trimZeros (Haystack.decimalText d.digits) := by
      intro h
      unfold trimZeros at h
      rw [List.mem_reverse] at h
      have hMem := (List.dropWhile_suffix _).subset h
      rw [List.mem_reverse] at hMem
      exact not_mem_decimalText hDigit d.digits hMem
    unfold NumberLayout.decimalText
    dsimp only
    split_ifs
    · exact
        layout.not_mem_plainText hDigit hMark hTail hDigits _
    · exact
        layout.not_mem_exponentText hDigit hMark hUpward hDigits
          _
  unfold text
  split_ifs
  · exact hNaN
  · simp_all
  · simp_all
  · unfold finiteText
    dsimp only
    split_ifs <;> simp_all

end NumberLayout

end Numbers

namespace Json

------------------------------------------------------------
-- Texts
------------------------------------------------------------

/- Line ends and other control characters are spelled out. -/
theorem newline_not_mem_escape (c : Char) :
    '\n' ∉ escape c := by
  have hCodes : ∀ n < 32, '\n' ∉ ['\\', 'u'] ++ hexText4 n := by
    decide
  unfold escape
  split_ifs with _ _ _ _ hNewline _ _ hControl
  · decide
  · decide
  · decide
  · decide
  · decide
  · decide
  · decide
  · exact hCodes c.toNat hControl
  · simpa using Ne.symm hNewline

/- A line end is escaped between quotes. -/
theorem newline_not_mem_quote (s : String) :
    '\n' ∉ quote s := by
  have hChars : '\n' ∉ s.toList.flatMap escape := by
    rw [List.mem_flatMap]
    rintro ⟨c, -, hMem⟩
    exact newline_not_mem_escape c hMem
  simp [quote, hChars]

------------------------------------------------------------
-- Documents
------------------------------------------------------------

mutual

/- By induction on the document: no part ends the line. -/
theorem newline_not_mem_compact (json : Json) :
    '\n' ∉ json.compact := by
  match json with
  | .null => decide
  | .bool true | .bool false => decide
  | .int n => exact not_mem_signedText rfl (by decide) n
  | .float x =>
      exact
        numberLayout.not_mem_text rfl (by decide) (by decide) x
  | .text s => exact newline_not_mem_quote s
  | .array items =>
      have hItems := newline_not_mem_compactItems items
      simp [compact, hItems]
  | .object members =>
      have hMembers := newline_not_mem_compactMembers members
      simp [compact, hMembers]

/- So no list has one. -/
theorem newline_not_mem_compactItems (items : List Json) :
    '\n' ∉ compactItems items := by
  match items with
  | [] => exact List.not_mem_nil
  | [item] => exact newline_not_mem_compact item
  | item :: next :: items =>
      have hFirst := newline_not_mem_compact item
      have hRest := newline_not_mem_compactItems (next :: items)
      simp [compactItems, hFirst, hRest]

/- And no object does. -/
theorem newline_not_mem_compactMembers
    (members : List (String × Json)) :
    '\n' ∉ compactMembers members := by
  match members with
  | [] => exact List.not_mem_nil
  | [(name, value)] =>
      have hName := newline_not_mem_quote name
      have hValue := newline_not_mem_compact value
      simp [compactMembers, hName, hValue]
  | (name, value) :: next :: members =>
      have hName := newline_not_mem_quote name
      have hValue := newline_not_mem_compact value
      have hRest :=
        newline_not_mem_compactMembers (next :: members)
      simp [compactMembers, hName, hValue, hRest]

end

end Json

end Haystack
