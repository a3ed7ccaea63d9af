import Haystack.Proofs.Zinc.Failures

/-
  This file shows that no reader gets past a date-time whose
  offset has a hundred hours or more: the third digit stands
  where the colon has to be.

  Main declarations:
    * `Zinc.fails_value`
    * `Zinc.fails_grid`
-/

namespace Haystack

open Scan

/- Other than URIs, only date-times have a misleading text. -/
theorem Value.exists_dateTime
    {v : Value}
    (hUri : v.HasLegibleUri)
    (hNot : ¬v.HasLegibleText) :
    ∃ x, v = .dateTime x ∧ ¬x.HasShortOffset := by
  cases v with
  | uri u => exact absurd hUri hNot
  | dateTime x => exact ⟨x, rfl, hNot⟩
  | _ => exact absurd trivial hNot

namespace Zinc

variable {zones : ZoneTable}
variable {dialect : Dialect}

------------------------------------------------------------
-- Date-Times
------------------------------------------------------------

/- A number from a hundred on has a third digit. -/
theorem exists_third_digit
    {n : Nat}
    (hn : 100 ≤ n) :
    ∃ c d e ds, paddedText 2 n = c :: d :: e :: ds ∧
      isDigit c = true ∧ isDigit d = true ∧
        isDigit e = true := by
  have hDigits := all_isDigit_paddedText 2 n
  have hLength : 2 < (paddedText 2 n).length := by
    have hLong : 2 < (decimalText n).length := by
      by_contra hShort
      have hLess :=
        (Nat.length_toDigits_le_iff (by decide)
          (by decide : 0 < 2)).mp (Nat.le_of_not_lt hShort)
      omega
    rw [paddedText, List.length_leftpad]
    omega
  rcases hText : paddedText 2 n with
    _ | ⟨c, _ | ⟨d, _ | ⟨e, ds⟩⟩⟩
  · simp [hText] at hLength
  · simp [hText] at hLength
  · simp [hText] at hLength
  · simp only [hText, List.all_cons, Bool.and_eq_true]
      at hDigits
    exact
      ⟨c, d, e, ds, rfl, hDigits.1, hDigits.2.1,
        hDigits.2.2.1⟩

/- A hundred hours do not fit into two digits. -/
theorem fails_hoursAndMinutes
    {n : Nat}
    (hn : 100 ≤ n)
    (more : List Char) :
    Fails hoursAndMinutes (paddedText 2 n ++ more) := by
  rcases exists_third_digit hn with
    ⟨c, d, e, ds, hText, hc, hd, he⟩
  have hTwo :
      Reads (twoDigits .zoneDigit) [c, d]
        (Nat.ofDigitChars 10 [c, d] 0) (e :: (ds ++ more)) := by
    have hTwo : [c, d].all isDigit = true := by simp [hc, hd]
    exact reads_digitsOf _ _ (digitsOver?_digitValue? hTwo 0)
  have hColon : (e :: (ds ++ more)).head? ≠ some ':' := by
    rintro hHead
    cases hHead
    cases he
  rw [hText]
  unfold hoursAndMinutes
  exact hTwo.bind_fails ((fails_expect hColon _).bind _)

/- So an offset of a hundred hours is refused. -/
theorem fails_zoneOffset
    {offset : Int}
    (hLong : ¬offset.natAbs < 360000)
    (more : List Char) :
    Fails zoneOffset
      (DateTime.offsetText offset ++ more) := by
  have hZero : offset ≠ 0 := by
    rintro rfl
    exact hLong (by decide)
  have hHours (more : List Char) :=
    fails_hoursAndMinutes
      (show 100 ≤ offset.natAbs / 3600 by omega) more
  unfold zoneOffset
  rw [fails_current_bind]
  by_cases hNegative : offset < 0
  · simp only [DateTime.offsetText, hZero, hNegative,
      if_true, if_false, List.append_assoc, List.cons_append,
      List.nil_append, List.head?_cons]
    exact ((hHours _).bind _).advance_bind '-'
  · simp only [DateTime.offsetText, hZero, hNegative,
      if_false, List.append_assoc, List.cons_append,
      List.nil_append, List.head?_cons]
    exact (hHours _).advance_bind '+'

/- And with it the date-time that shows it. -/
theorem fails_numeric_dateTime
    {x : DateTime}
    (hLong : ¬x.HasShortOffset)
    (more : List Char) :
    Fails (numeric zones) (x.text ++ more) := by
  have hHour := x.time.hour_le
  have hText :
      x.text ++ more =
        paddedText 4 x.date.year ++
          ('-' :: (paddedText 2 x.date.month ++
              '-' :: paddedText 2 x.date.day) ++
            'T' :: (paddedText 2 x.time.hour ++
              (x.time.minuteText ++
                (DateTime.offsetText x.offset ++
                  (' ' :: x.zone.name.toList ++ more))))) := by
    simp [x.text_eq]
  rw [hText]
  unfold numeric
  refine
    (reads_numeral_paddedText 4 x.date.year (Or.inl rfl)
      _).bind_fails ?_
  change Fails (dated zones (paddedText 4 x.date.year)) _
  unfold dated
  refine (reads_dateFrom x.date _).bind_fails ?_
  rw [fails_current_bind, if_pos (by rfl)]
  refine Fails.advance_bind ?_ 'T'
  refine
    (reads_twoDigits_paddedText _ (by omega) _).bind_fails ?_
  refine
    (reads_timeFrom x.time
      (endsTime_offsetText _ _)).bind_fails ?_
  exact Fails.bind ((fails_zoneOffset hLong _).bind _) _

/- No reader of values gets past such a date-time. -/
theorem fails_value
    {v : Value}
    (hUri : v.HasLegibleUri)
    (hNot : ¬v.HasLegibleText)
    (more : List Char) :
    Fails (value zones dialect)
      (v.textIn dialect ++ more) := by
  rcases Value.exists_dateTime hUri hNot with
    ⟨x, rfl, hLong⟩
  have hText :
      Value.textIn dialect (.dateTime x) = x.text := by
    cases dialect <;> simp [Value.textIn, Value.text]
  have hStart :
      (x.text ++ more).head?.any isDigit = true := by
    rw [x.text_eq, List.append_assoc]
    exact head_paddedText _ _ _
  have hNumeric :
      Fails (numeric zones) (x.text ++ more) :=
    fails_numeric_dateTime hLong more
  rw [hText]
  generalize x.text ++ more = cs at hNumeric hStart
  cases cs with
  | nil => cases hStart
  | cons c cs =>
      have hc : isDigit c = true := hStart
      unfold value
      simp only [fails_current_bind, List.head?_cons,
        fails_next_bind]
      rw [if_pos hc]
      exact hNumeric.bind _

------------------------------------------------------------
-- Grids
------------------------------------------------------------

/-
  If no URI is misspelled but some text misleads, the grid
  is not read from its text.
-/
theorem fails_grid
    {g : Grid}
    (hg : g.IsReadable zones)
    (hUri : ∀ r ∈ g.records, ∀ v ∈ r.values,
      v.HasLegibleUri)
    (hNot : ¬g.HasLegibleText) :
    Fails (grid zones) (gridText g) := by
  have hRead : ∀ r ∈ g.records, ∀ v ∈ r.values,
      v.IsReadable zones .zinc := by
    intro r hr v hv
    rcases List.mem_map.mp hv with ⟨e, he, rfl⟩
    exact ((hg r hr).2 e he).2
  refine fails_gridText hg.isWritten ?_ ?_
  · intro r hr v hv
    by_cases hText : v.HasLegibleText
    · exact Or.inl ⟨hRead r hr v hv, hText⟩
    · exact Or.inr (fails_value (hUri r hr v hv) hText)
  · by_contra hAll
    push Not at hAll
    exact hNot fun r hr v hv => (hAll r hr v hv).2

end Zinc

end Haystack
