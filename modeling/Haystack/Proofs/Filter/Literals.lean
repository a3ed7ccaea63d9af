import Haystack.Proofs.Filter.Canonical
import Haystack.Proofs.Filter.Quotation
import Haystack.Proofs.Filter.Spelling
import Haystack.Proofs.Tag.Sameness
import Haystack.Proofs.Zinc.LongOffsets

/-
  This file shows that a literal of a filter is settled by
  its text, also where no reader gives it for this text:
  units of infinities and labels apart, which the text does
  not show.

  Main declarations:
    * `Uri.eq_of_text_eq`
    * `DateTime.same_of_text_eq`
    * `Value.asRead_same_of_textIn_eq`
-/

namespace Haystack

open Scan

------------------------------------------------------------
-- URIs
------------------------------------------------------------

namespace Uri

/- No address is spelled with a backquote in front. -/
theorem head_flatMap_escape (cs : List Char) :
    (cs.flatMap escape).head? ≠ some '`' := by
  cases cs with
  | nil => simp
  | cons c cs =>
      rw [List.flatMap_cons, escape]
      split_ifs with hTick
      · simp
      · simpa using hTick

/- Different texts are escaped differently. -/
theorem flatMap_escape_injective :
    Function.Injective
      (fun cs : List Char => cs.flatMap escape) := by
  intro cs
  induction cs with
  | nil =>
      intro ds h
      cases ds with
      | nil => rfl
      | cons d ds =>
          dsimp only at h
          rw [List.flatMap_cons, escape] at h
          split_ifs at h <;> cases h
  | cons c cs ih =>
      intro ds h
      dsimp only at h
      cases ds with
      | nil =>
          rw [List.flatMap_cons, escape] at h
          split_ifs at h <;> cases h
      | cons d ds =>
          have hHead := head_flatMap_escape
          rw [List.flatMap_cons, List.flatMap_cons, escape,
            escape] at h
          -- A backslash alone is followed by no backquote.
          split_ifs at h with hc hd hd
          · rw [hc, hd, ih (List.append_cancel_left h)]
          · exact
              absurd
                (congrArg List.head? (List.cons.inj h).2).symm
                (hHead ds)
          · exact
              absurd (congrArg List.head? (List.cons.inj h).2)
                (hHead cs)
          · rw [(List.cons.inj h).1, ih (List.cons.inj h).2]

/- Different URIs have different texts. -/
theorem eq_of_text_eq
    {u w : Uri}
    (h : u.text = w.text) :
    u = w := by
  rcases u with ⟨address, hValid⟩
  rcases w with ⟨address', hValid'⟩
  unfold text at h
  dsimp only at h
  rw [List.append_left_inj, List.append_right_inj] at h
  have hList := flatMap_escape_injective h
  have hEq := String.toList_injective hList
  subst hEq
  rfl

end Uri

------------------------------------------------------------
-- Date-Times
------------------------------------------------------------

/- Different numbers have different digits. -/
theorem paddedText_injective (width : Nat) :
    Function.Injective (paddedText width) := by
  intro m n h
  have hValue := congrArg digitsValue h
  rwa [digitsValue_paddedText, digitsValue_paddedText] at hValue

namespace DateTime

/- The sign of an offset other than zero. -/
def offsetSign (offset : Int) : Char :=
  if offset < 0 then '-' else '+'

theorem offsetText_of_ne_zero
    {o : Int}
    (ho : o ≠ 0) :
    offsetText o =
      offsetSign o :: (paddedText 2 (o.natAbs / 3600) ++
        ':' :: paddedText 2 (o.natAbs % 3600 / 60)) := by
  unfold offsetText
  rw [if_neg ho]
  simp [offsetSign]

/- Whole minutes are settled by a sign, hours and minutes. -/
theorem eq_of_offsetText_eq
    {o p : Int}
    (ho : 60 ∣ o)
    (hp : 60 ∣ p)
    (h : offsetText o = offsetText p) :
    o = p := by
  have hSign (o : Int) : offsetSign o ≠ 'Z' := by
    unfold offsetSign
    split_ifs <;> decide
  have hColon (n : Nat) : ':' ∉ paddedText 2 n :=
    not_mem_of_all rfl (all_isDigit_paddedText 2 n)
  by_cases ho₀ : o = 0
  · by_cases hp₀ : p = 0
    · rw [ho₀, hp₀]
    · rw [ho₀, offsetText_of_ne_zero hp₀] at h
      exact absurd (List.cons.inj h).1.symm (hSign p)
  · by_cases hp₀ : p = 0
    · rw [hp₀, offsetText_of_ne_zero ho₀] at h
      exact absurd (List.cons.inj h).1 (hSign o)
    · rw [offsetText_of_ne_zero ho₀,
        offsetText_of_ne_zero hp₀, List.cons.injEq,
        List.append_cons_inj_of_notMem (hColon _) (hColon _)]
        at h
      rcases h with ⟨hSigns, hHours, -, hMinutes⟩
      have hHours := paddedText_injective 2 hHours
      have hMinutes := paddedText_injective 2 hMinutes
      have hNegative : o < 0 ↔ p < 0 := by
        unfold offsetSign at hSigns
        split_ifs at hSigns with ho₁ hp₁ hp₁
        · exact ⟨fun _ => hp₁, fun _ => ho₁⟩
        · cases hSigns
        · cases hSigns
        · exact ⟨fun h => absurd h ho₁, fun h => absurd h hp₁⟩
      omega

/- The text shows all that date-times are compared by. -/
theorem same_of_text_eq
    {zones : ZoneTable}
    {x y : DateTime}
    (hx : x.IsLegible zones)
    (h : x.text = y.text) :
    (x == y) = true := by
  have hxHour := x.time.hour_le
  have hyHour := y.time.hour_le
  rw [text_eq, text_eq] at h
  have hYear :=
    (Zinc.reads_numeral_paddedText 4 x.date.year (Or.inl rfl)
      _).unique
      (Zinc.reads_numeral_paddedText 4 y.date.year
        (Or.inl rfl) _) h
  have hDateRead := Zinc.reads_dateFrom y.date
  rw [← hYear.1] at hDateRead
  have hDate :=
    (Zinc.reads_dateFrom x.date _).unique (hDateRead _)
      (by simpa using hYear.2.2)
  have hHour :=
    (reads_twoDigits_paddedText .zoneDigit (by omega) _).unique
      (reads_twoDigits_paddedText .zoneDigit (by omega) _)
      (List.cons.inj hDate.2.2).2
  have hTimeRead :=
    Zinc.reads_timeFrom y.time
      (Zinc.endsTime_offsetText y.offset
        (' ' :: y.zone.name.toList))
  rw [← hHour.1] at hTimeRead
  have hTime :=
    (Zinc.reads_timeFrom x.time
      (Zinc.endsTime_offsetText x.offset _)).unique hTimeRead
      hHour.2.2
  have hSpace (o : Int) : ' ' ∉ offsetText o :=
    not_mem_of_all rfl (all_isWordChar_offsetText o)
  have hZone : ' ' ∉ x.zone.name.toList := by
    have hName := hx.1
    rw [isZoneName, Bool.and_eq_true] at hName
    exact
      not_mem_of_all rfl
        (all_isWordChar_of (p := isZoneChar) rfl hName.2)
  have hRest := hTime.2.2
  rw [List.append_cons_inj_of_notMem (hSpace _) hZone] at hRest
  have hOffset :=
    eq_of_offsetText_eq x.offset_dvd y.offset_dvd hRest.1
  have hName := String.toList_injective hRest.2.2
  change
    (decide _ && decide _ && decide _ && decide _) = true
  simp [hDate.1, hTime.1, hName, hOffset]

/- Zones are found by name, so date-times stay the same. -/
theorem asRead_same_of_same
    (zones : ZoneTable)
    {x y : DateTime}
    (h : (x == y) = true) :
    (x.asRead zones == y.asRead zones) = true := by
  change
    (decide _ && decide _ && decide _ && decide _) = true
    at h ⊢
  rw [x.asRead_zone_name, y.asRead_zone_name]
  exact h

end DateTime

------------------------------------------------------------
-- Literals
------------------------------------------------------------

/- A reader that fails reads nothing. -/
theorem Scan.Fails.not_reads
    {α : Type}
    {scan : Scan α}
    {cs rest : List Char}
    (hFails : Fails scan (cs ++ rest))
    (a : α) :
    ¬Reads scan cs a rest := by
  intro hReads
  rcases hFails 0 with ⟨e, c, hError⟩
  rw [hReads 0] at hError
  cases hError

namespace Value

/- Only URIs have a misspelled text. -/
theorem exists_uri
    {v : Value}
    (hNot : ¬v.HasLegibleUri) :
    ∃ u, v = .uri u := by
  cases v with
  | uri u => exact ⟨u, rfl⟩
  | _ => exact absurd trivial hNot

section Literals

variable {zones : ZoneTable}
variable {v w : Value}

/- The text shows whether it misspells a URI. -/
theorem hasLegibleUri_of_textIn_eq
    (hv : v.IsReadable zones .filter)
    (hw : w.IsReadable zones .filter)
    (h : v.textIn .filter = w.textIn .filter)
    (hUri : v.HasLegibleUri) :
    w.HasLegibleUri := by
  by_contra hNot
  have hLost := (Quotation.keeps_textIn hw).misleads hNot
  rw [← h, (Quotation.keeps_textIn hv).fine hUri] at hLost
  exact absurd hLost (by decide)

/- It shows as well whether a reader gives the literal. -/
theorem hasLegibleText_of_textIn_eq
    (hv : v.IsReadable zones .filter)
    (h : v.textIn .filter = w.textIn .filter)
    (hUri : w.HasLegibleUri)
    (hText : v.HasLegibleText) :
    w.HasLegibleText := by
  by_contra hNot
  have hFails :
      Fails (Zinc.value zones .filter)
        (w.textIn .filter ++ []) :=
    Zinc.fails_value hUri hNot []
  rw [← h] at hFails
  exact
    hFails.not_reads _
      (Zinc.readsLoosely_value hv hText
        Zinc.endsValue_nil).of_nil

/- Literals with the same text are read as the same. -/
theorem asRead_same_of_textIn_eq
    (hv : v.IsReadable zones .filter)
    (hw : w.IsReadable zones .filter)
    (h : v.textIn .filter = w.textIn .filter) :
    (v.asRead zones .filter == w.asRead zones .filter) =
      true := by
  by_cases hUri : v.HasLegibleUri
  · have hUri' := hasLegibleUri_of_textIn_eq hv hw h hUri
    by_cases hText : v.HasLegibleText
    · have hText' :=
        hasLegibleText_of_textIn_eq hv h hUri' hText
      have hRead :=
        (Zinc.readsLoosely_value hv hText
          Zinc.endsValue_nil).of_nil
      have hRead' :=
        (Zinc.readsLoosely_value hw hText'
          Zinc.endsValue_nil).of_nil
      have hEq := (hRead.unique hRead' (by rw [h])).1
      rw [Option.some.injEq] at hEq
      rw [hEq]
      exact same_self (Filter.isSimple_asRead hw)
    · have hText' : ¬w.HasLegibleText := fun hText' =>
        hText
          (hasLegibleText_of_textIn_eq hw h.symm hUri hText')
      rcases exists_dateTime hUri hText with ⟨x, rfl, -⟩
      rcases exists_dateTime hUri' hText' with ⟨y, rfl, -⟩
      have hTexts : x.text = y.text := by
        simpa [textIn, text] using h
      exact
        DateTime.asRead_same_of_same zones
          (DateTime.same_of_text_eq hv hTexts)
  · have hUri' : ¬w.HasLegibleUri := fun hUri' =>
      hUri (hasLegibleUri_of_textIn_eq hw hv h.symm hUri')
    rcases exists_uri hUri with ⟨u, rfl⟩
    rcases exists_uri hUri' with ⟨u', rfl⟩
    have hTexts : u.text = u'.text := by
      simpa [textIn, text] using h
    rw [Uri.eq_of_text_eq hTexts]
    exact same_self (Filter.isSimple_asRead hw)

end Literals

end Value

end Haystack
