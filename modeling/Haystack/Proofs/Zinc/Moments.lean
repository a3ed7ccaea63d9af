import Haystack.Proofs.Calendar.Instants
import Haystack.Proofs.Zinc.Numbers

/-
  This file shows that dates, times and date-times are read
  back. The offset of a date-time has two digits for hours,
  so it has to be below a hundred of them.

  Key definitions include:
    * `Zinc.endsTime`
    * `isZoneName`
    * `DateTime.HasShortOffset`
    * `DateTime.IsLegible`
    * `DateTime.asRead`

  Main declarations:
    * `Zinc.reads_numeric_date`
    * `Zinc.reads_numeric_time`
    * `Zinc.reads_numeric_dateTime`
-/

namespace Haystack

open Scan

------------------------------------------------------------
-- Dates
------------------------------------------------------------

/- Padding does not change the number that is read. -/
theorem int32OfNumeral?_paddedText
    {n : Nat}
    (width : Nat)
    (hn : n ≤ 2147483647) :
    int32OfNumeral? (paddedText width n) =
      some (n : Int) := by
  have hDigits := all_isDigit_paddedText width n
  have hNumber :=
    NumeralParts.digits?_of_digits (paddedText_ne_nil width n)
      hDigits
  rw [digitsValue_paddedText] at hNumber
  rcases
    NumeralParts.exists_cons_of_digits
      (paddedText_ne_nil width n) hDigits with
    ⟨c, cs, hText, hc⟩
  rw [hText] at hNumber ⊢
  rw [int32OfNumeral?, NumeralParts.splitSign_of_isDigit hc]
  simp only [hNumber, Bool.false_eq_true, if_false]
  rw [if_pos (by omega)]

namespace Zinc

/- The part of a date after the year is read back. -/
theorem reads_dateFrom
    (d : Date)
    (rest : List Char) :
    Reads (dateFrom (paddedText 4 d.year))
      ('-' :: (paddedText 2 d.month ++
        '-' :: paddedText 2 d.day)) d rest := by
  have hMonth := d.month_mem
  have hDay := d.day_mem
  unfold dateFrom
  simp only [int32OfNumeral?_paddedText 4 d.year_mem.2]
  refine Reads.advance_bind ?_ '-'
  refine
    Reads.bind
      (reads_twoDigits_paddedText _ (by omega) _) ?_
  refine Reads.expect_bind ?_ '-' _
  refine
    (reads_twoDigits_paddedText _ (by omega) rest).bind_last
      ?_
  rw [Date.ofParts_parts]
  exact reads_pure d rest

/- Digits are taken before a dash or a colon. -/
theorem reads_numeral_paddedText
    (width n : Nat)
    {c : Char}
    (hc : c = '-' ∨ c = ':')
    (rest : List Char) :
    Reads numeral (paddedText width n) (paddedText width n)
      (c :: rest) := by
  refine
    reads_numeral_digits (paddedText_ne_nil width n)
      (all_isDigit_paddedText width n) ?_
  rcases hc with rfl | rfl <;> rfl

/- What starts with a year and a dash is a date. -/
theorem reads_numeric_dated
    (zones : ZoneTable)
    (d : Date)
    {more rest : List Char}
    {v : Value}
    (hDated :
      Reads (dated zones (paddedText 4 d.year))
        ('-' :: more) v rest) :
    Reads (numeric zones)
      (paddedText 4 d.year ++ '-' :: more) v rest := by
  unfold numeric
  refine
    Reads.bind
      (reads_numeral_paddedText 4 d.year (Or.inl rfl) _) ?_
  rw [reads_current_bind]
  exact hDated

/- The text of a date is read back. -/
theorem reads_numeric_date
    (zones : ZoneTable)
    (d : Date)
    {rest : List Char}
    (hRest : rest.head? ≠ some 'T') :
    Reads (numeric zones) d.text (.date d) rest := by
  rw [show d.text =
      paddedText 4 d.year ++ '-' :: (paddedText 2 d.month ++
        '-' :: paddedText 2 d.day) by
    simp [Date.text]]
  apply reads_numeric_dated zones d
  unfold dated
  apply (reads_dateFrom d rest).bind_last
  rw [reads_current_bind, List.nil_append, if_neg hRest]
  exact reads_pure _ rest

end Zinc

------------------------------------------------------------
-- Times
------------------------------------------------------------

/- The part of a time after the hour. -/
def Time.minuteText (t : Time) : List Char :=
  ':' :: (paddedText 2 t.minute ++
    ':' :: (paddedText 2 t.second ++ fractionText t.millis))

/- A time is its hour and what is behind that. -/
theorem Time.text_eq (t : Time) :
    t.text = paddedText 2 t.hour ++ t.minuteText := by
  simp [Time.text, Time.minuteText]

/- A run of at most so many characters ends before others. -/
theorem Scan.reads_spanAtMost
    {count : Nat}
    {p : Char → Bool}
    {run rest : List Char}
    (hLength : run.length ≤ count)
    (hRun : run.all p = true)
    (hRest : rest.head?.all (fun c => !p c) = true) :
    Reads (spanAtMost count p) run run rest := by
  have hTake :
      ((run ++ rest).take count).takeWhile p = run := by
    rw [List.take_append, List.take_of_length_le hLength]
    apply takeWhile_append_of_head hRun
    cases rest with
    | nil => simp
    | cons c rest =>
        cases count - run.length with
        | zero => rfl
        | succ n => simpa using hRest
  intro line
  simp [spanAtMost, hTake, Cursor.skip]

namespace Zinc

/- A time does not go on with this text. -/
def endsTime (rest : List Char) : Bool :=
  rest.head?.all (fun c => c ≠ '.' && !isDigit c)

/- What ends a value ends a time. -/
theorem EndsValue.endsTime
    {rest : List Char}
    (hRest : EndsValue rest) :
    endsTime rest = true := by
  apply hRest.head_all _
  intro c hc
  rcases eq_of_isCloser hc with
    rfl | rfl | rfl | rfl | rfl <;> rfl

/- Decimals without the zeros at their end are read back. -/
theorem reads_millis
    {width n : Nat}
    (hWidth : 0 < width)
    (hLe : width ≤ 3)
    (hn : n < 10 ^ width)
    {rest : List Char}
    (hRest : endsTime rest = true) :
    Reads millis (paddedText width n)
      (n * Nat.pow 10 (3 - width)) rest := by
  have hLength := length_paddedText hWidth hn
  have hDigits := all_isDigit_paddedText width n
  have hNe := paddedText_ne_nil width n
  have hValue := digitsValue_paddedText width n
  generalize paddedText width n = ds at *
  have hHead :
      rest.head?.all (fun c => !isDigit c) = true := by
    cases rest with
    | nil => rfl
    | cons c rest =>
        simp only [endsTime, List.head?_cons, Option.all_some,
          Bool.and_eq_true] at hRest
        exact hRest.2
  have hNone : rest.head?.any isDigit = false := by
    cases rest with
    | nil => rfl
    | cons c rest => simpa using hHead
  unfold millis
  refine
    Reads.bind_last
      (reads_spanAtMost (by omega) hDigits hHead) ?_
  rw [reads_current_bind, List.nil_append, hNone]
  have hEmpty : ds.isEmpty = false := by
    rwa [List.isEmpty_eq_false_iff]
  rw [hEmpty, List.rightpad, hLength,
    digitsValue_append_replicate_zero, hValue]
  exact reads_pure _ rest

/- The fraction of a second is read back, if there is one. -/
theorem reads_fractionText
    (t : Time)
    {rest : List Char}
    (hRest : endsTime rest = true) :
    Reads
      (current? >>= fun next =>
        if next = some '.' then
          advance >>= fun _ => millis >>= fun fraction =>
            construct
              (orValueError
                (Time.ofParts t.hour t.minute t.second
                  fraction))
        else
          construct
            (orValueError
              (Time.ofParts t.hour t.minute t.second 0)))
      (Time.fractionText t.millis) t rest := by
  have hLe := t.millis_le
  have hParts := Time.ofParts_parts t
  rw [reads_current_bind]
  -- Each case reads the millisecond from its own decimals.
  have hCase : ∀ width n, 0 < width → width ≤ 3 →
      n < 10 ^ width →
      n * Nat.pow 10 (3 - width) = t.millis →
        Reads
          (advance >>= fun _ => millis >>= fun fraction =>
            construct
              (orValueError
                (Time.ofParts t.hour t.minute t.second
                  fraction)))
          ('.' :: paddedText width n) t rest := by
    intro width n hWidth hLe hn hMillis
    refine Reads.advance_bind ?_ '.'
    apply (reads_millis hWidth hLe hn hRest).bind_last
    rw [hMillis, hParts]
    exact reads_pure t rest
  unfold Time.fractionText
  by_cases hZero : t.millis = 0
  · rw [if_pos hZero, List.nil_append, if_neg, ← hZero, hParts]
    · exact reads_pure t rest
    · intro hDot
      rw [endsTime, hDot] at hRest
      cases hRest
  rw [if_neg hZero]
  by_cases hTenths : t.millis % 100 = 0
  · rw [if_pos hTenths]
    exact
      hCase 1 (t.millis / 100) (by omega) (by omega)
        (by omega) (Nat.div_mul_cancel (by omega))
  rw [if_neg hTenths]
  by_cases hHundredths : t.millis % 10 = 0
  · rw [if_pos hHundredths]
    exact
      hCase 2 (t.millis / 10) (by omega) (by omega)
        (by omega) (Nat.div_mul_cancel (by omega))
  rw [if_neg hHundredths]
  exact
    hCase 3 t.millis (by omega) (by omega) (by omega)
      (Nat.mul_one _)

/- The part of a time after the hour is read back. -/
theorem reads_timeFrom
    (t : Time)
    {rest : List Char}
    (hRest : endsTime rest = true) :
    Reads (timeFrom t.hour) t.minuteText t rest := by
  have hMinute := t.minute_le
  have hSecond := t.second_le
  unfold timeFrom Time.minuteText
  refine Reads.expect_bind ?_ ':' _
  refine
    Reads.bind
      (reads_twoDigits_paddedText _ (by omega) _) ?_
  refine Reads.expect_bind ?_ ':' _
  refine
    Reads.bind
      (reads_twoDigits_paddedText _ (by omega) _) ?_
  exact reads_fractionText t hRest

/- The text of a time is read back. -/
theorem reads_numeric_time
    (zones : ZoneTable)
    (t : Time)
    {rest : List Char}
    (hRest : endsTime rest = true) :
    Reads (numeric zones) t.text (.time t) rest := by
  have hHour := t.hour_le
  have hLength :
      (paddedText 2 t.hour).length = 2 ∧
        (paddedText 2 t.hour).all isDigit = true :=
    ⟨length_paddedText (by decide) (by omega),
      all_isDigit_paddedText 2 t.hour⟩
  rw [Time.text_eq]
  unfold numeric
  refine
    Reads.bind
      (reads_numeral_paddedText 2 t.hour (Or.inr rfl) _) ?_
  rw [reads_current_bind]
  change Reads (timed (paddedText 2 t.hour)) t.minuteText _ _
  unfold timed
  rw [if_pos hLength, digitsValue_paddedText]
  exact (reads_timeFrom t hRest).bind_pure Value.time

end Zinc

------------------------------------------------------------
-- Date-Times
------------------------------------------------------------

/- The characters spell the name of a zone. -/
def isZoneName (cs : List Char) : Bool :=
  cs.head?.any isUpper && cs.all isZoneChar

namespace DateTime

/- The hours of the offset have two digits. -/
def HasShortOffset (x : DateTime) : Prop :=
  x.offset.natAbs < 360000

instance (x : DateTime) : Decidable x.HasShortOffset := by
  unfold HasShortOffset
  infer_instance

/- The zone has a name that is known. -/
def IsLegible
    (zones : ZoneTable)
    (x : DateTime) : Prop :=
  isZoneName x.zone.name.toList = true ∧
    (zones.find? x.zone.name).isSome = true

instance
    (zones : ZoneTable)
    (x : DateTime) : Decidable (x.IsLegible zones) := by
  unfold IsLegible
  infer_instance

/- The date-time with the zone that is known by the name. -/
def asRead
    (zones : ZoneTable)
    (x : DateTime) : DateTime :=
  { x with
    zone := (zones.find? x.zone.name).getD x.zone }

/- The text of a date-time, from part to part. -/
theorem text_eq (x : DateTime) :
    x.text =
      paddedText 4 x.date.year ++
        '-' :: ((paddedText 2 x.date.month ++
          '-' :: paddedText 2 x.date.day) ++
            'T' :: (paddedText 2 x.time.hour ++
              (x.time.minuteText ++
                (offsetText x.offset ++
                  ' ' :: x.zone.name.toList)))) := by
  simp [text, Date.text, Time.text_eq]

/- The zone found by a name has that name. -/
theorem asRead_zone_name
    (zones : ZoneTable)
    (x : DateTime) :
    (x.asRead zones).zone.name = x.zone.name := by
  unfold asRead
  cases hFind : zones.find? x.zone.name with
  | none => rfl
  | some zone =>
      have hSome := List.find?_some hFind
      simpa using hSome

/- A date-time is read back as the same moment. -/
theorem asRead_same
    (zones : ZoneTable)
    (x : DateTime) :
    (x.asRead zones == x) = true := by
  change
    (decide _ && decide _ && decide _ && decide _) = true
  rw [x.asRead_zone_name]
  simp [asRead]

end DateTime

namespace Zinc

/- An offset of less than a hundred hours is read back. -/
theorem reads_zoneOffset
    {offset : Int}
    (hMinutes : 60 ∣ offset)
    (hShort : offset.natAbs < 360000)
    (rest : List Char) :
    Reads zoneOffset (DateTime.offsetText offset) offset
      rest := by
  have hHours :
      Reads hoursAndMinutes
        (paddedText 2 (offset.natAbs / 3600) ++
          ':' :: paddedText 2 (offset.natAbs % 3600 / 60))
        (offset.natAbs : Int) rest := by
    unfold hoursAndMinutes
    refine
      Reads.bind
        (reads_twoDigits_paddedText _ (by omega) _) ?_
    refine Reads.expect_bind ?_ ':' _
    refine
      (reads_twoDigits_paddedText _ (by omega) rest).bind_last
        ?_
    have hSum :
        ((offset.natAbs / 3600 : Nat) : Int) * 3600 +
            ((offset.natAbs % 3600 / 60 : Nat) : Int) * 60 =
          offset.natAbs := by
      omega
    rw [hSum]
    exact reads_pure _ rest
  unfold zoneOffset
  rw [reads_current_bind]
  by_cases hZero : offset = 0
  · subst hZero
    exact (reads_pure (0 : Int) rest).advance_bind 'Z'
  by_cases hNegative : offset < 0
  · have hBack := hHours.bind_pure (fun n : Int => -n)
    rw [show -(offset.natAbs : Int) = offset by omega]
      at hBack
    simp only [DateTime.offsetText, hZero, hNegative,
      if_true, if_false, List.append_assoc, List.cons_append,
      List.nil_append, List.head?_cons]
    exact hBack.advance_bind '-'
  · rw [show (offset.natAbs : Int) = offset by omega]
      at hHours
    simp only [DateTime.offsetText, hZero, hNegative,
      if_false, List.append_assoc, List.cons_append,
      List.nil_append, List.head?_cons]
    exact hHours.advance_bind '+'

/-
  The parts of a date-time make it, in the zone they are
  given with.
-/
theorem DateTime.ofParts_parts
    (x : DateTime)
    (zone : Zone) :
    DateTime.ofParts x.date x.time zone x.offset =
      .ok { x with zone := zone } := by
  rw [DateTime.ofParts, dif_pos x.offset_dvd]

/- The offset and a known zone are read back. -/
theorem reads_zoned
    {zones : ZoneTable}
    {x : DateTime}
    (hx : x.IsLegible zones)
    (hShort : x.HasShortOffset)
    {rest : List Char}
    (hRest :
      rest.head?.all (fun c => !isZoneChar c) = true) :
    Reads (zoned zones x.date x.time)
      (DateTime.offsetText x.offset ++
        ' ' :: x.zone.name.toList)
      (x.asRead zones) rest := by
  have hName := hx.1
  rw [isZoneName, Bool.and_eq_true] at hName
  rcases Option.isSome_iff_exists.mp hx.2 with
    ⟨zone, hZone⟩
  unfold zoned
  refine
    Reads.bind (reads_zoneOffset x.offset_dvd hShort _) ?_
  rw [reads_current_bind, reads_next_bind, if_pos]
  · refine Reads.advance_bind ?_ ' '
    apply Reads.bind_last (reads_span hName.2 hRest)
    simp only [String.ofList_toList, hZone,
      DateTime.ofParts_parts, DateTime.asRead]
    exact reads_pure _ rest
  · refine ⟨rfl, ?_⟩
    cases hText : x.zone.name.toList with
    | nil =>
        rw [hText] at hName
        cases hName.1
    | cons c cs =>
        rw [hText] at hName
        exact hName.1

/- The sign of an offset ends the time before it. -/
theorem endsTime_offsetText
    (offset : Int)
    (more : List Char) :
    endsTime (DateTime.offsetText offset ++ more) = true := by
  unfold DateTime.offsetText
  split_ifs <;> rfl

/- The text of a date-time is read back. -/
theorem reads_numeric_dateTime
    {zones : ZoneTable}
    {x : DateTime}
    (hx : x.IsLegible zones)
    (hShort : x.HasShortOffset)
    {rest : List Char}
    (hRest :
      rest.head?.all (fun c => !isZoneChar c) = true) :
    Reads (numeric zones) x.text
      (.dateTime (x.asRead zones)) rest := by
  have hHour := x.time.hour_le
  rw [x.text_eq]
  apply reads_numeric_dated zones x.date
  unfold dated
  rw [← List.cons_append]
  apply Reads.bind (reads_dateFrom x.date _)
  rw [reads_current_bind, if_pos (by rfl)]
  refine Reads.advance_bind ?_ 'T'
  refine
    Reads.bind
      (reads_twoDigits_paddedText _ (by omega) _) ?_
  refine Reads.bind (reads_timeFrom x.time ?_) ?_
  · rw [List.append_assoc]
    exact endsTime_offsetText _ _
  exact (reads_zoned hx hShort hRest).bind_pure Value.dateTime

end Zinc

end Haystack
