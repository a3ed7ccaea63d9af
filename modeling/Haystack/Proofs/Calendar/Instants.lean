import Haystack.Calendar.DateTime
import Haystack.Calendar.Regions
import Haystack.Proofs.Calendar.Days

/-
  This file shows that instants and what clocks show are
  inverse to each other: a date-time that is made from an
  instant has that instant, and one of a zone with a constant
  offset is made again from its own.

  Key definitions include:
    * `Date.civilDay`
    * `Date.IsReal`
    * `Date.HasCount`
    * `DateTime.ShowsInstant`

  Main declarations:
    * `DateTime.ofEpoch_eq_ok`
    * `DateTime.epoch_of_ofEpoch`
    * `DateTime.ofEpoch_epoch_inZone`
    * `DateTime.epoch_ofEpoch_and_ofEpoch_epoch`
-/

namespace Haystack

------------------------------------------------------------
-- Dates
------------------------------------------------------------

namespace Date

variable {d : Date}

/- The date as a day of the calendar. -/
def civilDay (d : Date) : CivilDay :=
  ⟨d.year, d.month, d.day⟩

/- The calendar has the date. -/
def IsReal (d : Date) : Prop :=
  d.day ≤ daysInMonth d.year d.month

instance (d : Date) : Decidable d.IsReal := by
  unfold IsReal
  infer_instance

/- The days up to the year of the date are counted. -/
def HasCount (d : Date) : Prop :=
  d.year ≤ lastCountedYear

instance (d : Date) : Decidable d.HasCount := by
  unfold HasCount
  infer_instance

/- A date is a day of the calendar if its civil day is. -/
theorem isReal_iff : d.IsReal ↔ d.civilDay.IsReal := by
  have hMonth := d.month_mem
  have hDay := d.day_mem
  constructor
  · intro hReal
    exact
      ⟨by simp only [civilDay]; omega,
        by simp only [civilDay]; omega, hReal⟩
  · intro hReal
    exact hReal.day_mem.2

/- A date is made again from its parts. -/
theorem ofParts_parts (d : Date) :
    ofParts d.year d.month d.day = .ok d := by
  have hYear := d.year_mem
  rw [ofParts, dif_pos (by omega), dif_pos d.month_mem,
    dif_pos d.day_mem]
  simp

/- A date that could be made has the parts it is made of. -/
theorem ofParts_eq_ok
    {year : Int}
    {month day : Nat} :
    ofParts year month day = .ok d ↔
      d.year = year ∧ d.month = month ∧ d.day = day := by
  constructor
  · intro h
    unfold ofParts at h
    split_ifs at h with hYear
    cases h
    exact ⟨Int.toNat_of_nonneg (by omega), rfl, rfl⟩
  · rintro ⟨rfl, rfl, rfl⟩
    exact d.ofParts_parts

/- A day of the calendar is a date if its year is in range. -/
theorem ofParts_eq_ok_of_isReal
    {day : CivilDay}
    (hDay : day.IsReal) :
    ofParts day.year day.month.toNat day.day.toNat = .ok d ↔
      d.civilDay = day := by
  rcases day with ⟨year, month, day⟩
  have hMonth := hDay.month_mem
  have hDays := hDay.day_mem
  rw [ofParts_eq_ok, civilDay, CivilDay.mk.injEq]
  dsimp only at hMonth hDays ⊢
  omega

/- Counted dates lie before the first uncounted year. -/
theorem count_mem
    (hd : d.IsReal)
    (hCount : d.HasCount) :
    -25568 < d.civilDay.count ∧
      d.civilDay.count < 95026237 := by
  have hYear := d.year_mem
  have hReal := isReal_iff.mp hd
  have hAfter :
      CivilDay.IsBefore ⟨1899, 12, 31⟩ d.civilDay :=
    .inl (by simp only [civilDay]; omega)
  have hBefore :
      CivilDay.IsBefore d.civilDay ⟨262143, 1, 1⟩ := by
    unfold HasCount lastCountedYear at hCount
    exact .inl (by simp only [civilDay]; omega)
  constructor
  · exact
      CivilDay.count_lt_count ⟨by decide, by decide⟩ hReal
        hAfter
  · exact
      CivilDay.count_lt_count hReal ⟨by decide, by decide⟩
        hBefore

/- A real day with a count below that bound is counted. -/
theorem hasCount_of_count_lt
    (hd : d.IsReal)
    (h : d.civilDay.count < 95026237) :
    d.HasCount := by
  by_contra hNot
  have hAfter :
      CivilDay.IsBefore ⟨262142, 12, 31⟩ d.civilDay := by
    unfold HasCount lastCountedYear at hNot
    exact .inl (by simp only [civilDay]; omega)
  have hLess :
      95026236 < d.civilDay.count :=
    CivilDay.count_lt_count ⟨by decide, by decide⟩
      (isReal_iff.mp hd) hAfter
  omega

end Date

------------------------------------------------------------
-- Times of Day
------------------------------------------------------------

namespace Time

/- A time is made again from its parts. -/
theorem ofParts_parts (t : Time) :
    ofParts t.hour t.minute t.second t.millis = .ok t := by
  rw [ofParts, dif_pos t.hour_le, dif_pos t.minute_le,
    dif_pos t.second_le, dif_pos t.millis_le]

/- Times of a day are less than a day after midnight. -/
theorem millisOfDay_mem (t : Time) :
    0 ≤ t.millisOfDay ∧ t.millisOfDay < millisPerDay := by
  have hHour := t.hour_le
  have hMinute := t.minute_le
  have hSecond := t.second_le
  have hMillis := t.millis_le
  unfold millisOfDay millisPerDay
  omega

end Time

/- The time at milliseconds after midnight has as many. -/
theorem DateTime.timeAt_eq_ok
    {n : Nat}
    {t : Time} :
    timeAt n = .ok t ↔ t.millisOfDay = n := by
  have hMinute := t.minute_le
  have hSecond := t.second_le
  have hMillis := t.millis_le
  constructor
  · intro h
    unfold timeAt Time.ofParts at h
    split_ifs at h
    cases h
    unfold Time.millisOfDay
    dsimp only
    omega
  · intro h
    unfold Time.millisOfDay at h
    have hHours : n / 3600000 = t.hour := by omega
    have hMinutes : n / 60000 % 60 = t.minute := by omega
    have hSeconds : n / 1000 % 60 = t.second := by omega
    have hRest : n % 1000 = t.millis := by omega
    unfold timeAt
    rw [hHours, hMinutes, hSeconds, hRest]
    exact t.ofParts_parts

------------------------------------------------------------
-- Date-Times
------------------------------------------------------------

namespace DateTime

variable {rules : RegionRules}
variable {x : DateTime}

/- What clocks of a zone show at an instant. -/
structure ShowsInstant
    (rules : RegionRules)
    (x : DateTime)
    (epoch : Int)
    (zone : Zone) : Prop where
  zone_eq : x.zone = zone
  offset_eq :
    x.offset = wholeMinutes (zone.offsetAt rules epoch)
  hasOffset : HasOffset (epoch + x.offset * 1000)
  date_eq :
    x.date.civilDay =
      CivilDay.ofCount
        ((epoch + x.offset * 1000) / millisPerDay)
  time_eq :
    x.time.millisOfDay =
      (epoch + x.offset * 1000) % millisPerDay

/- Local time is the count of its day and the time of day. -/
theorem localMillis?_eq
    {date : Date}
    (hDate : date.HasCount)
    (time : Time) :
    localMillis? date time =
      some
        (date.civilDay.count * millisPerDay +
          time.millisOfDay) :=
  if_pos hDate

/-
  An instant is shown if its local time has an offset and its
  year is not before 1900.
-/
theorem ofEpoch_eq_ok
    {epoch : Int}
    {zone : Zone} :
    ofEpoch rules epoch zone = .ok x ↔
      x.ShowsInstant rules epoch zone := by
  -- With these parts named, none of the ways to compute
  -- them has to be opened.
  obtain ⟨offset, hOffset⟩ :
      ∃ offset,
        wholeMinutes (zone.offsetAt rules epoch) = offset :=
    ⟨_, rfl⟩
  obtain ⟨day, hDay⟩ :
      ∃ day,
        CivilDay.ofCount
          ((epoch + offset * 1000) / millisPerDay) = day :=
    ⟨_, rfl⟩
  have hReal : day.IsReal := hDay ▸ (CivilDay.count_ofCount _).1
  obtain ⟨millis, hMillis⟩ :
      ∃ millis : Nat,
        (epoch + offset * 1000) % millisPerDay = millis :=
    Int.eq_ofNat_of_zero_le (Int.emod_nonneg _ (by decide))
  constructor
  · intro h
    unfold ofEpoch at h
    simp only [hOffset, hDay, hMillis, Int.toNat_natCast] at h
    split_ifs at h with hRange
    cases hDate :
        Date.ofParts day.year day.month.toNat day.day.toNat with
    | error e =>
        rw [hDate] at h
        cases h
    | ok date =>
        cases hTime : timeAt millis with
        | error e =>
            rw [hDate, hTime] at h
            cases h
        | ok time =>
            rw [hDate, hTime] at h
            cases h
            rw [Date.ofParts_eq_ok_of_isReal hReal] at hDate
            rw [timeAt_eq_ok] at hTime
            exact
              ⟨rfl, hOffset.symm, hRange, hDate.trans hDay.symm,
                hTime.trans hMillis.symm⟩
  · rcases x with ⟨date, time, xZone, xOffset, hDvd⟩
    rintro ⟨hZone, hSame, hRange, hDate, hTime⟩
    dsimp only at hZone hSame hRange hDate hTime
    rw [hOffset] at hSame
    subst hZone hSame
    rw [hDay, ← Date.ofParts_eq_ok_of_isReal hReal] at hDate
    rw [hMillis, ← timeAt_eq_ok] at hTime
    unfold ofEpoch
    simp only [hOffset, hDay, hMillis, Int.toNat_natCast]
    rw [if_pos hRange, hDate, hTime]
    rfl

------------------------------------------------------------
-- From Instants to Clocks and Back
------------------------------------------------------------

/-
  A date-time made from an instant has that instant, whatever
  offset its zone has then.
-/
theorem epoch_of_ofEpoch
    {epoch : Int}
    {zone : Zone}
    (h : ofEpoch rules epoch zone = .ok x) :
    x.epoch = epoch := by
  have hShows := ofEpoch_eq_ok.mp h
  have hCount := CivilDay.count_ofCount
    ((epoch + x.offset * 1000) / millisPerDay)
  rw [← hShows.date_eq] at hCount
  have hReal := Date.isReal_iff.mpr hCount.1
  have hRange := hShows.hasOffset
  have hCounted : x.date.HasCount := by
    apply Date.hasCount_of_count_lt hReal
    rw [hCount.2]
    unfold HasOffset at hRange
    unfold millisPerDay
    omega
  have hParts :=
    Int.mul_ediv_add_emod (epoch + x.offset * 1000) millisPerDay
  unfold DateTime.epoch
  rw [localMillis?_eq hCounted, hCount.2, hShows.time_eq,
    Option.getD_some, Int.mul_comm, hParts]
  omega

/- Clocks of a constant offset show each date and time. -/
theorem ofEpoch_epoch_inZone
    {date : Date}
    (hDate : date.IsReal)
    (hCount : date.HasCount)
    (time : Time)
    (name : String)
    (offset : Int) :
    ofEpoch rules
        (inZone rules date time ⟨name, .fixed offset⟩).epoch
        ⟨name, .fixed offset⟩ =
      .ok (inZone rules date time ⟨name, .fixed offset⟩) := by
  have hLocal := localMillis?_eq hCount time
  have hDays := Date.count_mem hDate hCount
  have hMillis := time.millisOfDay_mem
  have hOffset :
      (inZone rules date time ⟨name, .fixed offset⟩).offset =
        wholeMinutes offset := by
    simp only [inZone, hLocal, Zone.offsetAtLocal]
  have hWall :
      (inZone rules date time ⟨name, .fixed offset⟩).epoch +
          wholeMinutes offset * 1000 =
        date.civilDay.count * millisPerDay +
          time.millisOfDay := by
    unfold DateTime.epoch
    rw [hOffset]
    change
      (localMillis? date time).getD 0 - _ + _ = _
    rw [hLocal, Option.getD_some]
    omega
  have hParts :
      (date.civilDay.count * millisPerDay +
              time.millisOfDay) / millisPerDay =
          date.civilDay.count ∧
        (date.civilDay.count * millisPerDay +
              time.millisOfDay) % millisPerDay =
          time.millisOfDay := by
    unfold millisPerDay at *
    omega
  rw [ofEpoch_eq_ok]
  refine ⟨rfl, hOffset, ?_, ?_, ?_⟩
  all_goals rw [hOffset, hWall]
  · unfold HasOffset millisPerDay at *
    omega
  · rw [hParts.1]
    exact (CivilDay.ofCount_count (Date.isReal_iff.mp hDate)).symm
  · exact hParts.2.symm

/-
  Whatever the rules of regions are, instants are kept by what
  clocks show; and by clocks with a constant offset, what they
  show is kept by its instant.
-/
theorem epoch_ofEpoch_and_ofEpoch_epoch :
    (∀ (rules : RegionRules) (epoch : Int) (zone : Zone)
      (x : DateTime),
      ofEpoch rules epoch zone = .ok x → x.epoch = epoch) ∧
    ∀ (rules : RegionRules) (date : Date) (time : Time)
      (name : String) (offset : Int),
      date.IsReal → date.HasCount →
        ofEpoch rules
            (inZone rules date time
              ⟨name, .fixed offset⟩).epoch
            ⟨name, .fixed offset⟩ =
          .ok
            (inZone rules date time ⟨name, .fixed offset⟩) := by
  constructor
  · intro rules epoch zone x h
    exact epoch_of_ofEpoch h
  · intro rules date time name offset hDate hCount
    exact ofEpoch_epoch_inZone hDate hCount time name offset

/- Half a second before June 1950 in Liberia. -/
def monroviaNight : DateTime where
  date := ⟨1950, 5, 31, by decide, by decide, by decide⟩
  time :=
    ⟨23, 59, 59, 500, by decide, by decide, by decide,
      by decide⟩
  zone := .ofRegion "Africa/Monrovia"
  offset := -2640
  offset_dvd := by decide

/- The rules to look at Monrovia with, and nowhere else. -/
def monroviaRules : RegionRules :=
  fun _ => History.monrovia.rule

/- The last day of a February that has 29 days. -/
def leapDay : Date :=
  ⟨2000, 2, 29, by decide, by decide, by decide⟩

/-
  In 1950 clocks of Monrovia were 44 minutes and 30 seconds
  behind; a constant offset may have seconds as well.
-/
theorem epoch_monroviaNight :
    (ofEpoch monroviaRules (-618102960500)
          (.ofRegion "Africa/Monrovia") =
        .ok monroviaNight ∧
      monroviaNight.epoch = -618102960500) ∧
    (leapDay.IsReal ∧ leapDay.HasCount) ∧
      ofEpoch monroviaRules
          (inZone monroviaRules leapDay monroviaNight.time
            ⟨"X", .fixed (-12345)⟩).epoch
          ⟨"X", .fixed (-12345)⟩ =
        .ok
          (inZone monroviaRules leapDay monroviaNight.time
            ⟨"X", .fixed (-12345)⟩) := by
  have hNight :
      ofEpoch monroviaRules (-618102960500)
          (.ofRegion "Africa/Monrovia") =
        .ok monroviaNight := by
    rfl
  have hLeap : leapDay.IsReal ∧ leapDay.HasCount := by decide
  exact
    ⟨⟨hNight,
        epoch_ofEpoch_and_ofEpoch_epoch.1 _ _ _ _ hNight⟩,
      hLeap,
      epoch_ofEpoch_and_ofEpoch_epoch.2 _ _ _ _ _ hLeap.1
        hLeap.2⟩

end DateTime

end Haystack
