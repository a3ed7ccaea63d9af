import Haystack.Proofs.Calendar.Instants
import Mathlib.Order.Compare

/-
  This file shows how dates, times and date-times are
  ordered. With the same offset, date-times of real dates are
  ordered by what clocks show, from the year down to the
  millisecond; all dates without a count stand at one place.

  Key definitions include:
    * `DateTime.compareClock`
    * `DateTime.counted`

  Main declarations:
    * `Date.compare_eq_compare_count`
    * `Time.compare_eq_compare_millisOfDay`
    * `DateTime.compare_eq_compareClock`
-/

namespace Haystack

------------------------------------------------------------
-- Lexicographic Orders
------------------------------------------------------------

instance : Std.TransOrd Date :=
  inferInstanceAs
    (Std.TransCmp
      (compareLex (compareOn Date.year)
        (compareLex (compareOn Date.month)
          (compareOn Date.day))))

instance : Std.TransOrd Time :=
  inferInstanceAs
    (Std.TransCmp
      (compareLex (compareOn Time.hour)
        (compareLex (compareOn Time.minute)
          (compareLex (compareOn Time.second)
            (compareOn Time.millis)))))

instance : Std.TransOrd DateTime :=
  inferInstanceAs (Std.TransCmp (compareOn DateTime.epoch))

/- Numbers that grow with others are ordered like them. -/
theorem compare_map
    {α : Type}
    [LinearOrder α]
    {f : α → Int}
    (hf : StrictMono f)
    (a b : α) :
    compare (f a) (f b) = compare a b := by
  rw [← cmp_eq_compare, ← cmp_eq_compare, hf.cmp_map_eq]

/-
  A number with one more digit at its end is ordered by what
  stands before that digit first.
-/
theorem compare_mul_add
    {base high high' low low' : Int}
    (hLow : 0 ≤ low ∧ low < base)
    (hLow' : 0 ≤ low' ∧ low' < base) :
    compare (high * base + low) (high' * base + low') =
      (compare high high').then (compare low low') := by
  rcases lt_trichotomy high high' with hLess | rfl | hMore
  · have hStep : (high + 1) * base ≤ high' * base :=
      Int.mul_le_mul_of_nonneg_right hLess (by omega)
    rw [Int.add_mul] at hStep
    rw [compare_lt_iff_lt.mpr hLess]
    exact compare_lt_iff_lt.mpr (by omega)
  · rw [compare_eq_iff_eq.mpr (rfl : high = high)]
    exact compare_map (strictMono_id.const_add _) low low'
  · have hStep : (high' + 1) * base ≤ high * base :=
      Int.mul_le_mul_of_nonneg_right hMore (by omega)
    rw [Int.add_mul] at hStep
    rw [compare_gt_iff_gt.mpr hMore]
    exact compare_gt_iff_gt.mpr (by omega)

------------------------------------------------------------
-- Times of Day
------------------------------------------------------------

/- Times are ordered by the milliseconds since midnight. -/
theorem Time.compare_eq_compare_millisOfDay (s t : Time) :
    compare s t = compare s.millisOfDay t.millisOfDay := by
  have hMinute := s.minute_le
  have hMinute' := t.minute_le
  have hSecond := s.second_le
  have hSecond' := t.second_le
  have hMillis := s.millis_le
  have hMillis' := t.millis_le
  unfold millisOfDay
  rw [compare_mul_add (by omega) (by omega),
    compare_mul_add (by omega) (by omega),
    compare_mul_add (by omega) (by omega),
    compare_map Nat.strictMono_cast,
    compare_map Nat.strictMono_cast,
    compare_map Nat.strictMono_cast,
    compare_map Nat.strictMono_cast, Ordering.then_assoc,
    Ordering.then_assoc]
  rfl

/- No two times are at one place. -/
theorem Time.eq_of_compare_eq
    {s t : Time}
    (h : compare s t = .eq) :
    s = t := by
  rcases s with ⟨hour, minute, second, millis, _, _, _, _⟩
  rcases t with ⟨hour', minute', second', millis', _, _, _, _⟩
  change
    (compare hour hour').then
        ((compare minute minute').then
          ((compare second second').then
            (compare millis millis'))) =
      .eq at h
  simp only [Ordering.then_eq_eq, Nat.compare_eq_eq] at h
  rcases h with ⟨rfl, rfl, rfl, rfl⟩
  rfl

------------------------------------------------------------
-- Dates
------------------------------------------------------------

/- Dates are ordered like the days of a calendar. -/
theorem Date.compare_eq_lt {a b : Date} :
    compare a b = .lt ↔ a.civilDay.IsBefore b.civilDay := by
  change
    (compare a.year b.year).then
        ((compare a.month b.month).then
          (compare a.day b.day)) = .lt ↔ _
  simp only [Ordering.then_eq_lt, Nat.compare_eq_lt,
    Nat.compare_eq_eq, CivilDay.IsBefore, civilDay,
    Nat.cast_lt, Nat.cast_inj]

/- No two dates are at one place. -/
theorem Date.eq_of_compare_eq
    {a b : Date}
    (h : compare a b = .eq) :
    a = b := by
  rcases a with ⟨year, month, day, _, _, _⟩
  rcases b with ⟨year', month', day', _, _, _⟩
  change
    (compare year year').then
        ((compare month month').then (compare day day')) =
      .eq at h
  simp only [Ordering.then_eq_eq, Nat.compare_eq_eq] at h
  rcases h with ⟨rfl, rfl, rfl⟩
  rfl

/- Real dates are ordered by the counts of their days. -/
theorem Date.compare_eq_compare_count
    {a b : Date}
    (ha : a.IsReal)
    (hb : b.IsReal) :
    compare a b =
      compare a.civilDay.count b.civilDay.count := by
  have ha' := isReal_iff.mp ha
  have hb' := isReal_iff.mp hb
  cases hOrder : compare a b with
  | lt =>
      have hBefore := compare_eq_lt.mp hOrder
      have hLess := CivilDay.count_lt_count ha' hb' hBefore
      exact (compare_lt_iff_lt.mpr hLess).symm
  | eq =>
      rw [eq_of_compare_eq hOrder]
      exact (compare_eq_iff_eq.mpr rfl).symm
  | gt =>
      rw [Std.OrientedCmp.gt_iff_lt] at hOrder
      have hBefore := compare_eq_lt.mp hOrder
      have hLess := CivilDay.count_lt_count hb' ha' hBefore
      exact (compare_gt_iff_gt.mpr hLess).symm

------------------------------------------------------------
-- Date-Times
------------------------------------------------------------

namespace DateTime

/-
  What clocks show, ordered by year, month and day, and then
  by hour, minute, second and millisecond.
-/
def compareClock (x y : DateTime) : Ordering :=
  (compare x.date y.date).then (compare x.time y.time)

/- Clocks show the same if date and time are the same. -/
theorem compareClock_eq_eq {x y : DateTime} :
    x.compareClock y = .eq ↔
      x.date = y.date ∧ x.time = y.time := by
  unfold compareClock
  rw [Ordering.then_eq_eq]
  constructor
  · rintro ⟨hDate, hTime⟩
    exact
      ⟨Date.eq_of_compare_eq hDate, Time.eq_of_compare_eq hTime⟩
  · rintro ⟨hDate, hTime⟩
    rw [hDate, hTime]
    exact ⟨Std.ReflCmp.compare_self, Std.ReflCmp.compare_self⟩

/- The first of January 1970. -/
def countedFrom : Date :=
  ⟨1970, 1, 1, by decide, by decide, by decide⟩

/- The start of a day. -/
def midnight : Time :=
  ⟨0, 0, 0, 0, by decide, by decide, by decide, by decide⟩

/-
  What clocks show at the instant of a date-time. All dates
  without a count have the instant of the start of 1970.
-/
def counted (x : DateTime) : DateTime :=
  if x.date.HasCount then x
  else { x with date := countedFrom, time := midnight }

section Counted

variable {x y : DateTime}

theorem offset_counted (x : DateTime) :
    x.counted.offset = x.offset := by
  unfold counted
  split_ifs <;> rfl

theorem hasCount_counted (x : DateTime) :
    x.counted.date.HasCount := by
  unfold counted
  split_ifs with hCount
  · exact hCount
  · change countedFrom.HasCount
    decide

theorem isReal_counted (hx : x.date.IsReal) :
    x.counted.date.IsReal := by
  unfold counted
  split_ifs
  · exact hx
  · change countedFrom.IsReal
    decide

/-
  In place of a date without a count stands the day that it
  counts as.
-/
theorem epoch_counted (x : DateTime) :
    x.counted.epoch = x.epoch := by
  unfold counted
  split_ifs with hCount
  · rfl
  · have hNone : localMillis? x.date x.time = none :=
      if_neg hCount
    have hStart : localMillis? countedFrom midnight = some 0 :=
      rfl
    simp only [epoch, hNone, hStart, Option.getD_some,
      Option.getD_none]

/- With the same offset, instants follow the clocks. -/
theorem compare_eq_compareClock
    (hOffset : x.offset = y.offset)
    (hx : x.date.IsReal ∧ x.date.HasCount)
    (hy : y.date.IsReal ∧ y.date.HasCount) :
    compare x y = x.compareClock y := by
  change compare x.epoch y.epoch = _
  have hShift :
      StrictMono (fun n : Int => n - y.offset * 1000) := by
    intro m n hLess
    dsimp only
    omega
  unfold epoch compareClock
  rw [localMillis?_eq hx.2, localMillis?_eq hy.2, hOffset,
    Option.getD_some, Option.getD_some, compare_map hShift,
    compare_mul_add x.time.millisOfDay_mem
      y.time.millisOfDay_mem,
    Date.compare_eq_compare_count hx.1 hy.1,
    Time.compare_eq_compare_millisOfDay]

/-
  With one offset, date-times are ordered by what clocks
  show where days are counted, and elsewhere as the day that
  they count as.
-/
theorem compare_eq_compareClock_counted
    (hOffset : x.offset = y.offset)
    (hx : x.date.IsReal)
    (hy : y.date.IsReal) :
    compare x y = x.counted.compareClock y.counted := by
  change compare x.epoch y.epoch = _
  rw [← epoch_counted x, ← epoch_counted y]
  refine
    compare_eq_compareClock ?_
      ⟨isReal_counted hx, hasCount_counted x⟩
      ⟨isReal_counted hy, hasCount_counted y⟩
  rw [offset_counted, offset_counted, hOffset]

end Counted

end DateTime

end Haystack
