import Haystack.Filter.Basic
import Haystack.Proofs.Calendar.Order
import Haystack.Proofs.Tag.Sameness

/-
  This file shows how values are ordered: by a total preorder
  on each kind that has an order, in which values that are
  the same stand at one place. Date-times with the same
  offset are ordered by what clocks show, as far as their
  days are counted.

  Key definitions include:
    * `Kind.isOrdered`
    * `Value.IsAtMost`
    * `Value.Compares`

  Main declarations:
    * `Value.compare?_eq_some`
    * `Value.compare?_isTotalPreorder`
    * `Value.compare?_eq_compareClock`
-/

namespace Haystack

/- The values of the kind are ordered. -/
def Kind.isOrdered : Kind → Bool
| .number | .str | .date | .time | .dateTime => true
| _ => false

instance : Std.TransOrd Binary64 :=
  inferInstanceAs (Std.TransCmp (compareOn Binary64.orderKey))

instance : Std.TransOrd Number :=
  inferInstanceAs (Std.TransCmp (compareOn Number.value))

namespace Value

variable {a b c : Value}

/- The value is ordered before another, or at its place. -/
def IsAtMost (a b : Value) : Prop :=
  (a.compare? b).any Ordering.isLE = true

instance (a b : Value) : Decidable (a.IsAtMost b) := by
  unfold IsAtMost
  infer_instance

------------------------------------------------------------
-- The Five Orders
------------------------------------------------------------

/- Two values of one of the five kinds, and their order. -/
inductive Compares : Value → Value → Ordering → Prop where
| number (x y : Number) :
    Compares (.number x) (.number y) (compare x y)
| str (x y : String) :
    Compares (.str x) (.str y) (compare x y)
| date (x y : Date) :
    Compares (.date x) (.date y) (compare x y)
| time (x y : Time) :
    Compares (.time x) (.time y) (compare x y)
| dateTime (x y : DateTime) :
    Compares (.dateTime x) (.dateTime y) (compare x y)

/-
  Values compare like the parts that their kind is ordered
  by.
-/
theorem compare?_eq_some {o : Ordering} :
    a.compare? b = some o ↔ Compares a b o := by
  constructor
  · intro h
    unfold compare? at h
    split at h <;> cases h <;> constructor
  · intro h
    cases h <;> rfl

/- Values compare if they are of one kind with an order. -/
theorem isSome_compare?_iff :
    (a.compare? b).isSome = true ↔
      a.kind = b.kind ∧ a.kind.isOrdered = true := by
  constructor
  · intro h
    rcases Option.isSome_iff_exists.mp h with ⟨o, hOrder⟩
    cases compare?_eq_some.mp hOrder <;> exact ⟨rfl, rfl⟩
  · rintro ⟨hKind, hOrdered⟩
    cases a <;> cases hOrdered <;>
      cases b <;> cases hKind <;> rfl

/- The other way round they compare the other way. -/
theorem Compares.swap
    {o : Ordering}
    (h : Compares a b o) :
    Compares b a o.swap := by
  cases h <;>
    rw [← Std.OrientedCmp.eq_swap] <;> constructor

/- What is below has the other above it. -/
theorem compare?_eq_lt :
    a.compare? b = some .lt ↔ b.compare? a = some .gt := by
  rw [compare?_eq_some, compare?_eq_some]
  exact ⟨Compares.swap, Compares.swap⟩

/- A value of a kind with an order is at its own place. -/
theorem compare?_self
    (hOrdered : a.kind.isOrdered = true) :
    a.compare? a = some .eq := by
  cases a <;> cases hOrdered <;>
    exact congrArg some Std.ReflCmp.compare_self

/- What is the same stands at one place of the order. -/
theorem compare?_of_same
    (h : (a == b) = true)
    (hOrdered : a.kind.isOrdered = true) :
    a.compare? b = some .eq := by
  rw [(compare?_eq_of_same h b).1]
  apply compare?_self
  rwa [← kind_eq_of_same h]

------------------------------------------------------------
-- A Total Preorder
------------------------------------------------------------

/-
  To be at most another value is to compare below or equal.
-/
theorem isAtMost_iff :
    a.IsAtMost b ↔ ∃ o, Compares a b o ∧ o.isLE = true := by
  unfold IsAtMost
  rw [Option.any_eq_true]
  simp only [compare?_eq_some]

/- Below what is below is below. -/
theorem IsAtMost.trans
    (hFirst : a.IsAtMost b)
    (hSecond : b.IsAtMost c) :
    a.IsAtMost c := by
  rw [isAtMost_iff] at hFirst hSecond ⊢
  rcases hFirst with ⟨o, hOrder, hLE⟩
  rcases hSecond with ⟨o', hOrder', hLE'⟩
  cases hOrder <;> cases hOrder' <;>
    exact ⟨_, by constructor, Std.TransCmp.isLE_trans hLE hLE'⟩

/-
  Of two values of a kind with an order one is at most the
  other.
-/
theorem isAtMost_total
    (hKind : a.kind = b.kind)
    (hOrdered : a.kind.isOrdered = true) :
    a.IsAtMost b ∨ b.IsAtMost a := by
  rcases Option.isSome_iff_exists.mp
      (isSome_compare?_iff.mpr ⟨hKind, hOrdered⟩) with
    ⟨o, hOrder⟩
  have hCompares := compare?_eq_some.mp hOrder
  rw [isAtMost_iff, isAtMost_iff]
  cases o with
  | lt => exact .inl ⟨_, hCompares, rfl⟩
  | eq => exact .inl ⟨_, hCompares, rfl⟩
  | gt => exact .inr ⟨_, hCompares.swap, rfl⟩

end Value

------------------------------------------------------------
-- Comparisons in Filters
------------------------------------------------------------

/-
  Of the comparisons of two ordered values of one kind, `<`
  holds, or `>`, or both `<=` and `>=`.
-/
theorem Comparison.count_holds
    {a b : Value}
    (hKind : a.kind = b.kind)
    (hOrdered : a.kind.isOrdered = true) :
    [lt.holds a b, gt.holds a b,
        le.holds a b && ge.holds a b].count true = 1 := by
  rcases Option.isSome_iff_exists.mp
      (Value.isSome_compare?_iff.mpr ⟨hKind, hOrdered⟩) with
    ⟨o, hOrder⟩
  simp only [holds, hKind, hOrder, isOrdering, ne_eq,
    not_true_eq_false, if_false, if_true, Option.any_some]
  cases o <;> rfl

namespace Value

/-
  Values compare if they are of one kind with an order. Each
  of these orders is a total preorder with equal values at
  one place, that of date-times is the order of instants, and
  filters compare what they find in this order.
-/
theorem compare?_isTotalPreorder :
    (∀ a b : Value,
      (a.compare? b).isSome = true ↔
        a.kind = b.kind ∧ a.kind.isOrdered = true) ∧
    (∀ a b : Value,
      a.compare? b = some .lt ↔ b.compare? a = some .gt) ∧
    (∀ a b : Value,
      a.kind = b.kind → a.kind.isOrdered = true →
        a.IsAtMost b ∨ b.IsAtMost a) ∧
    (∀ a b c : Value,
      a.IsAtMost b → b.IsAtMost c → a.IsAtMost c) ∧
    (∀ a b : Value,
      (a == b) = true → a.kind.isOrdered = true →
        a.compare? b = some .eq) ∧
    (∀ (rules : RegionRules) (epoch : Int) (zone : Zone)
      (x y : DateTime),
      DateTime.ofEpoch rules epoch zone = .ok x →
        compare? (.dateTime x) (.dateTime y) =
          some (compare epoch y.epoch)) ∧
    ∀ (resolve : Resolver) (record : Record) (path : Path)
      (v literal : Value),
      path.find? resolve record = some v →
      v.kind = literal.kind → v.kind.isOrdered = true →
        [(Filter.cmp path .lt literal).includes resolve record,
          (Filter.cmp path .gt literal).includes resolve record,
          (Filter.cmp path .le literal).includes resolve
              record &&
            (Filter.cmp path .ge literal).includes resolve
              record].count true = 1 := by
  refine
    ⟨fun a b => isSome_compare?_iff, fun a b => compare?_eq_lt,
      fun a b => isAtMost_total, fun a b c => IsAtMost.trans,
      fun a b => compare?_of_same, ?_, ?_⟩
  · intro rules epoch zone x y hEpoch
    change some (compare x.epoch y.epoch) = _
    rw [DateTime.epoch_of_ofEpoch hEpoch]
  · intro resolve record path v literal hFind hKind hOrdered
    simp only [Filter.includes, hFind, Option.any_some]
    exact Comparison.count_holds hKind hOrdered

/- Zero below zero. -/
def minusZero : Value :=
  .number (.plain (.ofMagnitude true 0))

/- The zero of a scale of degrees. -/
def zeroDegrees : Value :=
  .number ⟨.zero, some ⟨"°C", by decide⟩⟩

/- What is no number. -/
def noNumber : Value :=
  .number (.plain .nan)

/- The same night, in a zone of the same name. -/
def otherNight : DateTime :=
  { DateTime.monroviaNight with
    zone := ⟨"Monrovia", .fixed 0⟩ }

/- A room with a temperature. -/
def coldRoom : Record :=
  ⟨[("temp", zeroDegrees)]⟩

/- The path to that temperature. -/
def tempPath : Path :=
  ⟨⟨"temp", by decide⟩, []⟩

/-
  Zero below zero, zero degrees and no number stand in
  order; a night is at one place whatever its zone is
  called.
-/
theorem compare?_zeroDegrees :
    ((minusZero.kind = noNumber.kind ∧
          minusZero.kind.isOrdered = true) ∧
        (minusZero.IsAtMost noNumber ∨
          noNumber.IsAtMost minusZero)) ∧
    ((minusZero.IsAtMost zeroDegrees ∧
          zeroDegrees.IsAtMost noNumber) ∧
        minusZero.IsAtMost noNumber) ∧
    (((Value.dateTime otherNight ==
            .dateTime DateTime.monroviaNight) = true ∧
          (Value.dateTime otherNight).kind.isOrdered = true) ∧
        compare? (.dateTime otherNight)
            (.dateTime DateTime.monroviaNight) =
          some .eq) ∧
    (DateTime.ofEpoch DateTime.monroviaRules (-618102960500)
          (.ofRegion "Africa/Monrovia") =
          .ok DateTime.monroviaNight ∧
        compare? (.dateTime DateTime.monroviaNight)
            (.dateTime otherNight) =
          some (compare (-618102960500) otherNight.epoch)) ∧
    (tempPath.find? .none coldRoom = some zeroDegrees ∧
        zeroDegrees.kind = minusZero.kind ∧
          zeroDegrees.kind.isOrdered = true) ∧
      [(Filter.cmp tempPath .lt minusZero).includes .none
            coldRoom,
          (Filter.cmp tempPath .gt minusZero).includes .none
            coldRoom,
          (Filter.cmp tempPath .le minusZero).includes .none
              coldRoom &&
            (Filter.cmp tempPath .ge minusZero).includes .none
              coldRoom].count true = 1 := by
  have hKind :
      minusZero.kind = noNumber.kind ∧
        minusZero.kind.isOrdered = true :=
    ⟨rfl, rfl⟩
  have hAtMost :
      minusZero.IsAtMost zeroDegrees ∧
        zeroDegrees.IsAtMost noNumber := by
    decide
  have hSame :
      (Value.dateTime otherNight ==
          .dateTime DateTime.monroviaNight) = true := by
    decide
  have hEpoch :
      DateTime.ofEpoch DateTime.monroviaRules (-618102960500)
          (.ofRegion "Africa/Monrovia") =
        .ok DateTime.monroviaNight := by
    rfl
  have hFind :
      tempPath.find? .none coldRoom = some zeroDegrees := by
    rfl
  rcases compare?_isTotalPreorder with
    ⟨-, -, hTotal, hTrans, hEqual, hInstant, hFilter⟩
  exact
    ⟨⟨hKind, hTotal _ _ hKind.1 hKind.2⟩,
      ⟨hAtMost, hTrans _ _ _ hAtMost.1 hAtMost.2⟩,
      ⟨⟨hSame, rfl⟩, hEqual _ _ hSame rfl⟩,
      ⟨hEpoch, hInstant _ _ _ _ _ hEpoch⟩,
      ⟨hFind, rfl, rfl⟩,
      hFilter _ _ _ _ _ hFind rfl rfl⟩

------------------------------------------------------------
-- Date-Times of One Offset
------------------------------------------------------------

/-
  With the same offset, date-times of real dates are ordered
  by what clocks show if their days are counted. Otherwise
  they are ordered as if they were the start of 1970.
-/
theorem compare?_eq_compareClock
    {x y : DateTime}
    (hOffset : x.offset = y.offset)
    (hx : x.date.IsReal)
    (hy : y.date.IsReal) :
    (x.date.HasCount → y.date.HasCount →
      compare? (.dateTime x) (.dateTime y) =
          some (x.compareClock y) ∧
        (compare? (.dateTime x) (.dateTime y) = some .eq ↔
          x.date = y.date ∧ x.time = y.time)) ∧
      compare? (.dateTime x) (.dateTime y) =
        some (x.counted.compareClock y.counted) := by
  constructor
  · intro hCount hCount'
    have hOrder :
        compare? (.dateTime x) (.dateTime y) =
          some (x.compareClock y) :=
      congrArg some
        (DateTime.compare_eq_compareClock hOffset ⟨hx, hCount⟩
          ⟨hy, hCount'⟩)
    refine ⟨hOrder, ?_⟩
    rw [hOrder, Option.some_inj]
    exact DateTime.compareClock_eq_eq
  · exact
      congrArg some
        (DateTime.compare_eq_compareClock_counted hOffset hx hy)

/- That night and time in another year. -/
def leapNight : DateTime :=
  { DateTime.monroviaNight with date := DateTime.leapDay }

/- The same night after the last counted year. -/
def lateNight : DateTime :=
  { DateTime.monroviaNight with
    date :=
      { DateTime.monroviaNight.date with
        year := 300000
        year_mem := by decide } }

/- The same night a year later. -/
def laterNight : DateTime :=
  { DateTime.monroviaNight with
    date :=
      { DateTime.monroviaNight.date with
        year := 300001
        year_mem := by decide } }

/-
  Two nights with counted days stand in their order, and two
  beyond all counted days at one place.
-/
theorem compare?_lateNight :
    ((DateTime.monroviaNight.date.IsReal ∧
          DateTime.monroviaNight.date.HasCount) ∧
        (leapNight.date.IsReal ∧ leapNight.date.HasCount) ∧
        DateTime.monroviaNight.offset = leapNight.offset ∧
        compare? (.dateTime DateTime.monroviaNight)
            (.dateTime leapNight) =
          some .lt) ∧
    (lateNight.date.IsReal ∧ ¬ lateNight.date.HasCount) ∧
      (laterNight.date.IsReal ∧ ¬ laterNight.date.HasCount) ∧
      lateNight.offset = laterNight.offset ∧
      lateNight.compareClock laterNight = .lt ∧
      compare? (.dateTime lateNight) (.dateTime laterNight) =
        some .eq := by
  have hNight :
      DateTime.monroviaNight.date.IsReal ∧
        DateTime.monroviaNight.date.HasCount := by
    decide
  have hLeap :
      leapNight.date.IsReal ∧ leapNight.date.HasCount := by
    decide
  have hLate :
      lateNight.date.IsReal ∧ ¬ lateNight.date.HasCount := by
    decide
  have hLater :
      laterNight.date.IsReal ∧ ¬ laterNight.date.HasCount := by
    decide
  have hOffset :
      DateTime.monroviaNight.offset = leapNight.offset ∧
        lateNight.offset = laterNight.offset :=
    ⟨rfl, rfl⟩
  have hCounted :
      compare? (.dateTime DateTime.monroviaNight)
          (.dateTime leapNight) =
        some (DateTime.monroviaNight.compareClock leapNight) :=
    ((compare?_eq_compareClock hOffset.1 hNight.1 hLeap.1).1
      hNight.2 hLeap.2).1
  have hUncounted :
      compare? (.dateTime lateNight) (.dateTime laterNight) =
        some
          (lateNight.counted.compareClock
            laterNight.counted) :=
    (compare?_eq_compareClock hOffset.2 hLate.1 hLater.1).2
  have hClock :
      DateTime.monroviaNight.compareClock leapNight = .lt ∧
        lateNight.compareClock laterNight = .lt ∧
        lateNight.counted.compareClock laterNight.counted =
          .eq := by
    decide
  rw [hClock.1] at hCounted
  rw [hClock.2.2] at hUncounted
  exact
    ⟨⟨hNight, hLeap, hOffset.1, hCounted⟩, hLate, hLater,
      hOffset.2, hClock.2.1, hUncounted⟩

end Value

end Haystack
