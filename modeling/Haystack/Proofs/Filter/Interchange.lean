import Haystack.Proofs.Filter.Given
import Haystack.Proofs.Filter.Uniqueness

/-
  This file shows that filters that are equal, as their texts
  are, include the same records, whatever records are found
  by references. Only the unit of an infinity is not shown by
  a text, and equality looks at it.

  Key definitions include:
    * `Value.hiddenUnit`
    * `Filter.hiddenUnits`

  Main declarations:
    * `Comparison.holds_eq_iff`
    * `Filter.includes_eq_of_same`
-/

namespace Haystack

------------------------------------------------------------
-- Literals with the Same Text
------------------------------------------------------------

namespace Value

/- The unit of a number whose text does not show it. -/
def hiddenUnit : Value → Option UnitName
| .number n => if n.value.IsFinite then none else n.unit
| _ => none

/- Reading a literal again does not change its kind. -/
theorem kind_asRead
    (zones : ZoneTable)
    (v : Value) :
    (v.asRead zones .filter).kind = v.kind := by
  cases v with
  | number n =>
      rw [asRead_number]
      split_ifs <;> rfl
  | _ => rfl

/- Neither units nor names of zones matter to an order. -/
theorem compare?_asRead
    (zones : ZoneTable)
    (a v : Value) :
    a.compare? (v.asRead zones .filter) = a.compare? v := by
  cases v with
  | number n =>
      rw [asRead_number]
      cases a <;> split_ifs <;> rfl
  | _ => cases a <;> rfl

/- Sameness looks at the unit that is not shown as well. -/
theorem same_of_asRead_same
    {zones : ZoneTable}
    {v w : Value}
    (h : (v.asRead zones .filter == w.asRead zones .filter) =
      true)
    (hUnit : v.hiddenUnit = w.hiddenUnit) :
    (v == w) = true := by
  have hKind := kind_eq_of_same h
  rw [kind_asRead, kind_asRead] at hKind
  cases v with
  | number n =>
      cases w with
      | number m =>
          have hNumber {a b : Number}
              (h : (number a == number b) = true) :
              a = b := by
            change (a == b) = true at h
            rwa [beq_iff_eq] at h
          rw [asRead_number, asRead_number] at h
          change
            (if n.value.IsFinite then none else n.unit) =
              (if m.value.IsFinite then none else m.unit)
            at hUnit
          by_cases hn : n.value.IsFinite
          · by_cases hm : m.value.IsFinite
            · rwa [if_pos hn, if_pos hm] at h
            · rw [if_pos hn, if_neg hm] at h
              rw [hNumber h] at hn
              exact absurd hn hm
          · by_cases hm : m.value.IsFinite
            · rw [if_neg hn, if_pos hm] at h
              rw [← hNumber h] at hm
              exact absurd hm hn
            · rw [if_neg hn, if_neg hm] at h hUnit
              have hValue := congrArg Number.value (hNumber h)
              have hEq : n = m := by
                rcases n with ⟨x, unit⟩
                rcases m with ⟨y, unit'⟩
                cases hValue
                cases hUnit
                rfl
              rw [hEq]
              exact same_self ⟨nofun, nofun⟩
      | _ => cases hKind
  | dateTime x =>
      cases w with
      | dateTime y =>
          change
            (decide _ && decide _ && decide _ && decide _) =
              true at h ⊢
          rwa [x.asRead_zone_name, y.asRead_zone_name] at h
      | _ => cases hKind
  | _ => cases w <;> first | exact h | cases hKind

/- Values that are the same hide the same unit. -/
theorem hiddenUnit_eq_of_same
    {v w : Value}
    (h : (v == w) = true) :
    v.hiddenUnit = w.hiddenUnit := by
  change same v w = true at h
  unfold same at h
  split at h
  case h_5 n m =>
    rw [beq_iff_eq] at h
    rw [h]
  case h_16 => cases h
  all_goals rfl

end Value

/-
  Literals that are read as the same compare alike with all
  values if and only if only their order matters or they have
  the same unit that is not shown.
-/
theorem Comparison.holds_eq_iff
    {zones : ZoneTable}
    {v w : Value}
    (hv : v.IsSimple)
    (h : (v.asRead zones .filter == w.asRead zones .filter) =
      true)
    (op : Comparison) :
    (∀ a, op.holds a v = op.holds a w) ↔
      (op.isOrdering = false → v.hiddenUnit = w.hiddenUnit) := by
  have hKind := Value.kind_eq_of_same h
  rw [Value.kind_asRead, Value.kind_asRead] at hKind
  constructor
  · intro hHolds hOrdering
    have hSelf := hHolds v
    simp only [holds, hKind, hOrdering, ne_eq,
      not_true_eq_false, if_false, Bool.false_eq_true,
      Value.same_self hv] at hSelf
    apply Value.hiddenUnit_eq_of_same
    cases hSame : v == w with
    | true => rfl
    | false =>
        rw [hSame] at hSelf
        cases op <;> cases hSelf
  · intro hUnit a
    cases hOrdering : op.isOrdering with
    | true =>
        have hOrder := (Value.compare?_eq_of_same h a).2
        rw [Value.compare?_asRead, Value.compare?_asRead]
          at hOrder
        simp only [holds, hKind, hOrdering, hOrder, if_true]
    | false =>
        have hSame :=
          Value.same_of_asRead_same h (hUnit hOrdering)
        simp only [holds, hKind, hOrdering,
          Value.beq_eq_of_same hv hSame a, Bool.false_eq_true,
          if_false]

namespace Filter

------------------------------------------------------------
-- Filters with the Same Text
------------------------------------------------------------

/- The units that are not shown but compared, in order. -/
def hiddenUnits : Filter → List (Option UnitName)
| .cmp _ op value =>
    if op.isOrdering then [] else [value.hiddenUnit]
| .and a b => a.hiddenUnits ++ b.hiddenUnits
| .or a b => a.hiddenUnits ++ b.hiddenUnits
| .not a => a.hiddenUnits
| _ => []

section Trees

variable {zones : ZoneTable}
variable {f g : Filter}

/- Filters of one form have as many of them. -/
theorem length_hiddenUnits_eq
    (h : (f.asRead zones).SameTree (g.asRead zones)) :
    f.hiddenUnits.length = g.hiddenUnits.length := by
  induction f generalizing g with
  | cmp path op v =>
      cases g with
      | cmp path' op' w =>
          cases h
          simp only [hiddenUnits]
          split_ifs <;> rfl
      | _ => cases h
  | and a b iha ihb =>
      cases g with
      | and c d =>
          cases h with
          | and ha hb =>
              simp [hiddenUnits, iha ha, ihb hb]
      | _ => cases h
  | or a b iha ihb =>
      cases g with
      | or c d =>
          cases h with
          | or ha hb =>
              simp [hiddenUnits, iha ha, ihb hb]
      | _ => cases h
  | not a ih =>
      cases g with
      | not c =>
          cases h with
          | not ha => exact ih (g := c) ha
      | _ => cases h
  | _ =>
      cases g <;> cases h
      rfl

/-
  Filters that are read as the same tree include the same
  records, if the units that are not shown are the same.
-/
theorem includes_eq_of_asRead_sameTree
    (hf : f.IsReadable zones)
    (h : (f.asRead zones).SameTree (g.asRead zones))
    (hUnits : f.hiddenUnits = g.hiddenUnits)
    (resolve : Resolver)
    (record : Record) :
    f.includes resolve record = g.includes resolve record := by
  induction f generalizing g with
  | cmp path op v =>
      cases g with
      | cmp path' op' w =>
          cases h with
          | cmp path op hSame =>
              have hHolds :=
                (op.holds_eq_iff hf.2.isSimple hSame).mpr (by
                  intro hOrdering
                  simpa [hiddenUnits, hOrdering] using hUnits)
              simp only [includes, hHolds]
      | _ => cases h
  | and a b iha ihb =>
      cases g with
      | and c d =>
          cases h with
          | and ha hb =>
              have hParts :=
                List.append_inj hUnits
                  (length_hiddenUnits_eq ha)
              simp only [includes, iha hf.1 ha hParts.1,
                ihb hf.2 hb hParts.2]
      | _ => cases h
  | or a b iha ihb =>
      cases g with
      | or c d =>
          cases h with
          | or ha hb =>
              have hParts :=
                List.append_inj hUnits
                  (length_hiddenUnits_eq ha)
              simp only [includes, iha hf.1 ha hParts.1,
                ihb hf.2 hb hParts.2]
      | _ => cases h
  | not a ih =>
      cases g with
      | not c =>
          cases h with
          | not ha =>
              simp only [includes, ih (g := c) hf ha hUnits]
      | _ => cases h
  | _ =>
      cases g <;> cases h
      rfl

end Trees

/-
  Equal filters that were read from texts include the same
  records, whatever records references lead to, if the units
  of the infinities that they compare with are the same.
-/
theorem includes_eq_of_same
    {s t : String}
    {f g : Filter}
    (hf : parse s = .ok f)
    (hg : parse t = .ok g)
    (hSame : (f == g) = true)
    (hUnits : f.hiddenUnits = g.hiddenUnits)
    (resolve : Resolver)
    (record : Record) :
    f.includes resolve record = g.includes resolve record := by
  have hf := (isReadable_of_parse hf).1
  have hg := (isReadable_of_parse hg).1
  have hText : f.text = g.text := beq_iff_eq.mp hSame
  exact
    includes_eq_of_asRead_sameTree hf
      (asRead_sameTree_of_text_eq hf hg hText) hUnits resolve
      record

/- A reference with a label, and a URI of one backslash. -/
def labelledFilter : Filter :=
  .and
    (.cmp ⟨⟨"ahuRef", rfl⟩, []⟩ .eq
      (.ref ⟨"x", some "L", rfl⟩))
    (.cmp ⟨⟨"doc", rfl⟩, []⟩ .ne (.uri ⟨"\\", rfl⟩))

/- The same filter without the label. -/
def bareFilter : Filter :=
  .and
    (.cmp ⟨⟨"ahuRef", rfl⟩, []⟩ .eq
      (.ref ⟨"x", none, rfl⟩))
    (.cmp ⟨⟨"doc", rfl⟩, []⟩ .ne (.uri ⟨"\\", rfl⟩))

/-
  Two filters that differ in a label answer alike, for any
  record and any resolver.
-/
theorem includes_labelledFilter :
    parse "ahuRef==@x \"L\" and doc!=`\\u005c`" =
        .ok labelledFilter ∧
      parse "ahuRef == @x and (doc != `\\u005C`)" =
        .ok bareFilter ∧
      (labelledFilter == bareFilter) = true ∧
      ∀ resolve record,
        labelledFilter.includes resolve record =
          bareFilter.includes resolve record := by
  have hLabelled :
      parse "ahuRef==@x \"L\" and doc!=`\\u005c`" =
        .ok labelledFilter := by
    rfl
  have hBare :
      parse "ahuRef == @x and (doc != `\\u005C`)" =
        .ok bareFilter := by
    rfl
  have hSame : (labelledFilter == bareFilter) = true := by
    change (labelledFilter.text == bareFilter.text) = true
    rw [beq_iff_eq]
    simp [labelledFilter, bareFilter, text, isCompound,
      Value.textIn]
  exact
    ⟨hLabelled, hBare, hSame,
      includes_eq_of_same hLabelled hBare hSame rfl⟩

/- A comparison with an infinity. -/
def infiniteFilter (unit : Option UnitName) : Filter :=
  .cmp ⟨⟨"power", rfl⟩, []⟩ .eq
    (.number ⟨.infinity false, unit⟩)

/-
  All units make equal filters of it, but only one of them
  includes an infinity without a unit.
-/
theorem includes_infiniteFilter
    (unit : Option UnitName)
    (resolve : Resolver) :
    (infiniteFilter unit == infiniteFilter none) = true ∧
      (infiniteFilter unit).includes resolve
          ⟨[("power", .number (.plain (.infinity false)))]⟩ =
        decide (unit = none) := by
  have hFinite : ¬(Binary64.infinity false).IsFinite := by
    decide
  constructor
  · change
      ((infiniteFilter unit).text ==
        (infiniteFilter none).text) = true
    rw [beq_iff_eq]
    simp [infiniteFilter, text, Value.textIn, Value.text,
      Number.text, hFinite]
  · cases unit with
    | none => rfl
    | some unit => rfl

end Filter

end Haystack
