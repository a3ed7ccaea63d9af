import Haystack.Proofs.Zinc.LongOffsets
import Haystack.Proofs.Zinc.RoundTrip
import Haystack.Proofs.Zinc.Weights

/-
  This file shows which of the grids that are read from a
  text are read again from their own text.

  A text pays for each URI that is read from it, and more for
  one whose own text misspells it. Hence a grid that has such
  a URI cannot be read from a text that pays no more than the
  grid weighs.

  Main declarations:
    * `Grid.hasLegibleUris_of_same`
    * `Zinc.decode_encode_iff`
-/

namespace Haystack

------------------------------------------------------------
-- Costs of Values that are the Same
------------------------------------------------------------

namespace Value

/- Values that are the same cost the same. -/
theorem cost_eq_of_same
    {v w : Value}
    (h : (v == w) = true) :
    v.cost = w.cost := by
  change same v w = true at h
  unfold same at h
  split at h
  case h_7 a b =>
    rw [beq_iff_eq] at h
    rw [h]
  case h_8 a b =>
    rw [beq_iff_eq] at h
    rw [h]
  case h_16 => cases h
  all_goals rfl

/- What misspells nothing is paid for by its text. -/
theorem weight_le_cost (v : Value) :
    v.weight ≤ v.cost := by
  cases v with
  | uri u => exact Nat.le_add_right _ _
  | _ => exact Nat.le_refl _

/-
  A value with a misspelled URI weighs less than it costs.
-/
theorem weight_lt_cost
    {v : Value}
    (h : ¬v.HasLegibleUri) :
    v.weight < v.cost := by
  cases v with
  | uri u =>
      have hNot : ¬u.IsLegible := h
      rw [weight, cost, Uri.cost, if_neg hNot]
      exact Nat.lt_succ_self _
  | _ => exact absurd trivial h

end Value

------------------------------------------------------------
-- Costs of Records and Grids
------------------------------------------------------------

namespace Record

/- The texts of the values misspell no URI. -/
def HasLegibleUris (r : Record) : Prop :=
  ∀ v ∈ r.values, v.HasLegibleUri

/- The cost of a record is that of its entries. -/
theorem cost_eq (r : Record) :
    r.cost =
      (r.entries.map (fun e => Value.cost e.2)).sum := by
  simp [cost, values, Function.comp_def]

/- A record that is the same is paid for as well. -/
theorem cost_le_of_same
    {a b : Record}
    (ha : a.HasUniqueKeys)
    (hb : b.HasUniqueKeys)
    (h : (a == b) = true) :
    b.cost ≤ a.cost := by
  rw [same_iff ha hb] at h
  have hEach : ∀ key,
      (b.get? key).elim 0 Value.cost =
        (a.get? key).elim 0 Value.cost := by
    intro key
    have hKey := h key
    generalize a.get? key = v at hKey
    generalize b.get? key = w at hKey
    cases hKey with
    | none => rfl
    | some hSame => exact (Value.cost_eq_of_same hSame).symm
  rw [cost_eq, cost_eq,
    Dict.map_entries_eq (fun e => Value.cost e.2) 0 hb]
  simp only [hEach]
  exact Dict.sum_get?_le Value.cost hb a

theorem weight_le_cost (r : Record) :
    r.weight ≤ r.cost :=
  List.sum_le_sum (fun v _ => v.weight_le_cost)

/- One with a misspelled URI weighs less. -/
theorem weight_lt_cost
    {r : Record}
    (h : ¬r.HasLegibleUris) :
    r.weight < r.cost := by
  unfold HasLegibleUris at h
  simp only [not_forall] at h
  rcases h with ⟨v, hv, hNot⟩
  exact
    List.sum_lt_sum _ _ (fun v _ => v.weight_le_cost)
      ⟨v, hv, Value.weight_lt_cost hNot⟩

end Record

namespace Grid

/- The texts of the values misspell no URI. -/
def HasLegibleUris (g : Grid) : Prop :=
  ∀ r ∈ g.records, r.HasLegibleUris

/-
  A grid with a misspelled URI weighs less than it costs.
-/
theorem weight_lt_cost
    {g : Grid}
    (h : ¬g.HasLegibleUris) :
    g.weight < g.cost := by
  unfold HasLegibleUris at h
  simp only [not_forall] at h
  rcases h with ⟨r, hr, hNot⟩
  exact
    List.sum_lt_sum _ _ (fun r _ => r.weight_le_cost)
      ⟨r, hr, Record.weight_lt_cost hNot⟩

theorem cost_le_of_same
    {zones : ZoneTable}
    {a b : Grid}
    (ha : a.IsReadable zones)
    (hb : b.IsReadable zones)
    (h : (a == b) = true) :
    b.cost ≤ a.cost := by
  change
    (a.metadata == b.metadata && a.rows == b.rows) = true
    at h
  rw [Bool.and_eq_true, rows_same_iff] at h
  have hRecords :
      List.Forall₂ (fun a b => (a == b) = true) a.records
        b.records :=
    .cons h.1 h.2
  unfold IsReadable at ha hb
  unfold cost
  generalize a.records = as at *
  generalize b.records = bs at *
  clear h
  induction hRecords with
  | nil => exact Nat.le_refl _
  | cons hFirst _ ih =>
      rw [List.forall_mem_cons] at ha hb
      rw [List.map_cons, List.map_cons, List.sum_cons,
        List.sum_cons]
      exact
        Nat.add_le_add
          (Record.cost_le_of_same ha.1.1 hb.1.1 hFirst)
          (ih ha.2 hb.2)

/-
  If the same grid is read from the text of a grid, this has
  misspelled no URI.
-/
theorem hasLegibleUris_of_same
    {g read : Grid}
    (hg : g.IsReadable .builtin)
    (hDecode : Zinc.decode (Zinc.encode g) = .ok read)
    (hSame : (read == g) = true) :
    g.HasLegibleUris := by
  rcases Zinc.isReadable_of_decode hDecode with
    ⟨hRead, hPaid⟩
  rw [Zinc.encode, String.toList_ofList] at hPaid
  by_contra hNot
  have hLess : g.cost < g.cost :=
    calc
      g.cost ≤ read.cost := cost_le_of_same hRead hg hSame
      _ ≤ burden .start (Zinc.gridText g) := hPaid
      _ ≤ g.weight := Zinc.burden_gridText_le hg
      _ < g.cost := weight_lt_cost hNot
  exact Nat.lt_irrefl _ hLess

end Grid

------------------------------------------------------------
-- Grids that are Read Again
------------------------------------------------------------

namespace Zinc

/-
  A grid that was read from a text is read again from its own
  text if and only if
    * after each backslash, its URIs have a character that
      keeps it,
    * no offset has a hundred hours, and
    * no infinity and no number that is none has a unit.
-/
theorem decode_encode_iff
    {text : String}
    {g : Grid}
    (hDecode : decode text = .ok g) :
    (∃ read,
        decode (encode g) = .ok read ∧ (read == g) = true) ↔
      g.HasLegibleText ∧ g.ShowsUnits := by
  have hg := (isReadable_of_decode hDecode).1
  constructor
  · rintro ⟨read, hRead, hSame⟩
    have hUris := Grid.hasLegibleUris_of_same hg hRead hSame
    have hText : g.HasLegibleText := by
      by_contra hNot
      have hFails := fails_grid hg hUris hNot 1
      rcases hFails with ⟨e, c, hError⟩
      unfold decode Scan.readAll encode Cursor.ofText at hRead
      rw [String.toList_ofList, hError] at hRead
      cases hRead
    refine ⟨hText, ?_⟩
    rw [decode_encode hg hText] at hRead
    cases hRead
    exact (Grid.asRead_same_iff hg).mp hSame
  · rintro ⟨hText, hUnits⟩
    exact
      ⟨g.asRead .builtin, decode_encode hg hText,
        (Grid.asRead_same_iff hg).mpr hUnits⟩

/- A URI that is one backslash. -/
def strayUri : Uri :=
  ⟨"\\", by decide⟩

/- A grid with such a URI. -/
def strayGrid : Grid :=
  ⟨⟨[]⟩, [⟨[("a", .uri strayUri)]⟩]⟩

/-
  The backslash is accepted by its code, and is not read
  back as it is written.
-/
theorem decode_encode_strayGrid :
    decode "ver:\"2.0\"\na\n`\\u005c`\n" = .ok strayGrid ∧
      ¬∃ read,
        decode (encode strayGrid) = .ok read ∧
          (read == strayGrid) = true := by
  have hDecode :
      decode "ver:\"2.0\"\na\n`\\u005c`\n" =
        .ok strayGrid := by
    rfl
  refine ⟨hDecode, ?_⟩
  rw [decode_encode_iff hDecode]
  rintro ⟨hText, -⟩
  have hUri :=
    hText _ (List.mem_cons_of_mem _ (List.mem_cons_self ..))
      _ (List.mem_cons_self ..)
  cases hUri

end Zinc

end Haystack
