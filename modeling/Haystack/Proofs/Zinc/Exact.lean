import Haystack.Proofs.Tag.Updates
import Haystack.Proofs.Zinc.RoundTrip

/-
  This file shows that many grids are read back from their
  text value by value: not only the same, but with equal
  values, labels included. Rows come with their entries in
  the order of the columns.

  Key definitions include:
    * `Value.IsExact`
    * `Record.IsExact`
    * `Grid.IsExact`

  Main declarations:
    * `Record.IsExact.perm_asRow`
    * `Grid.IsExact.decode_encode`
-/

namespace Haystack

------------------------------------------------------------
-- Values
------------------------------------------------------------

/- Values of which the text says all that there is to know. -/
def Value.IsExact : Value → Prop
| .marker => True
| .remove => True
| .na => True
| .bool _ => True
| .number n => n.value.IsFinite ∧ n.IsLegible
| .str _ => True
| .date _ => True
| .time _ => True
| .ref _ => True
| .uri _ => False
| .bin _ => False
| .coord _ => False
| .dateTime _ => False
| .list _ => False
| .dict _ => False

instance : (v : Value) → Decidable v.IsExact
| .number n =>
    inferInstanceAs
      (Decidable (n.value.IsFinite ∧ n.IsLegible))
| .marker | .remove | .na | .bool _ | .str _ | .date _
| .time _ | .ref _ => .isTrue trivial
| .uri _ | .bin _ | .coord _ | .dateTime _ | .list _
| .dict _ => .isFalse id

namespace Value.IsExact

variable {v : Value}

/- Exact values are portable. -/
theorem isPortable (hv : v.IsExact) : v.IsPortable := by
  cases v with
  | number n => exact Or.inl hv
  | uri | bin | coord | dateTime | list | dict => cases hv
  | _ => trivial

theorem isSimple (hv : v.IsExact) : v.IsSimple :=
  hv.isPortable.isReadable.1.isSimple

/- Reading an exact value back changes nothing in it. -/
theorem asRead_eq
    (hv : v.IsExact)
    (zones : ZoneTable) :
    v.asRead zones .zinc = v := by
  cases v with
  | number n => rw [asRead_number, if_pos hv.1]
  | uri | bin | coord | dateTime | list | dict => cases hv
  | _ => rfl

end Value.IsExact

------------------------------------------------------------
-- Records
------------------------------------------------------------

namespace Record

/- Each key is the name of one tag, with an exact value. -/
def IsExact (r : Record) : Prop :=
  r.HasUniqueKeys ∧
    ∀ e ∈ r.entries,
      isTagName e.1.toList = true ∧ e.2.IsExact

instance (r : Record) : Decidable r.IsExact := by
  unfold IsExact
  infer_instance

namespace IsExact

variable {r : Record}

/- What an exact record has under a key is exact. -/
theorem of_get?
    (hr : r.IsExact)
    {key : String}
    {v : Value}
    (hGet : r.get? key = some v) :
    v.IsExact :=
  (hr.2 _ ((Dict.mem_entries_iff hr.1 key v).mpr hGet)).2

theorem isReadable (hr : r.IsExact) :
    r.IsReadable .builtin ∧ r.HasLegibleText := by
  have hPortable :
      ∀ e ∈ r.entries,
        isTagName e.1.toList = true ∧ e.2.IsPortable :=
    fun e he => ⟨(hr.2 e he).1, (hr.2 e he).2.isPortable⟩
  rcases isReadable_of_isPortable ⟨hr.1, hPortable⟩ with
    ⟨hRead, hText, -⟩
  exact ⟨hRead, hText⟩

/- The order of the entries does not matter. -/
theorem of_perm
    (hr : r.IsExact)
    {other : Record}
    (hPerm : other.entries.Perm r.entries) :
    other.IsExact := by
  constructor
  · unfold Dict.HasUniqueKeys Dict.keys
    rw [(hPerm.map Prod.fst).nodup_iff]
    exact hr.1
  · exact fun e he => hr.2 e (hPerm.mem_iff.mp he)

/- Reading an exact record back changes nothing in it. -/
theorem asRead_eq
    (hr : r.IsExact)
    (zones : ZoneTable) :
    r.asRead zones = r := by
  have hEntries :
      r.entries.map (fun e => (e.1, e.2.asRead zones .zinc)) =
        r.entries.map id := by
    apply List.map_congr_left
    intro e he
    rw [(hr.2 e he).2.asRead_eq]
    rfl
  rw [asRead, hEntries, List.map_id]

/- What a row is read as has its entries, all of them. -/
theorem perm_of_rereads
    (hr : r.IsExact)
    {zones : ZoneTable}
    {read : Record}
    (hRead : read.Rereads zones r) :
    read.entries.Perm r.entries := by
  have hNodup {x : Record} (hx : x.HasUniqueKeys) :
      x.entries.Nodup :=
    List.Nodup.of_map Prod.fst hx
  rw [List.perm_ext_iff_of_nodup (hNodup hRead.1) (hNodup hr.1)]
  rintro ⟨key, v⟩
  rw [Dict.mem_entries_iff hRead.1, Dict.mem_entries_iff hr.1,
    hRead.2]
  cases hGet : r.get? key with
  | none => simp
  | some w =>
      rw [Option.map_some, (hr.of_get? hGet).asRead_eq]

end IsExact

end Record

------------------------------------------------------------
-- Grids
------------------------------------------------------------

/- All records of the grid are exact. -/
def Grid.IsExact (g : Grid) : Prop :=
  ∀ r ∈ g.records, r.IsExact

instance (g : Grid) : Decidable g.IsExact := by
  unfold Grid.IsExact
  infer_instance

namespace Grid.IsExact

variable {g : Grid}

/- Exact grids are portable. -/
theorem isPortable (hg : g.IsExact) : g.IsPortable := by
  intro r hr
  refine ⟨(hg r hr).1, fun e he => ?_⟩
  exact
    ⟨((hg r hr).2 e he).1, ((hg r hr).2 e he).2.isPortable⟩

theorem metadata (hg : g.IsExact) : g.metadata.IsExact :=
  hg _ (List.mem_cons_self ..)

/- Each row of an exact grid is exact. -/
theorem of_mem_rows
    (hg : g.IsExact)
    {row : Record}
    (hRow : row ∈ g.rows) :
    row.IsExact :=
  hg row (List.mem_cons_of_mem _ hRow)

/- The record about the grid is read back as it is. -/
theorem metadata_asRead
    (hg : g.IsExact)
    (zones : ZoneTable) :
    (g.asRead zones).metadata = g.metadata :=
  hg.metadata.asRead_eq zones

/- A row is read back with all its entries. -/
theorem perm_asRow
    (hg : g.IsExact)
    (zones : ZoneTable)
    {row : Record}
    (hRow : row ∈ g.rows) :
    (row.asRow zones (Zinc.columnNames g.rows)).entries.Perm
      row.entries :=
  (hg.of_mem_rows hRow).perm_of_rereads
    (rereads_rows zones hRow)

/- So it has the same value under each key. -/
theorem get?_asRow
    (hg : g.IsExact)
    (zones : ZoneTable)
    {row : Record}
    (hRow : row ∈ g.rows)
    (key : String) :
    (row.asRow zones (Zinc.columnNames g.rows)).get? key =
      row.get? key := by
  have hPerm := hg.perm_asRow zones hRow
  refine Dict.get?_eq_of_perm ?_ hPerm key
  exact ((hg.of_mem_rows hRow).of_perm hPerm).1

/- An exact grid is read back from its text. -/
theorem decode_encode (hg : g.IsExact) :
    Zinc.decode (Zinc.encode g) = .ok (g.asRead .builtin) :=
  Zinc.decode_encode hg.isPortable.isReadable.1
    hg.isPortable.isReadable.2.1

end Grid.IsExact

end Haystack
