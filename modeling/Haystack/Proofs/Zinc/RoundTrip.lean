import Haystack.Proofs.Zinc.Grids

/-
  This file shows which grids are the same as what their text
  is read as, down to the labels of references, and that they
  are read from the text alone, whatever follows it.

  Key definitions include:
    * `Grid.ShowsUnits`
    * `Grid.SameWithLabels`
    * `Value.IsPortable`
    * `Grid.IsPortable`

  Main declarations:
    * `Grid.asRead_same_iff`
    * `Zinc.decode_encode_of_isPortable`
-/

namespace Haystack

------------------------------------------------------------
-- Sameness of What Is Read
------------------------------------------------------------

namespace Record

/- The text of each value shows its unit. -/
def ShowsUnits (r : Record) : Prop :=
  ∀ v ∈ r.values, v.ShowsUnit

/- The records are the same, labels of references included. -/
def SameWithLabels (a b : Record) : Prop :=
  (a == b) = true ∧ ∀ key, ref? a key = ref? b key

/- The record under each key, as it is read back. -/
def Rereads
    (zones : ZoneTable)
    (read r : Record) : Prop :=
  read.HasUniqueKeys ∧
    ∀ key, read.get? key =
      (r.get? key).map (fun v => v.asRead zones .zinc)

/- A record reads back as its entries do. -/
theorem rereads_asRead
    (zones : ZoneTable)
    {r : Record}
    (hr : r.HasUniqueKeys) :
    (r.asRead zones).Rereads zones r := by
  refine ⟨?_, r.get?_asRead zones⟩
  rwa [Dict.HasUniqueKeys, keys_asRead]

/- A row has no key that is not the name of a column. -/
theorem rereads_asRow
    (zones : ZoneTable)
    {r : Record}
    {names : List String}
    (hNodup : names.Nodup)
    (hKeys : ∀ key ∈ r.keys, key ∈ names) :
    (r.asRow zones names).Rereads zones r := by
  refine ⟨Zinc.hasUniqueKeys_asRow hNodup, ?_⟩
  intro key
  rw [Zinc.get?_asRow]
  split_ifs with hKey
  · rfl
  · have hNone : r.get? key = none := by
      by_contra hSome
      rw [← Ne, Option.ne_none_iff_isSome] at hSome
      exact hKey (hKeys key ((r.mem_keys_iff key).mpr hSome))
    rw [hNone]
    rfl

/-
  What is read is the same as the record if the texts show
  all units.
-/
theorem Rereads.same_iff
    {zones : ZoneTable}
    {read r : Record}
    (hRead : read.Rereads zones r)
    (hr : r.IsReadable zones) :
    (read == r) = true ↔ r.ShowsUnits := by
  rw [Record.same_iff hRead.1 hr.1]
  constructor
  · intro h v hv
    rcases List.mem_map.mp hv with ⟨⟨key, v⟩, he, rfl⟩
    have hKey := h key
    have hGet := (Dict.mem_entries_iff hr.1 key v).mp he
    rw [hRead.2, hGet] at hKey
    rw [← Value.asRead_same_iff zones (hr.2 _ he).2]
    cases hKey with
    | some hSame => exact hSame
  · intro h key
    rw [hRead.2]
    cases hGet : r.get? key with
    | none => exact .none
    | some v =>
        have he := (Dict.mem_entries_iff hr.1 key v).mpr hGet
        refine .some ?_
        rw [Value.asRead_same_iff zones (hr.2 _ he).2]
        exact h v (List.mem_map_of_mem he)

/- References are read back with their labels. -/
theorem Rereads.ref?_eq
    {zones : ZoneTable}
    {read r : Record}
    (hRead : read.Rereads zones r)
    (key : String) :
    ref? read key = ref? r key := by
  unfold ref?
  rw [hRead.2]
  cases r.get? key with
  | none => rfl
  | some v =>
      cases v with
      | number n =>
          rw [Option.map_some, Value.asRead_number]
          split_ifs <;> rfl
      | _ => rfl

/-
  What is read back is the same, labels and all, if units
  are shown.
-/
theorem Rereads.sameWithLabels
    {zones : ZoneTable}
    {read r : Record}
    (hRead : read.Rereads zones r)
    (hr : r.IsReadable zones)
    (hUnits : r.ShowsUnits) :
    read.SameWithLabels r :=
  ⟨(hRead.same_iff hr).mpr hUnits, hRead.ref?_eq⟩

end Record

namespace Grid

/- The text of each value shows its unit. -/
def ShowsUnits (g : Grid) : Prop :=
  ∀ r ∈ g.records, r.ShowsUnits

/-
  The grids have the same records in the same order, labels
  of references included.
-/
def SameWithLabels (a b : Grid) : Prop :=
  a.metadata.SameWithLabels b.metadata ∧
    List.Forall₂ Record.SameWithLabels a.rows b.rows

/- A row reads back in the order of the columns. -/
theorem rereads_rows
    (zones : ZoneTable)
    {g : Grid}
    {row : Record}
    (hRow : row ∈ g.rows) :
    (row.asRow zones (Zinc.columnNames g.rows)).Rereads zones
      row :=
  Record.rereads_asRow zones (Zinc.nodup_columnNames g.rows)
    (fun _ hKey => Zinc.mem_columnNames hRow hKey)

/- Rows are compared in pairs. -/
theorem rows_same_iff
    {rows rows' : List Record} :
    (rows == rows') = true ↔
      List.Forall₂ (fun a b => (a == b) = true) rows rows' := by
  induction rows generalizing rows' with
  | nil => cases rows' <;> simp
  | cons row rows ih =>
      cases rows' with
      | nil => simp
      | cons row' rows' => simp [ih]

/- What is read is the same if the texts show all units. -/
theorem asRead_same_iff
    {zones : ZoneTable}
    {g : Grid}
    (hg : g.IsReadable zones) :
    (g.asRead zones == g) = true ↔ g.ShowsUnits := by
  have hMetadata :=
    (Record.rereads_asRead zones
      (hg _ (List.mem_cons_self ..)).1).same_iff
        (hg _ (List.mem_cons_self ..))
  change
    ((g.asRead zones).metadata == g.metadata &&
      (g.asRead zones).rows == g.rows) = true ↔ _
  rw [Bool.and_eq_true, rows_same_iff]
  unfold ShowsUnits records asRead
  dsimp only
  rw [hMetadata, List.forall_mem_cons,
    List.forall₂_map_left_iff, List.forall₂_same]
  refine and_congr_right fun _ => forall₂_congr ?_
  intro row hRow
  exact
    (rereads_rows zones hRow).same_iff
      (hg row (List.mem_cons_of_mem _ hRow))

/-
  A readable grid that shows its units is read back as the
  same, with its labels.
-/
theorem asRead_sameWithLabels
    {zones : ZoneTable}
    {g : Grid}
    (hg : g.IsReadable zones)
    (hUnits : g.ShowsUnits) :
    (g.asRead zones).SameWithLabels g := by
  constructor
  · have hMem : g.metadata ∈ g.records :=
      List.mem_cons_self ..
    exact
      (Record.rereads_asRead zones (hg _ hMem).1).sameWithLabels
        (hg _ hMem) (hUnits _ hMem)
  · unfold asRead
    rw [List.forall₂_map_left_iff, List.forall₂_same]
    intro row hRow
    have hMem : row ∈ g.records :=
      List.mem_cons_of_mem _ hRow
    exact
      (rereads_rows zones hRow).sameWithLabels (hg row hMem)
        (hUnits row hMem)

end Grid

------------------------------------------------------------
-- Grids that Keep Their Meaning
------------------------------------------------------------

/-
  Values that a text can carry in full. What is no finite
  number has no unit. What is no number has the bits of the
  constant: with any other bits it is written the same, and
  read back as the constant.
-/
def Value.IsPortable : Value → Prop
| .marker => True
| .remove => True
| .na => True
| .bool _ => True
| .str _ => True
| .ref _ => True
| .date _ => True
| .time _ => True
| .number n =>
    (n.value.IsFinite ∧ n.IsLegible) ∨
      n = .plain (.infinity false) ∨
      n = .plain (.infinity true) ∨ n = .plain .nan
| .uri u => '\\' ∉ u.address.toList
| .bin mime => mime.IsLegible
| .dateTime x => x.HasShortOffset ∧ x.IsLegible .builtin
| .coord _ => False
| .list _ => False
| .dict _ => False

instance : (v : Value) → Decidable v.IsPortable
| .number n =>
    inferInstanceAs
      (Decidable ((n.value.IsFinite ∧ n.IsLegible) ∨
        n = .plain (.infinity false) ∨
        n = .plain (.infinity true) ∨ n = .plain .nan))
| .uri u =>
    inferInstanceAs (Decidable ('\\' ∉ u.address.toList))
| .bin mime => inferInstanceAs (Decidable mime.IsLegible)
| .dateTime x =>
    inferInstanceAs
      (Decidable (x.HasShortOffset ∧ x.IsLegible .builtin))
| .marker => .isTrue trivial
| .remove => .isTrue trivial
| .na => .isTrue trivial
| .bool _ => .isTrue trivial
| .str _ => .isTrue trivial
| .ref _ => .isTrue trivial
| .date _ => .isTrue trivial
| .time _ => .isTrue trivial
| .coord _ => .isFalse id
| .list _ => .isFalse id
| .dict _ => .isFalse id

/-
  Grids of such values under names of tags. A dict that is
  made by setting entries has each key once.
-/
def Grid.IsPortable (g : Grid) : Prop :=
  ∀ r ∈ g.records,
    r.HasUniqueKeys ∧
      ∀ e ∈ r.entries,
        isTagName e.1.toList = true ∧ e.2.IsPortable

instance (g : Grid) : Decidable g.IsPortable := by
  unfold Grid.IsPortable
  infer_instance

/- Such a value can be read, from its own text, in full. -/
theorem Value.IsPortable.isReadable
    {v : Value}
    (hv : v.IsPortable) :
    v.IsReadable .builtin .zinc ∧ v.HasLegibleText ∧
      v.ShowsUnit := by
  cases v with
  | number n =>
      refine ⟨?_, trivial, ?_⟩
      · rcases hv with ⟨hFinite, hn⟩ | rfl | rfl | rfl
        · refine ⟨hn, ?_⟩
          intro hNaN
          have hMore := of_decide_eq_true hNaN
          have hLess :
              n.value.magnitude < Binary64.infiniteMagnitude :=
            hFinite
          omega
        · exact ⟨rfl, fun hNaN => absurd hNaN (by decide)⟩
        · exact ⟨rfl, fun hNaN => absurd hNaN (by decide)⟩
        · exact ⟨rfl, fun _ => rfl⟩
      · rcases hv with ⟨hFinite, -⟩ | rfl | rfl | rfl
        · exact Or.inl hFinite
        all_goals exact Or.inr rfl
  | uri u =>
      exact
        ⟨trivial, Uri.keepsPairs_of_not_mem hv, trivial⟩
  | dateTime x => exact ⟨hv.2, hv.1, trivial⟩
  | bin mime => exact ⟨hv, trivial, trivial⟩
  | coord p => cases hv
  | list items => cases hv
  | dict d => cases hv
  | _ => exact ⟨trivial, trivial, trivial⟩

/- So can a record of such values under names of tags. -/
theorem Record.isReadable_of_isPortable
    {r : Record}
    (hr :
      r.HasUniqueKeys ∧
        ∀ e ∈ r.entries,
          isTagName e.1.toList = true ∧ e.2.IsPortable) :
    r.IsReadable .builtin ∧ r.HasLegibleText ∧
      r.ShowsUnits := by
  refine ⟨⟨hr.1, ?_⟩, ?_⟩
  · intro e he
    exact ⟨(hr.2 e he).1, (hr.2 e he).2.isReadable.1⟩
  · constructor
    all_goals
      intro v hv
      rcases List.mem_map.mp hv with ⟨e, he, rfl⟩
      have hValue := (hr.2 e he).2.isReadable.2
    · exact hValue.1
    · exact hValue.2

/-
  Portable grids are readable, and their text says what they
  are.
-/
theorem Grid.IsPortable.isReadable
    {g : Grid}
    (hg : g.IsPortable) :
    g.IsReadable .builtin ∧ g.HasLegibleText ∧
      g.ShowsUnits := by
  have hRecord {r : Record} (hr : r ∈ g.records) :=
    Record.isReadable_of_isPortable (hg r hr)
  exact
    ⟨fun r hr => (hRecord hr).1, fun r hr => (hRecord hr).2.1,
      fun r hr => (hRecord hr).2.2⟩

namespace Zinc

/- The text of a grid alone is read as what it stands for. -/
theorem decode_encode
    {g : Grid}
    (hg : g.IsReadable .builtin)
    (hText : g.HasLegibleText) :
    decode (encode g) = .ok (g.asRead .builtin) := by
  have hReads :
      Scan.Reads (grid .builtin) (gridText g ++ [])
        (g.asRead .builtin) [] :=
    reads_grid hg hText (Or.inl ⟨rfl, rfl⟩)
  rw [List.append_nil] at hReads
  exact hReads.readAll_eq

/-
  A portable grid is read back from its text: with the same
  records in the same order and all labels, whether the text
  ends there or a blank line and any other text follow, which
  are left to be read.
-/
theorem decode_encode_of_isPortable
    {g : Grid}
    (hg : g.IsPortable) :
    ∃ read : Grid,
      decode (encode g) = .ok read ∧
      (read == g) = true ∧
      read.SameWithLabels g ∧
      ∀ rest line,
        grid .builtin
            ⟨(encode g).toList ++ '\n' :: rest, line⟩ =
          .ok read
            ⟨rest,
              line + ((encode g).toList.count '\n' + 1)⟩ := by
  rcases hg.isReadable with ⟨hRead, hText, hUnits⟩
  refine
    ⟨g.asRead .builtin, decode_encode hRead hText,
      (Grid.asRead_same_iff hRead).mpr hUnits,
      Grid.asRead_sameWithLabels hRead hUnits, ?_⟩
  intro rest line
  have hReads :
      Scan.Reads (grid .builtin) (gridText g ++ ['\n'])
        (g.asRead .builtin) rest :=
    reads_grid hRead hText (Or.inr rfl)
  have hAll := hReads line
  rw [List.append_assoc, List.count_append] at hAll
  rw [encode, String.toList_ofList]
  exact hAll

/- A site whose rows lack some of the columns. -/
def siteGrid : Grid :=
  ⟨⟨[ ("dis", .str "Site\n\"1\""), ("site", .marker),
      ("ref", .ref ⟨"a-1", some "One", rfl⟩)]⟩,
    [ ⟨[ ("id", .ref ⟨"r.1", some "Room, 1", rfl⟩),
        ("area", .number ⟨.ofInt (-12), some ⟨"m", rfl⟩⟩)]⟩,
      ⟨[]⟩,
      ⟨[ ("max", .number (.plain (.infinity true))),
        ("id", .ref ⟨"r.2", none, rfl⟩)]⟩]⟩

/- Labels, a unit, an infinity, and rows with gaps. -/
theorem decode_encode_siteGrid :
    siteGrid.IsPortable ∧
      ∃ read : Grid,
        decode (encode siteGrid) = .ok read ∧
        (read == siteGrid) = true := by
  have hPortable : siteGrid.IsPortable := by
    decide +kernel
  refine ⟨hPortable, ?_⟩
  rcases decode_encode_of_isPortable hPortable with
    ⟨read, hDecode, hSame, -⟩
  exact ⟨read, hDecode, hSame⟩

end Zinc

end Haystack
