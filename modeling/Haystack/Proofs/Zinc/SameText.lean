import Haystack.Proofs.Zinc.RoundTrip

/-
  This file shows that a grid has the same text as what this
  text is read as. What is read may have its keys in another
  order, that of the columns, and may have lost units that
  were not shown, but it has the same columns in the same
  order.

  Main declarations:
    * `Zinc.columnNames_asRead`
    * `Zinc.gridText_asRead`
    * `Zinc.encode_decode_encode`
-/

namespace Haystack

namespace Zinc

------------------------------------------------------------
-- Keys in Order of Appearance
------------------------------------------------------------

/- Names that differ are all kept. -/
theorem eraseDups_of_nodup
    {names : List String}
    (hNodup : names.Nodup) :
    names.eraseDups = names := by
  induction names with
  | nil => rfl
  | cons name names ih =>
      rw [List.nodup_cons] at hNodup
      have hOthers :
          names.filter (fun other => !other == name) =
            names := by
        refine List.filter_eq_self.mpr fun other hOther => ?_
        have hNe : other ≠ name := by
          rintro rfl
          exact hNodup.1 hOther
        simp [hNe]
      rw [List.eraseDups_cons, hOthers, ih hNodup.2]

/- Names that no row has can be left out. -/
theorem flatMap_filter_append
    {rows : List (List String)}
    {known new : List String}
    (hNew : ∀ x ∈ new, x ∉ rows.flatten) :
    rows.flatMap
        (fun row => (known ++ new).filter (· ∈ row)) =
      rows.flatMap (fun row => known.filter (· ∈ row)) := by
  refine List.flatMap_congr fun row hRow => ?_
  have hNone : new.filter (· ∈ row) = [] := by
    refine List.filter_eq_nil_iff.mpr fun x hx hMem => ?_
    refine hNew x hx (List.mem_flatten.mpr ?_)
    exact ⟨row, hRow, of_decide_eq_true hMem⟩
  rw [List.filter_append, hNone, List.append_nil]

/- A row adds the names that no row before it has. -/
theorem removeAll_filter_append
    {known new before row : List String}
    (hBefore : ∀ x, x ∈ before ↔ x ∈ known)
    (hNew : ∀ x ∈ new, x ∈ row ∧ x ∉ known) :
    ((known ++ new).filter (· ∈ row)).removeAll before =
      new := by
  have hKnown :
      known.filter
          (fun x => !before.elem x && decide (x ∈ row)) =
        [] := by
    refine List.filter_eq_nil_iff.mpr fun x hx => ?_
    simp [(hBefore x).mpr hx]
  have hAll :
      new.filter
          (fun x => !before.elem x && decide (x ∈ row)) =
        new := by
    refine List.filter_eq_self.mpr fun x hx => ?_
    have hNot : x ∉ before := fun hMem =>
      (hNew x hx).2 ((hBefore x).mp hMem)
    simp [hNot, (hNew x hx).1]
  unfold List.removeAll
  rw [List.filter_filter, List.filter_append, hKnown, hAll,
    List.nil_append]

/-
  Rows that have their keys in the order of the columns have
  the same columns, in the same order.
-/
theorem eraseDups_flatMap_filter (rows : List (List String)) :
    (rows.flatMap (fun row =>
      rows.flatten.eraseDups.filter (· ∈ row))).eraseDups =
        rows.flatten.eraseDups := by
  -- The last row comes behind all columns of those before.
  induction rows using List.reverseRecOn with
  | nil => rfl
  | append_singleton rows last ih =>
      have hFresh :
          ∀ x ∈ (last.removeAll rows.flatten).eraseDups,
            x ∈ last ∧ x ∉ rows.flatten := by
        intro x hx
        simpa [List.removeAll] using List.mem_eraseDups.mp hx
      have hNew :
          ∀ x ∈ (last.removeAll rows.flatten).eraseDups,
            x ∈ last ∧ x ∉ rows.flatten.eraseDups := by
        intro x hx
        rw [List.mem_eraseDups]
        exact hFresh x hx
      have hBefore :
          ∀ x,
            x ∈ rows.flatMap (fun row =>
                rows.flatten.eraseDups.filter (· ∈ row)) ↔
              x ∈ rows.flatten.eraseDups := by
        intro x
        rw [← List.mem_eraseDups, ih]
      rw [List.flatten_concat, List.eraseDups_append,
        List.flatMap_append, List.flatMap_singleton,
        flatMap_filter_append fun x hx => (hFresh x hx).2,
        List.eraseDups_append, ih,
        removeAll_filter_append hBefore hNew,
        eraseDups_of_nodup (nodup_eraseDups _)]

------------------------------------------------------------
-- Columns
------------------------------------------------------------

variable (zones : ZoneTable)

/-
  A grid that is read back has the columns it was written
  with.
-/
theorem columnNames_asRead (g : Grid) :
    columnNames (g.asRead zones).rows = columnNames g.rows := by
  have hKeys :
      (g.asRead zones).rows.flatMap Dict.keys =
        (g.rows.map Dict.keys).flatMap (fun keys =>
          (columnNames g.rows).filter (· ∈ keys)) := by
    unfold Grid.asRead
    rw [List.flatMap_map, List.flatMap_map]
    exact List.flatMap_congr fun row _ => keys_asRow _
  have hSame :
      ((g.asRead zones).rows.flatMap Dict.keys).eraseDups =
        (g.rows.flatMap Dict.keys).eraseDups := by
    rw [hKeys]
    unfold columnNames
    split
    next hNone =>
      have hNil : g.rows.flatMap Dict.keys = [] := by
        refine List.eq_nil_iff_forall_not_mem.mpr fun x hx => ?_
        rw [← List.mem_eraseDups, hNone] at hx
        cases hx
      have hAll :
          (g.rows.map Dict.keys).flatMap (fun keys =>
            ["empty"].filter (· ∈ keys)) = [] := by
        rw [List.flatMap_eq_nil_iff] at hNil
        rw [List.flatMap_map, List.flatMap_eq_nil_iff]
        intro row hRow
        rw [hNil row hRow]
        rfl
      rw [hNone, hAll]
      rfl
    next =>
      rw [List.flatMap_def]
      exact eraseDups_flatMap_filter _
  unfold columnNames
  rw [hSame]

------------------------------------------------------------
-- Lines
------------------------------------------------------------

/- A value that is read back is written as before. -/
theorem text_asRead (v : Value) :
    (v.asRead zones .zinc).text = v.text := by
  rw [← Value.textIn_zinc, v.textIn_asRead, v.textIn_zinc]

/- A cell shows what the row has there, if anything. -/
theorem cellText_eq
    (row : Record)
    (name : String) :
    cellText row name =
      ((row.get? name).map Value.text).getD [] := by
  unfold cellText
  cases row.get? name <;> rfl

/- The first cell shows `N` for nothing. -/
theorem firstCellText_eq
    (row : Record)
    (name : String) :
    firstCellText row name =
      ((row.get? name).map Value.text).getD ['N'] := by
  unfold firstCellText
  cases row.get? name <;> rfl

/- What is no marker is read as what is no marker. -/
theorem entryText_asRead
    (key : String)
    (v : Value) :
    Value.entryText key (v.asRead zones .zinc) =
      Value.entryText key v := by
  have hText := text_asRead zones v
  cases v with
  | number n =>
      rw [Value.asRead_number] at hText ⊢
      split_ifs at hText ⊢
      · rfl
      · simp only [Value.entryText, hText]
  | dateTime x =>
      change _ = Value.text (.dateTime x) at hText
      simp only [Value.asRead, Value.entryText] at hText ⊢
      rw [hText]
  | _ => rfl

/- What is said about a grid is written as before. -/
theorem metadataText_asRead (r : Record) :
    metadataText (r.asRead zones) = metadataText r := by
  unfold metadataText Record.asRead
  rw [List.flatMap_map]
  refine List.flatMap_congr fun e _ => ?_
  rw [entryText_asRead]

/- And so is what a row has in a column. -/
theorem text_get?_asRow
    {names : List String}
    {name : String}
    (hName : name ∈ names)
    (row : Record) :
    ((row.asRow zones names).get? name).map Value.text =
      (row.get? name).map Value.text := by
  rw [get?_asRow, if_pos hName, valueRead, Option.map_map]
  congr 1
  exact funext (text_asRead zones)

/- A row has the same cells as what they are read as. -/
theorem rowText_asRow
    (names : List String)
    (row : Record) :
    rowText (row.asRow zones names) names =
      rowText row names := by
  cases names with
  | nil => rfl
  | cons first names =>
      have hMem : first ∈ first :: names :=
        List.mem_cons_self ..
      have hRest :
          names.flatMap (fun name =>
              ',' :: cellText
                (row.asRow zones (first :: names)) name) =
            names.flatMap (fun name =>
              ',' :: cellText row name) := by
        refine List.flatMap_congr fun name hName => ?_
        rw [cellText_eq, cellText_eq,
          text_get?_asRow zones (List.mem_cons_of_mem _ hName)]
      rw [rowText, rowText, firstCellText_eq, firstCellText_eq,
        text_get?_asRow zones hMem, hRest]

/- A grid has the same text as what this is read as. -/
theorem gridText_asRead (g : Grid) :
    gridText (g.asRead zones) = gridText g := by
  unfold gridText
  rw [columnNames_asRead]
  unfold Grid.asRead
  dsimp only
  rw [metadataText_asRead, List.flatMap_map]
  simp only [rowText_asRow]

------------------------------------------------------------
-- Portable Grids
------------------------------------------------------------

/-
  The text of a portable grid is read as a grid with this
  text, whatever the order of the keys in its rows, and
  whichever keys each of them has.
-/
theorem encode_decode_encode
    {g : Grid}
    (hg : g.IsPortable) :
    ∃ read : Grid,
      decode (encode g) = .ok read ∧
        encode read = encode g := by
  rcases hg.isReadable with ⟨hRead, hText, -⟩
  refine ⟨g.asRead .builtin, decode_encode hRead hText, ?_⟩
  rw [encode, encode, gridText_asRead]

/-
  Rooms of which one has no keys, one those of the first the
  other way round behind a new one, and one none of them.
-/
def roomsGrid : Grid :=
  ⟨⟨[ ("ver", .number ⟨.ofInt 3, some ⟨"kg", rfl⟩⟩),
      ("dis", .str "Rooms"), ("rooms", .marker)]⟩,
    [ ⟨[ ("id", .ref ⟨"x.1", some "Room, 1", rfl⟩),
        ("floor", .number (.plain (.ofInt 2)))]⟩,
      ⟨[]⟩,
      ⟨[ ("dis", .str "A\nB"), ("floor", .na),
        ("id", .ref ⟨"x.2", none, rfl⟩)]⟩,
      ⟨[("old", .remove)]⟩]⟩

/- The second room is read back with its keys in order. -/
theorem encode_decode_roomsGrid :
    roomsGrid.IsPortable ∧
      ∃ read : Grid,
        decode (encode roomsGrid) = .ok read ∧
          encode read = encode roomsGrid := by
  have hPortable : roomsGrid.IsPortable := by
    decide +kernel
  exact ⟨hPortable, encode_decode_encode hPortable⟩

end Zinc

end Haystack
