import Haystack.Proofs.Text.Fails
import Haystack.Proofs.Zinc.Grids

/-
  This file shows that a grid is not read from its text if
  one of its values makes the reader of values fail: all that
  is written before is read, and nothing after it.

  Key definitions include:
    * `Value.IsReadOrFails`

  Main declarations:
    * `Zinc.fails_tags`
    * `Zinc.fails_row`
    * `Zinc.fails_gridText`
-/

namespace Haystack

open Scan

/- The text of the value is read, or the reader fails on it. -/
def Value.IsReadOrFails
    (zones : ZoneTable)
    (v : Value) : Prop :=
  v.IsLegible zones ∨
    ∀ more,
      Fails (Zinc.value zones .zinc) (v.textIn .zinc ++ more)

/-
  What is not legible is refused whatever stands behind it.
-/
theorem Value.IsReadOrFails.fails
    {zones : ZoneTable}
    {v : Value}
    (hv : v.IsReadOrFails zones)
    (hNot : ¬v.IsLegible zones)
    (more : List Char) :
    Fails (Zinc.value zones .zinc)
      (v.textIn .zinc ++ more) :=
  hv.resolve_left hNot more

namespace Zinc

variable {zones : ZoneTable}

------------------------------------------------------------
-- Tags
------------------------------------------------------------

/- A tag is refused along with its value. -/
theorem fails_tag
    {e : String × Value}
    (hName : isTagName e.1.toList = true)
    (hSimple : e.2.IsSimple)
    (hv : e.2.IsReadOrFails zones)
    (hNot : ¬e.2.IsLegible zones)
    (more : List Char) :
    Fails (tag? zones)
      (Value.entryText e.1 e.2 ++ more) := by
  rcases e with ⟨key, v⟩
  dsimp only at *
  rcases exists_cons_of_isTagName hName with
    ⟨c, cs, hKey, hc⟩
  have hEntry :
      Value.entryText key v =
        key.toList ++ ':' :: v.textIn .zinc := by
    rcases entryText_eq key v with ⟨rfl, -⟩ | hEntry
    · exact absurd ⟨trivial, trivial⟩ hNot
    · exact hEntry
  have hStart (more : List Char) :
      (key.toList ++ more).head?.any isTagStart = true := by
    simp [hKey, hc]
  rw [hEntry, List.append_assoc]
  unfold tag?
  rw [fails_current_bind, if_pos (hStart _)]
  refine (reads_tagName hName rfl).bind_fails ?_
  refine (reads_skipSpace_nil rfl).bind_fails ?_
  rw [fails_current_bind, if_pos (by rfl)]
  refine Fails.advance_bind ?_ ':'
  refine
    (reads_skipSpace_nil
      (startsValue_notSpace (startsValue_textIn .zinc hSimple)
        more)).bind_fails ?_
  exact (hv.fails hNot more).bind _

/- Tags are read up to the first that cannot be read. -/
theorem fails_tags
    {r : Record}
    (hr : r.IsWritten)
    (hValues : ∀ v ∈ r.values, v.IsReadOrFails zones)
    (hNot : ∃ v ∈ r.values, ¬v.IsLegible zones)
    (rest : List Char) :
    Fails (tags zones)
      ((spaced r.entries).flatMap spacedText ++
        '\n' :: rest) := by
  have hMem {e : (String × Value) × List Char}
      (he : e ∈ spaced r.entries) :
      e.1 ∈ r.entries := by
    have hFirst := List.mem_map_of_mem (f := Prod.fst) he
    rwa [map_fst_spaced] at hFirst
  refine Fails.bind ?_ _
  refine
    fails_collect spacedText
      (fun e => (e.1.1, some (e.1.2.asRead zones .zinc)))
      (fun e => e.1.2.IsLegible zones) _ ?_ ?_ ?_ ?_
  · intro before e after hSplit hLegible
    exact reads_spacedText hr hSplit hLegible rfl
  · intro e he hMisleads more
    have hEntry := hr.2 e.1 (hMem he)
    have hValue := hValues _ (List.mem_map_of_mem (hMem he))
    rw [spacedText, List.append_assoc]
    exact fails_tag hEntry.1 hEntry.2 hValue hMisleads _
  · exact fun e => spacedText_ne_nil hr
  · rcases hNot with ⟨v, hv, hMisleads⟩
    rcases List.mem_map.mp hv with ⟨e, he, rfl⟩
    rw [← map_fst_spaced r.entries] at he
    rcases List.mem_map.mp he with ⟨s, hs, rfl⟩
    exact ⟨s, hs, hMisleads⟩

------------------------------------------------------------
-- Rows
------------------------------------------------------------

section Row

variable {row : Record}

/-
  A cell is refused along with what it holds, in the first
  column as in the others.
-/
theorem fails_cell
    {name : String}
    (hRow : row.IsWritten)
    (hValues : ∀ v ∈ row.values, v.IsReadOrFails zones)
    (hNot : ¬HasLegibleCell zones row name)
    (more : List Char) :
    Fails (cell zones) (cellText row name ++ more) ∧
      Fails (cell zones) (firstCellText row name ++ more) := by
  unfold HasLegibleCell at hNot
  rw [not_forall] at hNot
  rcases hNot with ⟨v, hMisleads⟩
  rw [Classical.not_imp] at hMisleads
  rcases hMisleads with ⟨hGet, hMisleads⟩
  have hMem : (name, v) ∈ row.entries :=
    (Dict.mem_entries_iff hRow.1 name v).mpr hGet
  have hStart := startsValue_textIn .zinc (hRow.2 _ hMem).2
  have hValue :
      Fails (value zones .zinc) (v.textIn .zinc ++ more) :=
    (hValues v (List.mem_map_of_mem hMem)).fails hMisleads more
  have hCell : Fails (cell zones) (v.text ++ more) := by
    rw [← Value.textIn_zinc]
    unfold cell
    refine
      (reads_skipSpace_nil
        (startsValue_notSpace hStart more)).bind_fails ?_
    rw [fails_current_bind, startsValue_notEmpty hStart]
    exact hValue.bind _
  unfold cellText firstCellText
  rw [hGet]
  exact ⟨hCell, hCell⟩

/-
  Cells are read up to the first that cannot be read. The
  first cell has a text of its own if it is empty, so that
  its text is any that is read as the cell, or fails with it.
-/
theorem fails_moreCells
    (hRow : row.IsWritten)
    (hValues : ∀ v ∈ row.values, v.IsReadOrFails zones)
    {name : String}
    {names : List String}
    {cs : List Char}
    (hReads :
      HasLegibleCell zones row name →
        IsReadAsCell zones row name cs)
    (hFails :
      ¬HasLegibleCell zones row name → ∀ more,
        Fails (cell zones) (cs ++ more))
    (hNot : ∃ n ∈ name :: names, ¬HasLegibleCell zones row n)
    (more : List Char) :
    Fails (cells zones (name :: names))
      (cs ++ (names.flatMap (fun n =>
        ',' :: cellText row n) ++ more)) := by
  induction names generalizing name cs with
  | nil =>
      rcases hNot with ⟨n, hn, hNot⟩
      rw [List.mem_singleton] at hn
      subst hn
      rw [cells]
      exact (hFails hNot _).bind _
  | cons next names ih =>
      rw [cells]
      · by_cases hFirst : HasLegibleCell zones row name
        · have hRest :=
            ((List.exists_mem_cons_iff _ _ _).mp
              hNot).resolve_left (not_not_intro hFirst)
          rw [List.flatMap_cons, List.cons_append,
            List.cons_append, List.append_assoc]
          refine Reads.bind_fails (hReads hFirst _ ?_) ?_
          · exact rfl
          refine Fails.expect_bind ?_ ',' _
          refine Fails.bind ?_ _
          exact
            ih
              (fun hText rest hRest =>
                reads_cellText hText hRest)
              (fun hText more =>
                (fails_cell hRow hValues hText more).1)
              hRest
        · exact (hFails hFirst _).bind _
      · simp

/- With one such cell the row is refused. -/
theorem fails_cells
    (hRow : row.IsWritten)
    (hValues : ∀ v ∈ row.values, v.IsReadOrFails zones)
    {name : String}
    {names : List String}
    (hNot : ∃ n ∈ name :: names, ¬HasLegibleCell zones row n)
    (more : List Char) :
    Fails (cells zones (name :: names))
      (rowText row (name :: names) ++ more) := by
  rw [rowText, List.append_assoc]
  exact
    fails_moreCells hRow hValues
      (fun hText rest hRest =>
        reads_firstCellText hText hRest)
      (fun hText more =>
        (fails_cell hRow hValues hText more).2)
      hNot more

/-
  A row with such a value is refused, for it has a cell of
  each key.
-/
theorem fails_row
    (hRow : row.IsWritten)
    (hValues : ∀ v ∈ row.values, v.IsReadOrFails zones)
    (hNot : ∃ v ∈ row.values, ¬v.IsLegible zones)
    {name : String}
    {names : List String}
    (hKeys : ∀ key ∈ row.keys, key ∈ name :: names)
    (more : List Char) :
    Fails (row? zones (name :: names))
      (lineText (rowText row (name :: names)) ++ more) := by
  have hSome :
      ∃ n ∈ name :: names, ¬HasLegibleCell zones row n := by
    rcases hNot with ⟨v, hv, hMisleads⟩
    rcases List.mem_map.mp hv with ⟨⟨key, v⟩, he, rfl⟩
    refine ⟨key, hKeys key (List.mem_map_of_mem he), ?_⟩
    intro hText
    exact
      hMisleads
        (hText v ((Dict.mem_entries_iff hRow.1 key v).mp he))
  unfold row?
  rw [fails_current_bind, head_lineText hRow names]
  refine Fails.bind ?_ _
  unfold lineText
  rw [List.append_assoc]
  exact (fails_cells hRow hValues hSome _).bind _

end Row

------------------------------------------------------------
-- Grids
------------------------------------------------------------

/- Rows are read up to the first that cannot be read. -/
theorem fails_rows
    {rows : List Record}
    (hRows : ∀ row ∈ rows, row.IsWritten)
    (hValues :
      ∀ row ∈ rows, ∀ v ∈ row.values, v.IsReadOrFails zones)
    (hNot : ∃ row ∈ rows, ∃ v ∈ row.values, ¬v.IsLegible zones)
    {name : String}
    {names : List String}
    (hNodup : (name :: names).Nodup)
    (hKeys :
      ∀ row ∈ rows, ∀ key ∈ row.keys, key ∈ name :: names) :
    Fails (collect (row? zones (name :: names)))
      (rows.flatMap (fun row =>
        lineText (rowText row (name :: names)))) := by
  rw [← List.append_nil (rows.flatMap fun row => _)]
  refine
    fails_collect _ (Record.asRow zones (name :: names))
      (fun row => ∀ v ∈ row.values, v.IsLegible zones) _ ?_
      ?_ ?_ ?_
  · intro before row after hSplit hLegible
    have hMem : row ∈ rows := by
      rw [hSplit]
      simp
    rcases (hRows _ hMem).isReadable hLegible with
      ⟨hRead, hText⟩
    exact reads_row hRead hText (by simp) hNodup _
  · intro row hRow hMisleads more
    push Not at hMisleads
    exact
      fails_row (hRows row hRow) (hValues row hRow) hMisleads
        (hKeys row hRow) more
  · intro row _
    simp [lineText]
  · rcases hNot with ⟨row, hRow, v, hv, hMisleads⟩
    exact ⟨row, hRow, fun hAll => hMisleads (hAll v hv)⟩

/-
  If the reader fails on each value that it does not read,
  and there is one, the grid is not read from its text.
-/
theorem fails_gridText
    {g : Grid}
    (hg : g.IsWritten)
    (hValues :
      ∀ r ∈ g.records, ∀ v ∈ r.values, v.IsReadOrFails zones)
    (hNot :
      ∃ r ∈ g.records, ∃ v ∈ r.values, ¬v.IsLegible zones) :
    Fails (grid zones) (gridText g) := by
  have hMetadata : g.metadata ∈ g.records :=
    List.mem_cons_self ..
  have hNodup := nodup_columnNames g.rows
  have hNames : ∀ n ∈ columnNames g.rows,
      isTagName n.toList = true :=
    fun n hn => isTagName_of_mem_columnNames hg.rowKeys hn
  have hKeys : ∀ row ∈ g.rows, ∀ key ∈ row.keys,
      key ∈ columnNames g.rows :=
    fun row hRow key hKey => mem_columnNames hRow hKey
  rcases gridText_eq g with ⟨name, names, hColumns, hText⟩
  rw [hColumns] at hNodup hNames hKeys
  rcases exists_blank_metadataText (hg _ hMetadata)
      ((name.toList ++ names.flatMap
        (fun n => ',' :: n.toList)) ++
          '\n' :: g.rows.flatMap (fun row =>
            lineText (rowText row (name :: names)))) with
    ⟨blank, hBlank, hVersion⟩
  rw [hText, hBlank, List.append_assoc, ← List.append_assoc]
  unfold grid
  refine hVersion.bind_fails ?_
  -- The tags of the grid come first. If all of them can be
  -- read, the failure is in the rows.
  by_cases hTags : ∀ v ∈ g.metadata.values, v.IsLegible zones
  · have hInRows :
        ∃ row ∈ g.rows, ∃ v ∈ row.values,
          ¬v.IsLegible zones := by
      rcases hNot with ⟨row, hRow, v, hv, hMisleads⟩
      rcases List.mem_cons.mp hRow with rfl | hRow
      · exact absurd (hTags v hv) hMisleads
      · exact ⟨row, hRow, v, hv, hMisleads⟩
    rcases (hg _ hMetadata).isReadable hTags with
      ⟨hRead, hLegible⟩
    refine Reads.bind_fails (reads_tags hRead hLegible ?_) ?_
    · exact rfl
    refine Fails.expect_bind ?_ '\n' _
    refine
      (reads_columns zones hNames hNodup _).bind_fails ?_
    refine Fails.expect_bind ?_ '\n' _
    refine Fails.bind ?_ _
    exact
      fails_rows
        (fun row hRow => hg row (List.mem_cons_of_mem _ hRow))
        (fun row hRow =>
          hValues row (List.mem_cons_of_mem _ hRow))
        hInRows hNodup hKeys
  · push Not at hTags
    exact
      (fails_tags (hg _ hMetadata) (hValues _ hMetadata) hTags
        _).bind _

end Zinc

end Haystack
