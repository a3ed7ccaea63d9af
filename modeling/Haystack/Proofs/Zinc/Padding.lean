import Haystack.Proofs.Zinc.Exact

/-
  This file shows that grids are read alike from all texts in
  which spaces stand around the cells of rows, cells without
  a value are `N` or nothing, and the last row may go without
  its line end, as long as no row is a blank line.

  Key definitions include:
    * `Zinc.IsCellText`
    * `Zinc.IsPaddedCell`
    * `Zinc.IsPaddedLine`
    * `Zinc.PaddedRows`
    * `Zinc.IsPadded`

  Main declarations:
    * `Zinc.isPadded_encode`
    * `Zinc.PaddedRows.reads_collect`
    * `Zinc.decode_eq_of_isPadded`
    * `Zinc.decode_of_isPadded`
-/

namespace Haystack

namespace Zinc

open Scan

------------------------------------------------------------
-- Padded Texts
------------------------------------------------------------

/- The text of a value, or one of two for none. -/
def IsCellText
    (row : Record)
    (name : String)
    (cs : List Char) : Prop :=
  match row.get? name with
  | none => cs = ['N'] ∨ cs = []
  | some v => cs = v.text

/- The text of a cell with any spaces around it. -/
def IsPaddedCell
    (row : Record)
    (name : String)
    (cs : List Char) : Prop :=
  ∃ before text after,
    before.all isSpace = true ∧ after.all isSpace = true ∧
      IsCellText row name text ∧
        cs = before ++ (text ++ after)

/- Such cells with commas between them, on a line not blank. -/
def IsPaddedLine
    (names : List String)
    (row : Record)
    (line : List Char) : Prop :=
  line ≠ [] ∧
    ∃ texts,
      List.Forall₂ (IsPaddedCell row) names texts ∧
        line = List.intercalate [','] texts

/- Such lines, of which the last may end with the text. -/
inductive PaddedRows (names : List String) :
    List Record → List Char → Prop where
| nil : PaddedRows names [] []
| last
    {row : Record}
    {line : List Char}
    (hLine : IsPaddedLine names row line) :
    PaddedRows names [row] line
| next
    {row : Record}
    {rows : List Record}
    {line cs : List Char}
    (hLine : IsPaddedLine names row line)
    (hMore : PaddedRows names rows cs) :
    PaddedRows names (row :: rows) (line ++ '\n' :: cs)

/- The text has the lines of a grid, with padded rows. -/
def IsPadded
    (g : Grid)
    (text : String) : Prop :=
  ∃ cs,
    PaddedRows (columnNames g.rows) g.rows cs ∧
      text = String.ofList (headText g ++ cs)

------------------------------------------------------------
-- Grids as They Are Written
------------------------------------------------------------

section Row

variable {row : Record}
variable {name : String}

/- No spaces are padding. -/
theorem IsCellText.isPaddedCell
    {cs : List Char}
    (hText : IsCellText row name cs) :
    IsPaddedCell row name cs :=
  ⟨[], cs, [], rfl, rfl, hText, by simp⟩

/-
  What is written in a first cell is one of its paddings.
-/
theorem isPaddedCell_firstCellText :
    IsPaddedCell row name (firstCellText row name) := by
  apply IsCellText.isPaddedCell
  unfold IsCellText firstCellText
  cases row.get? name with
  | none => exact Or.inl rfl
  | some v => rfl

/- And so is what is written in another. -/
theorem isPaddedCell_cellText :
    IsPaddedCell row name (cellText row name) := by
  apply IsCellText.isPaddedCell
  unfold IsCellText cellText
  cases row.get? name with
  | none => exact Or.inr rfl
  | some v => rfl

/- A row that is written for some columns is padded with none. -/
theorem isPaddedLine_rowText
    (hRow : row.IsWritten)
    (names : List String) :
    IsPaddedLine (name :: names) row
      (rowText row (name :: names)) := by
  constructor
  · intro hNil
    have hStart :
        startsValue (rowText row (name :: names)) = true :=
      startsValue_rowText hRow names
    rw [hNil] at hStart
    cases hStart
  · refine
      ⟨firstCellText row name :: names.map (cellText row),
        ?_, ?_⟩
    · refine .cons isPaddedCell_firstCellText ?_
      rw [List.forall₂_map_right_iff, List.forall₂_same]
      exact fun _ _ => isPaddedCell_cellText
    · rw [rowText_eq, intercalate_commas]

end Row

/- The rows as they are written are padded rows. -/
theorem paddedRows_rowTexts
    {rows : List Record}
    (hRows : ∀ row ∈ rows, row.IsWritten)
    {names : List String}
    (hNe : names ≠ []) :
    PaddedRows names rows
      (rows.flatMap (fun row =>
        lineText (rowText row names))) := by
  rcases List.exists_cons_of_ne_nil hNe with ⟨name, more, rfl⟩
  induction rows with
  | nil => exact .nil
  | cons row rows ih =>
      rw [List.forall_mem_cons] at hRows
      rw [List.flatMap_cons, lineText, List.append_assoc]
      exact
        .next (isPaddedLine_rowText hRows.1 more) (ih hRows.2)

/- The text of a grid is one of those that it is read from. -/
theorem isPadded_encode
    {g : Grid}
    (hg : g.IsWritten) :
    IsPadded g (encode g) := by
  refine ⟨_, paddedRows_rowTexts ?_ ?_, rfl⟩
  · exact fun row hRow => hg row (List.mem_cons_of_mem _ hRow)
  · exact columnNames_ne_nil g.rows

------------------------------------------------------------
-- Reading Padded Rows
------------------------------------------------------------

section Reading

variable {zones : ZoneTable}
variable {row : Record}
variable {name : String}
variable {cs : List Char}

/- A cell is read as its value, whatever its spaces. -/
theorem IsPaddedCell.isReadAsCell
    (hText : HasLegibleCell zones row name)
    (hCell : IsPaddedCell row name cs) :
    IsReadAsCell zones row name cs := by
  intro rest hRest
  rcases hCell with
    ⟨before, text, after, hBefore, hAfter, hIs, rfl⟩
  unfold IsCellText at hIs
  unfold valueRead
  cases hGet : row.get? name with
  | none =>
      rw [hGet] at hIs
      rcases hIs with rfl | rfl
      · exact reads_cell_null hBefore hAfter hRest
      · refine reads_cell_nil zones ?_ hRest
        rw [List.nil_append, List.all_append, hBefore, hAfter]
        rfl
  | some v =>
      rw [hGet] at hIs
      subst hIs
      exact
        reads_cell_text (hText v hGet) hBefore hAfter hRest

/- Spaces do not start with the end of a line. -/
theorem head_ne_of_all_isSpace
    {blank : List Char}
    (hBlank : blank.all isSpace = true) :
    blank.head? ≠ some '\n' := by
  cases blank with
  | nil => simp
  | cons c blank =>
      rintro hc
      cases hc
      cases hBlank

theorem head_ne_of_startsValue
    (hStart : startsValue cs = true) :
    cs.head? ≠ some '\n' := by
  cases cs with
  | nil => cases hStart
  | cons c cs =>
      rintro hc
      cases hc
      cases hStart

/- No cell starts with a line end. -/
theorem IsPaddedCell.head_ne
    (hRow : row.IsWritten)
    (hCell : IsPaddedCell row name cs) :
    cs.head? ≠ some '\n' := by
  rcases hCell with
    ⟨before, text, after, hBefore, hAfter, hIs, rfl⟩
  have hText : text.head? ≠ some '\n' := by
    unfold IsCellText at hIs
    cases hGet : row.get? name with
    | none =>
        rw [hGet] at hIs
        rcases hIs with rfl | rfl <;> simp
    | some v =>
        rw [hGet] at hIs
        have hMem : (name, v) ∈ row.entries :=
          (Dict.mem_entries_iff hRow.1 name v).mpr hGet
        have hStart := startsValue_textIn .zinc (hRow.2 _ hMem).2
        rw [Value.textIn_zinc] at hStart
        rw [hIs]
        exact head_ne_of_startsValue hStart
  have hFirst := head_ne_of_all_isSpace hBefore
  have hLast := head_ne_of_all_isSpace hAfter
  cases before with
  | cons c before => exact hFirst
  | nil =>
      cases text with
      | cons c text => exact hText
      | nil => exact hLast

/- So no line of a row is taken for a blank one. -/
theorem IsPaddedLine.head_all
    (hRow : row.IsWritten)
    {names : List String}
    {line : List Char}
    (hLine : IsPaddedLine (name :: names) row line)
    (more : List Char) :
    (line ++ more).head?.all (· = '\n') = false := by
  rcases hLine with ⟨hNe, texts, hCells, rfl⟩
  cases hCells with
  | @cons _ cs _ texts hCell hMore =>
      have hHead := hCell.head_ne hRow
      rw [intercalate_commas] at hNe ⊢
      cases cs with
      | cons c cs => simpa using hHead
      | nil =>
          -- a comma follows, or this is all of the line
          cases texts with
          | cons text texts => rfl
          | nil => exact absurd rfl hNe

/- The row of a line is read with its line end, if it has one. -/
theorem IsPaddedLine.reads_row
    (hRow : row.IsReadable zones)
    (hText : row.HasLegibleText)
    {names : List String}
    (hNe : names ≠ [])
    (hNodup : names.Nodup)
    {line ending rest : List Char}
    (hLine : IsPaddedLine names row line)
    (hEnd : ending = [] ∧ rest = [] ∨ ending = ['\n']) :
    Reads (row? zones names) (line ++ ending)
      (some (row.asRow zones names)) rest := by
  rcases List.exists_cons_of_ne_nil hNe with ⟨name, more, rfl⟩
  have hHead :
      (line ++ (ending ++ rest)).head?.all (· = '\n') = false :=
    hLine.head_all hRow.isWritten (ending ++ rest)
  rw [← List.append_assoc] at hHead
  rcases hLine with ⟨-, texts, hCells, rfl⟩
  cases hCells with
  | cons hCell hMore =>
      rw [intercalate_commas] at hHead ⊢
      refine
        reads_row_of_cells hNodup
          (hCell.isReadAsCell (hasLegibleCell hRow hText name))
          (hMore.imp ?_) hEnd hHead
      exact fun n _ h =>
        h.isReadAsCell (hasLegibleCell hRow hText n)

end Reading

/-
  By induction on the lines: the rows are collected one by
  one, up to the end of the text.
-/
theorem PaddedRows.reads_collect
    {zones : ZoneTable}
    {names : List String}
    (hNe : names ≠ [])
    (hNodup : names.Nodup)
    {rows : List Record}
    {cs : List Char}
    (hPadded : PaddedRows names rows cs)
    (hRows : ∀ row ∈ rows,
      row.IsReadable zones ∧ row.HasLegibleText) :
    Reads (collect (row? zones names)) cs
      (rows.map (Record.asRow zones names)) [] := by
  have hStop : Reads (row? zones names) [] none [] :=
    reads_pure none []
  apply CollectsOn.reads
  induction hPadded with
  | nil => exact .stop hStop
  | @last row line hLine =>
      rcases hRows row (List.mem_cons_self ..) with
        ⟨hRow, hText⟩
      have hRead :=
        hLine.reads_row hRow hText hNe hNodup
          (Or.inl ⟨rfl, rfl⟩)
      rw [List.append_nil] at hRead
      have hAll := CollectsOn.next hRead hLine.1 (.stop hStop)
      rwa [List.append_nil] at hAll
  | @next row rows line cs hLine _ ih =>
      rw [List.forall_mem_cons] at hRows
      have hRead :
          Reads (row? zones names) (line ++ ['\n'])
            (some (row.asRow zones names)) (cs ++ []) :=
        hLine.reads_row hRows.1.1 hRows.1.2 hNe hNodup
          (Or.inr rfl)
      have hAll :=
        CollectsOn.next hRead (by simp) (ih hRows.2)
      rwa [List.append_assoc] at hAll

------------------------------------------------------------
-- Reading Padded Grids
------------------------------------------------------------

/- A padded text is read as the grid's own text is. -/
theorem decode_eq_of_isPadded
    {g : Grid}
    (hg : g.IsReadable .builtin)
    (hLegible : g.HasLegibleText)
    {text : String}
    (hText : IsPadded g text) :
    decode text = .ok (g.asRead .builtin) := by
  rcases hText with ⟨cs, hPadded, rfl⟩
  have hRows :=
    hPadded.reads_collect (columnNames_ne_nil g.rows)
      (nodup_columnNames g.rows) (fun row hRow =>
        ⟨hg row (List.mem_cons_of_mem _ hRow),
          hLegible row (List.mem_cons_of_mem _ hRow)⟩)
  have hGrid :
      Reads (grid .builtin) (headText g ++ (cs ++ []))
        (g.asRead .builtin) [] :=
    reads_grid_of_rows hg hLegible hRows (Or.inl ⟨rfl, rfl⟩)
  rw [List.append_nil] at hGrid
  exact hGrid.readAll_eq

/-
  What is read from the text of an exact grid does not change
  with the spaces around the cells, nor with the text that
  stands for no value, nor with the last line end: the grid
  is the same, labels included.
-/
theorem decode_of_isPadded
    {g : Grid}
    (hg : g.IsExact) :
    IsPadded g (encode g) ∧
      ∀ text, IsPadded g text →
        ∃ read : Grid,
          decode text = .ok read ∧
            (read == g) = true ∧ read.SameWithLabels g := by
  rcases hg.isPortable.isReadable with
    ⟨hRead, hLegible, hUnits⟩
  refine ⟨isPadded_encode hRead.isWritten, ?_⟩
  intro text hText
  exact
    ⟨g.asRead .builtin,
      decode_eq_of_isPadded hRead hLegible hText,
      (Grid.asRead_same_iff hRead).mpr hUnits,
      Grid.asRead_sameWithLabels hRead hUnits⟩

/- Rows that lack a cell, or both. -/
def warmRow : Record :=
  ⟨[("warm", .marker)]⟩

def roomRow : Record :=
  ⟨[("room", .ref ⟨"lab", some "R 1", rfl⟩)]⟩

def sparseGrid : Grid :=
  ⟨⟨[("site", .marker)]⟩, [warmRow, ⟨[]⟩, roomRow]⟩

def sparseText : String :=
  "ver:\"2.0\" site\nwarm,room\n" ++
    " M\t,\n\t,N \nN,  @lab \"R 1\" "

/-
  A grid with gaps, spelled in each of the two ways, with
  spaces and tabs, and without its last end of a line.
-/
theorem decode_of_isPadded_sparseGrid :
    sparseGrid.IsExact ∧ IsPadded sparseGrid sparseText ∧
      ∃ read : Grid,
        decode sparseText = .ok read ∧
          (read == sparseGrid) = true := by
  have hExact : sparseGrid.IsExact := by
    decide
  have hWarm :
      IsPaddedLine ["warm", "room"] warmRow " M\t,".toList := by
    refine ⟨by decide, [" M\t".toList, []], ?_, rfl⟩
    refine .cons ⟨[' '], ['M'], ['\t'], rfl, rfl, ?_, rfl⟩ ?_
    · change ['M'] = Value.text .marker
      rw [Value.text]
    · refine .cons ⟨[], [], [], rfl, rfl, ?_, rfl⟩ .nil
      exact Or.inr rfl
  have hEmpty :
      IsPaddedLine ["warm", "room"] ⟨[]⟩ "\t,N ".toList := by
    refine ⟨by decide, ["\t".toList, "N ".toList], ?_, rfl⟩
    refine .cons ⟨['\t'], [], [], rfl, rfl, ?_, rfl⟩ ?_
    · exact Or.inr rfl
    · refine .cons ⟨[], ['N'], [' '], rfl, rfl, ?_, rfl⟩ .nil
      exact Or.inl rfl
  have hRoom :
      IsPaddedLine ["warm", "room"] roomRow
        "N,  @lab \"R 1\" ".toList := by
    refine
      ⟨by decide, [['N'], "  @lab \"R 1\" ".toList], ?_, rfl⟩
    refine .cons ⟨[], ['N'], [], rfl, rfl, ?_, rfl⟩ ?_
    · exact Or.inl rfl
    · refine
        .cons
          ⟨"  ".toList, "@lab \"R 1\"".toList, [' '], rfl, rfl,
            ?_, rfl⟩
          .nil
      change _ = Value.text (.ref _)
      rw [Value.text]
      rfl
  have hPadded : IsPadded sparseGrid sparseText := by
    have hMetadata :
        metadataText sparseGrid.metadata = " site".toList := by
      simp [metadataText, sparseGrid, Value.entryText]
    refine ⟨_, .next hWarm (.next hEmpty (.last hRoom)), ?_⟩
    rw [headText, hMetadata]
    decide
  rcases (decode_of_isPadded hExact).2 _ hPadded with
    ⟨read, hDecode, hSame, -⟩
  exact ⟨hExact, hPadded, read, hDecode, hSame⟩

end Zinc

end Haystack
