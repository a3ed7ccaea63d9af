import Haystack.Proofs.Zinc.Tags

/-
  This file shows that grids are read back from their text:
  the line about the grid, the names of the columns, and a
  line for each row.

  Key definitions include:
    * `Grid.IsReadable`
    * `Grid.HasLegibleText`
    * `Record.asRow`
    * `Grid.asRead`
    * `Zinc.EndsCell`
    * `Zinc.IsReadAsCell`
    * `Zinc.headText`

  Main declarations:
    * `Zinc.reads_columns`
    * `Zinc.reads_cells`
    * `Zinc.reads_row_of_cells`
    * `Zinc.reads_grid_of_rows`
    * `Zinc.reads_grid`
-/

namespace Haystack

------------------------------------------------------------
-- Grids that Readers Give
------------------------------------------------------------

namespace Grid

/- The record about the grid and those in it. -/
def records (g : Grid) : List Record :=
  g.metadata :: g.rows

/- A reader can give this grid. -/
def IsReadable
    (zones : ZoneTable)
    (g : Grid) : Prop :=
  ∀ r ∈ g.records, r.IsReadable zones

/- The text of each value is read as a value. -/
def HasLegibleText (g : Grid) : Prop :=
  ∀ r ∈ g.records, r.HasLegibleText

/- Each record is written as tags. -/
def IsWritten (g : Grid) : Prop :=
  ∀ r ∈ g.records, r.IsWritten

/- Readable grids can be written. -/
theorem IsReadable.isWritten
    {zones : ZoneTable}
    {g : Grid}
    (hg : g.IsReadable zones) :
    g.IsWritten :=
  fun r hr => (hg r hr).isWritten

/- The keys of the rows are names of tags. -/
theorem IsWritten.rowKeys
    {g : Grid}
    (hg : g.IsWritten) :
    ∀ row ∈ g.rows, ∀ key ∈ row.keys,
      isTagName key.toList = true := by
  intro row hRow key hKey
  rcases List.mem_map.mp hKey with ⟨e, he, rfl⟩
  exact ((hg row (List.mem_cons_of_mem _ hRow)).2 e he).1

end Grid

/-
  What the text of a row is read as: the values that the row
  has, in the order of the columns.
-/
def Record.asRow
    (zones : ZoneTable)
    (names : List String)
    (r : Record) : Record :=
  ⟨names.filterMap (fun name =>
    (r.get? name).map (fun v =>
      (name, v.asRead zones .zinc)))⟩

/- What the text of a grid is read as. -/
def Grid.asRead
    (zones : ZoneTable)
    (g : Grid) : Grid :=
  ⟨g.metadata.asRead zones,
    g.rows.map (Record.asRow zones (Zinc.columnNames g.rows))⟩

namespace Zinc

open Scan

------------------------------------------------------------
-- Columns
------------------------------------------------------------

theorem nodup_eraseDups (names : List String) :
    names.eraseDups.Nodup := by
  induction h : names.length using Nat.strongRecOn
    generalizing names with
  | ind n ih =>
      cases names with
      | nil => simp
      | cons name names =>
          rw [List.eraseDups_cons, List.nodup_cons]
          refine ⟨?_, ih _ ?_ _ rfl⟩
          · simp [List.mem_eraseDups]
          · have hLength :=
              List.length_filter_le (fun b => !b == name) names
            simp only [List.length_cons] at h
            omega

/- The columns of a grid have different names. -/
theorem nodup_columnNames (rows : List Record) :
    (columnNames rows).Nodup := by
  unfold columnNames
  split
  next => simp
  next => exact nodup_eraseDups _

/- A grid has a column even if it has no rows. -/
theorem columnNames_ne_nil (rows : List Record) :
    columnNames rows ≠ [] := by
  unfold columnNames
  split
  next => simp
  next hSome => exact hSome

/- Each key of a row is the name of a column. -/
theorem mem_columnNames
    {rows : List Record}
    {row : Record}
    (hRow : row ∈ rows)
    {key : String}
    (hKey : key ∈ row.keys) :
    key ∈ columnNames rows := by
  have hMem : key ∈ (rows.flatMap Dict.keys).eraseDups := by
    rw [List.mem_eraseDups, List.mem_flatMap]
    exact ⟨row, hRow, hKey⟩
  unfold columnNames
  split
  next hNone =>
    rw [hNone] at hMem
    cases hMem
  next => exact hMem

/- If keys are names of tags, so are names of columns. -/
theorem isTagName_of_mem_columnNames
    {rows : List Record}
    (hRows :
      ∀ row ∈ rows, ∀ key ∈ row.keys,
        isTagName key.toList = true)
    {name : String}
    (hName : name ∈ columnNames rows) :
    isTagName name.toList = true := by
  unfold columnNames at hName
  split at hName
  next =>
    rw [List.mem_singleton] at hName
    subst hName
    rfl
  next =>
    rw [List.mem_eraseDups, List.mem_flatMap] at hName
    rcases hName with ⟨row, hRow, hKey⟩
    exact hRows row hRow name hKey

/- No tag is read before a character that starts none. -/
theorem reads_tags_none
    (zones : ZoneTable)
    {c : Char}
    (hc : isTagStart c = false)
    (rest : List Char) :
    Reads (collect (tag? zones)) [] [] (c :: rest) := by
  have hStop : Reads (tag? zones) [] none (c :: rest) := by
    unfold tag?
    rw [reads_current_bind]
    simp only [List.nil_append, List.head?_cons,
      Option.any_some, hc]
    exact reads_pure none _
  exact
    reads_collect (fun _ => []) id [] (by simp) (by simp) hStop

/- Nothing but the name is said about a column. -/
theorem reads_column
    (zones : ZoneTable)
    {known : List String}
    {name : String}
    (hName : isTagName name.toList = true)
    (hNew : name ∉ known)
    {c : Char}
    (hc : c = ',' ∨ c = '\n')
    (rest : List Char) :
    Reads (column zones known) name.toList name
      (c :: rest) := by
  unfold column
  refine (reads_tagName hName ?_).bind_last ?_
  · rcases hc with rfl | rfl <;> rfl
  dsimp only
  rw [if_neg hNew]
  have hEnd : isTagStart c = false ∧ isSpace c = false := by
    rcases hc with rfl | rfl <;> exact ⟨rfl, rfl⟩
  have hTags : Reads (tags zones) [] (recordOf []) (c :: rest) :=
    (reads_tags_none zones hEnd.1 rest).bind_pure recordOf
  refine Reads.bind_of_nil (reads_skipSpace_nil ?_) ?_
  · simp [hEnd.2]
  exact Reads.bind_of_nil hTags.discard (reads_pure name _)

/- One name more is read, behind a comma. -/
theorem reads_nextColumn
    (zones : ZoneTable)
    {known : List String}
    {name : String}
    (hName : isTagName name.toList = true)
    (hNew : name ∉ known)
    {c : Char}
    (hc : c = ',' ∨ c = '\n')
    (rest : List Char) :
    Reads (nextColumn? zones known) (',' :: name.toList)
      (some (name :: known)) (c :: rest) := by
  unfold nextColumn?
  rw [reads_current_bind, if_pos (by rfl)]
  refine Reads.advance_bind ?_ ','
  refine Reads.bind_of_nil (reads_skipSpace_nil ?_) ?_
  · rcases exists_cons_of_isTagName hName with
      ⟨first, more, hText, hFirst⟩
    simp [hText, (not_of_isTagStart hFirst).1]
  exact
    (reads_column zones hName hNew hc rest).bind_pure
      (fun n => some (n :: known))

/- A comma or the end of the line stands behind a name. -/
theorem exists_cons_names
    (names : List String)
    (rest : List Char) :
    ∃ c more, (c = ',' ∨ c = '\n') ∧
      names.flatMap (fun n => ',' :: n.toList) ++
          '\n' :: rest =
        c :: more := by
  cases names with
  | nil => exact ⟨'\n', rest, Or.inr rfl, rfl⟩
  | cons n names => exact ⟨',', _, Or.inl rfl, rfl⟩

/-
  The names are read in their order, with a comma before each
  but the first.
-/
theorem reads_columns
    (zones : ZoneTable)
    {name : String}
    {names : List String}
    (hNames :
      ∀ n ∈ name :: names, isTagName n.toList = true)
    (hNodup : (name :: names).Nodup)
    (rest : List Char) :
    Reads (columns zones)
      (name.toList ++
        names.flatMap (fun n => ',' :: n.toList))
      (name :: names) ('\n' :: rest) := by
  have hFirst :
      Reads (column zones []) name.toList name
        (names.flatMap (fun n => ',' :: n.toList) ++
          '\n' :: rest) := by
    rcases exists_cons_names names rest with
      ⟨c, more, hc, hRest⟩
    rw [hRest]
    exact
      reads_column zones (hNames name (List.mem_cons_self ..))
        (by simp) hc more
  have hIterate :
      Reads (iterate (nextColumn? zones) [name])
        (names.flatMap (fun n => ',' :: n.toList) ++ [])
        (names.foldl (fun known n => n :: known) [name])
        ('\n' :: rest) := by
    apply reads_iterate
    · intro before n after hSplit
      have hNew : n ∉ before.reverse ++ [name] := by
        rw [hSplit, ← List.cons_append, List.nodup_append]
          at hNodup
        intro hMem
        refine
          hNodup.2.2 n ?_ n (List.mem_cons_self ..) rfl
        simpa [or_comm] using hMem
      have hName : isTagName n.toList = true := by
        apply hNames
        simp [hSplit]
      rcases exists_cons_names after rest with
        ⟨c, more, hc, hRest⟩
      rw [List.foldl_flip_cons_eq_append', List.nil_append,
        hRest]
      exact reads_nextColumn zones hName hNew hc more
    · simp
    · exact reads_pure none _
  rw [List.append_nil, List.foldl_flip_cons_eq_append']
    at hIterate
  unfold columns
  apply Reads.bind hFirst
  have hReverse := hIterate.bind_pure List.reverse
  simpa using hReverse

------------------------------------------------------------
-- Rows
------------------------------------------------------------

/- A cell ends before a comma, a line end or the end. -/
def EndsCell (rest : List Char) : Prop :=
  rest.head?.all (fun c => c = ',' || c = '\n') = true

/- What ends a cell ends a value. -/
theorem EndsCell.endsValue
    {rest : List Char}
    (hRest : EndsCell rest) :
    EndsValue rest := by
  cases rest with
  | nil => exact endsValue_nil
  | cons c rest =>
      have hc : c = ',' ∨ c = '\n' := by
        simpa [EndsCell] using hRest
      rcases hc with rfl | rfl <;>
        exact endsValue_cons rfl rfl rest

theorem EndsCell.notSpace
    {rest : List Char}
    (hRest : EndsCell rest) :
    rest.head?.all (fun c => !isSpace c) = true := by
  cases rest with
  | nil => rfl
  | cons c rest =>
      have hc : c = ',' ∨ c = '\n' := by
        simpa [EndsCell] using hRest
      rcases hc with rfl | rfl <;> rfl

/- The last cell of a row ends where its line does. -/
theorem EndsLine.endsCell
    {rest : List Char}
    (hRest : EndsLine rest) :
    EndsCell rest := by
  rcases hRest.eq_nil_or_cons with rfl | ⟨more, rfl⟩ <;> rfl

/- A cell of nothing but spaces has no value. -/
theorem reads_cell_nil
    (zones : ZoneTable)
    {blank rest : List Char}
    (hBlank : blank.all isSpace = true)
    (hRest : EndsCell rest) :
    Reads (cell zones) blank none rest := by
  unfold cell
  refine (reads_skipSpace hBlank hRest.notSpace).bind_last ?_
  have hEmpty :
      rest.head?.all (fun c => c = ',' || c = '\n') = true :=
    hRest
  rw [reads_current_bind]
  simp only [List.nil_append, hEmpty, if_true]
  rw [reads_pure_bind]
  refine Reads.bind_of_nil (reads_skipSpace_nil hRest.notSpace) ?_
  exact reads_pure none rest

/- A cell with a value is not taken for an empty one. -/
theorem startsValue_notEmpty
    {cs : List Char}
    (hStart : startsValue cs = true)
    (rest : List Char) :
    (cs ++ rest).head?.all (fun c => c = ',' || c = '\n') =
      false := by
  cases cs with
  | nil => cases hStart
  | cons c cs =>
      have hc := isCloser_of_startsValue hStart
      simp only [isCloser, Bool.or_eq_false_iff] at hc
      simp [hc.1.1.2, hc.1.2]

/-
  A cell is read as the value that its text is read as, with
  the spaces around it.
-/
theorem reads_cell_value
    (zones : ZoneTable)
    {before cs after rest : List Char}
    {v : Option Value}
    (hBefore : before.all isSpace = true)
    (hAfter : after.all isSpace = true)
    (hStart : startsValue cs = true)
    (hRest : EndsCell rest)
    (hValue :
      ReadsLoosely (value zones .zinc) cs v (after ++ rest)) :
    Reads (cell zones) (before ++ (cs ++ after)) v rest := by
  unfold cell
  refine Reads.bind (reads_skipSpace hBefore ?_) ?_
  · rw [List.append_assoc]
    exact startsValue_notSpace hStart _
  rw [reads_current_bind, List.append_assoc,
    startsValue_notEmpty hStart]
  have hBoth :
      Reads
        (value zones .zinc >>= fun v =>
          skipSpace >>= fun _ => pure v)
        (cs ++ (after ++ [])) v rest :=
    hValue.bind_skipSpace hAfter hRest.notSpace
      (reads_pure v rest)
  rwa [List.append_nil] at hBoth

/- The value of a cell, as it is read back. -/
def valueRead
    (zones : ZoneTable)
    (row : Record)
    (name : String) : Option Value :=
  (row.get? name).map (fun v => v.asRead zones .zinc)

section Row

variable {zones : ZoneTable}
variable {row : Record}
variable {name : String}
variable {rest : List Char}

/- The text of the value under the name is read as one. -/
def HasLegibleCell
    (zones : ZoneTable)
    (row : Record)
    (name : String) : Prop :=
  ∀ v, row.get? name = some v → v.IsLegible zones

/-
  A readable record has legible cells, or none, in any
  column.
-/
theorem hasLegibleCell
    (hRow : row.IsReadable zones)
    (hText : row.HasLegibleText)
    (name : String) :
    HasLegibleCell zones row name := by
  intro v hGet
  have hMem : (name, v) ∈ row.entries :=
    (Dict.mem_entries_iff hRow.1 name v).mpr hGet
  exact ⟨(hRow.2 _ hMem).2, hText.of_mem hMem⟩

/- The text of a value may stand between spaces. -/
theorem reads_cell_text
    {v : Value}
    (hv : v.IsLegible zones)
    {before after : List Char}
    (hBefore : before.all isSpace = true)
    (hAfter : after.all isSpace = true)
    (hRest : EndsCell rest) :
    Reads (cell zones) (before ++ (v.text ++ after))
      (some (v.asRead zones .zinc)) rest := by
  rw [← Value.textIn_zinc]
  exact
    reads_cell_value zones hBefore hAfter
      (startsValue_textIn .zinc hv.1.isSimple) hRest
      (readsLoosely_value hv.1 hv.2
        (hRest.endsValue.after_blank hAfter))

/- So may the word for nothing. -/
theorem reads_cell_null
    {before after : List Char}
    (hBefore : before.all isSpace = true)
    (hAfter : after.all isSpace = true)
    (hRest : EndsCell rest) :
    Reads (cell zones) (before ++ (['N'] ++ after)) none
      rest :=
  reads_cell_value zones hBefore hAfter rfl hRest
    (reads_value_null
      (hRest.endsValue.after_blank hAfter)).loosely

/- The text of a cell gives what the row has there. -/
theorem reads_cellText
    (hText : HasLegibleCell zones row name)
    (hRest : EndsCell rest) :
    Reads (cell zones) (cellText row name)
      (valueRead zones row name) rest := by
  unfold cellText valueRead
  cases hGet : row.get? name with
  | none => exact reads_cell_nil zones rfl hRest
  | some v =>
      have hCell :
          Reads (cell zones) ([] ++ (v.text ++ []))
            (some (v.asRead zones .zinc)) rest :=
        reads_cell_text (hText v hGet) rfl rfl hRest
      rwa [List.append_nil] at hCell

/- The first cell says `N` rather than nothing. -/
theorem reads_firstCellText
    (hText : HasLegibleCell zones row name)
    (hRest : EndsCell rest) :
    Reads (cell zones) (firstCellText row name)
      (valueRead zones row name) rest := by
  have hCell := reads_cellText hText hRest
  unfold cellText at hCell
  unfold firstCellText valueRead at *
  cases hGet : row.get? name with
  | none =>
      have hCell :
          Reads (cell zones) ([] ++ (['N'] ++ [])) none rest :=
        reads_cell_null rfl rfl hRest
      exact hCell
  | some v =>
      rw [hGet] at hCell
      exact hCell

/- The text is read as the cell of the row in this column. -/
def IsReadAsCell
    (zones : ZoneTable)
    (row : Record)
    (name : String)
    (cs : List Char) : Prop :=
  ∀ rest, EndsCell rest →
    Reads (cell zones) cs (valueRead zones row name) rest

/-
  Texts that are read as the cells of a row, with commas
  between them, are read in the order of the columns.
-/
theorem reads_cells
    {names : List String}
    {cs : List Char}
    {texts : List (List Char)}
    (hFirst : IsReadAsCell zones row name cs)
    (hMore :
      List.Forall₂ (IsReadAsCell zones row) names texts)
    (hRest : EndsLine rest) :
    Reads (cells zones (name :: names))
      (cs ++ texts.flatMap (',' :: ·))
      ((name :: names).map (fun n =>
        (n, valueRead zones row n)))
      rest := by
  induction hMore generalizing name cs with
  | nil =>
      rw [cells, List.flatMap_nil, List.append_nil]
      exact
        (hFirst _ hRest.endsCell).bind_pure
          (fun v => [(name, v)])
  | cons hNext _ ih =>
      rw [cells, List.flatMap_cons, List.cons_append]
      · refine Reads.bind (hFirst _ rfl) ?_
        refine Reads.expect_bind ?_ ',' _
        exact
          (ih hNext).bind_pure
            (fun tags =>
              (name, valueRead zones row name) :: tags)
      · simp

/- The cells that a row is written as are read as its own. -/
theorem rowText_eq
    (row : Record)
    (name : String)
    (names : List String) :
    rowText row (name :: names) =
      firstCellText row name ++
        (names.map (cellText row)).flatMap (',' :: ·) := by
  rw [rowText, List.flatMap_map]

/-
  The cells of a row are read as what they are, each in its
  column.
-/
theorem isReadAsCell_cellText
    (hRow : row.IsReadable zones)
    (hText : row.HasLegibleText)
    (names : List String) :
    List.Forall₂ (IsReadAsCell zones row) names
      (names.map (cellText row)) := by
  rw [List.forall₂_map_right_iff, List.forall₂_same]
  intro name _ rest hRest
  exact
    reads_cellText (hasLegibleCell hRow hText name) hRest

/-
  A row starts as a value does, so that it is no blank line.
-/
theorem startsValue_rowText
    (hRow : row.IsWritten)
    (names : List String) :
    startsValue (rowText row (name :: names)) = true := by
  have hFirst :
      startsValue (firstCellText row name) = true := by
    unfold firstCellText
    cases hGet : row.get? name with
    | none => rfl
    | some v =>
        have hMem : (name, v) ∈ row.entries :=
          (Dict.mem_entries_iff hRow.1 name v).mpr hGet
        have hStart :=
          startsValue_textIn .zinc (hRow.2 _ hMem).2
        rwa [Value.textIn_zinc] at hStart
  rw [rowText]
  cases hText : firstCellText row name with
  | nil =>
      rw [hText] at hFirst
      cases hFirst
  | cons c cs =>
      rw [hText] at hFirst
      exact hFirst

/- The line of a row is not blank. -/
theorem head_lineText
    (hRow : row.IsWritten)
    (names : List String)
    (more : List Char) :
    (lineText (rowText row (name :: names)) ++
      more).head?.all (· = '\n') = false := by
  have hFirst :
      startsValue (rowText row (name :: names)) = true :=
    startsValue_rowText hRow names
  unfold lineText
  cases hLine : rowText row (name :: names) with
  | nil =>
      rw [hLine] at hFirst
      cases hFirst
  | cons c cs =>
      rw [hLine] at hFirst
      have hc := isCloser_of_startsValue hFirst
      simp only [isCloser, Bool.or_eq_false_iff] at hc
      simpa using hc.1.2

/- The keys of a row are put in the order of the columns. -/
theorem keys_asRow (names : List String) :
    (row.asRow zones names).keys =
      names.filter (· ∈ row.keys) := by
  unfold Dict.keys Record.asRow
  dsimp only
  induction names with
  | nil => rfl
  | cons name names ih =>
      have hMem := row.mem_keys_iff name
      unfold Dict.keys at hMem
      rw [List.filterMap_cons, List.filter_cons]
      cases hGet : row.get? name <;> simp [hMem, hGet, ih]

/- A row that is read has each column at most once. -/
theorem hasUniqueKeys_asRow
    {names : List String}
    (hNodup : names.Nodup) :
    (row.asRow zones names).HasUniqueKeys := by
  rw [Dict.HasUniqueKeys, keys_asRow]
  exact hNodup.filter _

/- A column has the value of the row, any other key none. -/
theorem get?_asRow
    (names : List String)
    (key : String) :
    (row.asRow zones names).get? key =
      if key ∈ names then valueRead zones row key
      else none := by
  unfold Dict.get? Record.asRow
  dsimp only
  induction names with
  | nil => rfl
  | cons n names ih =>
      rw [List.filterMap_cons]
      by_cases hKey : key = n
      · subst hKey
        rw [if_pos (List.mem_cons_self ..)]
        unfold valueRead at *
        cases hGet : row.get? key with
        | none =>
            rw [hGet] at ih
            rw [Option.map_none, ih]
            split_ifs <;> rfl
        | some v => exact List.lookup_cons_self
      · have hFalse : (key == n) = false := by
          simpa using hKey
        simp only [List.mem_cons, hKey, false_or]
        cases row.get? n with
        | none => exact ih
        | some v =>
            rw [Option.map_some, List.lookup_cons, hFalse]
            exact ih

/- The cells with a value make the record of a row. -/
theorem recordOf_cells
    {names : List String}
    (hNodup : names.Nodup) :
    recordOf
        (names.map (fun n => (n, valueRead zones row n))) =
      row.asRow zones names := by
  have hKeys :
      ((row.asRow zones names).entries.map
        Prod.fst).Nodup :=
    hasUniqueKeys_asRow hNodup
  rw [recordOf, List.filterMap_map]
  refine Eq.trans ?_ (Dict.ofEntries_of_nodup hKeys)
  congr 1
  apply List.filterMap_congr
  intro n _
  simp [valueRead, Function.comp_def]

/-
  A row is read from a line of texts that are read as its
  cells, if this does not start with its end.
-/
theorem reads_row_of_cells
    {names : List String}
    (hNodup : (name :: names).Nodup)
    {cs : List Char}
    {texts : List (List Char)}
    (hFirst : IsReadAsCell zones row name cs)
    (hMore :
      List.Forall₂ (IsReadAsCell zones row) names texts)
    {ending : List Char}
    (hEnd : ending = [] ∧ rest = [] ∨ ending = ['\n'])
    (hLine :
      (cs ++ texts.flatMap (',' :: ·) ++ ending ++
        rest).head?.all (· = '\n') = false) :
    Reads (row? zones (name :: names))
      (cs ++ texts.flatMap (',' :: ·) ++ ending)
      (some (row.asRow zones (name :: names))) rest := by
  have hEnding :
      Reads
        (do
          if (← current?).isSome then newline
          return row.asRow zones (name :: names))
        ending (row.asRow zones (name :: names)) rest := by
    rw [reads_current_bind]
    rcases hEnd with ⟨rfl, rfl⟩ | rfl
    · exact reads_pure _ []
    · change Reads (newline >>= fun _ => pure _) ['\n'] _ rest
      refine Reads.expect_bind ?_ '\n' _
      exact reads_pure _ rest
  have hRow :
      Reads (Zinc.row zones (name :: names))
        (cs ++ texts.flatMap (',' :: ·) ++ ending)
        (row.asRow zones (name :: names)) rest := by
    unfold Zinc.row
    refine Reads.bind (reads_cells hFirst hMore ?_) ?_
    · rcases hEnd with ⟨rfl, rfl⟩ | rfl <;> rfl
    · rw [recordOf_cells hNodup]
      exact hEnding
  unfold row?
  rw [reads_current_bind, hLine]
  exact hRow.bind_pure some

/- A row is read with its line end. -/
theorem reads_row
    (hRow : row.IsReadable zones)
    (hText : row.HasLegibleText)
    {names : List String}
    (hNe : names ≠ [])
    (hNodup : names.Nodup)
    (rest : List Char) :
    Reads (row? zones names) (lineText (rowText row names))
      (some (row.asRow zones names)) rest := by
  cases names with
  | nil => exact absurd rfl hNe
  | cons name names =>
      have hHead :
          (lineText (rowText row (name :: names)) ++
            rest).head?.all (· = '\n') = false :=
        head_lineText hRow.isWritten names rest
      unfold lineText at hHead ⊢
      rw [rowText_eq] at hHead ⊢
      refine
        reads_row_of_cells hNodup ?_
          (isReadAsCell_cellText hRow hText names)
          (Or.inr rfl) hHead
      intro rest hRest
      exact
        reads_firstCellText (hasLegibleCell hRow hText name)
          hRest

end Row

------------------------------------------------------------
-- Grids
------------------------------------------------------------

/- The version is read with the space before what is said. -/
theorem reads_version
    {blank rest : List Char}
    (hBlank : blank.all isSpace = true)
    (hRest : rest.head?.all (fun c => !isSpace c) = true) :
    Reads version ("ver:\"2.0\"".toList ++ blank) ()
      rest := by
  have hText :
      "ver:\"2.0\"".toList ++ blank =
        "ver".toList ++ ':' :: (quote "2.0".toList ++ blank) :=
    rfl
  rw [hText]
  unfold version
  refine Reads.bind (reads_tagName rfl rfl) ?_
  dsimp only
  rw [if_neg (by simp)]
  refine Reads.expect_bind ?_ ':' _
  rw [reads_current_bind, if_neg (by simp [quote])]
  refine Reads.bind (reads_quoted_quote "2.0".toList _) ?_
  rw [if_neg (by simp)]
  exact reads_skipSpace hBlank hRest

/-
  The version is read with the space before the first tag, if
  there is one.
-/
theorem exists_blank_metadataText
    {r : Record}
    (hr : r.IsWritten)
    (more : List Char) :
    ∃ blank,
      metadataText r =
          blank ++ (spaced r.entries).flatMap spacedText ∧
        Reads version ("ver:\"2.0\"".toList ++ blank) ()
          ((spaced r.entries).flatMap spacedText ++
            '\n' :: more) := by
  cases hEntries : r.entries with
  | nil =>
      refine ⟨[], ?_, reads_version rfl rfl⟩
      rw [metadataText, hEntries]
      rfl
  | cons e entries =>
      have hMetadata :
          metadataText r =
            [' '] ++ (spaced r.entries).flatMap spacedText :=
        metadataText_eq (by simp [hEntries])
      rcases exists_cons_entryText
          (hr.2 e (by simp [hEntries])).1 with
        ⟨c, ds, hStart, hc⟩
      rw [hEntries] at hMetadata
      refine ⟨[' '], hMetadata, reads_version rfl ?_⟩
      cases entries <;>
        simp [spaced, spacedText, hStart,
          (not_of_isTagStart hc).1]

/- All that is said about a grid is read with its line. -/
theorem reads_metadata
    {zones : ZoneTable}
    {r : Record}
    (hr : r.IsReadable zones)
    (hText : r.HasLegibleText)
    {α : Type}
    {next : Record → Scan α}
    {more rest : List Char}
    {a : α}
    (hNext :
      Reads (next (r.asRead zones)) ('\n' :: more) a rest) :
    Reads (version >>= fun _ => tags zones >>= next)
      ("ver:\"2.0\"".toList ++ (metadataText r ++
        '\n' :: more)) a rest := by
  rcases exists_blank_metadataText hr.isWritten
      (more ++ rest) with
    ⟨blank, hMetadata, hVersion⟩
  have hTags :
      Reads (tags zones >>= next)
        ((spaced r.entries).flatMap spacedText ++
          '\n' :: more) a rest :=
    Reads.bind (reads_tags hr hText rfl) hNext
  have hBoth :
      Reads (version >>= fun _ => tags zones >>= next)
        (("ver:\"2.0\"".toList ++ blank) ++
          ((spaced r.entries).flatMap spacedText ++
            '\n' :: more)) a rest :=
    Reads.bind (by simpa using hVersion) hTags
  rw [hMetadata]
  simpa using hBoth

/- Texts with commas between them, from the first on. -/
theorem intercalate_commas
    (cs : List Char)
    (texts : List (List Char)) :
    List.intercalate [','] (cs :: texts) =
      cs ++ texts.flatMap (',' :: ·) := by
  induction texts generalizing cs with
  | nil => simp [List.intercalate]
  | cons next texts ih =>
      rw [List.intercalate_cons_cons, ih, List.flatMap_cons]
      simp

/- The line of names is what stands between commas. -/
theorem intercalate_names
    (name : String)
    (names : List String) :
    List.intercalate [',']
        ((name :: names).map String.toList) =
      name.toList ++ names.flatMap (fun n => ',' :: n.toList) := by
  rw [List.map_cons, intercalate_commas, List.flatMap_map]

/- The two lines that a grid starts with. -/
def headText (g : Grid) : List Char :=
  lineText ("ver:\"2.0\"".toList ++ metadataText g.metadata) ++
    lineText (List.intercalate [',']
      ((columnNames g.rows).map String.toList))

/-
  The head of a grid is the line of its version and that of
  its columns.
-/
theorem headText_eq (g : Grid) :
    ∃ name names, columnNames g.rows = name :: names ∧
      headText g =
        "ver:\"2.0\"".toList ++
          (metadataText g.metadata ++ '\n' ::
            ((name.toList ++ names.flatMap
              (fun n => ',' :: n.toList)) ++ ['\n'])) := by
  have hNe := columnNames_ne_nil g.rows
  unfold headText
  cases hColumns : columnNames g.rows with
  | nil => exact absurd hColumns hNe
  | cons name names =>
      refine ⟨name, names, rfl, ?_⟩
      rw [intercalate_names]
      simp [lineText]

/- A line for each row follows. -/
theorem gridText_eq_headText (g : Grid) :
    gridText g =
      headText g ++ g.rows.flatMap (fun row =>
        lineText (rowText row (columnNames g.rows))) :=
  rfl

/- The text of a grid, from line to line. -/
theorem gridText_eq (g : Grid) :
    ∃ name names, columnNames g.rows = name :: names ∧
      gridText g =
        "ver:\"2.0\"".toList ++
          (metadataText g.metadata ++ '\n' ::
            ((name.toList ++ names.flatMap
              (fun n => ',' :: n.toList)) ++ '\n' ::
                g.rows.flatMap (fun row => lineText
                  (rowText row (name :: names))))) := by
  rcases headText_eq g with ⟨name, names, hColumns, hHead⟩
  refine ⟨name, names, hColumns, ?_⟩
  rw [gridText_eq_headText, hHead, hColumns]
  simp

/- A blank line after a grid is passed. -/
theorem reads_blankLine
    (g : Grid)
    {ending rest : List Char}
    (hEnd : ending = [] ∧ rest = [] ∨ ending = ['\n']) :
    Reads
      (do
        if (← current?) = some '\n' then advance
        return g)
      ending g rest := by
  rw [reads_current_bind]
  rcases hEnd with ⟨rfl, rfl⟩ | rfl
  · exact reads_pure g []
  · rw [if_pos (by rfl)]
    refine Reads.advance_bind ?_ '\n'
    exact reads_pure g rest

/-
  A grid is read from its first two lines and any text that
  is read as its rows, with the blank line that may follow.
-/
theorem reads_grid_of_rows
    {zones : ZoneTable}
    {g : Grid}
    (hg : g.IsReadable zones)
    (hLegible : g.HasLegibleText)
    {cs ending rest : List Char}
    (hRows :
      Reads (collect (row? zones (columnNames g.rows))) cs
        (g.asRead zones).rows (ending ++ rest))
    (hEnd : ending = [] ∧ rest = [] ∨ ending = ['\n']) :
    Reads (grid zones) (headText g ++ (cs ++ ending))
      (g.asRead zones) rest := by
  have hNodup := nodup_columnNames g.rows
  have hNames : ∀ n ∈ columnNames g.rows,
      isTagName n.toList = true :=
    fun n hn => isTagName_of_mem_columnNames hg.isWritten.rowKeys hn
  rcases headText_eq g with ⟨name, names, hColumns, hText⟩
  rw [hColumns] at hRows hNames hNodup
  have hColumnsRead :=
    reads_columns zones hNames hNodup (cs ++ ending ++ rest)
  rw [hText]
  simp only [List.append_assoc, List.cons_append,
    List.nil_append]
  unfold grid
  refine
    reads_metadata (hg _ (List.mem_cons_self ..))
      (hLegible _ (List.mem_cons_self ..)) ?_
  refine Reads.expect_bind ?_ '\n' _
  rw [← List.append_assoc]
  refine Reads.bind hColumnsRead ?_
  refine Reads.expect_bind ?_ '\n' _
  exact Reads.bind hRows (reads_blankLine _ hEnd)

/-
  A grid is read from its text, with the blank line that may
  follow it, and what comes after that is left.
-/
theorem reads_grid
    {zones : ZoneTable}
    {g : Grid}
    (hg : g.IsReadable zones)
    (hLegible : g.HasLegibleText)
    {ending rest : List Char}
    (hEnd : ending = [] ∧ rest = [] ∨ ending = ['\n']) :
    Reads (grid zones) (gridText g ++ ending)
      (g.asRead zones) rest := by
  have hNodup := nodup_columnNames g.rows
  have hNe := columnNames_ne_nil g.rows
  have hRows :
      Reads (collect (row? zones (columnNames g.rows)))
        (g.rows.flatMap (fun row =>
          lineText (rowText row (columnNames g.rows))) ++ [])
        (g.asRead zones).rows (ending ++ rest) := by
    apply reads_collect
    · intro before row after hSplit
      have hMem : row ∈ g.records := by
        rw [Grid.records, hSplit]
        simp
      exact
        reads_row (hg row hMem) (hLegible row hMem) hNe hNodup _
    · intro row _
      simp [lineText]
    · unfold row?
      rw [reads_current_bind]
      rcases hEnd with ⟨rfl, rfl⟩ | rfl
      · exact reads_pure none []
      · exact reads_pure none _
  rw [List.append_nil] at hRows
  rw [gridText_eq_headText, List.append_assoc]
  exact reads_grid_of_rows hg hLegible hRows hEnd

end Zinc

end Haystack
