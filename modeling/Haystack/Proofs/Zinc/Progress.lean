import Haystack.Proofs.Tag.Names
import Haystack.Proofs.Text.Turns
import Haystack.Proofs.Zinc.GivenValues
import Haystack.Proofs.Zinc.Places

/-
  This file shows that reading grids ends. Every grid and
  every row takes characters of the text, so that the loops,
  which have no bound of their own, turn no more often than
  there are characters left to read.

  Key definitions include:
    * `Zinc.gridCourse`
    * `Zinc.gridsCourse`
    * `Zinc.IsLiteralLoop`

  Main declarations:
    * `Zinc.length_lt_of_row`
    * `Zinc.ends_grid`
    * `Zinc.ends_grids`
    * `Zinc.consumes_and_ends`
-/

namespace Haystack

open Scan

namespace Zinc

variable (zones : ZoneTable)

------------------------------------------------------------
-- Courses of the Readers of Grids
------------------------------------------------------------

/- Tags are read in a loop. -/
def tagsCourse : Course Record :=
  (Course.collect (.straight (tag? zones))).andThen
    fun found => .straight (pure (recordOf found))

/- Read the name of a column that is not known yet. -/
def columnName (known : List String) : Scan String := do
  let name ← TagName.scan
  if name.text ∈ known then fail (.duplicateColumn name.text)
  skipSpace
  return name.text

/- Tags stand behind the name of a column. -/
def columnCourse (known : List String) : Course String :=
  (Course.straight (columnName known)).andThen fun name =>
    (tagsCourse zones).andThen fun _ => .straight (pure name)

/- One column more, behind a comma. -/
def nextColumnCourse
    (known : List String) : Course (Option (List String)) :=
  .whenever (fun c => c.current? = some ',')
    ((Course.straight advance).andThen fun _ =>
      (Course.straight skipSpace).andThen fun _ =>
        (columnCourse zones known).andThen fun name =>
          .straight (pure (name :: known)))

/- Each column is a turn, the first of them as well. -/
def columnsCourse : Course (List String) :=
  (columnCourse zones []).turn.andThen fun first =>
    (Course.loop (nextColumnCourse zones) [first]).andThen
      fun behind => .straight (pure behind.reverse)

/- A row, unless there is a blank line or the end. -/
def nextRowCourse
    (names : List String) : Course (Option Record) :=
  .whenever (fun c => !c.current?.all (· = '\n'))
    (.straight (row zones names))

/- Step over a blank line, if there is one. -/
def blankLine (g : Grid) : Scan Grid := do
  if (← current?) = some '\n' then advance
  return g

/- A grid has loops for tags, for columns and for rows. -/
def gridCourse : Course Grid :=
  (Course.straight version).andThen fun _ =>
    (tagsCourse zones).andThen fun metadata =>
      (Course.straight newline).andThen fun _ =>
        (columnsCourse zones).andThen fun names =>
          (Course.straight newline).andThen fun _ =>
            (Course.collect (nextRowCourse zones names)).andThen
              fun rows => .straight (blankLine ⟨metadata, rows⟩)

/- A grid, unless the text has ended. -/
def nextGridCourse : Course (Option Grid) :=
  .whenever (fun c => c.current?.isSome) (gridCourse zones)

/- Grids are read in a loop around those of each grid. -/
def gridsCourse : Course (List Grid) :=
  .collect (nextGridCourse zones)

------------------------------------------------------------
-- What Single Readers Take
------------------------------------------------------------

section Lengths

variable {zones : ZoneTable}
variable {c d : Cursor}

/- A tag takes a character. -/
theorem length_lt_of_tag
    {t : Tag}
    (h : tag? zones c = .ok (some t) d) :
    d.rest.length < c.rest.length := by
  unfold tag? at h
  rw [current_bind_apply] at h
  split_ifs at h
  · rcases bind_eq_ok.mp h with ⟨name, c₁, hName, h⟩
    have hFirst := TagName.length_lt hName
    have hLe :=
      (keepsPlace_behindTagName zones name.text).length_le h
    exact Nat.lt_of_le_of_lt hLe hFirst
  · rcases pure_eq_ok.mp h with ⟨hNone, -⟩
    cases hNone

/-
  A row ends with a newline or with the text. Away from the
  end of the text it takes a character either way.
-/
theorem length_lt_of_row
    {names : List String}
    {r : Record}
    (hMore : c.rest ≠ [])
    (h : row zones names c = .ok r d) :
    d.rest.length < c.rest.length := by
  unfold row at h
  rcases bind_eq_ok.mp h with ⟨found, e, hCells, h⟩
  have hLe := (keepsPlace_cells zones names).length_le hCells
  rw [current_bind_apply] at h
  split_ifs at h with hEnd
  · rcases bind_eq_ok.mp h with ⟨_, e', hLine, h⟩
    rcases pure_eq_ok.mp h with ⟨-, rfl⟩
    exact Nat.lt_of_lt_of_le (length_lt_of_newline hLine) hLe
  · rcases pure_eq_ok.mp h with ⟨-, rfl⟩
    have hNil : e.rest = [] := by
      simpa [Cursor.current?] using hEnd
    rw [hNil]
    exact List.length_pos_of_ne_nil hMore

end Lengths

------------------------------------------------------------
-- Loops over Tags, Columns and Rows
------------------------------------------------------------

/-
  The loop over tags turns no more often than it takes
  characters.
-/
theorem ends_tags (c : Cursor) :
    Ends 0 0 (tagsCourse zones) (tags zones) c := by
  have hTag : ∀ c,
      StepEnds 0 (.straight (tag? zones)) (tag? zones) c := by
    intro c
    refine (keepsPlace_tag zones).stepEnds ?_ ?_
    · exact fun _ _ h => length_lt_of_tag h
    · -- At the end of the text there is no tag.
      intro e d h
      rcases c with ⟨_ | ⟨x, rest⟩, line⟩
      · cases h
      · simp only [List.length_cons]
        omega
  exact (ends_collect hTag c).andThen_pure recordOf

/- A column is its name and the tags behind it. -/
theorem column_eq (known : List String) :
    column zones known = (do
      let name ← columnName known
      let _ ← tags zones
      return name) := by
  unfold column columnName
  simp only [discard_bind, bind_assoc]
  congr 1
  funext name
  split_ifs with hKnown
  · funext c
    rfl
  · simp only [bind_assoc, pure_bind]

theorem ends_column
    (known : List String)
    (c : Cursor) :
    Ends 1 0 (columnCourse zones known) (column zones known)
      c := by
  rw [column_eq]
  have hName :
      Ends 1 0 (.straight (columnName known))
        (columnName known) c := by
    refine ends_of_length_lt ?_ (by omega)
    intro text d h
    unfold columnName at h
    rcases bind_eq_ok.mp h with ⟨name, c₁, hTag, h⟩
    have hFirst := TagName.length_lt hTag
    split_ifs at h
    · rcases bind_eq_ok.mp h with ⟨_, _, hFail, -⟩
      cases hFail
    · rcases bind_eq_ok.mp h with ⟨_, c₂, hSpace, h⟩
      rcases pure_eq_ok.mp h with ⟨-, rfl⟩
      exact
        Nat.lt_of_le_of_lt
          (keepsPlace_skipSpace.length_le hSpace) hFirst
  have hTags := fun (name : String) d =>
    (ends_tags zones d).andThen_pure fun _ => name
  exact hName.andThen hTags (by decide) (by decide)

theorem stepEnds_nextColumn
    (known : List String)
    (c : Cursor) :
    StepEnds 0 (nextColumnCourse zones known)
      (nextColumn? zones known) c := by
  have hColumn := fun (_ : Unit) d =>
    (ends_column zones known d).andThen_pure (· :: known)
  have hSpace := fun (_ : Unit) d =>
    (keepsPlace_skipSpace.ends d).andThen
      (x := 0) (h := 0) hColumn (by decide) (by decide)
  refine
    Ends.whenever
      (advance >>= fun _ =>
        skipSpace >>= fun _ =>
          column zones known >>= fun name =>
            pure (name :: known))
      (fun hComma => ?_) ?_
  · -- The comma pays for the turn, also where it fails.
    have hStep :=
      Cursor.length_advance (c := c)
        (by rw [of_decide_eq_true hComma]; rfl)
    have hAdvance :
        Ends 1 1 (.straight advance) advance c := by
      refine ends_of_length_lt ?_ (by omega)
      rintro ⟨⟩ d ⟨⟩
      omega
    exact hAdvance.andThen hSpace (by decide) (by decide)
  · unfold nextColumn?
    simp only [current_bind_apply, bind_assoc, pure_bind,
      decide_eq_true_eq]
    split_ifs <;> rfl

/-
  The loop over columns turns once at most for a character,
  and once more where it fails.
-/
theorem ends_columns (c : Cursor) :
    Ends 0 (-1) (columnsCourse zones) (columns zones) c := by
  have hMore := fun (first : String) d =>
    (ends_loop (stepEnds_nextColumn zones) [first]
      d).andThen_pure List.reverse
  exact
    (ends_column zones [] c).turn.andThen hMore (by decide)
      (by decide)

/- A row that fails does so before the end of the text. -/
theorem ends_rows
    (names : List String)
    (c : Cursor) :
    Ends 0 0 (.collect (nextRowCourse zones names))
      (collect (row? zones names)) c := by
  refine ends_collect (fun c => ?_) c
  refine Ends.whenever (row zones names) ?_ ?_
  · intro hTest
    have hMore : c.rest ≠ [] := by
      intro hNil
      simp [Cursor.current?, hNil] at hTest
    have hPos := List.length_pos_of_ne_nil hMore
    exact
      ends_of_length_lt
        (fun _ _ h => length_lt_of_row hMore h) (by omega)
  · unfold row?
    rw [current_bind_apply]
    cases c.current?.all (· = '\n') <;> rfl

------------------------------------------------------------
-- Loops over Grids
------------------------------------------------------------

/- The line of the version takes characters. -/
theorem length_lt_of_version
    {c d : Cursor}
    {u : Unit}
    (h : version c = .ok u d) :
    d.rest.length < c.rest.length := by
  unfold version at h
  rcases bind_eq_ok.mp h with ⟨name, c₁, hName, h⟩
  have hFirst := TagName.length_lt hName
  split_ifs at h
  · rcases bind_eq_ok.mp h with ⟨_, _, hFail, -⟩
    cases hFail
  · have hLe := keepsPlace_versionNumber.length_le h
    exact Nat.lt_of_le_of_lt hLe hFirst

theorem keepsPlace_blankLine (g : Grid) :
    KeepsPlace (blankLine g) := by
  refine keepsPlace_current_bind fun x => ?_
  exact KeepsPlace.ite_bind keepsPlace_advance (keepsPlace_pure g)

/-
  The version pays for the turn that a grid is, and the line
  end before the columns for the first of them.
-/
theorem ends_grid
    {c : Cursor}
    {f : Int}
    (hFault : f ≤ 1 ∧ f ≤ c.rest.length) :
    Ends 1 f (gridCourse zones) (grid zones) c := by
  have hVersion : Ends 1 f (.straight version) version c :=
    ends_of_length_lt (fun _ _ h => length_lt_of_version h)
      hFault.2
  have hLine : ∀ d,
      Ends 1 0 (.straight newline) newline d :=
    fun d =>
      ends_of_length_lt (fun _ _ h => length_lt_of_newline h)
        (by omega)
  refine
    hVersion.andThen (w := 0) (g := 0) (fun _ d => ?_)
      (by decide) (by omega)
  refine
    (ends_tags zones d).andThen (w := 0) (g := 0)
      (fun metadata d => ?_) (by decide) (by decide)
  refine
    (hLine d).andThen (w := 0) (g := -1) (fun _ d => ?_)
      (by decide) (by decide)
  refine
    (ends_columns zones d).andThen (w := 0) (g := 0)
      (fun names d => ?_) (by decide) (by decide)
  refine
    (hLine d).andThen (w := 0) (g := 0) (fun _ d => ?_)
      (by decide) (by decide)
  exact
    (ends_rows zones names d).andThen
      (fun rows d => (keepsPlace_blankLine _).ends d)
      (by decide) (by decide)

/-
  The loops of a stream turn no more often than it has
  characters.
-/
theorem ends_grids (c : Cursor) :
    Ends 0 0 (gridsCourse zones) (grids zones) c := by
  refine ends_collect (fun c => ?_) c
  refine Ends.whenever (grid zones) ?_ ?_
  · intro hTest
    have hMore : c.rest ≠ [] := by
      intro hNil
      simp [Cursor.current?, hNil] at hTest
    have hPos := List.length_pos_of_ne_nil hMore
    exact ends_grid zones ⟨by omega, by omega⟩
  · unfold grid?
    rw [current_bind_apply]
    cases c.current?.isSome <;> rfl

------------------------------------------------------------
-- Grids and Rows that Are Read
------------------------------------------------------------

section Sizes

variable {zones : ZoneTable}
variable {c d : Cursor}

/- Each row has a character of its own. -/
theorem length_rows_le
    {names : List String}
    {rows : List Record}
    (h : collect (row? zones names) c = .ok rows d) :
    rows.length + d.rest.length ≤ c.rest.length := by
  refine
    collect_invariant
      (fun rows e =>
        rows.length + e.rest.length ≤ c.rest.length)
      ?_ ?_ (by simp) h
  · intro rows r e e' hRows hRow
    unfold row? at hRow
    rw [current_bind_apply] at hRow
    split_ifs at hRow with hEnd
    · rcases pure_eq_ok.mp hRow with ⟨hNone, -⟩
      cases hNone
    · rcases bind_eq_ok.mp hRow with ⟨r', e₁, hFound, hPure⟩
      rcases pure_eq_ok.mp hPure with ⟨-, rfl⟩
      have hMore : e.rest ≠ [] := by
        intro hNil
        simp [Cursor.current?, hNil] at hEnd
      have hLess := length_lt_of_row hMore hFound
      rw [List.length_append, List.length_singleton]
      omega
  · intro rows e e' hRows hNone
    have hLe := (keepsPlace_row? zones names).length_le hNone
    omega

/- So does the grid itself, in the version. -/
theorem size_add_le_of_grid
    {g : Grid}
    (h : grid zones c = .ok g d) :
    g.size + 1 + d.rest.length ≤ c.rest.length := by
  unfold grid at h
  rcases bind_eq_ok.mp h with ⟨_, c₁, hVersion, h⟩
  rcases bind_eq_ok.mp h with ⟨metadata, c₂, hTags, h⟩
  rcases bind_eq_ok.mp h with ⟨_, c₃, hLine, h⟩
  rcases bind_eq_ok.mp h with ⟨names, c₄, hColumns, h⟩
  rcases bind_eq_ok.mp h with ⟨_, c₅, hLine', h⟩
  rcases bind_eq_ok.mp h with ⟨rows, c₆, hRows, h⟩
  have h₁ := length_lt_of_version hVersion
  have h₂ := (keepsPlace_tags zones).length_le hTags
  have h₃ := keepsPlace_newline.length_le hLine
  have h₄ := (keepsPlace_columns zones).length_le hColumns
  have h₅ := keepsPlace_newline.length_le hLine'
  have h₆ := length_rows_le hRows
  have hBlank : blankLine ⟨metadata, rows⟩ c₆ = .ok g d := h
  have h₇ := (keepsPlace_blankLine _).length_le hBlank
  have hRowsEq : g.rows = rows := by
    unfold blankLine at hBlank
    rw [current_bind_apply] at hBlank
    split_ifs at hBlank
    · rw [advance_bind_apply] at hBlank
      rw [← (pure_eq_ok.mp hBlank).1]
    · rw [← (pure_eq_ok.mp hBlank).1]
  rw [Grid.size, hRowsEq]
  omega

/-
  Each grid and each row has taken a character of its own.
-/
theorem length_grids_le
    {gs : List Grid}
    (h : grids zones c = .ok gs d) :
    gs.length + (gs.map Grid.size).sum + d.rest.length ≤
      c.rest.length := by
  refine
    collect_invariant
      (fun gs e =>
        gs.length + (gs.map Grid.size).sum + e.rest.length ≤
          c.rest.length)
      ?_ ?_ (by simp) h
  · intro gs g e e' hGrids hGrid
    unfold grid? at hGrid
    rw [current_bind_apply] at hGrid
    split_ifs at hGrid
    · rcases bind_eq_ok.mp hGrid with ⟨g', e₁, hGrid, hPure⟩
      rcases pure_eq_ok.mp hPure with ⟨hSome, rfl⟩
      cases hSome
      have hSize := size_add_le_of_grid hGrid
      simp only [List.length_append, List.length_singleton,
        List.map_append, List.sum_append, List.map_singleton,
        List.sum_singleton]
      omega
    · rcases pure_eq_ok.mp hGrid with ⟨hNone, -⟩
      cases hNone
  · intro gs e e' hGrids hNone
    unfold grid? at hNone
    rw [current_bind_apply] at hNone
    split_ifs at hNone
    · rcases bind_eq_ok.mp hNone with ⟨g', e₁, -, hPure⟩
      rcases pure_eq_ok.mp hPure with ⟨hSome, -⟩
      cases hSome
    · rcases pure_eq_ok.mp hNone with ⟨-, rfl⟩
      exact hGrids

end Sizes

------------------------------------------------------------
-- Loops of Literals
------------------------------------------------------------

/- What is read in a loop within one literal. -/
inductive IsLiteralLoop :
    {α : Type} → Scan (Option α) → Prop where
| quoted : IsLiteralLoop quotedChar?
| uri : IsLiteralLoop uriPiece?
| bracketed (what : Enclosed) :
    IsLiteralLoop (bracketedChar? what)
| numeral : IsLiteralLoop numeralPiece?

theorem IsLiteralLoop.keepsPlace
    {α : Type}
    {item? : Scan (Option α)}
    (hLoop : IsLiteralLoop item?) :
    KeepsPlace item? := by
  cases hLoop with
  | quoted => exact keepsPlace_quotedChar
  | uri => exact keepsPlace_uriPiece
  | bracketed what => exact keepsPlace_bracketedChar what
  | numeral => exact keepsPlace_numeralPiece

/- Each step of a loop in a literal takes a character. -/
theorem IsLiteralLoop.length_lt
    {α : Type}
    {item? : Scan (Option α)}
    (hLoop : IsLiteralLoop item?)
    {c d : Cursor}
    {a : α}
    (h : item? c = .ok (some a) d) :
    d.rest.length < c.rest.length := by
  cases hLoop with
  | quoted => exact length_lt_of_quotedChar _ _ _ h
  | uri => exact length_lt_of_uriPiece _ _ _ h
  | bracketed what => exact length_lt_of_bracketedChar _ _ _ h
  | numeral => exact length_lt_of_numeralPiece _ _ _ h

/- A literal that is not closed fails in one turn more. -/
theorem IsLiteralLoop.ends
    {α : Type}
    {item? : Scan (Option α)}
    (hLoop : IsLiteralLoop item?)
    (c : Cursor) :
    Ends 0 (-1) (.collect (.straight item?)) (collect item?)
      c := by
  refine ends_collect (fun c => ?_) c
  refine
    hLoop.keepsPlace.stepEnds
      (fun _ _ h => hLoop.length_lt h) ?_
  intro e d _
  omega

------------------------------------------------------------
-- Progress
------------------------------------------------------------

/-
  A grid takes a character, and so does each row before the
  end of the text. Loops without a bound therefore end, after
  no more turns than there are characters to read, nested
  ones counted as well; within a literal one more turn fails.
  Of grids and rows there are no more than of characters.
-/
theorem consumes_and_ends :
    (∀ c g d, grid zones c = .ok g d → c.Consumes d) ∧
      (∀ names c r d, c.rest ≠ [] →
        row zones names c = .ok r d → c.Consumes d) ∧
      (∀ c, ∃ turns ≤ c.rest.length,
        (gridCourse zones).IsOnly c turns (grid zones c)) ∧
      (∀ c, ∃ turns ≤ c.rest.length,
        (gridsCourse zones).IsOnly c turns
          (grids zones c)) ∧
      (∀ {α : Type} (item? : Scan (Option α)),
        IsLiteralLoop item? →
          ∀ c, ∃ turns ≤ c.rest.length + 1,
            (Course.collect (.straight item?)).IsOnly c turns
              (collect item? c)) ∧
      ∀ c gs d, grids zones c = .ok gs d →
        gs.length + (gs.map Grid.size).sum + d.rest.length ≤
          c.rest.length := by
  refine ⟨?_, ?_, ?_, ?_, ?_, fun _ _ _ => length_grids_le⟩
  · intro c g d h
    have hSize := size_add_le_of_grid h
    exact
      ((keepsPlace_grid zones).reaches h).consumes (by omega)
  · intro names c r d hMore h
    exact
      ((keepsPlace_row zones names).reaches h).consumes
        (length_lt_of_row hMore h)
  · intro c
    have hEnds : Ends 1 0 (gridCourse zones) (grid zones) c :=
      ends_grid zones ⟨by decide, by omega⟩
    exact hEnds.exists_turns 0 (by decide)
  · exact fun c => (ends_grids zones c).exists_turns 0 (by decide)
  · exact fun item? hLoop c =>
      (hLoop.ends c).exists_turns 1 (by decide)

/- A grid of one row, which consists of empty cells. -/
def gapsText : String :=
  "ver:\"2.0\"\na,b\n,\n"

def gapsGrid : Grid :=
  ⟨.empty, [.empty]⟩

/-
  A grid with gaps, the row of it that has nothing but a
  comma, and the loops over both.
-/
theorem consumes_and_ends_gapsText :
    grid .builtin (.ofText gapsText) = .ok gapsGrid ⟨[], 4⟩ ∧
      (Cursor.ofText gapsText).Consumes ⟨[], 4⟩ ∧
      row .builtin ["a", "b"] ⟨[',', '\n'], 3⟩ =
        .ok .empty ⟨[], 4⟩ ∧
      Cursor.Consumes ⟨[',', '\n'], 3⟩ ⟨[], 4⟩ ∧
      (∃ turns ≤ 2,
        (Course.collect (.straight quotedChar?)).IsOnly
          ⟨['a'], 1⟩ turns (collect quotedChar? ⟨['a'], 1⟩)) ∧
      grids .builtin (.ofText gapsText) =
        .ok [gapsGrid] ⟨[], 4⟩ ∧
      1 + gapsGrid.size ≤ gapsText.length := by
  rcases consumes_and_ends .builtin with
    ⟨hGrid, hRow, -, -, hLoop, hGrids⟩
  have hOne :
      grid .builtin (.ofText gapsText) =
        .ok gapsGrid ⟨[], 4⟩ := by
    rfl
  have hEmpty :
      row .builtin ["a", "b"] ⟨[',', '\n'], 3⟩ =
        .ok .empty ⟨[], 4⟩ := by
    rfl
  have hAll :
      grids .builtin (.ofText gapsText) =
        .ok [gapsGrid] ⟨[], 4⟩ := by
    rfl
  exact
    ⟨hOne, hGrid _ _ _ hOne, hEmpty,
      hRow _ _ _ _ nofun hEmpty,
      hLoop quotedChar? .quoted ⟨['a'], 1⟩,
      hAll, hGrids _ _ _ hAll⟩

end Zinc

end Haystack
