import Haystack.Proofs.Text.Places
import Haystack.Zinc.GridReading
import Mathlib.Data.List.Forall2

/-
  This file shows that the readers of values, tags and grids
  keep to the places of the text, whatever they are given and
  wherever they fail, and so does any sequence of readings,
  each from where the one before has left the reader.

  Key definitions include:
    * `Zinc.Reading`
    * `Zinc.Reading.attempt`
    * `Zinc.attempts`

  Main declarations:
    * `Zinc.keepsPlace_value`
    * `Zinc.keepsPlace_grid`
    * `Zinc.exists_positions`
-/

namespace Haystack

open Scan

/- A name that is refused is not passed. -/
theorem TagName.keepsPlace_scan : KeepsPlace TagName.scan := by
  intro c
  unfold TagName.scan
  dsimp only
  split
  · exact ⟨_, List.takeWhile_prefix isTagChar, rfl⟩
  · exact ⟨.refl c, rfl⟩

namespace Zinc

------------------------------------------------------------
-- Quoted Texts
------------------------------------------------------------

theorem keepsPlace_charOf (code : Nat) :
    KeepsPlace (charOf code) := by
  unfold charOf
  split_ifs
  · exact keepsPlace_pure _
  · exact keepsPlace_fail _

/- The second half of a pair may be missing or wrong. -/
theorem keepsPlace_unicodeEscape :
    KeepsPlace unicodeEscape := by
  unfold unicodeEscape
  refine keepsPlace_fourHexDigits.bind fun code => ?_
  refine keepsPlace_current_bind fun x => ?_
  refine keepsPlace_next_bind fun y => ?_
  split_ifs
  · refine KeepsPlace.advance_bind ?_
    refine KeepsPlace.advance_bind ?_
    refine keepsPlace_fourHexDigits.bind fun low => ?_
    split_ifs
    · exact keepsPlace_charOf _
    · exact keepsPlace_fail _
  · exact keepsPlace_charOf code

theorem keepsPlace_escaped : KeepsPlace escaped := by
  unfold escaped
  refine KeepsPlace.advance_bind ?_
  refine keepsPlace_current_bind fun x => ?_
  cases x with
  | none => exact keepsPlace_fail _
  | some c =>
      dsimp only
      cases shortEscape? c with
      | some d => exact (keepsPlace_pure d).advance_bind
      | none =>
          dsimp only
          split_ifs
          · exact keepsPlace_unicodeEscape.advance_bind
          · exact keepsPlace_fail _

theorem keepsPlace_quotedChar : KeepsPlace quotedChar? := by
  unfold quotedChar?
  refine keepsPlace_current_bind fun x => ?_
  cases x with
  | none => exact keepsPlace_fail _
  | some c =>
      dsimp only
      split_ifs
      · exact keepsPlace_pure none
      · exact keepsPlace_fail _
      · exact keepsPlace_escaped.bind_pure some
      · exact (keepsPlace_pure (some c)).advance_bind

theorem keepsPlace_quoted : KeepsPlace quoted := by
  unfold quoted
  refine KeepsPlace.advance_bind ?_
  refine keepsPlace_quotedChar.collect.bind fun chars => ?_
  exact (keepsPlace_pure _).advance_bind

------------------------------------------------------------
-- Enclosed Literals
------------------------------------------------------------

theorem keepsPlace_uriEscaped : KeepsPlace uriEscaped := by
  unfold uriEscaped
  refine keepsPlace_next_bind fun x => ?_
  cases x with
  | none => exact keepsPlace_fail _
  | some c =>
      dsimp only
      split_ifs
      · exact (keepsPlace_pure _).advance_bind.advance_bind
      · exact (keepsPlace_pure _).advance_bind.advance_bind
      · exact keepsPlace_escaped.bind_pure _
      · exact keepsPlace_fail _

theorem keepsPlace_uriPiece : KeepsPlace uriPiece? := by
  unfold uriPiece?
  refine keepsPlace_current_bind fun x => ?_
  cases x with
  | none => exact keepsPlace_fail _
  | some c =>
      dsimp only
      split_ifs
      · exact keepsPlace_fail _
      · exact keepsPlace_pure none
      · exact keepsPlace_uriEscaped.bind_pure some
      · exact (keepsPlace_pure (some [c])).advance_bind

theorem keepsPlace_uri : KeepsPlace uri := by
  unfold uri
  refine KeepsPlace.advance_bind ?_
  refine keepsPlace_uriPiece.collect.bind fun pieces => ?_
  exact (keepsPlace_construct _).advance_bind

theorem keepsPlace_bracketedChar (what : Enclosed) :
    KeepsPlace (bracketedChar? what) := by
  unfold bracketedChar?
  refine keepsPlace_current_bind fun x => ?_
  cases x with
  | none => exact keepsPlace_fail _
  | some c =>
      dsimp only
      split_ifs
      · exact keepsPlace_pure none
      · exact keepsPlace_fail _
      · exact (keepsPlace_pure (some c)).advance_bind

theorem keepsPlace_bracketed (what : Enclosed) :
    KeepsPlace (bracketed what) := by
  unfold bracketed
  refine (keepsPlace_expect '(' _).bind fun _ => ?_
  refine (keepsPlace_bracketedChar what).collect.bind fun _ => ?_
  exact (keepsPlace_pure _).advance_bind

------------------------------------------------------------
-- Words and References
------------------------------------------------------------

theorem keepsPlace_cellWord (word : String) :
    KeepsPlace (cellWord word) := by
  unfold cellWord
  split
  case h_7 =>
    refine (keepsPlace_bracketed .bin).bind fun name => ?_
    exact (keepsPlace_construct _).bind_pure _
  case h_8 =>
    refine (keepsPlace_bracketed .coord).bind fun inner => ?_
    exact (keepsPlace_construct _).bind_pure _
  case h_9 => exact keepsPlace_fail _
  all_goals exact keepsPlace_pure _

theorem keepsPlace_filterWord (word : String) :
    KeepsPlace (filterWord word) := by
  unfold filterWord
  split
  · exact keepsPlace_pure _
  · exact keepsPlace_pure _
  · exact keepsPlace_fail _

theorem keepsPlace_word (dialect : Dialect) :
    KeepsPlace (word dialect) := by
  unfold word
  refine keepsPlace_current_bind fun first => ?_
  refine KeepsPlace.advance_bind ?_
  refine (keepsPlace_span isAlpha).bind fun letters => ?_
  dsimp only
  split
  · exact keepsPlace_pure _
  · cases dialect with
    | zinc => exact keepsPlace_cellWord _
    | filter => exact keepsPlace_filterWord _

theorem keepsPlace_ref : KeepsPlace ref := by
  unfold ref
  refine KeepsPlace.advance_bind ?_
  refine (keepsPlace_span isIdChar).bind fun id => ?_
  refine keepsPlace_skipSpace.bind fun _ => ?_
  refine keepsPlace_current_bind fun x => ?_
  split_ifs
  · exact keepsPlace_quoted.bind fun _ => keepsPlace_construct _
  · exact keepsPlace_construct _

------------------------------------------------------------
-- Times
------------------------------------------------------------

theorem keepsPlace_millis : KeepsPlace millis := by
  unfold millis
  refine (keepsPlace_spanAtMost 3 isDigit).bind fun digits => ?_
  refine keepsPlace_current_bind fun x => ?_
  split_ifs
  · exact keepsPlace_fail _
  · exact keepsPlace_wants _
  · exact keepsPlace_pure _

theorem keepsPlace_timeFrom (hour : Nat) :
    KeepsPlace (timeFrom hour) := by
  unfold timeFrom
  refine (keepsPlace_expect ':' _).bind fun _ => ?_
  refine (keepsPlace_twoDigits _).bind fun minute => ?_
  refine (keepsPlace_expect ':' _).bind fun _ => ?_
  refine (keepsPlace_twoDigits _).bind fun second => ?_
  refine keepsPlace_current_bind fun x => ?_
  split_ifs
  · refine KeepsPlace.advance_bind ?_
    exact keepsPlace_millis.bind fun _ => keepsPlace_construct _
  · exact keepsPlace_construct _

theorem keepsPlace_hoursAndMinutes :
    KeepsPlace hoursAndMinutes := by
  unfold hoursAndMinutes
  refine (keepsPlace_twoDigits _).bind fun hours => ?_
  refine (keepsPlace_expect ':' _).bind fun _ => ?_
  exact (keepsPlace_twoDigits _).bind_pure _

theorem keepsPlace_zoneOffset : KeepsPlace zoneOffset := by
  unfold zoneOffset
  refine keepsPlace_current_bind fun x => ?_
  split
  · exact (keepsPlace_pure _).advance_bind
  · exact (keepsPlace_hoursAndMinutes.bind_pure _).advance_bind
  · exact keepsPlace_hoursAndMinutes.advance_bind
  · exact keepsPlace_wants _

/- The name of a zone is passed before it is looked up. -/
theorem keepsPlace_zoned
    (zones : ZoneTable)
    (date : Date)
    (time : Time) :
    KeepsPlace (zoned zones date time) := by
  unfold zoned
  refine keepsPlace_zoneOffset.bind fun offset => ?_
  refine keepsPlace_current_bind fun x => ?_
  refine keepsPlace_next_bind fun y => ?_
  split_ifs
  · refine KeepsPlace.advance_bind ?_
    refine (keepsPlace_span isZoneChar).bind fun name => ?_
    dsimp only
    split
    · exact keepsPlace_fail _
    · exact keepsPlace_construct _
  · exact keepsPlace_wants _
  · exact keepsPlace_construct _

------------------------------------------------------------
-- Numbers and What Starts Like Them
------------------------------------------------------------

/- The mark of an exponent is passed with what follows it. -/
theorem keepsPlace_numeralPiece :
    KeepsPlace numeralPiece? := by
  unfold numeralPiece?
  refine keepsPlace_current_bind fun x => ?_
  cases x with
  | none => exact keepsPlace_pure none
  | some c =>
      dsimp only
      split_ifs
      · exact (keepsPlace_pure (some [c])).advance_bind
      · exact (keepsPlace_pure (some [])).advance_bind
      · refine keepsPlace_next_bind fun y => ?_
        split_ifs
        · refine KeepsPlace.advance_bind ?_
          refine keepsPlace_current_bind fun next => ?_
          exact (keepsPlace_pure _).advance_bind
        · exact keepsPlace_pure none

theorem keepsPlace_numeral : KeepsPlace numeral := by
  unfold numeral
  refine keepsPlace_current_bind fun first => ?_
  refine KeepsPlace.advance_bind ?_
  exact keepsPlace_numeralPiece.collect.bind_pure _

theorem keepsPlace_dateFrom (year : List Char) :
    KeepsPlace (dateFrom year) := by
  unfold dateFrom
  cases int32OfNumeral? year with
  | none => exact keepsPlace_fail _
  | some y =>
      refine KeepsPlace.advance_bind ?_
      refine (keepsPlace_twoDigits _).bind fun month => ?_
      refine (keepsPlace_expect '-' _).bind fun _ => ?_
      refine (keepsPlace_twoDigits _).bind fun day => ?_
      exact keepsPlace_construct _

theorem keepsPlace_dated
    (zones : ZoneTable)
    (year : List Char) :
    KeepsPlace (dated zones year) := by
  unfold dated
  refine (keepsPlace_dateFrom year).bind fun date => ?_
  refine keepsPlace_current_bind fun x => ?_
  split_ifs
  · refine KeepsPlace.advance_bind ?_
    refine (keepsPlace_twoDigits _).bind fun hour => ?_
    refine (keepsPlace_timeFrom hour).bind fun time => ?_
    exact (keepsPlace_zoned zones date time).bind_pure _
  · exact keepsPlace_pure _

theorem keepsPlace_timed (hour : List Char) :
    KeepsPlace (timed hour) := by
  unfold timed
  split_ifs
  · exact (keepsPlace_timeFrom _).bind_pure _
  · exact keepsPlace_fail _

theorem keepsPlace_measured (digits : List Char) :
    KeepsPlace (measured digits) := by
  unfold measured
  cases Binary64.ofNumeral? digits with
  | none => exact keepsPlace_fail _
  | some x =>
      refine (keepsPlace_span isUnitChar).bind fun unit => ?_
      split_ifs
      · exact keepsPlace_pure _
      · exact (keepsPlace_construct _).bind_pure _

theorem keepsPlace_numeric (zones : ZoneTable) :
    KeepsPlace (numeric zones) := by
  unfold numeric
  refine keepsPlace_numeral.bind fun digits => ?_
  refine keepsPlace_current_bind fun x => ?_
  split
  · exact keepsPlace_dated zones digits
  · exact keepsPlace_timed digits
  · exact keepsPlace_measured digits

/- The readers of all values keep their place. -/
theorem keepsPlace_value
    (zones : ZoneTable)
    (dialect : Dialect) :
    KeepsPlace (value zones dialect) := by
  unfold value
  refine keepsPlace_current_bind fun x => ?_
  cases x with
  | none => exact keepsPlace_wants _
  | some c =>
      refine keepsPlace_next_bind fun next => ?_
      split_ifs
      · exact (keepsPlace_numeric zones).bind_pure some
      · exact keepsPlace_word dialect
      · exact keepsPlace_ref.bind_pure _
      · exact keepsPlace_quoted.bind_pure _
      · exact keepsPlace_uri.bind_pure _
      · exact keepsPlace_word dialect
      · exact (keepsPlace_numeric zones).bind_pure some
      · exact keepsPlace_wants _

------------------------------------------------------------
-- Tags
------------------------------------------------------------

variable (zones : ZoneTable)

/- What stands behind the name of a tag. -/
theorem keepsPlace_behindTagName (name : String) :
    KeepsPlace (do
      skipSpace
      if (← current?) = some ':' then
        advance
        skipSpace
        let v ← value zones .zinc
        skipSpace
        return some (name, v)
      else return some (name, some .marker)) := by
  refine keepsPlace_skipSpace.bind fun _ => ?_
  refine keepsPlace_current_bind fun y => ?_
  split_ifs
  · refine KeepsPlace.advance_bind ?_
    refine keepsPlace_skipSpace.bind fun _ => ?_
    refine (keepsPlace_value zones .zinc).bind fun v => ?_
    exact keepsPlace_skipSpace.bind_pure _
  · exact keepsPlace_pure _

theorem keepsPlace_tag : KeepsPlace (tag? zones) := by
  unfold tag?
  refine keepsPlace_current_bind fun x => ?_
  split_ifs
  · refine TagName.keepsPlace_scan.bind fun name => ?_
    exact keepsPlace_behindTagName zones name.text
  · exact keepsPlace_pure none

theorem keepsPlace_tags : KeepsPlace (tags zones) :=
  (keepsPlace_tag zones).collect.bind_pure recordOf

theorem keepsPlace_diffTag : KeepsPlace (diffTag? zones) := by
  unfold diffTag?
  refine keepsPlace_current_bind fun x => ?_
  split_ifs
  · refine TagName.keepsPlace_scan.bind fun name => ?_
    refine keepsPlace_current_bind fun y => ?_
    have hRest : ∀ v : Option Value,
        KeepsPlace (do
          skipSpace
          if (← current?) = some ',' then
            advance
            skipSpace
          return some (name.text, v)) := by
      intro v
      refine keepsPlace_skipSpace.bind fun _ => ?_
      refine keepsPlace_current_bind fun z => ?_
      dsimp only
      split_ifs
      · exact (keepsPlace_skipSpace.bind_pure _).advance_bind
      · exact keepsPlace_pure _
    split_ifs
    · refine KeepsPlace.advance_bind ?_
      exact (keepsPlace_value zones .zinc).bind hRest
    · exact hRest _
  · exact keepsPlace_pure none

------------------------------------------------------------
-- Columns and Rows
------------------------------------------------------------

theorem keepsPlace_column (known : List String) :
    KeepsPlace (column zones known) := by
  unfold column
  refine TagName.keepsPlace_scan.bind fun name => ?_
  refine KeepsPlace.ite_bind (keepsPlace_fail _) ?_
  refine keepsPlace_skipSpace.bind fun _ => ?_
  exact (keepsPlace_tags zones).discard.bind_pure _

theorem keepsPlace_nextColumn (known : List String) :
    KeepsPlace (nextColumn? zones known) := by
  unfold nextColumn?
  refine keepsPlace_current_bind fun x => ?_
  split_ifs
  · refine KeepsPlace.advance_bind ?_
    refine keepsPlace_skipSpace.bind fun _ => ?_
    exact (keepsPlace_column zones known).bind_pure _
  · exact keepsPlace_pure none

theorem keepsPlace_columns : KeepsPlace (columns zones) := by
  unfold columns
  refine (keepsPlace_column zones []).bind fun first => ?_
  refine KeepsPlace.bind_pure ?_ _
  exact KeepsPlace.iterate (keepsPlace_nextColumn zones) [first]

theorem keepsPlace_cell : KeepsPlace (cell zones) := by
  unfold cell
  refine keepsPlace_skipSpace.bind fun _ => ?_
  refine keepsPlace_current_bind fun next => ?_
  have hRest : ∀ v : Option Value,
      KeepsPlace (skipSpace >>= fun _ => pure v) :=
    fun v => keepsPlace_skipSpace.bind_pure fun _ => v
  dsimp only
  split_ifs
  · exact hRest none
  · exact (keepsPlace_value zones .zinc).bind hRest

/- One cell after the other, as many as there are names. -/
theorem keepsPlace_cells (names : List String) :
    KeepsPlace (cells zones names) := by
  induction names using cells.induct with
  | case1 => exact keepsPlace_pure []
  | case2 name => exact (keepsPlace_cell zones).bind_pure _
  | case3 name names hNames ih =>
      rw [cells]
      · refine (keepsPlace_cell zones).bind fun v => ?_
        refine (keepsPlace_expect ',' _).bind fun _ => ?_
        exact ih.bind_pure _
      · exact hNames

theorem keepsPlace_row (names : List String) :
    KeepsPlace (row zones names) := by
  unfold row
  refine (keepsPlace_cells zones names).bind fun tags => ?_
  refine keepsPlace_current_bind fun x => ?_
  exact KeepsPlace.ite_bind keepsPlace_newline (keepsPlace_pure _)

theorem keepsPlace_row? (names : List String) :
    KeepsPlace (row? zones names) := by
  unfold row?
  refine keepsPlace_current_bind fun x => ?_
  split_ifs
  · exact keepsPlace_pure none
  · exact (keepsPlace_row zones names).bind_pure some

------------------------------------------------------------
-- Grids
------------------------------------------------------------

/- What stands behind the word that grids start with. -/
theorem keepsPlace_versionNumber :
    KeepsPlace (do
      expect ':' .versionColon
      if (← current?) ≠ some '"' then wants .versionQuote
      let number ← quoted
      if number ≠ "2.0" then fail (.version number)
      skipSpace) := by
  refine (keepsPlace_expect ':' _).bind fun _ => ?_
  refine keepsPlace_current_bind fun x => ?_
  refine KeepsPlace.ite_bind (keepsPlace_wants _) ?_
  refine keepsPlace_quoted.bind fun number => ?_
  refine KeepsPlace.ite_bind (keepsPlace_fail _) ?_
  exact keepsPlace_skipSpace

theorem keepsPlace_version : KeepsPlace version := by
  unfold version
  refine TagName.keepsPlace_scan.bind fun name => ?_
  refine KeepsPlace.ite_bind (keepsPlace_fail _) ?_
  exact keepsPlace_versionNumber

theorem keepsPlace_grid : KeepsPlace (grid zones) := by
  unfold grid
  refine keepsPlace_version.bind fun _ => ?_
  refine (keepsPlace_tags zones).bind fun metadata => ?_
  refine keepsPlace_newline.bind fun _ => ?_
  refine (keepsPlace_columns zones).bind fun names => ?_
  refine keepsPlace_newline.bind fun _ => ?_
  refine (keepsPlace_row? zones names).collect.bind fun rows => ?_
  refine keepsPlace_current_bind fun x => ?_
  exact KeepsPlace.ite_bind keepsPlace_advance (keepsPlace_pure _)

theorem keepsPlace_grids : KeepsPlace (grids zones) := by
  refine KeepsPlace.collect ?_
  unfold grid?
  refine keepsPlace_current_bind fun x => ?_
  split_ifs
  · exact (keepsPlace_grid zones).bind_pure some
  · exact keepsPlace_pure none

theorem keepsPlace_scalar : KeepsPlace (scalar zones) := by
  refine (keepsPlace_value zones .zinc).bind fun v => ?_
  exact keepsPlace_finish.bind_pure _

theorem keepsPlace_dict : KeepsPlace (dict zones) := by
  refine keepsPlace_skipSpace.bind fun _ => ?_
  refine (keepsPlace_tags zones).bind fun record => ?_
  exact keepsPlace_finish.bind_pure _

theorem keepsPlace_diff : KeepsPlace (diff zones) := by
  refine keepsPlace_skipSpace.bind fun _ => ?_
  refine (keepsPlace_diffTag zones).collect.bind fun _ => ?_
  exact keepsPlace_finish.bind_pure _

------------------------------------------------------------
-- Sequences of Readings
------------------------------------------------------------

/- What can be asked for, wherever the reader stands. -/
inductive Reading where
| advance
| skipSpace
| newline
| name
| quoted
| value (dialect : Dialect)
| finish
deriving DecidableEq, Repr

/- The reader that is asked, without what it gives. -/
def Reading.scan : Reading → Scan Unit
| .advance => Scan.advance
| .skipSpace => Scan.skipSpace
| .newline => Scan.newline
| .name => discard TagName.scan
| .quoted => discard Zinc.quoted
| .value dialect => discard (Zinc.value zones dialect)
| .finish => Scan.finish

/- The error, if there is one, and the place left behind. -/
structure Outcome where
  error? : Option Error
  place : Cursor
deriving Repr

/- What comes of a reading, also of one that fails. -/
def Reading.attempt
    (reading : Reading)
    (c : Cursor) : Outcome :=
  match reading.scan zones c with
  | .ok _ d => ⟨none, d⟩
  | .error e d => ⟨some e, d⟩

/-
  What comes of each of some readings. One starts where the
  one before has left the reader, whether it failed or not.
-/
def attempts : List Reading → Cursor → List Outcome
| [], _ => []
| reading :: readings, c =>
    let outcome := reading.attempt zones c
    outcome :: attempts readings outcome.place

theorem Reading.keepsPlace_scan (reading : Reading) :
    KeepsPlace (reading.scan zones) := by
  cases reading with
  | advance => exact keepsPlace_advance
  | skipSpace => exact keepsPlace_skipSpace
  | newline => exact keepsPlace_newline
  | name => exact TagName.keepsPlace_scan.discard
  | quoted => exact keepsPlace_quoted.discard
  | value dialect =>
      exact (keepsPlace_value zones dialect).discard
  | finish => exact keepsPlace_finish

/- One reading moves on, and tells the line of its error. -/
theorem Reading.reaches_attempt
    (reading : Reading)
    (c : Cursor) :
    c.Reaches (reading.attempt zones c).place ∧
      ∀ e ∈ (reading.attempt zones c).error?,
        e.line? = some (reading.attempt zones c).place.line := by
  have hKeeps := reading.keepsPlace_scan zones
  unfold Reading.attempt
  cases hResult : reading.scan zones c with
  | ok a d => exact ⟨hKeeps.stops hResult, by simp⟩
  | error e d =>
      have hStops := hKeeps.stops hResult
      exact ⟨hStops.1, by simpa using hStops.2⟩

/-
  From a position on, readings never go back. Each of them
  ends at a position of the text, and an error has the line
  of the place that it leaves behind.
-/
theorem exists_positions_of_isAt
    {text : String}
    (readings : List Reading)
    {position : Nat}
    {c : Cursor}
    (hc : c.IsAt text position) :
    ∃ positions : List Nat,
      (position :: positions).Pairwise (· ≤ ·) ∧
      List.Forall₂ (fun n o => o.place.IsAt text n)
        positions (attempts zones readings c) ∧
      ∀ o ∈ attempts zones readings c,
        ∀ e ∈ o.error?, e.line? = some o.place.line := by
  induction readings generalizing position c with
  | nil => exact ⟨[], by simp, .nil, by simp [attempts]⟩
  | cons reading readings ih =>
      rcases reading.reaches_attempt zones c with
        ⟨hReaches, hLine⟩
      rcases hc.exists_position hReaches with
        ⟨next, hLe, hNext⟩
      rcases ih hNext with
        ⟨later, hOrder, hPlaces, hLines⟩
      refine ⟨next :: later, ?_, .cons hNext hPlaces, ?_⟩
      · refine List.pairwise_cons.mpr ⟨?_, hOrder⟩
        intro n hn
        rcases List.mem_cons.mp hn with rfl | hn
        · exact hLe
        · exact
            Nat.le_trans hLe
              (List.rel_of_pairwise_cons hOrder hn)
      · exact List.forall_mem_cons.mpr ⟨hLine, hLines⟩

/-
  Whatever is read of a text, one after the other and also
  where it fails, the places before, between and after stand
  at positions of the text that never go back.
-/
theorem exists_positions
    (text : String)
    (readings : List Reading) :
    ∃ positions : List Nat,
      positions.Pairwise (· ≤ ·) ∧
      List.Forall₂ (fun n c => c.IsAt text n) positions
        (Cursor.ofText text ::
          (attempts zones readings (.ofText text)).map
            Outcome.place) ∧
      ∀ o ∈ attempts zones readings (.ofText text),
        ∀ e ∈ o.error?, e.line? = some o.place.line := by
  have hStart := Cursor.isAt_ofText text
  rcases exists_positions_of_isAt zones readings hStart with
    ⟨positions, hOrder, hPlaces, hLines⟩
  refine ⟨0 :: positions, hOrder, .cons hStart ?_, hLines⟩
  exact List.forall₂_map_right_iff.mpr hPlaces

/- A line end is no name, and is found where it stands. -/
theorem exists_positions_names :
    ∃ o ∈
        attempts .builtin [.name, .name, .newline, .name]
          (.ofText "a\nb"),
      ∃ e ∈ o.error?, e.line? = some o.place.line := by
  rcases exists_positions .builtin "a\nb"
      [.name, .name, .newline, .name] with
    ⟨positions, -, -, hLines⟩
  have hMem :
      (⟨some (.parse ⟨.expected .tagStart (some '\n'), 1⟩),
          ⟨['\n', 'b'], 1⟩⟩ : Outcome) ∈
        attempts .builtin [.name, .name, .newline, .name]
          (.ofText "a\nb") :=
    List.mem_cons_of_mem _ List.mem_cons_self
  exact ⟨_, hMem, _, rfl, hLines _ hMem _ rfl⟩

/- The reader goes on before the line end. -/
example :
    attempts .builtin [.name, .name, .newline, .name]
        (.ofText "a\nb") =
      [ ⟨none, ⟨['\n', 'b'], 1⟩⟩,
        ⟨some (.parse ⟨.expected .tagStart (some '\n'), 1⟩),
          ⟨['\n', 'b'], 1⟩⟩,
        ⟨none, ⟨['b'], 2⟩⟩, ⟨none, ⟨[], 2⟩⟩] := by
  rfl

end Zinc

end Haystack
