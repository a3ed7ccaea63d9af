import Haystack.Filter.Reading
import Haystack.Proofs.Zinc.Places

/-
  This file shows that the reader of filters keeps to the
  lines of the text, and that whatever a text is refused as,
  it is refused with an error of reading on one of its lines.

  Main declarations:
    * `Filter.keepsLines_predicate`
    * `Filter.keepsLines_scan`
    * `Filter.isOnLineOf_of_refused`
-/

namespace Haystack

open Scan

------------------------------------------------------------
-- Conditions on One Path
------------------------------------------------------------

/- Names are passed as far as arrows lead on. -/
theorem Path.keepsPlace_scan : KeepsPlace Path.scan := by
  unfold Path.scan
  refine TagName.keepsPlace_scan.bind fun first => ?_
  refine KeepsPlace.bind_pure (KeepsPlace.collect ?_) _
  unfold hop?
  refine keepsPlace_current_bind fun x => ?_
  refine keepsPlace_next_bind fun y => ?_
  split_ifs
  · refine KeepsPlace.advance_bind ?_
    refine KeepsPlace.advance_bind ?_
    exact TagName.keepsPlace_scan.bind_pure some
  · exact keepsPlace_pure none

namespace Filter

theorem keepsPlace_advanceBy (count : Nat) :
    KeepsPlace (advanceBy count) := by
  induction count with
  | zero => exact keepsPlace_pure ()
  | succ count ih => exact KeepsPlace.advance_bind ih

theorem keepsPlace_operator : KeepsPlace operator? := by
  unfold operator?
  refine keepsPlace_current_bind fun x => ?_
  refine keepsPlace_next_bind fun y => ?_
  split
  · exact keepsPlace_pure none
  · refine (keepsPlace_advanceBy _).bind fun _ => ?_
    exact keepsPlace_skipSpace.bind_pure _

variable (zones : ZoneTable)

/-
  A value that is missing is refused where it was to end.
-/
theorem keepsPlace_operand : KeepsPlace (operand zones) := by
  refine (Zinc.keepsPlace_value zones .filter).bind fun v => ?_
  cases v with
  | none => exact keepsPlace_fail _
  | some v => exact keepsPlace_pure v

/-
  A pattern is refused on the line where it starts. All other
  errors have the line of the place that is left behind.
-/
theorem keepsLines_like
    (path : Path)
    (ignoreCase : Bool) :
    KeepsLines (do
      let line ← line
      let pattern ← operand zones
      constructAt line
        (orFilterError (ofLike path pattern ignoreCase))) := by
  intro c
  rw [line_bind_apply, bind_apply]
  have hOperand := keepsPlace_operand zones
  cases hResult : operand zones c with
  | error e d => exact hOperand.keepsLines.stops hResult
  | ok v d =>
      exact
        stopsInLines_constructAt _ (.refl c)
          (hOperand.stops hResult)

/- Only a pattern can be refused on an earlier line. -/
theorem keepsLines_predicate :
    KeepsLines (predicate zones) := by
  have hOperand := (keepsPlace_operand zones).keepsLines
  unfold predicate
  refine Path.keepsPlace_scan.keepsLines.bind fun path => ?_
  refine keepsPlace_skipSpace.keepsLines.bind fun _ => ?_
  split_ifs
  · exact (Path.keepsPlace_scan.bind_pure _).keepsLines
  · refine keepsPlace_operator.keepsLines.bind fun op => ?_
    split
    · exact (keepsPlace_pure _).keepsLines
    · exact hOperand.bind_pure _
    · exact keepsLines_like zones path _

------------------------------------------------------------
-- Joined Filters
------------------------------------------------------------

theorem keepsPlace_joined (word : Keyword) :
    KeepsPlace (joined word) := by
  unfold joined
  refine keepsPlace_skipSpace.bind fun _ => ?_
  refine keepsPlace_current_bind fun x => ?_
  split_ifs
  · refine TagName.keepsPlace_scan.bind fun name => ?_
    refine KeepsPlace.ite_bind (keepsPlace_fail _) ?_
    exact keepsPlace_skipSpace.bind_pure _
  · exact keepsPlace_pure false

/- Part after part the reader keeps to the lines. -/
theorem keepsLines_chain
    {part : Scan Filter}
    (hPart : KeepsLines part)
    (word : Keyword) :
    KeepsLines (chain word part) := by
  refine hPart.bind fun first => ?_
  refine KeepsLines.iterate (fun left => ?_) first
  unfold nextPart?
  refine (keepsPlace_joined word).keepsLines.bind ?_
  intro isJoined
  split_ifs
  · exact hPart.bind_pure _
  · exact (keepsPlace_pure none).keepsLines

theorem keepsLines_anyOf
    {atom : Scan Filter}
    (hAtom : KeepsLines atom) :
    KeepsLines (anyOf atom) :=
  keepsLines_chain (keepsLines_chain hAtom .and) .or

/- However deep a filter may be nested. -/
theorem keepsLines_atomWithin (bound : List Char) :
    KeepsLines (atomWithin zones bound) := by
  have hSpace := keepsPlace_skipSpace.keepsLines
  have hAdvance := keepsPlace_advance.keepsLines
  induction bound with
  | nil => exact keepsLines_predicate zones
  | cons x bound ih =>
      unfold atomWithin
      refine hSpace.bind fun _ => ?_
      refine KeepsLines.bind (fun c => .refl c) fun y => ?_
      refine KeepsLines.bind (fun c => .refl c) fun z => ?_
      split
      · refine hAdvance.bind fun _ => ?_
        refine hSpace.bind fun _ => ?_
        refine (keepsLines_anyOf ih).bind fun f => ?_
        refine hSpace.bind fun _ => ?_
        exact ((keepsPlace_expect ')' _).bind_pure _).keepsLines
      · exact hAdvance.bind_pure _
      · split_ifs
        · exact keepsLines_predicate zones
        · exact hAdvance.bind fun _ => ih.bind_pure not
      · exact keepsLines_predicate zones

------------------------------------------------------------
-- Whole Texts
------------------------------------------------------------

/-
  The reader of whole filters stops on lines it has passed.
-/
theorem keepsLines_scan : KeepsLines (scan zones) := by
  have hSpace := keepsPlace_skipSpace.keepsLines
  unfold scan
  refine hSpace.bind fun _ => ?_
  refine KeepsLines.bind ?_ fun f => ?_
  · exact fun c =>
      keepsLines_anyOf (keepsLines_atomWithin zones c.rest) c
  · refine hSpace.bind fun _ => ?_
    exact (keepsPlace_finish.bind_pure _).keepsLines

/-
  Errors of values and of filters do not get out of a reader.
  A text that is refused as a grid, as grids, as a value, as
  a record, as changes or as a filter is refused with an
  error of reading, on one of its lines.
-/
theorem isOnLineOf_of_refused
    (text : String)
    (e : Error) :
    (readAll (Zinc.grid zones) text = .error e →
      e.IsOnLineOf text) ∧
    (readAll (Zinc.grids zones) text = .error e →
      e.IsOnLineOf text) ∧
    (readAll (Zinc.scalar zones) text = .error e →
      e.IsOnLineOf text) ∧
    (readAll (Zinc.dict zones) text = .error e →
      e.IsOnLineOf text) ∧
    (readAll (Zinc.diff zones) text = .error e →
      e.IsOnLineOf text) ∧
    (readAll (scan zones) text = .error e →
      e.IsOnLineOf text) :=
  ⟨(Zinc.keepsPlace_grid zones).keepsLines.isOnLineOf,
    (Zinc.keepsPlace_grids zones).keepsLines.isOnLineOf,
    (Zinc.keepsPlace_scalar zones).keepsLines.isOnLineOf,
    (Zinc.keepsPlace_dict zones).keepsLines.isOnLineOf,
    (Zinc.keepsPlace_diff zones).keepsLines.isOnLineOf,
    (keepsLines_scan zones).isOnLineOf⟩

/- A grid with a month that is none, which is no filter. -/
def monthText : String :=
  "ver:\"2.0\"\na\n2020-13-01\n"

/-
  The month is refused by the constructor of dates, and all
  other readers stop at the first line.
-/
theorem isOnLineOf_monthText :
    (∃ e : Error,
      readAll (Zinc.grid .builtin) monthText = .error e ∧
        e.IsOnLineOf monthText) ∧
    (∃ e : Error,
      readAll (Zinc.grids .builtin) monthText = .error e ∧
        e.IsOnLineOf monthText) ∧
    (∃ e : Error,
      readAll (Zinc.scalar .builtin) monthText = .error e ∧
        e.IsOnLineOf monthText) ∧
    (∃ e : Error,
      readAll (Zinc.dict .builtin) monthText = .error e ∧
        e.IsOnLineOf monthText) ∧
    (∃ e : Error,
      readAll (Zinc.diff .builtin) monthText = .error e ∧
        e.IsOnLineOf monthText) ∧
    ∃ e : Error,
      readAll (scan .builtin) monthText = .error e ∧
        e.IsOnLineOf monthText := by
  have hLine := isOnLineOf_of_refused .builtin monthText
  refine ⟨⟨_, rfl, (hLine _).1 rfl⟩, ?_⟩
  refine ⟨⟨_, rfl, (hLine _).2.1 rfl⟩, ?_⟩
  refine ⟨⟨_, rfl, (hLine _).2.2.1 rfl⟩, ?_⟩
  refine ⟨⟨_, rfl, (hLine _).2.2.2.1 rfl⟩, ?_⟩
  refine ⟨⟨_, rfl, (hLine _).2.2.2.2.1 rfl⟩, ?_⟩
  exact ⟨_, rfl, (hLine _).2.2.2.2.2 rfl⟩

/- What is wrong with a part is told as wrong to read. -/
example :
    Zinc.decodeValue "@" =
      .error (.parse ⟨.value (.refId ""), 1⟩) ∧
    parse "name ~ 5" =
      .error (.parse ⟨.filter .likeNotText, 1⟩) :=
  ⟨rfl, rfl⟩

end Filter

end Haystack
