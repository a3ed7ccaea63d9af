import Haystack.Proofs.Zinc.RoundTrip

/-
  This file shows that a stream of grids is read back grid by
  grid: a blank line ends each grid but the last, and none of
  the lines of a grid is blank.

  Key definitions include:
    * `Zinc.streamText`

  Main declarations:
    * `Zinc.reads_streamText`
    * `Zinc.decodeAll_intercalate`
-/

namespace Haystack

namespace Zinc

open Scan

/- The texts of grids with a blank line between two. -/
def streamText (gs : List Grid) : List Char :=
  List.intercalate ['\n'] (gs.map gridText)

/- The text of a grid, and what follows it in a stream. -/
theorem exists_ending_streamText
    (g : Grid)
    (gs : List Grid) :
    ∃ ending,
      streamText (g :: gs) =
          (gridText g ++ ending) ++ streamText gs ∧
        (ending = [] ∧ streamText gs = [] ∨ ending = ['\n']) := by
  cases gs with
  | nil => exact ⟨[], by simp [streamText], .inl ⟨rfl, rfl⟩⟩
  | cons next gs => exact ⟨['\n'], by simp [streamText], .inr rfl⟩

/- The text of a grid is not empty. -/
theorem gridText_ne_nil (g : Grid) : gridText g ≠ [] := by
  rcases gridText_eq g with ⟨_, _, _, hText⟩
  simp [hText]

/- One grid of a stream is read up to where the next starts. -/
theorem reads_grid?
    {zones : ZoneTable}
    {g : Grid}
    (hg : g.IsReadable zones)
    (hText : g.HasLegibleText)
    {ending rest : List Char}
    (hEnd : ending = [] ∧ rest = [] ∨ ending = ['\n']) :
    Reads (grid? zones) (gridText g ++ ending)
      (some (g.asRead zones)) rest := by
  have hSome :
      ((gridText g ++ ending) ++ rest).head?.isSome = true := by
    cases hStart : gridText g with
    | nil => exact absurd hStart (gridText_ne_nil g)
    | cons c cs => rfl
  unfold grid?
  rw [reads_current_bind, if_pos hSome]
  exact (reads_grid hg hText hEnd).bind_pure some

/-
  By induction on the grids of a stream: they are collected
  one after the other to the end.
-/
theorem reads_streamText
    {zones : ZoneTable}
    {gs : List Grid}
    (hgs : ∀ g ∈ gs, g.IsReadable zones ∧ g.HasLegibleText) :
    Reads (grids zones) (streamText gs)
      (gs.map (Grid.asRead zones)) [] := by
  unfold grids
  apply CollectsOn.reads
  induction gs with
  | nil => exact .stop (reads_pure none [])
  | cons g gs ih =>
      rw [List.forall_mem_cons] at hgs
      rcases exists_ending_streamText g gs with
        ⟨ending, hStream, hEnd⟩
      rw [hStream]
      refine .next ?_ ?_ (ih hgs.2)
      · rw [List.append_nil]
        exact reads_grid? hgs.1.1 hgs.1.2 hEnd
      · simp [gridText_ne_nil g]

/- All grids of a stream are read back from their texts. -/
theorem decodeAll_intercalate
    {gs : List Grid}
    (hgs :
      ∀ g ∈ gs, g.IsReadable .builtin ∧ g.HasLegibleText) :
    decodeAll (String.intercalate "\n" (gs.map encode)) =
      .ok (gs.map (Grid.asRead .builtin)) := by
  have hText :
      (String.intercalate "\n" (gs.map encode)).toList =
        streamText gs := by
    rw [String.toList_intercalate, List.map_map, streamText]
    congr 1
    apply List.map_congr_left
    intro g _
    exact String.toList_ofList
  have hRead := (reads_streamText hgs).readAll_eq
  rwa [← hText, String.ofList_toList] at hRead

end Zinc

end Haystack
