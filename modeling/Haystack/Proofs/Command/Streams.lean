import Haystack.Command.Basic
import Haystack.Proofs.Json.OneLine
import Haystack.Proofs.Json.Sorted
import Haystack.Proofs.Zinc.Exact
import Haystack.Proofs.Zinc.Streams

/-
  This file shows that a stream of grids is converted grid by
  grid to lines of JSON, each the document of the grid that
  was written, whatever rows and columns it has.

  Main declarations:
    * `Grid.IsExact.jsonText_asRead`
    * `convert_intercalate`
-/

namespace Haystack

/-
  The JSON of a grid does not show that its rows were read in
  the order of the columns.
-/
theorem Grid.IsExact.jsonText_asRead
    {g : Grid}
    (hg : g.IsExact)
    (zones : ZoneTable) :
    (g.asRead zones).jsonText = g.jsonText := by
  have hRows :
      (g.asRead zones).rows.map Record.toJson =
        g.rows.map Record.toJson := by
    rw [Grid.asRead, List.map_map]
    apply List.map_congr_left
    intro row hRow
    have hPerm := hg.perm_asRow zones hRow
    exact
      Record.toJson_eq_of_perm
        ((hg.of_mem_rows hRow).of_perm hPerm).1 hPerm
  unfold jsonText toJson
  rw [hRows, hg.metadata_asRead]

/- A grid in JSON is on one line. -/
theorem Grid.newline_not_mem_jsonText (g : Grid) :
    '\n' ∉ g.jsonText.toList := by
  rw [jsonText, String.toList_ofList]
  exact Json.newline_not_mem_compact g.toJson

/- A text of grids is converted to one document for each. -/
theorem convert_of_decodeAll
    {source : String}
    {gs : List Grid}
    (hDecode : Zinc.decodeAll source = .ok gs) :
    convert ⟨false, false⟩ (some source) =
      .ok (String.intercalate "\n" (gs.map Grid.jsonText)) := by
  have hNeed :
      CommandError.need (some source) = pure source :=
    rfl
  simp only [convert, hNeed, pure_bind, hDecode]
  rfl

/-
  A stream of grids is converted to their documents, one on
  each line, and the lines are nothing but the documents.
-/
theorem convert_intercalate
    {gs : List Grid}
    (hNe : gs ≠ [])
    (hgs : ∀ g ∈ gs, g.IsExact) :
    let stream := String.intercalate "\n" (gs.map Zinc.encode)
    let documents := gs.map Grid.jsonText
    ∃ out,
      convert ⟨false, false⟩ (some stream) = .ok out ∧
        out = String.intercalate "\n" documents ∧
        (out.split '\n').toList.map (·.copy) = documents := by
  intro stream documents
  have hDecode :
      Zinc.decodeAll stream =
        .ok (gs.map (Grid.asRead .builtin)) := by
    apply Zinc.decodeAll_intercalate
    intro g hg
    have hRead := (hgs g hg).isPortable.isReadable
    exact ⟨hRead.1, hRead.2.1⟩
  have hDocuments :
      (gs.map (Grid.asRead .builtin)).map Grid.jsonText =
        documents := by
    rw [List.map_map]
    apply List.map_congr_left
    intro g hg
    exact (hgs g hg).jsonText_asRead .builtin
  have hConvert := convert_of_decodeAll hDecode
  rw [hDocuments] at hConvert
  refine ⟨_, hConvert, rfl, ?_⟩
  have hLines : ∀ document ∈ documents,
      '\n' ∉ document.toList := by
    intro document hDocument
    rcases List.mem_map.mp hDocument with ⟨g, -, rfl⟩
    exact g.newline_not_mem_jsonText
  have hSome : documents ≠ [] := by
    simpa [documents] using hNe
  exact
    (String.toList_split_intercalate hLines).trans
      (if_neg hSome)

/- Nothing is said about this grid, and it has no rows. -/
def bareGrid : Grid :=
  ⟨⟨[]⟩, []⟩

/-
  A row without any tag, and rows of which the second has the
  columns of the first in another order.
-/
def roomGrid : Grid :=
  ⟨⟨[("dis", .str "A\nB")]⟩,
    [⟨[]⟩,
      ⟨[("room", .marker),
        ("area", .number ⟨.ofInt 12, some ⟨"ft", rfl⟩⟩)]⟩,
      ⟨[("area", .na),
        ("room", .ref ⟨"r", some "R", rfl⟩)]⟩]⟩

def roomDocuments : List String :=
  ["\x7b\"rows\":[]\x7d",
    "\x7b\"meta\":\x7b\"dis\":\"A\\nB\"\x7d,\"rows\":[" ++
      "\x7b\x7d,\x7b\"area\":\"n:12 ft\",\"room\":\"m:\"\x7d," ++
      "\x7b\"area\":\"z:\",\"room\":\"r:r R\"\x7d]\x7d",
    "\x7b\"rows\":[]\x7d"]

/-
  Three grids in a row, two of them alike, give three lines.
-/
theorem convert_roomGrid :
    ∃ out,
      convert ⟨false, false⟩
          (some
            (String.intercalate "\n"
              ([bareGrid, roomGrid, bareGrid].map
                Zinc.encode))) =
        .ok out ∧
      out = String.intercalate "\n" roomDocuments ∧
      (out.split '\n').toList.map (·.copy) = roomDocuments := by
  have hDocuments :
      [bareGrid, roomGrid, bareGrid].map Grid.jsonText =
        roomDocuments := by
    rfl
  have hExact :
      ∀ g ∈ [bareGrid, roomGrid, bareGrid], g.IsExact := by
    decide
  have hConvert := convert_intercalate (by simp) hExact
  rwa [hDocuments] at hConvert

end Haystack
