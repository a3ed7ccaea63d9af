import Haystack.Command.Basic
import Haystack.Proofs.Json.Given
import Haystack.Proofs.Zinc.LineEnds
import Haystack.Proofs.Zinc.Rereading

/-
  This file shows that the conversion from JSON does not
  change a grid unnoticed, if what JSON leaves free is kept
  to what the text of a grid can show: names of tags, units
  that are read as units, and URIs that are spelled out.

  All other values are written so that they are read again,
  or so that the reader fails on them.

  Key definitions include:
    * `Value.IsFromJson`
    * `Value.IsPlain`
    * `Grid.IsPlain`

  Main declarations:
    * `Grid.fromJson_of_ofJsonText`
    * `Zinc.same_of_decode_encode`
    * `same_of_decode_convert`
-/

namespace Haystack

------------------------------------------------------------
-- What Stands in JSON
------------------------------------------------------------

/- A document without numbers that are none stands for it. -/
def Value.IsFromJson (v : Value) : Prop :=
  ∃ json : Json, json.HasNumbers ∧ ofJson json = .ok (some v)

/- The record was made from values of a document. -/
def Record.IsFromJson (r : Record) : Prop :=
  r.HasUniqueKeys ∧ ∀ e ∈ r.entries, e.2.IsFromJson

theorem Value.fromJson_of_entriesOf
    {members : List (String × Json)}
    {entries : List (String × Value)}
    (hMembers : ∀ m ∈ members, m.2.HasNumbers)
    (h : entriesOf members = .ok entries) :
    ∀ e ∈ entries, e.2.IsFromJson := by
  induction members generalizing entries with
  | nil =>
      cases h
      simp
  | cons m members ih =>
      rcases m with ⟨key, json⟩
      rw [List.forall_mem_cons] at hMembers
      rw [entriesOf] at h
      rcases except_bind_eq_ok.mp h with ⟨made, hMade, h⟩
      cases made with
      | none => exact ih hMembers.2 h
      | some v =>
          rcases except_map_eq_ok.mp h with ⟨rest, hRest, rfl⟩
          rw [List.forall_mem_cons]
          exact
            ⟨⟨json, hMembers.1, hMade⟩, ih hMembers.2 hRest⟩

/- A record of a document has values of that document. -/
theorem Record.fromJson_of_ofJson
    {json : Json}
    {r : Record}
    (hJson : json.HasNumbers)
    (h : ofJson json = .ok r) :
    r.IsFromJson := by
  cases hJson with
  | object hMembers =>
      rw [ofJson] at h
      rcases except_map_eq_ok.mp h with ⟨entries, hEntries, rfl⟩
      exact
        ⟨Dict.hasUniqueKeys_ofEntries entries,
          Dict.forall_entries_ofEntries
            (Value.fromJson_of_entriesOf hMembers hEntries)⟩
  | _ => cases h

theorem Record.isFromJson_empty :
    IsFromJson .empty :=
  ⟨List.nodup_nil, by simp [Dict.empty]⟩

namespace Grid

/- The rows of a grid have values of their document, too. -/
theorem fromJson_of_rowsOfJson
    {member : Option Json}
    {rows : List Record}
    (hMember : ∀ json ∈ member, json.HasNumbers)
    (h : rowsOfJson member = .ok rows) :
    ∀ row ∈ rows, row.IsFromJson := by
  unfold rowsOfJson at h
  split at h
  next =>
    cases h
    simp
  next items =>
    have hItems : ∀ json ∈ items, json.HasNumbers := by
      cases hMember _ rfl with
      | array hItems => exact hItems
    clear hMember
    induction items generalizing rows with
    | nil =>
        cases h
        simp
    | cons json items ih =>
        rw [List.forall_mem_cons] at hItems
        rw [List.mapM_cons] at h
        rcases except_bind_eq_ok.mp h with ⟨row, hRow, h⟩
        rcases except_map_eq_ok.mp h with ⟨rest, hRest, rfl⟩
        rw [List.forall_mem_cons]
        exact
          ⟨Record.fromJson_of_ofJson hItems.1 hRow,
            ih hRest hItems.2⟩
  next => cases h

/- Records of a grid stand in the text that it is read from. -/
theorem fromJson_of_ofJsonText
    {source : String}
    {g : Grid}
    (h : ofJsonText source = .ok g) :
    ∀ r ∈ g.records, r.IsFromJson := by
  unfold ofJsonText at h
  split at h
  next json hParse =>
    cases Json.hasNumbers_of_parse hParse with
    | @object members hMembers =>
        have hMember (name : String) :
            ∀ json ∈ Json.member? members name,
              json.HasNumbers := by
          intro json hGet
          rcases List.lookup_eq_some_iff.mp hGet with
            ⟨before, after, hSplit, -⟩
          exact hMembers (name, json) (by simp [hSplit])
        have hRest {metadata : Record}
            (hMetadata : metadata.IsFromJson)
            (h : (do
              let rows ←
                rowsOfJson (Json.member? members "rows")
              return (⟨metadata, rows⟩ : Grid)) = .ok g) :
            ∀ r ∈ g.records, r.IsFromJson := by
          rcases except_map_eq_ok.mp h with ⟨rows, hRows, rfl⟩
          rw [records, List.forall_mem_cons]
          exact
            ⟨hMetadata,
              fromJson_of_rowsOfJson (hMember "rows") hRows⟩
        rw [ofJson] at h
        split at h
        next => exact hRest Record.isFromJson_empty h
        next json hGet =>
          rcases except_bind_eq_ok.mp h with ⟨metadata, hMade, h⟩
          exact
            hRest
              (Record.fromJson_of_ofJson
                (hMember "meta" json hGet) hMade)
              h
    | _ => cases h
  next => cases h

end Grid

------------------------------------------------------------
-- Grids that are Read Again or Not At All
------------------------------------------------------------

/-
  If the reader fails on each value that it does not read,
  what it reads is the grid that was written.
-/
theorem Zinc.same_of_decode_encode
    {g read : Grid}
    (hg : g.IsWritten)
    (hValues : ∀ r ∈ g.records, ∀ v ∈ r.values,
      v.IsReadOrFails .builtin)
    (hUnits : g.ShowsUnits)
    (hDecode : decode (encode g) = .ok read) :
    (read == g) = true := by
  by_cases hAll : ∀ r ∈ g.records, ∀ v ∈ r.values,
      v.IsLegible .builtin
  · have hRead : g.IsReadable .builtin :=
      fun r hr => ((hg r hr).isReadable (hAll r hr)).1
    have hText : g.HasLegibleText :=
      fun r hr => ((hg r hr).isReadable (hAll r hr)).2
    rw [decode_encode hRead hText] at hDecode
    cases hDecode
    exact (Grid.asRead_same_iff hRead).mpr hUnits
  · push Not at hAll
    rcases fails_gridText hg hValues hAll 1 with
      ⟨e, c, hError⟩
    unfold decode Scan.readAll encode Cursor.ofText at hDecode
    rw [String.toList_ofList, hError] at hDecode
    cases hDecode

/- A value of a document is read again, or not at all. -/
theorem Value.IsFromJson.isReadOrFails
    {v : Value}
    (hv : v.IsFromJson)
    (hSimple : v.IsSimple)
    (hUnit : v.HasPlainUnit)
    (hUri : v.HasLegibleUri) :
    v.IsReadOrFails .builtin := by
  rcases hv with ⟨json, hJson, hMade⟩
  by_cases hName : v.HasLegibleName
  · have hRead :=
      isReadable_of_ofJson hJson hMade hSimple hUnit hName
    by_cases hText : v.HasLegibleText
    · exact Or.inl ⟨hRead, hText⟩
    · exact Or.inr (Zinc.fails_value hUri hText)
  · cases v with
    | bin mime => exact Or.inr (Zinc.fails_value_bin hName)
    | _ => exact absurd trivial hName

------------------------------------------------------------
-- Conversion
------------------------------------------------------------

/-
  The text of a grid shows this value as it is: its unit is
  read as a unit, and its URI is spelled out.
-/
def Value.IsPlain (v : Value) : Prop :=
  v.HasPlainUnit ∧ v.HasLegibleUri

instance : (v : Value) → Decidable v.IsPlain
| .number n =>
    inferInstanceAs
      (Decidable
        ((n.IsLegible ∧ (n.value.IsFinite ∨ n.unit = none)) ∧
          True))
| .uri u => inferInstanceAs (Decidable (True ∧ u.IsLegible))
| .marker | .remove | .na | .bool _ | .str _ | .bin _
| .coord _ | .date _ | .time _ | .dateTime _ | .ref _
| .list _ | .dict _ => isTrue ⟨trivial, trivial⟩

/- All keys are names of tags, and all values are plain. -/
def Grid.IsPlain (g : Grid) : Prop :=
  ∀ r ∈ g.records, ∀ e ∈ r.entries,
    isTagName e.1.toList = true ∧ e.2.IsPlain

instance (g : Grid) : Decidable g.IsPlain := by
  unfold Grid.IsPlain
  infer_instance

/- Converting from JSON writes the grid that was read. -/
theorem convert_fromJson
    {source : String}
    {g : Grid}
    (hJson : Grid.ofJsonText source = .ok g)
    (pretty : Bool) :
    convert ⟨true, pretty⟩ (some source) =
      .ok (Zinc.encode g) := by
  have hNeed :
      CommandError.need (some source) = pure source :=
    rfl
  simp only [convert, if_true, hNeed, pure_bind, hJson]
  rfl

/-
  If a text is read that a plain grid in JSON was converted
  to, what is read is that grid.
-/
theorem same_of_decode_convert
    {source out : String}
    {pretty : Bool}
    {g read : Grid}
    (hJson : Grid.ofJsonText source = .ok g)
    (hSimple :
      ∀ r ∈ g.records, ∀ v ∈ r.values, v.IsSimple)
    (hPlain : g.IsPlain)
    (hConvert :
      convert ⟨true, pretty⟩ (some source) = .ok out)
    (hDecode : Zinc.decode out = .ok read) :
    (read == g) = true := by
  have hGiven := Grid.fromJson_of_ofJsonText hJson
  have hMem {r : Record}
      (hr : r ∈ g.records)
      {v : Value}
      (hv : v ∈ r.values) :
      v.IsFromJson ∧ v.IsPlain := by
    rcases List.mem_map.mp hv with ⟨e, he, rfl⟩
    exact ⟨(hGiven r hr).2 e he, (hPlain r hr e he).2⟩
  rw [convert_fromJson hJson] at hConvert
  cases hConvert
  refine Zinc.same_of_decode_encode ?_ ?_ ?_ hDecode
  · intro r hr
    refine ⟨(hGiven r hr).1, fun e he => ?_⟩
    exact
      ⟨(hPlain r hr e he).1,
        hSimple r hr _ (List.mem_map_of_mem he)⟩
  · intro r hr v hv
    rcases hMem hr hv with ⟨hFrom, hUnit, hUri⟩
    exact hFrom.isReadOrFails (hSimple r hr v hv) hUnit hUri
  · intro r hr v hv
    exact (hMem hr hv).2.1.showsUnit

/- The meter of a site, its URI and its power. -/
def meterJson : String :=
  "\x7b\"meta\":\x7b\"site\":\"m:\"\x7d,\"rows\":" ++
    "[\x7b\"home\":\"u:a/b\",\"power\":\"n:5 kW\"\x7d]\x7d"

/-
  A grid with a unit and a URI is converted and read again.
-/
theorem same_of_decode_convert_meterJson :
    ∃ g read,
      Grid.ofJsonText meterJson = .ok g ∧
      (∀ r ∈ g.records, ∀ v ∈ r.values, v.IsSimple) ∧
      g.IsPlain ∧
      convert ⟨true, false⟩ (some meterJson) =
        .ok (Zinc.encode g) ∧
      Zinc.decode (Zinc.encode g) = .ok read ∧
      (read == g) = true := by
  have hAll :
      (Grid.ofJsonText meterJson).toOption.any (fun g =>
        decide
          ((∀ r ∈ g.records, ∀ v ∈ r.values, v.IsSimple) ∧
            g.IsPlain ∧ g.IsPortable)) = true := by
    decide +kernel
  cases hJson : Grid.ofJsonText meterJson with
  | error e =>
      rw [hJson] at hAll
      cases hAll
  | ok g =>
      rw [hJson] at hAll
      rcases of_decide_eq_true hAll with
        ⟨hSimple, hPlain, hPortable⟩
      rcases Zinc.decode_encode_of_isPortable hPortable with
        ⟨read, hDecode, -⟩
      have hConvert := convert_fromJson hJson false
      exact
        ⟨g, read, rfl, hSimple, hPlain, hConvert, hDecode,
          same_of_decode_convert hJson hSimple hPlain hConvert
            hDecode⟩

/- A key that is no name of a tag is read as another key. -/
example :
    convert ⟨true, false⟩
        (some "\x7b\"rows\":[\x7b\"a b\":\"m:\"\x7d]\x7d") =
      .ok "ver:\"2.0\"\na b\nM\n" ∧
      Zinc.decode "ver:\"2.0\"\na b\nM\n" =
        .ok ⟨⟨[]⟩, [⟨[("a", .marker)]⟩]⟩ := by
  exact ⟨by cbv, by rfl⟩

end Haystack
