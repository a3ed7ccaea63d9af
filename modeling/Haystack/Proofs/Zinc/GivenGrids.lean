import Haystack.Proofs.Zinc.GivenValues
import Haystack.Proofs.Zinc.Grids

/-
  This file shows which grids the reader of grids gives, and
  that the text that it takes pays for their values.

  Key definitions include:
    * `Record.cost`
    * `Grid.cost`

  Main declarations:
    * `Zinc.grid_eq_ok`
    * `Zinc.isReadable_of_decode`
-/

namespace Haystack

open Scan

/- What is paid for the values of a record. -/
def Record.cost (r : Record) : Nat :=
  (r.values.map Value.cost).sum

/- What is paid for the values of a grid. -/
def Grid.cost (g : Grid) : Nat :=
  (g.records.map Record.cost).sum

namespace Zinc

variable {zones : ZoneTable}
variable {c d : Cursor}

------------------------------------------------------------
-- Tags
------------------------------------------------------------

/- What is paid for the value of a tag. -/
def Tag.cost (t : Tag) : Nat :=
  t.2.elim 0 Value.cost

/- Tags that are read and paid for, from a place on. -/
structure GivesTags
    (zones : ZoneTable)
    (tags : List Tag)
    (c d : Cursor) : Prop where
  names : ∀ t ∈ tags, isTagName t.1.toList = true
  readable :
    ∀ t ∈ tags, ∀ v, t.2 = some v → v.IsReadable zones .zinc
  pays : c.Pays (tags.map Tag.cost).sum d

theorem givesTags_nil (c : Cursor) :
    GivesTags zones [] c c :=
  ⟨by simp, by simp, Cursor.pays_of_passes (.refl c)⟩

/- Tags read one after the other make up one list. -/
theorem GivesTags.append
    {first second : List Tag}
    {e : Cursor}
    (hFirst : GivesTags zones first c d)
    (hSecond : GivesTags zones second d e) :
    GivesTags zones (first ++ second) c e := by
  refine ⟨?_, ?_, ?_⟩
  · intro t ht
    rcases List.mem_append.mp ht with ht | ht
    · exact hFirst.names t ht
    · exact hSecond.names t ht
  · intro t ht
    rcases List.mem_append.mp ht with ht | ht
    · exact hFirst.readable t ht
    · exact hSecond.readable t ht
  · rw [List.map_append, List.sum_append]
    exact hFirst.pays.trans hSecond.pays

/- A value that is given makes a tag with a name. -/
theorem GivesValue.givesTags
    {name : String}
    {v : Option Value}
    (hName : isTagName name.toList = true)
    (hValue : GivesValue zones .zinc v c d) :
    GivesTags zones [(name, v)] c d := by
  refine ⟨by simpa using hName, ?_, ?_⟩
  · intro t ht w hw
    rw [List.mem_singleton] at ht
    rw [ht] at hw
    exact hValue.readable w hw
  · simpa [Tag.cost] using hValue.pays

/- What the tags that have a value have, all entries have. -/
theorem forall_entries_recordOf
    {p : String × Value → Prop}
    {tags : List Tag}
    (hTags : ∀ t ∈ tags, ∀ v, t.2 = some v → p (t.1, v)) :
    ∀ e ∈ (recordOf tags).entries, p e := by
  apply Dict.forall_entries_ofEntries
  intro e he
  rcases List.mem_filterMap.mp he with ⟨t, ht, hMap⟩
  rcases Option.map_eq_some_iff.mp hMap with ⟨v, hv, rfl⟩
  exact hTags t ht v hv

/- The record of such tags has one entry for each key. -/
theorem GivesTags.recordOf
    {tags : List Tag}
    (hTags : GivesTags zones tags c d) :
    (Zinc.recordOf tags).IsReadable zones ∧
      c.Pays (Zinc.recordOf tags).cost d := by
  refine ⟨⟨Dict.hasUniqueKeys_ofEntries _, ?_⟩, ?_⟩
  · exact forall_entries_recordOf fun t ht v hv =>
      ⟨hTags.names t ht, hTags.readable t ht v hv⟩
  · have hSum :
        ((tags.filterMap (fun t =>
            t.2.map (fun v => (t.1, v)))).map
          (fun e => Value.cost e.2)).sum =
          (tags.map Tag.cost).sum := by
      clear hTags
      induction tags with
      | nil => rfl
      | cons t tags ih =>
          rcases t with ⟨name, v⟩
          cases v with
          | none => simpa [Tag.cost] using ih
          | some v => simpa [Tag.cost] using ih
    have hLe :=
      Dict.sum_ofEntries_le Value.cost
        (tags.filterMap (fun t =>
          t.2.map (fun v => (t.1, v))))
    rw [hSum] at hLe
    have hPays := hTags.pays
    have hCost :
        (Zinc.recordOf tags).cost =
          ((Zinc.recordOf tags).entries.map
            (fun e => Value.cost e.2)).sum := by
      simp [Record.cost, Record.values, Function.comp_def]
    rw [hCost]
    unfold Cursor.Pays at hPays ⊢
    change _ + (List.map _ (Dict.ofEntries _).entries).sum ≤ _
    omega

/- The characters of a name are plain ones. -/
theorem tagName_eq_ok
    {name : TagName}
    (h : TagName.scan c = .ok name d) :
    c.Passes isPlain d :=
  Cursor.Passes.mono
    ⟨_, TagName.scan_eq_ok h,
      all_isTagChar_of_isTagName name.valid⟩
    (isPlain_of rfl)

/- A tag is read and paid for, or nothing is taken. -/
theorem tag_eq_ok
    (hUtc : (zones.find? "UTC").isSome = true)
    {found : Option Tag}
    (h : tag? zones c = .ok found d) :
    (found = none ∧ c = d) ∨
      ∃ t, found = some t ∧ GivesTags zones [t] c d := by
  unfold tag? at h
  rw [current_bind_apply] at h
  split_ifs at h
  · rcases bind_eq_ok.mp h with ⟨name, c₁, hName, h⟩
    rcases bind_eq_ok.mp h with ⟨_, c₂, hSpace, h⟩
    have hPasses :=
      (tagName_eq_ok hName).trans (passes_space hSpace)
    have hBefore : GivesTags zones [] c c₂ :=
      ⟨by simp, by simp, Cursor.pays_of_passes hPasses⟩
    rw [current_bind_apply] at h
    split_ifs at h with hColon
    · rw [advance_bind_apply] at h
      rcases bind_eq_ok.mp h with ⟨_, c₃, hSpace₂, h⟩
      rcases bind_eq_ok.mp h with ⟨v, c₄, hValue, h⟩
      rcases bind_eq_ok.mp h with ⟨_, c₅, hSpace₃, h⟩
      rcases pure_eq_ok.mp h with ⟨rfl, rfl⟩
      have hColonPasses :=
        (passes_plain_advance hColon rfl).trans
          (passes_space hSpace₂)
      have hValue := givesValue_value hUtc hValue
      have hGives : GivesValue zones .zinc v c₂ c₅ :=
        ⟨hValue.readable,
          (Cursor.pays_of_passes hColonPasses).trans_zero
            (hValue.pays.zero_trans
              (Cursor.pays_of_passes
                (passes_space hSpace₃)))⟩
      exact
        Or.inr
          ⟨_, rfl,
            hBefore.append (hGives.givesTags name.valid)⟩
    · rcases pure_eq_ok.mp h with ⟨rfl, rfl⟩
      have hMarker :
          GivesValue zones .zinc (some .marker) c₂ c₂ :=
        givesValue_some trivial
          (Cursor.pays_of_passes (.refl c₂))
      exact
        Or.inr
          ⟨_, rfl,
            hBefore.append (hMarker.givesTags name.valid)⟩
  · rcases pure_eq_ok.mp h with ⟨rfl, hPlace⟩
    exact Or.inl ⟨rfl, hPlace⟩

/- The record that tags make is read and paid for. -/
theorem tags_eq_ok
    (hUtc : (zones.find? "UTC").isSome = true)
    {r : Record}
    (h : tags zones c = .ok r d) :
    r.IsReadable zones ∧ c.Pays r.cost d := by
  unfold tags at h
  rcases bind_eq_ok.mp h with ⟨found, e, hCollect, h⟩
  rcases pure_eq_ok.mp h with ⟨rfl, rfl⟩
  apply GivesTags.recordOf
  refine
    collect_invariant
      (fun tags e => GivesTags zones tags c e) ?_ ?_
      (givesTags_nil c) hCollect
  · intro tags t c' d hTags hTag
    rcases tag_eq_ok hUtc hTag with
      ⟨hNone, -⟩ | ⟨t', hSome, hGives⟩
    · cases hNone
    · cases hSome
      exact hTags.append hGives
  · intro tags c' d hTags hTag
    rcases tag_eq_ok hUtc hTag with
      ⟨-, rfl⟩ | ⟨t', hSome, -⟩
    · exact hTags
    · cases hSome

------------------------------------------------------------
-- Columns and Rows
------------------------------------------------------------

/- What is said about a column is dropped. -/
theorem column_eq_ok
    (hUtc : (zones.find? "UTC").isSome = true)
    {known : List String}
    {name : String}
    (h : column zones known c = .ok name d) :
    isTagName name.toList = true ∧ c.Pays 0 d := by
  unfold column at h
  rcases bind_eq_ok.mp h with ⟨tag, c₁, hTag, h⟩
  have hPasses := tagName_eq_ok hTag
  split_ifs at h
  · rcases bind_eq_ok.mp h with ⟨_, c₂, hFail, h⟩
    cases hFail
  · rcases bind_eq_ok.mp h with ⟨_, c₂, hSpace, h⟩
    rcases bind_eq_ok.mp h with ⟨_, c₃, hTags, h⟩
    rcases pure_eq_ok.mp h with ⟨rfl, rfl⟩
    rcases discard_eq_ok hTags with ⟨r, hTags⟩
    have hBefore :=
      Cursor.pays_of_passes
        (hPasses.trans (passes_space hSpace))
    have hPays := (tags_eq_ok hUtc hTags).2
    refine ⟨tag.valid, hBefore.trans_zero ?_⟩
    unfold Cursor.Pays at hPays ⊢
    omega

/- One name more stands behind a comma, or there is none. -/
theorem nextColumn_eq_ok
    (hUtc : (zones.find? "UTC").isSome = true)
    {known : List String}
    {found : Option (List String)}
    (h : nextColumn? zones known c = .ok found d) :
    (found = none ∧ c = d) ∨
      ∃ name, found = some (name :: known) ∧
        isTagName name.toList = true ∧ c.Pays 0 d := by
  unfold nextColumn? at h
  rw [current_bind_apply] at h
  split_ifs at h with hComma
  · rw [advance_bind_apply] at h
    rcases bind_eq_ok.mp h with ⟨_, c₁, hSpace, h⟩
    rcases bind_eq_ok.mp h with ⟨name, c₂, hColumn, h⟩
    rcases pure_eq_ok.mp h with ⟨rfl, rfl⟩
    have hName := column_eq_ok hUtc hColumn
    have hPasses :=
      (passes_plain_advance hComma rfl).trans
        (passes_space hSpace)
    exact
      Or.inr
        ⟨name, rfl, hName.1,
          (Cursor.pays_of_passes hPasses).trans hName.2⟩
  · rcases pure_eq_ok.mp h with ⟨rfl, rfl⟩
    exact Or.inl ⟨rfl, rfl⟩

/-
  The names of columns are names of tags, and they cost
  nothing.
-/
theorem columns_eq_ok
    (hUtc : (zones.find? "UTC").isSome = true)
    {names : List String}
    (h : columns zones c = .ok names d) :
    (∀ name ∈ names, isTagName name.toList = true) ∧
      c.Pays 0 d := by
  unfold columns at h
  rcases bind_eq_ok.mp h with ⟨first, c₁, hFirst, h⟩
  rcases bind_eq_ok.mp h with ⟨behind, c₂, hMore, h⟩
  rcases pure_eq_ok.mp h with ⟨rfl, rfl⟩
  have hStart := column_eq_ok hUtc hFirst
  have hAll :
      (∀ name ∈ behind, isTagName name.toList = true) ∧
        c.Pays 0 c₂ := by
    refine
      iterate_invariant
        (fun names e =>
          (∀ name ∈ names, isTagName name.toList = true) ∧
            c.Pays 0 e)
        ?_ ?_ ⟨by simpa using hStart.1, hStart.2⟩ hMore
    · rintro known known' c' d ⟨hNames, hPays⟩ hStep
      rcases nextColumn_eq_ok hUtc hStep with
        ⟨hNone, -⟩ | ⟨name, hSome, hName, hMorePays⟩
      · cases hNone
      · cases hSome
        exact
          ⟨List.forall_mem_cons.mpr ⟨hName, hNames⟩,
            hPays.trans hMorePays⟩
    · rintro known c' d hInv hStep
      rcases nextColumn_eq_ok hUtc hStep with
        ⟨-, rfl⟩ | ⟨name, hSome, -⟩
      · exact hInv
      · cases hSome
  exact ⟨by simpa using hAll.1, hAll.2⟩

/- A cell gives a value, or none if it is empty. -/
theorem cell_eq_ok
    (hUtc : (zones.find? "UTC").isSome = true)
    {v : Option Value}
    (h : cell zones c = .ok v d) :
    GivesValue zones .zinc v c d := by
  unfold cell at h
  rcases bind_eq_ok.mp h with ⟨_, c₁, hBefore, h⟩
  rw [current_bind_apply] at h
  have hBefore := Cursor.pays_of_passes (passes_space hBefore)
  split_ifs at h
  · rcases bind_eq_ok.mp h with ⟨w, c₂, hValue, h⟩
    rcases bind_eq_ok.mp h with ⟨_, c₃, hAfter, h⟩
    rcases pure_eq_ok.mp h with ⟨rfl, rfl⟩
    rcases pure_eq_ok.mp hValue with ⟨rfl, rfl⟩
    exact
      ⟨nofun,
        hBefore.trans
          (Cursor.pays_of_passes (passes_space hAfter))⟩
  · rcases bind_eq_ok.mp h with ⟨w, c₂, hValue, h⟩
    rcases bind_eq_ok.mp h with ⟨_, c₃, hAfter, h⟩
    rcases pure_eq_ok.mp h with ⟨rfl, rfl⟩
    have hGives := givesValue_value hUtc hValue
    exact
      ⟨hGives.readable,
        hBefore.trans_zero
          (hGives.pays.zero_trans
            (Cursor.pays_of_passes (passes_space hAfter)))⟩

/- The cells of a row give tags under its names. -/
theorem givesTags_cells
    (hUtc : (zones.find? "UTC").isSome = true)
    {names : List String}
    (hNames : ∀ name ∈ names, isTagName name.toList = true)
    {found : List Tag}
    (h : cells zones names c = .ok found d) :
    GivesTags zones found c d := by
  induction names generalizing found c with
  | nil =>
      rcases pure_eq_ok.mp h with ⟨rfl, rfl⟩
      exact givesTags_nil c
  | cons name names ih =>
      rw [List.forall_mem_cons] at hNames
      cases names with
      | nil =>
          unfold cells at h
          rcases bind_eq_ok.mp h with ⟨v, c₁, hCell, h⟩
          rcases pure_eq_ok.mp h with ⟨rfl, rfl⟩
          exact (cell_eq_ok hUtc hCell).givesTags hNames.1
      | cons next names =>
          unfold cells at h
          rcases bind_eq_ok.mp h with ⟨v, c₁, hCell, h⟩
          rcases bind_eq_ok.mp h with ⟨_, c₂, hComma, h⟩
          rcases bind_eq_ok.mp h with ⟨more, c₃, hMore, h⟩
          rcases pure_eq_ok.mp h with ⟨rfl, rfl⟩
          have hFirst :=
            (cell_eq_ok hUtc hCell).givesTags hNames.1
          have hBetween : GivesTags zones [] c₁ c₂ :=
            ⟨by simp, by simp,
              Cursor.pays_of_passes
                (passes_expect rfl hComma)⟩
          exact
            hFirst.append (hBetween.append (ih hNames.2 hMore))

/- Each row is a record that is read and paid for. -/
theorem row_eq_ok
    (hUtc : (zones.find? "UTC").isSome = true)
    {names : List String}
    (hNames : ∀ name ∈ names, isTagName name.toList = true)
    {r : Record}
    (h : row? zones names c = .ok (some r) d) :
    r.IsReadable zones ∧ c.Pays r.cost d := by
  unfold row? at h
  rw [current_bind_apply] at h
  split_ifs at h
  · rcases pure_eq_ok.mp h with ⟨hNone, -⟩
    cases hNone
  · rcases bind_eq_ok.mp h with ⟨r', c₁, hRow, h⟩
    rcases pure_eq_ok.mp h with ⟨hSome, rfl⟩
    cases hSome
    unfold row at hRow
    rcases bind_eq_ok.mp hRow with ⟨found, c₂, hCells, hRow⟩
    have hTags := givesTags_cells hUtc hNames hCells
    rw [current_bind_apply] at hRow
    split_ifs at hRow
    · rcases bind_eq_ok.mp hRow with ⟨_, c₃, hEnd, hRow⟩
      rcases pure_eq_ok.mp hRow with ⟨rfl, rfl⟩
      refine ⟨hTags.recordOf.1, ?_⟩
      exact
        hTags.recordOf.2.zero_trans
          (Cursor.pays_of_passes (passes_expect rfl hEnd))
    · rcases pure_eq_ok.mp hRow with ⟨rfl, rfl⟩
      exact hTags.recordOf

/- No row has been read where nothing has been taken. -/
theorem row_eq_none
    {names : List String}
    (h : row? zones names c = .ok none d) :
    c = d := by
  unfold row? at h
  rw [current_bind_apply] at h
  split_ifs at h
  · exact (pure_eq_ok.mp h).2
  · rcases bind_eq_ok.mp h with ⟨r, c₁, hRow, h⟩
    rcases pure_eq_ok.mp h with ⟨hSome, -⟩
    cases hSome

------------------------------------------------------------
-- Grids
------------------------------------------------------------

/- The line of the version costs nothing. -/
theorem pays_version
    {u : Unit}
    (h : version c = .ok u d) :
    c.Pays 0 d := by
  unfold version at h
  rcases bind_eq_ok.mp h with ⟨name, c₁, hName, h⟩
  have hPays := Cursor.pays_of_passes (tagName_eq_ok hName)
  split_ifs at h
  · rcases bind_eq_ok.mp h with ⟨_, c₂, hFail, h⟩
    cases hFail
  · rcases bind_eq_ok.mp h with ⟨_, c₂, hColon, h⟩
    have hPays₂ :=
      Cursor.pays_of_passes (passes_expect rfl hColon)
    rw [current_bind_apply] at h
    split_ifs at h
    · rcases bind_eq_ok.mp h with ⟨_, c₃, hFail, h⟩
      cases hFail
    · rcases bind_eq_ok.mp h with ⟨number, c₃, hNumber, h⟩
      have hPays₃ := pays_quoted hNumber
      split_ifs at h
      · rcases bind_eq_ok.mp h with ⟨_, c₄, hFail, h⟩
        cases hFail
      · exact
          hPays.trans
            (hPays₂.trans
              (hPays₃.trans
                (Cursor.pays_of_passes (passes_space h))))

/- All rows that are read can be read again, and are paid. -/
theorem rows_eq_ok
    (hUtc : (zones.find? "UTC").isSome = true)
    {names : List String}
    (hNames : ∀ name ∈ names, isTagName name.toList = true)
    {rows : List Record}
    (h : collect (row? zones names) c = .ok rows d) :
    (∀ r ∈ rows, r.IsReadable zones) ∧
      c.Pays (rows.map Record.cost).sum d := by
  refine
    collect_invariant
      (fun rows e =>
        (∀ r ∈ rows, r.IsReadable zones) ∧
          c.Pays (rows.map Record.cost).sum e)
      ?_ ?_ ⟨by simp, Cursor.pays_of_passes (.refl _)⟩ h
  · rintro rows r c' d ⟨hRead, hPays⟩ hRow
    have hNew := row_eq_ok hUtc hNames hRow
    constructor
    · intro r' hr'
      rcases List.mem_append.mp hr' with hr' | hr'
      · exact hRead r' hr'
      · rw [List.mem_singleton] at hr'
        rw [hr']
        exact hNew.1
    · rw [List.map_append, List.sum_append]
      refine hPays.trans ?_
      simpa using hNew.2
  · rintro rows c' d hInv hNone
    rwa [← row_eq_none hNone]

/- The grid that is read can be read again, and is paid. -/
theorem grid_eq_ok
    (hUtc : (zones.find? "UTC").isSome = true)
    {g : Grid}
    (h : grid zones c = .ok g d) :
    g.IsReadable zones ∧ c.Pays g.cost d := by
  unfold grid at h
  rcases bind_eq_ok.mp h with ⟨_, c₁, hVersion, h⟩
  rcases bind_eq_ok.mp h with ⟨metadata, c₂, hMetadata, h⟩
  rcases bind_eq_ok.mp h with ⟨_, c₃, hLine, h⟩
  rcases bind_eq_ok.mp h with ⟨names, c₄, hColumns, h⟩
  rcases bind_eq_ok.mp h with ⟨_, c₅, hLine', h⟩
  rcases bind_eq_ok.mp h with ⟨rows, c₆, hRows, h⟩
  have hTags := tags_eq_ok hUtc hMetadata
  have hNames := columns_eq_ok hUtc hColumns
  have hAll := rows_eq_ok hUtc hNames.1 hRows
  have hBefore : c.Pays metadata.cost c₅ :=
    (pays_version hVersion).trans_zero
      (hTags.2.zero_trans
        ((Cursor.pays_of_passes
          (passes_expect rfl hLine)).trans
            (hNames.2.trans
              (Cursor.pays_of_passes
                (passes_expect rfl hLine')))))
  have hEnd : g = ⟨metadata, rows⟩ ∧ c₆.Pays 0 d := by
    rw [current_bind_apply] at h
    split_ifs at h with hBlank
    · rw [advance_bind_apply] at h
      rcases pure_eq_ok.mp h with ⟨hGrid, rfl⟩
      exact
        ⟨hGrid.symm,
          Cursor.pays_of_passes
            (passes_plain_advance hBlank rfl)⟩
    · rcases pure_eq_ok.mp h with ⟨hGrid, rfl⟩
      exact
        ⟨hGrid.symm, Cursor.pays_of_passes (.refl c₆)⟩
  rcases hEnd with ⟨rfl, hEnd⟩
  constructor
  · intro r hr
    rcases List.mem_cons.mp hr with rfl | hr
    · exact hTags.1
    · exact hAll.1 r hr
  · exact hBefore.trans (hAll.2.zero_trans hEnd)

/- Whatever a text is decoded to can be read again. -/
theorem isReadable_of_decode
    {text : String}
    {g : Grid}
    (h : decode text = .ok g) :
    g.IsReadable .builtin ∧
      g.cost ≤ burden .start text.toList := by
  rcases readAll_eq_ok h with ⟨d, hGrid⟩
  have hGives := grid_eq_ok find?_utc hGrid
  have hPays := hGives.2
  refine ⟨hGives.1, ?_⟩
  change _ + _ ≤ burden .start text.toList at hPays
  omega

end Zinc

end Haystack
