import Haystack.Proofs.Zinc.GivenGrids

/-
  This file shows what every grid that is read is like: its
  rows have the columns of the line of names, in their order,
  no name comes twice, and each value has parts that its kind
  allows.

  Key definitions include:
    * `Value.HasShape`
    * `Grid.HasShape`
    * `Zinc.columnLine`

  Main declarations:
    * `Zinc.gives_value`
    * `Zinc.exists_columns`
    * `Zinc.hasShape_of_decode`
-/

namespace Haystack

open Scan

------------------------------------------------------------
-- Shapes
------------------------------------------------------------

/- The parts of the date are in range. -/
def Date.IsInRange (d : Date) : Prop :=
  ofParts d.year d.month d.day = .ok d

/- The parts of the time are in range. -/
def Time.IsInRange (t : Time) : Prop :=
  ofParts t.hour t.minute t.second t.millis = .ok t

namespace Value

/- An offset has no more than 99 hours and 99 minutes. -/
def HasNearOffset : Value → Prop
| .dateTime x => x.offset.natAbs ≤ 362340
| _ => True

/-
  The value has none inside it, and its parts are in the
  ranges of its kind. A zone is universal time or known.
-/
def HasShape
    (zones : ZoneTable) : Value → Prop
| .number n =>
    ∀ unit ∈ n.unit,
      isUnitName unit.text.toList = true ∧
        unit.text.toList.head? ≠ some '_'
| .ref r => isRefId r.id.toList = true
| .uri u => ∀ c ∈ u.address.toList, 0x20 ≤ c.toNat
| .bin mime =>
    MimeType.ofText mime.name = .ok mime ∧
      '\n' ∉ mime.name.toList ∧ '\r' ∉ mime.name.toList
| .date d => d.IsInRange
| .time t => t.IsInRange
| .dateTime x =>
    x.date.IsInRange ∧ x.time.IsInRange ∧
      60 ∣ x.offset ∧ x.offset.natAbs ≤ 362340 ∧
      (x.zone.name = "UTC" ∨
        (zones.find? x.zone.name).isSome = true)
| .list _ => False
| .dict _ => False
| _ => True

/- A value that is read has such parts. -/
theorem IsReadable.hasShape
    {zones : ZoneTable}
    {v : Value}
    (hRead : v.IsReadable zones .zinc)
    (hOffset : v.HasNearOffset) :
    v.HasShape zones := by
  cases v with
  | number n =>
      intro unit hUnit
      refine ⟨unit.valid, ?_⟩
      have hLegible := hRead.1
      rw [Number.IsLegible, Option.mem_def.mp hUnit] at hLegible
      simpa using hLegible
  | ref r => exact r.valid
  | uri u =>
      intro c hc
      exact of_decide_eq_true (List.all_eq_true.mp u.valid c hc)
  | bin mime => exact ⟨mime.ofText_name, hRead⟩
  | date d => exact d.ofParts_parts
  | time t => exact t.ofParts_parts
  | dateTime x =>
      exact
        ⟨x.date.ofParts_parts, x.time.ofParts_parts,
          x.offset_dvd, hOffset, Or.inr hRead.2⟩
  | list items => cases hRead
  | dict d => cases hRead
  | _ => trivial

end Value

/-
  The keys of each record are names of tags, each for one
  entry, those of the rows come in the order of the columns,
  and all values have their shape.
-/
structure Grid.HasShape
    (zones : ZoneTable)
    (columns : List String)
    (g : Grid) : Prop where
  columns_nodup : columns.Nodup
  columns_names :
    ∀ name ∈ columns, isTagName name.toList = true
  keys_nodup : ∀ r ∈ g.records, r.keys.Nodup
  keys_names :
    ∀ r ∈ g.records, ∀ key ∈ r.keys,
      isTagName key.toList = true
  keys_sublist : ∀ r ∈ g.rows, r.keys.Sublist columns
  values :
    ∀ r ∈ g.records, ∀ v ∈ r.values, v.HasShape zones

namespace Zinc

------------------------------------------------------------
-- Offsets
------------------------------------------------------------

theorem digitValue?_le
    {x : Char}
    {k : Nat}
    (h : digitValue? x = some k) :
    k ≤ 9 := by
  unfold digitValue? at h
  split_ifs at h with hDigit
  cases h
  simp only [isDigit, Bool.and_eq_true, decide_eq_true_eq]
    at hDigit
  have hLe : x.toNat ≤ 57 := hDigit.2
  have hZero : '0'.toNat = 48 := rfl
  omega

theorem gives_digitsOf
    (what : Expected)
    (count n : Nat) :
    Gives (digitsOf 10 digitValue? what count n)
      (fun m => m < 10 ^ count * (n + 1)) := by
  induction count generalizing n with
  | zero => exact gives_pure (by simp)
  | succ count ih =>
      refine gives_bind fun x => ?_
      cases hDigit : x.bind digitValue? with
      | none => exact gives_wants what _
      | some k =>
          rcases Option.bind_eq_some_iff.mp hDigit with
            ⟨y, -, hy⟩
          have hk := digitValue?_le hy
          refine gives_bind fun _ => ?_
          intro c m d h
          have hLess := ih (10 * n + k) c m d h
          have hNext : 10 * n + k + 1 ≤ 10 * (n + 1) := by omega
          calc
            m < 10 ^ count * (10 * n + k + 1) := hLess
            _ ≤ 10 ^ count * (10 * (n + 1)) :=
              Nat.mul_le_mul_left _ hNext
            _ = 10 ^ (count + 1) * (n + 1) := by
              rw [Nat.pow_succ, Nat.mul_assoc]

theorem gives_twoDigits (what : Expected) :
    Gives (twoDigits what) (· ≤ 99) := by
  intro c n d h
  have hLess := gives_digitsOf what 2 0 c n d h
  omega

/- Two digits each for hours and minutes bound an offset. -/
theorem gives_hoursAndMinutes :
    Gives hoursAndMinutes (fun n => n.natAbs ≤ 362340) := by
  unfold hoursAndMinutes
  refine (gives_twoDigits _).bind fun hours hHours => ?_
  refine gives_bind fun _ => ?_
  refine (gives_twoDigits _).bind fun minutes hMinutes => ?_
  exact gives_pure (by omega)

/- The bound holds with a sign, and for no offset at all. -/
theorem gives_zoneOffset :
    Gives zoneOffset (fun n => n.natAbs ≤ 362340) := by
  unfold zoneOffset
  refine gives_bind fun x => ?_
  split
  · exact gives_bind fun _ => gives_pure (by simp)
  · refine gives_bind fun _ => ?_
    refine gives_hoursAndMinutes.bind fun n hn => ?_
    exact gives_pure (by omega)
  · exact gives_bind fun _ => gives_hoursAndMinutes
  · exact gives_wants _ _

/- A date-time has the offset that its text gives. -/
theorem gives_zoned
    (zones : ZoneTable)
    (date : Date)
    (time : Time) :
    Gives (zoned zones date time)
      (fun x => x.offset.natAbs ≤ 362340) := by
  unfold zoned
  refine gives_zoneOffset.bind fun offset hOffset => ?_
  refine gives_bind fun x => gives_bind fun y => ?_
  split_ifs
  · refine gives_bind fun _ => gives_bind fun name => ?_
    dsimp only
    split
    · exact gives_fail _ _
    · refine gives_construct fun x hMade => ?_
      rwa [(dateTime_eq_ok hMade).2]
  · exact gives_wants _ _
  · refine gives_construct fun x hMade => ?_
    rw [(dateTime_eq_ok hMade).2]
    decide

------------------------------------------------------------
-- Values
------------------------------------------------------------

theorem gives_dated
    (zones : ZoneTable)
    (year : List Char) :
    Gives (dated zones year) Value.HasNearOffset := by
  unfold dated
  refine gives_bind fun date => gives_bind fun x => ?_
  split_ifs
  · refine gives_bind fun _ => gives_bind fun hour => ?_
    refine gives_bind fun time => ?_
    refine (gives_zoned zones date time).bind fun x hx => ?_
    exact gives_pure hx
  · exact gives_pure trivial

theorem gives_numeric (zones : ZoneTable) :
    Gives (numeric zones) Value.HasNearOffset := by
  unfold numeric
  refine gives_bind fun digits => gives_bind fun x => ?_
  split
  · exact gives_dated zones digits
  · unfold timed
    split_ifs
    · exact gives_bind fun _ => gives_pure trivial
    · exact gives_fail _ _
  · unfold measured
    cases Binary64.ofNumeral? digits with
    | none => exact gives_fail _ _
    | some x =>
        refine gives_bind fun unit => ?_
        split_ifs
        · exact gives_pure trivial
        · exact gives_bind fun _ => gives_pure trivial

theorem gives_cellWord (word : String) :
    Gives (cellWord word)
      (fun v => ∀ w ∈ v, w.HasNearOffset) := by
  unfold cellWord
  split
  case h_1 => exact gives_none _
  case h_7 | h_8 =>
    refine gives_bind fun _ => gives_bind fun _ => ?_
    exact gives_some trivial
  case h_9 => exact gives_fail _ _
  all_goals exact gives_some trivial

theorem gives_filterWord (word : String) :
    Gives (filterWord word)
      (fun v => ∀ w ∈ v, w.HasNearOffset) := by
  unfold filterWord
  split
  · exact gives_some trivial
  · exact gives_some trivial
  · exact gives_fail _ _

theorem gives_word (dialect : Dialect) :
    Gives (word dialect)
      (fun v => ∀ w ∈ v, w.HasNearOffset) := by
  unfold word
  refine gives_bind fun first => gives_bind fun _ => ?_
  refine gives_bind fun letters => ?_
  dsimp only
  split
  · exact gives_some trivial
  · cases dialect with
    | zinc => exact gives_cellWord _
    | filter => exact gives_filterWord _

/- Only a date-time has an offset, and it is no longer. -/
theorem gives_value
    (zones : ZoneTable)
    (dialect : Dialect) :
    Gives (value zones dialect)
      (fun v => ∀ w ∈ v, w.HasNearOffset) := by
  have hNumeric :
      Gives (numeric zones >>= fun v => pure (some v))
        (fun v => ∀ w ∈ v, w.HasNearOffset) :=
    (gives_numeric zones).bind fun v hv => gives_some hv
  unfold value
  refine gives_bind fun x => ?_
  cases x with
  | none => exact gives_wants _ _
  | some c =>
      refine gives_bind fun next => ?_
      split_ifs
      · exact hNumeric
      · exact gives_word dialect
      · exact gives_bind fun _ => gives_some trivial
      · exact gives_bind fun _ => gives_some trivial
      · exact gives_bind fun _ => gives_some trivial
      · exact gives_word dialect
      · exact hNumeric
      · exact gives_wants _ _

------------------------------------------------------------
-- Tags and Rows
------------------------------------------------------------

section Records

variable {zones : ZoneTable}
variable {P : Value → Prop}
variable
  (hValue : Gives (value zones .zinc) (fun v => ∀ w ∈ v, P w))

/- The value of the tag, if it has one, has this. -/
def Tag.Holds
    (P : Value → Prop)
    (t : Tag) : Prop :=
  ∀ v ∈ t.2, P v

/-
  What holds of the values of tags holds of their record.
-/
theorem forall_values_recordOf
    {tags : List Tag}
    (hTags : ∀ t ∈ tags, t.Holds P) :
    ∀ v ∈ (recordOf tags).values, P v := by
  intro v hv
  rcases List.mem_map.mp hv with ⟨e, he, rfl⟩
  exact
    forall_entries_recordOf (p := fun e => P e.2)
      (fun t ht v hv => hTags t ht v hv) e he

include hValue in
/- A tag with no value is a marker. -/
theorem gives_tags (hMarker : P .marker) :
    Gives (tags zones) (fun r => ∀ v ∈ r.values, P v) := by
  have hTag :
      Gives (tag? zones)
        (fun found => ∀ t ∈ found, Tag.Holds P t) := by
    unfold tag?
    refine gives_bind fun x => ?_
    split_ifs
    · refine gives_bind fun name => gives_bind fun _ => ?_
      refine gives_bind fun y => ?_
      split_ifs
      · refine gives_bind fun _ => gives_bind fun _ => ?_
        refine hValue.bind fun v hv => gives_bind fun _ => ?_
        exact gives_some (P := Tag.Holds P) hv
      · refine gives_some ?_
        rintro v ⟨⟩
        exact hMarker
    · exact gives_none _
  exact hTag.collect.bind fun found hFound =>
    gives_pure (forall_values_recordOf hFound)

include hValue in
theorem gives_cell :
    Gives (cell zones) (fun v => ∀ w ∈ v, P w) := by
  have hRest : ∀ v : Option Value, (∀ w ∈ v, P w) →
      Gives (skipSpace >>= fun _ => pure v)
        (fun v => ∀ w ∈ v, P w) :=
    fun v hv => gives_bind fun _ => gives_pure hv
  unfold cell
  refine gives_bind fun _ => gives_bind fun next => ?_
  dsimp only
  split_ifs
  · exact hRest none nofun
  · exact hValue.bind hRest

include hValue in
/- Each column has a cell, in the order of the columns. -/
theorem gives_cells (names : List String) :
    Gives (cells zones names)
      (fun found =>
        found.map Prod.fst = names ∧
          ∀ t ∈ found, Tag.Holds P t) := by
  induction names using cells.induct with
  | case1 => exact gives_pure ⟨rfl, nofun⟩
  | case2 name =>
      refine (gives_cell hValue).bind fun v hv => ?_
      refine gives_pure ⟨rfl, ?_⟩
      simpa [Tag.Holds] using hv
  | case3 name names hNames ih =>
      rw [cells]
      · refine (gives_cell hValue).bind fun v hv => ?_
        refine gives_bind fun _ => ?_
        refine ih.bind fun more hMore => ?_
        refine gives_pure ⟨?_, ?_⟩
        · rw [List.map_cons, hMore.1]
        · exact List.forall_mem_cons.mpr ⟨hv, hMore.2⟩
      · exact hNames

/- The keys of a row are those of the cells with a value. -/
theorem keys_recordOf_sublist
    {tags : List Tag}
    (hNodup : (tags.map Prod.fst).Nodup) :
    (recordOf tags).keys.Sublist (tags.map Prod.fst) := by
  have hSub :
      ((tags.filterMap (fun t =>
        t.2.map (fun v => (t.1, v)))).map Prod.fst).Sublist
          (tags.map Prod.fst) := by
    clear hNodup
    induction tags with
    | nil => exact .slnil
    | cons t tags ih =>
        rcases t with ⟨name, v⟩
        cases v with
        | none => exact ih.cons name
        | some v => exact ih.cons_cons name
  rw [recordOf, Dict.keys,
    Dict.ofEntries_of_nodup (hNodup.sublist hSub)]
  exact hSub

include hValue in
/-
  A row has keys among the columns, in their order, and
  values that the reader of values gives.
-/
theorem gives_row
    {names : List String}
    (hNodup : names.Nodup) :
    Gives (row? zones names)
      (fun found => ∀ r ∈ found,
        r.keys.Sublist names ∧ ∀ v ∈ r.values, P v) := by
  have hRow :
      Gives (row zones names)
        (fun r : Record =>
          r.keys.Sublist names ∧ ∀ v ∈ r.values, P v) := by
    unfold row
    refine (gives_cells hValue names).bind fun found hFound => ?_
    rcases hFound with ⟨rfl, hFound⟩
    have hRecord :=
      And.intro (keys_recordOf_sublist hNodup)
        (forall_values_recordOf hFound)
    refine gives_bind fun x => ?_
    dsimp only
    split_ifs
    · exact gives_bind fun _ => gives_pure hRecord
    · exact gives_pure hRecord
  unfold row?
  refine gives_bind fun x => ?_
  split_ifs
  · exact gives_none _
  · exact hRow.bind fun r hr => gives_some hr

end Records

------------------------------------------------------------
-- Columns
------------------------------------------------------------

variable (zones : ZoneTable)

/- The name of a column is new. -/
theorem gives_column (known : List String) :
    Gives (column zones known)
      (fun name =>
        name ∉ known ∧ isTagName name.toList = true) := by
  unfold column
  refine gives_bind fun name => gives_ite_fail fun hNew => ?_
  refine gives_bind fun _ => gives_bind fun _ => ?_
  exact gives_pure ⟨hNew, name.valid⟩

/- The columns are names of tags, each once. -/
theorem gives_columns :
    Gives (columns zones)
      (fun names =>
        names.Nodup ∧
          ∀ name ∈ names, isTagName name.toList = true) := by
  have hStep : ∀ known : List String,
      (known.Nodup ∧
        ∀ name ∈ known, isTagName name.toList = true) →
      Gives (nextColumn? zones known)
        (fun next => ∀ names ∈ next,
          names.Nodup ∧
            ∀ name ∈ names, isTagName name.toList = true) := by
    rintro known ⟨hNodup, hNames⟩
    unfold nextColumn?
    refine gives_bind fun x => ?_
    split_ifs
    · refine gives_bind fun _ => gives_bind fun _ => ?_
      refine (gives_column zones known).bind fun name hName => ?_
      refine gives_some ⟨?_, ?_⟩
      · exact List.nodup_cons.mpr ⟨hName.1, hNodup⟩
      · exact List.forall_mem_cons.mpr ⟨hName.2, hNames⟩
    · exact gives_none _
  unfold columns
  refine (gives_column zones []).bind fun first hFirst => ?_
  refine (Gives.iterate hStep ?_).bind fun behind hBehind => ?_
  · refine ⟨List.nodup_singleton first, ?_⟩
    simpa using hFirst.2
  · refine gives_pure ⟨List.nodup_reverse.mpr hBehind.1, ?_⟩
    simpa using hBehind.2

------------------------------------------------------------
-- Grids
------------------------------------------------------------

/-
  Read the names of the columns of a grid, which stand on the
  line after what is said about it.
-/
def columnLine : Scan (List String) := do
  version
  let _ ← tags zones
  newline
  columns zones

/-
  The rows of a grid that is read have the columns of its
  line of names, and its values are what readers give.
-/
theorem exists_columns
    {zones : ZoneTable}
    {P : Value → Prop}
    (hValue :
      Gives (value zones .zinc) (fun v => ∀ w ∈ v, P w))
    (hMarker : P .marker)
    {c d : Cursor}
    {g : Grid}
    (h : grid zones c = .ok g d) :
    ∃ names e,
      columnLine zones c = .ok names e ∧
      names.Nodup ∧
      (∀ name ∈ names, isTagName name.toList = true) ∧
      (∀ r ∈ g.rows, r.keys.Sublist names) ∧
      ∀ r ∈ g.records, ∀ v ∈ r.values, P v := by
  unfold grid at h
  rcases bind_eq_ok.mp h with ⟨u, c₁, hVersion, h⟩
  rcases bind_eq_ok.mp h with ⟨metadata, c₂, hTags, h⟩
  rcases bind_eq_ok.mp h with ⟨u', c₃, hLine, h⟩
  rcases bind_eq_ok.mp h with ⟨names, c₄, hColumns, h⟩
  rcases bind_eq_ok.mp h with ⟨_, c₅, hLine', h⟩
  rcases bind_eq_ok.mp h with ⟨rows, c₆, hRows, h⟩
  have hNames := gives_columns zones _ _ _ hColumns
  have hAll := (gives_row hValue hNames.1).collect _ _ _ hRows
  have hGrid : g = ⟨metadata, rows⟩ := by
    rw [current_bind_apply] at h
    split_ifs at h
    · rw [advance_bind_apply] at h
      exact (pure_eq_ok.mp h).1.symm
    · exact (pure_eq_ok.mp h).1.symm
  subst hGrid
  refine ⟨names, c₄, ?_, hNames.1, hNames.2, ?_, ?_⟩
  · unfold columnLine
    refine bind_eq_ok.mpr ⟨u, c₁, hVersion, ?_⟩
    refine bind_eq_ok.mpr ⟨metadata, c₂, hTags, ?_⟩
    exact bind_eq_ok.mpr ⟨u', c₃, hLine, hColumns⟩
  · exact fun r hr => (hAll r hr).1
  · intro r hr
    rcases List.mem_cons.mp hr with rfl | hr
    · exact gives_tags hValue hMarker _ _ _ hTags
    · exact (hAll r hr).2

/-
  Whatever a text is decoded to has the shape of a grid with
  the columns that its line of names has.
-/
theorem hasShape_of_decode
    {text : String}
    {g : Grid}
    (h : decode text = .ok g) :
    ∃ names,
      readAll (columnLine .builtin) text = .ok names ∧
        g.HasShape .builtin names := by
  have hRead := (isReadable_of_decode h).1
  rcases readAll_eq_ok h with ⟨d, hGrid⟩
  rcases exists_columns (gives_value _ _) trivial hGrid with
    ⟨names, e, hLine, hNodup, hNames, hRows, hOffsets⟩
  refine ⟨names, by rw [readAll, hLine], hNodup, hNames, ?_, ?_,
    hRows, ?_⟩
  · exact fun r hr => (hRead r hr).1
  · intro r hr key hKey
    rcases List.mem_map.mp hKey with ⟨e, he, rfl⟩
    exact ((hRead r hr).2 e he).1
  · intro r hr v hv
    have hOffset := hOffsets r hr v hv
    rcases List.mem_map.mp hv with ⟨e, he, rfl⟩
    exact ((hRead r hr).2 e he).2.hasShape hOffset

/-
  A text of which the rows leave out some columns, with the
  longest offset that there is.
-/
def meterText : String :=
  "ver:\"2.0\" dis:\"Meters\"\n" ++
    "id,energy unit:\"kWh\",read,doc\n" ++
    "@m:1 \"One\",1_2_kWh,2020-01-31T10:00:00-99:99 Abidjan,\n" ++
    "@m:2,N,,Bin(text/plain)\n"

/-
  A text that leaves out cells and has the longest offset.
-/
theorem hasShape_meterText :
    ∃ g,
      decode meterText = .ok g ∧
        g.HasShape .builtin ["id", "energy", "read", "doc"] := by
  have hSome : (decode meterText).isOk = true := by
    decide +kernel
  have hLine :
      (readAll (columnLine .builtin) meterText).toOption =
        some ["id", "energy", "read", "doc"] := by
    decide +kernel
  cases hDecode : decode meterText with
  | error e =>
      rw [hDecode] at hSome
      cases hSome
  | ok g =>
      rcases hasShape_of_decode hDecode with
        ⟨names, hNames, hShape⟩
      rw [hNames] at hLine
      cases hLine
      exact ⟨g, rfl, hShape⟩

end Zinc

end Haystack
