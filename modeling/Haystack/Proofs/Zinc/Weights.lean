import Haystack.Proofs.Zinc.Alphabets
import Haystack.Proofs.Zinc.GivenGrids

/-
  This file bounds the burden of what is written by what is
  written for URIs and media types, as all else has no
  backslash but those that are doubled or escape a mark.

  Key definitions include:
    * `Weighs`
    * `Value.weight`

  Main declarations:
    * `Value.weighs_textIn`
    * `Zinc.burden_gridText_le`
-/

namespace Haystack

------------------------------------------------------------
-- Texts that Start and End Outside of Runs
------------------------------------------------------------

/- The text has this burden and leaves nothing behind. -/
structure Weighs (cs : List Char) (n : Nat) : Prop where
  after : Trail.start.after cs = .start
  burden_eq : burden .start cs = n

/-
  Weights add up, since nothing is left behind between the
  texts.
-/
theorem Weighs.append
    {cs ds : List Char}
    {n m : Nat}
    (hFirst : Weighs cs n)
    (hSecond : Weighs ds m) :
    Weighs (cs ++ ds) (n + m) := by
  constructor
  · rw [Trail.after_append, hFirst.after, hSecond.after]
  · rw [Trail.burden_append, hFirst.after, hFirst.burden_eq,
      hSecond.burden_eq]

/- Plain characters weigh nothing. -/
theorem weighs_plain
    {cs : List Char}
    (hcs : cs.all isPlain = true) :
    Weighs cs 0 := by
  have hNone : '\\' ∉ cs := not_mem_of_all rfl hcs
  have hStart := Trail.after_start hNone
  exact ⟨hStart.1, hStart.2⟩

/- Between marks that end runs anything may stand. -/
theorem weighs_closed
    {x : Char}
    (hx : isEscapeChar x = false)
    (cs : List Char) :
    Weighs (cs ++ [x]) (burden .start (cs ++ [x])) := by
  refine ⟨?_, rfl⟩
  rw [Trail.after_append]
  exact Trail.next_of_not_isEscapeChar hx

/-
  A text that is put together weighs what its parts weigh.
-/
theorem weighs_flatMap
    {α : Type}
    (text : α → List Char)
    (weight : α → Nat)
    (items : List α)
    (h : ∀ x ∈ items, Weighs (text x) (weight x)) :
    Weighs (items.flatMap text) (items.map weight).sum := by
  induction items with
  | nil => exact ⟨rfl, rfl⟩
  | cons x items ih =>
      rw [List.forall_mem_cons] at h
      exact h.1.append (ih h.2)

------------------------------------------------------------
-- Plain Texts
------------------------------------------------------------

/- A class of characters with no such mark is plain. -/
theorem all_isPlain_of
    {p : Char → Bool}
    {cs : List Char}
    (hp : ['\\', '"', '`'].all (fun c => !p c) = true)
    (hcs : cs.all p = true) :
    cs.all isPlain = true :=
  all_not_mem_of hp hcs

theorem Number.all_isPlain_text (n : Number) :
    n.text.all isPlain = true :=
  all_isPlain_of rfl n.all_isNumberChar_text

theorem Date.all_isPlain_text (d : Date) :
    d.text.all isPlain = true :=
  all_isPlain_of rfl d.all_isDateChar_text

theorem Time.all_isPlain_text (t : Time) :
    t.text.all isPlain = true :=
  all_isPlain_of rfl t.all_isTimeChar_text

/-
  A date-time with a legible zone shows plain characters.
-/
theorem DateTime.all_isPlain_text
    {zones : ZoneTable}
    {x : DateTime}
    (hx : x.IsLegible zones) :
    x.text.all isPlain = true := by
  have hName := hx.1
  rw [isZoneName, Bool.and_eq_true] at hName
  have hZone :=
    all_isPlain_of (p := isZoneChar) rfl hName.2
  have hOffset :=
    all_isPlain_of rfl (all_isOffsetChar_offsetText x.offset)
  have hMarks : isPlain 'T' = true ∧ isPlain ' ' = true :=
    ⟨rfl, rfl⟩
  simp [text, List.all_append, x.date.all_isPlain_text,
    x.time.all_isPlain_text, hOffset, hZone, hMarks]

theorem Coordinates.all_isPlain_text (p : Coordinates) :
    p.text.all isPlain = true :=
  all_isPlain_of rfl p.all_isPlaceChar_text

theorem Ref.all_isPlain_id (r : Ref) :
    ('@' :: r.id.toList).all isPlain = true := by
  rw [List.all_cons, all_isPlain_of rfl r.all_isIdChar_id]
  rfl

------------------------------------------------------------
-- Values
------------------------------------------------------------

/- The burden of what is written for a value. -/
def Value.weight : Value → Nat
| .uri u => burden .start u.text
| .bin mime => burden .start mime.text
| _ => 0

/- Each spelling of a character between quotes ends a run. -/
theorem weighs_escape (c : Char) :
    Weighs (Zinc.escape c) 0 := by
  unfold Zinc.escape
  split_ifs with hNewline hReturn hTab hQuote hBackslash
    hControl
  · exact ⟨rfl, rfl⟩
  · exact ⟨rfl, rfl⟩
  · exact ⟨rfl, rfl⟩
  · exact ⟨rfl, rfl⟩
  · exact ⟨rfl, rfl⟩
  · have hCodes : ∀ n < 32,
        Trail.start.after (['\\', 'u'] ++ hexText4 n) =
            .start ∧
          burden .start (['\\', 'u'] ++ hexText4 n) = 0 := by
      decide +kernel
    have hCode := hCodes c.toNat hControl
    exact ⟨hCode.1, hCode.2⟩
  · have hNone : '\\' ∉ [c] := by simpa [eq_comm] using hBackslash
    have hStart := Trail.after_start hNone
    exact ⟨hStart.1, hStart.2⟩

/- Quoted text weighs nothing. -/
theorem weighs_quote (cs : List Char) :
    Weighs (Zinc.quote cs) 0 := by
  have hAll :=
    weighs_flatMap Zinc.escape (fun _ => 0) cs
      (fun c _ => weighs_escape c)
  have hSum : (cs.map (fun _ => 0)).sum = 0 := by simp
  rw [hSum] at hAll
  have hMark : Weighs ['"'] 0 := ⟨rfl, rfl⟩
  exact (hMark.append hAll).append hMark

/- Nor does a reference, whose label is quoted. -/
theorem Ref.weighs_text (r : Ref) :
    Weighs r.text 0 := by
  unfold text
  refine (weighs_plain r.all_isPlain_id).append (m := 0) ?_
  cases r.dis with
  | none => exact ⟨rfl, rfl⟩
  | some dis =>
      have hSpace : Weighs [' '] 0 := ⟨rfl, rfl⟩
      exact hSpace.append (weighs_quote dis.toList)

/- Only URIs and media types weigh anything. -/
theorem Value.weighs_textIn
    {zones : ZoneTable}
    {dialect : Dialect}
    {v : Value}
    (hv : v.IsReadable zones dialect) :
    Weighs (v.textIn dialect) v.weight := by
  cases v with
  | number n =>
      have hText := weighs_plain n.all_isPlain_text
      cases dialect <;> simpa [textIn, text, weight] using hText
  | str text =>
      have hText := weighs_quote text.toList
      cases dialect <;> simpa [textIn, Value.text, weight] using hText
  -- The closing mark ends a run, whatever is before it.
  | uri u =>
      have hText : Weighs u.text (burden .start u.text) :=
        weighs_closed rfl ('`' :: u.address.toList.flatMap _)
      cases dialect <;> simpa [textIn, text, weight] using hText
  | bin mime =>
      cases dialect with
      | filter => cases hv
      | zinc =>
          have hText :
              Weighs mime.text (burden .start mime.text) :=
            weighs_closed rfl
              ('B' :: 'i' :: 'n' :: '(' :: mime.name.toList)
          simpa [textIn, text, weight] using hText
  | coord p =>
      cases dialect with
      | filter => cases hv
      | zinc =>
          simpa [textIn, text, weight] using
            weighs_plain p.all_isPlain_text
  | date d =>
      cases dialect <;>
        simpa [textIn, text, weight] using
          weighs_plain d.all_isPlain_text
  | time t =>
      cases dialect <;>
        simpa [textIn, text, weight] using
          weighs_plain t.all_isPlain_text
  | dateTime x =>
      have hText := weighs_plain (DateTime.all_isPlain_text
        (show x.IsLegible zones by cases dialect <;> exact hv))
      cases dialect <;> simpa [textIn, text, weight] using hText
  | ref r =>
      cases dialect with
      | zinc => simpa [textIn, text, weight] using r.weighs_text
      | filter =>
          simpa [textIn, weight] using
            weighs_plain r.all_isPlain_id
  | bool b =>
      cases dialect <;> cases b <;>
        simp only [textIn, text] <;> exact ⟨rfl, rfl⟩
  | list items => cases dialect <;> cases hv
  | dict d => cases dialect <;> cases hv
  | _ =>
      cases dialect with
      | filter => cases hv
      | zinc =>
          simp only [textIn, text]
          exact ⟨rfl, rfl⟩

------------------------------------------------------------
-- Grids
------------------------------------------------------------

/- The burden of what is written for a record. -/
def Record.weight (r : Record) : Nat :=
  (r.values.map Value.weight).sum

/- The burden of what is written for a grid. -/
def Grid.weight (g : Grid) : Nat :=
  (g.records.map Record.weight).sum

namespace Zinc

/- The name of a tag weighs nothing. -/
theorem weighs_name
    {name : String}
    (hName : isTagName name.toList = true) :
    Weighs name.toList 0 :=
  weighs_plain
    (all_isPlain_of (p := isTagChar) rfl
      (all_isTagChar_of_isTagName hName))

/- A tag weighs what its value weighs. -/
theorem weighs_entryText
    {zones : ZoneTable}
    {e : String × Value}
    (hName : isTagName e.1.toList = true)
    (hv : e.2.IsReadable zones .zinc) :
    Weighs (Value.entryText e.1 e.2) e.2.weight := by
  have hKey := weighs_name hName
  rcases entryText_eq e.1 e.2 with ⟨hMarker, hText⟩ | hText
  · rw [hText, hMarker]
    exact hKey
  · have hColon : Weighs [':'] 0 := ⟨rfl, rfl⟩
    have hAll :=
      hKey.append (hColon.append (Value.weighs_textIn hv))
    rw [hText]
    rwa [Nat.zero_add, Nat.zero_add] at hAll

/- Tags weigh what their values weigh together. -/
theorem weighs_metadataText
    {zones : ZoneTable}
    {r : Record}
    (hr : r.IsReadable zones) :
    Weighs (metadataText r) r.weight := by
  have hAll :=
    weighs_flatMap
      (fun e : String × Value =>
        ' ' :: Value.entryText e.1 e.2)
      (fun e => e.2.weight) r.entries (by
        intro e he
        have hSpace : Weighs [' '] 0 := ⟨rfl, rfl⟩
        have hEntry :=
          weighs_entryText (hr.2 e he).1 (hr.2 e he).2
        have hBoth := hSpace.append hEntry
        rwa [Nat.zero_add] at hBoth)
  have hWeight :
      r.weight = (r.entries.map (fun e => e.2.weight)).sum := by
    simp [Record.weight, Record.values, Function.comp_def]
  rw [hWeight]
  exact hAll

/- The weight of what a record has under a name. -/
def cellWeight
    (row : Record)
    (name : String) : Nat :=
  (row.get? name).elim 0 Value.weight

/-
  The text of a value weighs what the row has under its
  name.
-/
theorem weighs_text_of_get?
    {zones : ZoneTable}
    {row : Record}
    (hRow : row.IsReadable zones)
    {name : String}
    {v : Value}
    (hGet : row.get? name = some v) :
    Weighs v.text (cellWeight row name) := by
  have hMem := (Dict.mem_entries_iff hRow.1 name v).mpr hGet
  have hText := Value.weighs_textIn (hRow.2 _ hMem).2
  rw [Value.textIn_zinc] at hText
  rw [cellWeight, hGet]
  exact hText

/-
  A cell weighs what its value weighs, in the first column
  too.
-/
theorem weighs_cellText
    {zones : ZoneTable}
    {row : Record}
    (hRow : row.IsReadable zones)
    (name : String) :
    Weighs (cellText row name) (cellWeight row name) ∧
      Weighs (firstCellText row name)
        (cellWeight row name) := by
  unfold cellText firstCellText
  cases hGet : row.get? name with
  | none =>
      rw [cellWeight, hGet]
      exact ⟨⟨rfl, rfl⟩, ⟨rfl, rfl⟩⟩
  | some v =>
      have hText := weighs_text_of_get? hRow hGet
      exact ⟨hText, hText⟩

/- A row weighs what its cells weigh together. -/
theorem weighs_rowText
    {zones : ZoneTable}
    {row : Record}
    (hRow : row.IsReadable zones)
    (names : List String) :
    Weighs (rowText row names)
      (names.map (cellWeight row)).sum := by
  cases names with
  | nil => exact ⟨rfl, rfl⟩
  | cons name names =>
      refine (weighs_cellText hRow name).2.append ?_
      refine weighs_flatMap _ _ names ?_
      intro next _
      have hComma : Weighs [','] 0 := ⟨rfl, rfl⟩
      have hCell := hComma.append (weighs_cellText hRow next).1
      rwa [Nat.zero_add] at hCell

/-
  The cells of different columns weigh no more than the row.
-/
theorem sum_cellWeight_le
    (row : Record)
    {names : List String}
    (hNodup : names.Nodup) :
    (names.map (cellWeight row)).sum ≤ row.weight := by
  have hLe := Dict.sum_get?_le Value.weight hNodup row
  have hWeight :
      row.weight =
        (row.entries.map (fun e => e.2.weight)).sum := by
    simp [Record.weight, Record.values, Function.comp_def]
  rw [hWeight]
  exact hLe

/- The end of a line weighs nothing. -/
theorem weighs_lineText
    {cs : List Char}
    {n : Nat}
    (hcs : Weighs cs n) :
    Weighs (lineText cs) n :=
  hcs.append ⟨rfl, rfl⟩

/- The line of columns weighs nothing. -/
theorem weighs_namesText
    {names : List String}
    (hNames : ∀ name ∈ names, isTagName name.toList = true) :
    Weighs (List.intercalate [','] (names.map String.toList))
      0 := by
  cases names with
  | nil => exact ⟨rfl, rfl⟩
  | cons name names =>
      have hMore :=
        weighs_flatMap (fun n : String => ',' :: n.toList)
          (fun _ => 0) names (by
            intro next hNext
            have hComma : Weighs [','] 0 := ⟨rfl, rfl⟩
            exact
              hComma.append
                (weighs_name
                  (hNames next (List.mem_cons_of_mem _ hNext))))
      have hSum : (names.map (fun _ => 0)).sum = 0 := by simp
      rw [hSum] at hMore
      rw [intercalate_names]
      exact
        (weighs_name
          (hNames name (List.mem_cons_self ..))).append hMore

/- No text of a grid has more than its values weigh. -/
theorem burden_gridText_le
    {zones : ZoneTable}
    {g : Grid}
    (hg : g.IsReadable zones) :
    burden .start (gridText g) ≤ g.weight := by
  have hNodup := nodup_columnNames g.rows
  have hNames : ∀ n ∈ columnNames g.rows,
      isTagName n.toList = true :=
    fun n hn => isTagName_of_mem_columnNames hg.isWritten.rowKeys hn
  have hVersion : Weighs "ver:\"2.0\"".toList 0 := ⟨rfl, rfl⟩
  have hMetadata :=
    hVersion.append
      (weighs_metadataText (hg _ (List.mem_cons_self ..)))
  have hRows :=
    weighs_flatMap
      (fun row =>
        lineText (rowText row (columnNames g.rows)))
      (fun row =>
        ((columnNames g.rows).map (cellWeight row)).sum)
      g.rows
      (fun row hRow =>
        weighs_lineText
          (weighs_rowText
            (hg row (List.mem_cons_of_mem _ hRow)) _))
  have hText :=
    ((weighs_lineText hMetadata).append
      (weighs_lineText (weighs_namesText hNames))).append hRows
  have hSum :
      (g.rows.map (fun row =>
          ((columnNames g.rows).map (cellWeight row)).sum)).sum ≤
        (g.rows.map Record.weight).sum :=
    List.sum_le_sum (fun row _ => sum_cellWeight_le row hNodup)
  rw [Grid.weight, Grid.records, List.map_cons, List.sum_cons]
  calc
    burden .start (gridText g) = _ := hText.burden_eq
    _ ≤ _ := by omega

end Zinc

end Haystack
