import Haystack.Proofs.Calendar.Instants
import Haystack.Proofs.Zinc.Alphabets
import Haystack.Proofs.Zinc.Grids

/-
  This file counts the line ends in the text of a grid: one
  after each line, and those in the names of media types.
  Nothing else that is written ends a line, whatever texts
  and values it holds.

  Key definitions include:
    * `isInLine`
    * `Value.HasKnownZone`
    * `Value.lineEnds`
    * `Grid.IsTagged`
    * `Grid.lineEnds`
    * `Zinc.gridLines`

  Main declarations:
    * `Value.count_text`
    * `Zinc.count_gridText`
    * `Zinc.count_encode`
-/

namespace Haystack

------------------------------------------------------------
-- Texts on One Line
------------------------------------------------------------

/- The character does not end a line. -/
def isInLine (c : Char) : Bool :=
  c ∉ ['\n', '\r']

/- A text is on one line if neither character ends it. -/
theorem all_isInLine_iff {cs : List Char} :
    cs.all isInLine = true ↔ '\n' ∉ cs ∧ '\r' ∉ cs := by
  constructor
  · intro h
    exact ⟨not_mem_of_all rfl h, not_mem_of_all rfl h⟩
  · rintro ⟨hNewline, hReturn⟩
    rw [List.all_eq_true]
    intro c hc
    refine decide_eq_true ?_
    rw [List.mem_cons, List.mem_singleton]
    rintro (rfl | rfl)
    · exact hNewline hc
    · exact hReturn hc

theorem all_isInLine_of
    {p : Char → Bool}
    {cs : List Char}
    (hp : ['\n', '\r'].all (fun c => !p c) = true)
    (hcs : cs.all p = true) :
    cs.all isInLine = true :=
  all_not_mem_of hp hcs

/- A text on one line has no ends of lines to count. -/
theorem count_of_all_isInLine
    {c : Char}
    (hc : isInLine c = false)
    {cs : List Char}
    (hcs : cs.all isInLine = true) :
    cs.count c = 0 :=
  List.count_eq_zero.mpr (not_mem_of_all hc hcs)

------------------------------------------------------------
-- Values
------------------------------------------------------------

/- Quoting writes ends of lines as escapes. -/
theorem Zinc.all_isInLine_quote (cs : List Char) :
    (quote cs).all isInLine = true :=
  all_isInLine_of rfl (all_isPrintable_quote cs)

/- A URI has no end of a line. -/
theorem Uri.all_isInLine_text (u : Uri) :
    u.text.all isInLine = true := by
  have hAddress :
      (u.address.toList.flatMap escape).all isInLine =
        true := by
    rw [List.all_flatMap, List.all_eq_true]
    intro c hc
    have hValid := List.all_eq_true.mp u.valid c hc
    unfold escape
    split_ifs
    · rfl
    · exact
        all_isInLine_of (p := isUriChar) rfl (by simp [hValid])
  rw [text, List.all_append, List.all_append, hAddress]
  rfl

/- A date-time is on one line if the name of its zone is. -/
theorem DateTime.all_isInLine_text
    {x : DateTime}
    (hName : x.zone.name.toList.all isInLine = true) :
    x.text.all isInLine = true := by
  have hDate := all_isInLine_of rfl x.date.all_isDateChar_text
  have hTime := all_isInLine_of rfl x.time.all_isTimeChar_text
  have hOffset :=
    all_isInLine_of rfl (all_isOffsetChar_offsetText x.offset)
  simp only [text, List.all_append, hDate, hTime, hOffset,
    hName]
  rfl

/- A reference is on one line, with its label quoted. -/
theorem Ref.all_isInLine_text (r : Ref) :
    r.text.all isInLine = true := by
  have hId := all_isInLine_of rfl r.all_isIdChar_id
  unfold text
  rw [List.all_append, List.all_append, hId]
  cases r.dis with
  | none => rfl
  | some dis =>
      rw [List.all_append, Zinc.all_isInLine_quote]
      rfl

------------------------------------------------------------
-- Names of Zones
------------------------------------------------------------

/- What encodes a character is among the bytes of a text. -/
theorem mem_bytes_of_mem
    {s : String}
    {c : Char}
    (hc : c ∈ s.toList)
    {b : UInt8}
    (hb : b ∈ String.utf8EncodeChar c) :
    b ∈ s.toByteArray.data.toList := by
  rw [← String.utf8Encode_toList, List.utf8Encode,
    List.data_toByteArray, List.toList_toArray,
    List.mem_flatMap]
  exact ⟨c, hc, hb⟩

/-
  By its bytes, as these are at hand without decoding the
  ids of all regions.
-/
theorem all_isInLine_of_mem_regionIds
    {id : String}
    (hId : id ∈ regionIds) :
    id.toList.all isInLine = true := by
  have hBytes :
      regionIds.all (fun id =>
          id.toByteArray.data.toList.all (fun b =>
            b.toNat ∉ [10, 13])) =
        true := by
    decide +kernel
  have hLine := List.all_eq_true.mp hBytes id hId
  rw [List.all_eq_true] at hLine
  rw [all_isInLine_iff]
  constructor <;>
    · intro hMem
      cases
        hLine _ (mem_bytes_of_mem hMem (List.mem_cons_self ..))

/- The name of a region is a part of its id. -/
theorem all_isInLine_of_mem_builtin
    {zone : Zone}
    (hZone : zone ∈ ZoneTable.builtin.zones) :
    zone.name.toList.all isInLine = true := by
  rcases List.mem_map.mp hZone with ⟨id, hId, rfl⟩
  have hLine := all_isInLine_of_mem_regionIds hId
  rw [List.all_eq_true] at hLine ⊢
  intro c hc
  apply hLine
  change c ∈ (regionName id).toList at hc
  rw [regionName, String.toList_ofList, List.mem_reverse] at hc
  exact
    List.mem_reverse.mp ((List.takeWhile_prefix _).subset hc)

------------------------------------------------------------
-- Line Ends in Values
------------------------------------------------------------

namespace Value

/- The zone of a date-time is a region of the table. -/
def HasKnownZone : Value → Prop
| .dateTime x => x.zone ∈ ZoneTable.builtin.zones
| _ => True

/- How often a character is in the name of a media type. -/
def lineEnds
    (c : Char) : Value → Nat
| .bin mime => mime.name.toList.count c
| _ => 0

variable {v : Value}

/- All but media types are written on one line. -/
theorem all_isInLine_text
    (hZone : v.HasKnownZone)
    (hKind : v.kind ≠ .bin) :
    v.text.all isInLine = true := by
  cases v with
  | bool b => cases b <;> (rw [text]; rfl)
  | number n =>
      rw [text]
      exact all_isInLine_of rfl n.all_isNumberChar_text
  | str s =>
      rw [text]
      exact Zinc.all_isInLine_quote s.toList
  | uri u =>
      rw [text]
      exact u.all_isInLine_text
  | bin mime => exact absurd rfl hKind
  | coord p =>
      rw [text]
      exact all_isInLine_of rfl p.all_isPlaceChar_text
  | date d =>
      rw [text]
      exact all_isInLine_of rfl d.all_isDateChar_text
  | time t =>
      rw [text]
      exact all_isInLine_of rfl t.all_isTimeChar_text
  | dateTime x =>
      rw [text]
      exact
        DateTime.all_isInLine_text
          (all_isInLine_of_mem_builtin hZone)
  | ref r =>
      rw [text]
      exact r.all_isInLine_text
  | list items =>
      rw [text]
      exact Zinc.all_isInLine_quote (itemsText items)
  | dict d =>
      rw [text]
      exact Zinc.all_isInLine_quote (entriesText d.entries)
  | _ =>
      rw [text]
      rfl

/- Only media types have ends of lines. -/
theorem lineEnds_eq_zero
    (c : Char)
    (hKind : v.kind ≠ .bin) :
    v.lineEnds c = 0 := by
  cases v <;> first | rfl | exact absurd rfl hKind

/- The line ends in a cell are those of its media type. -/
theorem count_text
    {c : Char}
    (hc : isInLine c = false)
    (hZone : v.HasKnownZone) :
    v.text.count c = v.lineEnds c := by
  by_cases hKind : v.kind = .bin
  · cases v <;> cases hKind
    next mime =>
      have hOpen : ['B', 'i', 'n', '('].count c = 0 :=
        count_of_all_isInLine hc rfl
      have hClose : [')'].count c = 0 :=
        count_of_all_isInLine hc rfl
      rw [text, MimeType.text, List.count_append,
        List.count_append, hOpen, hClose, Nat.zero_add]
      rfl
  · rw [lineEnds_eq_zero c hKind]
    exact
      count_of_all_isInLine hc (all_isInLine_text hZone hKind)

end Value

------------------------------------------------------------
-- Line Ends in Grids
------------------------------------------------------------

namespace Record

/- Keys are names of tags, each once, and zones are known. -/
def IsTagged (r : Record) : Prop :=
  r.HasUniqueKeys ∧
    ∀ e ∈ r.entries,
      isTagName e.1.toList = true ∧ e.2.HasKnownZone

/- How often a character is in the names of media types. -/
def lineEnds
    (c : Char)
    (r : Record) : Nat :=
  (r.values.map (Value.lineEnds c)).sum

end Record

namespace Grid

/- Each record is tagged. -/
def IsTagged (g : Grid) : Prop :=
  ∀ r ∈ g.records, r.IsTagged

/- How often a character is in the names of media types. -/
def lineEnds
    (c : Char)
    (g : Grid) : Nat :=
  (g.records.map (Record.lineEnds c)).sum

/-
  A grid has no ends of lines just if no cell or tag is a
  media type with one.
-/
theorem lineEnds_eq_zero_iff
    {c : Char}
    {g : Grid} :
    g.lineEnds c = 0 ↔
      ∀ r ∈ g.records, ∀ mime : MimeType,
        .bin mime ∈ r.values → c ∉ mime.name.toList := by
  have hRecord (r : Record) :
      r.lineEnds c = 0 ↔
        ∀ mime : MimeType,
          .bin mime ∈ r.values → c ∉ mime.name.toList := by
    rw [Record.lineEnds, List.sum_eq_zero_iff,
      List.forall_mem_map]
    constructor
    · intro h mime hMime
      exact List.count_eq_zero.mp (h _ hMime)
    · intro h v hv
      cases v with
      | bin mime => exact List.count_eq_zero.mpr (h mime hv)
      | _ => rfl
  rw [lineEnds, List.sum_eq_zero_iff, List.forall_mem_map]
  simp only [hRecord]

end Grid

namespace Zinc

section Lines

variable {c : Char}
variable (hc : isInLine c = false)

include hc

/- Names of tags end no line. -/
theorem count_tagName
    {cs : List Char}
    (hName : isTagName cs = true) :
    cs.count c = 0 :=
  count_of_all_isInLine hc
    (all_isInLine_of (p := isTagChar) rfl
      (all_isTagChar_of_isTagName hName))

/- A tag has the ends of lines that its value has. -/
theorem count_entryText
    {e : String × Value}
    (hName : isTagName e.1.toList = true)
    (hZone : e.2.HasKnownZone) :
    (Value.entryText e.1 e.2).count c = e.2.lineEnds c := by
  have hKey := count_tagName hc hName
  rcases entryText_eq e.1 e.2 with ⟨hMarker, hText⟩ | hText
  · rw [hText, hMarker, hKey]
    rfl
  · have hColon : [':'].count c = 0 :=
      count_of_all_isInLine hc rfl
    rw [hText, List.append_cons, List.count_append,
      List.count_append, hKey, hColon, Value.textIn_zinc,
      Value.count_text hc hZone, Nat.zero_add]

/- What is said about a grid has those of its values. -/
theorem count_metadataText
    {r : Record}
    (hr : r.IsTagged) :
    (metadataText r).count c = r.lineEnds c := by
  have hSpace : [' '].count c = 0 :=
    count_of_all_isInLine hc rfl
  unfold metadataText Record.lineEnds Record.values
  rw [List.count_flatMap, List.map_map]
  congr 1
  apply List.map_congr_left
  intro e he
  have hEntry := hr.2 e he
  rw [Function.comp_apply, Function.comp_apply,
    ← List.singleton_append, List.count_append, hSpace,
    Nat.zero_add, count_entryText hc hEntry.1 hEntry.2]

/- A cell has those of its value, if it has one. -/
theorem count_cellText
    {row : Record}
    (hRow : row.IsTagged)
    (name : String) :
    (cellText row name).count c =
        (row.get? name).elim 0 (Value.lineEnds c) ∧
      (firstCellText row name).count c =
        (row.get? name).elim 0 (Value.lineEnds c) := by
  unfold cellText firstCellText
  cases hGet : row.get? name with
  | none => exact ⟨rfl, count_of_all_isInLine hc rfl⟩
  | some v =>
      have hMem := Dict.mem_entries_of_get? hGet
      have hText := Value.count_text hc (hRow.2 _ hMem).2
      exact ⟨hText, hText⟩

/- The cells of a row are those of all its entries. -/
theorem count_rowText
    {row : Record}
    (hRow : row.IsTagged)
    {names : List String}
    (hNodup : names.Nodup)
    (hKeys : row.keys ⊆ names) :
    (rowText row names).count c = row.lineEnds c := by
  have hComma : [','].count c = 0 :=
    count_of_all_isInLine hc rfl
  have hCells :
      (rowText row names).count c =
        (names.map (fun name =>
          (row.get? name).elim 0 (Value.lineEnds c))).sum := by
    cases names with
    | nil => rfl
    | cons name names =>
        rw [rowText, List.count_append,
          (count_cellText hc hRow name).2, List.count_flatMap,
          List.map_cons, List.sum_cons]
        congr 2
        apply List.map_congr_left
        intro next _
        rw [Function.comp_apply, ← List.singleton_append,
          List.count_append, hComma, Nat.zero_add,
          (count_cellText hc hRow next).1]
  rw [hCells, Dict.sum_get?_eq _ hNodup hRow.1 hKeys,
    Record.lineEnds, Record.values, List.map_map]
  rfl

/- The line of columns has no end inside of it. -/
theorem count_namesText
    {names : List String}
    (hNames : ∀ name ∈ names, isTagName name.toList = true) :
    (List.intercalate [','] (names.map String.toList)).count
      c = 0 := by
  have hComma : [','].count c = 0 :=
    count_of_all_isInLine hc rfl
  cases names with
  | nil => rfl
  | cons name names =>
      rw [List.forall_mem_cons] at hNames
      rw [intercalate_names, List.count_append,
        count_tagName hc hNames.1, List.count_flatMap,
        Nat.zero_add, List.sum_eq_zero_iff]
      intro n hn
      rcases List.mem_map.mp hn with ⟨next, hNext, rfl⟩
      rw [Function.comp_apply, ← List.singleton_append,
        List.count_append, hComma, Nat.zero_add,
        count_tagName hc (hNames.2 next hNext)]

end Lines

/-
  The lines of a grid: what is said about it, the names of
  the columns, and the rows.
-/
def gridLines (g : Grid) : List (List Char) :=
  ("ver:\"2.0\"".toList ++ metadataText g.metadata) ::
    List.intercalate [',']
        ((columnNames g.rows).map String.toList) ::
      g.rows.map (fun row => rowText row (columnNames g.rows))

/- The text of a grid is its lines, each with its end. -/
theorem gridText_eq_flatMap (g : Grid) :
    gridText g = (gridLines g).flatMap lineText := by
  unfold gridText gridLines
  dsimp only
  rw [List.flatMap_cons, List.flatMap_cons, List.flatMap_map,
    List.append_assoc]

/- Two lines, and one for each row. -/
theorem length_gridLines (g : Grid) :
    (gridLines g).length = 2 + g.size := by
  unfold gridLines Grid.size
  rw [List.length_cons, List.length_cons, List.length_map]
  omega

/- Line ends are those inside lines and those after them. -/
theorem count_flatMap_lineText
    (c : Char)
    (lines : List (List Char)) :
    (lines.flatMap lineText).count c =
      lines.length * ['\n'].count c +
        (lines.map (List.count c)).sum := by
  induction lines with
  | nil => simp
  | cons line lines ih =>
      rw [List.flatMap_cons, List.count_append, lineText,
        List.count_append, ih, List.map_cons, List.sum_cons,
        List.length_cons, Nat.add_mul]
      omega

/- Lines end with the end of the last one. -/
theorem getLast?_flatMap_lineText
    {lines : List (List Char)}
    (h : lines ≠ []) :
    (lines.flatMap lineText).getLast? = some '\n' := by
  rcases List.eq_nil_or_concat lines with hNil | hLast
  · exact absurd hNil h
  · rcases hLast with ⟨before, line, rfl⟩
    simp [lineText]

/- Inside the lines there are those of media types. -/
theorem sum_count_gridLines
    {c : Char}
    (hc : isInLine c = false)
    {g : Grid}
    (hg : g.IsTagged) :
    ((gridLines g).map (List.count c)).sum = g.lineEnds c := by
  have hTagNames :
      ∀ row ∈ g.rows, ∀ key ∈ row.keys,
        isTagName key.toList = true := by
    intro row hRow key hKey
    rcases List.mem_map.mp hKey with ⟨e, he, rfl⟩
    exact
      ((hg row (List.mem_cons_of_mem _ hRow)).2 e he).1
  have hVersion : "ver:\"2.0\"".toList.count c = 0 :=
    count_of_all_isInLine hc rfl
  have hMetadata :=
    count_metadataText hc (hg _ (List.mem_cons_self ..))
  have hNames :=
    count_namesText hc
      (fun _ => isTagName_of_mem_columnNames hTagNames)
  have hRows :
      g.rows.map (fun row =>
          (rowText row (columnNames g.rows)).count c) =
        g.rows.map (Record.lineEnds c) := by
    apply List.map_congr_left
    intro row hRow
    exact
      count_rowText hc (hg row (List.mem_cons_of_mem _ hRow))
        (nodup_columnNames g.rows)
        (fun _ hKey => mem_columnNames hRow hKey)
  unfold gridLines Grid.lineEnds Grid.records
  rw [List.map_cons, List.map_cons, List.map_map,
    List.sum_cons, List.sum_cons, List.count_append, hVersion,
    hMetadata, hNames, List.map_cons, List.sum_cons,
    Nat.zero_add, Nat.zero_add]
  congr 2

/-
  Each line of a grid ends a line once, and media types do
  it as often as their names.
-/
theorem count_gridText
    {c : Char}
    (hc : isInLine c = false)
    {g : Grid}
    (hg : g.IsTagged) :
    (gridText g).count c =
      (2 + g.size) * ['\n'].count c + g.lineEnds c := by
  rw [gridText_eq_flatMap, count_flatMap_lineText,
    length_gridLines, sum_count_gridLines hc hg]

/-
  The text of a grid has two lines and one for each row, if
  and only if the names of its media types have no line end.
  Otherwise each of these ends a line too.
-/
theorem count_encode
    {g : Grid}
    (hg : g.IsTagged) :
    (encode g).toList.getLast? = some '\n' ∧
      (encode g).toList.count '\n' =
        2 + g.size + g.lineEnds '\n' ∧
      (encode g).toList.count '\r' = g.lineEnds '\r' ∧
      ((encode g).toList.count '\n' = 2 + g.size ∧
          '\r' ∉ (encode g).toList ↔
        ∀ r ∈ g.records, ∀ mime : MimeType,
          .bin mime ∈ r.values → mime.IsLegible) := by
  have hNewlines :
      (encode g).toList.count '\n' =
        2 + g.size + g.lineEnds '\n' := by
    rw [encode, String.toList_ofList, count_gridText rfl hg,
      List.count_singleton_self, Nat.mul_one]
  have hReturns :
      (encode g).toList.count '\r' = g.lineEnds '\r' := by
    have hOther : ['\n'].count '\r' = 0 := rfl
    rw [encode, String.toList_ofList, count_gridText rfl hg,
      hOther, Nat.mul_zero, Nat.zero_add]
  refine ⟨?_, hNewlines, hReturns, ?_⟩
  · rw [encode, String.toList_ofList, gridText_eq_flatMap]
    exact getLast?_flatMap_lineText (List.cons_ne_nil _ _)
  · rw [← List.count_eq_zero, hNewlines, hReturns,
      Nat.add_eq_left, Grid.lineEnds_eq_zero_iff,
      Grid.lineEnds_eq_zero_iff]
    constructor
    · rintro ⟨hNewline, hReturn⟩ r hr mime hMime
      exact ⟨hNewline r hr mime hMime, hReturn r hr mime hMime⟩
    · intro h
      constructor
      · exact fun r hr mime hMime => (h r hr mime hMime).1
      · exact fun r hr mime hMime => (h r hr mime hMime).2

/- A media type of two lines. -/
def brokenMime : MimeType :=
  ⟨"text/plain\r\n; a=b", by decide, by decide⟩

/-
  Lines in texts, in a media type inside of a list, and in a
  last cell.
-/
def notesGrid (last : Value) : Grid :=
  ⟨⟨[ ("dis", .str "Notes\r\nof a night")]⟩,
    [ ⟨[ ("id", .ref ⟨"n.1", some "One\nnight", rfl⟩),
        ("at", .dateTime DateTime.monroviaNight),
        ("body", .list [.bin brokenMime, .str "a\nb"])]⟩,
      ⟨[ ("speed", .number ⟨.ofInt (-12), some ⟨"m/s", rfl⟩⟩),
        ("last", last)]⟩]⟩

/-
  The breaks in texts are not counted, and the one of a last
  media type is, both of its characters.
-/
theorem count_notesGrid :
    ((notesGrid (.str "c\nd")).IsTagged ∧
        (encode (notesGrid (.str "c\nd"))).toList.count '\n' =
          4 ∧
        '\r' ∉ (encode (notesGrid (.str "c\nd"))).toList) ∧
      (notesGrid (.bin brokenMime)).IsTagged ∧
      (encode (notesGrid (.bin brokenMime))).toList.count
          '\n' = 5 ∧
      (encode (notesGrid (.bin brokenMime))).toList.count
          '\r' = 1 := by
  have hZone :
      DateTime.monroviaNight.zone ∈ ZoneTable.builtin.zones :=
    List.mem_map_of_mem
      (List.mem_of_getElem? (i := 319) (by decide +kernel))
  have hTagged (last : Value) (hLast : last.HasKnownZone) :
      (notesGrid last).IsTagged := by
    have hNames : ["speed", "last"].Nodup := by decide
    unfold Grid.IsTagged Record.IsTagged notesGrid
    simp only [Grid.records, List.forall_mem_cons]
    exact
      ⟨⟨by decide, ⟨rfl, trivial⟩, List.forall_mem_nil _⟩,
        ⟨by decide, ⟨rfl, trivial⟩, ⟨rfl, hZone⟩,
          ⟨rfl, trivial⟩, List.forall_mem_nil _⟩,
        ⟨hNames, ⟨rfl, trivial⟩, ⟨rfl, hLast⟩,
          List.forall_mem_nil _⟩,
        List.forall_mem_nil _⟩
  have hLegible :
      ∀ r ∈ (notesGrid (.str "c\nd")).records,
        ∀ mime : MimeType,
          .bin mime ∈ r.values → mime.IsLegible := by
    simp [notesGrid, Grid.records, Record.values]
  have hEnds :
      (notesGrid (.bin brokenMime)).lineEnds '\n' = 1 ∧
        (notesGrid (.bin brokenMime)).lineEnds '\r' = 1 := by
    decide
  have hLines := count_encode (hTagged (.str "c\nd") trivial)
  have hBreaks := count_encode (hTagged (.bin brokenMime) trivial)
  rw [hEnds.1, hEnds.2] at hBreaks
  exact
    ⟨⟨hTagged _ trivial, hLines.2.2.2.mpr hLegible⟩,
      hTagged _ trivial, hBreaks.2.1, hBreaks.2.2.1⟩

end Zinc

end Haystack
