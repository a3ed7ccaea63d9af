import Haystack.Command.Basic
import Haystack.Proofs.Store.Labels
import Haystack.Proofs.Zinc.Exact

/-
  This file shows what a query answers: the grid that is read
  back from the answer has the rows of the given grid that
  the filter includes, while references lead to the last row
  with their id, and labels make no difference.

  Main declarations:
    * `Record.rel_lastNamed?`
    * `Store.filter_includes_map`
    * `query_encode`
-/

namespace Haystack

------------------------------------------------------------
-- Rows by Their Ids
------------------------------------------------------------

namespace Record

/- Whether a row has an id is all that keeps it in a store. -/
theorem lastNamed?_filter
    (rows : List Record)
    (id : String) :
    lastNamed? (rows.filter (fun r => (id? r).isSome)) id =
      lastNamed? rows id := by
  unfold lastNamed?
  rw [← List.filter_reverse, List.find?_filter]
  congr 1
  funext r
  cases id? r <;> simp

/- Of records that agree one by one, the same is found. -/
theorem rel_lastNamed?
    {rows others : List Record}
    (h : List.Forall₂ AgreesWith rows others)
    (id : String) :
    Option.Rel AgreesWith (lastNamed? rows id)
      (lastNamed? others id) := by
  unfold lastNamed?
  rw [← List.forall₂_reverse_iff] at h
  generalize rows.reverse = rows at h
  generalize others.reverse = others at h
  induction h with
  | nil => exact .none
  | @cons a b _ _ hFirst _ ih =>
      have hNamed :
          (id? a).any (fun ref => ref.id = id) =
            (id? b).any (fun ref => ref.id = id) := by
        have hIds := hFirst.map_id_ref? "id"
        have hAny (r : Option Ref) :
            r.any (fun ref => ref.id = id) =
              (r.map Ref.id).any (fun i => i = id) := by
          cases r <;> rfl
        rw [hAny, hAny]
        exact congrArg _ hIds
      rw [List.find?_cons, List.find?_cons, hNamed]
      cases (id? b).any (fun ref => ref.id = id) with
      | true => exact .some hFirst
      | false => exact ih

end Record

------------------------------------------------------------
-- Rows with Labels
------------------------------------------------------------

namespace Store

/- A label from the store does not make a value inexact. -/
theorem isExact_labelled
    (s : Store)
    {v : Value}
    (hv : v.IsExact) :
    (s.labelled v).IsExact := by
  cases v with
  | ref r =>
      rw [labelled]
      split <;> trivial
  | _ => exact hv

/- A record with labels can be read back as well. -/
theorem isExact_fillLabels
    (s : Store)
    {r : Record}
    (hr : r.IsExact) :
    (s.fillLabels r).IsExact := by
  constructor
  · rw [Dict.HasUniqueKeys, keys_fillLabels]
    exact hr.1
  · unfold fillLabels
    intro e he
    rcases List.mem_map.mp he with ⟨old, hOld, rfl⟩
    have hEntry := hr.2 old hOld
    split_ifs
    · exact hEntry
    · exact ⟨hEntry.1, s.isExact_labelled hEntry.2⟩

/-
  A store of rows that agree with others, by their ids, lets
  a filter include those of them that it would include of
  the others.
-/
theorem filter_includes_map
    {rows : List Record}
    {read : Record → Record}
    {s : Store}
    (hLoad :
      ofRows
          ((rows.map read).filter
            (fun r => (Record.id? r).isSome)) =
        .ok s)
    (hRead : ∀ row ∈ rows, (read row).AgreesWith row)
    (f : Filter) :
    (rows.map read).filter (s.includes f) =
      (rows.filter
        (f.includes (Record.lastNamed? rows))).map read := by
  have hAgree : Resolver.Agree s.find? (Record.lastNamed? rows) := by
    intro id
    rw [find?_of_ofRows hLoad, Record.lastNamed?_filter]
    apply Record.rel_lastNamed?
    rw [List.forall₂_map_left_iff, List.forall₂_same]
    exact hRead
  rw [List.filter_map]
  congr 1
  apply List.filter_congr
  intro row hRow
  exact f.includes_eq_of_agreesWith hAgree (hRead row hRow)

end Store

------------------------------------------------------------
-- Queries
------------------------------------------------------------

/-
  A query answers with the text of the grid that is found,
  if the filter and the input could be read.
-/
theorem query_of_decode
    {text source : String}
    {f : Filter}
    {g : Grid}
    {answer : Grid}
    {fillLabels : Bool}
    (hParse : Filter.parse text = .ok f)
    (hDecode : Zinc.decode source = .ok g)
    (hQuery : queryGrid f fillLabels g = .ok answer) :
    query ⟨text, .zinc, fillLabels⟩ (some source) =
      .ok (Zinc.encode answer) := by
  have hFilter :
      CommandError.ofLibrary (Filter.parse text) = pure f := by
    rw [hParse]
    rfl
  have hNeed :
      CommandError.need (some source) = pure source :=
    rfl
  have hGrid :
      CommandError.ofLibrary (Zinc.decode source) = pure g := by
    rw [hDecode]
    rfl
  simp only [query, hFilter, hNeed, hGrid, pure_bind, hQuery]
  rfl

/-
  A grid whose rows agree with those of another is read back
  as the other one.
-/
theorem Grid.IsExact.same_asRead
    {g : Grid}
    (hg : g.IsExact)
    {change : Record → Record}
    (hChange : ∀ row ∈ g.rows, (change row).AgreesWith row)
    (hAnswer :
      Grid.IsExact ⟨g.metadata, g.rows.map change⟩) :
    (Grid.asRead .builtin ⟨g.metadata, g.rows.map change⟩ ==
      g) = true := by
  have hSame {a b : Record}
      (hAgree : a.AgreesWith b)
      (ha : a.IsExact)
      (hb : b.IsExact) :
      (a == b) = true := by
    refine hAgree.same ha.1 hb.1 ?_
    intro e he
    exact Value.same_self (hb.2 e he).2.isSimple
  change (Record.asRead _ _ == _ && List.map _ _ == _) = true
  rw [Bool.and_eq_true, rows_same_iff,
    hg.metadata.asRead_eq .builtin, List.map_map,
    List.forall₂_map_left_iff, List.forall₂_same]
  have hRefl : g.metadata.AgreesWith g.metadata :=
    Record.agreesWith_of_get?_eq fun _ => rfl
  refine ⟨hSame hRefl hg.metadata hg.metadata, ?_⟩
  intro row hRow
  have hMem : change row ∈ g.rows.map change :=
    List.mem_map_of_mem hRow
  refine
    hSame ?_
      ((hAnswer.of_mem_rows hMem).of_perm
        (hAnswer.perm_asRow .builtin hMem))
      (hg.of_mem_rows hRow)
  exact
    (Record.agreesWith_of_get?_eq
      (hAnswer.get?_asRow .builtin hMem)).trans
      (hChange row hRow)

/-
  A query of what a grid is read as gives the rows that the
  filter includes of the grid itself, each with its entries
  in the order of the columns, and with labels if these are
  wanted.
-/
theorem Grid.IsExact.exists_queryGrid
    {g : Grid}
    (hg : g.IsExact)
    (f : Filter)
    (fillLabels : Bool) :
    ∃ change : Record → Record,
      queryGrid f fillLabels (g.asRead .builtin) =
          .ok
            ⟨g.metadata,
              (g.rows.filter
                (f.includes (Record.lastNamed? g.rows))).map
                change⟩ ∧
        ∀ row ∈ g.rows,
          (change row).AgreesWith row ∧ (change row).IsExact := by
  let read := Record.asRow .builtin (Zinc.columnNames g.rows)
  -- Rows are read with their keys in the order of columns,
  -- which no filter can tell.
  have hRead : ∀ row ∈ g.rows,
      (read row).AgreesWith row ∧ (read row).IsExact := by
    intro row hRow
    refine ⟨Record.agreesWith_of_get?_eq ?_, ?_⟩
    · exact hg.get?_asRow .builtin hRow
    · exact
        (hg.of_mem_rows hRow).of_perm
          (hg.perm_asRow .builtin hRow)
  have hIds :
      ∀ record ∈
          (g.rows.map read).filter
            (fun r => (Record.id? r).isSome),
        (Record.id? record).isSome :=
    fun record hRecord => (List.mem_filter.mp hRecord).2
  rcases Store.exists_insertAll hIds .empty with ⟨s, hLoad⟩
  have hStore :
      Store.ofRows
          ((g.asRead .builtin).rows.filter
            (fun r => (Record.id? r).isSome)) =
        .ok s :=
    hLoad
  have hIncluded :
      (g.asRead .builtin).rows.filter (s.includes f) =
        (g.rows.filter
          (f.includes (Record.lastNamed? g.rows))).map read :=
    Store.filter_includes_map hLoad
      (fun row hRow => (hRead row hRow).1) f
  have hQuery :
      queryGrid f fillLabels (g.asRead .builtin) =
        .ok
          ⟨(g.asRead .builtin).metadata,
            if fillLabels then
              ((g.asRead .builtin).rows.filter
                (s.includes f)).map s.fillLabels
            else
              (g.asRead .builtin).rows.filter
                (s.includes f)⟩ := by
    rw [queryGrid, hStore]
    rfl
  rw [hQuery, hg.metadata_asRead, hIncluded]
  cases fillLabels with
  | false => exact ⟨read, rfl, hRead⟩
  | true =>
      refine ⟨s.fillLabels ∘ read, ?_, ?_⟩
      · rw [if_pos rfl, List.map_map]
      · intro row hRow
        rcases hRead row hRow with ⟨hAgree, hExact⟩
        exact
          ⟨(s.agreesWith_fillLabels _).trans hAgree,
            s.isExact_fillLabels hExact⟩

/-
  A query of the text of a grid gives the text of a grid. It
  is read back as the grid that has the same tags and, in
  order, the rows that the filter includes, when a reference
  leads to the last row with its id.
-/
theorem query_encode
    {g : Grid}
    (hg : g.IsExact)
    {text : String}
    {f : Filter}
    (hParse : Filter.parse text = .ok f)
    (fillLabels : Bool) :
    let included :=
      g.rows.filter (f.includes (Record.lastNamed? g.rows))
    ∃ out answer,
      query ⟨text, .zinc, fillLabels⟩ (some (Zinc.encode g)) =
          .ok out ∧
        Zinc.decode out = .ok answer ∧
        (answer == ⟨g.metadata, included⟩) = true := by
  intro included
  rcases hg.exists_queryGrid f fillLabels with
    ⟨change, hQuery, hChange⟩
  have hIncluded : ∀ row ∈ included, row ∈ g.rows :=
    fun row hRow => List.mem_of_mem_filter hRow
  have hKept : Grid.IsExact ⟨g.metadata, included⟩ :=
    List.forall_mem_cons.mpr
      ⟨hg.metadata,
        fun row hRow => hg.of_mem_rows (hIncluded row hRow)⟩
  have hAnswer :
      Grid.IsExact ⟨g.metadata, included.map change⟩ :=
    List.forall_mem_cons.mpr
      ⟨hg.metadata,
        List.forall_mem_map.mpr
          fun row hRow => (hChange row (hIncluded row hRow)).2⟩
  have hAgree : ∀ row ∈ included,
      (change row).AgreesWith row :=
    fun row hRow => (hChange row (hIncluded row hRow)).1
  exact
    ⟨_, _, query_of_decode hParse hg.decode_encode hQuery,
      hAnswer.decode_encode, hKept.same_asRead hAgree hAnswer⟩

/- A pump at a station known by its reference alone. -/
def pump
    (station : String)
    (h : isRefId station.toList = true) : Record :=
  ⟨[("pump", .marker),
    ("stationRef", .ref ⟨station, none, h⟩)]⟩

/- Two rows have the same id, and those of pumps have none. -/
def pumpGrid : Grid :=
  ⟨⟨[("dis", .str "Pumps")]⟩,
    [⟨[("id", .ref ⟨"s", none, rfl⟩), ("name", .str "Old")]⟩,
      pump "s" rfl,
      ⟨[("name", .str "New"), ("id", .ref ⟨"s", none, rfl⟩)]⟩,
      pump "t" rfl]⟩

/- The later row is the one whose name counts. -/
theorem query_pumpGrid :
    ∃ f out answer,
      Filter.parse "stationRef->name==\"New\"" = .ok f ∧
        query ⟨"stationRef->name==\"New\"", .zinc, true⟩
            (some (Zinc.encode pumpGrid)) =
          .ok out ∧
        Zinc.decode out = .ok answer ∧
        (answer == ⟨⟨[("dis", .str "Pumps")]⟩,
          [pump "s" rfl]⟩) = true := by
  have hParse :
      Filter.parse "stationRef->name==\"New\"" =
        .ok
          (.cmp ⟨⟨"stationRef", rfl⟩, [⟨"name", rfl⟩]⟩ .eq
            (.str "New")) := by
    rfl
  have hExact : pumpGrid.IsExact := by
    decide
  rcases query_encode hExact hParse true with
    ⟨out, answer, hQuery, hDecode, hSame⟩
  exact ⟨_, out, answer, hParse, hQuery, hDecode, hSame⟩

end Haystack
