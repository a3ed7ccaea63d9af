import Haystack.Proofs.Json.Scalars
import Haystack.Proofs.Tag.Updates
import Haystack.Proofs.Zinc.RoundTrip

/-
  This file shows that values, however deep their lists and
  dicts are nested, and grids are found again in their JSON,
  down to the labels of all references inside.

  Key definitions include:
    * `Value.Step`
    * `Value.refAt?`
    * `Value.SameThroughout`
    * `Value.IsStoredThroughout`
    * `Grid.IsStoredThroughout`

  Main declarations:
    * `Json.exists_perm_ofMembers`
    * `Value.exists_ofJson_toJson`
    * `ofJson_toJson_of_isStoredThroughout`
-/

namespace Haystack

------------------------------------------------------------
-- Sorted Members
------------------------------------------------------------

namespace Json

/-
  A new member is put among the others, wherever that is.
-/
theorem perm_putMember
    {name : String}
    {members : List (String × Json)}
    (hNew : name ∉ members.map Prod.fst)
    (value : Json) :
    (putMember name value members).Perm
      ((name, value) :: members) := by
  induction members with
  | nil => exact List.Perm.refl _
  | cons m members ih =>
      rcases m with ⟨key, old⟩
      rw [List.map_cons, List.mem_cons, not_or] at hNew
      rw [putMember, if_neg hNew.1]
      split_ifs
      · exact List.Perm.refl _
      · exact
          ((ih hNew.2).cons _).trans (List.Perm.swap ..)

/- An object has the members that it is made of, sorted. -/
theorem exists_perm_ofMembers
    {members : List (String × Json)}
    (hNodup : (members.map Prod.fst).Nodup) :
    ∃ sorted,
      ofMembers members = .object sorted ∧
        sorted.Perm members := by
  have hFold : ∀ members before : List (String × Json),
      ((before ++ members).map Prod.fst).Nodup →
        (members.foldl (fun ms m => putMember m.1 m.2 ms)
          before).Perm (before ++ members) := by
    intro members
    induction members with
    | nil => simp
    | cons m members ih =>
        intro before hNodup
        have hPerm :
            (before ++ m :: members).Perm
              (m :: (before ++ members)) :=
          List.perm_middle
        have hNames := (hPerm.map Prod.fst).nodup_iff.mp hNodup
        rw [List.map_cons, List.nodup_cons, List.map_append,
          List.mem_append, not_or] at hNames
        have hPut := perm_putMember hNames.1.1 m.2
        have hNext :
            (putMember m.1 m.2 before ++ members).Perm
              (before ++ m :: members) :=
          (hPut.append_right members).trans hPerm.symm
        rw [List.foldl_cons]
        refine (ih _ ?_).trans hNext
        exact (hNext.map Prod.fst).nodup_iff.mpr hNodup
  exact ⟨_, rfl, hFold members [] hNodup⟩

end Json

------------------------------------------------------------
-- Sameness of Nested Values
------------------------------------------------------------

namespace Value

/- One step from a value to a value inside. -/
inductive Step where
| item (n : Nat)
| entry (key : String)

/- The value that a step leads to. -/
def inside? (v : Value) : Step → Option Value
| .item n =>
    match v with
    | .list items => items[n]?
    | _ => none
| .entry key =>
    match v with
    | .dict d => d.get? key
    | _ => none

/- The reference that some steps lead to, with its label. -/
def refAt? (v : Value) : List Step → Option Ref
| [] =>
    match v with
    | .ref r => some r
    | _ => none
| step :: steps =>
    (v.inside? step).bind (fun w => w.refAt? steps)

/-
  The values are the same, and have the same references with
  the same labels at the same places inside.
-/
structure SameThroughout (a b : Value) : Prop where
  same : (a == b) = true
  refAt?_eq : ∀ steps, a.refAt? steps = b.refAt? steps

/-
  Values that are the same inside lead to the same
  references.
-/
theorem refAt?_eq_of_rel
    {v w : Value}
    {step : Step}
    (h :
      Option.Rel SameThroughout (v.inside? step)
        (w.inside? step))
    (steps : List Step) :
    v.refAt? (step :: steps) = w.refAt? (step :: steps) := by
  rw [refAt?, refAt?]
  generalize v.inside? step = a at h
  generalize w.inside? step = b at h
  cases h with
  | none => rfl
  | some hSame => exact hSame.refAt?_eq steps

/- Lists that are alike have items that are alike. -/
theorem rel_getElem?
    {as bs : List Value}
    {R : Value → Value → Prop}
    (h : List.Forall₂ R as bs)
    (n : Nat) :
    Option.Rel R as[n]? bs[n]? := by
  induction h generalizing n with
  | nil => exact .none
  | cons hFirst _ ih =>
      cases n with
      | zero => exact .some hFirst
      | succ n => exact ih n

/- Lists are the same throughout if all their items are. -/
theorem sameThroughout_list
    {as bs : List Value}
    (h : List.Forall₂ SameThroughout as bs) :
    SameThroughout (.list as) (.list bs) where
  same := by
    change same _ _ = true
    rw [Value.same, sameItems_iff]
    exact h.imp fun _ _ h => h.same
  refAt?_eq := by
    rintro (_ | ⟨step, steps⟩)
    · rfl
    · apply refAt?_eq_of_rel
      cases step with
      | item n => exact rel_getElem? h n
      | entry key => exact .none

/- Dicts are the same throughout if all their entries are. -/
theorem sameThroughout_dict
    {a b : Record}
    (ha : a.HasUniqueKeys)
    (hb : b.HasUniqueKeys)
    (h :
      ∀ key,
        Option.Rel SameThroughout (a.get? key) (b.get? key)) :
    SameThroughout (.dict a) (.dict b) where
  same := by
    change (a == b) = true
    rw [Record.same_iff ha hb]
    intro key
    have hKey := h key
    generalize a.get? key = v at hKey
    generalize b.get? key = w at hKey
    cases hKey with
    | none => exact .none
    | some hSame => exact .some hSame.same
  refAt?_eq := by
    rintro (_ | ⟨step, steps⟩)
    · rfl
    · apply refAt?_eq_of_rel
      cases step with
      | item n => exact .none
      | entry key => exact h key

/- What is read of a stored value is the same throughout. -/
theorem sameThroughout_asRead
    {v : Value}
    (hSimple : v.IsSimple)
    (hv : v.IsStored) :
    SameThroughout (v.asRead .builtin .zinc) v := by
  cases v with
  | number n =>
      have hRead :
          asRead .builtin .zinc (.number n) = .number n := by
        rw [asRead_number]
        split_ifs with hFinite
        · rfl
        · rcases n with ⟨x, unit⟩
          cases hv.1.resolve_left hFinite
          rfl
      rw [hRead]
      exact ⟨by simp [BEq.beq, same], fun _ => rfl⟩
  | dateTime x =>
      refine ⟨x.asRead_same .builtin, ?_⟩
      rintro (_ | ⟨step, steps⟩)
      · rfl
      · cases step <;> rfl
  | list items => exact absurd rfl hSimple.1
  | dict d => exact absurd rfl hSimple.2
  | _ => exact ⟨by simp [asRead, BEq.beq, same], fun _ => rfl⟩

------------------------------------------------------------
-- Nested Values
------------------------------------------------------------

mutual

/-
  All values inside can be kept in JSON, and no key of a dict
  has two entries.
-/
def IsStoredThroughout : Value → Prop
| .list items => ItemsAreStored items
| .dict ⟨entries⟩ =>
    (entries.map Prod.fst).Nodup ∧ EntriesAreStored entries
| v => v.IsStored

/- All items can be kept in JSON. -/
def ItemsAreStored : List Value → Prop
| [] => True
| item :: items =>
    IsStoredThroughout item ∧ ItemsAreStored items

/- All entries can be kept in JSON. -/
def EntriesAreStored : List (String × Value) → Prop
| [] => True
| (_, value) :: entries =>
    IsStoredThroughout value ∧ EntriesAreStored entries

end

/- The value is found again in its JSON. -/
def IsFoundAgain (v : Value) : Prop :=
  ∃ read,
    ofJson v.toJson = .ok (some read) ∧ SameThroughout read v

theorem membersOf_eq_map (entries : List (String × Value)) :
    membersOf entries =
      entries.map (fun e => (e.1, e.2.toJson)) := by
  induction entries with
  | nil => rfl
  | cons e entries ih =>
      rw [membersOf, ih]
      rfl

/- Items are found again one by one. -/
theorem exists_itemsOfJson
    {items : List Value}
    (h : ∀ item ∈ items, item.IsFoundAgain) :
    ∃ reads,
      itemsOfJson (itemsToJson items) = .ok reads ∧
        List.Forall₂ SameThroughout reads items := by
  induction items with
  | nil => exact ⟨[], rfl, .nil⟩
  | cons item items ih =>
      rw [List.forall_mem_cons] at h
      rcases h.1 with ⟨read, hRead, hSame⟩
      rcases ih h.2 with ⟨reads, hReads, hAll⟩
      refine ⟨read :: reads, ?_, .cons hSame hAll⟩
      rw [itemsToJson, itemsOfJson, hRead, hReads]
      rfl

/- The entries of an object keep their names and order. -/
theorem exists_entriesOf
    {members : List (String × Json)}
    (h : ∀ m ∈ members, ∃ read, ofJson m.2 = .ok (some read)) :
    ∃ reads,
      entriesOf members = .ok reads ∧
        List.Forall₂
          (fun r m => r.1 = m.1 ∧ ofJson m.2 = .ok (some r.2))
          reads members := by
  induction members with
  | nil => exact ⟨[], rfl, .nil⟩
  | cons m members ih =>
      rcases m with ⟨key, json⟩
      rw [List.forall_mem_cons] at h
      rcases h.1 with ⟨read, hRead⟩
      rcases ih h.2 with ⟨reads, hReads, hAll⟩
      refine ⟨(key, read) :: reads, ?_, .cons ⟨rfl, hRead⟩ hAll⟩
      rw [entriesOf, hRead, hReads]
      rfl

/- Entries are found again under their keys. -/
theorem exists_entriesOf_membersOf
    {entries : List (String × Value)}
    (hNodup : (entries.map Prod.fst).Nodup)
    (h : ∀ e ∈ entries, e.2.IsFoundAgain) :
    ∃ sorted reads,
      Json.ofMembers (membersOf entries) = .object sorted ∧
        entriesOf sorted = .ok reads ∧
        SameThroughout (.dict (.ofEntries reads))
          (.dict ⟨entries⟩) := by
  have hNames :
      ((membersOf entries).map Prod.fst).Nodup := by
    rwa [membersOf_eq_map, List.map_map]
  rcases Json.exists_perm_ofMembers hNames with
    ⟨sorted, hSorted, hPerm⟩
  have hFrom : ∀ m ∈ sorted,
      ∃ e ∈ entries, m = (e.1, e.2.toJson) := by
    intro m hm
    rw [hPerm.mem_iff, membersOf_eq_map, List.mem_map] at hm
    rcases hm with ⟨e, he, rfl⟩
    exact ⟨e, he, rfl⟩
  have hRead : ∀ m ∈ sorted,
      ∃ read, ofJson m.2 = .ok (some read) := by
    intro m hm
    rcases hFrom m hm with ⟨e, he, rfl⟩
    rcases h e he with ⟨read, hRead, _⟩
    exact ⟨read, hRead⟩
  rcases exists_entriesOf hRead with ⟨reads, hReads, hAll⟩
  refine ⟨sorted, reads, hSorted, hReads, ?_⟩
  have hKeys : reads.map Prod.fst = sorted.map Prod.fst := by
    rw [← List.forall₂_eq_eq_eq, List.forall₂_map_left_iff,
      List.forall₂_map_right_iff]
    exact hAll.imp fun _ _ h => h.1
  have hUnique : (reads.map Prod.fst).Nodup := by
    rw [hKeys, (hPerm.map Prod.fst).nodup_iff]
    exact hNames
  rw [Dict.ofEntries_of_nodup hUnique]
  -- Members come back sorted, so what counts is what is
  -- found under each key.
  refine sameThroughout_dict hUnique hNodup ?_
  intro key
  have hKey :=
    Dict.rel_get?
      (R := fun r json => ofJson json = .ok (some r)) hAll key
  rw [Dict.get?_eq_of_perm ((hPerm.map _).nodup_iff.mpr hNames)
      hPerm,
    membersOf_eq_map, Dict.get?_map] at hKey
  generalize hFirst : Dict.get? ⟨reads⟩ key = first at hKey
  cases hSecond : Dict.get? ⟨entries⟩ key with
  | none =>
      rw [hSecond] at hKey
      cases hKey
      exact .none
  | some v =>
      rw [hSecond] at hKey
      have he : (key, v) ∈ entries :=
        (Dict.mem_entries_iff (d := ⟨entries⟩) hNodup key v).mpr
          hSecond
      rcases h _ he with ⟨read, hRead, hSame⟩
      cases hKey with
      | some hOther =>
          rw [hRead] at hOther
          cases hOther
          exact .some hSame

/- Simple values are read back from their codes. -/
theorem isFoundAgain_of_isSimple
    {v : Value}
    (hSimple : v.IsSimple)
    (hv : v.IsStoredThroughout) :
    v.IsFoundAgain := by
  have hStored : v.IsStored := by
    cases v with
    | list items => exact absurd rfl hSimple.1
    | dict d => exact absurd rfl hSimple.2
    | _ => exact hv
  exact
    ⟨v.asRead .builtin .zinc,
      ofJson_toJson_of_isSimple hSimple hStored,
      sameThroughout_asRead hSimple hStored⟩

mutual

/- By induction on the value, each part is found again. -/
theorem isFoundAgain
    (v : Value)
    (hv : v.IsStoredThroughout) :
    v.IsFoundAgain := by
  match v with
  | .list items =>
      rw [IsStoredThroughout] at hv
      rcases exists_itemsOfJson (itemsAreFoundAgain items hv)
        with ⟨reads, hReads, hAll⟩
      refine ⟨.list reads, ?_, sameThroughout_list hAll⟩
      rw [toJson, ofJson, hReads]
      rfl
  | .dict ⟨entries⟩ =>
      rw [IsStoredThroughout] at hv
      rcases exists_entriesOf_membersOf hv.1
        (entriesAreFoundAgain entries hv.2)
        with ⟨sorted, reads, hSorted, hReads, hSame⟩
      refine ⟨.dict (.ofEntries reads), ?_, hSame⟩
      rw [toJson, hSorted, ofJson, hReads]
      rfl
  | .marker | .remove | .na | .bool _ | .number _ | .str _
  | .uri _ | .bin _ | .coord _ | .date _ | .time _
  | .dateTime _ | .ref _ =>
      exact isFoundAgain_of_isSimple (by simp [IsSimple, kind]) hv

/- Lists are read back item by item. -/
theorem itemsAreFoundAgain
    (items : List Value)
    (h : ItemsAreStored items) :
    ∀ item ∈ items, item.IsFoundAgain := by
  match items with
  | [] => simp
  | item :: items =>
      rw [ItemsAreStored] at h
      rw [List.forall_mem_cons]
      exact ⟨isFoundAgain item h.1, itemsAreFoundAgain items h.2⟩

/- Dicts are read back entry by entry. -/
theorem entriesAreFoundAgain
    (entries : List (String × Value))
    (h : EntriesAreStored entries) :
    ∀ e ∈ entries, e.2.IsFoundAgain := by
  match entries with
  | [] => simp
  | (key, value) :: entries =>
      rw [EntriesAreStored] at h
      rw [List.forall_mem_cons]
      exact
        ⟨isFoundAgain value h.1, entriesAreFoundAgain entries h.2⟩

end

end Value

------------------------------------------------------------
-- Records and Grids
------------------------------------------------------------

/- A record is read back, with all labels inside. -/
theorem Record.exists_ofJson_toJson
    {r : Record}
    (hr : (Value.dict r).IsStoredThroughout) :
    ∃ read,
      Record.ofJson r.toJson = .ok read ∧
        Value.SameThroughout (.dict read) (.dict r) := by
  rcases r with ⟨entries⟩
  rw [Value.IsStoredThroughout] at hr
  rcases Value.exists_entriesOf_membersOf hr.1
      (Value.entriesAreFoundAgain entries hr.2) with
    ⟨sorted, reads, hSorted, hReads, hSame⟩
  refine ⟨.ofEntries reads, ?_, hSame⟩
  rw [toJson, hSorted, ofJson, hReads]
  rfl

namespace Grid

/- All records can be kept in JSON. -/
def IsStoredThroughout (g : Grid) : Prop :=
  ∀ r ∈ g.records, (Value.dict r).IsStoredThroughout

/-
  The grids have the same records in the same order, labels
  of references inside included.
-/
def SameThroughout (a b : Grid) : Prop :=
  Value.SameThroughout (.dict a.metadata) (.dict b.metadata) ∧
    List.Forall₂
      (fun r s => Value.SameThroughout (.dict r) (.dict s))
      a.rows b.rows

/- Grids that are the same throughout are the same. -/
theorem SameThroughout.same
    {a b : Grid}
    (h : a.SameThroughout b) :
    (a == b) = true := by
  change (a.metadata == b.metadata && a.rows == b.rows) = true
  rw [Bool.and_eq_true, rows_same_iff]
  exact ⟨h.1.same, h.2.imp fun _ _ h => h.same⟩

/- Rows are found again one by one. -/
theorem exists_mapM_ofJson
    {rows : List Record}
    (h : ∀ r ∈ rows, (Value.dict r).IsStoredThroughout) :
    ∃ reads,
      (rows.map Record.toJson).mapM Record.ofJson = .ok reads ∧
        List.Forall₂
          (fun r s => Value.SameThroughout (.dict r) (.dict s))
          reads rows := by
  induction rows with
  | nil => exact ⟨[], rfl, .nil⟩
  | cons row rows ih =>
      rw [List.forall_mem_cons] at h
      rcases Record.exists_ofJson_toJson h.1 with
        ⟨read, hRead, hSame⟩
      rcases ih h.2 with ⟨reads, hReads, hAll⟩
      refine ⟨read :: reads, ?_, .cons hSame hAll⟩
      rw [List.map_cons, List.mapM_cons, hRead, hReads]
      rfl

/- A grid is read back, with all labels inside. -/
theorem exists_ofJson_toJson
    {g : Grid}
    (hg : g.IsStoredThroughout) :
    ∃ read,
      ofJson g.toJson = .ok read ∧ read.SameThroughout g := by
  rcases g with ⟨⟨entries⟩, rows⟩
  have hAll := List.forall_mem_cons.mp hg
  rcases Record.exists_ofJson_toJson hAll.1 with
    ⟨metadata, hMetadata, hSame⟩
  rcases exists_mapM_ofJson hAll.2 with ⟨reads, hReads, hRows⟩
  cases entries with
  | nil =>
      refine ⟨⟨.empty, reads⟩, ?_, ?_, hRows⟩
      · change
          (rowsOfJson (some (.array _)) >>= _ : Except _ _) = _
        rw [rowsOfJson, hReads]
        rfl
      · exact
          Value.sameThroughout_dict List.nodup_nil
            List.nodup_nil (fun _ => .none)
  | cons e entries =>
      refine ⟨⟨metadata, reads⟩, ?_, hSame, hRows⟩
      have hObject :
          toJson ⟨⟨e :: entries⟩, rows⟩ =
            .object
              [("meta", Record.toJson ⟨e :: entries⟩),
                ("rows", .array (rows.map Record.toJson))] := by
        have hAfter : ¬"rows" < "meta" := by decide
        simp [toJson, Dict.isEmpty, Json.ofMembers,
          Json.putMember, hAfter]
      rw [hObject, ofJson]
      change
        (Record.ofJson _ >>= fun _ =>
          rowsOfJson (some (.array _)) >>= _ : Except _ _) = _
      rw [hMetadata, rowsOfJson, hReads]
      rfl

end Grid

------------------------------------------------------------
-- Values and Grids that Are Kept
------------------------------------------------------------

/-
  Every value and every grid that can be kept in JSON is
  found again: the same, and with the labels of all
  references at whatever depth.
-/
theorem ofJson_toJson_of_isStoredThroughout
    {v : Value}
    {g : Grid}
    (hv : v.IsStoredThroughout)
    (hg : g.IsStoredThroughout) :
    (∃ read,
        Value.ofJson v.toJson = .ok (some read) ∧
          (read == v) = true ∧
          ∀ steps, read.refAt? steps = v.refAt? steps) ∧
      ∃ read,
        Grid.ofJson g.toJson = .ok read ∧
          (read == g) = true ∧ read.SameThroughout g := by
  constructor
  · rcases v.isFoundAgain hv with ⟨read, hRead, hSame⟩
    exact ⟨read, hRead, hSame.same, hSame.refAt?_eq⟩
  · rcases Grid.exists_ofJson_toJson hg with
      ⟨read, hRead, hSame⟩
    exact ⟨read, hRead, hSame.same, hSame⟩

/-
  A list of texts that look like other kinds, with a dict
  whose keys are not sorted and are no names of tags.
-/
def lookalikes : Value :=
  .list
    [.str "m:", .str "n:5 kW", .uri ⟨"r:a b", rfl⟩,
      .dict
        ⟨[("b c", .ref ⟨"a", some "u: \"A\"", rfl⟩),
          ("", .number ⟨.ofInt (-12), some ⟨"_kW", rfl⟩⟩),
          ("a", .list [.number (.plain (.infinity true))])]⟩]

def lookalikeGrid : Grid :=
  ⟨⟨[("dis", .str "x:")]⟩, [⟨[("all", lookalikes)]⟩, ⟨[]⟩]⟩

theorem isStoredThroughout_lookalikes :
    lookalikes.IsStoredThroughout := by
  have hUnit :
      Value.IsStored
        (.number ⟨.ofInt (-12), some ⟨"_kW", rfl⟩⟩) :=
    ⟨by decide, by decide⟩
  have hInfinite :
      Value.IsStored (.number (.plain (.infinity true))) :=
    ⟨by decide, by decide⟩
  exact
    ⟨trivial, trivial, trivial,
      ⟨by decide, trivial, hUnit, ⟨hInfinite, trivial⟩,
        trivial⟩,
      trivial⟩

/-
  Texts that look like codes are kept apart from codes, and
  a label inside a dict inside a list is found again.
-/
theorem ofJson_toJson_lookalikes :
    (∃ read,
        Value.ofJson lookalikes.toJson = .ok (some read) ∧
          (read == lookalikes) = true ∧
          read.refAt? [.item 3, .entry "b c"] =
            some ⟨"a", some "u: \"A\"", rfl⟩) ∧
      ∃ read,
        Grid.ofJson lookalikeGrid.toJson = .ok read ∧
          (read == lookalikeGrid) = true := by
  have hGrid : lookalikeGrid.IsStoredThroughout := by
    have hStored := isStoredThroughout_lookalikes
    intro r hr
    simp only [Grid.records, lookalikeGrid, List.mem_cons,
      List.not_mem_nil, or_false] at hr
    rcases hr with rfl | rfl | rfl
    · exact ⟨by decide, trivial, trivial⟩
    · exact ⟨by decide, hStored, trivial⟩
    · exact ⟨by decide, trivial⟩
  rcases
    ofJson_toJson_of_isStoredThroughout
      isStoredThroughout_lookalikes hGrid with
    ⟨⟨read, hRead, hSame, hRefs⟩, gridRead, hGridRead,
      hGridSame, -⟩
  exact
    ⟨⟨read, hRead, hSame, hRefs _⟩, gridRead, hGridRead,
      hGridSame⟩

end Haystack
