import Haystack.Proofs.Store.History

/-
  This file shows what holds of every store that loading and
  changes can lead to: it is sound, all its records are among
  those that were brought to it, and a loaded store finds the
  last record with an id.

  Key definitions include:
    * `Change.Brings`
    * `Store.IsReachable`
    * `Record.lastNamed?`

  Main declarations:
    * `Store.IsReachable.isSound`
    * `Store.IsReachable.of_mem_toList`
    * `Store.find?_of_ofRows`
-/

namespace Haystack

/- The record that a change brings, if any, has a property. -/
def Change.Brings (p : Record → Prop) : Change → Prop
| .insert record => p record
| .update record => p record
| .remove _ => True
| .deleteAll _ => True

/- The last of some records that has an id. -/
def Record.lastNamed?
    (rows : List Record)
    (id : String) : Option Record :=
  rows.reverse.find?
    (fun r => (Record.id? r).any (fun ref => ref.id = id))

namespace Store

/-
  The stores that records with a property lead to, if they
  are loaded first and any changes follow, refused ones
  included.
-/
inductive IsReachable (p : Record → Prop) : Store → Prop where
| load
    {rows : List Record}
    {s : Store}
    (hRows : ∀ record ∈ rows, p record)
    (hLoad : ofRows rows = .ok s) :
    IsReachable p s
| change
    {s : Store}
    {change : Change}
    (hs : IsReachable p s)
    (hChange : change.Brings p) :
    IsReachable p (s.perform change).1

------------------------------------------------------------
-- Loading
------------------------------------------------------------

/- A store is sound from the start. -/
theorem isSound_ofRows
    {rows : List Record}
    {s : Store}
    (hLoad : ofRows rows = .ok s) :
    s.IsSound := by
  rw [← replay_of_insertAll hLoad]
  exact isSound_after _

/- A loaded store has the records of the map of their ids. -/
theorem entries_of_ofRows
    {rows : List Record}
    {s : Store}
    (hLoad : ofRows rows = .ok s) :
    s.entries =
      (replay (fun d c => c.perform d) .empty
        (rows.map .insert)).1 := by
  have hRun := replay_map_loaded hLoad []
  rw [List.append_nil] at hRun
  exact (congrArg Prod.fst hRun).symm

/- Of the records with an id, the last one loaded is found. -/
theorem find?_of_insertAll
    {rows : List Record}
    {s loaded : Store}
    (hLoad : s.insertAll rows = .ok loaded)
    (id : String) :
    loaded.find? id =
      (Record.lastNamed? rows id).or (s.find? id) := by
  unfold insertAll at hLoad
  unfold Record.lastNamed?
  induction rows generalizing s with
  | nil =>
      cases hLoad
      rfl
  | cons record rows ih =>
      rw [List.foldlM_cons] at hLoad
      cases hId : Record.id? record with
      | none =>
          have hInsert :
              s.insert record = .error .recordWithoutId := by
            rw [insert, (idOf_eq_error_iff record).mpr hId]
            rfl
          rw [hInsert] at hLoad
          cases hLoad
      | some r =>
          have hOk : idOf record = .ok r.id :=
            (idOf_eq_ok_iff record r.id).mpr ⟨r, hId, rfl⟩
          rw [insert_eq_ok s hOk] at hLoad
          rw [ih hLoad, find?_set, List.reverse_cons,
            List.find?_append, Option.or_assoc]
          congr 1
          by_cases hName : id = r.id
          · simp [hId, hName]
          · simp [hId, hName, Ne.symm hName]

/- Of rows with the same id the last one is found. -/
theorem find?_of_ofRows
    {rows : List Record}
    {s : Store}
    (hLoad : ofRows rows = .ok s)
    (id : String) :
    s.find? id = Record.lastNamed? rows id := by
  have hEmpty : empty.find? id = none := by
    simp [empty, find?]
  rw [find?_of_insertAll hLoad, hEmpty, Option.or_none]

------------------------------------------------------------
-- Reachable Stores
------------------------------------------------------------

section Reachable

variable {p : Record → Prop}
variable {s : Store}

/- A store stays sound, however it is changed. -/
theorem IsReachable.isSound (hs : s.IsReachable p) :
    s.IsSound := by
  induction hs with
  | load _ hLoad => exact isSound_ofRows hLoad
  | change _ _ ih => exact (ih.perform _).1

/-
  A property of all records of a map, and of the record that
  a change brings, is one of all records after the change.
-/
theorem forall_entries_perform
    {d : Dict Record}
    {change : Change}
    (hd : ∀ e ∈ d.entries, p e.2)
    (hChange : change.Brings p) :
    ∀ e ∈ (change.perform d).1.entries, p e.2 := by
  have hInsert {record : Record} (hNew : p record) (r : Ref) :
      ∀ e ∈ (d.insert r.id record).entries, p e.2 :=
    Dict.forall_entries_putEntry (p := fun e => p e.2) hNew hd
  cases change with
  | insert record =>
      rw [Change.perform]
      cases Record.id? record with
      | none => exact hd
      | some r => exact hInsert hChange r
  | update record =>
      rw [Change.perform]
      cases Record.id? record with
      | none => exact hd
      | some r =>
          dsimp only
          split_ifs
          · exact hInsert hChange r
          · exact hd
  | remove id =>
      exact fun e he => hd e (List.mem_of_mem_eraseP he)
  | deleteAll filter =>
      exact fun e he => hd e (List.mem_of_mem_filter he)

/- What one change keeps, a history of changes keeps. -/
theorem forall_entries_replay
    {changes : List Change}
    {d : Dict Record}
    (hd : ∀ e ∈ d.entries, p e.2)
    (hChanges : ∀ change ∈ changes, change.Brings p) :
    ∀ e ∈ (replay (fun d c => c.perform d) d
      changes).1.entries, p e.2 := by
  induction changes generalizing d with
  | nil => exact hd
  | cons change changes ih =>
      rw [List.forall_mem_cons] at hChanges
      exact
        ih (forall_entries_perform hd hChanges.1) hChanges.2

/- No change alters a record, so all have the property. -/
theorem IsReachable.forall_entries (hs : s.IsReachable p) :
    ∀ e ∈ s.entries.entries, p e.2 := by
  induction hs with
  | load hRows hLoad =>
      rw [entries_of_ofRows hLoad]
      apply forall_entries_replay
      · simp [Dict.empty]
      · intro change hChange
        rcases List.mem_map.mp hChange with ⟨record, hRow, rfl⟩
        exact hRows record hRow
  | @change s change hs hChange ih =>
      have hPerform :
          (change.perform s.entries).1 =
            (s.perform change).1.entries :=
        congrArg Prod.fst (hs.isSound.perform change).2
      rw [← hPerform]
      exact forall_entries_perform ih hChange

/-
  What all records have that are put in, all have that are
  there.
-/
theorem IsReachable.of_mem_toList
    (hs : s.IsReachable p)
    {record : Record}
    (hRecord : record ∈ s.toList) :
    p record := by
  rw [toList_eq, List.mem_map] at hRecord
  rcases hRecord with ⟨e, he, rfl⟩
  exact hs.forall_entries e he

end Reachable

end Store

end Haystack
