import Haystack.Proofs.Tag.Updates
import Haystack.Store

/-
  This file shows that the ids of a store and the records
  under them stay in step, and what each change of a store
  does to its records in their order.

  Key definitions include:
    * `Store.IsSound`
    * `Store.entries`
    * `Store.set`

  Main declarations:
    * `Store.IsSound.entries_set`
    * `Store.IsSound.entries_remove`
    * `Store.IsSound.entries_deleteAll`
-/

namespace Haystack

namespace Store

/-
  The ids in order are those of the records, each once, and
  each record is stored by the id of its own reference.
-/
structure IsSound (s : Store) : Prop where
  nodup : s.order.toList.Nodup
  mem_order_iff : ∀ id, id ∈ s.order ↔ id ∈ s.records
  id_of_find :
    ∀ id record, s.find? id = some record →
      ∃ r, Record.id? record = some r ∧ r.id = id

/- The records in order, each under its id. -/
def entries (s : Store) : Dict Record :=
  ⟨s.order.toList.filterMap
    (fun id => (s.find? id).map (Prod.mk id))⟩

/- Store a record by an id. -/
def set
    (s : Store)
    (id : String)
    (record : Record) : Store :=
  ⟨s.records.insert id record,
    if (s.find? id).isSome then s.order
    else s.order.push id⟩

------------------------------------------------------------
-- Contents
------------------------------------------------------------

/- A record that has an id is put in by it. -/
theorem idOf_eq_ok_iff
    (record : Record)
    (id : String) :
    idOf record = .ok id ↔
      ∃ r, Record.id? record = some r ∧ r.id = id := by
  unfold idOf
  cases Record.id? record with
  | none => simp
  | some r => simp

/- A record without an id is refused. -/
theorem idOf_eq_error_iff (record : Record) :
    idOf record = .error .recordWithoutId ↔
      Record.id? record = none := by
  unfold idOf
  cases Record.id? record with
  | none => simp
  | some r => simp

theorem isSound_empty : empty.IsSound where
  nodup := List.nodup_nil
  mem_order_iff := by simp [empty]
  id_of_find := by simp [empty, find?]

theorem isSome_find?_iff
    (s : Store)
    (id : String) :
    (s.find? id).isSome = true ↔ id ∈ s.records := by
  unfold find?
  rw [Std.HashMap.isSome_getElem?_iff_mem]

/- All records, in order, are those of the entries. -/
theorem toList_eq (s : Store) :
    s.toList = s.entries.entries.map Prod.snd := by
  rw [toList, entries, List.map_filterMap]
  congr 1
  funext id
  cases s.find? id <;> rfl

/-
  Where a record is put, it is found, and all others stay.
-/
theorem find?_set
    (s : Store)
    (id : String)
    (record : Record)
    (k : String) :
    (s.set id record).find? k =
      if k = id then some record else s.find? k := by
  unfold set find?
  rw [Std.HashMap.getElem?_insert]
  by_cases hk : k = id
  · simp [hk]
  · simp [hk, Ne.symm hk]

/- Where a record is taken out, none is found. -/
theorem find?_remove
    (s : Store)
    (id k : String) :
    (s.remove id).1.find? k =
      if k = id then none else s.find? k := by
  unfold remove
  cases hFind : s.find? id with
  | none =>
      dsimp only
      split_ifs with hk
      · rw [hk, hFind]
      · rfl
  | some record =>
      unfold find?
      dsimp only
      rw [Std.HashMap.getElem?_erase]
      by_cases hk : k = id
      · simp [hk]
      · simp [hk, Ne.symm hk]

/- What is taken out is what was there. -/
theorem remove_snd
    (s : Store)
    (id : String) :
    (s.remove id).2 = s.find? id := by
  unfold Store.remove
  cases s.find? id <;> rfl

namespace IsSound

variable {s : Store}

/- In a sound store all that is in the order is found. -/
theorem isSome_find?_iff_mem
    (hs : s.IsSound)
    (id : String) :
    (s.find? id).isSome = true ↔ id ∈ s.order.toList := by
  rw [isSome_find?_iff, ← hs.mem_order_iff, Array.mem_toList_iff]

/- The ids stand in the order that they came in. -/
theorem keys_entries (hs : s.IsSound) :
    s.entries.keys = s.order.toList := by
  rw [Dict.keys, entries, List.map_filterMap]
  have hIds :
      ∀ id ∈ s.order.toList,
        ((s.find? id).map (Prod.mk id)).map Prod.fst =
          some id := by
    intro id hMem
    rcases Option.isSome_iff_exists.mp
        ((hs.isSome_find?_iff_mem id).mpr hMem) with
      ⟨record, hFind⟩
    rw [hFind]
    rfl
  rw [List.filterMap_congr hIds, List.filterMap_some]

theorem hasUniqueKeys_entries (hs : s.IsSound) :
    s.entries.HasUniqueKeys := by
  unfold Dict.HasUniqueKeys
  rw [hs.keys_entries]
  exact hs.nodup

/- Looking an id up in the list finds the same record. -/
theorem get?_entries
    (hs : s.IsSound)
    (id : String) :
    s.entries.get? id = s.find? id := by
  apply Option.ext
  intro record
  rw [← Dict.mem_entries_iff hs.hasUniqueKeys_entries, entries,
    List.mem_filterMap]
  constructor
  · rintro ⟨k, _, hk⟩
    rcases Option.map_eq_some_iff.mp hk with ⟨r, hFind, hr⟩
    cases hr
    exact hFind
  · intro hFind
    have hMem : id ∈ s.order.toList := by
      rw [← hs.isSome_find?_iff_mem, hFind]
      rfl
    exact ⟨id, hMem, by rw [hFind]; rfl⟩

theorem size_records (hs : s.IsSound) :
    s.records.size = s.size := by
  have hPerm : s.records.keys.Perm s.order.toList := by
    rw [List.perm_ext_iff_of_nodup s.records.nodup_keys
      hs.nodup]
    intro id
    rw [Std.HashMap.mem_keys, ← hs.mem_order_iff,
      Array.mem_toList_iff]
  rw [← Std.HashMap.length_keys, hPerm.length_eq,
    Array.length_toList, size]

/- A store is given by its entries. -/
theorem entries_eq
    {d : Dict Record}
    (hs : s.IsSound)
    (hKeys : s.order.toList = d.keys)
    (hFind : ∀ id, s.find? id = d.get? id) :
    s.entries = d := by
  refine
    Dict.eq_of_keys_eq hs.hasUniqueKeys_entries
      (hs.keys_entries.trans hKeys) ?_
  intro id
  rw [hs.get?_entries, hFind]

------------------------------------------------------------
-- Storing
------------------------------------------------------------

/- An id that is new is put last, and all others stay. -/
theorem order_set
    (hs : s.IsSound)
    (id : String)
    (record : Record) :
    (s.set id record).order.toList =
      if id ∈ s.order.toList then s.order.toList
      else s.order.toList ++ [id] := by
  unfold set
  dsimp only
  rw [apply_ite Array.toList, Array.toList_push]
  simp only [hs.isSome_find?_iff_mem]

/- A record put in by its own id leaves the store sound. -/
theorem set
    (hs : s.IsSound)
    {id : String}
    {record : Record}
    (hId : idOf record = .ok id) :
    (s.set id record).IsSound where
  nodup := by
    rw [hs.order_set]
    split_ifs with hMem
    · exact hs.nodup
    · rw [← List.concat_eq_append]
      exact List.Nodup.concat hMem hs.nodup
  mem_order_iff := by
    intro k
    rw [← Array.mem_toList_iff, hs.order_set,
      ← isSome_find?_iff, find?_set]
    have hOld := hs.isSome_find?_iff_mem k
    split_ifs with hMem hk hk
    · simpa [hk] using hMem
    · exact hOld.symm
    · simp [hk]
    · simp [hk, hOld]
  id_of_find := by
    intro k r hFind
    rw [find?_set] at hFind
    split_ifs at hFind with hk
    · cases hFind
      rw [hk]
      exact (idOf_eq_ok_iff record id).mp hId
    · exact hs.id_of_find k r hFind

/- A record stored takes the place of that with its id. -/
theorem entries_set
    (hs : s.IsSound)
    {id : String}
    {record : Record}
    (hId : idOf record = .ok id) :
    (s.set id record).entries = s.entries.insert id record := by
  refine (hs.set hId).entries_eq ?_ ?_
  · rw [Dict.keys_insert, hs.keys_entries, hs.order_set]
  · intro k
    rw [find?_set, Dict.get?_insert, hs.get?_entries]

------------------------------------------------------------
-- Taking Away
------------------------------------------------------------

/- The other ids keep their order. -/
theorem order_remove
    (hs : s.IsSound)
    (id : String) :
    (s.remove id).1.order.toList =
      s.order.toList.filter (· ≠ id) := by
  unfold remove
  cases hFind : s.find? id with
  | none =>
      dsimp only
      rw [List.filter_eq_self.mpr]
      intro k hk
      have hne : k ≠ id := by
        rintro rfl
        rw [← hs.isSome_find?_iff_mem, hFind] at hk
        cases hk
      simpa using hne
  | some record =>
      dsimp only
      rw [Array.toList_filter]

/- Taking records out leaves the store sound. -/
theorem remove
    (hs : s.IsSound)
    (id : String) :
    (s.remove id).1.IsSound where
  nodup := by
    rw [hs.order_remove]
    exact hs.nodup.filter _
  mem_order_iff := by
    intro k
    rw [← Array.mem_toList_iff, hs.order_remove,
      ← isSome_find?_iff, find?_remove, List.mem_filter,
      ← hs.isSome_find?_iff_mem]
    by_cases hk : k = id
    · simp [hk]
    · simp [hk]
  id_of_find := by
    intro k r hFind
    rw [find?_remove] at hFind
    split_ifs at hFind with hk
    exact hs.id_of_find k r hFind

/- What is taken out is missing in the list, and no more. -/
theorem entries_remove
    (hs : s.IsSound)
    (id : String) :
    (s.remove id).1.entries = s.entries.erase id := by
  have hUnique := hs.hasUniqueKeys_entries
  refine (hs.remove id).entries_eq ?_ ?_
  · rw [Dict.keys_erase hUnique, hs.keys_entries,
      hs.order_remove]
  · intro k
    rw [find?_remove, Dict.get?_erase hUnique,
      hs.get?_entries]

/- Taking away one id after the other leaves all of them out. -/
theorem removeAll
    (hs : s.IsSound)
    (ids : List String) :
    (ids.foldl (fun s id => (s.remove id).1) s).IsSound ∧
      (ids.foldl (fun s id => (s.remove id).1) s).entries =
        ⟨s.entries.entries.filter (fun e => e.1 ∉ ids)⟩ := by
  induction ids generalizing s with
  | nil => simp [hs]
  | cons id ids ih =>
      rcases ih (hs.remove id) with ⟨hSound, hEntries⟩
      refine ⟨hSound, ?_⟩
      rw [List.foldl_cons, hEntries, hs.entries_remove,
        Dict.erase_eq_filter hs.hasUniqueKeys_entries,
        List.filter_filter]
      congr 1
      apply List.filter_congr
      intro e _
      simp [not_or, Bool.and_comm]

/- An entry is under the id of its record. -/
theorem id?_of_mem_entries
    (hs : s.IsSound)
    {e : String × Record}
    (he : e ∈ s.entries.entries) :
    (Record.id? e.2).map Ref.id = some e.1 := by
  have hGet :=
    (Dict.mem_entries_iff hs.hasUniqueKeys_entries e.1 e.2).mp
      he
  rw [hs.get?_entries] at hGet
  rcases hs.id_of_find e.1 e.2 hGet with ⟨r, hr, hId⟩
  rw [hr, ← hId]
  rfl

/- The ids of the records that a filter includes. -/
theorem ids_included
    (hs : s.IsSound)
    (f : Filter) :
    (s.toList.filter (s.includes f)).filterMap
        (fun r => (Record.id? r).map Ref.id) =
      (s.entries.entries.filter
        (fun e => s.includes f e.2)).map Prod.fst := by
  rw [toList_eq, List.filter_map, List.filterMap_map]
  rw [← List.filterMap_eq_map]
  apply List.filterMap_congr
  intro e he
  exact hs.id?_of_mem_entries (List.mem_of_mem_filter he)

/- Deleting leaves the store sound. -/
theorem deleteAll
    (hs : s.IsSound)
    (f : Filter) :
    (s.deleteAll f).1.IsSound :=
  (hs.removeAll _).1

/- Exactly the records that the filter includes are gone. -/
theorem entries_deleteAll
    (hs : s.IsSound)
    (f : Filter) :
    (s.deleteAll f).1.entries =
      ⟨s.entries.entries.filter
        (fun e => !s.includes f e.2)⟩ := by
  unfold Store.deleteAll
  dsimp only
  rw [(hs.removeAll _).2, hs.ids_included]
  congr 1
  apply List.filter_congr
  intro e he
  have hUnique := hs.hasUniqueKeys_entries
  have hIff :
      e.1 ∈ (s.entries.entries.filter
          (fun e => s.includes f e.2)).map Prod.fst ↔
        s.includes f e.2 = true := by
    rw [List.mem_map]
    constructor
    · rintro ⟨other, hOther, hKey⟩
      rw [List.mem_filter] at hOther
      have hFirst :=
        (Dict.mem_entries_iff hUnique _ _).mp hOther.1
      have hSecond :=
        (Dict.mem_entries_iff hUnique e.1 e.2).mp he
      rw [hKey, hSecond] at hFirst
      rw [Option.some.inj hFirst]
      exact hOther.2
    · intro hIncludes
      exact ⟨e, List.mem_filter.mpr ⟨he, hIncludes⟩, rfl⟩
  rw [Bool.eq_iff_iff, decide_eq_true_iff, hIff]
  simp

/-
  The number that is given back is that of the records that
  the filter includes.
-/
theorem deleteAll_snd
    (hs : s.IsSound)
    (f : Filter) :
    (s.deleteAll f).2 =
      s.entries.entries.countP (fun e => s.includes f e.2) := by
  unfold Store.deleteAll
  dsimp only
  rw [hs.ids_included, List.length_map,
    List.countP_eq_length_filter]

end IsSound

end Store

end Haystack
