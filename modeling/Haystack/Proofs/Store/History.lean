import Haystack.Proofs.Store.Soundness

/-
  This file shows that a store behaves as a map that keeps
  its records in the order of their arrival: after any
  changes, refused ones included, it has the records that
  such a map has, and each change gave back the same.

  Key definitions include:
    * `Change`
    * `Outcome`
    * `Store.perform`
    * `Change.perform`
    * `replay`
    * `Store.lastAbsent`

  Main declarations:
    * `Store.IsSound.perform`
    * `Store.IsSound.replay`
    * `Store.pairwise_lastAbsent`
    * `Store.replay_map_loaded`
    * `Store.replay_refines`
-/

namespace Haystack

------------------------------------------------------------
-- Changes
------------------------------------------------------------

/- A change of a store. -/
inductive Change where
| insert (record : Record)
| update (record : Record)
| remove (id : String)
| deleteAll (filter : Filter)

/- What a change gives back. -/
inductive Outcome where
| replaced (old : Option Record)
| updated (found : Bool)
| removed (old : Option Record)
| deleted (count : Nat)
| refused (error : ValueError)

/- Make a change. A refused one leaves the store as it is. -/
def Store.perform (s : Store) : Change → Store × Outcome
| .insert record =>
    match s.insert record with
    | .ok (next, old) => (next, .replaced old)
    | .error e => (s, .refused e)
| .update record =>
    match s.update record with
    | .ok (next, found) => (next, .updated found)
    | .error e => (s, .refused e)
| .remove id =>
    let (next, old) := s.remove id
    (next, .removed old)
| .deleteAll filter =>
    let (next, count) := s.deleteAll filter
    (next, .deleted count)

/- Change records that are kept in order under their ids. -/
def Change.perform (d : Dict Record) :
    Change → Dict Record × Outcome
| .insert record =>
    match Record.id? record with
    | some r =>
        (d.insert r.id record, .replaced (d.get? r.id))
    | none => (d, .refused .recordWithoutId)
| .update record =>
    match Record.id? record with
    | some r =>
        if d.has r.id then
          (d.insert r.id record, .updated true)
        else (d, .updated false)
    | none => (d, .refused .recordWithoutId)
| .remove id => (d.erase id, .removed (d.get? id))
| .deleteAll filter =>
    (⟨d.entries.filter
        (fun e => !filter.includes d.get? e.2)⟩,
      .deleted
        (d.entries.countP
          (fun e => filter.includes d.get? e.2)))

/- Make changes one after the other. -/
def replay
    {σ : Type}
    (step : σ → Change → σ × Outcome) :
    σ → List Change → σ × List Outcome
| state, [] => (state, [])
| state, change :: changes =>
    let first := step state change
    let rest := replay step first.1 changes
    (rest.1, first.2 :: rest.2)

section Replay

variable {σ : Type}
variable (step : σ → Change → σ × Outcome)

/-
  Changes in two parts are made one part after the other.
-/
theorem replay_append
    (state : σ)
    (before after : List Change) :
    replay step state (before ++ after) =
      ((replay step (replay step state before).1 after).1,
        (replay step state before).2 ++
          (replay step (replay step state before).1 after).2) := by
  induction before generalizing state with
  | nil => rfl
  | cons change before ih =>
      rw [List.cons_append, replay]
      simp only [ih]
      rfl

/- Each change has a result. -/
theorem length_replay
    (state : σ)
    (changes : List Change) :
    (replay step state changes).2.length = changes.length := by
  induction changes generalizing state with
  | nil => rfl
  | cons change changes ih =>
      rw [replay, List.length_cons, List.length_cons]
      simp only [ih]

end Replay

namespace Store

/- The store after a history that starts with no records. -/
def after (history : List Change) : Store :=
  (replay perform empty history).1

/-
  The number of changes after which an id was absent for the
  last time.
-/
def lastAbsent
    (history : List Change)
    (id : String) : Nat :=
  Nat.findGreatest
    (fun n => ((after (history.take n)).find? id).isNone)
    history.length

------------------------------------------------------------
-- One Change
------------------------------------------------------------

/-
  Records with an id are put in place of those with the same
  id, and these are given back.
-/
theorem insert_eq_ok
    (s : Store)
    {record : Record}
    {id : String}
    (hId : idOf record = .ok id) :
    s.insert record = .ok (s.set id record, s.find? id) := by
  unfold insert
  rw [hId]
  rfl

/- Only records with the id of another one are put in. -/
theorem update_eq_ok
    (s : Store)
    {record : Record}
    {id : String}
    (hId : idOf record = .ok id) :
    s.update record =
      .ok (if (s.find? id).isSome then s.set id record else s,
        (s.find? id).isSome) := by
  unfold update set
  rw [hId]
  change (if _ then _ else _) = _
  split_ifs with hFind
  · rw [hFind]
    rfl
  · rw [Bool.not_eq_true] at hFind
    rw [hFind]
    rfl

/- A record without an id is refused. -/
theorem perform_of_id?_eq_none
    (s : Store)
    {record : Record}
    (hId : Record.id? record = none) :
    s.perform (.insert record) =
        (s, .refused .recordWithoutId) ∧
      s.perform (.update record) =
        (s, .refused .recordWithoutId) := by
  have hError := (idOf_eq_error_iff record).mpr hId
  unfold perform insert update
  simp only [hError]
  exact ⟨rfl, rfl⟩

/- A refused change leaves the store as it is. -/
theorem perform_of_refused
    {s : Store}
    {change : Change}
    {e : ValueError}
    (h : (s.perform change).2 = .refused e) :
    (s.perform change).1 = s := by
  unfold perform at h ⊢
  cases change with
  | insert record => cases hInsert : s.insert record <;> simp_all
  | update record => cases hUpdate : s.update record <;> simp_all
  | remove id => simp at h
  | deleteAll filter => simp at h

/-
  A change keeps the store sound, and does to its records in
  order what it does to a map of them.
-/
theorem IsSound.perform
    {s : Store}
    (hs : s.IsSound)
    (change : Change) :
    (s.perform change).1.IsSound ∧
      change.perform s.entries =
        ((s.perform change).1.entries, (s.perform change).2) := by
  -- Both find the same records, and so choose the same way.
  have hGet : s.entries.get? = s.find? := by
    funext id
    exact hs.get?_entries id
  have hHas (id : String) :
      s.entries.has id = (s.find? id).isSome := by
    rw [Dict.has, hGet]
  cases change with
  | insert record =>
      cases hId : Record.id? record with
      | none =>
          rw [(s.perform_of_id?_eq_none hId).1]
          refine ⟨hs, ?_⟩
          rw [Change.perform]
          simp only [hId]
      | some r =>
          have hOk : idOf record = .ok r.id :=
            (idOf_eq_ok_iff record r.id).mpr ⟨r, hId, rfl⟩
          rw [Store.perform, insert_eq_ok s hOk]
          refine ⟨hs.set hOk, ?_⟩
          rw [Change.perform]
          simp only [hId, hGet, hs.entries_set hOk]
  | update record =>
      cases hId : Record.id? record with
      | none =>
          rw [(s.perform_of_id?_eq_none hId).2]
          refine ⟨hs, ?_⟩
          rw [Change.perform]
          simp only [hId]
      | some r =>
          have hOk : idOf record = .ok r.id :=
            (idOf_eq_ok_iff record r.id).mpr ⟨r, hId, rfl⟩
          rw [Store.perform, update_eq_ok s hOk, Change.perform]
          simp only [hId, hHas]
          by_cases hFind : (s.find? r.id).isSome
          · simp only [hFind, if_true, hs.entries_set hOk]
            exact ⟨hs.set hOk, trivial⟩
          · rw [Bool.not_eq_true] at hFind
            simp only [hFind, Bool.false_eq_true, if_false]
            exact ⟨hs, trivial⟩
  | remove id =>
      refine ⟨hs.remove id, ?_⟩
      rw [Change.perform, Store.perform, hGet]
      dsimp only
      rw [hs.entries_remove, remove_snd]
  | deleteAll filter =>
      refine ⟨hs.deleteAll filter, ?_⟩
      rw [Change.perform, Store.perform, hGet]
      dsimp only
      rw [hs.entries_deleteAll, hs.deleteAll_snd]
      rfl

/-
  A change leaves out ids, or it inserts a record whose id
  was absent and comes last.
-/
theorem IsSound.order_perform
    {s : Store}
    (hs : s.IsSound)
    (change : Change) :
    (s.perform change).1.order.toList.Sublist s.order.toList ∨
      ∃ record id,
        change = .insert record ∧ idOf record = .ok id ∧
          id ∉ s.order.toList ∧
          (s.perform change).1.order.toList =
            s.order.toList ++ [id] := by
  rcases hs.perform change with ⟨hNext, hPerform⟩
  have hOrder :
      (s.perform change).1.order.toList =
        (change.perform s.entries).1.keys := by
    rw [hPerform, hNext.keys_entries]
  rw [hOrder, ← hs.keys_entries]
  cases change with
  | insert record =>
      rw [Change.perform]
      cases hId : Record.id? record with
      | none => exact .inl (List.Sublist.refl _)
      | some r =>
          dsimp only
          rw [Dict.keys_insert]
          split_ifs with hMem
          · exact .inl (List.Sublist.refl _)
          · have hOk : idOf record = .ok r.id :=
              (idOf_eq_ok_iff record r.id).mpr ⟨r, hId, rfl⟩
            exact .inr ⟨record, r.id, rfl, hOk, hMem, rfl⟩
  | update record =>
      left
      rw [Change.perform]
      cases Record.id? record with
      | none => exact List.Sublist.refl _
      | some r =>
          dsimp only
          split_ifs with hHas
          · rw [Dict.keys_insert, if_pos]
            exact (Dict.mem_keys_iff _ _).mpr hHas
          · exact List.Sublist.refl _
  | remove id =>
      left
      rw [Change.perform,
        Dict.keys_erase hs.hasUniqueKeys_entries]
      exact List.filter_sublist
  | deleteAll filter =>
      left
      rw [Change.perform]
      exact List.filter_sublist.map Prod.fst

------------------------------------------------------------
-- Any Changes
------------------------------------------------------------

/- What one change keeps in step, a history keeps in step. -/
theorem IsSound.replay
    {s : Store}
    (hs : s.IsSound)
    (changes : List Change) :
    (Haystack.replay Store.perform s changes).1.IsSound ∧
      Haystack.replay (fun d c => c.perform d) s.entries changes =
        ((Haystack.replay Store.perform s changes).1.entries,
          (Haystack.replay Store.perform s changes).2) := by
  induction changes generalizing s with
  | nil => exact ⟨hs, rfl⟩
  | cons change changes ih =>
      rcases hs.perform change with ⟨hNext, hStep⟩
      rcases ih hNext with ⟨hLast, hRest⟩
      refine ⟨hLast, ?_⟩
      rw [Haystack.replay]
      simp only [hStep, hRest]
      rfl

/- Whatever has been changed, the store is sound. -/
theorem isSound_after (history : List Change) :
    (after history).IsSound :=
  (isSound_empty.replay history).1

/- The last change is made after all others. -/
theorem after_concat
    (history : List Change)
    (change : Change) :
    after (history ++ [change]) =
      ((after history).perform change).1 := by
  unfold after
  rw [replay_append]
  rfl

/- Loading records is inserting one after the other. -/
theorem replay_of_insertAll
    {rows : List Record}
    {s loaded : Store}
    (hLoad : s.insertAll rows = .ok loaded) :
    (replay perform s (rows.map .insert)).1 = loaded := by
  unfold insertAll at hLoad
  induction rows generalizing s with
  | nil =>
      cases hLoad
      rfl
  | cons record rows ih =>
      rw [List.foldlM_cons] at hLoad
      cases hInsert : s.insert record with
      | error e =>
          rw [hInsert] at hLoad
          cases hLoad
      | ok result =>
          rw [hInsert] at hLoad
          have hStep :
              s.perform (.insert record) =
                (result.1, .replaced result.2) := by
            rw [perform, hInsert]
          rw [List.map_cons, replay]
          simp only [hStep]
          exact ih hLoad

/- Records load if each has an id. -/
theorem exists_insertAll
    {rows : List Record}
    (hIds : ∀ record ∈ rows, (Record.id? record).isSome)
    (s : Store) :
    ∃ loaded, s.insertAll rows = .ok loaded := by
  unfold insertAll
  induction rows generalizing s with
  | nil => exact ⟨s, rfl⟩
  | cons record rows ih =>
      rw [List.forall_mem_cons] at hIds
      rcases Option.isSome_iff_exists.mp hIds.1 with ⟨r, hr⟩
      have hOk : idOf record = .ok r.id :=
        (idOf_eq_ok_iff record r.id).mpr ⟨r, hr, rfl⟩
      rw [List.foldlM_cons, insert_eq_ok s hOk]
      exact ih hIds.2 _

------------------------------------------------------------
-- Arrivals
------------------------------------------------------------

/- What is not found is not in the order either. -/
theorem isNone_find?_iff
    {s : Store}
    (hs : s.IsSound)
    (id : String) :
    (s.find? id).isNone = true ↔ id ∉ s.order.toList := by
  rw [← hs.isSome_find?_iff_mem]
  cases s.find? id <;> simp

/- An id that is absent now is absent for the last time now. -/
theorem lastAbsent_of_absent
    {history : List Change}
    {id : String}
    (hAbsent : id ∉ (after history).order.toList) :
    lastAbsent history id = history.length := by
  unfold lastAbsent
  apply Nat.findGreatest_eq
  rw [List.take_length]
  exact (isNone_find?_iff (isSound_after history) id).mpr hAbsent

/-
  A record that is there was not there at an earlier time.
-/
theorem lastAbsent_lt
    {history : List Change}
    {id : String}
    (hPresent : id ∈ (after history).order.toList) :
    lastAbsent history id < history.length := by
  have hSound := isSound_after
  refine lt_of_le_of_ne (Nat.findGreatest_le _) ?_
  intro hEq
  have hStart :
      ((after (history.take 0)).find? id).isNone = true := by
    rw [isNone_find?_iff (hSound _)]
    simp [after, replay, empty]
  have hLast :=
    Nat.findGreatest_spec
      (P := fun n =>
        ((after (history.take n)).find? id).isNone)
      (Nat.zero_le history.length) hStart
  rw [← lastAbsent, hEq, List.take_length,
    isNone_find?_iff (hSound _)] at hLast
  exact hLast hPresent

/-
  The greatest number that fits is the same for properties
  that agree up to the bound.
-/
theorem findGreatest_congr
    {p q : Nat → Prop}
    [DecidablePred p]
    [DecidablePred q]
    {n : Nat}
    (h : ∀ m ≤ n, p m ↔ q m) :
    Nat.findGreatest p n = Nat.findGreatest q n := by
  induction n with
  | zero => rfl
  | succ n ih =>
      rw [Nat.findGreatest_succ, Nat.findGreatest_succ,
        ih (fun m hm => h m (Nat.le_succ_of_le hm))]
      simp only [h (n + 1) (Nat.le_refl _)]

/- A change does not touch when a present id was absent. -/
theorem lastAbsent_concat
    {history : List Change}
    {change : Change}
    {id : String}
    (hPresent :
      id ∈ (after (history ++ [change])).order.toList) :
    lastAbsent (history ++ [change]) id =
      lastAbsent history id := by
  unfold lastAbsent
  rw [List.length_append, List.length_singleton,
    Nat.findGreatest_of_not]
  · apply findGreatest_congr
    intro n hn
    rw [List.take_append_of_le_length hn]
  · rw [List.take_of_length_le (by simp),
      isNone_find?_iff (isSound_after _)]
    exact not_not_intro hPresent

/-
  The ids stand in the order in which they came after they
  were absent for the last time. A later change either keeps
  the order of those that stay, or puts an id at the end
  that was absent until then.
-/
theorem pairwise_lastAbsent (history : List Change) :
    (after history).order.toList.Pairwise
      (fun a b => lastAbsent history a < lastAbsent history b) := by
  induction history using List.reverseRecOn with
  | nil => exact List.Pairwise.nil
  | append_singleton history change ih =>
      have hSame :
          (after (history ++ [change])).order.toList.Pairwise
              (fun a b =>
                lastAbsent history a < lastAbsent history b) := by
        rw [after_concat]
        rcases (isSound_after history).order_perform change with
          hSublist | ⟨record, id, _, _, hAbsent, hOrder⟩
        · exact ih.sublist hSublist
        · rw [hOrder, List.pairwise_append]
          refine ⟨ih, List.pairwise_singleton _ _, ?_⟩
          intro a ha b hb
          rw [List.mem_singleton] at hb
          rw [hb, lastAbsent_of_absent hAbsent]
          exact lastAbsent_lt ha
      apply hSame.imp_of_mem
      intro a b ha hb hLess
      rwa [lastAbsent_concat ha, lastAbsent_concat hb]

/- What brought an id in is an insertion of its record. -/
theorem exists_insert_of_mem
    (history : List Change)
    {id : String}
    (hPresent : id ∈ (after history).order.toList) :
    ∃ record,
      history[lastAbsent history id]? = some (.insert record) ∧
        idOf record = .ok id := by
  induction history using List.reverseRecOn with
  | nil => simp [after, replay, empty] at hPresent
  | append_singleton history change ih =>
      rw [lastAbsent_concat hPresent]
      by_cases hOld : id ∈ (after history).order.toList
      · rcases ih hOld with ⟨record, hRecord, hId⟩
        refine ⟨record, ?_, hId⟩
        rwa [List.getElem?_append_left (lastAbsent_lt hOld)]
      · rw [after_concat] at hPresent
        rcases (isSound_after history).order_perform change with
          hSublist | ⟨record, new, hInsert, hId, _, hOrder⟩
        · exact absurd (hSublist.subset hPresent) hOld
        · rw [hOrder, List.mem_append, List.mem_singleton]
            at hPresent
          have hNew : id = new := hPresent.resolve_left hOld
          refine ⟨record, ?_, hNew ▸ hId⟩
          rw [lastAbsent_of_absent hOld, hInsert]
          simp

------------------------------------------------------------
-- Stores as Maps in Order
------------------------------------------------------------

/- The records of a sound store come once each, by their ids. -/
theorem IsSound.map_id?_toList
    {s : Store}
    (hs : s.IsSound) :
    s.toList.map (fun r => (Record.id? r).map Ref.id) =
      s.order.toList.map some := by
  rw [toList_eq, ← hs.keys_entries, Dict.keys, List.map_map,
    List.map_map]
  apply List.map_congr_left
  intro e he
  exact hs.id?_of_mem_entries he

/-
  The list has all records that are found, and no others.
-/
theorem IsSound.mem_toList_iff
    {s : Store}
    (hs : s.IsSound)
    (record : Record) :
    record ∈ s.toList ↔ ∃ id, s.find? id = some record := by
  rw [toList_eq, List.mem_map]
  constructor
  · rintro ⟨⟨id, r⟩, he, rfl⟩
    rw [Dict.mem_entries_iff hs.hasUniqueKeys_entries,
      hs.get?_entries] at he
    exact ⟨id, he⟩
  · rintro ⟨id, hFind⟩
    refine ⟨(id, record), ?_, rfl⟩
    rw [Dict.mem_entries_iff hs.hasUniqueKeys_entries,
      hs.get?_entries]
    exact hFind

/- The list has as many records as the store counts. -/
theorem IsSound.length_toList
    {s : Store}
    (hs : s.IsSound) :
    s.toList.length = s.size := by
  have hLength := congrArg List.length hs.map_id?_toList
  rw [List.length_map, List.length_map] at hLength
  rw [hLength, Array.length_toList, size]

section Loaded

variable {rows : List Record}
variable {start : Store}

/- The history of a loaded store begins with its loading. -/
theorem replay_loaded
    (hLoad : ofRows rows = .ok start)
    (changes : List Change) :
    replay perform empty (rows.map .insert ++ changes) =
      ((replay perform start changes).1,
        (replay perform empty (rows.map .insert)).2 ++
          (replay perform start changes).2) := by
  rw [replay_append, replay_of_insertAll hLoad]

/- The map of the same history has the entries of the store. -/
theorem replay_map_loaded
    (hLoad : ofRows rows = .ok start)
    (changes : List Change) :
    replay (fun d c => c.perform d) .empty
        (rows.map .insert ++ changes) =
      ((replay perform start changes).1.entries,
        (replay perform empty (rows.map .insert)).2 ++
          (replay perform start changes).2) := by
  have hRun :=
    (isSound_empty.replay (rows.map .insert ++ changes)).2
  rw [replay_loaded hLoad] at hRun
  exact hRun

end Loaded

/-
  A store refines a map that keeps its records in order. After
  any changes of a loaded store, the ids and the records are
  in step; all records come, once each, in the order in which
  their ids were inserted since they were absent; there are
  as many as the store counts; the records, and what each
  change gave back, are those of the map, in which a known id
  keeps its place and one taken away leaves the others in
  theirs; and a record without an id changes nothing.
-/
theorem replay_refines
    {rows : List Record}
    {start : Store}
    (hLoad : ofRows rows = .ok start)
    (changes : List Change) :
    let history := rows.map Change.insert ++ changes
    let map := replay (fun d c => c.perform d) .empty history
    let last := (replay perform start changes).1
    last.IsSound ∧
      (∀ record,
        record ∈ last.toList ↔
          ∃ id, last.find? id = some record) ∧
      last.toList.map (fun r => (Record.id? r).map Ref.id) =
        last.order.toList.map some ∧
      last.order.toList.Pairwise
        (fun a b =>
          lastAbsent history a < lastAbsent history b) ∧
      (∀ id ∈ last.order.toList,
        ∃ record,
          history[lastAbsent history id]? =
              some (.insert record) ∧
            idOf record = .ok id) ∧
      last.size = last.records.size ∧
      last.size = last.toList.length ∧
      (last.order.toList = map.1.keys ∧
        last.toList = map.1.entries.map Prod.snd ∧
        (∀ id, last.find? id = map.1.get? id) ∧
        (replay perform start changes).2 =
          map.2.drop rows.length) ∧
      (∀ change e,
        (last.perform change).2 = .refused e →
          (last.perform change).1 = last) ∧
      ∀ record,
        Record.id? record = none →
          last.perform (.insert record) =
              (last, .refused .recordWithoutId) ∧
            last.perform (.update record) =
              (last, .refused .recordWithoutId) := by
  intro history map last
  -- The rows of a loaded store are its first changes.
  have hAfter : after history = last := by
    rw [after, replay_loaded hLoad]
  have hSound : last.IsSound := hAfter ▸ isSound_after history
  have hMap :
      map =
        (last.entries,
          (replay perform empty (rows.map .insert)).2 ++
            (replay perform start changes).2) :=
    replay_map_loaded hLoad changes
  refine
    ⟨hSound, hSound.mem_toList_iff, hSound.map_id?_toList, ?_,
      ?_, hSound.size_records.symm, hSound.length_toList.symm,
      ⟨?_, ?_, ?_, ?_⟩,
      fun _ _ hRefused => perform_of_refused hRefused,
      fun _ hId => last.perform_of_id?_eq_none hId⟩
  · rw [← hAfter]
    exact pairwise_lastAbsent history
  · rw [← hAfter]
    exact fun id hId => exists_insert_of_mem history hId
  · rw [hMap, hSound.keys_entries]
  · rw [hMap, toList_eq]
  · intro id
    rw [hMap, hSound.get?_entries]
  · rw [hMap, List.drop_left']
    rw [length_replay, List.length_map]

/- A record about a site with an id and a name. -/
def site
    (id : Ref)
    (name : String) : Record :=
  ⟨[("id", .ref id), ("site", .marker), ("dis", .str name)]⟩

def north : Ref := ⟨"north", none, by decide⟩

def south : Ref := ⟨"south", some "South", by decide⟩

/- A site that comes twice, another, and a record of no site. -/
def loadedRows : List Record :=
  [site north "N", site south "S",
    ⟨[("id", .ref ⟨"x", none, by decide⟩)]⟩,
    site north "North"]

/- The first site goes and comes again; what is no site goes. -/
def laterChanges : List Change :=
  [.remove "north", .insert ⟨[("site", .marker)]⟩,
    .insert (site north "N2"), .update (site south "S2"),
    .deleteAll (.missing ⟨⟨"site", by decide⟩, []⟩)]

/-
  A site that was taken away and came again is behind one
  that stayed, whose record was replaced.
-/
theorem replay_laterChanges :
    ∃ start,
      ofRows loadedRows = .ok start ∧
        (replay perform start laterChanges).1.toList =
          [site south "S2", site north "N2"] ∧
        (replay perform start laterChanges).2 =
          [.removed (some (site north "North")),
            .refused .recordWithoutId, .replaced none,
            .updated true, .deleted 1] := by
  have hIds :
      ∀ record ∈ loadedRows, (Record.id? record).isSome := by
    decide
  rcases exists_insertAll hIds empty with ⟨start, hLoad⟩
  rcases replay_refines hLoad laterChanges with
    ⟨_, _, _, _, _, _, _, ⟨_, hRecords, _, hOutcomes⟩, _⟩
  exact
    ⟨start, hLoad, hRecords.trans rfl, hOutcomes.trans rfl⟩

end Store

end Haystack
