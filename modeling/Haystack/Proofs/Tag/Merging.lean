import Haystack.Proofs.Tag.Sameness
import Haystack.Proofs.Tag.Updates

/-
  This file shows what records are built by setting entries,
  taking them away and merging, and what a record that is
  merged into another one leaves of it: under each key, in
  the order of the keys, and when merges follow one another.

  Key definitions include:
    * `Value.IsBuilt`
    * `Record.IsBuilt`
    * `Record.removes`
    * `Record.overlay`
    * `Record.IsPatched`

  Main declarations:
    * `Value.isBuilt_iff`
    * `Record.get?_merge`
    * `Record.keys_merge`
    * `Record.isPatched_merge`
-/

namespace Haystack

------------------------------------------------------------
-- Changing One Entry
------------------------------------------------------------

/- The value takes away what it is merged over. -/
def Value.isRemove : Value → Bool
| .remove => true
| _ => false

theorem Value.isRemove_iff (v : Value) :
    v.isRemove = true ↔ v = .remove := by
  cases v <;> simp [isRemove]

namespace Record

variable {r : Record}

/- A value to remove takes the tag away. -/
theorem change_of_isRemove
    {v : Value}
    (hv : v.isRemove = true)
    (key : String) :
    change r key v = r.erase key := by
  rw [Value.isRemove_iff] at hv
  rw [hv, change]

/- Any other value is put in its place. -/
theorem change_of_not_isRemove
    {v : Value}
    (hv : v.isRemove = false)
    (key : String) :
    change r key v = r.insert key v := by
  cases v with
  | remove => cases hv
  | _ => rw [change]; simp

/- A property kept by setting and taking away is kept. -/
theorem change_induction
    {p : Record → Prop}
    {key : String}
    {v : Value}
    (hErase : p (r.erase key))
    (hInsert : p (r.insert key v)) :
    p (change r key v) := by
  cases hv : v.isRemove with
  | true =>
      rw [change_of_isRemove hv]
      exact hErase
  | false =>
      rw [change_of_not_isRemove hv]
      exact hInsert

/- One change leaves each name once. -/
theorem hasUniqueKeys_change
    (hr : r.HasUniqueKeys)
    (key : String)
    (v : Value) :
    (change r key v).HasUniqueKeys :=
  change_induction (p := Dict.HasUniqueKeys)
    (Dict.HasUniqueKeys.erase hr key)
    (Dict.HasUniqueKeys.insert hr key v)

/- Nothing but the entry under the key is changed. -/
theorem get?_change
    (hr : r.HasUniqueKeys)
    (key : String)
    (v : Value)
    (k : String) :
    (change r key v).get? k =
      if k = key then (if v.isRemove then none else some v)
      else r.get? k := by
  cases hv : v.isRemove with
  | true =>
      rw [change_of_isRemove hv, Dict.get?_erase hr]
      rfl
  | false =>
      rw [change_of_not_isRemove hv, Dict.get?_insert]
      rfl

/- The other keys keep their order; a new key comes last. -/
theorem keys_change
    (hr : r.HasUniqueKeys)
    (key : String)
    (v : Value) :
    (change r key v).keys =
      if v.isRemove then r.keys.filter (· ≠ key)
      else if key ∈ r.keys then r.keys
      else r.keys ++ [key] := by
  cases hv : v.isRemove with
  | true =>
      rw [change_of_isRemove hv, Dict.keys_erase hr]
      rfl
  | false =>
      rw [change_of_not_isRemove hv, Dict.keys_insert]
      rfl

------------------------------------------------------------
-- Merging
------------------------------------------------------------

/- The record takes the entry under the key away. -/
def removes
    (diff : Record)
    (key : String) : Bool :=
  (diff.get? key).any Value.isRemove

/- A merge makes one change after the other. -/
theorem merge_cons
    (r : Record)
    (e : String × Value)
    (entries : List (String × Value)) :
    merge r ⟨e :: entries⟩ =
      merge (change r e.1 e.2) ⟨entries⟩ :=
  rfl

/- A merge leaves each name once. -/
theorem hasUniqueKeys_merge
    (hr : r.HasUniqueKeys)
    (diff : Record) :
    (merge r diff).HasUniqueKeys := by
  rcases diff with ⟨entries⟩
  induction entries generalizing r with
  | nil => exact hr
  | cons e entries ih =>
      rw [merge_cons]
      exact ih (hasUniqueKeys_change hr e.1 e.2)

/-
  After a merge there is under each key what the other record
  has there, and what was there before if it has nothing.
-/
theorem get?_merge
    (hr : r.HasUniqueKeys)
    {diff : Record}
    (hDiff : diff.HasUniqueKeys)
    (key : String) :
    (merge r diff).get? key =
      (diff.get? key).elim (r.get? key)
        (fun v => if v.isRemove then none else some v) := by
  rcases diff with ⟨entries⟩
  induction entries generalizing r with
  | nil => rfl
  | cons e entries ih =>
      rw [Dict.HasUniqueKeys, Dict.keys, List.map_cons,
        List.nodup_cons] at hDiff
      rw [merge_cons, ih (hasUniqueKeys_change hr e.1 e.2)
        hDiff.2, get?_change hr, Dict.get?_cons]
      by_cases hKey : key = e.1
      · have hNone : Dict.get? ⟨entries⟩ key = none := by
          rw [Dict.get?_eq_none_iff, hKey]
          exact hDiff.1
        rw [hNone, if_pos hKey, if_pos hKey]
        rfl
      · rw [if_neg hKey, if_neg hKey]

/- A change removes a tag if it names it. -/
theorem removes_cons
    {e : String × Value}
    (entries : List (String × Value))
    (key : String) :
    removes ⟨e :: entries⟩ key =
      if key = e.1 then e.2.isRemove
      else removes ⟨entries⟩ key := by
  unfold removes
  rw [Dict.get?_cons]
  split_ifs <;> rfl

/- The first change keeps or adds its key, or drops it. -/
theorem filter_keys_change
    (hr : r.HasUniqueKeys)
    {e : String × Value}
    {entries : List (String × Value)}
    (hNew : e.1 ∉ entries.map Prod.fst) :
    (change r e.1 e.2).keys.filter
        (fun key => !removes ⟨entries⟩ key) =
      r.keys.filter (fun key => !removes ⟨e :: entries⟩ key) ++
        [e.1].filter (fun key =>
          key ∉ r.keys && !removes ⟨e :: entries⟩ key) := by
  have hNone : removes ⟨entries⟩ e.1 = false := by
    rw [removes, (Dict.get?_eq_none_iff _ _).mpr hNew]
    rfl
  have hKeep (hv : e.2.isRemove = false) (key : String) :
      removes ⟨e :: entries⟩ key = removes ⟨entries⟩ key := by
    rw [removes_cons]
    split_ifs with hKey
    · rw [hKey, hNone, hv]
    · rfl
  rw [keys_change hr]
  cases hv : e.2.isRemove with
  | true =>
      rw [if_pos rfl, List.filter_filter, List.filter_singleton,
        removes_cons, if_pos rfl, hv, Bool.not_true,
        Bool.and_false, cond_false, List.append_nil]
      apply List.filter_congr
      intro key _
      rw [removes_cons]
      by_cases hKey : key = e.1
      · simp [hKey, hv]
      · simp [hKey]
  | false =>
      simp only [hKeep hv, Bool.false_eq_true, if_false]
      by_cases hMem : e.1 ∈ r.keys
      · simp [hMem]
      · simp [hMem, hNone]

/-
  The keys that are not taken away keep their order, and new
  keys follow in the order of the other record.
-/
theorem keys_merge
    (hr : r.HasUniqueKeys)
    {diff : Record}
    (hDiff : diff.HasUniqueKeys) :
    (merge r diff).keys =
      r.keys.filter (fun key => !removes diff key) ++
        diff.keys.filter (fun key =>
          key ∉ r.keys && !removes diff key) := by
  rcases diff with ⟨entries⟩
  -- Change by change, with what the record has become.
  induction entries generalizing r with
  | nil => simp [merge, removes, Dict.get?, Dict.keys]
  | cons e entries ih =>
      rw [Dict.HasUniqueKeys, Dict.keys, List.map_cons,
        List.nodup_cons] at hDiff
      have hLater :
          (entries.map Prod.fst).filter (fun key =>
              key ∉ (change r e.1 e.2).keys &&
                !removes ⟨entries⟩ key) =
            (entries.map Prod.fst).filter (fun key =>
              key ∉ r.keys &&
                !removes ⟨e :: entries⟩ key) := by
        apply List.filter_congr
        intro key hKey
        have hOther : key ≠ e.1 := by
          rintro rfl
          exact hDiff.1 hKey
        have hMem :
            key ∈ (change r e.1 e.2).keys ↔ key ∈ r.keys := by
          rw [Dict.mem_keys_iff, Dict.mem_keys_iff,
            get?_change hr, if_neg hOther]
        rw [removes_cons, if_neg hOther, decide_eq_decide.mpr
          (not_congr hMem)]
      calc (merge r ⟨e :: entries⟩).keys
        _ = (change r e.1 e.2).keys.filter
                (fun key => !removes ⟨entries⟩ key) ++
              (entries.map Prod.fst).filter (fun key =>
                key ∉ (change r e.1 e.2).keys &&
                  !removes ⟨entries⟩ key) :=
            ih (hasUniqueKeys_change hr e.1 e.2) hDiff.2
        _ = r.keys.filter
                (fun key => !removes ⟨e :: entries⟩ key) ++
              ([e.1].filter (fun key =>
                  key ∉ r.keys &&
                    !removes ⟨e :: entries⟩ key) ++
                (entries.map Prod.fst).filter (fun key =>
                  key ∉ r.keys &&
                    !removes ⟨e :: entries⟩ key)) := by
            rw [hLater, filter_keys_change hr hDiff.1,
              List.append_assoc]
        _ = _ := by
            rw [← List.filter_append]
            rfl

/-
  After a merge there are the tags of both, less those that
  are removed.
-/
theorem mem_keys_merge
    (hr : r.HasUniqueKeys)
    {diff : Record}
    (hDiff : diff.HasUniqueKeys)
    (key : String) :
    key ∈ (merge r diff).keys ↔
      (key ∈ r.keys ∨ key ∈ diff.keys) ∧
        removes diff key = false := by
  rw [keys_merge hr hDiff, List.mem_append, List.mem_filter,
    List.mem_filter]
  simp only [Bool.not_eq_true', Bool.and_eq_true,
    decide_eq_true_eq]
  tauto

------------------------------------------------------------
-- One Merge after Another
------------------------------------------------------------

/- A record that was merged already changes nothing more. -/
theorem merge_merge_self
    (hr : r.HasUniqueKeys)
    {diff : Record}
    (hDiff : diff.HasUniqueKeys) :
    merge (merge r diff) diff = merge r diff := by
  have hMerged := hasUniqueKeys_merge hr diff
  apply Dict.eq_of_keys_eq (hasUniqueKeys_merge hMerged diff)
  · have hOld :
        (merge r diff).keys.filter
            (fun key => !removes diff key) =
          (merge r diff).keys := by
      rw [List.filter_eq_self]
      intro key hKey
      rw [mem_keys_merge hr hDiff] at hKey
      rw [hKey.2]
      rfl
    have hNew :
        diff.keys.filter (fun key =>
            key ∉ (merge r diff).keys &&
              !removes diff key) = [] := by
      rw [List.filter_eq_nil_iff]
      intro key hKey
      simp only [Bool.and_eq_true, decide_eq_true_eq,
        Bool.not_eq_true', not_and]
      intro hNot hKept
      exact
        hNot
          ((mem_keys_merge hr hDiff key).mpr
            ⟨Or.inr hKey, hKept⟩)
    rw [keys_merge hMerged hDiff, hOld, hNew, List.append_nil]
  · intro key
    rw [get?_merge hMerged hDiff, get?_merge hr hDiff]
    cases diff.get? key <;> rfl

/-
  The record with all entries of another one set in it, those
  that take entries away included.
-/
def overlay (r other : Record) : Record :=
  other.entries.foldl (fun r e => r.insert e.1 e.2) r

theorem hasUniqueKeys_overlay
    (hr : r.HasUniqueKeys)
    (other : Record) :
    (overlay r other).HasUniqueKeys :=
  Dict.hasUniqueKeys_foldl other.entries hr

/- A later change hides an earlier one of the same tag. -/
theorem get?_overlay
    (r : Record)
    {other : Record}
    (hOther : other.HasUniqueKeys)
    (key : String) :
    (overlay r other).get? key =
      (other.get? key).or (r.get? key) := by
  rcases other with ⟨entries⟩
  induction entries generalizing r with
  | nil => rfl
  | cons e entries ih =>
      rw [Dict.HasUniqueKeys, Dict.keys, List.map_cons,
        List.nodup_cons] at hOther
      change (overlay (r.insert e.1 e.2) ⟨entries⟩).get? key = _
      rw [ih (r.insert e.1 e.2) hOther.2, Dict.get?_insert,
        Dict.get?_cons]
      by_cases hKey : key = e.1
      · have hNone : Dict.get? ⟨entries⟩ key = none := by
          rw [Dict.get?_eq_none_iff, hKey]
          exact hOther.1
        rw [hNone, if_pos hKey, if_pos hKey]
        rfl
      · rw [if_neg hKey, if_neg hKey]

/- Two merges leave what the merge of both at once does. -/
theorem get?_merge_merge
    (hr : r.HasUniqueKeys)
    {a b : Record}
    (ha : a.HasUniqueKeys)
    (hb : b.HasUniqueKeys)
    (key : String) :
    (merge (merge r a) b).get? key =
      (merge r (overlay a b)).get? key := by
  rw [get?_merge (hasUniqueKeys_merge hr a) hb,
    get?_merge hr ha,
    get?_merge hr (hasUniqueKeys_overlay ha b),
    get?_overlay a hb]
  cases b.get? key <;> rfl

------------------------------------------------------------
-- Building Records
------------------------------------------------------------

/-
  Names are unique throughout if they are in the record and
  in all of its values.
-/
theorem hasUniqueKeysThroughout_iff (r : Record) :
    r.HasUniqueKeysThroughout ↔
      r.HasUniqueKeys ∧
        ∀ e ∈ r.entries, e.2.HasUniqueKeysThroughout := by
  rw [← Value.entriesHaveUniqueKeys_iff]
  rfl

namespace HasUniqueKeysThroughout

/- Putting such a value in keeps names unique throughout. -/
theorem insert
    (hr : r.HasUniqueKeysThroughout)
    (key : String)
    {v : Value}
    (hv : v.HasUniqueKeysThroughout) :
    Record.HasUniqueKeysThroughout (r.insert key v) := by
  rw [hasUniqueKeysThroughout_iff] at hr ⊢
  exact
    ⟨Dict.HasUniqueKeys.insert hr.1 key v,
      Dict.forall_entries_putEntry hv hr.2⟩

/- Taking a tag away keeps names unique throughout. -/
theorem erase
    (hr : r.HasUniqueKeysThroughout)
    (key : String) :
    Record.HasUniqueKeysThroughout (r.erase key) := by
  rw [hasUniqueKeysThroughout_iff] at hr ⊢
  exact
    ⟨Dict.HasUniqueKeys.erase hr.1 key,
      fun e he => hr.2 e (List.mem_of_mem_eraseP he)⟩

/- Merging such records keeps names unique throughout. -/
theorem merge
    (hr : r.HasUniqueKeysThroughout)
    {diff : Record}
    (hDiff : diff.HasUniqueKeysThroughout) :
    (Record.merge r diff).HasUniqueKeysThroughout := by
  rw [hasUniqueKeysThroughout_iff] at hDiff
  rcases diff with ⟨entries⟩
  replace hDiff := hDiff.2
  dsimp only at hDiff
  induction entries generalizing r with
  | nil => exact hr
  | cons e entries ih =>
      rw [List.forall_mem_cons] at hDiff
      rw [merge_cons]
      refine ih ?_ hDiff.2
      exact
        change_induction (p := Record.HasUniqueKeysThroughout)
          (hr.erase e.1) (hr.insert e.1 hDiff.1)

/- Records with the same entries under all keys are the same. -/
theorem same_of_get?_eq
    (hr : r.HasUniqueKeysThroughout)
    {other : Record}
    (hOther : other.HasUniqueKeys)
    (hGet : ∀ key, r.get? key = other.get? key) :
    (r == other) = true := by
  rw [hasUniqueKeysThroughout_iff] at hr
  rw [same_iff hr.1 hOther]
  intro key
  rw [← hGet]
  cases hValue : r.get? key with
  | none => exact .none
  | some v =>
      have hMem := Dict.mem_entries_of_get? hValue
      exact .some (v.same_refl (hr.2 _ hMem))

end HasUniqueKeysThroughout

end Record

/-
  Values as they are built: a list of such values, or a dict
  that is empty at first and in which such values are set,
  taken away or merged, in any order and any number.
-/
inductive Value.IsBuilt : Value → Prop where
| simple
    {v : Value}
    (hv : v.IsSimple) :
    IsBuilt v
| list
    {items : List Value}
    (hItems : ∀ item ∈ items, IsBuilt item) :
    IsBuilt (.list items)
| empty : IsBuilt (.dict .empty)
| insert
    {d : Record}
    (hd : IsBuilt (.dict d))
    (key : String)
    {v : Value}
    (hv : IsBuilt v) :
    IsBuilt (.dict (d.insert key v))
| erase
    {d : Record}
    (hd : IsBuilt (.dict d))
    (key : String) :
    IsBuilt (.dict (d.erase key))
| merge
    {d diff : Record}
    (hd : IsBuilt (.dict d))
    (hDiff : IsBuilt (.dict diff)) :
    IsBuilt (.dict (Record.merge d diff))

/- A dict that is built by setting, taking away and merging. -/
def Record.IsBuilt (r : Record) : Prop :=
  (Value.dict r).IsBuilt

namespace Value

/- No step of building makes a second entry under a key. -/
theorem IsBuilt.hasUniqueKeysThroughout
    {v : Value}
    (hv : v.IsBuilt) :
    v.HasUniqueKeysThroughout := by
  induction hv with
  | simple hv => exact hv.hasUniqueKeysThroughout
  | list _ ih =>
      rw [HasUniqueKeysThroughout, itemsHaveUniqueKeys_iff]
      exact ih
  | empty => exact ⟨List.nodup_nil, trivial⟩
  | insert _ key _ ih ihValue =>
      exact Record.HasUniqueKeysThroughout.insert ih key ihValue
  | erase _ key ih =>
      exact Record.HasUniqueKeysThroughout.erase ih key
  | merge _ _ ih ihDiff =>
      exact Record.HasUniqueKeysThroughout.merge ih ihDiff

/-
  Entries with values that can be built make a record that
  can be built.
-/
theorem isBuilt_ofEntries
    {entries : List (String × Value)}
    (h : ∀ e ∈ entries, e.2.IsBuilt) :
    Record.IsBuilt (.ofEntries entries) := by
  refine
    List.foldlRecOn (motive := Record.IsBuilt) entries _
      .empty ?_
  intro d hd e he
  exact hd.insert e.1 (h e he)

mutual

/- By induction on the value, its parts first. -/
theorem isBuilt_of_hasUniqueKeysThroughout
    (v : Value)
    (hv : v.HasUniqueKeysThroughout) :
    v.IsBuilt := by
  match v with
  | .list items =>
      rw [HasUniqueKeysThroughout] at hv
      exact .list (items_areBuilt items hv)
  | .dict ⟨entries⟩ =>
      rw [HasUniqueKeysThroughout] at hv
      have hEntries :=
        isBuilt_ofEntries (entries_areBuilt entries hv.2)
      rwa [Dict.ofEntries_of_nodup hv.1] at hEntries
  | .marker | .remove | .na | .bool _ | .number _ | .str _
  | .uri _ | .bin _ | .coord _ | .date _ | .time _
  | .dateTime _ | .ref _ =>
      exact .simple (by simp [IsSimple, kind])

/- Items with unique names throughout can be built. -/
theorem items_areBuilt
    (items : List Value)
    (h : ItemsHaveUniqueKeys items) :
    ∀ item ∈ items, item.IsBuilt := by
  match items with
  | [] => simp
  | item :: items =>
      rw [ItemsHaveUniqueKeys] at h
      rw [List.forall_mem_cons]
      exact
        ⟨isBuilt_of_hasUniqueKeysThroughout item h.1,
          items_areBuilt items h.2⟩

/- Entries with unique names throughout can be built. -/
theorem entries_areBuilt
    (entries : List (String × Value))
    (h : EntriesHaveUniqueKeys entries) :
    ∀ e ∈ entries, e.2.IsBuilt := by
  match entries with
  | [] => simp
  | (key, value) :: entries =>
      rw [EntriesHaveUniqueKeys] at h
      rw [List.forall_mem_cons]
      exact
        ⟨isBuilt_of_hasUniqueKeysThroughout value h.1,
          entries_areBuilt entries h.2⟩

end

/- All values without two entries under a key can be built. -/
theorem isBuilt_iff (v : Value) :
    v.IsBuilt ↔ v.HasUniqueKeysThroughout :=
  ⟨IsBuilt.hasUniqueKeysThroughout,
    isBuilt_of_hasUniqueKeysThroughout v⟩

end Value

------------------------------------------------------------
-- Patches
------------------------------------------------------------

namespace Record

/- What has been built has each name once. -/
theorem IsBuilt.hasUniqueKeys
    {r : Record}
    (hr : r.IsBuilt) :
    r.HasUniqueKeys :=
  hr.hasUniqueKeysThroughout.1

/-
  The record that comes of `r` when `diff` says what is set
  and what is taken away. What stays keeps its order, and
  what is new follows in the order of `diff`.
-/
structure IsPatched
    (r diff patched : Record) : Prop where
  unique : patched.HasUniqueKeys
  removed :
    ∀ key, diff.get? key = some .remove →
      patched.get? key = none
  set :
    ∀ key v, diff.get? key = some v → v ≠ .remove →
      patched.get? key = some v
  kept :
    ∀ key, diff.get? key = none →
      patched.get? key = r.get? key
  order :
    patched.keys =
      r.keys.filter (fun key => !removes diff key) ++
        diff.keys.filter (fun key =>
          key ∉ r.keys && !removes diff key)

/-
  Built records have each key once, and merging patches them.
  To merge twice is to merge once, and two merges are one
  with the second record laid over the first.
-/
theorem isPatched_merge
    {d a b : Record}
    (hd : d.IsBuilt)
    (ha : a.IsBuilt)
    (hb : b.IsBuilt) :
    d.HasUniqueKeys ∧
      IsPatched d a (merge d a) ∧
      merge (merge d a) a = merge d a ∧
      (merge (merge d a) b == merge d (overlay a b)) =
        true := by
  have hPatched : IsPatched d a (merge d a) := by
    have hGet := get?_merge hd.hasUniqueKeys ha.hasUniqueKeys
    refine
      ⟨hasUniqueKeys_merge hd.hasUniqueKeys a, ?_, ?_, ?_,
        keys_merge hd.hasUniqueKeys ha.hasUniqueKeys⟩
    · intro key hRemove
      rw [hGet, hRemove]
      rfl
    · intro key v hSet hv
      have hStays : v.isRemove = false := by
        rw [Bool.eq_false_iff, Ne, Value.isRemove_iff]
        exact hv
      rw [hGet, hSet, Option.elim_some, hStays]
      rfl
    · intro key hNone
      rw [hGet, hNone]
      rfl
  have hTwice :
      (merge (merge d a) b).HasUniqueKeysThroughout :=
    ((hd.merge ha).merge hb).hasUniqueKeysThroughout
  refine
    ⟨hd.hasUniqueKeys, hPatched,
      merge_merge_self hd.hasUniqueKeys ha.hasUniqueKeys, ?_⟩
  exact
    hTwice.same_of_get?_eq
      (hasUniqueKeys_merge hd.hasUniqueKeys _)
      (get?_merge_merge hd.hasUniqueKeys ha.hasUniqueKeys
        hb.hasUniqueKeys)

/- A room, and two reports on what has changed there. -/
def warmRoom : Record :=
  ⟨[ ("dis", .str "Room 1"), ("warm", .marker),
      ("area", .number (.plain (.ofInt 12)))]⟩

def firstReport : Record :=
  ⟨[("warm", .remove), ("floor", .str "2"), ("cold", .marker)]⟩

def secondReport : Record :=
  ⟨[("cold", .remove), ("warm", .str "a bit")]⟩

/- A room that two reports change, in a row or as one. -/
theorem isPatched_warmRoom :
    warmRoom.IsBuilt ∧ firstReport.IsBuilt ∧
      secondReport.IsBuilt ∧
      (merge warmRoom firstReport).get? "warm" = none ∧
      (merge warmRoom firstReport).keys =
        ["dis", "area", "floor", "cold"] ∧
      (merge (merge warmRoom firstReport) secondReport ==
        merge warmRoom (overlay firstReport secondReport)) =
        true := by
  have hRoom : warmRoom.IsBuilt :=
    (Value.isBuilt_iff _).mpr
      ⟨by decide, trivial, trivial, trivial, trivial⟩
  have hFirst : firstReport.IsBuilt :=
    (Value.isBuilt_iff _).mpr
      ⟨by decide, trivial, trivial, trivial, trivial⟩
  have hSecond : secondReport.IsBuilt :=
    (Value.isBuilt_iff _).mpr
      ⟨by decide, trivial, trivial, trivial⟩
  rcases isPatched_merge hRoom hFirst hSecond with
    ⟨-, hPatched, -, hBoth⟩
  refine
    ⟨hRoom, hFirst, hSecond, hPatched.removed "warm" rfl, ?_,
      hBoth⟩
  rw [hPatched.order]
  decide

end Record

end Haystack
