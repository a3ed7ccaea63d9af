import Haystack.Tag.Record
import Mathlib

/-
  This file shows that each key of a dict made of entries has
  one place, and that records are the same if they have the
  same values under all keys.

  Key definitions include:
    * `Dict.HasUniqueKeys`

  Main declarations:
    * `Dict.hasUniqueKeys_ofEntries`
    * `Dict.ofEntries_of_nodup`
    * `Dict.mem_entries_iff`
    * `Dict.map_entries_eq`
    * `Record.same_iff`
-/

namespace Haystack

namespace Dict

variable {α : Type}

/- No key has two entries. -/
def HasUniqueKeys (d : Dict α) : Prop :=
  d.keys.Nodup

instance (d : Dict α) : Decidable d.HasUniqueKeys := by
  unfold HasUniqueKeys
  infer_instance

------------------------------------------------------------
-- Setting Entries
------------------------------------------------------------

/- A key that is there keeps its place, another comes last. -/
theorem map_fst_putEntry
    (key : String)
    (value : α)
    (entries : List (String × α)) :
    (putEntry key value entries).map Prod.fst =
      if key ∈ entries.map Prod.fst then
        entries.map Prod.fst
      else entries.map Prod.fst ++ [key] := by
  induction entries with
  | nil => rfl
  | cons e entries ih =>
      rcases e with ⟨k, old⟩
      by_cases hk : k = key
      · simp [putEntry, hk]
      · have hne : key ≠ k := Ne.symm hk
        simp only [putEntry, hk, if_false, List.map_cons, ih,
          List.mem_cons, hne, false_or]
        split_ifs <;> rfl

/- A new name is put last. -/
theorem putEntry_of_not_mem
    {key : String}
    {entries : List (String × α)}
    (h : key ∉ entries.map Prod.fst)
    (value : α) :
    putEntry key value entries = entries ++ [(key, value)] := by
  induction entries with
  | nil => rfl
  | cons e entries ih =>
      rcases e with ⟨k, old⟩
      rw [List.map_cons, List.mem_cons, not_or] at h
      rw [putEntry, if_neg (Ne.symm h.1), ih h.2,
        List.cons_append]

/- A name that is there already keeps its place. -/
theorem keys_insert
    (d : Dict α)
    (key : String)
    (value : α) :
    (d.insert key value).keys =
      if key ∈ d.keys then d.keys else d.keys ++ [key] :=
  map_fst_putEntry key value d.entries

/- Keys stay unique when an entry is set. -/
theorem HasUniqueKeys.insert
    {d : Dict α}
    (hd : d.HasUniqueKeys)
    (key : String)
    (value : α) :
    (d.insert key value).HasUniqueKeys := by
  unfold HasUniqueKeys at hd ⊢
  rw [keys_insert]
  split_ifs with hKey
  · exact hd
  · rw [List.nodup_append]
    refine ⟨hd, List.nodup_singleton key, ?_⟩
    intro k hk other hOther
    rw [List.mem_singleton] at hOther
    rintro rfl
    exact hKey (hOther ▸ hk)

/- A property of all entries set holds of all entries. -/
theorem forall_entries_putEntry
    {p : String × α → Prop}
    {key : String}
    {value : α}
    {entries : List (String × α)}
    (hNew : p (key, value))
    (hOld : ∀ e ∈ entries, p e) :
    ∀ e ∈ putEntry key value entries, p e := by
  induction entries with
  | nil => simpa [putEntry] using hNew
  | cons e entries ih =>
      rcases e with ⟨k, old⟩
      rw [List.forall_mem_cons] at hOld
      rw [putEntry]
      split_ifs with hk
      · rw [List.forall_mem_cons]
        exact ⟨hk ▸ hNew, hOld.2⟩
      · rw [List.forall_mem_cons]
        exact ⟨hOld.1, ih hOld.2⟩

/-
  Entries put in one after the other leave each name once.
-/
theorem hasUniqueKeys_foldl
    (entries : List (String × α))
    {d : Dict α}
    (hd : d.HasUniqueKeys) :
    (entries.foldl (fun d e => d.insert e.1 e.2)
      d).HasUniqueKeys := by
  induction entries generalizing d with
  | nil => exact hd
  | cons e entries ih => exact ih (hd.insert e.1 e.2)

theorem hasUniqueKeys_ofEntries
    (entries : List (String × α)) :
    (ofEntries entries).HasUniqueKeys :=
  hasUniqueKeys_foldl entries (d := empty) List.nodup_nil

/- What all entries have, the entries of the dict have. -/
theorem forall_entries_ofEntries
    {p : String × α → Prop}
    {entries : List (String × α)}
    (h : ∀ e ∈ entries, p e) :
    ∀ e ∈ (ofEntries entries).entries, p e := by
  refine
    List.foldlRecOn (motive := fun d : Dict α =>
      ∀ e ∈ d.entries, p e) entries _ (by simp [empty]) ?_
  intro d hd e he
  exact forall_entries_putEntry (h e he) hd

/- An entry adds no more than what it is worth. -/
theorem sum_putEntry_le
    (f : α → Nat)
    (key : String)
    (value : α)
    (entries : List (String × α)) :
    ((putEntry key value entries).map (fun e => f e.2)).sum ≤
      (entries.map (fun e => f e.2)).sum + f value := by
  induction entries with
  | nil => simp [putEntry]
  | cons e entries ih =>
      rw [putEntry]
      split_ifs <;>
        simp only [List.map_cons, List.sum_cons] <;> omega

/- A sum over entries counts those set last at most. -/
theorem sum_ofEntries_le
    (f : α → Nat)
    (entries : List (String × α)) :
    ((ofEntries entries).entries.map (fun e => f e.2)).sum ≤
      (entries.map (fun e => f e.2)).sum := by
  have hFold : ∀ (entries : List (String × α)) (d : Dict α),
      ((entries.foldl (fun d e => d.insert e.1 e.2)
          d).entries.map (fun e => f e.2)).sum ≤
        (d.entries.map (fun e => f e.2)).sum +
          (entries.map (fun e => f e.2)).sum := by
    intro entries
    induction entries with
    | nil => simp
    | cons e entries ih =>
        intro d
        have hMore := ih (d.insert e.1 e.2)
        have hPut := sum_putEntry_le f e.1 e.2 d.entries
        simp only [List.foldl_cons, List.map_cons,
          List.sum_cons] at hMore ⊢
        change _ ≤ (List.map _ (putEntry _ _ _)).sum + _
          at hMore
        omega
  have hAll := hFold entries empty
  change _ ≤ 0 + _ at hAll
  rwa [Nat.zero_add] at hAll

/- Entries under different keys are kept as they are. -/
theorem ofEntries_of_nodup
    {entries : List (String × α)}
    (h : (entries.map Prod.fst).Nodup) :
    ofEntries entries = ⟨entries⟩ := by
  have hFold : ∀ entries before : List (String × α),
      ((before ++ entries).map Prod.fst).Nodup →
        entries.foldl (fun d e => d.insert e.1 e.2)
          (⟨before⟩ : Dict α) = ⟨before ++ entries⟩ := by
    intro entries
    induction entries with
    | nil => simp
    | cons e entries ih =>
        intro before hNodup
        have hNew : e.1 ∉ before.map Prod.fst := by
          rw [List.map_append, List.nodup_append] at hNodup
          intro hMem
          exact
            hNodup.2.2 e.1 hMem e.1
              (List.mem_cons_self ..) rfl
        rw [List.foldl_cons, insert,
          putEntry_of_not_mem hNew, ih]
        · simp
        · simpa using hNodup
  exact hFold entries [] h

------------------------------------------------------------
-- Looking Up
------------------------------------------------------------

/- What is found under a key is an entry with that key. -/
theorem mem_entries_of_get?
    {d : Dict α}
    {key : String}
    {value : α}
    (h : d.get? key = some value) :
    (key, value) ∈ d.entries := by
  rcases List.lookup_eq_some_iff.mp h with
    ⟨before, after, hSplit, -⟩
  rw [hSplit]
  exact List.mem_append_right _ (List.mem_cons_self ..)

/- With unique keys an entry is found under its key. -/
theorem mem_entries_iff
    {d : Dict α}
    (hd : d.HasUniqueKeys)
    (key : String)
    (value : α) :
    (key, value) ∈ d.entries ↔ d.get? key = some value := by
  rcases d with ⟨entries⟩
  unfold HasUniqueKeys keys at hd
  unfold get?
  dsimp only at hd ⊢
  induction entries with
  | nil => simp
  | cons e entries ih =>
      rcases e with ⟨k, old⟩
      rw [List.map_cons, List.nodup_cons] at hd
      rw [List.mem_cons, List.lookup_cons, ih hd.2,
        Prod.mk.injEq]
      by_cases hk : key = k
      · subst hk
        have hNone : entries.lookup key = none := by
          rw [List.lookup_eq_none_iff]
          intro e he
          have hne : key ≠ e.1 := by
            intro hEq
            apply hd.1
            change key ∈ _
            rw [hEq]
            exact List.mem_map_of_mem he
          simpa using hne
        simp [hNone, eq_comm]
      · have hFalse : (key == k) = false := by
          simpa using hk
        simp [hk, hFalse]

/- A name is there if something is found by it. -/
theorem mem_keys_iff
    (d : Dict α)
    (key : String) :
    key ∈ d.keys ↔ (d.get? key).isSome = true := by
  unfold keys get?
  rw [List.lookup_isSome_iff, List.mem_map]
  simp only [beq_iff_eq]
  constructor
  · rintro ⟨e, he, rfl⟩
    exact ⟨e, he, rfl⟩
  · rintro ⟨e, he, rfl⟩
    exact ⟨e, he, rfl⟩

/- A name that occurs at most once counts at most once. -/
theorem sum_ite_le
    (f : String → Nat)
    (key : String)
    (n : Nat)
    {names : List String}
    (hNodup : names.Nodup) :
    (names.map (fun name =>
        if name = key then n else f name)).sum ≤
      n + (names.map f).sum := by
  induction names with
  | nil => simp
  | cons name names ih =>
      rw [List.nodup_cons] at hNodup
      have hMore := ih hNodup.2
      rw [List.map_cons, List.map_cons, List.sum_cons,
        List.sum_cons]
      split_ifs with hKey
      · have hRest :
            names.map (fun name =>
                if name = key then n else f name) =
              names.map f := by
          apply List.map_congr_left
          intro other hOther
          rw [if_neg]
          rintro rfl
          exact hNodup.1 (hKey ▸ hOther)
        rw [hRest]
        omega
      · omega

/- Under different keys there is no entry twice. -/
theorem sum_get?_le
    (f : α → Nat)
    {names : List String}
    (hNodup : names.Nodup)
    (d : Dict α) :
    (names.map (fun name => (d.get? name).elim 0 f)).sum ≤
      (d.entries.map (fun e => f e.2)).sum := by
  rcases d with ⟨entries⟩
  unfold get?
  dsimp only
  induction entries with
  | nil => simp
  | cons e entries ih =>
      rcases e with ⟨key, value⟩
      have hFirst :
          names.map (fun name =>
              (List.lookup name
                ((key, value) :: entries)).elim 0 f) =
            names.map (fun name =>
              if name = key then f value
              else (List.lookup name entries).elim 0 f) := by
        apply List.map_congr_left
        intro name _
        rw [List.lookup_cons]
        by_cases hName : name = key
        · simp [hName]
        · simp [hName, beq_eq_false_iff_ne.mpr hName]
      have hOnce :=
        sum_ite_le
          (fun name => (List.lookup name entries).elim 0 f)
          key (f value) hNodup
      rw [hFirst, List.map_cons, List.sum_cons]
      dsimp only
      omega

/- With unique keys each entry is what its key leads to. -/
theorem map_entries_eq
    {β : Type}
    (f : String × α → β)
    (none : β)
    {d : Dict α}
    (hd : d.HasUniqueKeys) :
    d.entries.map f =
      d.keys.map (fun key =>
        (d.get? key).elim none (fun v => f (key, v))) := by
  rw [keys, List.map_map]
  apply List.map_congr_left
  rintro ⟨key, value⟩ he
  have hGet := (mem_entries_iff hd key value).mp he
  simp [hGet]

/- Among names with all keys each entry is there once. -/
theorem sum_get?_eq
    (f : α → Nat)
    {names : List String}
    (hNodup : names.Nodup)
    {d : Dict α}
    (hd : d.HasUniqueKeys)
    (hKeys : d.keys ⊆ names) :
    (names.map (fun name => (d.get? name).elim 0 f)).sum =
      (d.entries.map (fun e => f e.2)).sum := by
  apply Nat.le_antisymm (sum_get?_le f hNodup d)
  rcases List.Nodup.subperm hd hKeys with ⟨keys, hPerm, hSub⟩
  rw [map_entries_eq (fun e => f e.2) 0 hd,
    ← (hPerm.map _).sum_eq]
  exact (hSub.map _).sum_le_sum (fun n _ => Nat.zero_le n)

end Dict

------------------------------------------------------------
-- Sameness of Values and Records
------------------------------------------------------------

/- The value has no values inside. -/
def Value.IsSimple (v : Value) : Prop :=
  v.kind ≠ .list ∧ v.kind ≠ .dict

instance (v : Value) : Decidable v.IsSimple := by
  unfold Value.IsSimple
  infer_instance

/- Values that are the same as a third one are the same. -/
theorem Value.same_of_same
    {u v w : Value}
    (hu : u.IsSimple)
    (hv : (u == v) = true)
    (hw : (u == w) = true) :
    (v == w) = true := by
  change same u v = true at hv
  change same u w = true at hw
  change same v w = true
  unfold same at hv
  split at hv
  case h_12 x y =>
    cases w with
    | dateTime z =>
        simp only [same, BEq.beq, Bool.and_eq_true,
          decide_eq_true_eq] at hv hw ⊢
        simp_all
    | _ => simp [same] at hw
  case h_13 a b =>
    cases w with
    | ref c =>
        simp only [same, BEq.beq, decide_eq_true_eq]
          at hv hw ⊢
        simp_all
    | _ => simp [same] at hw
  case h_14 => exact absurd rfl hu.1
  case h_15 => exact absurd rfl hu.2
  case h_16 => cases hv
  all_goals
    unfold same at hw
    split at hw
    all_goals simp_all [same]

/- Lists are the same if they are item by item. -/
theorem Value.sameItems_iff
    {as bs : List Value} :
    Value.sameItems as bs = true ↔
      List.Forall₂ (fun a b => (a == b) = true) as bs := by
  induction as generalizing bs with
  | nil => cases bs <;> simp [Value.sameItems]
  | cons a as ih =>
      cases bs with
      | nil => simp [Value.sameItems]
      | cons b bs =>
          rw [Value.sameItems, Bool.and_eq_true, ih,
            List.forall₂_cons]
          rfl

/-
  Entries are in a dict if the like of each is found there.
-/
theorem Value.sameEntries_iff
    (entries : List (String × Value))
    (d : Dict Value) :
    Value.sameEntries entries d = true ↔
      ∀ e ∈ entries,
        ∃ w, d.get? e.1 = some w ∧ (e.2 == w) = true := by
  induction entries with
  | nil => simp [sameEntries]
  | cons e entries ih =>
      rcases e with ⟨key, v⟩
      rw [sameEntries, Bool.and_eq_true, ih,
        List.forall_mem_cons]
      cases hGet : d.get? key with
      | none => simp
      | some w =>
          simp only [Option.some.injEq, exists_eq_left',
            and_congr_left_iff]
          exact fun _ => Iff.rfl

namespace Record

theorem length_keys (d : Record) :
    d.keys.length = d.size := by
  simp [Dict.size, Dict.keys]

/-
  Where a record has each entry of another, and no more of
  them, both have the same keys.
-/
theorem keys_perm_of_sameEntries
    {a b : Record}
    (ha : a.HasUniqueKeys)
    (hLength : a.size = b.size)
    (hEntries :
      ∀ e ∈ a.entries,
        ∃ w, b.get? e.1 = some w ∧ (e.2 == w) = true) :
    a.keys.Perm b.keys := by
  have hSubset : a.keys ⊆ b.keys := by
    intro k hk
    rcases List.mem_map.mp hk with ⟨e, he, rfl⟩
    rcases hEntries e he with ⟨w, hw, _⟩
    rw [Dict.mem_keys_iff, hw]
    rfl
  apply (List.subperm_of_subset ha hSubset).perm_of_length_le
  rw [length_keys, length_keys, hLength]

/-
  What is found in both or in neither is named in both or in
  neither.
-/
theorem mem_keys_iff_of_rel
    {a b : Record}
    {key : String}
    (h :
      Option.Rel (fun v w => (v == w) = true) (a.get? key)
        (b.get? key)) :
    key ∈ a.keys ↔ key ∈ b.keys := by
  rw [Dict.mem_keys_iff, Dict.mem_keys_iff]
  generalize a.get? key = v at h
  generalize b.get? key = w at h
  cases h <;> simp

/-
  Records are the same if and only if each key has the same
  value in both, or none.
-/
theorem same_iff
    {a b : Record}
    (ha : a.HasUniqueKeys)
    (hb : b.HasUniqueKeys) :
    (a == b) = true ↔
      ∀ key,
        Option.Rel (fun v w => (v == w) = true) (a.get? key)
          (b.get? key) := by
  change
    ((a.size == b.size) &&
      Value.sameEntries a.entries b) = true ↔ _
  rw [Bool.and_eq_true, beq_iff_eq, Value.sameEntries_iff]
  constructor
  · rintro ⟨hLength, hEntries⟩ key
    have hPerm := keys_perm_of_sameEntries ha hLength hEntries
    cases hGet : a.get? key with
    | none =>
        have hNot : key ∉ b.keys := by
          rw [← hPerm.mem_iff, Dict.mem_keys_iff, hGet]
          simp
        rw [Dict.mem_keys_iff, Bool.not_eq_true,
          Option.isSome_eq_false_iff, Option.isNone_iff_eq_none]
          at hNot
        rw [hNot]
        exact .none
    | some v =>
        rcases hEntries (key, v)
          ((Dict.mem_entries_iff ha key v).mpr hGet) with
          ⟨w, hw, hSame⟩
        rw [hw]
        exact .some hSame
  · intro h
    constructor
    · have hPerm : a.keys.Perm b.keys :=
        (List.perm_ext_iff_of_nodup ha hb).mpr
          fun key => mem_keys_iff_of_rel (h key)
      rw [← length_keys, ← length_keys, hPerm.length_eq]
    · rintro ⟨key, v⟩ he
      rw [Dict.mem_entries_iff ha] at he
      have hKey := h key
      rw [he] at hKey
      cases hGet : b.get? key with
      | none =>
          rw [hGet] at hKey
          cases hKey
      | some w =>
          rw [hGet] at hKey
          cases hKey with
          | some hSame => exact ⟨w, rfl, hSame⟩

end Record

end Haystack
