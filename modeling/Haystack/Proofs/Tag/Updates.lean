import Haystack.Proofs.Tag.Records

/-
  This file shows what a dict has under each key after an
  entry was set or taken away, and after all entries were
  changed or put in another order.

  Main declarations:
    * `Dict.get?_insert`
    * `Dict.get?_erase`
    * `Dict.keys_erase`
    * `Dict.get?_eq_of_perm`
    * `Dict.rel_get?`
    * `Dict.eq_of_keys_eq`
-/

namespace Haystack

namespace Dict

variable {α : Type}

------------------------------------------------------------
-- Looking Up
------------------------------------------------------------

/- The first entry of a name is the one that is found. -/
theorem get?_cons
    (e : String × α)
    (entries : List (String × α))
    (key : String) :
    get? ⟨e :: entries⟩ key =
      if key = e.1 then some e.2 else get? ⟨entries⟩ key := by
  unfold get?
  rw [List.lookup_cons]
  by_cases hKey : key = e.1
  · simp [hKey]
  · simp [beq_eq_false_iff_ne.mpr hKey, hKey]

/- Nothing is found by a name that does not occur. -/
theorem get?_eq_none_iff
    (d : Dict α)
    (key : String) :
    d.get? key = none ↔ key ∉ d.keys := by
  rw [mem_keys_iff, Bool.not_eq_true, Option.isSome_eq_false_iff,
    Option.isNone_iff_eq_none]

/- Only the entry under the key of an entry set is another. -/
theorem get?_insert
    (d : Dict α)
    (key : String)
    (value : α)
    (k : String) :
    (d.insert key value).get? k =
      if k = key then some value else d.get? k := by
  rcases d with ⟨entries⟩
  unfold insert get?
  dsimp only
  induction entries with
  | nil =>
      by_cases hk : k = key
      · simp [putEntry, hk]
      · simp [putEntry, List.lookup_cons,
          beq_eq_false_iff_ne.mpr hk, hk]
  | cons e entries ih =>
      rcases e with ⟨first, old⟩
      rw [putEntry]
      by_cases hFirst : first = key
      · subst hFirst
        by_cases hk : k = first
        · simp [hk]
        · simp [List.lookup_cons,
            beq_eq_false_iff_ne.mpr hk, hk]
      · rw [if_neg hFirst, List.lookup_cons, ih,
          List.lookup_cons]
        by_cases hk : k = first
        · subst hk
          simp [hFirst]
        · simp [beq_eq_false_iff_ne.mpr hk]

/- With unique keys, taking away is leaving out. -/
theorem erase_eq_filter
    {d : Dict α}
    (hd : d.HasUniqueKeys)
    (key : String) :
    d.erase key = ⟨d.entries.filter (fun e => e.1 ≠ key)⟩ := by
  rcases d with ⟨entries⟩
  unfold HasUniqueKeys keys at hd
  unfold erase
  dsimp only at hd ⊢
  congr 1
  induction entries with
  | nil => rfl
  | cons e entries ih =>
      rw [List.map_cons, List.nodup_cons] at hd
      by_cases hKey : e.1 = key
      · rw [List.eraseP_cons_of_pos (by simpa using hKey),
          List.filter_cons_of_neg (by simpa using hKey),
          List.filter_eq_self.mpr]
        intro other hOther
        have hne : other.1 ≠ key := by
          rintro rfl
          exact hd.1 (hKey ▸ List.mem_map_of_mem hOther)
        simpa using hne
      · rw [List.eraseP_cons_of_neg (by simpa using hKey),
          List.filter_cons_of_pos (by simpa using hKey),
          ih hd.2]

/- The other keys keep their order. -/
theorem keys_erase
    {d : Dict α}
    (hd : d.HasUniqueKeys)
    (key : String) :
    (d.erase key).keys = d.keys.filter (· ≠ key) := by
  rw [erase_eq_filter hd, keys, keys, List.filter_map]
  rfl

/- Leaving entries out leaves each name at most once. -/
theorem HasUniqueKeys.filter
    {d : Dict α}
    (hd : d.HasUniqueKeys)
    (p : String × α → Bool) :
    HasUniqueKeys ⟨d.entries.filter p⟩ :=
  (List.filter_sublist.map Prod.fst).nodup hd

/- So does taking a name away. -/
theorem HasUniqueKeys.erase
    {d : Dict α}
    (hd : d.HasUniqueKeys)
    (key : String) :
    (d.erase key).HasUniqueKeys := by
  rw [erase_eq_filter hd]
  exact hd.filter _

/- What is taken away is not found, and all else is. -/
theorem get?_erase
    {d : Dict α}
    (hd : d.HasUniqueKeys)
    (key k : String) :
    (d.erase key).get? k =
      if k = key then none else d.get? k := by
  apply Option.ext
  intro value
  rw [← mem_entries_iff (hd.erase key), erase_eq_filter hd,
    List.mem_filter, mem_entries_iff hd]
  by_cases hk : k = key
  · simp [hk]
  · simp [hk]

------------------------------------------------------------
-- All Entries
------------------------------------------------------------

/- The order of the entries does not matter for looking up. -/
theorem get?_eq_of_perm
    {entries others : List (String × α)}
    (hNodup : (entries.map Prod.fst).Nodup)
    (hPerm : entries.Perm others)
    (key : String) :
    get? ⟨entries⟩ key = get? ⟨others⟩ key := by
  have hOthers : (others.map Prod.fst).Nodup :=
    (hPerm.map Prod.fst).nodup_iff.mp hNodup
  apply Option.ext
  intro value
  rw [← mem_entries_iff (d := ⟨entries⟩) hNodup,
    ← mem_entries_iff (d := ⟨others⟩) hOthers]
  exact hPerm.mem_iff

/- Changing all values changes the one that is found. -/
theorem get?_map
    {β : Type}
    (f : α → β)
    (entries : List (String × α))
    (key : String) :
    get? ⟨entries.map (fun e => (e.1, f e.2))⟩ key =
      (get? ⟨entries⟩ key).map f := by
  unfold get?
  dsimp only
  induction entries with
  | nil => rfl
  | cons e entries ih =>
      rw [List.map_cons, List.lookup_cons, List.lookup_cons, ih]
      cases key == e.1 <;> rfl

/- Entries related one by one are so under each key. -/
theorem rel_get?
    {β : Type}
    {R : α → β → Prop}
    {entries : List (String × α)}
    {others : List (String × β)}
    (h :
      List.Forall₂ (fun a b => a.1 = b.1 ∧ R a.2 b.2) entries
        others)
    (key : String) :
    Option.Rel R (get? ⟨entries⟩ key) (get? ⟨others⟩ key) := by
  unfold get?
  dsimp only
  induction h with
  | nil => exact .none
  | @cons a b _ _ hFirst _ ih =>
      rw [List.lookup_cons, List.lookup_cons, hFirst.1]
      cases key == b.1 with
      | true => exact .some hFirst.2
      | false => exact ih

------------------------------------------------------------
-- Equality
------------------------------------------------------------

/-
  A dict is given by its keys in order and by the entry
  under each of them.
-/
theorem eq_of_keys_eq
    {d other : Dict α}
    (hd : d.HasUniqueKeys)
    (hKeys : d.keys = other.keys)
    (hGet : ∀ key, d.get? key = other.get? key) :
    d = other := by
  have hOther : other.HasUniqueKeys := by
    unfold HasUniqueKeys at hd ⊢
    rwa [← hKeys]
  have hEntries : d.entries = other.entries := by
    apply List.map_injective_iff.mpr (Option.some_injective _)
    rw [map_entries_eq some none hd,
      map_entries_eq some none hOther, hKeys]
    simp only [hGet]
  cases d
  cases other
  congr

end Dict

end Haystack
