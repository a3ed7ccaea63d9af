import Haystack.Proofs.Tag.Merging

/-
  This file shows that values that are the same hash alike,
  whatever the hash of their simplest parts, and that
  sameness is an equivalence on all values and records that
  are built by setting entries, taking them away and merging.

  Key definitions include:
    * `Value.entryHash`
    * `IsLawfulSameness`

  Main declarations:
    * `Value.hashParts_eq_of_same`
    * `Record.same_iff_keys`
    * `same_isLawful`
-/

namespace Haystack

------------------------------------------------------------
-- Records of the Same Entries
------------------------------------------------------------

namespace Record

variable {d e : Record}

/-
  Records are the same if and only if they have the same keys
  and the values under each of them are.
-/
theorem same_iff_keys
    (hd : d.HasUniqueKeys)
    (he : e.HasUniqueKeys) :
    (d == e) = true ↔
      (∀ key, key ∈ d.keys ↔ key ∈ e.keys) ∧
        ∀ key v w, d.get? key = some v →
          e.get? key = some w → (v == w) = true := by
  rw [same_iff hd he]
  constructor
  · intro h
    constructor
    · intro key
      rw [Dict.mem_keys_iff, Dict.mem_keys_iff]
      have hKey := h key
      generalize d.get? key = v at hKey
      generalize e.get? key = w at hKey
      cases hKey <;> simp
    · intro key v w hFirst hSecond
      have hKey := h key
      rw [hFirst, hSecond] at hKey
      cases hKey with
      | some hSame => exact hSame
  · rintro ⟨hKeys, hValues⟩ key
    have hKey := hKeys key
    rw [Dict.mem_keys_iff, Dict.mem_keys_iff] at hKey
    cases hFirst : d.get? key with
    | none =>
        cases hSecond : e.get? key with
        | none => exact .none
        | some w => simp [hFirst, hSecond] at hKey
    | some v =>
        cases hSecond : e.get? key with
        | none => simp [hFirst, hSecond] at hKey
        | some w =>
            exact .some (hValues key v w hFirst hSecond)

/- Records that are the same have the same names of tags. -/
theorem keys_perm_of_same
    (hd : d.HasUniqueKeys)
    (he : e.HasUniqueKeys)
    (h : (d == e) = true) :
    d.keys.Perm e.keys :=
  (List.perm_ext_iff_of_nodup hd he).mpr
    ((same_iff_keys hd he).mp h).1

end Record

------------------------------------------------------------
-- Hashes of the Same Values
------------------------------------------------------------

namespace Value

variable (h : Hasher)

/- The hash of an entry by its own. -/
def entryHash (e : String × Value) : UInt64 :=
  h (.text e.1 :: e.2.hashParts h)

/- The hashes of entries are added up, in any order. -/
theorem entriesHash_eq (entries : List (String × Value)) :
    entriesHash h entries =
      (entries.map (entryHash h)).sum := by
  induction entries with
  | nil => rfl
  | cons e entries ih =>
      rw [entriesHash, ih]
      rfl

/- Sameness looks at nothing that a hash leaves out. -/
theorem hashParts_eq_of_isSimple
    {v w : Value}
    (hv : v.IsSimple)
    (hSame : (v == w) = true) :
    v.hashParts h = w.hashParts h := by
  change same v w = true at hSame
  unfold same at hSame
  split at hSame
  case h_12 x y =>
    simp only [BEq.beq, Bool.and_eq_true, decide_eq_true_eq]
      at hSame
    rcases hSame with ⟨⟨⟨hDate, hTime⟩, hZone⟩, hOffset⟩
    simp only [hashParts, DateTime.hashParts, hDate, hTime,
      hZone, hOffset]
  case h_13 r s =>
    have hId : r.id = s.id := of_decide_eq_true hSame
    simp only [hashParts, hId]
  case h_14 => exact absurd rfl hv.1
  case h_15 => exact absurd rfl hv.2
  case h_16 => cases hSame
  all_goals
    first
    | rfl
    | rw [beq_iff_eq] at hSame
      rw [hSame]

/-
  Dicts with the same keys and with values that hash alike
  have the same sum, in whatever order their entries are.
-/
theorem entriesHash_eq_of_same
    {d e : Record}
    (hd : d.HasUniqueKeys)
    (he : e.HasUniqueKeys)
    (hSame : (d == e) = true)
    (hParts :
      ∀ x ∈ d.entries, ∀ y ∈ e.entries,
        (x.2 == y.2) = true →
          x.2.hashParts h = y.2.hashParts h) :
    entriesHash h d.entries = entriesHash h e.entries := by
  have hKeys := Record.keys_perm_of_same hd he hSame
  rw [Record.same_iff_keys hd he] at hSame
  rw [entriesHash_eq, entriesHash_eq,
    Dict.map_entries_eq (entryHash h) 0 hd,
    Dict.map_entries_eq (entryHash h) 0 he,
    ← (hKeys.map _).sum_eq]
  congr 1
  apply List.map_congr_left
  intro key hKey
  have hOther := (hSame.1 key).mp hKey
  rw [Dict.mem_keys_iff, Option.isSome_iff_exists]
    at hKey hOther
  rcases hKey with ⟨v, hv⟩
  rcases hOther with ⟨w, hw⟩
  have hEqual :=
    hParts _ (Dict.mem_entries_of_get? hv) _
      (Dict.mem_entries_of_get? hw)
      (hSame.2 key v w hv hw)
  rw [hv, hw, Option.elim_some, Option.elim_some, entryHash,
    entryHash, hEqual]

mutual

/- By induction on the first value, part by part. -/
theorem hashParts_eq_of_same
    {v w : Value}
    (hv : v.HasUniqueKeysThroughout)
    (hw : w.HasUniqueKeysThroughout)
    (hSame : (v == w) = true) :
    v.hashParts h = w.hashParts h := by
  match v with
  | .list items =>
      cases w with
      | list items' =>
          rw [HasUniqueKeysThroughout] at hv hw
          change sameItems items items' = true at hSame
          rw [hashParts, hashParts,
            itemParts_eq_of_same hv hw hSame,
            (sameItems_iff.mp hSame).length_eq]
      | _ => cases hSame
  | .dict ⟨entries⟩ =>
      cases w with
      | dict d =>
          rcases d with ⟨others⟩
          rw [HasUniqueKeysThroughout] at hv hw
          rw [entriesHaveUniqueKeys_iff others] at hw
          have hLength : entries.length = others.length := by
            change (entries.length == others.length && _) = true
              at hSame
            rw [Bool.and_eq_true, beq_iff_eq] at hSame
            exact hSame.1
          have hSum :=
            entriesHash_eq_of_same h (d := ⟨entries⟩)
              (e := ⟨others⟩) hv.1 hw.1 hSame
              (fun x hx y hy =>
                entries_hashParts_eq hv.2 x hx (hw.2 y hy))
          rw [hashParts, hashParts, hLength, hSum]
      | _ => cases hSame
  | .marker | .remove | .na | .bool _ | .number _ | .str _
  | .uri _ | .bin _ | .coord _ | .date _ | .time _
  | .dateTime _ | .ref _ =>
      exact
        hashParts_eq_of_isSimple h (by simp [IsSimple, kind])
          hSame

/- Lists that are the same have the same parts to hash. -/
theorem itemParts_eq_of_same
    {as bs : List Value}
    (has : ItemsHaveUniqueKeys as)
    (hbs : ItemsHaveUniqueKeys bs)
    (hSame : sameItems as bs = true) :
    itemParts h as = itemParts h bs := by
  match as with
  | [] =>
      cases bs with
      | nil => rfl
      | cons b bs => cases hSame
  | a :: as =>
      cases bs with
      | nil => cases hSame
      | cons b bs =>
          rw [ItemsHaveUniqueKeys] at has hbs
          rw [sameItems, Bool.and_eq_true] at hSame
          rw [itemParts, itemParts,
            hashParts_eq_of_same has.1 hbs.1 hSame.1,
            itemParts_eq_of_same has.2 hbs.2 hSame.2]

/- In place of a value its like may be hashed. -/
theorem entries_hashParts_eq
    {entries : List (String × Value)}
    (hEntries : EntriesHaveUniqueKeys entries) :
    ∀ e ∈ entries, ∀ {w : Value},
      w.HasUniqueKeysThroughout → (e.2 == w) = true →
        e.2.hashParts h = w.hashParts h := by
  match entries with
  | [] => simp
  | (key, value) :: entries =>
      rw [EntriesHaveUniqueKeys] at hEntries
      rw [List.forall_mem_cons]
      exact
        ⟨fun hw => hashParts_eq_of_same hEntries.1 hw,
          entries_hashParts_eq hEntries.2⟩

end

end Value

------------------------------------------------------------
-- The Laws
------------------------------------------------------------

/-
  Among these things sameness is an equivalence, and what is
  the same puts the same parts into a hash, however the
  entries of dicts are hashed.
-/
structure IsLawfulSameness
    {α : Type}
    [BEq α]
    (p : α → Prop)
    (parts : Hasher → α → List HashPart) : Prop where
  refl : ∀ a, p a → (a == a) = true
  symm :
    ∀ a b, p a → p b → (a == b) = true → (b == a) = true
  trans :
    ∀ a b c, p a → p b → p c → (a == b) = true →
      (b == c) = true → (a == c) = true
  hash :
    ∀ a b, p a → p b → (a == b) = true →
      ∀ h, parts h a = parts h b

/-
  Sameness of built values and of built records is lawful,
  and built records are the same if and only if they have the
  same keys with the same values.
-/
theorem same_isLawful :
    IsLawfulSameness Value.IsBuilt Value.hashParts ∧
      IsLawfulSameness Record.IsBuilt Record.hashParts ∧
      ∀ d e : Record, d.IsBuilt → e.IsBuilt →
        ((d == e) = true ↔
          (∀ key, key ∈ d.keys ↔ key ∈ e.keys) ∧
            ∀ key v w, d.get? key = some v →
              e.get? key = some w → (v == w) = true) := by
  have hValues :
      IsLawfulSameness Value.IsBuilt Value.hashParts := by
    constructor
    · intro a ha
      exact a.same_refl ha.hasUniqueKeysThroughout
    · intro a b ha hb
      exact
        Value.same_symm_throughout ha.hasUniqueKeysThroughout
          hb.hasUniqueKeysThroughout
    · intro a b c _ _ _
      exact Value.same_trans
    · intro a b ha hb hSame h
      exact
        Value.hashParts_eq_of_same h ha.hasUniqueKeysThroughout
          hb.hasUniqueKeysThroughout hSame
  refine ⟨hValues, ?_, ?_⟩
  · -- a record is the same as another as a value is
    constructor
    · exact fun d hd => hValues.refl (.dict d) hd
    · exact fun d e hd he => hValues.symm (.dict d) (.dict e) hd he
    · exact fun d e f hd he hf =>
        hValues.trans (.dict d) (.dict e) (.dict f) hd he hf
    · intro d e hd he hSame h
      have hBoth :=
        hValues.hash (.dict d) (.dict e) hd he hSame h
      exact (List.cons.inj hBoth).2
  · intro d e hd he
    exact Record.same_iff_keys hd.hasUniqueKeys he.hasUniqueKeys

/- One room twice, with its entries in another order. -/
def labelledRoom : Record :=
  ⟨[ ("id", .ref ⟨"attic", some "Room 1", rfl⟩),
      ("tags", .dict ⟨[("warm", .marker), ("floor", .na)]⟩),
      ("list", .list [.bool true, .remove])]⟩

def reorderedRoom : Record :=
  ⟨[ ("list", .list [.bool true, .remove]),
      ("tags", .dict ⟨[("floor", .na), ("warm", .marker)]⟩),
      ("id", .ref ⟨"attic", none, rfl⟩)]⟩

/-
  Two records with another order and other labels hash
  alike.
-/
theorem same_labelledRoom :
    labelledRoom.IsBuilt ∧ reorderedRoom.IsBuilt ∧
      (labelledRoom == reorderedRoom) = true ∧
      (∀ key, key ∈ labelledRoom.keys ↔
        key ∈ reorderedRoom.keys) ∧
      ∀ h, labelledRoom.hashParts h =
        reorderedRoom.hashParts h := by
  have hFirst : labelledRoom.IsBuilt := by
    apply (Value.isBuilt_iff _).mpr
    exact
      ⟨by decide, trivial,
        ⟨by decide, trivial, trivial, trivial⟩,
        ⟨trivial, trivial, trivial⟩, trivial⟩
  have hSecond : reorderedRoom.IsBuilt := by
    apply (Value.isBuilt_iff _).mpr
    exact
      ⟨by decide, ⟨trivial, trivial, trivial⟩,
        ⟨by decide, trivial, trivial, trivial⟩, trivial,
        trivial⟩
  have hSame : (labelledRoom == reorderedRoom) = true := by
    decide +kernel
  rcases same_isLawful with ⟨-, hRecords, hKeys⟩
  exact
    ⟨hFirst, hSecond, hSame,
      ((hKeys _ _ hFirst hSecond).mp hSame).1,
      hRecords.hash _ _ hFirst hSecond hSame⟩

end Haystack
