import Haystack.Proofs.Tag.Records

/-
  This file shows that sameness of values is an equivalence:
  it is transitive, and however deep lists and dicts are
  nested, every value is the same as itself and two values
  are the same either way, if no key of a dict has two
  entries. Values that are the same both ways compare alike
  with all others.

  Key definitions include:
    * `Value.Alike`
    * `Record.Alike`
    * `Value.HasUniqueKeysThroughout`
    * `Record.HasUniqueKeysThroughout`

  Main declarations:
    * `Value.same_trans`
    * `Value.same_refl`
    * `Value.same_symm_throughout`
    * `Record.Alike.rel_get?`
-/

namespace Haystack

namespace Value

------------------------------------------------------------
-- Values without Values Inside
------------------------------------------------------------

/- Every simple value is the same as itself. -/
theorem same_self
    {v : Value}
    (hv : v.IsSimple) :
    (v == v) = true := by
  change same v v = true
  cases v with
  | dateTime x =>
      change
        (decide _ && decide _ && decide _ && decide _) = true
      simp
  | ref r =>
      change decide _ = true
      simp
  | list items => exact absurd rfl hv.1
  | dict d => exact absurd rfl hv.2
  | _ => simp [same]

/- Values that are the same are of one kind. -/
theorem kind_eq_of_same
    {v w : Value}
    (h : (v == w) = true) :
    v.kind = w.kind := by
  change same v w = true at h
  unfold same at h
  split at h <;> first | rfl | cases h

/- What is the same as a simple value is simple. -/
theorem IsSimple.of_same
    {v w : Value}
    (hv : v.IsSimple)
    (h : (v == w) = true) :
    w.IsSimple := by
  rwa [IsSimple, ← kind_eq_of_same h]

theorem same_symm
    {v w : Value}
    (hv : v.IsSimple)
    (h : (v == w) = true) :
    (w == v) = true :=
  same_of_same hv h (same_self hv)

/-
  What is the same as the same is the same, if the first is
  simple.
-/
theorem same_trans_of_isSimple
    {a v w : Value}
    (ha : a.IsSimple)
    (hFirst : (a == v) = true)
    (hSecond : (v == w) = true) :
    (a == w) = true :=
  same_of_same (ha.of_same hFirst) (same_symm ha hFirst) hSecond

------------------------------------------------------------
-- Transitivity
------------------------------------------------------------

mutual

/- By induction on the first value, part by part. -/
theorem same_trans
    {a v w : Value}
    (hFirst : (a == v) = true)
    (hSecond : (v == w) = true) :
    (a == w) = true := by
  match a with
  | .list items =>
      cases v with
      | list items' =>
          cases w with
          | list items'' =>
              change sameItems items items' = true at hFirst
              change sameItems items' items'' = true at hSecond
              exact sameItems_trans hFirst hSecond
          | _ => cases hSecond
      | _ => cases hFirst
  | .dict ⟨entries⟩ =>
      cases v with
      | dict d =>
          cases w with
          | dict e =>
              change
                (entries.length == d.size &&
                  sameEntries entries d) = true at hFirst
              change
                (d.size == e.size && sameEntries d.entries e) =
                  true at hSecond
              change
                (entries.length == e.size &&
                  sameEntries entries e) = true
              rw [Bool.and_eq_true, beq_iff_eq]
                at hFirst hSecond ⊢
              exact
                ⟨hFirst.1.trans hSecond.1,
                  sameEntries_trans hFirst.2 hSecond.2⟩
          | _ => cases hSecond
      | _ => cases hFirst
  | .marker | .remove | .na | .bool _ | .number _ | .str _
  | .uri _ | .bin _ | .coord _ | .date _ | .time _
  | .dateTime _ | .ref _ =>
      exact
        same_trans_of_isSimple (by simp [IsSimple, kind]) hFirst
          hSecond

/- Sameness of lists is handed on item by item. -/
theorem sameItems_trans
    {as bs cs : List Value}
    (hFirst : sameItems as bs = true)
    (hSecond : sameItems bs cs = true) :
    sameItems as cs = true := by
  match as with
  | [] =>
      cases bs with
      | nil => exact hSecond
      | cons b bs => cases hFirst
  | a :: as =>
      cases bs with
      | nil => cases hFirst
      | cons b bs =>
          cases cs with
          | nil => cases hSecond
          | cons c cs =>
              rw [sameItems, Bool.and_eq_true]
                at hFirst hSecond ⊢
              exact
                ⟨same_trans hFirst.1 hSecond.1,
                  sameItems_trans hFirst.2 hSecond.2⟩

/-
  Sameness of entries is handed on through the dict between.
-/
theorem sameEntries_trans
    {as : List (String × Value)}
    {d e : Record}
    (hFirst : sameEntries as d = true)
    (hSecond : sameEntries d.entries e = true) :
    sameEntries as e = true := by
  match as with
  | [] => rfl
  | (key, a) :: as =>
      rw [sameEntries, Bool.and_eq_true] at hFirst ⊢
      refine ⟨?_, sameEntries_trans hFirst.2 hSecond⟩
      cases hGet : d.get? key with
      | none => simp [hGet] at hFirst
      | some b =>
          rw [hGet] at hFirst
          rcases
            (sameEntries_iff d.entries e).mp hSecond _
              (Dict.mem_entries_of_get? hGet) with
            ⟨c, hc, hSame⟩
          rw [hc]
          exact same_trans hFirst.1 hSame
end

/- They are the same as the same values. -/
theorem beq_eq_of_same
    {v w : Value}
    (hv : v.IsSimple)
    (h : (v == w) = true)
    (a : Value) :
    (a == v) = (a == w) := by
  rw [Bool.eq_iff_iff]
  exact
    ⟨fun ha => same_trans ha h,
      fun ha => same_trans ha (same_symm hv h)⟩

/- Values that are the same are ordered alike. -/
theorem compare?_eq_of_same
    {v w : Value}
    (h : (v == w) = true)
    (a : Value) :
    v.compare? a = w.compare? a ∧
      a.compare? v = a.compare? w := by
  change same v w = true at h
  unfold same at h
  split at h
  case h_12 x y =>
    cases a with
    | dateTime z =>
        simp only [BEq.beq, Bool.and_eq_true,
          decide_eq_true_eq] at h
        rcases h with ⟨⟨⟨hDate, hTime⟩, -⟩, hOffset⟩
        have hEpoch : x.epoch = y.epoch := by
          simp only [DateTime.epoch, hDate, hTime, hOffset]
        change
          some (compare x.epoch z.epoch) =
              some (compare y.epoch z.epoch) ∧
            some (compare z.epoch x.epoch) =
              some (compare z.epoch y.epoch)
        rw [hEpoch]
        exact ⟨rfl, rfl⟩
    | _ => exact ⟨rfl, rfl⟩
  case h_16 => cases h
  all_goals
    first
    | cases a <;> exact ⟨rfl, rfl⟩
    | rw [beq_iff_eq] at h
      rw [h]
      exact ⟨rfl, rfl⟩

------------------------------------------------------------
-- Values that Nothing Tells Apart
------------------------------------------------------------

/- The values are equal, or each is the same as the other. -/
def Alike (v w : Value) : Prop :=
  v = w ∨ ((v == w) = true ∧ (w == v) = true)

section Alike

variable {v w : Value}

theorem Alike.refl (v : Value) : v.Alike v :=
  Or.inl rfl

theorem Alike.symm (h : v.Alike w) : w.Alike v :=
  h.imp Eq.symm And.symm

/- Values that are alike are of one kind. -/
theorem Alike.kind_eq (h : v.Alike w) : v.kind = w.kind := by
  rcases h with rfl | ⟨h, -⟩
  · rfl
  · exact kind_eq_of_same h

/- They are the same as the same values. -/
theorem Alike.beq_eq
    (h : v.Alike w)
    (a : Value) :
    (v == a) = (w == a) := by
  rcases h with rfl | ⟨h, h'⟩
  · rfl
  · rw [Bool.eq_iff_iff]
    exact ⟨same_trans h', same_trans h⟩

/- They compare alike with any other. -/
theorem Alike.compare?_eq
    (h : v.Alike w)
    (a : Value) :
    v.compare? a = w.compare? a := by
  rcases h with rfl | ⟨h, -⟩
  · rfl
  · exact (compare?_eq_of_same h a).1

/- Only a text is like a text. -/
theorem Alike.eq_str
    {text : String}
    (h : Alike (.str text) w) :
    w = .str text := by
  rcases h with rfl | ⟨h, -⟩
  · rfl
  · cases w with
    | str other => rw [of_decide_eq_true h]
    | _ => cases h

/- Only a reference to the same record is like a reference. -/
theorem Alike.exists_ref
    {r : Ref}
    (h : Alike (.ref r) w) :
    ∃ r', w = .ref r' ∧ r.id = r'.id := by
  rcases h with rfl | ⟨h, -⟩
  · exact ⟨r, rfl, rfl⟩
  · cases w with
    | ref r' => exact ⟨r', rfl, of_decide_eq_true h⟩
    | _ => cases h

end Alike

------------------------------------------------------------
-- Nested Values
------------------------------------------------------------

mutual

/- No key of a dict inside has two entries. -/
def HasUniqueKeysThroughout : Value → Prop
| .list items => ItemsHaveUniqueKeys items
| .dict ⟨entries⟩ =>
    (entries.map Prod.fst).Nodup ∧
      EntriesHaveUniqueKeys entries
| _ => True

/- No key of a dict inside any item has two entries. -/
def ItemsHaveUniqueKeys : List Value → Prop
| [] => True
| item :: items =>
    HasUniqueKeysThroughout item ∧ ItemsHaveUniqueKeys items

/- No key of a dict inside any entry has two entries. -/
def EntriesHaveUniqueKeys : List (String × Value) → Prop
| [] => True
| (_, value) :: entries =>
    HasUniqueKeysThroughout value ∧
      EntriesHaveUniqueKeys entries

end

/-
  Items have unique names throughout if each of them does.
-/
theorem itemsHaveUniqueKeys_iff (items : List Value) :
    ItemsHaveUniqueKeys items ↔
      ∀ item ∈ items, item.HasUniqueKeysThroughout := by
  induction items with
  | nil => simp [ItemsHaveUniqueKeys]
  | cons item items ih =>
      rw [ItemsHaveUniqueKeys, ih, List.forall_mem_cons]

/- So have entries if each of their values does. -/
theorem entriesHaveUniqueKeys_iff
    (entries : List (String × Value)) :
    EntriesHaveUniqueKeys entries ↔
      ∀ e ∈ entries, e.2.HasUniqueKeysThroughout := by
  induction entries with
  | nil => simp [EntriesHaveUniqueKeys]
  | cons e entries ih =>
      rw [EntriesHaveUniqueKeys, ih, List.forall_mem_cons]

/- Without values inside there is no key at all. -/
theorem IsSimple.hasUniqueKeysThroughout
    {v : Value}
    (hv : v.IsSimple) :
    v.HasUniqueKeysThroughout := by
  cases v with
  | list items => exact absurd rfl hv.1
  | dict d => exact absurd rfl hv.2
  | _ => trivial

/- A dict is the same as itself if each of its values is. -/
theorem same_dict_self
    {d : Record}
    (hd : d.HasUniqueKeys)
    (h : ∀ e ∈ d.entries, (e.2 == e.2) = true) :
    (d == d) = true := by
  rw [Record.same_iff hd hd]
  intro key
  cases hGet : d.get? key with
  | none => exact .none
  | some v =>
      have hMem := (Dict.mem_entries_iff hd key v).mpr hGet
      exact .some (h _ hMem)

mutual

/- By induction on the value, each part is the same. -/
theorem same_refl
    (v : Value)
    (hv : v.HasUniqueKeysThroughout) :
    (v == v) = true := by
  match v with
  | .list items =>
      rw [HasUniqueKeysThroughout] at hv
      exact sameItems_refl items hv
  | .dict ⟨entries⟩ =>
      rw [HasUniqueKeysThroughout] at hv
      exact
        same_dict_self (d := ⟨entries⟩) hv.1
          (entries_same_refl entries hv.2)
  | .marker | .remove | .na | .bool _ | .number _ | .str _
  | .uri _ | .bin _ | .coord _ | .date _ | .time _
  | .dateTime _ | .ref _ =>
      exact same_self (by simp [IsSimple, kind])

/-
  A list with unique names throughout is the same as itself.
-/
theorem sameItems_refl
    (items : List Value)
    (h : ItemsHaveUniqueKeys items) :
    sameItems items items = true := by
  match items with
  | [] => rfl
  | item :: items =>
      rw [ItemsHaveUniqueKeys] at h
      rw [sameItems, Bool.and_eq_true]
      exact ⟨same_refl item h.1, sameItems_refl items h.2⟩

/- So is each value of such entries. -/
theorem entries_same_refl
    (entries : List (String × Value))
    (h : EntriesHaveUniqueKeys entries) :
    ∀ e ∈ entries, (e.2 == e.2) = true := by
  match entries with
  | [] => simp
  | (key, value) :: entries =>
      rw [EntriesHaveUniqueKeys] at h
      rw [List.forall_mem_cons]
      exact ⟨same_refl value h.1, entries_same_refl entries h.2⟩

end

/- Dicts are the same both ways if their values are. -/
theorem same_dict_symm
    {d e : Record}
    (hd : d.HasUniqueKeys)
    (he : e.HasUniqueKeys)
    (hSymm :
      ∀ x ∈ d.entries, ∀ y ∈ e.entries,
        (x.2 == y.2) = true → (y.2 == x.2) = true)
    (h : (d == e) = true) :
    (e == d) = true := by
  rw [Record.same_iff hd he] at h
  rw [Record.same_iff he hd]
  intro key
  have hKey := h key
  cases hFirst : d.get? key with
  | none =>
      rw [hFirst] at hKey
      cases hSecond : e.get? key with
      | none => exact .none
      | some w =>
          rw [hSecond] at hKey
          cases hKey
  | some v =>
      rw [hFirst] at hKey
      cases hSecond : e.get? key with
      | none =>
          rw [hSecond] at hKey
          cases hKey
      | some w =>
          rw [hSecond] at hKey
          cases hKey with
          | some hSame =>
              exact
                .some
                  (hSymm _ (Dict.mem_entries_of_get? hFirst) _
                    (Dict.mem_entries_of_get? hSecond) hSame)

mutual

/- By induction on the first value, part by part. -/
theorem same_symm_throughout
    {v w : Value}
    (hv : v.HasUniqueKeysThroughout)
    (hw : w.HasUniqueKeysThroughout)
    (h : (v == w) = true) :
    (w == v) = true := by
  match v with
  | .list items =>
      cases w with
      | list items' =>
          rw [HasUniqueKeysThroughout] at hv hw
          change sameItems items items' = true at h
          exact sameItems_symm hv hw h
      | _ => cases h
  | .dict ⟨entries⟩ =>
      cases w with
      | dict d =>
          rcases d with ⟨others⟩
          rw [HasUniqueKeysThroughout] at hv hw
          rw [entriesHaveUniqueKeys_iff others] at hw
          refine
            same_dict_symm (d := ⟨entries⟩) (e := ⟨others⟩) hv.1
              hw.1 ?_ h
          intro x hx y hy
          exact entries_same_symm hv.2 x hx (hw.2 y hy)
      | _ => cases h
  | .marker | .remove | .na | .bool _ | .number _ | .str _
  | .uri _ | .bin _ | .coord _ | .date _ | .time _
  | .dateTime _ | .ref _ =>
      exact same_symm (by simp [IsSimple, kind]) h

/- Sameness of such lists goes both ways. -/
theorem sameItems_symm
    {as bs : List Value}
    (has : ItemsHaveUniqueKeys as)
    (hbs : ItemsHaveUniqueKeys bs)
    (h : sameItems as bs = true) :
    sameItems bs as = true := by
  match as with
  | [] =>
      cases bs with
      | nil => rfl
      | cons b bs => cases h
  | a :: as =>
      cases bs with
      | nil => cases h
      | cons b bs =>
          rw [ItemsHaveUniqueKeys] at has hbs
          rw [sameItems, Bool.and_eq_true] at h ⊢
          exact
            ⟨same_symm_throughout has.1 hbs.1 h.1,
              sameItems_symm has.2 hbs.2 h.2⟩

/- So does sameness with a value of such entries. -/
theorem entries_same_symm
    {entries : List (String × Value)}
    (h : EntriesHaveUniqueKeys entries) :
    ∀ e ∈ entries, ∀ {w : Value},
      w.HasUniqueKeysThroughout →
        (e.2 == w) = true → (w == e.2) = true := by
  match entries with
  | [] => simp
  | (key, value) :: entries =>
      rw [EntriesHaveUniqueKeys] at h
      rw [List.forall_mem_cons]
      exact
        ⟨fun hw => same_symm_throughout h.1 hw,
          entries_same_symm h.2⟩

end

end Value

namespace Record

/- The records are equal, or each is the same as the other. -/
def Alike (a b : Record) : Prop :=
  Value.Alike (.dict a) (.dict b)

theorem Alike.symm
    {a b : Record}
    (h : a.Alike b) :
    b.Alike a :=
  Value.Alike.symm h

/- What one record has under a key, the same one has too. -/
theorem exists_get?_of_same
    {a b : Record}
    {key : String}
    {v : Value}
    (h : (a == b) = true)
    (hGet : a.get? key = some v) :
    ∃ w, b.get? key = some w ∧ (v == w) = true := by
  change
    (a.size == b.size &&
      Value.sameEntries a.entries b) = true at h
  rw [Bool.and_eq_true, Value.sameEntries_iff] at h
  exact h.2 (key, v) (Dict.mem_entries_of_get? hGet)

/- Under each key there are values that are alike. -/
theorem Alike.rel_get?
    {a b : Record}
    (h : a.Alike b)
    (key : String) :
    Option.Rel Value.Alike (a.get? key) (b.get? key) := by
  rcases h with h | ⟨h, h'⟩
  · cases h
    cases a.get? key with
    | none => exact .none
    | some v => exact .some (.refl v)
  · cases hGet : a.get? key with
    | none =>
        cases hGet' : b.get? key with
        | none => exact .none
        | some w =>
            rcases exists_get?_of_same h' hGet' with ⟨v, hv, -⟩
            rw [hGet] at hv
            cases hv
    | some v =>
        rcases exists_get?_of_same h hGet with ⟨w, hw, hSame⟩
        rcases exists_get?_of_same h' hw with ⟨v', hv', hBack⟩
        rw [hGet, Option.some.injEq] at hv'
        rw [hw]
        rw [← hv'] at hBack
        exact .some (Or.inr ⟨hSame, hBack⟩)

end Record

/-
  Neither the record nor any dict inside has two entries
  under one key. All dicts that are made by setting entries
  are so.
-/
def Record.HasUniqueKeysThroughout (r : Record) : Prop :=
  (Value.dict r).HasUniqueKeysThroughout

theorem Record.HasUniqueKeysThroughout.hasUniqueKeys
    {r : Record}
    (hr : r.HasUniqueKeysThroughout) :
    r.HasUniqueKeys :=
  hr.1

end Haystack
