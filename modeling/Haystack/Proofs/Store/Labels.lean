import Haystack.Proofs.Filter.Agreement
import Haystack.Proofs.Store.Reading
import Haystack.Proofs.Tag.Sameness

/-
  This file shows that the labels a store puts at references
  are seen by nobody who compares: the record stays the same,
  is included by the same filters, and keeps its own id.

  Main declarations:
    * `Store.get?_fillLabels`
    * `Store.same_fillLabels`
    * `Store.includes_fillLabels`
    * `Store.same_fillLabels_of_isReachable`
-/

namespace Haystack

namespace Store

------------------------------------------------------------
-- One Value
------------------------------------------------------------

/- A label is all that is added to a value. -/
theorem eqButLabel_labelled
    (s : Store)
    (v : Value) :
    Value.EqButLabel (s.labelled v) v := by
  cases v with
  | ref r =>
      rw [labelled]
      split
      · exact .ref rfl
      · exact .refl _
  | _ => exact .refl _

/- A label is taken from the target, so it stays as it is. -/
theorem labelled_labelled
    (s : Store)
    (v : Value) :
    s.labelled (s.labelled v) = s.labelled v := by
  cases v with
  | ref r =>
      cases hLabel : (s.find? r.id).bind Record.label? with
      | none => simp only [labelled, hLabel]
      | some label => simp only [labelled, hLabel]
  | _ => rfl

------------------------------------------------------------
-- One Record
------------------------------------------------------------

/- Labels change no name of a tag. -/
@[simp]
theorem keys_fillLabels
    (s : Store)
    (r : Record) :
    (s.fillLabels r).keys = r.keys := by
  unfold fillLabels Dict.keys
  rw [List.map_map]
  apply List.map_congr_left
  intro e _
  dsimp only [Function.comp_apply]
  split_ifs <;> rfl

/- All references but the own id get the label of their target. -/
theorem get?_fillLabels
    (s : Store)
    (r : Record)
    (key : String) :
    (s.fillLabels r).get? key =
      if key = "id" then r.get? key
      else (r.get? key).map s.labelled := by
  rcases r with ⟨entries⟩
  unfold fillLabels Dict.get?
  dsimp only
  induction entries with
  | nil => simp
  | cons e entries ih =>
      rcases e with ⟨k, v⟩
      have hEntry :
          (if k = "id" then (k, v) else (k, s.labelled v)) =
            (k, if k = "id" then v else s.labelled v) := by
        split_ifs <;> rfl
      rw [List.map_cons, hEntry, List.lookup_cons, ih,
        List.lookup_cons]
      by_cases hKey : key = k
      · subst hKey
        split_ifs <;> simp
      · rw [beq_eq_false_iff_ne.mpr hKey]

/- The id of a record is not given a label. -/
theorem get?_fillLabels_id
    (s : Store)
    (r : Record) :
    (s.fillLabels r).get? "id" = r.get? "id" := by
  rw [get?_fillLabels, if_pos rfl]

/- With labels a record agrees with what it was before. -/
theorem agreesWith_fillLabels
    (s : Store)
    (r : Record) :
    (s.fillLabels r).AgreesWith r := by
  intro key
  rw [get?_fillLabels]
  split_ifs
  · exact Record.agreesWith_of_get?_eq (fun _ => rfl) key
  · cases r.get? key with
    | none => exact .none
    | some v => exact .some (s.eqButLabel_labelled v)

/- Labels that are filled in stay when filled in again. -/
theorem fillLabels_fillLabels
    (s : Store)
    (r : Record) :
    s.fillLabels (s.fillLabels r) = s.fillLabels r := by
  unfold fillLabels
  rw [List.map_map]
  congr 1
  apply List.map_congr_left
  intro e _
  dsimp only [Function.comp_apply]
  split_ifs with hId
  · rfl
  · rw [s.labelled_labelled]

/- References are the same by their ids. -/
theorem same_fillLabels
    (s : Store)
    {r : Record}
    (hr : r.HasUniqueKeysThroughout) :
    (s.fillLabels r == r) = true := by
  have hUnique : (s.fillLabels r).HasUniqueKeys := by
    rw [Dict.HasUniqueKeys, keys_fillLabels]
    exact hr.hasUniqueKeys
  exact
    (s.agreesWith_fillLabels r).same hUnique hr.hasUniqueKeys
      (Value.entries_same_refl r.entries hr.2)

/- No filter tells the records apart. -/
theorem includes_fillLabels
    (s : Store)
    (r : Record)
    (f : Filter)
    (resolve : Resolver) :
    f.includes resolve (s.fillLabels r) =
      f.includes resolve r :=
  Filter.includes_eq_of_agreesWith (.refl resolve)
    (s.agreesWith_fillLabels r) f

------------------------------------------------------------
-- All Records of a Filter
------------------------------------------------------------

/-
  To put labels at the references of a record changes neither
  its keys nor its own id; the record stays the same, also to
  every filter, and all labels are there after one time. So
  the records that are read with labels are the same as those
  read without.
-/
theorem same_fillLabels_of_isReachable
    {s : Store}
    (hs : s.IsReachable Record.HasUniqueKeysThroughout)
    {r : Record}
    (hr : r.HasUniqueKeysThroughout)
    (f : Filter)
    (resolve : Resolver) :
    let filled := s.fillLabels r
    (filled == r) = true ∧
      filled.keys = r.keys ∧
      filled.get? "id" = r.get? "id" ∧
      f.includes resolve filled = f.includes resolve r ∧
      s.fillLabels filled = filled ∧
      List.Forall₂ (fun a b => (a == b) = true)
        (s.readAllLabelled f) (s.readAll f) := by
  intro filled
  refine
    ⟨s.same_fillLabels hr, s.keys_fillLabels r,
      s.get?_fillLabels_id r, s.includes_fillLabels r f resolve,
      s.fillLabels_fillLabels r, ?_⟩
  rw [readAllLabelled, List.forall₂_map_left_iff,
    List.forall₂_same]
  intro record hRecord
  rw [readAll_eq] at hRecord
  exact
    s.same_fillLabels
      (hs.of_mem_toList (List.mem_of_mem_filter hRecord))

/- A house with a name, and a room that refers to it twice. -/
def house : Record :=
  ⟨[("id", .ref ⟨"house", none, rfl⟩), ("name", .str "Home")]⟩

def room (label : Option String) : Record :=
  ⟨[("id", .ref ⟨"room", some "Room", rfl⟩),
    ("houseRef", .ref ⟨"house", label, rfl⟩),
    ("near", .dict ⟨[("at", .ref ⟨"house", none, rfl⟩)]⟩),
    ("dis", .str "Room 1")]⟩

/-
  The one reference that is a value of its own gets a label,
  which a comparison with it does not see.
-/
theorem same_fillLabels_room :
    ∃ s,
      ofRows [house, room (some "Old")] = .ok s ∧
        s.fillLabels (room (some "Old")) = room (some "Home") ∧
        (room (some "Home") == room (some "Old")) = true ∧
        (∀ resolve,
          Filter.includes resolve (room (some "Home"))
              (.cmp ⟨⟨"houseRef", rfl⟩, []⟩ .eq
                (.ref ⟨"house", none, rfl⟩)) =
            true) ∧
        List.Forall₂ (fun a b => (a == b) = true)
          (s.readAllLabelled .all) (s.readAll .all) := by
  have hIds :
      ∀ record ∈ [house, room (some "Old")],
        (Record.id? record).isSome := by
    decide
  rcases exists_insertAll hIds empty with ⟨s, hLoad⟩
  have hUnique :
      ∀ record ∈ [house, room (some "Old")],
        record.HasUniqueKeysThroughout := by
    simp only [List.forall_mem_cons, List.not_mem_nil,
      false_imp_iff, implies_true, and_true]
    exact
      ⟨⟨by decide, trivial, trivial, trivial⟩,
        ⟨by decide, trivial, trivial,
          ⟨by decide, trivial, trivial⟩, trivial, trivial⟩⟩
  have hFill :
      s.fillLabels (room (some "Old")) = room (some "Home") := by
    have hFind :
        s.find? =
          Record.lastNamed? [house, room (some "Old")] :=
      funext (find?_of_ofRows hLoad)
    unfold fillLabels labelled
    rw [hFind]
    rfl
  have hReach :
      s.IsReachable Record.HasUniqueKeysThroughout :=
    .load hUnique hLoad
  have hFilled (f : Filter) (resolve : Resolver) :=
    same_fillLabels_of_isReachable hReach
      (hUnique (room (some "Old")) (by simp)) f resolve
  rw [hFill] at hFilled
  refine
    ⟨s, hLoad, hFill, (hFilled .all .none).1, ?_,
      (hFilled .all .none).2.2.2.2.2⟩
  intro resolve
  rw [(hFilled _ resolve).2.2.2.1]
  rfl

end Store

end Haystack
