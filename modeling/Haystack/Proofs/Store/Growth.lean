import Haystack.Proofs.Filter.Dependence
import Haystack.Proofs.Store.Reading

/-
  This file shows that a store that grows loses no answer of
  a positive filter: a record with a new id comes last, and
  references that lead to it now led nowhere before.

  Main declarations:
    * `Store.IsSound.toList_set`
    * `Store.find?_set_of_new`
    * `Store.IsSound.readAll_sublist_set`
    * `Store.readAll_sublist_of_isPositive`
-/

namespace Haystack

namespace Store

section Growth

variable {s : Store}
variable {id : String}
variable {record : Record}

/- A record with a new id is put behind all others. -/
theorem IsSound.toList_set
    (hs : s.IsSound)
    (hId : idOf record = .ok id)
    (hNew : s.find? id = none) :
    (s.set id record).toList = s.toList ++ [record] := by
  have hKeys : id ∉ s.entries.entries.map Prod.fst := by
    change id ∉ s.entries.keys
    rw [Dict.mem_keys_iff, hs.get?_entries, hNew]
    exact Bool.false_ne_true
  rw [toList_eq, hs.entries_set hId, Dict.insert,
    Dict.putEntry_of_not_mem hKeys, List.map_append, toList_eq]
  rfl

/- What was found before the new record is found after. -/
theorem find?_set_of_new
    (hNew : s.find? id = none)
    {k : String}
    {target : Record}
    (hFound : s.find? k = some target) :
    (s.set id record).find? k = some target := by
  have hOther : k ≠ id := by
    rintro rfl
    rw [hNew] at hFound
    cases hFound
  rw [find?_set, if_neg hOther, hFound]

/- What a positive filter read is read again, in order. -/
theorem IsSound.readAll_sublist_set
    (hs : s.IsSound)
    (hId : idOf record = .ok id)
    (hNew : s.find? id = none)
    {f : Filter}
    (hf : f.IsPositive) :
    (s.readAll f).Sublist ((s.set id record).readAll f) := by
  have hRetains :
      Resolver.Retains s.find? (s.set id record).find? := by
    intro k target hFound
    exact
      ⟨target, find?_set_of_new hNew hFound,
        fun key => rel_self .refl (target.get? key)⟩
  have hStill (r : Record) :
      s.includes f r = true →
        (s.set id record).includes f r = true := by
    intro hIncludes
    refine Filter.includes_of_retains hf ?_ hIncludes
    intro p _
    exact
      p.retains_find? (retains_of_rel (rel_self .refl _))
        (Or.inr hRetains)
  rw [readAll_eq, readAll_eq, hs.toList_set hId hNew,
    List.filter_append]
  exact
    (List.monotone_filter_right s.toList hStill).trans
      (List.sublist_append_left _ _)

end Growth

------------------------------------------------------------
-- Positive Filters
------------------------------------------------------------

/-
  A positive filter that includes a record still does so if
  references that lead somewhere lead to the same records,
  and others may lead somewhere as well. So a store to which
  a record with a new id is brought still reads all records
  that it read before, in the same order.
-/
theorem readAll_sublist_of_isPositive
    {f : Filter}
    (hf : f.IsPositive) :
    (∀ (record : Record) (resolve resolve' : Resolver),
      (∀ id target,
        resolve id = some target →
          ∃ target',
            resolve' id = some target' ∧
              target.Alike target') →
      f.includes resolve record = true →
        f.includes resolve' record = true) ∧
    ∀ (p : Record → Prop) (s : Store),
      s.IsReachable p →
      ∀ (record : Record) (id : String),
        idOf record = .ok id →
        s.find? id = none →
          ∃ larger,
            s.insert record = .ok (larger, none) ∧
              (s.readAll f).Sublist (larger.readAll f) := by
  constructor
  · intro record resolve resolve' hResolve hIncludes
    have hRetains : resolve.Retains resolve' := by
      intro id target hFound
      rcases hResolve id target hFound with
        ⟨target', hFound', hAlike⟩
      exact ⟨target', hFound', hAlike.rel_get?⟩
    refine Filter.includes_of_retains hf ?_ hIncludes
    intro q _
    exact
      q.retains_find? (retains_of_rel (rel_self .refl _))
        (Or.inr hRetains)
  · intro p s hs record id hId hNew
    refine
      ⟨s.set id record, ?_,
        hs.isSound.readAll_sublist_set hId hNew hf⟩
    rw [insert_eq_ok s hId, hNew]

/- A well at a gate, and a pump in a field. -/
def gate : Record :=
  ⟨[("id", .ref ⟨"gate", none, rfl⟩), ("fenced", .marker)]⟩

def well : Record :=
  ⟨[("id", .ref ⟨"well", none, rfl⟩),
    ("nearRef", .ref ⟨"gate", none, rfl⟩)]⟩

def pump : Record :=
  ⟨[("id", .ref ⟨"pump", none, rfl⟩),
    ("nearRef", .ref ⟨"field", none, rfl⟩)]⟩

def field : Record :=
  ⟨[("id", .ref ⟨"field", none, rfl⟩), ("fenced", .marker)]⟩

/- What is fenced, or near something that is. -/
def fencedFilter : Filter :=
  .or (.has ⟨⟨"fenced", rfl⟩, []⟩)
    (.has ⟨⟨"nearRef", rfl⟩, [⟨"fenced", rfl⟩]⟩)

/- References lead to the gate, if they name it. -/
def onlyGate : Resolver :=
  fun id => if id = "gate" then some gate else none

/-
  Before, the pump is left out, as its field is not there. It
  comes between the two records that were read.
-/
theorem readAll_fencedFilter :
    fencedFilter.IsPositive ∧
      fencedFilter.includes onlyGate well = true ∧
      fencedFilter.includes (fun _ => some gate) well = true ∧
      ∃ s larger,
        ofRows [gate, pump, well] = .ok s ∧
          s.find? "field" = none ∧
          s.readAll fencedFilter = [gate, well] ∧
          s.insert field = .ok (larger, none) ∧
          [gate, well].Sublist
            (larger.readAll fencedFilter) := by
  have hPositive : fencedFilter.IsPositive := by
    decide
  have hIds :
      ∀ record ∈ [gate, pump, well],
        (Record.id? record).isSome := by
    decide
  rcases exists_insertAll hIds empty with ⟨s, hLoad⟩
  have hReach : s.IsReachable (fun _ => True) :=
    .load (fun _ _ => trivial) hLoad
  have hFind :
      s.find? = Record.lastNamed? [gate, pump, well] :=
    funext (find?_of_ofRows hLoad)
  have hNew : s.find? "field" = none := by
    rw [hFind]
    rfl
  have hRead : s.readAll fencedFilter = [gate, well] := by
    have hList : s.toList = [gate, pump, well] := by
      rw [toList_eq, entries_of_ofRows hLoad]
      rfl
    rw [readAll_eq, hList]
    unfold includes
    rw [hFind]
    rfl
  rcases readAll_sublist_of_isPositive hPositive with
    ⟨hResolve, hStore⟩
  rcases hStore _ s hReach field "field" rfl hNew with
    ⟨larger, hInsert, hSublist⟩
  rw [hRead] at hSublist
  have hOnly :
      ∀ id target,
        onlyGate id = some target →
          ∃ target',
            some gate = some target' ∧
              target.Alike target' := by
    intro id target hFound
    unfold onlyGate at hFound
    split_ifs at hFound
    cases hFound
    exact ⟨gate, rfl, Or.inl rfl⟩
  have hIncludes :
      fencedFilter.includes onlyGate well = true := rfl
  exact
    ⟨hPositive, hIncludes,
      hResolve well onlyGate _ hOnly hIncludes, s, larger,
      hLoad, hNew, hRead, hInsert, hSublist⟩

end Store

end Haystack
