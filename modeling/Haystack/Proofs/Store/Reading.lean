import Haystack.Proofs.Store.Reachable

/-
  This file shows that all ways to read a store by a filter
  agree, and that deletion takes away what reading finds: the
  filter is evaluated on the store as it was before, whatever
  references it follows.

  Key definitions include:
    * `Store.BreaksAt`
    * `Store.noteUntil`

  Main declarations:
    * `Store.visit_of_breaksAt`
    * `Store.readAll_eq`
    * `Store.readAll_eq_of_isReachable`
-/

namespace Haystack

namespace Store

------------------------------------------------------------
-- Visits
------------------------------------------------------------

section Visits

variable {σ : Type}
variable {step : σ → Record → ForInStep σ}

/-
  When these records are visited in turn, the visit is done
  at the call of this number, the first being 1, and not
  before. If there are fewer records, it is never done.
-/
def BreaksAt
    (step : σ → Record → ForInStep σ) :
    Nat → σ → List Record → Prop
| 0, _, _ => False
| _, _, [] => True
| 1, state, record :: _ =>
    ∃ next, step state record = .done next
| k + 2, state, record :: records =>
    ∃ next, step state record = .yield next ∧
      BreaksAt step (k + 1) next records

/- Records that are passed over might as well not be there. -/
theorem visit_eq_filter
    (p : Record → Bool)
    (records : List Record)
    (state : σ)
    (n : Nat) :
    visit p step records state n =
      visit (fun _ => true) step (records.filter p) state n := by
  induction records generalizing state n with
  | nil => rfl
  | cons record records ih =>
      cases hRecord : p record with
      | true =>
          rw [List.filter_cons_of_pos hRecord, visit, visit,
            if_pos hRecord, if_pos rfl]
          cases step state record with
          | done next => rfl
          | yield next => exact ih next (n + 1)
      | false =>
          rw [List.filter_cons_of_neg (by simp [hRecord]),
            visit, if_neg (by simp [hRecord])]
          exact ih state n

/-
  A visit that is done at a call takes as many records as
  there were calls, and counts them.
-/
theorem visit_of_breaksAt
    {k : Nat}
    {state : σ}
    {records : List Record}
    (h : BreaksAt step k state records)
    (n : Nat) :
    visit (fun _ => true) step records state n =
      ((records.take (min k records.length)).foldl
          (fun state r => (step state r).value) state,
        n + min k records.length) := by
  induction records generalizing k state n with
  | nil => simp [visit]
  | cons record records ih =>
      match k with
      | 0 => exact h.elim
      | 1 =>
          rcases h with ⟨next, hDone⟩
          simp [visit, hDone, ForInStep.value]
      | k + 2 =>
          rcases h with ⟨next, hYield, hRest⟩
          have hMin :
              min (k + 2) (records.length + 1) =
                min (k + 1) records.length + 1 := by
            omega
          rw [visit, if_pos rfl, hYield]
          dsimp only
          rw [ih hRest, List.length_cons, hMin, List.take_succ_cons,
            List.foldl_cons, hYield]
          simp only [ForInStep.value, Prod.mk.injEq, true_and]
          omega

/- A visit that goes on is not done at any call there is. -/
theorem breaksAt_yield
    (next : σ → Record → σ)
    {k : Nat}
    (state : σ)
    {records : List Record}
    (hMore : records.length < k) :
    BreaksAt (fun state r => .yield (next state r)) k state
      records := by
  induction records generalizing k state with
  | nil =>
      cases k with
      | zero => cases hMore
      | succ k => cases k <;> trivial
  | cons record records ih =>
      match k with
      | 0 | 1 => simp at hMore
      | k + 2 =>
          refine ⟨_, rfl, ih _ ?_⟩
          rw [List.length_cons] at hMore
          omega

/- Note the records visited, up to the one of a number. -/
def noteUntil
    (k : Nat)
    (seen : List Record)
    (record : Record) : ForInStep (List Record) :=
  if seen.length + 1 = k then .done (seen ++ [record])
  else .yield (seen ++ [record])

/- Records are noted up to the one at which to stop. -/
theorem breaksAt_noteUntil
    (k : Nat)
    (seen records : List Record) :
    BreaksAt (noteUntil (seen.length + (k + 1))) (k + 1) seen
      records := by
  induction records generalizing k seen with
  | nil => trivial
  | cons record records ih =>
      cases k with
      | zero => exact ⟨_, if_pos rfl⟩
      | succ k =>
          refine ⟨_, if_neg (by omega), ?_⟩
          have hRest := ih k (seen ++ [record])
          rwa [List.length_append, List.length_singleton,
            Nat.add_assoc, Nat.add_comm 1] at hRest

/- What such a visit notes is what it was called with. -/
theorem foldl_noteUntil
    (k : Nat)
    (seen records : List Record) :
    records.foldl
        (fun seen r => (noteUntil k seen r).value) seen =
      seen ++ records := by
  induction records generalizing seen with
  | nil => simp
  | cons record records ih =>
      have hValue :
          (noteUntil k seen record).value = seen ++ [record] := by
        unfold noteUntil
        split_ifs <;> rfl
      rw [List.foldl_cons, hValue, ih, List.append_assoc,
        List.singleton_append]

/-
  A visit that never stops sees all records, in their order.
-/
theorem visit_yield
    (next : σ → Record → σ)
    (records : List Record)
    (state : σ)
    (n : Nat) :
    visit (fun _ => true)
        (fun state r => .yield (next state r)) records state n =
      (records.foldl next state, n + records.length) := by
  rw [visit_of_breaksAt
    (breaksAt_yield next state (Nat.lt_succ_self _))]
  simp [ForInStep.value]

end Visits

------------------------------------------------------------
-- Reading
------------------------------------------------------------

/- All records that the filter includes, in order. -/
theorem readAll_eq
    (s : Store)
    (f : Filter) :
    s.readAll f = s.toList.filter (s.includes f) := by
  have hFold (records found : List Record) :
      records.foldl (fun found r => r :: found) found =
        records.reverse ++ found := by
    induction records generalizing found with
    | nil => rfl
    | cons record records ih => simp [ih]
  rw [readAll, scan, visit_eq_filter, visit_yield, hFold]
  simp

/- A scan visits the records that are read. -/
theorem scan_eq
    {σ : Type}
    (s : Store)
    (f : Filter)
    (step : σ → Record → ForInStep σ)
    (state : σ) :
    s.scan f step state =
      visit (fun _ => true) step (s.readAll f) state 0 := by
  rw [scan, visit_eq_filter, readAll_eq]

/-
  A loop that stops early has seen as many of the found
  records as there were turns, and no more.
-/
theorem scan_of_breaksAt
    {σ : Type}
    (s : Store)
    {f : Filter}
    {step : σ → Record → ForInStep σ}
    {state : σ}
    {k : Nat}
    (h : BreaksAt step k state (s.readAll f)) :
    s.scan f step state =
      (((s.readAll f).take (min k (s.readAll f).length)).foldl
          (fun state r => (step state r).value) state,
        min k (s.readAll f).length) := by
  rw [scan_eq, visit_of_breaksAt h, Nat.zero_add]

/- What is read is the first of all that are found. -/
theorem read_eq
    (s : Store)
    (f : Filter) :
    s.read f = (s.readAll f).head? := by
  rw [read, readAll_eq, List.head?_filter]

/- What is counted is all that are found. -/
theorem count_eq
    (s : Store)
    (f : Filter) :
    s.count f = (s.readAll f).length := by
  rw [count, scan_eq, visit_yield, Nat.zero_add]

------------------------------------------------------------
-- Deletion
------------------------------------------------------------

/- As many are deleted as were found. -/
theorem IsSound.deleteAll_snd_eq
    {s : Store}
    (hs : s.IsSound)
    (f : Filter) :
    (s.deleteAll f).2 = (s.readAll f).length := by
  rw [hs.deleteAll_snd, readAll_eq, toList_eq, List.filter_map,
    List.length_map, List.countP_eq_length_filter]
  rfl

/- The records that stay keep their order. -/
theorem IsSound.toList_deleteAll
    {s : Store}
    (hs : s.IsSound)
    (f : Filter) :
    (s.deleteAll f).1.toList =
      s.toList.filter (fun r => !s.includes f r) := by
  rw [toList_eq, hs.entries_deleteAll, toList_eq,
    List.filter_map]
  rfl

/-
  After that none is found that the filter includes, and all
  others are.
-/
theorem IsSound.find?_deleteAll
    {s : Store}
    (hs : s.IsSound)
    (f : Filter)
    (id : String) :
    (s.deleteAll f).1.find? id =
      (s.find? id).filter (fun r => !s.includes f r) := by
  have hUnique := hs.hasUniqueKeys_entries
  have hNext := (hs.deleteAll f).hasUniqueKeys_entries
  apply Option.ext
  intro record
  rw [← (hs.deleteAll f).get?_entries, ← hs.get?_entries,
    ← Dict.mem_entries_iff hNext, hs.entries_deleteAll,
    List.mem_filter, Dict.mem_entries_iff hUnique,
    Option.filter_eq_some_iff]

------------------------------------------------------------
-- Agreement
------------------------------------------------------------

/-
  All records that a filter reads are those that it includes
  while the store resolves its references. The first of them
  is read alone, they are counted, and a visit that is done
  at a call is called with as many of them, from the first
  on. All of them are deleted, and exactly the others stay,
  unchanged and in their order: what the filter includes was
  settled before, even if it follows references to records
  that are deleted as well.
-/
theorem readAll_eq_of_isReachable
    {p : Record → Prop}
    {s : Store}
    (hs : s.IsReachable p)
    (f : Filter) :
    let included := s.readAll f
    let left := (s.deleteAll f).1
    included =
        s.toList.filter (fun r => f.includes s.find? r) ∧
      s.read f = included.head? ∧
      s.count f = included.length ∧
      (∀ (σ : Type) (step : σ → Record → ForInStep σ)
          (state : σ) (k : Nat),
        BreaksAt step k state included →
          s.scan f step state =
            ((included.take (min k included.length)).foldl
                (fun state r => (step state r).value) state,
              min k included.length)) ∧
      (∀ k, 1 ≤ k →
        s.scan f (noteUntil k) [] =
          (included.take (min k included.length),
            min k included.length)) ∧
      (s.deleteAll f).2 = included.length ∧
      left.toList =
        s.toList.filter (fun r => !f.includes s.find? r) ∧
      (∀ id,
        left.find? id =
          (s.find? id).filter
            (fun r => !f.includes s.find? r)) ∧
      left.IsSound := by
  intro included left
  have hSound := hs.isSound
  refine
    ⟨s.readAll_eq f, s.read_eq f, s.count_eq f,
      fun _ _ _ _ hBreaks => s.scan_of_breaksAt hBreaks, ?_,
      hSound.deleteAll_snd_eq f, hSound.toList_deleteAll f,
      hSound.find?_deleteAll f, hSound.deleteAll f⟩
  intro k hk
  have hBreaks := breaksAt_noteUntil (k - 1) [] included
  rw [List.length_nil, Nat.zero_add, Nat.sub_add_cancel hk]
    at hBreaks
  rw [s.scan_of_breaksAt hBreaks, foldl_noteUntil,
    List.nil_append]

/- A plant on a place, and the place that names its plant. -/
def plant : Record :=
  ⟨[("id", .ref ⟨"plant", none, rfl⟩), ("plant", .marker),
    ("placeRef", .ref ⟨"place", none, rfl⟩)]⟩

def place : Record :=
  ⟨[("id", .ref ⟨"place", none, rfl⟩), ("yard", .marker),
    ("plantRef", .ref ⟨"plant", none, rfl⟩)]⟩

/- A plant on a place that is not there. -/
def spare : Record :=
  ⟨[("id", .ref ⟨"spare", some "S", rfl⟩), ("plant", .marker),
    ("placeRef", .ref ⟨"gone", none, rfl⟩)]⟩

/- What refers to a yard or to a plant. -/
def placedFilter : Filter :=
  .or (.has ⟨⟨"placeRef", rfl⟩, [⟨"yard", rfl⟩]⟩)
    (.not (.missing ⟨⟨"plantRef", rfl⟩, [⟨"plant", rfl⟩]⟩))

/-
  Both are deleted, although each is included only because
  the other is there.
-/
theorem readAll_placedFilter :
    ∃ s,
      ofRows [plant, spare, place] = .ok s ∧
        s.readAll placedFilter = [plant, place] ∧
        s.count placedFilter = 2 ∧
        s.scan placedFilter (noteUntil 1) [] = ([plant], 1) ∧
        (s.deleteAll placedFilter).2 = 2 ∧
        (s.deleteAll placedFilter).1.toList = [spare] := by
  have hIds :
      ∀ record ∈ [plant, spare, place],
        (Record.id? record).isSome := by
    decide
  rcases exists_insertAll hIds empty with ⟨s, hLoad⟩
  have hList : s.toList = [plant, spare, place] := by
    rw [toList_eq, entries_of_ofRows hLoad]
    rfl
  have hFind :
      s.find? = Record.lastNamed? [plant, spare, place] :=
    funext (find?_of_ofRows hLoad)
  have hReach : s.IsReachable (fun _ => True) :=
    .load (fun _ _ => trivial) hLoad
  rcases readAll_eq_of_isReachable hReach placedFilter with
    ⟨hAll, _, hCount, _, hScan, hDeleted, hLeft, _⟩
  rw [hList, hFind] at hAll hLeft
  have hBoth : s.readAll placedFilter = [plant, place] :=
    hAll.trans rfl
  have hFirst := hScan 1 (Nat.le_refl 1)
  rw [hBoth] at hCount hFirst hDeleted
  exact
    ⟨s, hLoad, hBoth, hCount, hFirst, hDeleted,
      hLeft.trans rfl⟩

end Store

end Haystack
