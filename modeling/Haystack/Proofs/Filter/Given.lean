import Haystack.Proofs.Filter.Predicates
import Haystack.Proofs.Zinc.GivenGrids

/-
  This file shows which filters the reader of filters gives:
  what it has found in the text that it has taken, and that
  this text pays for the literals.

  Key definitions include:
    * `Filter.IsFoundBehind`
    * `Filter.IsFoundAtom`
    * `Filter.cost`
    * `Filter.GivesFilter`

  Main declarations:
    * `Path.scan_eq_ok`
    * `Filter.predicate_eq_ok`
    * `Filter.chain_invariant`
    * `Filter.atomWithin_eq_ok`
    * `Filter.parse_eq_ok`
    * `Filter.isReadable_of_parse`
-/

namespace Haystack

open Scan Zinc

variable {zones : ZoneTable}
variable {c d : Cursor}

------------------------------------------------------------
-- Paths and Operators
------------------------------------------------------------

namespace Path

/- An arrow and a name have been taken. -/
theorem hop_eq_some
    {name : TagName}
    (h : hop? c = .ok (some name) d) :
    c.rest = '-' :: '>' :: (name.text.toList ++ d.rest) := by
  unfold hop? at h
  rw [current_bind_apply, next_bind_apply] at h
  split_ifs at h with hArrow
  · rw [advance_bind_apply, advance_bind_apply] at h
    rcases bind_eq_ok.mp h with ⟨found, e, hName, h⟩
    rcases pure_eq_ok.mp h with ⟨hFound, rfl⟩
    cases hFound
    rw [Cursor.rest_of_next hArrow.1 hArrow.2,
      TagName.scan_eq_ok hName]
  · cases (pure_eq_ok.mp h).1

/- Where no arrow stands, nothing is read. -/
theorem hop_eq_none
    (h : hop? c = .ok none d) :
    c = d := by
  unfold hop? at h
  rw [current_bind_apply, next_bind_apply] at h
  split_ifs at h
  · rw [advance_bind_apply, advance_bind_apply] at h
    rcases bind_eq_ok.mp h with ⟨found, e, -, h⟩
    cases (pure_eq_ok.mp h).1
  · exact (pure_eq_ok.mp h).2

/- The text of the path that is given has been taken. -/
theorem scan_eq_ok
    {path : Path}
    (h : scan c = .ok path d) :
    c.rest = path.text ++ d.rest := by
  unfold scan at h
  rcases bind_eq_ok.mp h with ⟨first, e, hFirst, h⟩
  rcases bind_eq_ok.mp h with ⟨hops, e', hHops, h⟩
  rcases pure_eq_ok.mp h with ⟨rfl, rfl⟩
  have hMore :
      e.rest =
        hops.flatMap (fun n => '-' :: '>' :: n.text.toList) ++
          e'.rest := by
    refine
      collect_invariant
        (fun names e' =>
          e.rest =
            names.flatMap
                (fun n => '-' :: '>' :: n.text.toList) ++
              e'.rest)
        ?_ ?_ rfl hHops
    · intro names name c' d hBefore hHop
      rw [hBefore, hop_eq_some hHop, List.flatMap_append]
      simp
    · intro names c' d hBefore hNone
      rw [hBefore, hop_eq_none hNone]
  rw [TagName.scan_eq_ok hFirst, hMore, text_eq,
    List.append_assoc]

theorem passes_plain
    {path : Path}
    (h : scan c = .ok path d) :
    c.Passes isPlain d :=
  Cursor.Passes.mono
    ⟨_, scan_eq_ok h, path.all_isPathChar_text⟩ (isPlain_of rfl)

end Path

namespace Filter

/- The characters of an operator that is found are passed. -/
theorem operatorAt?_eq_some
    {op : Operator}
    {length : Nat}
    {u : Unit}
    (hOp :
      operatorAt? c.current? c.next? = some (op, length))
    (h : advanceBy length c = .ok u d) :
    c.Passes isPlain d := by
  have hTwo : ∀ x y : Char,
      c.current? = some x → c.next? = some y →
        isPlain x = true → isPlain y = true →
          advanceBy 2 c = .ok u d → c.Passes isPlain d := by
    intro x y hHead hNext hx hy h
    cases h
    exact
      ⟨[x, y], Cursor.rest_of_next hHead hNext,
        by simp [hx, hy]⟩
  have hOne : ∀ x : Char,
      c.current? = some x → isPlain x = true →
        advanceBy 1 c = .ok u d → c.Passes isPlain d := by
    intro x hHead hx h
    cases h
    exact passes_plain_advance hHead hx
  generalize hHead : c.current? = x at hOp
  generalize hNext : c.next? = y at hOp
  unfold operatorAt? at hOp
  split at hOp <;> cases hOp
  · exact hTwo _ _ hHead hNext rfl rfl h
  · exact hTwo _ _ hHead hNext rfl rfl h
  · exact hTwo _ _ hHead hNext rfl rfl h
  · exact hTwo _ _ hHead hNext rfl rfl h
  · exact hOne _ hHead rfl h
  · exact hOne _ hHead rfl h
  · exact hTwo _ _ hHead hNext rfl rfl h
  · exact hOne _ hHead rfl h

/- Where there is no operator, nothing is taken. -/
theorem operator_eq_ok
    {op : Option Operator}
    (h : operator? c = .ok op d) :
    c.Passes isPlain d ∧ (op = none → c = d) := by
  unfold operator? at h
  rw [current_bind_apply, next_bind_apply] at h
  cases hFound : operatorAt? c.current? c.next? with
  | none =>
      rw [hFound] at h
      rcases pure_eq_ok.mp h with ⟨-, rfl⟩
      exact ⟨.refl c, fun _ => rfl⟩
  | some found =>
      rw [hFound] at h
      rcases bind_eq_ok.mp h with ⟨_, e, hAdvance, h⟩
      rcases bind_eq_ok.mp h with ⟨_, e', hSpace, h⟩
      rcases pure_eq_ok.mp h with ⟨rfl, rfl⟩
      exact
        ⟨(operatorAt?_eq_some hFound hAdvance).trans
          (passes_space hSpace), nofun⟩

------------------------------------------------------------
-- What Has Been Found
------------------------------------------------------------

/- Only patterns come of the operator for them. -/
theorem ofLike_eq_ok
    {path : Path}
    {v : Value}
    {ignoreCase : Bool}
    {f : Filter}
    (h : ofLike path v ignoreCase = .ok f) :
    ∃ pattern, f = .like path pattern := by
  cases v with
  | str source =>
      rcases except_bind_eq_ok.mp h with ⟨pattern, -, h⟩
      cases h
      exact ⟨pattern, rfl⟩
  | _ => cases h

/- What is found behind a path, and the filter of both. -/
inductive IsFoundBehind
    (zones : ZoneTable)
    (path : Path) :
    Filter → Cursor → Cursor → Prop where
| missing
    {other : Path}
    {c d : Cursor}
    (hOther : Path.scan c = .ok other d) :
    IsFoundBehind zones path (.missing other) c d
| nothing
    {c : Cursor}
    (hPath : IsPlainPath path) :
    IsFoundBehind zones path (.has path) c c
| cmp
    {op : Comparison}
    {v : Value}
    {c d e : Cursor}
    (hPath : IsPlainPath path)
    (hOp : operator? c = .ok (some (.cmp op)) d)
    (hValue : operand zones d = .ok v e) :
    IsFoundBehind zones path (.cmp path op v) c e
| like
    {ignoreCase : Bool}
    {v : Value}
    {pattern : LikePattern}
    {c d e : Cursor}
    (hPath : IsPlainPath path)
    (hOp : operator? c = .ok (some (.like ignoreCase)) d)
    (hValue : operand zones d = .ok v e) :
    IsFoundBehind zones path (.like path pattern) c e

/-
  How a condition has been read: its path, the spaces behind
  it, and then an operator and a value, or nothing.
-/
theorem predicate_eq_ok
    {f : Filter}
    (h : predicate zones c = .ok f d) :
    ∃ path e e',
      Path.scan c = .ok path e ∧ skipSpace e = .ok () e' ∧
        IsFoundBehind zones path f e' d := by
  unfold predicate at h
  rcases bind_eq_ok.mp h with ⟨path, e, hPath, h⟩
  rcases bind_eq_ok.mp h with ⟨_, e', hSpace, h⟩
  refine ⟨path, e, e', hPath, hSpace, ?_⟩
  split_ifs at h with hNot
  · rcases bind_eq_ok.mp h with ⟨other, e₂, hOther, h⟩
    rcases pure_eq_ok.mp h with ⟨rfl, rfl⟩
    exact .missing hOther
  · rcases bind_eq_ok.mp h with ⟨op, e₂, hOp, h⟩
    match op with
    | none =>
        rcases pure_eq_ok.mp h with ⟨rfl, rfl⟩
        rw [(operator_eq_ok hOp).2 rfl]
        exact .nothing hNot
    | some (.cmp op) =>
        rcases bind_eq_ok.mp h with ⟨v, e₃, hValue, h⟩
        rcases pure_eq_ok.mp h with ⟨rfl, rfl⟩
        exact .cmp hNot hOp hValue
    | some (.like ignoreCase) =>
        dsimp only at h
        rw [line_bind_apply] at h
        rcases bind_eq_ok.mp h with ⟨v, e₃, hValue, h⟩
        rcases constructAt_eq_ok h with ⟨hMade, rfl⟩
        rcases ofLike_eq_ok (orFilterError_eq_ok.mp hMade) with
          ⟨pattern, rfl⟩
        exact .like hNot hOp hValue

/- Where there is no keyword, only spaces are taken. -/
theorem joined_eq_ok
    {word : Keyword}
    {found : Bool}
    (h : joined word c = .ok found d) :
    c.Passes isPlain d ∧
      (found = false → skipSpace c = .ok () d) := by
  unfold joined at h
  rcases bind_eq_ok.mp h with ⟨_, e, hSpace, h⟩
  have hBefore := passes_space hSpace
  rw [current_bind_apply] at h
  split_ifs at h
  · rcases bind_eq_ok.mp h with ⟨name, e₂, hName, h⟩
    have hWord := hBefore.trans (tagName_eq_ok hName)
    split_ifs at h
    · rcases bind_eq_ok.mp h with ⟨_, e₃, hFail, -⟩
      cases hFail
    · rcases bind_eq_ok.mp h with ⟨_, e₃, hSpace₂, h⟩
      rcases pure_eq_ok.mp h with ⟨rfl, rfl⟩
      exact ⟨hWord.trans (passes_space hSpace₂), nofun⟩
  · rcases pure_eq_ok.mp h with ⟨-, rfl⟩
    exact ⟨hBefore, fun _ => hSpace⟩

/- What holds of the first part and is kept by all others. -/
theorem chain_invariant
    {word : Keyword}
    {part : Scan Filter}
    {f : Filter}
    (inv : Filter → Cursor → Prop)
    (hFirst : ∀ f c', part c = .ok f c' → inv f c')
    (hJoin : ∀ f g c₁ c₂ c₃,
      inv f c₁ → joined word c₁ = .ok true c₂ →
        part c₂ = .ok g c₃ → inv (join word f g) c₃)
    (hEnd : ∀ f c₁ c₂,
      inv f c₁ → joined word c₁ = .ok false c₂ → inv f c₂)
    (h : chain word part c = .ok f d) :
    inv f d := by
  unfold chain at h
  rcases bind_eq_ok.mp h with ⟨first, e, hPart, h⟩
  refine
    iterate_invariant inv ?_ ?_ (hFirst first e hPart) h
  · intro f f' c₁ c₃ hf hStep
    unfold nextPart? at hStep
    rcases bind_eq_ok.mp hStep with
      ⟨found, c₂, hJoined, hStep⟩
    split_ifs at hStep with hFound
    · rcases bind_eq_ok.mp hStep with ⟨g, c₄, hNext, hStep⟩
      rcases pure_eq_ok.mp hStep with ⟨hEq, rfl⟩
      cases hEq
      subst hFound
      exact hJoin f g c₁ c₂ c₄ hf hJoined hNext
    · cases (pure_eq_ok.mp hStep).1
  · intro f c₁ c₂ hf hStep
    unfold nextPart? at hStep
    rcases bind_eq_ok.mp hStep with
      ⟨found, c₃, hJoined, hStep⟩
    split_ifs at hStep with hFound
    · rcases bind_eq_ok.mp hStep with ⟨g, c₄, -, hStep⟩
      cases (pure_eq_ok.mp hStep).1
    · rcases pure_eq_ok.mp hStep with ⟨-, rfl⟩
      rw [Bool.not_eq_true] at hFound
      subst hFound
      exact hEnd f c₁ c₃ hf hJoined

/- What is found where a filter starts that is not joined. -/
inductive IsFoundAtom
    (zones : ZoneTable)
    (bound : List Char) :
    Filter → Cursor → Cursor → Prop where
| bracket
    {f : Filter}
    {c c₁ c₂ c₃ : Cursor}
    (hOpen : c.current? = some '(')
    (hBefore : skipSpace c.advance = .ok () c₁)
    (hInner : anyOf (atomWithin zones bound) c₁ = .ok f c₂)
    (hAfter : skipSpace c₂ = .ok () c₃)
    (hClose : c₃.current? = some ')') :
    IsFoundAtom zones bound f c c₃.advance
| star
    {c : Cursor}
    (hStar : c.current? = some '*') :
    IsFoundAtom zones bound .all c c.advance
| not
    {f : Filter}
    {c d : Cursor}
    (hNot : c.current? = some '!')
    (hInner : atomWithin zones bound c.advance = .ok f d) :
    IsFoundAtom zones bound (.not f) c d
| condition
    {f : Filter}
    {c d : Cursor}
    (hFound : predicate zones c = .ok f d) :
    IsFoundAtom zones bound f c d

/- How a part has been read, behind the spaces before it. -/
theorem atomWithin_eq_ok
    {x : Char}
    {bound : List Char}
    {f : Filter}
    (h : atomWithin zones (x :: bound) c = .ok f d) :
    ∃ e,
      skipSpace c = .ok () e ∧
        IsFoundAtom zones bound f e d := by
  unfold atomWithin at h
  rcases bind_eq_ok.mp h with ⟨_, e, hSpace, h⟩
  refine ⟨e, hSpace, ?_⟩
  rw [next_bind_apply, current_bind_apply] at h
  generalize hHead : e.current? = next at h
  split at h
  next =>
    rw [advance_bind_apply] at h
    rcases bind_eq_ok.mp h with ⟨_, e₂, hBefore, h⟩
    rcases bind_eq_ok.mp h with ⟨g, e₃, hInner, h⟩
    rcases bind_eq_ok.mp h with ⟨_, e₄, hAfter, h⟩
    rcases bind_eq_ok.mp h with ⟨_, e₅, hClose, h⟩
    rcases pure_eq_ok.mp h with ⟨rfl, rfl⟩
    rcases expect_eq_ok hClose with ⟨hTail, rfl⟩
    exact .bracket hHead hBefore hInner hAfter hTail
  next =>
    rw [advance_bind_apply] at h
    rcases pure_eq_ok.mp h with ⟨rfl, rfl⟩
    exact .star hHead
  next =>
    split_ifs at h
    · exact .condition h
    · rw [advance_bind_apply] at h
      rcases bind_eq_ok.mp h with ⟨g, e₂, hInner, h⟩
      rcases pure_eq_ok.mp h with ⟨rfl, rfl⟩
      exact .not hHead hInner
  next => exact .condition h

/- A filter with spaces around it is the whole text. -/
theorem parse_eq_ok
    {text : String}
    {f : Filter}
    (h : parse text = .ok f) :
    ∃ c d e,
      skipSpace (.ofText text) = .ok () c ∧
        anyOf (atomWithin .builtin c.rest) c = .ok f d ∧
          skipSpace d = .ok () e ∧ e.rest = [] := by
  rcases readAll_eq_ok h with ⟨_, hScan⟩
  unfold scan at hScan
  rcases bind_eq_ok.mp hScan with ⟨_, c, hBefore, hScan⟩
  rcases bind_eq_ok.mp hScan with ⟨g, d, hAny, hScan⟩
  rcases bind_eq_ok.mp hScan with ⟨_, e, hAfter, hScan⟩
  rcases bind_eq_ok.mp hScan with ⟨_, _, hEnd, hScan⟩
  rcases pure_eq_ok.mp hScan with ⟨rfl, -⟩
  exact ⟨c, d, e, hBefore, hAny, hAfter, finish_eq_ok hEnd⟩

------------------------------------------------------------
-- Filters that Are Paid for
------------------------------------------------------------

/- What is paid for the literals of a filter. -/
def cost : Filter → Nat
| .cmp _ _ value => value.cost
| .and a b => a.cost + b.cost
| .or a b => a.cost + b.cost
| .not a => a.cost
| _ => 0

/- A filter that a reader gives, and what the text pays. -/
structure GivesFilter
    (zones : ZoneTable)
    (f : Filter)
    (c d : Cursor) : Prop where
  readable : f.IsReadable zones
  pays : c.Pays f.cost d

theorem GivesFilter.of_passes
    {f : Filter}
    {e : Cursor}
    (hPasses : c.Passes isPlain d)
    (hf : GivesFilter zones f d e) :
    GivesFilter zones f c e :=
  ⟨hf.readable,
    (Cursor.pays_of_passes hPasses).trans_zero hf.pays⟩

theorem GivesFilter.passes
    {f : Filter}
    {e : Cursor}
    (hf : GivesFilter zones f c d)
    (hPasses : d.Passes isPlain e) :
    GivesFilter zones f c e :=
  ⟨hf.readable,
    hf.pays.zero_trans (Cursor.pays_of_passes hPasses)⟩

/-
  A literal that is read can be read again, and is paid for
  by its text.
-/
theorem operand_eq_ok
    (hUtc : (zones.find? "UTC").isSome = true)
    {v : Value}
    (h : operand zones c = .ok v d) :
    v.IsReadable zones .filter ∧ c.Pays v.cost d := by
  unfold operand at h
  rcases bind_eq_ok.mp h with ⟨w, e, hValue, h⟩
  have hGives := givesValue_value hUtc hValue
  cases w with
  | none => cases h
  | some w =>
      rcases pure_eq_ok.mp h with ⟨rfl, rfl⟩
      exact ⟨hGives.readable w rfl, hGives.pays⟩

/-
  A condition that is read can be read again, and is paid
  for by its text.
-/
theorem givesFilter_predicate
    (hUtc : (zones.find? "UTC").isSome = true)
    {f : Filter}
    (h : predicate zones c = .ok f d) :
    GivesFilter zones f c d := by
  rcases predicate_eq_ok h with
    ⟨path, e, e', hPath, hSpace, hFound⟩
  have hBefore : c.Passes isPlain e' :=
    (Path.passes_plain hPath).trans (passes_space hSpace)
  refine .of_passes hBefore ?_
  cases hFound with
  | missing hOther =>
      exact
        ⟨trivial,
          Cursor.pays_of_passes (Path.passes_plain hOther)⟩
  | nothing hPlain =>
      exact ⟨hPlain, Cursor.pays_of_passes (.refl _)⟩
  | cmp hPlain hOp hValue =>
      have hGiven := operand_eq_ok hUtc hValue
      exact
        .of_passes (operator_eq_ok hOp).1
          ⟨⟨hPlain, hGiven.1⟩, hGiven.2⟩
  | like hPlain hOp hValue =>
      refine .of_passes (operator_eq_ok hOp).1 ⟨hPlain, ?_⟩
      have hPays := (operand_eq_ok hUtc hValue).2
      unfold Cursor.Pays at hPays ⊢
      change _ + 0 ≤ _
      omega

/- A reader whose filters are read and paid for. -/
def GivesFilters
    (zones : ZoneTable)
    (part : Scan Filter) : Prop :=
  ∀ f c d, part c = .ok f d → GivesFilter zones f c d

/- Two parts pay for what a keyword makes of them. -/
theorem GivesFilter.join
    {f g : Filter}
    {e : Cursor}
    (hFirst : GivesFilter zones f c d)
    (hSecond : GivesFilter zones g d e)
    (word : Keyword) :
    GivesFilter zones (join word f g) c e := by
  cases word <;>
    exact
      ⟨⟨hFirst.readable, hSecond.readable⟩,
        hFirst.pays.trans hSecond.pays⟩

/- The parts of a chain pay for all of it. -/
theorem givesFilters_chain
    {part : Scan Filter}
    (hPart : GivesFilters zones part)
    (word : Keyword) :
    GivesFilters zones (chain word part) := by
  intro f c d h
  refine
    chain_invariant (fun f e => GivesFilter zones f c e)
      (fun f e => hPart f c e) ?_ ?_ h
  · intro f g c₁ c₂ c₃ hf hJoined hNext
    exact
      (hf.passes (joined_eq_ok hJoined).1).join
        (hPart g c₂ c₃ hNext) word
  · intro f c₁ c₂ hf hJoined
    exact hf.passes (joined_eq_ok hJoined).1

theorem givesFilters_anyOf
    {atom : Scan Filter}
    (hAtom : GivesFilters zones atom) :
    GivesFilters zones (anyOf atom) :=
  givesFilters_chain (givesFilters_chain hAtom .and) .or

/- An atomic filter is given and paid for, at any bound. -/
theorem givesFilter_atomWithin
    (hUtc : (zones.find? "UTC").isSome = true)
    (bound : List Char) :
    GivesFilters zones (atomWithin zones bound) := by
  induction bound with
  | nil => exact fun f c d h => givesFilter_predicate hUtc h
  | cons x bound ih =>
      intro f c d h
      rcases atomWithin_eq_ok h with ⟨e, hSpace, hFound⟩
      refine .of_passes (passes_space hSpace) ?_
      cases hFound with
      | bracket hOpen hBefore hInner hAfter hClose =>
          have hFirst :=
            (passes_plain_advance hOpen rfl).trans
              (passes_space hBefore)
          have hLast :=
            (passes_space hAfter).trans
              (passes_plain_advance hClose rfl)
          exact
            .of_passes hFirst
              ((givesFilters_anyOf ih _ _ _ hInner).passes
                hLast)
      | star hStar =>
          exact
            ⟨trivial,
              Cursor.pays_of_passes
                (passes_plain_advance hStar rfl)⟩
      | not hNot hInner =>
          have hGiven := ih _ _ _ hInner
          exact
            .of_passes (passes_plain_advance hNot rfl)
              ⟨hGiven.readable, hGiven.pays⟩
      | condition hFound =>
          exact givesFilter_predicate hUtc hFound

/- A filter that is read from a text is paid for by it. -/
theorem isReadable_of_parse
    {text : String}
    {f : Filter}
    (h : parse text = .ok f) :
    f.IsReadable .builtin ∧
      f.cost ≤ burden .start text.toList := by
  rcases parse_eq_ok h with ⟨c, d, e, hBefore, hAny, -⟩
  have hGiven : GivesFilter .builtin f c d :=
    givesFilters_anyOf (givesFilter_atomWithin find?_utc _)
      f c d hAny
  have hAll :=
    GivesFilter.of_passes (passes_space hBefore) hGiven
  refine ⟨hAll.readable, ?_⟩
  have hPays := hAll.pays
  unfold Cursor.Pays Cursor.ofText at hPays
  dsimp only at hPays
  omega

end Filter

end Haystack
