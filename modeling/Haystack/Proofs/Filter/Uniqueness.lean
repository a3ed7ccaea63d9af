import Haystack.Proofs.Filter.Literals

/-
  This file shows that filters with the same text have the
  same tree, down to what their literals are read as. This
  holds for all filters that are read from some text, also
  for those that are not read from their own.

  A misspelled URI may go on where it should have ended. So
  texts are taken apart from their end: there each condition
  shows where it starts, and so does each filter in brackets.

  Key definitions include:
    * `Filter.opening`
    * `Filter.IsUniquePart`
    * `Filter.IsUniqueWhole`

  Main declarations:
    * `Filter.isUniquePart_and_isUniqueWhole`
    * `Filter.asRead_sameTree_of_text_eq`
-/

namespace Haystack

open Scan

/- A pattern is settled by its source and by its symbol. -/
theorem LikePattern.eq_of_source_eq
    {p q : LikePattern}
    (hSource : p.source = q.source)
    (hCase : p.ignoreCase = q.ignoreCase) :
    p = q := by
  rcases p with ⟨source, ignoreCase, anchor, literal, hSplit⟩
  rcases q with
    ⟨source', ignoreCase', anchor', literal', hSplit'⟩
  cases hSource
  cases hCase
  rw [hSplit] at hSplit'
  cases hSplit'
  rfl

namespace Path

/- A path is settled by a text that goes on behind it. -/
theorem text_unique
    {p q : Path}
    {rest rest' : List Char}
    (hRest : endsPath rest = true)
    (hRest' : endsPath rest' = true)
    (h : p.text ++ rest = q.text ++ rest') :
    p = q ∧ rest = rest' := by
  have hUnique :=
    (p.reads_text hRest).unique (q.reads_text hRest') h
  exact ⟨hUnique.1, hUnique.2.2⟩

/- Different paths have different texts. -/
theorem eq_of_text_eq
    {p q : Path}
    (h : p.text = q.text) :
    p = q := by
  have hEnd : endsPath [] = true := rfl
  exact (text_unique hEnd hEnd (by rw [h])).1

end Path

namespace Filter

------------------------------------------------------------
-- Conditions with the Same Text
------------------------------------------------------------

/- The path of a condition, its operator, and the rest. -/
def opening :
    Filter → Option (Path × Option Operator × List Char)
| .has path => some (path, none, [])
| .missing path => some (notPath, none, ' ' :: path.text)
| .cmp path op value =>
    some (path, some (.cmp op), value.textIn .filter)
| .like path pattern =>
    some
      (path, some (.like pattern.ignoreCase),
        Zinc.quote pattern.source.toList)
| _ => none

/- Only one filter without parts has no path. -/
theorem opening_of_isLeaf
    {f : Filter}
    (hf : f.IsLeaf) :
    f = .all ∨
      ∃ path op rest, f.opening = some (path, op, rest) := by
  cases f with
  | all => exact Or.inl rfl
  | and a b => cases hf
  | or a b => cases hf
  | not a => cases hf
  | _ => exact Or.inr ⟨_, _, _, rfl⟩

/- The symbol of an operator, if there is one. -/
def symbolText (op : Option Operator) : List Char :=
  op.elim [] Operator.symbol

/- No literal starts like the rest of an operator. -/
theorem notOperator_textIn
    {zones : ZoneTable}
    {v : Value}
    (hv : v.IsReadable zones .filter) :
    notOperator (v.textIn .filter) = true := by
  have hNot :=
    notOperator_of_startsValue
      (Zinc.startsValue_textIn .filter hv.isSimple) []
  rwa [List.append_nil] at hNot

/- A condition is its path, its operator, and the rest. -/
theorem text_of_opening
    {zones : ZoneTable}
    {f : Filter}
    {path : Path}
    {op : Option Operator}
    {rest : List Char}
    (hf : f.IsReadable zones)
    (h : f.opening = some (path, op, rest)) :
    f.text = path.text ++ (symbolText op ++ rest) ∧
      Path.endsPath (symbolText op ++ rest) = true ∧
      Reads operator? (symbolText op) op rest := by
  cases f with
  | has path =>
      cases h
      exact
        ⟨(List.append_nil _).symm, rfl, reads_operator_none rfl⟩
  | missing path =>
      cases h
      exact ⟨rfl, rfl, reads_operator_none rfl⟩
  | cmp path op v =>
      cases h
      exact
        ⟨List.append_assoc .., (head_symbol (.cmp op) _).1,
          reads_operator (.cmp op) (notOperator_textIn hf.2)⟩
  | like path pattern =>
      cases h
      exact
        ⟨List.append_assoc .., (head_symbol (.like _) _).1,
          reads_operator (.like _) rfl⟩
  | _ => cases h

/- A condition is not the star. -/
theorem ne_all_of_opening
    {zones : ZoneTable}
    {f : Filter}
    {path : Path}
    {op : Option Operator}
    {rest : List Char}
    (hf : f.IsReadable zones)
    (h : f.opening = some (path, op, rest)) :
    f.text ≠ Filter.all.text := by
  rcases exists_cons_text path with ⟨c, cs, hText, hc⟩
  rw [(text_of_opening hf h).1, hText]
  intro hEq
  rw [(List.cons.inj hEq).1] at hc
  cases hc

section Reading

variable {zones : ZoneTable}
variable {f g : Filter}

/- The text shows all parts of a condition. -/
theorem opening_eq_of_text_eq
    (hf : f.IsReadable zones)
    (hg : g.IsReadable zones)
    (hLeaf : f.IsLeaf)
    (hLeaf' : g.IsLeaf)
    (h : f.text = g.text) :
    f.opening = g.opening := by
  rcases opening_of_isLeaf hLeaf with
    rfl | ⟨path, op, rest, hOpen⟩
  · rcases opening_of_isLeaf hLeaf' with
      rfl | ⟨_, _, _, hOpen'⟩
    · rfl
    · exact absurd h.symm (ne_all_of_opening hg hOpen')
  · rcases opening_of_isLeaf hLeaf' with
      rfl | ⟨path', op', rest', hOpen'⟩
    · exact absurd h (ne_all_of_opening hf hOpen)
    · rcases text_of_opening hf hOpen with
        ⟨hText, hEnds, hReads⟩
      rcases text_of_opening hg hOpen' with
        ⟨hText', hEnds', hReads'⟩
      rw [hText, hText'] at h
      rcases Path.text_unique hEnds hEnds' h with
        ⟨rfl, hRest⟩
      rcases hReads.unique hReads' hRest with ⟨rfl, -, rfl⟩
      rw [hOpen, hOpen']

/- Conditions with the same text are read as the same. -/
theorem asRead_sameTree_of_isLeaf
    (hf : f.IsReadable zones)
    (hg : g.IsReadable zones)
    (hLeaf : f.IsLeaf)
    (hLeaf' : g.IsLeaf)
    (h : f.text = g.text) :
    (f.asRead zones).SameTree (g.asRead zones) := by
  have hOpening := opening_eq_of_text_eq hf hg hLeaf hLeaf' h
  cases f with
  | all =>
      cases g with
      | all => exact .all
      | and a b => cases hLeaf'
      | or a b => cases hLeaf'
      | not a => cases hLeaf'
      | _ => cases hOpening
  | has path =>
      cases g with
      | has path' =>
          cases hOpening
          exact .has path
      | _ => cases hOpening
  | missing path =>
      cases g with
      | missing path' =>
          have hTexts : path.text = path'.text := by
            simpa [opening] using hOpening
          rw [Path.eq_of_text_eq hTexts]
          exact .missing path'
      | _ => cases hOpening
  | cmp path op v =>
      cases g with
      | cmp path' op' w =>
          simp only [opening, Option.some.injEq,
            Prod.mk.injEq, Operator.cmp.injEq] at hOpening
          rcases hOpening with ⟨rfl, rfl, hTexts⟩
          exact
            .cmp path op
              (Value.asRead_same_of_textIn_eq hf.2 hg.2 hTexts)
      | _ => cases hOpening
  | like path pattern =>
      cases g with
      | like path' pattern' =>
          simp only [opening, Option.some.injEq,
            Prod.mk.injEq, Operator.like.injEq] at hOpening
          rcases hOpening with ⟨rfl, hCase, hQuotes⟩
          have hSources :=
            ((Zinc.reads_quoted_quote pattern.source.toList
              []).unique
                (Zinc.reads_quoted_quote
                  pattern'.source.toList [])
                (by rw [hQuotes])).1
          rw [String.ofList_toList, String.ofList_toList]
            at hSources
          rw [LikePattern.eq_of_source_eq hSources hCase]
          exact .like path pattern'
      | _ => cases hOpening
  | and a b => cases hLeaf
  | or a b => cases hLeaf
  | not a => cases hLeaf

end Reading

------------------------------------------------------------
-- Parts and Wholes with the Same Text
------------------------------------------------------------

/- Each filter is a condition, two parts or a turned one. -/
theorem exists_form (f : Filter) :
    f.IsLeaf ∨ (∃ word a b, f = join word a b) ∨
      ∃ a, f = .not a := by
  cases f with
  | and a b => exact Or.inr (Or.inl ⟨.and, a, b, rfl⟩)
  | or a b => exact Or.inr (Or.inl ⟨.or, a, b, rfl⟩)
  | not a => exact Or.inr (Or.inr ⟨a, rfl⟩)
  | _ => exact Or.inl trivial

/-
  A filter with two parts is joined by one of the keywords.
-/
theorem exists_join
    {f : Filter}
    (hf : f.isCompound = true) :
    ∃ word a b, f = join word a b := by
  cases f with
  | and a b => exact ⟨.and, a, b, rfl⟩
  | or a b => exact ⟨.or, a, b, rfl⟩
  | _ => cases hf

theorem isCompound_join
    (word : Keyword)
    (a b : Filter) :
    (join word a b).isCompound = true := by
  cases word <;> rfl

/- Both parts of what can be read can be read. -/
theorem isReadable_join
    {zones : ZoneTable}
    {word : Keyword}
    {a b : Filter}
    (h : (join word a b).IsReadable zones) :
    a.IsReadable zones ∧ b.IsReadable zones := by
  cases word <;> exact h

/- Joined trees are the same if both parts are. -/
theorem SameTree.join
    {a a' b b' : Filter}
    (ha : SameTree a a')
    (hb : SameTree b b')
    (word : Keyword) :
    SameTree (join word a b) (join word a' b') := by
  cases word with
  | and => exact .and ha hb
  | or => exact .or ha hb

/- Joined parts are read as they would be alone. -/
theorem asRead_join
    (zones : ZoneTable)
    (word : Keyword)
    (a b : Filter) :
    (join word a b).asRead zones =
      join word (a.asRead zones) (b.asRead zones) := by
  cases word <;> rfl

------------------------------------------------------------
-- In Front of a Second Part
------------------------------------------------------------

/- The first of two parts, and the keyword behind it. -/
def lead
    (word : Keyword)
    (a : Filter) : List Char :=
  a.partText ++ ' ' :: (word.text.toList ++ [' '])

/- The text of joined parts ends with the second of them. -/
theorem text_join
    (word : Keyword)
    (a b : Filter) :
    (join word a b).text = lead word a ++ b.partText := by
  cases word with
  | and =>
      rw [join, text_and]
      simp [lead]
  | or =>
      rw [join, text_or]
      simp [lead]

/- Behind a keyword a part may start. -/
theorem startsPart_lead
    (before : List Char)
    (word : Keyword)
    (a : Filter) :
    StartsPart (before ++ lead word a) :=
  Or.inr ⟨before ++ a.partText, word, by simp [lead]⟩

/- But no whole filter starts there. -/
theorem not_startsFilter_lead
    (before : List Char)
    (word : Keyword)
    (a : Filter) :
    ¬StartsFilter (before ++ lead word a) := by
  have hSpace :
      before ++ lead word a =
        (before ++ a.partText ++ ' ' :: word.text.toList) ++
          [' '] := by
    simp [lead]
  rw [hSpace]
  rintro (hNil | ⟨others, hEq⟩)
  · simp at hNil
  · rw [List.append_singleton_inj] at hEq
    cases hEq.2

/- The last letter of the keyword tells which one it is. -/
theorem lead_unique
    {before before' : List Char}
    {word word' : Keyword}
    {a a' : Filter}
    (h : before ++ lead word a = before' ++ lead word' a') :
    word = word' ∧
      before ++ a.partText = before' ++ a'.partText := by
  have hBack := congrArg List.reverse h
  rw [lead, lead, ← List.append_assoc, ← List.append_assoc]
    at h
  cases word with
  | and =>
      cases word' with
      | and => exact ⟨rfl, List.append_cancel_right h⟩
      | or => simp [lead, Keyword.text] at hBack
  | or =>
      cases word' with
      | and => simp [lead, Keyword.text] at hBack
      | or => exact ⟨rfl, List.append_cancel_right h⟩

------------------------------------------------------------
-- Parts and Wholes with the Same Text
------------------------------------------------------------

/-
  A text that ends with the text of this part, and with that
  of another one, ends with it from the same place on, and
  both are read as the same.
-/
def IsUniquePart
    (zones : ZoneTable)
    (f : Filter) : Prop :=
  ∀ ⦃g : Filter⦄ ⦃before before' : List Char⦄,
    g.IsReadable zones →
      StartsPart before → StartsPart before' →
        before ++ f.partText = before' ++ g.partText →
          before = before' ∧
            (f.asRead zones).SameTree (g.asRead zones)

/- So does one that ends with the text of a whole filter. -/
def IsUniqueWhole
    (zones : ZoneTable)
    (f : Filter) : Prop :=
  ∀ ⦃g : Filter⦄ ⦃before before' : List Char⦄,
    g.IsReadable zones →
      StartsFilter before → StartsFilter before' →
        before ++ f.text = before' ++ g.text →
          before = before' ∧
            (f.asRead zones).SameTree (g.asRead zones)

section Trees

variable {zones : ZoneTable}
variable {a f : Filter}

theorem partText_of_isLeaf
    (hf : f.IsLeaf) :
    f.partText = f.text := by
  cases f with
  | and a b => cases hf
  | or a b => cases hf
  | _ => rfl

theorem partText_join
    (word : Keyword)
    (a b : Filter) :
    (join word a b).partText = bracket (join word a b).text :=
  partText_of_isCompound (isCompound_join word a b)

/- No part is a whole filter of two parts. -/
theorem isUniqueWhole_of_isUniquePart
    (hf : f.isCompound = false)
    (hPart : f.IsUniquePart zones) :
    f.IsUniqueWhole zones := by
  intro g before before' hg hStart hStart' h
  rw [← partText_of_isCompound_eq_false hf] at h
  cases hCompound : g.isCompound with
  | false =>
      rw [← partText_of_isCompound_eq_false hCompound] at h
      exact hPart hg (Or.inl hStart) (Or.inl hStart') h
  | true =>
      rcases exists_join hCompound with ⟨word, c, d, rfl⟩
      rw [text_join, ← List.append_assoc] at h
      rcases
        hPart (isReadable_join hg).2 (Or.inl hStart)
          (startsPart_lead before' word c) h with
        ⟨rfl, -⟩
      exact absurd hStart (not_startsFilter_lead _ _ _)

/- Two parts are taken from the second one to the first. -/
theorem isUniqueWhole_join
    {b : Filter}
    (ha : a.IsUniquePart zones)
    (hb : b.IsUniquePart zones)
    (word : Keyword) :
    (join word a b).IsUniqueWhole zones := by
  intro g before before' hg hStart hStart' h
  rw [text_join, ← List.append_assoc] at h
  cases hCompound : g.isCompound with
  | false =>
      rw [← partText_of_isCompound_eq_false hCompound] at h
      rcases
        hb hg (startsPart_lead before word a) (Or.inl hStart')
          h with
        ⟨rfl, -⟩
      exact absurd hStart' (not_startsFilter_lead _ _ _)
  | true =>
      rcases exists_join hCompound with ⟨word', c, d, rfl⟩
      rw [text_join, ← List.append_assoc] at h
      have hParts := isReadable_join hg
      rcases
        hb hParts.2 (startsPart_lead before word a)
          (startsPart_lead before' word' c) h with
        ⟨hLead, hSecond⟩
      rcases lead_unique hLead with ⟨rfl, hFirst⟩
      rcases
        ha hParts.1 (Or.inl hStart) (Or.inl hStart') hFirst with
        ⟨rfl, hSame⟩
      rw [asRead_join, asRead_join]
      exact ⟨rfl, hSame.join hSecond word⟩

/- The text in brackets starts behind the opening one. -/
theorem IsUniqueWhole.bracket
    {g : Filter}
    {before before' : List Char}
    (hf : f.IsUniqueWhole zones)
    (hg : g.IsReadable zones)
    (h : before ++ bracket f.text = before' ++ bracket g.text) :
    before = before' ∧
      (f.asRead zones).SameTree (g.asRead zones) := by
  have hInner :
      (before ++ ['(']) ++ f.text =
        (before' ++ ['(']) ++ g.text := by
    simp only [Filter.bracket, ← List.append_assoc] at h
    exact List.append_cancel_right h
  rcases
    hf hg (Or.inr ⟨before, rfl⟩) (Or.inr ⟨before', rfl⟩)
      hInner with
    ⟨hBefore, hSame⟩
  exact ⟨List.append_cancel_right hBefore, hSame⟩

/- A condition does not end in a bracket. -/
theorem leaf_ne_bracket
    (hf : f.IsReadable zones)
    (hLeaf : f.IsLeaf)
    (before before' cs : List Char) :
    before ++ f.text ≠ before' ++ bracket cs := by
  intro h
  rcases (isCondition_text hf hLeaf).exists_concat with
    ⟨others, c, hText, hc⟩
  rw [hText, Filter.bracket, ← List.append_assoc,
    ← List.append_assoc, List.append_singleton_inj] at h
  exact hc h.2

/- No part starts behind the mark of a turned one. -/
theorem not_startsPart_mark (before : List Char) :
    ¬StartsPart (before ++ ['!']) := by
  rintro ((hNil | ⟨others, hEq⟩) | ⟨others, word, hEq⟩)
  · simp at hNil
  · rw [List.append_singleton_inj] at hEq
    cases hEq.2
  · rw [← List.cons_append, ← List.append_assoc,
      List.append_singleton_inj] at hEq
    cases hEq.2

theorem partText_not (a : Filter) (before : List Char) :
    before ++ (Filter.not a).partText =
      (before ++ ['!']) ++ Filter.bracket a.text := by
  rw [List.append_assoc]
  rfl

/-
  A part without parts of its own ends a text in one way.
-/
theorem isUniquePart_of_isLeaf
    (hf : f.IsReadable zones)
    (hLeaf : f.IsLeaf) :
    f.IsUniquePart zones := by
  intro g before before' hg hStart hStart' h
  rw [partText_of_isLeaf hLeaf] at h
  rcases g.exists_form with
    hLeaf' | ⟨word, c, d, rfl⟩ | ⟨c, rfl⟩
  · rw [partText_of_isLeaf hLeaf'] at h
    have hBefore :=
      IsCondition.start_unique hStart hStart'
        (isCondition_text hf hLeaf)
        (isCondition_text hg hLeaf') h
    subst hBefore
    exact
      ⟨rfl,
        asRead_sameTree_of_isLeaf hf hg hLeaf hLeaf'
          (List.append_cancel_left h)⟩
  · rw [partText_join] at h
    exact absurd h (leaf_ne_bracket hf hLeaf _ _ _)
  · rw [partText_not] at h
    exact absurd h (leaf_ne_bracket hf hLeaf _ _ _)

/- Brackets keep joined parts together. -/
theorem isUniquePart_join
    {word : Keyword}
    {b : Filter}
    (hWhole : (join word a b).IsUniqueWhole zones) :
    (join word a b).IsUniquePart zones := by
  intro g before before' hg hStart hStart' h
  rw [partText_join] at h
  rcases g.exists_form with
    hLeaf | ⟨word', c, d, rfl⟩ | ⟨c, rfl⟩
  · rw [partText_of_isLeaf hLeaf] at h
    exact absurd h.symm (leaf_ne_bracket hg hLeaf _ _ _)
  · rw [partText_join] at h
    exact hWhole.bracket hg h
  · rw [partText_not] at h
    rw [(hWhole.bracket (g := c) hg h).1] at hStart
    exact absurd hStart (not_startsPart_mark before')

/- So they do behind `!`. -/
theorem isUniquePart_not
    (hWhole : a.IsUniqueWhole zones) :
    (Filter.not a).IsUniquePart zones := by
  intro g before before' hg hStart hStart' h
  rw [partText_not] at h
  rcases g.exists_form with
    hLeaf | ⟨word, c, d, rfl⟩ | ⟨c, rfl⟩
  · rw [partText_of_isLeaf hLeaf] at h
    exact absurd h.symm (leaf_ne_bracket hg hLeaf _ _ _)
  · rw [partText_join] at h
    rw [← (hWhole.bracket hg h).1] at hStart'
    exact absurd hStart' (not_startsPart_mark before)
  · rw [partText_not] at h
    rcases hWhole.bracket (g := c) hg h with
      ⟨hBefore, hSame⟩
    exact ⟨List.append_cancel_right hBefore, .not hSame⟩

/- Each filter is settled, as a part and as a whole. -/
theorem isUniquePart_and_isUniqueWhole
    (hf : f.IsReadable zones) :
    f.IsUniquePart zones ∧ f.IsUniqueWhole zones := by
  have hLeaf {f : Filter}
      (hf : f.IsReadable zones)
      (hLeaf : f.IsLeaf)
      (hCompound : f.isCompound = false) :
      f.IsUniquePart zones ∧ f.IsUniqueWhole zones := by
    have hPart := isUniquePart_of_isLeaf hf hLeaf
    exact
      ⟨hPart, isUniqueWhole_of_isUniquePart hCompound hPart⟩
  have hJoin {a b : Filter}
      (ha : a.IsUniquePart zones)
      (hb : b.IsUniquePart zones)
      (word : Keyword) :
      (join word a b).IsUniquePart zones ∧
        (join word a b).IsUniqueWhole zones := by
    have hWhole := isUniqueWhole_join ha hb word
    exact ⟨isUniquePart_join hWhole, hWhole⟩
  induction f with
  | and a b iha ihb =>
      exact hJoin (iha hf.1).1 (ihb hf.2).1 .and
  | or a b iha ihb =>
      exact hJoin (iha hf.1).1 (ihb hf.2).1 .or
  | not a ih =>
      have hPart := isUniquePart_not (ih hf).2
      exact ⟨hPart, isUniqueWhole_of_isUniquePart rfl hPart⟩
  | _ => exact hLeaf hf trivial rfl

/- Filters with the same text are read as the same tree. -/
theorem asRead_sameTree_of_text_eq
    {g : Filter}
    (hf : f.IsReadable zones)
    (hg : g.IsReadable zones)
    (h : f.text = g.text) :
    (f.asRead zones).SameTree (g.asRead zones) := by
  have hWhole := (isUniquePart_and_isUniqueWhole hf).2
  have hStart : StartsFilter [] := Or.inl rfl
  exact (hWhole hg hStart hStart h).2

end Trees

end Filter

end Haystack
