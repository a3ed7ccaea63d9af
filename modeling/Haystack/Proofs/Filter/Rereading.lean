import Haystack.Proofs.Filter.Canonical
import Haystack.Proofs.Filter.Given
import Haystack.Proofs.Filter.Quotation
import Haystack.Proofs.Zinc.Rereading

/-
  This file shows which of the filters that are read from a
  text are read again from their own text, with the same
  text.

  A filter that is read again weighs as much as the text that
  both have, so that it misspells no URI, and then the first
  one misspells none either.

  Key definitions include:
    * `Filter.weight`

  Main declarations:
    * `Filter.text_asRead`
    * `Filter.failsPart_and_failsWhole`
    * `Filter.parse_text_iff`
-/

namespace Haystack

open Scan

------------------------------------------------------------
-- Texts of What is Read
------------------------------------------------------------

namespace Filter

/- What a text is read as has that text. -/
theorem text_asRead
    (zones : ZoneTable)
    (f : Filter) :
    (f.asRead zones).text = f.text := by
  have hCompound : ∀ f : Filter,
      (f.asRead zones).isCompound = f.isCompound := by
    intro f
    cases f <;> rfl
  induction f with
  | cmp path op v =>
      simp only [asRead, text, v.textIn_asRead zones]
  | and a b iha ihb =>
      simp only [asRead, text, hCompound, iha, ihb]
  | or a b iha ihb =>
      simp only [asRead, text, hCompound, iha, ihb]
  | not a ih => simp only [asRead, text, ih]
  | _ => rfl

------------------------------------------------------------
-- Weights
------------------------------------------------------------

/- The burden of what is written for a filter. -/
def weight : Filter → Nat
| .cmp _ _ value => value.weight
| .and a b => a.weight + b.weight
| .or a b => a.weight + b.weight
| .not a => a.weight
| _ => 0

/- Brackets weigh nothing. -/
theorem weighs_bracket
    {cs : List Char}
    {n : Nat}
    (hcs : Weighs cs n) :
    Weighs (bracket cs) n := by
  have hOpen : Weighs ['('] 0 := ⟨rfl, rfl⟩
  have hClose : Weighs [')'] 0 := ⟨rfl, rfl⟩
  have hAll := (hOpen.append hcs).append hClose
  rwa [Nat.zero_add] at hAll

theorem weighs_partText
    {f : Filter}
    {n : Nat}
    (hText : Weighs f.text n) :
    Weighs f.partText n := by
  unfold partText
  split_ifs
  · exact weighs_bracket hText
  · exact hText

/- Joined parts weigh what both weigh. -/
theorem weighs_joined
    {a b : Filter}
    {n m : Nat}
    (ha : Weighs a.text n)
    (hb : Weighs b.text m)
    (word : Keyword) :
    Weighs
      (a.partText ++ (' ' :: (word.text.toList ++
        (' ' :: b.partText))))
      (n + m) := by
  have hAll :=
    ((weighs_partText ha).append
      (weighs_plain (all_isPlain_keyword word))).append
        (weighs_partText hb)
  simpa using hAll

/-
  The text of a filter has the burden of its literals, as
  paths, operators, keywords and brackets have none.
-/
theorem weighs_text
    {zones : ZoneTable}
    {f : Filter}
    (hf : f.IsReadable zones) :
    Weighs f.text f.weight := by
  induction f with
  | all => exact ⟨rfl, rfl⟩
  | has path => exact weighs_plain path.all_isPlain_text
  | missing path =>
      refine weighs_plain ?_
      change (['n', 'o', 't', ' '] ++ path.text).all _ = true
      rw [List.all_append, path.all_isPlain_text]
      rfl
  | cmp path op v =>
      have hAll :=
        ((weighs_plain path.all_isPlain_text).append
          (weighs_plain
            (Operator.all_isPlain_symbol (.cmp op)))).append
          (Value.weighs_textIn hf.2)
      rwa [Nat.zero_add] at hAll
  | like path pattern =>
      exact
        ((weighs_plain path.all_isPlain_text).append
          (weighs_plain
            (Operator.all_isPlain_symbol
              (.like pattern.ignoreCase)))).append
          (weighs_quote pattern.source.toList)
  | and a b iha ihb =>
      rw [text_and]
      exact weighs_joined (iha hf.1) (ihb hf.2) .and
  | or a b iha ihb =>
      rw [text_or]
      exact weighs_joined (iha hf.1) (ihb hf.2) .or
  | not a ih =>
      have hMark : Weighs ['!'] 0 := ⟨rfl, rfl⟩
      have hAll := hMark.append (weighs_bracket (ih hf))
      rwa [Nat.zero_add] at hAll

/- No filter costs less than it weighs. -/
theorem weight_le_cost (f : Filter) :
    f.weight ≤ f.cost := by
  induction f with
  | cmp path op v => exact v.weight_le_cost
  | and a b iha ihb => exact Nat.add_le_add iha ihb
  | or a b iha ihb => exact Nat.add_le_add iha ihb
  | not a ih => exact ih
  | _ => exact Nat.le_refl _

/- No filter that is paid for by its weight misspells. -/
theorem hasLegibleUris_of_cost_le
    {f : Filter}
    (h : f.cost ≤ f.weight) :
    f.HasLegibleUris := by
  induction f with
  | cmp path op v =>
      change v.cost ≤ v.weight at h
      by_contra hNot
      have hLess := Value.weight_lt_cost hNot
      omega
  | and a b iha ihb =>
      change a.cost + b.cost ≤ a.weight + b.weight at h
      have ha := a.weight_le_cost
      have hb := b.weight_le_cost
      exact ⟨iha (by omega), ihb (by omega)⟩
  | or a b iha ihb =>
      change a.cost + b.cost ≤ a.weight + b.weight at h
      have ha := a.weight_le_cost
      have hb := b.weight_le_cost
      exact ⟨iha (by omega), ihb (by omega)⟩
  | not a ih => exact ih h
  | _ => trivial

------------------------------------------------------------
-- Long Offsets
------------------------------------------------------------

section Fails

variable {zones : ZoneTable}
variable {a b f : Filter}

/- A path, an operator, and a literal that is not read. -/
theorem fails_cmp
    {path : Path}
    (hPath : IsPlainPath path)
    (op : Comparison)
    {v : Value}
    (hv : v.IsReadable zones .filter)
    (hUri : v.HasLegibleUri)
    (hNot : ¬v.HasLegibleText)
    (more : List Char) :
    Fails (predicate zones)
      (path.text ++ ((Operator.cmp op).symbol ++
        (v.textIn .filter ++ more))) := by
  have hHead :=
    head_symbol (.cmp op) (v.textIn .filter ++ more)
  have hStart :=
    notOperator_of_startsValue
      (Zinc.startsValue_textIn .filter hv.isSimple) more
  have hValue :
      Fails (Zinc.value zones .filter)
        (v.textIn .filter ++ more) :=
    Zinc.fails_value hUri hNot more
  unfold predicate
  refine (path.reads_text hHead.1).bind_fails ?_
  refine (reads_skipSpace_nil hHead.2).bind_fails ?_
  rw [if_neg hPath]
  refine (reads_operator (.cmp op) hStart).bind_fails ?_
  exact Fails.bind (hValue.bind _) _

/- The first part may pass the space before the keyword. -/
theorem exists_left
    {word : Keyword}
    {part : Scan Filter}
    {first more : List Char}
    (hFirst :
      ReadsLoosely part first f
        (' ' :: (word.text.toList ++ more))) :
    ∃ passed left,
      [' '] = passed ++ left ∧
      left.all isSpace = true ∧
      Reads part (first ++ passed) f
        (left ++ (word.text.toList ++ more)) := by
  rcases hFirst with ⟨passed, behind, hEq, hPassed, hReads⟩
  rcases
    exists_blank_of_append_eq
      (head_keyword_notSpace word _) hPassed
      (show [' '] ++ _ = _ from hEq) with
    ⟨left, hLeft, rfl⟩
  refine ⟨passed, left, hLeft, ?_, hReads⟩
  have hAll : [' '].all isSpace = true := rfl
  rw [hLeft, List.all_append, Bool.and_eq_true] at hAll
  exact hAll.2

/- Joined parts fail if the second part does. -/
theorem fails_chain
    {word : Keyword}
    {part : Scan Filter}
    {first cs : List Char}
    (hFirst :
      ReadsLoosely part first f
        (' ' :: (word.text.toList ++ (' ' :: cs))))
    (hHead : cs.head?.all (fun c => !isSpace c) = true)
    (hFails : Fails part cs) :
    Fails (chain word part)
      (first ++
        (' ' :: (word.text.toList ++ (' ' :: cs)))) := by
  rcases exists_left hFirst with
    ⟨passed, left, hLeft, hBlank, hReads⟩
  have hJoined :
      Reads (joined word) (left ++ (word.text.toList ++ [' ']))
        true cs :=
    reads_joined hBlank isGap_space hHead
  have hNext :
      Fails (nextPart? word part f)
        ((left ++ (word.text.toList ++ [' '])) ++ cs) := by
    unfold nextPart?
    refine hJoined.bind_fails ?_
    rw [if_pos rfl]
    exact hFails.bind _
  have hText :
      first ++ (' ' :: (word.text.toList ++ (' ' :: cs))) =
        (first ++ passed) ++
          (left ++ (word.text.toList ++ (' ' :: cs))) := by
    rw [← List.singleton_append, hLeft]
    simp [List.append_assoc]
  rw [hText]
  unfold chain
  refine hReads.bind_fails ?_
  refine Fails.iterate ?_
  simpa [List.append_assoc] using hNext

/- A part of a filter is not read, whatever follows. -/
def FailsPart
    (zones : ZoneTable)
    (f : Filter) : Prop :=
  ∀ bound more,
    f.partText.length ≤ bound.length →
      Fails (atomWithin zones bound) (f.partText ++ more)

/- A filter is not read, whatever follows. -/
def FailsWhole
    (zones : ZoneTable)
    (f : Filter) : Prop :=
  ∀ bound more,
    f.text.length ≤ bound.length →
      Fails (anyOf (atomWithin zones bound)) (f.text ++ more)

/- Brackets do not help a filter that is not read. -/
theorem fails_bracket
    (hf : f.FailsWhole zones)
    (x : Char)
    {bound : List Char}
    (hBound : f.text.length ≤ bound.length)
    (more : List Char) :
    Fails (atomWithin zones (x :: bound))
      (bracket f.text ++ more) := by
  have hHead := f.head_text (')' :: more)
  have hInner := hf bound (')' :: more) hBound
  have hText :
      bracket f.text ++ more =
        '(' :: (f.text ++ ')' :: more) := by
    simp [bracket]
  rw [hText]
  unfold atomWithin
  refine (reads_skipSpace_nil rfl).bind_fails ?_
  rw [fails_next_bind, fails_current_bind]
  refine Fails.advance_bind ?_ '('
  refine (reads_skipSpace_nil hHead).bind_fails ?_
  exact hInner.bind _

/- A filter that is not joined is a part as it stands. -/
theorem failsWhole_of_failsPart
    (hf : f.isCompound = false)
    (hPart : f.FailsPart zones) :
    f.FailsWhole zones := by
  intro bound more hBound
  have hText := partText_of_isCompound_eq_false hf
  have hFails := hPart bound more (by rwa [hText])
  rw [hText] at hFails
  exact (hFails.bind _).bind _

/- A filter that is joined is a part in brackets. -/
theorem failsPart_of_failsWhole
    (hf : f.isCompound = true)
    (hWhole : f.FailsWhole zones) :
    f.FailsPart zones := by
  intro bound more hBound
  rw [partText_of_isCompound hf] at hBound ⊢
  rw [length_bracket] at hBound
  cases bound with
  | nil => simp at hBound
  | cons x bound =>
      refine fails_bracket hWhole x ?_ more
      rw [List.length_cons] at hBound
      omega

/- Filters joined by `and` fail with either part. -/
theorem failsWhole_and
    (hParts :
      a.FailsPart zones ∨
        a.ReadsPart zones ∧ b.FailsPart zones) :
    (Filter.and a b).FailsWhole zones := by
  intro bound more hBound
  rw [text_and] at hBound ⊢
  simp only [List.length_append, List.length_cons] at hBound
  refine Fails.bind ?_ _
  simp only [List.append_assoc, List.cons_append]
  rcases hParts with ha | ⟨ha, hb⟩
  · exact (ha bound _ (by omega)).bind _
  · exact
      fails_chain
        (ha bound _ (by omega) (.word .and _))
        (b.head_partText more) (hb bound more (by omega))

/- Filters joined by `or` fail with either part. -/
theorem failsWhole_or
    (hParts :
      a.FailsPart zones ∨
        a.ReadsPart zones ∧ b.FailsPart zones) :
    (Filter.or a b).FailsWhole zones := by
  intro bound more hBound
  rw [text_or] at hBound ⊢
  simp only [List.length_append, List.length_cons] at hBound
  simp only [List.append_assoc, List.cons_append]
  rcases hParts with ha | ⟨ha, hb⟩
  · exact ((ha bound _ (by omega)).bind _).bind _
  · refine
      fails_chain
        (readsLoosely_chain_single
          (ha bound _ (by omega) (.word .or _)) ?_)
        (b.head_partText more)
        ((hb bound more (by omega)).bind _)
    change some 'o' ≠ some 'a'
    decide

/- After `!` the filter in brackets fails. -/
theorem failsPart_not
    (ha : a.FailsWhole zones) :
    (Filter.not a).FailsPart zones := by
  intro bound more hBound
  change Fails _ ('!' :: (bracket a.text ++ more))
  have hLength : a.text.length + 3 ≤ bound.length := by
    change ('!' :: bracket a.text).length ≤ _ at hBound
    rw [List.length_cons, length_bracket] at hBound
    omega
  rcases bound with _ | ⟨x, _ | ⟨y, bound⟩⟩
  · rw [List.length_nil] at hLength
    omega
  · simp only [List.length_cons, List.length_nil] at hLength
    omega
  · have hShort : a.text.length ≤ bound.length := by
      simp only [List.length_cons] at hLength
      omega
    have hInner := fails_bracket ha y hShort more
    rw [atomWithin]
    refine (reads_skipSpace_nil rfl).bind_fails ?_
    rw [fails_next_bind, fails_current_bind]
    exact (hInner.bind _).advance_bind '!'

/-
  If no URI is misspelled but some text misleads, the filter
  is read neither as a part nor as a whole.
-/
theorem failsPart_and_failsWhole
    (hf : f.IsReadable zones)
    (hUris : f.HasLegibleUris)
    (hNot : ¬f.HasLegibleText) :
    f.FailsPart zones ∧ f.FailsWhole zones := by
  -- The first part that is not legible fails, and what is
  -- before it has been read.
  have hEither : ∀ {a b : Filter},
      a.IsReadable zones →
      (¬a.HasLegibleText → a.FailsPart zones) →
      (¬b.HasLegibleText → b.FailsPart zones) →
      ¬(a.HasLegibleText ∧ b.HasLegibleText) →
        a.FailsPart zones ∨
          a.ReadsPart zones ∧ b.FailsPart zones := by
    intro a b hRead ha hb hNot
    by_cases hText : a.HasLegibleText
    · exact
        Or.inr
          ⟨(readsPart_and_readsWhole hRead hText).1,
            hb fun h => hNot ⟨hText, h⟩⟩
    · exact Or.inl (ha hText)
  induction f with
  | cmp path op v =>
      have hPart : FailsPart zones (.cmp path op v) := by
        intro bound more _
        have hCmp :=
          fails_cmp hf.1 op hf.2 hUris hNot more
        have hStart :=
          start_pathText path
            ((Operator.cmp op).symbol ++
              (v.textIn .filter ++ more))
        have hText :
            (Filter.cmp path op v).partText ++ more =
              path.text ++ ((Operator.cmp op).symbol ++
                (v.textIn .filter ++ more)) := by
          simp [partText, isCompound, text, Operator.symbol]
        rw [hText]
        intro line
        rw [atomWithin_apply bound hStart line]
        exact hCmp line
      exact ⟨hPart, failsWhole_of_failsPart rfl hPart⟩
  | and a b iha ihb =>
      have hWhole : FailsWhole zones (.and a b) :=
        failsWhole_and
          (hEither hf.1
            (fun h => (iha hf.1 hUris.1 h).1)
            (fun h => (ihb hf.2 hUris.2 h).1) hNot)
      exact ⟨failsPart_of_failsWhole rfl hWhole, hWhole⟩
  | or a b iha ihb =>
      have hWhole : FailsWhole zones (.or a b) :=
        failsWhole_or
          (hEither hf.1
            (fun h => (iha hf.1 hUris.1 h).1)
            (fun h => (ihb hf.2 hUris.2 h).1) hNot)
      exact ⟨failsPart_of_failsWhole rfl hWhole, hWhole⟩
  | not a ih =>
      have hPart : FailsPart zones (.not a) :=
        failsPart_not (ih hf hUris hNot).2
      exact ⟨hPart, failsWhole_of_failsPart rfl hPart⟩
  | _ => exact absurd trivial hNot

end Fails

------------------------------------------------------------
-- Filters that are Read Again
------------------------------------------------------------

/- Such a filter is not read from its text. -/
theorem parse_text_ne_ok
    {f read : Filter}
    (hf : f.IsReadable .builtin)
    (hUris : f.HasLegibleUris)
    (hNot : ¬f.HasLegibleText) :
    parse (String.ofList f.text) ≠ .ok read := by
  have hWhole := (failsPart_and_failsWhole hf hUris hNot).2
  have hFails := hWhole f.text [] (Nat.le_refl _)
  rw [List.append_nil] at hFails
  have hHead := f.head_text []
  rw [List.append_nil] at hHead
  have hScan : Fails (scan .builtin) f.text := by
    unfold scan
    refine (reads_skipSpace_nil hHead).bind_fails ?_
    exact Fails.bind (fun line => hFails line) _
  intro hParse
  rcases hScan 1 with ⟨e, c, hError⟩
  unfold parse readAll Cursor.ofText at hParse
  rw [String.toList_ofList, hError] at hParse
  cases hParse

/-
  A filter that was read from a text is read again from its
  own text, with the same text, if and only if
    * after each backslash, its URIs have a character that
      keeps it, and
    * no offset has a hundred hours.
-/
theorem parse_text_iff
    {text : String}
    {f : Filter}
    (hParse : parse text = .ok f) :
    (∃ read,
        parse (String.ofList f.text) = .ok read ∧
          (read == f) = true ∧ read.text = f.text) ↔
      f.HasLegibleText := by
  have hf := (isReadable_of_parse hParse).1
  constructor
  · rintro ⟨read, hAgain, -, hText⟩
    rcases isReadable_of_parse hAgain with ⟨hRead, hPaid⟩
    have hUris : read.HasLegibleUris := by
      apply hasLegibleUris_of_cost_le
      rwa [String.toList_ofList, ← hText,
        (weighs_text hRead).burden_eq] at hPaid
    have hUris' :=
      hasLegibleUris_of_text_eq hf hRead hText.symm hUris
    by_contra hNot
    exact parse_text_ne_ok hf hUris' hNot hAgain
  · intro hText
    have hEq := f.text_asRead .builtin
    refine ⟨f.asRead .builtin, parse_text hf hText, ?_, hEq⟩
    change ((f.asRead .builtin).text == f.text) = true
    rw [beq_iff_eq, hEq]

/- A comparison with a URI that is one backslash. -/
def strayFilter : Filter :=
  .cmp ⟨⟨"a", rfl⟩, []⟩ .eq (.uri Zinc.strayUri)

/- A filter that is read, and whose own text is refused. -/
theorem parse_text_strayFilter :
    parse "a == `\\u005c`" = .ok strayFilter ∧
      ¬∃ read,
        parse (String.ofList strayFilter.text) = .ok read ∧
          (read == strayFilter) = true ∧
          read.text = strayFilter.text := by
  have hParse : parse "a == `\\u005c`" = .ok strayFilter := by
    rfl
  refine ⟨hParse, ?_⟩
  rw [parse_text_iff hParse]
  intro hText
  cases hText

end Filter

end Haystack
