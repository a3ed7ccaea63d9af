import Haystack.Proofs.Filter.Trees

/-
  This file defines the grammar of filters, in which words
  may stand apart by any spaces, and shows that each text of
  the grammar is read as the one tree that it is written for.

  Key definitions include:
    * `Filter.Level`
    * `Filter.Spells`
    * `Filter.EndsAt`
    * `Filter.ReadsAt`

  Main declarations:
    * `Filter.Spells.readsAt`
    * `Filter.parse_of_spells`
-/

namespace Haystack

namespace Filter

open Scan

------------------------------------------------------------
-- The Grammar
------------------------------------------------------------

/- What is written alone, and what a keyword joins. -/
inductive Level where
| atom
| joined (word : Keyword)
deriving DecidableEq, Repr

/- The level of the parts that a keyword joins. -/
def Level.below : Keyword → Level
| .and => .atom
| .or => .joined .and

/-
  A text is written for a filter at a level. What a keyword
  joins is written from the left: the last part goes with all
  that stands before it.
-/
inductive Spells : Level → List Char → Filter → Prop where
| all : Spells .atom ['*'] .all
| has
    {path : Path}
    (hPath : IsPlainPath path) :
    Spells .atom path.text (.has path)
| missing
    {gap : List Char}
    (hGap : IsGap gap)
    (path : Path) :
    Spells .atom (['n', 'o', 't'] ++ (gap ++ path.text))
      (.missing path)
| cmp
    {path : Path}
    {before after : List Char}
    (hPath : IsPlainPath path)
    (hBefore : before.all isSpace = true)
    (hAfter : after.all isSpace = true)
    (op : Comparison)
    (text : String) :
    Spells .atom
      (path.text ++ (before ++ (op.symbol.toList ++
        (after ++ Zinc.quote text.toList))))
      (.cmp path op (.str text))
| not
    {blank cs : List Char}
    {f : Filter}
    (hBlank : blank.all isSpace = true)
    (hAtom : Spells .atom cs f) :
    Spells .atom ('!' :: (blank ++ cs)) (.not f)
| bracket
    {before cs after : List Char}
    {f : Filter}
    (hBefore : before.all isSpace = true)
    (hAfter : after.all isSpace = true)
    (hInner : Spells (.joined .or) cs f) :
    Spells .atom
      ('(' :: (before ++ (cs ++ (after ++ [')'])))) f
| single
    {word : Keyword}
    {cs : List Char}
    {f : Filter}
    (hPart : Spells (.below word) cs f) :
    Spells (.joined word) cs f
| join
    {word : Keyword}
    {cs ds before after : List Char}
    {f g : Filter}
    (hBefore : IsGap before)
    (hAfter : IsGap after)
    (hFirst : Spells (.joined word) cs f)
    (hPart : Spells (.below word) ds g) :
    Spells (.joined word)
      (cs ++
        (before ++ (word.text.toList ++ (after ++ ds))))
      (join word f g)

/- A text starts with neither a space nor `=`. -/
theorem Spells.exists_cons
    {level : Level}
    {cs : List Char}
    {f : Filter}
    (hSpells : Spells level cs f) :
    ∃ c more,
      cs = c :: more ∧ isSpace c = false ∧ c ≠ '=' := by
  have hPath : ∀ (path : Path) (behind : List Char),
      ∃ c more, path.text ++ behind = c :: more ∧
        isSpace c = false ∧ c ≠ '=' := by
    intro path behind
    rcases exists_cons_text path with ⟨c, more, hText, hc⟩
    refine ⟨c, more ++ behind, by rw [hText]; rfl, ?_, ?_⟩
    · exact (Zinc.not_of_isTagStart hc).1
    · rintro rfl
      cases hc
  induction hSpells with
  | all => exact ⟨'*', _, rfl, rfl, by decide⟩
  | @has path _ =>
      rw [← List.append_nil path.text]
      exact hPath path []
  | missing _ _ => exact ⟨'n', _, rfl, rfl, by decide⟩
  | cmp _ _ _ _ _ => exact hPath _ _
  | not _ _ _ => exact ⟨'!', _, rfl, rfl, by decide⟩
  | bracket _ _ _ _ => exact ⟨'(', _, rfl, rfl, by decide⟩
  | single _ ih => exact ih
  | join _ _ _ _ ih _ =>
      rcases ih with ⟨c, more, rfl, hc⟩
      exact ⟨c, _, rfl, hc⟩

/- No text of a filter starts with a space. -/
theorem Spells.head_notSpace
    {level : Level}
    {cs : List Char}
    {f : Filter}
    (hSpells : Spells level cs f)
    (more : List Char) :
    (cs ++ more).head?.all (fun c => !isSpace c) = true := by
  rcases hSpells.exists_cons with ⟨c, ds, rfl, hc, -⟩
  simp [hc]

------------------------------------------------------------
-- What Follows a Text of the Grammar
------------------------------------------------------------

/- Behind spaces there is a start that is no operator. -/
theorem endsCondition_blank
    {blank behind : List Char}
    (hBlank : blank.all isSpace = true)
    (hSpace : behind.head?.all (fun c => !isSpace c) = true)
    (hOperator :
      operatorAt? behind.head? behind.tail.head? = none)
    (hEnds : blank = [] → Path.endsPath behind = true) :
    EndsCondition (blank ++ behind) :=
  ⟨Path.endsPath_blank hBlank hEnds, blank, behind, rfl,
    hBlank, hSpace, hOperator⟩

/-
  A text of a level may end before this one. Where parts are
  joined by `or`, an `and` would go on with the last of them.
-/
def EndsAt
    (level : Level)
    (rest : List Char) : Prop :=
  EndsCondition rest ∧
    (level = .joined .or → NotNext .and rest)

/- It ends at a keyword that joins it with another. -/
theorem endsAt_keyword
    {gap : List Char}
    (hGap : IsGap gap)
    (word : Keyword)
    (more : List Char) :
    EndsAt (.joined word)
      (gap ++ (word.text.toList ++ more)) := by
  refine ⟨endsCondition_blank hGap.2 ?_ ?_ ?_, ?_⟩
  · exact head_keyword_notSpace word more
  · cases word <;> rfl
  · exact fun h => absurd h hGap.1
  · intro hWord
    cases hWord
    rw [notNext_blank hGap.2]
    change some 'o' ≠ some 'a'
    decide

/- It ends where a whole filter does, after any spaces. -/
theorem endsAt_of_endsFilter
    {blank behind : List Char}
    (hBlank : blank.all isSpace = true)
    (hEnds : endsFilter behind = true)
    (level : Level) :
    EndsAt level (blank ++ behind) := by
  refine
    ⟨?_, fun _ => (notNext_blank hBlank).mpr
      (notNext_of_endsFilter hEnds .and)⟩
  cases endsPart_of_endsFilter hEnds with
  | finish =>
      exact endsCondition_blank hBlank rfl rfl (fun _ => rfl)
  | close rest =>
      exact endsCondition_blank hBlank rfl rfl (fun _ => rfl)
  | word word rest => cases hEnds

------------------------------------------------------------
-- Reading by the Grammar
------------------------------------------------------------

/- How the filters of a level are read. -/
def reader
    (zones : ZoneTable)
    (bound : List Char) : Level → Scan Filter
| .atom => atomWithin zones bound
| .joined .and => chain .and (atomWithin zones bound)
| .joined .or => anyOf (atomWithin zones bound)

/-
  A part is read whole. Joined parts are read so that more of
  them may be joined from the right.
-/
def ReadsAt
    (zones : ZoneTable)
    (bound : List Char) :
    Level → List Char → Filter → List Char → Prop
| .atom, cs, f, rest =>
    ReadsLoosely (atomWithin zones bound) cs f rest
| .joined word, cs, f, rest =>
    GoesOn word (reader zones bound (.below word)) cs f rest

section Reading

variable {zones : ZoneTable}
variable {bound : List Char}
variable {word : Keyword}
variable {cs rest : List Char}
variable {f : Filter}

/- Joined parts are read up to something else. -/
theorem ReadsAt.readsLoosely
    (hReads : ReadsAt zones bound (.joined word) cs f rest)
    (hRest : NotNext word rest) :
    ReadsLoosely (reader zones bound (.joined word)) cs f
      rest := by
  cases word <;> exact readsLoosely_of_goesOn hReads hRest

/- A part is read where it may be joined. -/
theorem ReadsAt.readsLoosely_below
    (hReads : ReadsAt zones bound (.below word) cs f rest)
    (hRest : EndsAt (.joined word) rest) :
    ReadsLoosely (reader zones bound (.below word)) cs f
      rest := by
  cases word with
  | and => exact hReads
  | or => exact hReads.readsLoosely (hRest.2 rfl)

/- A whole filter is read with any spaces behind it. -/
theorem ReadsAt.readsLoosely_whole
    {blank : List Char}
    (hReads :
      ReadsAt zones bound (.joined .or) cs f (blank ++ rest))
    (hBlank : blank.all isSpace = true)
    (hEnds : endsFilter rest = true) :
    ReadsLoosely (anyOf (atomWithin zones bound)) cs f
      (blank ++ rest) :=
  hReads.readsLoosely
    ((notNext_blank hBlank).mpr
      (notNext_of_endsFilter hEnds .or))

/- Where joined parts end, the last of them does. -/
theorem EndsAt.below
    (hRest : EndsAt (.joined word) rest) :
    EndsAt (.below word) rest := by
  refine ⟨hRest.1, fun h => ?_⟩
  cases word <;> cases h

/-
  By induction on how a text is written: it is read wherever
  a text of its level may end.
-/
theorem Spells.readsAt
    {level : Level}
    (hSpells : Spells level cs f)
    (hBound : cs.length ≤ bound.length)
    (hRest : EndsAt level rest) :
    ReadsAt zones bound level cs f rest := by
  induction hSpells generalizing bound rest with
  | all =>
      cases bound with
      | nil => cases hBound
      | cons x bound => exact (reads_star x rest).loosely
  | has hPath =>
      exact
        readsLoosely_atom_of_predicate (start_pathText _ rest)
          (readsLoosely_has hPath hRest.1)
  | missing hGap path =>
      exact
        readsLoosely_atom_of_predicate rfl
          (reads_missing hGap hRest.1.1).loosely
  | cmp hPath hBefore hAfter op text =>
      refine
        readsLoosely_atom_of_predicate ?_
          (reads_cmp_quote hPath hBefore hAfter op text
            rest).loosely
      rw [List.append_assoc]
      exact start_pathText _ _
  | not hBlank hAtom ih =>
      -- No part starts with `=`, so that `!` stands alone.
      rcases hAtom.exists_cons with ⟨c, more, rfl, hc, hEq⟩
      refine
        readsLoosely_not hBlank (List.cons_ne_nil _ _)
          (hAtom.head_notSpace rest) ?_ hBound ?_
      · exact fun h => hEq (Option.some.inj h)
      · intro y bound hShort
        exact ih hShort ⟨hRest.1, fun h => by cases h⟩
  | @bracket before cs after f hBefore hAfter hInner ih =>
      cases bound with
      | nil => cases hBound
      | cons x bound =>
          have hShort : cs.length ≤ bound.length := by
            simp only [List.length_cons,
              List.length_append] at hBound
            omega
          have hEnds : endsFilter (')' :: rest) = true := rfl
          have hAt :=
            ih hShort (endsAt_of_endsFilter hAfter hEnds _)
          exact
            (reads_inBrackets x hBefore hAfter
              hInner.head_notSpace
              (hAt.readsLoosely_whole hAfter hEnds)).loosely
  | single hPart ih =>
      exact
        goesOn_single
          ((ih hBound hRest.below).readsLoosely_below hRest)
  | @join word cs ds before after f g hBefore hAfter _ hPart
      ih ihPart =>
      -- All before the keyword goes on with the last part.
      simp only [List.length_append] at hBound
      have hShort : cs.length ≤ bound.length := by omega
      have hShortPart : ds.length ≤ bound.length := by omega
      have hFirst :=
        ih hShort
          (endsAt_keyword hBefore word (after ++ (ds ++ rest)))
      have hSecond :=
        (ihPart hShortPart hRest.below).readsLoosely_below
          hRest
      exact
        goesOn_join hFirst hBefore.2 hAfter
          hPart.head_notSpace hSecond

end Reading

/-
  A text of the grammar is read, with any spaces around it,
  as what it is written for, and it is written for one filter
  only.
-/
theorem parse_of_spells
    {before cs after : List Char}
    {f : Filter}
    (hSpells : Spells (.joined .or) cs f)
    (hBefore : before.all isSpace = true)
    (hAfter : after.all isSpace = true) :
    parse (String.ofList (before ++ (cs ++ after))) = .ok f ∧
      ∀ g, Spells (.joined .or) cs g → g = f := by
  have hParse : ∀ g, Spells (.joined .or) cs g →
      parse (String.ofList (before ++ (cs ++ after))) =
        .ok g := by
    intro g hg
    have hEnds : endsFilter [] = true := rfl
    have hBound : cs.length ≤ (cs ++ after).length := by
      rw [List.length_append]
      exact Nat.le_add_right _ _
    have hAt :
        ReadsAt .builtin (cs ++ after) (.joined .or) cs g
          (after ++ []) :=
      hg.readsAt hBound (endsAt_of_endsFilter hAfter hEnds _)
    have hReads := hAt.readsLoosely_whole hAfter hEnds
    rw [List.append_nil] at hReads
    exact
      parse_of_readsLoosely hBefore hAfter hg.head_notSpace
        hReads
  refine ⟨hParse f hSpells, fun g hg => ?_⟩
  have hBoth := (hParse g hg).symm.trans (hParse f hSpells)
  exact Except.ok.inj hBoth

/- Tags that are named like the words of the grammar. -/
def andPath : Path :=
  ⟨⟨"and", rfl⟩, []⟩

def orPath : Path :=
  ⟨⟨"or", rfl⟩, []⟩

def orNotPath : Path :=
  ⟨orPath.first, [notPath.first]⟩

/- Three parts, of which the first two are one part. -/
def namesFilter : Filter :=
  .and (.and .all (.has andPath)) (.has orPath)

def namesText : List Char :=
  (['*'] ++
    ([' '] ++ (Keyword.and.text.toList ++
      ([' ', ' '] ++ andPath.text)))) ++
    (['\t'] ++ (Keyword.and.text.toList ++
      ([' '] ++ orPath.text)))

/- Only the first of two parts is turned around. -/
def turnedFilter : Filter :=
  .and (.not (.missing notPath))
    (.cmp orNotPath .ne (.str "or"))

def turnedText : List Char :=
  ('!' :: ([' '] ++
    ('(' :: ([' '] ++
      ((['n', 'o', 't'] ++ (['\t'] ++ notPath.text)) ++
        ([] ++ [')'])))))) ++
    ([' '] ++ (Keyword.and.text.toList ++
      (['\t'] ++
        (orNotPath.text ++ ([] ++
          (Comparison.ne.symbol.toList ++
            ([' '] ++ Zinc.quote "or".toList)))))))

def wordsText : List Char :=
  namesText ++
    ([' '] ++ (Keyword.or.text.toList ++
      ([' '] ++ turnedText)))

/- The text in one piece, with spaces around it. -/
def wordsLine : String :=
  "\t* and  and\tand or or ! ( not\tnot) and\tor->not!= \"or\" "

/- The grammar spells the filter with this text. -/
theorem spells_wordsText :
    Spells (.joined .or) wordsText
      (.or namesFilter turnedFilter) := by
  have hTab : IsGap ['\t'] := by decide
  have hWide : IsGap [' ', ' '] := by decide
  have hNames :
      Spells (.joined .and) namesText namesFilter := by
    refine .join hTab isGap_space ?_ (.has (by decide))
    exact
      .join isGap_space hWide (.single .all)
        (.has (by decide))
  have hTurned :
      Spells (.joined .and) turnedText turnedFilter := by
    refine .join isGap_space hTab (.single (.not rfl ?_)) ?_
    · refine .bracket rfl rfl (.single (.single ?_))
      exact .missing hTab notPath
    · exact .cmp (by decide) rfl rfl .ne "or"
  exact .join isGap_space isGap_space (.single hNames) hTurned

/-
  Words of the grammar are taken as names where names stand,
  and the reader gives the only filter that the text spells.
-/
theorem parse_wordsLine :
    Spells (.joined .or) wordsText
        (.or namesFilter turnedFilter) ∧
      ['\t'].all isSpace = true ∧
      [' '].all isSpace = true ∧
      parse wordsLine = .ok (.or namesFilter turnedFilter) ∧
      ∀ g, Spells (.joined .or) wordsText g →
        g = .or namesFilter turnedFilter := by
  have hTab : ['\t'].all isSpace = true := rfl
  have hSpace : [' '].all isSpace = true := rfl
  have hText :
      String.ofList (['\t'] ++ (wordsText ++ [' '])) =
        wordsLine := by
    decide
  rcases parse_of_spells spells_wordsText hTab hSpace with
    ⟨hParse, hUnique⟩
  rw [hText] at hParse
  exact ⟨spells_wordsText, hTab, hSpace, hParse, hUnique⟩

end Filter

end Haystack
