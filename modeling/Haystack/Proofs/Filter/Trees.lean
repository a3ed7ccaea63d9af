import Haystack.Proofs.Filter.Predicates
import Haystack.Proofs.Text.Takes

/-
  This file shows that filters are read back from their text.
  Parts that are joined themselves stand in brackets, and all
  others end before a keyword, a bracket or the end.

  Key definitions include:
    * `Filter.NotNext`
    * `Filter.GoesOn`
    * `Filter.partText`
    * `Filter.ReadsPart`
    * `Filter.ReadsWhole`

  Main declarations:
    * `Filter.readsLoosely_of_goesOn`
    * `Filter.readsPart_and_readsWhole`
    * `Filter.parse_of_readsLoosely`
    * `Filter.parse_text`
-/

namespace Haystack

namespace Filter

open Scan

------------------------------------------------------------
-- Keywords
------------------------------------------------------------

section Chain

variable {word : Keyword}
variable {part : Scan Filter}
variable {f g : Filter}
variable {rest : List Char}

/- A keyword starts with its first letter. -/
theorem head_keyword
    (word : Keyword)
    (more : List Char) :
    (word.text.toList ++ more).head? = some (initial word) := by
  cases word <;> rfl

theorem head_keyword_notSpace
    (word : Keyword)
    (more : List Char) :
    (word.text.toList ++ more).head?.all
        (fun c => !isSpace c) =
      true := by
  cases word <;> rfl

/- A keyword is read with the spaces around it. -/
theorem reads_joined
    {blank gap : List Char}
    (hBlank : blank.all isSpace = true)
    (hGap : IsGap gap)
    (hHead : rest.head?.all (fun c => !isSpace c) = true) :
    Reads (joined word)
      (blank ++ (word.text.toList ++ gap)) true rest := by
  unfold joined
  refine Reads.bind (reads_skipSpace hBlank ?_) ?_
  · rw [List.append_assoc]
    exact head_keyword_notSpace word _
  · rw [reads_current_bind, List.append_assoc, head_keyword,
      if_pos rfl]
    have hValid : isTagName word.text.toList = true := by
      cases word <;> rfl
    have hEnds :=
      Path.endsPath_notTagChar (Path.endsPath_gap hGap rest)
    refine Reads.bind (reads_tagName hValid hEnds) ?_
    rw [if_neg (fun h => h rfl)]
    exact
      (reads_skipSpace hGap.2 hHead).bind_last
        (reads_pure true _)

/- A keyword and one more part are read. -/
theorem reads_nextPart
    {blank gap second : List Char}
    (hBlank : blank.all isSpace = true)
    (hGap : IsGap gap)
    (hHead :
      (second ++ rest).head?.all (fun c => !isSpace c) =
        true)
    (hSecond : Reads part second g rest) :
    Reads (nextPart? word part f)
      (blank ++ (word.text.toList ++ (gap ++ second)))
      (some (join word f g)) rest := by
  have hNext :
      Reads (nextPart? word part f)
        ((blank ++ (word.text.toList ++ gap)) ++ second)
        (some (join word f g)) rest := by
    unfold nextPart?
    refine Reads.bind (reads_joined hBlank hGap hHead) ?_
    rw [if_pos rfl]
    exact hSecond.bind_pure (fun g => some (join word f g))
  simpa [List.append_assoc] using hNext

/- Without a keyword there are no more parts. -/
theorem reads_nextPart_none
    {blank : List Char}
    (hBlank : blank.all isSpace = true)
    (hHead : rest.head?.all (fun c => !isSpace c) = true)
    (hStop : rest.head? ≠ some (initial word)) :
    Reads (nextPart? word part f) blank none rest := by
  have hJoined :
      Reads (joined word) blank false rest := by
    unfold joined
    refine (reads_skipSpace hBlank hHead).bind_last ?_
    rw [reads_current_bind, List.nil_append, if_neg hStop]
    exact reads_pure false rest
  unfold nextPart?
  refine hJoined.bind_last ?_
  rw [if_neg Bool.false_ne_true]
  exact reads_pure none rest

/- The spaces in front of a text, and what is behind them. -/
theorem exists_blank (cs : List Char) :
    ∃ blank behind,
      cs = blank ++ behind ∧
      blank.all isSpace = true ∧
      behind.head?.all (fun c => !isSpace c) = true ∧
      behind = cs.dropWhile isSpace := by
  refine
    ⟨cs.takeWhile isSpace, cs.dropWhile isSpace,
      List.takeWhile_append_dropWhile.symm, ?_, ?_, rfl⟩
  · exact List.all_takeWhile
  · cases hBehind : cs.dropWhile isSpace with
    | nil => rfl
    | cons c behind =>
        have hHead := List.head?_dropWhile_not isSpace cs
        rw [hBehind] at hHead
        simpa using hHead

/-
  Spaces before a text do not matter to what is behind them.
-/
theorem dropWhile_blank_append
    {blank : List Char}
    (hBlank : blank.all isSpace = true)
    (cs : List Char) :
    (blank ++ cs).dropWhile isSpace =
      cs.dropWhile isSpace := by
  rw [List.dropWhile_append_of_pos]
  simpa using hBlank

/- This keyword does not come next. -/
def NotNext
    (word : Keyword)
    (rest : List Char) : Prop :=
  (rest.dropWhile isSpace).head? ≠ some (initial word)

/- Whether it does is the same with spaces before it. -/
theorem notNext_blank
    {blank : List Char}
    (hBlank : blank.all isSpace = true) :
    NotNext word (blank ++ rest) ↔ NotNext word rest := by
  unfold NotNext
  rw [dropWhile_blank_append hBlank]

/-
  The chain has read `taken`, and perhaps some of the spaces
  behind it, and goes on from there with `f`.
-/
def GoesOn
    (word : Keyword)
    (part : Scan Filter)
    (taken : List Char)
    (f : Filter)
    (rest : List Char) : Prop :=
  ∃ blank behind,
    rest = blank ++ behind ∧ blank.all isSpace = true ∧
      ∀ more g last,
        behind = more ++ last →
          ReadsOn (nextPart? word part) f more g last →
            Reads (chain word part) (taken ++ (blank ++ more))
              g last

/- It has read one part. -/
theorem goesOn_single
    {taken : List Char}
    (hPart : ReadsLoosely part taken f rest) :
    GoesOn word part taken f rest := by
  rcases hPart with ⟨blank, behind, rfl, hBlank, hReads⟩
  refine ⟨blank, behind, rfl, hBlank, ?_⟩
  intro more g last hBehind hSteps
  rw [← List.append_assoc]
  unfold chain
  refine Reads.bind ?_ hSteps.reads_iterate
  rwa [← hBehind]

/- It reads a keyword and one more part. -/
theorem goesOn_join
    {first before after second : List Char}
    (hFirst :
      GoesOn word part first f
        (before ++ (word.text.toList ++
          (after ++ (second ++ rest)))))
    (hBefore : before.all isSpace = true)
    (hAfter : IsGap after)
    (hHead : ∀ more,
      (second ++ more).head?.all (fun c => !isSpace c) =
        true)
    (hSecond : ReadsLoosely part second g rest) :
    GoesOn word part
      (first ++
        (before ++ (word.text.toList ++ (after ++ second))))
      (join word f g) rest := by
  rcases hFirst with ⟨passed, behind, hEq, hPassed, hChain⟩
  rcases
    exists_blank_of_append_eq (head_keyword_notSpace word _)
      hPassed hEq with
    ⟨left, rfl, rfl⟩
  have hLeft : left.all isSpace = true := by
    rw [List.all_append, Bool.and_eq_true] at hBefore
    exact hBefore.2
  rcases hSecond with ⟨blank, behind, rfl, hBlank, hReads⟩
  refine ⟨blank, behind, rfl, hBlank, ?_⟩
  intro more h last hBehind hSteps
  rw [hBehind] at hReads
  let step : List Char :=
    left ++ (word.text.toList ++ (after ++ (second ++ blank)))
  have hStep :
      Reads (nextPart? word part f) step
        (some (join word f g)) (more ++ last) := by
    refine reads_nextPart hLeft hAfter ?_ hReads
    rw [List.append_assoc]
    exact hHead _
  have hStepText : step ≠ [] := by
    cases word <;> simp [step, Keyword.text]
  have hAll :=
    hChain (step ++ more) h last
      (by simp [step, hBehind])
      (hSteps.next hStep hStepText)
  simpa [step, List.append_assoc] using hAll

/- Before something else than its keyword it is done. -/
theorem readsLoosely_of_goesOn
    {taken : List Char}
    (hChain : GoesOn word part taken f rest)
    (hStop : NotNext word rest) :
    ReadsLoosely (chain word part) taken f rest := by
  rcases hChain with ⟨blank, behind, rfl, hBlank, hReads⟩
  rcases exists_blank behind with
    ⟨more, last, rfl, hMore, hHead, hLast⟩
  rw [notNext_blank hBlank, NotNext, ← hLast] at hStop
  refine
    ⟨blank ++ more, last, by rw [List.append_assoc], ?_, ?_⟩
  · rw [List.all_append, hBlank, hMore]
    rfl
  · exact
      hReads more f last rfl
        (.stop (reads_nextPart_none hMore hHead hStop))

/- A chain of one part is that part. -/
theorem readsLoosely_chain_single
    {taken : List Char}
    (hPart : ReadsLoosely part taken f rest)
    (hStop : NotNext word rest) :
    ReadsLoosely (chain word part) taken f rest :=
  readsLoosely_of_goesOn (goesOn_single hPart) hStop

/- A chain of two parts joins them. -/
theorem readsLoosely_chain_pair
    {first second : List Char}
    (hFirst :
      ReadsLoosely part first f
        (' ' :: (word.text.toList ++
          (' ' :: (second ++ rest)))))
    (hSecond : ReadsLoosely part second g rest)
    (hHead : ∀ more,
      (second ++ more).head?.all (fun c => !isSpace c) =
        true)
    (hStop : NotNext word rest) :
    ReadsLoosely (chain word part)
      (first ++
        (' ' :: (word.text.toList ++ (' ' :: second))))
      (join word f g) rest := by
  refine readsLoosely_of_goesOn ?_ hStop
  exact
    goesOn_join (goesOn_single hFirst) isGap_space.2
      isGap_space hHead hSecond

end Chain

------------------------------------------------------------
-- Parts by Their First Character
------------------------------------------------------------

section Atom

variable {zones : ZoneTable}
variable {bound : List Char}
variable {cs rest : List Char}
variable {f : Filter}

/- At a name, what is not joined is a condition. -/
theorem atomWithin_apply
    (bound : List Char)
    {cs : List Char}
    (hStart : cs.head?.any isTagStart = true)
    (line : Nat) :
    atomWithin zones bound ⟨cs, line⟩ =
      predicate zones ⟨cs, line⟩ := by
  cases bound with
  | nil => rfl
  | cons x bound =>
      cases cs with
      | nil => cases hStart
      | cons c cs =>
          have hc : isTagStart c = true := hStart
          have hSpace :
              (c :: cs).head?.all (fun c => !isSpace c) =
                true := by
            simp [(Zinc.not_of_isTagStart hc).1]
          have hSkip := reads_skipSpace_nil hSpace line
          rw [List.nil_append] at hSkip
          unfold atomWithin
          rw [bind_apply, hSkip]
          dsimp only
          rw [next_bind_apply, current_bind_apply]
          generalize hHead :
            Cursor.current? ⟨c :: cs, _⟩ = next
          split
          next =>
            cases hHead
            cases hc
          next =>
            cases hHead
            cases hc
          next =>
            cases hHead
            cases hc
          next => rfl

/- At a name a part of a filter is read as a condition. -/
theorem readsLoosely_atom_of_predicate
    (hStart : (cs ++ rest).head?.any isTagStart = true)
    (hReads : ReadsLoosely (predicate zones) cs f rest) :
    ReadsLoosely (atomWithin zones bound) cs f rest := by
  rcases hReads with ⟨blank, behind, rfl, hBlank, hPredicate⟩
  refine ⟨blank, behind, rfl, hBlank, ?_⟩
  intro line
  rw [atomWithin_apply bound _ line, hPredicate line]
  rwa [List.append_assoc]

/- A star is all of a filter. -/
theorem reads_star
    (x : Char)
    (rest : List Char) :
    Reads (atomWithin zones (x :: bound)) ['*'] .all rest := by
  unfold atomWithin
  refine Reads.bind_of_nil (reads_skipSpace_nil rfl) ?_
  rw [reads_next_bind, reads_current_bind]
  exact (reads_pure Filter.all rest).advance_bind '*'

/- In brackets there is a filter with any spaces around it. -/
theorem reads_inBrackets
    (x : Char)
    {before after : List Char}
    (hBefore : before.all isSpace = true)
    (hAfter : after.all isSpace = true)
    (hHead : ∀ more,
      (cs ++ more).head?.all (fun c => !isSpace c) = true)
    (hInner :
      ReadsLoosely (anyOf (atomWithin zones bound)) cs f
        (after ++ (')' :: rest))) :
    Reads (atomWithin zones (x :: bound))
      ('(' :: (before ++ (cs ++ (after ++ [')'])))) f rest := by
  have hClosed :
      Reads
        (anyOf (atomWithin zones bound) >>= fun f =>
          skipSpace >>= fun _ =>
            expect ')' .closeParen >>= fun _ => pure f)
        (cs ++ (after ++ [')'])) f rest := by
    refine hInner.bind_skipSpace hAfter rfl ?_
    exact
      (reads_expect ')' .closeParen rest).bind_last
        (reads_pure _ rest)
  unfold atomWithin
  refine Reads.bind_of_nil (reads_skipSpace_nil rfl) ?_
  rw [reads_next_bind, reads_current_bind]
  refine Reads.advance_bind ?_ '('
  refine Reads.bind (reads_skipSpace hBefore ?_) hClosed
  rw [List.append_assoc]
  exact hHead _

/-
  After `!` there is a part with any spaces before it, which
  is read within the rest of the bound. With `=` behind it
  `!` would not stand for a part.
-/
theorem readsLoosely_not
    {blank : List Char}
    (hBlank : blank.all isSpace = true)
    (hCs : cs ≠ [])
    (hHead :
      (cs ++ rest).head?.all (fun c => !isSpace c) = true)
    (hNext : (cs ++ rest).head? ≠ some '=')
    (hBound : ('!' :: (blank ++ cs)).length ≤ bound.length)
    (hInner : ∀ y bound,
      cs.length ≤ (y :: bound).length →
        ReadsLoosely (atomWithin zones (y :: bound)) cs f
          rest) :
    ReadsLoosely (atomWithin zones bound)
      ('!' :: (blank ++ cs)) (.not f) rest := by
  have hPositive := List.length_pos_of_ne_nil hCs
  rw [List.length_cons, List.length_append] at hBound
  rcases bound with _ | ⟨x, _ | ⟨y, bound⟩⟩
  · rw [List.length_nil] at hBound
    omega
  · rw [List.length_singleton] at hBound
    omega
  rw [List.length_cons] at hBound
  rcases hInner y bound (by omega) with
    ⟨passed, behind, rfl, hPassed, hReads⟩
  refine ⟨passed, behind, rfl, hPassed, ?_⟩
  have hAfter :
      Reads (atomWithin zones (y :: bound))
        (blank ++ (cs ++ passed)) f behind := by
    unfold atomWithin at hReads ⊢
    refine hReads.after_blank hBlank ?_
    rwa [List.append_assoc]
  have hNotEq :
      (blank ++ (cs ++ (passed ++ behind))).head? ≠
        some '=' := by
    cases blank with
    | nil => exact hNext
    | cons c blank =>
        rw [List.all_cons, Bool.and_eq_true] at hBlank
        intro hEq
        cases hEq
        exact (not_of_isSpace hBlank.1).2.2.1 rfl
  rw [atomWithin]
  refine Reads.bind_of_nil (reads_skipSpace_nil rfl) ?_
  rw [reads_next_bind, reads_current_bind]
  simp only [List.cons_append, List.append_assoc,
    List.tail_cons, List.head?_cons]
  rw [if_neg hNotEq]
  exact (hAfter.bind_pure Filter.not).advance_bind '!'

end Atom

------------------------------------------------------------
-- Parts and Whole Filters
------------------------------------------------------------

/- The text of a filter as a part of another one. -/
def partText (f : Filter) : List Char :=
  if f.isCompound then bracket f.text else f.text

/- Joined parts stand in brackets. -/
theorem partText_of_isCompound
    {f : Filter}
    (hf : f.isCompound = true) :
    f.partText = bracket f.text := by
  rw [partText, if_pos hf]

/- No other part needs them. -/
theorem partText_of_isCompound_eq_false
    {f : Filter}
    (hf : f.isCompound = false) :
    f.partText = f.text := by
  rw [partText, hf, if_neg Bool.false_ne_true]

theorem length_bracket (cs : List Char) :
    (bracket cs).length = cs.length + 2 := by
  simp [bracket]

/- Both parts stand beside the keyword `and`. -/
theorem text_and (a b : Filter) :
    (Filter.and a b).text =
      a.partText ++
        (' ' :: (Keyword.and.text.toList ++
          (' ' :: b.partText))) := by
  simp [text, partText, Keyword.text]

/- Both parts stand beside the keyword `or`. -/
theorem text_or (a b : Filter) :
    (Filter.or a b).text =
      a.partText ++
        (' ' :: (Keyword.or.text.toList ++
          (' ' :: b.partText))) := by
  simp [text, partText, Keyword.text]

/- The text of a part starts at once. -/
theorem head_partText
    (f : Filter)
    (more : List Char) :
    (f.partText ++ more).head?.all (fun c => !isSpace c) =
      true := by
  cases f with
  | all => rfl
  | has path => exact head_pathText path more
  | missing path => rfl
  | cmp path op v =>
      change
        ((path.text ++ op.symbol.toList ++ v.textIn .filter) ++
          more).head?.all _ = true
      rw [List.append_assoc, List.append_assoc]
      exact head_pathText path _
  | like path pattern =>
      change
        ((path.text ++ likeSymbol pattern.ignoreCase ++
          Zinc.quote pattern.source.toList) ++
            more).head?.all _ = true
      rw [List.append_assoc, List.append_assoc]
      exact head_pathText path _
  | and a b => rfl
  | or a b => rfl
  | not a => rfl

/- So does that of a whole filter. -/
theorem head_text
    (f : Filter)
    (more : List Char) :
    (f.text ++ more).head?.all (fun c => !isSpace c) =
      true := by
  cases f with
  | and a b =>
      rw [text_and, List.append_assoc]
      exact a.head_partText _
  | or a b =>
      rw [text_or, List.append_assoc]
      exact a.head_partText _
  | all => exact head_partText .all more
  | has path => exact head_partText (.has path) more
  | missing path => exact head_partText (.missing path) more
  | cmp path op v =>
      exact head_partText (.cmp path op v) more
  | like path pattern =>
      exact head_partText (.like path pattern) more
  | not a => exact head_partText (.not a) more

/- A part of a filter is read, up to the end of a part. -/
def ReadsPart
    (zones : ZoneTable)
    (f : Filter) : Prop :=
  ∀ bound rest,
    f.partText.length ≤ bound.length → EndsPart rest →
      ReadsLoosely (atomWithin zones bound) f.partText
        (f.asRead zones) rest

/- The whole filter ends before this text. -/
def endsFilter (rest : List Char) : Bool :=
  rest.head?.all (· = ')')

/- A filter is read, up to a bracket or the end. -/
def ReadsWhole
    (zones : ZoneTable)
    (f : Filter) : Prop :=
  ∀ bound rest,
    f.text.length ≤ bound.length → endsFilter rest = true →
      ReadsLoosely (anyOf (atomWithin zones bound)) f.text
        (f.asRead zones) rest

/- Where a filter ends, its last part does. -/
theorem endsPart_of_endsFilter
    {rest : List Char}
    (hRest : endsFilter rest = true) :
    EndsPart rest := by
  cases rest with
  | nil => exact .finish
  | cons c rest =>
      have hc : c = ')' := of_decide_eq_true hRest
      rw [hc]
      exact .close rest

/- No keyword comes at the end of a filter. -/
theorem notNext_of_endsFilter
    {rest : List Char}
    (hRest : endsFilter rest = true)
    (word : Keyword) :
    NotNext word rest := by
  cases rest with
  | nil => exact Option.some_ne_none _ |>.symm
  | cons c rest =>
      have hc : c = ')' := of_decide_eq_true hRest
      rw [hc]
      change some ')' ≠ _
      cases word <;> decide

section Reading

variable {zones : ZoneTable}
variable {a b f : Filter}
variable {rest : List Char}

/- In brackets a filter is read whatever follows. -/
theorem reads_bracket
    (hf : f.ReadsWhole zones)
    (x : Char)
    {bound : List Char}
    (hBound : f.text.length ≤ bound.length)
    (rest : List Char) :
    Reads (atomWithin zones (x :: bound)) (bracket f.text)
      (f.asRead zones) rest := by
  have hReads :
      Reads (atomWithin zones (x :: bound))
        ('(' :: ([] ++ (f.text ++ ([] ++ [')']))))
        (f.asRead zones) rest :=
    reads_inBrackets x rfl rfl f.head_text
      (hf bound (')' :: rest) hBound rfl)
  exact hReads

/- A filter that is not joined is a part as it stands. -/
theorem readsWhole_of_readsPart
    (hf : f.isCompound = false)
    (hPart : f.ReadsPart zones) :
    f.ReadsWhole zones := by
  intro bound rest hBound hRest
  have hText := partText_of_isCompound_eq_false hf
  have hReads :=
    hPart bound rest (by rwa [hText])
      (endsPart_of_endsFilter hRest)
  rw [hText] at hReads
  exact
    readsLoosely_chain_single
      (readsLoosely_chain_single hReads
        (notNext_of_endsFilter hRest .and))
      (notNext_of_endsFilter hRest .or)

/- A filter that is joined is a part in brackets. -/
theorem readsPart_of_readsWhole
    (hf : f.isCompound = true)
    (hWhole : f.ReadsWhole zones) :
    f.ReadsPart zones := by
  intro bound rest hBound _
  rw [partText_of_isCompound hf] at hBound ⊢
  rw [length_bracket] at hBound
  cases bound with
  | nil => simp at hBound
  | cons x bound =>
      refine (reads_bracket hWhole x ?_ rest).loosely
      rw [List.length_cons] at hBound
      omega

/- Two parts with `and` between them are read. -/
theorem readsWhole_and
    (ha : a.ReadsPart zones)
    (hb : b.ReadsPart zones) :
    (Filter.and a b).ReadsWhole zones := by
  intro bound rest hBound hRest
  rw [text_and] at hBound ⊢
  simp only [List.length_append, List.length_cons] at hBound
  refine
    readsLoosely_chain_single ?_
      (notNext_of_endsFilter hRest .or)
  change
    ReadsLoosely _ _
      (join .and (a.asRead zones) (b.asRead zones)) rest
  refine
    readsLoosely_chain_pair
      (ha bound _ (by omega) ?_)
      (hb bound rest (by omega)
        (endsPart_of_endsFilter hRest))
      b.head_partText (notNext_of_endsFilter hRest .and)
  exact .word .and _

/- Two parts with `or` between them are read. -/
theorem readsWhole_or
    (ha : a.ReadsPart zones)
    (hb : b.ReadsPart zones) :
    (Filter.or a b).ReadsWhole zones := by
  intro bound rest hBound hRest
  rw [text_or] at hBound ⊢
  simp only [List.length_append, List.length_cons] at hBound
  change
    ReadsLoosely _ _
      (join .or (a.asRead zones) (b.asRead zones)) rest
  refine
    readsLoosely_chain_pair
      (readsLoosely_chain_single
        (ha bound _ (by omega) ?_) ?_)
      (readsLoosely_chain_single
        (hb bound rest (by omega)
          (endsPart_of_endsFilter hRest))
        (notNext_of_endsFilter hRest .and))
      b.head_partText (notNext_of_endsFilter hRest .or)
  · exact .word .or _
  · change some 'o' ≠ some 'a'
    decide

/- Where no filter is joined a condition is read. -/
theorem readsPart_of_predicate
    (hf : f.isCompound = false)
    (hStart : ∀ more,
      (f.text ++ more).head?.any isTagStart = true)
    (hReads : ∀ rest, EndsPart rest →
      ReadsLoosely (predicate zones) f.text (f.asRead zones)
        rest) :
    f.ReadsPart zones := by
  intro bound rest _ hRest
  rw [partText_of_isCompound_eq_false hf]
  exact
    readsLoosely_atom_of_predicate (hStart rest)
      (hReads rest hRest)

/- The text of a path starts with the letter of a name. -/
theorem start_pathText
    (path : Path)
    (more : List Char) :
    (path.text ++ more).head?.any isTagStart = true := by
  rcases exists_cons_text path with ⟨c, cs, hText, hc⟩
  simp [hText, hc]

/- After `!` there is a whole filter in brackets. -/
theorem readsPart_not
    (ha : a.ReadsWhole zones) :
    (Filter.not a).ReadsPart zones := by
  intro bound rest hBound _
  change ('!' :: bracket a.text).length ≤ _ at hBound
  change
    ReadsLoosely _ ('!' :: ([] ++ bracket a.text))
      (Filter.not (a.asRead zones)) rest
  refine
    readsLoosely_not rfl (List.cons_ne_nil _ _) rfl
      (fun h => ?_) hBound ?_
  · cases h
  · intro y bound hShort
    refine (reads_bracket ha y ?_ rest).loosely
    rw [length_bracket, List.length_cons] at hShort
    omega

/- A filter is read, as a part and as a whole. -/
theorem readsPart_and_readsWhole
    (hf : f.IsReadable zones)
    (hText : f.HasLegibleText) :
    f.ReadsPart zones ∧ f.ReadsWhole zones := by
  -- A joined filter is read as a whole first, and as a part
  -- in its brackets. All others go the other way round.
  induction f with
  | all =>
      have hPart : ReadsPart zones .all := by
        intro bound rest hBound _
        cases bound with
        | nil => cases hBound
        | cons x bound => exact (reads_star x rest).loosely
      exact ⟨hPart, readsWhole_of_readsPart rfl hPart⟩
  | has path =>
      have hPart : ReadsPart zones (.has path) :=
        readsPart_of_predicate rfl (start_pathText path)
          (fun _ hRest =>
            readsLoosely_has hf hRest.endsCondition)
      exact ⟨hPart, readsWhole_of_readsPart rfl hPart⟩
  | missing path =>
      have hPart : ReadsPart zones (.missing path) :=
        readsPart_of_predicate rfl (fun _ => rfl)
          (fun _ hRest =>
            (reads_missing isGap_space hRest.endsPath).loosely)
      exact ⟨hPart, readsWhole_of_readsPart rfl hPart⟩
  | cmp path op v =>
      have hPart : ReadsPart zones (.cmp path op v) := by
        refine readsPart_of_predicate rfl ?_ ?_
        · intro more
          simp only [text, List.append_assoc]
          exact start_pathText path _
        · intro rest hRest
          exact readsLoosely_cmp hf.1 op hf.2 hText hRest
      exact ⟨hPart, readsWhole_of_readsPart rfl hPart⟩
  | like path pattern =>
      have hPart : ReadsPart zones (.like path pattern) := by
        refine readsPart_of_predicate rfl ?_ ?_
        · intro more
          simp only [text, List.append_assoc]
          exact start_pathText path _
        · intro rest _
          exact (reads_like hf pattern rest).loosely
      exact ⟨hPart, readsWhole_of_readsPart rfl hPart⟩
  | and a b iha ihb =>
      have hWhole : ReadsWhole zones (.and a b) :=
        readsWhole_and (iha hf.1 hText.1).1
          (ihb hf.2 hText.2).1
      exact ⟨readsPart_of_readsWhole rfl hWhole, hWhole⟩
  | or a b iha ihb =>
      have hWhole : ReadsWhole zones (.or a b) :=
        readsWhole_or (iha hf.1 hText.1).1
          (ihb hf.2 hText.2).1
      exact ⟨readsPart_of_readsWhole rfl hWhole, hWhole⟩
  | not a ih =>
      have hPart : ReadsPart zones (.not a) :=
        readsPart_not (ih hf hText).2
      exact ⟨hPart, readsWhole_of_readsPart rfl hPart⟩

end Reading

/- A text is a filter with any spaces around it. -/
theorem parse_of_readsLoosely
    {before cs after : List Char}
    {f : Filter}
    (hBefore : before.all isSpace = true)
    (hAfter : after.all isSpace = true)
    (hHead : ∀ more,
      (cs ++ more).head?.all (fun c => !isSpace c) = true)
    (hReads :
      ReadsLoosely (anyOf (atomWithin .builtin (cs ++ after)))
        cs f after) :
    parse (String.ofList (before ++ (cs ++ after))) =
      .ok f := by
  have hBounded :
      ReadsLoosely
        (fun c => anyOf (atomWithin .builtin c.rest) c) cs f
        (after ++ ([] ++ [])) := by
    rw [List.append_nil, List.append_nil]
    rcases hReads with ⟨blank, behind, rfl, hBlank, hInner⟩
    refine ⟨blank, behind, rfl, hBlank, ?_⟩
    intro line
    have hLine := hInner line
    rw [List.append_assoc] at hLine ⊢
    exact hLine
  have hScan :
      Reads (scan .builtin) (before ++ (cs ++ (after ++ []))) f
        [] := by
    unfold scan
    refine Reads.bind (reads_skipSpace hBefore ?_) ?_
    · rw [List.append_assoc]
      exact hHead _
    refine hBounded.bind_skipSpace hAfter rfl ?_
    exact reads_finish.bind_last (reads_pure f [])
  rw [List.append_nil] at hScan
  exact hScan.readAll_eq

/- The text of a filter is read as what it stands for. -/
theorem parse_text
    {f : Filter}
    (hf : f.IsReadable .builtin)
    (hText : f.HasLegibleText) :
    parse (String.ofList f.text) =
      .ok (f.asRead .builtin) := by
  have hWhole := (readsPart_and_readsWhole hf hText).2
  have hParse :
      parse (String.ofList ([] ++ (f.text ++ []))) =
        .ok (f.asRead .builtin) := by
    refine parse_of_readsLoosely rfl rfl f.head_text ?_
    refine hWhole _ [] ?_ rfl
    rw [List.append_nil]
  rwa [List.nil_append, List.append_nil] at hParse

end Filter

end Haystack
