import Haystack.Proofs.Zinc.Enclosed

/-
  This file shows that words and references are read back,
  and what may follow a value so that its reader stops.

  Key definitions include:
    * `Zinc.isCloser`
    * `Zinc.EndsValue`
    * `Zinc.EndsLine`

  Main declarations:
    * `Zinc.reads_word`
    * `Zinc.reads_ref_labelled`
    * `Zinc.readsLoosely_ref_plain`
-/

namespace Haystack

theorem Ref.all_isIdChar_id (r : Ref) :
    r.id.toList.all isIdChar = true := by
  have hValid := r.valid
  rw [isRefId, Bool.and_eq_true] at hValid
  exact hValid.2

namespace Zinc

open Scan

------------------------------------------------------------
-- What Follows a Value
------------------------------------------------------------

/- The characters that no literal goes on with. -/
def isCloser (c : Char) : Bool :=
  isSpace c || c = ',' || c = '\n' || c = ')'

/-
  A value ends before this text. A quote, even after spaces,
  would be the label of a reference.
-/
structure EndsValue (rest : List Char) : Prop where
  closer : rest.head?.all isCloser = true
  unlabelled :
    (rest.dropWhile isSpace).head? ≠ some '"'

/- At the end of a text a value ends. -/
theorem endsValue_nil : EndsValue [] :=
  ⟨rfl, by decide⟩

/- A value ends before a comma, a line end or a bracket. -/
theorem endsValue_cons
    {c : Char}
    (hc : isCloser c = true)
    (hSpace : isSpace c = false)
    (rest : List Char) :
    EndsValue (c :: rest) := by
  refine ⟨by simpa using hc, ?_⟩
  rw [List.dropWhile_cons, hSpace]
  rintro hQuote
  cases hQuote
  cases hc

/- A value ends before a space and anything but a quote. -/
theorem endsValue_space
    {c : Char}
    (hQuote : c ≠ '"')
    (hSpace : isSpace c = false)
    (rest : List Char) :
    EndsValue (' ' :: c :: rest) := by
  refine ⟨rfl, ?_⟩
  rw [List.dropWhile_cons, List.dropWhile_cons, hSpace]
  simpa [isSpace] using hQuote

/- Spaces may come before the text that a value ends before. -/
theorem EndsValue.after_blank
    {blank rest : List Char}
    (hRest : EndsValue rest)
    (hBlank : blank.all isSpace = true) :
    EndsValue (blank ++ rest) := by
  constructor
  · cases blank with
    | nil => exact hRest.closer
    | cons c blank =>
        rw [List.all_cons, Bool.and_eq_true] at hBlank
        simp [isCloser, hBlank.1]
  · rw [List.dropWhile_append_of_pos (by simpa using hBlank)]
    exact hRest.unlabelled

/- A closer is in no class of characters of literals. -/
theorem EndsValue.head_all
    {rest : List Char}
    (hRest : EndsValue rest)
    (p : Char → Bool)
    (hp : ∀ c, isCloser c = true → p c = true) :
    rest.head?.all p = true := by
  have hCloser := hRest.closer
  cases rest with
  | nil => rfl
  | cons c rest => exact hp c hCloser

/- A line ends before its line end or where the text ends. -/
def EndsLine (rest : List Char) : Prop :=
  rest.head?.all (· = '\n') = true

theorem EndsLine.eq_nil_or_cons
    {rest : List Char}
    (hRest : EndsLine rest) :
    rest = [] ∨ ∃ more, rest = '\n' :: more := by
  cases rest with
  | nil => exact Or.inl rfl
  | cons c more =>
      have hc : c = '\n' := by
        simpa [EndsLine] using hRest
      exact Or.inr ⟨more, by rw [hc]⟩

/- The end of a line ends a value. -/
theorem EndsLine.endsValue
    {rest : List Char}
    (hRest : EndsLine rest) :
    EndsValue rest := by
  rcases hRest.eq_nil_or_cons with rfl | ⟨more, rfl⟩
  · exact endsValue_nil
  · exact endsValue_cons rfl rfl more

/- There are five closers. -/
theorem eq_of_isCloser
    {c : Char}
    (hc : isCloser c = true) :
    c = ' ' ∨ c = '\t' ∨ c = ',' ∨ c = '\n' ∨ c = ')' := by
  simp only [isCloser, isSpace, Bool.or_eq_true,
    decide_eq_true_eq] at hc
  tauto

------------------------------------------------------------
-- Words
------------------------------------------------------------

/- What a word with no special number means in a place. -/
def wordIn : Dialect → String → Scan (Option Value)
| .zinc => cellWord
| .filter => filterWord

/- A word is read up to the first other character. -/
theorem reads_word
    {dialect : Dialect}
    (c : Char)
    (letters : List Char)
    {more rest : List Char}
    {v : Option Value}
    (hLetters : letters.all isAlpha = true)
    (hHead :
      (more ++ rest).head?.all (fun c => !isAlpha c) = true)
    (hPlain :
      specialNumber? (String.ofList (c :: letters)) = none)
    (hMeaning :
      Reads (wordIn dialect (String.ofList (c :: letters)))
        more v rest) :
    Reads (word dialect) (c :: (letters ++ more)) v rest := by
  unfold word
  rw [reads_current_bind]
  refine Reads.advance_bind ?_ c
  apply Reads.bind (reads_span hLetters hHead)
  simp only [List.cons_append, List.head?_cons,
    Option.toList_some, List.nil_append, hPlain]
  cases dialect <;> exact hMeaning

/- A special number is read in any place. -/
theorem reads_word_special
    (dialect : Dialect)
    (c : Char)
    (letters : List Char)
    {rest : List Char}
    {x : Binary64}
    (hLetters : letters.all isAlpha = true)
    (hHead :
      rest.head?.all (fun c => !isAlpha c) = true)
    (hSpecial :
      specialNumber? (String.ofList (c :: letters)) =
        some x) :
    Reads (word dialect) (c :: letters)
      (some (.number (.plain x))) rest := by
  unfold word
  rw [reads_current_bind]
  refine Reads.advance_bind ?_ c
  apply Reads.bind_last (reads_span hLetters hHead)
  simp only [List.cons_append, List.head?_cons,
    Option.toList_some, List.nil_append, hSpecial]
  exact reads_pure _ rest

/- What starts with a letter is a word. -/
theorem reads_value_word
    (zones : ZoneTable)
    {dialect : Dialect}
    {c : Char}
    {cs rest : List Char}
    {v : Option Value}
    (hc : isAlpha c = true)
    (hDigit : isDigit c = false)
    (hWord : Reads (word dialect) (c :: cs) v rest) :
    Reads (value zones dialect) (c :: cs) v rest := by
  unfold value
  rw [reads_current_bind]
  simp only [List.cons_append, List.head?_cons, hDigit, hc]
  rw [reads_next_bind]
  exact hWord

------------------------------------------------------------
-- References
------------------------------------------------------------

/- The id of a reference makes it again. -/
theorem ofText_id
    (r : Ref)
    (dis : Option String) :
    Ref.ofText r.id dis = .ok { r with dis := dis } := by
  rw [Ref.ofText, dif_pos r.valid]

/- What closes a value is not a character of an id. -/
theorem isIdChar_of_isCloser
    {c : Char}
    (hc : isCloser c = true) :
    isIdChar c = false := by
  rcases eq_of_isCloser hc with
    rfl | rfl | rfl | rfl | rfl <;> rfl

/- A reference with a label ends with the quote. -/
theorem reads_ref_labelled
    (r : Ref)
    (dis : String)
    (rest : List Char) :
    Reads ref
      (['@'] ++ r.id.toList ++ ([' '] ++ quote dis.toList))
      { r with dis := some dis } rest := by
  have hId := r.all_isIdChar_id
  unfold ref
  change
    Reads _
      ('@' :: (r.id.toList ++ ([' '] ++ quote dis.toList))) _
      rest
  refine Reads.advance_bind ?_ '@'
  apply Reads.bind (reads_span hId rfl)
  apply Reads.bind (reads_skipSpace rfl rfl)
  rw [reads_current_bind]
  change
    Reads
      (quoted >>= fun dis =>
        construct
          (orValueError
            (Ref.ofText (String.ofList r.id.toList)
              (some dis))))
      (quote dis.toList) _ rest
  apply (reads_quoted_quote dis.toList rest).bind_last
  rw [String.ofList_toList, String.ofList_toList, ofText_id]
  exact reads_pure _ rest

/-
  Without a label the reader looks behind spaces for one, and
  stays there.
-/
theorem readsLoosely_ref_plain
    (r : Ref)
    {rest : List Char}
    (hRest : EndsValue rest) :
    ReadsLoosely ref (['@'] ++ r.id.toList)
      { r with dis := none } rest := by
  have hId := r.all_isIdChar_id
  have hSplit :=
    List.takeWhile_append_dropWhile
      (p := isSpace) (l := rest)
  refine
    ⟨rest.takeWhile isSpace, rest.dropWhile isSpace,
      hSplit.symm, List.all_takeWhile, ?_⟩
  have hHead :
      (rest.dropWhile isSpace).head?.all
        (fun c => !isSpace c) = true := by
    have hNot :=
      List.head?_dropWhile_not isSpace rest
    cases hDrop : (rest.dropWhile isSpace).head? with
    | none => rfl
    | some c =>
        rw [hDrop] at hNot
        simpa using hNot
  unfold ref
  change
    Reads _
      ('@' :: (r.id.toList ++ rest.takeWhile isSpace)) _ _
  refine Reads.advance_bind ?_ '@'
  refine Reads.bind (reads_span hId ?_) ?_
  · rw [hSplit]
    apply hRest.head_all _
    intro c hc
    rw [isIdChar_of_isCloser hc]
    rfl
  refine
    (reads_skipSpace List.all_takeWhile hHead).bind_last ?_
  rw [reads_current_bind, List.nil_append,
    if_neg hRest.unlabelled, String.ofList_toList,
    ofText_id]
  exact reads_pure _ _

end Zinc

end Haystack
