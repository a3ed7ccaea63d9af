import Haystack.Proofs.Filter.Predicates
import Haystack.Proofs.Zinc.Alphabets
import Haystack.Proofs.Zinc.GivenValues

/-
  This file shows how conditions on one path are spelled: in
  words without brackets and marks, with no space behind the
  last letter of a keyword, and at most one text in marks at
  the end. Hence the end of a text shows where the condition
  at this end starts.

  Key definitions include:
    * `IsTight`
    * `KeepsMark`
    * `Filter.IsCondition`
    * `Filter.StartsPart`

  Main declarations:
    * `Filter.isCondition_text`
    * `Filter.IsCondition.start_unique`
-/

namespace Haystack

------------------------------------------------------------
-- Words
------------------------------------------------------------

/- The character is no bracket, no space and no mark. -/
def isWordChar (c : Char) : Bool :=
  c ∉ ['(', ')', ' ', '"', '`', '\\']

theorem all_isWordChar_of
    {p : Char → Bool}
    {cs : List Char}
    (hp : ['(', ')', ' ', '"', '`', '\\'].all
      (fun c => !p c) = true)
    (hcs : cs.all p = true) :
    cs.all isWordChar = true :=
  all_not_mem_of hp hcs

/- Numbers, dates and times are written as words. -/
theorem Number.all_isWordChar_text (n : Number) :
    n.text.all isWordChar = true :=
  all_isWordChar_of rfl n.all_isNumberChar_text

theorem Date.all_isWordChar_text (d : Date) :
    d.text.all isWordChar = true :=
  all_isWordChar_of rfl d.all_isDateChar_text

theorem Time.all_isWordChar_text (t : Time) :
    t.text.all isWordChar = true :=
  all_isWordChar_of rfl t.all_isTimeChar_text

theorem DateTime.all_isWordChar_offsetText (offset : Int) :
    (offsetText offset).all isWordChar = true :=
  all_isWordChar_of rfl (all_isOffsetChar_offsetText offset)

------------------------------------------------------------
-- Words with at Most One Space
------------------------------------------------------------

/-
  A word, or two with a space between them that is not behind
  the last letter of a keyword.
-/
inductive IsTight : List Char → Prop where
| word
    {cs : List Char}
    (hNe : cs ≠ [])
    (hcs : cs.all isWordChar = true) :
    IsTight cs
| pair
    {cs ds : List Char}
    {c : Char}
    (hcs : cs.all isWordChar = true)
    (hc : isWordChar c = true)
    (hEnd : c ≠ 'd' ∧ c ≠ 'r')
    (hNe : ds ≠ [])
    (hds : ds.all isWordChar = true) :
    IsTight (cs ++ c :: ' ' :: ds)

/- A word before a tight text leaves it tight. -/
theorem IsTight.prepend
    {cs ds : List Char}
    (hcs : cs.all isWordChar = true)
    (hds : IsTight ds) :
    IsTight (cs ++ ds) := by
  cases hds with
  | word hNe hds =>
      refine .word (by simp [hNe]) ?_
      rw [List.all_append, hcs, hds]
      rfl
  | pair hFirst hc hEnd hNe hds =>
      rw [← List.append_assoc]
      refine .pair ?_ hc hEnd hNe hds
      rw [List.all_append, hcs, hFirst]
      rfl

/- No bracket opens in a tight text. -/
theorem IsTight.open_not_mem
    {cs : List Char}
    (hcs : IsTight cs) :
    '(' ∉ cs := by
  cases hcs with
  | word hNe hcs => exact not_mem_of_all rfl hcs
  | @pair cs ds c hcs hc hEnd hNe hds =>
      have hFirst := not_mem_of_all (c := '(') rfl hcs
      have hLast := not_mem_of_all (c := '(') rfl hds
      have hMiddle : '(' ≠ c := by
        rintro rfl
        cases hc
      simp [hFirst, hLast, hMiddle]

/- What is before the space in such a text. -/
theorem IsTight.before_space
    {cs ds : List Char}
    (h : IsTight (cs ++ ' ' :: ds)) :
    ∃ before c,
      cs = before ++ [c] ∧ c ≠ 'd' ∧ c ≠ 'r' := by
  generalize hText : cs ++ ' ' :: ds = text at h
  cases h with
  | word hNe hAll =>
      have hNot := not_mem_of_all (c := ' ') rfl hAll
      simp [← hText] at hNot
  | @pair before after c hBefore hc hEnd hNe hAfter =>
      have hSpace : ' ' ∉ before ++ [c] := by
        refine not_mem_of_all (p := isWordChar) rfl ?_
        simp [List.all_append, hBefore, hc]
      have hSplit :
          (before ++ [c]) ++ ' ' :: after = cs ++ ' ' :: ds := by
        simp [hText]
      rw [List.append_cons_inj_of_notMem hSpace
        (not_mem_of_all rfl hAfter)] at hSplit
      exact ⟨before, c, hSplit.1.symm, hEnd⟩

theorem exists_concat_of_all_isWordChar
    {cs : List Char}
    (hNe : cs ≠ [])
    (hcs : cs.all isWordChar = true) :
    ∃ before c,
      cs = before ++ [c] ∧ isWordChar c = true := by
  rcases List.eq_nil_or_concat cs with rfl | ⟨before, c, rfl⟩
  · exact absurd rfl hNe
  · rw [List.concat_eq_append, List.all_append,
      Bool.and_eq_true] at hcs
    exact ⟨before, c, List.concat_eq_append, by simpa using hcs.2⟩

/- Such a text ends within a word. -/
theorem IsTight.exists_concat
    {cs : List Char}
    (hcs : IsTight cs) :
    ∃ before c,
      cs = before ++ [c] ∧ isWordChar c = true := by
  cases hcs with
  | word hNe hcs => exact exists_concat_of_all_isWordChar hNe hcs
  | @pair cs ds c hcs hc hEnd hNe hds =>
      rcases exists_concat_of_all_isWordChar hNe hds with
        ⟨before, d, rfl, hd⟩
      exact ⟨cs ++ c :: ' ' :: before, d, by simp, hd⟩

/- Words and marks end differently. -/
theorem IsTight.ne_marked
    {before before' cs inner : List Char}
    {mark : Char}
    (hcs : IsTight cs)
    (hMark : mark = '"' ∨ mark = '`') :
    before ++ cs ≠ before' ++ mark :: (inner ++ [mark]) := by
  intro h
  rcases hcs.exists_concat with ⟨xs, c, rfl, hc⟩
  have hSplit :
      (before ++ xs) ++ [c] =
        (before' ++ mark :: inner) ++ [mark] := by
    simpa using h
  rw [List.append_singleton_inj] at hSplit
  rw [hSplit.2] at hc
  rcases hMark with rfl | rfl <;> cases hc

/- Words do not end in a backslash. -/
theorem IsTight.ne_backslash
    {cs : List Char}
    (hcs : IsTight cs)
    (before others : List Char) :
    before ++ cs ≠ others ++ ['\\'] := by
  intro h
  rcases hcs.exists_concat with ⟨xs, c, rfl, hc⟩
  rw [← List.append_assoc, List.append_singleton_inj] at h
  rw [h.2] at hc
  cases hc

/- An offset ends in a digit, or it is a `Z`. -/
theorem DateTime.exists_concat_offsetText (offset : Int) :
    ∃ before c,
      offsetText offset = before ++ [c] ∧
        c ≠ 'd' ∧ c ≠ 'r' := by
  have hDigits (n : Nat) :
      ∃ before c, paddedText 2 n = before ++ [c] ∧
        c ≠ 'd' ∧ c ≠ 'r' := by
    have hAll := all_isDigit_paddedText 2 n
    rcases List.eq_nil_or_concat (paddedText 2 n) with
      hNil | ⟨before, c, hText⟩
    · exact absurd hNil (paddedText_ne_nil 2 n)
    · rw [hText, List.concat_eq_append, List.all_append,
        Bool.and_eq_true] at hAll
      have hc : isDigit c = true := by simpa using hAll.2
      refine ⟨before, c, by simp [hText], ?_, ?_⟩ <;>
        exact NumeralParts.ne_of_isDigit hc rfl
  unfold offsetText
  dsimp only
  split_ifs
  · exact ⟨[], 'Z', rfl, by decide, by decide⟩
  all_goals
    rcases hDigits (offset.natAbs % 3600 / 60) with
      ⟨before, c, hText, hc⟩
    rw [hText, ← List.append_assoc]
    exact ⟨_, c, rfl, hc⟩

/- The name of the zone is behind the only space. -/
theorem DateTime.isTight_text
    {zones : ZoneTable}
    {x : DateTime}
    (hx : x.IsLegible zones) :
    IsTight x.text := by
  have hName := hx.1
  rw [isZoneName, Bool.and_eq_true] at hName
  have hNe : x.zone.name.toList ≠ [] := by
    intro hNil
    rw [hNil] at hName
    cases hName.1
  have hOffset := all_isWordChar_offsetText x.offset
  rcases exists_concat_offsetText x.offset with
    ⟨before, c, hText, hc⟩
  rw [hText, List.all_append, Bool.and_eq_true] at hOffset
  have hSplit :
      x.text =
        (x.date.text ++ 'T' :: (x.time.text ++ before)) ++
          c :: ' ' :: x.zone.name.toList := by
    simp [text, hText]
  have hMark : isWordChar 'T' = true := rfl
  rw [hSplit]
  refine .pair ?_ (by simpa using hOffset.2) hc hNe ?_
  · simp [List.all_append, x.date.all_isWordChar_text,
      x.time.all_isWordChar_text, hOffset.1, hMark]
  · exact all_isWordChar_of (p := isZoneChar) rfl hName.2

------------------------------------------------------------
-- Texts between Marks
------------------------------------------------------------

/- Each such mark in the text is behind a backslash. -/
def KeepsMark
    (mark : Char)
    (cs : List Char) : Prop :=
  ∀ before after, cs = before ++ mark :: after →
    ∃ others, before = others ++ ['\\']

theorem keepsMark_of_not_mem
    {mark : Char}
    {cs : List Char}
    (h : mark ∉ cs) :
    KeepsMark mark cs := by
  rintro before after rfl
  simp at h

/- Two texts keep a mark if both of them do. -/
theorem KeepsMark.append
    {mark : Char}
    {cs ds : List Char}
    (hcs : KeepsMark mark cs)
    (hds : KeepsMark mark ds) :
    KeepsMark mark (cs ++ ds) := by
  intro before after hEq
  rcases List.append_eq_append_iff.mp hEq with
    ⟨more, rfl, hRest⟩ | ⟨more, rfl, hRest⟩
  · rcases hds _ _ hRest with ⟨others, rfl⟩
    exact ⟨cs ++ others, by simp⟩
  · cases more with
    | nil =>
        rcases hds [] after hRest.symm with ⟨others, hNil⟩
        simp at hNil
    | cons c more =>
        cases hRest
        exact hcs before more rfl

/- What keeps a mark for each character keeps it for all. -/
theorem keepsMark_flatMap
    {mark : Char}
    {f : Char → List Char}
    (h : ∀ c, KeepsMark mark (f c))
    (cs : List Char) :
    KeepsMark mark (cs.flatMap f) := by
  induction cs with
  | nil => exact keepsMark_of_not_mem (by simp)
  | cons c cs ih =>
      rw [List.flatMap_cons]
      exact (h c).append ih

theorem keepsMark_escaped
    {mark : Char}
    (hMark : mark ≠ '\\') :
    KeepsMark mark ['\\', mark] := by
  intro before after hEq
  rcases before with _ | ⟨c, _ | ⟨d, before⟩⟩
  · exact absurd (List.cons.inj hEq).1.symm hMark
  · rw [← (List.cons.inj hEq).1]
    exact ⟨[], rfl⟩
  · simp at hEq

/- Between quotes each quote is escaped. -/
theorem keepsMark_quoted (cs : List Char) :
    KeepsMark '"' (cs.flatMap Zinc.escape) := by
  refine keepsMark_flatMap (fun c => ?_) cs
  unfold Zinc.escape
  split_ifs with hNewline hReturn hTab hQuote hBackslash
    hControl
  · exact keepsMark_of_not_mem (by decide)
  · exact keepsMark_of_not_mem (by decide)
  · exact keepsMark_of_not_mem (by decide)
  · exact keepsMark_escaped (by decide)
  · exact keepsMark_of_not_mem (by decide)
  · have hCodes : ∀ n < 32,
        '"' ∉ ['\\', 'u'] ++ hexText4 n := by
      decide +kernel
    exact keepsMark_of_not_mem (hCodes c.toNat hControl)
  · exact keepsMark_of_not_mem (by simpa [eq_comm] using hQuote)

/- Between backquotes each backquote is. -/
theorem keepsMark_address (cs : List Char) :
    KeepsMark '`' (cs.flatMap Uri.escape) := by
  refine keepsMark_flatMap (fun c => ?_) cs
  unfold Uri.escape
  split_ifs with hTick
  · exact keepsMark_escaped (by decide)
  · exact keepsMark_of_not_mem (by simpa [eq_comm] using hTick)

/- Behind what ends in a word the mark that opens is found. -/
theorem KeepsMark.eq_nil_of_append
    {mark : Char}
    {before more inner inner' : List Char}
    (hInner : KeepsMark mark inner)
    (hBefore : ∀ others, before ++ more ≠ others ++ ['\\'])
    (h : mark :: inner = more ++ mark :: inner') :
    more = [] := by
  cases more with
  | nil => rfl
  | cons c more =>
      cases h
      rcases hInner more inner' rfl with ⟨others, rfl⟩
      exact absurd (by simp) (hBefore (before ++ mark :: others))

/- So each of two texts with this mark at their end has it. -/
theorem KeepsMark.open_unique
    {mark : Char}
    {before before' inner inner' : List Char}
    (hInner : KeepsMark mark inner)
    (hInner' : KeepsMark mark inner')
    (hBefore : ∀ others, before ≠ others ++ ['\\'])
    (hBefore' : ∀ others, before' ≠ others ++ ['\\'])
    (h : before ++ mark :: inner = before' ++ mark :: inner') :
    before = before' := by
  rcases List.append_eq_append_iff.mp h with
    ⟨more, rfl, hRest⟩ | ⟨more, rfl, hRest⟩
  · rw [hInner.eq_nil_of_append hBefore' hRest,
      List.append_nil]
  · rw [hInner'.eq_nil_of_append hBefore hRest,
      List.append_nil]

namespace Filter

------------------------------------------------------------
-- Where Parts Start
------------------------------------------------------------

/- A whole filter may start behind this text. -/
def StartsFilter (before : List Char) : Prop :=
  before = [] ∨ ∃ others, before = others ++ ['(']

/- So may a part, which a keyword may stand before as well. -/
def StartsPart (before : List Char) : Prop :=
  StartsFilter before ∨
    ∃ others, ∃ word : Keyword,
      before = others ++ ' ' :: (word.text.toList ++ [' '])

/-
  Keywords end with letters that no filter may end before.
-/
theorem exists_concat_keyword (word : Keyword) :
    ∃ letters c,
      word.text.toList = letters ++ [c] ∧
        (c = 'd' ∨ c = 'r') := by
  cases word with
  | and => exact ⟨['a', 'n'], 'd', rfl, Or.inl rfl⟩
  | or => exact ⟨['o'], 'r', rfl, Or.inr rfl⟩

/- In a tight text no part starts but at the beginning. -/
theorem StartsPart.eq_nil_of_append
    {before more cs : List Char}
    (hStart : StartsPart (before ++ more))
    (hTight : IsTight (more ++ cs)) :
    more = [] := by
  rcases List.eq_nil_or_concat more with
    rfl | ⟨others, c, rfl⟩
  · rfl
  rw [List.concat_eq_append] at *
  rcases hStart with (hNil | ⟨xs, hEq⟩) | ⟨xs, word, hEq⟩
  · simp at hNil
  · rw [← List.append_assoc, List.append_singleton_inj] at hEq
    rw [hEq.2] at hTight
    exact absurd (by simp) hTight.open_not_mem
  · rcases exists_concat_keyword word with
      ⟨letters, d, hWord, hd⟩
    have hSplit :
        (before ++ others) ++ [c] =
          ((xs ++ ' ' :: letters) ++ [d]) ++ [' '] := by
      simpa [hWord] using hEq
    rw [List.append_singleton_inj] at hSplit
    rw [hSplit.2, List.append_assoc] at hTight
    rcases hTight.before_space with ⟨ys, e, rfl, he⟩
    have hLetter := hSplit.1
    rw [← List.append_assoc, List.append_singleton_inj]
      at hLetter
    rw [hLetter.2] at he
    rcases hd with hd | hd
    · exact absurd hd he.1
    · exact absurd hd he.2

/- The start of such a text shows where others may start. -/
theorem StartsPart.start_unique
    {before before' cs cs' : List Char}
    (hBefore : StartsPart before)
    (hBefore' : StartsPart before')
    (hcs : IsTight cs)
    (hcs' : IsTight cs')
    (h : before ++ cs = before' ++ cs') :
    before = before' := by
  rcases List.append_eq_append_iff.mp h with
    ⟨more, rfl, rfl⟩ | ⟨more, rfl, rfl⟩
  · rw [hBefore'.eq_nil_of_append hcs, List.append_nil]
  · rw [hBefore.eq_nil_of_append hcs', List.append_nil]

------------------------------------------------------------
-- Conditions
------------------------------------------------------------

/-
  The text has the form of a condition: words, and perhaps a
  text between marks behind them.
-/
inductive IsCondition : List Char → Prop where
| words
    {cs : List Char}
    (hcs : IsTight cs) :
    IsCondition cs
| marked
    {cs inner : List Char}
    {mark : Char}
    (hcs : IsTight cs)
    (hMark : mark = '"' ∨ mark = '`')
    (hInner : KeepsMark mark inner) :
    IsCondition (cs ++ mark :: (inner ++ [mark]))

/- No condition ends with a bracket. -/
theorem IsCondition.exists_concat
    {cs : List Char}
    (hcs : IsCondition cs) :
    ∃ before c, cs = before ++ [c] ∧ c ≠ ')' := by
  cases hcs with
  | words hcs =>
      rcases hcs.exists_concat with ⟨before, c, rfl, hc⟩
      refine ⟨before, c, rfl, ?_⟩
      rintro rfl
      cases hc
  | @marked cs inner mark hcs hMark hInner =>
      refine ⟨cs ++ mark :: inner, mark, by simp, ?_⟩
      rcases hMark with rfl | rfl <;> decide

/-
  The end of a text shows where the condition at this end
  starts.
-/
theorem IsCondition.start_unique
    {before before' cs cs' : List Char}
    (hBefore : StartsPart before)
    (hBefore' : StartsPart before')
    (hcs : IsCondition cs)
    (hcs' : IsCondition cs')
    (h : before ++ cs = before' ++ cs') :
    before = before' := by
  cases hcs with
  | words hcs =>
      cases hcs' with
      | words hcs' =>
          exact hBefore.start_unique hBefore' hcs hcs' h
      | @marked ds inner mark hds hMark hInner =>
          rw [← List.append_assoc] at h
          exact absurd h (hcs.ne_marked hMark)
  | @marked cs inner mark hcs hMark hInner =>
      cases hcs' with
      | words hcs' =>
          rw [← List.append_assoc] at h
          exact absurd h.symm (hcs'.ne_marked hMark)
      | @marked ds inner' mark' hds hMark' hInner' =>
          have hSplit :
              ((before ++ cs) ++ mark :: inner) ++ [mark] =
                ((before' ++ ds) ++ mark' :: inner') ++
                  [mark'] := by
            simpa using h
          rw [List.append_singleton_inj] at hSplit
          rcases hSplit with ⟨hRest, rfl⟩
          have hWords :=
            hInner.open_unique hInner' (hcs.ne_backslash before)
              (hds.ne_backslash before') hRest
          exact hBefore.start_unique hBefore' hcs hds hWords

------------------------------------------------------------
-- Conditions on One Path
------------------------------------------------------------

/- A literal is spelled in words or between marks. -/
theorem isCondition_textIn
    {zones : ZoneTable}
    {words : List Char}
    {v : Value}
    (hNe : words ≠ [])
    (hWords : words.all isWordChar = true)
    (hv : v.IsReadable zones .filter) :
    IsCondition (words ++ v.textIn .filter) := by
  have hWord {cs : List Char}
      (hcs : cs.all isWordChar = true) :
      IsCondition (words ++ cs) := by
    refine .words (.word (by simp [hNe]) ?_)
    rw [List.all_append, hWords, hcs]
    rfl
  cases v with
  | bool b => cases b <;> exact hWord rfl
  | number n =>
      simpa [Value.textIn, Value.text] using
        hWord n.all_isWordChar_text
  | str text =>
      simpa [Value.textIn, Value.text, Zinc.quote] using
        IsCondition.marked (.word hNe hWords) (Or.inl rfl)
          (keepsMark_quoted text.toList)
  | uri u =>
      simpa [Value.textIn, Value.text, Uri.text] using
        IsCondition.marked (.word hNe hWords) (Or.inr rfl)
          (keepsMark_address u.address.toList)
  | date d =>
      simpa [Value.textIn, Value.text] using
        hWord d.all_isWordChar_text
  | time t =>
      simpa [Value.textIn, Value.text] using
        hWord t.all_isWordChar_text
  | dateTime x =>
      have hTight := (DateTime.isTight_text hv).prepend hWords
      simpa [Value.textIn, Value.text] using
        IsCondition.words hTight
  | ref r =>
      have hId := all_isWordChar_of rfl r.all_isIdChar_id
      refine hWord ?_
      rw [Value.textIn, List.all_append, hId]
      rfl
  | _ => cases hv

theorem all_isWordChar_pathText (path : Path) :
    path.text.all isWordChar = true :=
  all_isWordChar_of rfl path.all_isPathChar_text

theorem all_isWordChar_symbol (op : Operator) :
    op.symbol.all isWordChar = true := by
  rcases op with op | ignoreCase
  · cases op <;> rfl
  · cases ignoreCase <;> rfl

theorem pathText_ne_nil (path : Path) :
    path.text ≠ [] := by
  rcases exists_cons_text path with ⟨c, cs, hText, -⟩
  simp [hText]

/- The filter has no parts. -/
def IsLeaf : Filter → Prop
| .and _ _ => False
| .or _ _ => False
| .not _ => False
| _ => True

/- A filter without parts is spelled as a condition. -/
theorem isCondition_text
    {zones : ZoneTable}
    {f : Filter}
    (hf : f.IsReadable zones)
    (hLeaf : f.IsLeaf) :
    IsCondition f.text := by
  have hOperand
      (path : Path)
      (op : Operator)
      {v : Value}
      (hv : v.IsReadable zones .filter) :
      IsCondition
        ((path.text ++ op.symbol) ++ v.textIn .filter) := by
    refine isCondition_textIn ?_ ?_ hv
    · simp [pathText_ne_nil path]
    · rw [List.all_append, all_isWordChar_pathText,
        all_isWordChar_symbol]
      rfl
  cases f with
  | all => exact .words (.word (by simp [text]) rfl)
  | has path =>
      exact
        .words
          (.word (pathText_ne_nil path)
            (all_isWordChar_pathText path))
  | missing path =>
      have hNot : ['n', 'o'].all isWordChar = true := rfl
      have hEnd : 't' ≠ 'd' ∧ 't' ≠ 'r' := by decide
      exact
        .words
          (.pair hNot rfl hEnd (pathText_ne_nil path)
            (all_isWordChar_pathText path))
  | cmp path op v => exact hOperand path (.cmp op) hf.2
  | like path pattern =>
      have hStr :
          (Value.str pattern.source).IsReadable zones .filter :=
        trivial
      simpa [text, Operator.symbol, Value.textIn, Value.text]
        using hOperand path (.like pattern.ignoreCase) hStr
  | and a b => cases hLeaf
  | or a b => cases hLeaf
  | not a => cases hLeaf

end Filter

end Haystack
