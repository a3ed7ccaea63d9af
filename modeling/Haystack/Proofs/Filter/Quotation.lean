import Haystack.Proofs.Filter.Trees
import Haystack.Proofs.Zinc.Weights

/-
  This file follows the quotation marks in the text of a
  filter. Behind each literal one is outside of them, up to
  the first URI that is misspelled, and never again from
  there on. So the text shows whether there is one.

  Key definitions include:
    * `Quotation`
    * `Quotation.after`
    * `Quotation.IsLost`
    * `Quotation.Keeps`
    * `Filter.HasLegibleUris`

  Main declarations:
    * `Filter.keeps_text`
    * `Filter.hasLegibleUris_of_text_eq`
-/

namespace Haystack

------------------------------------------------------------
-- Quotation Marks
------------------------------------------------------------

/- Where one is with respect to quotation marks. -/
inductive Quotation where
| outside
| uri
| uriEscape
| str
| strEscape
| broken
deriving DecidableEq, Repr

namespace Quotation

/- One character further. -/
def next (q : Quotation) (c : Char) : Quotation :=
  match q with
  | outside =>
      if c = '`' then uri
      else if c = '"' then str
      else if c = '\\' then broken
      else outside
  | uri =>
      if c = '`' then outside
      else if c = '\\' then uriEscape
      else uri
  | uriEscape =>
      if Zinc.keepsBackslash c ∨ c = '`' then uri
      else broken
  | str =>
      if c = '"' then outside
      else if c = '\\' then strEscape
      else str
  | strEscape => str
  | broken => broken

/- Where one is behind a text. -/
def after (q : Quotation) (cs : List Char) : Quotation :=
  cs.foldl next q

/- Texts lead on from where the texts before them lead. -/
theorem after_append
    (q : Quotation)
    (cs ds : List Char) :
    q.after (cs ++ ds) = (q.after cs).after ds :=
  List.foldl_append

/- One is at a wrong place behind a whole literal. -/
def IsLost (q : Quotation) : Prop :=
  q = uri ∨ q = str ∨ q = broken

instance (q : Quotation) : Decidable q.IsLost := by
  unfold IsLost
  infer_instance

/-
  The text leads back outside if it is fine, to a wrong place
  if it is not, and from a wrong place never outside.
-/
structure Keeps (cs : List Char) (IsFine : Prop) : Prop where
  fine : IsFine → outside.after cs = outside
  misleads : ¬IsFine → (outside.after cs).IsLost
  lost : ∀ q : Quotation, q.IsLost → (q.after cs).IsLost

/- Two texts are fine if both of them are. -/
theorem Keeps.append
    {cs ds : List Char}
    {P Q : Prop}
    (hFirst : Keeps cs P)
    (hSecond : Keeps ds Q) :
    Keeps (cs ++ ds) (P ∧ Q) := by
  refine ⟨?_, ?_, ?_⟩
  · rintro ⟨hp, hq⟩
    rw [after_append, hFirst.fine hp, hSecond.fine hq]
  · intro hNot
    rw [after_append]
    by_cases hp : P
    · rw [hFirst.fine hp]
      exact hSecond.misleads fun hq => hNot ⟨hp, hq⟩
    · exact hSecond.lost _ (hFirst.misleads hp)
  · intro q hq
    rw [after_append]
    exact hSecond.lost _ (hFirst.lost q hq)

theorem Keeps.congr
    {cs : List Char}
    {P Q : Prop}
    (h : Keeps cs P)
    (hIff : P ↔ Q) :
    Keeps cs Q := by
  rwa [← propext hIff]

------------------------------------------------------------
-- Plain Texts
------------------------------------------------------------

/- Without marks one stays, unless a backslash was before. -/
theorem next_plain
    {q : Quotation}
    {c : Char}
    (hc : isPlain c = true)
    (hq : q = outside ∨ q.IsLost) :
    q.next c = q := by
  simp only [isPlain, List.mem_cons, List.not_mem_nil,
    or_false, not_or, decide_eq_true_eq] at hc
  rcases hq with rfl | rfl | rfl | rfl <;>
    simp [next, hc.1, hc.2.1, hc.2.2]

/- Without any marks one stays where one is. -/
theorem after_plain
    {q : Quotation}
    {cs : List Char}
    (hcs : cs.all isPlain = true)
    (hq : q = outside ∨ q.IsLost) :
    q.after cs = q := by
  induction cs with
  | nil => rfl
  | cons c cs ih =>
      rw [List.all_cons, Bool.and_eq_true] at hcs
      change (q.next c).after cs = q
      rw [next_plain hcs.1 hq, ih hcs.2]

/- A text without marks is fine. -/
theorem keeps_plain
    {cs : List Char}
    (hcs : cs.all isPlain = true) :
    Keeps cs True := by
  refine ⟨?_, fun hNot => absurd trivial hNot, ?_⟩
  · exact fun _ => after_plain hcs (Or.inl rfl)
  · intro q hq
    rwa [after_plain hcs (Or.inr hq)]

------------------------------------------------------------
-- Texts between Quotes
------------------------------------------------------------

/- Between quotes each character leads back between them. -/
theorem str_after_escape (c : Char) :
    str.after (Zinc.escape c) = str := by
  unfold Zinc.escape
  split_ifs with hNewline hReturn hTab hQuote hBackslash
    hControl
  · rfl
  · rfl
  · rfl
  · rfl
  · rfl
  · have hCodes : ∀ n < 32,
        str.after (['\\', 'u'] ++ hexText4 n) = str := by
      decide +kernel
    exact hCodes c.toNat hControl
  · simp [after, next, hQuote, hBackslash]

/- Where one can be between quotes that were missed. -/
def MissesQuote (q : Quotation) : Prop :=
  q = uri ∨ q = outside ∨ q = broken

instance (q : Quotation) : Decidable q.MissesQuote := by
  unfold MissesQuote
  infer_instance

/-
  Between missed quotes an escaped character leads to no
  wrong place.
-/
theorem missesQuote_after_escape
    {q : Quotation}
    (hq : q.MissesQuote)
    (c : Char) :
    (q.after (Zinc.escape c)).MissesQuote := by
  unfold Zinc.escape
  split_ifs with hNewline hReturn hTab hQuote hBackslash
    hControl
  · rcases hq with rfl | rfl | rfl <;> decide
  · rcases hq with rfl | rfl | rfl <;> decide
  · rcases hq with rfl | rfl | rfl <;> decide
  · rcases hq with rfl | rfl | rfl <;> decide
  · rcases hq with rfl | rfl | rfl <;> decide
  · have hCodes : ∀ n < 32,
        (uri.after (['\\', 'u'] ++ hexText4 n)) = broken ∧
          (outside.after (['\\', 'u'] ++ hexText4 n)) =
              broken ∧
            (broken.after (['\\', 'u'] ++ hexText4 n)) =
              broken := by
      decide +kernel
    have hCode := hCodes c.toNat hControl
    rcases hq with rfl | rfl | rfl
    · exact Or.inr (Or.inr hCode.1)
    · exact Or.inr (Or.inr hCode.2.1)
    · exact Or.inr (Or.inr hCode.2.2)
  · by_cases hTick : c = '`'
    · subst hTick
      rcases hq with rfl | rfl | rfl <;> decide
    · rcases hq with rfl | rfl | rfl <;>
        simp [after, next, hTick, hQuote, hBackslash,
          MissesQuote]

/- A quoted text leads back outside, whatever it has. -/
theorem keeps_quote (cs : List Char) :
    Keeps (Zinc.quote cs) True := by
  have hStr : str.after (cs.flatMap Zinc.escape) = str := by
    induction cs with
    | nil => rfl
    | cons c cs ih =>
        rw [List.flatMap_cons, after_append,
          str_after_escape, ih]
  have hMisses : ∀ q : Quotation, q.MissesQuote →
      (q.after (cs.flatMap Zinc.escape)).MissesQuote := by
    clear hStr
    induction cs with
    | nil => exact fun q hq => hq
    | cons c cs ih =>
        intro q hq
        rw [List.flatMap_cons, after_append]
        exact ih _ (missesQuote_after_escape hq c)
  have hClose : ∀ q : Quotation,
      q.MissesQuote → (q.after ['"']).IsLost := by
    rintro q (rfl | rfl | rfl) <;> decide
  have hOpen : ∀ q : Quotation,
      q.IsLost → (q.after ['"']).MissesQuote := by
    rintro q (rfl | rfl | rfl) <;> decide
  unfold Zinc.quote
  refine ⟨?_, fun hNot => absurd trivial hNot, ?_⟩
  · intro _
    rw [after_append, after_append]
    change (str.after (cs.flatMap Zinc.escape)).after _ = _
    rw [hStr]
    rfl
  · intro q hq
    rw [after_append, after_append]
    exact hClose _ (hMisses _ (hOpen q hq))

------------------------------------------------------------
-- URIs
------------------------------------------------------------

/- Where one can be between backquotes that were missed. -/
def MissesTick (q : Quotation) : Prop :=
  q = str ∨ q = strEscape ∨ q = outside ∨ q = broken

instance (q : Quotation) : Decidable q.MissesTick := by
  unfold MissesTick
  infer_instance

/- An escape of a URI does not lead out from there. -/
theorem missesTick_after_escape
    {q : Quotation}
    (hq : q.MissesTick)
    (c : Char) :
    (q.after (Uri.escape c)).MissesTick := by
  unfold Uri.escape
  split_ifs with hTick
  · rcases hq with rfl | rfl | rfl | rfl <;> decide
  · change (q.next c).MissesTick
    rcases hq with rfl | rfl | rfl | rfl
    · simp only [next]
      split_ifs <;> decide
    · exact Or.inl rfl
    · simp only [next, hTick, if_false]
      split_ifs <;> decide
    · exact Or.inr (Or.inr (Or.inr rfl))

/-
  So all of an address is passed between missed backquotes.
-/
theorem missesTick_after_address
    {q : Quotation}
    (hq : q.MissesTick)
    (cs : List Char) :
    (q.after (cs.flatMap Uri.escape)).MissesTick := by
  induction cs generalizing q with
  | nil => exact hq
  | cons c cs ih =>
      rw [List.flatMap_cons, after_append]
      exact ih (missesTick_after_escape hq c)

/-
  Between backquotes a legible address leads back there, and
  any other one loses the closing one.
-/
theorem after_address (cs : List Char) :
    (Uri.keepsPairs cs = true →
      uri.after (cs.flatMap Uri.escape) = uri) ∧
    (Uri.keepsPairs cs = false →
      uri.after (cs.flatMap Uri.escape) = uriEscape ∨
        (uri.after (cs.flatMap Uri.escape)).MissesTick) := by
  fun_induction Uri.keepsPairs cs with
  | case1 =>
      refine ⟨fun _ => rfl, ?_⟩
      intro hNot
      cases hNot
  | case2 =>
      refine ⟨?_, fun _ => Or.inl rfl⟩
      intro hKeeps
      cases hKeeps
  | case3 c cs ih =>
      -- The backslash that is written before a backquote is
      -- taken for the escaped one, and the backquote closes.
      by_cases hTick : c = '`'
      · subst hTick
        have hMisses :=
          missesTick_after_address
            (q := outside) (Or.inr (Or.inr (Or.inl rfl))) cs
        refine ⟨?_, fun _ => Or.inr hMisses⟩
        intro hKeeps
        cases hKeeps
      · have hPair :
            ('\\' :: c :: cs).flatMap Uri.escape =
              '\\' :: c :: cs.flatMap Uri.escape := by
          simp [Uri.escape, hTick]
        rw [hPair]
        change
          (_ → (uriEscape.next c).after _ = uri) ∧
            (_ → (uriEscape.next c).after _ = uriEscape ∨
              ((uriEscape.next c).after _).MissesTick)
        by_cases hKeeps : Zinc.keepsBackslash c = true
        · rw [hKeeps, Bool.true_and, next, if_pos (Or.inl hKeeps)]
          exact ih
        · rw [Bool.not_eq_true] at hKeeps
          rw [hKeeps, Bool.false_and, next,
            if_neg (by simp [hKeeps, hTick])]
          have hMisses :=
            missesTick_after_address
              (q := broken) (Or.inr (Or.inr (Or.inr rfl))) cs
          refine ⟨?_, fun _ => Or.inr hMisses⟩
          intro hKeeps
          cases hKeeps
  | case4 c cs hOne hTwo ih =>
      have hBackslash : c ≠ '\\' := by
        rintro rfl
        cases cs with
        | nil => exact hOne rfl rfl
        | cons d ds => exact hTwo d ds rfl rfl
      have hFirst : uri.after (Uri.escape c) = uri := by
        unfold Uri.escape
        split_ifs with hTick
        · rfl
        · simp [after, next, hTick, hBackslash]
      rw [List.flatMap_cons, after_append, hFirst]
      exact ih

/- The text of a URI leads back outside if it spells it. -/
theorem keeps_uri (u : Uri) :
    Keeps u.text u.IsLegible := by
  have hAddress := after_address u.address.toList
  have hClose : ∀ q : Quotation,
      q = uriEscape ∨ q.MissesTick →
        (q.after ['`']).IsLost := by
    rintro q (rfl | rfl | rfl | rfl | rfl) <;> decide
  have hOpen : ∀ q : Quotation,
      q.IsLost → (q.after ['`']).MissesTick := by
    rintro q (rfl | rfl | rfl) <;> decide
  unfold Uri.text
  refine ⟨?_, ?_, ?_⟩
  · intro hu
    rw [after_append, after_append]
    change (uri.after (_)).after _ = _
    rw [hAddress.1 hu]
    rfl
  · intro hu
    rw [after_append, after_append]
    rw [Uri.IsLegible, Bool.not_eq_true] at hu
    exact hClose _ (hAddress.2 hu)
  · intro q hq
    rw [after_append, after_append]
    exact
      hClose _
        (Or.inr (missesTick_after_address (hOpen q hq) _))

------------------------------------------------------------
-- Literals
------------------------------------------------------------

/-
  A literal keeps track of the marks by its kind: only a URI
  can lead astray, and no other literal has marks that are
  not escaped.
-/
theorem keeps_textIn
    {zones : ZoneTable}
    {v : Value}
    (hv : v.IsReadable zones .filter) :
    Keeps (v.textIn .filter) v.HasLegibleUri := by
  cases v with
  | number n =>
      simpa [Value.textIn, Value.text, Value.HasLegibleUri] using
        keeps_plain n.all_isPlain_text
  | str text =>
      simpa [Value.textIn, Value.text, Value.HasLegibleUri] using
        keeps_quote text.toList
  | uri u =>
      simpa [Value.textIn, Value.text, Value.HasLegibleUri] using
        keeps_uri u
  | date d =>
      simpa [Value.textIn, Value.text, Value.HasLegibleUri] using
        keeps_plain d.all_isPlain_text
  | time t =>
      simpa [Value.textIn, Value.text, Value.HasLegibleUri] using
        keeps_plain t.all_isPlain_text
  | dateTime x =>
      simpa [Value.textIn, Value.text, Value.HasLegibleUri] using
        keeps_plain (DateTime.all_isPlain_text hv)
  | ref r =>
      simpa [Value.textIn, Value.HasLegibleUri] using
        keeps_plain r.all_isPlain_id
  | bool b =>
      have hText :
          ((Value.bool b).textIn .filter).all isPlain =
            true := by
        cases b <;> rfl
      exact keeps_plain hText
  | list items => cases hv
  | dict d => cases hv
  | _ => cases hv

end Quotation

------------------------------------------------------------
-- Filters
------------------------------------------------------------

/- The text of a path has no marks. -/
theorem Path.all_isPlain_text (path : Path) :
    path.text.all isPlain = true :=
  all_isPlain_of rfl path.all_isPathChar_text

namespace Filter

theorem Operator.all_isPlain_symbol (op : Operator) :
    op.symbol.all isPlain = true := by
  rcases op with op | ignoreCase
  · cases op <;> rfl
  · cases ignoreCase <;> rfl

/- The texts of the literals misspell no URI. -/
def HasLegibleUris : Filter → Prop
| .cmp _ _ value => value.HasLegibleUri
| .and a b => a.HasLegibleUris ∧ b.HasLegibleUris
| .or a b => a.HasLegibleUris ∧ b.HasLegibleUris
| .not a => a.HasLegibleUris
| _ => True

open Quotation

/- A text keeps its quotation in brackets. -/
theorem keeps_bracket
    {cs : List Char}
    {P : Prop}
    (hcs : Keeps cs P) :
    Keeps (bracket cs) P := by
  have hOpen : Keeps ['('] True := keeps_plain rfl
  have hClose : Keeps [')'] True := keeps_plain rfl
  exact ((hOpen.append hcs).append hClose).congr (by simp)

/- Brackets do not lead astray. -/
theorem keeps_partText
    {f : Filter}
    {P : Prop}
    (hText : Keeps f.text P) :
    Keeps f.partText P := by
  unfold partText
  split_ifs
  · exact keeps_bracket hText
  · exact hText

theorem all_isPlain_keyword (word : Keyword) :
    (' ' :: (word.text.toList ++ [' '])).all isPlain =
      true := by
  cases word <;> rfl

/-
  Two parts with a keyword between them are fine if both of
  them are.
-/
theorem keeps_joined
    {a b : Filter}
    {P Q : Prop}
    (ha : Keeps a.text P)
    (hb : Keeps b.text Q)
    (word : Keyword) :
    Keeps
      (a.partText ++ (' ' :: (word.text.toList ++
        (' ' :: b.partText))))
      (P ∧ Q) := by
  have hAll :=
    ((keeps_partText ha).append
      (keeps_plain (all_isPlain_keyword word))).append
        (keeps_partText hb)
  have hText :=
    hAll.congr (Q := P ∧ Q) (by rw [and_true])
  simpa using hText

/- A filter leads back outside if no URI is misspelled. -/
theorem keeps_text
    {zones : ZoneTable}
    {f : Filter}
    (hf : f.IsReadable zones) :
    Keeps f.text f.HasLegibleUris := by
  induction f with
  | all => exact keeps_plain rfl
  | has path => exact keeps_plain path.all_isPlain_text
  | missing path =>
      refine keeps_plain ?_
      change (['n', 'o', 't', ' '] ++ path.text).all _ = true
      rw [List.all_append, path.all_isPlain_text]
      rfl
  | cmp path op v =>
      exact
        (((keeps_plain path.all_isPlain_text).append
          (keeps_plain
            (Operator.all_isPlain_symbol (.cmp op)))).append
          (keeps_textIn hf.2)).congr
            (by simp [HasLegibleUris])
  | like path pattern =>
      exact
        (((keeps_plain path.all_isPlain_text).append
          (keeps_plain
            (Operator.all_isPlain_symbol
              (.like pattern.ignoreCase)))).append
          (keeps_quote pattern.source.toList)).congr
            (by simp [HasLegibleUris])
  | and a b iha ihb =>
      rw [text_and]
      exact keeps_joined (iha hf.1) (ihb hf.2) .and
  | or a b iha ihb =>
      rw [text_or]
      exact keeps_joined (iha hf.1) (ihb hf.2) .or
  | not a ih =>
      have hMark : Keeps ['!'] True := keeps_plain rfl
      exact
        (hMark.append (keeps_bracket (ih hf))).congr
          (by simp [HasLegibleUris])

/-
  Of two filters with the same text, both misspell a URI or
  none does.
-/
theorem hasLegibleUris_of_text_eq
    {zones : ZoneTable}
    {f g : Filter}
    (hf : f.IsReadable zones)
    (hg : g.IsReadable zones)
    (hText : f.text = g.text)
    (hUris : g.HasLegibleUris) :
    f.HasLegibleUris := by
  have hBack := (keeps_text hg).fine hUris
  by_contra hNot
  have hLost := (keeps_text hf).misleads hNot
  rw [hText, hBack] at hLost
  revert hLost
  decide

end Filter

end Haystack
