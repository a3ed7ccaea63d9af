import Haystack.Filter.Reading
import Haystack.Proofs.Zinc.RoundTrip

/-
  This file shows that conditions on one path are read back:
  the path, the operator, and the literal or pattern, up to a
  keyword, a bracket or the end.

  Key definitions include:
    * `IsGap`
    * `Filter.EndsPart`
    * `Filter.EndsCondition`
    * `Filter.IsReadable`
    * `Filter.HasLegibleText`
    * `Filter.asRead`

  Main declarations:
    * `Path.reads_text`
    * `Filter.readsLoosely_cmp`
-/

namespace Haystack

open Scan

------------------------------------------------------------
-- Gaps
------------------------------------------------------------

/- Spaces that keep two words apart. -/
def IsGap (gap : List Char) : Prop :=
  gap ≠ [] ∧ gap.all isSpace = true

instance (gap : List Char) : Decidable (IsGap gap) :=
  inferInstanceAs (Decidable (_ ∧ _))

theorem isGap_space : IsGap [' '] :=
  ⟨List.cons_ne_nil _ _, rfl⟩

/- A space is no part of a name or an arrow. -/
theorem not_of_isSpace
    {c : Char}
    (hc : isSpace c = true) :
    isTagChar c = false ∧ c ≠ '-' ∧ c ≠ '=' ∧ c ≠ '~' := by
  unfold isSpace at hc
  rcases Bool.or_eq_true _ _ ▸ hc with hc | hc <;>
    rw [of_decide_eq_true hc] <;> decide

------------------------------------------------------------
-- Paths
------------------------------------------------------------

namespace Path

/- The characters before which a path ends. -/
def endsPath (rest : List Char) : Bool :=
  rest.head?.all (fun c => !isTagChar c && c ≠ '-')

/- Where a path ends, no name goes on. -/
theorem endsPath_notTagChar
    {rest : List Char}
    (h : endsPath rest = true) :
    rest.head?.all (fun c => !isTagChar c) = true := by
  cases rest with
  | nil => rfl
  | cons c rest =>
      simp only [endsPath, List.head?_cons, Option.all_some,
        Bool.and_eq_true] at h
      exact h.1

/- A path ends before spaces. -/
theorem endsPath_blank
    {blank rest : List Char}
    (hBlank : blank.all isSpace = true)
    (hRest : blank = [] → endsPath rest = true) :
    endsPath (blank ++ rest) = true := by
  cases blank with
  | nil => exact hRest rfl
  | cons c blank =>
      rw [List.all_cons, Bool.and_eq_true] at hBlank
      have hc := not_of_isSpace hBlank.1
      simp [endsPath, hc.1, hc.2.1]

/- Paths end before spaces. -/
theorem endsPath_gap
    {gap : List Char}
    (hGap : IsGap gap)
    (rest : List Char) :
    endsPath (gap ++ rest) = true :=
  endsPath_blank hGap.2 (fun h => absurd h hGap.1)

/- The text of a path is that of its names with arrows. -/
theorem text_eq (p : Path) :
    p.text =
      p.first.text.toList ++
        p.hops.flatMap (fun n => '-' :: '>' :: n.text.toList) := by
  rcases p with ⟨first, hops⟩
  unfold text names
  dsimp only
  induction hops generalizing first with
  | nil => simp [List.intercalate]
  | cons next hops ih =>
      rw [List.map_cons, List.map_cons, List.map_cons,
        List.map_cons, List.intercalate_cons_cons,
        ← List.map_cons, ← List.map_cons, ih,
        List.flatMap_cons]
      simp

/- Tag names with arrows are made of these characters. -/
def isPathChar (c : Char) : Bool :=
  isTagChar c || c = '-' || c = '>'

/- A path is written in names and arrows. -/
theorem all_isPathChar_text (p : Path) :
    p.text.all isPathChar = true := by
  have hName : ∀ name : TagName,
      name.text.toList.all isPathChar = true := by
    intro name
    exact
      all_of_imp (fun c hc => by simp [isPathChar, hc])
        (all_isTagChar_of_isTagName name.valid)
  have hArrow :
      isPathChar '-' = true ∧ isPathChar '>' = true :=
    ⟨rfl, rfl⟩
  simp [text_eq, List.all_append, List.all_flatMap, hName,
    hArrow]

/- A name is read up to where it ends. -/
theorem reads_name
    (name : TagName)
    {rest : List Char}
    (hRest :
      rest.head?.all (fun c => !isTagChar c) = true) :
    Reads TagName.scan name.text.toList name rest :=
  reads_tagName name.valid hRest

/- A path is read up to what is no part of a name or arrow. -/
theorem reads_text
    (p : Path)
    {rest : List Char}
    (hRest : endsPath rest = true) :
    Reads Path.scan p.text p rest := by
  have hHop : ∀ (hops : List TagName),
      ((hops.flatMap (fun n =>
        '-' :: '>' :: n.text.toList)) ++ rest).head?.all
          (fun c => !isTagChar c) = true := by
    intro hops
    cases hops with
    | nil => exact endsPath_notTagChar hRest
    | cons n hops => rfl
  have hHops :
      Reads (collect hop?)
        (p.hops.flatMap (fun n =>
          '-' :: '>' :: n.text.toList) ++ [])
        (p.hops.map id) rest := by
    apply reads_collect
    · intro before n after _
      unfold hop?
      rw [reads_current_bind, reads_next_bind, if_pos]
      · refine Reads.advance_bind ?_ '-'
        refine Reads.advance_bind ?_ '>'
        rw [List.nil_append]
        exact (reads_name n (hHop after)).bind_pure some
      · exact ⟨rfl, rfl⟩
    · simp
    · unfold hop?
      rw [reads_current_bind, reads_next_bind, if_neg]
      · exact reads_pure none rest
      · rintro ⟨hDash, -⟩
        rw [List.nil_append] at hDash
        rw [endsPath, hDash] at hRest
        cases hRest
  rw [List.append_nil, List.map_id] at hHops
  rw [text_eq]
  unfold Path.scan
  refine Reads.bind (reads_name p.first (hHop p.hops)) ?_
  exact hHops.bind_pure (fun hops => Path.mk p.first hops)

end Path

namespace Filter

------------------------------------------------------------
-- What Follows a Part
------------------------------------------------------------

/- A part of a filter ends before this text. -/
inductive EndsPart : List Char → Prop where
| finish : EndsPart []
| close (rest : List Char) : EndsPart (')' :: rest)
| word
    (word : Keyword)
    (rest : List Char) :
    EndsPart (' ' :: (word.text.toList ++ rest))

/- Where a part ends, a value does. -/
theorem EndsPart.endsValue
    {rest : List Char}
    (hRest : EndsPart rest) :
    Zinc.EndsValue rest := by
  cases hRest with
  | finish => exact Zinc.endsValue_nil
  | close rest => exact Zinc.endsValue_cons rfl rfl rest
  | word word rest =>
      cases word <;>
        exact Zinc.endsValue_space (by decide) rfl _

/- So does a path. -/
theorem EndsPart.endsPath
    {rest : List Char}
    (hRest : EndsPart rest) :
    Path.endsPath rest = true := by
  cases hRest <;> rfl

/-
  A path ends before this text, and no operator follows: after
  some spaces there is neither a space nor an operator.
-/
def EndsCondition (rest : List Char) : Prop :=
  Path.endsPath rest = true ∧
    ∃ blank behind,
      rest = blank ++ behind ∧
      blank.all isSpace = true ∧
      behind.head?.all (fun c => !isSpace c) = true ∧
      operatorAt? behind.head? behind.tail.head? = none

/- And no operator follows there. -/
theorem EndsPart.endsCondition
    {rest : List Char}
    (hRest : EndsPart rest) :
    EndsCondition rest := by
  refine ⟨hRest.endsPath, ?_⟩
  cases hRest with
  | finish => exact ⟨[], [], rfl, rfl, rfl, rfl⟩
  | close rest => exact ⟨[], _, rfl, rfl, rfl, rfl⟩
  | word word rest =>
      cases word <;>
        exact ⟨[' '], _, rfl, rfl, rfl, rfl⟩

------------------------------------------------------------
-- Operators
------------------------------------------------------------

/- The symbol of an operator. -/
def Operator.symbol : Operator → List Char
| .cmp op => op.symbol.toList
| .like ignoreCase => likeSymbol ignoreCase

/- A value does not start like the rest of an operator. -/
def notOperator (rest : List Char) : Bool :=
  rest.head?.all (fun c => !isSpace c && c ≠ '=' && c ≠ '~')

/- Nor does it with spaces before it. -/
theorem next_of_notOperator
    {blank rest : List Char}
    (hBlank : blank.all isSpace = true)
    (hRest : notOperator rest = true) :
    ∀ c, (blank ++ rest).head? = some c →
      c ≠ '=' ∧ c ≠ '~' := by
  intro c hc
  cases blank with
  | nil =>
      rw [List.nil_append] at hc
      rw [notOperator, hc] at hRest
      simp_all
  | cons x blank =>
      rw [List.all_cons, Bool.and_eq_true] at hBlank
      cases hc
      exact (not_of_isSpace hBlank.1).2.2

/- A symbol is recognised before the start of a value. -/
theorem operatorAt?_symbol
    (op : Operator)
    {rest : List Char}
    (hNext : ∀ c, rest.head? = some c →
      c ≠ '=' ∧ c ≠ '~') :
    operatorAt? (op.symbol ++ rest).head?
        (op.symbol ++ rest).tail.head? =
      some (op, op.symbol.length) := by
  rcases op with op | ignoreCase
  · cases op
    case lt =>
      change operatorAt? (some '<') rest.head? = _
      cases hHead : rest.head? with
      | none => rfl
      | some c =>
          simp [operatorAt?, (hNext c hHead).1,
            Operator.symbol, Comparison.symbol]
    case gt =>
      change operatorAt? (some '>') rest.head? = _
      cases hHead : rest.head? with
      | none => rfl
      | some c =>
          simp [operatorAt?, (hNext c hHead).1,
            Operator.symbol, Comparison.symbol]
    all_goals rfl
  · cases ignoreCase
    case true => rfl
    case false =>
      change operatorAt? (some '~') rest.head? = _
      cases hHead : rest.head? with
      | none => rfl
      | some c =>
          simp [operatorAt?, (hNext c hHead).2,
            Operator.symbol, likeSymbol]

/- As many characters are passed as there are. -/
theorem reads_advanceBy
    (cs rest : List Char) :
    Reads (advanceBy cs.length) cs () rest := by
  induction cs with
  | nil => exact reads_pure () rest
  | cons c cs ih => exact ih.advance_bind c

/- A symbol and spaces are read up to the start of a value. -/
theorem reads_operator_blank
    (op : Operator)
    {blank rest : List Char}
    (hBlank : blank.all isSpace = true)
    (hRest : notOperator rest = true) :
    Reads operator? (op.symbol ++ blank) (some op) rest := by
  have hSpace :
      rest.head?.all (fun c => !isSpace c) = true := by
    cases rest with
    | nil => rfl
    | cons c rest =>
        simp only [notOperator, List.head?_cons,
          Option.all_some, Bool.and_eq_true] at hRest
        exact hRest.1.1
  unfold operator?
  rw [reads_current_bind, reads_next_bind, List.append_assoc,
    operatorAt?_symbol op (next_of_notOperator hBlank hRest)]
  refine Reads.bind (reads_advanceBy op.symbol _) ?_
  exact
    (reads_skipSpace hBlank hSpace).bind_last
      (reads_pure (some op) rest)

/- An operator is read from its symbol. -/
theorem reads_operator
    (op : Operator)
    {rest : List Char}
    (hRest : notOperator rest = true) :
    Reads operator? op.symbol (some op) rest := by
  have hReads :
      Reads operator? (op.symbol ++ []) (some op) rest :=
    reads_operator_blank op rfl hRest
  rwa [List.append_nil] at hReads

/- Before the end of a part there is no operator. -/
theorem reads_operator_none
    {rest : List Char}
    (hRest :
      operatorAt? rest.head? rest.tail.head? = none) :
    Reads operator? [] none rest := by
  unfold operator?
  rw [reads_current_bind, reads_next_bind, List.nil_append,
    hRest]
  exact reads_pure none rest

------------------------------------------------------------
-- Filters that Readers Give
------------------------------------------------------------

/- The path is not taken for the keyword of missing tags. -/
def IsPlainPath (path : Path) : Prop :=
  path.names ≠ ["not"]

instance (path : Path) : Decidable (IsPlainPath path) := by
  unfold IsPlainPath
  infer_instance

/- A reader can give this filter. -/
def IsReadable
    (zones : ZoneTable) : Filter → Prop
| .all => True
| .has path => IsPlainPath path
| .missing _ => True
| .cmp path _ value =>
    IsPlainPath path ∧ value.IsReadable zones .filter
| .like path _ => IsPlainPath path
| .and a b => a.IsReadable zones ∧ b.IsReadable zones
| .or a b => a.IsReadable zones ∧ b.IsReadable zones
| .not a => a.IsReadable zones

/- The text of each literal is read as a literal. -/
def HasLegibleText : Filter → Prop
| .cmp _ _ value => value.HasLegibleText
| .and a b => a.HasLegibleText ∧ b.HasLegibleText
| .or a b => a.HasLegibleText ∧ b.HasLegibleText
| .not a => a.HasLegibleText
| _ => True

/- What the text of each literal is read as. -/
def asRead
    (zones : ZoneTable) : Filter → Filter
| .cmp path op value =>
    .cmp path op (value.asRead zones .filter)
| .and a b => .and (a.asRead zones) (b.asRead zones)
| .or a b => .or (a.asRead zones) (b.asRead zones)
| .not a => .not (a.asRead zones)
| f => f

------------------------------------------------------------
-- Conditions on One Path
------------------------------------------------------------

section Predicate

variable {zones : ZoneTable}
variable {path : Path}
variable {rest : List Char}

/- No literal starts like the rest of an operator. -/
theorem notOperator_of_startsValue
    {cs : List Char}
    (hStart : Zinc.startsValue cs = true)
    (more : List Char) :
    notOperator (cs ++ more) = true := by
  cases cs with
  | nil => cases hStart
  | cons c cs =>
      have hSpace := Zinc.startsValue_notSpace hStart more
      simp_all [notOperator, Zinc.startsValue]

/- The pattern of a text is found again. -/
theorem ofLike_source
    (path : Path)
    (pattern : LikePattern) :
    ofLike path (.str pattern.source) pattern.ignoreCase =
      .ok (.like path pattern) := by
  rcases pattern with
    ⟨source, ignoreCase, anchor, literal, hSplit⟩
  have hPattern :
      LikePattern.ofText source ignoreCase =
        .ok ⟨source, ignoreCase, anchor, literal, hSplit⟩ := by
    unfold LikePattern.ofText
    split
    · rename_i anchor' literal' h
      rw [hSplit] at h
      cases h
      rfl
    · rename_i e h
      rw [hSplit] at h
      cases h
  unfold ofLike
  dsimp only
  rw [hPattern]
  rfl

/- A path on its own asks for the tag. -/
theorem readsLoosely_has
    (hPath : IsPlainPath path)
    (hRest : EndsCondition rest) :
    ReadsLoosely (predicate zones) path.text (.has path)
      rest := by
  rcases hRest with
    ⟨hEnds, blank, behind, rfl, hBlank, hSpace, hOperator⟩
  refine ⟨blank, behind, rfl, hBlank, ?_⟩
  unfold predicate
  refine Reads.bind (path.reads_text hEnds) ?_
  refine (reads_skipSpace hBlank hSpace).bind_last ?_
  rw [if_neg hPath]
  refine (reads_operator_none hOperator).bind_last ?_
  exact reads_pure _ behind

/- The path whose name is the keyword of missing tags. -/
def notPath : Path :=
  ⟨⟨"not", rfl⟩, []⟩

/- A path starts with the letter of a name. -/
theorem exists_cons_text (path : Path) :
    ∃ c cs, path.text = c :: cs ∧ isTagStart c = true := by
  rcases Zinc.exists_cons_of_isTagName path.first.valid with
    ⟨c, cs, hName, hc⟩
  exact ⟨c, _, by rw [path.text_eq, hName]; rfl, hc⟩

/- A path starts with no space. -/
theorem head_pathText
    (path : Path)
    (more : List Char) :
    (path.text ++ more).head?.all (fun c => !isSpace c) =
      true := by
  rcases exists_cons_text path with ⟨c, cs, hText, hc⟩
  simp [hText, (Zinc.not_of_isTagStart hc).1]

/- After `not` a path asks that the tag is missing. -/
theorem reads_missing
    {gap : List Char}
    (hGap : IsGap gap)
    (hRest : Path.endsPath rest = true) :
    Reads (predicate zones)
      (['n', 'o', 't'] ++ (gap ++ path.text)) (.missing path)
      rest := by
  have hNot :
      Reads Path.scan ['n', 'o', 't'] notPath
        ((gap ++ path.text) ++ rest) := by
    rw [List.append_assoc]
    exact notPath.reads_text (Path.endsPath_gap hGap _)
  unfold predicate
  refine Reads.bind hNot ?_
  refine
    Reads.bind
      (reads_skipSpace hGap.2 (head_pathText path rest)) ?_
  rw [if_pos (show notPath.names = ["not"] from rfl)]
  exact (path.reads_text hRest).bind_pure Filter.missing

/- Before a symbol a path ends, and it is no space. -/
theorem head_symbol (op : Operator) (more : List Char) :
    Path.endsPath (op.symbol ++ more) = true ∧
      (op.symbol ++ more).head?.all (fun c => !isSpace c) =
        true := by
  rcases op with op | ignoreCase
  · cases op <;> exact ⟨rfl, rfl⟩
  · cases ignoreCase <;> exact ⟨rfl, rfl⟩

/- What is read after a path and an operator. -/
def afterOperator
    (zones : ZoneTable)
    (path : Path) : Operator → Scan Filter
| .cmp op => do
    return .cmp path op (← operand zones)
| .like ignoreCase => do
    let line ← line
    let pattern ← operand zones
    constructAt line
      (orFilterError (ofLike path pattern ignoreCase))

/-
  A path and an operator, with any spaces around it, are read
  before a value.
-/
theorem reads_comparison
    (hPath : IsPlainPath path)
    (op : Operator)
    {before after cs : List Char}
    {f : Filter}
    (hBefore : before.all isSpace = true)
    (hAfter : after.all isSpace = true)
    (hCs : notOperator (cs ++ rest) = true)
    (hNext : Reads (afterOperator zones path op) cs f rest) :
    Reads (predicate zones)
      (path.text ++ (before ++ ((op.symbol ++ after) ++ cs))) f
      rest := by
  have hHead := head_symbol op (after ++ (cs ++ rest))
  have hEnds :
      Path.endsPath
          ((before ++ ((op.symbol ++ after) ++ cs)) ++ rest) =
        true := by
    simp only [List.append_assoc]
    exact Path.endsPath_blank hBefore (fun _ => hHead.1)
  unfold predicate
  refine Reads.bind (path.reads_text hEnds) ?_
  refine Reads.bind (reads_skipSpace hBefore ?_) ?_
  · simp only [List.append_assoc]
    exact hHead.2
  rw [if_neg hPath]
  refine Reads.bind (reads_operator_blank op hAfter hCs) ?_
  cases op <;> exact hNext

/- A literal is read where its value is. -/
theorem readsLoosely_operand
    {cs : List Char}
    {v : Value}
    (hValue :
      ReadsLoosely (Zinc.value zones .filter) cs (some v)
        rest) :
    ReadsLoosely (operand zones) cs v rest := by
  rcases hValue with ⟨blank, behind, hRest, hBlank, hReads⟩
  refine ⟨blank, behind, hRest, hBlank, ?_⟩
  unfold Filter.operand
  exact hReads.bind_last (reads_pure v behind)

/- A path is compared with a literal. -/
theorem readsLoosely_cmp
    (hPath : IsPlainPath path)
    (op : Comparison)
    {v : Value}
    (hv : v.IsReadable zones .filter)
    (hText : v.HasLegibleText)
    (hRest : EndsPart rest) :
    ReadsLoosely (predicate zones)
      (path.text ++ op.symbol.toList ++ v.textIn .filter)
      (.cmp path op (v.asRead zones .filter)) rest := by
  have hStart := Zinc.startsValue_textIn .filter hv.isSimple
  rcases
    readsLoosely_operand
      (Zinc.readsLoosely_value hv hText hRest.endsValue) with
    ⟨blank, behind, rfl, hBlank, hReads⟩
  refine ⟨blank, behind, rfl, hBlank, ?_⟩
  have hAll :
      Reads (predicate zones)
        (path.text ++ ([] ++
          ((Operator.symbol (.cmp op) ++ []) ++
            (v.textIn .filter ++ blank))))
        (.cmp path op (v.asRead zones .filter)) behind := by
    refine reads_comparison hPath (.cmp op) rfl rfl ?_ ?_
    · rw [List.append_assoc]
      exact notOperator_of_startsValue hStart _
    · exact hReads.bind_pure (fun v => Filter.cmp path op v)
  simpa [List.append_assoc, Operator.symbol] using hAll

/- A text in quotes is read as it stands. -/
theorem reads_operand_quote
    (text : String)
    (rest : List Char) :
    Reads (operand zones) (Zinc.quote text.toList) (.str text)
      rest := by
  have hStr :=
    @Zinc.reads_value_str zones .filter text.toList rest
  rw [String.ofList_toList] at hStr
  unfold operand
  exact hStr.bind_last (reads_pure _ rest)

/- A path is compared with a text, with spaces between. -/
theorem reads_cmp_quote
    {before after : List Char}
    (hPath : IsPlainPath path)
    (hBefore : before.all isSpace = true)
    (hAfter : after.all isSpace = true)
    (op : Comparison)
    (text : String)
    (rest : List Char) :
    Reads (predicate zones)
      (path.text ++ (before ++ (op.symbol.toList ++
        (after ++ Zinc.quote text.toList))))
      (.cmp path op (.str text)) rest := by
  have hReads :
      Reads (predicate zones)
        (path.text ++ (before ++
          ((Operator.symbol (.cmp op) ++ after) ++
            Zinc.quote text.toList)))
        (.cmp path op (.str text)) rest := by
    refine
      reads_comparison hPath (.cmp op) hBefore hAfter rfl ?_
    exact
      (reads_operand_quote text rest).bind_pure
        (fun v => Filter.cmp path op v)
  rwa [List.append_assoc] at hReads

/- A path is matched with a pattern. -/
theorem reads_like
    (hPath : IsPlainPath path)
    (pattern : LikePattern)
    (rest : List Char) :
    Reads (predicate zones)
      (path.text ++ likeSymbol pattern.ignoreCase ++
        Zinc.quote pattern.source.toList)
      (.like path pattern) rest := by
  have hReads :
      Reads (predicate zones)
        (path.text ++ ([] ++
          ((Operator.symbol (.like pattern.ignoreCase) ++ []) ++
            Zinc.quote pattern.source.toList)))
        (.like path pattern) rest := by
    refine
      reads_comparison hPath (.like pattern.ignoreCase) rfl rfl
        rfl ?_
    unfold afterOperator
    refine reads_line_bind fun line => ?_
    refine
      (reads_operand_quote pattern.source rest).bind_last ?_
    rw [ofLike_source]
    exact reads_constructAt line _ rest
  simpa [List.append_assoc, Operator.symbol] using hReads

end Predicate

end Filter

end Haystack
