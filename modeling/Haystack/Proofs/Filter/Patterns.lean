import Haystack.Filter.LikePattern
import Mathlib.Data.List.Basic

/-
  This file says what the text of a pattern means: which of
  its `%` are wildcards, which text is looked for, and where
  it may stand in a text. Without regard to case a pattern
  accepts all that it accepts with it, in every spelling that
  has the same upper case.

  Key definitions include:
    * `LikePattern.Shape`
    * `LikePattern.Shape.IsOf`
    * `LikePattern.Shape.IsPattern`
    * `LikePattern.Shape.Fits`

  Main declarations:
    * `LikePattern.Shape.isOf_iff`
    * `LikePattern.accepts_iff`
    * `LikePattern.exists_shape`
-/

namespace Haystack

namespace LikePattern

------------------------------------------------------------
-- Wildcards and the Literal
------------------------------------------------------------

/- The front of a text, without a wildcard that is there. -/
inductive IsFront : List Char → Bool → List Char → Prop where
| wildcard (rest : List Char) :
    IsFront ('%' :: rest) true rest
| plain
    {rest : List Char}
    (hFirst : rest.head? ≠ some '%') :
    IsFront rest false rest

/-
  The back of a text, without a wildcard that is there. Two
  `%` are one that belongs to the literal.
-/
inductive IsBack : List Char → Bool → List Char → Prop where
| wildcard
    {literal : List Char}
    (hLast : literal.getLast? ≠ some '%') :
    IsBack (literal ++ ['%']) true literal
| percent (literal : List Char) :
    IsBack (literal ++ ['%', '%']) false (literal ++ ['%'])
| plain
    {literal : List Char}
    (hLast : literal.getLast? ≠ some '%') :
    IsBack literal false literal

/-
  Splitting off the front tells whether a `%` stood there.
-/
theorem isFront_iff
    {cs rest : List Char}
    {wild : Bool} :
    IsFront cs wild rest ↔ splitFront cs = (wild, rest) := by
  constructor
  · rintro (⟨_⟩ | ⟨hFirst⟩)
    · rfl
    · unfold splitFront
      split
      · exact absurd rfl hFirst
      · rfl
  · intro h
    unfold splitFront at h
    split at h
    · cases h
      exact .wildcard rest
    · rename_i hNot
      cases h
      refine .plain fun hFirst => ?_
      rcases List.head?_eq_some_iff.mp hFirst with ⟨more, rfl⟩
      exact hNot more rfl

/-
  Splitting off the back does so for the last one, unless
  two of them stand for one that is meant.
-/
theorem isBack_iff
    {cs literal : List Char}
    {wild : Bool} :
    IsBack cs wild literal ↔
      splitBack cs = (wild, literal) := by
  constructor
  · rintro (⟨hLast⟩ | ⟨literal⟩ | ⟨hLast⟩)
    · simp [splitBack, hLast]
    · simp [splitBack]
    · simp [splitBack, hLast]
  · intro h
    unfold splitBack at h
    split_ifs at h with hLast
    · rcases List.getLast?_eq_some_iff.mp hLast with
        ⟨before, rfl⟩
      rw [List.dropLast_concat, Prod.mk.injEq] at h
      rcases h with ⟨rfl, rfl⟩
      by_cases hTwo : before.getLast? = some '%'
      · rcases List.getLast?_eq_some_iff.mp hTwo with
          ⟨first, rfl⟩
        simpa using IsBack.percent first
      · simpa [hTwo] using IsBack.wildcard hTwo
    · cases h
      exact .plain hLast

/- Whether there are wildcards, and the text between them. -/
structure Shape where
  leading : Bool
  literal : List Char
  trailing : Bool
deriving DecidableEq, Repr

namespace Shape

/- The text is written for this shape. -/
def IsOf
    (cs : List Char)
    (shape : Shape) : Prop :=
  ∃ rest,
    IsFront cs shape.leading rest ∧
      IsBack rest shape.trailing shape.literal

/- There is a wildcard, and something to look for. -/
def IsPattern (shape : Shape) : Prop :=
  (shape.leading ∨ shape.trailing) ∧ shape.literal ≠ []

instance (shape : Shape) : Decidable shape.IsPattern := by
  unfold IsPattern
  infer_instance

/-
  The literal stands in a text, with nothing on a side where
  there is no wildcard.
-/
def Fits
    (shape : Shape)
    (text : List Char) : Prop :=
  ∃ before after,
    text = before ++ shape.literal ++ after ∧
      (shape.leading = false → before = []) ∧
      (shape.trailing = false → after = [])

/- The shape that a text is taken apart into. -/
def ofText (cs : List Char) : Shape :=
  let front := splitFront cs
  let back := splitBack front.2
  ⟨front.1, back.2, back.1⟩

/- Each text is written for one shape. -/
theorem isOf_iff
    {cs : List Char}
    {shape : Shape} :
    shape.IsOf cs ↔ shape = ofText cs := by
  constructor
  · rintro ⟨rest, hFront, hBack⟩
    unfold ofText
    simp only [isFront_iff.mp hFront, isBack_iff.mp hBack]
  · rintro rfl
    exact ⟨_, isFront_iff.mpr rfl, isBack_iff.mpr rfl⟩

end Shape

/- A text is taken apart like its shape. -/
theorem split_eq_ok_iff
    {cs literal : List Char}
    {anchor : Anchor} :
    split cs = .ok (anchor, literal) ↔
      (Shape.ofText cs).IsPattern ∧
        (Shape.ofText cs).literal = literal ∧
        anchorOf (Shape.ofText cs).leading
            (Shape.ofText cs).trailing =
          some anchor := by
  unfold split Shape.ofText Shape.IsPattern
  dsimp only
  generalize (splitFront cs).1 = leading
  generalize splitBack (splitFront cs).2 = back
  rcases back with ⟨trailing, _ | ⟨c, more⟩⟩ <;>
    cases leading <;> cases trailing <;>
      simp [anchorOf, and_comm]

/- A text can be split if it has the shape of a pattern. -/
theorem exists_split_eq_ok_iff (cs : List Char) :
    (∃ parts, split cs = .ok parts) ↔
      (Shape.ofText cs).IsPattern := by
  constructor
  · rintro ⟨⟨anchor, literal⟩, h⟩
    exact (split_eq_ok_iff.mp h).1
  · intro hPattern
    have hAnchor :
        ∃ anchor,
          anchorOf (Shape.ofText cs).leading
              (Shape.ofText cs).trailing =
            some anchor := by
      have hWild := hPattern.1
      cases hLeading : (Shape.ofText cs).leading <;>
        cases hTrailing : (Shape.ofText cs).trailing <;>
          simp_all [anchorOf]
    rcases hAnchor with ⟨anchor, hAnchor⟩
    exact
      ⟨_, split_eq_ok_iff.mpr ⟨hPattern, rfl, hAnchor⟩⟩

/- A pattern keeps its text and how it compares. -/
theorem ofText_eq_ok
    {source : String}
    {ignoreCase : Bool}
    {p : LikePattern}
    (h : ofText source ignoreCase = .ok p) :
    p.source = source ∧ p.ignoreCase = ignoreCase := by
  unfold ofText at h
  split at h <;> cases h
  exact ⟨rfl, rfl⟩

/- Case does not matter for what is a pattern. -/
theorem exists_ofText_eq_ok_iff
    (source : String)
    (ignoreCase : Bool) :
    (∃ p, ofText source ignoreCase = .ok p) ↔
      (Shape.ofText source.toList).IsPattern := by
  rw [← exists_split_eq_ok_iff]
  unfold ofText
  split
  · rename_i anchor literal hSplit
    simp [hSplit]
  · rename_i e hSplit
    simp [hSplit]

------------------------------------------------------------
-- Where the Literal Stands
------------------------------------------------------------

/- A literal occurs if it is an infix. -/
theorem occursIn_iff (literal text : List Char) :
    occursIn literal text = true ↔ literal <:+: text := by
  induction text with
  | nil => simp [occursIn]
  | cons c text ih =>
      rw [occursIn, Bool.or_eq_true, List.isPrefixOf_iff_prefix,
        ih, List.infix_cons_iff]

/- An anchor stands for the wildcards that it was made of. -/
theorem isAt_iff
    {leading trailing : Bool}
    {anchor : Anchor}
    (hAnchor : anchorOf leading trailing = some anchor)
    (literal text : List Char) :
    isAt literal text anchor = true ↔
      Shape.Fits ⟨leading, literal, trailing⟩ text := by
  unfold Shape.Fits
  cases leading <;> cases trailing <;> cases hAnchor
  · -- Nothing may stand before the literal.
    rw [isAt, List.isPrefixOf_iff_prefix]
    constructor
    · rintro ⟨after, rfl⟩
      exact ⟨[], after, rfl, fun _ => rfl, nofun⟩
    · rintro ⟨before, after, rfl, hBefore, -⟩
      rw [hBefore rfl]
      exact ⟨after, rfl⟩
  · -- Nothing may stand behind it.
    rw [isAt, List.isSuffixOf_iff_suffix]
    constructor
    · rintro ⟨before, rfl⟩
      exact ⟨before, [], by simp, nofun, fun _ => rfl⟩
    · rintro ⟨before, after, rfl, -, hAfter⟩
      rw [hAfter rfl, List.append_nil]
      exact ⟨before, rfl⟩
  · rw [isAt, occursIn_iff]
    constructor
    · rintro ⟨before, after, rfl⟩
      exact ⟨before, after, rfl, nofun, nofun⟩
    · rintro ⟨before, after, rfl, -, -⟩
      exact ⟨before, after, rfl⟩

/- A text as a pattern looks at it. -/
def inCase : Bool → List Char → List Char
| true, cs => upperCase cs
| false, cs => cs

/- What is looked for, as a pattern looks for it. -/
def Shape.inCase
    (ignoreCase : Bool)
    (shape : Shape) : Shape :=
  { shape with
    literal := LikePattern.inCase ignoreCase shape.literal }

/- A pattern accepts what the shape of its text fits. -/
theorem accepts_iff
    (p : LikePattern)
    (text : String) :
    p.accepts text = true ↔
      ((Shape.ofText p.source.toList).inCase p.ignoreCase).Fits
        (inCase p.ignoreCase text.toList) := by
  rcases p with ⟨source, ignoreCase, anchor, literal, hSplit⟩
  rcases split_eq_ok_iff.mp hSplit with ⟨-, rfl, hAnchor⟩
  refine Iff.trans ?_ (isAt_iff hAnchor _ _)
  cases ignoreCase <;> rfl

/- What fits, fits in upper case, as characters map alone. -/
theorem Shape.Fits.upperCase
    {shape : Shape}
    {text : List Char}
    (hFits : shape.Fits text) :
    (shape.inCase true).Fits (Haystack.upperCase text) := by
  rcases hFits with ⟨before, after, rfl, hBefore, hAfter⟩
  refine
    ⟨Haystack.upperCase before, Haystack.upperCase after,
      ?_, ?_, ?_⟩
  · simp [Haystack.upperCase, inCase, LikePattern.inCase]
  · intro h
    rw [hBefore h]
    rfl
  · intro h
    rw [hAfter h]
    rfl

/-
  Each text is of one shape, and a pattern if it has a
  wildcard and a literal, with or without regard to case. The
  pattern then accepts the texts that the shape fits; without
  regard to case, also all that have their upper case.
-/
theorem exists_shape (source : String) :
    ∃ shape : Shape,
      (∀ other : Shape,
        other.IsOf source.toList ↔ other = shape) ∧
      (∀ ignoreCase,
        (∃ p, ofText source ignoreCase = .ok p) ↔
          shape.IsPattern) ∧
      ∀ p q,
        ofText source false = .ok p →
        ofText source true = .ok q →
          (∀ text,
            p.accepts text = true ↔ shape.Fits text.toList) ∧
          ∀ text, p.accepts text = true →
            q.accepts text = true ∧
              ∀ other,
                upperCase other.toList =
                    upperCase text.toList →
                  q.accepts other = true := by
  refine
    ⟨.ofText source.toList, fun _ => Shape.isOf_iff,
      exists_ofText_eq_ok_iff source, ?_⟩
  intro p q hp hq
  rcases ofText_eq_ok hp with ⟨hSource, hCase⟩
  rcases ofText_eq_ok hq with ⟨hSource', hCase'⟩
  have hFits : ∀ text,
      p.accepts text = true ↔
        (Shape.ofText source.toList).Fits text.toList := by
    intro text
    rw [accepts_iff, hSource, hCase]
    rfl
  refine ⟨hFits, fun text hText => ?_⟩
  have hUpper := ((hFits text).mp hText).upperCase
  have hOther : ∀ other,
      upperCase other.toList = upperCase text.toList →
        q.accepts other = true := by
    intro other hSame
    rw [accepts_iff, hSource', hCase', inCase, hSame]
    exact hUpper
  exact ⟨hOther text rfl, hOther⟩

/- A text in other case has the same upper case. -/
theorem exists_shape_kilowatts :
    ∃ p q,
      ofText "%kw" false = .ok p ∧
        ofText "%kw" true = .ok q ∧
        p.accepts "5 kw" = true ∧
        q.accepts "5 KW" = true := by
  rcases exists_shape "%kw" with
    ⟨shape, hOnly, hPattern, hAccepts⟩
  have hShape : ⟨true, "kw".toList, false⟩ = shape :=
    (hOnly _).mp (Shape.isOf_iff.mpr (by decide))
  subst hShape
  rcases (hPattern false).mpr (by decide) with ⟨p, hp⟩
  rcases (hPattern true).mpr (by decide) with ⟨q, hq⟩
  rcases hAccepts p q hp hq with ⟨hFits, hOther⟩
  have hText : p.accepts "5 kw" = true :=
    (hFits "5 kw").mpr
      ⟨"5 ".toList, [], by decide, nofun, fun _ => rfl⟩
  exact
    ⟨p, q, hp, hq, hText,
      (hOther "5 kw" hText).2 "5 KW" (by decide)⟩

/- The last `%` of two stands for itself. -/
example :
    Shape.ofText "%50%%".toList =
      ⟨true, "50%".toList, false⟩ := by
  decide

end LikePattern

end Haystack
