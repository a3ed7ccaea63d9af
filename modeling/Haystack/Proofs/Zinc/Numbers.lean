import Haystack.Proofs.Binary64.Numeral
import Haystack.Proofs.Zinc.Words
import Haystack.Tag.Number

/-
  This file shows that numbers are read back: a numeral is
  taken piece by piece, up to what cannot go on it, and the
  unit follows at once. Underscores that a unit starts with
  are taken for a part of the numeral, and lost.

  Key definitions include:
    * `Zinc.IsNumeralPiece`
    * `Zinc.endsNumeral`
    * `Number.IsLegible`
    * `Number.trimmed`

  Main declarations:
    * `Zinc.reads_numeral`
    * `Number.trimmed_eq_iff`
    * `Zinc.reads_numeric_trimmed`
    * `Zinc.reads_value_finite`
-/

namespace Haystack

open Scan

namespace Zinc

------------------------------------------------------------
-- Pieces of a Numeral
------------------------------------------------------------

/- What the reader of numerals takes in one step. -/
inductive IsNumeralPiece : List Char → Prop where
| digit
    (c : Char)
    (hc : isDigit c = true) :
    IsNumeralPiece [c]
| point : IsNumeralPiece ['.']
| exponent
    (c : Char)
    (hc : c = '-' ∨ isDigit c = true) :
    IsNumeralPiece ['e', c]

/- A piece of a numeral is taken whole. -/
theorem reads_numeralPiece
    {p : List Char}
    (hp : IsNumeralPiece p)
    (rest : List Char) :
    Reads numeralPiece? p (some p) rest := by
  unfold numeralPiece?
  rw [reads_current_bind]
  cases hp with
  | digit c hc =>
      simp only [List.cons_append, List.head?_cons, hc,
        true_or, if_true]
      exact (reads_pure (some [c]) rest).advance_bind c
  | point => exact (reads_pure (some ['.']) rest).advance_bind _
  | exponent c hc =>
      change
        Reads (next? >>= fun next =>
            if ('e' = 'e' ∨ 'e' = 'E') ∧ next.any
                (fun d => d = '-' || d = '+' || isDigit d) then
              advance >>= fun _ => current? >>= fun next =>
                advance >>= fun _ =>
                  pure (some ('e' :: next.toList))
            else pure none)
          ['e', c] (some ['e', c]) rest
      rw [reads_next_bind, if_pos]
      · refine Reads.advance_bind ?_ 'e'
        rw [reads_current_bind]
        exact (reads_pure (some ['e', c]) rest).advance_bind c
      · rcases hc with rfl | hc
        · simp
        · simp [hc]

/- An underscore is taken, and nothing is made of it. -/
theorem reads_numeralPiece_underscore (rest : List Char) :
    Reads numeralPiece? ['_'] (some []) rest := by
  unfold numeralPiece?
  rw [reads_current_bind]
  exact (reads_pure (some []) rest).advance_bind '_'

/- Some pieces make up the text. -/
def IsInPieces (cs : List Char) : Prop :=
  ∃ pieces : List (List Char),
    pieces.flatten = cs ∧ ∀ p ∈ pieces, IsNumeralPiece p

/- Two texts in pieces are one. -/
theorem IsInPieces.append
    {cs ds : List Char}
    (hFirst : IsInPieces cs)
    (hSecond : IsInPieces ds) :
    IsInPieces (cs ++ ds) := by
  rcases hFirst with ⟨first, rfl, hFirst⟩
  rcases hSecond with ⟨second, rfl, hSecond⟩
  refine ⟨first ++ second, List.flatten_append, ?_⟩
  intro p hp
  rcases List.mem_append.mp hp with hp | hp
  · exact hFirst p hp
  · exact hSecond p hp

theorem IsNumeralPiece.isInPieces
    {p : List Char}
    (hp : IsNumeralPiece p) :
    IsInPieces p :=
  ⟨[p], by simp, by simpa using hp⟩

/- Digits are pieces, each of its own. -/
theorem isInPieces_digits
    {ds : List Char}
    (hDigits : ds.all isDigit = true) :
    IsInPieces ds := by
  induction ds with
  | nil => exact ⟨[], rfl, by simp⟩
  | cons c cs ih =>
      rw [List.all_cons, Bool.and_eq_true] at hDigits
      exact (IsNumeralPiece.digit c hDigits.1).isInPieces.append
        (ih hDigits.2)

/- A fraction is a point and digits. -/
theorem isInPieces_fractionText
    {ds : List Char}
    (hDigits : ds.all isDigit = true) :
    IsInPieces (NumeralParts.fractionText ds) := by
  cases ds with
  | nil => exact isInPieces_digits rfl
  | cons c cs =>
      exact IsNumeralPiece.point.isInPieces.append
        (isInPieces_digits hDigits)

/-
  The mark of an exponent takes the sign or digit behind it.
-/
theorem isInPieces_exponentText (exponent : Option Int) :
    IsInPieces (NumeralParts.exponentText exponent) := by
  cases exponent with
  | none => exact isInPieces_digits rfl
  | some e =>
      have hDigits := all_isDigit_decimalText e.natAbs
      simp only [NumeralParts.exponentText, signedText]
      by_cases he : e < 0
      · rw [if_pos he]
        exact
          (IsNumeralPiece.exponent '-'
            (Or.inl rfl)).isInPieces.append
            (isInPieces_digits hDigits)
      · rw [if_neg he]
        rcases
          NumeralParts.exists_cons_of_digits
            (decimalText_ne_nil e.natAbs) hDigits with
          ⟨c, cs, hText, hc⟩
        rw [hText, List.all_cons, Bool.and_eq_true] at hDigits
        rw [hText]
        exact
          (IsNumeralPiece.exponent c
            (Or.inr hc)).isInPieces.append
            (isInPieces_digits hDigits.2)

------------------------------------------------------------
-- Numerals
------------------------------------------------------------

/- A numeral does not go on with this text. -/
def endsNumeral : List Char → Bool
| [] => true
| c :: cs =>
    !(isDigit c || c = '.' || c = '_') &&
      !((c = 'e' || c = 'E') &&
        cs.head?.any
          (fun d => d = '-' || d = '+' || isDigit d))

/- Nothing is taken where a numeral does not go on. -/
theorem reads_numeralPiece_none
    {rest : List Char}
    (hRest : endsNumeral rest = true) :
    Reads numeralPiece? [] none rest := by
  unfold numeralPiece?
  rw [reads_current_bind]
  cases rest with
  | nil => exact reads_pure none []
  | cons c cs =>
      simp only [endsNumeral, Bool.and_eq_true,
        Bool.not_eq_true', Bool.or_eq_false_iff,
        decide_eq_false_iff_not] at hRest
      simp only [List.nil_append, List.head?_cons,
        hRest.1.1.1, hRest.1.1.2, hRest.1.2, or_self,
        Bool.false_eq_true, if_false]
      rw [reads_next_bind, if_neg]
      · exact reads_pure none _
      · intro hExponent
        have hNone := hRest.2
        simp_all

/-
  The first character is taken, whatever it is, all that go
  on the numeral after it, and any underscores behind.
-/
theorem reads_numeral_of_isInPieces
    (c : Char)
    {cs rest : List Char}
    (hPieces : IsInPieces cs)
    (k : Nat)
    (hRest : endsNumeral rest = true) :
    Reads numeral (c :: (cs ++ List.replicate k '_')) (c :: cs)
      rest := by
  rcases hPieces with ⟨pieces, rfl, hPieces⟩
  -- Underscores are read as pieces of which nothing is kept.
  let kept (p : List Char) : List Char :=
    if p = ['_'] then [] else p
  have hKept : ∀ p ∈ pieces, kept p = p := by
    intro p hp
    apply if_neg
    rintro rfl
    cases hPieces _ hp with
    | digit _ hc => cases hc
  have hCollect :
      Reads (collect numeralPiece?)
        ((pieces ++ List.replicate k ['_']).flatMap id ++ [])
        ((pieces ++ List.replicate k ['_']).map kept) rest := by
    apply reads_collect
    · intro before p after hSplit
      have hp : p ∈ pieces ++ List.replicate k ['_'] := by
        rw [hSplit]
        exact List.mem_append_right _ (List.mem_cons_self ..)
      rcases List.mem_append.mp hp with hp | hp
      · rw [hKept p hp]
        exact reads_numeralPiece (hPieces p hp) _
      · rw [List.eq_of_mem_replicate hp]
        exact reads_numeralPiece_underscore _
    · intro p hp
      rcases List.mem_append.mp hp with hp | hp
      · cases hPieces p hp <;> simp
      · simp [List.eq_of_mem_replicate hp]
    · exact reads_numeralPiece_none hRest
  have hValue :
      ((pieces ++ List.replicate k ['_']).map kept).flatten =
        pieces.flatten := by
    rw [List.map_append, List.map_congr_left hKept]
    simp [kept]
  have hText :
      (pieces ++ List.replicate k ['_']).flatMap id =
        pieces.flatten ++ List.replicate k '_' := by
    rw [List.flatMap_id, List.flatten_append,
      List.flatten_replicate_singleton]
  rw [List.append_nil, hText] at hCollect
  unfold numeral
  rw [reads_current_bind]
  refine Reads.advance_bind ?_ c
  have hAll :=
    hCollect.bind_pure (fun pieces => c :: pieces.flatten)
  rwa [hValue] at hAll

/- A numeral is taken whole, with underscores behind it. -/
theorem reads_numeral
    (p : NumeralParts)
    (k : Nat)
    {rest : List Char}
    (hRest : endsNumeral rest = true) :
    Reads numeral (p.text ++ List.replicate k '_') p.text
      rest := by
  have hWhole := p.whole_digits
  have hTail :
      IsInPieces
        (NumeralParts.fractionText p.fraction ++
          NumeralParts.exponentText p.exponent) :=
    (isInPieces_fractionText p.fraction_digits).append
      (isInPieces_exponentText p.exponent)
  rw [NumeralParts.text, NumeralParts.body,
    List.append_assoc p.whole]
  cases p.negative with
  | true =>
      exact
        reads_numeral_of_isInPieces '-'
          ((isInPieces_digits hWhole).append hTail) k hRest
  | false =>
      rcases
        NumeralParts.exists_cons_of_digits p.whole_ne_nil
          hWhole with
        ⟨c, cs, hText, -⟩
      rw [hText, List.all_cons, Bool.and_eq_true] at hWhole
      rw [hText]
      exact
        reads_numeral_of_isInPieces c
          ((isInPieces_digits hWhole.2).append hTail) k hRest

/- Digits alone are taken whole as well. -/
theorem reads_numeral_digits
    {ds rest : List Char}
    (hNe : ds ≠ [])
    (hDigits : ds.all isDigit = true)
    (hRest : endsNumeral rest = true) :
    Reads numeral ds ds rest := by
  cases ds with
  | nil => exact absurd rfl hNe
  | cons c cs =>
      rw [List.all_cons, Bool.and_eq_true] at hDigits
      simpa using
        reads_numeral_of_isInPieces c
          (isInPieces_digits hDigits.2) 0 hRest

end Zinc

------------------------------------------------------------
-- Numbers
------------------------------------------------------------

namespace Number

/-
  The unit does not start with `_`, which would be taken for
  a part of the numeral.
-/
def IsLegible (n : Number) : Prop :=
  n.unit.all (fun unit => unit.text.toList.head? ≠ some '_')
    = true

instance (n : Number) : Decidable n.IsLegible := by
  unfold IsLegible
  infer_instance

/- What a unit is without the underscores in front of it. -/
def trimUnit? (unit : UnitName) : Option UnitName :=
  if h :
      isUnitName (unit.text.toList.dropWhile (· = '_')) =
        true then
    some
      ⟨String.ofList (unit.text.toList.dropWhile (· = '_')),
        by rwa [String.toList_ofList]⟩
  else none

/- The number whose unit is without those underscores. -/
def trimmed (n : Number) : Number :=
  ⟨n.value, n.unit.bind trimUnit?⟩

/- Trimming a number takes the underscores off its unit. -/
theorem unitText_trimmed (n : Number) :
    n.trimmed.unitText = n.unitText.dropWhile (· = '_') := by
  rcases n with ⟨x, _ | unit⟩
  · rfl
  · change
      unitText ⟨x, trimUnit? unit⟩ =
        unit.text.toList.dropWhile (· = '_')
    unfold trimUnit?
    split
    next => exact String.toList_ofList
    next hNot =>
      have hValid := unit.valid
      rw [isUnitName, Bool.and_eq_true] at hNot hValid
      have hAll :
          (unit.text.toList.dropWhile (· = '_')).all
              isUnitChar =
            true := by
        rw [List.all_eq_true] at hValid ⊢
        intro c hc
        exact hValid.2 c ((List.dropWhile_suffix _).subset hc)
      rw [hAll] at hNot
      cases hDrop : unit.text.toList.dropWhile (· = '_') with
      | nil => rfl
      | cons c cs =>
          rw [hDrop] at hNot
          exact absurd ⟨rfl, rfl⟩ hNot

/- Underscores are all that is lost. -/
theorem exists_unitText_eq (n : Number) :
    ∃ k,
      n.unitText =
        List.replicate k '_' ++ n.trimmed.unitText := by
  refine ⟨(n.unitText.takeWhile (· = '_')).length, ?_⟩
  have hUnderscores :
      n.unitText.takeWhile (· = '_') =
        List.replicate
          (n.unitText.takeWhile (· = '_')).length '_' := by
    rw [List.eq_replicate_iff]
    refine ⟨rfl, fun c hc => ?_⟩
    exact
      of_decide_eq_true
        (List.all_eq_true.mp List.all_takeWhile c hc)
  rw [← hUnderscores, unitText_trimmed,
    List.takeWhile_append_dropWhile]

/-
  A number is legible if its unit shows no underscore first.
-/
theorem isLegible_iff (n : Number) :
    n.IsLegible ↔ n.unitText.head? ≠ some '_' := by
  rcases n with ⟨x, _ | unit⟩
  · exact ⟨fun _ => nofun, fun _ => rfl⟩
  · exact decide_eq_true_iff

/- So a trimmed number is legible. -/
theorem isLegible_trimmed (n : Number) :
    n.trimmed.IsLegible := by
  rw [isLegible_iff, unitText_trimmed]
  intro hHead
  have hNot := List.head?_dropWhile_not (· = '_') n.unitText
  rw [hHead] at hNot
  simp at hNot

/- Nothing is lost if and only if there are none of them. -/
theorem trimmed_eq_iff (n : Number) :
    n.trimmed = n ↔ n.IsLegible := by
  constructor
  · intro h
    rw [← h]
    exact n.isLegible_trimmed
  · intro hn
    rw [isLegible_iff] at hn
    rcases n with ⟨x, _ | unit⟩
    · rfl
    · have hDrop :
          unit.text.toList.dropWhile (· = '_') =
            unit.text.toList := by
        change unit.text.toList.head? ≠ some '_' at hn
        generalize unit.text.toList = cs at hn ⊢
        cases cs with
        | nil => rfl
        | cons c cs =>
            apply List.dropWhile_cons_of_neg
            simpa using hn
      change Number.mk x (trimUnit? unit) = _
      simp only [trimUnit?, hDrop, unit.valid,
        String.ofList_toList, dite_true]

/- A finite number shows its digits and its unit. -/
theorem text_of_isFinite
    {n : Number}
    (hn : n.value.IsFinite) :
    n.text = layout.finiteText n.value ++ n.unitText := by
  have hFinite : n.value.magnitude <
      Binary64.infiniteMagnitude := hn
  have hNaN : n.value.isNaN = false := by
    rw [Binary64.isNaN, decide_eq_false_iff_not]
    omega
  have hInfinite : n.value.isInfinite = false := by
    rw [Binary64.isInfinite, decide_eq_false_iff_not]
    omega
  rw [text, if_pos hn, NumberLayout.text, hNaN, hInfinite]
  simp

/- What is not finite is one of three words. -/
theorem text_of_not_isFinite
    {n : Number}
    (hn : ¬ n.value.IsFinite) :
    n.text = ['N', 'a', 'N'] ∨ n.text = ['I', 'N', 'F'] ∨
      n.text = ['-', 'I', 'N', 'F'] := by
  rw [text, if_neg hn, NumberLayout.text]
  have hNot : ¬ n.value.magnitude <
      Binary64.infiniteMagnitude := hn
  cases hNaN : n.value.isNaN with
  | true => exact Or.inl rfl
  | false =>
      have hInfinite : n.value.isInfinite = true := by
        simp only [Binary64.isNaN,
          decide_eq_false_iff_not] at hNaN
        rw [Binary64.isInfinite, decide_eq_true_eq]
        omega
      rw [hInfinite]
      cases n.value.isNegative
      · exact Or.inr (Or.inl rfl)
      · exact Or.inr (Or.inr rfl)

end Number

namespace Zinc

theorem isUnitChar_of_isCloser
    {c : Char}
    (hc : isCloser c = true) :
    isUnitChar c = false := by
  rcases eq_of_isCloser hc with
    rfl | rfl | rfl | rfl | rfl <;> rfl

/- Units are spelled without digits, signs and points. -/
theorem ne_of_isUnitChar
    {c d : Char}
    (hc : isUnitChar c = true)
    (hd : isUnitChar d = false) :
    c ≠ d := by
  rintro rfl
  rw [hc] at hd
  cases hd

theorem isDigit_eq_false_of_isUnitChar
    {c : Char}
    (hc : isUnitChar c = true) :
    isDigit c = false := by
  by_contra hDigit
  rw [Bool.not_eq_false] at hDigit
  simp only [isDigit, isUnitChar, isAlpha, isLower, isUpper,
    isAscii, Bool.and_eq_true, Bool.or_eq_true,
    decide_eq_true_eq, Bool.not_eq_true',
    decide_eq_false_iff_not, Char.le_def,
    UInt32.le_iff_toNat_le, Char.toNat] at hc hDigit
  rcases hc with
    ((((hc | hc) | rfl) | rfl) | rfl) | rfl
  · simp at hc hDigit
    omega
  · simp at hc hDigit
    omega
  all_goals simp at hDigit

/- A closer cannot go on a numeral. -/
theorem EndsValue.endsNumeral
    {rest : List Char}
    (hRest : EndsValue rest) :
    endsNumeral rest = true := by
  cases rest with
  | nil => rfl
  | cons c cs =>
      have hc : isCloser c = true := hRest.closer
      rcases eq_of_isCloser hc with
        rfl | rfl | rfl | rfl | rfl <;> rfl

/- Neither a unit nor a closer goes on an exponent. -/
theorem any_exponent_eq_false
    {cs rest : List Char}
    (hUnit : cs.all isUnitChar = true)
    (hRest : EndsValue rest) :
    (cs ++ rest).head?.any
      (fun d => d = '-' || d = '+' || isDigit d) = false := by
  have hCloser := hRest.closer
  cases hHead : (cs ++ rest).head? with
  | none => rfl
  | some d =>
      cases cs with
      | nil =>
          rw [List.nil_append] at hHead
          rw [hHead, Option.all_some] at hCloser
          rcases eq_of_isCloser hCloser with
            rfl | rfl | rfl | rfl | rfl <;> rfl
      | cons c cs =>
          cases hHead
          rw [List.all_cons, Bool.and_eq_true] at hUnit
          simp [isDigit_eq_false_of_isUnitChar hUnit.1,
            ne_of_isUnitChar hUnit.1
              (show isUnitChar '-' = false from rfl),
            ne_of_isUnitChar hUnit.1
              (show isUnitChar '+' = false from rfl)]

/- A unit that does not start with `_` ends the numeral. -/
theorem endsNumeral_unitText
    {n : Number}
    (hn : n.IsLegible)
    {rest : List Char}
    (hRest : EndsValue rest) :
    endsNumeral (n.unitText ++ rest) = true := by
  unfold Number.unitText
  cases hUnit : n.unit with
  | none => exact hRest.endsNumeral
  | some unit =>
      have hValid := unit.valid
      rw [Number.IsLegible, hUnit, Option.all_some,
        decide_eq_true_eq] at hn
      dsimp only
      generalize unit.text.toList = cs at hValid hn
      cases cs with
      | nil => cases hValid
      | cons c cs =>
          rw [isUnitName, List.all_cons, Bool.and_eq_true,
            Bool.and_eq_true] at hValid
          have hUnderscore : c ≠ '_' := by
            simpa using hn
          have hPoint : c ≠ '.' :=
            ne_of_isUnitChar hValid.2.1 rfl
          rw [List.cons_append, Zinc.endsNumeral,
            any_exponent_eq_false hValid.2.2 hRest,
            isDigit_eq_false_of_isUnitChar hValid.2.1]
          simp [hUnderscore, hPoint]

/- A finite number and its unit are read back. -/
theorem reads_measured
    {n : Number}
    {digits rest : List Char}
    (hDigits : Binary64.ofNumeral? digits = some n.value)
    (hRest : EndsValue rest) :
    Reads (measured digits) n.unitText (.number n) rest := by
  have hHead :
      rest.head?.all (fun c => !isUnitChar c) = true := by
    apply hRest.head_all _
    intro c hc
    rw [isUnitChar_of_isCloser hc]
    rfl
  unfold measured Number.unitText
  rw [hDigits]
  cases n with
  | mk x unit =>
      cases unit with
      | none =>
          apply Reads.bind_last (reads_span rfl hHead)
          exact reads_pure _ rest
      | some unit =>
          have hValid := unit.valid
          have hOf :
              Number.withUnit x
                  (String.ofList unit.text.toList) =
                .ok ⟨x, some unit⟩ := by
            rw [String.ofList_toList, Number.withUnit,
              UnitName.ofText, dif_pos hValid]
            rfl
          rw [isUnitName, Bool.and_eq_true,
            Bool.not_eq_true'] at hValid
          refine
            Reads.bind_last (reads_span hValid.2 hHead) ?_
          rw [hValid.1, hOf]
          exact reads_pure _ rest

/-
  The reader of what starts like a number takes the numeral
  and the unit of a finite one, but for underscores in front
  of the unit.
-/
theorem reads_numeric_trimmed
    (zones : ZoneTable)
    {n : Number}
    (hFinite : n.value.IsFinite)
    {rest : List Char}
    (hRest : EndsValue rest) :
    Reads (numeric zones) n.text (.number n.trimmed) rest := by
  rcases
    Number.layout.exists_parts_finiteText rfl rfl hFinite with
    ⟨p, hText, hValue⟩
  have hNumeral :
      Binary64.ofNumeral? p.text = some n.trimmed.value := by
    rw [p.ofNumeral?_text, hValue]
    rfl
  have hEnds := endsNumeral_unitText n.isLegible_trimmed hRest
  rcases n.exists_unitText_eq with ⟨k, hUnit⟩
  rw [Number.text_of_isFinite hFinite, ← hText, hUnit,
    ← List.append_assoc]
  unfold numeric
  apply Reads.bind (reads_numeral p k hEnds)
  rw [reads_current_bind]
  have hHead : ∀ d, isUnitChar d = false →
      isCloser d = false →
        (n.trimmed.unitText ++ rest).head? ≠ some d := by
    intro d hUnit hCloser
    unfold Number.unitText
    cases hHas : n.trimmed.unit with
    | none =>
        have hEnd := hRest.closer
        rintro hd
        rw [List.nil_append] at hd
        rw [hd, Option.all_some, hCloser] at hEnd
        cases hEnd
    | some unit =>
        have hValid := unit.valid
        dsimp only
        generalize unit.text.toList = cs at hValid
        cases cs with
        | nil => cases hValid
        | cons c cs =>
            intro hd
            simp_all [isUnitName]
  split
  next hDash => exact absurd hDash (hHead '-' rfl rfl)
  next hColon => exact absurd hColon (hHead ':' rfl rfl)
  next => exact reads_measured hNumeral hRest

/- What starts with a digit, or a dash and one, is numeric. -/
theorem reads_value_numeric
    (zones : ZoneTable)
    (dialect : Dialect)
    {cs rest : List Char}
    {v : Value}
    (hStart :
      cs.head?.any isDigit = true ∨
        cs.head? = some '-' ∧
          cs.tail.head?.any isDigit = true)
    (hNumeric : Reads (numeric zones) cs v rest) :
    Reads (value zones dialect) cs (some v) rest := by
  unfold value
  rw [reads_current_bind]
  cases cs with
  | nil => simp at hStart
  | cons c cs =>
      simp only [List.cons_append, List.head?_cons]
      rw [reads_next_bind]
      rcases hStart with hDigit | ⟨hDash, hNext⟩
      · have hc : isDigit c = true := hDigit
        rw [if_pos hc]
        exact hNumeric.bind_pure some
      · cases hDash
        cases cs with
        | nil => cases hNext
        | cons d cs =>
            have hd : isDigit d = true := hNext
            have hNe : d ≠ 'I' := by
              rintro rfl
              cases hd
            simpa [isDigit, isAlpha, isLower, isUpper, hNe,
              show ('0' ≤ d ∧ d ≤ '9') from by
                simpa [isDigit] using hd] using
              hNumeric.bind_pure some

/-
  A finite number starts with a digit, or with a sign before
  one.
-/
theorem head_finiteText
    {x : Binary64}
    (hx : x.IsFinite)
    (more : List Char) :
    (Number.layout.finiteText x ++ more).head?.any isDigit =
        true ∨
      (Number.layout.finiteText x ++ more).head? = some '-' ∧
        (Number.layout.finiteText x ++
          more).tail.head?.any isDigit = true := by
  rcases
    Number.layout.exists_parts_finiteText rfl rfl hx with
    ⟨p, hText, -⟩
  rcases p.exists_cons_body with ⟨c, cs, hBody, hc⟩
  rw [← hText, NumeralParts.text, hBody]
  cases p.negative with
  | true => exact Or.inr ⟨rfl, hc⟩
  | false => exact Or.inl hc

/- A finite number is read as a value in the same way. -/
theorem reads_value_trimmed
    (zones : ZoneTable)
    (dialect : Dialect)
    {n : Number}
    (hFinite : n.value.IsFinite)
    {rest : List Char}
    (hRest : EndsValue rest) :
    Reads (value zones dialect) n.text
      (some (.number n.trimmed)) rest := by
  refine reads_value_numeric zones dialect ?_
    (reads_numeric_trimmed zones hFinite hRest)
  rw [Number.text_of_isFinite hFinite]
  exact head_finiteText hFinite n.unitText

/-
  A legible finite number is read back by the reader of
  values.
-/
theorem reads_value_finite
    (zones : ZoneTable)
    (dialect : Dialect)
    {n : Number}
    (hFinite : n.value.IsFinite)
    (hn : n.IsLegible)
    {rest : List Char}
    (hRest : EndsValue rest) :
    Reads (value zones dialect) n.text (some (.number n))
      rest := by
  have hReads :=
    reads_value_trimmed zones dialect hFinite hRest
  rwa [n.trimmed_eq_iff.mpr hn] at hReads

end Zinc

end Haystack
