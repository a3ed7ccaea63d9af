import Haystack.Binary64.Layout
import Haystack.Binary64.Numeral
import Haystack.Proofs.Binary64.Shortest
import Haystack.Proofs.Text.Digits

/-
  This file shows that the text of a finite number names that
  number: a numeral is taken into its parts as it was put
  together, and the parts stand for the same decimal.

  Key definitions include:
    * `NumeralParts`
    * `NumeralParts.text`
    * `NumeralParts.value`

  Main declarations:
    * `NumeralParts.ofNumeral?_text`
    * `NumberLayout.exists_parts_finiteText`
-/

namespace Haystack

------------------------------------------------------------
-- Numerals in Parts
------------------------------------------------------------

/-
  A sign, digits, digits after a point, and an exponent. Only
  the last two may be missing.
-/
structure NumeralParts where
  negative : Bool
  whole : List Char
  fraction : List Char
  exponent : Option Int
  whole_ne_nil : whole ≠ []
  whole_digits : whole.all isDigit = true
  fraction_digits : fraction.all isDigit = true

namespace NumeralParts

/- The sign of a number below zero. -/
def signText : Bool → List Char
| true => ['-']
| false => []

/- A point, if there are digits after it. -/
def fractionText : List Char → List Char
| [] => []
| ds => '.' :: ds

theorem fractionText_of_ne_nil
    {ds : List Char}
    (h : ds ≠ []) :
    fractionText ds = '.' :: ds := by
  cases ds with
  | nil => exact absurd rfl h
  | cons c cs => rfl

/- The mark of an exponent, if there is one. -/
def exponentText : Option Int → List Char
| none => []
| some e => 'e' :: signedText e

/- The parts after the sign. -/
def body (p : NumeralParts) : List Char :=
  p.whole ++ fractionText p.fraction ++ exponentText p.exponent

/- All parts of a numeral. -/
def text (p : NumeralParts) : List Char :=
  signText p.negative ++ p.body

/- The number that the parts stand for. -/
def value (p : NumeralParts) : Binary64 :=
  .ofDecimal p.negative
    (digitsValue (p.whole ++ p.fraction))
    (p.exponent.getD 0 - p.fraction.length)

------------------------------------------------------------
-- Taking Numerals Apart
------------------------------------------------------------

/- A digit is no letter, no sign and no point. -/
theorem ne_of_isDigit
    {c d : Char}
    (hc : isDigit c = true)
    (hd : isDigit d = false) :
    c ≠ d := by
  rintro rfl
  rw [hc] at hd
  cases hd

/- Digits have no case. -/
theorem toLower_of_isDigit
    {c : Char}
    (hc : isDigit c = true) :
    c.toLower = c := by
  unfold isDigit at hc
  rw [Bool.and_eq_true, decide_eq_true_eq,
    decide_eq_true_eq] at hc
  apply dif_neg
  intro hUpper
  have hLow := hUpper.1
  have hHigh := hc.2
  rw [Char.le_def] at hHigh
  exact absurd (UInt32.le_trans hLow hHigh) (by decide)

/- What starts with a digit has no sign. -/
theorem splitSign_of_isDigit
    {c : Char}
    (hc : isDigit c = true)
    (cs : List Char) :
    Numeral.splitSign (c :: cs) = (false, c :: cs) := by
  unfold Numeral.splitSign
  split
  next h =>
    rw [(List.cons.inj h).1] at hc
    cases hc
  next h =>
    rw [(List.cons.inj h).1] at hc
    cases hc
  next => rfl

theorem exists_cons_of_digits
    {ds : List Char}
    (hNe : ds ≠ [])
    (hDigits : ds.all isDigit = true) :
    ∃ c cs, ds = c :: cs ∧ isDigit c = true := by
  cases ds with
  | nil => exact absurd rfl hNe
  | cons c cs =>
      rw [List.all_cons, Bool.and_eq_true] at hDigits
      exact ⟨c, cs, rfl, hDigits.1⟩

/- Digits are read as the number that they stand for. -/
theorem digits?_of_digits
    {ds : List Char}
    (hNe : ds ≠ [])
    (hDigits : ds.all isDigit = true) :
    Numeral.digits? ds = some (digitsValue ds) := by
  unfold Numeral.digits?
  rw [hDigits, if_pos]
  cases ds with
  | nil => exact absurd rfl hNe
  | cons c cs => rfl

/-
  The text of an exponent is read back, and none is zero.
-/
theorem exponent?_exponentText
    (exponent : Option Int) :
    Numeral.exponent? (exponentText exponent) =
      some (exponent.getD 0) := by
  cases exponent with
  | none => rfl
  | some e =>
      have hDigits :=
        digits?_of_digits (decimalText_ne_nil e.natAbs)
          (all_isDigit_decimalText e.natAbs)
      rw [digitsValue_decimalText] at hDigits
      simp only [exponentText, signedText, Numeral.exponent?]
      by_cases he : e < 0
      · simp [he, Numeral.splitSign, hDigits, abs_of_neg he]
      · rcases
          exists_cons_of_digits (decimalText_ne_nil e.natAbs)
            (all_isDigit_decimalText e.natAbs) with
          ⟨c, cs, hText, hc⟩
        have hNonneg : (e.natAbs : Int) = e := by omega
        rw [hText] at hDigits ⊢
        simp [he, splitSign_of_isDigit hc, hDigits, hNonneg]

/- The first run of digits is the whole part. -/
theorem takeWhile_body (p : NumeralParts) :
    p.body.takeWhile isDigit = p.whole := by
  rw [body, List.append_assoc]
  apply Scan.takeWhile_append_of_head p.whole_digits
  cases p.fraction <;> cases p.exponent <;> rfl

/-
  Behind the whole digits come the fraction and the
  exponent.
-/
theorem dropWhile_body (p : NumeralParts) :
    p.body.dropWhile isDigit =
      fractionText p.fraction ++ exponentText p.exponent := by
  rw [body, List.append_assoc]
  apply Scan.dropWhile_append_of_head p.whole_digits
  cases p.fraction <;> cases p.exponent <;> rfl

/- The point parts the fraction from the exponent. -/
theorem splitFraction_tail (p : NumeralParts) :
    Numeral.splitFraction
        (fractionText p.fraction ++
          exponentText p.exponent) =
      (p.fraction, exponentText p.exponent) := by
  cases hFraction : p.fraction with
  | nil => cases p.exponent <;> rfl
  | cons c cs =>
      have hDigits := p.fraction_digits
      rw [hFraction] at hDigits
      have hHead :
          (exponentText p.exponent).head?.all
            (fun c => !isDigit c) = true := by
        cases p.exponent <;> rfl
      change
        (((c :: cs) ++ exponentText p.exponent).takeWhile
            isDigit,
          ((c :: cs) ++ exponentText p.exponent).dropWhile
            isDigit) = _
      rw [Scan.takeWhile_append_of_head hDigits hHead,
        Scan.dropWhile_append_of_head hDigits hHead]

/- The parts of a numeral are found again. -/
theorem decimal?_body (p : NumeralParts) :
    Numeral.decimal? p.negative p.body = some p.value := by
  unfold Numeral.decimal?
  have hWhole : p.whole.isEmpty = false := by
    rw [List.isEmpty_eq_false_iff]
    exact p.whole_ne_nil
  simp only [takeWhile_body, dropWhile_body,
    splitFraction_tail, hWhole, Bool.false_and,
    exponent?_exponentText]
  rfl

/- Without its sign, a numeral starts with a digit. -/
theorem exists_cons_body (p : NumeralParts) :
    ∃ c cs, p.body = c :: cs ∧ isDigit c = true := by
  rcases exists_cons_of_digits p.whole_ne_nil p.whole_digits
    with ⟨c, cs, hWhole, hc⟩
  refine
    ⟨c, cs ++ fractionText p.fraction ++
      exponentText p.exponent, ?_, hc⟩
  rw [body, hWhole]
  rfl

/- The sign is read back from the text of a numeral. -/
theorem splitSign_text (p : NumeralParts) :
    Numeral.splitSign p.text = (p.negative, p.body) := by
  unfold text
  cases p.negative with
  | true => rfl
  | false =>
      rcases p.exists_cons_body with ⟨c, cs, hBody, hc⟩
      rw [hBody]
      exact splitSign_of_isDigit hc cs

/- A numeral names the number that its parts stand for. -/
theorem ofNumeral?_text (p : NumeralParts) :
    Binary64.ofNumeral? p.text = some p.value := by
  have hWord (d : Char) (ds : List Char)
      (hd : isDigit d = false) :
      Numeral.lowered p.body ≠ d :: ds := by
    rcases p.exists_cons_body with ⟨c, cs, hBody, hc⟩
    rw [hBody]
    intro hEq
    have hHead := (List.cons.inj hEq).1
    rw [toLower_of_isDigit hc] at hHead
    exact ne_of_isDigit hc hd hHead
  unfold Binary64.ofNumeral?
  simp only [splitSign_text, hWord 'i' _ rfl,
    hWord 'n' _ rfl, decide_false, Bool.or_self,
    Bool.false_eq_true, if_false]
  exact p.decimal?_body

end NumeralParts

------------------------------------------------------------
-- The Parts of a Layout
------------------------------------------------------------

namespace NumberLayout

/- Only zeros are taken from the end of digits. -/
theorem exists_trimZeros_append (cs : List Char) :
    ∃ n, cs = trimZeros cs ++ List.replicate n '0' := by
  have hParts :=
    List.takeWhile_append_dropWhile
      (p := (· = '0')) (l := cs.reverse)
  have hZeros :
      cs.reverse.takeWhile (· = '0') =
        List.replicate
          (cs.reverse.takeWhile (· = '0')).length '0' := by
    rw [List.eq_replicate_iff]
    refine ⟨rfl, ?_⟩
    intro c hc
    have hAll :=
      List.all_takeWhile
        (p := (· = '0')) (l := cs.reverse)
    simpa using List.all_eq_true.mp hAll c hc
  refine ⟨(cs.reverse.takeWhile (· = '0')).length, ?_⟩
  rw [← List.reverse_replicate, ← hZeros, trimZeros,
    ← List.reverse_append, hParts, List.reverse_reverse]

/- So none is left there. -/
theorem getLast?_trimZeros (cs : List Char) :
    (trimZeros cs).getLast? ≠ some '0' := by
  intro hLast
  have hFirst := List.head?_dropWhile_not (· = '0') cs.reverse
  rw [trimZeros, List.getLast?_reverse] at hLast
  rw [hLast] at hFirst
  simp at hFirst

/-
  Some parts make this text after the sign, and stand for the
  digits times a power of ten.
-/
def HasParts
    (digits : List Char)
    (exponent : Int)
    (body : List Char) : Prop :=
  ∀ negative, ∃ p : NumeralParts,
    p.negative = negative ∧ p.body = body ∧
      p.value =
        .ofMagnitude negative
          (Binary64.decimalMagnitude (digitsValue digits)
            exponent)

section Parts

variable {layout : NumberLayout}
variable {digits : List Char}

/- All digits stand after the point. -/
theorem hasParts_zeroPoint
    (hNe : digits ≠ [])
    (hDigits : digits.all isDigit = true)
    (n : Nat) :
    HasParts digits (-n - digits.length)
      (['0', '.'] ++ List.replicate n '0' ++ digits) := by
  intro negative
  have hFraction :
      (List.replicate n '0' ++ digits).all isDigit = true := by
    rw [List.all_append, all_isDigit_replicate_zero, hDigits,
      Bool.true_and]
  have hAllNe : List.replicate n '0' ++ digits ≠ [] :=
    fun h => hNe (List.append_eq_nil_iff.mp h).2
  have hValue :
      digitsValue (['0'] ++ (List.replicate n '0' ++ digits)) =
        digitsValue digits := by
    rw [← List.append_assoc, digitsValue_append,
      digitsValue_append, digitsValue_replicate_zero]
    simp [digitsValue]
  refine
    ⟨⟨negative, ['0'], List.replicate n '0' ++ digits, none,
      by decide, rfl, hFraction⟩, rfl, ?_, ?_⟩
  · simp [NumeralParts.body, NumeralParts.exponentText,
      NumeralParts.fractionText_of_ne_nil hAllNe]
  · simp only [NumeralParts.value, Binary64.ofDecimal, hValue,
      List.length_append, List.length_replicate,
      Option.getD_none]
    congr 2
    omega

/- All digits, and zeros after them, stand before the point. -/
theorem hasParts_whole
    (hNe : digits ≠ [])
    (hDigits : digits.all isDigit = true)
    (n : Nat) :
    HasParts digits n (digits ++ List.replicate n '0') := by
  intro negative
  have hWhole :
      (digits ++ List.replicate n '0').all isDigit = true := by
    rw [List.all_append, all_isDigit_replicate_zero, hDigits,
      Bool.true_and]
  have hWholeNe : digits ++ List.replicate n '0' ≠ [] :=
    fun h => hNe (List.append_eq_nil_iff.mp h).1
  refine
    ⟨⟨negative, digits ++ List.replicate n '0', [], none,
      hWholeNe, hWhole, rfl⟩, rfl, ?_, ?_⟩
  · simp [NumeralParts.body, NumeralParts.exponentText,
      NumeralParts.fractionText]
  · simp only [NumeralParts.value, Binary64.ofDecimal,
      List.append_nil, digitsValue_append_replicate_zero,
      List.length_nil, Option.getD_none,
      Binary64.decimalMagnitude_shift]
    congr 2
    omega

/- The point, and perhaps an exponent, stands among them. -/
theorem hasParts_split
    {whole fraction : List Char}
    (hNe : whole ≠ [])
    (hWhole : whole.all isDigit = true)
    (hFraction : fraction.all isDigit = true)
    (exponent : Option Int) :
    HasParts (whole ++ fraction)
      (exponent.getD 0 - fraction.length)
      (whole ++ NumeralParts.fractionText fraction ++
        NumeralParts.exponentText exponent) := by
  intro negative
  exact
    ⟨⟨negative, whole, fraction, exponent, hNe, hWhole,
      hFraction⟩, rfl, rfl, rfl⟩

/-
  A text with plain digits has these digits, at the point.
-/
theorem hasParts_plainText
    (hTail : layout.wholeTail = [])
    (hNe : digits ≠ [])
    (hDigits : digits.all isDigit = true)
    (point : Int) :
    HasParts digits (point - digits.length)
      (layout.plainText digits point) := by
  unfold plainText
  by_cases hSmall : point ≤ 0
  · rw [if_pos hSmall]
    have hParts :=
      hasParts_zeroPoint hNe hDigits (-point).toNat
    rwa [show -((-point).toNat : Int) = point by omega]
      at hParts
  rw [if_neg hSmall]
  by_cases hLong : digits.length ≤ point.toNat
  · rw [if_pos hLong, hTail, List.append_nil]
    have hParts :=
      hasParts_whole hNe hDigits
        (point.toNat - digits.length)
    rwa [show ((point.toNat - digits.length : Nat) : Int) =
        point - digits.length by omega] at hParts
  · rw [if_neg hLong]
    have hSplit := List.take_append_drop point.toNat digits
    have hBoth := hDigits
    rw [← hSplit, List.all_append, Bool.and_eq_true] at hBoth
    have hWholeNe : digits.take point.toNat ≠ [] := by
      rw [Ne, List.take_eq_nil_iff]
      rintro (hZero | hNil)
      · omega
      · exact hNe hNil
    have hLength :
        (digits.drop point.toNat).length =
          digits.length - point.toNat :=
      List.length_drop
    have hFractionNe : digits.drop point.toNat ≠ [] :=
      List.ne_nil_of_length_pos (by omega)
    have hParts :=
      hasParts_split hWholeNe hBoth.1 hBoth.2 none
    rw [hSplit, hLength,
      NumeralParts.fractionText_of_ne_nil hFractionNe] at hParts
    simpa [NumeralParts.exponentText,
      show (0 : Int) - (digits.length - point.toNat : Nat) =
        point - digits.length by omega] using hParts

/-
  A text with an exponent has its digits behind the first
  one as decimals.
-/
theorem hasParts_exponentText
    (hSign : layout.upwardSign = [])
    (hNe : digits ≠ [])
    (hDigits : digits.all isDigit = true)
    (exponent : Int) :
    HasParts digits (exponent + 1 - digits.length)
      (layout.exponentText digits exponent) := by
  cases digits with
  | nil => exact absurd rfl hNe
  | cons c cs =>
      rw [List.all_cons, Bool.and_eq_true] at hDigits
      have hWhole : [c].all isDigit = true := by
        simpa using hDigits.1
      have hParts :=
        hasParts_split (List.cons_ne_nil c []) hWhole
          hDigits.2 (some exponent)
      have hExponent :
          exponent - cs.length =
            exponent + 1 - (c :: cs).length := by
        rw [List.length_cons]
        omega
      rw [Option.getD_some, hExponent] at hParts
      unfold exponentText
      cases cs <;>
        simpa [NumeralParts.exponentText, hSign,
          NumeralParts.fractionText] using hParts

/-
  The text of a decimal stands for it: the zeros left out at
  the end are made up for by the point or the exponent.
-/
theorem hasParts_decimalText
    (hTail : layout.wholeTail = [])
    (hSign : layout.upwardSign = [])
    {d : Decimal}
    (hd : d.digits ≠ 0)
    (negative : Bool) :
    ∃ p : NumeralParts,
      p.negative = negative ∧
      p.body = layout.decimalText d ∧
      p.value =
        .ofMagnitude negative
          (Binary64.decimalMagnitude d.digits d.exponent) := by
  rcases
      exists_trimZeros_append (Haystack.decimalText d.digits)
    with ⟨n, hAll⟩
  have hDigits := all_isDigit_decimalText d.digits
  have hValue := digitsValue_decimalText d.digits
  unfold decimalText
  dsimp only
  generalize Haystack.decimalText d.digits = all at *
  generalize trimZeros all = digits at *
  subst hAll
  rw [List.all_append, Bool.and_eq_true] at hDigits
  rw [digitsValue_append_replicate_zero] at hValue
  have hNe : digits ≠ [] := by
    rintro rfl
    exact hd (by simpa using hValue.symm)
  have hExponent :
      d.exponent + n =
        ((digits ++ List.replicate n '0').length : Int) +
          d.exponent - digits.length := by
    simp
    omega
  rw [← hValue, Binary64.decimalMagnitude_shift, hExponent]
  generalize
    ((digits ++ List.replicate n '0').length : Int) +
      d.exponent = point
  split_ifs
  · exact
      hasParts_plainText hTail hNe hDigits.1 point negative
  · have hParts :=
      hasParts_exponentText hSign hNe hDigits.1 (point - 1)
        negative
    rwa [Int.sub_add_cancel] at hParts

/- The text of a finite number consists of parts for it. -/
theorem exists_parts_finiteText
    (hTail : layout.wholeTail = [])
    (hSign : layout.upwardSign = [])
    {x : Binary64}
    (hx : x.IsFinite) :
    ∃ p : NumeralParts,
      p.text = layout.finiteText x ∧ p.value = x := by
  have hSelf := x.ofMagnitude_self
  unfold finiteText
  dsimp only
  by_cases hZero : x.magnitude = 0
  · rw [if_pos hZero, hTail, List.append_nil]
    rw [hZero] at hSelf
    refine
      ⟨⟨x.isNegative, ['0'], [], none, by decide, rfl, rfl⟩,
        ?_, ?_⟩
    · cases x.isNegative <;> rfl
    · exact hSelf
  · rw [if_neg hZero]
    have hReads :=
      Binary64.decimalMagnitude_shortest hx layout.tie
    have hd : (x.shortest layout.tie).digits ≠ 0 := by
      intro hDigits
      rw [hDigits] at hReads
      exact hZero hReads.symm
    rcases
        hasParts_decimalText hTail hSign hd x.isNegative with
      ⟨p, hNegative, hBody, hValue⟩
    refine ⟨p, ?_, ?_⟩
    · rw [NumeralParts.text, hNegative, hBody]
      cases x.isNegative <;> rfl
    · rw [hValue, hReads, hSelf]

end Parts

end NumberLayout

end Haystack
