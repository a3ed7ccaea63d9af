import Haystack.Proofs.Binary64.Accuracy
import Haystack.Proofs.Binary64.Numeral
import Haystack.Tag.Coordinates

/-
  This file shows that places are read back from their text:
  degrees are rounded twice on the way to millionths, and the
  two errors together are far below one half of a millionth.

  Key definitions include:
    * `Coordinates.IsLegible`
    * `Coordinates.microParts`

  Main declarations:
    * `Coordinates.toMicro_ofMicro`
    * `Coordinates.isLegible_of_ofDegrees`
    * `Coordinates.ofText_text`
-/

namespace Haystack

namespace Coordinates

/- The place is on earth. -/
def IsLegible (p : Coordinates) : Prop :=
  p.microLat.natAbs ≤ 90000000 ∧
    p.microLng.natAbs ≤ 180000000

instance (p : Coordinates) : Decidable p.IsLegible := by
  unfold IsLegible
  infer_instance

------------------------------------------------------------
-- From Millionths to Degrees and Back
------------------------------------------------------------

theorem isNegative_ofRatio
    (negative : Bool)
    (n d : Nat) :
    (Binary64.ofRatio negative n d).isNegative = negative := by
  apply Binary64.isNegative_ofMagnitude
  refine
    Nat.lt_of_le_of_lt
      (Binary64.nearestMagnitude_le_infinite n d) ?_
  decide

theorem magnitude_ofRatio
    (negative : Bool)
    (n d : Nat) :
    (Binary64.ofRatio negative n d).magnitude =
      Binary64.nearestMagnitude n d := by
  apply Binary64.magnitude_ofMagnitude
  refine
    Nat.lt_of_le_of_lt
      (Binary64.nearestMagnitude_le_infinite n d) ?_
  decide

/- A size less than half a unit off is rounded away. -/
theorem roundToInt_eq
    {x : Binary64}
    {n : Nat}
    (h : |x.size - n| < 1 / 2) :
    x.roundToInt =
      if x.isNegative then -(n : Int) else n := by
  have hd : 0 < x.denominator :=
    Nat.pos_of_ne_zero (Binary64.denominator_ne_zero x)
  have hdQ : (0 : ℚ) < x.denominator := by exact_mod_cast hd
  rw [abs_lt, Binary64.size] at h
  have hLow :
      (n : ℚ) * (2 * x.denominator) ≤
        2 * x.numerator + x.denominator := by
    have hLess : (n : ℚ) - 1 / 2 < x.numerator / x.denominator := by
      linarith [h.1]
    rw [lt_div_iff₀ hdQ] at hLess
    linarith
  have hHigh :
      2 * (x.numerator : ℚ) + x.denominator <
        (n + 1) * (2 * x.denominator) := by
    have hLess : (x.numerator : ℚ) / x.denominator < n + 1 / 2 := by
      linarith [h.2]
    rw [div_lt_iff₀ hdQ] at hLess
    linarith
  have hSize :
      (2 * x.numerator + x.denominator) /
          (2 * x.denominator) =
        n :=
    Nat.div_eq_of_lt_le (by exact_mod_cast hLow)
      (by exact_mod_cast hHigh)
  unfold Binary64.roundToInt
  dsimp only
  rw [hSize]

/- The whole number is rounded to itself. -/
def IsExact (n : Nat) : Prop :=
  (Binary64.ofInt n).IsFinite ∧
    (Binary64.ofInt n).numerator =
      n * (Binary64.ofInt n).denominator

instance (n : Nat) : Decidable (IsExact n) := by
  unfold IsExact
  infer_instance

/- Whole numbers that are exact have their own size. -/
theorem IsExact.size_eq
    {n : Nat}
    (hn : IsExact n) :
    (Binary64.ofInt n).size = n := by
  have hd : ((Binary64.ofInt n).denominator : ℚ) ≠ 0 := by
    exact_mod_cast Binary64.denominator_ne_zero _
  rw [Binary64.size, hn.2]
  push_cast
  field_simp

theorem isExact_million : IsExact million := by
  decide +kernel

theorem size_million :
    (Binary64.ofInt million).size = 1000000 := by
  have hSize := isExact_million.size_eq
  rw [hSize]
  norm_num [million]

/- A product is rounded from the product of the sizes. -/
theorem ratio_times (x y : Binary64) :
    ((x.numerator * y.numerator : ℕ) : ℚ) /
        (x.denominator * y.denominator : ℕ) =
      x.size * y.size := by
  rw [Binary64.size, Binary64.size]
  push_cast
  rw [div_mul_div_comm]

/-
  The number nearest to some millionths, taken a million
  times, is nearest to their count.
-/
theorem abs_size_times_million_sub_lt
    (negative : Bool)
    {n : Nat}
    (hn : n ≠ 0)
    (hLe : n ≤ 180000000) :
    |((Binary64.ofRatio negative n million).times
        (.ofInt million)).size - n| < 1 / 2 := by
  have hnLow : (1 : ℚ) ≤ n := by
    exact_mod_cast Nat.one_le_iff_ne_zero.mpr hn
  have hnHigh : (n : ℚ) ≤ 180000000 := by exact_mod_cast hLe
  have hMillion : ((million : ℕ) : ℚ) = 1000000 := by
    norm_num [million]
  have hFirst :
      |(Binary64.ofRatio negative n million).size -
          n / (million : ℕ)| ≤
        n / (million : ℕ) * 2 ^ (-53 : Int) := by
    apply
      Binary64.abs_size_ofRatio_sub_le negative (by decide)
    · rw [hMillion, le_div_iff₀ (by norm_num)]
      norm_num
      linarith
    · rw [hMillion, div_lt_iff₀ (by norm_num)]
      norm_num
      linarith
  generalize Binary64.ofRatio negative n million = x at *
  rw [hMillion, abs_le] at hFirst
  norm_num at hFirst
  have hProduct := ratio_times x (.ofInt million)
  rw [size_million] at hProduct
  have hSecond :=
    Binary64.abs_size_ofRatio_sub_le
      (x.isNegative != (Binary64.ofInt million).isNegative)
      (n := x.numerator * (Binary64.ofInt million).numerator)
      (d :=
        x.denominator * (Binary64.ofInt million).denominator)
      (Nat.mul_ne_zero (Binary64.denominator_ne_zero _)
        (Binary64.denominator_ne_zero _))
      (by
        rw [hProduct]
        norm_num
        linarith [hFirst.1])
      (by
        rw [hProduct]
        norm_num
        linarith [hFirst.2])
  rw [hProduct, abs_le] at hSecond
  norm_num at hSecond
  unfold Binary64.times
  rw [abs_lt]
  constructor <;> linarith [hFirst.1, hFirst.2, hSecond.1,
    hSecond.2]

/- Millionths within the range are kept by degrees. -/
theorem toMicro_ofMicro
    {micro : Int}
    (h : micro.natAbs ≤ 180000000) :
    toMicro (ofMicro micro) = micro := by
  unfold toMicro ofMicro
  by_cases hZero : micro = 0
  · subst hZero
    decide +kernel
  have hNear :=
    abs_size_times_million_sub_lt (decide (micro < 0))
      (Int.natAbs_ne_zero.mpr hZero) h
  have hSign :
      ((Binary64.ofRatio (decide (micro < 0)) micro.natAbs
          million).times (.ofInt million)).isNegative =
        decide (micro < 0) := by
    unfold Binary64.times
    rw [isNegative_ofRatio, isNegative_ofRatio,
      show (Binary64.ofInt million).isNegative = false by
        decide +kernel,
      Bool.bne_false]
  rw [roundToInt_eq hNear, hSign]
  simp only [decide_eq_true_eq]
  split_ifs <;> omega

/- Millionths are within a bound if they are below it. -/
theorem isWithin_ofMicro
    {bound : Nat}
    {micro : Int}
    (h : micro.natAbs ≤ bound * million) :
    isWithin bound (ofMicro micro) = true := by
  have hBound :
      (Binary64.ofInt bound).magnitude =
        Binary64.nearestMagnitude bound 1 :=
    magnitude_ofRatio _ _ 1
  have hMicro :
      (ofMicro micro).magnitude =
        Binary64.nearestMagnitude micro.natAbs million :=
    magnitude_ofRatio _ _ _
  unfold isWithin
  rw [decide_eq_true_eq, hBound, hMicro]
  apply Binary64.nearestMagnitude_mono
  · decide
  · decide
  · omega

/- Degrees in range make the place that they are of. -/
theorem ofDegrees_ofMicro
    {p : Coordinates}
    (hp : p.IsLegible) :
    ofDegrees p.latitude p.longitude = .ok p := by
  have hLat : isWithin 90 p.latitude = true :=
    isWithin_ofMicro hp.1
  have hLng : isWithin 180 p.longitude = true :=
    isWithin_ofMicro hp.2
  rw [ofDegrees, if_pos hLat, if_pos hLng]
  unfold latitude longitude
  rw [toMicro_ofMicro (Nat.le_trans hp.1 (by decide)),
    toMicro_ofMicro hp.2]

------------------------------------------------------------
-- Degrees on Earth
------------------------------------------------------------

/- Sizes within a whole number are rounded to within it. -/
theorem natAbs_roundToInt_le
    {x : Binary64}
    {n : Nat}
    (h : x.size ≤ n) :
    x.roundToInt.natAbs ≤ n := by
  have hd : 0 < x.denominator :=
    Nat.pos_of_ne_zero (Binary64.denominator_ne_zero x)
  have hdQ : (0 : ℚ) < x.denominator := by exact_mod_cast hd
  rw [Binary64.size, div_le_iff₀ hdQ] at h
  have hNat : x.numerator ≤ n * x.denominator := by
    exact_mod_cast h
  have hRound :
      (2 * x.numerator + x.denominator) /
          (2 * x.denominator) ≤
        n := by
    rw [← Nat.lt_succ_iff, Nat.div_lt_iff_lt_mul (by omega)]
    calc 2 * x.numerator + x.denominator
        < 2 * (n * x.denominator) + 2 * x.denominator := by
          omega
      _ = n.succ * (2 * x.denominator) := by
          rw [Nat.succ_eq_add_one]
          ring
  unfold Binary64.roundToInt
  dsimp only
  split_ifs
  · rwa [Int.natAbs_neg, Int.natAbs_natCast]
  · rwa [Int.natAbs_natCast]

/- A bounded product is not rounded beyond an exact bound. -/
theorem size_times_le
    {x y : Binary64}
    {n : Nat}
    (hn : IsExact n)
    (h : x.size * y.size ≤ n) :
    (x.times y).size ≤ n := by
  have hd : x.denominator * y.denominator ≠ 0 :=
    Nat.mul_ne_zero (Binary64.denominator_ne_zero x)
      (Binary64.denominator_ne_zero y)
  have hdQ :
      (0 : ℚ) < (x.denominator * y.denominator : ℕ) := by
    exact_mod_cast Nat.pos_of_ne_zero hd
  rw [← ratio_times, div_le_iff₀ hdQ] at h
  have hNat :
      x.numerator * y.numerator ≤
        n * (x.denominator * y.denominator) := by
    exact_mod_cast h
  have hTop :
      (x.times y).magnitude ≤ (Binary64.ofInt n).magnitude := by
    unfold Binary64.times
    rw [magnitude_ofRatio, ← Binary64.nearestMagnitude_self hn.1]
    apply
      Binary64.nearestMagnitude_mono hd
        (Binary64.denominator_ne_zero _)
    rw [hn.2]
    calc x.numerator * y.numerator *
          (Binary64.ofInt n).denominator
        ≤ n * (x.denominator * y.denominator) *
          (Binary64.ofInt n).denominator :=
          Nat.mul_le_mul_right _ hNat
      _ = n * (Binary64.ofInt n).denominator *
          (x.denominator * y.denominator) :=
          Nat.mul_right_comm _ _ _
  rw [← hn.size_eq]
  exact
    Binary64.size_le_of_magnitude_le
      (Nat.lt_of_le_of_lt hTop hn.1) hn.1 hTop

/- Degrees within a bound have millionths within it. -/
theorem natAbs_toMicro_le
    {bound : Nat}
    {x : Binary64}
    (hBound : IsExact bound)
    (hMillions : IsExact (bound * million))
    (hx : isWithin bound x = true) :
    (toMicro x).natAbs ≤ bound * million := by
  have hLe :
      x.magnitude ≤ (Binary64.ofInt bound).magnitude :=
    of_decide_eq_true hx
  have hSize : x.size ≤ bound := by
    rw [← hBound.size_eq]
    exact
      Binary64.size_le_of_magnitude_le
        (Nat.lt_of_le_of_lt hLe hBound.1) hBound.1 hLe
  apply natAbs_roundToInt_le
  apply size_times_le hMillions
  rw [isExact_million.size_eq]
  push_cast
  gcongr

/- Degrees that make a place make one on earth. -/
theorem isLegible_of_ofDegrees
    {lat lng : Binary64}
    {p : Coordinates}
    (h : ofDegrees lat lng = .ok p) :
    p.IsLegible := by
  unfold ofDegrees at h
  split_ifs at h with hLat hLng
  cases h
  have hMicroLat : (toMicro lat).natAbs ≤ 90 * million :=
    natAbs_toMicro_le (by decide +kernel) (by decide +kernel)
      hLat
  have hMicroLng : (toMicro lng).natAbs ≤ 180 * million :=
    natAbs_toMicro_le (by decide +kernel) (by decide +kernel)
      hLng
  exact ⟨hMicroLat, hMicroLng⟩

/- A text that names a place names one on earth. -/
theorem isLegible_of_ofText
    {text : String}
    {p : Coordinates}
    (h : ofText text = .ok p) :
    p.IsLegible := by
  unfold ofText at h
  split at h
  next => exact isLegible_of_ofDegrees h
  next => cases h

------------------------------------------------------------
-- The Text of a Place
------------------------------------------------------------

theorem all_isDigit_fractionText (n : Nat) :
    (fractionText n).all isDigit = true := by
  have hDigits := all_isDigit_paddedText 6 n
  rcases
      NumberLayout.exists_trimZeros_append (paddedText 6 n)
    with ⟨k, hAll⟩
  rw [hAll, List.all_append, Bool.and_eq_true] at hDigits
  unfold fractionText
  split
  · rfl
  · exact hDigits.1

/- Zeros make up for what decimals are missing of six. -/
theorem exists_zeros_fractionText
    {n : Nat}
    (hn : n < 10 ^ 6) :
    ∃ k : Nat,
      (fractionText n).length + k = 6 ∧
      digitsValue (fractionText n) * Nat.pow 10 k = n := by
  have hLength := length_paddedText (by decide) hn
  have hValue := digitsValue_paddedText 6 n
  rcases
      NumberLayout.exists_trimZeros_append (paddedText 6 n)
    with ⟨k, hAll⟩
  unfold fractionText
  generalize paddedText 6 n = all at *
  generalize NumberLayout.trimZeros all = ds at *
  subst hAll
  rw [List.length_append, List.length_replicate] at hLength
  rw [digitsValue_append_replicate_zero] at hValue
  cases ds with
  | nil =>
      refine ⟨5, rfl, ?_⟩
      rw [← hValue]
      simp [digitsValue]
  | cons d ds => exact ⟨k, hLength, hValue⟩

theorem fractionText_ne_nil (n : Nat) :
    fractionText n ≠ [] := by
  unfold fractionText
  split <;> simp_all

/- The numeral of millionths, in its parts. -/
def microParts (micro : Int) : NumeralParts where
  negative := decide (micro < 0)
  whole := decimalText (micro.natAbs / million)
  fraction := fractionText (micro.natAbs % million)
  exponent := none
  whole_ne_nil := decimalText_ne_nil _
  whole_digits := all_isDigit_decimalText _
  fraction_digits := all_isDigit_fractionText _

/- The parts of a number of degrees spell its text. -/
theorem text_microParts (micro : Int) :
    (microParts micro).text = microText micro := by
  have hNe := fractionText_ne_nil (micro.natAbs % million)
  simp only [NumeralParts.text, NumeralParts.body,
    NumeralParts.exponentText, microParts, microText,
    NumeralParts.fractionText_of_ne_nil hNe]
  by_cases hNegative : micro < 0 <;>
    simp [hNegative, NumeralParts.signText]

/- With zeros for six decimals they count the millionths. -/
theorem exists_zeros_microParts (micro : Int) :
    ∃ k : Nat,
      (microParts micro).fraction.length + k = 6 ∧
      digitsValue (microParts micro).fraction * Nat.pow 10 k =
        micro.natAbs % million :=
  exists_zeros_fractionText (Nat.mod_lt _ (by decide))

/- The numeral of millionths names their degrees. -/
theorem value_microParts (micro : Int) :
    (microParts micro).value = ofMicro micro := by
  rcases exists_zeros_microParts micro with
    ⟨k, hLength, hValue⟩
  simp only [NumeralParts.value, microParts,
    Binary64.ofDecimal, Option.getD_none, ofMicro,
    Binary64.ofRatio] at hLength hValue ⊢
  generalize fractionText (micro.natAbs % million) = fraction
    at *
  have hAll :
      digitsValue
          (decimalText (micro.natAbs / million) ++
            fraction) * Nat.pow 10 k =
        micro.natAbs := by
    rw [digitsValue_append, digitsValue_decimalText,
      Nat.add_mul, hValue, Nat.mul_assoc]
    have hPow :
        Nat.pow 10 fraction.length * Nat.pow 10 k =
          million := by
      change 10 ^ fraction.length * 10 ^ k = 1000000
      rw [← Nat.pow_add, hLength]
    rw [hPow, Nat.mul_comm]
    exact Nat.div_add_mod _ _
  have hShift :=
    Binary64.decimalMagnitude_shift
      (digitsValue
        (decimalText (micro.natAbs / million) ++ fraction))
      k (-6)
  rw [hAll, Binary64.decimalMagnitude_eq] at hShift
  rw [show (0 : Int) - fraction.length = -6 + k by omega,
    ← hShift]
  congr 2
  exact Nat.mul_one _

/-
  Degrees are read back from their text, to the millionth.
-/
theorem ofNumeral?_microText (micro : Int) :
    Binary64.ofNumeral? (microText micro) =
      some (ofMicro micro) := by
  rw [← text_microParts, NumeralParts.ofNumeral?_text,
    value_microParts]

/- The characters of millionths. -/
def isMicroChar (c : Char) : Bool :=
  isDigit c || c = '-' || c = '.'

/- Degrees are written in digits, a sign and a point. -/
theorem all_isMicroChar_microText (micro : Int) :
    (microText micro).all isMicroChar = true := by
  have hDigits {ds : List Char} (h : ds.all isDigit = true) :
      ds.all isMicroChar = true := by
    refine all_of_imp ?_ h
    intro c hc
    rw [isMicroChar, hc]
    rfl
  unfold microText
  rw [List.all_append, List.all_append, List.all_append,
    hDigits (all_isDigit_decimalText _),
    hDigits (all_isDigit_fractionText _)]
  split_ifs <;> rfl

/- None of these is blank. -/
theorem isBlank_of_isMicroChar
    {c : Char}
    (hc : isMicroChar c = true) :
    isBlank c = false := by
  simp only [isMicroChar, Bool.or_eq_true,
    decide_eq_true_eq] at hc
  rcases hc with (hDigit | rfl) | rfl
  · rw [isDigit, Bool.and_eq_true, decide_eq_true_eq,
      decide_eq_true_eq, Char.le_def, Char.le_def,
      UInt32.le_iff_toNat_le, UInt32.le_iff_toNat_le]
      at hDigit
    have hLow : 48 ≤ c.toNat := hDigit.1
    have hHigh : c.toNat ≤ 57 := hDigit.2
    simp [isBlank, CodeRange.anyCovers, CodeRange.Covers,
      blankRanges]
    omega
  · rfl
  · rfl

/- So there is nothing to trim. -/
theorem trimBlanks_microText (micro : Int) :
    trimBlanks (microText micro) = microText micro := by
  have hKeep (cs : List Char)
      (h : ∀ c ∈ cs, isBlank c = false) :
      cs.dropWhile isBlank = cs := by
    cases cs with
    | nil => rfl
    | cons c cs =>
        rw [List.dropWhile_cons,
          h c (List.mem_cons_self ..)]
        rfl
  have hBlank : ∀ c ∈ microText micro, isBlank c = false := by
    intro c hc
    apply isBlank_of_isMicroChar
    exact
      List.all_eq_true.mp (all_isMicroChar_microText micro) c hc
  unfold trimBlanks
  rw [hKeep _ hBlank, hKeep, List.reverse_reverse]
  intro c hc
  exact hBlank c (List.mem_reverse.mp hc)

theorem not_mem_microText
    (micro : Int)
    {c : Char}
    (hc : isMicroChar c = false) :
    c ∉ microText micro :=
  not_mem_of_all hc (all_isMicroChar_microText micro)

/- A text is split at its first comma. -/
theorem splitComma?_append
    {cs : List Char}
    (h : ',' ∉ cs)
    (ds : List Char) :
    splitComma? (cs ++ ',' :: ds) = some (cs, ds) := by
  induction cs with
  | nil => rfl
  | cons c cs ih =>
      rw [List.mem_cons, not_or] at h
      rw [List.cons_append, splitComma?, if_neg (Ne.symm h.1),
        ih h.2]
      rfl

/- What stands between the brackets. -/
def innerText (p : Coordinates) : List Char :=
  microText p.microLat ++ ',' :: microText p.microLng

/- The comma divides the numerals, as it is in neither. -/
theorem splitComma?_innerText (p : Coordinates) :
    splitComma? p.innerText =
      some (microText p.microLat, microText p.microLng) :=
  splitComma?_append (not_mem_microText _ rfl) _

/- The text is an inner one in round brackets. -/
theorem text_eq (p : Coordinates) :
    p.text = ['C'] ++ (['('] ++ p.innerText ++ [')']) := by
  simp [text, innerText]

/-
  The inner text has a comma, and else what degrees have.
-/
theorem not_mem_innerText
    (p : Coordinates)
    {c : Char}
    (hc : isMicroChar c = false)
    (hComma : c ≠ ',') :
    c ∉ p.innerText := by
  rw [innerText, List.mem_append, List.mem_cons, not_or,
    not_or]
  exact
    ⟨not_mem_microText _ hc, hComma, not_mem_microText _ hc⟩

/- Both degrees are read back from the text of a place. -/
theorem degrees?_text (p : Coordinates) :
    degrees? (['C', '('] ++ p.innerText ++ [')']) =
      some (p.latitude, p.longitude) := by
  have hBracketed :
      bracketed? (['C', '('] ++ p.innerText ++ [')']) =
        some p.innerText := by
    simp [bracketed?]
  rw [degrees?, hBracketed]
  simp [splitComma?_innerText, trimBlanks_microText,
    ofNumeral?_microText, latitude, longitude]

/- The place is read back from what is in its brackets. -/
theorem ofText_text
    {p : Coordinates}
    (hp : p.IsLegible) :
    ofText ("C(" ++ String.ofList p.innerText ++ ")") =
      .ok p := by
  have hText :
      ("C(" ++ String.ofList p.innerText ++ ")").toList =
        ['C', '('] ++ p.innerText ++ [')'] := by
    simp
  rw [ofText, hText, degrees?_text]
  exact ofDegrees_ofMicro hp

end Coordinates

end Haystack
