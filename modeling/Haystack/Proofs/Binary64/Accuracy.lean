import Haystack.Proofs.Binary64.Shortest

/-
  This file shows how near a rounded ratio is to the ratio,
  and that rounding keeps the order of ratios.

  Main declarations:
    * `Binary64.nearestMagnitude_mono`
    * `Binary64.size_le_of_magnitude_le`
    * `Binary64.size_ofRatio_of_gridExponent`
    * `Binary64.abs_size_ofRatio_sub_le`
-/

namespace Haystack

------------------------------------------------------------
-- Order of Rounded Quotients
------------------------------------------------------------

/- A bigger numerator is not rounded to a smaller number. -/
theorem roundQuotient_mono
    {n n' : Nat}
    (h : n ≤ n')
    (d : Nat) :
    roundQuotient n d ≤ roundQuotient n' d := by
  have hDiv : n / d ≤ n' / d := Nat.div_le_div_right h
  have hParts := Nat.div_add_mod n d
  have hParts' := Nat.div_add_mod n' d
  unfold roundQuotient
  dsimp only
  rcases Nat.lt_or_eq_of_le hDiv with hLess | hSame
  · split_ifs <;> omega
  · rw [hSame] at hParts ⊢
    split_ifs <;> omega

/-
  A quotient that is at most a whole number is not rounded
  above it.
-/
theorem roundQuotient_le_of_div_le
    {n d m : Nat}
    (hd : 0 < d)
    (h : (n : ℚ) / d ≤ m) :
    roundQuotient n d ≤ m := by
  have hdQ : (0 : ℚ) < d := by exact_mod_cast hd
  apply roundQuotient_le hd
  rw [div_le_iff₀ hdQ] at h
  exact_mod_cast h

/-
  A quotient that is at least a whole number is not rounded
  below it.
-/
theorem le_roundQuotient_of_le_div
    {n d m : Nat}
    (hd : 0 < d)
    (h : (m : ℚ) ≤ n / d) :
    m ≤ roundQuotient n d := by
  have hdQ : (0 : ℚ) < d := by exact_mod_cast hd
  rw [le_div_iff₀ hdQ] at h
  have hNat : m * d ≤ n := by exact_mod_cast h
  rw [← roundQuotient_mul_self m hd]
  exact roundQuotient_mono hNat d

namespace Binary64

/- The ratio in units of its grid. -/
theorem scaled_ratio
    (n d : Nat)
    (q : Int) :
    ((n * Nat.pow 2 (-q).toNat : ℕ) : ℚ) /
        (d * Nat.pow 2 q.toNat : ℕ) =
      n / d / 2 ^ q := by
  have hPow := zpow_eq_div Nat.zero_lt_two q
  push_cast at hPow
  rw [hPow]
  push_cast
  rw [div_div_eq_mul_div, div_mul_eq_mul_div, div_div]

section Grid

variable {n d : Nat}
variable {q : Int}

theorem scaled_pos (hd : d ≠ 0) :
    0 < d * Nat.pow 2 q.toNat :=
  Nat.mul_pos (Nat.pos_of_ne_zero hd)
    (natPow_pos Nat.zero_lt_two _)

theorem ratio_pos
    (hn : n ≠ 0)
    (hd : d ≠ 0) :
    (0 : ℚ) < n / d :=
  div_pos (by exact_mod_cast Nat.pos_of_ne_zero hn)
    (by exact_mod_cast Nat.pos_of_ne_zero hd)

/- A ratio is less than two to the 53rd units of its grid. -/
theorem roundQuotient_le_of_gridExponent
    (hn : n ≠ 0)
    (hd : d ≠ 0)
    (hq : gridExponent ((n : ℚ) / d) = q) :
    roundQuotient (n * Nat.pow 2 (-q).toNat)
        (d * Nat.pow 2 q.toNat) ≤
      2 * binadeSize := by
  apply roundQuotient_le_of_div_le (scaled_pos hd)
  have hLog : Int.log 2 ((n : ℚ) / d) < q + 53 := by
    unfold gridExponent at hq
    omega
  have hLess : (n : ℚ) / d < 2 ^ (q + 53) :=
    (Int.lt_zpow_iff_log_lt (by norm_num)
      (ratio_pos hn hd)).mpr hLog
  rw [scaled_ratio, div_le_iff₀ (by positivity)]
  rw [zpow_add₀ (by norm_num), mul_comm] at hLess
  unfold binadeSize
  norm_num at hLess ⊢
  exact hLess.le

/- Above the lowest grid it is at least half of that. -/
theorem le_roundQuotient_of_gridExponent
    (hn : n ≠ 0)
    (hd : d ≠ 0)
    (hq : gridExponent ((n : ℚ) / d) = q)
    (hLowest : -1074 < q) :
    binadeSize ≤
      roundQuotient (n * Nat.pow 2 (-q).toNat)
        (d * Nat.pow 2 q.toNat) := by
  apply le_roundQuotient_of_le_div (scaled_pos hd)
  have hLog : q + 52 ≤ Int.log 2 ((n : ℚ) / d) := by
    unfold gridExponent at hq
    omega
  have hLe : (2 : ℚ) ^ (q + 52) ≤ n / d :=
    (Int.zpow_le_iff_le_log (by norm_num)
      (ratio_pos hn hd)).mpr hLog
  rw [scaled_ratio, le_div_iff₀ (by positivity)]
  rw [zpow_add₀ (by norm_num), mul_comm] at hLe
  unfold binadeSize
  norm_num at hLe ⊢
  exact hLe

end Grid

------------------------------------------------------------
-- Order of Numbers
------------------------------------------------------------

/-
  Rounding keeps the order of quotients: it is enough to
  compare their exponents, and their significands if those
  are the same.
-/
theorem nearestMagnitude_mono_left
    {n n' d : Nat}
    (hd : d ≠ 0)
    (h : n ≤ n') :
    nearestMagnitude n d ≤ nearestMagnitude n' d := by
  by_cases hn : n = 0
  · simp [hn, nearestMagnitude]
  have hn' : n' ≠ 0 := by omega
  have hdQ : (0 : ℚ) < d := by
    exact_mod_cast Nat.pos_of_ne_zero hd
  have hRatio : (n : ℚ) / d ≤ n' / d := by
    gcongr
  have hGrid :
      gridExponent ((n : ℚ) / d) ≤
        gridExponent ((n' : ℚ) / d) := by
    have hLog :=
      Int.log_mono_right (b := 2) (ratio_pos hn hd) hRatio
    unfold gridExponent
    omega
  rw [nearestMagnitude_eq hn hd rfl,
    nearestMagnitude_eq hn' hd rfl]
  apply min_le_min_left
  have hLowest : -1074 ≤ gridExponent ((n : ℚ) / d) :=
    le_max_right _ _
  generalize hq : gridExponent ((n : ℚ) / d) = q at *
  generalize hq' : gridExponent ((n' : ℚ) / d) = q' at *
  rcases Int.lt_or_eq_of_le hGrid with hLess | rfl
  · -- the next grid starts where this one ends
    have hHigh := roundQuotient_le_of_gridExponent hn hd hq
    have hLow :=
      le_roundQuotient_of_gridExponent hn' hd hq' (by omega)
    have hNext :
        ((q + 1074).toNat + 1) * binadeSize ≤
          (q' + 1074).toNat * binadeSize :=
      Nat.mul_le_mul_right _ (by omega)
    rw [Nat.add_mul, Nat.one_mul] at hNext
    omega
  · apply Nat.add_le_add_left
    apply roundQuotient_mono
    exact Nat.mul_le_mul_right _ h

/- A greater ratio is never rounded to a smaller number. -/
theorem nearestMagnitude_mono
    {n d n' d' : Nat}
    (hd : d ≠ 0)
    (hd' : d' ≠ 0)
    (h : n * d' ≤ n' * d) :
    nearestMagnitude n d ≤ nearestMagnitude n' d' := by
  rw [← nearestMagnitude_mul (Nat.pos_of_ne_zero hd') hd n,
    ← nearestMagnitude_mul (Nat.pos_of_ne_zero hd) hd' n',
    Nat.mul_comm d' n, Nat.mul_comm d n', Nat.mul_comm d d']
  exact nearestMagnitude_mono_left (Nat.mul_ne_zero hd' hd) h

/- Sizes are compared without any division. -/
theorem size_le_iff (x y : Binary64) :
    x.size ≤ y.size ↔
      x.numerator * y.denominator ≤
        y.numerator * x.denominator := by
  have hx : (0 : ℚ) < x.denominator := by
    exact_mod_cast Nat.pos_of_ne_zero (denominator_ne_zero x)
  have hy : (0 : ℚ) < y.denominator := by
    exact_mod_cast Nat.pos_of_ne_zero (denominator_ne_zero y)
  rw [size, size, div_le_div_iff₀ hx hy]
  exact_mod_cast Iff.rfl

/- Finite numbers are ordered by size as by magnitude. -/
theorem size_le_of_magnitude_le
    {x y : Binary64}
    (hx : x.IsFinite)
    (hy : y.IsFinite)
    (h : x.magnitude ≤ y.magnitude) :
    x.size ≤ y.size := by
  by_contra hLess
  have hMore := (size_le_iff y x).mp (not_le.mp hLess).le
  have hBack :=
    nearestMagnitude_mono (denominator_ne_zero y)
      (denominator_ne_zero x) hMore
  rw [nearestMagnitude_self hx, nearestMagnitude_self hy]
    at hBack
  have hSame : x.magnitude = y.magnitude :=
    Nat.le_antisymm h hBack
  apply hLess
  rw [size_eq, size_eq, significand, significand, exponent,
    exponent, hSame]

------------------------------------------------------------
-- Error of Rounded Ratios
------------------------------------------------------------

/- A magnitude tells the size, whichever grid it is taken on. -/
theorem size_of_magnitude_eq
    {x : Binary64}
    {q : Int}
    {m : Nat}
    (hq : -1074 ≤ q)
    (hLow : binadeSize ≤ m)
    (hHigh : m ≤ 2 * binadeSize)
    (h :
      x.magnitude = (q + 1074).toNat * binadeSize + m) :
    x.size = m * (2 : ℚ) ^ q := by
  have hPos : 0 < binadeSize := by decide
  have hMore : ¬ x.magnitude < binadeSize := by omega
  rw [size_eq, significand, exponent, if_neg hMore,
    if_neg hMore, h]
  rcases Nat.lt_or_eq_of_le hHigh with hLess | rfl
  · have hDiv :
        ((q + 1074).toNat * binadeSize + m) / binadeSize =
          (q + 1074).toNat + 1 := by
      rw [Nat.mul_comm, Nat.mul_add_div hPos]
      have hOne : m / binadeSize = 1 :=
        Nat.div_eq_of_lt_le (by omega) (by omega)
      omega
    have hMod :
        ((q + 1074).toNat * binadeSize + m) % binadeSize +
            binadeSize =
          m := by
      rw [Nat.mul_comm, Nat.mul_add_mod,
        Nat.mod_eq_sub_mod hLow, Nat.mod_eq_of_lt (by omega)]
      omega
    rw [hDiv, hMod,
      show (((q + 1074).toNat + 1 : ℕ) : Int) - 1075 = q by
        omega]
  · have hSum :
        (q + 1074).toNat * binadeSize + 2 * binadeSize =
          ((q + 1074).toNat + 2) * binadeSize := by
      ring
    rw [hSum, Nat.mul_mod_left, Nat.mul_div_cancel _ hPos,
      Nat.zero_add,
      show (((q + 1074).toNat + 2 : ℕ) : Int) - 1075 =
          q + 1 by
        omega,
      zpow_add₀ (by norm_num)]
    push_cast
    ring

/-
  Away from both ends of the range, a ratio is rounded to a
  multiple of the step of its grid.
-/
theorem size_ofRatio_of_gridExponent
    (negative : Bool)
    {n d : Nat}
    (hn : n ≠ 0)
    (hd : d ≠ 0)
    {q : Int}
    (hq : gridExponent ((n : ℚ) / d) = q)
    (hLow : -1074 < q)
    (hHigh : q ≤ 8) :
    (ofRatio negative n d).size =
      roundQuotient (n * Nat.pow 2 (-q).toNat)
          (d * Nat.pow 2 q.toNat) *
        (2 : ℚ) ^ q := by
  have hMagnitude := nearestMagnitude_eq hn hd hq
  have hTop := roundQuotient_le_of_gridExponent hn hd hq
  have hBottom :=
    le_roundQuotient_of_gridExponent hn hd hq hLow
  generalize
    roundQuotient (n * Nat.pow 2 (-q).toNat)
      (d * Nat.pow 2 q.toNat) = m at *
  have hFinite :
      (q + 1074).toNat * binadeSize + m < infiniteMagnitude := by
    have hIndex :
        (q + 1074).toNat * binadeSize ≤ 1082 * binadeSize :=
      Nat.mul_le_mul_right _ (by omega)
    have hPos : 0 < binadeSize := by decide
    unfold infiniteMagnitude
    omega
  rw [Nat.min_eq_right hFinite.le] at hMagnitude
  apply size_of_magnitude_eq hLow.le hBottom hTop
  rw [ofRatio, hMagnitude]
  apply magnitude_ofMagnitude
  apply Nat.lt_trans hFinite
  decide

/-
  Well inside the range, a rounded ratio is off by no more
  than its 2 ^ 53rd part.
-/
theorem abs_size_ofRatio_sub_le
    (negative : Bool)
    {n d : Nat}
    (hd : d ≠ 0)
    (hLow : (2 : ℚ) ^ (-60 : Int) ≤ n / d)
    (hHigh : (n : ℚ) / d < 2 ^ (60 : Int)) :
    |(ofRatio negative n d).size - n / d| ≤
      n / d * 2 ^ (-53 : Int) := by
  have hRatio : (0 : ℚ) < n / d :=
    lt_of_lt_of_le (by positivity) hLow
  have hn : n ≠ 0 := by
    rintro rfl
    simp at hRatio
  have hLogLow : -60 ≤ Int.log 2 ((n : ℚ) / d) :=
    (Int.zpow_le_iff_le_log (by norm_num) hRatio).mp
      (by exact_mod_cast hLow)
  have hLogHigh : Int.log 2 ((n : ℚ) / d) < 60 :=
    (Int.lt_zpow_iff_log_lt (by norm_num) hRatio).mp
      (by exact_mod_cast hHigh)
  have hLogLe :
      (2 : ℚ) ^ Int.log 2 ((n : ℚ) / d) ≤ n / d := by
    exact_mod_cast Int.zpow_log_le_self (by norm_num) hRatio
  have hGrid :
      gridExponent ((n : ℚ) / d) =
        Int.log 2 ((n : ℚ) / d) - 52 := by
    unfold gridExponent
    omega
  generalize hq : gridExponent ((n : ℚ) / d) = q at *
  have hNear :=
    abs_roundQuotient_sub_le (n := n * Nat.pow 2 (-q).toNat)
      (scaled_pos (q := q) hd)
  have hSize :=
    size_ofRatio_of_gridExponent negative hn hd hq (by omega)
      (by omega)
  rw [scaled_ratio] at hNear
  generalize
    roundQuotient (n * Nat.pow 2 (-q).toNat)
      (d * Nat.pow 2 q.toNat) = m at *
  have hUnit : (0 : ℚ) < 2 ^ q := by positivity
  have hError :
      (m : ℚ) * 2 ^ q - n / d =
        (m - n / d / 2 ^ q) * 2 ^ q := by
    field_simp
  rw [hSize, hError, abs_mul, abs_of_pos hUnit]
  calc |(m : ℚ) - n / d / 2 ^ q| * 2 ^ q
      ≤ 1 / 2 * 2 ^ q := by gcongr
    _ = 2 ^ Int.log 2 ((n : ℚ) / d) * 2 ^ (-53 : Int) := by
        rw [← zpow_add₀ (by norm_num),
          show (1 : ℚ) / 2 = 2 ^ (-1 : Int) by norm_num,
          ← zpow_add₀ (by norm_num)]
        congr 1
        omega
    _ ≤ n / d * 2 ^ (-53 : Int) := by gcongr

end Binary64

end Haystack
