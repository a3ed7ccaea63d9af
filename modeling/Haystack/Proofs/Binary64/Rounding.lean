import Haystack.Binary64.Rounding
import Mathlib.Algebra.Order.Field.Power
import Mathlib.Data.Int.Log
import Mathlib.Data.Rat.Floor
import Mathlib.Tactic.FieldSimp
import Mathlib.Tactic.Linarith
import Mathlib.Tactic.NormNum
import Mathlib.Tactic.Positivity
import Mathlib.Tactic.Ring

/-
  This file shows what rounding a ratio to a number does: the
  result depends on the ratio alone, numbers round to
  themselves, and the error is at most half of what divides
  two neighbours.

  Key definitions include:
    * `Binary64.gridExponent`

  Main declarations:
    * `floorLog2_eq`
    * `Binary64.nearestMagnitude_congr`
    * `Binary64.nearestMagnitude_self`
    * `Binary64.decimalMagnitude_eq`
    * `Binary64.decimalMagnitude_shift`
-/

namespace Haystack

------------------------------------------------------------
-- Rounding to Whole Numbers
------------------------------------------------------------

/- A common factor changes nothing. -/
theorem roundQuotient_mul
    {k : Nat}
    (hk : 0 < k)
    (n d : Nat) :
    roundQuotient (k * n) (k * d) = roundQuotient n d := by
  have hLess :
      ∀ a b : Nat, 2 * (k * a) < k * b ↔ 2 * a < b := by
    intro a b
    rw [Nat.mul_left_comm]
    exact Nat.mul_lt_mul_left hk
  have hMore :
      ∀ a b : Nat, k * b < 2 * (k * a) ↔ b < 2 * a := by
    intro a b
    rw [Nat.mul_left_comm]
    exact Nat.mul_lt_mul_left hk
  simp only [roundQuotient, Nat.mul_div_mul_left n d hk,
    Nat.mul_mod_mul_left, hLess, hMore]

/- What is divided without a remainder is not rounded. -/
theorem roundQuotient_mul_self
    (m : Nat)
    {d : Nat}
    (hd : 0 < d) :
    roundQuotient (m * d) d = m := by
  simp [roundQuotient, Nat.mul_div_cancel m hd, hd]

/- Rounding goes down or up by less than one. -/
theorem roundQuotient_le
    {n d m : Nat}
    (hd : 0 < d)
    (h : n ≤ m * d) :
    roundQuotient n d ≤ m := by
  have hDiv : n / d ≤ m := by
    rw [← Nat.mul_div_cancel m hd]
    exact Nat.div_le_div_right h
  have hParts := Nat.div_add_mod n d
  rcases Nat.lt_or_eq_of_le hDiv with hLess | hEq
  · unfold roundQuotient
    dsimp only
    split_ifs <;> omega
  · have hMod : n % d = 0 := by
      rw [hEq, Nat.mul_comm] at hParts
      omega
    simp [roundQuotient, hMod, hd, hEq]

/- Less than a half is rounded to zero. -/
theorem roundQuotient_eq_zero
    {n d : Nat}
    (h : 2 * n < d) :
    roundQuotient n d = 0 := by
  have hDiv : n / d = 0 := Nat.div_eq_of_lt (by omega)
  have hMod : n % d = n := Nat.mod_eq_of_lt (by omega)
  simp [roundQuotient, hDiv, hMod, h]

/- A rounded quotient is at most one half away. -/
theorem abs_roundQuotient_sub_le
    {n d : Nat}
    (hd : 0 < d) :
    |(roundQuotient n d : ℚ) - n / d| ≤ 1 / 2 := by
  have hdQ : (0 : ℚ) < d := by exact_mod_cast hd
  have hParts : (n : ℚ) = d * (n / d : ℕ) + (n % d : ℕ) := by
    exact_mod_cast (Nat.div_add_mod n d).symm
  have hQuotient :
      (n : ℚ) / d = (n / d : ℕ) + (n % d : ℕ) / d := by
    rw [hParts]
    field_simp
  rw [hQuotient]
  have hNonneg : (0 : ℚ) ≤ (n % d : ℕ) / d := by positivity
  unfold roundQuotient
  dsimp only
  have hLow (h : 2 * (n % d) ≤ d) :
      ((n % d : ℕ) : ℚ) / d ≤ 1 / 2 := by
    rw [div_le_div_iff₀ hdQ (by norm_num)]
    have hQ : (2 * (n % d : ℕ) : ℚ) ≤ d := by
      exact_mod_cast h
    linarith
  have hHigh (h : d ≤ 2 * (n % d)) :
      (1 : ℚ) / 2 ≤ ((n % d : ℕ) : ℚ) / d := by
    rw [div_le_div_iff₀ (by norm_num) hdQ]
    have hQ : (d : ℚ) ≤ 2 * (n % d : ℕ) := by
      exact_mod_cast h
    linarith
  have hOne : ((n % d : ℕ) : ℚ) / d ≤ 1 := by
    rw [div_le_one hdQ]
    exact_mod_cast (Nat.mod_lt n hd).le
  split_ifs with hDown hUp hEven
  · rw [abs_le]
    constructor <;> linarith [hLow hDown.le]
  · rw [abs_le]
    push_cast
    constructor <;> linarith [hHigh hUp.le]
  · rw [abs_le]
    constructor <;> linarith [hLow (by omega)]
  · rw [abs_le]
    push_cast
    constructor <;> linarith [hHigh (by omega)]

------------------------------------------------------------
-- Powers on Both Sides of a Ratio
------------------------------------------------------------

/- A power, as a numerator and a denominator. -/
theorem zpow_eq_div
    {b : Nat}
    (hb : 0 < b)
    (z : Int) :
    (b : ℚ) ^ z =
      (Nat.pow b z.toNat : ℕ) / (Nat.pow b (-z).toNat : ℕ) := by
  have hbQ : (b : ℚ) ≠ 0 := by
    exact_mod_cast hb.ne'
  change _ = ((b ^ z.toNat : ℕ) : ℚ) / (b ^ (-z).toNat : ℕ)
  push_cast
  rw [eq_div_iff (pow_ne_zero _ hbQ), ← zpow_natCast,
    ← zpow_natCast, ← zpow_add₀ hbQ]
  congr 1
  omega

theorem natPow_pos
    {b : Nat}
    (hb : 0 < b)
    (n : Nat) :
    0 < Nat.pow b n :=
  Nat.pow_pos hb

theorem cast_natPow (b n : Nat) :
    ((Nat.pow b n : ℕ) : ℚ) = (b : ℚ) ^ n :=
  Nat.cast_pow b n

------------------------------------------------------------
-- Logarithms
------------------------------------------------------------

/- The logarithm is the exponent of the power below. -/
theorem log_eq_of_zpow_le
    {r : ℚ}
    {e : Int}
    (hLow : (2 : ℚ) ^ e ≤ r)
    (hHigh : r < (2 : ℚ) ^ (e + 1)) :
    Int.log 2 r = e := by
  have hr : 0 < r := lt_of_lt_of_le (by positivity) hLow
  have hAbove : e ≤ Int.log 2 r :=
    (Int.zpow_le_iff_le_log (by norm_num) hr).mp
      (by exact_mod_cast hLow)
  have hBelow : Int.log 2 r < e + 1 :=
    (Int.lt_zpow_iff_log_lt (by norm_num) hr).mp
      (by exact_mod_cast hHigh)
  omega

section Logarithms

variable {n d : Nat}

/-
  The logarithms of both numbers tell that of their ratio,
  but for one.
-/
theorem ratio_lt_of_log2 (hd : d ≠ 0) :
    (n : ℚ) / d < 2 ^ ((n.log2 : Int) - d.log2 + 1) := by
  have hdQ : (0 : ℚ) < d := by
    exact_mod_cast Nat.pos_of_ne_zero hd
  have hnHigh : (n : ℚ) < 2 ^ (n.log2 + 1) := by
    exact_mod_cast Nat.lt_log2_self
  have hdLow : ((2 : ℚ) ^ d.log2) ≤ d := by
    exact_mod_cast Nat.log2_self_le hd
  rw [div_lt_iff₀ hdQ]
  calc (n : ℚ)
      < 2 ^ (n.log2 + 1) := hnHigh
    _ = 2 ^ ((n.log2 : Int) - d.log2 + 1) * 2 ^ d.log2 := by
        rw [← zpow_natCast, ← zpow_natCast,
          ← zpow_add₀ (by norm_num)]
        congr 1
        push_cast
        ring
    _ ≤ 2 ^ ((n.log2 : Int) - d.log2 + 1) * d :=
        mul_le_mul_of_nonneg_left hdLow (by positivity)

/-
  The logarithms of its parts bound a quotient from below.
-/
theorem le_ratio_of_log2
    (hn : n ≠ 0)
    (hd : d ≠ 0) :
    (2 : ℚ) ^ ((n.log2 : Int) - d.log2 - 1) ≤ n / d := by
  have hdQ : (0 : ℚ) < d := by
    exact_mod_cast Nat.pos_of_ne_zero hd
  have hnLow : ((2 : ℚ) ^ n.log2) ≤ n := by
    exact_mod_cast Nat.log2_self_le hn
  have hdHigh : (d : ℚ) < 2 ^ (d.log2 + 1) := by
    exact_mod_cast Nat.lt_log2_self
  rw [le_div_iff₀ hdQ]
  calc (2 : ℚ) ^ ((n.log2 : Int) - d.log2 - 1) * d
      ≤ 2 ^ ((n.log2 : Int) - d.log2 - 1) *
          2 ^ (d.log2 + 1) :=
        mul_le_mul_of_nonneg_left hdHigh.le (by positivity)
    _ = 2 ^ n.log2 := by
        rw [← zpow_natCast, ← zpow_natCast,
          ← zpow_add₀ (by norm_num)]
        congr 1
        push_cast
        ring
    _ ≤ n := hnLow

/- Whole numbers are compared in place of the ratio. -/
theorem scaled_le_iff
    (hd : d ≠ 0)
    (e : Int) :
    d * Nat.pow 2 e.toNat ≤ n * Nat.pow 2 (-e).toNat ↔
      (2 : ℚ) ^ e ≤ n / d := by
  have hdQ : (0 : ℚ) < d := by
    exact_mod_cast Nat.pos_of_ne_zero hd
  have hPow := zpow_eq_div (Nat.zero_lt_two) e
  push_cast at hPow
  rw [hPow, div_le_div_iff₀
    (by exact_mod_cast natPow_pos Nat.zero_lt_two _) hdQ,
    mul_comm (Nat.cast _ : ℚ) (d : ℚ)]
  exact_mod_cast Iff.rfl

/- The logarithm that is computed is that of the ratio. -/
theorem floorLog2_eq
    (hn : n ≠ 0)
    (hd : d ≠ 0) :
    floorLog2 n d = Int.log 2 ((n : ℚ) / d) := by
  have hHigh := ratio_lt_of_log2 (n := n) hd
  have hLow := le_ratio_of_log2 hn hd
  unfold floorLog2
  dsimp only
  generalize (n.log2 : Int) - d.log2 = e at hHigh hLow ⊢
  by_cases h :
      d * Nat.pow 2 e.toNat ≤ n * Nat.pow 2 (-e).toNat
  · rw [if_pos h]
    exact
      (log_eq_of_zpow_le ((scaled_le_iff hd e).mp h) hHigh).symm
  · rw [if_neg h]
    refine (log_eq_of_zpow_le hLow ?_).symm
    rw [sub_add_cancel]
    exact not_le.mp (mt (scaled_le_iff hd e).mpr h)

end Logarithms

namespace Binary64

------------------------------------------------------------
-- The Nearest Magnitude
------------------------------------------------------------

/- The exponent of the grid that a ratio is rounded to. -/
def gridExponent (r : ℚ) : Int :=
  max (Int.log 2 r - 52) (-1074)

/-
  The nearest magnitude counts the binades below its own and
  the significand in it, up to the infinite one.
-/
theorem nearestMagnitude_eq
    {n d : Nat}
    {q : Int}
    (hn : n ≠ 0)
    (hd : d ≠ 0)
    (hq : gridExponent ((n : ℚ) / d) = q) :
    nearestMagnitude n d =
      min infiniteMagnitude
        ((q + 1074).toNat * binadeSize +
          roundQuotient (n * Nat.pow 2 (-q).toNat)
            (d * Nat.pow 2 q.toNat)) := by
  unfold gridExponent at hq
  rw [nearestMagnitude, if_neg hn, floorLog2_eq hn hd, hq]

/- Only the quotient matters, not how it is written. -/
theorem nearestMagnitude_mul
    {k d : Nat}
    (hk : 0 < k)
    (hd : d ≠ 0)
    (n : Nat) :
    nearestMagnitude (k * n) (k * d) =
      nearestMagnitude n d := by
  by_cases hn : n = 0
  · simp [nearestMagnitude, hn]
  · have hkQ : (k : ℚ) ≠ 0 := by exact_mod_cast hk.ne'
    have hRatio :
        ((k * n : ℕ) : ℚ) / (k * d : ℕ) = n / d := by
      push_cast
      exact mul_div_mul_left _ _ hkQ
    have hkn : k * n ≠ 0 := Nat.mul_ne_zero hk.ne' hn
    have hkd : k * d ≠ 0 := Nat.mul_ne_zero hk.ne' hd
    rw [nearestMagnitude_eq hkn hkd rfl,
      nearestMagnitude_eq hn hd rfl, hRatio,
      Nat.mul_assoc, Nat.mul_assoc, roundQuotient_mul hk]

/- What a ratio is rounded to depends on its value alone. -/
theorem nearestMagnitude_congr
    {n d n' d' : Nat}
    (hd : d ≠ 0)
    (hd' : d' ≠ 0)
    (h : n * d' = n' * d) :
    nearestMagnitude n d = nearestMagnitude n' d' := by
  rw [← nearestMagnitude_mul (Nat.pos_of_ne_zero hd') hd n,
    ← nearestMagnitude_mul (Nat.pos_of_ne_zero hd) hd' n',
    Nat.mul_comm d' n, h, Nat.mul_comm n' d,
    Nat.mul_comm d' d]

theorem nearestMagnitude_le_infinite
    (n d : Nat) :
    nearestMagnitude n d ≤ infiniteMagnitude := by
  unfold nearestMagnitude
  split_ifs
  · exact Nat.zero_le _
  · exact Nat.min_le_left _ _

------------------------------------------------------------
-- Numbers Round to Themselves
------------------------------------------------------------

theorem neg_le_exponent (x : Binary64) :
    -1074 ≤ x.exponent := by
  unfold exponent
  split_ifs with hSmall
  · exact Int.le_refl _
  · have hDiv : 1 ≤ x.magnitude / binadeSize :=
      (Nat.one_le_div_iff (by decide)).mpr (by omega)
    omega

/- A significand has at most 53 bits. -/
theorem significand_lt (x : Binary64) :
    x.significand < 2 * binadeSize := by
  unfold significand
  split_ifs with hSmall
  · omega
  · have hMod :=
      Nat.mod_lt x.magnitude (show 0 < binadeSize by decide)
    omega

/- Only on the lowest grid are there small significands. -/
theorem binadeSize_le_significand
    {x : Binary64}
    (hx : x.exponent ≠ -1074) :
    binadeSize ≤ x.significand := by
  unfold exponent at hx
  unfold significand
  split_ifs at hx ⊢ <;> omega

/- A magnitude counts the numbers of all grids below. -/
theorem magnitude_eq (x : Binary64) :
    x.magnitude =
      (x.exponent + 1074).toNat * binadeSize +
        x.significand := by
  unfold exponent significand
  split_ifs with hSmall
  · simp
  · have hDiv : 1 ≤ x.magnitude / binadeSize :=
      (Nat.one_le_div_iff (by decide)).mpr (by omega)
    have hParts := Nat.div_add_mod x.magnitude binadeSize
    rw [Nat.mul_comm] at hParts
    have hIndex :
        (((x.magnitude / binadeSize : ℕ) : Int) - 1075 +
            1074).toNat + 1 =
          x.magnitude / binadeSize := by
      omega
    rw [← hIndex, Nat.add_mul, Nat.one_mul] at hParts
    omega

/- The exact size of a finite number. -/
def size (x : Binary64) : ℚ :=
  x.numerator / x.denominator

/- A number is its significand times a power of two. -/
theorem size_eq (x : Binary64) :
    x.size = x.significand * (2 : ℚ) ^ x.exponent := by
  have hPow := zpow_eq_div Nat.zero_lt_two x.exponent
  push_cast at hPow
  rw [size, numerator, denominator, hPow]
  push_cast
  ring

theorem denominator_ne_zero (x : Binary64) :
    x.denominator ≠ 0 :=
  (natPow_pos Nat.zero_lt_two _).ne'

/- Only zero has no significand. -/
theorem significand_ne_zero
    {x : Binary64}
    (hx : x.magnitude ≠ 0) :
    x.significand ≠ 0 := by
  unfold significand
  have hPos : 0 < binadeSize := by decide
  split_ifs <;> omega

/- A number lies on the grid that it is rounded to. -/
theorem gridExponent_size
    {x : Binary64}
    (hx : x.magnitude ≠ 0) :
    gridExponent x.size = x.exponent := by
  have hs : x.significand ≠ 0 := significand_ne_zero hx
  have hsQ : (0 : ℚ) < x.significand := by
    exact_mod_cast Nat.pos_of_ne_zero hs
  have hSize : 0 < x.size := by
    rw [size_eq]
    positivity
  have hLess : (x.significand : ℚ) < 2 ^ (53 : Int) := by
    have hNat := significand_lt x
    rw [binadeSize] at hNat
    norm_num
    exact_mod_cast hNat
  have hHigh : x.size < 2 ^ (x.exponent + 53) := by
    rw [size_eq, zpow_add₀ (by norm_num), mul_comm]
    exact mul_lt_mul_of_pos_left hLess (by positivity)
  have hLogHigh : Int.log 2 x.size < x.exponent + 53 :=
    (Int.lt_zpow_iff_log_lt (by norm_num) hSize).mp
      (by exact_mod_cast hHigh)
  have hLowest := neg_le_exponent x
  unfold gridExponent
  by_cases hExponent : x.exponent = -1074
  · omega
  · have hMore : (2 : ℚ) ^ (52 : Int) ≤ x.significand := by
      have hNat := binadeSize_le_significand hExponent
      rw [binadeSize] at hNat
      norm_num
      exact_mod_cast hNat
    have hLow : (2 : ℚ) ^ (x.exponent + 52) ≤ x.size := by
      rw [size_eq, zpow_add₀ (by norm_num), mul_comm]
      exact mul_le_mul_of_nonneg_right hMore (by positivity)
    have hLogLow : x.exponent + 52 ≤ Int.log 2 x.size :=
      (Int.zpow_le_iff_le_log (by norm_num) hSize).mp
        (by exact_mod_cast hLow)
    omega

/- A finite number is the one nearest to itself. -/
theorem nearestMagnitude_self
    {x : Binary64}
    (hx : x.IsFinite) :
    nearestMagnitude x.numerator x.denominator =
      x.magnitude := by
  by_cases hZero : x.magnitude = 0
  · have hs : x.significand = 0 := by
      simp [significand, hZero, binadeSize]
    simp [nearestMagnitude, numerator, hs, hZero]
  · have hn : x.numerator ≠ 0 :=
      Nat.mul_ne_zero (significand_ne_zero hZero)
        (natPow_pos Nat.zero_lt_two _).ne'
    have hPos :
        0 < x.denominator * Nat.pow 2 x.exponent.toNat :=
      Nat.mul_pos (natPow_pos Nat.zero_lt_two _)
        (natPow_pos Nat.zero_lt_two _)
    have hRound :
        roundQuotient
            (x.numerator * Nat.pow 2 (-x.exponent).toNat)
            (x.denominator * Nat.pow 2 x.exponent.toNat) =
          x.significand := by
      rw [← roundQuotient_mul_self x.significand hPos,
        numerator, denominator]
      congr 1
      ring
    rw [nearestMagnitude_eq hn (denominator_ne_zero x)
        (gridExponent_size hZero), hRound, ← magnitude_eq]
    exact Nat.min_eq_right (Nat.le_of_lt hx)

------------------------------------------------------------
-- Decimals
------------------------------------------------------------

/- Ratios from a certain size on round to infinity. -/
theorem nearestMagnitude_eq_infinite
    {n d : Nat}
    {e : Int}
    (hd : d ≠ 0)
    (he : 1025 ≤ e)
    (h : (2 : ℚ) ^ e ≤ n / d) :
    nearestMagnitude n d = infiniteMagnitude := by
  have hr : (0 : ℚ) < n / d :=
    lt_of_lt_of_le (by positivity) h
  have hn : n ≠ 0 := by
    rintro rfl
    simp at hr
  have hLog : e ≤ Int.log 2 ((n : ℚ) / d) :=
    (Int.zpow_le_iff_le_log (by norm_num) hr).mp
      (by exact_mod_cast h)
  rw [nearestMagnitude_eq hn hd rfl]
  apply Nat.min_eq_left
  unfold gridExponent infiniteMagnitude
  refine Nat.le_trans ?_ (Nat.le_add_right _ _)
  exact Nat.mul_le_mul_right _ (by omega)

/- Ratios below a certain size round to zero. -/
theorem nearestMagnitude_eq_zero
    {n d : Nat}
    {e : Int}
    (hd : d ≠ 0)
    (he : e ≤ -1075)
    (h : (n : ℚ) / d < (2 : ℚ) ^ e) :
    nearestMagnitude n d = 0 := by
  by_cases hn : n = 0
  · simp [nearestMagnitude, hn]
  · have hdQ : (0 : ℚ) < d := by
      exact_mod_cast Nat.pos_of_ne_zero hd
    have hr : (0 : ℚ) < n / d :=
      div_pos (by exact_mod_cast Nat.pos_of_ne_zero hn) hdQ
    have hLog : Int.log 2 ((n : ℚ) / d) < e :=
      (Int.lt_zpow_iff_log_lt (by norm_num) hr).mp
        (by exact_mod_cast h)
    -- the number 1074 stays a variable, so that no power of
    -- it is computed
    obtain ⟨k, hk⟩ : ∃ k : Nat, k = 1074 := ⟨1074, rfl⟩
    have hGrid : gridExponent ((n : ℚ) / d) = -(k : Int) := by
      unfold gridExponent
      omega
    have hHalf :
        2 * (n * Nat.pow 2 k) < d * Nat.pow 2 0 := by
      have hPow : (2 : ℚ) ^ e ≤ 2 ^ (-((k + 1 : ℕ) : Int)) :=
        zpow_le_zpow_right₀ (by norm_num)
          (by push_cast; omega)
      have hLess := lt_of_lt_of_le h hPow
      rw [zpow_neg, div_lt_iff₀ hdQ, inv_mul_eq_div,
        lt_div_iff₀ (by positivity), zpow_natCast] at hLess
      have hNat : n * 2 ^ (k + 1) < d := by
        exact_mod_cast hLess
      rw [pow_succ, ← Nat.mul_assoc, Nat.mul_comm] at hNat
      rwa [show d * Nat.pow 2 0 = d from Nat.mul_one d]
    rw [nearestMagnitude_eq hn hd hGrid,
      show (-(-(k : Int))).toNat = k by omega,
      show (-(k : Int)).toNat = 0 by omega,
      show (-(k : Int) + 1074).toNat = 0 by omega,
      roundQuotient_eq_zero hHalf]
    simp

/- Three binary digits count less than a decimal one. -/
theorem two_pow_le_ten_pow (n : Nat) :
    (2 : ℚ) ^ (3 * n) ≤ 10 ^ n := by
  rw [pow_mul]
  exact pow_le_pow_left₀ (by norm_num) (by norm_num) n

/- Decimals with a large exponent round to infinity. -/
theorem nearestMagnitude_of_large
    {digits n : Nat}
    (hDigits : digits ≠ 0)
    (hn : 400 < n) :
    nearestMagnitude (digits * Nat.pow 10 n)
        (Nat.pow 10 0) =
      infiniteMagnitude := by
  have hOne : (1 : ℚ) ≤ digits := by
    exact_mod_cast Nat.pos_of_ne_zero hDigits
  have hExponent : (1025 : Int) ≤ (3 * n : ℕ) := by
    omega
  refine
    nearestMagnitude_eq_infinite
      (natPow_pos (by decide) 0).ne' hExponent ?_
  rw [zpow_natCast, Nat.cast_mul, cast_natPow, cast_natPow,
    pow_zero, div_one]
  exact
    le_trans (two_pow_le_ten_pow n)
      (le_mul_of_one_le_left (by positivity) hOne)

/- Decimals with a small exponent round to zero. -/
theorem nearestMagnitude_of_small
    {digits n : Nat}
    (hn : 400 + digits.log2 < n) :
    nearestMagnitude (digits * Nat.pow 10 0)
        (Nat.pow 10 n) =
      0 := by
  have hDigits : (digits : ℚ) < 2 ^ (digits.log2 + 1) := by
    exact_mod_cast Nat.lt_log2_self
  have hExponent :
      ((digits.log2 + 1 : ℕ) : Int) - (3 * n : ℕ) ≤
        -1075 := by
    omega
  refine
    nearestMagnitude_eq_zero (natPow_pos (by decide) n).ne'
      hExponent ?_
  rw [Nat.cast_mul, cast_natPow, cast_natPow, pow_zero,
    mul_one, zpow_sub₀ (by norm_num), zpow_natCast,
    zpow_natCast]
  calc (digits : ℚ) / 10 ^ n
      ≤ digits / 2 ^ (3 * n) :=
        div_le_div_of_nonneg_left (by positivity)
          (by positivity) (two_pow_le_ten_pow n)
    _ < 2 ^ (digits.log2 + 1) / 2 ^ (3 * n) :=
        div_lt_div_of_pos_right hDigits (by positivity)

/-
  A decimal is rounded as the ratio that it is; the cases of
  extreme exponents only save work.
-/
theorem decimalMagnitude_eq
    (digits : Nat)
    (exponent : Int) :
    decimalMagnitude digits exponent =
      nearestMagnitude
        (digits * Nat.pow 10 exponent.toNat)
        (Nat.pow 10 (-exponent).toNat) := by
  unfold decimalMagnitude
  by_cases hZero : digits = 0
  · simp [hZero, nearestMagnitude]
  rw [if_neg hZero]
  by_cases hLarge : 400 < exponent
  · rw [if_pos hLarge, show (-exponent).toNat = 0 by omega]
    exact (nearestMagnitude_of_large hZero (by omega)).symm
  rw [if_neg hLarge]
  by_cases hSmall : exponent < -(400 + digits.log2 : Nat)
  · rw [if_pos hSmall, show exponent.toNat = 0 by omega]
    exact (nearestMagnitude_of_small (by omega)).symm
  · rw [if_neg hSmall]

/- However big a decimal is, it is not beyond infinity. -/
theorem decimalMagnitude_le_infinite
    (digits : Nat)
    (exponent : Int) :
    decimalMagnitude digits exponent ≤ infiniteMagnitude := by
  rw [decimalMagnitude_eq]
  exact nearestMagnitude_le_infinite _ _

/- Zeros at the end of the digits count as an exponent. -/
theorem decimalMagnitude_shift
    (digits k : Nat)
    (exponent : Int) :
    decimalMagnitude (digits * Nat.pow 10 k) exponent =
      decimalMagnitude digits (exponent + k) := by
  rw [decimalMagnitude_eq, decimalMagnitude_eq]
  have hPos (n : Nat) : Nat.pow 10 n ≠ 0 :=
    (natPow_pos (by decide) n).ne'
  apply nearestMagnitude_congr (hPos _) (hPos _)
  change digits * 10 ^ k * 10 ^ exponent.toNat *
      10 ^ (-(exponent + k)).toNat =
    digits * 10 ^ (exponent + k).toNat *
      10 ^ (-exponent).toNat
  rw [Nat.mul_assoc, Nat.mul_assoc, Nat.mul_assoc,
    ← pow_add, ← pow_add, ← pow_add]
  congr 2
  omega

end Binary64

end Haystack
