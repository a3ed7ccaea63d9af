import Haystack.Proofs.Text.Reads
import Mathlib.Algebra.Order.Group.Nat

/-
  This file shows that written numbers are read back: digits
  stand for the number that they were written for, however
  many zeros come before them.

  Main declarations:
    * `digitsValue_decimalText`
    * `digitsValue_paddedText`
    * `Scan.reads_digitsOf`
    * `Scan.reads_twoDigits_paddedText`
    * `length_hexText4`
    * `digitsOver?_hexText4`
    * `digitsOver?_map_toLower`
-/

namespace Haystack

------------------------------------------------------------
-- Values of Digits
------------------------------------------------------------

theorem digitsValue_eq (cs : List Char) :
    digitsValue cs = Nat.ofDigitChars 10 cs 0 :=
  rfl

@[simp]
theorem digitsValue_nil : digitsValue [] = 0 :=
  rfl

/- Digits in front count for the power of those behind. -/
theorem digitsValue_append (cs ds : List Char) :
    digitsValue (cs ++ ds) =
      digitsValue cs * Nat.pow 10 ds.length +
        digitsValue ds := by
  rw [digitsValue_eq, digitsValue_eq, digitsValue_eq,
    Nat.ofDigitChars_append,
    Nat.ofDigitChars_eq_ofDigitChars_zero, Nat.mul_comm]
  rfl

/- Zeros alone stand for zero. -/
theorem digitsValue_replicate_zero (n : Nat) :
    digitsValue (List.replicate n '0') = 0 := by
  rw [digitsValue_eq, Nat.ofDigitChars_replicate_zero,
    Nat.mul_zero]

/- Zeros at the end multiply by a power of ten. -/
theorem digitsValue_append_replicate_zero
    (cs : List Char)
    (n : Nat) :
    digitsValue (cs ++ List.replicate n '0') =
      digitsValue cs * Nat.pow 10 n := by
  rw [digitsValue_append, digitsValue_replicate_zero,
    List.length_replicate, Nat.add_zero]

/- A number is read back from its digits. -/
@[simp]
theorem digitsValue_decimalText (n : Nat) :
    digitsValue (decimalText n) = n :=
  Nat.ofDigitChars_ten_toDigits

/- Zeros in front do not count. -/
@[simp]
theorem digitsValue_paddedText (width n : Nat) :
    digitsValue (paddedText width n) = n := by
  rw [paddedText, List.leftpad, digitsValue_append,
    digitsValue_replicate_zero, digitsValue_decimalText,
    Nat.zero_mul, Nat.zero_add]

------------------------------------------------------------
-- Characters of One Class
------------------------------------------------------------

section Classes

variable {p q : Char → Bool}
variable {c : Char}
variable {cs : List Char}

/- What is of one class is of every wider class. -/
theorem all_of_imp
    (h : ∀ c, p c = true → q c = true)
    (hcs : cs.all p = true) :
    cs.all q = true := by
  rw [List.all_eq_true] at hcs ⊢
  exact fun c hc => h c (hcs c hc)

/- A character that is not of the class does not occur. -/
theorem not_mem_of_all
    (hc : p c = false)
    (hcs : cs.all p = true) :
    c ∉ cs := by
  intro hMem
  rw [List.all_eq_true.mp hcs c hMem] at hc
  cases hc

/- Marks that are not in a class are no characters of it. -/
theorem not_mem_marks
    {marks : List Char}
    (hp : marks.all (fun c => !p c) = true)
    (hc : p c = true) :
    c ∉ marks := by
  intro hMem
  have hNot := List.all_eq_true.mp hp c hMem
  rw [hc] at hNot
  cases hNot

theorem all_not_mem_of
    {marks : List Char}
    (hp : marks.all (fun c => !p c) = true)
    (hcs : cs.all p = true) :
    cs.all (fun c => c ∉ marks) = true :=
  all_of_imp (fun _ hc => decide_eq_true (not_mem_marks hp hc))
    hcs

end Classes

------------------------------------------------------------
-- Digits and Their Number
------------------------------------------------------------

theorem isDigit_of_char_isDigit
    {c : Char}
    (hc : c.isDigit = true) :
    isDigit c = true := by
  simpa [isDigit, Char.isDigit, Char.le_def] using hc

/- Numbers are written in digits, and nothing else. -/
theorem all_isDigit_decimalText (n : Nat) :
    (decimalText n).all isDigit = true := by
  rw [List.all_eq_true]
  intro c hc
  exact isDigit_of_char_isDigit
    (Nat.isDigit_of_mem_toDigits (by decide) (by decide) hc)

/- A number shows a digit at least. -/
theorem decimalText_ne_nil (n : Nat) :
    decimalText n ≠ [] :=
  Nat.toDigits_ne_nil

theorem all_isDigit_replicate_zero (n : Nat) :
    (List.replicate n '0').all isDigit = true := by
  rw [List.all_eq_true]
  intro c hc
  rw [List.eq_of_mem_replicate hc]
  rfl

/- A padded numeral has digits only. -/
theorem all_isDigit_paddedText (width n : Nat) :
    (paddedText width n).all isDigit = true := by
  rw [paddedText, List.leftpad, List.all_append,
    all_isDigit_replicate_zero, all_isDigit_decimalText]
  rfl

/- What all digits are, padded numbers are throughout. -/
theorem all_paddedText
    {p : Char → Bool}
    (hDigit : ∀ c, isDigit c = true → p c = true)
    (width n : Nat) :
    (paddedText width n).all p = true :=
  all_of_imp hDigit (all_isDigit_paddedText width n)

theorem paddedText_ne_nil (width n : Nat) :
    paddedText width n ≠ [] := by
  simp [paddedText, List.leftpad, decimalText_ne_nil]

/- Numbers below a power of ten fill just the width. -/
theorem length_paddedText
    {width n : Nat}
    (hWidth : 0 < width)
    (hn : n < 10 ^ width) :
    (paddedText width n).length = width := by
  have hLength :=
    (Nat.length_toDigits_le_iff (by decide) hWidth).mpr hn
  rw [paddedText, List.length_leftpad, decimalText]
  omega

------------------------------------------------------------
-- Reading Digits
------------------------------------------------------------

/- The number that digits of a base lead to from another. -/
def digitsOver?
    (base : Nat)
    (value? : Char → Option Nat)
    (cs : List Char)
    (start : Nat) : Option Nat :=
  cs.foldlM
    (fun n c => (value? c).map (fun d => base * n + d)) start

/-
  Digits go on from the number that those before them make.
-/
theorem digitsOver?_append
    (base : Nat)
    (value? : Char → Option Nat)
    (cs ds : List Char)
    (start : Nat) :
    digitsOver? base value? (cs ++ ds) start =
      (digitsOver? base value? cs start).bind
        (digitsOver? base value? ds) := by
  rw [digitsOver?, List.foldlM_append]
  rfl

/- What is no digit does not stand among digits. -/
theorem not_mem_of_digitsOver?
    {base : Nat}
    {value? : Char → Option Nat}
    {c : Char}
    {cs : List Char}
    {start n : Nat}
    (hc : value? c = none)
    (hValue : digitsOver? base value? cs start = some n) :
    c ∉ cs := by
  intro hMem
  rcases List.append_of_mem hMem with ⟨before, after, rfl⟩
  rw [digitsOver?_append] at hValue
  rcases Option.bind_eq_some_iff.mp hValue with
    ⟨m, -, hAfter⟩
  rw [digitsOver?, List.foldlM_cons, hc] at hAfter
  cases hAfter

namespace Scan

/- Digits that make a number are read as that number. -/
theorem reads_digitsOf
    {base : Nat}
    {value? : Char → Option Nat}
    (what : Expected)
    {cs : List Char}
    {start n : Nat}
    (rest : List Char)
    (hValue : digitsOver? base value? cs start = some n) :
    Reads (digitsOf base value? what cs.length start) cs n
      rest := by
  induction cs generalizing start with
  | nil =>
      cases hValue
      exact reads_pure _ rest
  | cons c cs ih =>
      rw [digitsOver?, List.foldlM_cons] at hValue
      cases hDigit : value? c with
      | none => simp [hDigit] at hValue
      | some d =>
          rw [hDigit] at hValue
          rw [List.length_cons, digitsOf, reads_current_bind]
          simp only [List.cons_append, List.head?_cons,
            Option.bind_some, hDigit]
          exact (ih hValue).advance_bind c

end Scan

/- Decimal digits always make a number. -/
theorem digitsOver?_digitValue?
    {cs : List Char}
    (hDigits : cs.all isDigit = true)
    (start : Nat) :
    digitsOver? 10 digitValue? cs start =
      some (Nat.ofDigitChars 10 cs start) := by
  induction cs generalizing start with
  | nil => rfl
  | cons c cs ih =>
      rw [List.all_cons, Bool.and_eq_true] at hDigits
      rw [digitsOver?, List.foldlM_cons, digitValue?,
        if_pos hDigits.1, Nat.ofDigitChars_cons]
      exact ih hDigits.2 _

namespace Scan

/- Two digits stand for the number written in two places. -/
theorem reads_twoDigits_paddedText
    (what : Expected)
    {n : Nat}
    (hn : n < 100)
    (rest : List Char) :
    Reads (twoDigits what) (paddedText 2 n) n rest := by
  have hValue :=
    digitsOver?_digitValue? (all_isDigit_paddedText 2 n) 0
  have hReads := reads_digitsOf what rest hValue
  rw [length_paddedText (by decide) hn, ← digitsValue_eq,
    digitsValue_paddedText] at hReads
  exact hReads

end Scan

------------------------------------------------------------
-- Hexadecimal Digits
------------------------------------------------------------

/- The digit of a number below 16 has this value. -/
theorem hexValue?_digitChar
    {d : Nat}
    (hd : d < 16) :
    hexValue? (Nat.digitChar d) = some d := by
  have hAll :
      ∀ d < 16, hexValue? (Nat.digitChar d) = some d := by
    decide
  exact hAll d hd

/- A number is read back from its hexadecimal digits. -/
theorem digitsOver?_hexText
    (n : Nat) :
    digitsOver? 16 hexValue? (hexText n) 0 = some n := by
  induction n using Nat.strongRecOn with
  | ind n ih =>
      rw [hexText, Nat.toDigits_eq_if (by decide)]
      by_cases hn : n < 16
      · rw [if_pos hn, digitsOver?, List.foldlM_cons,
          hexValue?_digitChar hn]
        simp
      · rw [if_neg hn, digitsOver?_append]
        have hFront := ih (n / 16) (by omega)
        rw [hexText] at hFront
        rw [hFront, Option.bind_some,
          digitsOver?, List.foldlM_cons,
          hexValue?_digitChar (Nat.mod_lt n (by decide))]
        simp [Nat.div_add_mod]

/- Zeros are worth nothing. -/
theorem digitsOver?_replicate_zero
    (n : Nat) :
    digitsOver? 16 hexValue? (List.replicate n '0') 0 =
      some 0 := by
  induction n with
  | zero => rfl
  | succ n ih =>
      rw [List.replicate_succ, digitsOver?, List.foldlM_cons]
      exact ih

/- Numbers of 16 bits have four digits. -/
theorem length_hexText4
    {n : Nat}
    (hn : n < 16 ^ 4) :
    (hexText4 n).length = 4 := by
  have hLength :=
    (Nat.length_toDigits_le_iff (by decide)
      (by decide)).mpr hn
  rw [hexText4, List.length_leftpad, hexText]
  omega

/- Leading zeros do not change the number. -/
theorem digitsOver?_hexText4
    (n : Nat) :
    digitsOver? 16 hexValue? (hexText4 n) 0 = some n := by
  rw [hexText4, List.leftpad, digitsOver?_append,
    digitsOver?_replicate_zero, Option.bind_some,
    digitsOver?_hexText]

/- The case of a hexadecimal digit does not matter. -/
theorem hexValue?_toLower (c : Char) :
    hexValue? c.toLower = hexValue? c := by
  have hLetters :
      ∀ n < 0x80,
        hexValue? (Char.ofNat n).toLower =
          hexValue? (Char.ofNat n) := by
    decide
  by_cases hc : c.toNat < 0x80
  · have hLetter := hLetters c.toNat hc
    rwa [Char.ofNat_toNat] at hLetter
  · have hLarge : ¬c.val ≤ 'Z'.val := by
      intro hLe
      exact hc
        (Nat.lt_of_le_of_lt (UInt32.le_iff_toNat_le.mp hLe)
          (by decide))
    have hSame : c.toLower = c :=
      dif_neg (fun h => hLarge h.2)
    rw [hSame]

/- Hexadecimal digits may have either case. -/
theorem digitsOver?_map_toLower
    (cs : List Char)
    (start : Nat) :
    digitsOver? 16 hexValue? (cs.map Char.toLower) start =
      digitsOver? 16 hexValue? cs start := by
  rw [digitsOver?, List.foldlM_map]
  simp only [hexValue?_toLower]
  rfl

end Haystack
