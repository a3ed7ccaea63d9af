import Haystack.Proofs.Text.Digits
import Haystack.Zinc.Quoting
import Mathlib.Data.List.Forall2

/-
  This file shows that quoted texts are read back from all
  their spellings, of which the written one is one. The
  reader stops right behind the closing quote.

  Key definitions include:
    * `Zinc.shortEscapes`
    * `Zinc.utf16Units`
    * `Zinc.IsHexOf`
    * `Zinc.SpellsChar`
    * `Zinc.IsSpelling`

  Main declarations:
    * `Zinc.SpellsChar.reads_quotedChar`
    * `Zinc.IsSpelling.reads_quoted`
    * `Zinc.isSpelling_quote`
    * `Zinc.quoted_reads_every_spelling`
-/

namespace Haystack

namespace Zinc

open Scan

------------------------------------------------------------
-- Spellings
------------------------------------------------------------

/- The letters of the short escapes and what they stand for. -/
def shortEscapes : List (Char × Char) :=
  [('b', '\x08'), ('f', '\x0c'), ('n', '\n'), ('r', '\r'),
    ('t', '\t'), ('"', '"'), ('$', '$'), ('\\', '\\')]

/- The code units of a character in UTF-16. -/
def utf16Units (c : Char) : List Nat :=
  if c.toNat < 0x10000 then [c.toNat]
  else
    [0xD800 + (c.toNat - 0x10000) / 0x400,
      0xDC00 + (c.toNat - 0x10000) % 0x400]

/- The four hexadecimal digits of a unit, in either case. -/
def IsHexOf
    (unit : Nat)
    (digits : List Char) : Prop :=
  digits.map Char.toLower = hexText4 unit

instance (unit : Nat) (digits : List Char) :
    Decidable (IsHexOf unit digits) :=
  inferInstanceAs (Decidable (_ = _))

/- The spellings of one character between quotes. -/
inductive SpellsChar : Char → List Char → Prop where
| raw
    {c : Char}
    (hRaw : c ∉ ['"', '\\', '\n', '\r']) :
    SpellsChar c [c]
| short
    {letter c : Char}
    (hShort : (letter, c) ∈ shortEscapes) :
    SpellsChar c ['\\', letter]
| units
    {c : Char}
    {digits : List (List Char)}
    (hDigits : List.Forall₂ IsHexOf (utf16Units c) digits) :
    SpellsChar c (digits.flatMap (['\\', 'u'] ++ ·))

/- Between the quotes, each character is spelled somehow. -/
def IsSpelling
    (s : String)
    (text : List Char) : Prop :=
  ∃ pieces,
    List.Forall₂ SpellsChar s.toList pieces ∧
      text = '"' :: (pieces.flatten ++ ['"'])

------------------------------------------------------------
-- Escapes
------------------------------------------------------------

/- A short escape is read as the character it stands for. -/
theorem reads_escaped_short
    {letter c : Char}
    (hShort : (letter, c) ∈ shortEscapes)
    (rest : List Char) :
    Reads escaped ['\\', letter] c rest := by
  have hRead :
      ∀ pair ∈ shortEscapes,
        shortEscape? pair.1 = some pair.2 := by
    decide
  unfold escaped
  refine Reads.advance_bind ?_ '\\'
  rw [reads_current_bind]
  simp only [List.cons_append, List.head?_cons,
    hRead (letter, c) hShort]
  exact (reads_pure c rest).advance_bind letter

/- The code of a character gives it back. -/
theorem reads_charOf
    (c : Char)
    (rest : List Char) :
    Reads (charOf c.toNat) [] c rest := by
  have hValid : c.toNat.isValidChar := c.valid
  rw [charOf, if_pos hValid, Char.ofNat_toNat]
  exact reads_pure c rest

namespace IsHexOf

variable {unit : Nat}
variable {digits : List Char}

/- The digits of a unit stand for it. -/
theorem digitsOver?_eq
    (hDigits : IsHexOf unit digits) :
    digitsOver? 16 hexValue? digits 0 = some unit := by
  rw [← digitsOver?_map_toLower, hDigits]
  exact digitsOver?_hexText4 unit

/- Digits for a code unit are read as that unit. -/
theorem reads_fourHexDigits
    (hDigits : IsHexOf unit digits)
    (hUnit : unit < 16 ^ 4)
    (rest : List Char) :
    Reads fourHexDigits digits unit rest := by
  have hLength : digits.length = 4 := by
    rw [← List.length_map Char.toLower, hDigits]
    exact length_hexText4 hUnit
  have hReads :=
    reads_digitsOf .hexDigit rest hDigits.digitsOver?_eq
  rwa [hLength] at hReads

/- There is no newline among digits. -/
theorem not_mem_newline
    (hDigits : IsHexOf unit digits) :
    '\n' ∉ digits :=
  not_mem_of_digitsOver? rfl hDigits.digitsOver?_eq

end IsHexOf

/-
  The digits of a character of one unit are read as it, and
  an escape behind them stays where it is.
-/
theorem reads_unicodeEscape_of_one_unit
    {c : Char}
    {digits : List Char}
    (hCode : c.toNat < 0x10000)
    (hDigits : IsHexOf c.toNat digits)
    (rest : List Char) :
    Reads unicodeEscape digits c rest := by
  have hNotSurrogate :
      c.toNat < 0xD800 ∨ 0xDFFF < c.toNat :=
    c.valid.imp_right And.left
  unfold unicodeEscape
  refine (hDigits.reads_fourHexDigits hCode rest).bind_last ?_
  rw [reads_current_bind, reads_next_bind,
    if_neg (by omega)]
  exact reads_charOf c rest

/- The digits of a pair of units are read as one character. -/
theorem reads_unicodeEscape_of_two_units
    {c : Char}
    {high low : List Char}
    (hCode : 0x10000 ≤ c.toNat)
    (hHigh :
      IsHexOf (0xD800 + (c.toNat - 0x10000) / 0x400) high)
    (hLow :
      IsHexOf (0xDC00 + (c.toNat - 0x10000) % 0x400) low)
    (rest : List Char) :
    Reads unicodeEscape (high ++ (['\\', 'u'] ++ low)) c
      rest := by
  have hMax : c.toNat < 0x110000 :=
    c.valid.elim
      (fun hSmall => Nat.lt_trans hSmall (by decide))
      And.right
  have hUnits :
      0x10000 +
            ((0xD800 + (c.toNat - 0x10000) / 0x400) - 0xD800) *
              0x400 +
          ((0xDC00 + (c.toNat - 0x10000) % 0x400) - 0xDC00) =
        c.toNat := by
    omega
  unfold unicodeEscape
  refine (hHigh.reads_fourHexDigits (by omega) _).bind ?_
  rw [reads_current_bind, reads_next_bind,
    if_pos ⟨by omega, by omega, rfl, rfl⟩]
  refine Reads.advance_bind ?_ '\\'
  refine Reads.advance_bind ?_ 'u'
  refine (hLow.reads_fourHexDigits (by omega) rest).bind_last ?_
  rw [if_pos (by omega), hUnits]
  exact reads_charOf c rest

/- The escapes of the units of a character are read as it. -/
theorem reads_escaped_units
    {c : Char}
    {digits : List (List Char)}
    (hDigits : List.Forall₂ IsHexOf (utf16Units c) digits)
    (rest : List Char) :
    Reads escaped (digits.flatMap (['\\', 'u'] ++ ·)) c
      rest := by
  have hBehind :
      ∀ {text},
        Reads unicodeEscape text c rest →
          Reads escaped (['\\', 'u'] ++ text) c rest := by
    intro text hText
    unfold escaped
    refine Reads.advance_bind ?_ '\\'
    rw [reads_current_bind]
    exact hText.advance_bind 'u'
  unfold utf16Units at hDigits
  split_ifs at hDigits with hCode
  · rcases List.forall₂_cons_left_iff.mp hDigits with
      ⟨one, none, hOne, hNone, rfl⟩
    rw [List.forall₂_nil_left_iff.mp hNone,
      List.flatMap_singleton]
    exact hBehind
      (reads_unicodeEscape_of_one_unit hCode hOne rest)
  · rcases List.forall₂_cons_left_iff.mp hDigits with
      ⟨high, lows, hHigh, hLows, rfl⟩
    rcases List.forall₂_cons_left_iff.mp hLows with
      ⟨low, none, hLow, hNone, rfl⟩
    rw [List.forall₂_nil_left_iff.mp hNone, List.flatMap_cons,
      List.flatMap_singleton, List.append_assoc]
    exact hBehind
      (reads_unicodeEscape_of_two_units (by omega) hHigh hLow
        rest)

------------------------------------------------------------
-- Single Characters
------------------------------------------------------------

/- What begins with a backslash is read as an escape. -/
theorem reads_quotedChar_of_escaped
    {text : List Char}
    {c : Char}
    {rest : List Char}
    (hText : text.head? = some '\\')
    (hReads : Reads escaped text c rest) :
    Reads quotedChar? text (some c) rest := by
  unfold quotedChar?
  rw [reads_current_bind, List.head?_append, hText]
  exact hReads.bind_pure some

/- What is spelled by codes starts with a backslash. -/
theorem head_flatMap_units
    {c : Char}
    {digits : List (List Char)}
    (hDigits : List.Forall₂ IsHexOf (utf16Units c) digits) :
    (digits.flatMap (['\\', 'u'] ++ ·)).head? = some '\\' := by
  cases digits with
  | nil =>
      rw [List.forall₂_nil_right_iff, utf16Units] at hDigits
      split_ifs at hDigits
  | cons first more => rfl

namespace SpellsChar

variable {c : Char}
variable {text : List Char}

/- Each spelling of a character is read as it. -/
theorem reads_quotedChar
    (hSpells : SpellsChar c text)
    (rest : List Char) :
    Reads quotedChar? text (some c) rest := by
  cases hSpells with
  | raw hRaw =>
      simp only [List.mem_cons, List.not_mem_nil, or_false,
        not_or] at hRaw
      rcases hRaw with ⟨hQuote, hBackslash, hNewline, hReturn⟩
      unfold quotedChar?
      rw [reads_current_bind]
      simp only [List.cons_append, List.nil_append,
        List.head?_cons, hQuote, hNewline, hReturn,
        hBackslash, or_self, if_false]
      exact (reads_pure (some c) rest).advance_bind c
  | short hShort =>
      exact reads_quotedChar_of_escaped rfl
        (reads_escaped_short hShort rest)
  | units hDigits =>
      exact reads_quotedChar_of_escaped
        (head_flatMap_units hDigits)
        (reads_escaped_units hDigits rest)

/- No spelling is empty. -/
theorem ne_nil (hSpells : SpellsChar c text) : text ≠ [] := by
  cases hSpells with
  | raw hRaw => exact List.cons_ne_nil _ _
  | short hShort => exact List.cons_ne_nil _ _
  | units hDigits =>
      intro hNil
      have hHead := head_flatMap_units hDigits
      rw [hNil] at hHead
      cases hHead

/- No spelling has a newline. -/
theorem not_mem_newline
    (hSpells : SpellsChar c text) :
    '\n' ∉ text := by
  cases hSpells with
  | raw hRaw =>
      intro hMem
      rw [List.mem_singleton] at hMem
      subst hMem
      exact hRaw (by decide)
  | short hShort =>
      have hLetters :
          ∀ pair ∈ shortEscapes, pair.1 ≠ '\n' := by
        decide
      simpa [eq_comm] using hLetters _ hShort
  | units hDigits =>
      generalize utf16Units c = units at hDigits
      induction hDigits with
      | nil => exact List.not_mem_nil
      | cons hFirst _ ih =>
          rw [List.flatMap_cons, List.mem_append]
          exact not_or.mpr
            ⟨by simpa using hFirst.not_mem_newline, ih⟩

end SpellsChar

/- What is written for a character is one of its spellings. -/
theorem spellsChar_escape (c : Char) :
    SpellsChar c (escape c) := by
  have hControls :
      ∀ n < 32, IsHexOf n (hexText4 n) := by
    decide
  unfold escape
  split_ifs with hNewline hReturn hTab hQuote hBackslash
    hControl
  · subst hNewline
    exact .short (by decide)
  · subst hReturn
    exact .short (by decide)
  · subst hTab
    exact .short (by decide)
  · subst hQuote
    exact .short (by decide)
  · subst hBackslash
    exact .short (by decide)
  · have hCode : c.toNat < 32 := Char.lt_def.mp hControl
    have hUnits : utf16Units c = [c.toNat] :=
      if_pos (Nat.lt_trans hCode (by decide))
    have hDigits :
        List.Forall₂ IsHexOf (utf16Units c)
          [hexText4 c.toNat] := by
      rw [hUnits]
      exact .cons (hControls _ hCode) .nil
    have hSpells := SpellsChar.units hDigits
    rwa [List.flatMap_singleton] at hSpells
  · exact .raw (by simp [*])

/- The character is no control character. -/
def isPrintable (c : Char) : Bool :=
  ' ' ≤ c

/-
  Whatever a character is, it is written with printable
  ones.
-/
theorem all_isPrintable_escape (c : Char) :
    (escape c).all isPrintable = true := by
  have hControls : ∀ n < 32,
      (['\\', 'u'] ++ hexText4 n).all isPrintable = true := by
    decide
  unfold escape
  split_ifs with _ _ _ _ _ hControl
  · rfl
  · rfl
  · rfl
  · rfl
  · rfl
  · exact hControls c.toNat (Char.lt_def.mp hControl)
  · simpa [isPrintable] using hControl

------------------------------------------------------------
-- Quoted Texts
------------------------------------------------------------

/- Spelled characters are read one after the other. -/
theorem collectsOn_quotedChar
    {cs : List Char}
    {pieces : List (List Char)}
    (hPieces : List.Forall₂ SpellsChar cs pieces)
    (rest : List Char) :
    CollectsOn quotedChar? pieces.flatten cs
      ('"' :: rest) := by
  induction hPieces with
  | nil => exact .stop (reads_pure none _)
  | cons hFirst _ ih =>
      exact .next (hFirst.reads_quotedChar _) hFirst.ne_nil ih

/- A text is read from each of its spellings. -/
theorem IsSpelling.reads_quoted
    {s : String}
    {text : List Char}
    (hText : IsSpelling s text)
    (rest : List Char) :
    Reads quoted text s rest := by
  rcases hText with ⟨pieces, hPieces, rfl⟩
  unfold quoted
  refine Reads.advance_bind ?_ '"'
  apply (collectsOn_quotedChar hPieces rest).reads.bind
  have hGiven := reads_pure (String.ofList s.toList) rest
  rw [String.ofList_toList] at hGiven ⊢
  exact hGiven.advance_bind '"'

/- What is written for a text is one of its spellings. -/
theorem isSpelling_quote (s : String) :
    IsSpelling s (quote s.toList) := by
  refine ⟨s.toList.map escape, ?_, rfl⟩
  rw [List.forall₂_map_right_iff, List.forall₂_same]
  exact fun c _ => spellsChar_escape c

/- A text between quotes is read back. -/
theorem reads_quoted_quote
    (cs : List Char)
    (rest : List Char) :
    Reads quoted (quote cs) (String.ofList cs) rest := by
  have hSpelling := isSpelling_quote (String.ofList cs)
  rw [String.toList_ofList] at hSpelling
  exact hSpelling.reads_quoted rest

/- Control characters are spelled out. -/
theorem all_isPrintable_quote (cs : List Char) :
    (quote cs).all isPrintable = true := by
  have hChars : (cs.flatMap escape).all isPrintable = true := by
    rw [List.all_flatMap, List.all_eq_true]
    exact fun c _ => all_isPrintable_escape c
  rw [quote, List.all_append, List.all_append, hChars]
  rfl

/- No line ends within a spelling. -/
theorem IsSpelling.not_mem_newline
    {s : String}
    {text : List Char}
    (hText : IsSpelling s text) :
    '\n' ∉ text := by
  rcases hText with ⟨pieces, hPieces, rfl⟩
  have hInner : '\n' ∉ pieces.flatten := by
    generalize s.toList = cs at hPieces
    induction hPieces with
    | nil => exact List.not_mem_nil
    | cons hFirst _ ih =>
        rw [List.flatten_cons, List.mem_append]
        exact not_or.mpr ⟨hFirst.not_mem_newline, ih⟩
  simpa using hInner

/-
  A text is read from each of its spellings, up to the
  closing quote and no further. What is written for it is
  one of them, and has no control characters in it.
-/
theorem quoted_reads_every_spelling (s : String) :
    (∀ text,
      IsSpelling s text →
        ∀ rest line,
          quoted ⟨text ++ rest, line⟩ = .ok s ⟨rest, line⟩) ∧
      IsSpelling s (quote s.toList) ∧
      ∀ c ∈ quote s.toList, ' ' ≤ c := by
  refine ⟨?_, isSpelling_quote s, ?_⟩
  · intro text hText rest line
    have hReads := hText.reads_quoted rest line
    have hLine := List.count_eq_zero.mpr hText.not_mem_newline
    rwa [hLine, Nat.add_zero] at hReads
  · intro c hc
    have hPrintable :=
      List.all_eq_true.mp (all_isPrintable_quote s.toList) c hc
    simpa [isPrintable] using hPrintable

/- A pair of units in both cases, and a short escape. -/
theorem quoted_reads_smileyPrice :
    IsSpelling "😀$" "\"\\uD83D\\ude00\\$\"".toList ∧
      quoted
          ⟨"\"\\uD83D\\ude00\\$\"".toList ++ ['!'], 1⟩ =
        .ok "😀$" ⟨['!'], 1⟩ := by
  have hDigits :
      List.Forall₂ IsHexOf (utf16Units '😀')
        ["D83D".toList, "de00".toList] :=
    .cons (by decide) (.cons (by decide) .nil)
  have hDollar : SpellsChar '$' "\\$".toList :=
    .short (by decide)
  have hText :
      IsSpelling "😀$" "\"\\uD83D\\ude00\\$\"".toList :=
    ⟨["\\uD83D\\ude00".toList, "\\$".toList],
      .cons (.units hDigits) (.cons hDollar .nil), rfl⟩
  exact
    ⟨hText,
      (quoted_reads_every_spelling _).1 _ hText ['!'] 1⟩

end Zinc

end Haystack
