import Haystack.Proofs.Text.Takes
import Haystack.Proofs.Zinc.Enclosed
import Mathlib

/-
  This file weighs the spellings of a backslash by its code
  that a text contains. Only such a spelling leads to a URI
  that its own text misspells, and then the text of the URI
  weighs less than what it was read from.

  Key definitions include:
    * `Trail`
    * `Trail.next`
    * `Trail.gain`
    * `burden`
    * `Uri.cost`

  Main declarations:
    * `Zinc.burden_uri`
-/

namespace Haystack

------------------------------------------------------------
-- Backslashes by Code
------------------------------------------------------------

/- The characters that spell characters by their code. -/
def isEscapeChar (c : Char) : Bool :=
  c = '\\' || c = 'u' || (hexValue? c).isSome

/-
  How much of `\u005c` has just been read, or that all of it
  stands before, with no other kind of character since.
-/
inductive Trail where
| matched (n : Nat)
| behind
deriving DecidableEq, Repr

namespace Trail

/- The character with this index in `\u005c`, up to `5`. -/
def spells : Nat → Char → Bool
| 0, c => c = '\\'
| 1, c => c = 'u'
| 2, c => c = '0'
| 3, c => c = '0'
| 4, c => c = '5'
| _, _ => false

/- The character, in either case, ends the spelling. -/
def completes (n : Nat) (c : Char) : Bool :=
  n = 5 && (c = 'c' || c = 'C')

/-
  One character further. After a backslash the next one is
  its own and starts nothing.
-/
def next (t : Trail) (c : Char) : Trail :=
  if isEscapeChar c then
    match t with
    | behind => behind
    | matched n =>
        if completes n c then behind
        else if spells n c then matched (n + 1)
        else if c = '\\' ∧ n ≠ 1 then matched 1
        else matched 0
  else matched 0

/- What the character adds to the burden of a text. -/
def gain (t : Trail) (c : Char) : Nat :=
  match t with
  | behind => if isEscapeChar c then 1 else 0
  | matched n => if completes n c then 6 else 0

/- The trail behind a text. -/
def after (t : Trail) (cs : List Char) : Trail :=
  cs.foldl next t

/- What a spelling has got, which counts when it ends. -/
def credit : Trail → Nat
| matched n => n
| behind => 0

end Trail

/-
  The number of characters that a text has in each of its
  runs of escape characters, from the first spelling of a
  backslash on.
-/
def burden : Trail → List Char → Nat
| _, [] => 0
| t, c :: cs => t.gain c + burden (t.next c) cs

/- At the start of a text nothing has been read. -/
abbrev Trail.start : Trail :=
  .matched 0

namespace Trail

variable {t : Trail}
variable {c : Char}

/-
  The burden of a text adds up over its parts, each at the
  trail it is met at.
-/
theorem burden_append
    (t : Trail)
    (cs ds : List Char) :
    burden t (cs ++ ds) =
      burden t cs + burden (t.after cs) ds := by
  induction cs generalizing t with
  | nil => simp [burden, after]
  | cons c cs ih =>
      rw [List.cons_append, burden, burden, ih, Nat.add_assoc]
      rfl

/- A trail goes over the parts of a text one by one. -/
theorem after_append
    (t : Trail)
    (cs ds : List Char) :
    t.after (cs ++ ds) = (t.after cs).after ds :=
  List.foldl_append ..

/- Other characters end a run. -/
theorem next_of_not_isEscapeChar
    (hc : isEscapeChar c = false) :
    t.next c = start := by
  simp [next, hc]

/- Only escape characters are counted. -/
theorem gain_of_not_isEscapeChar
    (hc : isEscapeChar c = false) :
    t.gain c = 0 := by
  cases t with
  | behind => simp [gain, hc]
  | matched n =>
      have hNot : completes n c = false := by
        by_contra hCompletes
        simp only [completes, Bool.not_eq_false,
          Bool.and_eq_true, Bool.or_eq_true,
          decide_eq_true_eq] at hCompletes
        rcases hCompletes.2 with rfl | rfl <;> cases hc
      simp [gain, hNot]

/- A text starts anew behind one of them. -/
theorem burden_cons
    (hc : isEscapeChar c = false)
    (t : Trail)
    (cs : List Char) :
    burden t (c :: cs) = burden start cs := by
  rw [burden, gain_of_not_isEscapeChar hc,
    next_of_not_isEscapeChar hc, Nat.zero_add]

/- At the start only a backslash counts. -/
theorem next_start
    (hc : c ≠ '\\') :
    start.next c = start := by
  unfold next
  split_ifs
  · simp [completes, spells, hc]
  · rfl

/- At the start of a run nothing is counted yet. -/
theorem gain_start (c : Char) : start.gain c = 0 :=
  rfl

/- A character counts for one, with what its run has got. -/
theorem gain_add_credit_le
    (t : Trail)
    (c : Char) :
    t.gain c + (t.next c).credit ≤ t.credit + 1 := by
  cases hc : isEscapeChar c with
  | false =>
      rw [next_of_not_isEscapeChar hc,
        gain_of_not_isEscapeChar hc]
      exact Nat.zero_le _
  | true =>
      cases t with
      | behind => simp [gain, next, hc, credit]
      | matched n =>
          unfold gain next
          rw [if_pos hc]
          dsimp only
          split_ifs with hCompletes
          · simp only [completes, Bool.and_eq_true,
              decide_eq_true_eq] at hCompletes
            simp [credit, hCompletes.1]
          all_goals simp [credit]

/- A run goes on with more of its characters. -/
theorem after_behind
    {cs : List Char}
    (hcs : cs.all isEscapeChar = true) :
    behind.after cs = behind ∧
      burden behind cs = cs.length := by
  induction cs with
  | nil => exact ⟨rfl, rfl⟩
  | cons c cs ih =>
      rw [List.all_cons, Bool.and_eq_true] at hcs
      have hNext : behind.next c = behind := by
        simp [next, hcs.1]
      have hMore := ih hcs.2
      constructor
      · change (behind.next c).after cs = behind
        rw [hNext]
        exact hMore.1
      · rw [burden, hNext, hMore.2, List.length_cons]
        simp [gain, hcs.1, Nat.add_comm]

/- The digits of a code. -/
structure IsCode (a b c d : Char) : Prop where
  first : (hexValue? a).isSome = true
  second : (hexValue? b).isSome = true
  third : (hexValue? c).isSome = true
  fourth : (hexValue? d).isSome = true

/- The digits of the code of a backslash. -/
def IsBackslashCode (a b c d : Char) : Prop :=
  a = '0' ∧ b = '0' ∧ c = '5' ∧ (d = 'c' ∨ d = 'C')

/- Hexadecimal digits are escape characters. -/
theorem isEscapeChar_of_hexValue
    (hc : (hexValue? c).isSome = true) :
    isEscapeChar c = true := by
  simp [isEscapeChar, hc]

theorem ne_backslash_of_hexValue
    (hc : (hexValue? c).isSome = true) :
    c ≠ '\\' := by
  rintro rfl
  cases hc

/- A digit goes on with a spelling, or ends the attempt. -/
theorem next_of_hexValue
    (n : Nat)
    (hc : (hexValue? c).isSome = true) :
    (matched n).next c =
      if completes n c then behind
      else if spells n c then matched (n + 1)
      else start := by
  unfold next
  rw [if_pos (isEscapeChar_of_hexValue hc)]
  simp [ne_backslash_of_hexValue hc]

/- Without a backslash nothing starts. -/
theorem after_start
    {cs : List Char}
    (hcs : '\\' ∉ cs) :
    start.after cs = start ∧ burden start cs = 0 := by
  induction cs with
  | nil => exact ⟨rfl, rfl⟩
  | cons c cs ih =>
      rw [List.mem_cons, not_or] at hcs
      have hNext := next_start (Ne.symm hcs.1)
      have hMore := ih hcs.2
      constructor
      · change (start.next c).after cs = start
        rw [hNext]
        exact hMore.1
      · rw [burden, hNext, hMore.2, gain_start]

/- A spelling by code leads on only if it is a backslash. -/
theorem after_start_code
    {a b c d : Char}
    (h : IsCode a b c d) :
    (start.after ['\\', 'u', a, b, c, d] = behind ∧
        burden start ['\\', 'u', a, b, c, d] = 6) ∨
      (¬ IsBackslashCode a b c d ∧
        start.after ['\\', 'u', a, b, c, d] = start) := by
  have hA : (matched 2).next a =
      if a = '0' then matched 3 else start := by
    rw [next_of_hexValue 2 h.first]
    simp [completes, spells]
  have hB : (matched 3).next b =
      if b = '0' then matched 4 else start := by
    rw [next_of_hexValue 3 h.second]
    simp [completes, spells]
  have hC : (matched 4).next c =
      if c = '5' then matched 5 else start := by
    rw [next_of_hexValue 4 h.third]
    simp [completes, spells]
  have hD : (matched 5).next d =
      if d = 'c' ∨ d = 'C' then behind else start := by
    rw [next_of_hexValue 5 h.fourth]
    simp [completes, spells]
  have hText (cs : List Char) :
      start.after ('\\' :: 'u' :: cs) = (matched 2).after cs :=
    rfl
  have hNot : ∀ cs : List Char,
      (∀ x ∈ cs, (hexValue? x).isSome = true) →
        start.after cs = start := by
    intro cs hcs
    refine (after_start ?_).1
    intro hMem
    exact ne_backslash_of_hexValue (hcs _ hMem) rfl
  rw [hText]
  -- The trail grows digit by digit. The first one that is
  -- not that of a backslash leaves nothing to go on with.
  by_cases ha : a = '0'
  · by_cases hb : b = '0'
    · by_cases hc : c = '5'
      · by_cases hd : d = 'c' ∨ d = 'C'
        · subst ha hb hc
          refine Or.inl ⟨hD.trans (if_pos hd), ?_⟩
          rcases hd with rfl | rfl <;> rfl
        · refine Or.inr ⟨fun hCode => hd hCode.2.2.2, ?_⟩
          subst ha hb hc
          exact hD.trans (if_neg hd)
      · refine Or.inr ⟨fun hCode => hc hCode.2.2.1, ?_⟩
        subst ha hb
        change ((matched 4).next c).after [d] = start
        rw [hC, if_neg hc]
        exact hNot _ (by simp [h.fourth])
    · refine Or.inr ⟨fun hCode => hb hCode.2.1, ?_⟩
      subst ha
      change ((matched 3).next b).after [c, d] = start
      rw [hB, if_neg hb]
      exact hNot _ (by simp [h.third, h.fourth])
  · refine Or.inr ⟨fun hCode => ha hCode.1, ?_⟩
    change ((matched 2).next a).after [b, c, d] = start
    rw [hA, if_neg ha]
    exact hNot _ (by simp [h.second, h.third, h.fourth])

end Trail

------------------------------------------------------------
-- What Is Read and What Is Written
------------------------------------------------------------

open Trail

/-
  Between two pieces that are read, what is written may be
  amid a spelling, but only in a run that has been behind one
  for the reader already.
-/
structure Leads (read written : Trail) : Prop where
  settled : read = start ∨ read = behind
  ahead : written ≠ start → read = behind

/-
  Reading one text and writing the other keeps the reader
  ahead, and adds as much to its burden, and `extra` more.
-/
def Covers
    (extra : Nat)
    (taken shown : List Char) : Prop :=
  ∀ read written,
    Leads read written →
      Leads (read.after taken) (written.after shown) ∧
        burden written shown +
            (written.after shown).credit + extra ≤
          written.credit + burden read taken

/- One that starts at most a run is read as it is written. -/
theorem covers_plain
    {c : Char}
    (hc : c ≠ '\\') :
    Covers 0 [c] [c] := by
  intro read written hLeads
  change
    Leads (read.next c) (written.next c) ∧
      written.gain c + 0 + (written.next c).credit + 0 ≤
        written.credit + (read.gain c + 0)
  cases hEscape : isEscapeChar c with
  | false =>
      rw [next_of_not_isEscapeChar hEscape,
        next_of_not_isEscapeChar hEscape,
        gain_of_not_isEscapeChar hEscape]
      exact ⟨⟨Or.inl rfl, fun h => absurd rfl h⟩,
        Nat.zero_le _⟩
  | true =>
      by_cases hWritten : written = start
      · rw [hWritten, next_start hc, gain_start]
        refine ⟨⟨?_, fun h => absurd rfl h⟩, Nat.zero_le _⟩
        rcases hLeads.settled with rfl | rfl
        · exact Or.inl (next_start hc)
        · exact Or.inr (by simp [next, hEscape])
      · rw [hLeads.ahead hWritten]
        have hNext : behind.next c = behind := by
          simp [next, hEscape]
        have hGain : behind.gain c = 1 := by
          simp [gain, hEscape]
        have hCredit := gain_add_credit_le written c
        rw [hNext, hGain]
        refine ⟨⟨Or.inr rfl, fun _ => rfl⟩, ?_⟩
        omega

/- A backslash counts no more where it is written. -/
theorem gain_backslash_le
    {read written : Trail}
    (hLeads : Leads read written) :
    written.gain '\\' ≤ read.gain '\\' := by
  cases written with
  | matched n =>
      simp [gain, completes]
  | behind =>
      rw [hLeads.ahead nofun]

/- A pair is read as it is written. -/
theorem covers_pair
    {c : Char}
    (hc : c = '\\' ∨ isEscapeChar c = false) :
    Covers 0 ['\\', c] ['\\', c] := by
  intro read written hLeads
  have hFirst := gain_backslash_le hLeads
  change
    Leads ((read.next '\\').next c)
        ((written.next '\\').next c) ∧
      written.gain '\\' +
            ((written.next '\\').gain c + 0) +
          ((written.next '\\').next c).credit + 0 ≤
        written.credit +
          (read.gain '\\' + ((read.next '\\').gain c + 0))
  rcases hc with rfl | hc
  · by_cases hWritten : written = start
    · subst hWritten
      refine ⟨⟨?_, fun h => absurd rfl h⟩, Nat.zero_le _⟩
      rcases hLeads.settled with rfl | rfl
      · exact Or.inl rfl
      · exact Or.inr rfl
    · rw [hLeads.ahead hWritten]
      refine ⟨⟨Or.inr rfl, fun _ => rfl⟩, ?_⟩
      have hOnce := gain_add_credit_le written '\\'
      have hTwice :=
        gain_add_credit_le (written.next '\\') '\\'
      change _ ≤ _ + (1 + (1 + 0))
      omega
  · rw [next_of_not_isEscapeChar hc,
      next_of_not_isEscapeChar hc,
      gain_of_not_isEscapeChar hc,
      gain_of_not_isEscapeChar hc]
    refine ⟨⟨Or.inl rfl, fun h => absurd rfl h⟩, ?_⟩
    change _ + 0 + 0 + 0 ≤ _
    omega

/- What has been read behind a spelling by code. -/
theorem after_code
    {a b c d : Char}
    (h : IsCode a b c d)
    {read : Trail}
    (hRead : read = start ∨ read = behind) :
    (read.after ['\\', 'u', a, b, c, d] = behind ∧
        burden read ['\\', 'u', a, b, c, d] = 6) ∨
      (¬ IsBackslashCode a b c d ∧ read = start ∧
        read.after ['\\', 'u', a, b, c, d] = start) := by
  rcases hRead with rfl | rfl
  · rcases after_start_code h with hCode | hNot
    · exact Or.inl hCode
    · exact Or.inr ⟨hNot.1, rfl, hNot.2⟩
  · refine Or.inl (after_behind ?_)
    have hDigit {x : Char}
        (hx : (hexValue? x).isSome = true) :=
      isEscapeChar_of_hexValue hx
    rw [List.all_cons, List.all_cons, List.all_cons,
      List.all_cons, List.all_cons, List.all_cons,
      hDigit h.first, hDigit h.second, hDigit h.third,
      hDigit h.fourth]
    rfl

/- A spelling by code weighs more than what it stands for. -/
theorem covers_code
    {a b c d x : Char}
    (h : IsCode a b c d)
    (hx : x = '\\' → IsBackslashCode a b c d) :
    Covers (if x = '\\' then 1 else 0)
      ['\\', 'u', a, b, c, d] (Uri.escape x) := by
  intro read written hLeads
  rcases after_code h hLeads.settled with
    ⟨hAfter, hBurden⟩ | ⟨hNot, hStart, hAfter⟩
  · rw [hAfter, hBurden]
    refine ⟨⟨Or.inr rfl, fun _ => rfl⟩, ?_⟩
    have hOnce := gain_add_credit_le written x
    by_cases hQuote : x = '`'
    · subst hQuote
      have hFirst := gain_add_credit_le written '\\'
      have hSecond :=
        gain_add_credit_le (written.next '\\') '`'
      change
        written.gain '\\' +
              ((written.next '\\').gain '`' + 0) +
            ((written.next '\\').next '`').credit + 0 ≤ _
      omega
    · rw [Uri.escape, if_neg hQuote]
      change
        written.gain x + 0 + (written.next x).credit + _ ≤ _
      split_ifs <;> omega
  · have hWritten : written = start := by
      by_contra hNe
      rw [hLeads.ahead hNe] at hStart
      cases hStart
    have hBackslash : x ≠ '\\' := fun hEq => hNot (hx hEq)
    rw [hAfter, hWritten, if_neg hBackslash]
    by_cases hQuote : x = '`'
    · subst hQuote
      exact
        ⟨⟨Or.inl rfl, fun h => absurd rfl h⟩, Nat.zero_le _⟩
    · have hNone : '\\' ∉ Uri.escape x := by
        rw [Uri.escape, if_neg hQuote, List.mem_singleton]
        exact Ne.symm hBackslash
      have hShown := after_start hNone
      rw [hShown.1, hShown.2]
      exact
        ⟨⟨Or.inl rfl, fun h => absurd rfl h⟩, Nat.zero_le _⟩

/- So does the spelling of a character by two codes. -/
theorem covers_codes
    {a b c d a' b' c' d' x : Char}
    (h : IsCode a b c d)
    (h' : IsCode a' b' c' d')
    (hx : isEscapeChar x = false) :
    Covers 0
      (['\\', 'u', a, b, c, d] ++
        ['\\', 'u', a', b', c', d'])
      [x] := by
  intro read written hLeads
  have hSettled :
      ∀ read a b c d,
        IsCode a b c d → (read = start ∨ read = behind) →
          read.after ['\\', 'u', a, b, c, d] = start ∨
            read.after ['\\', 'u', a, b, c, d] = behind := by
    intro read a b c d h hRead
    rcases after_code h hRead with hCode | hNot
    · exact Or.inr hCode.1
    · exact Or.inl hNot.2.2
  rw [after_append]
  change
    Leads _ (written.next x) ∧
      written.gain x + 0 + (written.next x).credit + 0 ≤ _
  rw [next_of_not_isEscapeChar hx,
    gain_of_not_isEscapeChar hx]
  refine ⟨⟨?_, fun h => absurd rfl h⟩, Nat.zero_le _⟩
  exact
    hSettled _ _ _ _ _ h'
      (hSettled _ _ _ _ _ h hLeads.settled)

------------------------------------------------------------
-- Escapes
------------------------------------------------------------

open Scan

/- The value of a hexadecimal digit by its code. -/
theorem hexValue?_eq (c : Char) :
    hexValue? c =
      if 48 ≤ c.toNat ∧ c.toNat ≤ 57 then
        some (c.toNat - 48)
      else if 97 ≤ c.toNat ∧ c.toNat ≤ 102 then
        some (c.toNat - 97 + 10)
      else if 65 ≤ c.toNat ∧ c.toNat ≤ 70 then
        some (c.toNat - 65 + 10)
      else none := by
  simp only [hexValue?, isDigit, Char.le_def,
    UInt32.le_iff_toNat_le, Bool.and_eq_true,
    decide_eq_true_eq]
  rfl

/- Beyond ASCII there are no escape characters. -/
theorem not_isEscapeChar_of_le
    {c : Char}
    (hc : 128 ≤ c.toNat) :
    isEscapeChar c = false := by
  have hHex : hexValue? c = none := by
    rw [hexValue?_eq, if_neg (by omega), if_neg (by omega),
      if_neg (by omega)]
  have hBackslash : c ≠ '\\' := by
    rintro rfl
    exact absurd hc (by decide)
  have hU : c ≠ 'u' := by
    rintro rfl
    exact absurd hc (by decide)
  simp [isEscapeChar, hHex, hBackslash, hU]

/- The digits of the code of a backslash, by value. -/
theorem hexValue?_eq_some
    {c : Char}
    {v : Nat}
    (h : hexValue? c = some v) :
    v < 16 ∧ (v = 0 → c = '0') ∧ (v = 5 → c = '5') ∧
      (v = 12 → c = 'c' ∨ c = 'C') := by
  have hEq (d : Char) (hd : c.toNat = d.toNat) : c = d :=
    Char.toNat_inj.mp hd
  have hZero := hEq '0'
  have hFive := hEq '5'
  have hLower := hEq 'c'
  have hUpper := hEq 'C'
  rw [hexValue?_eq] at h
  change c.toNat = 48 → _ at hZero
  change c.toNat = 53 → _ at hFive
  change c.toNat = 99 → _ at hLower
  change c.toNat = 67 → _ at hUpper
  split_ifs at h <;> cases h <;>
    refine ⟨by omega, ?_, ?_, ?_⟩ <;> intro hv <;>
    first
      | exact hZero (by omega)
      | exact hFive (by omega)
      | exact Or.inl (hLower (by omega))
      | exact Or.inr (hUpper (by omega))

/-
  Four digits of a code have been read where their reader
  gives a code, and those of a backslash where it gives
  that.
-/
theorem fourHexDigits_eq_ok
    {c e : Cursor}
    {n : Nat}
    (h : fourHexDigits c = .ok n e) :
    ∃ x y z w,
      c.rest = [x, y, z, w] ++ e.rest ∧ IsCode x y z w ∧
        (n = 0x5c → IsBackslashCode x y z w) := by
  rcases digitsOf_eq_ok h with ⟨ds, hRest, hLength, hDs, hn⟩
  match ds, hLength with
  | [(x, i), (y, j), (z, k), (w, l)], _ =>
      simp only [List.forall_mem_cons] at hDs
      rcases hDs with ⟨hx, hy, hz, hw, -⟩
      refine ⟨x, y, z, w, hRest, ?_, ?_⟩
      · exact
          ⟨by rw [hx]; rfl, by rw [hy]; rfl, by rw [hz]; rfl,
            by rw [hw]; rfl⟩
      · intro hCode
        rw [hCode] at hn
        simp only [List.foldl_cons, List.foldl_nil] at hn
        have hi := hexValue?_eq_some hx
        have hj := hexValue?_eq_some hy
        have hk := hexValue?_eq_some hz
        have hl := hexValue?_eq_some hw
        exact
          ⟨hi.2.1 (by omega), hj.2.1 (by omega),
            hk.2.2.1 (by omega), hl.2.2.2 (by omega)⟩

theorem charOf_eq_ok
    {c e : Cursor}
    {code : Nat}
    {x : Char}
    (h : Zinc.charOf code c = .ok x e) :
    x.toNat = code ∧ c = e := by
  unfold Zinc.charOf at h
  split_ifs at h with hValid
  · rcases pure_eq_ok.mp h with ⟨rfl, rfl⟩
    refine ⟨?_, rfl⟩
    rw [Char.ofNat, dif_pos hValid]
    rfl
  · cases h

/- What stands where a spelling by code has been read. -/
theorem unicodeEscape_eq_ok
    {c e : Cursor}
    {x : Char}
    (h : Zinc.unicodeEscape c = .ok x e) :
    ∃ taken,
      c.rest = taken ++ e.rest ∧
        Covers (if x = '\\' then 1 else 0)
          (['\\', 'u'] ++ taken) (Uri.escape x) := by
  unfold Zinc.unicodeEscape at h
  rcases bind_eq_ok.mp h with ⟨code, c', hCode, h⟩
  rcases fourHexDigits_eq_ok hCode with
    ⟨a, b, y, z, hRest, hDigits, hBackslash⟩
  rw [current_bind_apply, next_bind_apply] at h
  split_ifs at h with hPair
  · rw [advance_bind_apply, advance_bind_apply] at h
    rcases bind_eq_ok.mp h with ⟨low, c'', hLow, h⟩
    rcases fourHexDigits_eq_ok hLow with
      ⟨a', b', y', z', hRest', hDigits', -⟩
    split_ifs at h with hRange
    · rcases charOf_eq_ok h with ⟨hx, rfl⟩
      have hNext := Cursor.rest_of_next hPair.2.2.1 hPair.2.2.2
      have hPlain : isEscapeChar x = false :=
        not_isEscapeChar_of_le (by omega)
      have hNe : x ≠ '\\' ∧ x ≠ '`' := by
        constructor
        · rintro rfl
          cases hPlain
        · rintro rfl
          change 96 = _ at hx
          omega
      refine ⟨[a, b, y, z, '\\', 'u', a', b', y', z'], ?_, ?_⟩
      · rw [hRest, hNext, hRest']
        rfl
      · rw [if_neg hNe.1, Uri.escape, if_neg hNe.2]
        exact covers_codes hDigits hDigits' hPlain
    · cases h
  · rcases charOf_eq_ok h with ⟨hx, rfl⟩
    refine ⟨[a, b, y, z], hRest, ?_⟩
    refine covers_code hDigits ?_
    rintro rfl
    exact hBackslash hx.symm

------------------------------------------------------------
-- URIs
------------------------------------------------------------

namespace Zinc

/- The piece of a URI that its text may misspell. -/
def strayCost (piece : List Char) : Nat :=
  if piece = ['\\'] then 1 else 0

/- What a piece of a URI was read from. -/
structure IsTakenPiece
    (taken piece : List Char) : Prop where
  taken_ne_nil : taken ≠ []
  covers :
    Covers (strayCost piece) taken (piece.flatMap Uri.escape)
  keepsPairs :
    strayCost piece = 0 →
      ∀ more,
        Uri.keepsPairs (piece ++ more) = Uri.keepsPairs more

/-
  A character that starts no escape is a piece of its own.
-/
theorem isTakenPiece_plain
    {x : Char}
    (hBackslash : x ≠ '\\')
    (hQuote : x ≠ '`') :
    IsTakenPiece [x] [x] := by
  have hStray : strayCost [x] = 0 := by
    simp [strayCost, hBackslash]
  refine ⟨by simp, ?_, fun _ more => ?_⟩
  · rw [hStray, List.flatMap_singleton, Uri.escape,
      if_neg hQuote]
    exact covers_plain hBackslash
  · simp [Uri.keepsPairs, hBackslash]

theorem isEscapeChar_of_keepsBackslash
    {x : Char}
    (hx : keepsBackslash x = true) :
    x = '\\' ∨ isEscapeChar x = false := by
  simp only [keepsBackslash, List.mem_cons,
    List.not_mem_nil, or_false, decide_eq_true_eq] at hx
  rcases hx with
    rfl | rfl | rfl | rfl | rfl | rfl | rfl | rfl | rfl | rfl |
      rfl
  case inr.inr.inr.inr.inr.inr.inr.inl => exact Or.inl rfl
  all_goals exact Or.inr rfl

/- Such an escape is read as the two characters it shows. -/
theorem isTakenPiece_kept
    {x : Char}
    (hx : keepsBackslash x = true) :
    IsTakenPiece ['\\', x] ['\\', x] := by
  have hQuote : x ≠ '`' := by
    rintro rfl
    cases hx
  have hText :
      ['\\', x].flatMap Uri.escape = ['\\', x] := by
    simp [Uri.escape, hQuote]
  refine ⟨by simp, ?_, fun _ more => ?_⟩
  · rw [hText]
    exact covers_pair (isEscapeChar_of_keepsBackslash hx)
  · simp [Uri.keepsPairs, hx]

/-
  The mark that ends a URI is read without its backslash.
-/
theorem isTakenPiece_quote :
    IsTakenPiece ['\\', '`'] ['`'] :=
  ⟨by simp, covers_pair (Or.inr rfl), fun _ _ => rfl⟩

/-
  A code is a piece if its run covers what is written for
  the character.
-/
theorem isTakenPiece_code
    {taken : List Char}
    {x : Char}
    (h : Covers (if x = '\\' then 1 else 0)
      (['\\', 'u'] ++ taken) (Uri.escape x)) :
    IsTakenPiece (['\\', 'u'] ++ taken) [x] := by
  have hStray :
      strayCost [x] = if x = '\\' then 1 else 0 := by
    simp [strayCost]
  refine ⟨by simp, ?_, fun hPlain more => ?_⟩
  · rw [hStray, List.flatMap_singleton]
    exact h
  · have hBackslash : x ≠ '\\' := by
      rintro rfl
      cases hPlain
    simp [Uri.keepsPairs, hBackslash]

/- After a backslash and `u` there is a spelling by code. -/
theorem escaped_eq_ok
    {c e : Cursor}
    {x : Char}
    (hHead : c.current? = some '\\')
    (hNext : c.next? = some 'u')
    (h : escaped c = .ok x e) :
    ∃ taken,
      c.rest = ['\\', 'u'] ++ taken ++ e.rest ∧
        Covers (if x = '\\' then 1 else 0)
          (['\\', 'u'] ++ taken) (Uri.escape x) := by
  have hRest := Cursor.rest_of_next hHead hNext
  unfold escaped at h
  rw [advance_bind_apply, current_bind_apply,
    Cursor.current_advance, hNext] at h
  change unicodeEscape c.advance.advance = _ at h
  rcases unicodeEscape_eq_ok h with ⟨taken, hTaken, hCovers⟩
  refine ⟨taken, ?_, hCovers⟩
  rw [hRest, hTaken]
  rfl

/- What stands where an escape of a URI is read. -/
theorem uriEscaped_eq_ok
    {c e : Cursor}
    {piece : List Char}
    (hHead : c.current? = some '\\')
    (h : uriEscaped c = .ok piece e) :
    ∃ taken, c.rest = taken ++ e.rest ∧
      IsTakenPiece taken piece := by
  unfold uriEscaped at h
  rw [next_bind_apply] at h
  cases hNext : c.next? with
  | none =>
      rw [hNext] at h
      cases h
  | some y =>
      rw [hNext] at h
      have hRest := Cursor.rest_of_next hHead hNext
      dsimp only at h
      split_ifs at h with hKept hTick hCode
      · cases h
        exact ⟨_, hRest, isTakenPiece_kept hKept⟩
      · cases h
        subst hTick
        exact ⟨_, hRest, isTakenPiece_quote⟩
      · subst hCode
        rcases bind_eq_ok.mp h with ⟨x, e', hChar, hPure⟩
        rcases pure_eq_ok.mp hPure with ⟨rfl, rfl⟩
        rcases escaped_eq_ok hHead hNext hChar with
          ⟨taken, hTaken, hCovers⟩
        exact ⟨_, hTaken, isTakenPiece_code hCovers⟩
      · cases h

/- What stands where a piece of a URI is read, or it closes. -/
theorem uriPiece_eq_ok
    {c e : Cursor}
    {found : Option (List Char)}
    (h : uriPiece? c = .ok found e) :
    (found = none ∧ c.current? = some '`' ∧ c = e) ∨
      ∃ piece, found = some piece ∧
        ∃ taken, c.rest = taken ++ e.rest ∧
          IsTakenPiece taken piece := by
  unfold uriPiece? at h
  rw [current_bind_apply] at h
  cases hHead : c.current? with
  | none =>
      rw [hHead] at h
      cases h
  | some x =>
      rw [hHead] at h
      dsimp only at h
      split_ifs at h with hNewline hQuote hBackslash
      · cases h
      · rcases pure_eq_ok.mp h with ⟨rfl, hPlace⟩
        exact Or.inl ⟨rfl, by rw [hQuote], hPlace⟩
      · subst hBackslash
        rcases bind_eq_ok.mp h with ⟨p, e', hEscaped, hPure⟩
        rcases pure_eq_ok.mp hPure with ⟨rfl, rfl⟩
        exact Or.inr ⟨p, rfl, uriEscaped_eq_ok hHead hEscaped⟩
      · rw [advance_bind_apply] at h
        rcases pure_eq_ok.mp h with ⟨rfl, rfl⟩
        exact
          Or.inr
            ⟨[x], rfl, [x], Cursor.rest_of_current hHead,
              isTakenPiece_plain hBackslash hQuote⟩

/- The pieces so far, read from a place on. -/
structure ReadPieces
    (start : List Char)
    (pieces : List (List Char))
    (c : Cursor)
    (read : Trail) : Prop where
  leads :
    Leads read
      (Trail.start.after (pieces.flatten.flatMap Uri.escape))
  burden_le :
    burden Trail.start (pieces.flatten.flatMap Uri.escape) +
          (Trail.start.after
            (pieces.flatten.flatMap Uri.escape)).credit +
        (pieces.map strayCost).sum + burden read c.rest ≤
      burden Trail.start start
  keepsPairs :
    (pieces.map strayCost).sum = 0 →
      ∀ more,
        Uri.keepsPairs (pieces.flatten ++ more) =
          Uri.keepsPairs more

/- One more piece is read behind the ones so far. -/
theorem ReadPieces.snoc
    {start taken piece : List Char}
    {pieces : List (List Char)}
    {c d : Cursor}
    {read : Trail}
    (hPieces : ReadPieces start pieces c read)
    (hRest : c.rest = taken ++ d.rest)
    (hPiece : IsTakenPiece taken piece) :
    ReadPieces start (pieces ++ [piece]) d
      (read.after taken) := by
  have hCovers := hPiece.covers _ _ hPieces.leads
  have hBurden := hPieces.burden_le
  rw [hRest, burden_append] at hBurden
  have hText :
      (pieces ++ [piece]).flatten.flatMap Uri.escape =
        pieces.flatten.flatMap Uri.escape ++
          piece.flatMap Uri.escape := by
    simp
  have hStray :
      ((pieces ++ [piece]).map strayCost).sum =
        (pieces.map strayCost).sum + strayCost piece := by
    simp
  refine ⟨?_, ?_, ?_⟩
  · rw [hText, after_append]
    exact hCovers.1
  · rw [hText, hStray, after_append, burden_append]
    have hMore := hCovers.2
    omega
  · intro hNone more
    rw [hStray, Nat.add_eq_zero_iff] at hNone
    rw [List.flatten_append, List.append_assoc,
      hPieces.keepsPairs hNone.1, List.flatten_singleton,
      hPiece.keepsPairs hNone.2]

end Zinc

namespace Uri

theorem ofText_eq_ok
    {address : String}
    {u : Uri}
    (h : ofText address = .ok u) :
    u.address = address := by
  unfold ofText at h
  split at h
  · cases h
    rfl
  · cases h

/-
  What is paid for a URI by the text that it is read from:
  the burden of its own text, and more if that misspells it.
-/
def cost (u : Uri) : Nat :=
  burden .start u.text + if u.IsLegible then 0 else 1

/- The marks around an address weigh nothing. -/
theorem burden_text (u : Uri) :
    burden .start u.text =
      burden .start (u.address.toList.flatMap escape) := by
  change
    burden .start
        ('`' :: (u.address.toList.flatMap escape ++ ['`'])) =
      _
  rw [Trail.burden_cons rfl, Trail.burden_append,
    Trail.burden_cons rfl]
  rfl

end Uri

namespace Zinc

/- A piece of a URI takes a character. -/
theorem length_lt_of_uriPiece
    (piece : List Char)
    (c d : Cursor)
    (h : uriPiece? c = .ok (some piece) d) :
    d.rest.length < c.rest.length := by
  rcases uriPiece_eq_ok h with
    ⟨hNone, -⟩ | ⟨_, -, taken, hRest, hTaken⟩
  · cases hNone
  · have hLength :=
      List.length_pos_of_ne_nil hTaken.taken_ne_nil
    rw [hRest, List.length_append]
    omega

/-
  Pieces are read up to a backquote, and the text that they
  are read from pays for them.
-/
theorem uriPieces_eq_ok
    {c d : Cursor}
    {pieces : List (List Char)}
    (h : collect uriPiece? c = .ok pieces d) :
    (∃ read, ReadPieces c.rest pieces d read) ∧
      d.current? = some '`' := by
  refine
    collect_takes (fun _ _ _ => uriPiece_eq_ok)
      length_lt_of_uriPiece
      (fun pieces d =>
        ∃ read, ReadPieces c.rest pieces d read)
      ?_ ?_ h
  · rintro pieces piece c' d' ⟨read, hPieces⟩
      ⟨taken, hRest, hTaken⟩
    exact ⟨_, hPieces.snoc hRest hTaken⟩
  · refine ⟨.start, ⟨Or.inl rfl, fun h => absurd rfl h⟩,
      ?_, fun _ _ => rfl⟩
    change 0 + 0 + 0 + _ ≤ _
    omega

/- The text of a URI pays for it. -/
theorem burden_uri
    {c e : Cursor}
    {u : Uri}
    (hHead : c.current? = some '`')
    (h : uri c = .ok u e) :
    burden .start e.rest + u.cost ≤ burden .start c.rest := by
  unfold uri at h
  rw [advance_bind_apply] at h
  rcases bind_eq_ok.mp h with ⟨pieces, d, hCollect, h⟩
  rw [advance_bind_apply] at h
  rcases construct_eq_ok h with ⟨hMade, rfl⟩
  rcases uriPieces_eq_ok hCollect with
    ⟨⟨read, hPieces⟩, hClose⟩
  have hBurden := hPieces.burden_le
  rw [Cursor.rest_of_current hClose, burden_cons rfl]
    at hBurden
  rw [Cursor.rest_of_current hHead, burden_cons rfl,
    Uri.cost, Uri.burden_text, Uri.ofText_eq_ok hMade,
    String.toList_ofList]
  have hStray :
      (if u.IsLegible then 0 else 1) ≤
        (pieces.map strayCost).sum := by
    split_ifs with hLegible
    · exact Nat.zero_le _
    · by_contra hLess
      have hKeeps := hPieces.keepsPairs (by omega) []
      rw [List.append_nil] at hKeeps
      apply hLegible
      rw [Uri.IsLegible, Uri.ofText_eq_ok hMade,
        String.toList_ofList, hKeeps]
      rfl
  omega

end Zinc

end Haystack
