import Haystack.Proofs.Text.Takes
import Mathlib.Logic.Function.Iterate

/-
  This file defines the places of a text by their position,
  and shows that readers keep to them: a reader stops at the
  place where it starts or behind it, no character is passed
  twice or left out, and a fault is on the line of the place
  where it leaves the reader.

  Key definitions include:
    * `Window`
    * `Window.IsAt`
    * `Cursor.Reaches`
    * `Error.IsOnLineOf`
    * `Scan.KeepsPlace`
    * `Scan.KeepsLines`

  Main declarations:
    * `Window.IsAt.iterate_advance`
    * `Cursor.Reaches.exists_advance`
    * `Cursor.IsAt.exists_position`
    * `Scan.iterate_rec`
    * `Scan.KeepsPlace.bind`
    * `Scan.KeepsPlace.iterate`
    * `Scan.KeepsLines.isOnLineOf`
-/

namespace Haystack

------------------------------------------------------------
-- Two Characters Ahead
------------------------------------------------------------

/-
  What is held of a text of which one character after the
  other is drawn: two of them, those yet to be drawn, and
  the line of the first.
-/
structure Window where
  current? : Option Char
  next? : Option Char
  source : List Char
  line : Nat
deriving DecidableEq, Repr

namespace Window

/- Draw a character, and drop the first of those held. -/
def advance (w : Window) : Window where
  current? := w.next?
  next? := w.source.head?
  source := w.source.tail
  line := if w.current? = some '\n' then w.line + 1 else w.line

/- Draw the first two characters of a text. -/
def ofText (text : String) : Window :=
  advance ⟨none, text.toList.head?, text.toList.tail, 1⟩

/-
  The first character held is that at a position of a text,
  of which positions count from zero, and what is held and
  yet to be drawn is what follows there.
-/
structure IsAt
    (text : String)
    (position : Nat)
    (w : Window) : Prop where
  le_length : position ≤ text.toList.length
  current : w.current? = text.toList[position]?
  next : w.next? = text.toList[position + 1]?
  source : w.source = text.toList.drop (position + 2)
  line :
    w.line = 1 + (text.toList.take position).count '\n'

variable {text : String}
variable {position : Nat}
variable {w : Window}

/- A text starts at position zero. -/
theorem isAt_ofText (text : String) :
    (ofText text).IsAt text 0 := by
  unfold ofText advance
  generalize hText : text.toList = cs
  constructor <;> rw [hText] <;> cases cs <;>
    simp [List.head?_eq_getElem?]

/-
  A draw moves on by one position, and stays at the end. The
  line changes if the character that is dropped ends one.
-/
theorem IsAt.advance (hw : w.IsAt text position) :
    w.advance.IsAt text
      (min (position + 1) text.toList.length) := by
  rcases hw with ⟨hLe, hCurrent, hNext, hSource, hLine⟩
  by_cases hEnd : position = text.toList.length
  · -- At the end there is nothing to draw.
    have hNone : w.current? = none := by
      rw [hCurrent, hEnd, List.getElem?_length]
    have hDrop : text.toList.drop (position + 2) = [] :=
      List.drop_eq_nil_of_le (by omega)
    rw [Nat.min_eq_right (by omega)]
    refine ⟨Nat.le_refl _, ?_, ?_, ?_, ?_⟩
    · rw [Window.advance, hNext]
      simp [hEnd]
    · rw [Window.advance, hSource, hDrop]
      simp
    · rw [Window.advance, hSource, hDrop]
      simp
    · rw [Window.advance, hNone, if_neg nofun, hLine, hEnd]
  · have hLess : position < text.toList.length := by omega
    have hSome := List.getElem?_eq_getElem hLess
    rw [Nat.min_eq_left (by omega)]
    refine ⟨hLess, hNext, ?_, ?_, ?_⟩
    · rw [Window.advance, hSource, List.head?_drop]
    · rw [Window.advance, hSource, List.tail_drop]
    · rw [Window.advance, hCurrent, hSome,
        ← List.take_append_getElem hLess, List.count_append,
        hLine]
      by_cases hNewline : text.toList[position] = '\n'
      · simp [hNewline, Nat.add_assoc]
      · simp [hNewline]

/- So do draws one after the other, as many as there are. -/
theorem IsAt.iterate_advance
    (hw : w.IsAt text position)
    (count : Nat) :
    (Window.advance^[count] w).IsAt text
      (min (position + count) text.toList.length) := by
  induction count with
  | zero =>
      have hLe := hw.le_length
      rwa [Nat.add_zero, Nat.min_eq_left hLe]
  | succ count ih =>
      have hMin :
          min (position + (count + 1)) text.toList.length =
            min (min (position + count) text.toList.length + 1)
              text.toList.length := by
        omega
      rw [Function.iterate_succ_apply', hMin]
      exact ih.advance

end Window

------------------------------------------------------------
-- Places
------------------------------------------------------------

namespace Cursor

/- What is held of the text at a place. -/
def window (c : Cursor) : Window :=
  ⟨c.current?, c.next?, c.rest.drop 2, c.line⟩

/- The place is before the character at a position. -/
def IsAt
    (text : String)
    (position : Nat)
    (c : Cursor) : Prop :=
  c.window.IsAt text position

/- The second place is found by passing characters. -/
def Reaches (c d : Cursor) : Prop :=
  ∃ taken, taken <+: c.rest ∧ d = c.skip taken

variable {c d e : Cursor}

/- At the start, what is held is what was drawn first. -/
theorem window_ofText (text : String) :
    (ofText text).window = .ofText text := by
  unfold window ofText Window.ofText
  generalize text.toList = cs
  rcases cs with _ | ⟨x, _ | ⟨y, cs⟩⟩ <;> rfl

/- A step is a draw. -/
theorem window_advance (c : Cursor) :
    c.advance.window = c.window.advance := by
  rcases c with ⟨rest, line⟩
  cases rest with
  | nil => rfl
  | cons x rest =>
      by_cases hx : x = '\n'
      · subst hx
        rw [advance_mk_newline]
        rcases rest with _ | ⟨y, _ | ⟨z, rest⟩⟩ <;> rfl
      · rw [advance_mk hx]
        have hNot : some x ≠ some '\n' := by simpa using hx
        unfold window Window.advance
        rw [current?_mk, if_neg hNot]
        rcases rest with _ | ⟨y, _ | ⟨z, rest⟩⟩ <;> rfl

/- Passing a text in two parts is passing it at once. -/
theorem skip_skip
    (c : Cursor)
    (first second : List Char) :
    (c.skip first).skip second = c.skip (first ++ second) := by
  simp [skip, List.drop_drop, List.count_append, Nat.add_assoc]

theorem Reaches.refl (c : Cursor) : c.Reaches c :=
  ⟨[], List.nil_prefix, rfl⟩

/-
  What is reached from a place that is reached is reached.
-/
theorem Reaches.trans
    (hFirst : c.Reaches d)
    (hSecond : d.Reaches e) :
    c.Reaches e := by
  rcases hFirst with ⟨first, hPrefix, rfl⟩
  rcases hSecond with ⟨second, hPrefix', rfl⟩
  refine ⟨first ++ second, ?_, c.skip_skip first second⟩
  rw [Scan.append_skip hPrefix]
  exact (List.prefix_append_right_inj first).mpr hPrefix'

theorem reaches_advance (c : Cursor) : c.Reaches c.advance :=
  ⟨c.rest.take 1, List.take_prefix _ _, rfl⟩

/- To reach a place is to draw characters one by one. -/
theorem Reaches.exists_advance
    (hReaches : c.Reaches d) :
    ∃ count, d.window = Window.advance^[count] c.window := by
  rcases hReaches with ⟨taken, hPrefix, rfl⟩
  induction taken generalizing c with
  | nil => exact ⟨0, by simp [skip]⟩
  | cons x taken ih =>
      rcases hPrefix with ⟨rest, hRest⟩
      have hOne : c.skip [x] = c.advance := by
        rw [advance, ← hRest]
        rfl
      have hMore : taken <+: c.advance.rest := by
        refine ⟨rest, ?_⟩
        rw [← hOne, skip, ← hRest]
        rfl
      rcases ih hMore with ⟨count, hCount⟩
      refine ⟨count + 1, ?_⟩
      rw [Function.iterate_succ_apply, ← window_advance,
        ← hCount, ← hOne, skip_skip]
      rfl

theorem isAt_ofText (text : String) :
    (ofText text).IsAt text 0 := by
  rw [IsAt, window_ofText]
  exact Window.isAt_ofText text

/-
  What is reached is drawn, so that it stands at a position
  as well, and at no earlier one.
-/
theorem IsAt.exists_position
    {text : String}
    {position : Nat}
    (hc : c.IsAt text position)
    (hReaches : c.Reaches d) :
    ∃ later, position ≤ later ∧ d.IsAt text later := by
  rcases hReaches.exists_advance with ⟨count, hCount⟩
  refine
    ⟨min (position + count) text.toList.length, ?_, ?_⟩
  · have hLe := hc.le_length
    omega
  · rw [IsAt, hCount]
    exact Window.IsAt.iterate_advance hc count

end Cursor

------------------------------------------------------------
-- Lines of a Text
------------------------------------------------------------

/-
  The error is one of reading, on one of the lines of the
  text. An error of a part alone is on none.
-/
def Error.IsOnLineOf
    (text : String) : Error → Prop
| .parse e =>
    1 ≤ e.line ∧ e.line ≤ 1 + text.toList.count '\n'
| .value _ => False
| .filter _ => False
| .json _ => False

/- An error is on a line of the text if it has such a line. -/
theorem Error.isOnLineOf_iff
    {text : String}
    {e : Error} :
    e.IsOnLineOf text ↔
      ∃ line, e.line? = some line ∧ 1 ≤ line ∧
        line ≤ 1 + text.toList.count '\n' := by
  cases e <;> simp [IsOnLineOf, line?]

------------------------------------------------------------
-- Readers
------------------------------------------------------------

namespace Scan

variable {α β σ : Type}

/-
  Where a reader stops has been reached from where it has
  started, and its error is one of reading, on that line.
-/
def StopsBehind
    (c : Cursor) :
    EStateM.Result Error Cursor α → Prop
| .ok _ d => c.Reaches d
| .error e d => c.Reaches d ∧ e.line? = some d.line

/- Wherever the reader starts, it stops there or behind. -/
def KeepsPlace (scan : Scan α) : Prop :=
  ∀ c, StopsBehind c (scan c)

/- What is said of a reader is said of what comes of it. -/
theorem KeepsPlace.stops
    {scan : Scan α}
    {c : Cursor}
    {result : EStateM.Result Error Cursor α}
    (hScan : KeepsPlace scan)
    (hResult : scan c = result) :
    StopsBehind c result :=
  hResult ▸ hScan c

/- Where the start has been reached, so has the end. -/
theorem StopsBehind.of_reaches
    {c d : Cursor}
    {result : EStateM.Result Error Cursor α}
    (hReaches : c.Reaches d)
    (hResult : StopsBehind d result) :
    StopsBehind c result := by
  cases result with
  | ok a e => exact hReaches.trans hResult
  | error e f => exact ⟨hReaches.trans hResult.1, hResult.2⟩

theorem keepsPlace_pure (a : α) :
    KeepsPlace (pure a : Scan α) :=
  fun c => .refl c

/- A fault is reported on the line that the reader is on. -/
theorem keepsPlace_fail (fault : Fault) :
    KeepsPlace (fail fault : Scan α) :=
  fun c => ⟨.refl c, rfl⟩

theorem keepsPlace_wants (what : Expected) :
    KeepsPlace (wants what : Scan α) :=
  fun c => ⟨.refl c, rfl⟩

/- A part that cannot be made is refused by the reader. -/
theorem keepsPlace_construct (made : Except ValueError α) :
    KeepsPlace (construct (orValueError made)) := by
  intro c
  cases made with
  | ok a => exact .refl c
  | error e => exact ⟨.refl c, rfl⟩

theorem keepsPlace_advance : KeepsPlace advance :=
  fun c => c.reaches_advance

/- One reader after the other keeps what both keep. -/
theorem KeepsPlace.bind
    {scan : Scan α}
    {next : α → Scan β}
    (hScan : KeepsPlace scan)
    (hNext : ∀ a, KeepsPlace (next a)) :
    KeepsPlace (scan >>= next) := by
  intro c
  rw [bind_apply]
  cases hResult : scan c with
  | ok a d => exact (hNext a d).of_reaches (hScan.stops hResult)
  | error e d => exact hScan.stops hResult

theorem keepsPlace_current_bind
    {next : Option Char → Scan β}
    (hNext : ∀ x, KeepsPlace (next x)) :
    KeepsPlace (current? >>= next) :=
  fun c => hNext c.current? c

theorem keepsPlace_next_bind
    {next : Option Char → Scan β}
    (hNext : ∀ x, KeepsPlace (next x)) :
    KeepsPlace (next? >>= next) :=
  fun c => hNext c.next? c

theorem KeepsPlace.bind_pure
    {scan : Scan α}
    (hScan : KeepsPlace scan)
    (f : α → β) :
    KeepsPlace (scan >>= fun a => pure (f a)) :=
  hScan.bind fun a => keepsPlace_pure (f a)

theorem KeepsPlace.advance_bind
    {next : Unit → Scan β}
    (hNext : KeepsPlace (next ())) :
    KeepsPlace (advance >>= next) :=
  keepsPlace_advance.bind fun _ => hNext

/- A step taken on a condition, and what comes after. -/
theorem KeepsPlace.ite_bind
    {p : Prop}
    [Decidable p]
    {scan : Scan Unit}
    {next : Unit → Scan β}
    (hScan : KeepsPlace scan)
    (hNext : KeepsPlace (next ())) :
    KeepsPlace (if p then scan >>= next else next ()) := by
  split_ifs
  · exact hScan.bind fun _ => hNext
  · exact hNext

/- It does not matter what the reader gives. -/
theorem KeepsPlace.discard
    {scan : Scan α}
    (hScan : KeepsPlace scan) :
    KeepsPlace (discard scan) := by
  intro c
  change StopsBehind c (EStateM.map (fun _ => ()) scan c)
  have hOnce := hScan c
  unfold EStateM.map
  cases hResult : scan c <;> rwa [hResult] at hOnce

------------------------------------------------------------
-- Runs of Characters
------------------------------------------------------------

/- Another character than the expected one is not passed. -/
theorem keepsPlace_expect
    (x : Char)
    (what : Expected) :
    KeepsPlace (expect x what) := by
  refine keepsPlace_current_bind fun found => ?_
  split_ifs
  · exact keepsPlace_advance
  · exact keepsPlace_wants what

theorem keepsPlace_newline : KeepsPlace newline :=
  keepsPlace_expect '\n' .newline

theorem keepsPlace_finish : KeepsPlace finish := by
  refine keepsPlace_current_bind fun found => ?_
  split_ifs
  · exact keepsPlace_wants .endOfText
  · exact keepsPlace_pure ()

/- A run of characters is taken one by one. -/
theorem keepsPlace_span (p : Char → Bool) :
    KeepsPlace (span p) :=
  fun _ => ⟨_, List.takeWhile_prefix p, rfl⟩

/- A run is passed as far as it goes, up to the limit. -/
theorem keepsPlace_spanAtMost
    (count : Nat)
    (p : Char → Bool) :
    KeepsPlace (spanAtMost count p) :=
  fun _ =>
    ⟨_, (List.takeWhile_prefix p).trans (List.take_prefix _ _),
      rfl⟩

theorem keepsPlace_skipSpace : KeepsPlace skipSpace :=
  (keepsPlace_span isSpace).discard

/- Digits are passed one by one, up to what is none. -/
theorem keepsPlace_digitsOf
    (base : Nat)
    (value? : Char → Option Nat)
    (what : Expected)
    (count n : Nat) :
    KeepsPlace (digitsOf base value? what count n) := by
  induction count generalizing n with
  | zero => exact keepsPlace_pure n
  | succ count ih =>
      refine keepsPlace_current_bind fun x => ?_
      cases x.bind value? with
      | none => exact keepsPlace_wants what
      | some d => exact (ih (base * n + d)).advance_bind

theorem keepsPlace_twoDigits (what : Expected) :
    KeepsPlace (twoDigits what) :=
  keepsPlace_digitsOf 10 digitValue? what 2 0

theorem keepsPlace_fourHexDigits : KeepsPlace fourHexDigits :=
  keepsPlace_digitsOf 16 hexValue? .hexDigit 4 0

------------------------------------------------------------
-- Repetition
------------------------------------------------------------

/-
  To know something of all that may come of a loop, it is
  enough to look at one step: it fails, it is the last, or
  what is known after it was known before.
-/
theorem iterate_rec
    {step : σ → Scan (Option σ)}
    {P : Cursor → EStateM.Result Error Cursor σ → Prop}
    (hError : ∀ s c e d,
      step s c = .error e d → P c (.error e d))
    (hNone : ∀ s c d, step s c = .ok none d → P c (.ok s d))
    (hLast : ∀ s t c d,
      step s c = .ok (some t) d → P c (.ok t d))
    (hMore : ∀ s t c d result,
      step s c = .ok (some t) d → P d result → P c result)
    (s : σ)
    (c : Cursor) :
    P c (iterate step s c) := by
  have hWithin : ∀ (bound : List Char) (s : σ) (c : Cursor),
      P c (iterateWithin step bound s c) := by
    intro bound
    induction bound with
    | nil =>
        intro s c
        unfold iterateWithin
        cases hOnce : step s c with
        | error e d => exact hError s c e d hOnce
        | ok next d =>
            cases next with
            | none => exact hNone s c d hOnce
            | some t => exact hLast s t c d hOnce
    | cons x bound ih =>
        intro s c
        unfold iterateWithin
        cases hOnce : step s c with
        | error e d => exact hError s c e d hOnce
        | ok next d =>
            cases next with
            | none => exact hNone s c d hOnce
            | some t => exact hMore s t c d _ hOnce (ih t d)
  exact hWithin c.rest s c

/- What each step keeps, as many steps as there are keep. -/
theorem KeepsPlace.iterate
    {step : σ → Scan (Option σ)}
    (hStep : ∀ s, KeepsPlace (step s))
    (s : σ) :
    KeepsPlace (iterate step s) := by
  intro c
  refine
    iterate_rec (P := fun c result => StopsBehind c result)
      ?_ ?_ ?_ ?_ s c
  · exact fun s c e d hOnce => (hStep s).stops hOnce
  · exact fun s c d hOnce => (hStep s).stops hOnce
  · exact fun s t c d hOnce => (hStep s).stops hOnce
  · intro s t c d result hOnce hResult
    exact hResult.of_reaches ((hStep s).stops hOnce)

/- Readers of items keep what each reading of one keeps. -/
theorem KeepsPlace.collect
    {item? : Scan (Option α)}
    (hItem : KeepsPlace item?) :
    KeepsPlace (collect item?) :=
  (KeepsPlace.iterate (fun _ => hItem.bind_pure _) []).bind_pure
    List.reverse

------------------------------------------------------------
-- Errors on an Earlier Line
------------------------------------------------------------

/-
  Where a reader stops has been reached from where it has
  started, and its error is one of reading, on the line of a
  place that was passed on the way.
-/
def StopsInLines
    (c : Cursor) :
    EStateM.Result Error Cursor α → Prop
| .ok _ d => c.Reaches d
| .error e d =>
    ∃ b, c.Reaches b ∧ b.Reaches d ∧ e.line? = some b.line

/- However the reader goes, it keeps to the lines it passes. -/
def KeepsLines (scan : Scan α) : Prop :=
  ∀ c, StopsInLines c (scan c)

/- What comes of such a reader stops in its lines. -/
theorem KeepsLines.stops
    {scan : Scan α}
    {c : Cursor}
    {result : EStateM.Result Error Cursor α}
    (hScan : KeepsLines scan)
    (hResult : scan c = result) :
    StopsInLines c result :=
  hResult ▸ hScan c

/- The place left behind is one that was passed. -/
theorem KeepsPlace.keepsLines
    {scan : Scan α}
    (hScan : KeepsPlace scan) :
    KeepsLines scan := by
  intro c
  cases hResult : scan c with
  | ok a d => exact hScan.stops hResult
  | error e d =>
      have hStops := hScan.stops hResult
      exact ⟨d, hStops.1, .refl d, hStops.2⟩

/-
  A line that was passed later on has been passed as well.
-/
theorem StopsInLines.of_reaches
    {c d : Cursor}
    {result : EStateM.Result Error Cursor α}
    (hReaches : c.Reaches d)
    (hResult : StopsInLines d result) :
    StopsInLines c result := by
  cases result with
  | ok a e => exact hReaches.trans hResult
  | error e f =>
      rcases hResult with ⟨b, hPassed, hLeft, hLine⟩
      exact ⟨b, hReaches.trans hPassed, hLeft, hLine⟩

/-
  A filter that cannot be made is refused by its reader, on
  the line of a place that was passed.
-/
theorem stopsInLines_constructAt
    {b c d : Cursor}
    (made : Except FilterError α)
    (hPassed : c.Reaches b)
    (hLeft : b.Reaches d) :
    StopsInLines c
      (constructAt b.line (orFilterError made) d) := by
  cases made with
  | ok a => exact hPassed.trans hLeft
  | error e => exact ⟨b, hPassed, hLeft, rfl⟩

/-
  What both of two readers keep to, they keep to in a row.
-/
theorem KeepsLines.bind
    {scan : Scan α}
    {next : α → Scan β}
    (hScan : KeepsLines scan)
    (hNext : ∀ a, KeepsLines (next a)) :
    KeepsLines (scan >>= next) := by
  intro c
  rw [bind_apply]
  cases hResult : scan c with
  | ok a d => exact (hNext a d).of_reaches (hScan.stops hResult)
  | error e d => exact hScan.stops hResult

theorem KeepsLines.bind_pure
    {scan : Scan α}
    (hScan : KeepsLines scan)
    (f : α → β) :
    KeepsLines (scan >>= fun a => pure (f a)) :=
  hScan.bind fun a => (keepsPlace_pure (f a)).keepsLines

/- What each step keeps to, all of them keep to. -/
theorem KeepsLines.iterate
    {step : σ → Scan (Option σ)}
    (hStep : ∀ s, KeepsLines (step s))
    (s : σ) :
    KeepsLines (iterate step s) := by
  intro c
  refine
    iterate_rec (P := fun c result => StopsInLines c result)
      ?_ ?_ ?_ ?_ s c
  · exact fun s c e d hOnce => (hStep s).stops hOnce
  · exact fun s c d hOnce => (hStep s).stops hOnce
  · exact fun s t c d hOnce => (hStep s).stops hOnce
  · intro s t c d result hOnce hResult
    exact hResult.of_reaches ((hStep s).stops hOnce)

------------------------------------------------------------
-- Whole Texts
------------------------------------------------------------

/- What a reader refuses, it refuses on a line of the text. -/
theorem KeepsLines.isOnLineOf
    {scan : Scan α}
    (hScan : KeepsLines scan)
    {text : String}
    {e : Error}
    (h : readAll scan text = .error e) :
    e.IsOnLineOf text := by
  unfold readAll at h
  cases hResult : scan (.ofText text) with
  | ok a d =>
      rw [hResult] at h
      cases h
  | error e' d =>
      rw [hResult] at h
      cases h
      rcases hScan.stops hResult with ⟨b, hPassed, -, hError⟩
      rcases (Cursor.isAt_ofText text).exists_position hPassed
        with ⟨position, -, hPlace⟩
      have hLine : b.line = _ := hPlace.line
      have hCount :=
        (List.take_sublist position text.toList).count_le '\n'
      exact Error.isOnLineOf_iff.mpr
        ⟨b.line, hError, by omega, by omega⟩

end Scan

end Haystack
