import Haystack.Error
import Haystack.Text.Cursor

/-
  This file defines readers of text. A reader moves a cursor
  forward and gives a value or an error, of any kind; an error
  leaves the cursor where it arose.

  Key definitions include:
    * `Scan`
    * `Scan.fail`
    * `Scan.wants`
    * `Scan.constructAt`
    * `Scan.construct`
    * `Scan.span`
    * `Scan.spanAtMost`
    * `Scan.skipSpace`
    * `Scan.digitsOf`
    * `Scan.iterate`
    * `Scan.collect`
    * `Scan.readAll`
-/

namespace Haystack

/- A reader of some kind of value. -/
abbrev Scan :=
  EStateM Error Cursor

namespace Scan

variable {α σ : Type}

------------------------------------------------------------
-- Errors
------------------------------------------------------------

/- Stop with a fault on the current line. -/
def fail (fault : Fault) : Scan α :=
  fun c => .error (.parse ⟨fault, c.line⟩) c

/- Stop because another character was expected here. -/
def wants (what : Expected) : Scan α :=
  fun c =>
    .error (.parse ⟨.expected what c.current?, c.line⟩) c

/- The line that the reader is on. -/
def line : Scan Nat :=
  fun c => .ok c.line c

/-
  Keep what could be made, or stop with the error, on a line
  if it has none of its own.
-/
def constructAt
    (line : Nat)
    (made : Except Error α) : Scan α :=
  fun c =>
    match made with
    | .ok a => .ok a c
    | .error e => .error (e.atLine line) c

/- Keep what could be made, or stop on the current line. -/
def construct (made : Except Error α) : Scan α := do
  constructAt (← line) made

------------------------------------------------------------
-- Single Characters
------------------------------------------------------------

/- The character to read. -/
def current? : Scan (Option Char) :=
  fun c => .ok c.current? c

/- The character after the one to read. -/
def next? : Scan (Option Char) :=
  fun c => .ok c.next? c

/- Step over one character. -/
def advance : Scan Unit :=
  fun c => .ok () c.advance

/- Step over one character, which must be this one. -/
def expect
    (x : Char)
    (what : Expected) : Scan Unit := do
  if (← current?) = some x then advance
  else wants what

/- Step over a line end. -/
def newline : Scan Unit :=
  expect '\n' .newline

/- Nothing may be left to read. -/
def finish : Scan Unit := do
  if (← current?).isSome then wants .endOfText

------------------------------------------------------------
-- Runs of Characters
------------------------------------------------------------

/- Step over the longest run of such characters. -/
def span (p : Char → Bool) : Scan (List Char) :=
  fun c =>
    let taken := c.rest.takeWhile p
    .ok taken (c.skip taken)

/- Step over the longest run of at most `count` of them. -/
def spanAtMost
    (count : Nat)
    (p : Char → Bool) : Scan (List Char) :=
  fun c =>
    let taken := (c.rest.take count).takeWhile p
    .ok taken (c.skip taken)

/- Step over spaces and tabs. -/
def skipSpace : Scan Unit :=
  discard (span isSpace)

/-
  Read exactly `count` digits of a base, on top of the
  number that the digits before them stand for.
-/
def digitsOf
    (base : Nat)
    (value? : Char → Option Nat)
    (what : Expected) :
    Nat → Nat → Scan Nat
| 0, n => pure n
| count + 1, n => do
    match (← current?).bind value? with
    | none => wants what
    | some d =>
        advance
        digitsOf base value? what count (base * n + d)

/- Read two decimal digits. -/
def twoDigits (what : Expected) : Scan Nat :=
  digitsOf 10 digitValue? what 2 0

/- Read four hexadecimal digits. -/
def fourHexDigits : Scan Nat :=
  digitsOf 16 hexValue? .hexDigit 4 0

------------------------------------------------------------
-- Repetition
------------------------------------------------------------

/-
  Repeat a step until it gives nothing new, as often as the
  bound has characters and once more. A step that reads at
  least one character never needs more than that.
-/
def iterateWithin
    (step : σ → Scan (Option σ)) :
    List Char → σ → Scan σ
| [], s, c =>
    match step s c with
    | .error e c => .error e c
    | .ok none c => .ok s c
    | .ok (some s) c => .ok s c
| _ :: bound, s, c =>
    match step s c with
    | .error e c => .error e c
    | .ok none c => .ok s c
    | .ok (some s) c => iterateWithin step bound s c

/- Repeat a step until it gives nothing new. -/
def iterate
    (step : σ → Scan (Option σ))
    (s : σ) : Scan σ :=
  fun c => iterateWithin step c.rest s c

/- Read items until there is none. -/
def collect (item? : Scan (Option α)) : Scan (List α) := do
  let behind ←
    iterate
      (fun items => do
        let item ← item?
        return item.map (· :: items))
      []
  return behind.reverse

------------------------------------------------------------
-- Whole Texts
------------------------------------------------------------

/- What a reader makes of a text. -/
def readAll
    (scan : Scan α)
    (text : String) : Except Error α :=
  match scan (.ofText text) with
  | .ok a _ => .ok a
  | .error e _ => .error e

end Scan

end Haystack
