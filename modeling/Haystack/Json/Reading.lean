import Haystack.Json.Numeral
import Haystack.Text.Scan

/-
  This file defines how JSON documents are read.

  Key definitions include:
    * `Json.quotedText`
    * `Json.numeral`
    * `Json.valueWithin`
    * `Json.parse`
-/

namespace Haystack

namespace Json

open Scan

/- The text is no JSON. -/
def malformed {α : Type} : Scan α :=
  fail .json

/- The characters that may stand between others. -/
def isJsonBlank (c : Char) : Bool :=
  c = ' ' || c = '\n' || c = '\t' || c = '\r'

/- Step over blanks. -/
def skipBlanks : Scan Unit :=
  discard (span isJsonBlank)

/- Step over one character, which must be this one. -/
def mark (x : Char) : Scan Unit := do
  if (← current?) = some x then advance
  else malformed

------------------------------------------------------------
-- Texts
------------------------------------------------------------

/- The characters that a backslash and a letter stand for. -/
def shortEscape? (c : Char) : Option Char :=
  if c = '"' then some '"'
  else if c = '\\' then some '\\'
  else if c = '/' then some '/'
  else if c = 'b' then some '\x08'
  else if c = 'f' then some '\x0c'
  else if c = 'n' then some '\n'
  else if c = 'r' then some '\r'
  else if c = 't' then some '\t'
  else none

/-
  Read the four digits after `\u`. A surrogate must be the
  first of a pair, which makes one character.
-/
def unicodeEscape : Scan Char := do
  let code ← fourHexDigits
  if 0xD800 ≤ code ∧ code < 0xDC00 then
    mark '\\'
    mark 'u'
    let low ← fourHexDigits
    if 0xDC00 ≤ low ∧ low < 0xE000 then
      return Char.ofNat
        (0x10000 + (code - 0xD800) * 0x400 + (low - 0xDC00))
    else malformed
  else if code.isValidChar then return Char.ofNat code
  else malformed

/- Read a backslash and what it stands for. -/
def escaped : Scan Char := do
  advance
  match ← current? with
  | none => malformed
  | some c =>
      advance
      match shortEscape? c with
      | some d => return d
      | none => if c = 'u' then unicodeEscape else malformed

/- Read one character between quotes, unless they close. -/
def quotedChar? : Scan (Option Char) := do
  match ← current? with
  | none => malformed
  | some c =>
      if c = '"' then
        advance
        return none
      else if c < ' ' then malformed
      else if c = '\\' then return some (← escaped)
      else
        advance
        return some c

/- Read a text in quotes. -/
def quotedText : Scan String := do
  mark '"'
  return String.ofList (← collect quotedChar?)

------------------------------------------------------------
-- Numbers
------------------------------------------------------------

/- Read digits, at least one. -/
def someDigits : Scan (List Char) := do
  let digits ← span isDigit
  if digits.isEmpty then malformed else return digits

/- Read a character, if it is there. -/
def optional (x : Char) : Scan Bool := do
  if (← current?) = some x then
    advance
    return true
  else return false

/- Read the exponent of a numeral, if it has one. -/
def exponent : Scan (Bool × List Char) := do
  if (← optional 'e') || (← optional 'E') then
    let downward ← optional '-'
    let _ ← if downward then pure false else optional '+'
    return (downward, ← someDigits)
  else return (false, [])

/- Read a numeral; zeros do not lead others. -/
def numeral : Scan Numeral := do
  let negative ← optional '-'
  let whole ← someDigits
  if whole.head? = some '0' ∧ whole.length ≠ 1 then malformed
  let fraction ←
    if ← optional '.' then someDigits else pure []
  let (downward, exponent) ← exponent
  return ⟨negative, whole, fraction, downward, exponent⟩

/- Read a number. -/
def number : Scan Json := do
  match (← numeral).value? with
  | some json => return json
  | none => malformed

------------------------------------------------------------
-- Documents
------------------------------------------------------------

/- Read a word, letter by letter. -/
def letters : List Char → Scan Unit
| [] => pure ()
| c :: cs => do
    mark c
    letters cs

/- Read a comma, unless the closing mark is there. -/
def more (closing : Char) : Scan Bool := do
  skipBlanks
  if ← optional closing then return false
  else
    mark ','
    return true

/- Read what stands between marks, with commas. -/
def enclosed
    {α : Type}
    (closing : Char)
    (item : Scan α) : Scan (List α) := do
  advance
  skipBlanks
  if ← optional closing then return []
  else
    let first ← item
    let others ←
      collect (do
        if ← more closing then return some (← item)
        else return none)
    return first :: others

/- Read a member of an object. -/
def member (value : Scan Json) : Scan (String × Json) := do
  skipBlanks
  let name ← quotedText
  skipBlanks
  mark ':'
  return (name, ← value)

/- Read a document that is no array and no object. -/
def atom : Scan Json := do
  match ← current? with
  | some 'n' =>
      letters ['n', 'u', 'l', 'l']
      return .null
  | some 't' =>
      letters ['t', 'r', 'u', 'e']
      return .bool true
  | some 'f' =>
      letters ['f', 'a', 'l', 's', 'e']
      return .bool false
  | some '"' => return .text (← quotedText)
  | _ => number

/- Read a document nested to at most this depth. -/
def valueWithin : Nat → Scan Json
| 0 => do
    skipBlanks
    atom
| depth + 1 => do
    skipBlanks
    match ← current? with
    | some '[' =>
        return .array (← enclosed ']' (valueWithin depth))
    | some '\x7b' =>
        return ofMembers
          (← enclosed '\x7d' (member (valueWithin depth)))
    | _ => atom

/- The depth to which documents may be nested. -/
def maxDepth : Nat :=
  127

/- Read a document and nothing else. -/
def document : Scan Json := do
  let json ← valueWithin maxDepth
  skipBlanks
  finish
  return json

/- The document that a text is. -/
def parse (source : String) : Except JsonError Json :=
  match readAll document source with
  | .ok json => .ok json
  | .error _ => .error .malformed

end Json

end Haystack
