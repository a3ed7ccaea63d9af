import Haystack.Text.Scan

/-
  This file defines texts in double quotes: how they are
  written, and all the spellings in which they are read.

  Key definitions include:
    * `Zinc.escape`
    * `Zinc.quote`
    * `Zinc.unicodeEscape`
    * `Zinc.escaped`
    * `Zinc.quoted`
-/

namespace Haystack

namespace Zinc

------------------------------------------------------------
-- Writing
------------------------------------------------------------

/- The spelling of one character between quotes. -/
def escape (c : Char) : List Char :=
  if c = '\n' then ['\\', 'n']
  else if c = '\r' then ['\\', 'r']
  else if c = '\t' then ['\\', 't']
  else if c = '"' then ['\\', '"']
  else if c = '\\' then ['\\', '\\']
  else if c < ' ' then ['\\', 'u'] ++ hexText4 c.toNat
  else [c]

/- A text between quotes. -/
def quote (cs : List Char) : List Char :=
  ['"'] ++ cs.flatMap escape ++ ['"']

------------------------------------------------------------
-- Reading
------------------------------------------------------------

open Scan

/- The characters that a backslash and a letter stand for. -/
def shortEscape? (c : Char) : Option Char :=
  if c = 'b' then some '\x08'
  else if c = 'f' then some '\x0c'
  else if c = 'n' then some '\n'
  else if c = 'r' then some '\r'
  else if c = 't' then some '\t'
  else if c = '"' then some '"'
  else if c = '$' then some '$'
  else if c = '\\' then some '\\'
  else none

/- The character of a code point, unless it is a surrogate. -/
def charOf (code : Nat) : Scan Char :=
  if code.isValidChar then pure (Char.ofNat code)
  else fail (.unicodeEscape code)

/-
  Read the four digits after `\u`. A high surrogate and the
  escape after it make one character.
-/
def unicodeEscape : Scan Char := do
  let code ← fourHexDigits
  if 0xD800 ≤ code ∧ code < 0xDC00 ∧
      (← current?) = some '\\' ∧ (← next?) = some 'u' then
    advance
    advance
    let low ← fourHexDigits
    if 0xDC00 ≤ low ∧ low < 0xE000 then
      charOf
        (0x10000 + (code - 0xD800) * 0x400 + (low - 0xDC00))
    else fail (.lowSurrogate low)
  else charOf code

/- Read a backslash and what it stands for. -/
def escaped : Scan Char := do
  advance
  match ← current? with
  | none => fail (.unclosed .str)
  | some c =>
      match shortEscape? c with
      | some d =>
          advance
          return d
      | none =>
          if c = 'u' then
            advance
            unicodeEscape
          else fail (.strEscape c)

/- Read one character between quotes, unless they close. -/
def quotedChar? : Scan (Option Char) := do
  match ← current? with
  | none => fail (.unclosed .str)
  | some c =>
      if c = '"' then return none
      else if c = '\n' ∨ c = '\r' then fail (.newlineIn .str)
      else if c = '\\' then return some (← escaped)
      else
        advance
        return some c

/- Read a text in quotes, from the opening one on. -/
def quoted : Scan String := do
  advance
  let chars ← collect quotedChar?
  advance
  return String.ofList chars

end Zinc

end Haystack
