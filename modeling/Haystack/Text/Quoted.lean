import Haystack.Text.Digits
import Haystack.Text.Unprintable

/-
  This file defines how a message quotes a text: between
  double quotes, with quotes, backslashes and all characters
  without a printed form escaped.

  Key definitions include:
    * `Quoted.escape`
    * `quoted`
-/

namespace Haystack

namespace Quoted

/- An escape by code point, such as `\u{200b}`. -/
def codeEscape (c : Char) : List Char :=
  ['\\', 'u', '\x7b'] ++ hexText c.toNat ++ ['\x7d']

/- The spelling of one character inside quotes. -/
def escape (c : Char) : List Char :=
  if c = '\x00' then ['\\', '0']
  else if c = '\t' then ['\\', 't']
  else if c = '\r' then ['\\', 'r']
  else if c = '\n' then ['\\', 'n']
  else if c = '\\' then ['\\', '\\']
  else if c = '"' then ['\\', '"']
  else if isUnprintable c then codeEscape c
  else [c]

/-
  The first character has nothing before it that it could
  extend, so there an extending mark is escaped as well.
-/
def escapeFirst (c : Char) : List Char :=
  if isExtender c then codeEscape c else escape c

/- The spelling of a text inside quotes. -/
def body : List Char → List Char
| [] => []
| c :: cs => escapeFirst c ++ cs.flatMap escape

end Quoted

/- A text in quotes, as messages show it. -/
def quoted (text : String) : String :=
  String.ofList (['"'] ++ Quoted.body text.toList ++ ['"'])

end Haystack
