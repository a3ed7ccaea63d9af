import Haystack.Error
import Haystack.Text.UpperCase

/-
  This file defines patterns for texts: a literal with a `%`
  before it, after it, or on both sides.

  Key definitions include:
    * `Anchor`
    * `LikePattern`
    * `LikePattern.split`
    * `LikePattern.ofText`
    * `LikePattern.accepts`
-/

namespace Haystack

/- Where the literal of a pattern stands in a text. -/
inductive Anchor where
| start
| finish
| anywhere
deriving DecidableEq, Repr

namespace LikePattern

/- A `%` at the front, and what follows it. -/
def splitFront : List Char → Bool × List Char
| '%' :: cs => (true, cs)
| cs => (false, cs)

/-
  A `%` at the end, and what is before it. Two of them are
  no wildcard, but a single one that is part of the literal.
-/
def splitBack (cs : List Char) : Bool × List Char :=
  if cs.getLast? = some '%' then
    (cs.dropLast.getLast? ≠ some '%', cs.dropLast)
  else (false, cs)

/- The anchor that wildcards on either side stand for. -/
def anchorOf : Bool → Bool → Option Anchor
| true, true => some .anywhere
| true, false => some .finish
| false, true => some .start
| false, false => none

/- The anchor and the literal of a pattern. -/
def split (cs : List Char) :
    Except FilterError (Anchor × List Char) :=
  let front := splitFront cs
  let back := splitBack front.2
  match anchorOf front.1 back.1 with
  | none => .error .likeWithoutWildcard
  | some anchor =>
      if back.2.isEmpty then .error .likeWithoutText
      else .ok (anchor, back.2)

end LikePattern

/- A pattern as it was written, and what it consists of. -/
structure LikePattern where
  source : String
  ignoreCase : Bool
  anchor : Anchor
  literal : List Char
  split_source :
    LikePattern.split source.toList = .ok (anchor, literal)
deriving DecidableEq, Repr

namespace LikePattern

/- The pattern that is written this way. -/
def ofText
    (source : String)
    (ignoreCase : Bool) :
    Except FilterError LikePattern :=
  match h : split source.toList with
  | .ok (anchor, literal) =>
      .ok ⟨source, ignoreCase, anchor, literal, h⟩
  | .error e => .error e

/- The literal occurs somewhere in the text. -/
def occursIn
    (literal : List Char) : List Char → Bool
| [] => literal.isEmpty
| c :: cs =>
    literal.isPrefixOf (c :: cs) || occursIn literal cs

/- The literal stands in the text where the anchor says. -/
def isAt
    (literal text : List Char) : Anchor → Bool
| .start => literal.isPrefixOf text
| .finish => literal.isSuffixOf text
| .anywhere => occursIn literal text

/- The pattern accepts a text, or both in upper case. -/
def accepts
    (p : LikePattern)
    (text : String) : Bool :=
  if p.ignoreCase then
    isAt (upperCase p.literal) (upperCase text.toList) p.anchor
  else isAt p.literal text.toList p.anchor

end LikePattern

end Haystack
