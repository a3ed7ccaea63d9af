import Haystack.Error
import Haystack.Text.CharClass

/-
  This file defines the values that name a resource: URIs
  and the media types of binary data.

  Key definitions include:
    * `Uri`
    * `Uri.ofText`
    * `Uri.text`
    * `MimeType`
    * `MimeType.ofText`
    * `MimeType.text`
-/

namespace Haystack

------------------------------------------------------------
-- URIs
------------------------------------------------------------

/- The character may stand in a URI. -/
def isUriChar (c : Char) : Bool :=
  ' ' ≤ c

/- A resource identifier without control characters. -/
structure Uri where
  address : String
  valid : address.toList.all isUriChar = true
deriving DecidableEq, Repr

namespace Uri

/-
  The first character that may not stand in a URI, and the
  number of UTF-8 bytes before it.
-/
def firstBad
    (index : Nat) :
    List Char → Option (Nat × Char)
| [] => none
| c :: cs =>
    if isUriChar c then firstBad (index + c.utf8Size) cs
    else some (index, c)

/- Without a bad character, all are good. -/
theorem all_of_firstBad
    {index : Nat}
    {cs : List Char}
    (h : firstBad index cs = none) :
    cs.all isUriChar = true := by
  induction cs generalizing index with
  | nil => rfl
  | cons c cs ih =>
      by_cases hc : isUriChar c = true
      · simp only [firstBad, hc, if_true] at h
        rw [List.all_cons, hc, ih h]
        rfl
      · simp [firstBad, hc] at h

/- The URI with this address. -/
def ofText (address : String) : Except ValueError Uri :=
  match h : firstBad 0 address.toList with
  | none => .ok ⟨address, all_of_firstBad h⟩
  | some (index, c) => .error (.uriChar index c)

/- The spelling of one character between backquotes. -/
def escape (c : Char) : List Char :=
  if c = '`' then ['\\', '`'] else [c]

/- A URI between backquotes. -/
def text (uri : Uri) : List Char :=
  ['`'] ++ uri.address.toList.flatMap escape ++ ['`']

end Uri

------------------------------------------------------------
-- Media Types
------------------------------------------------------------

/- The character may stand in a media type. -/
def isMimeChar (c : Char) : Bool :=
  isAscii c && c ≠ ')'

/- The type of binary data; it contains a slash. -/
structure MimeType where
  name : String
  slash_mem : '/' ∈ name.toList
  valid : name.toList.all isMimeChar = true
deriving DecidableEq, Repr

namespace MimeType

/- The media type with this name. -/
def ofText (name : String) : Except ValueError MimeType :=
  if hs : '/' ∈ name.toList then
    match h : name.toList.find? (fun c => !isMimeChar c) with
    | none =>
        .ok ⟨name, hs, by
          simpa [List.find?_eq_none] using h⟩
    | some c => .error (.mimeChar c)
  else .error (.mimeType name)

/- A media type in its brackets. -/
def text (mime : MimeType) : List Char :=
  ['B', 'i', 'n', '('] ++ mime.name.toList ++ [')']

end MimeType

end Haystack
