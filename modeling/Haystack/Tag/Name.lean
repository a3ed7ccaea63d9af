import Haystack.Text.Scan

/-
  This file defines the names of tags, a lower-case letter
  and then letters, digits and `_`, and the references to
  records by their id.

  Key definitions include:
    * `isTagName`
    * `TagName`
    * `TagName.ofText?`
    * `TagName.scan`
    * `isRefId`
    * `Ref`
    * `Ref.ofText`
-/

namespace Haystack

------------------------------------------------------------
-- Names
------------------------------------------------------------

/- The characters spell the name of a tag. -/
def isTagName : List Char → Bool
| [] => false
| c :: cs => isTagStart c && cs.all isTagChar

/- The name of a tag. -/
structure TagName where
  text : String
  valid : isTagName text.toList = true
deriving DecidableEq, Repr

namespace TagName

/- The name that the characters spell, if they do. -/
def ofText? (cs : List Char) : Option TagName :=
  if h : isTagName cs = true then
    some ⟨String.ofList cs, by simpa using h⟩
  else none

/- Read a name, with all characters that can go on it. -/
def scan : Scan TagName :=
  fun c =>
    let taken := c.rest.takeWhile isTagChar
    match ofText? taken with
    | some name => .ok name (c.skip taken)
    | none => Scan.wants .tagStart c

end TagName

------------------------------------------------------------
-- References
------------------------------------------------------------

/- The characters spell an id. -/
def isRefId (cs : List Char) : Bool :=
  !cs.isEmpty && cs.all isIdChar

/- A reference, with the label to show for it, if any. -/
structure Ref where
  id : String
  dis : Option String
  valid : isRefId id.toList = true
deriving Repr

namespace Ref

/- The reference with this id and label. -/
def ofText
    (id : String)
    (dis : Option String) : Except ValueError Ref :=
  if h : isRefId id.toList = true then .ok ⟨id, dis, h⟩
  else .error (.refId id)

/- References are the same if their ids are. -/
instance : BEq Ref where
  beq a b := a.id = b.id

end Ref

end Haystack
