import Haystack.Binary64.Basic

/-
  This file defines JSON documents. The members of an object
  are sorted by name, and a name occurs once.

  Key definitions include:
    * `Json`
    * `Json.putMember`
    * `Json.ofMembers`
    * `Json.member?`
-/

namespace Haystack

/-
  A JSON document. Whole numbers that fit 64 bits are kept
  apart from all other numbers.
-/
inductive Json where
| null
| bool (b : Bool)
| int (n : Int)
| float (x : Binary64)
| text (s : String)
| array (items : List Json)
| object (members : List (String × Json))
deriving Repr

namespace Json

/-
  Put a member at its place among sorted ones, instead of
  one with the same name.
-/
def putMember
    (name : String)
    (value : Json) :
    List (String × Json) → List (String × Json)
| [] => [(name, value)]
| (key, old) :: rest =>
    if name = key then (name, value) :: rest
    else if name < key then
      (name, value) :: (key, old) :: rest
    else (key, old) :: putMember name value rest

/- The object of these members; the last of a name counts. -/
def ofMembers (members : List (String × Json)) : Json :=
  .object
    (members.foldl (fun ms m => putMember m.1 m.2 ms) [])

/- The value of a member, if the object has it. -/
def member?
    (members : List (String × Json))
    (name : String) : Option Json :=
  members.lookup name

end Json

end Haystack
