import Haystack.Binary64.Layout
import Haystack.Error
import Haystack.Text.CharClass

/-
  This file defines numbers with an optional unit.

  Key definitions include:
    * `isUnitName`
    * `UnitName`
    * `UnitName.ofText`
    * `Number`
    * `Number.layout`
    * `Number.text`
-/

namespace Haystack

------------------------------------------------------------
-- Units
------------------------------------------------------------

/- The characters spell the name of a unit. -/
def isUnitName (cs : List Char) : Bool :=
  !cs.isEmpty && cs.all isUnitChar

/- The name of a unit. -/
structure UnitName where
  text : String
  valid : isUnitName text.toList = true
deriving DecidableEq, Repr

/- The unit with this name. -/
def UnitName.ofText
    (text : String) : Except ValueError UnitName :=
  if h : isUnitName text.toList = true then .ok ⟨text, h⟩
  else .error (.unitName text)

------------------------------------------------------------
-- Numbers
------------------------------------------------------------

/-
  A number and its unit, equal when all bits of the number
  and the unit are.
-/
structure Number where
  value : Binary64
  unit : Option UnitName
deriving DecidableEq, Repr

namespace Number

/- A number without a unit. -/
def plain (value : Binary64) : Number :=
  ⟨value, none⟩

/- A number with a unit of this name. -/
def withUnit
    (value : Binary64)
    (unit : String) : Except ValueError Number :=
  return ⟨value, some (← UnitName.ofText unit)⟩

/- Numbers are ordered by their value alone. -/
instance : Ord Number where
  compare a b := compare a.value b.value

/-
  Plain digits from a ten-thousandth to below a quadrillion,
  and powers of ten otherwise.
-/
def layout : NumberLayout where
  isPlain := fun e => -4 ≤ e && e < 15
  wholeTail := []
  upwardSign := []
  tie := .up
  notANumber := ['N', 'a', 'N']
  infinite := ['I', 'N', 'F']

/- The characters of the unit, if there is one. -/
def unitText (n : Number) : List Char :=
  match n.unit with
  | none => []
  | some unit => unit.text.toList

/- A number and its unit; only finite ones show a unit. -/
def text (n : Number) : List Char :=
  if n.value.IsFinite then
    layout.text n.value ++ n.unitText
  else layout.text n.value

end Number

end Haystack
