import Haystack.Tag.Value

/-
  This file defines the comparisons of a value with another.

  Key definitions include:
    * `Comparison`
    * `Comparison.symbol`
    * `Comparison.accepts`
    * `Comparison.holds`
-/

namespace Haystack

/- The comparisons. -/
inductive Comparison where
| eq
| ne
| lt
| le
| gt
| ge
deriving DecidableEq, Repr

namespace Comparison

/- The symbol of a comparison. -/
def symbol : Comparison → String
| .eq => "=="
| .ne => "!="
| .lt => "<"
| .le => "<="
| .gt => ">"
| .ge => ">="

/- Only values that are ordered can be compared this way. -/
def isOrdering : Comparison → Bool
| .eq => false
| .ne => false
| _ => true

/- The comparison accepts how two values are ordered. -/
def accepts : Comparison → Ordering → Bool
| .eq, o => o = .eq
| .ne, o => o ≠ .eq
| .lt, o => o = .lt
| .le, o => o ≠ .gt
| .gt, o => o = .gt
| .ge, o => o ≠ .lt

/- Values of different kinds never compare. -/
def holds
    (op : Comparison)
    (a b : Value) : Bool :=
  if a.kind ≠ b.kind then false
  else if op.isOrdering then
    (a.compare? b).any op.accepts
  else (a == b) == (op = .eq)

end Comparison

end Haystack
