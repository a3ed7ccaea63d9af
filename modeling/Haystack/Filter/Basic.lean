import Haystack.Filter.Comparison
import Haystack.Filter.LikePattern
import Haystack.Filter.Path
import Haystack.Zinc.ValueText

/-
  This file defines filters, the one text that each has, and
  which records a filter includes.

  Key definitions include:
    * `Filter`
    * `Filter.ofLike`
    * `Filter.paths`
    * `Filter.text`
    * `Filter.includes`
-/

namespace Haystack

/- A condition on records. -/
inductive Filter where
| all
| has (path : Path)
| missing (path : Path)
| cmp (path : Path) (op : Comparison) (value : Value)
| like (path : Path) (pattern : LikePattern)
| and (a b : Filter)
| or (a b : Filter)
| not (a : Filter)
deriving Repr

namespace Filter

/- The values that match a pattern are texts. -/
def ofLike
    (path : Path)
    (pattern : Value)
    (ignoreCase : Bool) : Except FilterError Filter :=
  match pattern with
  | .str source =>
      return .like path
        (← LikePattern.ofText source ignoreCase)
  | _ => .error .likeNotText

/- The paths that a filter reads, from left to right. -/
def paths : Filter → List Path
| .all => []
| .has path => [path]
| .missing path => [path]
| .cmp path _ _ => [path]
| .like path _ => [path]
| .and a b => a.paths ++ b.paths
| .or a b => a.paths ++ b.paths
| .not a => a.paths

/- The filter follows references to other records. -/
def isMultiHop (f : Filter) : Bool :=
  f.paths.any Path.isMultiHop

------------------------------------------------------------
-- Text
------------------------------------------------------------

/- The filter has two parts. -/
def isCompound : Filter → Bool
| .and _ _ => true
| .or _ _ => true
| _ => false

/- A text in round brackets. -/
def bracket (cs : List Char) : List Char :=
  ['('] ++ cs ++ [')']

/- The symbol of a pattern match. -/
def likeSymbol (ignoreCase : Bool) : List Char :=
  if ignoreCase then ['~', '~'] else ['~']

/-
  The text of a filter. Parts with two parts themselves are
  put in brackets, so that the text shows the whole tree.
-/
def text : Filter → List Char
| .all => ['*']
| .has path => path.text
| .missing path => ['n', 'o', 't', ' '] ++ path.text
| .cmp path op value =>
    path.text ++ op.symbol.toList ++ value.textIn .filter
| .like path pattern =>
    path.text ++ likeSymbol pattern.ignoreCase ++
      Zinc.quote pattern.source.toList
| .and a b =>
    (if a.isCompound then bracket a.text else a.text) ++
      [' ', 'a', 'n', 'd', ' '] ++
      (if b.isCompound then bracket b.text else b.text)
| .or a b =>
    (if a.isCompound then bracket a.text else a.text) ++
      [' ', 'o', 'r', ' '] ++
      (if b.isCompound then bracket b.text else b.text)
| .not a => ['!'] ++ bracket a.text

/- Filters are the same if their texts are. -/
instance : BEq Filter where
  beq f g := f.text == g.text

instance : Hashable Filter where
  hash f := hash (String.ofList f.text)

------------------------------------------------------------
-- Evaluation
------------------------------------------------------------

/-
  The filter includes a record. A path that leads nowhere
  finds no value.
-/
def includes
    (resolve : Resolver)
    (record : Record) : Filter → Bool
| .all => true
| .has path => (path.find? resolve record).isSome
| .missing path => (path.find? resolve record).isNone
| .cmp path op value =>
    (path.find? resolve record).any (fun v => op.holds v value)
| .like path pattern =>
    match path.find? resolve record with
    | some (.str s) => pattern.accepts s
    | _ => false
| .and a b =>
    a.includes resolve record && b.includes resolve record
| .or a b =>
    a.includes resolve record || b.includes resolve record
| .not a => !a.includes resolve record

/- The filter includes a record without looking at others. -/
def accepts
    (f : Filter)
    (record : Record) : Bool :=
  f.includes .none record

end Filter

end Haystack
