import Haystack.Json.Reading
import Haystack.Json.Text
import Haystack.Zinc.GridReading
import Haystack.Zinc.GridText

/-
  This file defines how values, records and grids stand in
  JSON. What JSON has no form for is a text with a letter
  and a colon before it.

  Key definitions include:
    * `Value.toJson`
    * `Record.toJson`
    * `Grid.toJson`
    * `Value.ofJson`
    * `Record.ofJson`
    * `Grid.ofJson`
    * `Grid.ofJsonText`
-/

namespace Haystack

------------------------------------------------------------
-- To JSON
------------------------------------------------------------

/- A text with a letter and a colon before it. -/
def Json.coded
    (code : Char)
    (body : List Char) : Json :=
  .text (String.ofList (code :: ':' :: body))

namespace Number

/- Whole numbers below this size are written as such. -/
def exactBound : Nat :=
  9007199254740992

/- A finite number without a unit. -/
def plainJson (x : Binary64) : Json :=
  if x.magnitude = 0 ∧ x.isNegative then .float x
  else if x.isWhole ∧ x.wholePart < exactBound then
    .int (if x.isNegative then -x.wholePart else x.wholePart)
  else .float x

/- A number; a unit follows it after a space. -/
def toJson (n : Number) : Json :=
  let digits := (plain n.value).text
  if n.value.IsFinite then
    match n.unit with
    | none => plainJson n.value
    | some unit =>
        .coded 'n' (digits ++ [' '] ++ unit.text.toList)
  else .coded 'n' digits

end Number

/- A reference; a label follows the id after a space. -/
def Ref.toJson (r : Ref) : Json :=
  .coded 'r'
    (r.id.toList ++
      match r.dis with
      | none => []
      | some dis => ' ' :: dis.toList)

/- The degrees of a place. -/
def Coordinates.toJson (p : Coordinates) : Json :=
  .coded 'c'
    (NumberLayout.message.text p.latitude ++ [','] ++
      NumberLayout.message.text p.longitude)

/- A text, coded only if it looks like a coded one. -/
def textToJson (s : String) : Json :=
  match s.toList with
  | _ :: ':' :: _ => .coded 's' s.toList
  | _ => .text s

namespace Value

mutual

/- A value in JSON. -/
def toJson : Value → Json
| .marker => .coded 'm' []
| .remove => .coded 'x' []
| .na => .coded 'z' []
| .bool b => .bool b
| .number n => n.toJson
| .str s => textToJson s
| .uri u => .coded 'u' u.address.toList
| .bin mime => .coded 'b' mime.name.toList
| .coord p => p.toJson
| .date d => .coded 'd' d.text
| .time t => .coded 'h' t.text
| .dateTime x => .coded 't' x.text
| .ref r => r.toJson
| .list items => .array (itemsToJson items)
| .dict ⟨entries⟩ => .ofMembers (membersOf entries)

/- The items of a list in JSON. -/
def itemsToJson : List Value → List Json
| [] => []
| item :: items => toJson item :: itemsToJson items

/- The entries of a dict in JSON. -/
def membersOf :
    List (String × Value) → List (String × Json)
| [] => []
| (key, value) :: entries =>
    (key, toJson value) :: membersOf entries

end

end Value

/- A record in JSON. -/
def Record.toJson (r : Record) : Json :=
  .ofMembers (Value.membersOf r.entries)

namespace Grid

/- A grid in JSON; `meta` is left out if it is empty. -/
def toJson (g : Grid) : Json :=
  let rows := ("rows", .array (g.rows.map Record.toJson))
  if g.metadata.isEmpty then .ofMembers [rows]
  else
    .ofMembers [("meta", Record.toJson g.metadata), rows]

/- A grid as JSON text on one line. -/
def jsonText (g : Grid) : String :=
  String.ofList g.toJson.compact

/- A grid as indented JSON text. -/
def prettyJsonText (g : Grid) : String :=
  String.ofList g.toJson.pretty

end Grid

------------------------------------------------------------
-- From JSON
------------------------------------------------------------

/- What is before the first space, and after it if any. -/
def splitSpace : List Char → List Char × Option (List Char)
| [] => ([], none)
| c :: cs =>
    if c = ' ' then ([], some cs)
    else
      let rest := splitSpace cs
      (c :: rest.1, rest.2)

/- The number that a coded text names. -/
def Number.ofCoded (body : List Char) :
    Except Error Number := do
  let (digits, unit) := splitSpace body
  match Zinc.decodeValue (String.ofList digits) with
  | .error e => throw e
  | .ok (some (.number n)) =>
      match unit with
      | none => return n
      | some name =>
          orValueError
            (Number.withUnit n.value (String.ofList name))
  | .ok _ => throw (.json (.number (String.ofList body)))

/- The reference that a coded text names. -/
def Ref.ofCoded (body : List Char) : Except ValueError Ref :=
  let (id, dis) := splitSpace body
  Ref.ofText (String.ofList id) (dis.map String.ofList)

/- The inside of round brackets, or else all. -/
def unbracketed : List Char → List Char
| '(' :: cs =>
    if cs.getLast? = some ')' then cs.dropLast else '(' :: cs
| cs => cs

/- The place that a coded text names. -/
def Coordinates.ofCoded (body : List Char) :
    Except ValueError Coordinates :=
  Coordinates.ofText
    ("C(" ++ String.ofList (unbracketed body) ++ ")")

namespace Value

/- The value that a code and a text stand for, if any. -/
def ofCode
    (code : Char)
    (body : List Char) :
    Option (Except Error Value) :=
  let s := String.ofList body
  match code with
  | 'm' => some (.ok .marker)
  | 'x' => some (.ok .remove)
  | 'z' => some (.ok .na)
  | 's' => some (.ok (.str s))
  | 'n' => some (.number <$> Number.ofCoded body)
  | 'u' => some (.uri <$> orValueError (Uri.ofText s))
  | 'b' => some (.bin <$> orValueError (MimeType.ofText s))
  | 'r' => some (.ref <$> orValueError (Ref.ofCoded body))
  | 'c' =>
      some (.coord <$> orValueError (Coordinates.ofCoded body))
  | 'd' => some (.date <$> Zinc.decodeDate s)
  | 'h' => some (.time <$> Zinc.decodeTime s)
  | 't' => some (.dateTime <$> Zinc.decodeDateTime s)
  | _ => none

/- The value that a text in JSON stands for. -/
def ofJsonString (s : String) : Except Error Value :=
  match s.toList with
  | code :: ':' :: body => (ofCode code body).getD (.ok (.str s))
  | _ => .ok (.str s)

mutual

/- The value that a document stands for; none for `null`. -/
def ofJson : Json → Except Error (Option Value)
| .null => .ok none
| .bool b => .ok (some (.bool b))
| .int n => .ok (some (.number (.plain (.ofInt n))))
| .float x => .ok (some (.number (.plain x)))
| .text s => some <$> ofJsonString s
| .array items => do
    return some (.list (← itemsOfJson items))
| .object members => do
    return some (.dict (.ofEntries (← entriesOf members)))

/- The items of a list, none of which may be missing. -/
def itemsOfJson : List Json → Except Error (List Value)
| [] => .ok []
| json :: jsons => do
    match ← ofJson json with
    | none => throw (.json .nullInList)
    | some value => return value :: (← itemsOfJson jsons)

/- The entries of a dict; missing values are left out. -/
def entriesOf :
    List (String × Json) →
      Except Error (List (String × Value))
| [] => .ok []
| (key, json) :: members => do
    match ← ofJson json with
    | none => entriesOf members
    | some value =>
        return (key, value) :: (← entriesOf members)

end

end Value

/- The record that an object stands for. -/
def Record.ofJson : Json → Except Error Record
| .object members => do
    return .ofEntries (← Value.entriesOf members)
| json => throw (.json (.notObject json))

namespace Grid

/- The rows that a member of an object stands for. -/
def rowsOfJson :
    Option Json → Except Error (List Record)
| none => .ok []
| some (.array rows) => rows.mapM Record.ofJson
| some _ => throw (.json .rowsNotArray)

/- The grid that an object stands for. -/
def ofJson : Json → Except Error Grid
| .object members => do
    let metadata ←
      match Json.member? members "meta" with
      | none => pure .empty
      | some json => Record.ofJson json
    let rows ← rowsOfJson (Json.member? members "rows")
    return ⟨metadata, rows⟩
| _ => throw (.json .gridNotObject)

/- The grid that a JSON text stands for. -/
def ofJsonText (text : String) : Except Error Grid :=
  match Json.parse text with
  | .ok json => ofJson json
  | .error e => .error (.json e)

end Grid

end Haystack
