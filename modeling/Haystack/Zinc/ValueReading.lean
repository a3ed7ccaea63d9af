import Haystack.Zinc.ValueText

/-
  This file defines how a value is read: the first character
  decides what kind of literal it is.

  Key definitions include:
    * `Zinc.uri`
    * `Zinc.word`
    * `Zinc.ref`
    * `Zinc.zoneOffset`
    * `Zinc.zoned`
    * `Zinc.timeFrom`
    * `Zinc.numeric`
    * `Zinc.value`
-/

namespace Haystack

namespace Zinc

open Scan

------------------------------------------------------------
-- Enclosed Literals
------------------------------------------------------------

/- The characters that keep their backslash in a URI. -/
def keepsBackslash (c : Char) : Bool :=
  c ∈ [':', '/', '?', '#', '[', ']', '@', '\\', '&', '=', ';']

/- Read a backslash and what follows it in a URI. -/
def uriEscaped : Scan (List Char) := do
  match ← next? with
  | none => fail (.unclosed .uri)
  | some c =>
      if keepsBackslash c then
        advance
        advance
        return ['\\', c]
      else if c = '`' then
        advance
        advance
        return ['`']
      else if c = 'u' then return [← escaped]
      else fail (.uriEscape c)

/- Read a piece of a URI, unless it closes. -/
def uriPiece? : Scan (Option (List Char)) := do
  match ← current? with
  | none => fail (.unclosed .uri)
  | some c =>
      if c = '\n' ∨ c = '\r' then fail (.newlineIn .uri)
      else if c = '`' then return none
      else if c = '\\' then return some (← uriEscaped)
      else
        advance
        return some [c]

/- Read a URI, from the opening backquote on. -/
def uri : Scan Uri := do
  advance
  let pieces ← collect uriPiece?
  advance
  construct
    (orValueError (Uri.ofText (String.ofList pieces.flatten)))

/- Read a character in round brackets, unless they close. -/
def bracketedChar?
    (what : Enclosed) : Scan (Option Char) := do
  match ← current? with
  | none => fail (.unclosed what)
  | some c =>
      if c = ')' then return none
      else if c = '\n' ∨ c = '\r' then fail (.newlineIn what)
      else
        advance
        return some c

/- Read what stands in round brackets. -/
def bracketed (what : Enclosed) : Scan (List Char) := do
  expect '(' (.openParen what)
  let chars ← collect (bracketedChar? what)
  advance
  return chars

------------------------------------------------------------
-- Words and References
------------------------------------------------------------

/- The number that a word names in any place. -/
def specialNumber? : String → Option Binary64
| "NaN" => some .nan
| "INF" => some (.infinity false)
| "-INF" => some (.infinity true)
| _ => none

/- What a word names in a cell; none for `N`. -/
def cellWord (word : String) : Scan (Option Value) := do
  match word with
  | "N" => return none
  | "M" => return some .marker
  | "R" => return some .remove
  | "T" => return some (.bool true)
  | "F" => return some (.bool false)
  | "NA" => return some .na
  | "Bin" =>
      let name := String.ofList (← bracketed .bin)
      return some
        (.bin
          (← construct (orValueError (MimeType.ofText name))))
  | "C" =>
      let inner := String.ofList (← bracketed .coord)
      return some
        (.coord
          (← construct
            (orValueError
              (Coordinates.ofText ("C(" ++ inner ++ ")")))))
  | _ => fail (.unknownWord word)

/- What a word names in a filter. -/
def filterWord (word : String) : Scan (Option Value) :=
  match word with
  | "true" => pure (some (.bool true))
  | "false" => pure (some (.bool false))
  | _ => fail (.unknownWord word)

/- Read a word, whatever its first character. -/
def word (dialect : Dialect) : Scan (Option Value) := do
  let first ← current?
  advance
  let letters ← span isAlpha
  let word := String.ofList (first.toList ++ letters)
  match specialNumber? word with
  | some x => return some (.number (.plain x))
  | none =>
      match dialect with
      | .zinc => cellWord word
      | .filter => filterWord word

/- Read a reference, from the `@` on. -/
def ref : Scan Ref := do
  advance
  let id := String.ofList (← span isIdChar)
  skipSpace
  if (← current?) = some '"' then
    let dis ← quoted
    construct (orValueError (Ref.ofText id (some dis)))
  else construct (orValueError (Ref.ofText id none))

------------------------------------------------------------
-- Times
------------------------------------------------------------

/- Read one to three decimals of a second. -/
def millis : Scan Nat := do
  let digits ← spanAtMost 3 isDigit
  if (← current?).any isDigit then fail .tooManyMillisDigits
  else if digits.isEmpty then wants .millisDigit
  else return digitsValue (digits.rightpad 3 '0')

/- Read the part of a time from the colon after hours on. -/
def timeFrom (hour : Nat) : Scan Time := do
  expect ':' .timeColon
  let minute ← twoDigits .minuteDigit
  expect ':' .timeColon
  let second ← twoDigits .secondDigit
  if (← current?) = some '.' then
    advance
    let fraction ← millis
    construct
      (orValueError (Time.ofParts hour minute second fraction))
  else
    construct (orValueError (Time.ofParts hour minute second 0))

/- Read hours and minutes from universal time. -/
def hoursAndMinutes : Scan Int := do
  let hours ← twoDigits .zoneDigit
  expect ':' .zoneColon
  let minutes ← twoDigits .zoneDigit
  return hours * 3600 + minutes * 60

/- Read an offset, which is `Z` or has a sign. -/
def zoneOffset : Scan Int := do
  match ← current? with
  | some 'Z' =>
      advance
      return 0
  | some '-' =>
      advance
      return -(← hoursAndMinutes)
  | some '+' =>
      advance
      hoursAndMinutes
  | _ => wants .zoneSign

/-
  Read the offset and zone of a date-time. A zone starts
  with a capital letter, so that the name of a tag may
  follow a date-time without one.
-/
def zoned
    (zones : ZoneTable)
    (date : Date)
    (time : Time) : Scan DateTime := do
  let offset ← zoneOffset
  if (← current?) = some ' ' ∧ (← next?).any isUpper then
    advance
    let name := String.ofList (← span isZoneChar)
    match zones.find? name with
    | none => fail (.unknownZone name)
    | some zone =>
        construct
          (orValueError (DateTime.ofParts date time zone offset))
  else if offset ≠ 0 then wants .zoneSpace
  else construct (orValueError (DateTime.ofParts date time .utc 0))

------------------------------------------------------------
-- Numbers and What Starts Like Them
------------------------------------------------------------

/- Read a piece of a numeral; underscores are left out. -/
def numeralPiece? : Scan (Option (List Char)) := do
  match ← current? with
  | none => return none
  | some c =>
      if isDigit c ∨ c = '.' then
        advance
        return some [c]
      else if c = '_' then
        advance
        return some []
      else if (c = 'e' ∨ c = 'E') ∧
          (← next?).any
            (fun d => d = '-' || d = '+' || isDigit d) then
        advance
        let next ← current?
        advance
        return some (c :: next.toList)
      else return none

/- Read a numeral, whatever its first character. -/
def numeral : Scan (List Char) := do
  let first ← current?
  advance
  let pieces ← collect numeralPiece?
  return first.toList ++ pieces.flatten

/- Read the rest of a date, from the dash after the year. -/
def dateFrom (year : List Char) : Scan Date := do
  match int32OfNumeral? year with
  | none => fail (.yearDigits (String.ofList year))
  | some y =>
      advance
      let month ← twoDigits .monthDigit
      expect '-' .dateDash
      let day ← twoDigits .dayDigit
      construct (orValueError (Date.ofParts y month day))

/- Read a date, or a date-time if it goes on with `T`. -/
def dated
    (zones : ZoneTable)
    (year : List Char) : Scan Value := do
  let date ← dateFrom year
  if (← current?) = some 'T' then
    advance
    let hour ← twoDigits .hourDigit
    let time ← timeFrom hour
    return .dateTime (← zoned zones date time)
  else return .date date

/- Read the rest of a time, from the colon after the hour. -/
def timed (hour : List Char) : Scan Value := do
  if hour.length = 2 ∧ hour.all isDigit then
    return .time (← timeFrom (digitsValue hour))
  else fail (.hourDigits (String.ofList hour))

/- Make a number of a numeral, with the unit that follows. -/
def measured (digits : List Char) : Scan Value := do
  match Binary64.ofNumeral? digits with
  | none => fail (.numeral (String.ofList digits))
  | some x =>
      let unit ← span isUnitChar
      if unit.isEmpty then return .number (.plain x)
      else
        return .number
          (← construct
            (orValueError
              (Number.withUnit x (String.ofList unit))))

/- Read a number, a date, a time or a date-time. -/
def numeric (zones : ZoneTable) : Scan Value := do
  let digits ← numeral
  match ← current? with
  | some '-' => dated zones digits
  | some ':' => timed digits
  | _ => measured digits

------------------------------------------------------------
-- Values
------------------------------------------------------------

/- Read a value; none for the null of cells. -/
def value
    (zones : ZoneTable)
    (dialect : Dialect) : Scan (Option Value) := do
  match ← current? with
  | none => wants .valueStart
  | some c =>
      let next ← next?
      if isDigit c then return some (← numeric zones)
      else if isAlpha c then word dialect
      else if c = '@' then return some (.ref (← ref))
      else if c = '"' then return some (.str (← quoted))
      else if c = '`' then return some (.uri (← uri))
      else if c = '-' ∧ next = some 'I' then word dialect
      else if c = '-' ∧ next.any isDigit then
        return some (← numeric zones)
      else wants .valueStart

end Zinc

end Haystack
