import Haystack.Json.Text
import Haystack.Text.Quoted
import Haystack.Text.Utf8

/-
  This file defines what can go wrong, by cause, and the
  wording of each cause.

  Key definitions include:
    * `ValueError`
    * `FilterError`
    * `JsonError`
    * `Expected`
    * `Fault`
    * `ParseError`
    * `Error`
    * `Error.line?`
    * `Error.atLine`
    * `Error.message`
    * `orValueError`
    * `orFilterError`
-/

namespace Haystack

------------------------------------------------------------
-- Values and Filters
------------------------------------------------------------

/- Parts that no value can be made of. -/
inductive ValueError where
| unitName (text : String)
| uriChar (index : Nat) (c : Char)
| mimeType (text : String)
| mimeChar (c : Char)
| latitude (degrees : Binary64)
| longitude (degrees : Binary64)
| coordinates (text : String)
| refId (text : String)
| year (n : Int)
| month (n : Nat)
| day (n : Nat)
| hour (n : Nat)
| minute (n : Nat)
| second (n : Nat)
| millis (n : Nat)
| zoneOffset (seconds : Int)
| notDate (text : String)
| notTime (text : String)
| notDateTime (text : String)
| epochMillis (n : Int)
| recordWithoutId
deriving DecidableEq, Repr

/- A number in a message. -/
def messageNumber (x : Binary64) : String :=
  String.ofList (NumberLayout.message.text x)

/- Lower-case hexadecimal digits in a message. -/
def messageHex (n : Nat) : String :=
  String.ofList (hexText n)

/- The wording of a value error. -/
def ValueError.message : ValueError → String
| .unitName text => s!"Invalid unit name: {quoted text}"
| .uriChar index c =>
    s!"Invalid URI char at {index}: 0x" ++
      messageHex c.toNat
| .mimeType text => s!"Invalid mime val: {quoted text}"
| .mimeChar c => s!"Invalid mime, char='{c}'"
| .latitude x => s!"Invalid lat {messageNumber x} > +/- 90"
| .longitude x => s!"Invalid lng {messageNumber x} > +/- 180"
| .coordinates text => s!"Invalid coordinates: {quoted text}"
| .refId text => s!"Invalid id val: {quoted text}"
| .year n => s!"Invalid year: {n}"
| .month n => s!"Invalid month: {n}"
| .day n => s!"Invalid day: {n}"
| .hour n => s!"Invalid hour: {n}"
| .minute n => s!"Invalid min: {n}"
| .second n => s!"Invalid sec: {n}"
| .millis n => s!"Invalid ms: {n}"
| .zoneOffset n => s!"Invalid tz offset: {n}"
| .notDate text => s!"Invalid date: {quoted text}"
| .notTime text => s!"Invalid time: {quoted text}"
| .notDateTime text => s!"Invalid date time: {quoted text}"
| .epochMillis n => s!"Invalid epoch millis: {n}"
| .recordWithoutId => "Record has no id reference"

/- Parts that no filter can be made of. -/
inductive FilterError where
| path (text segment : String)
| likeNotText
| likeWithoutWildcard
| likeWithoutText
deriving DecidableEq, Repr

/- The wording of a filter error. -/
def FilterError.message : FilterError → String
| .path text segment =>
    s!"Invalid path {quoted text}: " ++
      s!"bad segment {quoted segment}"
| .likeNotText => "~ (like) operator only supports strings"
| .likeWithoutWildcard =>
    "~ (like) operator must contain a starting or ending '%'"
| .likeWithoutText =>
    "~ (like) operator must contain a string expression"

------------------------------------------------------------
-- JSON
------------------------------------------------------------

/- Documents that stand for no value or grid. -/
inductive JsonError where
| malformed
| gridNotObject
| rowsNotArray
| notObject (json : Json)
| nullInList
| number (body : String)
deriving Repr

/- The wording of a JSON error. -/
def JsonError.message : JsonError → String
| .malformed => "malformed text"
| .gridNotObject => "grid must be an object"
| .rowsNotArray => "grid rows must be an array"
| .notObject json =>
    "expected object, found " ++ String.ofList json.compact
| .nullInList => "null is not allowed in a list"
| .number body => s!"invalid number: {quoted body}"

------------------------------------------------------------
-- Texts
------------------------------------------------------------

/- The literals that have an opening and a closing mark. -/
inductive Enclosed where
| bin
| coord
| str
| uri
deriving DecidableEq, Repr

/- The name of an enclosed literal. -/
def Enclosed.name : Enclosed → String
| .bin => "bin"
| .coord => "coord"
| .str => "str"
| .uri => "uri"

/- What was to stand where another character was found. -/
inductive Expected where
| newline
| tagStart
| endOfText
| valueStart
| openParen (what : Enclosed)
| monthDigit
| dayDigit
| dateDash
| hourDigit
| timeColon
| minuteDigit
| secondDigit
| millisDigit
| zoneSign
| zoneDigit
| zoneColon
| zoneSpace
| hexDigit
| versionColon
| versionQuote
| cellComma
| closeParen
| other (text : String)
deriving DecidableEq, Repr

/- The wording of an expectation. -/
def Expected.text : Expected → String
| .newline => "Expecting newline"
| .tagStart => "Invalid name start char"
| .endOfText => "Expected end of stream"
| .valueStart => "Unexpected char for start of value"
| .openParen what => s!"Expected '(' for {what.name} literal"
| .monthDigit => "Invalid digit for month in date value"
| .dayDigit => "Invalid digit for day in date value"
| .dateDash => "Expected '-' for date value"
| .hourDigit => "Invalid digit for hour in date time value"
| .timeColon => "Expected ':' for time value"
| .minuteDigit => "Invalid digit for minute in time value"
| .secondDigit => "Invalid digit for seconds in time value"
| .millisDigit =>
    "Expected digits for milliseconds in time value"
| .zoneSign => "Expected -/+ for timezone offset"
| .zoneDigit => "Invalid digit for timezone offset"
| .zoneColon => "Expected colon for timezone offset"
| .zoneSpace =>
    "Expected space between timezone offset and name"
| .hexDigit => "Invalid hex char"
| .versionColon => "Expecting ':' colon"
| .versionQuote => "Expecting quoted version"
| .cellComma => "Expecting comma in row"
| .closeParen => "Expecting ')'"
| .other text => text

/- The words that join filters. -/
inductive Keyword where
| and
| or
deriving DecidableEq, Repr

/- The spelling of a keyword. -/
def Keyword.text : Keyword → String
| .and => "and"
| .or => "or"

/- What is wrong at a place of a text. -/
inductive Fault where
| expected (what : Expected) (found : Option Char)
| value (e : ValueError)
| filter (e : FilterError)
| unknownWord (word : String)
| unclosed (what : Enclosed)
| newlineIn (what : Enclosed)
| yearDigits (text : String)
| hourDigits (text : String)
| numeral (text : String)
| tooManyMillisDigits
| unknownZone (name : String)
| strEscape (c : Char)
| uriEscape (c : Char)
| lowSurrogate (code : Nat)
| unicodeEscape (code : Nat)
| header (name : String)
| version (text : String)
| duplicateColumn (name : String)
| keyword (word : Keyword)
| operand
| json
| unreadable (reason : String)
| invalidUtf8 (index : Nat) (width : Option Nat)
| other (text : String)
deriving DecidableEq, Repr

/- The character found in place of an expected one. -/
def Fault.foundText : Option Char → String
| none => "(end of stream)"
| some c =>
    let code := s!"char=0x{messageHex c.toNat}"
    if c < ' ' then s!"({code})" else s!"({code} '{c}')"

/- Four or more hexadecimal digits in a message. -/
def Fault.codeText (code : Nat) : String :=
  "\\u" ++ String.ofList (hexText4 code)

/- The wording of a fault. -/
def Fault.message : Fault → String
| .expected what found =>
    what.text ++ " " ++ foundText found
| .value e => e.message
| .filter e => e.message
| .unknownWord word => s!"Unknown value identifier: {word}"
| .unclosed what => s!"Unexpected end of {what.name} literal"
| .newlineIn what =>
    s!"Unexpected newline in {what.name} literal"
| .yearDigits text => s!"Invalid year for date value: {text}"
| .hourDigits text =>
    s!"Hour must be two digits for time value: {text}"
| .numeral text => s!"Invalid number literal: {text}"
| .tooManyMillisDigits =>
    "Too many digits for milliseconds in time value"
| .unknownZone name => s!"Unknown timezone: {name}"
| .strEscape c => "Invalid escape sequence: \\" ++ c.toString
| .uriEscape c => "Invalid URI escape sequence \\" ++ c.toString
| .lowSurrogate code =>
    "Invalid low surrogate: " ++ codeText code
| .unicodeEscape code =>
    "Invalid unicode escape: " ++ codeText code
| .header name =>
    "Expecting zinc header 'ver:\"2.0\"', not '" ++
      name ++ "'"
| .version text => s!"Unsupported zinc version: {text}"
| .duplicateColumn name => s!"Duplicate column name: {name}"
| .keyword word => s!"Expecting '{word.text}' keyword"
| .operand => "Expected value after operator"
| .json => JsonError.malformed.message
| .unreadable reason => s!"I/O error: {reason}"
| .invalidUtf8 index (some width) =>
    "Invalid UTF-8: " ++
      s!"invalid utf-8 sequence of {width} bytes " ++
      s!"from index {index}"
| .invalidUtf8 index none =>
    "Invalid UTF-8: incomplete utf-8 byte sequence " ++
      s!"from index {index}"
| .other text => text

/- A fault and the line it was found on. -/
structure ParseError where
  fault : Fault
  line : Nat
deriving DecidableEq, Repr

/- The wording of a parse error. -/
def ParseError.message (e : ParseError) : String :=
  s!"{e.fault.message} [Line {e.line}]"

------------------------------------------------------------
-- All Errors
------------------------------------------------------------

/- Anything that the library refuses. -/
inductive Error where
| value (e : ValueError)
| filter (e : FilterError)
| json (e : JsonError)
| parse (e : ParseError)
deriving Repr

namespace Error

/- The line that a text was refused on, if one was. -/
def line? : Error → Option Nat
| .parse e => some e.line
| .value _ => none
| .filter _ => none
| .json _ => none

/-
  Where parts were to be made of what stands on a line, their
  errors become errors of reading. All others stay.
-/
def atLine
    (e : Error)
    (line : Nat) : Error :=
  match e with
  | .value e => .parse ⟨.value e, line⟩
  | .filter e => .parse ⟨.filter e, line⟩
  | .json e => .json e
  | .parse e => .parse e

/- The wording of an error. -/
def message : Error → String
| .value e => s!"Invalid value: {e.message}"
| .filter e => s!"Invalid filter: {e.message}"
| .json e => s!"Invalid JSON: {e.message}"
| .parse e => e.message

/- The error taken apart, with its texts in quotes. -/
def details : Error → String
| .value e => s!"InvalidValue({quoted e.message})"
| .filter e => s!"InvalidFilter({quoted e.message})"
| .json e => s!"Json({quoted e.message})"
| .parse e =>
    "Parse \x7b message: " ++ quoted e.fault.message ++
      s!", line: {e.line} \x7d"

end Error

variable {α : Type}

/- A value that may fail to be made. -/
def orValueError :
    Except ValueError α → Except Error α
| .ok a => .ok a
| .error e => .error (.value e)

/- A filter that may fail to be made. -/
def orFilterError :
    Except FilterError α → Except Error α
| .ok a => .ok a
| .error e => .error (.filter e)

end Haystack
