import Haystack.Json.Tagged

/-
  This file defines how commands answer: in one of three
  formats, or with an error.

  Key definitions include:
    * `OutputFormat`
    * `OutputFormat.ofFlags`
    * `OutputFormat.render`
    * `CommandError`
    * `Grid.ofError`
    * `Grid.ofCommandError`
-/

namespace Haystack

------------------------------------------------------------
-- Formats
------------------------------------------------------------

/- The formats that grids are written in. -/
inductive OutputFormat where
| zinc
| json
| prettyJson
deriving DecidableEq, Repr

namespace OutputFormat

/- The format that two flags choose. -/
def ofFlags : Bool → Bool → OutputFormat
| false, _ => .zinc
| true, false => .json
| true, true => .prettyJson

/- A grid in a format. -/
def render
    (g : Grid) : OutputFormat → String
| .zinc => Zinc.encode g
| .json => g.jsonText
| .prettyJson => g.prettyJsonText

end OutputFormat

------------------------------------------------------------
-- Errors
------------------------------------------------------------

/- What a command may fail with. -/
inductive CommandError where
| library (e : Error)
| noInput
deriving Repr

namespace CommandError

/- The wording of an error. -/
def message : CommandError → String
| .library e => e.message
| .noInput =>
    "No input provided. Use --input or pipe Zinc to stdin."

/- The error taken apart, and the error that caused it. -/
def trace : CommandError → String
| .library e =>
    s!"Haystack({e.details})\ncaused by: {e.message}"
| .noInput => "NoInput"

end CommandError

/- The grid that reports an error. -/
def Grid.ofError (e : Error) : Grid :=
  .ofFailure e.message e.details

/- The grid that reports an error of a command. -/
def Grid.ofCommandError (e : CommandError) : Grid :=
  .ofFailure e.message e.trace

namespace CommandError

/- What the library refuses, a command fails for. -/
def ofLibrary {α : Type} :
    Except Error α → Except CommandError α
| .ok a => .ok a
| .error e => .error (.library e)

/- The input, which must be there. -/
def need : Option String → Except CommandError String
| some input => .ok input
| none => .error .noInput

end CommandError

end Haystack
