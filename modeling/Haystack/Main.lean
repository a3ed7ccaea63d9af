import Haystack.Command.Arguments

/-
  This file holds the program: it reads the arguments and
  the input, runs a command, and prints the answer.

  Key definitions include:
    * `main`
-/

namespace Haystack

namespace Program

/- The text of a file, or of standard input if it is piped. -/
def readInput (file : Option String) : IO (Option String) := do
  match file with
  | some path => return some (← IO.FS.readFile path)
  | none =>
      let stdin ← IO.getStdin
      if ← stdin.isTty then return none
      else return some (← stdin.readToEnd)

/- Print an answer that ends its last line. -/
def printLine (text : String) : IO Unit :=
  if text.endsWith "\n" then IO.print text
  else IO.println text

/- Print an answer, or an error, and tell which it was. -/
def finish :
    Except CommandError String → IO UInt32
| .ok text => do
    printLine text
    return 0
| .error e => do
    IO.eprintln e.message
    return 1

/- Run a command. -/
def run : Invocation → IO UInt32
| .check filter =>
    finish (CheckResult.canonical <$> check filter)
| .query options file => do
    finish (query options (← readInput file))
| .convert options file => do
    finish (convert options (← readInput file))

/- Run a command; a file that cannot be read is an error. -/
def runSafely (invocation : Invocation) : IO UInt32 := do
  try
    run invocation
  catch e =>
    IO.eprintln s!"IO error: {e}"
    return 1

end Program

end Haystack

open Haystack in
/- Do what the arguments ask for. -/
def main (arguments : List String) : IO UInt32 := do
  match Invocation.ofArguments arguments with
  | some invocation => Program.runSafely invocation
  | none =>
      IO.eprintln usage
      return 2
